import TradingPlatform.Control.CommandQueue
import TradingPlatform.Engine.RiskEscalation
import TradingPlatform.Lib.Runs

/-! # The preemption latch

The listener arms commands from its thread; the cycle polls `shouldPreempt`
and takes the pending command when it wakes. There is one slot for the pending
command and one escalation snapshot, and every arming overwrites both. A
record of the armed commands that are still owed to the cycle is carried
beside the latch: it takes no part in what the latch does (`run_latch`). -/

namespace TradingPlatform.Engine.PreemptionLatch

open TradingPlatform.Lib.Runs TradingPlatform.Control RiskEscalationSnapshot

structure PreemptionCheckpoint where
  phase : String
  step : String
  strategyId : Option String := none
  symbol : Option String := none
  deriving DecidableEq, Repr

structure EnginePreemptionLatch where
  escalation : RiskEscalationSnapshot := {}
  preemptionArmed : Bool := false
  pendingCommand : Option ControlCommand := none
  checkpoint : PreemptionCheckpoint := { phase := "idle", step := "start" }
  deriving DecidableEq, Repr

/-- The arguments of one `arm_command` call. -/
structure Arming where
  command : ControlCommand
  level : RiskEscalationLevel
  scopeKey : String := "GLOBAL"
  strategyId : Option String := none
  symbol : Option String := none
  deriving DecidableEq, Repr

def Arming.transition (a : Arming) : Transition where
  newLevel := a.level
  scopeKey := a.scopeKey
  strategyId := a.strategyId
  symbol := a.symbol
  commandedBy := a.command.commandType.value

namespace EnginePreemptionLatch

variable (upper : String → String)

def armCommand (latch : EnginePreemptionLatch) (a : Arming) : EnginePreemptionLatch :=
  { latch with
    escalation := latch.escalation.transition upper a.transition
    pendingCommand := some a.command
    preemptionArmed :=
      if a.level.preemptsInFlightCycle || a.level = .globalFlattenAndHalt then true
      else latch.preemptionArmed }

def armFlattenAndHalt (latch : EnginePreemptionLatch) (command : ControlCommand) :
    EnginePreemptionLatch :=
  latch.armCommand upper { command, level := .globalFlattenAndHalt, scopeKey := "GLOBAL" }

def shouldPreempt (latch : EnginePreemptionLatch) (strategyId symbol : Option String) : Bool :=
  if !latch.preemptionArmed then false
  else latch.escalation.requiresPreemption upper strategyId symbol

def setCheckpoint (latch : EnginePreemptionLatch) (checkpoint : PreemptionCheckpoint) :
    EnginePreemptionLatch :=
  { latch with checkpoint }

def takePendingCommand (latch : EnginePreemptionLatch) :
    Option ControlCommand × EnginePreemptionLatch :=
  (latch.pendingCommand, { latch with pendingCommand := none })

def clearPreemptionArm (latch : EnginePreemptionLatch) : EnginePreemptionLatch :=
  { latch with
    preemptionArmed := false
    pendingCommand := none
    checkpoint := { phase := "idle", step := "cleared" } }

/-- What the next `n` takes return. -/
def taken (latch : EnginePreemptionLatch) : Nat → List ControlCommand
  | 0 => []
  | n + 1 => latch.takePendingCommand.1.toList ++ latch.takePendingCommand.2.taken n

end EnginePreemptionLatch

inductive Event
  | armCommand (a : Arming)
  | setCheckpoint (checkpoint : PreemptionCheckpoint)
  | shouldPreempt (strategyId symbol : Option String)
  | takePendingCommand
  | clearPreemptionArm

variable (upper : String → String)

/-- What an event leaves of the latch; asking `shouldPreempt` leaves all of it. -/
def latchStep (latch : EnginePreemptionLatch) : Event → EnginePreemptionLatch
  | .armCommand a => latch.armCommand upper a
  | .setCheckpoint checkpoint => latch.setCheckpoint checkpoint
  | .shouldPreempt _ _ => latch
  | .takePendingCommand => latch.takePendingCommand.2
  | .clearPreemptionArm => latch.clearPreemptionArm

/-! ## Commands owed to the cycle -/

/-- A command armed at a preempting level, with the snapshot its arming wrote:
its level and its scope. -/
structure Armed where
  command : ControlCommand
  snapshot : RiskEscalationSnapshot
  deriving DecidableEq, Repr

/-- The latch and the armed commands not yet taken or cleared. -/
structure Ledger where
  latch : EnginePreemptionLatch := {}
  owed : List Armed := []
  deriving DecidableEq, Repr

def step (s : Ledger) (e : Event) : Ledger where
  latch := latchStep upper s.latch e
  owed :=
    match e with
    | .armCommand a =>
      if a.level.preemptsInFlightCycle then
        ⟨a.command, (s.latch.armCommand upper a).escalation⟩ :: s.owed
      else s.owed
    | .takePendingCommand => s.owed.filter fun r => s.latch.takePendingCommand.1 ≠ some r.command
    | .clearPreemptionArm => []
    | _ => s.owed

/-- The record changes nothing in the latch. -/
theorem run_latch (s : Ledger) (es : List Event) :
    (run (step upper) s es).latch = run (latchStep upper) s.latch es := by
  induction es generalizing s with
  | nil => rfl
  | cons e es ih => exact ih (step upper s e)

/-- What an armed command is promised: its scope is preempted, its level is not
lowered, and the takes to come return it. -/
structure Survives (latch : EnginePreemptionLatch) (r : Armed) : Prop where
  preempts : ∀ strategyId symbol, r.snapshot.requiresPreemption upper strategyId symbol = true →
    latch.shouldPreempt upper strategyId symbol = true
  level : r.snapshot.level ≤ latch.escalation.level
  taken : ∃ n, r.command ∈ latch.taken n

def AllSurvive (s : Ledger) : Prop := ∀ r ∈ s.owed, Survives upper s.latch r

/-- `new` is at no lower a level than `old`, and preempts all `old` does. -/
structure Covers (new old : RiskEscalationSnapshot) : Prop where
  level : old.level ≤ new.level
  preempts : ∀ strategyId symbol, old.requiresPreemption upper strategyId symbol = true →
    new.requiresPreemption upper strategyId symbol = true

variable {upper} in
theorem Covers.refl (snap : RiskEscalationSnapshot) : Covers upper snap snap :=
  ⟨le_rfl, fun _ _ h => h⟩

variable {upper} in
theorem Covers.trans {a b c : RiskEscalationSnapshot} (h : Covers upper a b)
    (h' : Covers upper b c) : Covers upper a c :=
  ⟨h'.level.trans h.level, fun s y hc => h.preempts s y (h'.preempts s y hc)⟩

/-- An arming while a preempting command is pending is of that command again,
and covers it. -/
def ArmSafe (s : Ledger) : Event → Prop
  | .armCommand a => ∀ c, s.latch.pendingCommand = some c →
      s.latch.escalation.level.preemptsInFlightCycle = true →
      a.command = c ∧
        Covers upper (s.latch.escalation.transition upper a.transition) s.latch.escalation
  | _ => True

/-! ## What the record always satisfies -/

structure Tracked (s : Ledger) : Prop where
  armed : ∀ r ∈ s.owed, s.latch.preemptionArmed = true
  preempting : ∀ r ∈ s.owed, r.snapshot.level.preemptsInFlightCycle = true
  pending : ∀ c, s.latch.pendingCommand = some c →
    s.latch.escalation.level.preemptsInFlightCycle = true → ⟨c, s.latch.escalation⟩ ∈ s.owed

theorem tracked_initial : Tracked {} where
  armed _ h := by cases h
  preempting _ h := by cases h
  pending _ h := by cases h

theorem mem_taken_iff {latch : EnginePreemptionLatch} {c : ControlCommand} :
    (∃ n, c ∈ latch.taken n) ↔ latch.pendingCommand = some c := by
  have hnone : ∀ (n : Nat) (l : EnginePreemptionLatch), l.pendingCommand = none →
      l.taken n = [] := by
    intro n
    induction n with
    | zero => intro l _; rfl
    | succ n ih =>
      intro l hl
      show l.pendingCommand.toList ++ l.takePendingCommand.2.taken n = []
      rw [hl, ih l.takePendingCommand.2 rfl]
      rfl
  constructor
  · intro h
    obtain ⟨n, hn⟩ := h
    cases n with
    | zero => cases hn
    | succ n =>
      have hn : c ∈ latch.pendingCommand.toList ++ latch.takePendingCommand.2.taken n := hn
      rw [hnone n latch.takePendingCommand.2 rfl, List.append_nil] at hn
      simpa using hn
  · intro h
    refine ⟨1, ?_⟩
    show c ∈ latch.pendingCommand.toList ++ []
    simp [h]

theorem armed_after {latch : EnginePreemptionLatch} {a : Arming}
    (h : a.level.preemptsInFlightCycle = true ∨ latch.preemptionArmed = true) :
    (latch.armCommand upper a).preemptionArmed = true := by
  unfold EnginePreemptionLatch.armCommand
  dsimp only
  split
  · rfl
  · rename_i hlevel
    simp only [Bool.or_eq_true, not_or] at hlevel
    exact h.resolve_left hlevel.1

theorem tracked_step {s : Ledger} (e : Event) (h : Tracked s) : Tracked (step upper s e) := by
  cases e with
  | armCommand a =>
    by_cases hlevel : a.level.preemptsInFlightCycle = true
    · have howed : (step upper s (.armCommand a)).owed =
          ⟨a.command, (s.latch.armCommand upper a).escalation⟩ :: s.owed := if_pos hlevel
      refine ⟨fun r _ => armed_after upper (.inl hlevel), ?_, ?_⟩
      · rw [howed]
        intro r hr
        rcases List.mem_cons.mp hr with rfl | hr
        · exact hlevel
        · exact h.preempting r hr
      · rw [howed]
        intro c hc _
        cases hc
        exact List.mem_cons_self
    · have howed : (step upper s (.armCommand a)).owed = s.owed := if_neg hlevel
      refine ⟨?_, ?_, fun c _ hp => absurd hp hlevel⟩
      · rw [howed]
        exact fun r hr => armed_after upper (.inr (h.armed r hr))
      · rw [howed]
        exact h.preempting
  | takePendingCommand =>
    exact ⟨fun r hr => h.armed r (List.mem_of_mem_filter hr),
      fun r hr => h.preempting r (List.mem_of_mem_filter hr), fun c hc => by cases hc⟩
  | clearPreemptionArm =>
    refine ⟨?_, ?_, ?_⟩
    · intro r hr
      cases hr
    · intro r hr
      cases hr
    · intro c hc
      cases hc
  | setCheckpoint checkpoint => exact ⟨h.armed, h.preempting, h.pending⟩
  | shouldPreempt strategyId symbol => exact h

/-- A surviving command is the one in the slot, under a snapshot that covers it. -/
theorem survives_iff {latch : EnginePreemptionLatch} {r : Armed}
    (harmed : latch.preemptionArmed = true) :
    Survives upper latch r ↔
      latch.pendingCommand = some r.command ∧ Covers upper latch.escalation r.snapshot := by
  have hshould : ∀ strategyId symbol, latch.shouldPreempt upper strategyId symbol =
      latch.escalation.requiresPreemption upper strategyId symbol := by
    intro strategyId symbol
    simp [EnginePreemptionLatch.shouldPreempt, harmed]
  constructor
  · intro h
    refine ⟨mem_taken_iff.mp h.taken, h.level, fun strategyId symbol hr => ?_⟩
    rw [← hshould]
    exact h.preempts strategyId symbol hr
  · intro h
    obtain ⟨hslot, hcover⟩ := h
    refine ⟨fun strategyId symbol hr => ?_, hcover.level, mem_taken_iff.mpr hslot⟩
    rw [hshould]
    exact hcover.preempts strategyId symbol hr

/-! ## One step, and runs -/

/-- While every owed command survives, an arming keeps them all exactly when it
is safe. -/
theorem arm_survive_iff {s : Ledger} (a : Arming) (h : Tracked s) (hs : AllSurvive upper s) :
    AllSurvive upper (step upper s (.armCommand a)) ↔ ArmSafe upper s (.armCommand a) := by
  constructor
  · intro hall c hc hlevel
    have hmem := h.pending c hc hlevel
    have hmem' : ⟨c, s.latch.escalation⟩ ∈ (step upper s (.armCommand a)).owed := by
      show _ ∈ (if a.level.preemptsInFlightCycle then _ else _)
      split
      · exact List.mem_cons_of_mem _ hmem
      · exact hmem
    have harmed : (s.latch.armCommand upper a).preemptionArmed = true :=
      armed_after upper (.inr (h.armed _ hmem))
    obtain ⟨hslot, hcover⟩ := (survives_iff upper harmed).mp (hall _ hmem')
    exact ⟨Option.some.inj hslot, hcover⟩
  · intro hsafe
    have hold : ∀ r ∈ s.owed, Survives upper (s.latch.armCommand upper a) r := by
      intro r hr
      obtain ⟨hslot, hcover⟩ := (survives_iff upper (h.armed r hr)).mp (hs r hr)
      have hlevel : s.latch.escalation.level.preemptsInFlightCycle = true := by
        by_contra hlow
        have hle := hcover.level.trans
          (RiskEscalationLevel.le_entryGateHalt_iff.mpr (eq_false_of_ne_true hlow))
        rw [RiskEscalationLevel.le_entryGateHalt_iff, h.preempting r hr] at hle
        cases hle
      obtain ⟨hsame, hnew⟩ := hsafe r.command hslot hlevel
      refine (survives_iff upper (armed_after upper (.inr (h.armed r hr)))).mpr ⟨?_, ?_⟩
      · exact congrArg some hsame
      · exact hnew.trans hcover
    intro r hr
    have hr : r ∈ (if a.level.preemptsInFlightCycle then
        (⟨a.command, (s.latch.armCommand upper a).escalation⟩ : Armed) :: s.owed
      else s.owed) := hr
    split at hr
    · rename_i hlevel
      rcases List.mem_cons.mp hr with rfl | hr
      · exact (survives_iff upper (armed_after upper (.inl hlevel))).mpr ⟨rfl, .refl _⟩
      · exact hold r hr
    · exact hold r hr

theorem survive_iff {s : Ledger} (e : Event) (h : Tracked s) (hs : AllSurvive upper s) :
    AllSurvive upper (step upper s e) ↔ ArmSafe upper s e := by
  cases e with
  | armCommand a => exact arm_survive_iff upper a h hs
  | setCheckpoint checkpoint =>
    refine ⟨fun _ => trivial, fun _ r hr => ⟨(hs r hr).preempts, (hs r hr).level, ?_⟩⟩
    have hslot := mem_taken_iff.mp (hs r hr).taken
    exact mem_taken_iff.mpr hslot
  | shouldPreempt strategyId symbol => exact ⟨fun _ => trivial, fun _ => hs⟩
  | clearPreemptionArm => exact ⟨fun _ => trivial, fun _ r hr => by cases hr⟩
  | takePendingCommand =>
    refine ⟨fun _ => trivial, fun _ r hr => ?_⟩
    obtain ⟨hr, hleft⟩ := List.mem_filter.mp hr
    have hslot := ((survives_iff upper (h.armed r hr)).mp (hs r hr)).1
    exact absurd hslot (of_decide_eq_true hleft)

/-- **Armed commands and later armings.** Along any run of the latch, every
armed preempting command keeps its scope preempted and its level, and is
returned by the takes to come, exactly when each arming made while such a
command is pending is of the same command and covers it. -/
theorem armed_survive_iff (es : List Event) :
    Along (step upper) (fun s e => AllSurvive upper (step upper s e)) {} es ↔
      Along (step upper) (ArmSafe upper) {} es :=
  along_next_iff (I := Tracked) (fun _ e h => tracked_step upper e h)
    (fun _ e h hs => survive_iff upper e h hs) es tracked_initial (fun _ h => by cases h)

def flattenCommand : ControlCommand where
  commandId := "cmd-flatten"
  commandType := .flattenAndHalt
  status := .processing
  createdAt := "2026-01-01T00:00:00+00:00"

def killCommand : ControlCommand where
  commandId := "cmd-kill"
  commandType := .engageKillSwitch
  status := .processing
  createdAt := "2026-01-01T00:00:01+00:00"

/-- A flatten, and a strategy kill before the cycle wakes. -/
def flattenThenKill : List Event :=
  [.armCommand { command := flattenCommand, level := .globalFlattenAndHalt },
   .armCommand
    { command := killCommand, level := .strategyLiquidate, strategyId := some "leg_a" }]

/-- The strategy kill lowers the level of the flatten and takes its slot. -/
theorem kill_drops_flatten :
    ¬ Along (step String.toUpper)
      (fun s e => AllSurvive String.toUpper (step String.toUpper s e)) {} flattenThenKill := by
  intro h
  have hflatten := h.2.1 ⟨flattenCommand, _⟩ (List.mem_cons_of_mem _ List.mem_cons_self)
  exact absurd hflatten.level (by decide)

end TradingPlatform.Engine.PreemptionLatch
