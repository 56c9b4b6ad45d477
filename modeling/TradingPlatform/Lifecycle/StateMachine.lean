import TradingPlatform.Lib.Runs

/-! # The lifecycle of a leg

Seven states, a ladder of promotions that only a gate may climb, and a demotion that
is always there. The report sink may raise: by then the state has moved. -/

namespace TradingPlatform.Lifecycle.StateMachine
open TradingPlatform.Lib.Runs

inductive LifecycleState
  | candidate | validated | paper | active | watch | safeMode | retired
  deriving DecidableEq

open LifecycleState

def LifecycleState.value : LifecycleState → String
  | candidate => "CANDIDATE"
  | validated => "VALIDATED"
  | paper => "PAPER"
  | active => "ACTIVE"
  | watch => "WATCH"
  | safeMode => "SAFE_MODE"
  | retired => "RETIRED"

def legalTransitions : LifecycleState → List LifecycleState
  | candidate => [validated, safeMode, retired]
  | validated => [paper, safeMode, retired]
  | paper => [active, safeMode, retired]
  | active => [watch, safeMode, retired]
  | watch => [active, safeMode, retired]
  | safeMode => [retired]
  | retired => []

def promotionTargets : List LifecycleState := [validated, paper, active]

structure TransitionRecord where
  legId : String
  fromState : LifecycleState
  toState : LifecycleState
  reason : String
  actor : String
  deriving DecidableEq

/-- The `DiagnosticReport` of a transition. -/
structure Report where
  kind : String
  legId : String
  fromState : String
  toState : String
  reason : String
  actor : String
  safeModeEpisodes : ℕ
  deriving DecidableEq

inductive TransitionError
  | illegalTransition (message : String)
  | sinkRaised (message : String)
  deriving DecidableEq

/-- The machine, and what its sink has taken, the oldest first. -/
structure LifecycleStateMachine where
  legId : String
  state : LifecycleState
  safeModeEpisodes : ℕ
  reports : List Report
  deriving DecidableEq

/-- A call of `transition`, and what the sink would raise at it. -/
structure Call where
  toState : LifecycleState
  reason : String
  actor : String
  sinkRaises : Option String
  deriving DecidableEq

namespace LifecycleStateMachine

def new (legId : String) (state : LifecycleState) : LifecycleStateMachine where
  legId
  state
  safeModeEpisodes := 0
  reports := []

def canTransition (m : LifecycleStateMachine) (toState : LifecycleState) (actor : String) : Bool :=
  if toState ∉ legalTransitions m.state then false
  else if actor = "operator" ∧ toState ∈ promotionTargets then false
  else true

/-- The record of the call, were it legal. -/
def record (m : LifecycleStateMachine) (c : Call) : TransitionRecord where
  legId := m.legId
  fromState := m.state
  toState := c.toState
  reason := c.reason
  actor := c.actor

/-- The machine in the new state, before the sink is called. -/
def moved (m : LifecycleStateMachine) (c : Call) : LifecycleStateMachine :=
  { m with
    safeModeEpisodes :=
      if c.toState = safeMode then m.safeModeEpisodes + 1 else m.safeModeEpisodes
    state := c.toState }

def report (m : LifecycleStateMachine) (c : Call) : Report where
  kind := "lifecycle_transition"
  legId := m.legId
  fromState := m.state.value
  toState := c.toState.value
  reason := c.reason
  actor := c.actor
  safeModeEpisodes := (m.moved c).safeModeEpisodes

def transition (m : LifecycleStateMachine) (c : Call) :
    Except TransitionError TransitionRecord × LifecycleStateMachine :=
  if c.toState = m.state then
    (.error (.illegalTransition s!"{m.legId}: already in {c.toState.value}"), m)
  else if m.canTransition c.toState c.actor = false then
    (.error (.illegalTransition
      (s!"{m.legId}: illegal transition {m.state.value} -> {c.toState.value} " ++
        s!"(actor={c.actor})")), m)
  else
    match c.sinkRaises with
    | some message => (.error (.sinkRaised message), m.moved c)
    | none => (.ok (m.record c), { m.moved c with reports := m.reports ++ [m.report c] })

def after (m : LifecycleStateMachine) (c : Call) : LifecycleStateMachine := (m.transition c).2

/-- The call moves the machine. -/
def Moves (m : LifecycleStateMachine) (c : Call) : Prop :=
  c.toState ∈ legalTransitions m.state ∧ (c.actor = "operator" → c.toState ∉ promotionTargets)

instance (m : LifecycleStateMachine) (c : Call) : Decidable (m.Moves c) :=
  inferInstanceAs (Decidable (_ ∧ (_ → _)))

/-- The transitions a run makes, whatever its sink takes of them. -/
def path (m : LifecycleStateMachine) : List Call → List TransitionRecord
  | [] => []
  | c :: cs => if m.Moves c then m.record c :: path (m.after c) cs else path (m.after c) cs

/-! ## What one call does -/

variable {m : LifecycleStateMachine} {c : Call}

theorem not_mem_legalTransitions_self (s : LifecycleState) : s ∉ legalTransitions s := by
  cases s <;> simp [legalTransitions]

theorem canTransition_iff : m.canTransition c.toState c.actor = true ↔ m.Moves c := by
  unfold canTransition Moves
  split
  case isTrue h => simp [h]
  case isFalse h =>
    rw [not_not] at h
    simp only [h, true_and]
    split <;> simp_all

/-- A call that moves the machine does so whatever the sink does; any other call leaves it. -/
theorem after_eq : m.after c =
    if m.Moves c then
      { m.moved c with
        reports := if c.sinkRaises = none then m.reports ++ [m.report c] else m.reports }
    else m := by
  unfold after transition
  by_cases hmoves : m.Moves c
  · have hne : c.toState ≠ m.state := fun h =>
      not_mem_legalTransitions_self m.state (h ▸ hmoves.1)
    rw [if_neg hne, if_neg (by simp [canTransition_iff.mpr hmoves]), if_pos hmoves]
    cases c.sinkRaises with
    | none => rfl
    | some message => rfl
  · rw [if_neg hmoves]
    split
    case isTrue => rfl
    case isFalse =>
      rw [if_pos (Bool.eq_false_iff.mpr (mt canTransition_iff.mp hmoves))]

theorem after_of_moves (h : m.Moves c) :
    (m.after c).state = c.toState ∧ (m.after c).legId = m.legId ∧
      (m.after c).safeModeEpisodes = (m.moved c).safeModeEpisodes := by
  rw [after_eq, if_pos h]
  exact ⟨rfl, rfl, rfl⟩

theorem after_reports (h : m.Moves c) : (m.after c).reports =
    if c.sinkRaises = none then m.reports ++ [m.report c] else m.reports := by
  rw [after_eq, if_pos h]

theorem after_of_not_moves (h : ¬ m.Moves c) : m.after c = m := by
  rw [after_eq, if_neg h]

end LifecycleStateMachine

open LifecycleStateMachine

/-! ## Runs -/

/-- Out of trading for good. -/
def Demoted (s : LifecycleState) : Prop := s = safeMode ∨ s = retired

theorem Demoted.of_legal {s t : LifecycleState} (h : Demoted s) (ht : t ∈ legalTransitions s) :
    s = safeMode ∧ t = retired := by
  rcases h with rfl | rfl
  · simpa [legalTransitions] using ht
  · simp [legalTransitions] at ht

theorem retired_path {m : LifecycleStateMachine} (h : m.state = retired) (cs : List Call) :
    m.path cs = [] := by
  induction cs with
  | nil => rfl
  | cons c cs ih =>
    have hstays : ¬ m.Moves c := fun hmoves => by
      have hlegal := hmoves.1
      rw [h] at hlegal
      cases hlegal
    rw [LifecycleStateMachine.path, if_neg hstays, after_of_not_moves hstays]
    exact ih

/-- A demoted leg retires, if it moves at all. -/
theorem Demoted.path {m : LifecycleStateMachine} (h : Demoted m.state) (cs : List Call) :
    Demoted (run LifecycleStateMachine.after m cs).state ∧ (m.path cs).length ≤ 1 ∧
      ∀ r ∈ m.path cs, r.fromState = safeMode ∧ r.toState = retired := by
  induction cs generalizing m with
  | nil => simpa [LifecycleStateMachine.path] using h
  | cons c cs ih =>
    rw [run_cons, LifecycleStateMachine.path]
    by_cases hmoves : m.Moves c
    · obtain ⟨hfrom, hto⟩ := h.of_legal hmoves.1
      have hstate : (m.after c).state = retired := (after_of_moves hmoves).1.trans hto
      rw [if_pos hmoves, retired_path hstate]
      refine ⟨(ih (.inr hstate)).1, le_rfl, fun r hr => ?_⟩
      rw [List.mem_singleton.mp hr]
      exact ⟨hfrom, hto⟩
    · rw [if_neg hmoves, after_of_not_moves hmoves]
      exact ih h

/-! ## One demotion -/

theorem path_append (m : LifecycleStateMachine) (cs ds : List Call) :
    m.path (cs ++ ds) = m.path cs ++ (run LifecycleStateMachine.after m cs).path ds := by
  induction cs generalizing m with
  | nil => rfl
  | cons c cs ih =>
    rw [List.cons_append, LifecycleStateMachine.path, LifecycleStateMachine.path, run_cons, ih]
    split <;> rfl

/-- How often a path goes into safe mode. -/
def demotions (p : List TransitionRecord) : ℕ := p.countP fun r => r.toState = safeMode

/-- The counter counts, and what it has counted is the end of trading. -/
structure EpisodesKept (p : List TransitionRecord) (m : LifecycleStateMachine) : Prop where
  counted : m.safeModeEpisodes = demotions p
  atMostOne : m.safeModeEpisodes ≤ 1
  final : m.safeModeEpisodes = 1 → Demoted m.state

theorem EpisodesKept.moved {p : List TransitionRecord} {m : LifecycleStateMachine}
    (h : EpisodesKept p m) {c : Call} (hmoves : m.Moves c) :
    EpisodesKept (p ++ [m.record c]) (m.after c) := by
  obtain ⟨hstate, -, hcount⟩ := after_of_moves hmoves
  have hpath : demotions (p ++ [m.record c]) =
      demotions p + if c.toState = safeMode then 1 else 0 := by
    simp [demotions, List.countP_append, List.countP_singleton, LifecycleStateMachine.record]
  have hfinal (hone : m.safeModeEpisodes = 1) : c.toState = retired :=
    ((h.final hone).of_legal hmoves.1).2
  have hkept := h.atMostOne
  by_cases hsafe : c.toState = safeMode
  · -- a leg that was demoted before does not come back to be demoted again
    have hnone : m.safeModeEpisodes = 0 := by
      by_contra hne
      have hretired := hfinal (by omega)
      rw [hsafe] at hretired
      cases hretired
    have hone : (m.after c).safeModeEpisodes = 1 := by
      rw [hcount]
      simp [LifecycleStateMachine.moved, hsafe, hnone]
    refine ⟨?_, hone.le, fun _ => .inl (hstate.trans hsafe)⟩
    rw [hpath, if_pos hsafe, ← h.counted, hone, hnone]
  · have hsame : (m.after c).safeModeEpisodes = m.safeModeEpisodes := by
      rw [hcount]
      simp [LifecycleStateMachine.moved, hsafe]
    refine ⟨?_, hsame.trans_le hkept, fun hone => .inr (hstate.trans (hfinal (hsame ▸ hone)))⟩
    rw [hpath, if_neg hsafe, hsame, h.counted, Nat.add_zero]

theorem episodesKept_run (legId : String) (start : LifecycleState) (cs : List Call) :
    EpisodesKept ((new legId start).path cs)
      (run LifecycleStateMachine.after (new legId start) cs) := by
  induction cs using List.reverseRecOn with
  | nil => exact ⟨rfl, Nat.zero_le _, fun h => by cases h⟩
  | append_singleton cs c ih =>
    rw [path_append, run_append, run_cons, run_nil, LifecycleStateMachine.path]
    split
    case isTrue hmoves => exact ih.moved hmoves
    case isFalse hstays =>
      rw [after_of_not_moves hstays, LifecycleStateMachine.path, List.append_nil]
      exact ih

/-- **A demotion is final.** Whatever is asked of a leg and whoever asks, the episode counter
counts its moves into safe mode, there is at most one, and from then on, or once retired, it
makes no move but the one from safe mode into retirement. -/
theorem demotion_is_final (legId : String) (start : LifecycleState) (cs ds : List Call) :
    (run after (new legId start) cs).safeModeEpisodes = demotions ((new legId start).path cs) ∧
      (run after (new legId start) cs).safeModeEpisodes ≤ 1 ∧
      (Demoted (run after (new legId start) cs).state →
        Demoted (run after (new legId start) (cs ++ ds)).state ∧
        ((run after (new legId start) cs).path ds).length ≤ 1 ∧
        ∀ r ∈ (run after (new legId start) cs).path ds,
          r.fromState = safeMode ∧ r.toState = retired) := by
  have hkept := episodesKept_run legId start cs
  refine ⟨hkept.counted, hkept.atMostOne, fun h => ?_⟩
  rw [run_append]
  exact h.path ds

/-! ## The climb -/

def ladder : List LifecycleState := [validated, paper, active]

/-- The rungs of the ladder below a trading state. -/
def rungs : LifecycleState → ℕ
  | validated => 1
  | paper => 2
  | active | watch => 3
  | candidate | safeMode | retired => 0

/-- The records lead from one state to the other, each of them legal. -/
inductive Leads (start : LifecycleState) : List TransitionRecord → LifecycleState → Prop
  | nil : Leads start [] start
  | concat {p : List TransitionRecord} {r : TransitionRecord} (hp : Leads start p r.fromState)
      (hlegal : r.toState ∈ legalTransitions r.fromState) : Leads start (p ++ [r]) r.toState

/-- A legal move within trading adds the next rung, or is made at the top. -/
theorem ladder_step {s t : LifecycleState} (hlegal : t ∈ legalTransitions s)
    (hup : ¬ Demoted t) :
    (rungs s < 3 ∧ ladder.take (rungs s) ++ [t] = ladder.take (rungs t)) ∨
      (rungs s = 3 ∧ rungs t = 3) := by
  revert hlegal hup
  cases s <;> cases t <;> simp [legalTransitions, Demoted, rungs, ladder]

/-- A path from the bottom starts with the rungs below where it has got to. -/
theorem Leads.climbs {p : List TransitionRecord} {s : LifecycleState} (h : Leads candidate p s) :
    ¬ Demoted s → (p.map TransitionRecord.toState).take 3 = ladder.take (rungs s) := by
  induction h with
  | nil => exact fun _ => rfl
  | @concat p r _ hlegal ih =>
    intro hup
    have hbelow := ih fun hdown => hup (.inr (hdown.of_legal hlegal).2)
    have hlen := congrArg List.length hbelow
    rw [List.length_take, List.length_take, List.length_map] at hlen
    rw [List.map_append, List.map_singleton, List.take_append, hbelow, List.length_map]
    rcases ladder_step hlegal hup with ⟨hlow, hnext⟩ | ⟨htop, htop'⟩
    · have hroom : 1 ≤ 3 - p.length := by
        simp only [ladder, List.length_cons, List.length_nil] at hlen
        omega
      have hwhole : [r.toState].take (3 - p.length) = [r.toState] := List.take_of_length_le hroom
      rw [hwhole, hnext]
    · have hfull : 3 - p.length = 0 := by
        rw [htop] at hlen
        simp only [ladder, List.length_cons, List.length_nil] at hlen
        omega
      rw [hfull, List.take_zero, List.append_nil, htop, htop']

theorem leads_path (m : LifecycleStateMachine) (cs : List Call) :
    Leads m.state (m.path cs) (run LifecycleStateMachine.after m cs).state := by
  induction cs using List.reverseRecOn with
  | nil => exact .nil
  | append_singleton cs c ih =>
    rw [path_append, run_append, run_cons, run_nil, LifecycleStateMachine.path]
    split
    case isTrue hmoves =>
      rw [(after_of_moves hmoves).1]
      exact .concat (r := (run LifecycleStateMachine.after m cs).record c) ih hmoves.1
    case isFalse hstays =>
      rw [after_of_not_moves hstays, LifecycleStateMachine.path, List.append_nil]
      exact ih

theorem not_operator_of_promotion (m : LifecycleStateMachine) (cs : List Call) :
    ∀ r ∈ m.path cs, r.toState ∈ promotionTargets → r.actor ≠ "operator" := by
  induction cs generalizing m with
  | nil => simp [LifecycleStateMachine.path]
  | cons c cs ih =>
    rw [LifecycleStateMachine.path]
    split
    case isTrue hmoves =>
      intro r hr hup hoperator
      rcases List.mem_cons.mp hr with rfl | hr
      · exact hmoves.2 hoperator hup
      · exact ih _ r hr hup hoperator
    case isFalse => exact ih _

/-- **Capital is reached by the ladder.** From a candidate, the moves of any run lead step by
legal step to where the leg is; none of the promotions is an operator's; and a leg that is
still in trading has begun with the promotions below it, every one of them, in order. -/
theorem climbs_by_gates (legId : String) (cs : List Call) :
    Leads candidate ((new legId candidate).path cs)
        (run after (new legId candidate) cs).state ∧
      (∀ r ∈ (new legId candidate).path cs, r.toState ∈ promotionTargets →
        r.actor ≠ "operator") ∧
      (¬ Demoted (run after (new legId candidate) cs).state →
        (((new legId candidate).path cs).map TransitionRecord.toState).take 3 =
          ladder.take (rungs (run after (new legId candidate) cs).state)) := by
  have hleads := leads_path (new legId candidate) cs
  exact ⟨hleads, not_operator_of_promotion _ cs, hleads.climbs⟩

/-! ## The durable record -/

/-- What a report says of its move. -/
def Report.link (report : Report) : String × String × String × String × String :=
  (report.legId, report.fromState, report.toState, report.reason, report.actor)

def TransitionRecord.link (r : TransitionRecord) : String × String × String × String × String :=
  (r.legId, r.fromState.value, r.toState.value, r.reason, r.actor)

/-- The sink takes the report of every move. -/
def SinkHolds (m : LifecycleStateMachine) (c : Call) : Prop := m.Moves c → c.sinkRaises = none

/-- The log of a run goes on with what the sink takes of its path. -/
theorem reports_run (m : LifecycleStateMachine) (cs : List Call) :
    ∃ log : List Report, (run LifecycleStateMachine.after m cs).reports = m.reports ++ log ∧
      (log.map Report.link).Sublist ((m.path cs).map TransitionRecord.link) ∧
      (log.length = (m.path cs).length ↔ Along LifecycleStateMachine.after SinkHolds m cs) := by
  induction cs generalizing m with
  | nil => exact ⟨[], (List.append_nil _).symm, List.Sublist.refl _, iff_of_true rfl trivial⟩
  | cons c cs ih =>
    obtain ⟨log, hlog, hsub, hlen⟩ := ih (m.after c)
    have hshort := hsub.length_le
    rw [List.length_map, List.length_map] at hshort
    rw [run_cons, LifecycleStateMachine.path, Along, SinkHolds, hlog, ← hlen]
    by_cases hmoves : m.Moves c
    · rw [if_pos hmoves, after_reports hmoves]
      cases hsink : c.sinkRaises with
      | none =>
        refine ⟨m.report c :: log, by simp, ?_, by simp⟩
        exact hsub.cons_cons (m.record c).link
      | some message =>
        -- the move is lost to the log, which falls behind for good
        refine ⟨log, by simp, hsub.cons (m.record c).link, ?_⟩
        simp only [List.length_cons, hmoves, reduceCtorEq, imp_false, not_true_eq_false,
          false_and, iff_false]
        omega
    · rw [if_neg hmoves]
      have hstays := after_of_not_moves hmoves
      refine ⟨log, by rw [hstays], hsub, by simp [hmoves]⟩

/-- **The durable record replays the leg** exactly while its sink takes every report: the log
is always a part of the path, in order, and it is the whole path if and only if at no move of
the run the sink raised. -/
theorem log_replays_iff (legId : String) (start : LifecycleState) (cs : List Call) :
    ((run after (new legId start) cs).reports.map Report.link).Sublist
        (((new legId start).path cs).map TransitionRecord.link) ∧
      ((run after (new legId start) cs).reports.map Report.link =
          ((new legId start).path cs).map TransitionRecord.link ↔
        Along after SinkHolds (new legId start) cs) := by
  obtain ⟨log, hlog, hsub, hlen⟩ := reports_run (new legId start) cs
  have hall : (run after (new legId start) cs).reports = log := hlog
  rw [hall, ← hlen]
  refine ⟨hsub, ?_⟩
  constructor
  · intro h
    simpa using congrArg List.length h
  · intro h
    exact hsub.eq_of_length (by simpa using h)

end TradingPlatform.Lifecycle.StateMachine
