import Mathlib.Order.Basic
import Mathlib.Order.BooleanAlgebra.Basic

/-! # The risk escalation engine

One snapshot holds the level in force, its scope and who commanded it.
`transition` writes a whole new snapshot; only the shutdown latch looks at the
one before. `protection` collects everything the snapshot blocks or commands,
so that two snapshots are compared in one order. -/

namespace TradingPlatform.Engine

inductive RiskEscalationLevel
  | nominal
  | entryGateHalt
  | strategyLiquidate
  | globalFlattenAndHalt
  deriving DecidableEq, Repr

namespace RiskEscalationLevel

def preemptsInFlightCycle : RiskEscalationLevel → Bool
  | .strategyLiquidate | .globalFlattenAndHalt => true
  | _ => false

def commandsPortfolioLiquidation : RiskEscalationLevel → Bool
  | .globalFlattenAndHalt => true
  | _ => false

/-- The declared order of the levels. -/
def rank : RiskEscalationLevel → Nat
  | .nominal => 0
  | .entryGateHalt => 1
  | .strategyLiquidate => 2
  | .globalFlattenAndHalt => 3

theorem rank_injective : Function.Injective rank := by
  intro a b h
  cases a <;> cases b <;> first | rfl | cases h

instance : LinearOrder RiskEscalationLevel := LinearOrder.lift' rank rank_injective

theorem le_iff_rank {a b : RiskEscalationLevel} : a ≤ b ↔ a.rank ≤ b.rank := Iff.rfl

theorem le_entryGateHalt_iff {a : RiskEscalationLevel} :
    a ≤ .entryGateHalt ↔ a.preemptsInFlightCycle = false := by
  cases a <;> simp [le_iff_rank, rank, preemptsInFlightCycle]

theorem commandsPortfolioLiquidation_iff {a : RiskEscalationLevel} :
    a.commandsPortfolioLiquidation = true ↔ a = .globalFlattenAndHalt := by
  cases a <;> simp [commandsPortfolioLiquidation]

end RiskEscalationLevel

structure RiskEscalationSnapshot where
  level : RiskEscalationLevel := .nominal
  scopeKey : String := "GLOBAL"
  strategyId : Option String := none
  symbol : Option String := none
  portfolioLiquidationCommanded : Bool := false
  engineShutdownLatched : Bool := false
  commandedBy : String := "system"
  deriving DecidableEq, Repr

/-- The arguments of one `transition` call, with their defaults. -/
structure Transition where
  newLevel : RiskEscalationLevel
  scopeKey : String := "GLOBAL"
  strategyId : Option String := none
  symbol : Option String := none
  commandedBy : String := "system"
  deriving DecidableEq, Repr

/-- `s or default` on strings. -/
def orDefault (s default : String) : String := if s = "" then default else s

/-- Truth value of a `str | None`. -/
def truthy : Option String → Bool
  | none => false
  | some s => s ≠ ""

namespace RiskEscalationSnapshot

variable (upper : String → String)

def transition (prior : RiskEscalationSnapshot) (t : Transition) : RiskEscalationSnapshot where
  level := t.newLevel
  scopeKey := orDefault t.scopeKey "GLOBAL"
  strategyId := if truthy t.strategyId then t.strategyId else none
  symbol := if truthy t.symbol then t.symbol.map upper else none
  portfolioLiquidationCommanded := t.newLevel.commandsPortfolioLiquidation
  engineShutdownLatched :=
    if t.newLevel = .globalFlattenAndHalt then true else prior.engineShutdownLatched
  commandedBy := orDefault t.commandedBy "system"

def isEngineShutdownLatched (snap : RiskEscalationSnapshot) : Bool := snap.engineShutdownLatched

def shouldFlattenPortfolio (snap : RiskEscalationSnapshot) : Bool :=
  snap.level = .globalFlattenAndHalt || snap.portfolioLiquidationCommanded

def blocksEntriesForStrategy (snap : RiskEscalationSnapshot) (strategyId : String) : Bool :=
  if snap.level = .nominal then false
  else if snap.level = .strategyLiquidate then snap.strategyId = some strategyId
  else snap.level = .entryGateHalt || snap.level = .globalFlattenAndHalt

def blocksAllEntries (snap : RiskEscalationSnapshot) : Bool :=
  snap.level = .entryGateHalt || snap.level = .globalFlattenAndHalt

def requiresPreemption (snap : RiskEscalationSnapshot) (strategyId symbol : Option String) :
    Bool :=
  if snap.level = .globalFlattenAndHalt then true
  else if snap.level ≠ .strategyLiquidate then false
  else if truthy strategyId && truthy snap.strategyId && strategyId = snap.strategyId then true
  else if truthy symbol && truthy snap.symbol && symbol.map upper = snap.symbol then true
  else snap.strategyId = none && snap.symbol = none

section Lemmas

variable (prior snap : RiskEscalationSnapshot) (t : Transition)

@[simp] theorem transition_level : (prior.transition upper t).level = t.newLevel := rfl

/-- The shutdown latch is the one thing a transition never gives up. -/
theorem transition_keeps_latch (h : prior.isEngineShutdownLatched = true) :
    (prior.transition upper t).isEngineShutdownLatched = true := by
  have h : prior.engineShutdownLatched = true := h
  show (if t.newLevel = .globalFlattenAndHalt then true else prior.engineShutdownLatched) = true
  rw [h, ite_self]

theorem requiresPreemption_preempts {strategyId symbol : Option String}
    (h : snap.requiresPreemption upper strategyId symbol = true) :
    snap.level.preemptsInFlightCycle = true := by
  unfold requiresPreemption at h
  cases hl : snap.level with
  | strategyLiquidate => rfl
  | globalFlattenAndHalt => rfl
  | nominal => simp [hl] at h
  | entryGateHalt => simp [hl] at h

end Lemmas

end RiskEscalationSnapshot

/-- What an automatic check comes to: the value it returns, the transition it
asks the engine for, and the report it hands its sink. -/
structure CheckOutcome (β ρ : Type) where
  result : β
  transition : Option Transition := none
  report : Option ρ := none

/-! ## What a snapshot protects -/

/-- One thing an engine can be asked to block or command. -/
inductive Guard
  | flattenPortfolio
  | allEntries
  | entriesFor (strategyId : String)
  | preemption (strategyId symbol : Option String)

namespace RiskEscalationSnapshot

variable (upper : String → String)

/-- An optional request to the engine. -/
def obey (snap : RiskEscalationSnapshot) : Option Transition → RiskEscalationSnapshot
  | none => snap
  | some t => snap.transition upper t

@[simp] theorem obey_none (snap : RiskEscalationSnapshot) : snap.obey upper none = snap := rfl

@[simp] theorem obey_some (snap : RiskEscalationSnapshot) (t : Transition) :
    snap.obey upper (some t) = snap.transition upper t := rfl

/-- The answer to each guard. -/
def protection (snap : RiskEscalationSnapshot) : Guard → Bool
  | .flattenPortfolio => snap.shouldFlattenPortfolio
  | .allEntries => snap.blocksAllEntries
  | .entriesFor strategyId => snap.blocksEntriesForStrategy strategyId
  | .preemption strategyId symbol => snap.requiresPreemption upper strategyId symbol

/-- `new` is at no lower a level than `old` and still blocks and commands
everything `old` did. -/
structure NotWeakened (old new : RiskEscalationSnapshot) : Prop where
  level : old.level ≤ new.level
  protection : old.protection upper ≤ new.protection upper

variable {upper} in
theorem NotWeakened.refl (snap : RiskEscalationSnapshot) : NotWeakened upper snap snap :=
  ⟨le_rfl, le_rfl⟩

variable {upper} in
theorem NotWeakened.trans {a b c : RiskEscalationSnapshot} (h : NotWeakened upper a b)
    (h' : NotWeakened upper b c) : NotWeakened upper a c :=
  ⟨h.level.trans h'.level, h.protection.trans h'.protection⟩

/-- What every reachable snapshot satisfies: liquidation is commanded at the
global level and nowhere else. -/
def Coherent (snap : RiskEscalationSnapshot) : Prop :=
  snap.portfolioLiquidationCommanded = snap.level.commandsPortfolioLiquidation

theorem coherent_initial : Coherent {} := rfl

theorem coherent_transition (prior : RiskEscalationSnapshot) (t : Transition) :
    Coherent (prior.transition upper t) := rfl

/-- **A move to ENTRY_GATE_HALT.** It weakens exactly the levels above. -/
theorem notWeakened_entryGateHalt_iff {old new : RiskEscalationSnapshot} (hold : old.Coherent)
    (hnew : new.level = .entryGateHalt) :
    NotWeakened upper old new ↔ old.level ≤ .entryGateHalt := by
  constructor
  · intro h
    exact hnew ▸ h.level
  · intro h
    refine ⟨hnew ▸ h, ?_⟩
    rw [RiskEscalationLevel.le_entryGateHalt_iff] at h
    have hflat : old.level ≠ .globalFlattenAndHalt := by
      intro hl
      rw [hl] at h
      cases h
    intro g hg
    cases g with
    | flattenPortfolio =>
      have hliq : old.portfolioLiquidationCommanded = true := by
        simpa [protection, shouldFlattenPortfolio, hflat] using hg
      rw [hold, RiskEscalationLevel.commandsPortfolioLiquidation_iff] at hliq
      exact absurd hliq hflat
    | allEntries => simp [protection, blocksAllEntries, hnew]
    | entriesFor strategyId => simp [protection, blocksEntriesForStrategy, hnew]
    | preemption strategyId symbol =>
      have hpreempts := requiresPreemption_preempts upper old hg
      rw [h] at hpreempts
      cases hpreempts

end RiskEscalationSnapshot

end TradingPlatform.Engine
