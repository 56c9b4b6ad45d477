import TradingPlatform.Engine.RiskEscalation
import TradingPlatform.Lib.Runs

/-! # The scope of a strategy liquidation

A cycle is preempted when its strategy is named, when its symbol is, or when the
liquidation names neither. Entries are blocked by the strategy alone. The two
agree as long as every liquidation names a strategy and no symbol. -/

namespace TradingPlatform.Engine.RiskEscalationSnapshot

open TradingPlatform.Lib.Runs

variable (upper : String → String)

/-- A leg whose cycle is preempted can open no entry. -/
def PreemptionBlocks (snap : RiskEscalationSnapshot) : Prop :=
  ∀ (strategyId : String) (symbol : Option String),
    snap.requiresPreemption upper (some strategyId) symbol = true →
      snap.blocksEntriesForStrategy strategyId = true

/-- A strategy liquidation names its strategy, and no symbol. -/
def NamesStrategyOnly (t : Transition) : Prop :=
  t.newLevel = .strategyLiquidate → truthy t.strategyId = true ∧ truthy t.symbol = false

instance (t : Transition) : Decidable (NamesStrategyOnly t) := inferInstanceAs (Decidable (_ → _))

variable {upper}

theorem truthy_some {s : String} : truthy (some s) = true ↔ s ≠ "" := decide_eq_true_iff

theorem exists_of_truthy {o : Option String} (h : truthy o = true) : ∃ s, o = some s ∧ s ≠ "" := by
  cases o with
  | none => cases h
  | some s => exact ⟨s, rfl, truthy_some.mp h⟩

/-- There is always another strategy. -/
theorem exists_other (o : Option String) : ∃ s : String, o ≠ some s := by
  by_cases h : o = some "a"
  · exact ⟨"b", by rw [h]; decide⟩
  · exact ⟨"a", h⟩

section Level
variable {snap : RiskEscalationSnapshot}

/-- Only a strategy liquidation can preempt what it does not block. -/
theorem preemptionBlocks_of_level (h : snap.level ≠ .strategyLiquidate) :
    snap.PreemptionBlocks upper := by
  intro strategyId symbol hp
  unfold requiresPreemption at hp
  unfold blocksEntriesForStrategy
  cases hl : snap.level with
  | nominal => simp [hl] at hp
  | entryGateHalt => simp
  | strategyLiquidate => exact absurd hl h
  | globalFlattenAndHalt => simp

variable (h : snap.level = .strategyLiquidate)
include h

theorem blocksEntries_liquidate (strategyId : String) :
    snap.blocksEntriesForStrategy strategyId = true ↔ snap.strategyId = some strategyId := by
  simp [blocksEntriesForStrategy, h]

/-- What a strategy liquidation preempts. -/
theorem requiresPreemption_liquidate (strategyId symbol : Option String) :
    snap.requiresPreemption upper strategyId symbol = true ↔
      (truthy strategyId = true ∧ strategyId = snap.strategyId) ∨
      (truthy symbol = true ∧ truthy snap.symbol = true ∧ symbol.map upper = snap.symbol) ∨
      (snap.strategyId = none ∧ snap.symbol = none) := by
  unfold requiresPreemption
  rw [h, if_neg (by decide), if_neg (by decide)]
  by_cases hs : truthy strategyId = true ∧ strategyId = snap.strategyId
  · obtain ⟨htrue, heq⟩ := hs
    simp [← heq, htrue]
  · have hs' : ¬ (truthy strategyId && truthy snap.strategyId &&
        decide (strategyId = snap.strategyId)) = true := by
      intro hall
      rw [Bool.and_eq_true, Bool.and_eq_true, decide_eq_true_eq] at hall
      exact hs ⟨hall.1.1, hall.2⟩
    rw [if_neg hs', or_iff_right hs]
    by_cases hy : truthy symbol = true ∧ truthy snap.symbol = true ∧
        symbol.map upper = snap.symbol
    · simp [hy]
    · have hy' : ¬ (truthy symbol && truthy snap.symbol &&
          decide (symbol.map upper = snap.symbol)) = true := by
        intro hall
        rw [Bool.and_eq_true, Bool.and_eq_true, decide_eq_true_eq, and_assoc] at hall
        exact hy hall
      rw [if_neg hy', or_iff_right hy, Bool.and_eq_true, decide_eq_true_eq, decide_eq_true_eq]

end Level

/-- **One transition.** The new snapshot blocks what it preempts exactly when a
liquidation names a strategy and no symbol. -/
theorem preemptionBlocks_transition (hupper : ∀ s, upper s = "" → s = "")
    (prior : RiskEscalationSnapshot) (t : Transition) :
    (prior.transition upper t).PreemptionBlocks upper ↔ NamesStrategyOnly t := by
  by_cases hl : t.newLevel = .strategyLiquidate
  case neg => exact iff_of_true (preemptionBlocks_of_level hl) fun h => absurd h hl
  have hlevel : (prior.transition upper t).level = .strategyLiquidate := hl
  unfold PreemptionBlocks NamesStrategyOnly
  simp only [blocksEntries_liquidate hlevel, requiresPreemption_liquidate hlevel]
  rw [forall_prop_of_true hl]
  constructor
  · intro hblocks
    -- a liquidation of a symbol preempts strategies it does not name
    have hsym : truthy t.symbol = false := by
      rw [Bool.eq_false_iff]
      intro hsym
      obtain ⟨symbol, hsymbol, hne⟩ := exists_of_truthy hsym
      have hstored : (prior.transition upper t).symbol = some (upper symbol) := by
        show (if truthy t.symbol then t.symbol.map upper else none) = _
        rw [if_pos hsym, hsymbol, Option.map_some]
      obtain ⟨other, hother⟩ := exists_other (prior.transition upper t).strategyId
      refine hother (hblocks other t.symbol (.inr (.inl ⟨hsym, ?_, ?_⟩)))
      · rw [hstored, truthy_some]
        exact fun hz => hne (hupper _ hz)
      · rw [hstored, hsymbol, Option.map_some]
    refine ⟨?_, hsym⟩
    -- one that names nothing preempts everyone
    by_contra hstrategy
    have hnone : (prior.transition upper t).strategyId = none := if_neg hstrategy
    have hsymbol : (prior.transition upper t).symbol = none := if_neg (Bool.eq_false_iff.mp hsym)
    have hblock := hblocks "" none (.inr (.inr ⟨hnone, hsymbol⟩))
    rw [hnone] at hblock
    cases hblock
  · intro hnamed strategyId symbol hp
    obtain ⟨hstrategy, hsym⟩ := hnamed
    have hstored : (prior.transition upper t).strategyId = t.strategyId := if_pos hstrategy
    have hsymbol : (prior.transition upper t).symbol = none := if_neg (Bool.eq_false_iff.mp hsym)
    rcases hp with ⟨-, heq⟩ | ⟨-, htruthy, -⟩ | ⟨hnone, -⟩
    · exact heq.symm
    · rw [hsymbol] at htruthy
      cases htruthy
    · rw [← hstored, hnone] at hstrategy
      cases hstrategy

theorem preemptionBlocks_initial : PreemptionBlocks upper {} :=
  preemptionBlocks_of_level (by decide)

/-- **Preemption implies entry blocking** in every state of a run exactly when each
strategy liquidation of the run names a strategy and no symbol. -/
theorem preemptionBlocks_run_iff (upper : String → String) (hupper : ∀ s, upper s = "" → s = "")
    (ts : List Transition) :
    (∀ before, before <+: ts → (run (transition upper) {} before).PreemptionBlocks upper) ↔
      ∀ t ∈ ts, NamesStrategyOnly t := by
  constructor
  · intro hall t ht
    obtain ⟨before, after, rfl⟩ := List.append_of_mem ht
    have hblocks := hall (before ++ [t]) ⟨after, by rw [List.append_assoc]; rfl⟩
    rw [run_append] at hblocks
    exact (preemptionBlocks_transition hupper _ t).mp hblocks
  · intro hnames before hbefore
    induction before using List.reverseRecOn with
    | nil => exact preemptionBlocks_initial
    | append_singleton before t _ =>
      rw [run_append]
      refine (preemptionBlocks_transition hupper _ t).mpr (hnames t ?_)
      exact hbefore.subset List.mem_concat_self

def liquidateSymbol : Transition :=
  { newLevel := .strategyLiquidate, strategyId := some "leg_a", symbol := some "QQQ" }

/-- `leg_b` trades the symbol too: its cycle is preempted and its entries stay open. -/
theorem preempted_leg_enters :
    ¬ (run (transition id) {} [liquidateSymbol]).PreemptionBlocks id := by
  intro h
  exact absurd (h "leg_b" (some "QQQ") (by decide)) (by decide)

theorem preemptionBlocks_run_liquidateSymbol :
    (∀ s, id s = "" → s = "") ∧
      ((∀ before, before <+: [liquidateSymbol] →
          (run (transition id) {} before).PreemptionBlocks id) ↔
        ∀ t ∈ [liquidateSymbol], NamesStrategyOnly t) :=
  ⟨fun _ h => h, preemptionBlocks_run_iff id (fun _ h => h) [liquidateSymbol]⟩

end TradingPlatform.Engine.RiskEscalationSnapshot
