import TradingPlatform.Engine.RiskEscalation
import TradingPlatform.Lib.StableSort
import Mathlib.Data.Rat.Defs
import Mathlib.Algebra.Order.Ring.Rat
import Mathlib.Data.String.Basic

/-! # Boot reconciliation

The positions the process kept are compared with the broker's, symbol by
symbol, and the broker's open orders with the ones it knows. Any mismatch asks
the engine for ENTRY_GATE_HALT; the positions themselves are never adopted. -/

namespace TradingPlatform.Execution

open TradingPlatform.Engine TradingPlatform.Lib.StableSort

inductive MismatchKind
  | positionQty
  | unknownBrokerPosition
  | missingBrokerPosition
  | orphanOpenOrder
  deriving DecidableEq, Repr

structure ReconcileMismatch where
  kind : MismatchKind
  symbol : String
  internal : Option ℚ
  broker : Option ℚ
  deriving DecidableEq, Repr

structure ReconcileReport where
  mismatches : List ReconcileMismatch := []
  tripped : Bool := false
  deriving DecidableEq, Repr

def ReconcileReport.clean (report : ReconcileReport) : Bool := report.mismatches.isEmpty

structure BootMismatchReport where
  kind : String := "boot_reconciliation_mismatch"
  mismatchCount : Nat
  mismatches : List ReconcileMismatch
  deriving DecidableEq, Repr

/-- A dictionary of quantities by symbol, in insertion order. -/
abbrev Positions := List (String × ℚ)

/-- `{s.upper(): q for s, q in positions.items()}.get(sym, 0.0)`: of two symbols
that agree in upper case, the later one counts. -/
def quantity (upper : String → String) (positions : Positions) (sym : String) : ℚ :=
  ((positions.map fun p => (upper p.1, p.2)).reverse.lookup sym).getD 0

/-- `sorted` of a set of strings. -/
def sortedSet (xs : List String) : List String := sortBy id xs.dedup

def compareSymbol (qtyTol : ℚ) (sym : String) (iq bq : ℚ) : Option ReconcileMismatch :=
  if |iq| < qtyTol ∧ qtyTol ≤ |bq| then some ⟨.unknownBrokerPosition, sym, some iq, some bq⟩
  else if qtyTol ≤ |iq| ∧ |bq| < qtyTol then some ⟨.missingBrokerPosition, sym, some iq, some bq⟩
  else if qtyTol < |iq - bq| then some ⟨.positionQty, sym, some iq, some bq⟩
  else none

def orphanOrders (internalOpenCoids brokerOpenCoids : Option (List String)) :
    List ReconcileMismatch :=
  if internalOpenCoids.isSome || brokerOpenCoids.isSome then
    let ioc := internalOpenCoids.getD []
    let boc := brokerOpenCoids.getD []
    (sortedSet (boc.filter (· ∉ ioc))).map fun coid => ⟨.orphanOpenOrder, coid, none, none⟩
  else []

/-- The list the two loops fill: symbols in order, then orphan orders. -/
def bootMismatches (upper : String → String) (internalPositions brokerPositions : Positions)
    (internalOpenCoids brokerOpenCoids : Option (List String)) (qtyTol : ℚ) :
    List ReconcileMismatch :=
  (sortedSet ((internalPositions ++ brokerPositions).map fun p => upper p.1)).filterMap
    (fun sym => compareSymbol qtyTol sym
      (quantity upper internalPositions sym) (quantity upper brokerPositions sym)) ++
  orphanOrders internalOpenCoids brokerOpenCoids

def reconcileBoot (upper : String → String) (internalPositions brokerPositions : Positions)
    (internalOpenCoids brokerOpenCoids : Option (List String)) (qtyTol : ℚ) :
    CheckOutcome ReconcileReport BootMismatchReport :=
  let mismatches :=
    bootMismatches upper internalPositions brokerPositions internalOpenCoids brokerOpenCoids qtyTol
  if mismatches = [] then { result := {} }
  else
    { result := { mismatches, tripped := true }
      transition := some { newLevel := .entryGateHalt, commandedBy := "boot_reconciliation" }
      report := some { mismatchCount := mismatches.length, mismatches } }

section Results

variable (upper : String → String) (internalPositions brokerPositions : Positions)
  (internalOpenCoids brokerOpenCoids : Option (List String)) (qtyTol : ℚ)

/-- The report trips exactly when it is not clean, and then asks for
ENTRY_GATE_HALT. -/
theorem reconcileBoot_transition :
    ((reconcileBoot upper internalPositions brokerPositions internalOpenCoids brokerOpenCoids
      qtyTol).transition.map (·.newLevel)) =
    if (reconcileBoot upper internalPositions brokerPositions internalOpenCoids brokerOpenCoids
      qtyTol).result.tripped then some .entryGateHalt else none := by
  unfold reconcileBoot
  dsimp only
  split <;> rfl

theorem reconcileBoot_signed {t : Transition}
    (h : (reconcileBoot upper internalPositions brokerPositions internalOpenCoids brokerOpenCoids
      qtyTol).transition = some t) : t.commandedBy = "boot_reconciliation" := by
  unfold reconcileBoot at h
  dsimp only at h
  split at h
  · cases h
  · cases h
    rfl

theorem reconcileBoot_tripped_iff :
    (reconcileBoot upper internalPositions brokerPositions internalOpenCoids brokerOpenCoids
      qtyTol).result.tripped = true ↔
    (reconcileBoot upper internalPositions brokerPositions internalOpenCoids brokerOpenCoids
      qtyTol).result.clean = false := by
  unfold reconcileBoot
  dsimp only
  split
  · simp [ReconcileReport.clean]
  · rename_i h
    simpa [ReconcileReport.clean] using h

theorem compareSymbol_self (hTol : 0 ≤ qtyTol) (sym : String) (q : ℚ) :
    compareSymbol qtyTol sym q q = none := by
  have hzero : |q - q| = 0 := by rw [sub_self, abs_zero]
  unfold compareSymbol
  rw [if_neg fun h => absurd h.1 (not_lt.mpr h.2), if_neg fun h => absurd h.2 (not_lt.mpr h.1),
    hzero, if_neg (not_lt.mpr hTol)]

/-- A broker that holds what the process kept, and no order it does not know,
never trips. -/
theorem reconcileBoot_self_clean (hTol : 0 ≤ qtyTol)
    (hOrders : ∀ coid ∈ brokerOpenCoids.getD [], coid ∈ internalOpenCoids.getD []) :
    (reconcileBoot upper internalPositions internalPositions internalOpenCoids brokerOpenCoids
      qtyTol).result.clean = true := by
  have hOrphans : orphanOrders internalOpenCoids brokerOpenCoids = [] := by
    have hnone : (brokerOpenCoids.getD []).filter (· ∉ internalOpenCoids.getD []) = [] := by
      rw [List.filter_eq_nil_iff]
      intro coid hmem
      simpa using hOrders coid hmem
    unfold orphanOrders
    split
    · simp only [hnone]
      rfl
    · rfl
  have hNone : bootMismatches upper internalPositions internalPositions internalOpenCoids
      brokerOpenCoids qtyTol = [] := by
    unfold bootMismatches
    rw [hOrphans, List.append_nil, List.filterMap_eq_nil_iff]
    intro sym _
    exact compareSymbol_self qtyTol hTol sym _
  unfold reconcileBoot
  rw [hNone]
  rfl

end Results

end TradingPlatform.Execution
