import TradingPlatform.Execution.PositionTracker
import TradingPlatform.Lib.AverageCost

/-! # The tracker's average entry price

Beside the tracker, every symbol has a holding kept under average-cost
accounting. The tracker averages a fill that adds and leaves the price alone
otherwise; only a fill that crosses through zero tells the two apart. -/

namespace TradingPlatform.Execution

open TradingPlatform.Lib TradingPlatform.Lib.Runs

variable (lower upper : String → String)

def ApplyCall.price (c : ApplyCall) : ℚ := c.fillPrice.getD c.order.filledAvgPrice

/-- The fill goes to the account of its symbol. -/
def accountFill (holdings : String → Holding ℚ) (c : ApplyCall) : String → Holding ℚ :=
  Function.update holdings (upper c.order.symbol)
    ((holdings (upper c.order.symbol)).fill (c.order.signedFill lower) c.price)

/-- The tracker, and beside it the accounts. -/
def accountStep (s : PositionTracker × (String → Holding ℚ)) (c : ApplyCall) :
    PositionTracker × (String → Holding ℚ) :=
  ((s.1.apply lower upper c).2, accountFill lower upper s.2 c)

def noFills : PositionTracker × (String → Holding ℚ) := ({}, fun _ => .flat)

/-- A position that is not flat is carried at its average cost. -/
def AtAverageCost (s : PositionTracker × (String → Holding ℚ)) : Prop :=
  ∀ symbol, ∀ pos ∈ s.1.positions.get? symbol, pos.qty ≠ 0 →
    pos.avgPrice = (s.2 symbol).average

/-- Orders with distinct ids, each filled in full at a positive price. -/
structure FullyFilled (cs : List ApplyCall) : Prop where
  distinct : (cs.map (·.order.clientOrderId)).Nodup
  filled : ∀ c ∈ cs, lower c.order.status = "filled" ∧ c.order.filledQty = c.order.qty ∧
    0 < c.order.qty ∧ 0 < c.price

/-- The position a fill meets. -/
def PositionTracker.held (t : PositionTracker) (symbol : String) : TrackedPosition :=
  (t.positions.get? symbol).getD { symbol }

/-- A fill on the other side that is larger than the position. -/
def TrackedPosition.CrossedBy (pos : TrackedPosition) (signed : ℚ) : Prop :=
  pos.qty * signed < 0 ∧ |pos.qty| < |signed|

instance (pos : TrackedPosition) (signed : ℚ) : Decidable (pos.CrossedBy signed) :=
  inferInstanceAs (Decidable (_ ∧ _))

/-- A fill that crosses through zero comes at the price the position is carried at. -/
def CrossesAtAverage (s : PositionTracker × (String → Holding ℚ)) (c : ApplyCall) : Prop :=
  let pos := s.1.held (upper c.order.symbol)
  pos.CrossedBy (c.order.signedFill lower) → c.price = pos.avgPrice

instance (s : PositionTracker × (String → Holding ℚ)) (c : ApplyCall) :
    Decidable (CrossesAtAverage lower upper s c) := inferInstanceAs (Decidable (_ → _))

/-- The next order is new and has filled. -/
structure NewFill (s : PositionTracker × (String → Holding ℚ)) (c : ApplyCall) : Prop where
  fresh : c.order.clientOrderId ∉ s.1.applied
  filled : 0 < c.order.filledQty

/-- The tracker and the accounts hold the same quantities. -/
def SameQuantities (s : PositionTracker × (String → Holding ℚ)) : Prop :=
  ∀ symbol, (s.1.held symbol).qty = (s.2 symbol).qty

variable {lower upper}

theorem NewFill.signedFill_ne_zero {s : PositionTracker × (String → Holding ℚ)} {c : ApplyCall}
    (h : NewFill s c) : c.order.signedFill lower ≠ 0 :=
  mt (signedFill_eq_zero lower c.order).mp h.filled.ne'

/-- What the tracker does with a new fill. -/
theorem apply_newFill {s : PositionTracker × (String → Holding ℚ)} {c : ApplyCall}
    (h : NewFill s c) :
    (s.1.apply lower upper c).2 =
      { positions := s.1.positions.set (upper c.order.symbol)
          ((s.1.held (upper c.order.symbol)).addFill (c.order.signedFill lower) c.price)
        applied := s.1.applied ++ [c.order.clientOrderId] } := by
  have hpos := not_le.mpr h.filled
  rw [PositionTracker.apply, if_neg fun hun => hpos hun.2, if_neg h.fresh, if_neg hpos]
  rfl

/-! ## One fill -/

/-- The test the tracker averages on is that the fill adds. -/
theorem sameSide_iff {q signed : ℚ} (hs : signed ≠ 0) :
    ((q = 0 ∨ (0 < q ↔ 0 < signed)) ∧ 0 < |q| + |signed|) ↔ 0 ≤ q * signed := by
  have htotal : 0 < |q| + |signed| := add_pos_of_nonneg_of_pos (abs_nonneg q) (abs_pos.mpr hs)
  rw [and_iff_left htotal]
  rcases lt_or_gt_of_ne hs with hs | hs
  · rw [← neg_mul_neg, mul_nonneg_iff_of_pos_right (neg_pos.mpr hs), neg_nonneg,
      iff_false_right hs.not_gt, not_lt]
    exact or_iff_right_of_imp le_of_eq
  · rw [mul_nonneg_iff_of_pos_right hs, iff_true_right hs, le_iff_lt_or_eq, or_comm, eq_comm]

/-- **One fill.** A position carried at its average cost stays so exactly when it
goes flat, is not crossed, or is crossed at that very price. -/
theorem addFill_average (pos : TrackedPosition) (h : Holding ℚ) (hqty : pos.qty = h.qty)
    (havg : pos.qty ≠ 0 → pos.avgPrice = h.average) {signed : ℚ} (hs : signed ≠ 0) (price : ℚ) :
    ((pos.addFill signed price).qty ≠ 0 →
        (pos.addFill signed price).avgPrice = (h.fill signed price).average) ↔
      (pos.CrossedBy signed → price = pos.avgPrice) := by
  unfold TrackedPosition.addFill TrackedPosition.CrossedBy
  dsimp only
  simp only [sameSide_iff hs]
  rw [hqty] at havg ⊢
  by_cases hadds : h.Adds signed
  · have hcost : |h.qty| * pos.avgPrice = |h.qty| * h.average := by
      by_cases hq : h.qty = 0
      · rw [hq, abs_zero, zero_mul, zero_mul]
      · rw [havg hq]
    refine iff_of_true (fun _ => ?_) fun hc => absurd hc.1 (not_lt.mpr hadds)
    have hsame : 0 ≤ h.qty * signed := hadds
    rw [if_pos hsame, h.average_fill_of_adds hadds, hcost]
  · have hopp : h.qty * signed < 0 := not_le.mp hadds
    rw [if_neg hopp.not_ge, havg (left_ne_zero_of_mul hopp.ne)]
    by_cases hcross : h.Crosses signed
    · have hne := Holding.add_ne_zero_of_crosses hcross.2
      have hcrossed : h.qty * signed < 0 ∧ |h.qty| < |signed| := hcross
      rw [h.average_fill_of_crosses hcross, forall_prop_of_true hne,
        forall_prop_of_true hcrossed]
      exact eq_comm
    · refine iff_of_true (fun hne => ?_) fun hc => absurd hc hcross
      exact (h.average_fill_of_reduces hadds hcross hne price).symm

theorem held_accountStep {s : PositionTracker × (String → Holding ℚ)} {c : ApplyCall}
    (h : NewFill s c) (symbol : String) :
    (accountStep lower upper s c).1.held symbol =
      if symbol = upper c.order.symbol then
        (s.1.held symbol).addFill (c.order.signedFill lower) c.price
      else s.1.held symbol := by
  unfold accountStep PositionTracker.held
  rw [apply_newFill h, Dict.get?_set]
  by_cases hsym : symbol = upper c.order.symbol
  · rw [if_pos hsym, if_pos hsym, hsym]
    rfl
  · rw [if_neg hsym, if_neg hsym]

theorem sameQuantities_step (s : PositionTracker × (String → Holding ℚ)) (c : ApplyCall)
    (hi : SameQuantities s) (h : NewFill s c) : SameQuantities (accountStep lower upper s c) := by
  intro symbol
  rw [held_accountStep h]
  unfold accountStep accountFill
  dsimp only
  split
  · rename_i hsym
    subst hsym
    rw [Function.update_self, Holding.qty_fill, ← hi]
    rfl
  · rename_i hsym
    rw [Function.update_of_ne hsym]
    exact hi symbol

/-- Positions may be read with their default: a symbol never traded is flat. -/
theorem atAverageCost_iff {s : PositionTracker × (String → Holding ℚ)} :
    AtAverageCost s ↔
      ∀ symbol, (s.1.held symbol).qty ≠ 0 → (s.1.held symbol).avgPrice = (s.2 symbol).average := by
  refine forall_congr' fun symbol => ?_
  unfold PositionTracker.held
  cases s.1.positions.get? symbol with
  | none => exact iff_of_true (fun pos hpos => nomatch hpos) fun hne => absurd rfl hne
  | some pos =>
    constructor
    · exact fun h => h pos rfl
    · intro h pos' hpos'
      cases hpos'
      exact h

theorem atAverageCost_step (s : PositionTracker × (String → Holding ℚ)) (c : ApplyCall)
    (hi : SameQuantities s) (h : NewFill s c) (hq : AtAverageCost s) :
    AtAverageCost (accountStep lower upper s c) ↔ CrossesAtAverage lower upper s c := by
  rw [atAverageCost_iff] at hq ⊢
  rw [CrossesAtAverage, ← addFill_average _ _ (hi _) (hq _) h.signedFill_ne_zero]
  have hown : (accountStep lower upper s c).2 (upper c.order.symbol) =
      (s.2 (upper c.order.symbol)).fill (c.order.signedFill lower) c.price :=
    Function.update_self ..
  constructor
  · intro hall
    have h' := hall (upper c.order.symbol)
    rw [held_accountStep h, if_pos rfl, hown] at h'
    exact h'
  · intro hfill symbol
    rw [held_accountStep h]
    by_cases hsym : symbol = upper c.order.symbol
    · rw [if_pos hsym, hsym, hown]
      exact hfill
    · have hother : (accountStep lower upper s c).2 symbol = s.2 symbol :=
        Function.update_of_ne hsym ..
      rw [if_neg hsym, hother]
      exact hq symbol

/-! ## Runs -/

theorem applied_accountStep {s : PositionTracker × (String → Holding ℚ)} {c : ApplyCall}
    (h : NewFill s c) :
    (accountStep lower upper s c).1.applied = s.1.applied ++ [c.order.clientOrderId] := by
  show (s.1.apply lower upper c).2.applied = _
  rw [apply_newFill h]

/-- Orders whose ids are distinct, and not applied before, all count. -/
theorem newFills_run {cs : List ApplyCall} (hcs : (cs.map (·.order.clientOrderId)).Nodup)
    (hfilled : ∀ c ∈ cs, 0 < c.order.filledQty) {s : PositionTracker × (String → Holding ℚ)}
    (hs : ∀ c ∈ cs, c.order.clientOrderId ∉ s.1.applied) :
    Along (accountStep lower upper) NewFill s cs := by
  induction cs generalizing s with
  | nil => trivial
  | cons c cs ih =>
    obtain ⟨hc, hcs⟩ := List.nodup_cons.mp hcs
    have hnew : NewFill s c := ⟨hs c List.mem_cons_self, hfilled c List.mem_cons_self⟩
    refine ⟨hnew, ih hcs (fun c' h' => hfilled c' (List.mem_cons_of_mem _ h')) fun c' h' => ?_⟩
    rw [applied_accountStep hnew, List.mem_append, List.mem_singleton, not_or]
    refine ⟨hs c' (List.mem_cons_of_mem _ h'), fun hid => hc ?_⟩
    exact List.mem_map.mpr ⟨c', h', hid⟩

theorem FullyFilled.newFills {cs : List ApplyCall} (h : FullyFilled lower cs) :
    Along (accountStep lower upper) NewFill noFills cs := by
  refine newFills_run h.distinct (fun c hc => ?_) fun c _ => List.not_mem_nil
  obtain ⟨-, hfull, hqty, -⟩ := h.filled c hc
  exact hfull ▸ hqty

/-- **Average entry price.** Every open position is carried at its average cost
throughout a run exactly when no fill crosses through zero at another price. -/
theorem atAverageCost_run_iff (lower upper : String → String) (cs : List ApplyCall)
    (h : FullyFilled lower cs) :
    Along (accountStep lower upper)
        (fun s c => AtAverageCost (accountStep lower upper s c)) noFills cs ↔
      Along (accountStep lower upper) (CrossesAtAverage lower upper) noFills cs :=
  along_next_iff_of (fun s c hi hnew _ => sameQuantities_step s c hi hnew)
    (fun s c hi hnew hq => atAverageCost_step s c hi hnew hq) cs (fun _ => rfl)
    (fun _ _ hpos => nomatch hpos) h.newFills

def buyTen : ApplyCall := ⟨⟨"c1", "QQQ", "buy", 10, "filled", 10, 400, none⟩, none⟩

def sellFifteen : ApplyCall := ⟨⟨"c2", "QQQ", "sell", 15, "filled", 15, 380, none⟩, none⟩

theorem fullyFilled_reversal : FullyFilled id [buyTen, sellFifteen] :=
  ⟨by decide, by decide +kernel⟩

/-- The five shares sold short at 380 are carried at 400. -/
theorem reversal_keeps_entry :
    FullyFilled id [buyTen, sellFifteen] ∧
      ¬ Along (accountStep id id) (fun s c => AtAverageCost (accountStep id id s c)) noFills
          [buyTen, sellFifteen] := by
  refine ⟨fullyFilled_reversal, fun h => ?_⟩
  have hend := h.2.1 "QQQ" { symbol := "QQQ", qty := -5, avgPrice := 400 } (by decide +kernel)
    (by decide)
  exact absurd hend (by decide +kernel)

theorem atAverageCost_run_reversal :
    FullyFilled id [buyTen, sellFifteen] ∧
      (Along (accountStep id id) (fun s c => AtAverageCost (accountStep id id s c)) noFills
          [buyTen, sellFifteen] ↔
        Along (accountStep id id) (CrossesAtAverage id id) noFills [buyTen, sellFifteen]) :=
  ⟨fullyFilled_reversal, atAverageCost_run_iff id id _ fullyFilled_reversal⟩

end TradingPlatform.Execution
