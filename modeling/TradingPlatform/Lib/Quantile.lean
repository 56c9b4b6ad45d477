import Mathlib.Algebra.Order.Field.Basic
import Mathlib.Algebra.Order.Floor.Semiring
import Mathlib.Data.List.Sort
import Mathlib.Tactic.Linarith
import Mathlib.Tactic.Ring

/-! # Quantiles

The order statistics of a list and the quantile that interpolates between two of
them. A quantile grows with its level, and with the values, one by one. -/

namespace TradingPlatform.Lib.Quantile

section Order
variable {α : Type*} [LinearOrder α]

/-- A sorted list is at most `v` exactly as far as it has values that are. -/
theorem getElem_le_iff_lt_countP {l : List α} (h : l.Pairwise (· ≤ ·)) {i : ℕ} (hi : i < l.length)
    (v : α) : l[i] ≤ v ↔ i < l.countP (· ≤ v) := by
  induction l generalizing i with
  | nil => exact absurd hi (Nat.not_lt_zero i)
  | cons a l ih =>
    obtain ⟨ha, hl⟩ := List.pairwise_cons.mp h
    by_cases hav : a ≤ v
    · rw [List.countP_cons_of_pos (by simpa using hav)]
      cases i with
      | zero => simpa using hav
      | succ i =>
        rw [List.getElem_cons_succ, ih hl, Nat.succ_lt_succ_iff]
    · have hnone : (a :: l).countP (· ≤ v) = 0 := by
        rw [List.countP_eq_zero]
        intro b hb
        rcases List.mem_cons.mp hb with rfl | hb
        · simpa using hav
        · simpa using (not_le.mp hav).trans_le (ha b hb)
      rw [hnone]
      refine iff_of_false (fun hle => hav ?_) (Nat.not_lt_zero i)
      cases i with
      | zero => exact hle
      | succ i => exact (ha _ (List.getElem_mem _)).trans hle

theorem countP_le_countP {xs ys : List α} (h : List.Forall₂ (· ≤ ·) xs ys) (v : α) :
    ys.countP (· ≤ v) ≤ xs.countP (· ≤ v) := by
  induction h with
  | nil => exact le_rfl
  | cons hxy _ ih =>
    rw [List.countP_cons, List.countP_cons]
    split_ifs with hy hx
    · exact Nat.succ_le_succ ih
    · simp only [decide_eq_true_eq] at hy hx
      exact absurd (hxy.trans hy) hx
    · exact ih.trans (Nat.le_succ _)
    · exact ih

variable [Zero α]

/-- The `i`-th value in order; past the end, the last. -/
def orderStatistic (xs : List α) (i : ℕ) : α :=
  (xs.insertionSort (· ≤ ·)).getD (min i (xs.length - 1)) 0

theorem orderStatistic_eq {xs : List α} {i : ℕ}
    (h : min i (xs.length - 1) < (xs.insertionSort (· ≤ ·)).length) :
    orderStatistic xs i = (xs.insertionSort (· ≤ ·))[min i (xs.length - 1)] :=
  (List.getElem_eq_getD _).symm

theorem orderStatistic_mono (xs : List α) : Monotone (orderStatistic xs) := by
  intro i j hij
  rcases Nat.eq_zero_or_pos xs.length with hnil | hpos
  · rw [List.length_eq_zero_iff.mp hnil]
    rfl
  · have hlen := List.length_insertionSort (· ≤ ·) xs
    have hsorted := List.pairwise_insertionSort (· ≤ ·) xs
    rcases (min_le_min_right (xs.length - 1) hij).eq_or_lt with heq | hlt
    · unfold orderStatistic
      rw [heq]
    · rw [orderStatistic_eq (by omega), orderStatistic_eq (by omega)]
      exact List.pairwise_iff_getElem.mp hsorted _ _ _ _ hlt

theorem orderStatistic_le {xs ys : List α} (h : List.Forall₂ (· ≤ ·) xs ys) (i : ℕ) :
    orderStatistic xs i ≤ orderStatistic ys i := by
  rcases Nat.eq_zero_or_pos xs.length with hnil | hpos
  · rw [List.length_eq_zero_iff.mp hnil] at h ⊢
    cases h
    rfl
  · have hlen := h.length_eq
    have hx := List.length_insertionSort (· ≤ ·) xs
    have hy := List.length_insertionSort (· ≤ ·) ys
    rw [orderStatistic_eq (by omega), orderStatistic_eq (by omega),
      getElem_le_iff_lt_countP (List.pairwise_insertionSort (· ≤ ·) xs),
      (List.perm_insertionSort (· ≤ ·) xs).countP_eq]
    refine Nat.lt_of_lt_of_le ?_ (countP_le_countP h _)
    rw [← (List.perm_insertionSort (· ≤ ·) ys).countP_eq,
      ← getElem_le_iff_lt_countP (List.pairwise_insertionSort (· ≤ ·) ys) (by omega)]
    simp only [hlen]
    exact le_rfl

/-- No more values are above an order statistic than come after it. -/
theorem countP_orderStatistic_lt_le (xs : List α) (i : ℕ) :
    xs.countP (orderStatistic xs i < ·) ≤ xs.length - 1 - i := by
  rcases Nat.eq_zero_or_pos xs.length with hnil | hpos
  · rw [List.length_eq_zero_iff.mp hnil]
    simp
  · have hlen := List.length_insertionSort (· ≤ ·) xs
    have hi : min i (xs.length - 1) < (xs.insertionSort (· ≤ ·)).length := by omega
    have hbelow : min i (xs.length - 1) < xs.countP (· ≤ orderStatistic xs i) := by
      rw [← (List.perm_insertionSort (· ≤ ·) xs).countP_eq,
        ← getElem_le_iff_lt_countP (List.pairwise_insertionSort (· ≤ ·) xs) hi,
        orderStatistic_eq hi]
    have hsplit := List.length_eq_countP_add_countP (fun x => decide (x ≤ orderStatistic xs i))
      (l := xs)
    have habove : xs.countP (orderStatistic xs i < ·) =
        xs.countP (fun x => ¬ (decide (x ≤ orderStatistic xs i) = true)) := by
      refine List.countP_congr fun x _ => ?_
      simp
    omega

end Order

variable {K : Type*} [Field K] [LinearOrder K] [IsStrictOrderedRing K] [FloorSemiring K]

/-- Between the two order statistics around `(n - 1) * q`, in proportion. -/
def quantile (xs : List K) (q : K) : K :=
  let virtual := ((xs.length - 1 : ℕ) : K) * q
  let i := ⌊virtual⌋₊
  orderStatistic xs i + (virtual - i) * (orderStatistic xs (i + 1) - orderStatistic xs i)

/-- Interpolation along a sequence. -/
def along (s : ℕ → K) (h : K) : K := s ⌊h⌋₊ + (h - ⌊h⌋₊) * (s (⌊h⌋₊ + 1) - s ⌊h⌋₊)

theorem along_mono {s : ℕ → K} (hs : Monotone s) {h h' : K} (h0 : 0 ≤ h) (hle : h ≤ h') :
    along s h ≤ along s h' := by
  have hrise : ∀ i, 0 ≤ s (i + 1) - s i := fun i => sub_nonneg.mpr (hs (Nat.le_succ i))
  rcases (Nat.floor_mono hle).eq_or_lt with heq | hlt
  · unfold along
    rw [heq]
    have := mul_le_mul_of_nonneg_right (sub_le_sub_right hle (⌊h'⌋₊ : K)) (hrise ⌊h'⌋₊)
    linarith
  · have hfrac : h - ⌊h⌋₊ ≤ 1 := by linarith [Nat.lt_floor_add_one h]
    have hfrac' : 0 ≤ h' - ⌊h'⌋₊ := sub_nonneg.mpr (Nat.floor_le (h0.trans hle))
    calc along s h ≤ s ⌊h⌋₊ + 1 * (s (⌊h⌋₊ + 1) - s ⌊h⌋₊) :=
          add_le_add_right (mul_le_mul_of_nonneg_right hfrac (hrise _)) _
      _ = s (⌊h⌋₊ + 1) := by ring
      _ ≤ s ⌊h'⌋₊ := hs hlt
      _ ≤ along s h' := le_add_of_nonneg_right (mul_nonneg hfrac' (hrise _))

theorem along_le {s s' : ℕ → K} (hs : ∀ i, s i ≤ s' i) {h : K} (h0 : 0 ≤ h) :
    along s h ≤ along s' h := by
  have hfrac : 0 ≤ h - ⌊h⌋₊ := sub_nonneg.mpr (Nat.floor_le h0)
  have hfrac' : 0 ≤ 1 - (h - ⌊h⌋₊) := by linarith [Nat.lt_floor_add_one h]
  have hlow := mul_le_mul_of_nonneg_left (hs ⌊h⌋₊) hfrac'
  have hhigh := mul_le_mul_of_nonneg_left (hs (⌊h⌋₊ + 1)) hfrac
  unfold along
  linarith

omit [IsStrictOrderedRing K] in
theorem quantile_eq_along (xs : List K) (q : K) :
    quantile xs q = along (orderStatistic xs) (((xs.length - 1 : ℕ) : K) * q) := rfl

theorem quantile_mono (xs : List K) {q q' : K} (h0 : 0 ≤ q) (h : q ≤ q') :
    quantile xs q ≤ quantile xs q' :=
  along_mono (orderStatistic_mono xs) (mul_nonneg (Nat.cast_nonneg _) h0)
    (mul_le_mul_of_nonneg_left h (Nat.cast_nonneg _))

theorem quantile_le {xs ys : List K} (h : List.Forall₂ (· ≤ ·) xs ys) {q : K} (h0 : 0 ≤ q) :
    quantile xs q ≤ quantile ys q := by
  rw [quantile_eq_along, quantile_eq_along, h.length_eq]
  exact along_le (orderStatistic_le h) (mul_nonneg (Nat.cast_nonneg _) h0)

/-- No more values are above a quantile than come after its place in the order. -/
theorem countP_quantile_lt_le (xs : List K) {q : K} (h0 : 0 ≤ q) :
    xs.countP (quantile xs q < ·) ≤ xs.length - 1 - ⌊((xs.length - 1 : ℕ) : K) * q⌋₊ := by
  have hbelow : orderStatistic xs ⌊((xs.length - 1 : ℕ) : K) * q⌋₊ ≤ quantile xs q := by
    have hfloor := Nat.floor_le (mul_nonneg (Nat.cast_nonneg (xs.length - 1)) h0)
    have hrise := orderStatistic_mono xs (Nat.le_succ ⌊((xs.length - 1 : ℕ) : K) * q⌋₊)
    exact le_add_of_nonneg_right (mul_nonneg (sub_nonneg.mpr hfloor) (sub_nonneg.mpr hrise))
  refine le_trans (List.countP_mono_left fun x _ hx => ?_)
    (countP_orderStatistic_lt_le xs ⌊((xs.length - 1 : ℕ) : K) * q⌋₊)
  rw [decide_eq_true_eq] at hx ⊢
  exact hbelow.trans_lt hx

end TradingPlatform.Lib.Quantile
