import TradingPlatform.Lib.Moments
import Mathlib.Algebra.Order.BigOperators.Ring.List
import Mathlib.Tactic.Linarith
import Mathlib.Tactic.LinearCombination
import Mathlib.Tactic.Positivity

/-! # An outlier scored against itself

The newest of `n + 1` values is compared with a mean and a deviation that contain
it already. Its squared score never exceeds `n`, however far it is, and reaches
`n` only where the other values are all alike. -/

namespace TradingPlatform.Lib.Outlier

open TradingPlatform.Lib.Moments

variable {K : Type*} [Field K]

def mean (xs : List K) : K := xs.sum / xs.length

/-- The population variance. -/
def variance (xs : List K) : K := deviations (mean xs) xs / xs.length

variable [LinearOrder K] [IsStrictOrderedRing K]

/-- **The score of the newest value** falls short of its bound by the spread of the others. -/
theorem sq_dev_newest (xs : List K) (x : K) :
    (x - mean (xs ++ [x])) ^ 2 = xs.length * variance (xs ++ [x]) -
      xs.length * deviations (mean xs) xs / (xs.length + 1) := by
  have hlen : ((xs ++ [x]).length : K) = xs.length + 1 := by simp
  have hpos : (0 : K) < xs.length + 1 := by positivity
  unfold variance mean
  rw [deviations_mean _ (by rw [hlen]; exact hpos.ne'), hlen]
  rcases Nat.eq_zero_or_pos xs.length with hzero | hlong
  · obtain rfl := List.length_eq_zero_iff.mp hzero
    simp [deviations]
  · have hn : (xs.length : K) ≠ 0 := by positivity
    rw [deviations_mean _ hn]
    simp only [List.sum_append, List.sum_singleton, squares_append, squares_cons, squares_nil]
    field_simp
    ring

theorem sq_dev_newest_le (xs : List K) (x : K) :
    (x - mean (xs ++ [x])) ^ 2 ≤ xs.length * variance (xs ++ [x]) := by
  have hspread : 0 ≤ (xs.length : K) * deviations (mean xs) xs / (xs.length + 1) := by
    have hdev := deviations_nonneg (mean xs) xs
    positivity
  rw [sq_dev_newest]
  linarith

/-- The values of a list are all alike. -/
def Steady (xs : List K) : Prop := ∀ x ∈ xs, ∀ y ∈ xs, x = y

theorem mean_of_steady {xs : List K} (h : Steady xs) {x : K} (hx : x ∈ xs) : mean xs = x := by
  have hsum : xs.sum = xs.length * x := by
    rw [← nsmul_eq_mul]
    exact List.sum_eq_card_nsmul xs x fun y hy => h y hy x hx
  have hn : (xs.length : K) ≠ 0 := by
    have hpos := List.length_pos_of_mem hx
    positivity
  rw [mean, hsum, mul_div_cancel_left₀ _ hn]

theorem deviations_mean_eq_zero_iff {xs : List K} : deviations (mean xs) xs = 0 ↔ Steady xs := by
  constructor
  · intro hzero
    have hall : ∀ x ∈ xs, x = mean xs := by
      intro x hx
      have hnonneg : ∀ d ∈ xs.map fun x => (x - mean xs) * (x - mean xs), 0 ≤ d := by
        simp [mul_self_nonneg]
      have hterm := (List.all_zero_of_le_zero_le_of_sum_eq_zero hnonneg hzero)
        (List.mem_map.mpr ⟨x, hx, rfl⟩)
      exact sub_eq_zero.mp (mul_self_eq_zero.mp hterm)
    exact fun x hx y hy => (hall x hx).trans (hall y hy).symm
  · intro h
    refine List.sum_eq_zero fun d hd => ?_
    obtain ⟨x, hx, rfl⟩ := List.mem_map.mp hd
    simp [mean_of_steady h hx]

/-! ## How far a value has to be -/

/-- The variance, from the spread of the others and the distance of the newest. -/
theorem variance_newest {xs : List K} (h : xs ≠ []) (x : K) :
    xs.length * (xs.length + 1) ^ 2 * variance (xs ++ [x]) =
      xs.length * (xs.length + 1) * deviations (mean xs) xs + (xs.length * x - xs.sum) ^ 2 := by
  have hn : (0 : K) < xs.length := by
    have hpos := List.length_pos_iff.mpr h
    positivity
  have hdev := sq_dev_newest xs x
  have hmean : (xs.length + 1) * (x - mean (xs ++ [x])) = xs.length * x - xs.sum := by
    unfold mean
    simp only [List.sum_append, List.sum_singleton, List.length_append, List.length_singleton,
      Nat.cast_add, Nat.cast_one]
    field_simp
    ring
  rw [← hmean, mul_pow, hdev]
  field_simp
  ring

/-- Among others that are all alike, the distance of the newest alone. -/
theorem variance_newest_of_steady {xs : List K} (h : Steady xs) {c : K} (hc : c ∈ xs) (x : K) :
    (xs.length + 1) ^ 2 * variance (xs ++ [x]) = xs.length * (x - c) ^ 2 := by
  have hne : xs ≠ [] := List.ne_nil_of_mem hc
  have hn : (xs.length : K) ≠ 0 := by
    have hpos := List.length_pos_iff.mpr hne
    positivity
  have hsum : xs.sum = xs.length * c := by
    have hmean := mean_of_steady h hc
    rwa [mean, div_eq_iff hn, mul_comm] at hmean
  have hexact := variance_newest hne x
  rw [deviations_mean_eq_zero_iff.mpr h, hsum] at hexact
  refine mul_left_cancel₀ hn ?_
  linear_combination hexact

/-- A value far enough makes the variance as large as wanted. -/
theorem exists_variance_ge {xs : List K} (h : xs ≠ []) (V : K) :
    ∃ B, ∀ x, B ≤ x → V ≤ variance (xs ++ [x]) := by
  have hn : (1 : K) ≤ xs.length := by exact_mod_cast List.length_pos_iff.mpr h
  have hpos : (0 : K) < xs.length * (xs.length + 1) ^ 2 := by positivity
  have hM : 1 ≤ max V 1 := le_max_right V 1
  have hsq : (1 : K) ≤ xs.length * (xs.length + 1) ^ 2 := by nlinarith
  refine ⟨(xs.sum + xs.length * (xs.length + 1) ^ 2 * max V 1) / xs.length, fun x hx => ?_⟩
  have hfar : xs.length * (xs.length + 1) ^ 2 * max V 1 ≤ xs.length * x - xs.sum := by
    rw [div_le_iff₀ (by linarith)] at hx
    linarith
  have hone : 1 ≤ xs.length * (xs.length + 1) ^ 2 * max V 1 :=
    one_le_mul_of_one_le_of_one_le hsq hM
  have hsquare : xs.length * (xs.length + 1) ^ 2 * max V 1 ≤ (xs.length * x - xs.sum) ^ 2 := by
    nlinarith
  have hdev : 0 ≤ (xs.length : K) * (xs.length + 1) * deviations (mean xs) xs := by
    have := deviations_nonneg (mean xs) xs
    positivity
  have hvariance := variance_newest h x
  have hle : xs.length * (xs.length + 1) ^ 2 * max V 1 ≤
      xs.length * (xs.length + 1) ^ 2 * variance (xs ++ [x]) := by linarith
  exact (le_max_left V 1).trans (le_of_mul_le_mul_left hle hpos)

/-- **A threshold below the bound** is met by every value that is far enough, and the bound
itself where the others are all alike. -/
theorem exists_score_ge {xs : List K} (h : xs ≠ []) {threshold : K}
    (hlow : threshold < xs.length ∨ (threshold = xs.length ∧ Steady xs)) (V : K) :
    ∃ B, ∀ x, B ≤ x → V ≤ variance (xs ++ [x]) ∧
      threshold * variance (xs ++ [x]) ≤ (x - mean (xs ++ [x])) ^ 2 := by
  rcases hlow with hlt | ⟨rfl, hsteady⟩
  · obtain ⟨B, hB⟩ := exists_variance_ge h
      (max V (xs.length * deviations (mean xs) xs / (xs.length + 1) / (xs.length - threshold)))
    refine ⟨B, fun x hx => ⟨(le_max_left _ _).trans (hB x hx), ?_⟩⟩
    have hspread := (le_max_right _ _).trans (hB x hx)
    rw [div_le_iff₀ (sub_pos.mpr hlt)] at hspread
    rw [sq_dev_newest]
    linarith
  · obtain ⟨B, hB⟩ := exists_variance_ge h V
    refine ⟨B, fun x hx => ⟨hB x hx, ?_⟩⟩
    rw [sq_dev_newest, deviations_mean_eq_zero_iff.mpr hsteady]
    simp

/-- A threshold at the bound is met by no value where the others are not all alike. -/
theorem score_lt {xs : List K} {x : K} (hvar : 0 < variance (xs ++ [x])) {threshold : K}
    (hhigh : xs.length < threshold ∨ (xs.length ≤ threshold ∧ ¬ Steady xs)) :
    (x - mean (xs ++ [x])) ^ 2 < threshold * variance (xs ++ [x]) := by
  rcases hhigh with hlt | ⟨hle, hvaried⟩
  · exact (sq_dev_newest_le xs x).trans_lt (mul_lt_mul_of_pos_right hlt hvar)
  · have hne : xs ≠ [] := by
      rintro rfl
      exact hvaried (by simp [Steady])
    have hn : (0 : K) < xs.length := by exact_mod_cast List.length_pos_iff.mpr hne
    have hdev : 0 < deviations (mean xs) xs :=
      (deviations_nonneg _ _).lt_of_ne' (deviations_mean_eq_zero_iff.not.mpr hvaried)
    have hspread : 0 < (xs.length : K) * deviations (mean xs) xs / (xs.length + 1) := by positivity
    have hscaled := mul_le_mul_of_nonneg_right hle hvar.le
    rw [sq_dev_newest]
    linarith

end TradingPlatform.Lib.Outlier
