import Mathlib.Algebra.BigOperators.Ring.List
import Mathlib.Algebra.Field.Basic
import Mathlib.Algebra.Order.BigOperators.Group.List
import Mathlib.Algebra.Order.Field.Basic
import Mathlib.Tactic.FieldSimp
import Mathlib.Tactic.Ring

/-! # Sums, squares and deviations

The squared deviations from a mean in two passes, and in one pass from the sum
and the sum of squares. -/

namespace TradingPlatform.Lib.Moments

variable {K : Type*} [Field K]

def squares (xs : List K) : K := (xs.map fun x => x * x).sum

/-- The sum of squared deviations from `m`. -/
def deviations (m : K) (xs : List K) : K := (xs.map fun x => (x - m) * (x - m)).sum

/-- The sample standard deviation, over a given square root. -/
def sampleStd (sqrt : K → K) (xs : List K) : K :=
  sqrt (deviations (xs.sum / xs.length) xs / ((xs.length : K) - 1))

@[simp] theorem squares_nil : squares ([] : List K) = 0 := rfl

@[simp] theorem squares_cons (x : K) (xs : List K) : squares (x :: xs) = x * x + squares xs := by
  simp [squares]

@[simp] theorem squares_append (xs ys : List K) :
    squares (xs ++ ys) = squares xs + squares ys := by
  simp [squares]

theorem deviations_eq (m : K) (xs : List K) :
    deviations m xs = squares xs - 2 * m * xs.sum + xs.length * (m * m) := by
  induction xs with
  | nil => simp [deviations]
  | cons x xs ih =>
    have hcons : deviations m (x :: xs) = (x - m) * (x - m) + deviations m xs := by
      simp [deviations]
    rw [hcons, ih, squares_cons, List.sum_cons, List.length_cons, Nat.cast_succ]
    ring

/-- One pass for two: the deviations from the mean. -/
theorem deviations_mean (xs : List K) (hn : (xs.length : K) ≠ 0) :
    deviations (xs.sum / xs.length) xs = squares xs - xs.sum * xs.sum / xs.length := by
  rw [deviations_eq]
  field_simp
  ring

theorem deviations_nonneg [LinearOrder K] [IsStrictOrderedRing K] (m : K) (xs : List K) :
    0 ≤ deviations m xs := by
  refine List.sum_nonneg fun d hd => ?_
  obtain ⟨x, -, rfl⟩ := List.mem_map.mp hd
  exact mul_self_nonneg _

end TradingPlatform.Lib.Moments
