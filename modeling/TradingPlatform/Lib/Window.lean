import Mathlib.Algebra.BigOperators.Group.List.Basic
import Mathlib.Data.List.GetD
import Mathlib.Data.List.TakeDrop
import Mathlib.Tactic.Abel

/-! # Trailing windows

The last `n` of the first `i` elements of a list. A sum kept beside the window
moves by what comes in less what goes out. -/

namespace TradingPlatform.Lib.Window

variable {α : Type*}

/-- The last `n` of the first `i` elements. -/
def window (xs : List α) (n i : ℕ) : List α := (xs.take i).drop (i - n)

theorem window_of_le {xs : List α} {n i : ℕ} (h : i ≤ n) : window xs n i = xs.take i := by
  rw [window, Nat.sub_eq_zero_of_le h, List.drop_zero]

/-- The window that ends with `x`. -/
theorem window_append_cons (as bs : List α) (x : α) (n : ℕ) :
    window (as ++ x :: bs) (n + 1) (as.length + 1) = as.drop (as.length - n) ++ [x] := by
  have htake : (as ++ x :: bs).take (as.length + 1) = as ++ [x] := by
    rw [List.take_length_add_append, List.take_succ_cons, List.take_zero]
  rw [window, htake, Nat.add_sub_add_right, List.drop_append_of_le_length (Nat.sub_le _ _)]

/-- One element further on. -/
theorem sum_window_succ [AddCommGroup α] {xs : List α} {n i : ℕ} (hi : i < xs.length)
    (hn : n + 1 ≤ i) :
    (window xs (n + 1) (i + 1)).sum =
      (window xs (n + 1) i).sum + (xs.getD i 0 - xs.getD (i - (n + 1)) 0) := by
  have hin : xs.take (i + 1) = xs.take i ++ [xs[i]] := (List.take_append_getElem hi).symm
  have hlen : (xs.take i).length = i := List.length_take_of_le hi.le
  have hout : i - (n + 1) < (xs.take i).length := by omega
  have hleft : (xs.take i).drop (i - (n + 1)) =
      (xs.take i)[i - (n + 1)] :: (xs.take i).drop (i - n) := by
    rw [List.drop_eq_getElem_cons hout]
    congr 2
    omega
  rw [window, window, Nat.add_sub_add_right, hin, hleft,
    List.drop_append_of_le_length (by omega), List.sum_append, List.sum_singleton, List.sum_cons,
    List.getD_eq_getElem _ _ hi, List.getD_eq_getElem _ _ (by omega), List.getElem_take]
  abel

end TradingPlatform.Lib.Window
