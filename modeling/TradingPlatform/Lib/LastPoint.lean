import Mathlib.Order.Bounds.Basic
import Mathlib.Algebra.Order.Ring.Int
import Mathlib.Data.Int.ConditionallyCompleteOrder

/-! # The last point of a set

A function that gives the last point of a set at or before each point is monotone
and idempotent, and fixes the points of the set only. A bounded search downwards
finds the last point it reaches. -/

namespace TradingPlatform.Lib.LastPoint

section Order
variable {α : Type*} [PartialOrder α] {S : Set α} {f : α → α}

/-- `f t` is the greatest point of `S` at or before `t`. -/
def LastIn (S : Set α) (f : α → α) : Prop := ∀ t, IsGreatest {u | u ∈ S ∧ u ≤ t} (f t)

theorem LastIn.mem (h : LastIn S f) (t : α) : f t ∈ S := (h t).1.1

theorem LastIn.le (h : LastIn S f) (t : α) : f t ≤ t := (h t).1.2

theorem LastIn.monotone (h : LastIn S f) : Monotone f := fun t u htu =>
  (h u).2 ⟨h.mem t, (h.le t).trans htu⟩

theorem LastIn.eq_self_iff (h : LastIn S f) {t : α} : f t = t ↔ t ∈ S := by
  constructor
  · intro hfix
    exact hfix ▸ h.mem t
  · intro hmem
    exact le_antisymm (h.le t) ((h t).2 ⟨hmem, le_rfl⟩)

theorem LastIn.idempotent (h : LastIn S f) (t : α) : f (f t) = f t := h.eq_self_iff.mpr (h.mem t)

end Order

/-! ## Searching downwards -/

section Search
variable (p : ℤ → Bool)

/-- The first of `cursor`, `cursor - 1`, … that meets `p`, within so many steps. -/
def searchDown : ℕ → ℤ → Option ℤ
  | 0, _ => none
  | steps + 1, cursor => if p cursor then some cursor else searchDown steps (cursor - 1)

variable {p}

theorem searchDown_eq_some {steps : ℕ} {cursor d : ℤ} (h : searchDown p steps cursor = some d) :
    p d = true ∧ cursor - steps < d ∧ d ≤ cursor ∧ ∀ e ≤ cursor, p e = true → e ≤ d := by
  induction steps generalizing cursor with
  | zero => simp [searchDown] at h
  | succ steps ih =>
    rw [searchDown] at h
    split at h
    · rename_i hp
      cases h
      exact ⟨hp, by omega, le_rfl, fun e he _ => he⟩
    · rename_i hp
      obtain ⟨hd, hlt, hle, hlast⟩ := ih h
      refine ⟨hd, by omega, by omega, fun e he hpe => ?_⟩
      obtain rfl | hlt := he.eq_or_lt
      · exact absurd hpe hp
      · exact hlast e (by omega) hpe

theorem searchDown_eq_none {steps : ℕ} {cursor : ℤ} :
    searchDown p steps cursor = none ↔ ∀ d, cursor - steps < d → d ≤ cursor → p d = false := by
  induction steps generalizing cursor with
  | zero =>
    simp only [searchDown, true_iff]
    intro d hlt hle
    omega
  | succ steps ih =>
    rw [searchDown]
    split
    · rename_i hp
      simp only [reduceCtorEq, false_iff, not_forall]
      exact ⟨cursor, by omega, le_rfl, by simp [hp]⟩
    · rename_i hp
      rw [ih]
      constructor
      · intro h d hlt hle
        obtain rfl | hlt' := hle.eq_or_lt
        · simpa using hp
        · exact h d (by omega) (by omega)
      · intro h d hlt hle
        exact h d (by omega) (by omega)

end Search

end TradingPlatform.Lib.LastPoint
