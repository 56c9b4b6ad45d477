import Mathlib.Algebra.Order.Field.Basic
import Mathlib.Tactic.FieldSimp
import Mathlib.Tactic.Linarith
import Mathlib.Tactic.Ring

/-! # Average-cost accounting

A holding is a signed quantity and what the side held has cost. A fill on that
side adds its cost. One on the other side takes out its share of the cost; if it
goes past zero, what is left of it is the new side. -/

namespace TradingPlatform.Lib

structure Holding (α : Type*) [Field α] where
  qty : α
  cost : α
  flat_cost : qty = 0 → cost = 0

namespace Holding

section Field
variable {α : Type*} [Field α]

def flat : Holding α := ⟨0, 0, fun _ => rfl⟩

end Field

variable {α : Type*} [Field α] [LinearOrder α] [IsStrictOrderedRing α] (h : Holding α)

/-- The volume-weighted price of the side held. -/
def average : α := h.cost / |h.qty|

/-- The fill is on the side held, or opens one. -/
def Adds (s : α) : Prop := 0 ≤ h.qty * s

/-- The fill goes past zero. -/
def Crosses (s : α) : Prop := h.qty * s < 0 ∧ |h.qty| < |s|

instance (s : α) : Decidable (h.Adds s) := inferInstanceAs (Decidable (0 ≤ _))

instance (s : α) : Decidable (h.Crosses s) := inferInstanceAs (Decidable (_ ∧ _))

omit [IsStrictOrderedRing α] in
theorem add_ne_zero_of_crosses {q s : α} (hs : |q| < |s|) : q + s ≠ 0 := by
  intro hz
  rw [eq_neg_of_add_eq_zero_left hz, abs_neg] at hs
  exact lt_irrefl _ hs

theorem abs_add_of_opposite {q s : α} (hs : q * s < 0) (hle : |s| ≤ |q|) :
    |q + s| = |q| - |s| := by
  rcases mul_neg_iff.mp hs with ⟨hq, hs⟩ | ⟨hq, hs⟩
  · rw [abs_of_pos hq, abs_of_neg hs] at hle ⊢
    rw [abs_of_nonneg (by linarith)]
    ring
  · rw [abs_of_neg hq, abs_of_pos hs] at hle ⊢
    rw [abs_of_nonpos (by linarith)]
    ring

theorem abs_add_of_same {q s : α} (hs : 0 ≤ q * s) : |q + s| = |q| + |s| :=
  (abs_add_eq_add_abs_iff q s).mpr (mul_nonneg_iff.mp hs)

/-- A signed fill `s` at a price `p`. -/
def fill (s p : α) : Holding α :=
  if hadds : h.Adds s then
    { qty := h.qty + s
      cost := h.cost + |s| * p
      flat_cost := by
        intro hz
        have habs := abs_add_of_same hadds
        rw [hz, abs_zero] at habs
        obtain ⟨hq, hs⟩ := (add_eq_zero_iff_of_nonneg (abs_nonneg _) (abs_nonneg _)).mp habs.symm
        rw [hs, h.flat_cost (abs_eq_zero.mp hq), zero_mul, add_zero] }
  else if hcross : |h.qty| < |s| then
    { qty := h.qty + s
      cost := |h.qty + s| * p
      flat_cost := fun hz => absurd hz (add_ne_zero_of_crosses hcross) }
  else
    { qty := h.qty + s
      cost := h.cost - |s| * h.average
      flat_cost := by
        intro hz
        have hs : |s| = |h.qty| := by rw [eq_neg_of_add_eq_zero_left hz, abs_neg]
        have hq : |h.qty| ≠ 0 := by
          intro hq
          exact hadds (by rw [Adds, abs_eq_zero.mp hq, zero_mul])
        rw [hs, average, mul_div_cancel₀ _ hq, sub_self] }

@[simp] theorem qty_fill (s p : α) : (h.fill s p).qty = h.qty + s := by
  unfold fill
  split
  · rfl
  split <;> rfl

/-- Adding weighs the average. -/
theorem average_fill_of_adds {s : α} (hs : h.Adds s) (p : α) :
    (h.fill s p).average = (|h.qty| * h.average + |s| * p) / (|h.qty| + |s|) := by
  have hcost : |h.qty| * h.average = h.cost := by
    by_cases hq : h.qty = 0
    · rw [hq, abs_zero, zero_mul, h.flat_cost hq]
    · exact mul_div_cancel₀ _ (abs_ne_zero.mpr hq)
  rw [hcost, average, fill, dif_pos hs, abs_add_of_same hs]

/-- Crossing through zero starts it again at the price of the fill. -/
theorem average_fill_of_crosses {s : α} (hs : h.Crosses s) (p : α) :
    (h.fill s p).average = p := by
  obtain ⟨hopp, hgt⟩ := hs
  have hadds : ¬ h.Adds s := not_le.mpr hopp
  rw [average, fill, dif_neg hadds, dif_pos hgt]
  exact mul_div_cancel_left₀ p (abs_ne_zero.mpr (add_ne_zero_of_crosses hgt))

/-- Reducing leaves it. -/
theorem average_fill_of_reduces {s : α} (hadds : ¬ h.Adds s) (hcross : ¬ h.Crosses s)
    (hne : h.qty + s ≠ 0) (p : α) : (h.fill s p).average = h.average := by
  have hopp := not_le.mp hadds
  have hle := not_lt.mp fun hgt => hcross ⟨hopp, hgt⟩
  have hq : |h.qty| ≠ 0 := abs_ne_zero.mpr (left_ne_zero_of_mul hopp.ne)
  have hleft := abs_add_of_opposite hopp hle
  have hne' : |h.qty| - |s| ≠ 0 := hleft ▸ abs_ne_zero.mpr hne
  rw [average, fill, dif_neg hadds, dif_neg hle.not_gt]
  dsimp only
  rw [hleft, average, div_eq_div_iff hne' hq]
  field_simp

end Holding

end TradingPlatform.Lib
