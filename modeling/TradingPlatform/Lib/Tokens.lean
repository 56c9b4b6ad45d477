import Mathlib.Algebra.BigOperators.Group.List.Basic
import Mathlib.Algebra.GroupWithZero.Nat

/-! # Tokens that parties hold

Each party of a list holds some tokens. How many of one token they hold between
them changes, when one party moves, by what that party gains and loses. -/

namespace TradingPlatform.Lib.Tokens

variable {π τ : Type*} [DecidableEq τ] (holds : π → List τ)

/-- How many of a token the parties hold between them. -/
def total (ps : List π) (a : τ) : Nat := (ps.map fun p => (holds p).count a).sum

@[simp] theorem total_nil (a : τ) : total holds [] a = 0 := rfl

theorem total_append_singleton (ps : List π) (p : π) (a : τ) :
    total holds (ps ++ [p]) a = total holds ps a + (holds p).count a := by
  simp [total]

/-- One party moves on. -/
theorem total_set {ps : List π} {t : Nat} {p : π} (h : ps[t]? = some p) (p' : π) (a : τ) :
    total holds (ps.set t p') a + (holds p).count a = total holds ps a + (holds p').count a := by
  induction ps generalizing t with
  | nil => cases h
  | cons q rest ih =>
    cases t with
    | zero =>
      cases h
      simp only [total, List.set_cons_zero, List.map_cons, List.sum_cons]
      omega
    | succ t =>
      have htail := ih h
      simp only [total, List.set_cons_succ, List.map_cons, List.sum_cons] at htail ⊢
      omega

theorem total_pos {ps : List π} {a : τ} : 0 < total holds ps a ↔ ∃ p ∈ ps, a ∈ holds p := by
  induction ps with
  | nil => simp
  | cons q rest ih =>
    have hsplit : 0 < total holds (q :: rest) a ↔
        0 < (holds q).count a ∨ 0 < total holds rest a := by
      simp only [total, List.map_cons, List.sum_cons]
      omega
    rw [hsplit, ih, List.count_pos_iff]
    simp

end TradingPlatform.Lib.Tokens
