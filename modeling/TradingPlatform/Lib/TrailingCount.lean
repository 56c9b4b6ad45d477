import TradingPlatform.Lib.Ring
import Mathlib.Data.List.TakeWhile
import Mathlib.Order.Basic

/-! # Counting in a trailing span

A bounded deque of times takes each new time at its end and, when it is read, drops
those before the cutoff from its front. Up to its bound it counts the times since the
cutoff among all there have been. -/

namespace TradingPlatform.Lib.TrailingCount
open TradingPlatform.Lib.Ring

variable {α : Type*} [LinearOrder α] {n k : ℕ} {cutoff : α} {all dq : List α}

/-- The loop that pops from the front while it finds a time before the cutoff. -/
def prune (cutoff : α) (dq : List α) : List α := dq.dropWhile (· < cutoff)

/-- The deque is the end of all the times: what has left it is before the cutoff, or left it
with as many as it can hold. -/
structure Keeps (n : ℕ) (cutoff : α) (all dq : List α) : Prop where
  sorted : all.Pairwise (· ≤ ·)
  suffix : ∃ old, all = old ++ dq ∧ ((∀ t ∈ old, t < cutoff) ∨ n ≤ dq.length)

theorem keeps_nil (n : ℕ) (cutoff : α) : Keeps n cutoff [] [] :=
  ⟨List.Pairwise.nil, [], rfl, .inl fun _ h => absurd h List.not_mem_nil⟩

/-- A later cutoff. -/
theorem Keeps.later (h : Keeps n cutoff all dq) {cutoff' : α} (hle : cutoff ≤ cutoff') :
    Keeps n cutoff' all dq := by
  obtain ⟨hsorted, old, hall, hleft⟩ := h
  exact ⟨hsorted, old, hall, hleft.imp_left fun hold t ht => (hold t ht).trans_le hle⟩

theorem Keeps.append (h : Keeps n cutoff all dq) {x : α} (hlast : ∀ t ∈ all, t ≤ x) :
    Keeps n cutoff (all ++ [x]) (appendBounded n dq x) := by
  obtain ⟨hsorted, old, hall, hleft⟩ := h
  refine ⟨?_, old ++ (dq ++ [x]).take (dq.length + 1 - n), ?_, ?_⟩
  · rw [List.pairwise_append]
    refine ⟨hsorted, List.pairwise_singleton _ _, fun t ht u hu => ?_⟩
    rw [List.mem_singleton.mp hu]
    exact hlast t ht
  · rw [appendBounded, List.append_assoc, List.take_append_drop, hall, List.append_assoc]
  · rcases Nat.lt_or_ge dq.length n with hroom | hfull
    · -- room is left, so nothing is pushed out
      have hnone : dq.length + 1 - n = 0 := by omega
      rw [hnone, List.take_zero, List.append_nil]
      exact .inl (hleft.resolve_right (Nat.not_le.mpr hroom))
    · refine .inr ?_
      rw [appendBounded, List.length_drop, List.length_append, List.length_singleton]
      omega

theorem prune_cons_of_lt {t : α} (h : t < cutoff) (ts : List α) :
    prune cutoff (t :: ts) = prune cutoff ts :=
  List.dropWhile_cons_of_pos (decide_eq_true h)

theorem prune_cons_of_le {t : α} (h : cutoff ≤ t) (ts : List α) :
    prune cutoff (t :: ts) = t :: ts :=
  List.dropWhile_cons_of_neg (by simpa using h)

/-- Of a sorted deque nothing before the cutoff is left. -/
theorem le_of_mem_prune (hsorted : dq.Pairwise (· ≤ ·)) :
    ∀ t ∈ prune cutoff dq, cutoff ≤ t := by
  induction dq with
  | nil => simp [prune]
  | cons u us ih =>
    rw [List.pairwise_cons] at hsorted
    rcases lt_or_ge u cutoff with hu | hu
    · rw [prune_cons_of_lt hu]
      exact ih hsorted.2
    · rw [prune_cons_of_le hu]
      intro t ht
      rcases List.mem_cons.mp ht with rfl | ht
      · exact hu
      · exact hu.trans (hsorted.1 t ht)

theorem Keeps.prune (h : Keeps n cutoff all dq) :
    Keeps n cutoff all (prune cutoff dq) := by
  obtain ⟨hsorted, old, hall, hleft⟩ := h
  have hsplit : dq = dq.takeWhile (· < cutoff) ++ TrailingCount.prune cutoff dq :=
    List.takeWhile_append_dropWhile.symm
  have hdropped : ∀ t ∈ dq.takeWhile (· < cutoff), t < cutoff := fun t ht => by
    simpa using List.mem_takeWhile_imp ht
  refine ⟨hsorted, old ++ dq.takeWhile (· < cutoff), ?_, ?_⟩
  · rw [List.append_assoc, ← hsplit, hall]
  · cases hfront : dq.takeWhile (· < cutoff) with
    | nil =>
      rw [hfront, List.nil_append] at hsplit
      rw [List.append_nil, ← hsplit]
      exact hleft
    | cons u us =>
      -- what left before is no later than what leaves now
      have hu : u ∈ dq.takeWhile (· < cutoff) := by rw [hfront]; exact List.mem_cons_self
      have hbefore : ∀ t ∈ old, t ≤ u := by
        rw [hall, List.pairwise_append] at hsorted
        exact fun t ht => hsorted.2.2 t ht u (List.takeWhile_subset _ hu)
      rw [← hfront]
      refine .inl fun t ht => ?_
      rcases List.mem_append.mp ht with ht | ht
      · exact (hbefore t ht).trans_lt (hdropped u hu)
      · exact hdropped t ht

/-- **The deque counts.** As far as its bound goes, its length once pruned is the number of
all times since the cutoff. -/
theorem Keeps.le_length_prune_iff (h : Keeps n cutoff all dq) (hk : k ≤ n) :
    k ≤ (TrailingCount.prune cutoff dq).length ↔ k ≤ all.countP (cutoff ≤ ·) := by
  have hdq : dq.Pairwise (· ≤ ·) := by
    obtain ⟨hsorted, old, hall, -⟩ := h
    rw [hall] at hsorted
    exact (List.pairwise_append.mp hsorted).2.1
  have hkept : (TrailingCount.prune cutoff dq).countP (cutoff ≤ ·) =
      (TrailingCount.prune cutoff dq).length :=
    List.countP_eq_length.mpr fun t ht => decide_eq_true (le_of_mem_prune hdq t ht)
  obtain ⟨-, old, hall, hleft⟩ := h.prune
  rw [hall, List.countP_append, hkept]
  rcases hleft with hold | hfull
  · have hnone : old.countP (cutoff ≤ ·) = 0 :=
      List.countP_eq_zero.mpr fun t ht => by simpa using hold t ht
    rw [hnone, Nat.zero_add]
  · have hlong : k ≤ (TrailingCount.prune cutoff dq).length := hk.trans hfull
    exact iff_of_true hlong (hlong.trans (Nat.le_add_left _ _))

end TradingPlatform.Lib.TrailingCount
