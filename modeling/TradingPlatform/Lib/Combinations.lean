import Mathlib.Data.List.Sublists

/-! # Combinations in lexicographic order

`itertools.combinations`: the sublists of a given length, those with the first
element before those without. Counting goes through `List.sublistsLen`, which
lists the same sublists in another order. -/

namespace TradingPlatform.Lib

variable {α : Type*}

def combinations : Nat → List α → List (List α)
  | 0, _ => [[]]
  | _ + 1, [] => []
  | k + 1, x :: xs => (combinations k xs).map (x :: ·) ++ combinations (k + 1) xs

theorem combinations_perm (k : Nat) (xs : List α) :
    (combinations k xs).Perm (xs.sublistsLen k) := by
  induction xs generalizing k with
  | nil =>
    cases k with
    | zero => simp [combinations]
    | succ k => simp [combinations]
  | cons x xs ih =>
    cases k with
    | zero => simp [combinations]
    | succ k =>
      rw [combinations, List.sublistsLen_succ_cons]
      exact (((ih k).map _).append (ih (k + 1))).trans List.perm_append_comm

theorem length_combinations (k : Nat) (xs : List α) :
    (combinations k xs).length = xs.length.choose k := by
  rw [(combinations_perm k xs).length_eq, List.length_sublistsLen]

theorem mem_combinations {k : Nat} {xs ys : List α} :
    ys ∈ combinations k xs ↔ ys.Sublist xs ∧ ys.length = k := by
  rw [(combinations_perm k xs).mem_iff, List.mem_sublistsLen]

/-- Each element is in as many combinations as there are choices of the others. -/
theorem countP_mem_combinations [DecidableEq α] {xs : List α} (hxs : xs.Nodup) {x : α} (hx : x ∈ xs)
    (k : Nat) :
    (combinations (k + 1) xs).countP (x ∈ ·) = (xs.length - 1).choose k := by
  induction xs generalizing k with
  | nil => cases hx
  | cons y xs ih =>
    obtain ⟨hy, hxs⟩ := List.nodup_cons.mp hxs
    rw [combinations, List.countP_append, List.countP_map, List.length_cons, Nat.add_sub_cancel]
    by_cases hxy : x = y
    · subst hxy
      have hall : (combinations k xs).countP ((fun ys => decide (x ∈ ys)) ∘ (x :: ·)) =
          (combinations k xs).length := List.countP_eq_length.mpr (by simp)
      have hnone : (combinations (k + 1) xs).countP (x ∈ ·) = 0 := by
        refine List.countP_eq_zero.mpr fun ys hys hmem => hy ?_
        exact (mem_combinations.mp hys).1.subset (by simpa using hmem)
      rw [hall, hnone, length_combinations]
      rfl
    · have hmem : x ∈ xs := (List.mem_cons.mp hx).resolve_left hxy
      have hskip : ((fun ys => decide (x ∈ ys)) ∘ (y :: ·)) = fun ys => decide (x ∈ ys) := by
        funext ys
        simp [hxy]
      have hpos := List.length_pos_of_mem hmem
      rw [hskip, ih hxs hmem]
      cases k with
      | zero => simp [combinations]
      | succ k =>
        rw [ih hxs hmem]
        obtain ⟨n, hn⟩ : ∃ n, xs.length = n + 1 := ⟨xs.length - 1, by omega⟩
        rw [hn, Nat.add_sub_cancel, Nat.choose_succ_succ]

end TradingPlatform.Lib
