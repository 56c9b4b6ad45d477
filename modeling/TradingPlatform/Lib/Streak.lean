import Mathlib.Data.List.DropRight

/-! # Streaks

How many elements at the end of a list meet a test, and whether a number of them in a row
ever did. -/

namespace TradingPlatform.Lib

variable {α : Type*} {p : α → Bool} {xs : List α} {x : α} {k : ℕ}

/-- How many elements in a row meet `p` at the end. -/
def streak (p : α → Bool) (xs : List α) : ℕ := (xs.rtakeWhile p).length

@[simp] theorem streak_nil : streak p [] = 0 := by simp [streak]

theorem streak_concat : streak p (xs ++ [x]) = if p x then streak p xs + 1 else 0 := by
  unfold streak
  rw [List.rtakeWhile_concat]
  split
  · rw [List.length_append, List.length_singleton]
  · rfl

/-- Some `k` elements in a row meet `p`. -/
def InARow (p : α → Bool) (k : ℕ) (xs : List α) : Prop :=
  ∃ block, block <:+: xs ∧ block.length = k ∧ ∀ x ∈ block, p x = true

/-- The last `k` elements meet `p` exactly when the streak is that long. -/
theorem exists_suffix_iff :
    (∃ block, block <:+ xs ∧ block.length = k ∧ ∀ x ∈ block, p x = true) ↔ k ≤ streak p xs := by
  constructor
  · rintro ⟨block, ⟨rest, rfl⟩, rfl, hall⟩
    induction block using List.reverseRecOn with
    | nil => exact Nat.zero_le _
    | append_singleton block y ih =>
      have hlast : p y = true := hall y (by simp)
      rw [← List.append_assoc, streak_concat, if_pos hlast, List.length_append,
        List.length_singleton]
      exact Nat.succ_le_succ (ih fun x hx => hall x (List.mem_append_left _ hx))
  · intro hk
    refine ⟨(xs.rtakeWhile p).drop (streak p xs - k), ?_, ?_, fun x hx => ?_⟩
    · exact (List.drop_suffix _ _).trans (List.rtakeWhile_suffix p xs)
    · rw [List.length_drop]
      exact Nat.sub_sub_self hk
    · exact List.mem_rtakeWhile_imp (List.mem_of_mem_drop hx)

theorem inARow_nil : InARow p k [] ↔ k = 0 := by
  constructor
  · rintro ⟨block, hin, rfl, -⟩
    rw [List.infix_nil.mp hin]
    rfl
  · rintro rfl
    exact ⟨[], List.infix_rfl, rfl, nofun⟩

/-- One more element makes a row of `k` where there was one, or the streak comes to `k`. -/
theorem inARow_concat : InARow p k (xs ++ [x]) ↔ InARow p k xs ∨ k ≤ streak p (xs ++ [x]) := by
  rw [← exists_suffix_iff]
  constructor
  · rintro ⟨block, hin, hlen, hall⟩
    rcases List.infix_concat_iff.mp hin with hend | hold
    · exact .inr ⟨block, hend, hlen, hall⟩
    · exact .inl ⟨block, hold, hlen, hall⟩
  · rintro (⟨block, hold, hlen, hall⟩ | ⟨block, hend, hlen, hall⟩)
    · exact ⟨block, List.infix_concat_iff.mpr (.inr hold), hlen, hall⟩
    · exact ⟨block, hend.isInfix, hlen, hall⟩

end TradingPlatform.Lib
