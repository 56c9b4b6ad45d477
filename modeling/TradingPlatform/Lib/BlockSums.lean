import Mathlib.Algebra.Order.Group.Defs
import Mathlib.Algebra.BigOperators.Group.List.Basic
import Mathlib.Data.List.Induction
import Mathlib.Order.Bounds.Basic
import Mathlib.Order.Lattice

/-! # Contiguous block sums and the reflected walk

The walk that is pushed back to zero whenever its sum would go negative stands,
after each list, at the greatest sum of a suffix of it. Its highest point is the
greatest sum of a contiguous block. Both maxima count the empty block, so they
are never negative. -/

namespace TradingPlatform.BlockSums

variable {α : Type*} [AddCommGroup α]

/-- The sums of the blocks that end where the list ends. -/
def suffixSums (xs : List α) : Set α := {v | ∃ t, t <:+ xs ∧ t.sum = v}

/-- The sums of all contiguous blocks. -/
def blockSums (xs : List α) : Set α := {v | ∃ t, t <:+: xs ∧ t.sum = v}

theorem mem_suffixSums_concat {xs : List α} {x v : α} :
    v ∈ suffixSums (xs ++ [x]) ↔ v = 0 ∨ ∃ w ∈ suffixSums xs, v = w + x := by
  constructor
  · rintro ⟨t, ht, rfl⟩
    rcases List.suffix_concat_iff.mp ht with rfl | ⟨u, rfl, hu⟩
    · exact Or.inl rfl
    · exact Or.inr ⟨u.sum, ⟨u, hu, rfl⟩, by simp⟩
  · rintro (rfl | ⟨w, ⟨u, hu, rfl⟩, rfl⟩)
    · exact ⟨[], List.nil_suffix, rfl⟩
    · exact ⟨u ++ [x], List.suffix_concat_iff.mpr (Or.inr ⟨u, rfl, hu⟩), by simp⟩

theorem mem_blockSums_concat {xs : List α} {x v : α} :
    v ∈ blockSums (xs ++ [x]) ↔ v ∈ suffixSums (xs ++ [x]) ∨ v ∈ blockSums xs := by
  constructor
  · rintro ⟨t, ht, rfl⟩
    rcases List.infix_concat_iff.mp ht with hs | hi
    · exact Or.inl ⟨t, hs, rfl⟩
    · exact Or.inr ⟨t, hi, rfl⟩
  · rintro (⟨t, ht, rfl⟩ | ⟨t, ht, rfl⟩)
    · exact ⟨t, ht.isInfix, rfl⟩
    · exact ⟨t, List.infix_concat_iff.mpr (Or.inr ht), rfl⟩

/-- The values at the positions `b` to `e`, both included. -/
def segment {β : Type*} (xs : List β) (b e : Nat) : List β := (xs.take (e + 1)).drop b

theorem segment_map {β γ : Type*} (f : β → γ) (xs : List β) (b e : Nat) :
    segment (xs.map f) b e = (segment xs b e).map f := by
  simp [segment, List.map_take, List.map_drop]

theorem segment_suffix_take {β : Type*} (xs : List β) (b e : Nat) :
    segment xs b e <:+ xs.take (e + 1) :=
  List.drop_suffix _ _

/-- A suffix sum of the first `e + 1` values: of no value, or of a block ending at `e`. -/
theorem mem_suffixSums_take {xs : List α} {e : Nat} (he : e < xs.length) {v : α} :
    v ∈ suffixSums (xs.take (e + 1)) ↔ v = 0 ∨ ∃ b ≤ e, v = (segment xs b e).sum := by
  constructor
  · rintro ⟨t, ht, rfl⟩
    have hlen := ht.length_le
    rw [List.length_take] at hlen
    rw [List.suffix_iff_eq_drop.mp ht, List.length_take]
    by_cases hz : t.length = 0
    · left
      rw [hz, List.drop_of_length_le (by simp), List.sum_nil]
    · right
      exact ⟨min (e + 1) xs.length - t.length, by omega, rfl⟩
  · rintro (rfl | ⟨b, _, rfl⟩)
    · exact ⟨[], List.nil_suffix, rfl⟩
    · exact ⟨segment xs b e, segment_suffix_take xs b e, rfl⟩

/-- A block sum: of no value, or of the values between two positions. -/
theorem mem_blockSums_iff {xs : List α} {v : α} :
    v ∈ blockSums xs ↔ v = 0 ∨ ∃ b e, b ≤ e ∧ e < xs.length ∧ v = (segment xs b e).sum := by
  constructor
  · rintro ⟨t, ⟨p, q, rfl⟩, rfl⟩
    cases t with
    | nil => exact Or.inl rfl
    | cons x t =>
      right
      have hlen : (p ++ (x :: t)).length = p.length + t.length + 1 := by
        rw [List.length_append, List.length_cons, Nat.add_assoc]
      refine ⟨p.length, p.length + t.length, by omega, ?_, ?_⟩
      · rw [List.length_append, hlen]
        omega
      have htake : (p ++ (x :: t) ++ q).take (p.length + t.length + 1) = p ++ (x :: t) := by
        rw [List.take_append_of_le_length hlen.ge]
        exact List.take_of_length_le hlen.le
      rw [segment, htake, List.drop_left]
  · rintro (rfl | ⟨b, e, _, _, rfl⟩)
    · exact ⟨[], List.nil_infix, rfl⟩
    · exact ⟨segment xs b e,
        (segment_suffix_take xs b e).isInfix.trans (List.take_prefix _ _).isInfix, rfl⟩

variable [LinearOrder α]

def reflect (s x : α) : α := max 0 (s + x)

def walk (xs : List α) : α := xs.foldl reflect 0

@[simp] theorem walk_nil : walk ([] : List α) = 0 := rfl

@[simp] theorem walk_concat (xs : List α) (x : α) :
    walk (xs ++ [x]) = max 0 (walk xs + x) := by
  simp [walk, reflect]

variable [IsOrderedAddMonoid α]

/-- The reflected walk stands at the greatest suffix sum. -/
theorem isGreatest_walk (xs : List α) : IsGreatest (suffixSums xs) (walk xs) := by
  induction xs using List.reverseRecOn with
  | nil =>
    refine ⟨⟨[], List.nil_suffix, rfl⟩, ?_⟩
    rintro v ⟨t, ht, rfl⟩
    rw [List.suffix_nil.mp ht]
    simp
  | append_singleton xs x ih =>
    rw [walk_concat]
    refine ⟨mem_suffixSums_concat.mpr ?_, ?_⟩
    · rcases max_choice 0 (walk xs + x) with h | h
      · exact Or.inl h
      · exact Or.inr ⟨walk xs, ih.1, h⟩
    · intro v hv
      rcases mem_suffixSums_concat.mp hv with rfl | ⟨w, hw, rfl⟩
      · exact le_max_left _ _
      · have hle : w ≤ walk xs := ih.2 hw
        exact (add_le_add_left hle x).trans (le_max_right _ _)

/-- One more value: the greatest block sum is the old one or the walk's new height. -/
theorem isGreatest_blockSums_concat {xs : List α} {m : α} (x : α)
    (h : IsGreatest (blockSums xs) m) :
    IsGreatest (blockSums (xs ++ [x])) (max m (walk (xs ++ [x]))) := by
  have hw := isGreatest_walk (xs ++ [x])
  refine ⟨mem_blockSums_concat.mpr ?_, ?_⟩
  · rcases max_choice m (walk (xs ++ [x])) with he | he
    · exact Or.inr (by rw [he]; exact h.1)
    · exact Or.inl (by rw [he]; exact hw.1)
  · intro v hv
    rcases mem_blockSums_concat.mp hv with hs | hb
    · exact (hw.2 hs).trans (le_max_right _ _)
    · exact (h.2 hb).trans (le_max_left _ _)

/-- The walk is above a level exactly when some block ending here is. -/
theorem lt_walk_iff {xs : List α} {h : α} :
    h < walk xs ↔ ∃ v ∈ suffixSums xs, h < v := by
  constructor
  · intro hlt
    exact ⟨walk xs, (isGreatest_walk xs).1, hlt⟩
  · rintro ⟨v, hv, hlt⟩
    exact hlt.trans_le ((isGreatest_walk xs).2 hv)

/-- At a level that the empty block does not cross, the walk after the value at `e` is above
it exactly when some block ending at `e` is. -/
theorem lt_walk_take_iff {xs : List α} {e : Nat} {h : α} (he : e < xs.length) (hh : 0 ≤ h) :
    h < walk (xs.take (e + 1)) ↔ ∃ b ≤ e, h < (segment xs b e).sum := by
  rw [lt_walk_iff]
  constructor
  · rintro ⟨v, hv, hlt⟩
    rcases (mem_suffixSums_take he).mp hv with rfl | ⟨b, hb, rfl⟩
    · exact absurd hlt (not_lt.mpr hh)
    · exact ⟨b, hb, hlt⟩
  · rintro ⟨b, hb, hlt⟩
    exact ⟨_, (mem_suffixSums_take he).mpr (Or.inr ⟨b, hb, rfl⟩), hlt⟩

end TradingPlatform.BlockSums
