import Mathlib.Data.List.Pairwise

/-! # The pairs of a list

`for i, a in enumerate(xs): for b in xs[i + 1:]` as one list, so that a nested
loop is a single fold. -/

namespace TradingPlatform.Lib

variable {α β : Type*}

def pairsOf : List α → List (α × α)
  | [] => []
  | a :: rest => rest.map (a, ·) ++ pairsOf rest

/-- The nested loop, over a state. -/
def foldPairs (f : β → α → α → β) : β → List α → β
  | s, [] => s
  | s, a :: rest => foldPairs f (rest.foldl (fun s b => f s a b) s) rest

theorem foldPairs_eq (f : β → α → α → β) (s : β) (xs : List α) :
    foldPairs f s xs = (pairsOf xs).foldl (fun s p => f s p.1 p.2) s := by
  induction xs generalizing s with
  | nil => rfl
  | cons a rest ih => rw [foldPairs, ih, pairsOf, List.foldl_append, List.foldl_map]

theorem mem_of_mem_pairsOf {xs : List α} {a b : α} (h : (a, b) ∈ pairsOf xs) :
    a ∈ xs ∧ b ∈ xs := by
  induction xs with
  | nil => cases h
  | cons x rest ih =>
    rcases List.mem_append.mp h with h | h
    · obtain ⟨y, hy, heq⟩ := List.mem_map.mp h
      cases heq
      exact ⟨List.mem_cons_self, List.mem_cons_of_mem _ hy⟩
    · exact (ih h).imp (List.mem_cons_of_mem _) (List.mem_cons_of_mem _)

/-- Two elements meet in one order or the other. -/
theorem mem_pairsOf_or {xs : List α} {a b : α} (ha : a ∈ xs) (hb : b ∈ xs) (hne : a ≠ b) :
    (a, b) ∈ pairsOf xs ∨ (b, a) ∈ pairsOf xs := by
  induction xs with
  | nil => cases ha
  | cons x rest ih =>
    unfold pairsOf
    rcases List.mem_cons.mp ha with rfl | ha'
    · have hb' := (List.mem_cons.mp hb).resolve_left (Ne.symm hne)
      exact .inl (List.mem_append_left _ (List.mem_map.mpr ⟨b, hb', rfl⟩))
    rcases List.mem_cons.mp hb with rfl | hb'
    · exact .inr (List.mem_append_left _ (List.mem_map.mpr ⟨a, ha', rfl⟩))
    · exact (ih ha' hb').imp (List.mem_append_right _) (List.mem_append_right _)

/-- A pair meets just when its elements are listed in that order. -/
theorem mem_pairsOf {xs : List α} {a b : α} : (a, b) ∈ pairsOf xs ↔ [a, b].Sublist xs := by
  induction xs with
  | nil => simp [pairsOf]
  | cons x rest ih =>
    rw [pairsOf, List.mem_append, ih, List.sublist_cons_iff, or_comm]
    refine or_congr_right ?_
    simp only [List.mem_map, Prod.mk.injEq, List.cons.injEq, exists_eq_right_right]
    constructor
    · intro h
      obtain ⟨hb, rfl⟩ := h
      exact ⟨[b], ⟨rfl, rfl⟩, List.singleton_sublist.mpr hb⟩
    · intro h
      obtain ⟨r, ⟨rfl, rfl⟩, hb⟩ := h
      exact ⟨List.singleton_sublist.mp hb, rfl⟩

/-- Elements that are listed once are listed in one order. -/
theorem not_listed_both {xs : List α} (hxs : xs.Nodup) {a b : α} (h : [a, b].Sublist xs) :
    ¬[b, a].Sublist xs := by
  induction xs with
  | nil => cases h
  | cons x rest ih =>
    obtain ⟨hx, hrest⟩ := List.nodup_cons.mp hxs
    intro h'
    cases h with
    | cons _ h =>
      cases h' with
      | cons _ h' => exact ih hrest h h'
      | cons_cons _ h' => exact hx (h.subset (List.mem_cons_of_mem _ List.mem_cons_self))
    | cons_cons _ h =>
      cases h' with
      | cons _ h' => exact hx (h'.subset (List.mem_cons_of_mem _ List.mem_cons_self))
      | cons_cons _ h' => exact hx (List.singleton_sublist.mp h)

/-- The pairs an element is in come in the order of the elements it meets. -/
theorem pairsOf_ordered {xs : List α} (hxs : xs.Nodup) :
    (pairsOf xs).Pairwise fun p q => ∀ x y z, p = (x, y) ∨ p = (y, x) → q = (x, z) ∨ q = (z, x) →
      [y, z].Sublist xs := by
  induction xs with
  | nil => exact List.Pairwise.nil
  | cons a rest ih =>
    obtain ⟨ha, hrest⟩ := List.nodup_cons.mp hxs
    refine List.pairwise_append.mpr ⟨?_, ?_, ?_⟩
    · refine List.pairwise_map.mpr (List.pairwise_iff_forall_sublist.mpr ?_)
      intro b c hbc x y z hp hq
      have hb : b ∈ rest := hbc.subset List.mem_cons_self
      have hc : c ∈ rest := hbc.subset (List.mem_cons_of_mem _ List.mem_cons_self)
      rcases hp with hp | hp <;> cases hp <;> rcases hq with hq | hq <;> cases hq
      · exact hbc.cons a
      · exact absurd hc ha
      · exact absurd hb ha
      · exact absurd hbc (not_listed_both hrest hbc)
    · exact (ih hrest).imp fun h x y z hp hq => (h x y z hp hq).cons a
    · intro p hp q hq x y z hpx hqx
      obtain ⟨b, hb, rfl⟩ := List.mem_map.mp hp
      have hxz : x ∈ rest ∧ z ∈ rest := by
        rcases hqx with rfl | rfl
        · exact mem_of_mem_pairsOf hq
        · exact (mem_of_mem_pairsOf hq).symm
      rcases hpx with heq | heq <;> cases heq
      · exact absurd hxz.1 ha
      · exact (List.singleton_sublist.mpr hxz.2).cons_cons a

end TradingPlatform.Lib
