import Mathlib.Data.List.Infix

/-! # Whole words of a text

A word stands in a text on its own when no letter of the alphabet touches it on
either side. A word without the separator never spans two fields of a joined
text. -/

namespace TradingPlatform.Lib.Words

variable {α : Type*} (letter : α → Bool)

/-- `w` stands in the text with no letter right before or right after it. -/
def IsWord (text w : List α) : Prop :=
  ∃ before after, text = before ++ w ++ after ∧
    (∀ a ∈ before.getLast?, letter a = false) ∧ (∀ a ∈ after.head?, letter a = false)

variable {letter}

theorem isWord_iff {text w : List α} :
    IsWord letter text w ↔ ∃ i ∈ List.range (text.length + 1), w <+: text.drop i ∧
      (∀ a ∈ (text.take i).getLast?, letter a = false) ∧
        (∀ a ∈ (text.drop (i + w.length)).head?, letter a = false) := by
  constructor
  · rintro ⟨before, after, rfl, hbefore, hafter⟩
    refine ⟨before.length, ?_, ?_, ?_, ?_⟩
    · simp only [List.mem_range, List.length_append]
      omega
    · simp
    · simpa using hbefore
    · simpa [← List.drop_drop] using hafter
  · rintro ⟨i, -, ⟨after, hafter⟩, hleft, hright⟩
    have hdrop : text.drop (i + w.length) = after := by rw [← List.drop_drop, ← hafter]; simp
    refine ⟨text.take i, after, ?_, hleft, hdrop ▸ hright⟩
    rw [List.append_assoc, hafter, List.take_append_drop]

instance [DecidableEq α] (text w : List α) : Decidable (IsWord letter text w) :=
  decidable_of_iff _ isWord_iff.symm

theorem prefix_append_cons {w a b : List α} {x : α} (hx : x ∉ w) (h : w <+: a ++ x :: b) :
    w <+: a := by
  induction a generalizing w with
  | nil =>
    cases w with
    | nil => simp
    | cons c w =>
      have hc : c = x := by simpa using (List.cons_prefix_cons.mp h).1
      simp [hc] at hx
  | cons c a ih =>
    cases w with
    | nil => simp
    | cons d w =>
      rw [List.cons_append, List.cons_prefix_cons] at h
      obtain ⟨rfl, htail⟩ := h
      have hxw : x ∉ w := fun hmem => hx (List.mem_cons_of_mem _ hmem)
      exact List.cons_prefix_cons.mpr ⟨rfl, ih hxw htail⟩

/-- A word without `x` does not span it. -/
theorem infix_append_cons_iff {w a b : List α} {x : α} (hx : x ∉ w) :
    w <:+: a ++ x :: b ↔ w <:+: a ∨ w <:+: b := by
  constructor
  · intro h
    induction a with
    | nil =>
      rw [List.nil_append, List.infix_cons_iff] at h
      rcases h with h | h
      · exact .inl (prefix_append_cons (a := []) hx h).isInfix
      · exact .inr h
    | cons c a ih =>
      rw [List.cons_append, List.infix_cons_iff] at h
      rcases h with h | h
      · exact .inl (prefix_append_cons (a := c :: a) hx h).isInfix
      · exact (ih h).imp_left (List.infix_cons ·)
  · rintro (h | h)
    · exact List.infix_append_of_infix_left h
    · exact List.infix_append_of_infix_right (List.infix_cons h)

/-- A word without the separator stands in joined fields exactly when it stands in one. -/
theorem infix_intercalate_iff {sep : α} {w : List α} (hsep : sep ∉ w) {parts : List (List α)}
    (hne : parts ≠ []) : w <:+: [sep].intercalate parts ↔ ∃ part ∈ parts, w <:+: part := by
  induction parts with
  | nil => exact absurd rfl hne
  | cons part rest ih =>
    cases rest with
    | nil => simp [List.intercalate]
    | cons next rest =>
      have hsplit : [sep].intercalate (part :: next :: rest) =
          part ++ sep :: [sep].intercalate (next :: rest) := by
        simp [List.intercalate]
      rw [hsplit, infix_append_cons_iff hsep, ih (by simp)]
      simp

end TradingPlatform.Lib.Words
