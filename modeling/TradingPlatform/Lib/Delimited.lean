import Mathlib.Data.List.Basic

/-! # Fields joined by a separator that is not escaped

The text says what the pieces between two separators are, not which field a
piece belongs to. Two lists of fields with one text are the same list, or one
of them was cut elsewhere. -/

namespace TradingPlatform.Lib.Delimited

variable {α : Type*} [DecidableEq α] (sep : α)

def joined (fields : List (List α)) : List α := [sep].intercalate fields

/-- What stands between two separators, in a row. -/
def pieces (fields : List (List α)) : List (List α) := fields.flatMap (·.splitOn sep)

/-- The same pieces in a row, in fields of other lengths. -/
def CutElsewhere (fields fields' : List (List α)) : Prop :=
  pieces sep fields = pieces sep fields' ∧
    fields.map (·.count sep) ≠ fields'.map (·.count sep)

instance (fields fields' : List (List α)) : Decidable (CutElsewhere sep fields fields') :=
  inferInstanceAs (Decidable (_ ∧ _))

theorem length_splitOn (field : List α) :
    (field.splitOn sep).length = field.count sep + 1 := by
  induction field with
  | nil => rfl
  | cons a rest ih =>
    rw [List.splitOn_cons_eq_if_modifyHead, List.count_cons]
    by_cases ha : a == sep
    · rw [if_pos ha, if_pos ha, List.length_cons, ih]
    · rw [if_neg ha, if_neg ha, List.length_modifyHead, ih, Nat.add_zero]

theorem splitOn_injective {field field' : List α} (h : field.splitOn sep = field'.splitOn sep) :
    field = field' := by
  have hfield : [sep].intercalate (field.splitOn sep) = field := List.intercalate_splitOn sep
  rw [← hfield, h, List.intercalate_splitOn]

theorem splitOn_joined {fields : List (List α)} (h : fields ≠ []) :
    (joined sep fields).splitOn sep = pieces sep fields := by
  induction fields with
  | nil => exact absurd rfl h
  | cons field rest ih =>
    cases rest with
    | nil =>
      show ([sep].intercalate [field]).splitOn sep = _
      rw [List.intercalate_singleton, pieces, List.flatMap_singleton]
    | cons next rest =>
      have ih := ih (List.cons_ne_nil next rest)
      show ([sep].intercalate (field :: next :: rest)).splitOn sep = _
      rw [List.intercalate_cons_cons, List.append_assoc, List.singleton_append,
        List.splitOn_append_cons_self, pieces, List.flatMap_cons]
      exact congrArg _ ih

theorem joined_eq_iff_pieces {fields fields' : List (List α)} (h : fields ≠ [])
    (h' : fields' ≠ []) :
    joined sep fields = joined sep fields' ↔ pieces sep fields = pieces sep fields' := by
  rw [← splitOn_joined sep h, ← splitOn_joined sep h']
  exact ⟨congrArg _, splitOn_injective sep⟩

/-- Cut at the same places, the pieces give the fields back. -/
theorem eq_of_pieces {fields fields' : List (List α)}
    (hpieces : pieces sep fields = pieces sep fields')
    (hcount : fields.map (·.count sep) = fields'.map (·.count sep)) : fields = fields' := by
  induction fields generalizing fields' with
  | nil => exact (List.map_eq_nil_iff.mp hcount.symm).symm
  | cons field rest ih =>
    cases fields' with
    | nil => cases hcount
    | cons field' rest' =>
      obtain ⟨hfield, hrest⟩ := List.cons.inj hcount
      have hlength : (field.splitOn sep).length = (field'.splitOn sep).length := by
        rw [length_splitOn, length_splitOn]
        exact congrArg (· + 1) hfield
      obtain ⟨hhead, htail⟩ := List.append_inj hpieces hlength
      rw [splitOn_injective sep hhead, ih htail hrest]

theorem joined_eq_iff {fields fields' : List (List α)} (h : fields ≠ []) (h' : fields' ≠ []) :
    joined sep fields = joined sep fields' ↔
      fields = fields' ∨ CutElsewhere sep fields fields' := by
  rw [joined_eq_iff_pieces sep h h']
  constructor
  · intro hpieces
    by_cases hcount : fields.map (·.count sep) = fields'.map (·.count sep)
    · exact .inl (eq_of_pieces sep hpieces hcount)
    · exact .inr ⟨hpieces, hcount⟩
  · rintro (rfl | ⟨hpieces, -⟩)
    · rfl
    · exact hpieces

end TradingPlatform.Lib.Delimited
