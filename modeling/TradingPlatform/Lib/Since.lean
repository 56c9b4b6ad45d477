import Mathlib.Data.List.Basic

/-! # Since

`Since P Q` holds of a history when `P` happened and `Q` has not happened since. Whether
`P` or `Q` happens at an event may depend on what came before it. This is what a latch
shows that `P` sets and `Q` clears. -/

namespace TradingPlatform.Lib

variable {ε : Type*} {P Q : List ε → ε → Prop} {es : List ε} {e : ε}

/-- `P` at some event, and `Q` at none after it. -/
def Since (P Q : List ε → ε → Prop) (es : List ε) : Prop :=
  ∃ before e after, es = before ++ e :: after ∧ P before e ∧
    ∀ mid e' rest, after = mid ++ e' :: rest → ¬ Q (before ++ e :: mid) e'

theorem not_since_nil : ¬ Since P Q ([] : List ε) := by
  rintro ⟨before, e, after, hsplit, -⟩
  simp at hsplit

/-- What one more event does to the latch. -/
theorem since_concat : Since P Q (es ++ [e]) ↔ P es e ∨ (Since P Q es ∧ ¬ Q es e) := by
  constructor
  · rintro ⟨before, f, after, hsplit, hset, hclear⟩
    rcases List.eq_nil_or_concat' after with rfl | ⟨after', g, rfl⟩
    · obtain ⟨rfl, rfl⟩ := List.append_singleton_inj.mp hsplit
      exact .inl hset
    · have hsplit' : es ++ [e] = (before ++ f :: after') ++ [g] := by simp [hsplit]
      obtain ⟨rfl, rfl⟩ := List.append_singleton_inj.mp hsplit'
      refine .inr ⟨⟨before, f, after', rfl, hset, fun mid e' rest hmid => ?_⟩, ?_⟩
      · exact hclear mid e' (rest ++ [e]) (by simp [hmid])
      · exact hclear after' e [] rfl
  · rintro (hset | ⟨⟨before, f, after, rfl, hset, hclear⟩, hnot⟩)
    · exact ⟨es, e, [], rfl, hset, fun mid e' rest hmid => by simp at hmid⟩
    · refine ⟨before, f, after ++ [e], by simp, hset, fun mid e' rest hmid => ?_⟩
      rcases List.eq_nil_or_concat' rest with rfl | ⟨rest', g, rfl⟩
      · obtain ⟨rfl, rfl⟩ := List.append_singleton_inj.mp hmid
        exact hnot
      · have hmid' : after ++ [e] = (mid ++ e' :: rest') ++ [g] := by simp [hmid]
        obtain ⟨hafter, -⟩ := List.append_singleton_inj.mp hmid'
        exact hclear mid e' rest' hafter

/-- The event that the latch, as it is now, was first set by. -/
def Began (P Q : List ε → ε → Prop) (es before : List ε) (e : ε) : Prop :=
  ¬ Since P Q before ∧ P before e ∧ ∃ after, es = before ++ e :: after ∧
    ∀ mid e' rest, after = mid ++ e' :: rest → ¬ Q (before ++ e :: mid) e'

theorem not_began_nil {before : List ε} : ¬ Began P Q [] before e := by
  rintro ⟨-, -, after, hsplit, -⟩
  simp at hsplit

theorem Began.since {before : List ε} (h : Began P Q es before e) : Since P Q es := by
  obtain ⟨-, hset, after, hsplit, hclear⟩ := h
  exact ⟨before, e, after, hsplit, hset, hclear⟩

/-- One more event sets the latch, or leaves it as it was set. -/
theorem began_concat {before : List ε} {f : ε} : Began P Q (es ++ [f]) before e ↔
    (before = es ∧ e = f ∧ P es f ∧ ¬ Since P Q es) ∨ (Began P Q es before e ∧ ¬ Q es f) := by
  constructor
  · rintro ⟨hnot, hset, after, hsplit, hclear⟩
    rcases List.eq_nil_or_concat' after with rfl | ⟨after', g, rfl⟩
    · obtain ⟨rfl, rfl⟩ := List.append_singleton_inj.mp hsplit
      exact .inl ⟨rfl, rfl, hset, hnot⟩
    · have hsplit' : es ++ [f] = (before ++ e :: after') ++ [g] := by simp [hsplit]
      obtain ⟨rfl, rfl⟩ := List.append_singleton_inj.mp hsplit'
      refine .inr ⟨⟨hnot, hset, after', rfl, fun mid e' rest hmid => ?_⟩, ?_⟩
      · exact hclear mid e' (rest ++ [f]) (by simp [hmid])
      · exact hclear after' f [] rfl
  · rintro (⟨rfl, rfl, hset, hnot⟩ | ⟨⟨hnot, hset, after, rfl, hclear⟩, hlast⟩)
    · exact ⟨hnot, hset, [], rfl, fun mid e' rest hmid => by simp at hmid⟩
    · refine ⟨hnot, hset, after ++ [f], by simp, fun mid e' rest hmid => ?_⟩
      rcases List.eq_nil_or_concat' rest with rfl | ⟨rest', g, rfl⟩
      · obtain ⟨rfl, rfl⟩ := List.append_singleton_inj.mp hmid
        exact hlast
      · have hmid' : after ++ [f] = (mid ++ e' :: rest') ++ [g] := by simp [hmid]
        obtain ⟨hafter, -⟩ := List.append_singleton_inj.mp hmid'
        exact hclear mid e' rest' hafter

end TradingPlatform.Lib
