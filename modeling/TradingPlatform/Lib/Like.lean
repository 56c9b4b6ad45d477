import Mathlib.Data.List.Infix
import Mathlib.Data.List.TakeWhile

/-! # The LIKE operator of SQLite

A percent sign stands for any text, an underscore for any character, and every
other character for itself, an ASCII letter for its other case as well. Pattern
and text end at their first NUL. `like` decides the relation `Resembles`. -/

namespace TradingPlatform.Lib

/-- A pattern and a text without NUL. -/
def likeChars : List Char → List Char → Bool
  | [], text => text.isEmpty
  | c :: pattern, text =>
    if c = '%' then text.tails.any (likeChars pattern)
    else
      match text with
      | [] => false
      | d :: text => (c = '_' || c.toLower = d.toLower) && likeChars pattern text

/-- What a reader of zero-terminated text sees. -/
def untilNul (text : List Char) : List Char := text.takeWhile (· ≠ '\x00')

def like (pattern text : List Char) : Bool := likeChars (untilNul pattern) (untilNul text)

/-- The pattern stands for the text. -/
inductive Resembles : List Char → List Char → Prop
  | nil : Resembles [] []
  | percent (skipped : List Char) {pattern text : List Char} :
      Resembles pattern text → Resembles ('%' :: pattern) (skipped ++ text)
  | underscore (d : Char) {pattern text : List Char} :
      Resembles pattern text → Resembles ('_' :: pattern) (d :: text)
  | letter {c d : Char} {pattern text : List Char} :
      c.toLower = d.toLower → Resembles pattern text → Resembles (c :: pattern) (d :: text)

theorem resembles_of_likeChars (pattern text : List Char) (h : likeChars pattern text = true) :
    Resembles pattern text := by
  induction pattern generalizing text with
  | nil =>
    obtain rfl := List.isEmpty_iff.mp h
    exact .nil
  | cons c pattern ih =>
    unfold likeChars at h
    split at h
    next hc =>
      obtain ⟨rest, hrest, hmatch⟩ := List.any_eq_true.mp h
      obtain ⟨skipped, rfl⟩ := (List.mem_tails _ _).mp hrest
      rw [hc]
      exact .percent skipped (ih rest hmatch)
    next =>
      cases text with
      | nil => cases h
      | cons d text =>
        obtain ⟨hcd, hmatch⟩ := Bool.and_eq_true_iff.mp h
        rcases Bool.or_eq_true_iff.mp hcd with hunderscore | hletter
        · rw [of_decide_eq_true hunderscore]
          exact .underscore d (ih text hmatch)
        · exact .letter (of_decide_eq_true hletter) (ih text hmatch)

theorem likeChars_of_resembles {pattern text : List Char} (h : Resembles pattern text) :
    likeChars pattern text = true := by
  induction h with
  | nil => rfl
  | percent skipped hmatch ih =>
    unfold likeChars
    rw [if_pos rfl]
    exact List.any_eq_true.mpr ⟨_, (List.mem_tails _ _).mpr (List.suffix_append _ _), ih⟩
  | underscore d hmatch ih =>
    unfold likeChars
    rw [if_neg (by decide)]
    simpa using ih
  | @letter c d pattern text hletter hmatch ih =>
    unfold likeChars
    split
    next =>
      refine List.any_eq_true.mpr ⟨text, (List.mem_tails _ _).mpr (List.suffix_cons d text), ih⟩
    next => simp [hletter, ih]

theorem like_iff {pattern text : List Char} :
    like pattern text = true ↔ Resembles (untilNul pattern) (untilNul text) :=
  ⟨resembles_of_likeChars _ _, likeChars_of_resembles⟩

namespace Resembles

theorem refl (text : List Char) : Resembles text text := by
  induction text with
  | nil => exact .nil
  | cons c text ih => exact .letter rfl ih

theorem append {p q t u : List Char} (hp : Resembles p t) (hq : Resembles q u) :
    Resembles (p ++ q) (t ++ u) := by
  induction hp with
  | nil => exact hq
  | percent skipped _ ih =>
    rw [List.append_assoc]
    exact .percent skipped ih
  | underscore d _ ih => exact .underscore d ih
  | letter hletter _ ih => exact .letter hletter ih

/-- A closing percent sign leaves the rest of the text open. -/
theorem append_percent_iff {pattern text : List Char} :
    Resembles (pattern ++ ['%']) text ↔ ∃ start, start <+: text ∧ Resembles pattern start := by
  constructor
  · intro h
    generalize hopen : pattern ++ ['%'] = opened at h
    induction h generalizing pattern with
    | nil => exact absurd hopen (by simp)
    | @percent skipped rest text hmatch ih =>
      cases pattern with
      | nil => exact ⟨[], List.nil_prefix, .nil⟩
      | cons c pattern =>
        obtain ⟨rfl, rfl⟩ := List.cons.inj hopen
        obtain ⟨start, hstart, hpattern⟩ := ih rfl
        refine ⟨skipped ++ start, ?_, .percent skipped hpattern⟩
        exact (List.prefix_append_right_inj skipped).mpr hstart
    | @underscore d rest text hmatch ih =>
      cases pattern with
      | nil => cases hopen
      | cons c pattern =>
        obtain ⟨rfl, rfl⟩ := List.cons.inj hopen
        obtain ⟨start, hstart, hpattern⟩ := ih rfl
        exact ⟨d :: start, List.cons_prefix_cons.mpr ⟨rfl, hstart⟩, .underscore d hpattern⟩
    | @letter c d rest text hletter hmatch ih =>
      cases pattern with
      | nil => exact ⟨[], List.nil_prefix, .nil⟩
      | cons c pattern =>
        obtain ⟨rfl, rfl⟩ := List.cons.inj hopen
        obtain ⟨start, hstart, hpattern⟩ := ih rfl
        exact ⟨d :: start, List.cons_prefix_cons.mpr ⟨rfl, hstart⟩, .letter hletter hpattern⟩
  · rintro ⟨start, ⟨rest, rfl⟩, hpattern⟩
    refine hpattern.append ?_
    rw [← List.append_nil rest]
    exact .percent rest .nil

end Resembles

/-! ## Characters that stand for themselves only -/

/-- No wildcard, no ASCII letter and no NUL. -/
def PlainChar (c : Char) : Prop := c ≠ '%' ∧ c ≠ '_' ∧ c ≠ '\x00' ∧ c.isAlpha = false

instance : DecidablePred PlainChar := fun _ => inferInstanceAs (Decidable (_ ∧ _))

theorem toNat_toLower (c : Char) : c.toLower.toNat =
    if 65 ≤ c.toNat ∧ c.toNat ≤ 90 then c.toNat + 32 else c.toNat := by
  unfold Char.toLower
  have hle : ∀ n m : UInt32, n ≤ m ↔ n.toNat ≤ m.toNat := fun n m => UInt32.le_iff_toNat_le
  split
  next h =>
    have hupper : 65 ≤ c.toNat ∧ c.toNat ≤ 90 := by simpa [hle] using h
    rw [if_pos hupper]
    show (c.val + 32).toNat = c.val.toNat + 32
    have : c.val.toNat = c.toNat := rfl
    rw [UInt32.toNat_add]
    simp only [UInt32.reduceToNat, Nat.reducePow]
    omega
  next h =>
    have hupper : ¬ (65 ≤ c.toNat ∧ c.toNat ≤ 90) := by simpa [hle] using h
    rw [if_neg hupper]
theorem isAlpha_iff_toNat (c : Char) : c.isAlpha = true ↔
    65 ≤ c.toNat ∧ c.toNat ≤ 90 ∨ 97 ≤ c.toNat ∧ c.toNat ≤ 122 := by
  have halpha : c.isAlpha = (c.isUpper || c.isLower) := rfl
  have hupper : c.isUpper = true ↔ 65 ≤ c.toNat ∧ c.toNat ≤ 90 := decide_eq_true_iff
  have hlower : c.isLower = true ↔ 97 ≤ c.toNat ∧ c.toNat ≤ 122 :=
    Bool.and_eq_true_iff.trans (and_congr decide_eq_true_iff decide_eq_true_iff)
  rw [halpha, Bool.or_eq_true, hupper, hlower]

theorem eq_of_toLower {c d : Char} (hc : c.isAlpha = false) (h : c.toLower = d.toLower) :
    d = c := by
  have hc := mt (isAlpha_iff_toNat c).mpr (by simp [hc])
  have h := congrArg Char.toNat h
  rw [toNat_toLower, toNat_toLower] at h
  refine Char.toNat_inj.mp ?_
  split at h <;> split at h <;> omega

/-- A letter has another case. -/
theorem exists_other_case {c : Char} (hc : c.isAlpha = true) :
    ∃ d, d ≠ c ∧ d ≠ '\x00' ∧ c.toLower = d.toLower := by
  obtain ⟨m, hlow, hhigh, hne, hfold⟩ : ∃ m, 65 ≤ m ∧ m ≤ 122 ∧ m ≠ c.toNat ∧
      (if 65 ≤ c.toNat ∧ c.toNat ≤ 90 then c.toNat + 32 else c.toNat) =
        if 65 ≤ m ∧ m ≤ 90 then m + 32 else m := by
    rcases (isAlpha_iff_toNat c).mp hc with hupper | hlower
    · exact ⟨c.toNat + 32, by omega, by omega, by omega, by split <;> split <;> omega⟩
    · exact ⟨c.toNat - 32, by omega, by omega, by omega, by split <;> split <;> omega⟩
  have hascii : ∀ m < 123, (Char.ofNat m).toNat = m := by decide
  have hd := hascii m (by omega)
  refine ⟨Char.ofNat m, fun h => hne ?_, fun h => ?_, Char.toNat_inj.mp ?_⟩
  · rw [← hd, h]
  · rw [h] at hd
    exact absurd hlow (by rw [← hd]; decide)
  · rw [toNat_toLower, toNat_toLower, hd, hfold]

namespace Resembles

theorem eq_of_plain {pattern text : List Char} (h : Resembles pattern text)
    (hplain : ∀ c ∈ pattern, PlainChar c) : text = pattern := by
  induction h with
  | nil => rfl
  | percent skipped _ _ => exact absurd rfl (hplain _ List.mem_cons_self).1
  | underscore d _ _ => exact absurd rfl (hplain _ List.mem_cons_self).2.1
  | letter hletter _ ih =>
    obtain ⟨-, -, -, hcase⟩ := hplain _ List.mem_cons_self
    rw [eq_of_toLower hcase hletter, ih fun c hc => hplain c (List.mem_cons_of_mem _ hc)]

/-- Any other character stands for one that it is not. -/
theorem exists_other {c : Char} (hplain : ¬ PlainChar c) (hnul : c ≠ '\x00') :
    ∃ d, d ≠ c ∧ d ≠ '\x00' ∧ Resembles [c] [d] := by
  by_cases hpercent : c = '%'
  · subst hpercent
    exact ⟨'_', by decide, by decide, .percent ['_'] .nil⟩
  by_cases hunderscore : c = '_'
  · subst hunderscore
    exact ⟨'%', by decide, by decide, .underscore '%' .nil⟩
  have halpha : c.isAlpha = true := by
    by_contra halpha
    exact hplain ⟨hpercent, hunderscore, hnul, Bool.eq_false_iff.mpr halpha⟩
  obtain ⟨d, hd, hnul, hcase⟩ := exists_other_case halpha
  exact ⟨d, hd, hnul, .letter hcase .nil⟩

end Resembles

/-! ## Text up to a NUL -/

theorem untilNul_start (text : List Char) : untilNul text <+: text := List.takeWhile_prefix _

theorem nul_notMem_untilNul (text : List Char) : '\x00' ∉ untilNul text := by
  intro h
  have hne := List.mem_takeWhile_imp h
  simp at hne

theorem untilNul_append_of_notMem {text : List Char} (h : '\x00' ∉ text) (rest : List Char) :
    untilNul (text ++ rest) = text ++ untilNul rest :=
  List.takeWhile_append_of_pos fun _ hc => decide_eq_true fun hnul => h (hnul ▸ hc)

theorem untilNul_eq_self {text : List Char} (h : '\x00' ∉ text) : untilNul text = text :=
  List.takeWhile_eq_self_iff.mpr fun _ hc => decide_eq_true fun hnul => h (hnul ▸ hc)

theorem untilNul_append_of_mem {text : List Char} (h : '\x00' ∈ text) (rest : List Char) :
    untilNul (text ++ rest) = untilNul text := by
  obtain ⟨start, after, rfl, hstart⟩ := List.eq_append_cons_of_mem h
  rw [List.append_assoc, untilNul_append_of_notMem hstart, untilNul_append_of_notMem hstart]
  rfl

end TradingPlatform.Lib
