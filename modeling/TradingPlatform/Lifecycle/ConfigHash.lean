import TradingPlatform.Lib.Binary64
import TradingPlatform.Lib.JsonText
import TradingPlatform.Lifecycle.HashChain

/-! # The canonical config hash

A configuration is normalized, written as JSON with sorted keys, and hashed. A
float is normalized to the double nearest to its twelve digits; an integer is
written as it is. -/

namespace TradingPlatform.Lifecycle.ConfigHash

open TradingPlatform.Lib

inductive Number
  | int (n : ℤ)
  | float (x : Binary64)

inductive SeqKind
  | list
  | tuple
  deriving DecidableEq

/-- A value of a configuration. -/
inductive Value
  | null
  | bool (b : Bool)
  | num (x : Number)
  | str (s : String)
  | seq (kind : SeqKind) (items : List Value)
  | dict (fields : List (String × Value))

/-- No dictionary has a key twice. -/
inductive KeysDistinct : Value → Prop
  | null : KeysDistinct .null
  | bool (b : Bool) : KeysDistinct (.bool b)
  | num (x : Number) : KeysDistinct (.num x)
  | str (s : String) : KeysDistinct (.str s)
  | seq {kind : SeqKind} {items : List Value} (h : ∀ v ∈ items, KeysDistinct v) :
    KeysDistinct (.seq kind items)
  | dict {fields : List (String × Value)} (hkeys : (fields.map Prod.fst).Nodup)
    (h : ∀ kv ∈ fields, KeysDistinct kv.2) : KeysDistinct (.dict fields)

/-- A configuration is a dictionary. -/
structure Config where
  fields : List (String × Value)
  distinct : KeysDistinct (.dict fields)

def Config.value (c : Config) : Value := .dict c.fields

/-! ## The hash -/

/-- `float(f"{value:.12g}")`, where a zero has no sign. -/
def normalizeFloat (x : Binary64) : Binary64 :=
  let norm := Binary64.ofNumeral (x.format 12)
  if norm.isZero then .zero else norm

def normalizeNumber : Number → Doc String Binary64
  | .int n => .int n
  | .float x => .float (normalizeFloat x)

mutual
/-- `_normalize`; the keys are sorted once the values are normalized. -/
def normalize : Value → Doc String Binary64
  | .null => .null
  | .bool b => .bool b
  | .num x => normalizeNumber x
  | .str s => .str s
  | .seq _ items => .arr (normalizeItems items)
  | .dict fields => .obj (StableSort.sortBy Prod.fst (normalizeFields fields))

def normalizeItems : List Value → List (Doc String Binary64)
  | [] => []
  | v :: rest => normalize v :: normalizeItems rest

def normalizeFields : List (String × Value) → List (String × Doc String Binary64)
  | [] => []
  | (k, v) :: rest => (k, normalize v) :: normalizeFields rest
end

def keyLe (s t : String) : Bool := decide (s ≤ t)

/-- `json.dumps(_normalize(config), sort_keys=True, separators=(",", ":"))`. -/
def canonicalConfigJson (c : Config) : List (Token Binary64) :=
  Doc.tokens id ((normalize c.value).canon keyLe id)

section Hash
variable {Digest : Type} (sha256 : List (Token Binary64) → Digest)

def canonicalConfigHash (c : Config) : Digest := sha256 (canonicalConfigJson c)

end Hash

/-! ## Configurations that are the same -/

/-- The value of a number at twelve significant digits. -/
def reading : Number → Numeral
  | .int n => .decimal (Rounding.significant 12 n)
  | .float x =>
    match x.format 12 with
    | .minusZero => .decimal 0
    | text => text

/-- The two values are the same but for the order of keys and the kind of a sequence,
with their numbers related. -/
inductive Same (R : Number → Number → Prop) : Value → Value → Prop
  | null : Same R .null .null
  | bool (b : Bool) : Same R (.bool b) (.bool b)
  | num {x y : Number} (h : R x y) : Same R (.num x) (.num y)
  | str (s : String) : Same R (.str s) (.str s)
  | seq {kind kind' : SeqKind} {xs ys : List Value} (hlen : xs.length = ys.length)
    (h : ∀ p ∈ xs.zip ys, Same R p.1 p.2) : Same R (.seq kind xs) (.seq kind' ys)
  | dict {fs gs : List (String × Value)} (hkeys : (fs.map Prod.fst).Perm (gs.map Prod.fst))
    (h : ∀ k v w, (k, v) ∈ fs → (k, w) ∈ gs → Same R v w) : Same R (.dict fs) (.dict gs)

/-- Two numbers at one place of two values are related. -/
inductive Somewhere (Q : Number → Number → Prop) : Value → Value → Prop
  | num {x y : Number} (h : Q x y) : Somewhere Q (.num x) (.num y)
  | seq {kind kind' : SeqKind} {xs ys : List Value} {p : Value × Value} (hp : p ∈ xs.zip ys)
    (h : Somewhere Q p.1 p.2) : Somewhere Q (.seq kind xs) (.seq kind' ys)
  | dict {fs gs : List (String × Value)} {k : String} {v w : Value} (hv : (k, v) ∈ fs)
    (hw : (k, w) ∈ gs) (h : Somewhere Q v w) : Somewhere Q (.dict fs) (.dict gs)

def SameReading (x y : Number) : Prop := reading x = reading y

/-- The two numbers are written alike. -/
def SameText (x y : Number) : Prop := normalizeNumber x = normalizeNumber y

/-- Equal up to the order of keys, the kind of a sequence, and the numbers at twelve
significant digits. -/
def Equivalent (c d : Config) : Prop := Same SameReading c.value d.value

/-- An integer beside a float, or beside another integer. -/
def Crossed : Number → Number → Prop
  | .int m, .int n => m ≠ n
  | .float _, .float _ => False
  | _, _ => True

/-- Two floats with different decimals of twelve digits, nearest to one double. -/
def Merged : Number → Number → Prop
  | .float x, .float y =>
    ∃ a b, x.toRat? = some a ∧ y.toRat? = some b ∧
      Rounding.significant 12 a ≠ Rounding.significant 12 b ∧
      Binary64.nearestValue (Rounding.significant 12 a) =
        Binary64.nearestValue (Rounding.significant 12 b)
  | _, _ => False

/-- Two floats of one reading, or merged, or one integer twice. -/
def Alike (x y : Number) : Prop := (SameReading x y ∧ ¬ Crossed x y) ∨ Merged x y

/-! ## Places -/

section Places
variable {R S Q : Number → Number → Prop} {v w : Value}

theorem Value.induct {P : Value → Prop} (null : P .null) (bool : ∀ b, P (.bool b))
    (num : ∀ x, P (.num x)) (str : ∀ s, P (.str s))
    (seq : ∀ kind items, (∀ v ∈ items, P v) → P (.seq kind items))
    (dict : ∀ fields, (∀ kv ∈ fields, P kv.2) → P (.dict fields)) (v : Value) : P v := by
  refine @Value.rec P (fun items => ∀ v ∈ items, P v) (fun fields => ∀ kv ∈ fields, P kv.2)
    (fun kv => P kv.2) null bool num str seq dict ?_ ?_ ?_ ?_ ?_ v
  · exact nofun
  · exact fun v rest hv hrest => List.forall_mem_cons.mpr ⟨hv, hrest⟩
  · exact nofun
  · exact fun kv rest hkv hrest => List.forall_mem_cons.mpr ⟨hkv, hrest⟩
  · exact fun _ _ hv => hv

theorem KeysDistinct.items {kind : SeqKind} {items : List Value}
    (h : KeysDistinct (.seq kind items)) : ∀ v ∈ items, KeysDistinct v := by
  cases h with
  | seq h => exact h

theorem KeysDistinct.fields {fields : List (String × Value)} (h : KeysDistinct (.dict fields)) :
    (fields.map Prod.fst).Nodup ∧ ∀ kv ∈ fields, KeysDistinct kv.2 := by
  cases h with
  | dict hkeys h => exact ⟨hkeys, h⟩

/-- A place where the numbers are not related rules sameness out. -/
theorem Somewhere.not_same (h : Somewhere Q v w) (hQ : ∀ x y, Q x y → ¬ S x y) :
    ¬ Same S v w := by
  induction h with
  | num h =>
    rintro ⟨⟩
    rename_i hS
    exact hQ _ _ h hS
  | seq hp h ih =>
    rintro ⟨⟩
    rename_i hlen hS
    exact ih (hS _ hp)
  | dict hv hw h ih =>
    rintro ⟨⟩
    rename_i hkeys hS
    exact ih (hS _ _ _ hv hw)

theorem Somewhere.mono (h : Somewhere Q v w) (hQ : ∀ x y, Q x y → R x y) : Somewhere R v w := by
  induction h with
  | num h => exact .num (hQ _ _ h)
  | seq hp _ ih => exact .seq hp ih
  | dict hv hw _ ih => exact .dict hv hw ih

/-- Values that are the same one way are the same another way, or differ at a place. -/
theorem Same.same_or_somewhere (h : Same R v w) :
    Same S v w ∨ Somewhere (fun x y => R x y ∧ ¬ S x y) v w := by
  by_contra hno
  obtain ⟨hsame, hsomewhere⟩ := not_or.mp hno
  refine hsame ?_
  clear hno hsame
  induction h with
  | null => exact .null
  | bool b => exact .bool b
  | num h =>
    refine .num ?_
    by_contra hS
    exact hsomewhere (.num ⟨h, hS⟩)
  | str s => exact .str s
  | seq hlen h ih => exact .seq hlen fun p hp => ih p hp fun hs => hsomewhere (.seq hp hs)
  | dict hkeys h ih =>
    exact .dict hkeys fun k v w hv hw => ih k v w hv hw fun hs => hsomewhere (.dict hv hw hs)

end Places

/-! ## The canonical text -/

section Text

theorem normalizeItems_eq (items : List Value) : normalizeItems items = items.map normalize := by
  induction items with
  | nil => rfl
  | cons v rest ih => rw [normalizeItems, ih, List.map_cons]

theorem normalizeFields_eq (fields : List (String × Value)) :
    normalizeFields fields = fields.map fun kv => (kv.1, normalize kv.2) := by
  induction fields with
  | nil => rfl
  | cons kv rest ih =>
    obtain ⟨k, v⟩ := kv
    rw [normalizeFields, ih, List.map_cons]

theorem keys_normalizeFields (fields : List (String × Value)) :
    (normalizeFields fields).map Prod.fst = fields.map Prod.fst := by
  rw [normalizeFields_eq, List.map_map]
  rfl

theorem mem_normalizeFields {fields : List (String × Value)} {k : String}
    {d : Doc String Binary64} :
    (k, d) ∈ normalizeFields fields ↔ ∃ v, (k, v) ∈ fields ∧ normalize v = d := by
  rw [normalizeFields_eq, List.mem_map]
  constructor
  · rintro ⟨⟨k', v⟩, hmem, heq⟩
    obtain ⟨rfl, rfl⟩ := Prod.mk.inj heq
    exact ⟨v, hmem, rfl⟩
  · rintro ⟨v, hmem, rfl⟩
    exact ⟨(k, v), hmem, rfl⟩

/-- Sorting the keys of what is normalized changes nothing. -/
theorem canon_normalize (v : Value) : (normalize v).canon keyLe id = normalize v := by
  induction v using Value.induct with
  | null | bool | str => rfl
  | num x => cases x <;> rfl
  | seq kind items ih =>
    rw [normalize, Doc.canon, Doc.canonItems_eq, normalizeItems_eq, List.map_map]
    exact congrArg Doc.arr (List.map_congr_left ih)
  | dict fields ih =>
    have hvalues : ∀ kd ∈ StableSort.sortBy Prod.fst (normalizeFields fields),
        (id kd.1, kd.2.canon keyLe id) = kd := by
      rintro ⟨k, d⟩ hkd
      obtain ⟨v, hmem, rfl⟩ := mem_normalizeFields.mp ((StableSort.sortBy_perm _).mem_iff.mp hkd)
      exact Prod.ext rfl (ih (k, v) hmem)
    have hsorted : Doc.sortFields keyLe (StableSort.sortBy Prod.fst (normalizeFields fields)) =
        StableSort.sortBy Prod.fst (normalizeFields fields) := by
      have hkey : ∀ xs : List (String × Doc String Binary64),
          Doc.sortFields keyLe (xs.map fun kd => (id kd.1, kd.2)) =
            (StableSort.sortBy Prod.fst xs).map fun kd => (id kd.1, kd.2) :=
        Doc.sortFields_key fun _ _ => rfl
      simpa [StableSort.sortBy_of_sorted (StableSort.sortBy_sorted _)] using
        hkey (StableSort.sortBy Prod.fst (normalizeFields fields))
    rw [normalize, Doc.canon_obj, hsorted, List.map_congr_left hvalues, List.map_id']

/-- One canonical text is one normalized configuration. -/
theorem canonicalConfigJson_eq_iff (c d : Config) :
    canonicalConfigJson c = canonicalConfigJson d ↔ normalize c.value = normalize d.value := by
  unfold canonicalConfigJson
  rw [canon_normalize, canon_normalize]
  exact ⟨Doc.tokens_injective, congrArg _⟩

/-- Two dictionaries are normalized to one exactly when they have the same keys, and what
is under a key is normalized to one. -/
theorem perm_normalizeFields_iff {fs gs : List (String × Value)}
    (hf : (fs.map Prod.fst).Nodup) (hg : (gs.map Prod.fst).Nodup) :
    (normalizeFields fs).Perm (normalizeFields gs) ↔
      (fs.map Prod.fst).Perm (gs.map Prod.fst) ∧
        ∀ k v w, (k, v) ∈ fs → (k, w) ∈ gs → normalize v = normalize w := by
  constructor
  · intro hperm
    refine ⟨?_, fun k v w hv hw => ?_⟩
    · rw [← keys_normalizeFields fs, ← keys_normalizeFields gs]
      exact hperm.map _
    · have hmem := hperm.mem_iff.mp (mem_normalizeFields.mpr ⟨v, hv, rfl⟩)
      obtain ⟨w', hw', heq⟩ := mem_normalizeFields.mp hmem
      have hsame : (k, w') = (k, w) := List.inj_on_of_nodup_map hg hw' hw rfl
      rw [← heq, (Prod.mk.inj hsame).2]
  · rintro ⟨hkeys, hvalues⟩
    have hnodup : ∀ {fields : List (String × Value)}, (fields.map Prod.fst).Nodup →
        (normalizeFields fields).Nodup := by
      intro fields h
      rw [← keys_normalizeFields] at h
      exact h.of_map
    refine (List.perm_ext_iff_of_nodup (hnodup hf) (hnodup hg)).mpr ?_
    rintro ⟨k, d⟩
    rw [mem_normalizeFields, mem_normalizeFields]
    constructor
    · rintro ⟨v, hv, rfl⟩
      obtain ⟨⟨k', w⟩, hw, rfl⟩ :=
        List.mem_map.mp (hkeys.mem_iff.mp (List.mem_map_of_mem hv))
      exact ⟨w, hw, (hvalues k' v w hv hw).symm⟩
    · rintro ⟨w, hw, rfl⟩
      obtain ⟨⟨k', v⟩, hv, rfl⟩ :=
        List.mem_map.mp (hkeys.mem_iff.mpr (List.mem_map_of_mem hw))
      exact ⟨v, hv, hvalues k' v w hv hw⟩

theorem map_normalize_eq_iff (xs ys : List Value) :
    xs.map normalize = ys.map normalize ↔
      xs.length = ys.length ∧ ∀ p ∈ xs.zip ys, normalize p.1 = normalize p.2 := by
  induction xs generalizing ys with
  | nil => cases ys <;> simp
  | cons v xs ih =>
    cases ys with
    | nil => simp
    | cons w ys =>
      rw [List.map_cons, List.map_cons, List.cons.injEq, ih, List.length_cons, List.length_cons,
        Nat.add_right_cancel_iff, List.zip_cons_cons, List.forall_mem_cons]
      exact and_left_comm

theorem normalize_seq_eq_iff {kind kind' : SeqKind} (xs ys : List Value) :
    normalize (.seq kind xs) = normalize (.seq kind' ys) ↔
      xs.length = ys.length ∧ ∀ p ∈ xs.zip ys, normalize p.1 = normalize p.2 := by
  rw [normalize, normalize, Doc.arr.injEq, normalizeItems_eq, normalizeItems_eq,
    map_normalize_eq_iff]

theorem normalize_dict_eq_iff {fs gs : List (String × Value)} (hf : (fs.map Prod.fst).Nodup)
    (hg : (gs.map Prod.fst).Nodup) :
    normalize (.dict fs) = normalize (.dict gs) ↔
      (fs.map Prod.fst).Perm (gs.map Prod.fst) ∧
        ∀ k v w, (k, v) ∈ fs → (k, w) ∈ gs → normalize v = normalize w := by
  have hkeys : ((normalizeFields fs).map Prod.fst).Nodup := by rwa [keys_normalizeFields]
  rw [normalize, normalize, Doc.obj.injEq, StableSort.sortBy_eq_iff_perm hkeys,
    perm_normalizeFields_iff hf hg]

theorem normalize_eq_of_same {v w : Value} (h : Same SameText v w) (hv : KeysDistinct v)
    (hw : KeysDistinct w) : normalize v = normalize w := by
  induction h with
  | null | bool | str => rfl
  | num h => exact h
  | seq hlen h ih =>
    refine (normalize_seq_eq_iff _ _).mpr ⟨hlen, fun p hp => ?_⟩
    obtain ⟨hleft, hright⟩ := List.of_mem_zip hp
    exact ih p hp (hv.items _ hleft) (hw.items _ hright)
  | dict hkeys h ih =>
    obtain ⟨hf, hfs⟩ := hv.fields
    obtain ⟨hg, hgs⟩ := hw.fields
    refine (normalize_dict_eq_iff hf hg).mpr ⟨hkeys, fun k v w hkv hkw => ?_⟩
    exact ih k v w hkv hkw (hfs _ hkv) (hgs _ hkw)

theorem same_of_normalize_eq {v w : Value} (h : normalize v = normalize w) (hv : KeysDistinct v)
    (hw : KeysDistinct w) : Same SameText v w := by
  induction v using Value.induct generalizing w with
  | null =>
    cases w with
    | null => exact .null
    | num x => cases x <;> cases h
    | _ => cases h
  | bool b =>
    cases w with
    | bool c =>
      obtain rfl : b = c := by simpa [normalize] using h
      exact .bool b
    | num x => cases x <;> cases h
    | _ => cases h
  | num x =>
    cases w with
    | num y => exact .num h
    | _ => cases x <;> cases h
  | str t =>
    cases w with
    | str u =>
      obtain rfl : t = u := by simpa [normalize] using h
      exact .str t
    | num x => cases x <;> cases h
    | _ => cases h
  | seq kind xs ih =>
    cases w with
    | seq kind' ys =>
      obtain ⟨hlen, hvalues⟩ := (normalize_seq_eq_iff xs ys).mp h
      refine .seq hlen fun p hp => ?_
      obtain ⟨hleft, hright⟩ := List.of_mem_zip hp
      exact ih _ hleft (hvalues p hp) (hv.items _ hleft) (hw.items _ hright)
    | num x => cases x <;> cases h
    | _ => cases h
  | dict fs ih =>
    cases w with
    | dict gs =>
      obtain ⟨hf, hfs⟩ := hv.fields
      obtain ⟨hg, hgs⟩ := hw.fields
      obtain ⟨hkeys, hvalues⟩ := (normalize_dict_eq_iff hf hg).mp h
      refine .dict hkeys fun k v w hkv hkw => ?_
      exact ih _ hkv (hvalues k v w hkv hkw) (hfs _ hkv) (hgs _ hkw)
    | num x => cases x <;> cases h
    | _ => cases h

variable {Digest : Type} {sha256 : List (Token Binary64) → Digest}

/-- Two configurations have one hash exactly when they are the same but for the order of
keys and the kind of sequences, with their numbers written alike. -/
theorem canonicalConfigHash_eq_iff (hsha : Function.Injective sha256) (c d : Config) :
    canonicalConfigHash sha256 c = canonicalConfigHash sha256 d ↔
      Same SameText c.value d.value := by
  unfold canonicalConfigHash
  rw [hsha.eq_iff, canonicalConfigJson_eq_iff]
  exact ⟨fun h => same_of_normalize_eq h c.distinct d.distinct,
    fun h => normalize_eq_of_same h c.distinct d.distinct⟩

end Text

/-! ## Numbers -/

section Numbers

theorem normalizeFloat_nan : normalizeFloat .nan = .nan := rfl

theorem normalizeFloat_inf (negative : Bool) :
    normalizeFloat (.inf negative) = .inf negative := rfl

/-- The normal form of a finite double is the nearest value of its twelve digits. -/
theorem normalizeFloat_finite (x : ℚ) (h : Binary64.Representable x) :
    ∃ h', normalizeFloat (.finite x h) =
      .finite (Binary64.nearestValue (Rounding.significant 12 x)) h' := by
  have hlt := Binary64.abs_nearestValue_twelve_lt h
  refine ⟨Binary64.representable_nearestValue hlt, ?_⟩
  simp only [normalizeFloat, Binary64.format, Binary64.ofNumeral, Binary64.nearest, dif_pos hlt]
  split
  · rename_i hnegative
    simp only [hnegative.1]
    rfl
  · by_cases hzero : Binary64.nearestValue (Rounding.significant 12 x) = 0
    · simp only [hzero]
      rfl
    · simp [Binary64.isZero, hzero]

/-- A negative zero is normalized as zero is. -/
theorem normalizeFloat_negZero : normalizeFloat .negZero = normalizeFloat .zero := by
  obtain ⟨h', hnormal⟩ := normalizeFloat_finite 0 Binary64.representable_zero
  rw [Binary64.zero, hnormal]
  simp only [Rounding.significant_zero, Binary64.nearestValue_zero]
  rfl

theorem reading_negZero : reading (.float .negZero) = reading (.float .zero) := by
  simp only [reading, Binary64.zero, Binary64.format, Rounding.significant_zero]

/-- A float is not a number, an infinity, or has a value, which decides both its reading
and its normal form. -/
theorem float_cases (x : Binary64) :
    x = .nan ∨ (∃ negative, x = .inf negative) ∨
      ∃ a h, x.toRat? = some a ∧ reading (.float x) = .decimal (Rounding.significant 12 a) ∧
        normalizeFloat x = .finite (Binary64.nearestValue (Rounding.significant 12 a)) h := by
  cases x with
  | nan => exact Or.inl rfl
  | inf negative => exact Or.inr (Or.inl ⟨negative, rfl⟩)
  | negZero =>
    obtain ⟨h, hnormal⟩ := normalizeFloat_finite 0 Binary64.representable_zero
    exact Or.inr (Or.inr ⟨0, h, rfl, reading_negZero, normalizeFloat_negZero.trans hnormal⟩)
  | finite a ha =>
    obtain ⟨h, hnormal⟩ := normalizeFloat_finite a ha
    exact Or.inr (Or.inr ⟨a, h, rfl, rfl, hnormal⟩)

/-- The reading of a float decides its normal form. -/
theorem normalizeFloat_eq_of_reading {x y : Binary64}
    (h : reading (.float x) = reading (.float y)) : normalizeFloat x = normalizeFloat y := by
  have hdecides : ∀ x : Binary64, normalizeFloat x =
      if (Binary64.ofNumeral (reading (.float x))).isZero then .zero
      else Binary64.ofNumeral (reading (.float x)) := by
    intro x
    cases x with
    | nan | inf | finite => rfl
    | negZero =>
      rw [normalizeFloat_negZero, reading_negZero]
      rfl
  rw [hdecides x, hdecides y, h]

theorem float_of_toRat? {x : Binary64} {a : ℚ} (h : x.toRat? = some a) :
    reading (.float x) = .decimal (Rounding.significant 12 a) ∧
      ∃ h', normalizeFloat x = .finite (Binary64.nearestValue (Rounding.significant 12 a)) h' := by
  rcases float_cases x with rfl | ⟨s, rfl⟩ | ⟨b, h', hvalue, hreading, hnormal⟩
  · cases h
  · cases h
  · obtain rfl : b = a := Option.some.inj (hvalue.symm.trans h)
    exact ⟨hreading, h', hnormal⟩

/-- Floats of one normal form are of one reading, or merged. -/
theorem reading_or_merged {x y : Binary64} (h : normalizeFloat x = normalizeFloat y) :
    reading (.float x) = reading (.float y) ∨ Merged (.float x) (.float y) := by
  rcases float_cases x with rfl | ⟨s, rfl⟩ | ⟨a, ha, hvalue, hreading, hnormal⟩
  · rcases float_cases y with rfl | ⟨t, rfl⟩ | ⟨b, hb, -, -, hnormal'⟩
    · exact Or.inl rfl
    · rw [normalizeFloat_nan, normalizeFloat_inf] at h
      cases h
    · rw [normalizeFloat_nan, hnormal'] at h
      cases h
  · rcases float_cases y with rfl | ⟨t, rfl⟩ | ⟨b, hb, -, -, hnormal'⟩
    · rw [normalizeFloat_nan, normalizeFloat_inf] at h
      cases h
    · rw [normalizeFloat_inf, normalizeFloat_inf] at h
      exact Or.inl (congrArg (reading ∘ Number.float) h)
    · rw [normalizeFloat_inf, hnormal'] at h
      cases h
  · rcases float_cases y with rfl | ⟨t, rfl⟩ | ⟨b, hb, hvalue', hreading', hnormal'⟩
    · rw [normalizeFloat_nan, hnormal] at h
      cases h
    · rw [normalizeFloat_inf, hnormal] at h
      cases h
    · rw [hnormal, hnormal', Binary64.finite.injEq] at h
      by_cases hdigits : Rounding.significant 12 a = Rounding.significant 12 b
      · exact Or.inl (by rw [hreading, hreading', hdigits])
      · exact Or.inr ⟨a, b, hvalue, hvalue', hdigits, h⟩

theorem Merged.spec {x y : Number} (h : Merged x y) : SameText x y ∧ ¬ SameReading x y := by
  cases x with
  | int m => cases y <;> cases h
  | float x =>
    cases y with
    | int n => cases h
    | float y =>
      obtain ⟨a, b, ha, hb, hdigits, hnearest⟩ := h
      obtain ⟨hreading, h', hnormal⟩ := float_of_toRat? ha
      obtain ⟨hreading', h'', hnormal'⟩ := float_of_toRat? hb
      constructor
      · refine congrArg Doc.float ?_
        rw [hnormal, hnormal', Binary64.finite.injEq, hnearest]
      · intro hsame
        rw [SameReading, hreading, hreading', Numeral.decimal.injEq] at hsame
        exact hdigits hsame

theorem Crossed.not_sameText {x y : Number} (h : Crossed x y) : ¬ SameText x y := by
  intro heq
  cases x with
  | int m =>
    cases y with
    | int n => exact h (Doc.int.inj heq)
    | float y => cases heq
  | float x =>
    cases y with
    | int n => cases heq
    | float y => exact h

theorem crossed_of_sameReading {x y : Number} (h : SameReading x y) (hne : ¬ SameText x y) :
    Crossed x y := by
  cases x with
  | int m =>
    cases y with
    | int n => exact fun hmn => hne (hmn ▸ rfl)
    | float y => exact trivial
  | float x =>
    cases y with
    | int n => exact trivial
    | float y => exact hne (congrArg Doc.float (normalizeFloat_eq_of_reading h))

theorem merged_of_sameText {x y : Number} (h : SameText x y) (hne : ¬ SameReading x y) :
    Merged x y := by
  cases x with
  | int m =>
    cases y with
    | int n => exact hne (congrArg (reading ∘ Number.int) (Doc.int.inj h))
    | float y => cases h
  | float x =>
    cases y with
    | int n => cases h
    | float y => exact (reading_or_merged (Doc.float.inj h)).resolve_left hne

/-- Numbers are written alike exactly when they are alike. -/
theorem sameText_iff (x y : Number) : SameText x y ↔ Alike x y := by
  constructor
  · intro h
    by_cases hreading : SameReading x y
    · exact Or.inl ⟨hreading, fun hcrossed => hcrossed.not_sameText h⟩
    · exact Or.inr (merged_of_sameText h hreading)
  · rintro (⟨hreading, hcrossed⟩ | hmerged)
    · by_contra hne
      exact hcrossed (crossed_of_sameReading hreading hne)
    · exact hmerged.spec.1

/-- Only floats below twice the smallest normal double are merged. -/
theorem Merged.tiny {x y : Binary64} (h : Merged (.float x) (.float y)) :
    ∃ a b, x.toRat? = some a ∧ y.toRat? = some b ∧
      |a| < 2 ^ (-1021 : ℤ) ∧ |b| < 2 ^ (-1021 : ℤ) := by
  obtain ⟨a, b, ha, hb, hdigits, hnearest⟩ := h
  exact ⟨a, b, ha, hb, Binary64.small_of_nearestValue_eq hdigits hnearest⟩

end Numbers

/-- Two configurations have one hash exactly when they are the same with their numbers
alike. -/
theorem canonicalConfigHash_eq_iff_alike {Digest : Type}
    {sha256 : List (Token Binary64) → Digest} (hsha : Function.Injective sha256) (c d : Config) :
    canonicalConfigHash sha256 c = canonicalConfigHash sha256 d ↔ Same Alike c.value d.value := by
  have halike : SameText = Alike := funext fun x => funext fun y => propext (sameText_iff x y)
  rw [canonicalConfigHash_eq_iff hsha, halike]

/-- A running configuration passes the check against a pinned one exactly then. -/
theorem assertRunningHash_result_iff {sha256 : List (Token Binary64) → String}
    (hsha : Function.Injective sha256) (running pinned : Config) (legId phase : String) :
    (assertRunningHash (canonicalConfigHash sha256) running (canonicalConfigHash sha256 pinned)
      legId phase).result = true ↔ Same Alike running.value pinned.value := by
  rw [← canonicalConfigHash_eq_iff_alike hsha]
  unfold assertRunningHash
  dsimp only
  split
  · rename_i heq
    exact iff_of_true rfl heq
  · rename_i hne
    exact iff_of_false Bool.false_ne_true hne

/-- The hash identifies two configurations unless they are equivalent with an integer beside
a float or beside another integer, or alike with two floats merged. -/
theorem canonicalConfigHash_identifies_iff {Digest : Type}
    {sha256 : List (Token Binary64) → Digest} (hsha : Function.Injective sha256) (c d : Config) :
    (canonicalConfigHash sha256 c = canonicalConfigHash sha256 d ↔ Equivalent c d) ↔
      ¬ (Equivalent c d ∧ Somewhere Crossed c.value d.value) ∧
        ¬ (Same Alike c.value d.value ∧ Somewhere Merged c.value d.value) := by
  rw [canonicalConfigHash_eq_iff_alike hsha]
  constructor
  · intro h
    refine ⟨fun ⟨hequiv, hcrossed⟩ => ?_, fun ⟨halike, hmerged⟩ => ?_⟩
    · have hno : ∀ x y, Crossed x y → ¬ Alike x y := fun x y hxy =>
        mt (sameText_iff x y).mpr hxy.not_sameText
      exact hcrossed.not_same hno (h.mpr hequiv)
    · exact hmerged.not_same (fun _ _ hxy => hxy.spec.2) (h.mp halike)
  · rintro ⟨hcrossed, hmerged⟩
    constructor
    · intro halike
      refine halike.same_or_somewhere.resolve_right fun hs => hmerged ⟨halike, ?_⟩
      exact hs.mono fun x y hxy => merged_of_sameText ((sameText_iff x y).mpr hxy.1) hxy.2
    · intro hequiv
      refine hequiv.same_or_somewhere.resolve_right fun hs => hcrossed ⟨hequiv, ?_⟩
      exact hs.mono fun x y hxy =>
        crossed_of_sameReading hxy.1 fun htext => hxy.2 ((sameText_iff x y).mp htext)

def half : Binary64 := .dyadic 1 (-1) (by decide) (by decide)

def two : Binary64 := .dyadic 1 1 (by decide) (by decide)

/-- Two thresholds. -/
def thresholds : Config where
  fields := [("entry_z", .num (.float half)), ("max_positions", .num (.int 2))]
  distinct := .dict (by decide) (by simp [KeysDistinct.num])

def reordered : Config where
  fields := [("max_positions", .num (.int 2)), ("entry_z", .num (.float half))]
  distinct := .dict (by decide) (by simp [KeysDistinct.num])

/-- The second threshold as a float. -/
def floated : Config where
  fields := [("entry_z", .num (.float half)), ("max_positions", .num (.float two))]
  distinct := .dict (by decide) (by simp [KeysDistinct.num])

/-- The order of the keys is not hashed. -/
theorem identifies_reordered :
    canonicalConfigHash id thresholds = canonicalConfigHash id reordered ↔
      Equivalent thresholds reordered := by
  have hplaces : ∀ Q : Number → Number → Prop, Somewhere Q thresholds.value reordered.value →
      Q (.float half) (.float half) ∨ Q (.int 2) (.int 2) := by
    intro Q h
    cases h with
    | dict hv hw h =>
      simp only [thresholds, reordered, List.mem_cons, List.not_mem_nil, or_false,
        Prod.mk.injEq] at hv hw
      rcases hv with ⟨rfl, rfl⟩ | ⟨rfl, rfl⟩ <;> rcases hw with ⟨heq, rfl⟩ | ⟨heq, rfl⟩
      · exact absurd heq (by decide)
      · cases h with
        | num h => exact Or.inl h
      · cases h with
        | num h => exact Or.inr h
      · exact absurd heq (by decide)
  refine (canonicalConfigHash_identifies_iff Function.injective_id thresholds reordered).mpr ?_
  refine ⟨fun h => ?_, fun h => ?_⟩
  · rcases hplaces _ h.2 with hhalf | htwo
    · exact hhalf
    · exact htwo rfl
  · rcases hplaces _ h.2 with hhalf | htwo
    · exact hhalf.spec.2 rfl
    · exact htwo

/-- 2 and 2.0 are one number and two hashes. -/
theorem not_identifies_floated :
    ¬ (canonicalConfigHash id thresholds = canonicalConfigHash id floated ↔
      Equivalent thresholds floated) := by
  intro h
  have htwo : SameReading (.int 2) (.float two) := by
    simp [SameReading, reading, two, Binary64.dyadic, Binary64.format]
  have hequiv : Equivalent thresholds floated := by
    refine .dict (List.Perm.refl _) fun k v w hv hw => ?_
    simp only [thresholds, floated, List.mem_cons, List.not_mem_nil, or_false,
      Prod.mk.injEq] at hv hw
    rcases hv with ⟨rfl, rfl⟩ | ⟨rfl, rfl⟩ <;> rcases hw with ⟨heq, rfl⟩ | ⟨heq, rfl⟩
    · exact .num rfl
    · exact absurd heq (by decide)
    · exact absurd heq (by decide)
    · exact .num htwo
  have htext : Same SameText thresholds.value floated.value :=
    (canonicalConfigHash_eq_iff Function.injective_id _ _).mp (h.mpr hequiv)
  cases htext with
  | dict _ hvalues =>
    have hsame := hvalues "max_positions" (.num (.int 2)) (.num (.float two))
      (by simp [thresholds]) (by simp [floated])
    cases hsame with
    | num hsame => cases hsame

/-- Two floats next to each other, far below the normal range: 9.99999999998e-313 and
1e-312 are written, and read back as one. -/
theorem merged_subnormals :
    Merged (.float (.dyadic 202402253307 (-1074) (by decide) (by decide)))
      (.float (.dyadic 202402253308 (-1074) (by decide) (by decide))) :=
  ⟨_, _, rfl, rfl, by decide +kernel, by decide +kernel⟩

end TradingPlatform.Lifecycle.ConfigHash
