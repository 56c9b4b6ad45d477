import TradingPlatform.Lib.Dict
import TradingPlatform.Lib.StableSort
import Mathlib.Data.String.Basic

/-! # JSON documents and their text

The text is a row of tokens; a string or a number is one token, which Python
reads back as the value it was written for. Written keys are texts, so that what
is read back has text keys, and of keys with one text the last value. Sorting the
keys before they are written and after they are read is the same only where both
orders agree. -/

namespace TradingPlatform.Lib

/-- A document with keys `κ` and floats `φ`. -/
inductive Doc (κ φ : Type)
  | null
  | bool (b : Bool)
  | int (n : ℤ)
  | float (x : φ)
  | str (s : String)
  | arr (items : List (Doc κ φ))
  | obj (fields : List (κ × Doc κ φ))

inductive Token (φ : Type)
  | lbrace
  | rbrace
  | lbracket
  | rbracket
  | colon
  | comma
  | null
  | bool (b : Bool)
  | int (n : ℤ)
  | float (x : φ)
  | str (s : String)
  deriving DecidableEq

namespace Doc

variable {κ φ : Type}

theorem induct {P : Doc κ φ → Prop} (null : P .null) (bool : ∀ b, P (.bool b))
    (int : ∀ n, P (.int n)) (float : ∀ x, P (.float x)) (str : ∀ s, P (.str s))
    (arr : ∀ items, (∀ d ∈ items, P d) → P (.arr items))
    (obj : ∀ fields, (∀ kd ∈ fields, P kd.2) → P (.obj fields)) (d : Doc κ φ) : P d := by
  refine @Doc.rec κ φ P (fun items => ∀ d ∈ items, P d) (fun fields => ∀ kd ∈ fields, P kd.2)
    (fun kd => P kd.2) null bool int float str arr obj ?_ ?_ ?_ ?_ ?_ d
  · exact nofun
  · exact fun d rest hd hrest => List.forall_mem_cons.mpr ⟨hd, hrest⟩
  · exact nofun
  · exact fun kd rest hd hrest => List.forall_mem_cons.mpr ⟨hd, hrest⟩
  · exact fun _ _ hd => hd

section Write
variable (text : κ → String)

mutual
/-- `json.dumps(d, separators=(",", ":"))`. -/
def tokens : Doc κ φ → List (Token φ)
  | .null => [.null]
  | .bool b => [.bool b]
  | .int n => [.int n]
  | .float x => [.float x]
  | .str s => [.str s]
  | .arr items => .lbracket :: itemTokens items
  | .obj fields => .lbrace :: fieldTokens fields

/-- The items of an array and the bracket that closes it. -/
def itemTokens : List (Doc κ φ) → List (Token φ)
  | [] => [.rbracket]
  | d :: rest => tokens d ++ moreItemTokens rest

def moreItemTokens : List (Doc κ φ) → List (Token φ)
  | [] => [.rbracket]
  | d :: rest => .comma :: (tokens d ++ moreItemTokens rest)

def fieldTokens : List (κ × Doc κ φ) → List (Token φ)
  | [] => [.rbrace]
  | (k, d) :: rest => .str (text k) :: .colon :: (tokens d ++ moreFieldTokens rest)

def moreFieldTokens : List (κ × Doc κ φ) → List (Token φ)
  | [] => [.rbrace]
  | (k, d) :: rest => .comma :: .str (text k) :: .colon :: (tokens d ++ moreFieldTokens rest)
end

end Write

/-! ## Reading -/

section Read
variable {κ' : Type} (key : String → κ')
  (hook : List (String × Doc κ' φ) → List (String × Doc κ' φ))

mutual
/-- The value that the tokens start with, and the tokens after it; `key` is what a text
is as a key, and `hook` builds an object from its fields. -/
def parseValue : ℕ → List (Token φ) → Option (Doc κ' φ × List (Token φ))
  | _ + 1, .null :: ts => some (.null, ts)
  | _ + 1, .bool b :: ts => some (.bool b, ts)
  | _ + 1, .int m :: ts => some (.int m, ts)
  | _ + 1, .float x :: ts => some (.float x, ts)
  | _ + 1, .str s :: ts => some (.str s, ts)
  | n + 1, .lbracket :: ts => (parseItems n ts).map fun p => (.arr p.1, p.2)
  | n + 1, .lbrace :: ts =>
    (parseFields n ts).map fun p => (.obj ((hook p.1).map fun kd => (key kd.1, kd.2)), p.2)
  | _, _ => none

def parseItems : ℕ → List (Token φ) → Option (List (Doc κ' φ) × List (Token φ))
  | _ + 1, .rbracket :: ts => some ([], ts)
  | n + 1, ts =>
    (parseValue n ts).bind fun p =>
      (parseMoreItems n p.2).map fun q => (p.1 :: q.1, q.2)
  | 0, _ => none

def parseMoreItems : ℕ → List (Token φ) → Option (List (Doc κ' φ) × List (Token φ))
  | _ + 1, .rbracket :: ts => some ([], ts)
  | n + 1, .comma :: ts =>
    (parseValue n ts).bind fun p =>
      (parseMoreItems n p.2).map fun q => (p.1 :: q.1, q.2)
  | _, _ => none

def parseFields : ℕ → List (Token φ) → Option (List (String × Doc κ' φ) × List (Token φ))
  | _ + 1, .rbrace :: ts => some ([], ts)
  | n + 1, .str s :: .colon :: ts =>
    (parseValue n ts).bind fun p =>
      (parseMoreFields n p.2).map fun q => ((s, p.1) :: q.1, q.2)
  | _, _ => none

def parseMoreFields : ℕ → List (Token φ) →
    Option (List (String × Doc κ' φ) × List (Token φ))
  | _ + 1, .rbrace :: ts => some ([], ts)
  | n + 1, .comma :: .str s :: .colon :: ts =>
    (parseValue n ts).bind fun p =>
      (parseMoreFields n p.2).map fun q => ((s, p.1) :: q.1, q.2)
  | _, _ => none
end

/-- Nothing may follow the value. -/
def loadsWith (ts : List (Token φ)) : Option (Doc κ' φ) :=
  (parseValue key hook ts.length ts).bind fun p => if p.2 = [] then some p.1 else none

variable (text : κ → String)

mutual
/-- What the text of the document is read back as. -/
def read : Doc κ φ → Doc κ' φ
  | .null => .null
  | .bool b => .bool b
  | .int n => .int n
  | .float x => .float x
  | .str s => .str s
  | .arr items => .arr (readItems items)
  | .obj fields => .obj ((hook (readFields fields)).map fun kd => (key kd.1, kd.2))

def readItems : List (Doc κ φ) → List (Doc κ' φ)
  | [] => []
  | d :: rest => read d :: readItems rest

def readFields : List (κ × Doc κ φ) → List (String × Doc κ' φ)
  | [] => []
  | (k, d) :: rest => (text k, read d) :: readFields rest
end

theorem readItems_eq (items : List (Doc κ φ)) :
    readItems key hook text items = items.map (read key hook text) := by
  induction items with
  | nil => rfl
  | cons d rest ih => rw [readItems, ih, List.map_cons]

theorem readFields_eq (fields : List (κ × Doc κ φ)) :
    readFields key hook text fields =
      fields.map fun kd => (text kd.1, read key hook text kd.2) := by
  induction fields with
  | nil => rfl
  | cons kd rest ih =>
    obtain ⟨k, d⟩ := kd
    rw [readFields, ih, List.map_cons]

/-- The text of the document, before anything, is read back as the document. -/
def Reads (d : Doc κ φ) : Prop :=
  ∀ n rest, (tokens text d).length ≤ n →
    parseValue key hook n (tokens text d ++ rest) = some (read key hook text d, rest)

theorem length_tokens_pos (d : Doc κ φ) : 0 < (tokens text d).length := by
  cases d <;> exact Nat.succ_pos _

theorem length_moreItemTokens_pos (items : List (Doc κ φ)) :
    0 < (moreItemTokens text items).length := by
  cases items <;> exact Nat.succ_pos _

variable {key hook text}

theorem head?_tokens (d : Doc κ φ) (rest : List (Token φ)) :
    (tokens text d ++ rest).head? ≠ some .rbracket := by
  cases d <;> exact nofun

/-- A row that does not close the array starts with an item. -/
theorem parseItems_of_head {n : ℕ} {ts : List (Token φ)} (h : ts.head? ≠ some .rbracket) :
    parseItems key hook (n + 1) ts =
      (parseValue key hook n ts).bind fun p =>
        (parseMoreItems key hook n p.2).map fun q => (p.1 :: q.1, q.2) := by
  cases ts with
  | nil => rfl
  | cons t ts => cases t <;> first | rfl | exact absurd rfl h

theorem parseMoreItems_tokens {items : List (Doc κ φ)} (h : ∀ d ∈ items, Reads key hook text d)
    (n : ℕ) (rest : List (Token φ)) (hn : (moreItemTokens text items).length ≤ n) :
    parseMoreItems key hook n (moreItemTokens text items ++ rest) =
      some (readItems key hook text items, rest) := by
  induction items generalizing n with
  | nil =>
    cases n with
    | zero => cases hn
    | succ n => rfl
  | cons d items ih =>
    rw [moreItemTokens, List.length_cons, List.length_append] at hn
    cases n with
    | zero => cases hn
    | succ n =>
      have hd := h d List.mem_cons_self n (moreItemTokens text items ++ rest) (by omega)
      have hitems := ih (fun d hd => h d (List.mem_cons_of_mem _ hd)) n
        (by have := length_tokens_pos text d; omega)
      rw [moreItemTokens, List.cons_append, List.append_assoc, parseMoreItems, hd,
        Option.bind_some, hitems]
      rfl

theorem parseItems_tokens {items : List (Doc κ φ)} (h : ∀ d ∈ items, Reads key hook text d)
    (n : ℕ) (rest : List (Token φ)) (hn : (itemTokens text items).length ≤ n) :
    parseItems key hook n (itemTokens text items ++ rest) =
      some (readItems key hook text items, rest) := by
  cases items with
  | nil =>
    cases n with
    | zero => cases hn
    | succ n => rfl
  | cons d items =>
    rw [itemTokens, List.length_append] at hn
    have hdlen := length_tokens_pos text d
    have hmore := length_moreItemTokens_pos text items
    obtain ⟨n, rfl⟩ : ∃ m, n = m + 1 := ⟨n - 1, by omega⟩
    have hd := h d List.mem_cons_self n (moreItemTokens text items ++ rest) (by omega)
    have hitems := parseMoreItems_tokens (fun d hd => h d (List.mem_cons_of_mem _ hd)) n rest
      (by omega)
    rw [itemTokens, List.append_assoc, parseItems_of_head (head?_tokens d _), hd,
      Option.bind_some, hitems]
    rfl

theorem parseMoreFields_tokens {fields : List (κ × Doc κ φ)}
    (h : ∀ kd ∈ fields, Reads key hook text kd.2) (n : ℕ) (rest : List (Token φ))
    (hn : (moreFieldTokens text fields).length ≤ n) :
    parseMoreFields key hook n (moreFieldTokens text fields ++ rest) =
      some (readFields key hook text fields, rest) := by
  induction fields generalizing n with
  | nil =>
    cases n with
    | zero => cases hn
    | succ n => rfl
  | cons kd fields ih =>
    obtain ⟨k, d⟩ := kd
    simp only [moreFieldTokens, List.length_cons, List.length_append] at hn
    obtain ⟨n, rfl⟩ : ∃ m, n = m + 1 := ⟨n - 1, by omega⟩
    have hread : Reads key hook text d := h (k, d) List.mem_cons_self
    have hd := hread n (moreFieldTokens text fields ++ rest) (by omega)
    have hfields := ih (fun kd hkd => h kd (List.mem_cons_of_mem _ hkd)) n (by omega)
    simp only [moreFieldTokens, List.cons_append, List.append_assoc, parseMoreFields]
    rw [hd, Option.bind_some, hfields]
    rfl

theorem parseFields_tokens {fields : List (κ × Doc κ φ)}
    (h : ∀ kd ∈ fields, Reads key hook text kd.2) (n : ℕ) (rest : List (Token φ))
    (hn : (fieldTokens text fields).length ≤ n) :
    parseFields key hook n (fieldTokens text fields ++ rest) =
      some (readFields key hook text fields, rest) := by
  cases fields with
  | nil =>
    cases n with
    | zero => cases hn
    | succ n => rfl
  | cons kd fields =>
    obtain ⟨k, d⟩ := kd
    simp only [fieldTokens, List.length_cons, List.length_append] at hn
    obtain ⟨n, rfl⟩ : ∃ m, n = m + 1 := ⟨n - 1, by omega⟩
    have hread : Reads key hook text d := h (k, d) List.mem_cons_self
    have hd := hread n (moreFieldTokens text fields ++ rest) (by omega)
    have hfields := parseMoreFields_tokens (fun kd hkd => h kd (List.mem_cons_of_mem _ hkd)) n
      rest (by omega)
    simp only [fieldTokens, List.cons_append, List.append_assoc, parseFields]
    rw [hd, Option.bind_some, hfields]
    rfl

theorem parseValue_tokens (d : Doc κ φ) : Reads key hook text d := by
  have hleaf : ∀ {d : Doc κ φ} {t : Token φ}, tokens text d = [t] →
      (∀ n rest, parseValue key hook (n + 1) (t :: rest) = some (read key hook text d, rest)) →
      Reads key hook text d := by
    intro d t hd hparse n rest hn
    rw [hd] at hn ⊢
    obtain ⟨n, rfl⟩ : ∃ m, n = m + 1 := ⟨n - 1, by simp at hn; omega⟩
    exact hparse n rest
  induction d using Doc.induct with
  | null => exact hleaf rfl fun _ _ => rfl
  | bool b => exact hleaf rfl fun _ _ => rfl
  | int m => exact hleaf rfl fun _ _ => rfl
  | float x => exact hleaf rfl fun _ _ => rfl
  | str s => exact hleaf rfl fun _ _ => rfl
  | arr items ih =>
    intro n rest hn
    rw [tokens, List.length_cons] at hn
    obtain ⟨n, rfl⟩ : ∃ m, n = m + 1 := ⟨n - 1, by omega⟩
    rw [tokens, List.cons_append, parseValue, parseItems_tokens ih n rest (by omega)]
    rfl
  | obj fields ih =>
    intro n rest hn
    rw [tokens, List.length_cons] at hn
    obtain ⟨n, rfl⟩ : ∃ m, n = m + 1 := ⟨n - 1, by omega⟩
    rw [tokens, List.cons_append, parseValue, parseFields_tokens ih n rest (by omega)]
    rfl

/-- **What was written is read back**: with its keys as texts, each object as the hook
builds it. -/
theorem loadsWith_tokens (d : Doc κ φ) :
    loadsWith key hook (tokens text d) = some (read key hook text d) := by
  have hread : Reads key hook text d := parseValue_tokens d
  have h := hread (tokens text d).length [] le_rfl
  rw [List.append_nil] at h
  rw [loadsWith, h]
  rfl

end Read

/-- `json.loads`, the keys being texts. -/
theorem read_id (d : Doc String φ) : read id id id d = d := by
  induction d using Doc.induct with
  | null | bool | int | float | str => rfl
  | arr items ih =>
    rw [read, readItems_eq, List.map_congr_left ih, List.map_id']
  | obj fields ih =>
    rw [read, readFields_eq]
    refine congrArg Doc.obj ((List.map_id _).trans ?_)
    refine (List.map_congr_left fun kd hkd => ?_).trans (List.map_id _)
    exact Prod.ext rfl (ih kd hkd)

theorem tokens_injective {c d : Doc String φ} (h : tokens id c = tokens id d) : c = d := by
  have hread := congrArg (loadsWith id id) h
  rw [loadsWith_tokens, loadsWith_tokens, read_id, read_id] at hread
  exact Option.some.inj hread

/-! ## Objects as dictionaries -/

/-- The items of the dict built from the fields: of one key the last value. -/
def dictOf {ν : Type} (fields : List (String × ν)) : List (String × ν) :=
  (Dict.tabulate Prod.fst Prod.snd fields).items

theorem nodup_dictOf {ν : Type} (fields : List (String × ν)) :
    ((dictOf fields).map Prod.fst).Nodup := (Dict.tabulate Prod.fst Prod.snd fields).nodup

theorem dictOf_eq_self {ν : Type} {fields : List (String × ν)}
    (h : (fields.map Prod.fst).Nodup) : dictOf fields = fields := by
  induction fields using List.reverseRecOn with
  | nil => rfl
  | append_singleton fields kd ih =>
    rw [List.map_append, List.map_singleton] at h
    obtain ⟨hfields, -, hdisjoint⟩ := List.nodup_append.mp h
    have hnew : kd.1 ∉ (dictOf fields).map Prod.fst := by
      rw [ih hfields]
      exact fun hmem => hdisjoint _ hmem _ List.mem_cons_self rfl
    rw [dictOf, Dict.tabulate, Dict.setAll_concat]
    exact (Dict.items_set_of_notMem _ _ hnew).trans (congrArg (· ++ [kd]) (ih hfields))

theorem mem_of_mem_dictOf {ν : Type} {fields : List (String × ν)} {kd : String × ν}
    (h : kd ∈ dictOf fields) : kd ∈ fields := by
  have hget := (Dict.get?_eq_some (d := Dict.tabulate Prod.fst Prod.snd fields)).mpr h
  obtain ⟨kd', hmem, hkey, hvalue⟩ := Dict.mem_of_tabulate _ hget
  rwa [← Prod.ext hkey hvalue]

/-! ## Sorted keys -/

section Sorted
variable (le : κ → κ → Bool) (text : κ → String)

def sortFields {ν : Type} (fields : List (κ × ν)) : List (κ × ν) :=
  fields.insertionSort fun a b => le a.1 b.1

mutual
/-- The document that `json.dumps(d, sort_keys=True)` writes. -/
def canon : Doc κ φ → Doc String φ
  | .null => .null
  | .bool b => .bool b
  | .int n => .int n
  | .float x => .float x
  | .str s => .str s
  | .arr items => .arr (canonItems items)
  | .obj fields => .obj ((sortFields le (canonFields fields)).map fun kd => (text kd.1, kd.2))

def canonItems : List (Doc κ φ) → List (Doc String φ)
  | [] => []
  | d :: rest => canon d :: canonItems rest

def canonFields : List (κ × Doc κ φ) → List (κ × Doc String φ)
  | [] => []
  | (k, d) :: rest => (k, canon d) :: canonFields rest
end

mutual
/-- The dicts of a document, at any depth. -/
def dicts : Doc κ φ → List (List (κ × Doc κ φ))
  | .null | .bool _ | .int _ | .float _ | .str _ => []
  | .arr items => dictsOfItems items
  | .obj fields => fields :: dictsOfFields fields

def dictsOfItems : List (Doc κ φ) → List (List (κ × Doc κ φ))
  | [] => []
  | d :: rest => dicts d ++ dictsOfItems rest

def dictsOfFields : List (κ × Doc κ φ) → List (List (κ × Doc κ φ))
  | [] => []
  | (_, d) :: rest => dicts d ++ dictsOfFields rest
end

/-- In every dict the sorted keys have their texts in order, none twice. -/
def Ordered (d : Doc κ φ) : Prop :=
  ∀ fields ∈ d.dicts, ((sortFields le fields).map fun kd => text kd.1).Pairwise (· < ·)

instance (d : Doc κ φ) : Decidable (d.Ordered le text) :=
  inferInstanceAs (Decidable (∀ fields ∈ d.dicts, _))

theorem canonItems_eq (items : List (Doc κ φ)) :
    canonItems le text items = items.map (canon le text) := by
  induction items with
  | nil => rfl
  | cons d rest ih => rw [canonItems, ih, List.map_cons]

theorem canonFields_eq (fields : List (κ × Doc κ φ)) :
    canonFields le text fields = fields.map fun kd => (kd.1, canon le text kd.2) := by
  induction fields with
  | nil => rfl
  | cons kd rest ih =>
    obtain ⟨k, d⟩ := kd
    rw [canonFields, ih, List.map_cons]

theorem dictsOfItems_eq (items : List (Doc κ φ)) : dictsOfItems items = items.flatMap dicts := by
  induction items with
  | nil => rfl
  | cons d rest ih => rw [dictsOfItems, ih, List.flatMap_cons]

theorem dictsOfFields_eq (fields : List (κ × Doc κ φ)) :
    dictsOfFields fields = fields.flatMap fun kd => kd.2.dicts := by
  induction fields with
  | nil => rfl
  | cons kd rest ih =>
    obtain ⟨k, d⟩ := kd
    rw [dictsOfFields, ih, List.flatMap_cons]

variable {le text}

theorem ordered_arr {items : List (Doc κ φ)} :
    Ordered le text (.arr items) ↔ ∀ d ∈ items, Ordered le text d := by
  simp only [Ordered, dicts, dictsOfItems_eq, List.mem_flatMap]
  exact ⟨fun h d hd fields hf => h fields ⟨d, hd, hf⟩, fun h fields ⟨d, hd, hf⟩ => h d hd fields hf⟩

theorem ordered_obj {fields : List (κ × Doc κ φ)} :
    Ordered le text (.obj fields) ↔
      ((sortFields le fields).map fun kd => text kd.1).Pairwise (· < ·) ∧
        ∀ kd ∈ fields, Ordered le text kd.2 := by
  simp only [Ordered, dicts, dictsOfFields_eq, List.forall_mem_cons, List.mem_flatMap]
  refine and_congr_right fun _ => ?_
  exact ⟨fun h kd hkd fs hf => h fs ⟨kd, hkd, hf⟩, fun h fs ⟨kd, hkd, hf⟩ => h kd hkd fs hf⟩

theorem mem_sortFields {ν : Type} {fields : List (κ × ν)} {kd : κ × ν} :
    kd ∈ sortFields le fields ↔ kd ∈ fields := List.mem_insertionSort _

/-- The order is the keys'. -/
theorem sortFields_map {ν ν' : Type} (fields : List (κ × ν)) (f : ν → ν') :
    sortFields le (fields.map fun kd => (kd.1, f kd.2)) =
      (sortFields le fields).map fun kd => (kd.1, f kd.2) :=
  (List.map_insertionSort (fun a b : κ × ν => le a.1 b.1) (fun a b : κ × ν' => le a.1 b.1)
    (fun kd => (kd.1, f kd.2)) fields fun _ _ _ _ => Iff.rfl).symm

theorem canon_obj (fields : List (κ × Doc κ φ)) :
    canon le text (.obj fields) =
      .obj ((sortFields le fields).map fun kd => (text kd.1, canon le text kd.2)) := by
  rw [canon, canonFields_eq, sortFields_map, List.map_map]
  rfl

/-! ## The canonical text of what is read back -/

theorem pairwise_sortBy_dictOf {ν : Type} (fields : List (String × ν)) :
    (StableSort.sortBy Prod.fst (dictOf fields)).Pairwise fun a b => a.1 < b.1 :=
  StableSort.sortBy_strict (nodup_dictOf fields)

/-- Fields whose sorted keys have their texts in order are sorted by these texts. -/
theorem sortBy_texts {ν ν' : Type} {fields : List (κ × ν)} (f : ν → ν')
    (h : ((sortFields le fields).map fun kd => text kd.1).Pairwise (· < ·)) :
    StableSort.sortBy Prod.fst (dictOf (fields.map fun kd => (text kd.1, f kd.2))) =
      (sortFields le fields).map fun kd => (text kd.1, f kd.2) := by
  have hperm : ((sortFields le fields).map fun kd => (text kd.1, f kd.2)).Perm
      (fields.map fun kd => (text kd.1, f kd.2)) := (List.perm_insertionSort _ fields).map _
  have hsorted : ((sortFields le fields).map fun kd => (text kd.1, f kd.2)).Pairwise
      fun a b => a.1 < b.1 := by
    rw [List.pairwise_map] at h ⊢
    exact h
  have hnodup : ((fields.map fun kd => (text kd.1, f kd.2)).map Prod.fst).Nodup := by
    refine (hperm.map Prod.fst).nodup_iff.mp ?_
    exact (List.pairwise_map.mpr hsorted).imp ne_of_lt
  refine List.Perm.eq_of_pairwise (fun a b _ _ hab hba => absurd hab (lt_asymm hba))
    (pairwise_sortBy_dictOf _) hsorted ?_
  rw [dictOf_eq_self hnodup]
  exact (StableSort.sortBy_perm _).trans hperm.symm

variable {key : String → κ}

/-- Text keys sort as the texts. -/
theorem sortFields_key {ν : Type} (hle : ∀ s t, le (key s) (key t) = decide (s ≤ t))
    (fields : List (String × ν)) :
    sortFields le (fields.map fun kd => (key kd.1, kd.2)) =
      (StableSort.sortBy Prod.fst fields).map fun kd => (key kd.1, kd.2) := by
  refine (List.map_insertionSort (fun a b : String × ν => a.1 ≤ b.1)
    (fun a b : κ × ν => le a.1 b.1) (fun kd => (key kd.1, kd.2)) fields ?_).symm
  intro a _ b _
  rw [hle, decide_eq_true_iff]

/-- Text keys, none twice, are in order once sorted. -/
theorem pairwise_sortFields_key {ν : Type} (htext : ∀ s, text (key s) = s)
    (hle : ∀ s t, le (key s) (key t) = decide (s ≤ t)) {fields : List (String × ν)}
    (h : (fields.map Prod.fst).Nodup) :
    ((sortFields le (fields.map fun kd => (key kd.1, kd.2))).map fun kd => text kd.1).Pairwise
      (· < ·) := by
  rw [sortFields_key hle, List.map_map, List.pairwise_map, ← dictOf_eq_self h]
  refine (pairwise_sortBy_dictOf fields).imp fun {a b} hab => ?_
  show text (key a.1) < text (key b.1)
  rwa [htext, htext]

/-- Every key of what is read back is a text. -/
theorem key_of_read (d : Doc κ φ) :
    ∀ fields ∈ (read key dictOf text d).dicts, ∀ kd ∈ fields, ∃ s, kd.1 = key s := by
  induction d using Doc.induct with
  | null | bool | int | float | str => exact nofun
  | arr items ih =>
    rw [read, dicts, dictsOfItems_eq, readItems_eq]
    intro fields hfields
    obtain ⟨_, hmem, hfields⟩ := List.mem_flatMap.mp hfields
    obtain ⟨d, hd, rfl⟩ := List.mem_map.mp hmem
    exact ih d hd fields hfields
  | obj fields ih =>
    rw [read, dicts, dictsOfFields_eq, readFields_eq, List.forall_mem_cons]
    constructor
    · intro kd hkd
      obtain ⟨kd', -, rfl⟩ := List.mem_map.mp hkd
      exact ⟨kd'.1, rfl⟩
    · intro inner hinner
      obtain ⟨_, hmem, hinner⟩ := List.mem_flatMap.mp hinner
      obtain ⟨kd', hkd', rfl⟩ := List.mem_map.mp hmem
      obtain ⟨kd, hkd, rfl⟩ := List.mem_map.mp (mem_of_mem_dictOf hkd')
      exact ih kd hkd inner hinner

theorem canon_obj_read (htext : ∀ s, text (key s) = s)
    (hle : ∀ s t, le (key s) (key t) = decide (s ≤ t)) (fields : List (κ × Doc κ φ)) :
    canon le text (read key dictOf text (.obj fields)) =
      .obj ((StableSort.sortBy Prod.fst
        (dictOf (fields.map fun kd => (text kd.1, read key dictOf text kd.2)))).map
          fun kd => (kd.1, canon le text kd.2)) := by
  rw [read, canon_obj, readFields_eq, sortFields_key hle, List.map_map]
  refine congrArg Doc.obj (List.map_congr_left fun kd _ => ?_)
  exact Prod.ext (htext kd.1) rfl

/-- **The canonical text survives the round trip** exactly when in every dict the sorted
keys have their texts in order. -/
theorem canon_read_iff (htext : ∀ s, text (key s) = s)
    (hle : ∀ s t, le (key s) (key t) = decide (s ≤ t)) (d : Doc κ φ) :
    canon le text (read key dictOf text d) = canon le text d ↔ Ordered le text d := by
  induction d using Doc.induct with
  | null | bool | int | float | str => exact iff_of_true rfl nofun
  | arr items ih =>
    rw [ordered_arr, read, canon, canon, canonItems_eq, canonItems_eq, readItems_eq, List.map_map,
      Doc.arr.injEq, List.map_inj_left]
    exact forall₂_congr fun d hd => ih d hd
  | obj fields ih =>
    rw [ordered_obj, canon_obj_read htext hle, canon_obj, Doc.obj.injEq]
    constructor
    · intro h
      have htexts : ((sortFields le fields).map fun kd => text kd.1).Pairwise (· < ·) := by
        have hfst := congrArg (List.map Prod.fst) h
        rw [List.map_map, List.map_map] at hfst
        refine Eq.subst (motive := List.Pairwise (· < ·)) hfst ?_
        exact List.pairwise_map.mpr (pairwise_sortBy_dictOf _)
      refine ⟨htexts, fun kd hkd => (ih kd hkd).mp ?_⟩
      rw [sortBy_texts _ htexts, List.map_map, List.map_inj_left] at h
      exact congrArg Prod.snd (h kd (mem_sortFields.mpr hkd))
    · rintro ⟨htexts, hvalues⟩
      rw [sortBy_texts _ htexts, List.map_map, List.map_inj_left]
      intro kd hkd
      have hkd := mem_sortFields.mp hkd
      exact Prod.ext rfl ((ih kd hkd).mpr (hvalues kd hkd))

end Sorted

end Doc

end TradingPlatform.Lib
