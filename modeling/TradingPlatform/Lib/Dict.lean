import Mathlib.Algebra.BigOperators.Ring.List
import Mathlib.Algebra.Order.BigOperators.Group.List
import Mathlib.Data.List.Induction
import Mathlib.Data.List.Nodup

/-! # Insertion-ordered dictionaries

An association list with distinct keys. Assigning to a key that is present
keeps its place; a new key goes last. A lookup after each operation is one
equation, and so is a total over the items. -/

namespace TradingPlatform.Lib

structure Dict (κ ν : Type*) where
  items : List (κ × ν)
  nodup : (items.map Prod.fst).Nodup
  deriving DecidableEq

namespace Dict

variable {κ ν : Type*}

def empty : Dict κ ν := ⟨[], List.nodup_nil⟩

variable [DecidableEq κ] (d : Dict κ ν)

def get? (k : κ) : Option ν := d.items.lookup k

/-- `d[k] = v` on the items. -/
def setItems (k : κ) (v : ν) : List (κ × ν) → List (κ × ν)
  | [] => [(k, v)]
  | (k', v') :: rest => if k' = k then (k, v) :: rest else (k', v') :: setItems k v rest

theorem mem_keys_setItems {k a : κ} {v : ν} {items : List (κ × ν)} :
    a ∈ (setItems k v items).map Prod.fst ↔ a = k ∨ a ∈ items.map Prod.fst := by
  induction items with
  | nil => simp [setItems]
  | cons p rest ih =>
    obtain ⟨k', v'⟩ := p
    by_cases hk : k' = k
    · subst hk
      simp [setItems]
    · simp only [setItems, if_neg hk, List.map_cons, List.mem_cons, ih]
      tauto

theorem nodup_setItems (k : κ) (v : ν) {items : List (κ × ν)}
    (h : (items.map Prod.fst).Nodup) : ((setItems k v items).map Prod.fst).Nodup := by
  induction items with
  | nil => simp [setItems]
  | cons p rest ih =>
    obtain ⟨k', v'⟩ := p
    obtain ⟨hk', hrest⟩ := List.nodup_cons.mp h
    by_cases hk : k' = k
    · subst hk
      simpa [setItems] using ⟨by simpa using hk', hrest⟩
    · simp only [setItems, if_neg hk, List.map_cons]
      refine List.nodup_cons.mpr ⟨?_, ih hrest⟩
      rw [mem_keys_setItems]
      exact not_or.mpr ⟨hk, hk'⟩

/-- Items of other keys stand aside. -/
theorem setItems_append_of_notMem {k : κ} {v : ν} {items : List (κ × ν)} (r : List (κ × ν))
    (h : k ∉ items.map Prod.fst) : setItems k v (items ++ r) = items ++ setItems k v r := by
  induction items with
  | nil => rfl
  | cons p items ih =>
    rw [List.map_cons, List.mem_cons, not_or] at h
    obtain ⟨hp, hitems⟩ := h
    rw [List.cons_append, setItems, if_neg (Ne.symm hp), ih hitems, List.cons_append]

/-- `d[k] = v`. -/
def set (k : κ) (v : ν) : Dict κ ν := ⟨setItems k v d.items, nodup_setItems k v d.nodup⟩

/-- A new key goes last. -/
theorem items_set_of_notMem {k : κ} (v : ν) (h : k ∉ d.items.map Prod.fst) :
    (d.set k v).items = d.items ++ [(k, v)] := by
  show setItems k v d.items = _
  rw [← List.append_nil d.items, setItems_append_of_notMem [] h, List.append_nil]
  rfl

/-- The last key keeps its place. -/
theorem items_set_last {k : κ} {v : ν} {init : List (κ × ν)} (w : ν)
    (h : d.items = init ++ [(k, v)]) : (d.set k w).items = init ++ [(k, w)] := by
  have hinit : k ∉ init.map Prod.fst := by
    have hnodup := d.nodup
    rw [h, List.map_append, List.map_singleton, List.nodup_append] at hnodup
    intro hin
    exact hnodup.2.2 _ hin _ List.mem_cons_self rfl
  show setItems k w d.items = _
  rw [h, setItems_append_of_notMem _ hinit, setItems, if_pos rfl]

theorem mem_keys_set {k a : κ} {v : ν} :
    a ∈ (d.set k v).items.map Prod.fst ↔ a = k ∨ a ∈ d.items.map Prod.fst :=
  mem_keys_setItems

/-- `d.pop(k, None)`. -/
def erase (k : κ) : Dict κ ν :=
  ⟨d.items.filter fun p => decide (p.1 ≠ k),
    d.nodup.sublist (List.filter_sublist.map _)⟩

/-- `d.setdefault(k, v)`. -/
def setdefault (k : κ) (v : ν) : ν × Dict κ ν :=
  match d.get? k with
  | some v' => (v', d)
  | none => (v, d.set k v)

/-! ## Lookups -/

omit [DecidableEq κ] in
theorem notMem_of_nodup {k : κ} {v : ν} {rest : List (κ × ν)}
    (h : (((k, v) :: rest).map Prod.fst).Nodup) {p : κ × ν} (hp : p ∈ rest) : p.1 ≠ k := by
  intro hk
  exact (List.nodup_cons.mp h).1 (List.mem_map.mpr ⟨p, hp, hk⟩)

theorem lookup_cons_ne {k a : κ} (h : k ≠ a) (v : ν) (rest : List (κ × ν)) :
    ((a, v) :: rest).lookup k = rest.lookup k := by
  have hne : (k == a) = false := beq_eq_false_iff_ne.mpr h
  rw [List.lookup_cons, hne]

theorem get?_eq_some {k : κ} {v : ν} : d.get? k = some v ↔ (k, v) ∈ d.items := by
  obtain ⟨items, hnodup⟩ := d
  simp only [get?]
  induction items with
  | nil => simp
  | cons p rest ih =>
    obtain ⟨k', v'⟩ := p
    have hrest := (List.nodup_cons.mp hnodup).2
    by_cases hk : k = k'
    · subst hk
      simp only [List.lookup_cons_self, Option.some.injEq, List.mem_cons, Prod.mk.injEq, true_and]
      constructor
      · rintro rfl
        exact .inl rfl
      · intro h
        rcases h with rfl | hmem
        · rfl
        · exact absurd rfl (notMem_of_nodup hnodup hmem)
    · rw [lookup_cons_ne hk]
      simp only [List.mem_cons, Prod.mk.injEq, hk, false_and, false_or]
      exact ih hrest

theorem get?_eq_none {k : κ} : d.get? k = none ↔ k ∉ d.items.map Prod.fst := by
  rw [Option.eq_none_iff_forall_ne_some]
  simp only [ne_eq, get?_eq_some, List.mem_map, Prod.exists, exists_and_right, exists_eq_right,
    not_exists]

/-- Of the entries whose key meets a test, no more than where such keys are present too. -/
theorem length_filter_le {d d' : Dict κ ν} (q : κ → Bool)
    (h : ∀ k, d.get? k ≠ none → q k → d'.get? k ≠ none) :
    (d.items.filter (q ·.1)).length ≤ (d'.items.filter (q ·.1)).length := by
  have hkeys : ∀ e : Dict κ ν,
      (e.items.filter (q ·.1)).length = ((e.items.map Prod.fst).filter q).length := fun e => by
    rw [List.filter_map, List.length_map]
    rfl
  rw [hkeys, hkeys]
  refine (List.subperm_of_subset (d.nodup.filter q) fun k hk => ?_).length_le
  obtain ⟨hmem, hq⟩ := List.mem_filter.mp hk
  refine List.mem_filter.mpr ⟨?_, hq⟩
  by_contra hout
  exact h k (fun hnone => d.get?_eq_none.mp hnone hmem) hq (d'.get?_eq_none.mpr hout)

@[simp] theorem get?_empty (k : κ) : (empty : Dict κ ν).get? k = none := rfl

theorem get?_set (k k' : κ) (v : ν) : (d.set k v).get? k' = if k' = k then some v else d.get? k' := by
  obtain ⟨items, hnodup⟩ := d
  simp only [get?, set]
  clear hnodup
  induction items with
  | nil =>
    by_cases hk : k' = k
    · simp [setItems, hk]
    · simp [setItems, lookup_cons_ne hk, hk]
  | cons p rest ih =>
    obtain ⟨a, w⟩ := p
    by_cases ha : a = k
    · subst ha
      by_cases hk : k' = a
      · simp [setItems, hk]
      · simp [setItems, lookup_cons_ne hk, hk]
    · rw [setItems, if_neg ha]
      by_cases hk : k' = a
      · subst hk
        simp [ha]
      · rw [lookup_cons_ne hk, lookup_cons_ne hk, ih]

@[simp] theorem get?_set_self (k : κ) (v : ν) : (d.set k v).get? k = some v := by
  rw [get?_set, if_pos rfl]

theorem get?_set_ne {k k' : κ} (h : k' ≠ k) (v : ν) : (d.set k v).get? k' = d.get? k' := by
  rw [get?_set, if_neg h]

theorem get?_erase (k k' : κ) : (d.erase k).get? k' = if k' = k then none else d.get? k' := by
  refine Option.ext fun v => ?_
  rw [get?_eq_some, erase, List.mem_filter, decide_eq_true_eq, ← get?_eq_some]
  by_cases hk : k' = k
  · simp [hk]
  · simp [hk]

theorem setdefault_get? (k : κ) (v : ν) :
    (d.setdefault k v).2.get? k = some (d.setdefault k v).1 := by
  unfold setdefault
  split
  · assumption
  · exact d.get?_set_self k v

theorem setdefault_keeps {k k' : κ} {w : ν} (h : d.get? k' = some w) (v : ν) :
    (d.setdefault k v).2.get? k' = some w := by
  unfold setdefault
  split
  · exact h
  · rename_i hnone
    rw [d.get?_set_ne]
    · exact h
    · rintro rfl
      exact nomatch hnone.symm.trans h

/-! ## Groups -/

section Groups
variable {α : Type*} (key : α → κ)

/-- `for x in xs: d.setdefault(key(x), []).append(x)`. -/
def groupBy (xs : List α) : Dict κ (List α) :=
  xs.foldl (fun d x => d.set (key x) ((d.get? (key x)).getD [] ++ [x])) .empty

theorem get?_groupBy (xs : List α) (k : κ) :
    (groupBy key xs).get? k =
      if xs.filter (key · = k) = [] then none else some (xs.filter (key · = k)) := by
  induction xs using List.reverseRecOn with
  | nil => rfl
  | append_singleton xs x ih =>
    have hstep : groupBy key (xs ++ [x]) =
        (groupBy key xs).set (key x) (((groupBy key xs).get? (key x)).getD [] ++ [x]) :=
      List.foldl_concat ..
    rw [hstep, get?_set, List.filter_append]
    by_cases hk : k = key x
    · subst hk
      have hx : [x].filter (key · = key x) = [x] := by simp
      have hne : xs.filter (key · = key x) ++ [x] ≠ [] := by simp
      rw [if_pos rfl, ih, hx, if_neg hne]
      split
      · rename_i hnil
        rw [hnil]
        rfl
      · rfl
    · have hx : [x].filter (key · = k) = [] := by simp [Ne.symm hk]
      rw [if_neg hk, ih, hx, List.append_nil]

/-- Each group is the elements of its key, and there are some. -/
theorem mem_groupBy {xs : List α} {k : κ} {group : List α} (h : (k, group) ∈ (groupBy key xs).items) :
    group = xs.filter (key · = k) ∧ group ≠ [] := by
  have hget := (groupBy key xs).get?_eq_some.mpr h
  rw [get?_groupBy] at hget
  split at hget
  · cases hget
  · rename_i hne
    cases hget
    exact ⟨rfl, hne⟩

/-- `{key(x): x for x in xs}`. -/
def keyBy (xs : List α) : Dict κ α := xs.foldl (fun d x => d.set (key x) x) .empty

/-- Of the elements with one key, the last is kept. -/
theorem get?_keyBy (xs : List α) (k : κ) :
    (keyBy key xs).get? k = xs.reverse.find? (key · = k) := by
  induction xs using List.reverseRecOn with
  | nil => rfl
  | append_singleton xs x ih =>
    have hstep : keyBy key (xs ++ [x]) = (keyBy key xs).set (key x) x := List.foldl_concat ..
    rw [hstep, get?_set, List.reverse_concat, List.find?_cons, ih]
    by_cases hk : k = key x
    · simp [hk]
    · simp [hk, Ne.symm hk]

theorem get?_keyBy_cons (x : α) (xs : List α) (k : κ) :
    (keyBy key (x :: xs)).get? k =
      ((keyBy key xs).get? k).or (if key x = k then some x else none) := by
  rw [get?_keyBy, get?_keyBy, List.reverse_cons, List.find?_append, List.find?_singleton]
  simp only [decide_eq_true_eq]

theorem keyBy_eq_none {xs : List α} {k : κ} :
    (keyBy key xs).get? k = none ↔ ∀ x ∈ xs, key x ≠ k := by
  rw [get?_keyBy, List.find?_eq_none]
  simp

theorem mem_of_keyBy {xs : List α} {k : κ} {x : α} (h : (keyBy key xs).get? k = some x) :
    x ∈ xs ∧ key x = k := by
  rw [get?_keyBy] at h
  exact ⟨List.mem_reverse.mp (List.mem_of_find?_eq_some h), by simpa using List.find?_some h⟩

/-- Where no two elements share a key, each is found under its own. -/
theorem get?_keyBy_of_nodup {xs : List α} (h : (xs.map key).Nodup) {k : κ} {x : α} :
    (keyBy key xs).get? k = some x ↔ x ∈ xs ∧ key x = k := by
  refine ⟨mem_of_keyBy key, ?_⟩
  intro h
  obtain ⟨hx, rfl⟩ := h
  cases hget : (keyBy key xs).get? (key x) with
  | none => exact absurd rfl ((keyBy_eq_none key).mp hget x hx)
  | some y =>
    obtain ⟨hy, hkey⟩ := mem_of_keyBy key hget
    exact congrArg some (List.inj_on_of_nodup_map h hy hx hkey)

/-- `d[key(x)] = val(x)` for each `x`. -/
def setAll (val : α → ν) (xs : List α) : Dict κ ν := xs.foldl (fun d x => d.set (key x) (val x)) d

/-- `{key(x): val(x) for x in xs}`. -/
def tabulate (val : α → ν) (xs : List α) : Dict κ ν := empty.setAll key val xs

theorem setAll_concat (val : α → ν) (xs : List α) (x : α) :
    d.setAll key val (xs ++ [x]) = (d.setAll key val xs).set (key x) (val x) :=
  List.foldl_concat ..

theorem get?_setAll (val : α → ν) (xs : List α) (k : κ) :
    (d.setAll key val xs).get? k = ((tabulate key val xs).get? k).or (d.get? k) := by
  induction xs using List.reverseRecOn with
  | nil => rfl
  | append_singleton xs x ih =>
    unfold tabulate at ih ⊢
    rw [setAll_concat, setAll_concat, get?_set, get?_set, ih]
    split <;> rfl

/-- `for k in keys: d[k] = val(k)`. -/
theorem get?_setAll_id (val : κ → ν) (keys : List κ) (k : κ) :
    (d.setAll id val keys).get? k = if k ∈ keys then some (val k) else d.get? k := by
  induction keys using List.reverseRecOn with
  | nil => rfl
  | append_singleton keys x ih =>
    rw [setAll_concat, get?_set, ih]
    by_cases hk : k = x
    · simp [hk]
    · simp [hk]

/-- Of the elements with one key, the last gives the value. -/
theorem get?_tabulate (val : α → ν) (xs : List α) (k : κ) :
    (tabulate key val xs).get? k = ((keyBy key xs).get? k).map val := by
  induction xs using List.reverseRecOn with
  | nil => rfl
  | append_singleton xs x ih =>
    have hkey : keyBy key (xs ++ [x]) = (keyBy key xs).set (key x) x := List.foldl_concat ..
    unfold tabulate at ih ⊢
    rw [setAll_concat, get?_set, ih, hkey, get?_set]
    split <;> rfl

/-- `d.update(other)`. -/
theorem get?_setAll_items (other : Dict κ ν) (k : κ) :
    (d.setAll Prod.fst Prod.snd other.items).get? k = (other.get? k).or (d.get? k) := by
  have hother : (tabulate Prod.fst Prod.snd other.items).get? k = other.get? k := by
    refine Option.ext fun v => ?_
    rw [get?_tabulate, Option.map_eq_some_iff, get?_eq_some]
    constructor
    · rintro ⟨p, hp, rfl⟩
      obtain ⟨hmem, rfl⟩ := (get?_keyBy_of_nodup Prod.fst other.nodup).mp hp
      exact hmem
    · exact fun hmem => ⟨(k, v), (get?_keyBy_of_nodup Prod.fst other.nodup).mpr ⟨hmem, rfl⟩, rfl⟩
  rw [get?_setAll, hother]

theorem mem_of_tabulate {val : α → ν} {xs : List α} {k : κ} {v : ν}
    (h : (tabulate key val xs).get? k = some v) : ∃ x ∈ xs, key x = k ∧ val x = v := by
  rw [get?_tabulate, Option.map_eq_some_iff] at h
  obtain ⟨x, hx, hv⟩ := h
  obtain ⟨hmem, hkey⟩ := mem_of_keyBy key hx
  exact ⟨x, hmem, hkey, hv⟩

theorem exists_of_mem_tabulate (val : α → ν) {xs : List α} {x : α} (hx : x ∈ xs) :
    ∃ v, (tabulate key val xs).get? (key x) = some v := by
  cases hkey : (keyBy key xs).get? (key x) with
  | none => exact absurd rfl ((keyBy_eq_none key).mp hkey x hx)
  | some y => exact ⟨val y, by rw [get?_tabulate, hkey]; rfl⟩

end Groups

/-! ## Values -/

section Values
variable {ν' : Type*}

omit [DecidableEq κ] in
theorem map_fst_mapValues (f : κ → ν → ν') (items : List (κ × ν)) :
    (items.map fun p => (p.1, f p.1 p.2)).map Prod.fst = items.map Prod.fst := by
  rw [List.map_map]
  rfl

/-- `{k: f(k, v) for k, v in d.items()}`. -/
def mapValues (f : κ → ν → ν') : Dict κ ν' where
  items := d.items.map fun p => (p.1, f p.1 p.2)
  nodup := (map_fst_mapValues f d.items).symm ▸ d.nodup

theorem get?_mapValues (f : κ → ν → ν') (k : κ) :
    (d.mapValues f).get? k = (d.get? k).map (f k) := by
  refine Option.ext fun v => ?_
  rw [get?_eq_some, Option.map_eq_some_iff]
  simp only [mapValues, List.mem_map, Prod.mk.injEq, Prod.exists]
  constructor
  · intro h
    obtain ⟨k', w, hmem, rfl, hw⟩ := h
    exact ⟨w, d.get?_eq_some.mpr hmem, hw⟩
  · intro h
    obtain ⟨w, hw, hv⟩ := h
    exact ⟨k, w, d.get?_eq_some.mp hw, rfl, hv⟩

theorem mapValues_eq_self {f : κ → ν → ν} (h : ∀ k v, d.get? k = some v → f k v = v) :
    d.mapValues f = d := by
  obtain ⟨items, hnodup⟩ := d
  have hitems : (items.map fun p => (p.1, f p.1 p.2)) = items := by
    refine (List.map_congr_left fun p hp => ?_).trans (List.map_id items)
    rw [h p.1 p.2 ((get?_eq_some ⟨items, hnodup⟩).mpr hp)]
    rfl
  simp only [mapValues, hitems]

omit [DecidableEq κ] in
theorem mapValues_mapValues {ν'' : Type*} (f : κ → ν → ν') (g : κ → ν' → ν'') :
    (d.mapValues f).mapValues g = d.mapValues fun k v => g k (f k v) := by
  simp only [mapValues, List.map_map]
  rfl

omit [DecidableEq κ] in
@[simp] theorem items_mapValues (f : κ → ν → ν') :
    (d.mapValues f).items = d.items.map fun p => (p.1, f p.1 p.2) := rfl

theorem mapValues_set (f : κ → ν → ν') (k : κ) (v : ν) :
    (d.set k v).mapValues f = (d.mapValues f).set k (f k v) := by
  obtain ⟨items, hnodup⟩ := d
  have hitems : (setItems k v items).map (fun p => (p.1, f p.1 p.2)) =
      setItems k (f k v) (items.map fun p => (p.1, f p.1 p.2)) := by
    clear hnodup
    induction items with
    | nil => rfl
    | cons p rest ih =>
      obtain ⟨a, w⟩ := p
      by_cases ha : a = k
      · simp [setItems, ha]
      · simp [setItems, ha, ih]
  simp only [mapValues, set, hitems]

end Values

/-! ## Values that may fail -/

section Traverse
variable {ε ν' : Type*} (f : κ → ν → Except ε ν')

/-- `for k, v in d.items(): out[k] = f(k, v)`, where `f` may raise. -/
def traverse : Except ε (Dict κ ν') :=
  d.items.foldlM (fun out p => (f p.1 p.2).map (out.set p.1)) empty

/-- Where no item fails, the loop ends with each key's value. -/
theorem traverse_ok (h : ∀ k v, d.get? k = some v → ∃ w, f k v = .ok w) :
    ∃ d', d.traverse f = .ok d' ∧
      ∀ k w, d'.get? k = some w ↔ ∃ v, d.get? k = some v ∧ f k v = .ok w := by
  simp only [get?_eq_some] at h
  simp only [d.get?_eq_some]
  obtain ⟨items, hnodup⟩ := d
  unfold traverse
  induction items using List.reverseRecOn with
  | nil => exact ⟨empty, rfl, fun k w => by simp⟩
  | append_singleton items p ih =>
    rw [List.map_append] at hnodup
    obtain ⟨hinit, -, hfresh⟩ := List.nodup_append.mp hnodup
    obtain ⟨out, hout, hget⟩ := ih hinit fun k v hmem => h k v (List.mem_append_left _ hmem)
    obtain ⟨a, u⟩ := p
    obtain ⟨w, hw⟩ := h a u (List.mem_append_right _ (List.mem_singleton_self _))
    refine ⟨out.set a w, ?_, fun k w' => ?_⟩
    · simp only [List.foldlM_append, hout, List.foldlM_cons, List.foldlM_nil, hw]
      rfl
    have hnew : ∀ v, (a, v) ∉ items := fun v hmem =>
      hfresh a (List.mem_map.mpr ⟨_, hmem, rfl⟩) a (List.mem_singleton_self a) rfl
    simp only [List.mem_append, List.mem_singleton, Prod.mk.injEq]
    rw [get?_set]
    split
    · rename_i hk
      subst hk
      constructor
      · intro h
        obtain ⟨⟩ := h
        exact ⟨u, .inr ⟨rfl, rfl⟩, hw⟩
      · intro h
        obtain ⟨v, hmem | ⟨-, rfl⟩, hv⟩ := h
        · exact absurd hmem (hnew v)
        · exact congrArg some (Except.ok.inj (hw.symm.trans hv))
    · rename_i hk
      rw [hget]
      exact exists_congr fun v => and_congr_left fun _ => (or_iff_left fun hmem => hk hmem.1).symm

/-- A loop that ends has met no failure. -/
theorem ok_of_traverse {d' : Dict κ ν'} (h : d.traverse f = .ok d') {k : κ} {v : ν}
    (hv : d.get? k = some v) : ∃ w, f k v = .ok w := by
  rw [get?_eq_some] at hv
  unfold traverse at h
  generalize d.items = items at h hv
  generalize empty = out at h
  induction items generalizing out with
  | nil => cases hv
  | cons p items ih =>
    rw [List.foldlM_cons] at h
    cases hw : f p.1 p.2 with
    | error e =>
      rw [hw] at h
      cases h
    | ok w =>
      rw [hw] at h
      rcases List.mem_cons.mp hv with rfl | hrest
      · exact ⟨w, hw⟩
      · exact ih hrest _ h

/-- The result of a loop that ends has each key's value. -/
theorem get?_of_traverse {d' : Dict κ ν'} (h : d.traverse f = .ok d') (k : κ) (w : ν') :
    d'.get? k = some w ↔ ∃ v, d.get? k = some v ∧ f k v = .ok w := by
  obtain ⟨d'', hd'', hget⟩ := d.traverse_ok f fun _ _ => d.ok_of_traverse f h
  cases h.symm.trans hd''
  exact hget k w

end Traverse

/-! ## Keys and values read through a map -/

section Maps
variable {α β : Type*} (key : β → κ) (f : α → β)

theorem setAll_map (val : β → ν) (xs : List α) :
    d.setAll key val (xs.map f) = d.setAll (fun x => key (f x)) (fun x => val (f x)) xs :=
  List.foldl_map ..

theorem tabulate_map (val : β → ν) (xs : List α) :
    tabulate key val (xs.map f) = tabulate (fun x => key (f x)) (fun x => val (f x)) xs :=
  setAll_map ..

theorem groupBy_map (xs : List α) :
    groupBy key (xs.map f) = (groupBy (fun x => key (f x)) xs).mapValues fun _ g => g.map f := by
  induction xs using List.reverseRecOn with
  | nil => rfl
  | append_singleton xs x ih =>
    have hmapped : groupBy key ((xs ++ [x]).map f) = (groupBy key (xs.map f)).set (key (f x))
        (((groupBy key (xs.map f)).get? (key (f x))).getD [] ++ [f x]) := by
      rw [List.map_append]
      exact List.foldl_concat ..
    have hplain : groupBy (fun x => key (f x)) (xs ++ [x]) =
        (groupBy (fun x => key (f x)) xs).set (key (f x))
          (((groupBy (fun x => key (f x)) xs).get? (key (f x))).getD [] ++ [x]) :=
      List.foldl_concat ..
    rw [hmapped, hplain, mapValues_set, ih, get?_mapValues]
    cases (groupBy (fun x => key (f x)) xs).get? (key (f x)) with
    | none => rfl
    | some g => simp

end Maps

/-! ## Totals -/

variable {M : Type*} [AddCommMonoid M]

/-- The sum of `f` over the items. -/
def total (f : κ → ν → M) : M := (d.items.map fun p => f p.1 p.2).sum

/-- What the item under a key, if any, adds to a total. -/
def share (f : κ → ν → M) (k : κ) : M := (d.get? k).elim 0 (f k)

omit [DecidableEq κ] in
@[simp] theorem total_empty (f : κ → ν → M) : (empty : Dict κ ν).total f = 0 := rfl

theorem total_erase (f : κ → ν → M) (k : κ) : (d.erase k).total f + d.share f k = d.total f := by
  obtain ⟨items, hnodup⟩ := d
  simp only [total, share, erase, get?]
  induction items with
  | nil => simp
  | cons p rest ih =>
    obtain ⟨k', v'⟩ := p
    have hrest := (List.nodup_cons.mp hnodup).2
    by_cases hk : k' = k
    · subst hk
      have hall : rest.filter (fun p => decide (p.1 ≠ k')) = rest :=
        List.filter_eq_self.mpr fun p hp => decide_eq_true (notMem_of_nodup hnodup hp)
      rw [List.filter_cons_of_neg (by simp), hall, List.lookup_cons_self, List.map_cons,
        List.sum_cons]
      exact add_comm _ _
    · rw [List.filter_cons_of_pos (by simp [hk]), lookup_cons_ne (Ne.symm hk), List.map_cons,
        List.map_cons, List.sum_cons, List.sum_cons, add_assoc, ih hrest]

theorem total_set (f : κ → ν → M) (k : κ) (v : ν) :
    (d.set k v).total f + d.share f k = d.total f + f k v := by
  obtain ⟨items, hnodup⟩ := d
  simp only [total, share, set, get?]
  induction items with
  | nil => simp [setItems]
  | cons p rest ih =>
    obtain ⟨k', v'⟩ := p
    have hrest := (List.nodup_cons.mp hnodup).2
    by_cases hk : k' = k
    · subst hk
      rw [setItems, if_pos rfl, List.lookup_cons_self, List.map_cons, List.map_cons, List.sum_cons,
        List.sum_cons]
      have hrot := add_rotate (f k' v) (rest.map fun p => f p.1 p.2).sum (f k' v')
      rw [add_comm (f k' v')]
      exact hrot
    · rw [setItems, if_neg hk, lookup_cons_ne (Ne.symm hk), List.map_cons, List.map_cons,
        List.sum_cons, List.sum_cons, add_assoc, ih hrest, add_assoc]

omit [DecidableEq κ] in
theorem total_mapValues {ν' : Type*} (f : κ → ν → ν') (g : κ → ν' → M) :
    (d.mapValues f).total g = d.total fun k v => g k (f k v) := by
  simp only [total, mapValues, List.map_map]
  rfl

omit [DecidableEq κ] in
theorem total_add (f g : κ → ν → M) : (d.total fun k v => f k v + g k v) = d.total f + d.total g :=
  List.sum_map_add

theorem total_congr {f g : κ → ν → M} (h : ∀ k v, d.get? k = some v → f k v = g k v) :
    d.total f = d.total g := by
  refine congrArg List.sum (List.map_congr_left fun p hp => ?_)
  exact h p.1 p.2 (d.get?_eq_some.mpr hp)

theorem total_le_total [PartialOrder M] [IsOrderedAddMonoid M] {f g : κ → ν → M}
    (h : ∀ k v, d.get? k = some v → f k v ≤ g k v) : d.total f ≤ d.total g :=
  List.sum_le_sum fun p hp => h p.1 p.2 (d.get?_eq_some.mpr hp)

/-- A total depends on the lookups only. -/
theorem total_eq_of_get? {d d' : Dict κ ν} (h : ∀ k, d.get? k = d'.get? k) (f : κ → ν → M) :
    d.total f = d'.total f := by
  refine (List.Perm.map _ ?_).sum_eq
  refine (List.perm_ext_iff_of_nodup d.nodup.of_map d'.nodup.of_map).mpr fun p => ?_
  rw [← get?_eq_some, ← get?_eq_some, h]

omit [DecidableEq κ] in
theorem total_mul_left {R : Type*} [NonUnitalNonAssocSemiring R] (c : R) (f : κ → ν → R) :
    (d.total fun k v => c * f k v) = c * d.total f :=
  List.sum_map_mul_left ..

/-- The values under distinct keys, and the total over the items under them. -/
theorem sum_getD (d : Dict κ M) {keys : List κ} (hnodup : keys.Nodup) :
    (keys.map fun k => (d.get? k).getD 0).sum = d.total fun k v => if k ∈ keys then v else 0 := by
  obtain ⟨items, hitems⟩ := d
  simp only [get?, total]
  induction items with
  | nil => simp
  | cons p rest ih =>
    obtain ⟨a, v⟩ := p
    obtain ⟨ha, hrest⟩ := List.nodup_cons.mp hitems
    rw [List.map_cons, List.sum_cons, ← ih hrest]
    clear ih
    have hnone : rest.lookup a = none := by
      refine List.lookup_eq_none_iff.mpr fun p hp => ?_
      exact bne_iff_ne.mpr fun heq => ha (List.mem_map.mpr ⟨p, hp, heq.symm⟩)
    induction keys with
    | nil => simp
    | cons k keys ihk =>
      obtain ⟨hk, hkeys⟩ := List.nodup_cons.mp hnodup
      rw [List.map_cons, List.sum_cons, ihk hkeys, List.map_cons, List.sum_cons]
      by_cases hka : k = a
      · subst hka
        simp [hk, hnone]
      · rw [lookup_cons_ne hka]
        simp only [List.mem_cons, Ne.symm hka, false_or]
        exact add_left_comm _ _ _

/-- A total of values that are each at most another dictionary's under the key. -/
theorem total_le_total_of_getD [PartialOrder M] [IsOrderedAddMonoid M] {d : Dict κ ν}
    {b : Dict κ M} {f : κ → ν → M} (h : ∀ k v, d.get? k = some v → f k v ≤ (b.get? k).getD 0)
    (hb : ∀ k w, b.get? k = some w → 0 ≤ w) : d.total f ≤ b.total fun _ w => w :=
  calc d.total f ≤ d.total fun k _ => (b.get? k).getD 0 := d.total_le_total h
    _ = ((d.items.map Prod.fst).map fun k => (b.get? k).getD 0).sum := by
      rw [List.map_map]
      rfl
    _ = b.total fun k w => if k ∈ d.items.map Prod.fst then w else 0 := b.sum_getD d.nodup
    _ ≤ b.total fun _ w => w := by
      refine b.total_le_total fun k w hw => ?_
      split
      · exact le_rfl
      · exact hb k w hw

theorem total_nonneg [PartialOrder M] [IsOrderedAddMonoid M] {f : κ → ν → M}
    (h : ∀ k v, d.get? k = some v → 0 ≤ f k v) : 0 ≤ d.total f := by
  refine List.sum_nonneg fun m hm => ?_
  obtain ⟨⟨k, v⟩, hp, rfl⟩ := List.mem_map.mp hm
  exact h k v (d.get?_eq_some.mpr hp)

theorem le_total [PartialOrder M] [IsOrderedAddMonoid M] {f : κ → ν → M}
    (h : ∀ k v, d.get? k = some v → 0 ≤ f k v) {k : κ} {v : ν} (hv : d.get? k = some v) :
    f k v ≤ d.total f := by
  refine List.single_le_sum (fun m hm => ?_) _ (List.mem_map_of_mem (d.get?_eq_some.mp hv))
  obtain ⟨p, hp, rfl⟩ := List.mem_map.mp hm
  exact h p.1 p.2 (d.get?_eq_some.mpr hp)

/-- A total of positive values, of which there is one. -/
theorem total_pos [PartialOrder M] [IsOrderedAddMonoid M] {f : κ → ν → M}
    (h : ∀ k v, d.get? k = some v → 0 < f k v) {k : κ} {v : ν} (hv : d.get? k = some v) :
    0 < d.total f :=
  (h k v hv).trans_le (d.le_total (fun k v hkv => (h k v hkv).le) hv)

section Bounds
variable {α : Type*} [PartialOrder M] [IsOrderedCancelAddMonoid M] {key : α → κ} {val : α → M}

omit [IsOrderedCancelAddMonoid M] in
theorem share_le_share {d d' : Dict κ M} (h : ∀ k v, d.get? k = some v → d'.get? k = some v)
    (hnonneg : ∀ k v, d'.get? k = some v → 0 ≤ v) (k : κ) :
    d.share (fun _ v => v) k ≤ d'.share (fun _ v => v) k := by
  unfold share
  cases hd : d.get? k with
  | some v => rw [h k v hd]
  | none =>
    cases hd' : d'.get? k with
    | none => exact le_refl _
    | some v => exact hnonneg k v hd'

variable (key) in
/-- Assignments of non-negative values add at most what they would add to an
empty dictionary. -/
theorem total_setAll_le {d : Dict κ M} {xs : List α} (hd : ∀ k v, d.get? k = some v → 0 ≤ v)
    (hval : ∀ x ∈ xs, 0 ≤ val x) :
    (d.setAll key val xs).total (fun _ v => v) ≤
      d.total (fun _ v => v) + (tabulate key val xs).total fun _ v => v := by
  induction xs using List.reverseRecOn with
  | nil => exact le_of_eq (add_zero _).symm
  | append_singleton xs x ih =>
    have ih := ih fun y hy => hval y (List.mem_append_left _ hy)
    have hboth := total_set (d.setAll key val xs) (fun _ v => v) (key x) (val x)
    have halone := total_set (tabulate key val xs) (fun _ v => v) (key x) (val x)
    have hshare : (tabulate key val xs).share (fun _ v => v) (key x) ≤
        (d.setAll key val xs).share (fun _ v => v) (key x) := by
      refine share_le_share (fun k v hv => ?_) (fun k v hv => ?_) _
      · rw [get?_setAll, hv]
        rfl
      · rw [get?_setAll] at hv
        cases htab : (tabulate key val xs).get? k with
        | none =>
          rw [htab] at hv
          exact hd k v hv
        | some w =>
          rw [htab] at hv
          obtain ⟨y, hy, -, rfl⟩ := mem_of_tabulate key htab
          obtain rfl : val y = v := by simpa using hv
          exact hval y (List.mem_append_left _ hy)
    unfold tabulate at hshare halone ih ⊢
    rw [setAll_concat, setAll_concat]
    refine le_of_add_le_add_right (a := (d.setAll key val xs).share (fun _ v => v) (key x)) ?_
    rw [hboth]
    calc (d.setAll key val xs).total (fun _ v => v) + val x
        ≤ d.total (fun _ v => v) + (empty.setAll key val xs).total (fun _ v => v) + val x :=
          add_le_add_left ih _
      _ = d.total (fun _ v => v) + (((empty.setAll key val xs).set (key x) (val x)).total
            (fun _ v => v) + (empty.setAll key val xs).share (fun _ v => v) (key x)) := by
          rw [halone, add_assoc]
      _ ≤ _ := by
          rw [add_assoc]
          exact add_le_add_right (add_le_add_right hshare _) _

end Bounds

end Dict

end TradingPlatform.Lib
