import Mathlib.Data.List.Basic
import Mathlib.Data.List.Pairwise

/-! # Tables with a primary key and a nullable unique column

A table is a list of rows, in insertion order, that carries its constraints:
no two rows share the primary key, and none share a non-null value of the
unique column. The statements are the four a program issues: a guarded
`UPDATE`, an `INSERT` that a constraint may refuse, an upsert keyed by the
primary key, and lookups. A lookup after each statement is one equation. -/

namespace TradingPlatform.Lib

/-- The two constrained columns of a row type. -/
structure Schema (ρ κ υ : Type) where
  key : ρ → κ
  uniq : ρ → Option υ

variable {ρ κ υ : Type}

/-- Two rows that may stand in one table. -/
def Schema.Apart (S : Schema ρ κ υ) (a b : ρ) : Prop :=
  S.key a ≠ S.key b ∧ (S.uniq a = S.uniq b → S.uniq a = none)

theorem Schema.Apart.symm {S : Schema ρ κ υ} {a b : ρ} (h : S.Apart a b) : S.Apart b a :=
  ⟨Ne.symm h.1, fun he => he.trans (h.2 he.symm)⟩

instance (S : Schema ρ κ υ) : Std.Symm S.Apart := ⟨fun _ _ => Schema.Apart.symm⟩

instance [DecidableEq κ] [DecidableEq υ] (S : Schema ρ κ υ) (a b : ρ) : Decidable (S.Apart a b) :=
  inferInstanceAs (Decidable (_ ∧ (_ → _)))

structure Table (S : Schema ρ κ υ) where
  rows : List ρ
  apart : rows.Pairwise S.Apart

/-- What an `UPDATE` sets; it touches neither constrained column. -/
structure Update (S : Schema ρ κ υ) where
  set : ρ → ρ
  key_set : ∀ r, S.key (set r) = S.key r
  uniq_set : ∀ r, S.uniq (set r) = S.uniq r

namespace Table

variable {S : Schema ρ κ υ}

def empty : Table S := ⟨[], .nil⟩

variable (t : Table S)

theorem eq_of_key {a b : ρ} (ha : a ∈ t.rows) (hb : b ∈ t.rows) (h : S.key a = S.key b) : a = b := by
  by_contra hne
  exact (t.apart.forall ha hb hne).1 h

theorem eq_of_uniq {a b : ρ} (ha : a ∈ t.rows) (hb : b ∈ t.rows) {u : υ}
    (hau : S.uniq a = some u) (hbu : S.uniq b = some u) : a = b := by
  by_contra hne
  have := (t.apart.forall ha hb hne).2 (hau.trans hbu.symm)
  rw [hau] at this; cases this

/-! ## Lookups -/

section Find
variable [DecidableEq κ] [DecidableEq υ]

/-- The row with primary key `k`. -/
def find (k : κ) : Option ρ := t.rows.find? fun r => decide (S.key r = k)

/-- The row whose unique column holds `u`. -/
def findUniq (u : υ) : Option ρ := t.rows.find? fun r => decide (S.uniq r = some u)

omit [DecidableEq υ] in
theorem find_eq_some {k : κ} {r : ρ} : t.find k = some r ↔ r ∈ t.rows ∧ S.key r = k := by
  constructor
  · intro h
    exact ⟨List.mem_of_find?_eq_some h, by simpa using List.find?_some h⟩
  · intro h
    obtain ⟨hr, rfl⟩ := h
    cases h : t.find (S.key r) with
    | none => simpa using List.find?_eq_none.mp h r hr
    | some x =>
      have hx := List.mem_of_find?_eq_some h
      have hk : S.key x = S.key r := by simpa using List.find?_some h
      rw [t.eq_of_key hx hr hk]

omit [DecidableEq υ] in
theorem find_eq_none {k : κ} : t.find k = none ↔ ∀ r ∈ t.rows, S.key r ≠ k := by
  simp [find, List.find?_eq_none]

omit [DecidableEq κ] in
theorem findUniq_eq_some {u : υ} {r : ρ} :
    t.findUniq u = some r ↔ r ∈ t.rows ∧ S.uniq r = some u := by
  constructor
  · intro h
    exact ⟨List.mem_of_find?_eq_some h, by simpa using List.find?_some h⟩
  · intro h
    obtain ⟨hr, hu⟩ := h
    cases h : t.findUniq u with
    | none => exact absurd hu (by simpa using List.find?_eq_none.mp h r hr)
    | some x =>
      have hx := List.mem_of_find?_eq_some h
      rw [t.eq_of_uniq hx hr (by simpa using List.find?_some h) hu]

omit [DecidableEq υ] in
/-- The rows a key-guarded condition selects: at most the one `find` returns. -/
theorem filter_key (k : κ) (q : ρ → Bool) :
    t.rows.filter (fun r => decide (S.key r = k) && q r) = ((t.find k).filter q).toList := by
  obtain ⟨rows, apart⟩ := t
  simp only [find]
  induction rows with
  | nil => rfl
  | cons r rest ih =>
    obtain ⟨hr, hrest⟩ := List.pairwise_cons.mp apart
    by_cases hk : S.key r = k
    · have hnone : rest.filter (fun x => decide (S.key x = k) && q x) = [] := by
        refine List.filter_eq_nil_iff.mpr fun x hx hp => ?_
        simp only [Bool.and_eq_true, decide_eq_true_eq] at hp
        exact (hr x hx).1 (hk.trans hp.1.symm)
      cases hq : q r <;> simp [hk, hq, hnone, Option.filter]
    · rw [List.filter_cons_of_neg (by simp [hk]), List.find?_cons_of_neg (by simp [hk])]
      exact ih hrest

end Find

/-! ## `UPDATE` -/

/-- `UPDATE t SET u WHERE p`. -/
def updateWhere (p : ρ → Bool) (u : Update S) : Table S where
  rows := t.rows.map fun r => if p r then u.set r else r
  apart := by
    refine List.pairwise_map.mpr (t.apart.imp ?_)
    intro a b h
    have hk : ∀ r : ρ, S.key (if p r then u.set r else r) = S.key r := fun r => by
      split
      · exact u.key_set r
      · rfl
    have hu : ∀ r : ρ, S.uniq (if p r then u.set r else r) = S.uniq r := fun r => by
      split
      · exact u.uniq_set r
      · rfl
    simpa only [Schema.Apart, hk, hu] using h

theorem find_updateWhere [DecidableEq κ] (p : ρ → Bool) (u : Update S) (k : κ) :
    (t.updateWhere p u).find k = (t.find k).map fun r => if p r then u.set r else r := by
  simp only [find, updateWhere, List.find?_map]
  congr 2
  funext r
  simp only [Function.comp]
  split
  · rw [u.key_set]
  · rfl

/-- What `f` reads of a row, after an update. -/
theorem map_find_updateWhere [DecidableEq κ] {β : Type} (f : ρ → β) (p : ρ → Bool) (u : Update S)
    (k : κ) :
    ((t.updateWhere p u).find k).map f =
      (t.find k).map fun r => if p r then f (u.set r) else f r := by
  rw [find_updateWhere, Option.map_map]
  congr 1
  funext r
  simp only [Function.comp]
  split <;> rfl

/-- An update leaves the row of a key alone or meets it. -/
theorem find_updateWhere_cases [DecidableEq κ] (p : ρ → Bool) (u : Update S) (k : κ) :
    (t.updateWhere p u).find k = t.find k ∨
    ∃ r, t.find k = some r ∧ S.key r = k ∧ p r = true ∧
      (t.updateWhere p u).find k = some (u.set r) := by
  rw [find_updateWhere]
  cases hr : t.find k with
  | none => exact .inl rfl
  | some r =>
    rw [Option.map_some]
    split
    · rename_i hp
      exact .inr ⟨r, rfl, (t.find_eq_some.mp hr).2, hp, rfl⟩
    · exact .inl rfl

theorem findUniq_updateWhere [DecidableEq υ] (p : ρ → Bool) (u : Update S) (v : υ) :
    (t.updateWhere p u).findUniq v = (t.findUniq v).map fun r => if p r then u.set r else r := by
  simp only [findUniq, updateWhere, List.find?_map]
  congr 2
  funext r
  simp only [Function.comp]
  split
  · rw [u.uniq_set]
  · rfl

/-- An update that matches no row changes nothing. -/
theorem updateWhere_none {p : ρ → Bool} {u : Update S} (h : ∀ r ∈ t.rows, p r = false) :
    t.updateWhere p u = t := by
  have hrows : (t.rows.map fun r => if p r then u.set r else r) = t.rows := by
    rw [List.map_congr_left (g := id) fun r hr => by simp [h r hr], List.map_id]
  obtain ⟨rows, apart⟩ := t
  simp only [updateWhere, mk.injEq]
  exact hrows

/-- An update that moves its rows out of a class leaves the others of the class. -/
theorem filter_updateWhere {p q : ρ → Bool} {u : Update S}
    (hq : ∀ r, p r = true → q (u.set r) = false) :
    (t.updateWhere p u).rows.filter q = t.rows.filter fun r => q r && !p r := by
  simp only [updateWhere]
  induction t.rows with
  | nil => rfl
  | cons r rest ih =>
    rw [List.map_cons, List.filter_cons, List.filter_cons, ih]
    by_cases hp : p r = true
    · simp [hp, hq r hp]
    · simp [hp]

/-! ## `INSERT` and upsert -/

section Insert
variable [DecidableEq κ] [DecidableEq υ]

/-- `INSERT INTO t VALUES r`; `none` when a constraint refuses the row. -/
def insert (r : ρ) : Option (Table S) :=
  if h : ∀ x ∈ t.rows, S.Apart x r then
    some ⟨t.rows ++ [r], List.pairwise_append.mpr
      ⟨t.apart, List.pairwise_singleton _ _, by simpa using h⟩⟩
  else none

/-- `INSERT … ON CONFLICT (key) DO UPDATE`: replaces the row with `r`'s key or
appends `r`; `none` when another row holds `r`'s value of the unique column. -/
def upsert (r : ρ) : Option (Table S) :=
  if h : ∀ x ∈ t.rows, S.key x = S.key r ∨ S.Apart x r then
    if hk : ∀ x ∈ t.rows, S.key x ≠ S.key r then
      some ⟨t.rows ++ [r], List.pairwise_append.mpr
        ⟨t.apart, List.pairwise_singleton _ _, by
          simpa using fun x hx => (h x hx).resolve_left (hk x hx)⟩⟩
    else
      some ⟨t.rows.map fun x => if S.key x = S.key r then r else x, by
        refine List.pairwise_map.mpr (t.apart.imp_of_mem ?_)
        intro a b ha hb hab
        split <;> rename_i hka <;> split <;> rename_i hkb
        · exact absurd (hka.trans hkb.symm) hab.1
        · exact ((h b hb).resolve_left hkb).symm
        · exact (h a ha).resolve_left hka
        · exact hab⟩
  else none

variable {t}

theorem insert_eq_some {r : ρ} {t' : Table S} (h : t.insert r = some t') :
    t'.rows = t.rows ++ [r] ∧ ∀ x ∈ t.rows, S.Apart x r := by
  unfold insert at h
  split at h
  · rename_i hx
    cases h
    exact ⟨rfl, hx⟩
  · cases h

theorem insert_eq_none {r : ρ} :
    t.insert r = none ↔ ∃ x ∈ t.rows, S.key x = S.key r ∨ ∃ u, S.uniq x = some u ∧ S.uniq r = some u := by
  simp only [insert, dite_eq_right_iff, reduceCtorEq, imp_false, not_forall]
  refine exists_congr fun x => ?_
  rw [exists_prop]
  refine and_congr_right fun _ => ?_
  simp only [Schema.Apart, not_and_or, not_not, Classical.not_imp]
  refine or_congr_right ⟨?_, ?_⟩
  · intro h
    obtain ⟨he, hn⟩ := h
    obtain ⟨u, hu⟩ := Option.ne_none_iff_exists'.mp hn
    exact ⟨u, hu, he ▸ hu⟩
  · intro h
    obtain ⟨u, hx, hr⟩ := h
    exact ⟨hx.trans hr.symm, by simp [hx]⟩

theorem find_insert {r : ρ} {t' : Table S} (h : t.insert r = some t') (k : κ) :
    t'.find k = if S.key r = k then some r else t.find k := by
  obtain ⟨hrows, hap⟩ := insert_eq_some h
  split
  · rename_i hk
    exact t'.find_eq_some.mpr ⟨by simp [hrows], hk⟩
  · rename_i hk
    simp [find, hrows, List.find?_append, hk]

theorem findUniq_insert {r : ρ} {t' : Table S} (h : t.insert r = some t') (u : υ) :
    t'.findUniq u = if S.uniq r = some u then some r else t.findUniq u := by
  obtain ⟨hrows, hap⟩ := insert_eq_some h
  split
  · rename_i hu
    exact t'.findUniq_eq_some.mpr ⟨by simp [hrows], hu⟩
  · rename_i hu
    simp [findUniq, hrows, List.find?_append, hu]

/-- An accepted insert changes the table. -/
theorem insert_ne {r : ρ} {t' : Table S} (h : t.insert r = some t') : t' ≠ t := by
  intro he
  have hrows := (insert_eq_some h).1
  rw [he] at hrows
  exact absurd hrows (by simp)

theorem find_of_insert {r : ρ} {t' : Table S} (h : t.insert r = some t') : t.find (S.key r) = none :=
  t.find_eq_none.mpr fun x hx => ((insert_eq_some h).2 x hx).1

/-- After an `INSERT` a key is found as before, or it is the key of the row that went in. -/
theorem find_insert_cases (r : ρ) (k : κ) :
    ((t.insert r).getD t).find k = t.find k ∨
    ((t.insert r).isSome = true ∧ t.find k = none ∧ S.key r = k ∧
      ((t.insert r).getD t).find k = some r) := by
  cases hi : t.insert r with
  | none => exact .inl rfl
  | some t' =>
    rw [Option.getD_some, find_insert hi]
    split
    · rename_i hk
      subst hk
      exact .inr ⟨rfl, find_of_insert hi, rfl, rfl⟩
    · exact .inl rfl

theorem find_upsert {r : ρ} {t' : Table S} (h : t.upsert r = some t') (k : κ) :
    t'.find k = if S.key r = k then some r else t.find k := by
  unfold upsert at h
  split at h
  · split at h
    · cases h
      by_cases hk : S.key r = k
      · rw [if_pos hk]
        exact (find_eq_some _).mpr ⟨by simp, hk⟩
      · simp [find, List.find?_append, hk]
    · rename_i hx
      cases h
      push Not at hx
      obtain ⟨x, hxm, hxk⟩ := hx
      by_cases hk : S.key r = k
      · rw [if_pos hk]
        exact (find_eq_some _).mpr ⟨List.mem_map.mpr ⟨x, hxm, by simp [hxk]⟩, hk⟩
      · rw [if_neg hk]
        cases hf : t.find k with
        | none =>
          refine (find_eq_none _).mpr fun y hy => ?_
          obtain ⟨z, hz, rfl⟩ := List.mem_map.mp hy
          split
          · exact hk
          · exact t.find_eq_none.mp hf z hz
        | some y =>
          obtain ⟨hy, hyk⟩ := t.find_eq_some.mp hf
          refine (find_eq_some _).mpr ⟨List.mem_map.mpr ⟨y, hy, ?_⟩, hyk⟩
          rw [if_neg fun he => hk (he.symm.trans hyk)]
  · cases h

/-! ## Properties of every row -/

omit [DecidableEq υ] in
/-- Every row meets `P`, read with its key. -/
def All (P : κ → ρ → Prop) (t : Table S) : Prop := ∀ k r, t.find k = some r → P k r

omit [DecidableEq υ] in
theorem All.updateWhere {P : κ → ρ → Prop} (h : t.All P) {p : ρ → Bool} {u : Update S}
    (hu : ∀ k r, P k r → P k (u.set r)) : (t.updateWhere p u).All P := by
  intro k r hr
  rw [find_updateWhere] at hr
  obtain ⟨x, hx, rfl⟩ := Option.map_eq_some_iff.mp hr
  split
  · exact hu k x (h k x hx)
  · exact h k x hx

theorem All.insert {P : κ → ρ → Prop} (h : t.All P) {r : ρ} (hr : P (S.key r) r) :
    ((t.insert r).getD t).All P := by
  cases hi : t.insert r with
  | none => exact h
  | some t' =>
    intro k x hx
    rw [Option.getD_some, find_insert hi] at hx
    split at hx
    · rename_i hk
      cases hx
      exact hk ▸ hr
    · exact h k x hx

theorem All.upsert {P : κ → ρ → Prop} (h : t.All P) {r : ρ} (hr : P (S.key r) r) :
    ((t.upsert r).getD t).All P := by
  cases hi : t.upsert r with
  | none => exact h
  | some t' =>
    intro k x hx
    rw [Option.getD_some, find_upsert hi] at hx
    split at hx
    · rename_i hk
      cases hx
      exact hk ▸ hr
    · exact h k x hx

/-! ## Which key a unique value belongs to -/

omit [DecidableEq κ] in
/-- The row that holds the unique value `u` has the primary key `k`. -/
def Maps (t : Table S) (u : υ) (k : κ) : Prop := ∃ r, t.findUniq u = some r ∧ S.key r = k

omit [DecidableEq κ] in
theorem maps_updateWhere {p : ρ → Bool} {v : Update S} {u : υ} {k : κ} :
    (t.updateWhere p v).Maps u k ↔ t.Maps u k := by
  unfold Maps
  rw [findUniq_updateWhere]
  have hkey : ∀ r, S.key (if p r then v.set r else r) = S.key r := by
    intro r
    split
    · exact v.key_set r
    · rfl
  cases t.findUniq u with
  | none => simp
  | some r => simp [hkey]

theorem maps_insert {r : ρ} {u : υ} {k : κ} (hm : ((t.insert r).getD t).Maps u k) :
    t.Maps u k ∨ (S.uniq r = some u ∧ S.key r = k) := by
  cases hi : t.insert r with
  | none => exact .inl (by rwa [hi] at hm)
  | some t' =>
    rw [hi] at hm
    obtain ⟨x, hx, hk⟩ := hm
    rw [Option.getD_some, findUniq_insert hi] at hx
    split at hx
    · rename_i hu
      cases hx
      exact .inr ⟨hu, hk⟩
    · exact .inl ⟨x, hx, hk⟩

end Insert

end Table

end TradingPlatform.Lib
