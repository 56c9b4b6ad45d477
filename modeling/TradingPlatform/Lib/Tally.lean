import TradingPlatform.Lib.Dict

/-! # Tallies

Amounts summed under keys. The total over the keys is the sum of the amounts, so a tally loses
nothing and counts nothing twice. -/

namespace TradingPlatform.Lib.Tally

variable {α κ M : Type*} [DecidableEq κ] [AddCommMonoid M] (key : α → κ) (amount : α → M)

/-- `d[key(x)] = d.get(key(x), 0) + amount(x)`, for each `x`. -/
def tallyInto (d : Dict κ M) (xs : List α) : Dict κ M :=
  xs.foldl (fun d x => d.set (key x) ((d.get? (key x)).getD 0 + amount x)) d

def tally (xs : List α) : Dict κ M := tallyInto key amount .empty xs

theorem tallyInto_cons (d : Dict κ M) (x : α) (xs : List α) :
    tallyInto key amount d (x :: xs) =
      tallyInto key amount (d.set (key x) ((d.get? (key x)).getD 0 + amount x)) xs := rfl

/-- An amount more under one key is an amount more in all. -/
theorem total_add_at (d : Dict κ M) (k : κ) (m : M) :
    (d.set k ((d.get? k).getD 0 + m)).total (fun _ v => v) = d.total (fun _ v => v) + m := by
  have hset := d.total_set (fun _ v => v) k ((d.get? k).getD 0 + m)
  have herase := d.total_erase (fun _ v => v) k
  have hshare : d.share (fun _ v => v) k = (d.get? k).getD 0 := by
    unfold Dict.share
    cases d.get? k <;> rfl
  rw [hshare] at hset herase
  have hset' : (d.set k ((d.get? k).getD 0 + m)).total (fun _ v => v) =
      (d.erase k).total (fun _ v => v) + ((d.get? k).getD 0 + m) := by
    have hagain := (d.set k ((d.get? k).getD 0 + m)).total_erase (fun _ v => v) k
    have hshare' : (d.set k ((d.get? k).getD 0 + m)).share (fun _ v => v) k =
        (d.get? k).getD 0 + m := by
      unfold Dict.share
      rw [Dict.get?_set_self]
      rfl
    rw [hshare'] at hagain
    rw [← hagain]
    congr 1
    refine Dict.total_eq_of_get? (fun k' => ?_) _
    rw [Dict.get?_erase, Dict.get?_erase]
    split
    · rfl
    · rename_i hne
      exact Dict.get?_set_ne d hne _
  rw [hset', ← herase, add_assoc]

theorem total_tallyInto (d : Dict κ M) (xs : List α) :
    (tallyInto key amount d xs).total (fun _ v => v) =
      d.total (fun _ v => v) + (xs.map amount).sum := by
  induction xs generalizing d with
  | nil => exact (add_zero _).symm
  | cons x xs ih =>
    rw [tallyInto_cons, ih, total_add_at, List.map_cons, List.sum_cons, add_assoc]

/-- The keys partition the amounts. -/
theorem total_tally (xs : List α) :
    (tally key amount xs).total (fun _ v => v) = (xs.map amount).sum := by
  rw [tally, total_tallyInto, Dict.total_empty, zero_add]

theorem getD_tallyInto (d : Dict κ M) (xs : List α) (k : κ) :
    ((tallyInto key amount d xs).get? k).getD 0 =
      (d.get? k).getD 0 + ((xs.filter (key · = k)).map amount).sum := by
  induction xs generalizing d with
  | nil => exact (add_zero _).symm
  | cons x xs ih =>
    rw [tallyInto_cons, ih, Dict.get?_set, List.filter_cons]
    by_cases hk : k = key x
    · subst hk
      simp [add_assoc]
    · simp [hk, Ne.symm hk]

/-- Under each key stands the sum of its amounts. -/
theorem getD_tally (xs : List α) (k : κ) :
    ((tally key amount xs).get? k).getD 0 = ((xs.filter (key · = k)).map amount).sum := by
  rw [tally, getD_tallyInto, Dict.get?_empty, Option.getD_none, zero_add]

theorem mem_keys_tallyInto (d : Dict κ M) (xs : List α) {k : κ} :
    k ∈ (tallyInto key amount d xs).items.map Prod.fst ↔
      k ∈ d.items.map Prod.fst ∨ k ∈ xs.map key := by
  induction xs generalizing d with
  | nil => simp [tallyInto]
  | cons x xs ih =>
    rw [tallyInto_cons, ih, Dict.mem_keys_set, List.map_cons, List.mem_cons]
    tauto

/-- A dict has at most one item under a key. -/
theorem sum_items_at (d : Dict κ M) (k : κ) :
    ((d.items.filter (·.1 = k)).map Prod.snd).sum = (d.get? k).getD 0 := by
  have hone := d.sum_getD (List.nodup_singleton k)
  rw [List.map_singleton, List.sum_singleton] at hone
  rw [hone, Dict.total]
  induction d.items with
  | nil => rfl
  | cons p items ih =>
    rw [List.filter_cons, List.map_cons, List.sum_cons, ← ih]
    by_cases hk : p.1 = k <;> simp [hk]

/-- The values are what is found under keys that hold every key of the dict. -/
theorem values_perm {ν β : Type*} (d : Dict κ ν) (f : ν → β) {keys : List κ} (hnodup : keys.Nodup)
    (hkeys : ∀ k v, d.get? k = some v → k ∈ keys) :
    (d.items.map fun p => f p.2).Perm (keys.filterMap fun k => (d.get? k).map f) := by
  have hitems : d.items.Perm (keys.filterMap fun k => (d.get? k).map (k, ·)) := by
    refine (List.perm_ext_iff_of_nodup d.nodup.of_map ?_).mpr fun p => ?_
    · refine hnodup.filterMap fun k k' p hp hp' => ?_
      obtain ⟨v, -, rfl⟩ := Option.map_eq_some_iff.mp hp
      obtain ⟨v', -, h⟩ := Option.map_eq_some_iff.mp hp'
      exact (Prod.mk.inj h).1.symm
    · rw [← Dict.get?_eq_some, List.mem_filterMap]
      constructor
      · exact fun h => ⟨p.1, hkeys _ _ h, by rw [h]; rfl⟩
      · rintro ⟨k, -, hk⟩
        obtain ⟨v, hv, rfl⟩ := Option.map_eq_some_iff.mp hk
        exact hv
  refine (hitems.map fun p => f p.2).trans (List.Perm.of_eq ?_)
  rw [List.map_filterMap]
  refine List.filterMap_congr fun k _ => ?_
  cases d.get? k <;> rfl

end TradingPlatform.Lib.Tally
