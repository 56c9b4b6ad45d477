import Mathlib.Data.List.Sort
import Mathlib.Data.List.Pairwise

/-! # The head of a stable sort

Insertion sort by a key is stable, so sorting a concatenation merges the two
sorted halves. A queue fed by two sources, where the second adds only what the
first does not hold, can be cut to its first `n` elements before or after the
merge: the first `n` of the whole queue depend on the first `n` of each source
alone. -/

namespace TradingPlatform.Lib.StableSort

variable {α κ ι : Type*} [LinearOrder κ] (key : α → κ)

def sortBy (xs : List α) : List α := xs.insertionSort fun a b => key a ≤ key b

def insertBy (a : α) (xs : List α) : List α := xs.orderedInsert (fun a b => key a ≤ key b) a

def mergeBy (xs ys : List α) : List α := xs.merge ys fun a b => decide (key a ≤ key b)

def Sorted (xs : List α) : Prop := xs.Pairwise fun a b => key a ≤ key b

variable {key}

theorem sortBy_perm (xs : List α) : (sortBy key xs).Perm xs := List.perm_insertionSort _ xs

theorem sortBy_sorted (xs : List α) : Sorted key (sortBy key xs) := by
  have : Std.Total fun a b : α => key a ≤ key b := ⟨fun a b => le_total (key a) (key b)⟩
  have : IsTrans α fun a b : α => key a ≤ key b := ⟨fun _ _ _ => le_trans⟩
  exact List.pairwise_insertionSort _ xs

theorem sortBy_of_sorted {xs : List α} (h : Sorted key xs) : sortBy key xs = xs :=
  List.Pairwise.insertionSort_eq h

theorem sortBy_strict {xs : List α} (h : (xs.map key).Nodup) :
    (sortBy key xs).Pairwise fun a b => key a < key b := by
  have hsorted : Sorted key (sortBy key xs) := sortBy_sorted xs
  have hperm : (sortBy key xs).Perm xs := sortBy_perm xs
  have hnodup := (hperm.map key).nodup_iff.mpr h
  exact hsorted.imp₂ (fun _ _ hle hne => lt_of_le_of_ne hle hne) (List.pairwise_map.mp hnodup)

/-- Where no key repeats, the sorted list is that of the elements alone. -/
theorem sortBy_eq_iff_perm {xs ys : List α} (h : (xs.map key).Nodup) :
    sortBy key xs = sortBy key ys ↔ xs.Perm ys := by
  constructor
  · intro heq
    exact (sortBy_perm xs).symm.trans (heq ▸ sortBy_perm ys)
  · intro hperm
    refine List.Perm.eq_of_pairwise (fun a b _ _ hab hba => absurd hab (lt_asymm hba))
      (sortBy_strict h) (sortBy_strict ((hperm.map key).nodup_iff.mp h)) ?_
    exact (sortBy_perm xs).trans (hperm.trans (sortBy_perm ys).symm)

@[simp] theorem insertBy_nil (a : α) : insertBy key a [] = [a] := rfl

theorem insertBy_le {a b : α} {xs : List α} (h : key a ≤ key b) :
    insertBy key a (b :: xs) = a :: b :: xs := if_pos h

theorem insertBy_not_le {a b : α} {xs : List α} (h : ¬ key a ≤ key b) :
    insertBy key a (b :: xs) = b :: insertBy key a xs := if_neg h

theorem sortBy_cons (a : α) (xs : List α) :
    sortBy key (a :: xs) = insertBy key a (sortBy key xs) := rfl

/-- The first of a stable sort has the least key, and of those with that key it
is listed first. -/
theorem sortBy_head {xs rest : List α} {w : α} (h : sortBy key xs = w :: rest) {y : α} (hy : y ∈ xs)
    (hne : y ≠ w) : key w < key y ∨ key w = key y ∧ [w, y].Sublist xs := by
  induction xs generalizing w rest with
  | nil => cases hy
  | cons a xs ih =>
    rw [sortBy_cons] at h
    cases hsorted : sortBy key xs with
    | nil =>
      have hempty : xs = [] := List.Perm.eq_nil (hsorted ▸ (sortBy_perm xs).symm)
      subst hempty
      obtain ⟨rfl, -⟩ := List.cons.inj h
      exact absurd (List.mem_singleton.mp hy) hne
    | cons b sorted =>
      rw [hsorted] at h
      by_cases hle : key a ≤ key b
      · rw [insertBy_le hle] at h
        obtain ⟨rfl, -⟩ := List.cons.inj h
        have hyin := (List.mem_cons.mp hy).resolve_left hne
        have hby : key b ≤ key y := by
          rcases List.mem_cons.mp (hsorted ▸ (sortBy_perm xs).mem_iff.mpr hyin) with rfl | hrest
          · exact le_rfl
          · exact (List.pairwise_cons.mp (hsorted ▸ sortBy_sorted xs)).1 y hrest
        refine (hle.trans hby).lt_or_eq.imp_right fun heq => ⟨heq, ?_⟩
        exact (List.singleton_sublist.mpr hyin).cons_cons a
      · rw [insertBy_not_le hle] at h
        obtain ⟨rfl, -⟩ := List.cons.inj h
        rcases List.mem_cons.mp hy with rfl | hyin
        · exact .inl (not_le.mp hle)
        · exact (ih hsorted hyin hne).imp_right (And.imp_right (List.Sublist.cons a))

/-! ## Merging -/

theorem mergeBy_cons_le {a b : α} {xs ys : List α} (h : key a ≤ key b) :
    mergeBy key (a :: xs) (b :: ys) = a :: mergeBy key xs (b :: ys) := by
  unfold mergeBy
  rw [List.cons_merge_cons_pos _ _ _ (by simpa using h)]

theorem mergeBy_cons_lt {a b : α} {xs ys : List α} (h : key b < key a) :
    mergeBy key (a :: xs) (b :: ys) = b :: mergeBy key (a :: xs) ys := by
  unfold mergeBy
  rw [List.cons_merge_cons_neg _ _ _ (by simpa using h)]

@[simp] theorem mergeBy_nil (xs : List α) : mergeBy key xs [] = xs := List.merge_right xs

@[simp] theorem nil_mergeBy (ys : List α) : mergeBy key [] ys = ys := List.nil_merge ys

theorem mergeBy_head {a : α} {xs ys : List α} (h : ∀ y ∈ ys, key a ≤ key y) :
    mergeBy key (a :: xs) ys = a :: mergeBy key xs ys := by
  cases ys with
  | nil => simp
  | cons y ys => exact mergeBy_cons_le (h y List.mem_cons_self)

theorem insertBy_eq_mergeBy (a : α) (ys : List α) :
    insertBy key a ys = mergeBy key [a] ys := by
  induction ys with
  | nil => simp
  | cons y ys ih =>
    by_cases h : key a ≤ key y
    · rw [insertBy_le h, mergeBy_cons_le h, nil_mergeBy]
    · rw [insertBy_not_le h, mergeBy_cons_lt (not_le.mp h), ih]

/-- Insertion in front of equals commutes with a merge that prefers the left. -/
theorem insertBy_mergeBy (a : α) : ∀ xs ys : List α,
    insertBy key a (mergeBy key xs ys) =
      mergeBy key (insertBy key a xs) ys
  | [], ys => by
    rw [nil_mergeBy, insertBy_eq_mergeBy, insertBy_nil]
  | x :: xs, [] => by simp
  | x :: xs, y :: ys => by
    by_cases hxy : key x ≤ key y
    · rw [mergeBy_cons_le hxy]
      by_cases hax : key a ≤ key x
      · rw [insertBy_le hax, insertBy_le hax,
          mergeBy_cons_le (hax.trans hxy), mergeBy_cons_le hxy]
      · rw [insertBy_not_le hax, insertBy_not_le hax,
          mergeBy_cons_le hxy, insertBy_mergeBy a xs (y :: ys)]
    · have hyx := not_le.mp hxy
      rw [mergeBy_cons_lt hyx]
      by_cases hay : key a ≤ key y
      · have hax : key a ≤ key x := hay.trans hyx.le
        rw [insertBy_le hay, insertBy_le hax,
          mergeBy_cons_le hay, mergeBy_cons_lt hyx]
      · rw [insertBy_not_le hay, insertBy_mergeBy a (x :: xs) ys]
        by_cases hax : key a ≤ key x
        · rw [insertBy_le hax, mergeBy_cons_lt (not_le.mp hay)]
        · rw [insertBy_not_le hax, mergeBy_cons_lt hyx]

/-- **Sorting a concatenation** merges the sorted halves. -/
theorem sortBy_append (xs ys : List α) :
    sortBy key (xs ++ ys) = mergeBy key (sortBy key xs) (sortBy key ys) := by
  induction xs with
  | nil =>
    rw [List.nil_append, show sortBy key ([] : List α) = [] from rfl, nil_mergeBy]
  | cons x xs ih => rw [List.cons_append, sortBy_cons, sortBy_cons, ih, insertBy_mergeBy]

/-! ## Filtering -/

theorem filter_insertBy (p : α → Bool) (a : α) {xs : List α} (h : Sorted key xs) :
    (insertBy key a xs).filter p =
      if p a then insertBy key a (xs.filter p) else xs.filter p := by
  induction xs with
  | nil => by_cases hp : p a <;> simp [hp]
  | cons x xs ih =>
    obtain ⟨hx, hxs⟩ := List.pairwise_cons.mp h
    by_cases hax : key a ≤ key x
    · rw [insertBy_le hax]
      -- `a` also comes first among the elements kept
      have hfront : ∀ zs : List α, (∀ z ∈ zs, key a ≤ key z) →
          insertBy key a zs = a :: zs := by
        intro zs hz
        cases zs with
        | nil => rfl
        | cons z zs => exact insertBy_le (hz z List.mem_cons_self)
      rw [List.filter_cons]
      split
      · rw [hfront]
        intro z hz
        rcases List.mem_cons.mp (List.mem_of_mem_filter hz) with he | hm
        · rw [he]
          exact hax
        · exact hax.trans (hx z hm)
      · rfl
    · rw [insertBy_not_le hax, List.filter_cons, ih hxs]
      by_cases hpx : p x <;> by_cases hpa : p a <;>
        simp [hpx, hpa, insertBy_not_le hax]

/-- Sorting commutes with dropping elements. -/
theorem sortBy_filter (p : α → Bool) (xs : List α) :
    sortBy key (xs.filter p) = (sortBy key xs).filter p := by
  induction xs with
  | nil => rfl
  | cons x xs ih =>
    have hins := filter_insertBy p x (sortBy_sorted xs : Sorted key (sortBy key xs))
    rw [sortBy_cons, hins, List.filter_cons, ← ih]
    split
    · rfl
    · rfl

/-! ## Two sources -/

section Sources
variable [DecidableEq ι] (ident : α → ι)

/-- No two elements share an identity. -/
def Distinct (xs : List α) : Prop := xs.Pairwise fun a b => ident a ≠ ident b

/-- The elements of `ys` whose identity `xs` does not hold. -/
def unseen (xs ys : List α) : List α :=
  ys.filter fun y => !xs.any fun x => decide (ident x = ident y)

/-- The second source adds what the first does not hold. -/
def union (xs ys : List α) : List α := xs ++ unseen ident xs ys

variable (key) in
/-- The queue of both sources, each cut to `n` before the merge and after it. -/
def window (n : Nat) (xs ys : List α) : List α :=
  (sortBy key (union ident ((sortBy key xs).take n) ((sortBy key ys).take n))).take n

variable {ident}

theorem mem_unseen {xs ys : List α} {y : α} :
    y ∈ unseen ident xs ys ↔ y ∈ ys ∧ ∀ x ∈ xs, ident x ≠ ident y := by
  simp [unseen]

omit [DecidableEq ι] in
/-- One identity, one element. -/
theorem Distinct.eq {xs : List α} (h : Distinct ident xs) {a b : α} (ha : a ∈ xs) (hb : b ∈ xs)
    (he : ident a = ident b) : a = b := by
  have : Std.Symm fun a b : α => ident a ≠ ident b := ⟨fun _ _ hne => hne.symm⟩
  by_contra hne
  exact h.forall ha hb hne he

theorem unseen_cons (x : α) (xs ys : List α) :
    unseen ident (x :: xs) ys =
      unseen ident xs (ys.filter fun y => !decide (ident x = ident y)) := by
  unfold unseen
  rw [List.filter_filter]
  refine List.filter_congr fun y _ => ?_
  simp [Bool.and_comm]

theorem Distinct.length_filter {xs : List α} (h : Distinct ident xs) (i : ι) :
    xs.length ≤ (xs.filter fun y => !decide (i = ident y)).length + 1 := by
  induction xs with
  | nil => simp
  | cons x xs ih =>
    obtain ⟨hx, hxs⟩ := List.pairwise_cons.mp h
    by_cases hi : i = ident x
    · have hall : xs.filter (fun y => !decide (i = ident y)) = xs := by
        refine List.filter_eq_self.mpr fun y hy => ?_
        have hne : i ≠ ident y := hi ▸ hx y hy
        simp [hne]
      simp [hi ▸ hall, hi]
    · have hlen := ih hxs
      simp only [List.filter_cons, hi, decide_false, Bool.not_false, if_true, List.length_cons]
      omega

/-- Dropping one identity from a prefix leaves a prefix, shorter by one at most. -/
theorem filter_take {xs : List α} (h : Distinct ident xs) (i : ι) {n p : Nat} (hp : n + 1 ≤ p) :
    ∃ p', n ≤ p' ∧ (xs.take p).filter (fun y => !decide (i = ident y)) =
      (xs.filter fun y => !decide (i = ident y)).take p' := by
  by_cases hlen : p ≤ xs.length
  · have hpre : ((xs.take p).filter fun y => !decide (i = ident y)).IsPrefix
        (xs.filter fun y => !decide (i = ident y)) := (List.take_prefix p xs).filter _
    have hdist : Distinct ident (xs.take p) := h.sublist (List.take_sublist p xs)
    have hcount := hdist.length_filter i
    rw [List.length_take, Nat.min_eq_left hlen] at hcount
    exact ⟨_, by omega, List.prefix_iff_eq_take.mp hpre⟩
  · refine ⟨p, by omega, ?_⟩
    have hfl := List.length_filter_le (fun y => !decide (i = ident y)) xs
    rw [List.take_of_length_le (by omega), List.take_of_length_le (by omega)]

/-- Elements of one identity have one key. -/
def Agree (key : α → κ) (ident : α → ι) (xs ys : List α) : Prop :=
  ∀ x ∈ xs, ∀ y ∈ ys, ident x = ident y → key x = key y

omit [DecidableEq ι] in
/-- A key below every key of a source is a new identity there. -/
theorem Agree.new_of_lt {xs ys : List α} {y : α} (h : Agree key ident xs ys) (hy : y ∈ ys)
    (hlt : ∀ x ∈ xs, key y < key x) : ∀ x ∈ xs, ident x ≠ ident y :=
  fun x hx he => absurd (h x hx y hy he) (ne_of_gt (hlt x hx))

theorem unseen_cons_new {xs ys : List α} {y : α} (h : ∀ x ∈ xs, ident x ≠ ident y) :
    unseen ident xs (y :: ys) = y :: unseen ident xs ys := by
  unfold unseen
  rw [List.filter_cons, if_pos]
  simpa using h

/-- The head of the merge needs the heads of its sources only. The induction is
on how many elements are asked for. -/
theorem take_merge_unseen : ∀ (n : Nat) {xs ys : List α}, Sorted key xs → Sorted key ys →
    Distinct ident ys → Agree key ident xs ys → ∀ {m p : Nat}, n ≤ m → n ≤ p →
    (mergeBy key (xs.take m) (unseen ident (xs.take m) (ys.take p))).take n =
      (mergeBy key xs (unseen ident xs ys)).take n
  | 0, _, _, _, _, _, _, _, _, _, _ => by simp
  | n + 1, [], ys, _, _, _, _, m, p, _, hp => by
    simp only [List.take_nil, nil_mergeBy, unseen, List.any_nil, Bool.not_false, List.filter_true]
    rw [List.take_take, Nat.min_eq_left hp]
  | n + 1, xs, [], _, _, _, _, m, p, hm, _ => by
    simp only [List.take_nil, unseen, List.filter_nil, mergeBy_nil]
    rw [List.take_take, Nat.min_eq_left hm]
  | n + 1, x :: xs, y :: ys, hxs, hys, hdist, hagree, m + 1, p + 1, hm, hp => by
    obtain ⟨hx, hxs'⟩ := List.pairwise_cons.mp hxs
    obtain ⟨hy, hys'⟩ := List.pairwise_cons.mp hys
    by_cases hxy : key x ≤ key y
    · -- the first source goes first; its identity disappears from the second
      have hle : ∀ zs : List α, (∀ z ∈ zs, z ∈ y :: ys) → ∀ z ∈ zs, key x ≤ key z := by
        intro zs hsub z hz
        rcases List.mem_cons.mp (hsub z hz) with he | hmem
        · rw [he]
          exact hxy
        · exact hxy.trans (hy z hmem)
      obtain ⟨p', hp', hcut⟩ := filter_take hdist (ident x) (n := n) hp
      rw [List.take_succ_cons, unseen_cons, unseen_cons, hcut,
        mergeBy_head (hle _ fun z hz => ?_), mergeBy_head (hle _ fun z hz => ?_),
        List.take_succ_cons, List.take_succ_cons]
      · congr 1
        refine take_merge_unseen n hxs' (hys.sublist List.filter_sublist)
          (hdist.sublist List.filter_sublist) ?_ (by omega) hp'
        intro a ha b hb
        exact hagree a (List.mem_cons_of_mem _ ha) b (List.mem_of_mem_filter hb)
      · exact List.mem_of_mem_filter (List.mem_of_mem_filter hz)
      · exact List.mem_of_mem_filter (List.mem_of_mem_take (List.mem_of_mem_filter hz))
    · -- the second source goes first: a smaller key is a new identity
      have hyx := not_le.mp hxy
      have hnew : ∀ a ∈ x :: xs, ident a ≠ ident y := by
        refine hagree.new_of_lt List.mem_cons_self fun a ha => ?_
        rcases List.mem_cons.mp ha with heq | hmem
        · rw [heq]
          exact hyx
        · exact hyx.trans_le (hx a hmem)
      rw [List.take_succ_cons, List.take_succ_cons, unseen_cons_new hnew, unseen_cons_new,
        mergeBy_cons_lt hyx, mergeBy_cons_lt hyx, List.take_succ_cons, List.take_succ_cons]
      · congr 1
        have ih := take_merge_unseen n hxs hys' (List.pairwise_cons.mp hdist).2
          (fun a ha b hb => hagree a ha b (List.mem_cons_of_mem _ hb))
          (m := m + 1) (p := p) (by omega) (by omega)
        rwa [List.take_succ_cons] at ih
      · intro z hz
        refine hnew z ?_
        rcases List.mem_cons.mp hz with he | hmem
        · rw [he]
          exact List.mem_cons_self
        · exact List.mem_cons_of_mem _ (List.mem_of_mem_take hmem)

omit [DecidableEq ι] in
theorem Distinct.sortBy {xs : List α} (h : Distinct ident xs) :
    Distinct ident (StableSort.sortBy key xs) :=
  (sortBy_perm xs).symm.pairwise h fun hne => hne.symm

/-- **The window of two sources** is the head of their whole queue. -/
theorem window_eq_take {xs ys : List α} (hdist : Distinct ident ys) (hagree : Agree key ident xs ys)
    (n : Nat) : window key ident n xs ys = (sortBy key (union ident xs ys)).take n := by
  have hsort : ∀ zs : List α, Sorted key (sortBy key zs) := fun zs => sortBy_sorted zs
  have hagree' : Agree key ident (sortBy key xs) (sortBy key ys) := fun a ha b hb =>
    hagree a ((sortBy_perm xs).mem_iff.mp ha) b ((sortBy_perm ys).mem_iff.mp hb)
  have hseen : unseen ident (sortBy key xs) (sortBy key ys) =
      sortBy key (unseen ident xs ys) := by
    unfold unseen
    rw [sortBy_filter]
    refine List.filter_congr fun y _ => ?_
    rw [(sortBy_perm xs).any_eq]
  -- cutting and filtering leave both halves sorted
  have hleft : sortBy key ((sortBy key xs).take n) = (sortBy key xs).take n :=
    sortBy_of_sorted ((hsort xs).sublist (List.take_sublist n _))
  have hright : sortBy key (unseen ident ((sortBy key xs).take n) ((sortBy key ys).take n)) =
      unseen ident ((sortBy key xs).take n) ((sortBy key ys).take n) :=
    sortBy_of_sorted (((hsort ys).sublist (List.take_sublist n _)).sublist List.filter_sublist)
  unfold window union
  rw [sortBy_append, sortBy_append, hleft, hright, ← hseen]
  exact take_merge_unseen n (hsort xs) (hsort ys) hdist.sortBy hagree' (le_refl n) (le_refl n)

/-- Dropping identities from both sources drops them from the queue. -/
theorem union_filter (ident : α → ι) (keep : ι → Bool) (xs ys : List α) :
    union ident (xs.filter fun a => keep (ident a)) (ys.filter fun a => keep (ident a)) =
      (union ident xs ys).filter fun a => keep (ident a) := by
  unfold union unseen
  rw [List.filter_append, List.filter_filter, List.filter_filter]
  congr 1
  refine List.filter_congr fun y _ => ?_
  cases hk : keep (ident y) with
  | false => simp
  | true =>
    have hany : (xs.filter fun a => keep (ident a)).any (fun x => decide (ident x = ident y)) =
        xs.any fun x => decide (ident x = ident y) := by
      rw [List.any_filter]
      refine List.any_congr rfl fun x => ?_
      by_cases he : ident x = ident y
      · simp [he, hk]
      · simp [he]
    rw [hany]
    simp

theorem Distinct.union {xs ys : List α} (hx : Distinct ident xs) (hy : Distinct ident ys) :
    Distinct ident (union ident xs ys) := by
  refine List.pairwise_append.mpr ⟨hx, hy.sublist List.filter_sublist, ?_⟩
  intro a ha b hb
  exact (mem_unseen.mp hb).2 a ha

end Sources

/-! ## Positions -/

section Positions
variable [DecidableEq α] {l : List α} {w : α}

/-- In a sorted list what is less stands before, what is greater after. -/
theorem idxOf_bounds (hsorted : Sorted key l) (hnodup : l.Nodup) (hw : w ∈ l) :
    l.countP (key · < key w) ≤ l.idxOf w ∧ l.idxOf w < l.countP (key · ≤ key w) := by
  obtain ⟨before, after, rfl⟩ := List.append_of_mem hw
  have hout : w ∉ before := fun h => (List.nodup_append.mp hnodup).2.2 w h w (by simp) rfl
  have hbefore : ∀ i ∈ before, key i ≤ key w := fun i hi =>
    (List.pairwise_append.mp hsorted).2.2 i hi w (by simp)
  have hafter : ∀ i ∈ after, key w ≤ key i := fun i hi =>
    List.rel_of_pairwise_cons (List.pairwise_append.mp hsorted).2.1 hi
  have hidx : (before ++ w :: after).idxOf w = before.length := by
    rw [List.idxOf_append_of_notMem hout, List.idxOf_cons_self, Nat.add_zero]
  rw [hidx]
  constructor
  · have hnone : (w :: after).countP (key · < key w) = 0 := by
      refine List.countP_eq_zero.mpr fun i hi => ?_
      rcases List.mem_cons.mp hi with rfl | hi
      · simp
      · simpa using hafter i hi
    rw [List.countP_append, hnone, Nat.add_zero]
    exact List.countP_le_length
  · have hall : before.countP (key · ≤ key w) = before.length :=
      List.countP_eq_length.mpr fun i hi => by simpa using hbefore i hi
    rw [List.countP_append, hall, List.countP_cons_of_pos (by simp)]
    omega

theorem countP_le_eq (hnodup : l.Nodup) (hw : w ∈ l) (huniq : ∀ i ∈ l, key i = key w → i = w) :
    l.countP (key · ≤ key w) = l.countP (key · < key w) + 1 := by
  have hsame : l.countP (key · ≤ key w) = l.countP fun i => key i < key w ∨ i = w :=
    List.countP_congr fun i hi => by
      simp only [decide_eq_true_eq, le_iff_lt_or_eq]
      exact or_congr_right ⟨huniq i hi, fun h => h ▸ rfl⟩
  obtain ⟨before, after, rfl⟩ := List.append_of_mem hw
  have hout : ∀ i ∈ before ++ after, i ≠ w := fun i hi heq =>
    (List.nodup_middle.mp hnodup).notMem (heq ▸ hi)
  have hrest : ∀ rest : List α, (∀ i ∈ rest, i ≠ w) →
      rest.countP (fun i => key i < key w ∨ i = w) = rest.countP (key · < key w) :=
    fun rest hne => List.countP_congr fun i hi => by simp [hne i hi]
  rw [hsame, List.countP_append, List.countP_append, List.countP_cons_of_pos (by simp),
    List.countP_cons_of_neg (by simp), hrest before fun i hi => hout i (by simp [hi]),
    hrest after fun i hi => hout i (by simp [hi])]
  omega

/-- A key that no other element has is preceded by exactly the lesser ones. -/
theorem idxOf_eq_countP (hsorted : Sorted key l) (hnodup : l.Nodup) (hw : w ∈ l)
    (huniq : ∀ i ∈ l, key i = key w → i = w) : l.idxOf w = l.countP (key · < key w) := by
  have hbounds := idxOf_bounds hsorted hnodup hw
  rw [countP_le_eq hnodup hw huniq] at hbounds
  omega

end Positions

end TradingPlatform.Lib.StableSort
