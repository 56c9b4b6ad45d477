import TradingPlatform.Lib.Dict
import Mathlib.Data.List.Chain
import Mathlib.Data.List.Infix
import Mathlib.Data.Nat.Find

/-! # Cutting a list at given positions

`chunks cut xs` starts a new chunk at every position where `cut` holds. The
chunks before a cut are settled: more elements leave them as they are. -/

namespace TradingPlatform.Lib

variable {α κ : Type*}

section
variable (cut : ℕ → Prop) [DecidablePred cut]

/-- One more element, at position `i`. -/
def pushChunk (acc : List (List α)) (x : α) (i : ℕ) : List (List α) :=
  match acc.getLast? with
  | none => [[x]]
  | some last => if cut i then acc ++ [[x]] else acc.dropLast ++ [last ++ [x]]

def chunks (xs : List α) : List (List α) :=
  xs.zipIdx.foldl (fun acc p => pushChunk cut acc p.1 p.2) []

@[simp] theorem chunks_nil : chunks cut ([] : List α) = [] := rfl

theorem chunks_concat (xs : List α) (x : α) :
    chunks cut (xs ++ [x]) = pushChunk cut (chunks cut xs) x xs.length := by
  rw [chunks, List.zipIdx_append, List.foldl_append]
  simp [chunks]

theorem pushChunk_concat (acc : List (List α)) (last : List α) (x : α) (i : ℕ) :
    pushChunk cut (acc ++ [last]) x i =
      if cut i then acc ++ [last] ++ [[x]] else acc ++ [last ++ [x]] := by
  simp [pushChunk]

theorem chunks_ne_nil {xs : List α} (h : xs ≠ []) : chunks cut xs ≠ [] := by
  obtain ⟨ys, y, rfl⟩ := List.eq_nil_or_concat xs |>.resolve_left h
  rw [List.concat_eq_append, chunks_concat]
  unfold pushChunk
  split
  · simp
  · split <;> simp

@[simp] theorem flatten_chunks (xs : List α) : (chunks cut xs).flatten = xs := by
  induction xs using List.reverseRecOn with
  | nil => rfl
  | append_singleton xs x ih =>
    rw [chunks_concat]
    rcases List.eq_nil_or_concat (chunks cut xs) with h | ⟨acc, last, h⟩
    · rw [h] at ih ⊢
      rw [← ih]
      rfl
    · rw [List.concat_eq_append] at h
      rw [h] at ih
      rw [h, pushChunk_concat]
      split
      · rw [List.flatten_append, ih, List.flatten_singleton]
      · rw [← ih]
        simp

theorem nil_notMem_chunks (xs : List α) : [] ∉ chunks cut xs := by
  induction xs using List.reverseRecOn with
  | nil => simp
  | append_singleton xs x ih =>
    rw [chunks_concat]
    rcases List.eq_nil_or_concat (chunks cut xs) with h | ⟨acc, last, h⟩
    · simp [h, pushChunk]
    · rw [List.concat_eq_append] at h
      rw [h] at ih
      rw [h, pushChunk_concat]
      split <;> simp_all

/-- A list cut at the end of `ys` is cut on both sides on its own. -/
theorem chunks_append (ys zs : List α) (h : cut ys.length ∨ ys = []) :
    chunks cut (ys ++ zs) = chunks cut ys ++ chunks (fun i => cut (i + ys.length)) zs := by
  induction zs using List.reverseRecOn with
  | nil => simp
  | append_singleton zs z ih =>
    rw [← List.append_assoc, chunks_concat, ih, chunks_concat, List.length_append]
    rcases List.eq_nil_or_concat (chunks (fun i => cut (i + ys.length)) zs) with
      hz | ⟨acc, last, hz⟩
    · obtain rfl : zs = [] := by
        by_contra hne
        exact chunks_ne_nil _ hne hz
      rw [hz, List.append_nil, List.length_nil, Nat.add_zero]
      rcases List.eq_nil_or_concat (chunks cut ys) with hy | ⟨acc, last, hy⟩
      · simp [hy, pushChunk]
      · rw [List.concat_eq_append] at hy
        have hcut : cut ys.length := h.resolve_right fun hnil => by simp [hnil] at hy
        rw [hy, pushChunk_concat, if_pos hcut]
        simp [pushChunk]
    · rw [List.concat_eq_append] at hz
      rw [hz, ← List.append_assoc, pushChunk_concat, pushChunk_concat, Nat.add_comm]
      split <;> simp

/-- Neighbours without a cut between them. -/
def Joined (R : α → α → Prop) (xs : List α) : Prop :=
  ∀ i a b, xs[i]? = some a → xs[i + 1]? = some b → ¬ cut (i + 1) → R a b

omit [DecidablePred cut] in
theorem joined_concat {R : α → α → Prop} {pre : List α} {z x : α} :
    Joined cut R (pre ++ [z] ++ [x]) ↔
      Joined cut R (pre ++ [z]) ∧ (¬ cut (pre.length + 1) → R z x) := by
  have hz : (pre ++ [z] ++ [x])[pre.length]? = some z := by simp
  have hx : (pre ++ [z] ++ [x])[pre.length + 1]? = some x := by simp
  have hkeep : ∀ j, j ≤ pre.length → (pre ++ [z] ++ [x])[j]? = (pre ++ [z])[j]? := fun j hj =>
    List.getElem?_append_left (by simp; omega)
  constructor
  · intro h
    refine ⟨fun i a b ha hb => ?_, h pre.length z x hz hx⟩
    have hi : i + 1 < (pre ++ [z]).length := (List.getElem?_eq_some_iff.mp hb).1
    rw [List.length_append, List.length_singleton] at hi
    exact h i a b ((hkeep i (by omega)).trans ha) ((hkeep (i + 1) (by omega)).trans hb)
  · rintro ⟨hold, hnew⟩ i a b ha hb hcut
    have hi : i + 1 < (pre ++ [z] ++ [x]).length := (List.getElem?_eq_some_iff.mp hb).1
    rw [List.length_append, List.length_append, List.length_singleton, List.length_singleton] at hi
    rcases Nat.lt_or_ge i pre.length with hlt | hge
    · rw [hkeep i hlt.le] at ha
      rw [hkeep (i + 1) hlt] at hb
      exact hold i a b ha hb hcut
    · obtain rfl : i = pre.length := by omega
      rw [hz, Option.some.injEq] at ha
      rw [hx, Option.some.injEq] at hb
      subst ha hb
      exact hnew hcut

/-- The chunks are chains exactly where neighbours without a cut are related. -/
theorem isChain_chunks_iff {R : α → α → Prop} {xs : List α} :
    (∀ g ∈ chunks cut xs, g.IsChain R) ↔ Joined cut R xs := by
  induction xs using List.reverseRecOn with
  | nil => simp [Joined]
  | append_singleton xs x ih =>
    rw [chunks_concat]
    rcases List.eq_nil_or_concat (chunks cut xs) with h | ⟨acc, last, h⟩
    · obtain rfl : xs = [] := by
        by_contra hne
        exact chunks_ne_nil cut hne h
      simp [pushChunk, Joined]
    · rw [List.concat_eq_append] at h
      have hne : last ≠ [] := fun hnil => nil_notMem_chunks cut xs (by simp [h, hnil])
      obtain ⟨pre, z, rfl⟩ := List.eq_nil_or_concat last |>.resolve_left hne
      rw [List.concat_eq_append] at h
      have hflat := flatten_chunks cut xs
      rw [h, List.flatten_append, List.flatten_singleton, ← List.append_assoc] at hflat
      rw [h] at ih ⊢
      rw [← hflat] at ih ⊢
      have hlen : (acc.flatten ++ pre ++ [z]).length = (acc.flatten ++ pre).length + 1 :=
        List.length_append
      rw [joined_concat, ← ih, pushChunk_concat, hlen]
      have hsplit : (pre ++ [z] ++ [x]).IsChain R ↔ (pre ++ [z]).IsChain R ∧ R z x := by
        rw [List.append_assoc, List.singleton_append, List.isChain_split, List.isChain_pair]
      split_ifs with hcut
      · rw [List.forall_mem_append, List.forall_mem_singleton]
        exact and_congr_right fun _ => iff_of_true (.singleton x) (absurd hcut)
      · rw [List.forall_mem_append, List.forall_mem_singleton, List.forall_mem_append,
          List.forall_mem_singleton, hsplit, and_assoc]
        exact and_congr_right fun _ => and_congr_right fun _ => (imp_iff_right hcut).symm

/-- Without a cut inside, a list is one chunk. -/
theorem chunks_eq_singleton {xs : List α} (hne : xs ≠ [])
    (h : ∀ i, 0 < i → i < xs.length → ¬ cut i) : chunks cut xs = [xs] := by
  induction xs using List.reverseRecOn with
  | nil => exact absurd rfl hne
  | append_singleton xs x ih =>
    rw [chunks_concat]
    by_cases hx : xs = []
    · subst hx
      rfl
    · rw [ih hx fun i hi hlt => h i hi (by simp; omega)]
      have hcut : ¬ cut xs.length := h _ (List.length_pos_iff.2 hx) (by simp)
      exact (pushChunk_concat cut [] xs x _).trans (if_neg hcut)

/-- Only the cuts inside the list matter. -/
theorem chunks_congr {cut' : ℕ → Prop} [DecidablePred cut'] {xs : List α}
    (h : ∀ i, 0 < i → i < xs.length → (cut i ↔ cut' i)) : chunks cut xs = chunks cut' xs := by
  induction xs using List.reverseRecOn with
  | nil => rfl
  | append_singleton xs x ih =>
    have hxs : ∀ i, 0 < i → i < xs.length → (cut i ↔ cut' i) := fun i hi hlt =>
      h i hi (by simp; omega)
    rw [chunks_concat, chunks_concat, ih hxs]
    by_cases hnil : xs = []
    · subst hnil
      rfl
    · have hlast := h xs.length (List.length_pos_iff.2 hnil) (by simp)
      unfold pushChunk
      simp only [hlast]

/-- The chunks but the last are those of the elements before the last cut. -/
theorem exists_dropLast_chunks {xs : List α} (hne : xs ≠ []) :
    ∃ last < xs.length, (cut last ∨ last = 0) ∧ (∀ i, last < i → i < xs.length → ¬ cut i) ∧
      (chunks cut xs).dropLast = chunks cut (xs.take last) := by
  have hpos := List.length_pos_iff.2 hne
  let last := Nat.findGreatest (fun i => cut i ∨ i = 0) (xs.length - 1)
  have hlast : cut last ∨ last = 0 :=
    Nat.findGreatest_spec (P := fun i => cut i ∨ i = 0) (Nat.zero_le _) (.inr rfl)
  have hle : last ≤ xs.length - 1 := Nat.findGreatest_le _
  have hafter : ∀ i, last < i → i < xs.length → ¬ cut i := by
    intro i hi hlt hcut
    exact Nat.findGreatest_is_greatest hi (by omega) (.inl hcut)
  refine ⟨last, by omega, hlast, hafter, ?_⟩
  have hlen : (xs.take last).length = last := by
    rw [List.length_take]
    omega
  have hrest : xs.drop last ≠ [] := by
    rw [Ne, List.drop_eq_nil_iff]
    omega
  have hsplit := chunks_append cut (xs.take last) (xs.drop last)
    (by rw [hlen]; exact hlast.imp_right fun h0 => by rw [h0, List.take_zero])
  rw [List.take_append_drop, chunks_eq_singleton _ hrest] at hsplit
  · rw [hsplit, List.dropLast_concat]
  · intro i hi hlt
    rw [List.length_drop] at hlt
    rw [hlen]
    exact hafter _ (by omega) (by omega)

/-- Where whole chunks end inside the list, there is a cut. -/
theorem cut_of_prefix {xs : List α} {pre : List (List α)} (h : pre <+: chunks cut xs)
    (hpos : 0 < pre.flatten.length) (hlt : pre.flatten.length < xs.length) :
    cut pre.flatten.length := by
  induction xs using List.reverseRecOn with
  | nil => simp at hlt
  | append_singleton xs x ih =>
    rw [chunks_concat] at h
    rw [List.length_append, List.length_singleton] at hlt
    rcases List.eq_nil_or_concat (chunks cut xs) with hc | ⟨acc, last, hc⟩
    · obtain rfl : xs = [] := by
        by_contra hne
        exact chunks_ne_nil _ hne hc
      rw [List.length_nil] at hlt
      omega
    · rw [List.concat_eq_append] at hc
      have hflat := flatten_chunks cut xs
      rw [hc] at hflat
      rw [hc, pushChunk_concat] at h
      split at h
      · rename_i hcut
        rcases List.prefix_concat_iff.1 h with hwhole | hpre
        · rw [hwhole, List.flatten_append, hflat] at hlt
          simp at hlt
        · have hle := List.IsPrefix.length_le (List.IsPrefix.flatten hpre)
          rw [hflat] at hle
          rcases Nat.lt_or_eq_of_le hle with hlt' | heq
          · exact ih (hc ▸ hpre) hlt'
          · rw [heq]
            exact hcut
      · rcases List.prefix_concat_iff.1 h with hwhole | hpre
        · rw [hwhole, List.flatten_append, List.flatten_singleton, ← List.append_assoc,
            ← List.flatten_singleton (l := last), ← List.flatten_append, hflat] at hlt
          simp at hlt
        · have hmem : last ∈ chunks cut xs := by rw [hc]; simp
          have hlast : last ≠ [] := fun hnil => nil_notMem_chunks cut xs (hnil ▸ hmem)
          have hle := List.IsPrefix.length_le (List.IsPrefix.flatten hpre)
          have hlen := congrArg List.length hflat
          rw [List.flatten_append, List.flatten_singleton, List.length_append] at hlen
          have := List.length_pos_iff.2 hlast
          exact ih (hc ▸ hpre.trans (List.prefix_append acc [last])) (by omega)

theorem chunks_take_of_cut {xs : List α} {i : ℕ} (h : cut i) (hi : i ≤ xs.length) :
    chunks cut (xs.take i) <+: chunks cut xs := by
  have hlen : (xs.take i).length = i := by
    rw [List.length_take]
    omega
  have hsplit := chunks_append cut (xs.take i) (xs.drop i) (.inl (by rw [hlen]; exact h))
  rw [List.take_append_drop] at hsplit
  rw [hsplit]
  exact List.prefix_append ..

end

/-- Chunks that begin another list's chunks come from the same cuts. -/
theorem cut_iff_of_prefix {cut cut' : ℕ → Prop} [DecidablePred cut] [DecidablePred cut']
    {xs ys : List α} (h : chunks cut ys <+: chunks cut' xs) {i : ℕ} (hi : 0 < i)
    (hlt : i < ys.length) : cut i ↔ cut' i := by
  have hle : ys.length ≤ xs.length := by
    simpa using List.IsPrefix.length_le (List.IsPrefix.flatten h)
  have htake : ∀ zs : List α, i ≤ zs.length → (zs.take i).length = i := by
    intro zs hz
    rw [List.length_take]
    omega
  constructor
  · intro hcut
    have hpre := (chunks_take_of_cut cut hcut hlt.le).trans h
    have hflat : (chunks cut (ys.take i)).flatten.length = i := by
      rw [flatten_chunks, htake ys hlt.le]
    rw [← hflat]
    exact cut_of_prefix cut' hpre (by omega) (by omega)
  · intro hcut
    have hpre := chunks_take_of_cut cut' hcut (show i ≤ xs.length by omega)
    have hflat : (chunks cut' (xs.take i)).flatten.length = i := by
      rw [flatten_chunks, htake xs (by omega)]
    rcases List.prefix_or_prefix_of_prefix hpre h with hp | hp
    · rw [← hflat]
      exact cut_of_prefix cut hp (by omega) (by omega)
    · have := List.IsPrefix.length_le (List.IsPrefix.flatten hp)
      rw [flatten_chunks, flatten_chunks, htake xs (by omega)] at this
      omega

/-- The complete chunks of a prefix stay exactly when both ways of cutting agree up to every cut
inside the prefix. -/
theorem dropLast_chunks_prefix_iff {cut cut' : ℕ → Prop} [DecidablePred cut]
    [DecidablePred cut'] {xs : List α} {k : ℕ} :
    (chunks cut (xs.take k)).dropLast <+: chunks cut' xs ↔
      ∀ j < k, j < xs.length → cut j → ∀ i ≤ j, 0 < i → (cut i ↔ cut' i) := by
  have hlen : (xs.take k).length = min k xs.length := List.length_take
  by_cases hnil : xs.take k = []
  · rw [hnil]
    refine iff_of_true List.nil_prefix fun j hj hlt => ?_
    rw [hnil, List.length_nil] at hlen
    omega
  obtain ⟨last, hlast, hstart, hafter, hdrop⟩ := exists_dropLast_chunks cut hnil
  have hlastLen : ((xs.take k).take last).length = last := by
    rw [List.length_take]
    omega
  rw [hdrop]
  constructor
  · intro hpre j hjk hj hcut i hij hi
    have hjlast : j ≤ last := by
      by_contra hlt
      exact hafter j (by omega) (by omega) hcut
    rw [List.take_take, Nat.min_eq_left (by omega)] at hpre hlastLen
    rcases Nat.lt_or_eq_of_le (hij.trans hjlast) with hlt | rfl
    · exact cut_iff_of_prefix hpre hi (by omega)
    · -- the last chunk of the prefix starts where the complete ones end
      have hend := cut_of_prefix cut' hpre
        (by rw [flatten_chunks]; omega) (by rw [flatten_chunks]; omega)
      rw [flatten_chunks, hlastLen] at hend
      exact iff_of_true (hstart.resolve_right (by omega)) hend
  · intro h
    rw [List.take_take, Nat.min_eq_left (by omega)]
    rcases Nat.eq_zero_or_pos last with rfl | hpos
    · rw [List.take_zero]
      exact List.nil_prefix
    · have hcutLast := hstart.resolve_right (by omega)
      have hsame := h last (by omega) (by omega) hcutLast
      rw [chunks_congr cut fun i hi hlt => hsame i (by rw [List.length_take] at hlt; omega) hi]
      exact chunks_take_of_cut cut' ((hsame last le_rfl hpos).1 hcutLast) (by omega)

/-- Lists of lists that run along the same elements are told apart by what gives their lengths. -/
theorem prefix_of_map_prefix {β : Type*} (f : List α → β) {gs hs : List (List α)}
    (hf : ∀ g ∈ gs, ∀ h ∈ hs, f g = f h → g.length = h.length)
    (hflat : gs.flatten <+: hs.flatten) (hmap : gs.map f <+: hs.map f) : gs <+: hs := by
  induction gs generalizing hs with
  | nil => exact List.nil_prefix
  | cons g gs ih =>
    cases hs with
    | nil => simp at hmap
    | cons h hs =>
      rw [List.map_cons, List.map_cons, List.cons_prefix_cons] at hmap
      obtain ⟨hhead, hrest⟩ := hmap
      have hlen := hf g List.mem_cons_self h List.mem_cons_self hhead
      rw [List.flatten_cons, List.flatten_cons] at hflat
      obtain ⟨rest, hrest'⟩ := hflat
      rw [List.append_assoc] at hrest'
      obtain ⟨rfl, htail⟩ := List.append_inj hrest' hlen
      have hf' : ∀ a ∈ gs, ∀ b ∈ hs, f a = f b → a.length = b.length := fun a ha b hb =>
        hf a (List.mem_cons_of_mem _ ha) b (List.mem_cons_of_mem _ hb)
      exact List.cons_prefix_cons.2 ⟨rfl, ih hf' ⟨rest, htail⟩ hrest⟩

/-! ## Groups of a key that never comes back -/

section Groups
variable [DecidableEq κ] {key : ℕ → κ}

/-- What a dictionary of groups holds after the positions of `xs`: the keys seen are those of
the positions, the last of them that of the last position, and its values are chunks. -/
structure GroupedUpTo (key : ℕ → κ) (xs : List α) (d : Dict κ (List (α × ℕ))) : Prop where
  seen : ∀ k ∈ d.items.map Prod.fst, ∃ j < xs.length, key j = k
  last : xs ≠ [] → ∃ init cur, d.items = init ++ [(key (xs.length - 1), cur)]
  values : d.items.map (·.2.map Prod.fst) = chunks (fun i => key (i - 1) ≠ key i) xs

namespace GroupedUpTo
variable {xs : List α} {d : Dict κ (List (α × ℕ))} {x : α}

theorem seen_set (h : GroupedUpTo key xs d) (group : List (α × ℕ)) :
    ∀ k ∈ (d.set (key xs.length) group).items.map Prod.fst, ∃ j < (xs ++ [x]).length, key j = k := by
  intro k hk
  rw [List.length_append, List.length_singleton]
  rcases d.mem_keys_set.1 hk with rfl | hk
  · exact ⟨xs.length, by omega, rfl⟩
  · obtain ⟨j, hj, hjk⟩ := h.seen k hk
    exact ⟨j, by omega, hjk⟩

/-- A key seen before is that of the last position, whose group goes on. -/
theorem step_seen (h : GroupedUpTo key xs d)
    (hkey : ∀ i j, i ≤ j → key i = key (j + 1) → key j = key (j + 1))
    (hmem : key xs.length ∈ d.items.map Prod.fst) :
    GroupedUpTo key (xs ++ [x]) (d.set (key xs.length)
      ((d.get? (key xs.length)).getD [] ++ [(x, xs.length)])) := by
  obtain ⟨j, hj, hjk⟩ := h.seen _ hmem
  have hlen : xs.length - 1 + 1 = xs.length := by omega
  have hsame : key (xs.length - 1) = key xs.length := by
    have := hkey j (xs.length - 1) (by omega) (by rw [hlen, hjk])
    rwa [hlen] at this
  obtain ⟨init, cur, hitems⟩ := h.last (List.length_pos_iff.1 (by omega))
  rw [hsame] at hitems
  have hget : d.get? (key xs.length) = some cur := by
    rw [Dict.get?_eq_some, hitems]
    simp
  have hset := d.items_set_last (cur ++ [(x, xs.length)]) hitems
  rw [hget, Option.getD_some]
  refine ⟨h.seen_set _, fun _ => ⟨init, cur ++ [(x, xs.length)], ?_⟩, ?_⟩
  · rw [hset, List.length_append, List.length_singleton, Nat.add_sub_cancel]
  · rw [hset, chunks_concat, ← h.values, hitems, List.map_append, List.map_append,
      List.map_singleton, List.map_singleton, pushChunk_concat, if_neg (not_not.2 hsame),
      List.map_append, List.map_singleton]

/-- A key not seen before opens a group. -/
theorem step_new (h : GroupedUpTo key xs d) (hmem : key xs.length ∉ d.items.map Prod.fst) :
    GroupedUpTo key (xs ++ [x]) (d.set (key xs.length)
      ((d.get? (key xs.length)).getD [] ++ [(x, xs.length)])) := by
  have hset := d.items_set_of_notMem [(x, xs.length)] hmem
  rw [d.get?_eq_none.2 hmem, Option.getD_none, List.nil_append]
  refine ⟨h.seen_set _, fun _ => ⟨d.items, [(x, xs.length)], ?_⟩, ?_⟩
  · rw [hset, List.length_append, List.length_singleton, Nat.add_sub_cancel]
  rw [hset, chunks_concat, ← h.values, List.map_append, List.map_singleton]
  by_cases hnil : xs = []
  · have hempty : d.items.map (·.2.map Prod.fst) = [] := by
      rw [h.values, hnil]
      rfl
    rw [hempty]
    rfl
  · obtain ⟨init, cur, hitems⟩ := h.last hnil
    have hnew : key (xs.length - 1) ≠ key xs.length := by
      intro heq
      refine hmem ?_
      rw [hitems, heq]
      simp
    rw [hitems, List.map_append, List.map_singleton, pushChunk_concat, if_pos hnew]
    rfl

end GroupedUpTo

theorem groupedUpTo_groupBy (hkey : ∀ i j, i ≤ j → key i = key (j + 1) → key j = key (j + 1))
    (xs : List α) :
    GroupedUpTo key xs (Dict.groupBy (fun p : α × ℕ => key p.2) xs.zipIdx) := by
  induction xs using List.reverseRecOn with
  | nil => exact ⟨by simp [Dict.groupBy, Dict.empty], fun h => absurd rfl h, rfl⟩
  | append_singleton xs x ih =>
    have hstep : Dict.groupBy (fun p : α × ℕ => key p.2) (xs ++ [x]).zipIdx =
        (Dict.groupBy (fun p : α × ℕ => key p.2) xs.zipIdx).set (key xs.length)
          (((Dict.groupBy (fun p : α × ℕ => key p.2) xs.zipIdx).get? (key xs.length)).getD [] ++
            [(x, xs.length)]) := by
      rw [List.zipIdx_append]
      simp [Dict.groupBy]
    rw [hstep]
    by_cases hmem : key xs.length ∈
        (Dict.groupBy (fun p : α × ℕ => key p.2) xs.zipIdx).items.map Prod.fst
    · exact ih.step_seen hkey hmem
    · exact ih.step_new hmem

theorem groupBy_zipIdx_eq_chunks
    (hkey : ∀ i j, i ≤ j → key i = key (j + 1) → key j = key (j + 1)) (xs : List α) :
    (Dict.groupBy (fun p : α × ℕ => key p.2) xs.zipIdx).items.map (·.2.map Prod.fst) =
      chunks (fun i => key (i - 1) ≠ key i) xs :=
  (groupedUpTo_groupBy hkey xs).values

end Groups

end TradingPlatform.Lib
