import TradingPlatform.Research.Resample

/-! # Resampling as a partition

The runs that are aggregated follow one another and fill the series. A gap is
compared with the source interval in whole seconds and in doubles, so one that is
wider by less than a second stays inside its run. -/

namespace TradingPlatform.Research.Resample

open TradingPlatform.Lib

/-! ## One aggregated bar -/

/-- A bar carries a run of rows. -/
structure Carries (run : List Bar) (b : Bar) : Prop where
  timestamp : run.head?.map Bar.timestamp = some b.timestamp
  openPx : run.head?.map Bar.openPx = some b.openPx
  high : b.high ∈ run.map Bar.high ∧ ∀ x ∈ run, x.high ≤ b.high
  low : b.low ∈ run.map Bar.low ∧ ∀ x ∈ run, b.low ≤ x.low
  close : run.getLast?.map Bar.close = some b.close
  volume : b.volume = (run.map Bar.volume).sum

theorem foldl_max_spec {α β : Type*} [LinearOrder β] (f : α → β) (xs : List α) (m : β) :
    (xs.foldl (fun m x => max m (f x)) m = m ∨ xs.foldl (fun m x => max m (f x)) m ∈ xs.map f) ∧
      m ≤ xs.foldl (fun m x => max m (f x)) m ∧
      ∀ x ∈ xs, f x ≤ xs.foldl (fun m x => max m (f x)) m := by
  induction xs generalizing m with
  | nil => simp
  | cons x xs ih =>
    obtain ⟨hmem, hle, hall⟩ := ih (max m (f x))
    rw [List.foldl_cons]
    refine ⟨?_, (le_max_left _ _).trans hle, fun y hy => ?_⟩
    · rcases hmem with hmem | hmem
      · rcases max_choice m (f x) with hm | hx
        · exact .inl (hmem.trans hm)
        · exact .inr (List.mem_map.mpr ⟨x, List.mem_cons_self, (hmem.trans hx).symm⟩)
      · exact .inr (List.mem_cons_of_mem _ hmem)
    · rcases List.mem_cons.mp hy with rfl | hy
      · exact (le_max_right _ _).trans hle
      · exact hall y hy

theorem carries_aggregate {run : List Bar} (hne : run ≠ []) : Carries run (aggregate run) := by
  cases run with
  | nil => exact absurd rfl hne
  | cons b rest =>
    obtain ⟨hhigh, hbhigh, hrhigh⟩ := foldl_max_spec Bar.high rest b.high
    obtain ⟨hlow, hblow, hrlow⟩ :=
      foldl_max_spec (fun x => OrderDual.toDual x.low) rest (OrderDual.toDual b.low)
    refine ⟨rfl, rfl, ⟨?_, ?_⟩, ⟨?_, ?_⟩, ?_, aggregate_volume _⟩
    · exact hhigh.elim (fun h => List.mem_cons.mpr (.inl h)) (List.mem_cons_of_mem _)
    · exact List.forall_mem_cons.mpr ⟨hbhigh, hrhigh⟩
    · exact hlow.elim (fun h => List.mem_cons.mpr (.inl h)) (List.mem_cons_of_mem _)
    · exact List.forall_mem_cons.mpr ⟨hblow, hrlow⟩
    · rw [List.getLast?_cons, aggregate, List.getLastD_eq_getLast?]
      rfl

theorem forall₂_carries {runs : List (List Bar)} (hne : [] ∉ runs) :
    List.Forall₂ Carries runs (runs.map aggregate) := by
  rw [List.forall₂_map_right_iff, List.forall₂_same]
  exact fun run hrun => carries_aggregate fun hnil => hne (hnil ▸ hrun)

/-! ## Runs are told by their first rows -/

/-- A first run does not end inside the first run of another cut with the same first rows. -/
theorem rest_nil_of_heads {α β : Type*} {key : α → β} {gs hs : List (List α)} {r : List α}
    (hflat : gs.flatten = r ++ hs.flatten) (hnodup : (gs.flatten.map key).Nodup)
    (hheads : gs.map (·.head?.map key) = hs.map (·.head?.map key)) (hgs : [] ∉ gs)
    (hhs : [] ∉ hs) : r = [] := by
  cases r with
  | nil => rfl
  | cons a r =>
    exfalso
    rw [hflat, List.map_append, List.nodup_append] at hnodup
    cases gs with
    | nil => simp at hflat
    | cons g gs =>
      cases hs with
      | nil => simp at hheads
      | cons h hs =>
        cases g with
        | nil => simp at hgs
        | cons b g =>
          cases h with
          | nil => simp at hhs
          | cons c h =>
            simp only [List.map_cons, List.head?_cons, Option.map_some, List.cons.injEq,
              Option.some.injEq] at hheads
            simp only [List.flatten_cons, List.cons_append, List.cons.injEq] at hflat
            exact hnodup.2.2 (key a) (by simp) (key c) (by simp) (hflat.1 ▸ hheads.1)

theorem runs_unique {α β : Type*} {key : α → β} {gs hs : List (List α)}
    (hflat : gs.flatten = hs.flatten) (hnodup : (gs.flatten.map key).Nodup)
    (hheads : gs.map (·.head?.map key) = hs.map (·.head?.map key)) (hgs : [] ∉ gs) (hhs : [] ∉ hs) :
    gs = hs := by
  induction gs generalizing hs with
  | nil => exact (List.map_eq_nil_iff.mp hheads.symm).symm
  | cons g gs ih =>
    cases hs with
    | nil => simp at hheads
    | cons h hs =>
      obtain ⟨-, htails⟩ := List.cons.inj hheads
      have hgs' : [] ∉ gs := fun hmem => hgs (List.mem_cons_of_mem _ hmem)
      have hhs' : [] ∉ hs := fun hmem => hhs (List.mem_cons_of_mem _ hmem)
      have hnodup' := hflat ▸ hnodup
      rw [List.flatten_cons, List.map_append, List.nodup_append] at hnodup hnodup'
      rw [List.flatten_cons, List.flatten_cons] at hflat
      obtain rfl : g = h := by
        rcases List.append_eq_append_iff.mp hflat with ⟨r, hr, hrest⟩ | ⟨r, hr, hrest⟩
        · rw [hr, rest_nil_of_heads hrest hnodup.2.1 htails hgs' hhs', List.append_nil]
        · rw [hr, rest_nil_of_heads hrest hnodup'.2.1 htails.symm hhs' hgs', List.append_nil]
      rw [ih (List.append_cancel_left hflat) hnodup.2.1 htails hgs' hhs']

/-! ## The partition -/

/-- A gap as it is, in minutes. -/
def exactMinutes (a b : ℤ) : ℚ := (b - a : ℤ) / 60000000

/-- Two rows no further apart than one and a half intervals. -/
def Narrow (src : ℚ) (a b : Bar) : Prop := exactMinutes a.timestamp b.timestamp ≤ 3 / 2 * src

/-- The session of the row with a timestamp. -/
def sessionOf (pl : Polars) (times : List ℤ) (t : ℤ) : ℕ :=
  session pl (sourceIntervalMinutes pl times) times (times.idxOf t)

/-- The volume of a session. -/
def sessionVolume (pl : Polars) (times : List ℤ) (bars : List Bar) (k : ℕ) : ℚ :=
  ((bars.filter fun b => sessionOf pl times b.timestamp = k).map Bar.volume).sum

structure Partitions (pl : Polars) (times : List ℤ) (bars out : List Bar)
    (runs : List (List Bar)) : Prop where
  once : runs.flatten = bars
  narrow : ∀ run ∈ runs, run.IsChain (Narrow (sourceIntervalMinutes pl times))
  carries : List.Forall₂ Carries runs out
  volume : ∀ k, sessionVolume pl times out k = sessionVolume pl times bars k
  rising : (out.map Bar.timestamp).Pairwise (· < ·)

/-- A wide gap before a row that is not found to be one. -/
def LosesGap (pl : Polars) (times : List ℤ) (i : ℕ) : Prop :=
  3 / 2 * sourceIntervalMinutes pl times < exactMinutes (times.getD (i - 1) 0) (times.getD i 0) ∧
    ¬ IsBreak pl (sourceIntervalMinutes pl times) times i

instance (pl : Polars) (times : List ℤ) : DecidablePred (LosesGap pl times) := fun _ =>
  inferInstanceAs (Decidable (_ ∧ _))

section Columns
variable {pl : Polars} {src : ℚ} {times : List ℤ} {tgt : Option ℕ}

theorem startsBar_of_break {i : ℕ} (h : IsBreak pl src times i) : StartsBar pl src times tgt i := by
  obtain ⟨j, rfl⟩ := Nat.exists_eq_add_of_lt h.1
  rw [Nat.zero_add] at h ⊢
  cases tgt with
  | none => exact sessionRow_of_break h
  | some tgt =>
    rw [StartsBar, sessionRow_of_break h]
    exact Nat.zero_mod _

theorem getD_eq {bars : List Bar} (hbars : bars.map Bar.timestamp = times) {i : ℕ} {b : Bar}
    (h : bars[i]? = some b) : times.getD i 0 = b.timestamp := by
  rw [← hbars, List.getD_eq_getElem?_getD, List.getElem?_map, h]
  rfl

theorem sessionOf_eq {bars : List Bar} (hbars : bars.map Bar.timestamp = times)
    (hs : times.Pairwise (· < ·)) {i : ℕ} {b : Bar} (h : bars[i]? = some b) :
    sessionOf pl times b.timestamp = session pl (sourceIntervalMinutes pl times) times i := by
  have hnodup : times.Nodup := hs.imp ne_of_lt
  have hget : times[i]? = some b.timestamp := by
    rw [← hbars, List.getElem?_map, h]
    rfl
  obtain ⟨hlt, hi⟩ := List.getElem?_eq_some_iff.mp hget
  rw [sessionOf, ← hi, hnodup.idxOf_getElem]

/-- The rows of one aggregated bar are in one session. -/
theorem same_session {bars : List Bar} (hbars : bars.map Bar.timestamp = times)
    (hs : times.Pairwise (· < ·)) {run : List Bar}
    (hrun : run ∈ chunks (StartsBar pl (sourceIntervalMinutes pl times) times tgt) bars) :
    ∀ b ∈ run, sessionOf pl times b.timestamp = sessionOf pl times (aggregate run).timestamp := by
  have hchain : run.IsChain fun a b : Bar =>
      sessionOf pl times a.timestamp = sessionOf pl times b.timestamp := by
    refine (isChain_chunks_iff _).mpr (fun i a b ha hb hcut => ?_) run hrun
    have hbreak : ¬ IsBreak pl (sourceIntervalMinutes pl times) times (i + 1) := fun h =>
      hcut (startsBar_of_break h)
    rw [sessionOf_eq hbars hs ha, sessionOf_eq hbars hs hb, session_succ, if_neg hbreak,
      Nat.add_zero]
  cases run with
  | nil => simp
  | cons first rest =>
    have htrans : IsTrans Bar fun a b : Bar =>
        sessionOf pl times a.timestamp = sessionOf pl times b.timestamp := ⟨fun _ _ _ => Eq.trans⟩
    have hpair := List.isChain_iff_pairwise.mp hchain
    intro b hb
    rcases List.mem_cons.mp hb with rfl | hb
    · rfl
    · exact (List.rel_of_pairwise_cons hpair hb).symm

theorem sessionVolume_aggregate {runs : List (List Bar)}
    (h : ∀ run ∈ runs, ∀ b ∈ run,
      sessionOf pl times b.timestamp = sessionOf pl times (aggregate run).timestamp) (k : ℕ) :
    sessionVolume pl times (runs.map aggregate) k = sessionVolume pl times runs.flatten k := by
  induction runs with
  | nil => rfl
  | cons run runs ih =>
    have hrest := ih fun r hr => h r (List.mem_cons_of_mem _ hr)
    have hown := h run List.mem_cons_self
    simp only [sessionVolume] at hrest ⊢
    rw [List.map_cons, List.flatten_cons, List.filter_append, List.map_append, List.sum_append,
      ← hrest]
    by_cases hk : sessionOf pl times (aggregate run).timestamp = k
    · have hall : run.filter (fun b => sessionOf pl times b.timestamp = k) = run :=
        List.filter_eq_self.mpr fun b hb => by simpa [hown b hb] using hk
      rw [List.filter_cons_of_pos (by simpa using hk), List.map_cons, List.sum_cons, hall,
        aggregate_volume]
    · have hnone : run.filter (fun b => sessionOf pl times b.timestamp = k) = [] :=
        List.filter_eq_nil_iff.mpr fun b hb => by simpa [hown b hb] using hk
      rw [List.filter_cons_of_neg (by simpa using hk), hnone, List.map_nil, List.sum_nil, zero_add]

end Columns

theorem Partitions.heads {pl : Polars} {times : List ℤ} {bars out : List Bar}
    {runs : List (List Bar)} (h : Partitions pl times bars out runs) :
    [] ∉ runs ∧ runs.map (·.head?.map Bar.timestamp) = out.map fun b => some b.timestamp := by
  obtain ⟨-, -, hcarries, -, -⟩ := h
  induction hcarries with
  | nil => simp
  | @cons run b runs out hrun _ ih =>
    have hne : run ≠ [] := by
      rintro rfl
      exact absurd hrun.timestamp (by simp)
    refine ⟨fun hmem => ?_, by rw [List.map_cons, List.map_cons, hrun.timestamp, ih.2]⟩
    exact (List.mem_cons.mp hmem).elim (fun heq => hne heq.symm) ih.1

/-- The series is resampled into a partition exactly where every wide gap that is lost in whole
seconds, or to rounding, ends a bucket anyway. -/
theorem resample_partitions_iff {pl : Polars} {bars : List Bar} {times : List ℤ}
    (hbars : bars.map Bar.timestamp = times) (hs : times.Pairwise (· < ·)) {target : String}
    {tgt : Option ℕ} (ht : targetMinutes.lookup target = some tgt) :
    (∃ out runs, resample pl bars target = .ok out ∧ Partitions pl times bars out runs) ↔
      ∀ i < times.length, 0 < i → LosesGap pl times i →
        StartsBar pl (sourceIntervalMinutes pl times) times tgt i := by
  have hlen : bars.length = times.length := by rw [← hbars, List.length_map]
  have hnodup : (bars.map Bar.timestamp).Nodup := hbars ▸ hs.imp ne_of_lt
  have hnil := nil_notMem_chunks (StartsBar pl (sourceIntervalMinutes pl times) times tgt) bars
  have hflat := flatten_chunks (StartsBar pl (sourceIntervalMinutes pl times) times tgt) bars
  have hjoined : (∀ run ∈ chunks (StartsBar pl (sourceIntervalMinutes pl times) times tgt) bars,
      run.IsChain (Narrow (sourceIntervalMinutes pl times))) ↔ Joined _ _ bars :=
    isChain_chunks_iff _
  have hsame : ∀ run ∈ chunks (StartsBar pl (sourceIntervalMinutes pl times) times tgt) bars,
      ∀ b ∈ run, sessionOf pl times b.timestamp = sessionOf pl times (aggregate run).timestamp :=
    fun run hrun => same_session hbars hs hrun
  rw [resample_eq hbars hs ht]
  generalize chunks (StartsBar pl (sourceIntervalMinutes pl times) times tgt) bars = cut
    at hnil hflat hjoined hsame
  constructor
  · rintro ⟨out, runs, hout, hp⟩ i hi hpos ⟨hwide, hbreak⟩
    cases hout
    have hruns : runs = cut := by
      refine runs_unique (hp.once.trans hflat.symm) (hp.once ▸ hnodup) ?_ hp.heads.1 hnil
      rw [hp.heads.2, List.map_map]
      exact List.map_congr_left fun run hrun =>
        (carries_aggregate fun h => hnil (h ▸ hrun)).timestamp.symm
    by_contra hstart
    obtain ⟨j, rfl⟩ := Nat.exists_eq_add_of_lt hpos
    rw [Nat.zero_add] at *
    have hja : bars[j]? = some bars[j] := List.getElem?_eq_getElem (by omega)
    have hjb : bars[j + 1]? = some bars[j + 1] := List.getElem?_eq_getElem (by omega)
    have hnarrow := hjoined.mp (hruns ▸ hp.narrow) j _ _ hja hjb hstart
    rw [Nat.add_sub_cancel, getD_eq hbars hja, getD_eq hbars hjb] at hwide
    exact absurd hnarrow (not_le.mpr hwide)
  · intro hcond
    refine ⟨_, cut, rfl, hflat, hjoined.mpr fun i a b ha hb hcut => ?_, forall₂_carries hnil,
      fun k => ?_, ?_⟩
    · by_contra hwide
      refine hcut (hcond (i + 1) ?_ (Nat.succ_pos i) ⟨?_, fun h => hcut (startsBar_of_break h)⟩)
      · exact hlen ▸ (List.getElem?_eq_some_iff.mp hb).1
      · rw [Nat.add_sub_cancel, getD_eq hbars ha, getD_eq hbars hb]
        exact not_le.mp hwide
    · rw [sessionVolume_aggregate hsame, hflat]
    · have hsub := timestamps_sublist hnil
      rw [hflat, hbars] at hsub
      rw [List.map_map]
      exact hs.sublist hsub

theorem wholeSeconds_partition :
    ∃ out runs, resample plainPolars ([0, 15, 30, 120, 135].map (barAt 100)) "1h" = .ok out ∧
      Partitions plainPolars ([0, 15, 30, 120, 135].map minutes)
        ([0, 15, 30, 120, 135].map (barAt 100)) out runs := by
  have hlookup : targetMinutes.lookup "1h" = some (some 60) := by decide
  exact (resample_partitions_iff rfl (by decide) hlookup).mpr (by decide +kernel)

/-- Minute bars, the last of them a minute and a half and half a second late. -/
def lateBars : List Bar :=
  [0, 60000000, 120000000, 210500000].map fun t => ⟨t, 10, 11, 9, 10, 100, none⟩

theorem lateBars_not_partition :
    (lateBars.map Bar.timestamp).Pairwise (· < ·) ∧
      ¬ ∃ out runs, resample plainPolars lateBars "30m" = .ok out ∧
        Partitions plainPolars (lateBars.map Bar.timestamp) lateBars out runs := by
  refine ⟨by decide, ?_⟩
  rintro ⟨out, runs, hout, hp⟩
  have hone : resample plainPolars lateBars "30m" = .ok [⟨0, 10, 11, 9, 10, 400, none⟩] := by
    decide +kernel
  cases hone.symm.trans hout
  obtain ⟨run, rfl⟩ := List.length_eq_one_iff.mp hp.carries.length_eq
  have hchain := hp.narrow run List.mem_cons_self
  have honce := hp.once
  rw [List.flatten_singleton] at honce
  rw [honce] at hchain
  unfold Narrow at hchain
  exact absurd hchain (by decide +kernel)

end TradingPlatform.Research.Resample
