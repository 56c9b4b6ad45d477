import TradingPlatform.Lib.Binary64
import TradingPlatform.Lib.Chunks
import Mathlib.Data.List.Sort

/-! # The timeframe-menu resampler

Sessions and buckets are cut from the timestamps alone, with an interval that is
estimated over the whole series. Timestamps are microseconds, minutes are doubles. -/

namespace TradingPlatform.Research.Resample

open TradingPlatform.Lib
open TradingPlatform.Lib.Binary64 (nearestValue)

structure Bar where
  timestamp : ℤ
  openPx : ℚ
  high : ℚ
  low : ℚ
  close : ℚ
  volume : ℚ
  symbol : Option String
  deriving DecidableEq, Inhabited

/-- `None` stands for the whole session. -/
def targetMinutes : List (String × Option ℕ) :=
  [("30m", some 30), ("1h", some 60), ("2h", some 120), ("4h", some 240), ("1d", none)]

/-! ## The source interval -/

/-- What Polars computes in doubles: whole seconds over `60.0`, and a median. -/
structure Polars where
  minutes : ℤ → ℚ
  median : List ℚ → ℚ

/-- `dt.total_seconds()` cuts a gap to whole seconds. -/
def minutesBetween (pl : Polars) (a b : ℤ) : ℚ := pl.minutes ((b - a) / 1000000)

def median (xs : List ℚ) : ℚ :=
  let sorted := xs.insertionSort (· ≤ ·)
  let mid := sorted.length / 2
  if sorted.length % 2 = 1 then sorted.getD mid 0
  else (sorted.getD (mid - 1) 0 + sorted.getD mid 0) / 2

def sourceIntervalMinutes (pl : Polars) (ts : List ℤ) : ℚ :=
  if ts.length < 2 then 15
  else
    let sorted := ts.insertionSort (· ≤ ·)
    let gaps := (List.zipWith (minutesBetween pl) sorted sorted.tail).filter (0 < ·)
    if gaps = [] then 15 else pl.median gaps

/-! ## Sessions and buckets

The columns are functions of the row number. -/

section Columns
variable (pl : Polars) (src : ℚ) (times : List ℤ)

/-- The gap before a row ends a session; the first row has none before it. -/
def IsBreak (i : ℕ) : Prop :=
  0 < i ∧ nearestValue (3 / 2 * src) < minutesBetween pl (times.getD (i - 1) 0) (times.getD i 0)

instance : DecidablePred (IsBreak pl src times) := fun i =>
  inferInstanceAs (Decidable (0 < i ∧ _))

/-- `is_break.cum_sum()`. -/
def session (i : ℕ) : ℕ := (List.range (i + 1)).countP (IsBreak pl src times ·)

/-- `int_range(0, len()).over("_session")`. -/
def sessionRow (i : ℕ) : ℕ :=
  (List.range i).countP fun j => session pl src times j = session pl src times i

/-- Ties go to the even neighbour. -/
def roundHalfEven (q : ℚ) : ℤ :=
  let f := ⌊q⌋
  if q - f < 1 / 2 then f
  else if 1 / 2 < q - f then f + 1
  else if f % 2 = 0 then f else f + 1

def factor (tgt : ℕ) : ℕ := (max 1 (roundHalfEven (nearestValue (tgt / src)))).toNat

/-- The session and the bucket of a row. -/
def groupKey (tgt : Option ℕ) (i : ℕ) : ℕ × ℕ :=
  match tgt with
  | none => (session pl src times i, 0)
  | some tgt => (session pl src times i, sessionRow pl src times i / factor src tgt)

/-- The row is the first of its session, or of a bucket inside it. -/
def StartsBar (tgt : Option ℕ) (i : ℕ) : Prop :=
  match tgt with
  | none => sessionRow pl src times i = 0
  | some tgt => sessionRow pl src times i % factor src tgt = 0

instance (tgt : Option ℕ) : DecidablePred (StartsBar pl src times tgt) := fun i =>
  match tgt with
  | none => inferInstanceAs (Decidable (sessionRow pl src times i = 0))
  | some tgt => inferInstanceAs (Decidable (sessionRow pl src times i % factor src tgt = 0))

end Columns

/-! ## Resampling -/

def aggregate : List Bar → Bar
  | [] => default -- a group has a row
  | b :: rest =>
    { timestamp := b.timestamp
      openPx := b.openPx
      high := rest.foldl (fun m x => max m x.high) b.high
      low := rest.foldl (fun m x => min m x.low) b.low
      close := (rest.getLastD b).close
      volume := ((b :: rest).map Bar.volume).sum
      symbol := b.symbol }

def byTimestamp (a b : Bar) : Prop := a.timestamp ≤ b.timestamp

instance : DecidableRel byTimestamp := fun a b =>
  inferInstanceAs (Decidable (a.timestamp ≤ b.timestamp))

instance : IsTrans Bar byTimestamp := ⟨fun _ _ _ => le_trans⟩
instance : Std.Total byTimestamp := ⟨fun a b => le_total a.timestamp b.timestamp⟩

/-- The rows with their number, grouped by key in order of appearance. -/
def groups (key : ℕ → ℕ × ℕ) (bars : List Bar) : List (List Bar) :=
  (Dict.groupBy (fun p : Bar × ℕ => key p.2) bars.zipIdx).items.map (·.2.map Prod.fst)

inductive ResampleError where
  | unsupportedTarget (target : String)
  deriving DecidableEq

def resample (pl : Polars) (bars : List Bar) (target : String) : Except ResampleError (List Bar) :=
  match targetMinutes.lookup target with
  | none => .error (.unsupportedTarget target)
  | some tgt =>
    if bars = [] then .ok []
    else
      let src := sourceIntervalMinutes pl (bars.map Bar.timestamp)
      let b := bars.insertionSort byTimestamp
      let key := groupKey pl src (b.map Bar.timestamp) tgt
      .ok (((groups key b).map aggregate).insertionSort byTimestamp)

/-! ## Where a group starts -/

section Columns
variable {pl : Polars} {src : ℚ} {times : List ℤ}

theorem session_succ (i : ℕ) :
    session pl src times (i + 1) =
      session pl src times i + if IsBreak pl src times (i + 1) then 1 else 0 := by
  rw [session, List.range_succ, List.countP_append]
  simp [session, List.countP_singleton]

theorem session_mono : Monotone (session pl src times) :=
  monotone_nat_of_le_succ fun i => by
    rw [session_succ]
    exact Nat.le_add_right _ _

theorem sessionRow_of_break {i : ℕ} (h : IsBreak pl src times (i + 1)) :
    sessionRow pl src times (i + 1) = 0 := by
  rw [sessionRow, List.countP_eq_zero]
  intro j hj
  have hle : session pl src times j ≤ session pl src times i :=
    session_mono (Nat.lt_succ_iff.1 (List.mem_range.1 hj))
  rw [session_succ, if_pos h, decide_eq_true_eq]
  omega

theorem sessionRow_succ {i : ℕ} (h : ¬ IsBreak pl src times (i + 1)) :
    sessionRow pl src times (i + 1) = sessionRow pl src times i + 1 := by
  have hs : session pl src times (i + 1) = session pl src times i := by
    rw [session_succ, if_neg h, Nat.add_zero]
  rw [sessionRow, hs, List.range_succ, List.countP_append]
  simp [sessionRow]

theorem sessionRow_mono {i j : ℕ} (hij : i ≤ j)
    (h : session pl src times i = session pl src times j) :
    sessionRow pl src times i ≤ sessionRow pl src times j := by
  rw [sessionRow, sessionRow, h]
  exact (List.range_sublist.2 hij).countP_le

/-- A group, once left, does not come back. -/
theorem groupKey_settled (tgt : Option ℕ) {i j : ℕ} (hij : i ≤ j)
    (h : groupKey pl src times tgt i = groupKey pl src times tgt (j + 1)) :
    groupKey pl src times tgt j = groupKey pl src times tgt (j + 1) := by
  have hij' : session pl src times i ≤ session pl src times j := session_mono hij
  have hj : session pl src times j ≤ session pl src times (j + 1) :=
    session_mono (Nat.le_add_right j 1)
  cases tgt with
  | none =>
    have hs : session pl src times i = session pl src times (j + 1) := congrArg Prod.fst h
    simp only [groupKey, Prod.mk.injEq, and_true]
    omega
  | some tgt =>
    obtain ⟨hs, hb⟩ := Prod.mk.inj h
    have hrow := sessionRow_mono hij (by omega : session pl src times i = session pl src times j)
    have hrow' := sessionRow_mono (Nat.le_add_right j 1)
      (by omega : session pl src times j = session pl src times (j + 1))
    have hdiv := Nat.div_le_div_right (c := factor src tgt) hrow
    have hdiv' := Nat.div_le_div_right (c := factor src tgt) hrow'
    simp only [groupKey, Prod.mk.injEq]
    omega

/-- The key changes exactly at the rows that start a bar. -/
theorem groupKey_ne_iff (tgt : Option ℕ) (i : ℕ) :
    groupKey pl src times tgt i ≠ groupKey pl src times tgt (i + 1) ↔
      StartsBar pl src times tgt (i + 1) := by
  by_cases hb : IsBreak pl src times (i + 1)
  · have hs := @session_succ pl src times i
    rw [if_pos hb] at hs
    have hne : groupKey pl src times tgt i ≠ groupKey pl src times tgt (i + 1) := by
      intro h
      cases tgt with
      | none | some _ =>
        have := congrArg Prod.fst h
        simp only [groupKey] at this
        omega
    have hstart : StartsBar pl src times tgt (i + 1) := by
      cases tgt with
      | none => exact sessionRow_of_break hb
      | some tgt =>
        rw [StartsBar, sessionRow_of_break hb]
        exact Nat.zero_mod _
    exact iff_of_true hne hstart
  · have hs := @session_succ pl src times i
    rw [if_neg hb, Nat.add_zero] at hs
    cases tgt with
    | none => simp [groupKey, StartsBar, hs, sessionRow_succ hb]
    | some tgt =>
      simp only [groupKey, StartsBar, hs, sessionRow_succ hb, ne_eq, Prod.mk.injEq]
      rw [Nat.succ_div, ← Nat.dvd_iff_mod_eq_zero]
      split <;> simp_all

theorem groups_eq_chunks (tgt : Option ℕ) (bars : List Bar) :
    groups (groupKey pl src times tgt) bars = chunks (StartsBar pl src times tgt) bars := by
  rw [groups, groupBy_zipIdx_eq_chunks fun i j => groupKey_settled tgt]
  refine chunks_congr _ fun i hi _ => ?_
  obtain ⟨j, rfl⟩ := Nat.exists_eq_add_of_lt hi
  rw [Nat.zero_add, Nat.add_sub_cancel]
  exact groupKey_ne_iff tgt j

/-! ## The columns of a prefix -/

variable {k : ℕ}

theorem isBreak_take {i : ℕ} (hi : i < k) :
    IsBreak pl src (times.take k) i ↔ IsBreak pl src times i := by
  have hget : ∀ j < k, (times.take k).getD j 0 = times.getD j 0 := by
    intro j hj
    rw [List.getD_eq_getElem?_getD, List.getD_eq_getElem?_getD, List.getElem?_take_of_lt hj]
  rw [IsBreak, IsBreak, hget i hi, hget (i - 1) (by omega)]

theorem session_take {i : ℕ} (hi : i < k) :
    session pl src (times.take k) i = session pl src times i := by
  rw [session, session]
  refine List.countP_congr fun j hj => ?_
  rw [decide_eq_true_iff, decide_eq_true_iff]
  exact isBreak_take (by have := List.mem_range.1 hj; omega)

theorem sessionRow_take {i : ℕ} (hi : i < k) :
    sessionRow pl src (times.take k) i = sessionRow pl src times i := by
  rw [sessionRow, sessionRow, session_take hi]
  refine List.countP_congr fun j hj => ?_
  rw [session_take (by have := List.mem_range.1 hj; omega)]

theorem startsBar_take {tgt : Option ℕ} {i : ℕ} (hi : i < k) :
    StartsBar pl src (times.take k) tgt i ↔ StartsBar pl src times tgt i := by
  unfold StartsBar
  rw [sessionRow_take hi]

end Columns

/-! ## Resampling as cutting -/

variable {pl : Polars}

/-- The first rows of the groups are rows of the series in order. -/
theorem timestamps_sublist {gs : List (List Bar)} (h : [] ∉ gs) :
    (gs.map fun g => (aggregate g).timestamp).Sublist (gs.flatten.map Bar.timestamp) := by
  induction gs with
  | nil => simp
  | cons g gs ih =>
    rw [List.mem_cons, not_or] at h
    obtain ⟨hg, hgs⟩ := h
    cases g with
    | nil => exact absurd rfl hg
    | cons b rest =>
      rw [List.map_cons, List.flatten_cons, List.map_append, List.map_cons, List.cons_append]
      exact .cons_cons _ ((ih hgs).trans (List.sublist_append_right ..))

theorem resample_eq {bars : List Bar} {times : List ℤ} (hbars : bars.map Bar.timestamp = times)
    (hs : times.Pairwise (· < ·)) {target : String} {tgt : Option ℕ}
    (ht : targetMinutes.lookup target = some tgt) :
    resample pl bars target =
      .ok ((chunks (StartsBar pl (sourceIntervalMinutes pl times) times tgt) bars).map
        aggregate) := by
  subst hbars
  have hsorted : bars.Pairwise byTimestamp := (List.pairwise_map.1 hs).imp le_of_lt
  unfold resample
  simp only [ht]
  split
  · rename_i hnil
    subst hnil
    rfl
  · rw [hsorted.insertionSort_eq, groups_eq_chunks]
    congr 1
    refine List.Pairwise.insertionSort_eq ?_
    generalize sourceIntervalMinutes pl (bars.map Bar.timestamp) = src
    have hsub := timestamps_sublist
      (nil_notMem_chunks (StartsBar pl src (bars.map Bar.timestamp) tgt) bars)
    rw [flatten_chunks] at hsub
    have hpair := (hs.sublist hsub).imp le_of_lt
    rw [List.pairwise_map] at hpair ⊢
    exact hpair

theorem resample_take_eq {bars : List Bar} {times : List ℤ}
    (hbars : bars.map Bar.timestamp = times) (hs : times.Pairwise (· < ·)) {target : String}
    {tgt : Option ℕ} (ht : targetMinutes.lookup target = some tgt) (k : ℕ) :
    resample pl (bars.take k) target =
      .ok ((chunks (StartsBar pl (sourceIntervalMinutes pl (times.take k)) times tgt)
        (bars.take k)).map aggregate) := by
  have htake : (bars.take k).map Bar.timestamp = times.take k := by
    rw [List.map_take, hbars]
  rw [resample_eq htake (hs.sublist (List.take_sublist k times)) ht]
  congr 2
  refine chunks_congr _ fun i _ hi => startsBar_take ?_
  rw [List.length_take] at hi
  omega

/-! ## Causality -/

/-- The completed bars of the first `k` rows are the first bars of the whole series. -/
def Causal (pl : Polars) (bars : List Bar) (target : String) (k : ℕ) : Prop :=
  ∀ out full, resample pl (bars.take k) target = .ok out → resample pl bars target = .ok full →
    out.dropLast <+: full

/-- Up to every row that starts a bar under the interval of the first `k` rows, the interval
of the whole series starts bars at the same rows. -/
def SameStarts (pl : Polars) (times : List ℤ) (tgt : Option ℕ) (k : ℕ) : Prop :=
  ∀ j < k, j < times.length → StartsBar pl (sourceIntervalMinutes pl (times.take k)) times tgt j →
    ∀ i ≤ j, 0 < i → (StartsBar pl (sourceIntervalMinutes pl (times.take k)) times tgt i ↔
      StartsBar pl (sourceIntervalMinutes pl times) times tgt i)

theorem aggregate_volume (group : List Bar) :
    (aggregate group).volume = (group.map Bar.volume).sum := by
  cases group <;> rfl

/-- A row of volume one. -/
def unitBar (t : ℤ) : Bar := ⟨t, 0, 0, 0, 0, 1, none⟩

theorem aggregate_unitBars {group : List Bar} (h : ∀ b ∈ group, b.volume = 1) :
    (aggregate group).volume = group.length := by
  have hmap : group.map Bar.volume = List.replicate group.length 1 :=
    List.eq_replicate_iff.2 ⟨List.length_map .., fun v hv => by
      obtain ⟨b, hb, rfl⟩ := List.mem_map.1 hv
      exact h b hb⟩
  rw [aggregate_volume, hmap, List.sum_replicate, nsmul_eq_mul, mul_one]

/-- Aggregates of unit bars tell the groups' lengths, hence the groups. -/
theorem prefix_of_unitBars {gs hs : List (List Bar)} (hunit : ∀ b ∈ hs.flatten, b.volume = 1)
    (hflat : gs.flatten <+: hs.flatten) (hagg : gs.map aggregate <+: hs.map aggregate) :
    gs <+: hs := by
  refine prefix_of_map_prefix aggregate (fun g hg h hh heq => ?_) hflat hagg
  have hgv : (aggregate g).volume = g.length := aggregate_unitBars fun b hb =>
    hunit b (hflat.subset (List.mem_flatten.2 ⟨g, hg, hb⟩))
  have hhv : (aggregate h).volume = h.length := aggregate_unitBars fun b hb =>
    hunit b (List.mem_flatten.2 ⟨h, hh, hb⟩)
  rw [heq, hhv] at hgv
  exact (Nat.cast_injective hgv).symm

theorem resample_causal_iff {times : List ℤ} (hs : times.Pairwise (· < ·)) {target : String}
    {tgt : Option ℕ} (ht : targetMinutes.lookup target = some tgt) (k : ℕ) :
    (∀ bars : List Bar, bars.map Bar.timestamp = times → Causal pl bars target k) ↔
      SameStarts pl times tgt k := by
  constructor
  · intro h
    let bars := times.map unitBar
    have hbars : bars.map Bar.timestamp = times := by
      rw [List.map_map]
      exact List.map_id times
    have hlen : bars.length = times.length := List.length_map ..
    have hprefix := h bars hbars _ _ (resample_take_eq hbars hs ht k) (resample_eq hbars hs ht)
    rw [← List.map_dropLast] at hprefix
    have hpre := prefix_of_unitBars (fun b hb => ?_) ?_ hprefix
    · intro j hjk hjlen
      exact dropLast_chunks_prefix_iff.1 hpre j hjk (hlen ▸ hjlen)
    · rw [flatten_chunks] at hb
      obtain ⟨t, -, rfl⟩ := List.mem_map.1 hb
      rfl
    · have hdrop := (List.dropLast_prefix (chunks
        (StartsBar pl (sourceIntervalMinutes pl (times.take k)) times tgt) (bars.take k))).flatten
      rw [flatten_chunks] at hdrop ⊢
      exact hdrop.trans (List.take_prefix k bars)
  · intro h bars hbars out full hout hfull
    rw [resample_take_eq hbars hs ht, Except.ok.injEq] at hout
    rw [resample_eq hbars hs ht, Except.ok.injEq] at hfull
    subst hout hfull
    rw [← List.map_dropLast]
    have hlen : bars.length = times.length := by rw [← hbars, List.length_map]
    refine List.IsPrefix.map aggregate (dropLast_chunks_prefix_iff.2 fun j hjk hjlen => ?_)
    exact h j hjk (hlen ▸ hjlen)

/-- Under one interval for both runs, completed bars stay. -/
theorem sameStarts_of_interval_eq {times : List ℤ} {tgt : Option ℕ} {k : ℕ}
    (h : sourceIntervalMinutes pl (times.take k) = sourceIntervalMinutes pl times) :
    SameStarts pl times tgt k := by
  intro j _ _ _ i _ _
  rw [h]

/-- Quotients and midpoints rounded once. -/
def plainPolars : Polars where
  minutes seconds := nearestValue (seconds / 60)
  median gaps := nearestValue (median gaps)

def minutes (m : ℤ) : ℤ := m * 60000000

def barAt (volume : ℚ) (m : ℤ) : Bar := ⟨minutes m, 10, 11, 9, 10, volume, some "QQQ"⟩

theorem regular_hours_causal :
    Causal plainPolars ([0, 15, 30, 45, 60, 75].map (barAt 100)) "1h" 5 := by
  have hlookup : targetMinutes.lookup "1h" = some (some 60) := by decide
  have hrising : ([0, 15, 30, 45, 60, 75].map minutes).Pairwise (· < ·) := by decide
  have hinterval :
      sourceIntervalMinutes plainPolars (([0, 15, 30, 45, 60, 75].map minutes).take 5) =
        sourceIntervalMinutes plainPolars ([0, 15, 30, 45, 60, 75].map minutes) := by decide +kernel
  exact (resample_causal_iff hrising hlookup 5).2 (sameStarts_of_interval_eq hinterval) _ rfl

/-- Sparse later rows widen the interval and shorten the first hour. -/
def sparseBars : List Bar := [0, 15, 30, 60, 90, 120, 150].map (barAt 100)

theorem later_rows_change_first_hour :
    (sparseBars.map Bar.timestamp).Pairwise (· < ·) ∧ ¬ Causal plainPolars sparseBars "1h" 4 := by
  refine ⟨by decide, ?_⟩
  intro h
  have hprefix : resample plainPolars (sparseBars.take 4) "1h" =
      .ok [barAt 300 0, barAt 100 60] := by decide +kernel
  have hfull : resample plainPolars sparseBars "1h" =
      .ok [barAt 200 0, barAt 200 30, barAt 200 90, barAt 100 150] := by decide +kernel
  exact absurd (h _ _ hprefix hfull) (by decide +kernel)

end TradingPlatform.Research.Resample
