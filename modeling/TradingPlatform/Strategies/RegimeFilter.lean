import TradingPlatform.Lib.Dict
import TradingPlatform.Lib.StableSort
import TradingPlatform.Lib.Window
import Mathlib.Algebra.Order.Field.Rat
import Mathlib.Data.Finset.Insert
import Mathlib.Tactic.FieldSimp
import Mathlib.Tactic.Linarith
import Mathlib.Tactic.Ring

/-! # The uptrend regime filter

A bar is a wall-clock reading in microseconds and a close, and a day is a count
of midnights: ISO dates compare as the days they name. A day permits long
entries when its close is above the trailing mean that includes it; the close of
a day still open is the latest one so far. -/

namespace TradingPlatform.Strategies

open TradingPlatform.Lib TradingPlatform.Lib.Window

/-- `ts.date().isoformat()`. -/
def sessionDate (ts : ℤ) : ℤ := ts / 86400000000

/-- One pass of the loop over the daily closes. -/
def uptrendStep (timestamps : List ℤ) (closeValues : List ℚ) (period : ℕ)
    (s : ℚ × Finset ℤ) (idx : ℕ) : ℚ × Finset ℤ :=
  let running :=
    if period ≤ idx then s.1 + (closeValues.getD idx 0 - closeValues.getD (idx - period) 0)
    else s.1
  let sma := running / period
  (running,
    if sma < closeValues.getD idx 0 then insert (sessionDate (timestamps.getD idx 0)) s.2 else s.2)

def buildUptrendSessionDates (timestamps : List ℤ) (closes : List ℚ) (period : ℤ) : Finset ℤ :=
  if period ≤ 0 then ∅
  else if (closes.length : ℤ) < period ∨ timestamps.length ≠ closes.length then ∅
  else
    let first := period.toNat - 1
    ((List.range' first (closes.length - first)).foldl
      (uptrendStep timestamps closes period.toNat) ((closes.take period.toNat).sum, ∅)).2

def buildRegimeMask (timestamps : List ℤ) (allowedDates : Option (Finset ℤ)) : List ℤ :=
  match allowedDates with
  | none => List.replicate timestamps.length 1
  | some allowed => timestamps.map fun ts => if sessionDate ts ∈ allowed then 1 else 0

def isLongEntryRegimeAllowed (barTimestamp : ℤ) (allowedDates : Option (Finset ℤ))
    (regimeFilterEnabled : Bool) : Bool :=
  if !regimeFilterEnabled then true
  else
    match allowedDates with
    | none => false
    | some allowed => sessionDate barTimestamp ∈ allowed

/-- A bar of a mask is one where the live filter permits an entry. -/
theorem buildRegimeMask_live (timestamps : List ℤ) (allowed : Finset ℤ) :
    buildRegimeMask timestamps (some allowed) = timestamps.map fun ts =>
      if isLongEntryRegimeAllowed ts (some allowed) true = true then 1 else 0 := by
  refine List.map_congr_left fun ts _ => if_congr ?_ rfl rfl
  exact decide_eq_true_iff.symm

/-- The last bar of each day, by day. -/
def byDay (bars : List (ℤ × ℚ)) : Dict ℤ (ℤ × ℚ) := Dict.keyBy (fun bar => sessionDate bar.1) bars

def dailyBars (bars : List (ℤ × ℚ)) : List (ℤ × ℚ) :=
  let orderedDays := StableSort.sortBy id ((byDay bars).items.map Prod.fst)
  orderedDays.filterMap (byDay bars).get?

def dailyClosesFromIntradayBars (timestamps : List ℤ) (closes : List ℚ) : List ℤ × List ℚ :=
  let daily := dailyBars (timestamps.zip closes)
  (daily.map Prod.fst, daily.map Prod.snd)

/-- `refresh_uptrend_from_intraday`: the dates that a history of bars permits. -/
def uptrendFromIntraday (bars : List (ℤ × ℚ)) (period : ℤ) : Finset ℤ :=
  let daily := dailyClosesFromIntradayBars (bars.map Prod.fst) (bars.map Prod.snd)
  buildUptrendSessionDates daily.1 daily.2 period

/-- The mask of a history of bars. -/
def regimeMask (bars : List (ℤ × ℚ)) (period : ℤ) : List ℤ :=
  buildRegimeMask (bars.map Prod.fst) (some (uptrendFromIntraday bars period))

/-! ## Days of a history -/

/-- The bars that no later bar of their day follows. -/
def dayEnds : List (ℤ × ℚ) → List (ℤ × ℚ)
  | [] => []
  | bar :: rest =>
    if ∃ later ∈ rest, sessionDate later.1 = sessionDate bar.1 then dayEnds rest
    else bar :: dayEnds rest

/-- Bars in the order of their days. -/
def ByDate (bars : List (ℤ × ℚ)) : Prop :=
  bars.Pairwise fun a b => sessionDate a.1 ≤ sessionDate b.1

theorem sessionDate_mono {a b : ℤ} (h : a ≤ b) : sessionDate a ≤ sessionDate b :=
  Int.ediv_le_ediv (by decide) h

theorem byDate_of_increasing {bars : List (ℤ × ℚ)} (h : (bars.map Prod.fst).Pairwise (· < ·)) :
    ByDate bars :=
  (List.pairwise_map.mp h).imp fun hlt => sessionDate_mono hlt.le

theorem dayEnds_subset (bars : List (ℤ × ℚ)) : dayEnds bars ⊆ bars := by
  induction bars with
  | nil => exact List.Subset.refl _
  | cons bar rest ih =>
    rw [dayEnds]
    split
    · exact List.subset_cons_of_subset _ ih
    · exact List.cons_subset_cons _ ih

/-- No two of them are on one day. -/
theorem dayEnds_increasing {bars : List (ℤ × ℚ)} (h : ByDate bars) :
    (dayEnds bars).Pairwise fun a b => sessionDate a.1 < sessionDate b.1 := by
  induction bars with
  | nil => exact List.Pairwise.nil
  | cons bar rest ih =>
    obtain ⟨hbar, hrest⟩ := List.pairwise_cons.mp h
    rw [dayEnds]
    split
    · exact ih hrest
    · rename_i hlast
      refine List.pairwise_cons.mpr ⟨fun x hx => ?_, ih hrest⟩
      have hx := dayEnds_subset _ hx
      exact lt_of_le_of_ne (hbar x hx) fun heq => hlast ⟨x, hx, heq.symm⟩

/-- They are what a dictionary by day ends up with. -/
theorem mem_dayEnds {bars : List (ℤ × ℚ)} {x : ℤ × ℚ} :
    x ∈ dayEnds bars ↔ (byDay bars).get? (sessionDate x.1) = some x := by
  induction bars with
  | nil => exact iff_of_false List.not_mem_nil nofun
  | cons bar rest ih =>
    rw [byDay, Dict.get?_keyBy_cons, ← byDay, dayEnds]
    split
    · rename_i hlater
      obtain ⟨later, hmem, hday⟩ := hlater
      rw [ih]
      by_cases hx : sessionDate bar.1 = sessionDate x.1
      · cases hget : (byDay rest).get? (sessionDate x.1) with
        | none => exact absurd (hday.trans hx) ((Dict.keyBy_eq_none _).mp hget later hmem)
        | some y => exact Iff.rfl
      · rw [if_neg hx, Option.or_none]
    · rename_i hlast
      rw [List.mem_cons, ih]
      by_cases hx : sessionDate bar.1 = sessionDate x.1
      · have hnone : (byDay rest).get? (sessionDate x.1) = none := by
          refine (Dict.keyBy_eq_none _).mpr fun y hy hday => hlast ⟨y, hy, ?_⟩
          exact hday.trans hx.symm
        rw [hnone, if_pos hx, Option.none_or, Option.some.injEq]
        exact ⟨fun h => (h.resolve_right nofun).symm, fun h => .inl h.symm⟩
      · rw [if_neg hx, Option.or_none]
        refine or_iff_right ?_
        rintro rfl
        exact hx rfl

/-- The days come out in order. -/
theorem dailyBars_increasing (bars : List (ℤ × ℚ)) :
    (dailyBars bars).Pairwise fun a b => sessionDate a.1 < sessionDate b.1 := by
  have hkeys : ∀ day bar, (byDay bars).get? day = some bar → sessionDate bar.1 = day :=
    fun day bar hget => (Dict.mem_of_keyBy _ hget).2
  let days := (byDay bars).items.map Prod.fst
  have hsorted : StableSort.Sorted id (StableSort.sortBy id days) := StableSort.sortBy_sorted days
  have hperm : (StableSort.sortBy id days).Perm days := StableSort.sortBy_perm days
  have hnodup := hperm.nodup_iff.mpr (byDay bars).nodup
  refine List.Pairwise.filterMap _ (fun a b hlt x hx y hy => ?_)
    (hsorted.imp₂ (fun a b hle hne => lt_of_le_of_ne hle hne) hnodup)
  rw [hkeys a x hx, hkeys b y hy]
  exact hlt

theorem mem_dailyBars {bars : List (ℤ × ℚ)} {x : ℤ × ℚ} :
    x ∈ dailyBars bars ↔ (byDay bars).get? (sessionDate x.1) = some x := by
  unfold dailyBars
  rw [List.mem_filterMap]
  constructor
  · intro h
    obtain ⟨day, -, hget⟩ := h
    rw [(Dict.mem_of_keyBy _ hget).2]
    exact hget
  · intro hget
    refine ⟨sessionDate x.1, (StableSort.sortBy_perm _).mem_iff.mpr ?_, hget⟩
    by_contra hno
    rw [(byDay bars).get?_eq_none.mpr hno] at hget
    cases hget

/-- **The collapse to daily bars** keeps each day's last bar. -/
theorem dailyBars_eq {bars : List (ℤ × ℚ)} (h : ByDate bars) : dailyBars bars = dayEnds bars := by
  have hirrefl : Std.Irrefl fun a b : ℤ × ℚ => sessionDate a.1 < sessionDate b.1 :=
    ⟨fun a => lt_irrefl _⟩
  have hantisymm : Std.Antisymm fun a b : ℤ × ℚ => sessionDate a.1 < sessionDate b.1 :=
    ⟨fun a b hab hba => absurd hba hab.not_gt⟩
  exact (dailyBars_increasing bars).eq_of_mem_iff (dayEnds_increasing h)
    fun x => mem_dailyBars.trans mem_dayEnds.symm

/-! ## What a day permits -/

section Loop
variable (timestamps : List ℤ) (closeValues : List ℚ) (n : ℕ)

/-- The close at `idx` is above the mean of the window that ends with it. -/
def Above (idx : ℕ) : Prop :=
  (window closeValues (n + 1) (idx + 1)).sum / ((n + 1 : ℕ) : ℚ) < closeValues.getD idx 0

/-- One pass, when it leaves the sum of the window at `idx`. -/
theorem mem_uptrendStep {s : ℚ × Finset ℤ} {idx : ℕ}
    (hrun : (uptrendStep timestamps closeValues (n + 1) s idx).1 =
      (window closeValues (n + 1) (idx + 1)).sum) (day : ℤ) :
    day ∈ (uptrendStep timestamps closeValues (n + 1) s idx).2 ↔
      day ∈ s.2 ∨ Above closeValues n idx ∧ sessionDate (timestamps.getD idx 0) = day := by
  have hset : (uptrendStep timestamps closeValues (n + 1) s idx).2 =
      if (uptrendStep timestamps closeValues (n + 1) s idx).1 / ((n + 1 : ℕ) : ℚ) <
          closeValues.getD idx 0 then
        insert (sessionDate (timestamps.getD idx 0)) s.2
      else s.2 := rfl
  rw [hset, hrun, Above]
  split
  · rename_i habove
    rw [Finset.mem_insert, or_comm, eq_comm (a := day), and_iff_right habove]
  · rename_i habove
    exact (or_iff_left fun h => habove h.1).symm

/-- The loop up to `n + k`: the sum is the window's, and the dates are of the days above. -/
theorem uptrendLoop (k : ℕ) (hk : n + k < closeValues.length) :
    let s := (List.range' n (k + 1)).foldl (uptrendStep timestamps closeValues (n + 1))
      ((closeValues.take (n + 1)).sum, ∅)
    s.1 = (window closeValues (n + 1) (n + k + 1)).sum ∧
      ∀ day, day ∈ s.2 ↔ ∃ idx, (n ≤ idx ∧ idx ≤ n + k) ∧ Above closeValues n idx ∧
        sessionDate (timestamps.getD idx 0) = day := by
  induction k with
  | zero =>
    have hrun : (uptrendStep timestamps closeValues (n + 1)
        ((closeValues.take (n + 1)).sum, ∅) n).1 = (window closeValues (n + 1) (n + 1)).sum := by
      rw [window_of_le le_rfl]
      exact if_neg (Nat.not_succ_le_self n)
    refine ⟨hrun, fun day => (mem_uptrendStep timestamps closeValues n hrun day).trans ?_⟩
    rw [or_iff_right (Finset.notMem_empty day)]
    constructor
    · exact fun h => ⟨n, ⟨le_rfl, le_rfl⟩, h⟩
    · intro h
      obtain ⟨idx, ⟨hlo, hhi⟩, h⟩ := h
      obtain rfl : idx = n := le_antisymm hhi hlo
      exact h
  | succ k ih =>
    obtain ⟨hprev, hmem⟩ := ih (by omega)
    intro s
    have hs : s = uptrendStep timestamps closeValues (n + 1)
        ((List.range' n (k + 1)).foldl (uptrendStep timestamps closeValues (n + 1))
          ((closeValues.take (n + 1)).sum, ∅)) (n + (k + 1)) := by
      show (List.range' n (k + 1 + 1)).foldl _ _ = _
      rw [List.range'_1_concat, List.foldl_concat]
    have hrun : s.1 = (window closeValues (n + 1) (n + (k + 1) + 1)).sum := by
      rw [hs, sum_window_succ hk (by omega), ← add_assoc n k 1, ← hprev]
      exact if_pos (by omega)
    refine ⟨hrun, fun day => ?_⟩
    rw [hs] at hrun ⊢
    rw [mem_uptrendStep timestamps closeValues n hrun, hmem]
    constructor
    · intro h
      rcases h with ⟨idx, ⟨hlo, hhi⟩, h⟩ | h
      · exact ⟨idx, ⟨hlo, hhi.trans (by omega)⟩, h⟩
      · exact ⟨n + (k + 1), ⟨Nat.le_add_right _ _, le_rfl⟩, h⟩
    · intro h
      obtain ⟨idx, ⟨hlo, hhi⟩, h⟩ := h
      rcases hhi.lt_or_eq with hlt | rfl
      · exact .inl ⟨idx, ⟨hlo, by omega⟩, h⟩
      · exact .inr h

end Loop

/-- A day is in an uptrend: its close is above the mean of it and the closes before. -/
def Uptrend (prior : List ℚ) (period : ℤ) (close : ℚ) : Prop :=
  period ≤ prior.length + 1 ∧
    (prior.drop (prior.length + 1 - period.toNat)).sum < (period - 1) * close

/-- Above the mean that includes it, or above the mean of the closes before. -/
theorem above_iff (before after : List ℚ) (close : ℚ) (n : ℕ) :
    Above (before ++ close :: after) n before.length ↔
      (before.drop (before.length - n)).sum < n * close := by
  have hclose : (before ++ close :: after).getD before.length 0 = close := by
    rw [List.getD_append_right _ _ _ _ le_rfl, Nat.sub_self, List.getD_cons_zero]
  have hp : (0 : ℚ) < (n + 1 : ℕ) := by exact_mod_cast n.succ_pos
  rw [Above, hclose, window_append_cons, List.sum_append, List.sum_singleton, div_lt_iff₀ hp]
  push_cast
  constructor <;> intro h <;> linarith

/-- Each date is that of one daily bar. -/
theorem getD_date_inj {daily : List (ℤ × ℚ)}
    (h : daily.Pairwise fun a b => sessionDate a.1 < sessionDate b.1) {i j : ℕ}
    (hi : i < daily.length) (hj : j < daily.length)
    (heq : sessionDate ((daily.map Prod.fst).getD i 0) =
      sessionDate ((daily.map Prod.fst).getD j 0)) : i = j := by
  have hnodup : (daily.map fun bar => sessionDate bar.1).Nodup :=
    List.pairwise_map.mpr (h.imp fun hlt => hlt.ne)
  rw [List.getD_eq_getElem _ _ (by simpa using hi), List.getD_eq_getElem _ _ (by simpa using hj),
    List.getElem_map, List.getElem_map] at heq
  have hi' : i < (daily.map fun bar => sessionDate bar.1).length := by simpa using hi
  have hj' : j < (daily.map fun bar => sessionDate bar.1).length := by simpa using hj
  have heq' : (daily.map fun bar => sessionDate bar.1)[i] =
      (daily.map fun bar => sessionDate bar.1)[j] := by
    rw [List.getElem_map, List.getElem_map]
    exact heq
  exact hnodup.getElem_inj_iff.mp heq'

/-- **The permitted dates** are those of the days in an uptrend. -/
theorem mem_buildUptrendSessionDates {before after : List (ℤ × ℚ)} {bar : ℤ × ℚ}
    (h : (before ++ bar :: after).Pairwise fun a b => sessionDate a.1 < sessionDate b.1)
    {period : ℤ} (hp : 1 ≤ period) :
    sessionDate bar.1 ∈ buildUptrendSessionDates ((before ++ bar :: after).map Prod.fst)
        ((before ++ bar :: after).map Prod.snd) period ↔
      Uptrend (before.map Prod.snd) period bar.2 := by
  obtain ⟨n, rfl⟩ : ∃ n : ℕ, period = n + 1 := ⟨(period - 1).toNat, by omega⟩
  have hlen : (before ++ bar :: after).length = before.length + 1 + after.length := by simp; omega
  have hown : ((before ++ bar :: after).map Prod.fst).getD before.length 0 = bar.1 := by
    simp
  have habove := above_iff (before.map Prod.snd) (after.map Prod.snd) bar.2 n
  rw [List.length_map, ← List.map_cons, ← List.map_append] at habove
  have htrend : Uptrend (before.map Prod.snd) (n + 1) bar.2 ↔
      n ≤ before.length ∧ Above ((before ++ bar :: after).map Prod.snd) n before.length := by
    rw [habove, Uptrend, List.length_map, Int.toNat_natCast_add_one, Nat.add_sub_add_right]
    push_cast
    rw [add_sub_cancel_right, add_le_add_iff_right, Nat.cast_le]
  rw [htrend, buildUptrendSessionDates, if_neg (by omega), List.length_map, List.length_map]
  by_cases hshort : (((before ++ bar :: after).length : ℕ) : ℤ) < n + 1
  · rw [if_pos (.inl hshort)]
    exact iff_of_false (Finset.notMem_empty _) fun hno => by omega
  · obtain ⟨k, hk⟩ : ∃ k, (before ++ bar :: after).length = n + (k + 1) :=
      ⟨(before ++ bar :: after).length - n - 1, by omega⟩
    have hcount : (before ++ bar :: after).length - n = k + 1 := by omega
    rw [if_neg (not_or.mpr ⟨hshort, fun hne => hne rfl⟩), Int.toNat_natCast_add_one,
      Nat.add_sub_cancel]
    dsimp only
    rw [hcount, (uptrendLoop _ _ n k (by rw [List.length_map]; omega)).2]
    constructor
    · intro hin
      obtain ⟨idx, ⟨hlo, hhi⟩, ha, hdate⟩ := hin
      rw [← hown] at hdate
      have hidx := getD_date_inj h (by omega) (by omega) hdate
      exact hidx ▸ ⟨hlo, ha⟩
    · intro hin
      exact ⟨before.length, ⟨hin.1, by omega⟩, hin.2, congrArg sessionDate hown⟩

/-! ## The bars of one day -/

theorem dayEnds_append {xs ys : List (ℤ × ℚ)}
    (h : ∀ x ∈ xs, ∀ y ∈ ys, sessionDate y.1 ≠ sessionDate x.1) :
    dayEnds (xs ++ ys) = dayEnds xs ++ dayEnds ys := by
  induction xs with
  | nil => rfl
  | cons bar xs ih =>
    have hsame : (∃ later ∈ xs ++ ys, sessionDate later.1 = sessionDate bar.1) ↔
        ∃ later ∈ xs, sessionDate later.1 = sessionDate bar.1 := by
      constructor
      · intro hlater
        obtain ⟨later, hmem, hday⟩ := hlater
        refine ⟨later, (List.mem_append.mp hmem).resolve_right fun hy => ?_, hday⟩
        exact h bar List.mem_cons_self later hy hday
      · intro hlater
        obtain ⟨later, hmem, hday⟩ := hlater
        exact ⟨later, List.mem_append_left _ hmem, hday⟩
    have ih := ih fun x hx => h x (List.mem_cons_of_mem _ hx)
    simp only [List.cons_append, dayEnds, hsame, ih]
    split <;> rfl

theorem dayEnds_of_one_day {xs : List (ℤ × ℚ)} {bar : ℤ × ℚ}
    (h : ∀ x ∈ xs, sessionDate bar.1 = sessionDate x.1) : dayEnds (xs ++ [bar]) = [bar] := by
  induction xs with
  | nil => simp [dayEnds]
  | cons x xs ih =>
    rw [List.cons_append, dayEnds, if_pos ⟨bar, List.mem_concat_self, h x List.mem_cons_self⟩]
    exact ih fun y hy => h y (List.mem_cons_of_mem _ hy)

/-- Bars before a day come first. -/
theorem filter_append_filter {bars : List (ℤ × ℚ)} (h : ByDate bars) (day : ℤ) :
    bars.filter (fun bar => sessionDate bar.1 < day) ++
      bars.filter (fun bar => ¬ sessionDate bar.1 < day) = bars := by
  induction bars with
  | nil => rfl
  | cons bar rest ih =>
    obtain ⟨hbar, hrest⟩ := List.pairwise_cons.mp h
    by_cases hday : sessionDate bar.1 < day
    · simpa [hday] using ih hrest
    · have hlate : ∀ x ∈ bar :: rest, day ≤ sessionDate x.1 := by
        intro x hx
        rcases List.mem_cons.mp hx with rfl | hx
        · exact not_lt.mp hday
        · exact (not_lt.mp hday).trans (hbar x hx)
      rw [List.filter_eq_nil_iff.mpr fun x hx => by simpa using hlate x hx, List.nil_append,
        List.filter_eq_self.mpr fun x hx => by simpa using hlate x hx]

/-- The last close of a day. -/
def dayClose (bars : List (ℤ × ℚ)) (day : ℤ) : ℚ :=
  ((bars.filter fun bar => sessionDate bar.1 = day).getLast?.map Prod.snd).getD 0

/-- The closes of the days before a day. -/
def priorCloses (bars : List (ℤ × ℚ)) (day : ℤ) : List ℚ :=
  (dayEnds (bars.filter fun bar => sessionDate bar.1 < day)).map Prod.snd

/-- The daily bars, split at a day. -/
theorem dayEnds_split {bars : List (ℤ × ℚ)} (h : ByDate bars) {bar : ℤ × ℚ} (hbar : bar ∈ bars) :
    ∃ last later, sessionDate last.1 = sessionDate bar.1 ∧
      last.2 = dayClose bars (sessionDate bar.1) ∧
      dayEnds bars =
        dayEnds (bars.filter fun x => sessionDate x.1 < sessionDate bar.1) ++ last :: later := by
  have hearly := filter_append_filter h (sessionDate bar.1)
  have hlate := filter_append_filter
    (h.sublist (List.filter_sublist (p := fun x => ¬ sessionDate x.1 < sessionDate bar.1)))
    (sessionDate bar.1 + 1)
  rw [List.filter_filter] at hlate
  have htoday : bars.filter (fun x => decide (sessionDate x.1 < sessionDate bar.1 + 1) &&
      decide ¬ sessionDate x.1 < sessionDate bar.1) =
      bars.filter fun x => sessionDate x.1 = sessionDate bar.1 := by
    refine List.filter_congr fun x _ => ?_
    rw [← Bool.decide_and]
    exact decide_eq_decide.mpr (by omega)
  rw [htoday] at hlate
  have hin : bar ∈ bars.filter fun x => sessionDate x.1 = sessionDate bar.1 := by
    simpa using hbar
  obtain ⟨init, last, hinit⟩ :=
    (List.eq_nil_or_concat' _).resolve_left (List.ne_nil_of_mem hin)
  have hdays : ∀ x ∈ init ++ [last], sessionDate x.1 = sessionDate bar.1 := by
    intro x hx
    rw [← hinit] at hx
    simpa using (List.mem_filter.mp hx).2
  have hlast := hdays last List.mem_concat_self
  refine ⟨last, dayEnds ((bars.filter fun x => ¬ sessionDate x.1 < sessionDate bar.1).filter
    fun x => ¬ sessionDate x.1 < sessionDate bar.1 + 1), hlast, ?_, ?_⟩
  · rw [dayClose, hinit, List.getLast?_concat]
    rfl
  · conv_lhs => rw [← hearly, ← hlate, hinit]
    rw [dayEnds_append, dayEnds_append, dayEnds_of_one_day]
    · rfl
    · intro x hx
      rw [hlast, hdays x (List.mem_append_left _ hx)]
    · intro x hx y hy
      have hy := (List.mem_filter.mp hy).2
      rw [decide_eq_true_eq] at hy
      rw [hdays x hx]
      omega
    · intro x hx y hy
      have hx := (List.mem_filter.mp hx).2
      rw [decide_eq_true_eq] at hx
      rw [← hinit, hlate] at hy
      have hy := (List.mem_filter.mp hy).2
      rw [decide_eq_true_eq] at hy
      omega

/-- A day of the history is permitted when it is in an uptrend. -/
theorem mem_uptrendFromIntraday {bars : List (ℤ × ℚ)} (h : ByDate bars) {bar : ℤ × ℚ}
    (hbar : bar ∈ bars) {period : ℤ} (hp : 1 ≤ period) :
    sessionDate bar.1 ∈ uptrendFromIntraday bars period ↔
      Uptrend (priorCloses bars (sessionDate bar.1)) period
        (dayClose bars (sessionDate bar.1)) := by
  obtain ⟨last, later, hdate, hclose, hsplit⟩ := dayEnds_split h hbar
  have hdaily := dayEnds_increasing h
  have hzip : (bars.map Prod.fst).zip (bars.map Prod.snd) = bars := by simp [List.zip_map']
  unfold uptrendFromIntraday dailyClosesFromIntradayBars
  dsimp only
  rw [hzip, dailyBars_eq h]
  rw [hsplit] at hdaily ⊢
  have hmem := mem_buildUptrendSessionDates hdaily hp
  rw [hdate, hclose] at hmem
  exact hmem

/-! ## Cutting the history -/

/-- The close `bar` gives its day and the close the day ends at are on one side of the mean
of the days before, if there are enough of these. -/
def SameSide (bars : List (ℤ × ℚ)) (period : ℤ) (bar : ℤ × ℚ) : Prop :=
  let day := sessionDate bar.1
  let prior := priorCloses bars day
  let trailing := prior.drop (prior.length + 1 - period.toNat)
  period ≤ prior.length + 1 →
    (trailing.sum < (period - 1) * bar.2 ↔ trailing.sum < (period - 1) * dayClose bars day)

theorem sameSide_iff {bars : List (ℤ × ℚ)} {period : ℤ} {bar : ℤ × ℚ} :
    SameSide bars period bar ↔
      (Uptrend (priorCloses bars (sessionDate bar.1)) period bar.2 ↔
        Uptrend (priorCloses bars (sessionDate bar.1)) period
          (dayClose bars (sessionDate bar.1))) :=
  and_congr_right_iff.symm

/-- The masks of two histories agree on bars whose dates both permit or both do not. -/
theorem buildRegimeMask_congr {timestamps : List ℤ} {a b : Finset ℤ} :
    buildRegimeMask timestamps (some a) = buildRegimeMask timestamps (some b) ↔
      ∀ ts ∈ timestamps, (sessionDate ts ∈ a ↔ sessionDate ts ∈ b) := by
  unfold buildRegimeMask
  dsimp only
  rw [List.map_inj_left]
  refine forall₂_congr fun ts _ => ?_
  by_cases ha : sessionDate ts ∈ a <;> by_cases hb : sessionDate ts ∈ b <;> simp [ha, hb]

theorem dayClose_append {q rest : List (ℤ × ℚ)} {day : ℤ}
    (h : ∀ x ∈ rest, sessionDate x.1 ≠ day) : dayClose (q ++ rest) day = dayClose q day := by
  have hnone : rest.filter (fun x => sessionDate x.1 = day) = [] :=
    List.filter_eq_nil_iff.mpr fun x hx => by simpa using h x hx
  rw [dayClose, List.filter_append, hnone, List.append_nil, dayClose]

theorem priorCloses_append {q rest : List (ℤ × ℚ)} {day : ℤ}
    (h : ∀ x ∈ rest, day ≤ sessionDate x.1) :
    priorCloses (q ++ rest) day = priorCloses q day := by
  have hnone : rest.filter (fun x => sessionDate x.1 < day) = [] :=
    List.filter_eq_nil_iff.mpr fun x hx => by simpa using h x hx
  rw [priorCloses, List.filter_append, hnone, List.append_nil, priorCloses]

/-- **A history cut after `bar`** has the mask of the whole exactly when the two closes of
the day it is cut in are on the same side. -/
theorem mask_cut_iff {q rest : List (ℤ × ℚ)} {bar : ℤ × ℚ} (h : ByDate ((q ++ [bar]) ++ rest))
    {period : ℤ} (hp : 1 ≤ period) :
    buildRegimeMask ((q ++ [bar]).map Prod.fst)
          (some (uptrendFromIntraday (q ++ [bar]) period)) =
        buildRegimeMask ((q ++ [bar]).map Prod.fst)
          (some (uptrendFromIntraday ((q ++ [bar]) ++ rest) period)) ↔
      SameSide ((q ++ [bar]) ++ rest) period bar := by
  obtain ⟨hcut, -, hrest⟩ := List.pairwise_append.mp h
  obtain ⟨-, -, hq⟩ := List.pairwise_append.mp hcut
  have hrest : ∀ x ∈ rest, sessionDate bar.1 ≤ sessionDate x.1 :=
    hrest bar List.mem_concat_self
  have hown : dayClose (q ++ [bar]) (sessionDate bar.1) = bar.2 := by
    simp [dayClose, List.filter_append]
  rw [buildRegimeMask_congr, sameSide_iff]
  constructor
  · intro hall
    have hbar := hall bar.1 (List.mem_map_of_mem List.mem_concat_self)
    rw [mem_uptrendFromIntraday hcut List.mem_concat_self hp,
      mem_uptrendFromIntraday h (List.mem_append_left _ List.mem_concat_self) hp, hown,
      ← priorCloses_append hrest] at hbar
    exact hbar
  · intro hside ts hts
    obtain ⟨x, hx, rfl⟩ := List.mem_map.mp hts
    have hle : sessionDate x.1 ≤ sessionDate bar.1 := by
      rcases List.mem_append.mp hx with hx | hx
      · exact hq x hx bar List.mem_cons_self
      · rw [List.mem_singleton.mp hx]
    rw [mem_uptrendFromIntraday hcut hx hp,
      mem_uptrendFromIntraday h (List.mem_append_left _ hx) hp]
    rw [← priorCloses_append fun y hy => hle.trans (hrest y hy)]
    rcases hle.lt_or_eq with hlt | heq
    · rw [dayClose_append fun y hy => (hlt.trans_le (hrest y hy)).ne']
    · rw [heq, hown]
      exact hside

/-- **No look-ahead**: the mask of a cut history is the cut mask of the whole exactly when
the latest close of the cut and the final close of that day are on the same side of the
mean of the days before. -/
theorem regimeMask_take_iff (bars : List (ℤ × ℚ)) (h : (bars.map Prod.fst).Pairwise (· < ·))
    (period : ℤ) (hp : 1 ≤ period) (k : ℕ) :
    regimeMask (bars.take k) period = (regimeMask bars period).take k ↔
      ∀ bar ∈ (bars.take k).getLast?, SameSide bars period bar := by
  have hmask : (regimeMask bars period).take k =
      buildRegimeMask ((bars.take k).map Prod.fst) (some (uptrendFromIntraday bars period)) := by
    unfold regimeMask buildRegimeMask
    dsimp only
    rw [← List.map_take, ← List.map_take]
  rw [hmask, regimeMask]
  rcases List.eq_nil_or_concat' (bars.take k) with hnil | ⟨q, bar, hcut⟩
  · rw [hnil]
    exact iff_of_true rfl nofun
  · have hbars : (q ++ [bar]) ++ bars.drop k = bars := by rw [← hcut, List.take_append_drop]
    have hdates := byDate_of_increasing h
    rw [← hbars] at hdates
    have hiff := mask_cut_iff hdates hp
    rw [hbars] at hiff
    rw [hcut, hiff, List.getLast?_concat]
    simp

/-- A day that closes at 10, and one that is at 12 and closes at 8. -/
def reversalDay : List (ℤ × ℚ) := [(0, 10), (86400000000, 12), (90000000000, 8)]

/-- At 12 the second day permits entries; the whole history says it never did. -/
theorem open_day_permits_more :
    (reversalDay.map Prod.fst).Pairwise (· < ·) ∧
      regimeMask (reversalDay.take 2) 2 ≠ (regimeMask reversalDay 2).take 2 := by
  decide +kernel

theorem regimeMask_take_reversalDay :
    (reversalDay.map Prod.fst).Pairwise (· < ·) ∧ (1 : ℤ) ≤ 2 ∧
      (regimeMask (reversalDay.take 2) 2 = (regimeMask reversalDay 2).take 2 ↔
        ∀ bar ∈ (reversalDay.take 2).getLast?, SameSide reversalDay 2 bar) :=
  ⟨by decide, by decide, regimeMask_take_iff reversalDay (by decide) 2 (by decide) 2⟩

end TradingPlatform.Strategies
