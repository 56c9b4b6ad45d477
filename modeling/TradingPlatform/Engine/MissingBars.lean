import TradingPlatform.Engine.SloMonitor
import TradingPlatform.Lib.Grid
import Mathlib.Algebra.BigOperators.Ring.Finset

/-! # The bars that are missing

The rate is meant to count the grid times without a bar between consecutive bars of
a session, of crypto between any. The day of an early close counts its whole
shortfall instead, and the grid of a day of crypto starts anew at midnight. -/

namespace TradingPlatform.Engine.Slo

open TradingPlatform.Core
open TradingPlatform.Ingestor (minute minute_pos)
open TradingPlatform.Lib.Grid
open TradingPlatform.Lib.StableSort

/-! ## Grids -/

section Grids
variable (calendar : MarketSessionCalendar) (zone : ExchangeZone) (barMinutes : ℤ)

/-- The grid of a session starts at its open. -/
def SessionGrid (d : ℤ) : Set ℤ :=
  {u | ∃ k, 0 ≤ k ∧ u = opensAt calendar zone d + k * (barMinutes * minute) ∧
    u ≤ closesAt calendar zone d}

/-- The grid of a day of crypto starts at midnight. -/
def DayGrid : Set ℤ :=
  {u | ∃ d k, 0 ≤ k ∧ k * (barMinutes * minute) < day ∧ u = d * day + k * (barMinutes * minute)}

def OnGrid (assetClass : String) (u : ℤ) : Prop :=
  if assetClass = "crypto" then u ∈ DayGrid barMinutes
  else ∃ d, calendar.isTradingDay d = true ∧ u ∈ SessionGrid calendar zone barMinutes d

/-- The grid times between two bars of one session. -/
def sessionBetween (a b : ℤ) : Set ℤ :=
  {u | ∃ d, calendar.isTradingDay d = true ∧ a ∈ SessionGrid calendar zone barMinutes d ∧
    b ∈ SessionGrid calendar zone barMinutes d ∧ u ∈ SessionGrid calendar zone barMinutes d ∧
    a < u ∧ u < b}

def dayBetween (a b : ℤ) : Set ℤ := {u | u ∈ DayGrid barMinutes ∧ a < u ∧ u < b}

def between (assetClass : String) (a b : ℤ) : Set ℤ :=
  if assetClass = "crypto" then dayBetween barMinutes a b
  else sessionBetween calendar zone barMinutes a b

/-- The grid times strictly between two consecutive bars. -/
def MissingTimes (assetClass : String) (bars : List ℤ) : Set ℤ :=
  {u | ∃ a b, Consecutive bars a b ∧ u ∈ between calendar zone barMinutes assetClass a b}

/-- A stock's last session closes at its hour, or nearly all of its bars are there; the
interval of crypto divides the day, or no grid time is missing overnight. -/
def CountsGaps (assetClass : String) (bars : List ℤ) : Prop :=
  if assetClass = "crypto" then
    barMinutes ∣ 1440 ∨
      ∀ a b, Consecutive bars a b → dateOf a ≠ dateOf b → dayBetween barMinutes a b = ∅
  else
    ∀ last, IsGreatest {b | b ∈ bars} last →
      calendar.isEarlyClose (dateOf (zone.toLocal last)) = true →
        calendar.expectedBarsForSession (dateOf (zone.toLocal last)) barMinutes ≤
          (bars.countP fun b => dateOf (zone.toLocal b) = dateOf (zone.toLocal last)) +
            (MissingTimes calendar zone barMinutes assetClass bars).ncard

end Grids

/-! ## One gap -/

theorem gapBars_nonneg {interval : ℤ} (hinterval : 0 < interval) (a b : ℤ) :
    0 ≤ gapBars interval a b := by
  unfold gapBars exceedsGap
  by_cases hlong : 7 * interval < 4 * (b - a)
  · have hone : 1 ≤ (b - a) / interval := (Int.le_ediv_iff_mul_le hinterval).mpr (by omega)
    rw [Int.tdiv_eq_ediv_of_nonneg (by omega)]
    simpa [hlong] using hone
  · simp [hlong]

/-- A gap of so many steps at most is counted in full exactly when it is as long, or one step. -/
theorem gapBars_le {interval delta steps : ℤ} (hinterval : 0 < interval) (hdelta : 0 < delta)
    (hsteps : 1 ≤ steps) (h : delta ≤ steps * interval) (a : ℤ) :
    gapBars interval a (a + delta) ≤ steps - 1 ∧
      (gapBars interval a (a + delta) = steps - 1 ↔ delta = steps * interval ∨ steps = 1) := by
  have hdiv : delta.tdiv interval = delta / interval := Int.tdiv_eq_ediv_of_nonneg hdelta.le
  unfold gapBars exceedsGap
  rw [add_sub_cancel_left, hdiv]
  obtain heq | hlt := h.eq_or_lt
  · have hquot : delta / interval = steps := by rw [heq, Int.mul_ediv_cancel _ hinterval.ne']
    rw [hquot, iff_true_right (.inl heq)]
    by_cases htwo : 2 ≤ steps
    · have hlong : 7 * interval < 4 * delta := by nlinarith
      simp [hlong]
    · obtain rfl : steps = 1 := by omega
      have hshort : ¬ 7 * interval < 4 * delta := by omega
      simp [hshort]
  · have hquot : delta / interval < steps := Int.ediv_lt_of_lt_mul hinterval hlt
    by_cases hlong : 7 * interval < 4 * delta
    · have hne : steps ≠ 1 := by
        rintro rfl
        omega
      simp only [hlong, decide_true, if_true]
      omega
    · simp only [hlong, decide_false, Bool.false_eq_true, if_false]
      omega

/-! ## Crypto -/

section Crypto
variable {barMinutes : ℤ} (hminutes : 0 < barMinutes)
include hminutes

theorem interval_pos : 0 < barMinutes * minute := mul_pos hminutes minute_pos

theorem dayGrid_eq : DayGrid barMinutes = Set.range (point day (barMinutes * minute)) := by
  ext u
  exact (mem_range_point day_pos (interval_pos hminutes)).symm

omit hminutes in
theorem interval_dvd_day_iff : barMinutes * minute ∣ day ↔ barMinutes ∣ 1440 := by
  have hday : day = 1440 * minute := by decide
  rw [hday, Int.mul_dvd_mul_iff_right minute_pos.ne']

/-- The day of a grid time is the period of its index. -/
theorem dateOf_point (n : ℤ) :
    dateOf (point day (barMinutes * minute) n) = n / perPeriod day (barMinutes * minute) := by
  have hpos := perPeriod_pos day_pos (interval_pos hminutes)
  have hk := Int.emod_nonneg n hpos.ne'
  have hlt := (lt_perPeriod_iff (interval_pos hminutes)).mp (Int.emod_lt_of_pos n hpos)
  exact dateOf_combine (mul_nonneg hk (interval_pos hminutes).le) hlt

/-- **A gap of crypto** counts at most the grid times in it, and all of them exactly when the
interval divides the day, the day is one, or there are none. -/
theorem cryptoGap {a b : ℤ} (ha : a ∈ DayGrid barMinutes) (hb : b ∈ DayGrid barMinutes)
    (hlt : a < b) :
    0 ≤ gapBars (barMinutes * minute) a b ∧
      gapBars (barMinutes * minute) a b ≤ (dayBetween barMinutes a b).ncard ∧
      (gapBars (barMinutes * minute) a b = (dayBetween barMinutes a b).ncard ↔
        barMinutes ∣ 1440 ∨ (dateOf a ≠ dateOf b → dayBetween barMinutes a b = ∅)) := by
  have hinterval := interval_pos hminutes
  have hmono := point_strictMono day_pos hinterval
  rw [dayGrid_eq hminutes] at ha hb
  obtain ⟨i, rfl⟩ := ha
  obtain ⟨j, rfl⟩ := hb
  have hij : i < j := hmono.lt_iff_lt.mp hlt
  have hset : dayBetween barMinutes (point day (barMinutes * minute) i)
      (point day (barMinutes * minute) j) = Set.range (point day (barMinutes * minute)) ∩
        Set.Ioo (point day (barMinutes * minute) i) (point day (barMinutes * minute) j) := by
    rw [← dayGrid_eq hminutes]
    rfl
  have hcount := ncard_range_inter_Ioo hmono i j
  obtain ⟨hle, heq⟩ := point_sub_le day_pos hinterval hij.le
  obtain ⟨hgap, hgapeq⟩ := gapBars_le hinterval (sub_pos.mpr hlt) (by omega) hle
    (point day (barMinutes * minute) i)
  have hcast : ((j - i - 1).toNat : ℤ) = j - i - 1 := Int.toNat_of_nonneg (by omega)
  have hempty : dayBetween barMinutes (point day (barMinutes * minute) i)
      (point day (barMinutes * minute) j) = ∅ ↔ j - i = 1 := by
    rw [hset, ← Set.ncard_eq_zero ((Set.finite_Ioo _ _).subset Set.inter_subset_right), hcount]
    omega
  rw [add_sub_cancel] at hgap hgapeq
  rw [hempty, hset, hcount, hcast, hgapeq, heq, interval_dvd_day_iff, dateOf_point hminutes,
    dateOf_point hminutes]
  refine ⟨gapBars_nonneg hinterval _ _, hgap, ?_⟩
  tauto

end Crypto

/-! ## Stock -/

section Stock
variable {calendar : MarketSessionCalendar} {zone : ExchangeZone} {barMinutes : ℤ}
  (hminutes : 0 < barMinutes)
include hminutes

/-- A grid time lies within its session, on its day by either clock. -/
theorem within_of_sessionGrid {d u : ℤ} (hd : calendar.isTradingDay d = true)
    (hu : u ∈ SessionGrid calendar zone barMinutes d) :
    calendar.isWithinRth zone u = true ∧ dateOf (zone.toLocal u) = d ∧ dateOf u = d := by
  obtain ⟨k, hk, heq, hclose⟩ := hu
  have hopen : opensAt calendar zone d ≤ u := by
    have hnonneg := mul_nonneg hk (interval_pos hminutes).le
    omega
  exact ⟨isWithinRth_iff.mpr ⟨d, hd, hopen, hclose⟩, dateOf_session hd hopen hclose,
    dateOf_utc_session hd hopen hclose⟩

/-- Grid times of different sessions have none between. -/
theorem sessionBetween_of_ne {d d' a b : ℤ} (hd : calendar.isTradingDay d = true)
    (ha : a ∈ SessionGrid calendar zone barMinutes d) (hd' : calendar.isTradingDay d' = true)
    (hb : b ∈ SessionGrid calendar zone barMinutes d') (hne : d ≠ d') :
    sessionBetween calendar zone barMinutes a b = ∅ := by
  refine Set.eq_empty_of_forall_notMem ?_
  rintro u ⟨e, he, hae, hbe, -⟩
  refine hne ?_
  rw [← (within_of_sessionGrid hminutes hd ha).2.2, ← (within_of_sessionGrid hminutes hd' hb).2.2,
    (within_of_sessionGrid hminutes he hae).2.2, (within_of_sessionGrid hminutes he hbe).2.2]

theorem sessionBetween_eq {d i j : ℤ} (hd : calendar.isTradingDay d = true) (hi : 0 ≤ i)
    (hlt : i < j) (hclose : opensAt calendar zone d + j * (barMinutes * minute) ≤
      closesAt calendar zone d) :
    (sessionBetween calendar zone barMinutes
      (opensAt calendar zone d + i * (barMinutes * minute))
      (opensAt calendar zone d + j * (barMinutes * minute))).ncard = (j - i - 1).toNat := by
  have hmono : StrictMono fun k : ℤ => opensAt calendar zone d + k * (barMinutes * minute) :=
    fun k l hkl => Int.add_lt_add_left (Int.mul_lt_mul_of_pos_right hkl (interval_pos hminutes)) _
  rw [← ncard_range_inter_Ioo hmono i j]
  have hgrid : ∀ k, 0 ≤ k → k ≤ j → opensAt calendar zone d + k * (barMinutes * minute) ∈
      SessionGrid calendar zone barMinutes d := fun k hk hkj =>
    ⟨k, hk, rfl, (hmono.monotone hkj).trans hclose⟩
  congr 1
  ext u
  constructor
  · rintro ⟨e, he, hae, -, ⟨k, -, rfl, -⟩, hau, hub⟩
    have hsame := (within_of_sessionGrid hminutes he hae).2.2
    rw [(within_of_sessionGrid hminutes hd (hgrid i hi hlt.le)).2.2] at hsame
    subst hsame
    exact ⟨⟨k, rfl⟩, hau, hub⟩
  · rintro ⟨⟨k, rfl⟩, hau, hub⟩
    have hik : i < k := hmono.lt_iff_lt.mp hau
    have hkj : k < j := hmono.lt_iff_lt.mp hub
    exact ⟨d, hd, hgrid i hi hlt.le, hgrid j (by omega) le_rfl, hgrid k (by omega) hkj.le, hau, hub⟩

/-- **A gap of stock** counts the grid times of its session. -/
theorem stockGap {a b : ℤ}
    (ha : ∃ d, calendar.isTradingDay d = true ∧ a ∈ SessionGrid calendar zone barMinutes d)
    (hb : ∃ d, calendar.isTradingDay d = true ∧ b ∈ SessionGrid calendar zone barMinutes d)
    (hlt : a < b) :
    (if bothInSameRthSpan calendar zone a b then gapBars (barMinutes * minute) a b else 0) =
      (sessionBetween calendar zone barMinutes a b).ncard := by
  have hinterval := interval_pos hminutes
  obtain ⟨d, hd, hagrid⟩ := ha
  obtain ⟨d', hd', hbgrid⟩ := hb
  obtain ⟨hawithin, -, hadate⟩ := within_of_sessionGrid hminutes hd hagrid
  obtain ⟨hbwithin, -, hbdate⟩ := within_of_sessionGrid hminutes hd' hbgrid
  unfold bothInSameRthSpan
  rw [hadate, hbdate, hawithin, hbwithin]
  by_cases hsame : d = d'
  · subst hsame
    obtain ⟨i, hi, rfl, -⟩ := hagrid
    obtain ⟨j, -, rfl, hclose⟩ := hbgrid
    have hij : i < j :=
      lt_of_mul_lt_mul_right (Int.lt_of_add_lt_add_left hlt) hinterval.le
    have hdelta : opensAt calendar zone d + j * (barMinutes * minute) =
        opensAt calendar zone d + i * (barMinutes * minute) + (j - i) * (barMinutes * minute) := by
      rw [Int.sub_mul]
      omega
    rw [sessionBetween_eq hminutes hd hi hij hclose, hdelta,
      (gapBars_le hinterval (mul_pos (by omega) hinterval) (by omega) le_rfl _).2.mpr (.inl rfl)]
    simp only [ne_eq, not_true_eq_false, if_false, Bool.and_self, if_true]
    omega
  · rw [sessionBetween_of_ne hminutes hd hagrid hd' hbgrid hsame]
    simp [hsame]

end Stock

/-! ## The rate -/

section Rate
variable {calendar : MarketSessionCalendar} {zone : ExchangeZone} {barMinutes : ℤ}
  {assetClass : String} {bars : List ℤ}

/-- The rate tells how many bars were counted as missing. -/
theorem rate_eq_iff {n : ℕ} {gaps m : ℤ} (hn : 2 ≤ n) (hgaps : 0 ≤ gaps) (hm : 0 ≤ m) :
    (gaps : ℚ) / (max (n + gaps) 1 : ℤ) = m / (n + m) ↔ gaps = m := by
  have hmax : max (n + gaps) 1 = n + gaps := max_eq_left (by omega)
  have hn : (2 : ℚ) ≤ n := by exact_mod_cast hn
  have hgaps : (0 : ℚ) ≤ gaps := by exact_mod_cast hgaps
  have hm : (0 : ℚ) ≤ m := by exact_mod_cast hm
  rw [hmax, Int.cast_add, Int.cast_natCast, div_eq_div_iff (by linarith) (by linarith)]
  constructor
  · intro h
    have hcross : (n : ℚ) * gaps = n * m := by linarith
    have heq := mul_left_cancel₀ (by linarith) hcross
    exact_mod_cast heq
  · rintro rfl
    rfl

variable (calendar zone assetClass) in
/-- What the rate is computed from, where the lookback holds every bar. -/
theorem computeMissingBarRate_eq (hminutes : 0 < barMinutes) (hnodup : bars.Nodup)
    (htwo : 2 ≤ bars.length) {lookback : ℤ} (hlook : bars.length ≤ lookback) :
    ∃ ordered last, ordered.Perm bars ∧ ordered.Pairwise (· < ·) ∧ IsGreatest {b | b ∈ bars} last ∧
      ∀ gaps, gaps = (if assetClass = "crypto" then cryptoGaps barMinutes ordered
          else stockGaps calendar zone barMinutes ordered last) →
        computeMissingBarRate calendar zone bars barMinutes lookback assetClass =
          (gaps : ℚ) / (max (bars.length + gaps) 1 : ℤ) := by
  have hperm : (sortBy id bars).Perm bars := sortBy_perm bars
  have hstrict : (sortBy id bars).Pairwise (· < ·) := sortBy_strict (by simpa using hnodup)
  have hlength := hperm.length_eq
  have hordered : lastBars lookback (sortBy id bars) = sortBy id bars := by
    rw [lastBars, if_pos (by omega), hlength]
    have hdrop : bars.length - lookback.toNat = 0 := by omega
    rw [hdrop, List.drop_zero]
  cases hlast : (sortBy id bars).getLast? with
  | none =>
    rw [List.getLast?_eq_none_iff] at hlast
    simp [hlast] at hlength
    omega
  | some last =>
    refine ⟨_, last, hperm, hstrict, ?_, fun gaps hgaps => ?_⟩
    · obtain ⟨init, hinit⟩ := List.getLast?_eq_some_iff.mp hlast
      have hsplit := (List.pairwise_append.mp (hinit ▸ hstrict)).2.2
      refine ⟨hperm.mem_iff.mp (by simp [hinit]), fun b hb => ?_⟩
      have hb : b ∈ init ++ [last] := hinit ▸ hperm.mem_iff.mpr hb
      rcases List.mem_append.mp hb with hb | hb
      · exact (hsplit b hb last (by simp)).le
      · exact (List.mem_singleton.mp hb).le
    · rw [computeMissingBarRate, if_neg (by omega), hordered]
      dsimp only
      rw [hlast]
      dsimp only
      rw [if_neg (by omega), ← hgaps, hlength]

variable (calendar zone barMinutes assetClass) in
/-- The missing times, pair by pair of the bars in order. -/
theorem missing_eq {ordered : List ℤ} (hperm : ordered.Perm bars)
    (hstrict : ordered.Pairwise (· < ·)) :
    ((MissingTimes calendar zone barMinutes assetClass bars).ncard : ℤ) =
      ((ordered.zip ordered.tail).map fun p =>
        ((between calendar zone barMinutes assetClass p.1 p.2).ncard : ℤ)).sum := by
  have hioo : ∀ a b, between calendar zone barMinutes assetClass a b ⊆ Set.Ioo a b := by
    intro a b u hu
    unfold between at hu
    split at hu
    · exact hu.2
    · obtain ⟨-, -, -, -, -, hau, hub⟩ := hu
      exact ⟨hau, hub⟩
  have hsum := ncard_between hstrict hioo fun a b => (Set.finite_Ioo a b).subset (hioo a b)
  simp only [consecutive_congr fun a => hperm.mem_iff (a := a)] at hsum
  rw [MissingTimes, hsum, Nat.cast_list_sum, List.map_map]
  rfl

variable (calendar zone) in
/-- The gaps of crypto are those that are missing exactly when each is counted in full. -/
theorem cryptoGaps_eq_iff (hminutes : 0 < barMinutes) {ordered : List ℤ}
    (hperm : ordered.Perm bars) (hstrict : ordered.Pairwise (· < ·))
    (hgrid : ∀ b ∈ bars, b ∈ DayGrid barMinutes) :
    0 ≤ cryptoGaps barMinutes ordered ∧
      (cryptoGaps barMinutes ordered =
          (MissingTimes calendar zone barMinutes "crypto" bars).ncard ↔
        barMinutes ∣ 1440 ∨
          ∀ a b, Consecutive bars a b → dateOf a ≠ dateOf b → dayBetween barMinutes a b = ∅) := by
  have hpair : ∀ a b, (a, b) ∈ ordered.zip ordered.tail ↔ Consecutive bars a b := fun a b =>
    (mem_zip_tail_iff hstrict).trans (consecutive_congr fun a => hperm.mem_iff)
  have hgap : ∀ a b, (a, b) ∈ ordered.zip ordered.tail → _ := fun a b hp =>
    cryptoGap hminutes (hgrid a ((hpair a b).mp hp).1) (hgrid b ((hpair a b).mp hp).2.1)
      ((hpair a b).mp hp).2.2.1
  constructor
  · refine List.sum_nonneg fun gap hmem => ?_
    obtain ⟨⟨a, b⟩, hp, rfl⟩ := List.mem_map.mp hmem
    exact (hgap a b hp).1
  · rw [missing_eq _ _ _ _ hperm hstrict, cryptoGaps, sum_eq_iff_of_le fun p hp => (hgap p.1 p.2 hp).2.1]
    simp only [Prod.forall, ← hpair]
    constructor
    · intro hall
      refine or_iff_not_imp_left.mpr fun hdvd a b hp => ?_
      exact ((hgap a b hp).2.2.mp (hall a b hp)).resolve_left hdvd
    · intro hcounts a b hp
      exact (hgap a b hp).2.2.mpr (hcounts.imp_right fun h => h a b hp)

/-- The gaps of stock are those that are missing exactly when no early close stands short. -/
theorem stockGaps_eq_iff (hminutes : 0 < barMinutes) (hstock : assetClass ≠ "crypto")
    {ordered : List ℤ} (hperm : ordered.Perm bars) (hstrict : ordered.Pairwise (· < ·))
    (hgrid : ∀ b ∈ bars, ∃ d, calendar.isTradingDay d = true ∧
      b ∈ SessionGrid calendar zone barMinutes d) (last : ℤ) :
    0 ≤ stockGaps calendar zone barMinutes ordered last ∧
      (stockGaps calendar zone barMinutes ordered last =
          (MissingTimes calendar zone barMinutes assetClass bars).ncard ↔
        (calendar.isEarlyClose (dateOf (zone.toLocal last)) = true →
          calendar.expectedBarsForSession (dateOf (zone.toLocal last)) barMinutes ≤
            (bars.countP fun b => dateOf (zone.toLocal b) = dateOf (zone.toLocal last)) +
              (MissingTimes calendar zone barMinutes assetClass bars).ncard)) := by
  have hgaps : sessionGaps calendar zone barMinutes ordered =
      (MissingTimes calendar zone barMinutes assetClass bars).ncard := by
    rw [missing_eq _ _ _ _ hperm hstrict]
    refine congrArg List.sum (List.map_congr_left ?_)
    rintro ⟨a, b⟩ hp
    obtain ⟨ha, hb, hlt, -⟩ := (mem_zip_tail_iff hstrict).mp hp
    rw [between, if_neg hstock]
    exact stockGap hminutes (hgrid _ (hperm.mem_iff.mp ha)) (hgrid _ (hperm.mem_iff.mp hb)) hlt
  have hobserved : observedToday calendar zone (dateOf (zone.toLocal last)) ordered =
      (bars.countP fun b => dateOf (zone.toLocal b) = dateOf (zone.toLocal last) : ℕ) := by
    rw [observedToday, hperm.countP_eq]
    congr 1
    refine List.countP_congr fun b hb => ?_
    obtain ⟨d, hd, hbgrid⟩ := hgrid b hb
    rw [(within_of_sessionGrid hminutes hd hbgrid).1, Bool.and_true]
  unfold stockGaps
  dsimp only
  rw [hobserved, hgaps]
  cases calendar.isEarlyClose (dateOf (zone.toLocal last))
  · simp
  · simp only [and_true, forall_const]
    split <;> omega

variable (calendar zone) in
/-- **The rate counts the missing bars** of any set of bars on the grid exactly when no early
close stands short of its bars, or a day of crypto has whole intervals or no gap overnight. -/
theorem missingBarRate_iff (hminutes : 0 < barMinutes) (hnodup : bars.Nodup)
    (htwo : 2 ≤ bars.length) {lookback : ℤ} (hlook : bars.length ≤ lookback)
    (hgrid : ∀ b ∈ bars, OnGrid calendar zone barMinutes assetClass b) :
    computeMissingBarRate calendar zone bars barMinutes lookback assetClass =
        (MissingTimes calendar zone barMinutes assetClass bars).ncard /
          (bars.length + (MissingTimes calendar zone barMinutes assetClass bars).ncard) ↔
      CountsGaps calendar zone barMinutes assetClass bars := by
  obtain ⟨ordered, last, hperm, hstrict, hlast, hrate⟩ :=
    computeMissingBarRate_eq calendar zone assetClass hminutes hnodup htwo hlook
  have hm : (0 : ℤ) ≤ (MissingTimes calendar zone barMinutes assetClass bars).ncard :=
    Int.natCast_nonneg _
  rw [hrate _ rfl]
  unfold CountsGaps
  by_cases hcrypto : assetClass = "crypto"
  · subst hcrypto
    simp only [OnGrid, if_true] at hgrid ⊢
    obtain ⟨hnonneg, hiff⟩ :=
      cryptoGaps_eq_iff calendar zone hminutes hperm hstrict hgrid
    rw [← hiff, ← rate_eq_iff htwo hnonneg hm, Int.cast_natCast]
  · simp only [OnGrid, hcrypto, if_false] at hgrid ⊢
    obtain ⟨hnonneg, hiff⟩ := stockGaps_eq_iff hminutes hcrypto hperm hstrict hgrid last
    have hone : ∀ P : ℤ → Prop, (∀ l, IsGreatest {b | b ∈ bars} l → P l) ↔ P last := fun P =>
      ⟨fun h => h last hlast, fun h l hl => hl.unique hlast ▸ h⟩
    rw [hone, ← hiff, ← rate_eq_iff htwo hnonneg hm, Int.cast_natCast]

/-- Bars of fifteen minutes that open a session, by their places. -/
def openingBars (d : ℤ) (places : List ℤ) : List ℤ :=
  places.map fun k => opensAt {} easternStandard d + k * (15 * minute)

theorem openingBars_onGrid {d : ℤ} {places : List ℤ}
    (hd : ({} : MarketSessionCalendar).isTradingDay d = true) (hplaces : ∀ k ∈ places, 0 ≤ k ∧
      opensAt {} easternStandard d + k * (15 * minute) ≤ closesAt {} easternStandard d) :
    ∀ b ∈ openingBars d places, OnGrid {} easternStandard 15 "stock" b := by
  intro b hb
  obtain ⟨k, hk, rfl⟩ := List.mem_map.mp hb
  exact ⟨d, hd, k, (hplaces k hk).1, rfl, (hplaces k hk).2⟩

/-- On Monday 2026-11-30 the second bar is missing. -/
theorem second_bar_missing :
    computeMissingBarRate {} easternStandard (openingBars 739950 [0, 2]) 15 =
      (MissingTimes {} easternStandard 15 "stock" (openingBars 739950 [0, 2])).ncard /
        ((openingBars 739950 [0, 2]).length +
          (MissingTimes {} easternStandard 15 "stock" (openingBars 739950 [0, 2])).ncard) := by
  refine (missingBarRate_iff {} easternStandard (by decide) (by decide +kernel) (by decide)
    (by decide) (openingBars_onGrid (by decide +kernel) (by decide +kernel))).mpr ?_
  intro last hlast hearly
  have hregular : ∀ b ∈ openingBars 739950 [0, 2], ({} : MarketSessionCalendar).isEarlyClose
      (dateOf (easternStandard.toLocal b)) = false := by decide +kernel
  rw [hregular last hlast.1] at hearly
  cases hearly

/-- On Friday 2026-11-27, which closes early, the first two bars are all there are yet, and
twelve in fourteen count as missing. -/
theorem early_close_counts_ahead :
    (∀ b ∈ openingBars 739947 [0, 1], OnGrid {} easternStandard 15 "stock" b) ∧
      computeMissingBarRate {} easternStandard (openingBars 739947 [0, 1]) 15 ≠
        (MissingTimes {} easternStandard 15 "stock" (openingBars 739947 [0, 1])).ncard /
          ((openingBars 739947 [0, 1]).length +
            (MissingTimes {} easternStandard 15 "stock" (openingBars 739947 [0, 1])).ncard) := by
  refine ⟨openingBars_onGrid (by decide +kernel) (by decide +kernel), ?_⟩
  have hcount := missing_eq {} easternStandard 15 "stock"
    (List.Perm.refl (openingBars 739947 [0, 1])) (by decide +kernel)
  have hbetween : (sessionBetween {} easternStandard 15
      (opensAt {} easternStandard 739947 + 0 * (15 * minute))
      (opensAt {} easternStandard 739947 + 1 * (15 * minute))).ncard = (1 - 0 - 1 : ℤ).toNat :=
    sessionBetween_eq (by decide) (by decide +kernel) le_rfl (by decide) (by decide +kernel)
  have hzip : (openingBars 739947 [0, 1]).zip (openingBars 739947 [0, 1]).tail =
      [(opensAt {} easternStandard 739947 + 0 * (15 * minute),
        opensAt {} easternStandard 739947 + 1 * (15 * minute))] := rfl
  have hrate : computeMissingBarRate {} easternStandard (openingBars 739947 [0, 1]) 15 = 12 / 14 := by
    decide +kernel
  rw [hzip, List.map_singleton, List.sum_singleton, between, if_neg (by decide), hbetween] at hcount
  have hnone : (MissingTimes {} easternStandard 15 "stock" (openingBars 739947 [0, 1])).ncard = 0 := by
    exact_mod_cast hcount
  rw [hrate, hnone]
  norm_num

end Rate

end TradingPlatform.Engine.Slo
