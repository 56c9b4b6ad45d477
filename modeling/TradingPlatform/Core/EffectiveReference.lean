import TradingPlatform.Core.MarketCalendar

/-! # The effective reference time

Outside the hours an instant is judged from the last close, which is looked for
among ten days. Before an open the instant's own day is one of them, so nine
earlier days are searched. -/

namespace TradingPlatform.Core

open TradingPlatform.Lib.LastPoint

section Reference
variable (calendar : MarketSessionCalendar) (zone : ExchangeZone)

/-- Any so many days on end have a trading day among them. -/
def OpensEvery (n : ℕ) : Prop :=
  ∀ d : ℤ, ∃ e, d < e ∧ e ≤ d + n ∧ calendar.isTradingDay e = true

/-- The effective reference is the last instant within a session. -/
structure LastOpenReference (assetClass : String) : Prop where
  greatest : ∀ t, IsGreatest {u | u ∈ Session calendar zone ∧ u ≤ t}
    (calendar.effectiveReferenceTime zone t assetClass)
  monotone : Monotone fun t => calendar.effectiveReferenceTime zone t assetClass
  idempotent : ∀ t, calendar.effectiveReferenceTime zone
      (calendar.effectiveReferenceTime zone t assetClass) assetClass =
    calendar.effectiveReferenceTime zone t assetClass
  within_iff : ∀ t, calendar.isWithinRth zone t = true ↔
    t = calendar.effectiveReferenceTime zone t assetClass

variable {calendar zone} {t d : ℤ}

/-- The search finds the last of ten days whose session is over, or it gives up. -/
theorem lastSessionClose_cases (calendar : MarketSessionCalendar) (zone : ExchangeZone) (t : ℤ) :
    (∃ d, calendar.isTradingDay d = true ∧ dateOf (zone.toLocal t) - 10 < d ∧
        (calendar.sessionBounds d).closeEt ≤ zone.toLocal t ∧
        (∀ e, calendar.isTradingDay e = true →
          (calendar.sessionBounds e).closeEt ≤ zone.toLocal t → e ≤ d) ∧
        calendar.lastSessionClose zone t = closesAt calendar zone d) ∨
      ((∀ e, dateOf (zone.toLocal t) - 10 < e → e < dateOf (zone.toLocal t) →
          calendar.isTradingDay e = false) ∧
        calendar.lastSessionClose zone t = t) := by
  -- a day before the reference's own is over
  have hover : ∀ e, e < dateOf (zone.toLocal t) →
      (calendar.sessionBounds e).closeEt ≤ zone.toLocal t := fun e he =>
    (combine_lt_of_date_lt (close_lt_day e).2 he).le
  unfold MarketSessionCalendar.lastSessionClose
  dsimp only
  split
  · rename_i d hsearch
    obtain ⟨hclosed, hlt, -, hlast⟩ := searchDown_eq_some hsearch
    simp only [Bool.and_eq_true, Bool.or_eq_true, decide_eq_true_iff] at hclosed hlast
    refine .inl ⟨d, hclosed.1, by simpa using hlt, hclosed.2.elim id (hover d), ?_, rfl⟩
    intro e htrading hclose
    exact hlast e (le_dateOf_of_le (close_lt_day e).1 hclose) ⟨htrading, .inl hclose⟩
  · rename_i hsearch
    refine .inr ⟨fun e hlt he => ?_, rfl⟩
    have hnone := searchDown_eq_none.mp hsearch e (by simpa using hlt) he.le
    simpa [he] using hnone

/-- With a trading day in any nine, the last close is the last instant of a session. -/
theorem isGreatest_lastSessionClose (h : OpensEvery calendar 9)
    (hout : ¬ t ∈ Session calendar zone) :
    IsGreatest {u | u ∈ Session calendar zone ∧ u ≤ t} (calendar.lastSessionClose zone t) := by
  rcases lastSessionClose_cases calendar zone t with ⟨d, htrading, -, hclose, hlast, heq⟩ | ⟨hnone, -⟩
  · rw [heq]
    have hclosed : closesAt calendar zone d ≤ t :=
      (zone.le_toLocal_iff _ t (daytime_close htrading)).mp hclose
    refine ⟨⟨⟨d, htrading, opensAt_le_closesAt htrading, le_rfl⟩, hclosed⟩, ?_⟩
    rintro u ⟨⟨e, htrading', hopen, hclose'⟩, hut⟩
    -- a session that opened by now is over, or now is within it
    have hover : closesAt calendar zone e ≤ t := by
      by_contra hlt
      exact hout ⟨e, htrading', hopen.trans hut, (not_le.mp hlt).le⟩
    have hed : e ≤ d :=
      hlast e htrading' ((zone.le_toLocal_iff _ t (daytime_close htrading')).mpr hover)
    refine hclose'.trans ((zone.fromLocal_le_iff (daytime_close htrading')
      (daytime_close htrading)).mpr ?_)
    obtain rfl | hlt := hed.eq_or_lt
    · exact le_rfl
    · refine (combine_lt_of_date_lt (close_lt_day e).2 ?_).le
      rwa [MarketSessionCalendar.sessionBounds, dateOf_combine (close_lt_day d).1 (close_lt_day d).2]
  · obtain ⟨e, hlt, hle, htrading⟩ := h (dateOf (zone.toLocal t) - 10)
    rw [hnone e hlt (by push_cast at hle; omega)] at htrading
    cases htrading

variable {assetClass : String}

variable (zone) in
theorem lastIn_effectiveReference (h : OpensEvery calendar 9) (hequity : assetClass ≠ "crypto") :
    LastIn (Session calendar zone) fun t => calendar.effectiveReferenceTime zone t assetClass := by
  intro t
  dsimp only [MarketSessionCalendar.effectiveReferenceTime]
  rw [if_neg hequity]
  split
  · rename_i hwithin
    exact ⟨⟨isWithinRth_iff.mp hwithin, le_rfl⟩, fun u hu => hu.2⟩
  · rename_i hout
    exact isGreatest_lastSessionClose h (isWithinRth_iff.not.mp hout)

variable (zone) in
/-- Before an open that nine closed days precede, the reference falls back on itself. -/
theorem effectiveReference_of_closed (hequity : assetClass ≠ "crypto")
    (hopen : calendar.isTradingDay d = true)
    (hclosed : ∀ e, d - 10 < e → e < d → calendar.isTradingDay e = false) :
    ∃ t, calendar.isWithinRth zone t = false ∧
      calendar.effectiveReferenceTime zone t assetClass = t := by
  have hdaytime : Daytime (combine d (4 * hour)) := daytime_of_trading hopen le_rfl (by decide)
  have hlocal := zone.toLocal_fromLocal hdaytime
  have hdate : dateOf (combine d (4 * hour)) = d := dateOf_combine (by decide) (by decide)
  have hearly : ¬ rthOpen ≤ 4 * hour := by decide
  have hout : calendar.isWithinRth zone (zone.fromLocal (combine d (4 * hour))) = false := by
    rw [← Bool.not_eq_true, isWithinRth_iff_clock, hlocal, hdate]
    rintro ⟨-, hfrom, -⟩
    exact hearly (Int.le_of_add_le_add_left hfrom)
  refine ⟨_, hout, ?_⟩
  rw [MarketSessionCalendar.effectiveReferenceTime, if_neg hequity, hout, if_neg Bool.false_ne_true]
  rcases lastSessionClose_cases calendar zone (zone.fromLocal (combine d (4 * hour))) with
    ⟨e, htrading, hlt, hclose, -, -⟩ | ⟨-, hself⟩
  · rw [hlocal] at hclose
    rw [hlocal, hdate] at hlt
    have hle : e ≤ d := hdate ▸ le_dateOf_of_le (close_lt_day e).1 hclose
    obtain rfl | hbefore := hle.eq_or_lt
    · have hclosing := Int.le_of_add_le_add_left hclose
      exact absurd ((rthOpen_le_sessionCloseTime e).trans hclosing) hearly
    · rw [hclosed e hlt hbefore] at htrading
      cases htrading
  · exact hself

/-- **The reference is the last open instant**, for a calendar with a trading day in any ten
days on end, exactly when there is one in any nine. -/
theorem lastOpenReference_iff (calendar : MarketSessionCalendar) (zone : ExchangeZone)
    {assetClass : String} (hequity : assetClass ≠ "crypto") (hten : OpensEvery calendar 10) :
    LastOpenReference calendar zone assetClass ↔ OpensEvery calendar 9 := by
  constructor
  · intro hreference d
    by_contra hnone
    have hclosed : ∀ e, d < e → e ≤ d + 9 → calendar.isTradingDay e = false := by
      intro e hlt hle
      by_contra htrading
      exact hnone ⟨e, hlt, by simpa using hle, by simpa using htrading⟩
    obtain ⟨e, hlt, hle, htrading⟩ := hten d
    obtain rfl : e = d + 10 := by
      by_contra hne
      push_cast at hle
      rw [hclosed e hlt (by omega)] at htrading
      cases htrading
    obtain ⟨t, hout, hfix⟩ := effectiveReference_of_closed zone hequity htrading
      fun e hlt hlt' => hclosed e (by omega) (by omega)
    rw [(hreference.within_iff t).mpr hfix.symm] at hout
    cases hout
  · intro hnine
    have hlast := lastIn_effectiveReference zone hnine hequity
    refine ⟨hlast, hlast.monotone, hlast.idempotent, fun t => ?_⟩
    rw [isWithinRth_iff, eq_comm]
    exact hlast.eq_self_iff.symm

/-! ## Calendars -/

theorem isTradingDay_iff {d : ℤ} :
    calendar.isTradingDay d = true ↔ weekday d < 5 ∧ d ∉ calendar.holidays := by
  unfold MarketSessionCalendar.isTradingDay
  split
  · simp only [Bool.false_eq_true, false_iff]
    omega
  · simp only [decide_eq_true_iff, iff_and_self]
    omega

/-- Holidays that never follow one another close no more than four days on end. -/
theorem opensEvery_of_isolated (h : ∀ d ∈ calendar.holidays, d + 1 ∉ calendar.holidays) {n : ℕ}
    (hn : 5 ≤ n) : OpensEvery calendar n := by
  intro d
  -- one of the next four days is followed by a working day too
  obtain ⟨e, hlt, hle, hday, hnext⟩ :
      ∃ e, d < e ∧ e ≤ d + 4 ∧ weekday e < 5 ∧ weekday (e + 1) < 5 := by
    unfold weekday
    by_cases hmonday : (d + 7) % 7 < 4
    · exact ⟨d + 1, by omega, by omega, by omega, by omega⟩
    · by_cases hfriday : (d + 7) % 7 = 4
      · exact ⟨d + 4, by omega, by omega, by omega, by omega⟩
      · exact ⟨d + 3, by omega, by omega, by omega, by omega⟩
  by_cases hholiday : e ∈ calendar.holidays
  · exact ⟨e + 1, by omega, by omega, isTradingDay_iff.mpr ⟨hnext, h e hholiday⟩⟩
  · exact ⟨e, hlt, by omega, isTradingDay_iff.mpr ⟨hday, hholiday⟩⟩

theorem nyseHolidays_isolated : ∀ d ∈ nyseHolidays, d + 1 ∉ nyseHolidays := by decide +kernel

/-- The calendar of the exchange. -/
theorem nyse_lastOpenReference : LastOpenReference {} easternStandard "stock" :=
  (lastOpenReference_iff {} easternStandard (by decide)
    (opensEvery_of_isolated nyseHolidays_isolated (by decide))).mpr
    (opensEvery_of_isolated nyseHolidays_isolated (by decide))

/-- A week of holidays, Monday 2026-02-02 to Friday. -/
def closedWeek : MarketSessionCalendar where
  holidays := ordinals [(2026, 2, 2), (2026, 2, 3), (2026, 2, 4), (2026, 2, 5), (2026, 2, 6)]
  earlyCloses := ∅

theorem closedWeek_opensEvery : OpensEvery closedWeek 10 := by
  have hweek : ∀ d ∈ closedWeek.holidays, 739649 ≤ d ∧ d ≤ 739653 := by decide +kernel
  intro d
  obtain ⟨e, hlt, hle, hday⟩ : ∃ e, d < e ∧ e ≤ d + 3 ∧ weekday e < 5 := by
    unfold weekday
    by_cases hnext : (d + 7) % 7 < 5
    · exact ⟨d + 1, by omega, by omega, by omega⟩
    · exact ⟨d + 3, by omega, by omega, by omega⟩
  by_cases hholiday : e ∈ closedWeek.holidays
  · obtain ⟨hfrom, hto⟩ := hweek e hholiday
    exact ⟨739656, by omega, by omega, by decide +kernel⟩
  · exact ⟨e, hlt, by omega, isTradingDay_iff.mpr ⟨hday, hholiday⟩⟩

/-- With the weekends around it the week closes nine days, and no ten: on the Monday after,
four in the morning is its own reference. -/
theorem closed_week_falls_back :
    OpensEvery closedWeek 10 ∧ ¬ LastOpenReference closedWeek easternStandard "stock" := by
  refine ⟨closedWeek_opensEvery, fun hreference => ?_⟩
  have hwithin := (hreference.within_iff (combine 739656 (9 * hour))).mpr (by decide +kernel)
  exact absurd hwithin (by decide +kernel)

end Reference

end TradingPlatform.Core
