import TradingPlatform.Ingestor.Alpaca
import TradingPlatform.Lib.Date
import TradingPlatform.Lib.LastPoint
import Mathlib.Data.Finset.Basic
import Mathlib.Data.Rat.Floor

/-! # The market session calendar

Instants and wall clocks are microseconds; a day is by its ordinal number, and a
wall clock counts from the start of day 0. The exchange's zone is a parameter. -/

namespace TradingPlatform.Core

open TradingPlatform.Ingestor (minute)
open TradingPlatform.Lib
open TradingPlatform.Lib.LastPoint

def hour : ℤ := 60 * minute

def day : ℤ := 24 * hour

theorem day_pos : 0 < day := by decide

/-- `datetime.date` of a wall clock. -/
def dateOf (clock : ℤ) : ℤ := clock / day

/-- `datetime.time` of a wall clock. -/
def timeOf (clock : ℤ) : ℤ := clock % day

/-- `datetime.combine`. -/
def combine (date time : ℤ) : ℤ := date * day + time

/-- `date.weekday`, Monday as 0. -/
def weekday (date : ℤ) : ℤ := (date + 6) % 7

/-- A clock of a working day between four and twenty: no transition of the zone is near. -/
def Daytime (clock : ℤ) : Prop :=
  weekday (dateOf clock) < 5 ∧ 4 * hour ≤ timeOf clock ∧ timeOf clock ≤ 20 * hour

/-- `ET`: four or five hours behind, and its clock runs on by day. -/
structure ExchangeZone where
  toLocal : ℤ → ℤ
  fromLocal : ℤ → ℤ
  behind : ∀ t, t - 5 * hour ≤ toLocal t ∧ toLocal t ≤ t - 4 * hour
  le_toLocal_iff : ∀ clock t, Daytime clock → (clock ≤ toLocal t ↔ fromLocal clock ≤ t)
  toLocal_le_iff : ∀ clock t, Daytime clock → (toLocal t ≤ clock ↔ t ≤ fromLocal clock)

def rthOpen : ℤ := 9 * hour + 30 * minute

def rthCloseRegular : ℤ := 16 * hour

def rthCloseEarly : ℤ := 13 * hour

structure SessionBounds where
  sessionDate : ℤ
  openEt : ℤ
  closeEt : ℤ
  sessionMinutes : ℚ
  earlyClose : Bool
  tradingDay : Bool
  deriving DecidableEq

/-- The ordinal numbers of dates. -/
def ordinals (dates : List (ℕ × ℕ × ℕ)) : Finset ℤ :=
  (dates.filterMap fun (y, m, d) => (date? y m d).map fun date => (date.toordinal : ℤ)).toFinset

def nyseHolidays : Finset ℤ :=
  ordinals
    [(2025, 1, 1), (2025, 1, 20), (2025, 2, 17), (2025, 4, 18), (2025, 5, 26), (2025, 6, 19),
      (2025, 7, 4), (2025, 9, 1), (2025, 11, 27), (2025, 12, 25), (2026, 1, 1), (2026, 1, 19),
      (2026, 2, 16), (2026, 4, 3), (2026, 5, 25), (2026, 6, 19), (2026, 7, 3), (2026, 9, 7),
      (2026, 11, 26), (2026, 12, 25), (2027, 1, 1), (2027, 1, 18), (2027, 2, 15), (2027, 3, 26),
      (2027, 5, 31), (2027, 6, 18), (2027, 7, 5), (2027, 9, 6), (2027, 11, 25), (2027, 12, 24)]

def nyseEarlyClose : Finset ℤ :=
  ordinals
    [(2025, 7, 3), (2025, 11, 28), (2025, 12, 24), (2026, 11, 27), (2026, 12, 24), (2027, 11, 26),
      (2027, 12, 31)]

structure MarketSessionCalendar where
  holidays : Finset ℤ := nyseHolidays
  earlyCloses : Finset ℤ := nyseEarlyClose

namespace MarketSessionCalendar
variable (calendar : MarketSessionCalendar) (zone : ExchangeZone)

def isTradingDay (sessionDate : ℤ) : Bool :=
  if 5 ≤ weekday sessionDate then false else decide (sessionDate ∉ calendar.holidays)

def isEarlyClose (sessionDate : ℤ) : Bool := decide (sessionDate ∈ calendar.earlyCloses)

def sessionCloseTime (sessionDate : ℤ) : ℤ :=
  if calendar.isEarlyClose sessionDate then rthCloseEarly else rthCloseRegular

def sessionBounds (sessionDate : ℤ) : SessionBounds :=
  let tradingDay := calendar.isTradingDay sessionDate
  let openEt := combine sessionDate rthOpen
  let closeEt := combine sessionDate (calendar.sessionCloseTime sessionDate)
  { sessionDate
    openEt
    closeEt
    sessionMinutes := if tradingDay then ((closeEt - openEt : ℤ) : ℚ) / minute else 0
    earlyClose := calendar.isEarlyClose sessionDate
    tradingDay }

def isWithinRth (timestamp : ℤ) : Bool :=
  let et := zone.toLocal timestamp
  let bounds := calendar.sessionBounds (dateOf et)
  if !bounds.tradingDay then false
  else decide (rthOpen ≤ timeOf et) && decide (timeOf et ≤ timeOf bounds.closeEt)

/-- The loop looks at ten days, the reference's own first. -/
def lastSessionClose (reference : ℤ) : ℤ :=
  let et := zone.toLocal reference
  let closed (cursor : ℤ) : Bool :=
    calendar.isTradingDay cursor &&
      (decide ((calendar.sessionBounds cursor).closeEt ≤ et) || decide (cursor < dateOf et))
  match searchDown closed 10 (dateOf et) with
  | some cursor => zone.fromLocal (calendar.sessionBounds cursor).closeEt
  | none => reference

def effectiveReferenceTime (exchangeReference : ℤ) (assetClass : String := "stock") : ℤ :=
  if assetClass = "crypto" then exchangeReference
  else if calendar.isWithinRth zone exchangeReference then exchangeReference
  else calendar.lastSessionClose zone exchangeReference

def expectedBarsForSession (sessionDate barMinutes : ℤ) : ℤ :=
  let bounds := calendar.sessionBounds sessionDate
  if !bounds.tradingDay || decide (barMinutes ≤ 0) then 0
  else max 1 ⌊bounds.sessionMinutes / barMinutes⌋

end MarketSessionCalendar

/-! ## Clocks -/

theorem dateOf_combine {date time : ℤ} (h : 0 ≤ time) (h' : time < day) :
    dateOf (combine date time) = date := by
  unfold dateOf combine
  rw [Int.add_comm, Int.add_mul_ediv_right _ _ day_pos.ne', Int.ediv_eq_zero_of_lt h h', zero_add]

theorem timeOf_combine {date time : ℤ} (h : 0 ≤ time) (h' : time < day) :
    timeOf (combine date time) = time := by
  unfold timeOf combine
  rw [Int.add_comm, Int.add_mul_emod_self_right, Int.emod_eq_of_lt h h']

theorem combine_dateOf (clock : ℤ) : combine (dateOf clock) (timeOf clock) = clock := by
  unfold combine dateOf timeOf
  exact Int.ediv_mul_add_emod clock day

theorem le_dateOf_iff {date clock : ℤ} : date ≤ dateOf clock ↔ date * day ≤ clock :=
  Int.le_ediv_iff_mul_le day_pos

theorem le_dateOf_of_le {date time clock : ℤ} (h : 0 ≤ time) (hle : combine date time ≤ clock) :
    date ≤ dateOf clock := by
  unfold combine at hle
  exact le_dateOf_iff.mpr (by omega)

/-- A clock of an earlier day is earlier. -/
theorem combine_lt_of_date_lt {date time clock : ℤ} (h : time < day) (hdate : date < dateOf clock) :
    combine date time < clock := by
  have hnext : (date + 1) * day ≤ clock := le_dateOf_iff.mp hdate
  rw [Int.add_mul, one_mul] at hnext
  unfold combine
  omega

theorem dateOf_le_of_le {date time clock : ℤ} (h : time < day) (hle : clock ≤ combine date time) :
    dateOf clock ≤ date :=
  not_lt.mp fun hdate => absurd (combine_lt_of_date_lt h hdate) (not_lt.mpr hle)

namespace ExchangeZone
variable (zone : ExchangeZone) {clock clock' : ℤ}

theorem toLocal_fromLocal (h : Daytime clock) : zone.toLocal (zone.fromLocal clock) = clock :=
  le_antisymm ((zone.toLocal_le_iff clock _ h).mpr le_rfl)
    ((zone.le_toLocal_iff clock _ h).mpr le_rfl)

theorem fromLocal_le_iff (h : Daytime clock) (h' : Daytime clock') :
    zone.fromLocal clock ≤ zone.fromLocal clock' ↔ clock ≤ clock' := by
  rw [← zone.le_toLocal_iff clock _ h, zone.toLocal_fromLocal h']

end ExchangeZone

/-- Five hours behind all year. -/
def easternStandard : ExchangeZone where
  toLocal t := t - 5 * hour
  fromLocal clock := clock + 5 * hour
  behind t := by
    have hpos : 0 < hour := by decide
    omega
  le_toLocal_iff clock t _ := le_sub_iff_add_le
  toLocal_le_iff clock t _ := sub_le_iff_le_add

/-! ## Sessions -/

section Sessions
variable (calendar : MarketSessionCalendar) (zone : ExchangeZone)

/-- The instants at which the session of a day opens and closes. -/
def opensAt (d : ℤ) : ℤ := zone.fromLocal (calendar.sessionBounds d).openEt

def closesAt (d : ℤ) : ℤ := zone.fromLocal (calendar.sessionBounds d).closeEt

/-- The instants within a trading session, its open and its close among them. -/
def Session : Set ℤ :=
  {t | ∃ d, calendar.isTradingDay d = true ∧ opensAt calendar zone d ≤ t ∧
    t ≤ closesAt calendar zone d}

variable {calendar zone} {d t : ℤ}

theorem sessionCloseTime_range (d : ℤ) : rthCloseEarly ≤ calendar.sessionCloseTime d ∧
    calendar.sessionCloseTime d ≤ rthCloseRegular := by
  unfold MarketSessionCalendar.sessionCloseTime
  split <;> decide

theorem rthOpen_le_sessionCloseTime (d : ℤ) : rthOpen ≤ calendar.sessionCloseTime d := by
  have hearly : rthOpen ≤ rthCloseEarly := by decide
  exact hearly.trans (sessionCloseTime_range d).1

theorem sessionCloseTime_le (d : ℤ) : calendar.sessionCloseTime d ≤ 20 * hour := by
  have hregular : rthCloseRegular ≤ 20 * hour := by decide
  exact (sessionCloseTime_range d).2.trans hregular

theorem weekday_of_trading (h : calendar.isTradingDay d = true) : weekday d < 5 := by
  unfold MarketSessionCalendar.isTradingDay at h
  split at h
  · cases h
  · omega

theorem daytime_of_trading {time : ℤ} (h : calendar.isTradingDay d = true)
    (hfrom : 4 * hour ≤ time) (hto : time ≤ 20 * hour) : Daytime (combine d time) := by
  have hpos : 0 ≤ time := le_trans (by decide) hfrom
  have hday : time < day := lt_of_le_of_lt hto (by decide)
  unfold Daytime
  rw [dateOf_combine hpos hday, timeOf_combine hpos hday]
  exact ⟨weekday_of_trading h, hfrom, hto⟩

theorem daytime_open (h : calendar.isTradingDay d = true) :
    Daytime (calendar.sessionBounds d).openEt := daytime_of_trading h (by decide) (by decide)

theorem daytime_close (h : calendar.isTradingDay d = true) :
    Daytime (calendar.sessionBounds d).closeEt := by
  have hmorning : 4 * hour ≤ rthOpen := by decide
  exact daytime_of_trading h (hmorning.trans (rthOpen_le_sessionCloseTime d)) (sessionCloseTime_le d)

theorem close_lt_day (d : ℤ) :
    0 ≤ calendar.sessionCloseTime d ∧ calendar.sessionCloseTime d < day := by
  have hopen : 0 ≤ rthOpen := by decide
  have hnight : 20 * hour < day := by decide
  exact ⟨hopen.trans (rthOpen_le_sessionCloseTime d), (sessionCloseTime_le d).trans_lt hnight⟩

theorem opensAt_le_closesAt (h : calendar.isTradingDay d = true) :
    opensAt calendar zone d ≤ closesAt calendar zone d := by
  refine (zone.fromLocal_le_iff (daytime_open h) (daytime_close h)).mpr ?_
  exact Int.add_le_add_left (rthOpen_le_sessionCloseTime d) _

/-- A session lies within its day on the exchange's clock. -/
theorem dateOf_session (h : calendar.isTradingDay d = true) (hopen : opensAt calendar zone d ≤ t)
    (hclose : t ≤ closesAt calendar zone d) : dateOf (zone.toLocal t) = d := by
  have hfrom := (zone.le_toLocal_iff _ t (daytime_open h)).mpr hopen
  have hto := (zone.toLocal_le_iff _ t (daytime_close h)).mpr hclose
  exact le_antisymm (dateOf_le_of_le (close_lt_day d).2 hto) (le_dateOf_of_le (by decide) hfrom)

/-- It lies within the same day of UTC. -/
theorem dateOf_utc_session (h : calendar.isTradingDay d = true)
    (hopen : opensAt calendar zone d ≤ t) (hclose : t ≤ closesAt calendar zone d) :
    dateOf t = d := by
  have hfrom : d * day + rthOpen ≤ zone.toLocal t :=
    (zone.le_toLocal_iff _ t (daytime_open h)).mpr hopen
  have hto : zone.toLocal t ≤ d * day + calendar.sessionCloseTime d :=
    (zone.toLocal_le_iff _ t (daytime_close h)).mpr hclose
  have hlate : calendar.sessionCloseTime d ≤ rthCloseRegular := (sessionCloseTime_range d).2
  have hbehind := zone.behind t
  have hmorning : 0 ≤ rthOpen + 4 * hour := by decide
  have hevening : rthCloseRegular + 5 * hour < day := by decide
  have hle : t ≤ combine d (rthCloseRegular + 5 * hour) := by
    unfold combine
    omega
  exact le_antisymm (dateOf_le_of_le hevening hle) (le_dateOf_iff.mpr (by omega))

theorem isWithinRth_iff_clock : calendar.isWithinRth zone t = true ↔
    calendar.isTradingDay (dateOf (zone.toLocal t)) = true ∧
      (calendar.sessionBounds (dateOf (zone.toLocal t))).openEt ≤ zone.toLocal t ∧
        zone.toLocal t ≤ (calendar.sessionBounds (dateOf (zone.toLocal t))).closeEt := by
  have hclock := combine_dateOf (zone.toLocal t)
  have htime (date : ℤ) : timeOf (combine date (calendar.sessionCloseTime date)) =
      calendar.sessionCloseTime date := timeOf_combine (close_lt_day date).1 (close_lt_day date).2
  unfold MarketSessionCalendar.isWithinRth
  dsimp only [MarketSessionCalendar.sessionBounds] at htime ⊢
  rw [htime]
  unfold combine at *
  cases calendar.isTradingDay (dateOf (zone.toLocal t))
  · simp
  · simp only [Bool.not_true, Bool.false_eq_true, if_false, Bool.and_eq_true, decide_eq_true_iff,
      true_and]
    omega

/-- **Within the hours** is within some session. -/
theorem isWithinRth_iff : calendar.isWithinRth zone t = true ↔ t ∈ Session calendar zone := by
  rw [isWithinRth_iff_clock]
  constructor
  · rintro ⟨htrading, hopen, hclose⟩
    exact ⟨_, htrading, (zone.le_toLocal_iff _ t (daytime_open htrading)).mp hopen,
      (zone.toLocal_le_iff _ t (daytime_close htrading)).mp hclose⟩
  · rintro ⟨d, htrading, hopen, hclose⟩
    rw [dateOf_session htrading hopen hclose]
    exact ⟨htrading, (zone.le_toLocal_iff _ t (daytime_open htrading)).mpr hopen,
      (zone.toLocal_le_iff _ t (daytime_close htrading)).mpr hclose⟩

end Sessions

end TradingPlatform.Core
