import TradingPlatform.Lib.Date
import Mathlib.Data.String.Basic
import Mathlib.Tactic.Ring
import Mathlib.Tactic.Tauto

/-! # Times in UTC and the order of their texts

A text has its fields in a fixed width, the largest first, and a fraction of a
second only where there is one. The texts of times in UTC are ordered as the times
are, with a fraction or without, since `+` comes before `.`. -/

namespace TradingPlatform.Lib

/-! ## Texts of one width -/

section Lex
variable {α : Type*} {a b x y : List α}

theorem append_lt_append_iff [LT α] (h : a.length = b.length) :
    a ++ x < b ++ y ↔ a < b ∨ a = b ∧ x < y := by
  induction a generalizing b with
  | nil =>
    obtain rfl := List.length_eq_zero_iff.mp h.symm
    simp
  | cons c a ih =>
    obtain _ | ⟨d, b⟩ := b
    · cases h
    simp only [List.cons_append, List.cons_lt_cons_iff, ih (Nat.succ.inj h), List.cons.injEq]
    tauto

theorem append_eq_append_iff_of_length (h : a.length = b.length) :
    a ++ x = b ++ y ↔ a = b ∧ x = y :=
  ⟨fun heq => List.append_inj heq h, fun ⟨hl, hr⟩ => hl ▸ hr ▸ rfl⟩

end Lex

theorem digitChar_lt_iff : ∀ a < 10, ∀ b < 10, (Nat.digitChar a < Nat.digitChar b ↔ a < b) := by
  decide

section Padded
variable {w n m : ℕ}

theorem padded_inj (hn : n < 10 ^ w) (hm : m < 10 ^ w) : padded w n = padded w m ↔ n = m :=
  ⟨padded_injective hn hm, congrArg _⟩

theorem padded_lt_iff (hn : n < 10 ^ w) (hm : m < 10 ^ w) :
    padded w n < padded w m ↔ n < m := by
  induction w generalizing n m with
  | zero =>
    obtain rfl : n = 0 := by simpa using hn
    obtain rfl : m = 0 := by simpa using hm
    simp
  | succ w ih =>
    have hhigh : n / 10 < 10 ^ w := by omega
    have hhigh' : m / 10 < 10 ^ w := by omega
    have hlow := digitChar_lt_iff (n % 10) (Nat.mod_lt n (by decide)) (m % 10)
      (Nat.mod_lt m (by decide))
    rw [padded, padded, append_lt_append_iff (by simp), ih hhigh hhigh', padded_inj hhigh hhigh',
      List.cons_lt_cons_iff, hlow]
    simp only [List.lt_irrefl, and_false, or_false]
    omega

end Padded

/-! ## The day before and the day after -/

theorem fields_of_date? {year month day : ℕ} {d : Date} (h : date? year month day = some d) :
    d.year = year ∧ d.month = month ∧ d.day = day := by
  unfold date? at h
  split at h
  · cases h
    exact ⟨rfl, rfl, rfl⟩
  · cases h

namespace Date

/-- `d + timedelta(days=1)`, which raises past the last year. -/
def next? (d : Date) : Option Date :=
  if d.day < daysInMonth d.year d.month then date? d.year d.month (d.day + 1)
  else if d.month < 12 then date? d.year (d.month + 1) 1
  else date? (d.year + 1) 1 1

/-- `d - timedelta(days=1)`, which raises before the first year. -/
def prev? (d : Date) : Option Date :=
  if 1 < d.day then date? d.year d.month (d.day - 1)
  else if 1 < d.month then date? d.year (d.month - 1) (daysInMonth d.year (d.month - 1))
  else date? (d.year - 1) 12 31

theorem toordinal_lt_iff {d e : Date} :
    d.toordinal < e.toordinal ↔
      d.year < e.year ∨ d.year = e.year ∧ (d.month < e.month ∨ d.month = e.month ∧
        d.day < e.day) := by
  constructor
  · intro h
    have hyear := year_le_of_toordinal h.le
    rcases hyear.lt_or_eq with hyear | hyear
    · exact .inl hyear
    have hmonth := month_le_of_toordinal hyear h.le
    rcases hmonth.lt_or_eq with hmonth | hmonth
    · exact .inr ⟨hyear, .inl hmonth⟩
    rw [toordinal, toordinal, hyear, hmonth] at h
    exact .inr ⟨hyear, .inr ⟨hmonth, by omega⟩⟩
  · intro h
    by_contra hle
    have hyear := year_le_of_toordinal (not_lt.mp hle)
    obtain hlt | ⟨heq, h⟩ := h
    · omega
    have hmonth := month_le_of_toordinal heq.symm (not_lt.mp hle)
    obtain hlt | ⟨hmonth, hday⟩ := h
    · omega
    rw [toordinal, toordinal, heq, hmonth] at hle
    omega

theorem toordinal_next? {d e : Date} (h : d.next? = some e) :
    e.toordinal = d.toordinal + 1 := by
  have hday := d.day_range
  have hmonth := d.month_range
  unfold next? at h
  split_ifs at h with hsame hlast
  · obtain ⟨hy, hm, hd⟩ := fields_of_date? h
    rw [toordinal, toordinal, hy, hm, hd]
    omega
  · obtain ⟨hy, hm, hd⟩ := fields_of_date? h
    rw [toordinal, toordinal, hy, hm, hd, daysBeforeMonth_succ _ hmonth.1]
    omega
  · obtain ⟨hy, hm, hd⟩ := fields_of_date? h
    have hend := daysBeforeMonth_succ d.year hmonth.1
    have hdec : d.month + 1 = 13 := by omega
    rw [hdec] at hend
    have hfirst : daysBeforeMonth (d.year + 1) 1 = 0 := rfl
    rw [toordinal, toordinal, hy, hm, hd, daysBeforeYear_succ d.year_range.1, hend, hfirst]
    omega

theorem toordinal_prev? {d e : Date} (h : d.prev? = some e) :
    e.toordinal + 1 = d.toordinal := by
  have hday := d.day_range
  have hmonth := d.month_range
  unfold prev? at h
  split_ifs at h with hsame hfirst
  · obtain ⟨hy, hm, hd⟩ := fields_of_date? h
    rw [toordinal, toordinal, hy, hm, hd]
    omega
  · obtain ⟨hy, hm, hd⟩ := fields_of_date? h
    have hend : daysBeforeMonth d.year (d.month - 1 + 1) = _ :=
      daysBeforeMonth_succ d.year (by omega)
    rw [Nat.sub_add_cancel hmonth.1] at hend
    rw [toordinal, toordinal, hy, hm, hd, hend]
    omega
  · obtain ⟨hy, hm, hd⟩ := fields_of_date? h
    have hyear : 1 ≤ d.year - 1 := hy ▸ e.year_range.1
    have hstep := daysBeforeYear_succ hyear
    have hend : daysBeforeMonth (d.year - 1) 13 = daysBeforeMonth (d.year - 1) 12 +
        daysInMonth (d.year - 1) 12 := daysBeforeMonth_succ (d.year - 1) (by decide)
    have hdec : daysInMonth (d.year - 1) 12 = 31 := rfl
    rw [Nat.sub_add_cancel d.year_range.1] at hstep
    have hzero : daysBeforeMonth d.year d.month = 0 := by
      rw [show d.month = 1 by omega]
      rfl
    rw [toordinal, toordinal, hy, hm, hd, hstep, hend, hzero, hdec]
    omega

end Date

/-! ## Times in UTC -/

namespace Datetime

def date (d : Datetime) : Date :=
  { year := d.year, month := d.month, day := d.day
    year_range := d.year_range, month_range := d.month_range, day_range := d.day_range }

theorem toordinal_date (d : Datetime) : d.date.toordinal = d.toordinal := rfl

def Utc (d : Datetime) : Prop := d.utcoffset = some 0

def microsOfDay (d : Datetime) : ℕ :=
  ((d.hour * 60 + d.minute) * 60 + d.second) * 1000000 + d.microsecond

theorem microsOfDay_lt (d : Datetime) : d.microsOfDay < 86400000000 := by
  have := d.hour_lt
  have := d.minute_lt
  have := d.second_lt
  have := d.microsecond_lt
  unfold microsOfDay
  omega

theorem micros_instant (d : Datetime) :
    d.instant.micros =
      (d.date.toordinal : ℤ) * 86400000000 + d.microsOfDay - d.utcoffset.getD 0 := by
  rw [toordinal_date, instant, microsOfDay]
  push_cast
  ring

theorem utc_offset_lt : ∀ o ∈ some (0 : ℤ), o.natAbs < 86400000000 := by simp

/-- A time of a day in UTC. -/
def ofMicros (date : Date) (micros : ℕ) (h : micros < 86400000000) : Datetime where
  year := date.year
  month := date.month
  day := date.day
  hour := micros / 3600000000
  minute := micros / 60000000 % 60
  second := micros / 1000000 % 60
  microsecond := micros % 1000000
  utcoffset := some 0
  year_range := date.year_range
  month_range := date.month_range
  day_range := date.day_range
  hour_lt := by omega
  minute_lt := by omega
  second_lt := by omega
  microsecond_lt := by omega
  offset_lt := utc_offset_lt

theorem microsOfDay_ofMicros (date : Date) {micros : ℕ} (h : micros < 86400000000) :
    (ofMicros date micros h).microsOfDay = micros := by
  simp only [ofMicros, microsOfDay]
  omega

/-- `d.astimezone(timezone.utc)`, a naive time taken for one in UTC. It raises
outside the calendar. -/
def astimezoneUtc (d : Datetime) : Option Datetime :=
  let micros : ℤ := d.microsOfDay - d.utcoffset.getD 0
  let date :=
    if micros < 0 then d.date.prev?
    else if micros < 86400000000 then some d.date
    else d.date.next?
  date.map fun date => ofMicros date (micros % 86400000000).toNat (by omega)

/-- The time in UTC is the same instant. -/
theorem astimezoneUtc_spec {d u : Datetime} (h : d.astimezoneUtc = some u) :
    u.Utc ∧ u.instant.micros = d.instant.micros := by
  have hlt := d.microsOfDay_lt
  have hoffset : (d.utcoffset.getD 0).natAbs < 86400000000 := by
    cases ho : d.utcoffset with
    | none => decide
    | some o => exact d.offset_lt o ho
  obtain ⟨date, hdate, rfl⟩ := Option.map_eq_some_iff.mp h
  refine ⟨rfl, ?_⟩
  have hutc : (ofMicros date ((↑d.microsOfDay - d.utcoffset.getD 0) % 86400000000).toNat
      (by omega)).utcoffset.getD 0 = 0 := rfl
  have hday : (ofMicros date ((↑d.microsOfDay - d.utcoffset.getD 0) % 86400000000).toNat
      (by omega)).date = date := rfl
  rw [micros_instant, micros_instant, hutc, hday, microsOfDay_ofMicros]
  split_ifs at hdate with hbefore hsame
  · have hord := Date.toordinal_prev? hdate
    omega
  · cases hdate
    omega
  · have hord := Date.toordinal_next? hdate
    omega

/-! ## The order of texts -/

section Order
variable {d e : Datetime}

theorem dateAndClock_lt_iff :
    d.dateAndClock < e.dateAndClock ↔
      d.year < e.year ∨ d.year = e.year ∧ (d.month < e.month ∨ d.month = e.month ∧
        (d.day < e.day ∨ d.day = e.day ∧ (d.hour < e.hour ∨ d.hour = e.hour ∧
          (d.minute < e.minute ∨ d.minute = e.minute ∧ d.second < e.second)))) := by
  have hy : d.year < 10 ^ 4 ∧ e.year < 10 ^ 4 := by
    have := d.year_range
    have := e.year_range
    omega
  have hm : d.month < 10 ^ 2 ∧ e.month < 10 ^ 2 := by
    have := d.month_range
    have := e.month_range
    omega
  have hd : d.day < 10 ^ 2 ∧ e.day < 10 ^ 2 := ⟨d.day_lt, e.day_lt⟩
  have hh : d.hour < 10 ^ 2 ∧ e.hour < 10 ^ 2 := by
    have := d.hour_lt
    have := e.hour_lt
    omega
  have hn : d.minute < 10 ^ 2 ∧ e.minute < 10 ^ 2 := by
    have := d.minute_lt
    have := e.minute_lt
    omega
  have hs : d.second < 10 ^ 2 ∧ e.second < 10 ^ 2 := by
    have := d.second_lt
    have := e.second_lt
    omega
  unfold dateAndClock
  simp (disch := simp) only [append_lt_append_iff, append_eq_append_iff_of_length,
    padded_lt_iff hy.1 hy.2, padded_inj hy.1 hy.2, padded_lt_iff hm.1 hm.2, padded_inj hm.1 hm.2,
    padded_lt_iff hd.1 hd.2, padded_inj hd.1 hd.2, padded_lt_iff hh.1 hh.2, padded_inj hh.1 hh.2,
    padded_lt_iff hn.1 hn.2, padded_inj hn.1 hn.2, padded_lt_iff hs.1 hs.2, List.lt_irrefl,
    and_false, or_false, and_true, and_or_left, or_assoc, and_assoc]

theorem fraction_lt_iff {u v : ℕ} (hu : u < 1000000) (hv : v < 1000000) :
    fraction u ++ formatOffset (some 0) < fraction v ++ formatOffset (some 0) ↔ u < v := by
  have hsign : formatOffset (some 0) = '+' :: "00:00".toList := rfl
  rw [hsign]
  unfold fraction
  split_ifs with hu0 hv0 hv0
  · subst hu0 hv0
    simp
  · have hchar : ('+' : Char) < '.' := by decide
    simp only [List.nil_append, List.cons_append, List.cons_lt_cons_iff, hchar, true_or, true_iff]
    omega
  · have hchar : ¬ ('.' : Char) < '+' := by decide
    have hne : ('.' : Char) ≠ '+' := by decide
    simp only [List.nil_append, List.cons_append, List.cons_lt_cons_iff, hchar, hne, false_and,
      or_false, false_iff]
    omega
  · simp only [List.cons_append, List.cons_lt_cons_iff, lt_irrefl, false_or, true_and]
    rw [append_lt_append_iff (by simp), padded_lt_iff hu hv]
    simp

theorem microsOfDay_lt_iff :
    d.microsOfDay < e.microsOfDay ↔
      d.hour < e.hour ∨ d.hour = e.hour ∧ (d.minute < e.minute ∨ d.minute = e.minute ∧
        (d.second < e.second ∨ d.second = e.second ∧ d.microsecond < e.microsecond)) := by
  have := d.minute_lt
  have := d.second_lt
  have := d.microsecond_lt
  have := e.minute_lt
  have := e.second_lt
  have := e.microsecond_lt
  unfold microsOfDay
  omega

/-- Two times in UTC, by the day and then by the time of the day. -/
theorem micros_lt_iff_of_utc (hd : d.Utc) (he : e.Utc) :
    d.instant.micros < e.instant.micros ↔ d.date.toordinal < e.date.toordinal ∨
      d.date.toordinal = e.date.toordinal ∧ d.microsOfDay < e.microsOfDay := by
  have := d.microsOfDay_lt
  have := e.microsOfDay_lt
  rw [micros_instant, micros_instant, hd, he]
  simp only [Option.getD_some]
  omega

theorem toordinal_date_eq_iff :
    d.date.toordinal = e.date.toordinal ↔
      d.year = e.year ∧ d.month = e.month ∧ d.day = e.day := by
  have hlt : d.date.toordinal < e.date.toordinal ↔ d.year < e.year ∨ d.year = e.year ∧
      (d.month < e.month ∨ d.month = e.month ∧ d.day < e.day) := Date.toordinal_lt_iff
  have hgt : e.date.toordinal < d.date.toordinal ↔ e.year < d.year ∨ e.year = d.year ∧
      (e.month < d.month ∨ e.month = d.month ∧ e.day < d.day) := Date.toordinal_lt_iff
  omega

/-- **Texts of times in UTC are ordered as the times.** -/
theorem isoformat_lt_iff (hd : d.Utc) (he : e.Utc) :
    d.isoformat < e.isoformat ↔ d.instant.micros < e.instant.micros := by
  have hoffset : ∀ {t : Datetime}, t.Utc → t.isoformat.toList =
      t.dateAndClock ++ (fraction t.microsecond ++ formatOffset (some 0)) := by
    intro t ht
    rw [isoformat, ht, String.toList_ofList]
  have hlength : d.dateAndClock.length = e.dateAndClock.length := by
    simp [dateAndClock]
  have hdate : d.date.toordinal < e.date.toordinal ↔ d.year < e.year ∨ d.year = e.year ∧
      (d.month < e.month ∨ d.month = e.month ∧ d.day < e.day) := Date.toordinal_lt_iff
  have hsame : d.dateAndClock = e.dateAndClock ↔ d.year = e.year ∧ d.month = e.month ∧
      d.day = e.day ∧ d.hour = e.hour ∧ d.minute = e.minute ∧ d.second = e.second := by
    refine ⟨dateAndClock_injective, ?_⟩
    rintro ⟨hy, hm, hday, hh, hn, hs⟩
    rw [dateAndClock, dateAndClock, hy, hm, hday, hh, hn, hs]
  rw [String.lt_iff_toList_lt, hoffset hd, hoffset he, append_lt_append_iff hlength,
    fraction_lt_iff d.microsecond_lt e.microsecond_lt, dateAndClock_lt_iff, hsame,
    micros_lt_iff_of_utc hd he, hdate, toordinal_date_eq_iff, microsOfDay_lt_iff]
  -- Both sides run through the fields in the same order.
  simp only [and_or_left, or_assoc, and_assoc]

end Order

/-! ## Reading a text -/

/-- The six digits after the dot, where there is one. -/
def readFraction (cs : List Char) : Option ℕ :=
  if cs[19]? = some '.' then number? ((cs.drop 20).take 6) else some 0

/-- The reading of a time in UTC in full, and `none` of any other text. -/
def fromisoformatUtc (text : String) : Option Datetime := do
  let cs := text.toList
  let date ← Date.parse? (String.ofList (cs.take 10))
  let hour ← number? ((cs.drop 11).take 2)
  let minute ← number? ((cs.drop 14).take 2)
  let second ← number? ((cs.drop 17).take 2)
  let microsecond ← readFraction cs
  let micros := ((hour * 60 + minute) * 60 + second) * 1000000 + microsecond
  if h : micros < 86400000000 then
    let d := ofMicros date micros h
    if d.isoformat = text then some d else none
  else none

theorem ofMicros_microsOfDay {d : Datetime} (h : d.Utc) :
    ofMicros d.date d.microsOfDay d.microsOfDay_lt = d := by
  have hminute := d.minute_lt
  have hsecond := d.second_lt
  have hmicro := d.microsecond_lt
  have hhour' : d.microsOfDay / 3600000000 = d.hour := by unfold microsOfDay; omega
  have hminute' : d.microsOfDay / 60000000 % 60 = d.minute := by unfold microsOfDay; omega
  have hsecond' : d.microsOfDay / 1000000 % 60 = d.second := by unfold microsOfDay; omega
  have hmicro' : d.microsOfDay % 1000000 = d.microsecond := by unfold microsOfDay; omega
  simp only [ofMicros, hhour', hminute', hsecond', hmicro', ← (show d.utcoffset = some 0 from h)]
  rfl

theorem fromisoformatUtc_isoformat {d : Datetime} (h : d.Utc) :
    fromisoformatUtc d.isoformat = some d := by
  have htext : d.isoformat.toList = padded 4 d.year ++ ['-'] ++ padded 2 d.month ++ ['-'] ++
      padded 2 d.day ++ ['T'] ++ padded 2 d.hour ++ [':'] ++ padded 2 d.minute ++ [':'] ++
      padded 2 d.second ++ (fraction d.microsecond ++ formatOffset (some 0)) := by
    rw [isoformat, h, String.toList_ofList, dateAndClock]
  have hdate : Date.parse? (String.ofList (d.isoformat.toList.take 10)) = some d.date := by
    have htake : String.ofList (d.isoformat.toList.take 10) = d.date.isoformat := by
      rw [htext]
      simp [Date.isoformat, List.take_append, List.take_of_length_le, date]
    rw [htake, Date.parse?_isoformat]
  have hhour : number? ((d.isoformat.toList.drop 11).take 2) = some d.hour := by
    have htake : (d.isoformat.toList.drop 11).take 2 = padded 2 d.hour := by
      rw [htext]
      simp [List.drop_append, List.drop_eq_nil_of_le]
    rw [htake, number?_padded (by have := d.hour_lt; omega)]
  have hminute : number? ((d.isoformat.toList.drop 14).take 2) = some d.minute := by
    have htake : (d.isoformat.toList.drop 14).take 2 = padded 2 d.minute := by
      rw [htext]
      simp [List.drop_append, List.drop_eq_nil_of_le]
    rw [htake, number?_padded (by have := d.minute_lt; omega)]
  have hsecond : number? ((d.isoformat.toList.drop 17).take 2) = some d.second := by
    have htake : (d.isoformat.toList.drop 17).take 2 = padded 2 d.second := by
      rw [htext]
      simp [List.drop_append, List.drop_eq_nil_of_le]
    rw [htake, number?_padded (by have := d.second_lt; omega)]
  have hmicro : readFraction d.isoformat.toList = some d.microsecond := by
    have hclock : d.dateAndClock.length = 19 := by simp [dateAndClock]
    have htail : d.isoformat.toList.drop 19 = fraction d.microsecond ++ formatOffset (some 0) := by
      rw [isoformat, h, String.toList_ofList, ← hclock, List.drop_left]
    have hnext : d.isoformat.toList[19]? =
        (fraction d.microsecond ++ formatOffset (some 0))[0]? := by
      rw [← htail, List.getElem?_drop]
    have hrest : d.isoformat.toList.drop 20 =
        (fraction d.microsecond ++ formatOffset (some 0)).drop 1 := by
      rw [← htail, List.drop_drop]
    rw [readFraction, hnext, hrest]
    by_cases hzero : d.microsecond = 0
    · rw [hzero]
      rfl
    · have hfraction : fraction d.microsecond = '.' :: padded 6 d.microsecond := if_neg hzero
      rw [hfraction, List.cons_append, List.getElem?_cons_zero, if_pos rfl, List.drop_one,
        List.tail_cons, List.take_left' (length_padded 6 _), number?_padded d.microsecond_lt]
  have hlt : ((d.hour * 60 + d.minute) * 60 + d.second) * 1000000 + d.microsecond < 86400000000 :=
    d.microsOfDay_lt
  have hsame : ofMicros d.date (((d.hour * 60 + d.minute) * 60 + d.second) * 1000000 +
      d.microsecond) hlt = d := ofMicros_microsOfDay h
  rw [fromisoformatUtc]
  simp only [Option.bind_eq_bind, Option.bind_eq_some_iff]
  refine ⟨d.date, hdate, d.hour, hhour, d.minute, hminute, d.second, hsecond, d.microsecond,
    hmicro, ?_⟩
  rw [dif_pos hlt, hsame, if_pos rfl]

end Datetime
end TradingPlatform.Lib
