import TradingPlatform.Lib.Datetime

/-! # Calendar dates, their numbers and their text

A date is valid by its fields. Its number counts the days from 0001-01-01 as 1,
so two dates have different numbers; its text is of a fixed width and can be read
back. -/

namespace TradingPlatform.Lib

/-! ## Reading numbers -/

/-- The number that decimal digits spell. -/
def number? (digits : List Char) : Option ℕ :=
  digits.foldlM
    (fun n c => if '0' ≤ c ∧ c ≤ '9' then some (10 * n + (c.toNat - 48)) else none) 0

theorem digitChar_lt_ten : ∀ a < 10, ('0' ≤ Nat.digitChar a ∧ Nat.digitChar a ≤ '9') ∧
    (Nat.digitChar a).toNat - 48 = a := by
  decide

theorem number?_padded {w n : ℕ} (h : n < 10 ^ w) : number? (padded w n) = some n := by
  induction w generalizing n with
  | zero =>
    obtain rfl : n = 0 := by simpa using h
    rfl
  | succ w ih =>
    have hinit : number? (padded w (n / 10)) = some (n / 10) := ih (by omega)
    obtain ⟨hdigit, hvalue⟩ := digitChar_lt_ten (n % 10) (Nat.mod_lt n (by decide))
    unfold number? at hinit ⊢
    rw [padded, List.foldlM_append, hinit]
    simp only [Option.bind_eq_bind, Option.bind_some, List.foldlM_cons, List.foldlM_nil, hvalue,
      if_pos hdigit, Option.pure_def]
    rw [Nat.div_add_mod]

/-! ## Counting days -/

theorem le_daysInMonth (year month : ℕ) : 28 ≤ daysInMonth year month := by
  unfold daysInMonth
  split_ifs <;> decide

/-- The days of the years before one. -/
def daysBeforeYear (year : ℕ) : ℕ :=
  (year - 1) * 365 + (year - 1) / 4 - (year - 1) / 100 + (year - 1) / 400

def daysBeforeMonth (year month : ℕ) : ℕ :=
  ((List.range (month - 1)).map fun m => daysInMonth year (m + 1)).sum

theorem daysBeforeMonth_succ {month : ℕ} (year : ℕ) (h : 1 ≤ month) :
    daysBeforeMonth year (month + 1) = daysBeforeMonth year month + daysInMonth year month := by
  obtain ⟨m, rfl⟩ := Nat.exists_eq_add_of_le' h
  simp [daysBeforeMonth, List.range_succ]

theorem daysBeforeMonth_mono (year : ℕ) {m n : ℕ} (hm : 1 ≤ m) (h : m ≤ n) :
    daysBeforeMonth year m ≤ daysBeforeMonth year n := by
  induction n, h using Nat.le_induction with
  | base => exact le_rfl
  | succ n hn ih =>
    rw [daysBeforeMonth_succ year (hm.trans hn)]
    exact Nat.le_add_right_of_le ih

theorem daysBeforeMonth_end (year : ℕ) :
    daysBeforeMonth year 13 = if isLeap year then 366 else 365 := by
  unfold daysBeforeMonth daysInMonth
  split_ifs <;> rfl

theorem isLeap_iff (year : ℕ) : isLeap year ↔ 4 ∣ year ∧ (¬ 100 ∣ year ∨ 400 ∣ year) := by
  simp [isLeap, Nat.dvd_iff_mod_eq_zero]

theorem daysBeforeYear_succ {year : ℕ} (h : 1 ≤ year) :
    daysBeforeYear (year + 1) = daysBeforeYear year + daysBeforeMonth year 13 := by
  obtain ⟨y, rfl⟩ := Nat.exists_eq_add_of_le' h
  have hcentury : y / 100 ≤ y := Nat.div_le_self y 100
  have hfour : 100 ∣ y + 1 → 4 ∣ y + 1 := Nat.dvd_trans (by decide)
  have hhundred : 400 ∣ y + 1 → 100 ∣ y + 1 := Nat.dvd_trans (by decide)
  rw [daysBeforeMonth_end]
  simp only [daysBeforeYear, isLeap_iff, Nat.add_sub_cancel, Nat.succ_div]
  generalize y / 4 = a, y / 100 = b, y / 400 = c at *
  by_cases h4 : 4 ∣ y + 1 <;> by_cases h100 : 100 ∣ y + 1 <;> by_cases h400 : 400 ∣ y + 1 <;>
    simp only [h4, h100, h400, if_true, if_false] <;> grind

theorem daysBeforeYear_mono {m n : ℕ} (hm : 1 ≤ m) (h : m ≤ n) :
    daysBeforeYear m ≤ daysBeforeYear n := by
  induction n, h using Nat.le_induction with
  | base => exact le_rfl
  | succ n hn ih =>
    rw [daysBeforeYear_succ (hm.trans hn)]
    exact Nat.le_add_right_of_le ih

/-! ## Dates -/

structure Date where
  year : ℕ
  month : ℕ
  day : ℕ
  year_range : 1 ≤ year ∧ year ≤ 9999 := by decide
  month_range : 1 ≤ month ∧ month ≤ 12 := by decide
  day_range : 1 ≤ day ∧ day ≤ daysInMonth year month := by decide
  deriving DecidableEq

/-- `date(year, month, day)`, which raises outside the calendar. -/
def date? (year month day : ℕ) : Option Date :=
  if h : (1 ≤ year ∧ year ≤ 9999) ∧ (1 ≤ month ∧ month ≤ 12) ∧
      (1 ≤ day ∧ day ≤ daysInMonth year month) then
    some ⟨year, month, day, h.1, h.2.1, h.2.2⟩
  else none

namespace Date

def toordinal (d : Date) : ℕ :=
  daysBeforeYear d.year + daysBeforeMonth d.year d.month + d.day

/-- Monday is 0. -/
def weekday (d : Date) : ℕ := (d.toordinal + 6) % 7

def isoformat (d : Date) : String :=
  String.ofList (padded 4 d.year ++ ['-'] ++ padded 2 d.month ++ ['-'] ++ padded 2 d.day)

/-- The reading of a date in full, and `none` of any other text. -/
def parse? (text : String) : Option Date := do
  let cs := text.toList
  let year ← number? (cs.take 4)
  let month ← number? ((cs.drop 5).take 2)
  let day ← number? ((cs.drop 8).take 2)
  let d ← date? year month day
  if d.isoformat = text then some d else none

theorem parse?_isoformat (d : Date) : parse? d.isoformat = some d := by
  have hday : d.day < 10 ^ 2 := by
    have := d.day_range.2
    unfold daysInMonth at this
    split_ifs at this <;> omega
  have hyear : number? (d.isoformat.toList.take 4) = some d.year := by
    have htake : d.isoformat.toList.take 4 = padded 4 d.year := by
      simp [isoformat]
    rw [htake, number?_padded (by have := d.year_range.2; omega)]
  have hmonth : number? ((d.isoformat.toList.drop 5).take 2) = some d.month := by
    have htake : (d.isoformat.toList.drop 5).take 2 = padded 2 d.month := by
      simp [isoformat, List.drop_append, List.take_append]
    rw [htake, number?_padded (by have := d.month_range.2; omega)]
  have hdigits : number? ((d.isoformat.toList.drop 8).take 2) = some d.day := by
    have htake : (d.isoformat.toList.drop 8).take 2 = padded 2 d.day := by
      simp [isoformat, List.drop_append, List.drop_eq_nil_of_le, List.take_of_length_le]
    rw [htake, number?_padded hday]
  have hdate : date? d.year d.month d.day = some d :=
    dif_pos ⟨d.year_range, d.month_range, d.day_range⟩
  simp only [parse?, hyear, hmonth, hdigits, hdate, Option.bind_eq_bind, Option.bind_some, if_true]

theorem toordinal_le (d : Date) : d.toordinal ≤ daysBeforeYear (d.year + 1) := by
  have hmonth := daysBeforeMonth_mono d.year (m := d.month + 1) (n := 13) (by omega)
    (Nat.succ_le_succ d.month_range.2)
  rw [daysBeforeMonth_succ d.year d.month_range.1] at hmonth
  rw [toordinal, daysBeforeYear_succ d.year_range.1]
  have hday := d.day_range.2
  omega

theorem year_le_of_toordinal {d e : Date} (h : d.toordinal ≤ e.toordinal) : d.year ≤ e.year := by
  by_contra hlt
  have hyear := daysBeforeYear_mono (m := e.year + 1) (n := d.year) (by omega) (by omega)
  have hlast := e.toordinal_le
  have hday := d.day_range.1
  rw [toordinal] at h
  omega

theorem month_le_of_toordinal {d e : Date} (hyear : d.year = e.year)
    (h : d.toordinal ≤ e.toordinal) : d.month ≤ e.month := by
  by_contra hlt
  have hmonth := daysBeforeMonth_mono e.year (m := e.month + 1) (n := d.month) (by omega) (by omega)
  rw [daysBeforeMonth_succ e.year e.month_range.1] at hmonth
  have hlast := e.day_range.2
  have hday := d.day_range.1
  rw [toordinal, toordinal, hyear] at h
  omega

/-- No two dates have one number. -/
theorem toordinal_injective : Function.Injective toordinal := by
  intro d e h
  have hyear : d.year = e.year :=
    le_antisymm (year_le_of_toordinal h.le) (year_le_of_toordinal h.ge)
  have hmonth : d.month = e.month :=
    le_antisymm (month_le_of_toordinal hyear h.le) (month_le_of_toordinal hyear.symm h.ge)
  have hday : d.day = e.day := by
    rw [toordinal, toordinal, hyear, hmonth] at h
    omega
  cases d
  cases e
  simp only at hyear hmonth hday
  subst hyear hmonth hday
  rfl

end Date

end TradingPlatform.Lib
