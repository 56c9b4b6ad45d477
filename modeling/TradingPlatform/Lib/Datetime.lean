import Mathlib.Algebra.Group.Nat.Defs
import Mathlib.Algebra.GroupWithZero.Nat
import Mathlib.Algebra.Order.Group.Int

/-! # Calendar times and their ISO text

A time has the fields of a proleptic Gregorian date, a wall clock and, when it
is aware, an offset from UTC in microseconds. `isoformat` shows the offset the
time carries, so that one instant has many texts; a text has one time. -/

namespace TradingPlatform.Lib

/-! ## Numbers of a fixed width -/

/-- The last `w` decimal digits, `%0wd` of a number below `10 ^ w`. -/
def padded : ℕ → ℕ → List Char
  | 0, _ => []
  | w + 1, n => padded w (n / 10) ++ [Nat.digitChar (n % 10)]

@[simp] theorem length_padded (w n : ℕ) : (padded w n).length = w := by
  induction w generalizing n with
  | zero => rfl
  | succ w ih => rw [padded, List.length_append, ih, List.length_singleton]

theorem digitChar_injective : ∀ a < 10, ∀ b < 10, Nat.digitChar a = Nat.digitChar b → a = b := by
  decide

theorem padded_injective {w n m : ℕ} (hn : n < 10 ^ w) (hm : m < 10 ^ w)
    (h : padded w n = padded w m) : n = m := by
  induction w generalizing n m with
  | zero => omega
  | succ w ih =>
    obtain ⟨hhigh, hlow⟩ := List.append_inj h (by simp)
    have hdiv : n / 10 = m / 10 := ih (by omega) (by omega) hhigh
    have hmod : n % 10 = m % 10 :=
      digitChar_injective _ (by omega) _ (by omega) (List.singleton_inj.mp hlow)
    omega

/-! ## Times -/

def isLeap (year : ℕ) : Bool := year % 4 = 0 && (year % 100 ≠ 0 || year % 400 = 0)

def daysInMonth (year month : ℕ) : ℕ :=
  if month = 2 then if isLeap year then 29 else 28
  else if month = 4 ∨ month = 6 ∨ month = 9 ∨ month = 11 then 30 else 31

/-- `utcoffset` is in microseconds, and `none` of a naive time. -/
structure Datetime where
  year : ℕ
  month : ℕ
  day : ℕ
  hour : ℕ := 0
  minute : ℕ := 0
  second : ℕ := 0
  microsecond : ℕ := 0
  utcoffset : Option ℤ := none
  year_range : 1 ≤ year ∧ year ≤ 9999 := by decide
  month_range : 1 ≤ month ∧ month ≤ 12 := by decide
  day_range : 1 ≤ day ∧ day ≤ daysInMonth year month := by decide
  hour_lt : hour < 24 := by decide
  minute_lt : minute < 60 := by decide
  second_lt : second < 60 := by decide
  microsecond_lt : microsecond < 1000000 := by decide
  offset_lt : ∀ o ∈ utcoffset, o.natAbs < 86400000000 := by decide

/-- Microseconds from 0001-01-01, in UTC when aware. -/
structure Instant where
  aware : Bool
  micros : ℤ
  deriving DecidableEq

namespace Datetime

theorem day_lt (d : Datetime) : d.day < 100 := by
  obtain ⟨-, hday⟩ := d.day_range
  unfold daysInMonth at hday
  split_ifs at hday <;> omega

def toordinal (d : Datetime) : ℕ :=
  let y := d.year - 1
  y * 365 + y / 4 - y / 100 + y / 400 +
    ((List.range (d.month - 1)).map fun m => daysInMonth d.year (m + 1)).sum + d.day

def instant (d : Datetime) : Instant where
  aware := d.utcoffset.isSome
  micros := (((d.toordinal * 24 + d.hour) * 60 + d.minute) * 60 + d.second : ℕ) * 1000000 +
    d.microsecond - d.utcoffset.getD 0

/-! ## The text of a time -/

def dateAndClock (d : Datetime) : List Char :=
  padded 4 d.year ++ ['-'] ++ padded 2 d.month ++ ['-'] ++ padded 2 d.day ++ ['T'] ++
    padded 2 d.hour ++ [':'] ++ padded 2 d.minute ++ [':'] ++ padded 2 d.second

def fraction (micros : ℕ) : List Char :=
  if micros = 0 then [] else '.' :: padded 6 micros

def offsetSeconds (micros : ℕ) : List Char :=
  if micros % 60000000 = 0 then []
  else ':' :: padded 2 (micros / 1000000 % 60) ++ fraction (micros % 1000000)

def formatOffset : Option ℤ → List Char
  | none => []
  | some o =>
    (if o < 0 then '-' else '+') :: (padded 2 (o.natAbs / 3600000000) ++ [':'] ++
      padded 2 (o.natAbs / 60000000 % 60)) ++ offsetSeconds o.natAbs

def isoformat (d : Datetime) : String :=
  String.ofList (d.dateAndClock ++ (fraction d.microsecond ++ formatOffset d.utcoffset))

theorem fraction_injective {u v : ℕ} (hu : u < 1000000) (hv : v < 1000000)
    (h : fraction u = fraction v) : u = v := by
  unfold fraction at h
  split at h
  next hu0 =>
    split at h
    next hv0 => rw [hu0, hv0]
    next => cases h
  next =>
    split at h
    next => cases h
    next => exact padded_injective hu hv (List.cons.inj h).2

theorem offsetSeconds_injective {o p : ℕ} (h : offsetSeconds o = offsetSeconds p) :
    o % 60000000 = p % 60000000 := by
  unfold offsetSeconds at h
  split at h
  next ho =>
    split at h
    next hp => rw [ho, hp]
    next => cases h
  next =>
    split at h
    next => cases h
    next =>
      obtain ⟨hseconds, hfraction⟩ := List.append_inj h (by simp)
      have hseconds : o / 1000000 % 60 = p / 1000000 % 60 :=
        padded_injective (by omega) (by omega) (List.cons.inj hseconds).2
      have hfraction : o % 1000000 = p % 1000000 :=
        fraction_injective (by omega) (by omega) hfraction
      omega

theorem formatOffset_injective {o p : Option ℤ} (ho : ∀ a ∈ o, a.natAbs < 86400000000)
    (hp : ∀ a ∈ p, a.natAbs < 86400000000) (h : formatOffset o = formatOffset p) : o = p := by
  cases o with
  | none => cases p with
    | none => rfl
    | some p => cases h
  | some o => cases p with
    | none => cases h
    | some p =>
      have ho := ho o rfl
      have hp := hp p rfl
      obtain ⟨hfront, hseconds⟩ := List.append_inj h (by simp)
      obtain ⟨hsign, hfront⟩ := List.cons.inj hfront
      obtain ⟨hfront, hminutes⟩ := List.append_inj hfront (by simp)
      obtain ⟨hhours, -⟩ := List.append_inj hfront (by simp)
      have hhours := padded_injective (by omega) (by omega) hhours
      have hminutes := padded_injective (by omega) (by omega) hminutes
      have hseconds := offsetSeconds_injective hseconds
      have habs : o.natAbs = p.natAbs := by omega
      have hsign : o < 0 ↔ p < 0 := by
        split at hsign <;> split at hsign <;> first | omega | exact absurd hsign (by decide)
      exact congrArg some (by omega)

theorem formatOffset_ne_dot (o : Option ℤ) (rest : List Char) :
    formatOffset o ≠ '.' :: rest := by
  intro h
  cases o with
  | none => cases h
  | some o =>
    have hsign := (List.cons.inj h).1
    split at hsign <;> exact absurd hsign (by decide)

/-- A fraction starts with a dot, an offset with a sign. -/
theorem fraction_append_injective {u v : ℕ} {o p : Option ℤ}
    (h : fraction u ++ formatOffset o = fraction v ++ formatOffset p) :
    fraction u = fraction v ∧ formatOffset o = formatOffset p := by
  unfold fraction at *
  split at h
  next hu =>
    split at h
    next hv => exact ⟨by rw [if_pos hu, if_pos hv], h⟩
    next => exact absurd h (formatOffset_ne_dot o _)
  next hu =>
    split at h
    next => exact absurd h.symm (formatOffset_ne_dot p _)
    next hv =>
      rw [if_neg hu, if_neg hv]
      exact List.append_inj h (by simp)

theorem dateAndClock_injective {d e : Datetime} (h : d.dateAndClock = e.dateAndClock) :
    d.year = e.year ∧ d.month = e.month ∧ d.day = e.day ∧ d.hour = e.hour ∧
      d.minute = e.minute ∧ d.second = e.second := by
  obtain ⟨h, hsecond⟩ := List.append_inj h (by simp)
  obtain ⟨h, -⟩ := List.append_inj h (by simp)
  obtain ⟨h, hminute⟩ := List.append_inj h (by simp)
  obtain ⟨h, -⟩ := List.append_inj h (by simp)
  obtain ⟨h, hhour⟩ := List.append_inj h (by simp)
  obtain ⟨h, -⟩ := List.append_inj h (by simp)
  obtain ⟨h, hday⟩ := List.append_inj h (by simp)
  obtain ⟨h, -⟩ := List.append_inj h (by simp)
  obtain ⟨h, hmonth⟩ := List.append_inj h (by simp)
  obtain ⟨hyear, -⟩ := List.append_inj h (by simp)
  have := d.year_range
  have := e.year_range
  have := d.month_range
  have := e.month_range
  have := d.day_lt
  have := e.day_lt
  have := d.hour_lt
  have := e.hour_lt
  have := d.minute_lt
  have := e.minute_lt
  have := d.second_lt
  have := e.second_lt
  exact ⟨padded_injective (by omega) (by omega) hyear,
    padded_injective (by omega) (by omega) hmonth, padded_injective (by omega) (by omega) hday,
    padded_injective (by omega) (by omega) hhour,
    padded_injective (by omega) (by omega) hminute,
    padded_injective (by omega) (by omega) hsecond⟩

/-- **A text has one time.** -/
theorem isoformat_injective {d e : Datetime} (h : d.isoformat = e.isoformat) : d = e := by
  obtain ⟨hclock, htail⟩ := List.append_inj (String.ofList_injective h) (by simp [dateAndClock])
  obtain ⟨hyear, hmonth, hday, hhour, hminute, hsecond⟩ := dateAndClock_injective hclock
  obtain ⟨hfraction, hoffset⟩ := fraction_append_injective htail
  have hmicrosecond := fraction_injective d.microsecond_lt e.microsecond_lt hfraction
  have hoffset := formatOffset_injective d.offset_lt e.offset_lt hoffset
  cases d
  cases e
  congr

end Datetime
end TradingPlatform.Lib
