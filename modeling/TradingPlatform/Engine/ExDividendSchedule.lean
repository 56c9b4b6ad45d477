import TradingPlatform.Engine.ExDividendGaps
import TradingPlatform.Lib.Date

/-! # Known dividends and guessed ones

The schedule lays the cached dates over the manifest's and the projected third
Fridays over both, by the text of the date. The manifest is given, so is the
zone; the calendar is the proleptic Gregorian one. -/

namespace TradingPlatform.Engine.ExDividend

open TradingPlatform.Lib TradingPlatform.Lib.StableSort

/-! ## Third Fridays -/

/-- The third of the month's Fridays, from the first day on. -/
def thirdFriday (year month : ℕ) : Option Date :=
  (((List.range (daysInMonth year month)).filterMap fun i => date? year month (i + 1)).filter
    fun d => d.weekday = 4)[2]?

theorem three_fridays : ∀ r < 7, (List.range 21).countP (fun i => (i + r) % 7 = 4) = 3 := by decide

section ThirdFriday
variable {year month : ℕ} (hyear : 1 ≤ year ∧ year ≤ 9999) (hmonth : 1 ≤ month ∧ month ≤ 12)
include hyear hmonth

def firstDay : Date :=
  ⟨year, month, 1, hyear, hmonth, le_rfl, (by decide : 1 ≤ 28).trans (le_daysInMonth year month)⟩

theorem weekday_of_day {i : ℕ} (h : i < daysInMonth year month) :
    ∃ d, date? year month (i + 1) = some d ∧
      d.weekday = (i + (firstDay hyear hmonth).weekday) % 7 := by
  refine ⟨⟨year, month, i + 1, hyear, hmonth, by omega, h⟩,
    dif_pos ⟨hyear, hmonth, by omega, h⟩, ?_⟩
  simp only [Date.weekday, Date.toordinal, firstDay]
  omega

/-- Every month has a third Friday. -/
theorem isSome_thirdFriday : (thirdFriday year month).isSome := by
  have hcount : 3 ≤ ((List.range (daysInMonth year month)).filterMap fun i =>
      date? year month (i + 1)).countP fun d => d.weekday = 4 := by
    obtain ⟨rest, hrest⟩ := Nat.exists_eq_add_of_le
      ((by decide : 21 ≤ 28).trans (le_daysInMonth year month))
    rw [List.countP_filterMap, hrest, List.range_add, List.countP_append,
      ← three_fridays _ (Nat.mod_lt (firstDay hyear hmonth).weekday (by decide : 7 > 0))]
    refine le_add_right (le_of_eq (List.countP_congr fun i hi => ?_))
    obtain ⟨d, hd, hday⟩ := weekday_of_day hyear hmonth (i := i)
      (by rw [hrest]; exact Nat.lt_add_right rest (List.mem_range.mp hi))
    simp [hd, hday]
  rw [thirdFriday, isSome_getElem?, ← List.countP_eq_length_filter]
  exact hcount

end ThirdFriday

/-! ## The schedule -/

def microsecondsPerHour : ℤ := 3600000000

/-- What the schedule asks outside the platform: upper-casing, the reading of a date's text,
the New York date of an instant, and New York's offset at half past nine of a day. -/
structure Calendar where
  upper : String → String
  fromisoformat : String → Option Date
  etDate : ℤ → Date
  utcoffset : Date → ℤ

structure Calendar.Lawful (cal : Calendar) : Prop where
  upper_spy : cal.upper "SPY" = "SPY"
  upper_qqq : cal.upper "QQQ" = "QQQ"
  fromisoformat : ∀ d : Date, cal.fromisoformat d.isoformat = some d
  utcoffset : ∀ d, -5 * microsecondsPerHour ≤ cal.utcoffset d ∧
    cal.utcoffset d ≤ -4 * microsecondsPerHour

/-- `datetime.combine(ex_day, time(9, 30), tzinfo=ET)`, from the first of January of year 1. -/
def Calendar.opening (cal : Calendar) (exDay : Date) : ℤ :=
  (exDay.toordinal - 1) * microsecondsPerDay + 9 * microsecondsPerHour +
    30 * 60 * 1000000 - cal.utcoffset exDay

theorem Calendar.Lawful.opening_injective {cal : Calendar} (hcal : cal.Lawful) :
    Function.Injective cal.opening := by
  intro d e h
  obtain ⟨hd, hd'⟩ := hcal.utcoffset d
  obtain ⟨he, he'⟩ := hcal.utcoffset e
  unfold opening microsecondsPerDay at h
  unfold microsecondsPerHour at *
  exact Date.toordinal_injective (by omega)

section Schedule
variable (cal : Calendar) (manifestBySymbol : String → List (String × ℚ))

/-- `date.fromisoformat(text[:10])`. -/
def Calendar.exDay (text : String) : Option Date :=
  cal.fromisoformat (String.ofList (text.toList.take 10))

def manifestAmounts (symbol : String) : Dict String ℚ :=
  update .empty (manifestBySymbol (cal.upper symbol))

/-- The mean of the last four manifest amounts, or the default. -/
def fallbackAmount (sym : String) : ℚ :=
  let trailing := (manifestBySymbol sym).map Prod.snd
  let recent := trailing.drop (trailing.length - 4)
  if trailing = [] then defaultQuarterlyDividend sym else recent.sum / recent.length

/-- The keys of the third Fridays in the eight months from a date on. -/
def projectedKeys (et : Date) : List String :=
  (List.range 8).filterMap fun monthOffset =>
    let month := et.month + monthOffset
    let (year, month) := if 12 < month then (et.year + 1, month - 12) else (et.year, month)
    -- a year past 9999 raises in the source
    if month ∉ quarterlyExDivMonths then none else (thirdFriday year month).map Date.isoformat

def projectedSchedule (symbol : String) (anchorTime : ℤ) : Dict String ℚ :=
  let sym := cal.upper symbol
  if sym ∉ indexEtfSymbols then .empty
  else
    .tabulate id
      (fun exKey => ((manifestAmounts cal manifestBySymbol sym).get? exKey).getD
        (fallbackAmount manifestBySymbol sym))
      (projectedKeys (cal.etDate anchorTime))

variable (overlay : EventCalendarOverlay)

def cachedAmounts (sym : String) : Dict String ℚ :=
  (overlay.dynamicDividendCache.get? sym).getD .empty

def schedule (symbol : String) (currentTime : ℤ) : Dict String ℚ :=
  let sym := cal.upper symbol
  if sym ∉ indexEtfSymbols then .empty
  else
    update (update (manifestAmounts cal manifestBySymbol sym) (cachedAmounts overlay sym).items)
      (projectedSchedule cal manifestBySymbol sym currentTime).items

def isExDividendDate (symbol : String) (currentTime : ℤ) : Bool :=
  ((schedule cal manifestBySymbol overlay symbol currentTime).get?
    (cal.etDate currentTime).isoformat).isSome

/-- The opening and the amount of an entry that pays and opens inside the range. -/
def adjustmentEvent? (rangeMin rangeMax : ℤ) (entry : String × ℚ) : Option (ℤ × ℚ) :=
  if entry.2 ≤ 0 then none
  else
    (cal.exDay entry.1).bind fun exDay =>
      if cal.opening exDay ≤ rangeMin ∨ rangeMax < cal.opening exDay then none
      else some (cal.opening exDay, entry.2)

/-- The events inside a range, oldest first. -/
def adjustmentEvents (symbol : String) (rangeMin rangeMax : ℤ) : List (ℤ × ℚ) :=
  let sym := cal.upper symbol
  if sym ∉ indexEtfSymbols then []
  else
    sortBy (fun event : ℤ × ℚ => event.1)
      ((schedule cal manifestBySymbol overlay sym rangeMax).items.filterMap
        (adjustmentEvent? cal rangeMin rangeMax))

end Schedule

/-! ## The schedule of the adjustment -/

def Calendar.env (cal : Calendar)
    (fetchCashDividends : String → ℤ → ℤ → String → String → List (String × ℚ)) : Env where
  upper := cal.upper
  exOpen text := (cal.exDay text).map cal.opening
  etYearMonth t := ((cal.etDate t).year, (cal.etDate t).month)
  quarterlyExDivDate year month := ((thirdFriday year.toNat month).map Date.isoformat).getD ""
  fetchCashDividends := fetchCashDividends

section Adjustment
variable {cal : Calendar} {overlay : EventCalendarOverlay} {symbol : String}
  {fetchCashDividends : String → ℤ → ℤ → String → String → List (String × ℚ)}

theorem tabulate_id_eq_update (val : String → ℚ) (keys : List String) :
    Dict.tabulate id val keys = update .empty (keys.map fun key => (key, val key)) := by
  rw [update, Dict.setAll_map]
  rfl

theorem map_isoformat_thirdFriday {year month : ℕ} (hyear : 1 ≤ year ∧ year ≤ 9999)
    (hmonth : 1 ≤ month ∧ month ≤ 12) :
    (thirdFriday year month).map Date.isoformat =
      some ((cal.env fetchCashDividends).quarterlyExDivDate year month) := by
  obtain ⟨d, hd⟩ := Option.isSome_iff_exists.mp (isSome_thirdFriday hyear hmonth)
  simp [Calendar.env, hd]

theorem projectedSchedule_eq {t : ℤ} (ht : (cal.etDate t).year < 9999) :
    projectedSchedule cal exDivManifestBySymbol symbol t =
      projectedExDividendSchedule (cal.env fetchCashDividends) symbol t := by
  by_cases hsym : cal.upper symbol ∈ indexEtfSymbols
  · have hsym' : ¬ (cal.env fetchCashDividends).upper symbol ∉ indexEtfSymbols := not_not.mpr hsym
    simp only [projectedSchedule, projectedExDividendSchedule]
    rw [if_neg (not_not.mpr hsym), if_neg hsym', tabulate_id_eq_update, projectedKeys,
      List.map_filterMap]
    refine congrArg (update .empty) (List.filterMap_congr fun monthOffset hoffset => ?_)
    have hmonths := (cal.etDate t).month_range
    have hyears := (cal.etDate t).year_range
    have hoffset := List.mem_range.mp hoffset
    have het : (cal.env fetchCashDividends).etYearMonth t =
        (((cal.etDate t).year : ℤ), (cal.etDate t).month) := rfl
    rw [het]
    by_cases hwrap : 12 < (cal.etDate t).month + monthOffset
    · simp only [hwrap, if_true]
      by_cases hquarter : (cal.etDate t).month + monthOffset - 12 ∈ quarterlyExDivMonths
      · rw [if_neg (not_not.mpr hquarter), if_neg (not_not.mpr hquarter), ← Nat.cast_succ,
          map_isoformat_thirdFriday (by omega) (by omega)]
        rfl
      · rw [if_pos hquarter, if_pos hquarter, Option.map_none]
    · simp only [hwrap, if_false]
      by_cases hquarter : (cal.etDate t).month + monthOffset ∈ quarterlyExDivMonths
      · rw [if_neg (not_not.mpr hquarter), if_neg (not_not.mpr hquarter),
          map_isoformat_thirdFriday (by omega) (by omega)]
        rfl
      · rw [if_pos hquarter, if_pos hquarter, Option.map_none]
  · exact (if_pos hsym).trans (if_pos hsym).symm

/-- With the platform's manifest this is the schedule the adjustment reads. -/
theorem schedule_eq {t : ℤ} (ht : (cal.etDate t).year < 9999) :
    schedule cal exDivManifestBySymbol overlay symbol t =
      overlay.exDividendSchedule (cal.env fetchCashDividends) symbol t := by
  simp only [schedule, EventCalendarOverlay.exDividendSchedule]
  rw [projectedSchedule_eq ht]
  rfl

theorem adjustmentEvents_eq {rangeMin rangeMax : ℤ} (h : (cal.etDate rangeMax).year < 9999) :
    adjustmentEvents cal exDivManifestBySymbol overlay symbol rangeMin rangeMax =
      overlay.exDividendAdjustmentEvents (cal.env fetchCashDividends) symbol rangeMin rangeMax := by
  simp only [adjustmentEvents, EventCalendarOverlay.exDividendAdjustmentEvents]
  rw [schedule_eq h]
  have hevent : adjustmentEvent? cal rangeMin rangeMax = fun entry =>
      if entry.2 ≤ 0 then none
      else ((cal.env fetchCashDividends).exOpen entry.1).bind fun exTs =>
        if exTs ≤ rangeMin ∨ rangeMax < exTs then none else some (exTs, entry.2) := by
    funext entry
    unfold adjustmentEvent?
    simp only [Calendar.env, Option.bind_map, Function.comp_def]
  rw [hevent]
  rfl

end Adjustment

/-! ## Known dividends -/

section Known
variable (cal : Calendar) (manifestBySymbol : String → List (String × ℚ))
  (overlay : EventCalendarOverlay)

/-- The known dividends: the manifest's and the cached ones, of a symbol that has any. -/
def manifestOf (symbol : String) : Dict String ℚ :=
  if cal.upper symbol ∈ indexEtfSymbols then
    manifestAmounts cal manifestBySymbol (cal.upper symbol)
  else .empty

def cachedOf (symbol : String) : Dict String ℚ :=
  if cal.upper symbol ∈ indexEtfSymbols then cachedAmounts overlay (cal.upper symbol) else .empty

def known (symbol : String) : Dict String ℚ :=
  update (manifestOf cal manifestBySymbol symbol) (cachedOf cal overlay symbol).items

def quarter (d : Date) : ℕ × ℕ := (d.year, (d.month - 1) / 3)

def Calendar.quarterOf (key : String) : Option (ℕ × ℕ) := (cal.exDay key).map quarter

def KnownQuarter (symbol : String) (q : ℕ × ℕ) : Prop :=
  ∃ key, (known cal manifestBySymbol overlay symbol).get? key ≠ none ∧ cal.quarterOf key = some q

/-- A known dividend is neither doubled nor overwritten by a guess. -/
structure NeverDoubled (symbol : String) (anchorTime : ℤ) : Prop where
  onlyKnown : ∀ key, (schedule cal manifestBySymbol overlay symbol anchorTime).get? key ≠ none →
    ∀ q ∈ cal.quarterOf key, KnownQuarter cal manifestBySymbol overlay symbol q →
    (known cal manifestBySymbol overlay symbol).get? key ≠ none
  amounts : ∀ key, (known cal manifestBySymbol overlay symbol).get? key ≠ none →
    ∃ a, (schedule cal manifestBySymbol overlay symbol anchorTime).get? key = some a ∧
      ((manifestOf cal manifestBySymbol symbol).get? key = some a ∨
        (cachedOf cal overlay symbol).get? key = some a)
  projected : ∀ key, (schedule cal manifestBySymbol overlay symbol anchorTime).get? key ≠ none →
    (known cal manifestBySymbol overlay symbol).get? key = none →
    key ∈ projectedKeys (cal.etDate anchorTime)
  events : ∀ rangeMin (d : Date), KnownQuarter cal manifestBySymbol overlay symbol (quarter d) →
    ((adjustmentEvents cal manifestBySymbol overlay symbol rangeMin anchorTime).filter
        (·.1 = cal.opening d)).length ≤
      ((known cal manifestBySymbol overlay symbol).items.filter
        (cal.exDay ·.1 = some d)).length
  exDate : isExDividendDate cal manifestBySymbol overlay symbol anchorTime →
    KnownQuarter cal manifestBySymbol overlay symbol (quarter (cal.etDate anchorTime)) →
    (known cal manifestBySymbol overlay symbol).get? (cal.etDate anchorTime).isoformat ≠ none

/-- Where a projected third Friday meets a known quarter, it is a manifest date, or a cached
one whose amount is the guess. -/
def GuessesAgree (symbol : String) (anchorTime : ℤ) : Prop :=
  cal.upper symbol ∈ indexEtfSymbols →
    ∀ key ∈ projectedKeys (cal.etDate anchorTime), ∀ q ∈ cal.quarterOf key,
      KnownQuarter cal manifestBySymbol overlay symbol q →
      (manifestOf cal manifestBySymbol symbol).get? key ≠ none ∨
        (cachedOf cal overlay symbol).get? key =
          some (fallbackAmount manifestBySymbol (cal.upper symbol))

end Known

section Proofs
variable {cal : Calendar} {manifestBySymbol : String → List (String × ℚ)}
  {overlay : EventCalendarOverlay} {symbol : String}

theorem known_get? (key : String) :
    (known cal manifestBySymbol overlay symbol).get? key =
      ((cachedOf cal overlay symbol).get? key).or
        ((manifestOf cal manifestBySymbol symbol).get? key) :=
  Dict.get?_setAll_items _ _ _

theorem known_of_manifest {key : String}
    (h : (manifestOf cal manifestBySymbol symbol).get? key ≠ none) :
    (known cal manifestBySymbol overlay symbol).get? key ≠ none := by
  rw [known_get?, ne_eq, Option.or_eq_none_iff]
  exact fun hnone => h hnone.2

theorem known_of_cached {key : String} (h : (cachedOf cal overlay symbol).get? key ≠ none) :
    (known cal manifestBySymbol overlay symbol).get? key ≠ none := by
  rw [known_get?, ne_eq, Option.or_eq_none_iff]
  exact fun hnone => h hnone.1

theorem schedule_of_notMem (h : cal.upper symbol ∉ indexEtfSymbols) (t : ℤ) :
    schedule cal manifestBySymbol overlay symbol t = .empty := if_pos h

theorem known_of_notMem (h : cal.upper symbol ∉ indexEtfSymbols) (key : String) :
    (known cal manifestBySymbol overlay symbol).get? key = none := by
  rw [known_get?, cachedOf, manifestOf, if_neg h, if_neg h]
  rfl

section Lawful
variable (hcal : cal.Lawful)
include hcal

theorem upper_idem (h : cal.upper symbol ∈ indexEtfSymbols) :
    cal.upper (cal.upper symbol) = cal.upper symbol := by
  rcases List.mem_pair.mp h with heq | heq
  · rw [heq, hcal.upper_spy]
  · rw [heq, hcal.upper_qqq]

theorem exDay_isoformat (d : Date) : cal.exDay d.isoformat = some d := by
  rw [Calendar.exDay, Date.isoformat, String.toList_ofList, List.take_of_length_le (by simp)]
  exact hcal.fromisoformat d

theorem quarterOf_projected {et : Date} {key : String} (h : key ∈ projectedKeys et) :
    ∃ q, cal.quarterOf key = some q := by
  obtain ⟨monthOffset, -, hkey⟩ := List.mem_filterMap.mp h
  simp only at hkey
  split_ifs at hkey <;> obtain ⟨d, -, rfl⟩ := Option.map_eq_some_iff.mp hkey <;>
    exact ⟨quarter d, by rw [Calendar.quarterOf, exDay_isoformat hcal, Option.map_some]⟩

/-- The projection is written last. -/
theorem schedule_get? (h : cal.upper symbol ∈ indexEtfSymbols) (t : ℤ) (key : String) :
    (schedule cal manifestBySymbol overlay symbol t).get? key =
      if key ∈ projectedKeys (cal.etDate t) then
        some (((manifestOf cal manifestBySymbol symbol).get? key).getD
          (fallbackAmount manifestBySymbol (cal.upper symbol)))
      else (known cal manifestBySymbol overlay symbol).get? key := by
  have hprojected : (projectedSchedule cal manifestBySymbol (cal.upper symbol) t).get? key =
      if key ∈ projectedKeys (cal.etDate t) then
        some (((manifestAmounts cal manifestBySymbol (cal.upper symbol)).get? key).getD
          (fallbackAmount manifestBySymbol (cal.upper symbol)))
      else none := by
    simp only [projectedSchedule, upper_idem hcal h]
    rw [if_neg (not_not.mpr h)]
    exact Dict.get?_setAll_id _ _ _ _
  rw [known_get?, cachedOf, manifestOf, if_pos h, if_pos h]
  simp only [schedule]
  rw [if_neg (not_not.mpr h), update, Dict.get?_setAll_items, update, Dict.get?_setAll_items,
    hprojected]
  split_ifs <;> rfl

theorem schedule_upper' (h : cal.upper symbol ∈ indexEtfSymbols) (t : ℤ) :
    schedule cal manifestBySymbol overlay (cal.upper symbol) t =
      schedule cal manifestBySymbol overlay symbol t := by
  simp only [schedule, upper_idem hcal h]

end Lawful

/-! ## Events -/

theorem length_filter_filterMap_le {α β : Type*} (f : α → Option β) (p : β → Bool) (q : α → Bool)
    (h : ∀ x y, f x = some y → p y → q x) (xs : List α) :
    ((xs.filterMap f).filter p).length ≤ (xs.filter q).length := by
  induction xs with
  | nil => simp
  | cons x xs ih =>
    cases hf : f x with
    | none =>
      rw [List.filterMap_cons_none hf]
      exact ih.trans (List.Sublist.length_le ((List.sublist_cons_self x xs).filter q))
    | some y =>
      rw [List.filterMap_cons_some hf]
      by_cases hp : p y
      · rw [List.filter_cons_of_pos hp, List.filter_cons_of_pos (h x y hf hp), List.length_cons,
          List.length_cons]
        exact Nat.succ_le_succ ih
      · rw [List.filter_cons_of_neg hp]
        exact ih.trans (List.Sublist.length_le ((List.sublist_cons_self x xs).filter q))

theorem exDay_of_event {rangeMin rangeMax : ℤ} {entry : String × ℚ} {event : ℤ × ℚ}
    (h : adjustmentEvent? cal rangeMin rangeMax entry = some event) :
    ∃ exDay, cal.exDay entry.1 = some exDay ∧ event.1 = cal.opening exDay := by
  unfold adjustmentEvent? at h
  split_ifs at h
  obtain ⟨exDay, hday, hin⟩ := Option.bind_eq_some_iff.mp h
  split_ifs at hin
  cases hin
  exact ⟨exDay, hday, rfl⟩

theorem events_le (hcal : cal.Lawful) {t : ℤ} {d : Date}
    (h : ∀ key, (schedule cal manifestBySymbol overlay symbol t).get? key ≠ none →
      cal.exDay key = some d → (known cal manifestBySymbol overlay symbol).get? key ≠ none)
    (rangeMin : ℤ) :
    ((adjustmentEvents cal manifestBySymbol overlay symbol rangeMin t).filter
        (·.1 = cal.opening d)).length ≤
      ((known cal manifestBySymbol overlay symbol).items.filter
        (cal.exDay ·.1 = some d)).length := by
  by_cases hsym : cal.upper symbol ∈ indexEtfSymbols
  · have hevents : adjustmentEvents cal manifestBySymbol overlay symbol rangeMin t =
        sortBy (fun event : ℤ × ℚ => event.1)
          ((schedule cal manifestBySymbol overlay symbol t).items.filterMap
            (adjustmentEvent? cal rangeMin t)) := by
      rw [← schedule_upper' hcal hsym]
      exact if_neg (not_not.mpr hsym)
    have hday : ∀ entry event, adjustmentEvent? cal rangeMin t entry = some event →
        decide (event.1 = cal.opening d) → decide (cal.exDay entry.1 = some d) := by
      intro entry event hevent hopen
      obtain ⟨exDay, hday, hstart⟩ := exDay_of_event hevent
      have hsame : exDay = d := hcal.opening_injective (hstart.symm.trans (of_decide_eq_true hopen))
      exact decide_eq_true (hsame ▸ hday)
    rw [hevents, ((sortBy_perm _).filter _).length_eq]
    calc _ ≤ ((schedule cal manifestBySymbol overlay symbol t).items.filter
            (cal.exDay ·.1 = some d)).length := length_filter_filterMap_le _ _ _ hday _
      _ ≤ _ := Dict.length_filter_le (cal.exDay · = some d) fun key hkey hq =>
          h key hkey (of_decide_eq_true hq)
  · have hevents : adjustmentEvents cal manifestBySymbol overlay symbol rangeMin t = [] :=
      if_pos hsym
    rw [hevents]
    exact Nat.zero_le _

theorem known_cases {key : String}
    (h : (known cal manifestBySymbol overlay symbol).get? key ≠ none) :
    ∃ a, (known cal manifestBySymbol overlay symbol).get? key = some a ∧
      ((manifestOf cal manifestBySymbol symbol).get? key = some a ∨
        (cachedOf cal overlay symbol).get? key = some a) := by
  obtain ⟨a, ha⟩ := Option.ne_none_iff_exists'.mp h
  refine ⟨a, ha, ?_⟩
  rw [known_get?, Option.or_eq_some_iff] at ha
  rcases ha with hcached | ⟨-, hman⟩
  · exact .inr hcached
  · exact .inl hman

section Guesses
variable {anchorTime : ℤ} (hcal : cal.Lawful)
  (h : GuessesAgree cal manifestBySymbol overlay symbol anchorTime)
include hcal h

/-- A guess that meets a known quarter is a known date. -/
theorem known_of_schedule {key : String}
    (hkey : (schedule cal manifestBySymbol overlay symbol anchorTime).get? key ≠ none)
    {q : ℕ × ℕ} (hq : cal.quarterOf key = some q)
    (hquarter : KnownQuarter cal manifestBySymbol overlay symbol q) :
    (known cal manifestBySymbol overlay symbol).get? key ≠ none := by
  by_cases hsym : cal.upper symbol ∈ indexEtfSymbols
  · rw [schedule_get? hcal hsym] at hkey
    split_ifs at hkey with hproj
    · rcases h hsym key hproj q hq hquarter with hman | hcached
      · exact known_of_manifest hman
      · exact known_of_cached (hcached ▸ Option.some_ne_none _)
    · exact hkey
  · rw [schedule_of_notMem hsym] at hkey
    exact absurd rfl hkey

theorem amount_of_known {key : String}
    (hknown : (known cal manifestBySymbol overlay symbol).get? key ≠ none) :
    ∃ a, (schedule cal manifestBySymbol overlay symbol anchorTime).get? key = some a ∧
      ((manifestOf cal manifestBySymbol symbol).get? key = some a ∨
        (cachedOf cal overlay symbol).get? key = some a) := by
  have hsym : cal.upper symbol ∈ indexEtfSymbols :=
    not_not.mp fun hout => hknown (known_of_notMem hout key)
  rw [schedule_get? hcal hsym]
  split_ifs with hproj
  · cases hman : (manifestOf cal manifestBySymbol symbol).get? key with
    | some v => exact ⟨v, rfl, .inl rfl⟩
    | none =>
      -- the guess overwrites a cached amount, which it must equal
      obtain ⟨q, hq⟩ := quarterOf_projected hcal hproj
      have hcached := (h hsym key hproj q hq ⟨key, hknown, hq⟩).resolve_left (not_not.mpr hman)
      exact ⟨_, rfl, .inr hcached⟩
  · exact known_cases hknown

end Guesses

theorem projected_of_unknown (hcal : cal.Lawful) {t : ℤ} {key : String}
    (hkey : (schedule cal manifestBySymbol overlay symbol t).get? key ≠ none)
    (hunknown : (known cal manifestBySymbol overlay symbol).get? key = none) :
    key ∈ projectedKeys (cal.etDate t) := by
  by_cases hsym : cal.upper symbol ∈ indexEtfSymbols
  · rw [schedule_get? hcal hsym, hunknown] at hkey
    exact not_not.mp fun hout => hkey (if_neg hout)
  · rw [schedule_of_notMem hsym] at hkey
    exact absurd rfl hkey

/-- A known dividend is never doubled or overwritten exactly where the guesses that meet a
known quarter agree with it. -/
theorem neverDoubled_iff (hcal : cal.Lawful) (manifestBySymbol : String → List (String × ℚ))
    (overlay : EventCalendarOverlay) (symbol : String) (anchorTime : ℤ) :
    NeverDoubled cal manifestBySymbol overlay symbol anchorTime ↔
      GuessesAgree cal manifestBySymbol overlay symbol anchorTime := by
  constructor
  · intro h hsym key hkey q hq hquarter
    have hget : (schedule cal manifestBySymbol overlay symbol anchorTime).get? key =
        some (((manifestOf cal manifestBySymbol symbol).get? key).getD
          (fallbackAmount manifestBySymbol (cal.upper symbol))) := by
      rw [schedule_get? hcal hsym, if_pos hkey]
    have hknown := h.onlyKnown key (hget ▸ Option.some_ne_none _) q hq hquarter
    obtain ⟨a, ha, hamount⟩ := h.amounts key hknown
    cases hman : (manifestOf cal manifestBySymbol symbol).get? key with
    | some v => exact .inl (Option.some_ne_none v)
    | none =>
      rw [hget, hman, Option.getD_none] at ha
      rw [ha]
      exact .inr (hamount.resolve_left (by simp [hman]))
  · intro h
    constructor
    case onlyKnown => exact fun key hkey q hq hquarter => known_of_schedule hcal h hkey hq hquarter
    case amounts => exact fun key hknown => amount_of_known hcal h hknown
    case projected => exact fun key hkey hunknown => projected_of_unknown hcal hkey hunknown
    case events =>
      intro rangeMin d hquarter
      refine events_le hcal (fun key hkey hday => ?_) rangeMin
      exact known_of_schedule hcal h hkey (by rw [Calendar.quarterOf, hday, Option.map_some])
        hquarter
    case exDate =>
      intro hdate hquarter
      refine known_of_schedule hcal h (Option.isSome_iff_ne_none.mp hdate) ?_ hquarter
      rw [Calendar.quarterOf, exDay_isoformat hcal, Option.map_some]

/-! ## The platform's manifest -/

/-- Daylight saving runs from the second Sunday of March to the first of November. -/
def daylightSaving (d : Date) : Bool :=
  let sinceSunday := (d.weekday + 1) % 7
  (3 < d.month && d.month < 11) || (d.month = 3 && 8 + sinceSunday ≤ d.day) ||
    (d.month = 11 && d.day ≤ sinceSunday)

/-- New York on one day. -/
def newYork (today : Date) : Calendar where
  upper := String.toUpper
  fromisoformat := Date.parse?
  etDate _ := today
  utcoffset d := (if daylightSaving d then -4 else -5) * microsecondsPerHour

theorem newYork_lawful (today : Date) : (newYork today).Lawful where
  upper_spy := (by decide +kernel : "SPY".toUpper = "SPY")
  upper_qqq := (by decide +kernel : "QQQ".toUpper = "QQQ")
  fromisoformat := Date.parse?_isoformat
  utcoffset d := by
    simp only [newYork, microsecondsPerHour]
    split_ifs <;> decide

def firstOfJuly : Date where
  year := 2026
  month := 7
  day := 1

/-- Half past nine in New York on the first of July. -/
def halfPastNine : ℤ := (newYork firstOfJuly).opening firstOfJuly

/-- SPY goes ex on third Fridays. -/
theorem neverDoubled_iff_spy :
    (∀ key ∈ projectedKeys firstOfJuly,
      (manifestOf (newYork firstOfJuly) exDivManifestBySymbol "SPY").get? key ≠ none) ∧
    NeverDoubled (newYork firstOfJuly) exDivManifestBySymbol {} "SPY" halfPastNine := by
  have hmanifest : ∀ key ∈ projectedKeys firstOfJuly,
      (manifestOf (newYork firstOfJuly) exDivManifestBySymbol "SPY").get? key ≠ none := by
    decide +kernel
  refine ⟨hmanifest, ?_⟩
  exact (neverDoubled_iff (newYork_lawful _) exDivManifestBySymbol {} "SPY" halfPastNine).mpr
    fun _ key hkey _ _ _ => .inl (hmanifest key hkey)

/-- QQQ goes ex on a Monday, and the September of 2026 has the Friday before it too. -/
theorem qqq_doubled :
    ¬ NeverDoubled (newYork firstOfJuly) exDivManifestBySymbol {} "QQQ" halfPastNine := by
  intro h
  have hfriday : (schedule (newYork firstOfJuly) exDivManifestBySymbol {} "QQQ" halfPastNine).get?
      "2026-09-18" ≠ none := by decide +kernel
  have hquarter : (newYork firstOfJuly).quarterOf "2026-09-18" = some (2026, 2) := by
    decide +kernel
  have hmonday : KnownQuarter (newYork firstOfJuly) exDivManifestBySymbol {} "QQQ" (2026, 2) :=
    ⟨"2026-09-21", by decide +kernel, by decide +kernel⟩
  have hunknown : (known (newYork firstOfJuly) exDivManifestBySymbol {} "QQQ").get?
      "2026-09-18" = none := by decide +kernel
  exact h.onlyKnown "2026-09-18" hfriday _ hquarter hmonday hunknown

end Proofs

end TradingPlatform.Engine.ExDividend
