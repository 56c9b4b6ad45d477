import TradingPlatform.Lib.Dict
import TradingPlatform.Lib.StableSort
import Mathlib.Algebra.Order.Ring.Rat
import Mathlib.Data.Int.ConditionallyCompleteOrder
import Mathlib.Data.Vector.Basic
import Mathlib.Tactic.Linarith
import Mathlib.Tactic.Ring

/-! # Back-adjustment for ex-dividend gaps

A datetime is its UTC instant in microseconds; one without a zone counts as
UTC, as `_normalize_time` has it. Prices and dividends are exact. -/

namespace TradingPlatform.Engine.ExDividend

open TradingPlatform.Lib TradingPlatform.Lib.StableSort

/-- What the calendar asks outside the platform: upper-casing, the zone
database behind dates and openings, and the corporate actions endpoint. -/
structure Env where
  upper : String → String
  /-- `datetime.combine(date.fromisoformat(text[:10]), time(9, 30), tzinfo=ET)`. -/
  exOpen : String → Option ℤ
  /-- Year and month of an instant in New York. -/
  etYearMonth : ℤ → ℤ × Nat
  /-- `_quarterly_ex_div_date(year, month).isoformat()`. -/
  quarterlyExDivDate : ℤ → Nat → String
  fetchCashDividends : String → ℤ → ℤ → String → String → List (String × ℚ)

def indexEtfSymbols : List String := ["SPY", "QQQ"]

def quarterlyExDivMonths : List Nat := [3, 6, 9, 12]

def spyExDivManifest : List (String × ℚ) :=
  [("2025-03-21", 1.696), ("2025-06-20", 1.761), ("2025-09-19", 1.830), ("2025-12-19", 1.993),
    ("2026-03-20", 1.75), ("2026-06-19", 1.80), ("2026-09-18", 1.85), ("2026-12-18", 1.90)]

def qqqExDivManifest : List (String × ℚ) :=
  [("2025-03-24", 0.527), ("2025-06-23", 0.591), ("2025-09-22", 0.670), ("2025-12-22", 0.794),
    ("2026-03-23", 0.55), ("2026-06-22", 0.60), ("2026-09-21", 0.65), ("2026-12-21", 0.70)]

def exDivManifestBySymbol (sym : String) : List (String × ℚ) :=
  if sym = "SPY" then spyExDivManifest else if sym = "QQQ" then qqqExDivManifest else []

def defaultQuarterlyDividend (sym : String) : ℚ :=
  if sym = "SPY" then 1.75 else if sym = "QQQ" then 0.60 else 0

def microsecondsPerDay : ℤ := 86400000000

/-- `{**d, **other}`, which is also `d.update(other)`. -/
def update (d : Dict String ℚ) (other : List (String × ℚ)) : Dict String ℚ :=
  d.setAll Prod.fst Prod.snd other

structure EventCalendarOverlay where
  exDivLookforwardDays : ℤ := 120
  dynamicDividendCache : Dict String (Dict String ℚ) := .empty

variable (env : Env)

def manifestAmountMap (symbol : String) : Dict String ℚ :=
  update .empty (exDivManifestBySymbol (env.upper symbol))

/-- The eight months from `anchor_time` on; the month wraps at most once. -/
def projectedExDividendSchedule (symbol : String) (anchorTime : ℤ) : Dict String ℚ :=
  let sym := env.upper symbol
  if sym ∉ indexEtfSymbols then .empty
  else
    let et := env.etYearMonth anchorTime
    let manifest := manifestAmountMap env sym
    let trailing := (exDivManifestBySymbol sym).map Prod.snd
    let recent := trailing.drop (trailing.length - 4)
    let fallbackAmount :=
      if trailing = [] then defaultQuarterlyDividend sym else recent.sum / recent.length
    update .empty <| (List.range 8).filterMap fun monthOffset =>
      let month := et.2 + monthOffset
      let (year, month) := if 12 < month then (et.1 + 1, month - 12) else (et.1, month)
      if month ∉ quarterlyExDivMonths then none
      else
        let exKey := env.quarterlyExDivDate year month
        some (exKey, (manifest.get? exKey).getD fallbackAmount)

namespace EventCalendarOverlay

variable (overlay : EventCalendarOverlay)

def refreshDividendSchedule (symbol apiKey secretKey : String) (anchorTime : ℤ) :
    EventCalendarOverlay :=
  let sym := env.upper symbol
  if sym ∉ indexEtfSymbols then overlay
  else
    let start := anchorTime - 30 * microsecondsPerDay
    let stop := anchorTime + overlay.exDivLookforwardDays * microsecondsPerDay
    let events := env.fetchCashDividends sym start stop apiKey secretKey
    let schedule := update .empty (events.filter fun e => 0 < e.2)
    if schedule.items = [] then overlay
    else
      let cached := (overlay.dynamicDividendCache.get? sym).getD .empty
      { overlay with
        dynamicDividendCache := overlay.dynamicDividendCache.set sym (update cached schedule.items) }

/-- `refresh_schedule_for_range`; the keys are `none` where they are missing or empty. -/
def refreshScheduleForRange (symbol : String) (stop : ℤ) (keys : Option (String × String)) :
    EventCalendarOverlay :=
  match keys with
  | none => overlay
  | some (apiKey, secretKey) =>
    if env.upper symbol ∉ indexEtfSymbols then overlay
    else overlay.refreshDividendSchedule env (env.upper symbol) apiKey secretKey stop

def exDividendSchedule (symbol : String) (currentTime : ℤ) : Dict String ℚ :=
  let sym := env.upper symbol
  if sym ∉ indexEtfSymbols then .empty
  else
    let cached := (overlay.dynamicDividendCache.get? sym).getD .empty
    update (update (manifestAmountMap env sym) cached.items)
      (projectedExDividendSchedule env sym currentTime).items

/-- The pairs of ex-date opening and amount, oldest first. -/
def exDividendAdjustmentEvents (symbol : String) (rangeMin rangeMax : ℤ) : List (ℤ × ℚ) :=
  let sym := env.upper symbol
  if sym ∉ indexEtfSymbols then []
  else
    let events := (overlay.exDividendSchedule env sym rangeMax).items.filterMap fun entry =>
      if entry.2 ≤ 0 then none
      else
        (env.exOpen entry.1).bind fun exTs =>
          if exTs ≤ rangeMin ∨ rangeMax < exTs then none else some (exTs, entry.2)
    sortBy (fun event : ℤ × ℚ => event.1) events

end EventCalendarOverlay

/-! ## The adjustment -/

def utcTimestampNs (ts : ℤ) : ℤ := ts * 1000

section Arrays
variable {n : Nat}

def computeExDividendBackAdjustmentCumulative (timestamps : Vector ℤ n) (events : List (ℤ × ℚ)) :
    Vector ℚ n :=
  events.foldl
    (fun cumulative event => .ofFn fun i : Fin n =>
      if utcTimestampNs timestamps[i] < utcTimestampNs event.1 then cumulative[i] + event.2
      else cumulative[i])
    (.replicate n 0)

structure Ohlc (n : Nat) where
  opens : Vector ℚ n
  highs : Vector ℚ n
  lows : Vector ℚ n
  closes : Vector ℚ n

/-- One shift for each bar, in all four arrays. -/
def Ohlc.shift (series : Ohlc n) (by_ : Vector ℚ n) : Ohlc n where
  opens := .ofFn fun i : Fin n => series.opens[i] + by_[i]
  highs := .ofFn fun i : Fin n => series.highs[i] + by_[i]
  lows := .ofFn fun i : Fin n => series.lows[i] + by_[i]
  closes := .ofFn fun i : Fin n => series.closes[i] + by_[i]

def applyHistoricalExDividendGapNeutralization (overlay : EventCalendarOverlay)
    (keys : Option (String × String)) (symbol : String) (timestamps : Vector ℤ n)
    (series : Ohlc n) : Ohlc n × Nat :=
  let sym := env.upper symbol
  if h : sym ∉ indexEtfSymbols ∨ n = 0 then (series, 0)
  else
    have hn : 0 < n := by omega
    let refreshed := overlay.refreshScheduleForRange env sym timestamps[n - 1] keys
    let rangeMin := timestamps.toList.foldl min timestamps[0]
    let rangeMax := timestamps.toList.foldl max timestamps[0]
    let events := refreshed.exDividendAdjustmentEvents env sym rangeMin rangeMax
    if events = [] then (series, 0)
    else
      let cumulative := computeExDividendBackAdjustmentCumulative timestamps events
      if ¬ cumulative.any (0 < ·) then (series, 0)
      else (series.shift cumulative, cumulative.countP (0 < ·))

end Arrays

/-! ## What the adjustment does to a series -/

/-- Each readable dividend of a schedule, with the opening of its ex-date. -/
def exDividends (schedule : Dict String ℚ) : List (ℤ × ℚ) :=
  schedule.items.filterMap fun entry => (env.exOpen entry.1).map (·, entry.2)

/-- The sum of the dividends gone ex by `t`. -/
def paid (dividends : List (ℤ × ℚ)) (t : ℤ) : ℚ :=
  ((dividends.filter (·.1 ≤ t)).map Prod.snd).sum

def total (events : List (ℤ × ℚ)) : ℚ := (events.map Prod.snd).sum

variable {n : Nat}

theorem total_filter_cons (p : ℤ × ℚ → Prop) [DecidablePred p] (e : ℤ × ℚ) (es : List (ℤ × ℚ)) :
    total ((e :: es).filter fun x => p x) =
      (if p e then e.2 else 0) + total (es.filter fun x => p x) := by
  by_cases he : p e
  · simp [total, he]
  · simp [total, he]

theorem total_nonneg {es : List (ℤ × ℚ)} (h : ∀ e ∈ es, 0 ≤ e.2) : 0 ≤ total es :=
  List.sum_nonneg fun _ hx => by
    obtain ⟨e, he, rfl⟩ := List.mem_map.mp hx
    exact h e he

theorem total_pos {es : List (ℤ × ℚ)} (h : ∀ e ∈ es, 0 < e.2) {e : ℤ × ℚ} (he : e ∈ es) :
    0 < total es := by
  have hle : e.2 ≤ total es :=
    List.single_le_sum
      (fun x hx => by
        obtain ⟨e', he', rfl⟩ := List.mem_map.mp hx
        exact (h e' he').le)
      e.2 (List.mem_map_of_mem he)
  exact (h e he).trans_le hle

theorem paid_cons (d : ℤ × ℚ) (ds : List (ℤ × ℚ)) (t : ℤ) :
    paid (d :: ds) t = (if d.1 ≤ t then d.2 else 0) + paid ds t :=
  total_filter_cons (fun d => d.1 ≤ t) d ds

theorem utcTimestampNs_lt {a b : ℤ} : utcTimestampNs a < utcTimestampNs b ↔ a < b := by
  unfold utcTimestampNs
  omega

theorem cumulative_getElem (timestamps : Vector ℤ n) (events : List (ℤ × ℚ)) {i : Nat} (hi : i < n) :
    (computeExDividendBackAdjustmentCumulative timestamps events)[i] =
      total (events.filter (timestamps[i] < ·.1)) := by
  have hfold : ∀ start : Vector ℚ n,
      (events.foldl
        (fun cumulative event => .ofFn fun i : Fin n =>
          if utcTimestampNs timestamps[i] < utcTimestampNs event.1 then cumulative[i] + event.2
          else cumulative[i]) start)[i] =
        start[i] + total (events.filter (timestamps[i] < ·.1)) := by
    induction events with
    | nil => intro start; simp [total]
    | cons event rest ih =>
      intro start
      rw [List.foldl_cons, ih, total_filter_cons (fun e => timestamps[i] < e.1)]
      simp only [Vector.getElem_ofFn, Fin.getElem_fin, utcTimestampNs_lt]
      split <;> ring
  rw [computeExDividendBackAdjustmentCumulative, hfold]
  simp

/-- What has gone ex by `t`, and what goes ex between `t` and `last`. -/
theorem paid_add_pending (ds : List (ℤ × ℚ)) {first last t : ℤ} (h₀ : first ≤ t) (h₁ : t ≤ last) :
    paid ds t + total ((ds.filter fun d => first < d.1 ∧ d.1 ≤ last).filter (t < ·.1)) =
      paid ds last := by
  rw [List.filter_filter]
  induction ds with
  | nil => simp [paid, total]
  | cons d rest ih =>
    rw [paid_cons, paid_cons, ← ih]
    simp only [← Bool.decide_and]
    rw [total_filter_cons (fun d => t < d.1 ∧ first < d.1 ∧ d.1 ≤ last)]
    by_cases hpast : d.1 ≤ t
    · have hlast : d.1 ≤ last := hpast.trans h₁
      have hnot : ¬ (t < d.1 ∧ first < d.1 ∧ d.1 ≤ last) := by omega
      rw [if_pos hpast, if_pos hlast, if_neg hnot]
      ring
    · have hiff : (t < d.1 ∧ first < d.1 ∧ d.1 ≤ last) ↔ d.1 ≤ last := by omega
      rw [if_neg hpast, if_congr hiff rfl rfl]
      ring

theorem paid_le_paid {ds : List (ℤ × ℚ)} (hpos : ∀ d ∈ ds, 0 < d.2) {t u : ℤ} (h : t ≤ u) :
    paid ds t ≤ paid ds u := by
  have hpending := paid_add_pending ds (le_refl t) h
  have hnonneg : 0 ≤ total ((ds.filter fun d => t < d.1 ∧ d.1 ≤ u).filter (t < ·.1)) :=
    total_nonneg fun d hd => (hpos d (List.mem_of_mem_filter (List.mem_of_mem_filter hd))).le
  linarith

/-- Nothing goes ex between two instants exactly when the sums paid are equal. -/
theorem paid_eq_iff {ds : List (ℤ × ℚ)} (hpos : ∀ d ∈ ds, 0 < d.2) {t u : ℤ} (h : t ≤ u) :
    paid ds t = paid ds u ↔ ∀ d ∈ ds, ¬ (t < d.1 ∧ d.1 ≤ u) := by
  have hpending := paid_add_pending ds (le_refl t) h
  constructor
  · intro heq d hd hbetween
    have hmem : d ∈ (ds.filter fun d => t < d.1 ∧ d.1 ≤ u).filter (t < ·.1) := by
      simp [hd, hbetween]
    have hlt : 0 < total ((ds.filter fun d => t < d.1 ∧ d.1 ≤ u).filter (t < ·.1)) :=
      total_pos (fun e he => hpos e (List.mem_of_mem_filter (List.mem_of_mem_filter he))) hmem
    linarith
  · intro hnone
    have hempty : (ds.filter fun d => t < d.1 ∧ d.1 ≤ u) = [] := by
      simpa [List.filter_eq_nil_iff] using hnone
    rw [hempty] at hpending
    simpa [total] using hpending

section Events
variable {env} (hupper : ∀ s, env.upper (env.upper s) = env.upper s)

include hupper in
/-- The events are the dividends inside the range, in another order. -/
theorem events_perm (overlay : EventCalendarOverlay) {symbol : String}
    (hsym : env.upper symbol ∈ indexEtfSymbols) (rangeMin : ℤ) {rangeMax : ℤ}
    (hpos : ∀ d ∈ exDividends env (overlay.exDividendSchedule env symbol rangeMax), 0 < d.2) :
    (overlay.exDividendAdjustmentEvents env symbol rangeMin rangeMax).Perm
      ((exDividends env (overlay.exDividendSchedule env symbol rangeMax)).filter
        fun d => rangeMin < d.1 ∧ d.1 ≤ rangeMax) := by
  have hschedule : overlay.exDividendSchedule env (env.upper symbol) rangeMax =
      overlay.exDividendSchedule env symbol rangeMax := by
    simp only [EventCalendarOverlay.exDividendSchedule, hupper]
  unfold EventCalendarOverlay.exDividendAdjustmentEvents
  rw [if_neg (by simpa using hsym), hschedule]
  refine (sortBy_perm _).trans (List.Perm.of_eq ?_)
  revert hpos
  generalize overlay.exDividendSchedule env symbol rangeMax = schedule
  intro hpos
  unfold exDividends at hpos ⊢
  rw [List.filter_filterMap]
  refine List.filterMap_congr fun entry hentry => ?_
  cases hopen : env.exOpen entry.1 with
  | none => simp
  | some exTs =>
    have hamount : ¬ entry.2 ≤ 0 := by
      refine not_le.mpr (hpos (exTs, entry.2) (List.mem_filterMap.mpr ⟨entry, hentry, ?_⟩))
      rw [hopen]
      rfl
    by_cases hrange : exTs ≤ rangeMin ∨ rangeMax < exTs
    · have hout : rangeMin < exTs → rangeMax < exTs := by omega
      simpa [hamount, hrange, Option.filter_some] using hout
    · have hin : rangeMin < exTs ∧ exTs ≤ rangeMax := by omega
      simp [hamount, hrange, Option.filter_some, hin.1, hin.2]

/-- The ends of the range are the first and the last timestamp. -/
theorem foldl_min_max (timestamps : Vector ℤ (n + 1))
    (hmono : StrictMono fun i : Fin (n + 1) => timestamps[i]) :
    timestamps.toList.foldl min timestamps[0] = timestamps[0] ∧
      timestamps.toList.foldl max timestamps[0] = timestamps[n] := by
  have hle : ∀ t ∈ timestamps.toList, timestamps[0] ≤ t ∧ t ≤ timestamps[n] := by
    intro t ht
    obtain ⟨i, hi, rfl⟩ := Vector.getElem_of_mem (Vector.mem_toList_iff.mp ht)
    exact ⟨hmono.monotone (Fin.zero_le ⟨i, hi⟩), hmono.monotone (Fin.le_last ⟨i, hi⟩)⟩
  have hfirst : timestamps[0] ∈ timestamps.toList := Vector.mem_toList_iff.mpr (Vector.getElem_mem _)
  have hlast : timestamps[n] ∈ timestamps.toList := Vector.mem_toList_iff.mpr (Vector.getElem_mem _)
  have hmin := List.min?_eq_some_iff.mpr ⟨hfirst, fun t ht => (hle t ht).1⟩
  have hmax := List.max?_eq_some_iff.mpr ⟨hlast, fun t ht => (hle t ht).2⟩
  rw [List.foldl_min, List.foldl_max, hmin, hmax]
  exact ⟨min_self _, max_eq_right (hle _ hlast).1⟩

end Events

/-- Equal up to one constant: the same successive differences. -/
def SameUpToConstant (xs ys : Vector ℚ n) : Prop :=
  ∃ c : ℚ, ∀ i (hi : i < n), ys[i] = xs[i] + c

structure SameMoves (series adjusted : Ohlc n) : Prop where
  opens : SameUpToConstant series.opens adjusted.opens
  highs : SameUpToConstant series.highs adjusted.highs
  lows : SameUpToConstant series.lows adjusted.lows
  closes : SameUpToConstant series.closes adjusted.closes

theorem Ohlc.shift_eq_self (series : Ohlc n) {by_ : Vector ℚ n}
    (h : ∀ i (hi : i < n), by_[i] = 0) : series.shift by_ = series := by
  have hzero : by_ = .replicate n 0 := Vector.ext fun i hi => by simp [h i hi]
  obtain ⟨opens, highs, lows, closes⟩ := series
  rw [hzero, Ohlc.shift]
  congr 1 <;> ext i hi <;> simp

theorem Ohlc.shift_shift (series : Ohlc n) (by_ also : Vector ℚ n) :
    (series.shift by_).shift also =
      series.shift (.ofFn fun i : Fin n => by_[i] + also[i]) := by
  simp [Ohlc.shift, add_assoc]

/-- All four arrays move with the shift. -/
theorem sameMoves_shift (series : Ohlc n) (by_ : Vector ℚ n) :
    SameMoves series (series.shift by_) ↔ ∃ c : ℚ, ∀ i (hi : i < n), by_[i] = c := by
  have harray : ∀ xs : Vector ℚ n, SameUpToConstant xs (.ofFn fun i : Fin n => xs[i] + by_[i]) ↔
      ∃ c : ℚ, ∀ i (hi : i < n), by_[i] = c := by
    intro xs
    simp [SameUpToConstant]
  constructor
  · intro h
    exact (harray series.closes).mp h.closes
  · intro h
    exact ⟨(harray _).mpr h, (harray _).mpr h, (harray _).mpr h, (harray _).mpr h⟩

/-- The prices that trade: each bar is short of the dividends gone ex by then. -/
def Ohlc.lessPaid (series : Ohlc n) (timestamps : Vector ℤ n) (ds : List (ℤ × ℚ)) : Ohlc n :=
  series.shift (.ofFn fun i : Fin n => -paid ds timestamps[i])

section Neutralization
variable (overlay : EventCalendarOverlay) (keys : Option (String × String))

/-- The dividends of the schedule that the call reads for these bars. -/
def scheduledDividends (symbol : String) (timestamps : Vector ℤ (n + 1)) : List (ℤ × ℚ) :=
  exDividends env <|
    (overlay.refreshScheduleForRange env (env.upper symbol) timestamps[n] keys).exDividendSchedule
      env symbol timestamps[n]

variable {env}

theorem schedule_upper (hupper : ∀ s, env.upper (env.upper s) = env.upper s) (symbol : String)
    (currentTime : ℤ) :
    overlay.exDividendSchedule env (env.upper symbol) currentTime =
      overlay.exDividendSchedule env symbol currentTime := by
  simp only [EventCalendarOverlay.exDividendSchedule, hupper]

/-- The early returns leave out nothing but a shift by zero. -/
theorem adjusted_eq_shift (timestamps : Vector ℤ n) (series : Ohlc n) {events : List (ℤ × ℚ)}
    (hpos : ∀ e ∈ events, 0 < e.2) :
    (let cumulative := computeExDividendBackAdjustmentCumulative timestamps events
     if events = [] then (series, 0)
     else if ¬ cumulative.any (0 < ·) then (series, 0)
     else (series.shift cumulative, cumulative.countP (0 < ·))).1 =
      series.shift (computeExDividendBackAdjustmentCumulative timestamps events) := by
  have hnonneg : ∀ i (hi : i < n),
      0 ≤ (computeExDividendBackAdjustmentCumulative timestamps events)[i] := by
    intro i hi
    rw [cumulative_getElem]
    exact total_nonneg fun e he => (hpos e (List.mem_of_mem_filter he)).le
  dsimp only
  split_ifs with hnone hany
  · refine (series.shift_eq_self fun i hi => ?_).symm
    rw [cumulative_getElem, hnone]
    rfl
  · rfl
  · refine (series.shift_eq_self fun i hi => ?_).symm
    have hle : ¬ 0 < (computeExDividendBackAdjustmentCumulative timestamps events)[i] := by
      intro hlt
      exact hany (Vector.any_eq_true.mpr ⟨i, hi, by simpa using hlt⟩)
    exact le_antisymm (not_lt.mp hle) (hnonneg i hi)

/-- Whatever its early returns, the call shifts each bar by the amounts that go
ex after it. -/
theorem neutralization_eq_shift (hupper : ∀ s, env.upper (env.upper s) = env.upper s)
    {symbol : String} {timestamps : Vector ℤ (n + 1)}
    (hmono : StrictMono fun i : Fin (n + 1) => timestamps[i])
    (hpos : ∀ d ∈ scheduledDividends env overlay keys symbol timestamps, 0 < d.2)
    (series : Ohlc (n + 1)) :
    (applyHistoricalExDividendGapNeutralization env overlay keys symbol timestamps series).1 =
      series.shift (.ofFn fun i : Fin (n + 1) =>
        paid (scheduledDividends env overlay keys symbol timestamps) timestamps[n] -
          paid (scheduledDividends env overlay keys symbol timestamps) timestamps[i]) := by
  obtain ⟨hmin, hmax⟩ := foldl_min_max timestamps hmono
  by_cases hsym : env.upper symbol ∈ indexEtfSymbols
  · have hcall : ¬ (env.upper symbol ∉ indexEtfSymbols ∨ n + 1 = 0) := by simp [hsym]
    have hsym' : env.upper (env.upper symbol) ∈ indexEtfSymbols := by rwa [hupper]
    simp only [applyHistoricalExDividendGapNeutralization, dif_neg hcall, hmin, hmax,
      Nat.add_sub_cancel]
    set refreshed := overlay.refreshScheduleForRange env (env.upper symbol) timestamps[n] keys
    have hperm := events_perm hupper refreshed hsym' timestamps[0] (by
      rw [schedule_upper _ hupper]
      exact hpos)
    rw [schedule_upper _ hupper] at hperm
    rw [adjusted_eq_shift timestamps series fun e he =>
      hpos e (List.mem_of_mem_filter (hperm.mem_iff.mp he))]
    congr 1
    ext i hi
    have hsplit := paid_add_pending (scheduledDividends env overlay keys symbol timestamps)
      (hmono.monotone (Fin.zero_le ⟨i, hi⟩)) (hmono.monotone (Fin.le_last ⟨i, hi⟩))
    have htotal := (hperm.filter (timestamps[i] < ·.1)).map Prod.snd |>.sum_eq
    rw [cumulative_getElem, Vector.getElem_ofFn]
    exact eq_sub_of_add_eq' ((congrArg _ htotal).trans hsplit)
  · have hnone : scheduledDividends env overlay keys symbol timestamps = [] := by
      simp [scheduledDividends, EventCalendarOverlay.exDividendSchedule, hsym, exDividends,
        Dict.empty]
    rw [hnone]
    refine Eq.trans ?_ (series.shift_eq_self fun i hi => ?_).symm
    · simp [applyHistoricalExDividendGapNeutralization, hsym]
    · simp [paid]

/-- **The series comes back exactly when no dividend fell inside it.** The bars
before an opening are raised by the amount that the bars after it already lack,
so each gap is doubled. -/
theorem gaps_neutralized_iff (hupper : ∀ s, env.upper (env.upper s) = env.upper s)
    (symbol : String) {timestamps : Vector ℤ (n + 1)}
    (hmono : StrictMono fun i : Fin (n + 1) => timestamps[i])
    (hpos : ∀ d ∈ scheduledDividends env overlay keys symbol timestamps, 0 < d.2)
    (series : Ohlc (n + 1)) :
    SameMoves series
        (applyHistoricalExDividendGapNeutralization env overlay keys symbol timestamps
          (series.lessPaid timestamps (scheduledDividends env overlay keys symbol timestamps))).1 ↔
      ∀ d ∈ scheduledDividends env overlay keys symbol timestamps,
        ¬ (timestamps[0] < d.1 ∧ d.1 ≤ timestamps[n]) := by
  rw [neutralization_eq_shift overlay keys hupper hmono hpos, Ohlc.lessPaid, Ohlc.shift_shift,
    sameMoves_shift]
  have hend : timestamps[0] ≤ timestamps[n] := hmono.monotone (Fin.zero_le (Fin.last n))
  rw [← paid_eq_iff hpos hend]
  generalize scheduledDividends env overlay keys symbol timestamps = ds at hpos
  simp only [Vector.getElem_ofFn, Fin.getElem_fin]
  constructor
  · intro h
    obtain ⟨c, hc⟩ := h
    have hfirst := hc 0 (Nat.succ_pos n)
    have hlast := hc n (Nat.lt_succ_self n)
    linarith
  · intro hflat
    refine ⟨-paid ds timestamps[n], fun i hi => ?_⟩
    have hlow : paid ds timestamps[0] ≤ paid ds timestamps[i] :=
      paid_le_paid hpos (hmono.monotone (Fin.zero_le ⟨i, hi⟩))
    have hhigh : paid ds timestamps[i] ≤ paid ds timestamps[n] :=
      paid_le_paid hpos (hmono.monotone (Fin.le_last ⟨i, hi⟩))
    linarith

end Neutralization

/-! ## SPY around one ex-date -/

/-- The zone database and the calendar as far as the SPY dates of these years ask them. -/
def spyCalendar : Env where
  upper := id
  exOpen text :=
    [("2025-03-21", 1742563800000000), ("2025-06-20", 1750426200000000),
      ("2025-09-19", 1758288600000000), ("2025-12-19", 1766154600000000),
      ("2026-03-20", 1774013400000000), ("2026-06-19", 1781875800000000),
      ("2026-09-18", 1789738200000000), ("2026-12-18", 1797604200000000)].lookup text
  etYearMonth _ := (2026, 3)
  quarterlyExDivDate _ month :=
    if month = 3 then "2026-03-20" else if month = 6 then "2026-06-19" else "2026-09-18"
  fetchCashDividends _ _ _ _ _ := []

/-- The last bar of 2026-03-19 and the first one of 2026-03-20. -/
def aroundExDate : Vector ℤ 2 := #v[1773949500000000, 1774014300000000]

def flatSeries : Ohlc 2 := ⟨#v[600, 600], #v[600, 600], #v[600, 600], #v[600, 600]⟩

theorem aroundExDate_closes :
    (applyHistoricalExDividendGapNeutralization spyCalendar {} none "SPY" aroundExDate
      (flatSeries.lessPaid aroundExDate
        (scheduledDividends spyCalendar {} none "SPY" aroundExDate))).1.closes =
      #v[594.47, 590.97] := by
  decide +kernel

/-- Two bars after the opening: the iff at work. -/
theorem same_day_same_moves :
    SameMoves flatSeries
      (applyHistoricalExDividendGapNeutralization spyCalendar {} none "SPY"
        #v[1774014300000000, 1774015200000000]
        (flatSeries.lessPaid #v[1774014300000000, 1774015200000000]
          (scheduledDividends spyCalendar {} none "SPY" #v[1774014300000000, 1774015200000000]))).1 := by
  refine (gaps_neutralized_iff {} none (fun _ => rfl) "SPY" ?_ ?_ flatSeries).mpr ?_
  · intro i j
    revert i j
    decide
  · decide +kernel
  · decide +kernel

/-- The close fell by the dividend of 1.75; after the adjustment it falls by 3.50. -/
theorem ex_date_gap_doubled :
    (∀ d ∈ scheduledDividends spyCalendar {} none "SPY" aroundExDate, 0 < d.2) ∧
      ¬ SameMoves flatSeries
        (applyHistoricalExDividendGapNeutralization spyCalendar {} none "SPY" aroundExDate
          (flatSeries.lessPaid aroundExDate
            (scheduledDividends spyCalendar {} none "SPY" aroundExDate))).1 := by
  refine ⟨by decide +kernel, fun h => ?_⟩
  obtain ⟨c, hc⟩ := h.closes
  have hbefore := hc 0 (by decide)
  have hafter := hc 1 (by decide)
  simp only [aroundExDate_closes] at hbefore hafter
  change (594.47 : ℚ) = 600 + c at hbefore
  change (590.97 : ℚ) = 600 + c at hafter
  linarith

end TradingPlatform.Engine.ExDividend
