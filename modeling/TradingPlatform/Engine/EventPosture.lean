import TradingPlatform.Core.MarketCalendar
import TradingPlatform.Engine.ExDividendSchedule
import TradingPlatform.Engine.MacroVelocity

/-! # The posture before events

The scheduled event nearest in time caps positions, more tightly the closer it is,
and its severity scales the cap. Instants are microseconds; what the number of a
day is as a date is a parameter. -/

namespace TradingPlatform.Engine.Regime

open TradingPlatform.Core
open TradingPlatform.Engine.ExDividend (thirdFriday)
open TradingPlatform.Ingestor (minute)
open TradingPlatform.Lib
open TradingPlatform.Lib.StableSort

/-! ## The calendar -/

structure ScheduledEvent where
  eventType : String
  eventTime : ℤ
  label : String
  severity : ℚ := 1
  deriving DecidableEq

structure RiskPostureOverride where
  positionCapMultiplier : ℚ
  entryZWidenSigma : ℚ
  eventLabel : Option String
  active : Bool
  hoursToEvent : Option ℚ := none
  deriving DecidableEq

def fomcDatesUtc : List ℤ :=
  [(2025, 1, 29), (2025, 3, 19), (2025, 5, 7), (2025, 6, 18), (2025, 7, 30), (2025, 9, 17),
    (2025, 11, 6), (2025, 12, 17), (2026, 1, 28), (2026, 3, 18), (2026, 4, 29), (2026, 6, 17),
    (2026, 7, 29), (2026, 9, 16), (2026, 11, 5), (2026, 12, 16)].filterMap fun (y, m, d) =>
      (date? y m d).map fun date => combine date.toordinal (18 * hour)

def rebalanceMonths : List ℕ := [3, 6, 9, 12]

structure EventCalendarOverlay where
  fomcDates : List ℤ := fomcDatesUtc
  lookforwardDays : ℤ := 45

/-- The year and month so many months later. -/
def monthAfter (date : Date) (monthOffset : ℕ) : ℕ × ℕ :=
  let month := date.month + monthOffset
  if 12 < month then (date.year + 1, month - 12) else (date.year, month)

section Calendar
variable (zone : ExchangeZone) (fromordinal : ℤ → Date)

/-- `datetime.combine(date, time, tzinfo=ET)`. -/
def combineEt (date : Date) (time : ℤ) : ℤ := zone.fromLocal (combine date.toordinal time)

/-- The second Tuesday of the month, or its 13th. -/
def cpiReleaseDatetime (year month : ℕ) : Option ℤ :=
  match (((List.range (daysInMonth year month)).filterMap fun i => date? year month (i + 1)).filter
      fun d => d.weekday = 1)[1]? with
  | some day => some (combineEt zone day (8 * hour + 30 * minute))
  | none => (date? year month 13).map fun d => combine d.toordinal (13 * hour + 30 * minute)

def indexRebalanceDatetime (year month : ℕ) : Option ℤ :=
  if month ∉ rebalanceMonths then none
  else (thirdFriday year month).map fun day => combineEt zone day (16 * hour)

def opexDatetimes (anchor : ℤ) : List ℤ :=
  let et := fromordinal (dateOf (zone.toLocal anchor))
  (List.range 3).filterMap fun monthOffset =>
    let (year, month) := monthAfter et monthOffset
    (thirdFriday year month).map fun day => combineEt zone day (9 * hour + 30 * minute)

def EventCalendarOverlay.scheduledEvents (overlay : EventCalendarOverlay) (currentTime : ℤ) :
    List ScheduledEvent :=
  let horizon := currentTime + overlay.lookforwardDays * day
  let within (days time : ℤ) : Bool :=
    decide (currentTime - days * day ≤ time) && decide (time ≤ horizon)
  let isoformat (time : ℤ) : String := (fromordinal (dateOf time)).isoformat
  let et := fromordinal (dateOf (zone.toLocal currentTime))
  let fomc := (overlay.fomcDates.filter (within 2)).map fun time =>
    ({ eventType := "FOMC", eventTime := time, label := "FOMC_" ++ isoformat time } :
      ScheduledEvent)
  let monthly := (List.range 3).flatMap fun monthOffset =>
    let (year, month) := monthAfter et monthOffset
    let text := toString year ++ "_" ++ String.ofList (padded 2 month)
    let cpi := ((cpiReleaseDatetime zone year month).filter (within 1)).map fun time =>
      ({ eventType := "CPI", eventTime := time, label := "CPI_" ++ text, severity := 85 / 100 } :
        ScheduledEvent)
    let rebalance := ((indexRebalanceDatetime zone year month).filter (within 1)).map fun time =>
      ({ eventType := "INDEX_REBALANCE"
         eventTime := time
         label := "REBALANCE_" ++ text
         severity := 7 / 10 } : ScheduledEvent)
    cpi.toList ++ rebalance.toList
  let opex := ((opexDatetimes zone fromordinal currentTime).filter (within 1)).map fun time =>
    ({ eventType := "MONTHLY_OPEX"
       eventTime := time
       label := "OPEX_" ++ isoformat time
       severity := 6 / 10 } : ScheduledEvent)
  sortBy ScheduledEvent.eventTime (fomc ++ monthly ++ opex)

end Calendar

/-! ## The override -/

/-- `timedelta(days=999)`. -/
def farthest : ℤ := 999 * day

def ScheduledEvent.distance (event : ScheduledEvent) (currentTime : ℤ) : ℤ :=
  |event.eventTime - currentTime|

/-- The event nearest in time, the first of those as near, and how far it is. -/
def nearestEvent (events : List ScheduledEvent) (currentTime : ℤ) : Option ScheduledEvent × ℤ :=
  events.foldl
    (fun nearest event =>
      if event.distance currentTime < nearest.2 then (some event, event.distance currentTime)
      else nearest)
    (none, farthest)

def hoursOf (delta : ℤ) : ℚ := delta / hour

/-- The cap and the widening at a distance. -/
def posture (hours : ℚ) : ℚ × ℚ :=
  if hours ≤ 1 then (25 / 100, 60 / 100)
  else if hours ≤ 4 then (35 / 100, 45 / 100)
  else if hours ≤ 24 then (50 / 100, 25 / 100)
  else if hours ≤ 72 then (70 / 100, 15 / 100)
  else (1, 0)

def riskPostureOverride (events : List ScheduledEvent) (currentTime : ℤ) : RiskPostureOverride :=
  match nearestEvent events currentTime with
  | (none, _) =>
    { positionCapMultiplier := 1, entryZWidenSigma := 0, eventLabel := none, active := false }
  | (some nearest, nearestDelta) =>
    let hours := hoursOf nearestDelta
    let (cap, zWiden) := posture hours
    let capMult := cap * max (1 / 2) (min 1 nearest.severity)
    { positionCapMultiplier := capMult
      entryZWidenSigma := zWiden
      eventLabel := some nearest.label
      active := decide (capMult < 1) || decide (0 < zWiden)
      hoursToEvent := some hours }

def EventCalendarOverlay.getRiskPostureOverride (zone : ExchangeZone) (fromordinal : ℤ → Date)
    (overlay : EventCalendarOverlay) (currentTime : ℤ) : RiskPostureOverride :=
  riskPostureOverride (overlay.scheduledEvents zone fromordinal currentTime) currentTime

/-! ## The risk mode -/

inductive PortfolioRiskMode
  | normal
  | elevated
  | riskOff
  deriving DecidableEq, Repr

def riskOffGrossExposureCap : ℚ := 55 / 100

def elevatedGrossExposureCap : ℚ := 75 / 100

def normalGrossExposureCap : ℚ := 1

def stressRiskOffThreshold : ℚ := 75 / 100

def stressElevatedThreshold : ℚ := 45 / 100

structure PortfolioRiskModeDecision where
  mode : PortfolioRiskMode
  grossExposureCapMultiplier : ℚ
  blockNewEntries : Bool
  stress : StressFactorReading ℚ
  calendarOverride : RiskPostureOverride
  reason : String

/-- What is decided before the reasons are joined. -/
structure RiskModeDraft where
  mode : PortfolioRiskMode := .normal
  grossCap : ℚ := normalGrossExposureCap
  blockEntries : Bool := false
  reasons : List String := []

def RiskModeDraft.ofComposite (stress : StressFactorReading ℚ) : RiskModeDraft :=
  if stressRiskOffThreshold ≤ stress.composite then
    { mode := .riskOff
      grossCap := riskOffGrossExposureCap
      blockEntries := true
      reasons := ["stress_composite_risk_off"] }
  else if stressElevatedThreshold ≤ stress.composite then
    { mode := .elevated
      grossCap := elevatedGrossExposureCap
      reasons := ["stress_composite_elevated"] }
  else {}

/-- Risk off, for a reason. -/
def RiskModeDraft.off (draft : RiskModeDraft) (reason : String) : RiskModeDraft where
  mode := .riskOff
  grossCap := min draft.grossCap riskOffGrossExposureCap
  blockEntries := true
  reasons := draft.reasons ++ [reason]

def RiskModeDraft.ofStress (stress : StressFactorReading ℚ) : RiskModeDraft :=
  let draft := RiskModeDraft.ofComposite stress
  if stress.vixBackwardation ∧ 6 / 10 ≤ stress.vixTermStress then draft.off "vix_backwardation"
  else draft

def RiskPostureOverride.tight (override : RiskPostureOverride) : Bool :=
  override.active && decide (override.positionCapMultiplier ≤ 35 / 100)

def RiskPostureOverride.imminent (override : RiskPostureOverride) : Bool :=
  override.active && override.hoursToEvent.any fun hours => decide (hours ≤ 1)

def RiskModeDraft.withCalendar (draft : RiskModeDraft) (override : RiskPostureOverride) :
    RiskModeDraft :=
  let draft :=
    if override.tight then
      { draft with
        mode := if draft.mode = .normal then .elevated else draft.mode
        grossCap := min draft.grossCap override.positionCapMultiplier
        reasons := draft.reasons ++ ["calendar:" ++ override.eventLabel.getD "None"] }
    else draft
  if override.imminent then draft.off "calendar_imminent_event" else draft

/-- `PortfolioRiskModeEvaluator.evaluate`, of the override that is given or computed. -/
def evaluateRiskMode (stress : StressFactorReading ℚ) (calendarOverride : RiskPostureOverride) :
    PortfolioRiskModeDecision :=
  let draft := (RiskModeDraft.ofStress stress).withCalendar calendarOverride
  { mode := draft.mode
    grossExposureCapMultiplier := draft.grossCap
    blockNewEntries := draft.blockEntries
    stress
    calendarOverride
    reason := if draft.reasons = [] then "normal" else "|".intercalate draft.reasons }

end TradingPlatform.Engine.Regime
