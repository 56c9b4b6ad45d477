import TradingPlatform.Core.MarketCalendar
import TradingPlatform.Engine.ColdStartGate
import TradingPlatform.Lib.StableSort

/-! # The SLO monitor

Bar freshness, gaps and the health of the feeds of a leg, judged against the
agreements. Instants are microseconds; case folding and what the ledger answers on
the backfill are parameters. -/

namespace TradingPlatform.Engine.Slo

open TradingPlatform.Core
open TradingPlatform.Engine.ColdStart (barStalenessSeconds staleAfterSeconds)
open TradingPlatform.Ingestor (timeframeMinutes minute second)
open TradingPlatform.Lib
open TradingPlatform.Lib.StableSort

def barDeliveryLatencySoftSeconds : ℚ := 150

def barDeliveryLatencyHardSeconds : ℚ := 600

def missingBarRateSoft : ℚ := 6 / 100

def missingBarRateHard : ℚ := 18 / 100

def nbboSuccessSoft : ℚ := 85 / 100

def nbboSuccessHard : ℚ := 55 / 100

def ingestArrivalLagSoftFraction : ℚ := 15 / 900

def ingestArrivalLagHardFraction : ℚ := 30 / 900

def ingestSequenceMisalignmentSoft : ℤ := 1

def ingestSequenceMisalignmentHard : ℤ := 5

/-- `delta > expected_interval * GAP_INTERVAL_MULT`, the multiple being 1.75. -/
def exceedsGap (delta expectedInterval : ℤ) : Bool := decide (7 * expectedInterval < 4 * delta)

def nbboTrackWindow : ℕ := 40

def missingBarLookback : ℤ := 48

/-! ## Missing bars -/

/-- `xs[-lookback:]`. -/
def lastBars (lookback : ℤ) (xs : List ℤ) : List ℤ :=
  if 0 < lookback then xs.drop (xs.length - lookback.toNat) else xs.drop (-lookback).toNat

section MissingBars
variable (calendar : MarketSessionCalendar) (zone : ExchangeZone)

/-- The dates compared are those of UTC. -/
def bothInSameRthSpan (left right : ℤ) : Bool :=
  if dateOf left ≠ dateOf right then false
  else calendar.isWithinRth zone left && calendar.isWithinRth zone right

/-- `int(delta / expected_interval) - 1` of a gap that is too long. -/
def gapBars (expectedInterval : ℤ) (prev curr : ℤ) : ℤ :=
  if exceedsGap (curr - prev) expectedInterval then (curr - prev).tdiv expectedInterval - 1 else 0

/-- The bars of the last session's day that are on hand. -/
def observedToday (sessionDate : ℤ) (ordered : List ℤ) : ℤ :=
  ordered.countP fun ts =>
    decide (dateOf (zone.toLocal ts) = sessionDate) && calendar.isWithinRth zone ts

def sessionGaps (barMinutes : ℤ) (ordered : List ℤ) : ℤ :=
  ((ordered.zip ordered.tail).map fun (prev, curr) =>
    if bothInSameRthSpan calendar zone prev curr then gapBars (barMinutes * minute) prev curr
    else 0).sum

/-- The gaps of a stock leg; the day of an early close counts its whole shortfall. -/
def stockGaps (barMinutes : ℤ) (ordered : List ℤ) (last : ℤ) : ℤ :=
  let gaps := sessionGaps calendar zone barMinutes ordered
  let sessionDate := dateOf (zone.toLocal last)
  let sessionExpected := calendar.expectedBarsForSession sessionDate barMinutes
  if 0 < sessionExpected ∧ calendar.isEarlyClose sessionDate = true then
    max gaps (max 0 (sessionExpected - observedToday calendar zone sessionDate ordered))
  else gaps

def cryptoGaps (barMinutes : ℤ) (ordered : List ℤ) : ℤ :=
  ((ordered.zip ordered.tail).map fun (prev, curr) => gapBars (barMinutes * minute) prev curr).sum

def computeMissingBarRate (barTimestamps : List ℤ) (barMinutes : ℤ)
    (lookbackBars : ℤ := missingBarLookback) (assetClass : String := "stock") : ℚ :=
  if barMinutes ≤ 0 then 0
  else
    let ordered := lastBars lookbackBars (sortBy id barTimestamps)
    match ordered.getLast? with
    | none => 0
    | some last =>
      if ordered.length < 2 then 0
      else
        let gaps :=
          if assetClass = "crypto" then cryptoGaps barMinutes ordered
          else stockGaps calendar zone barMinutes ordered last
        gaps / max (ordered.length + gaps) 1

end MissingBars

/-! ## Severities -/

inductive IntegritySeverity
  | ok
  | warning
  | softBreach
  | hardBreach
  deriving DecidableEq, Repr

def severityRank : IntegritySeverity → ℕ
  | .ok => 0
  | .warning => 1
  | .softBreach => 2
  | .hardBreach => 3

def maxSeverity (current candidate : IntegritySeverity) : IntegritySeverity :=
  if severityRank candidate ≤ severityRank current then current else candidate

/-- A signal and its two tiers; a signal that is exclusive reports the harder one only. -/
structure Signal where
  soft : Bool
  hard : Bool
  softReason : String
  hardReason : String
  exclusive : Bool := false
  deriving DecidableEq

abbrev Judged := List String × IntegritySeverity

def Signal.noteHard (signal : Signal) (judged : Judged) : Judged :=
  (judged.1 ++ [signal.hardReason], .hardBreach)

def Signal.noteSoft (signal : Signal) (judged : Judged) : Judged :=
  (judged.1 ++ [signal.softReason], maxSeverity judged.2 .softBreach)

/-- The hard tier assigns the severity, the soft one raises it. -/
def Signal.check (judged : Judged) (signal : Signal) : Judged :=
  if signal.exclusive then
    if signal.hard then signal.noteHard judged
    else if signal.soft then signal.noteSoft judged
    else judged
  else
    let judged := if signal.soft then signal.noteSoft judged else judged
    if signal.hard then signal.noteHard judged else judged

/-! ## The monitor -/

/-- `value or default`. -/
def orDefault {α : Type} [DecidableEq α] (falsy : α) (value : Option α) (default : α) : α :=
  match value with
  | some v => if v = falsy then default else v
  | none => default

structure DataPayload where
  exchangeReferenceTs : ℤ
  assetClass : Option String := none
  barMinutes : Option ℤ := none
  timeframe : Option String := none
  latestBarTimestamp : ℤ
  barTimestamps : List ℤ := []
  lookbackBars : Option ℤ := none
  symbol : Option String := none
  nbboFetchSuccess : Option Bool := none
  nbboSuccessRate : Option ℚ := none
  rlBackfillLagHours : Option ℚ := none
  ingestCircuitBreakerTripped : Option Bool := none
  sequenceMisalignmentEvents : Option ℤ := none
  ingestArrivalLagSeconds : Option ℚ := none
  deriving DecidableEq

namespace DataPayload
variable (payload : DataPayload)

def asset : String := orDefault "" payload.assetClass "stock"

def frame : String := orDefault "" payload.timeframe "15Min"

def minutes : ℤ := orDefault 0 payload.barMinutes (timeframeMinutes payload.frame)

def lookback : ℤ := orDefault 0 payload.lookbackBars missingBarLookback

def legSymbol : String := orDefault "" payload.symbol ""

def tripped : Bool := payload.ingestCircuitBreakerTripped.getD false

def misalignments : ℤ := orDefault 0 payload.sequenceMisalignmentEvents 0

def arrivalLag : ℚ := orDefault 0 payload.ingestArrivalLagSeconds 0

end DataPayload

structure DataIntegrityVerdict where
  passed : Bool
  severity : IntegritySeverity
  barFreshnessSeconds : ℚ
  missingBarRate : ℚ
  nbboSuccessRate : ℚ
  rlBackfillLagHours : ℚ
  calendarSessionMinutes : ℚ
  isEarlyCloseSession : Bool
  reasons : List String
  deriving DecidableEq

structure SLOMonitor where
  calendar : MarketSessionCalendar := {}
  nbboAttemptsBySymbol : Dict String (List ℕ) := .empty

/-- What the signals are judged from. -/
structure Readings where
  barPeriodSecs : ℚ
  freshnessSeconds : ℚ
  missingBarRate : ℚ
  nbboSuccessRate : ℚ
  tripped : Bool
  misalignments : ℤ
  arrivalLagFraction : ℚ

/-- The signals, in the order they are checked in. -/
def Readings.signals (r : Readings) : List Signal :=
  [{ soft := decide (staleAfterSeconds r.barPeriodSecs barDeliveryLatencySoftSeconds <
       r.freshnessSeconds)
     hard := decide (staleAfterSeconds r.barPeriodSecs barDeliveryLatencyHardSeconds <
       r.freshnessSeconds)
     softReason := "bar_freshness_drift"
     hardReason := "bar_freshness_critical" },
   { soft := decide (missingBarRateSoft < r.missingBarRate)
     hard := decide (missingBarRateHard < r.missingBarRate)
     softReason := "missing_bar_rate_elevated"
     hardReason := "missing_bar_rate_critical" },
   { soft := decide (r.nbboSuccessRate < nbboSuccessSoft)
     hard := decide (r.nbboSuccessRate < nbboSuccessHard)
     softReason := "nbbo_fetch_degraded"
     hardReason := "nbbo_fetch_critical" },
   { soft := r.tripped
     hard := false
     softReason := "ingest_circuit_breaker_tripped"
     hardReason := "ingest_circuit_breaker_tripped" },
   { soft := decide (ingestSequenceMisalignmentSoft ≤ r.misalignments)
     hard := decide (ingestSequenceMisalignmentHard ≤ r.misalignments)
     softReason := "sequence_misalignment"
     hardReason := "sequence_misalignment_critical"
     exclusive := true },
   { soft := decide (ingestArrivalLagSoftFraction < r.arrivalLagFraction)
     hard := decide (ingestArrivalLagHardFraction < r.arrivalLagFraction)
     softReason := "ingest_arrival_lag"
     hardReason := "ingest_arrival_lag_critical"
     exclusive := true }]

namespace SLOMonitor
variable (upper : String → String) (zone : ExchangeZone) (monitor : SLOMonitor)

def noteNbboFetch (success : Bool) (symbol assetClass : String) (referenceTs : ℤ) : SLOMonitor :=
  if assetClass ≠ "crypto" ∧ monitor.calendar.isWithinRth zone referenceTs = false then monitor
  else
    let attempts := (monitor.nbboAttemptsBySymbol.get? (upper symbol)).getD []
    let attempts := attempts ++ [if success then 1 else 0]
    { monitor with
      nbboAttemptsBySymbol := monitor.nbboAttemptsBySymbol.set (upper symbol)
        (attempts.drop (attempts.length - nbboTrackWindow)) }

def nbboSuccessRate (symbol : String) : ℚ :=
  match monitor.nbboAttemptsBySymbol.get? (upper symbol) with
  | none | some [] => 1
  | some attempts => (attempts.sum : ℚ) / attempts.length

def isMarketDormant (assetClass : String) (exchangeReference : ℤ) : Bool :=
  decide (assetClass ≠ "crypto") && !monitor.calendar.isWithinRth zone exchangeReference

def calendarAdjustedFreshnessLimit (freshnessSeconds : ℚ) (barMinutes exchangeReference : ℤ)
    (assetClass : String) : ℚ :=
  if assetClass = "crypto" then freshnessSeconds
  else if monitor.calendar.isWithinRth zone exchangeReference then freshnessSeconds
  else
    let bounds := monitor.calendar.sessionBounds (dateOf (zone.toLocal exchangeReference))
    if bounds.earlyClose && !bounds.tradingDay then freshnessSeconds
    else min freshnessSeconds (barMinutes * 60)

/-- The attempt that came with the payload is noted before the rate is read. -/
def noted (payload : DataPayload) : SLOMonitor :=
  match payload.nbboFetchSuccess with
  | some success =>
    monitor.noteNbboFetch upper zone success payload.legSymbol payload.asset
      payload.exchangeReferenceTs
  | none => monitor

def readings (payload : DataPayload) : Readings where
  barPeriodSecs := payload.minutes * 60
  freshnessSeconds :=
    monitor.calendarAdjustedFreshnessLimit zone
      (barStalenessSeconds (payload.latestBarTimestamp / second) (payload.minutes * 60)
        (monitor.calendar.effectiveReferenceTime zone payload.exchangeReferenceTs payload.asset /
          second))
      payload.minutes payload.exchangeReferenceTs payload.asset
  missingBarRate :=
    computeMissingBarRate monitor.calendar zone payload.barTimestamps payload.minutes
      payload.lookback payload.asset
  nbboSuccessRate :=
    orDefault 0 payload.nbboSuccessRate
      ((monitor.noted upper zone payload).nbboSuccessRate upper payload.legSymbol)
  tripped := payload.tripped
  misalignments := payload.misalignments
  arrivalLagFraction :=
    let barPeriodSeconds : ℚ := timeframeMinutes payload.frame * 60
    if 0 < barPeriodSeconds then payload.arrivalLag / barPeriodSeconds else 0

/-- The verdict on a leg whose venue is closed. -/
def dormant : DataIntegrityVerdict where
  passed := true
  severity := .ok
  barFreshnessSeconds := 0
  missingBarRate := 0
  nbboSuccessRate := 1
  rlBackfillLagHours := 0
  calendarSessionMinutes := 0
  isEarlyCloseSession := false
  reasons := ["dormant_market_closed"]

def evaluateDataIntegrity (queryRlBackfillLagHours : ℤ → ℚ) (payload : DataPayload) :
    DataIntegrityVerdict × SLOMonitor :=
  if monitor.isMarketDormant zone payload.asset payload.exchangeReferenceTs then
    (dormant, monitor)
  else
    let r := monitor.readings upper zone payload
    let bounds :=
      monitor.calendar.sessionBounds (dateOf (zone.toLocal payload.exchangeReferenceTs))
    let judged := r.signals.foldl Signal.check ([], .ok)
    ({ passed := decide (judged.2 = .ok) || decide (judged.2 = .warning)
       severity := judged.2
       barFreshnessSeconds := r.freshnessSeconds
       missingBarRate := r.missingBarRate
       nbboSuccessRate := r.nbboSuccessRate
       rlBackfillLagHours :=
         payload.rlBackfillLagHours.getD (queryRlBackfillLagHours payload.exchangeReferenceTs)
       calendarSessionMinutes := bounds.sessionMinutes
       isEarlyCloseSession := bounds.earlyClose
       reasons := judged.1 },
      monitor.noted upper zone payload)

end SLOMonitor

end TradingPlatform.Engine.Slo
