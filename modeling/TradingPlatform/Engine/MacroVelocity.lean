import TradingPlatform.Lib.Outlier
import TradingPlatform.Lib.Runs

/-! # The velocity of macro variables

Readings of the last hours, each scored against the window it is in. Times are
seconds, and values are in any ordered field. Scores are squared, so that no root
is taken; their rounded texts are left out of what triggered. -/

namespace TradingPlatform.Engine.Regime

open TradingPlatform.Lib.Outlier
open TradingPlatform.Lib.Runs

variable {K : Type*} [Field K] [LinearOrder K] [IsStrictOrderedRing K]

def velocityWindowHours : K := 4

def velocityOutlierSigma : K := 3

def hysteresisRecoverySigma : K := 1.5

def velocityMinSamples : ℤ := 6

def shockCoolOffPenaltyWindowDays : ℤ := 7

def vixDaySurgeShockPct : K := 0.12

def correlationSpikeVelocityShock : K := 0.15

/-- The fields that are read of a snapshot, and of its stress. -/
structure CrossAssetSnapshot (K : Type*) where
  timestamp : K
  vixProxy : K
  vixTermProxy : K
  vixCloses : List K := []
  spyCloses : List K := []

structure StressFactorReading (K : Type*) where
  vixTermStress : K
  composite : K
  vixBackwardation : Bool
  creditSpreadChange : K
  avgPairwiseCorrelation : K

structure MacroVelocityReading (K : Type*) where
  timestamp : K
  vixDayPctSurge : K
  vixTermSpread : K
  creditSpreadChange : K
  avgPairwiseCorrelation : K
  compositeStress : K

/-- The metrics, in the order they are scored in. -/
inductive Metric
  | vixDayPctSurge
  | vixTermSpread
  | creditSpreadChange
  | avgPairwiseCorrelation
  | compositeStress
  deriving DecidableEq, Repr

def metricNames : List Metric :=
  [.vixDayPctSurge, .vixTermSpread, .creditSpreadChange, .avgPairwiseCorrelation, .compositeStress]

/-- `getattr(sample, metric)`. -/
def Metric.value : Metric → MacroVelocityReading K → K
  | .vixDayPctSurge, r => r.vixDayPctSurge
  | .vixTermSpread, r => r.vixTermSpread
  | .creditSpreadChange, r => r.creditSpreadChange
  | .avgPairwiseCorrelation, r => r.avgPairwiseCorrelation
  | .compositeStress, r => r.compositeStress

inductive TriggerKind
  | level
  | velocity
  | hardFloor
  | intradaySpike
  deriving DecidableEq, Repr

structure Trigger where
  metric : Metric
  kind : TriggerKind
  deriving DecidableEq, Repr

structure VelocityShockVerdict (K : Type*) where
  shockDetected : Bool
  triggeredMetrics : List Trigger
  maxZScoreSquared : K
  latestReading : Option (MacroVelocityReading K)

structure MacroVelocityTracker (K : Type*) where
  windowHours : K
  outlierSigma : K
  hysteresisRecoverySigma : K
  minSamples : ℤ
  shockDemotionWindowDays : ℤ
  samples : List (MacroVelocityReading K) := []
  lastShockTimestamp : Option K := none
  stableSubSigmaBars : ℕ := 0
  shockEventTimestamps : List K := []

/-- The tracker as it is set up by default. -/
def defaultTracker : MacroVelocityTracker K where
  windowHours := velocityWindowHours
  outlierSigma := velocityOutlierSigma
  hysteresisRecoverySigma := hysteresisRecoverySigma
  minSamples := velocityMinSamples
  shockDemotionWindowDays := shockCoolOffPenaltyWindowDays

/-! ## Scores -/

/-- `_zscore_extension`, squared; a deviation of next to nothing is not divided by. -/
def zscoreExtension (value : K) (series : List K) : K :=
  if series.length < 2 then 0
  else if variance series < 1e-12 ^ 2 then (value - mean series) ^ 2
  else (value - mean series) ^ 2 / variance series

/-- `z >= sigma`, of a squared score. -/
def reaches (sigma zSquared : K) : Bool := decide (sigma ≤ 0) || decide (sigma ^ 2 ≤ zSquared)

/-- `np.diff`. -/
def npDiff (series : List K) : List K := List.zipWith (fun prior next => next - prior) series series.tail

/-- The newest of a series, scored against it. -/
def newestScore (series : List K) : Option K :=
  series.getLast?.map fun newest => zscoreExtension newest series

/-- The scores of a metric: its level, and its velocity of three samples or more. -/
def metricScores (samples : List (MacroVelocityReading K)) (metric : Metric) :
    List (Trigger × K) :=
  let series := samples.map metric.value
  let level := (newestScore series).toList.map fun z => (⟨metric, .level⟩, z)
  let velocity :=
    if 3 ≤ series.length then
      (newestScore (npDiff series)).toList.map fun z => (⟨metric, .velocity⟩, z)
    else []
  level ++ velocity

/-- What the newest sample triggers whatever its scores are. -/
def floorTriggers (samples : List (MacroVelocityReading K)) : List Trigger :=
  match samples.reverse with
  | [] => []
  | latest :: earlier =>
    (if vixDaySurgeShockPct ≤ latest.vixDayPctSurge then [⟨.vixDayPctSurge, .hardFloor⟩] else []) ++
      match earlier with
      | [] => []
      | previous :: _ =>
        if correlationSpikeVelocityShock ≤
            latest.avgPairwiseCorrelation - previous.avgPairwiseCorrelation then
          [⟨.avgPairwiseCorrelation, .intradaySpike⟩]
        else []

/-! ## The tracker -/

/-- The change of the day, from its closes or from the proxies. -/
def vixDaySurge (snapshot : CrossAssetSnapshot K) (vixTerm : K) : K :=
  match snapshot.vixCloses.reverse with
  | current :: prior :: _ => if 1e-6 < prior then (current - prior) / prior else 0
  | _ => if 2 ≤ snapshot.spyCloses.length then (snapshot.vixProxy - vixTerm) / vixTerm else 0

def readingAt (snapshot : CrossAssetSnapshot K) (stress : StressFactorReading K) (now : K) :
    MacroVelocityReading K :=
  let vixSpot := max snapshot.vixProxy 1e-6
  let vixTerm := max snapshot.vixTermProxy 1e-6
  { timestamp := now
    vixDayPctSurge := vixDaySurge snapshot vixTerm
    vixTermSpread := (vixSpot - vixTerm) / vixSpot
    creditSpreadChange := stress.creditSpreadChange
    avgPairwiseCorrelation := stress.avgPairwiseCorrelation
    compositeStress := stress.composite }

namespace MacroVelocityTracker
variable (tracker : MacroVelocityTracker K)

/-- What is left of samples at a time: the oldest go while they are before the window. -/
def inWindow (now : K) (samples : List (MacroVelocityReading K)) : List (MacroVelocityReading K) :=
  samples.dropWhile fun r => decide (r.timestamp < now - tracker.windowHours * 3600)

def prune (now : K) : MacroVelocityTracker K :=
  { tracker with samples := tracker.inWindow now tracker.samples }

def compositeStressZScore : K :=
  if tracker.samples.length < 2 then 0
  else (newestScore (tracker.samples.map (·.compositeStress))).getD 0

def updateCoolOffProgress : MacroVelocityTracker K :=
  if tracker.lastShockTimestamp.isNone then tracker
  else if !reaches tracker.hysteresisRecoverySigma tracker.compositeStressZScore then
    { tracker with stableSubSigmaBars := tracker.stableSubSigmaBars + 1 }
  else { tracker with stableSubSigmaBars := 0 }

def ingest (snapshot : CrossAssetSnapshot K) (stress : StressFactorReading K)
    (anchorTime : Option K := none) : MacroVelocityTracker K :=
  let now := anchorTime.getD snapshot.timestamp
  let reading := readingAt snapshot stress now
  (prune { tracker with samples := tracker.samples ++ [reading] } now).updateCoolOffProgress

def registerShockEvent (now : K) : MacroVelocityTracker K :=
  let cutoff := now - (max tracker.shockDemotionWindowDays 1 : ℤ) * (24 * 3600)
  { tracker with
    lastShockTimestamp := some now
    stableSubSigmaBars := 0
    shockEventTimestamps :=
      (tracker.shockEventTimestamps ++ [now]).dropWhile fun ts => decide (ts < cutoff) }

/-- `none` where the newest of no samples is asked for. -/
def detectVelocityShockEvent (anchorTime : Option K) (clock : K) :
    Option (VelocityShockVerdict K × MacroVelocityTracker K) :=
  let now := anchorTime.getD ((tracker.samples.getLast?.map (·.timestamp)).getD clock)
  let tracker := tracker.prune now
  if (tracker.samples.length : ℤ) < tracker.minSamples then
    some ({ shockDetected := false
            triggeredMetrics := []
            maxZScoreSquared := 0
            latestReading := tracker.samples.getLast? }, tracker)
  else
    tracker.samples.getLast?.map fun latest =>
      let scores := metricNames.flatMap (metricScores tracker.samples)
      let triggered :=
        ((scores.filter fun s => reaches tracker.outlierSigma s.2).map Prod.fst) ++
          floorTriggers tracker.samples
      let shock := decide (0 < triggered.length)
      ({ shockDetected := shock
         triggeredMetrics := triggered
         maxZScoreSquared := (scores.map Prod.snd).foldl max 0
         latestReading := some latest },
        if shock then tracker.registerShockEvent now else tracker)

end MacroVelocityTracker

end TradingPlatform.Engine.Regime
