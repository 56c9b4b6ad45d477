import TradingPlatform.Backtest.AsymmetricScan
import TradingPlatform.Backtest.ScanParity
import TradingPlatform.Lib.StableSort

/-! # The symmetric mean reversion strategy

Its live path decides on the rolling window after every bar, its batch path scans the sorted
closes of a whole frame. NaN is `none`, and sums are exact. -/

namespace TradingPlatform.Strategies.MeanReversionStrategy

open TradingPlatform.Core TradingPlatform.Lib.Runs TradingPlatform.Lib.StableSort
open TradingPlatform.Math TradingPlatform.Backtest.AsymmetricScan
open TradingPlatform.Backtest.ScanParity (append_later zigzag)
open TradingPlatform.Strategies.MeanReversion (trailing_tailCloses)

/-- The keys both paths read; `none` is a key that is missing. -/
structure StrategyParams (K : Type) where
  smaPeriod : Option ℤ := none
  thresholdSigma : Option K := none
  exitSigma : Option K := none
  symbol : Option String := none

/-- The metadata is the score and the average, where there is any. -/
structure StrategySignal (τ K : Type) where
  symbol : String
  action : SignalAction
  price : K
  timestamp : τ
  strategyId : String
  metadata : Option (Option K × Option K)
  deriving DecidableEq

variable {τ K : Type} [Field K] [LinearOrder K] {n : ℕ} (sqrt : K → K)

def StrategyParams.period (params : StrategyParams K) : ℤ := params.smaPeriod.getD 20
def StrategyParams.threshold (params : StrategyParams K) : K := params.thresholdSigma.getD 1.5
def StrategyParams.exit (params : StrategyParams K) : K := params.exitSigma.getD 0.1

omit [Field K] [LinearOrder K] in
def actionCodeToSignal (action : SignalAction) (symbol : String) (price : K) (timestamp : τ)
    (metadata : Option (Option K × Option K)) : Option (StrategySignal τ K) :=
  if action = .hold then none
  else some ⟨symbol, action, price, timestamp, "mean_reversion", metadata⟩

def evaluateLive (window : RollingWindow τ K n) (params : StrategyParams K) :
    Option (StrategySignal τ K) :=
  if ¬ window.isReady params.period then none
  else
    let closes := window.tailCloses params.period
    let sma := rollingSma closes params.period
    let std := rollingStd sqrt closes params.period
    window.latest.bind fun latest =>
      let action := meanReversionAction latest.close sma std params.threshold params.exit
      let z := if std.any (0 < ·) then zScore latest.close sma std else some 0
      actionCodeToSignal action (params.symbol.getD "SPY") latest.close latest.timestamp
        (some (z, sma))

/-- `bars["symbol"][0]`, of a frame that has the column. -/
def frameSymbol (bars : List (Bar τ K)) (hasSymbol : Bool) : String :=
  if hasSymbol then (bars.head?.map (·.symbol)).getD "SPY" else "SPY"

variable [LinearOrder τ]

def generateSignalsBatch (bars : List (Bar τ K)) (hasSymbol : Bool) (params : StrategyParams K) :
    List (StrategySignal τ K) :=
  let sortedBars := sortBy (·.timestamp) bars
  let actionCodes := scanMeanReversionSignals sqrt (sortedBars.map (·.close)) params.period
    params.threshold params.exit
  (actionCodes.zip sortedBars).filterMap fun p =>
    actionCodeToSignal p.1 (params.symbol.getD (frameSymbol bars hasSymbol)) p.2.close
      p.2.timestamp none

/-- A bar comes in, and the window is evaluated. -/
def liveStep (params : StrategyParams K) (w : RollingWindow τ K n) (bar : Bar τ K) :
    RollingWindow τ K n × Option (StrategySignal τ K) :=
  let w := (w.append bar).2
  (w, evaluateLive sqrt w params)

/-- The signals of a live run over these bars, from an empty window on. -/
def liveSignals (hn : 0 < n) (params : StrategyParams K) (bars : List (Bar τ K)) :
    List (StrategySignal τ K) :=
  (outputs (liveStep sqrt params) (.new hn) bars).filterMap id

/-- A signal as the batch path writes it. -/
def StrategySignal.asBatch (symbol : String) (s : StrategySignal τ K) : StrategySignal τ K :=
  { s with symbol, metadata := none }

omit [Field K] [LinearOrder K] [LinearOrder τ] in
theorem actionCodeToSignal_asBatch (action : SignalAction) (symbol symbol' : String) (price : K)
    (timestamp : τ) (metadata : Option (Option K × Option K)) :
    (actionCodeToSignal action symbol price timestamp metadata).map (.asBatch symbol') =
      actionCodeToSignal action symbol' price timestamp none := by
  unfold actionCodeToSignal
  split
  · rfl
  · rfl

/-- What a window that holds the bars so far decides at the last of them. -/
theorem evaluateLive_eq {w : RollingWindow τ K n} {series : Series τ K} (h : Mirrors w series)
    {pre : List (Bar τ K)} {bar : Bar τ K} (hs : series.accepted = pre ++ [bar])
    (params : StrategyParams K) (hfits : params.period ≤ n) (symbol : String) :
    (evaluateLive sqrt w params).map (.asBatch symbol) =
      actionCodeToSignal
        (meanReversionAction bar.close (rollingSma ((pre ++ [bar]).map (·.close)) params.period)
          (rollingStd sqrt ((pre ++ [bar]).map (·.close)) params.period) params.threshold params.exit)
        symbol bar.close bar.timestamp none := by
  have hlatest : w.latest = some bar := by rw [h.latest, hs, List.getLast?_concat]
  have hsma : rollingSma (w.tailCloses params.period) params.period =
      rollingSma ((pre ++ [bar]).map (·.close)) params.period := by
    rw [← hs]
    exact rollingSma_congr (trailing_tailCloses h hfits)
  have hstd : rollingStd sqrt (w.tailCloses params.period) params.period =
      rollingStd sqrt ((pre ++ [bar]).map (·.close)) params.period := by
    rw [← hs]
    exact rollingStd_congr sqrt (trailing_tailCloses h hfits)
  unfold evaluateLive
  split
  case isTrue hcold =>
    -- too few bars for an average, which the scan takes for a hold
    have hshort : rollingSma ((pre ++ [bar]).map (·.close)) params.period = none := by
      rw [h.isReady hfits, not_le, hs] at hcold
      refine if_pos (.inl ?_)
      rwa [List.length_map]
    rw [rollingStd, hshort]
    simp [meanReversionAction, zScore, actionCodeToSignal]
  case isFalse =>
    rw [hlatest, Option.bind_some, actionCodeToSignal_asBatch, hsma, hstd]

/-- A window fed strictly later bars has taken them all. -/
theorem run_mirrors (params : StrategyParams K) (hn : 0 < n) {bars : List (Bar τ K)}
    (hmono : bars.Pairwise (·.timestamp < ·.timestamp)) :
    ∃ series, Mirrors (run (fun w bar => (liveStep sqrt params w bar).1)
      (.new hn : RollingWindow τ K n) bars) series ∧ series.accepted = bars := by
  induction bars using List.reverseRecOn with
  | nil => exact ⟨_, mirrors_new hn, rfl⟩
  | append_singleton bars bar ih =>
    obtain ⟨hbars, -, hlater⟩ := List.pairwise_append.mp hmono
    rw [run_append, run_cons, run_nil]
    exact append_later (ih hbars) fun b hb => hlater b hb bar (List.mem_singleton.mpr rfl)

/-- Bar by bar, the live path signals what the scan of all bars does. -/
theorem outputs_liveStep [IsStrictOrderedRing K] (params : StrategyParams K) (hn : 0 < n)
    (hfits : params.period ≤ n) {bars : List (Bar τ K)}
    (hmono : bars.Pairwise (·.timestamp < ·.timestamp)) (symbol : String) :
    (outputs (liveStep sqrt params) (.new hn : RollingWindow τ K n) bars).map
        (Option.map (StrategySignal.asBatch symbol)) =
      ((scanMeanReversionSignals sqrt (bars.map (·.close)) params.period params.threshold
        params.exit).zip bars).map fun p =>
          actionCodeToSignal p.1 symbol p.2.close p.2.timestamp none := by
  rw [scanMeanReversionSignals_eq]
  refine List.ext_getElem? fun i => ?_
  rcases Nat.lt_or_ge i bars.length with hi | hi
  · obtain ⟨series, hmirrors, hseries⟩ := run_mirrors sqrt params hn
      (hmono.sublist (List.take_sublist (i + 1) bars))
    have hupto : bars.take (i + 1) = bars.take i ++ [bars[i]] := (List.take_append_getElem hi).symm
    have hlive := evaluateLive_eq sqrt hmirrors (hseries.trans hupto) params hfits symbol
    have hclose : (bars.map (·.close)).getD i 0 = bars[i].close := by
      rw [List.getD_eq_getElem _ _ (by simpa using hi), List.getElem_map]
    have htake : (bars.map (·.close)).take (i + 1) = (bars.take i ++ [bars[i]]).map (·.close) := by
      rw [← hupto, List.map_take]
    rw [hupto, run_append, run_cons, run_nil] at hlive
    have hcode : ((List.range (bars.map (·.close)).length).map fun j =>
        meanReversionAction ((bars.map (·.close)).getD j 0)
          (rollingSma ((bars.map (·.close)).take (j + 1)) params.period)
          (rollingStd sqrt ((bars.map (·.close)).take (j + 1)) params.period)
          params.threshold params.exit)[i]? = some (meanReversionAction bars[i].close
            (rollingSma ((bars.take i ++ [bars[i]]).map (·.close)) params.period)
            (rollingStd sqrt ((bars.take i ++ [bars[i]]).map (·.close)) params.period)
            params.threshold params.exit) := by
      rw [List.getElem?_map, List.getElem?_range (by simpa using hi), Option.map_some, hclose, htake]
    have hpair := List.getElem?_zip_eq_some (z := (_, bars[i])).mpr
      ⟨hcode, List.getElem?_eq_getElem hi⟩
    rw [List.getElem?_map, getElem?_outputs, List.getElem?_map, hpair, List.getElem?_eq_getElem hi]
    exact congrArg some hlive
  · simp [hi]

/-- Over exact arithmetic, on bars with no two timestamps alike, in any order, the batch path
gives the signals of a live run over them in their order of time, but for the metadata and the
default symbol. -/
theorem batch_eq_live [IsStrictOrderedRing K] (params : StrategyParams K)
    (hn : 0 < n) (hfits : params.period ≤ n) {bars : List (Bar τ K)}
    (hnodup : (bars.map (·.timestamp)).Nodup) (hasSymbol : Bool) :
    generateSignalsBatch sqrt bars hasSymbol params =
      (liveSignals sqrt hn params (sortBy (·.timestamp) bars)).map
        (.asBatch (params.symbol.getD (frameSymbol bars hasSymbol))) := by
  have hlive := outputs_liveStep sqrt params hn hfits (sortBy_strict hnodup)
    (params.symbol.getD (frameSymbol bars hasSymbol))
  rw [generateSignalsBatch, liveSignals]
  have hbatch := congrArg (List.filterMap id) hlive
  rw [List.filterMap_map, List.filterMap_map] at hbatch
  rw [List.map_filterMap]
  exact hbatch.symm

/-- A frame that runs backwards in time, and a window that keeps two bars. -/
theorem batch_eq_live_backwards :
    generateSignalsBatch Rat.sqrt zigzag.reverse true { smaPeriod := some 2 } =
      (liveSignals Rat.sqrt (n := 2) (by decide) { smaPeriod := some 2 }
        (sortBy (·.timestamp) zigzag.reverse)).map (.asBatch (frameSymbol zigzag.reverse true)) :=
  batch_eq_live Rat.sqrt { smaPeriod := some 2 } (by decide) (by decide) (by decide) true

end TradingPlatform.Strategies.MeanReversionStrategy
