import TradingPlatform.Core.RollingWindow
import TradingPlatform.Math.Indicators

/-! # The mean reversion legs

`evaluate_mean_reversion` decides on a window and a dictionary of parameters, which the
backtest loop builds anew at every bar. -/

namespace TradingPlatform.Strategies.MeanReversion

open TradingPlatform.Core TradingPlatform.Lib.Ring TradingPlatform.Lib.Runs TradingPlatform.Math

structure MeanReversionDefaults (K : Type) where
  symbol : String
  smaPeriod : ℤ
  longThresholdSigma : K
  shortThresholdSigma : K
  exitSigma : K
  maxBarsInTrade : ℤ := 40
  smaPeriodLong : Option ℤ := none
  smaPeriodShort : Option ℤ := none

/-- The keys the evaluation reads; `none` is a key that is missing. -/
structure MrParams (K : Type) where
  thresholdSigma : Option K := none
  longThresholdSigma : Option K := none
  shortThresholdSigma : Option K := none
  smaPeriod : Option ℤ := none
  smaPeriodLong : Option ℤ := none
  smaPeriodShort : Option ℤ := none
  /-- Any text but the two sides is flat. -/
  positionSide : Option PositionSide := none
  exitSigma : Option K := none
  maxBarsInTrade : Option ℤ := none
  barsInTrade : Option ℤ := none
  inPosition : Option Bool := none
  corporateActionPriceAdjustment : Option K := none
  corporateActionWindowAdjusted : Option Bool := none
  corporateEventHalt : Option Bool := none
  regimeFilter : Option Bool := none
  regimeMaskActive : Option Bool := none

structure ResolvedParams (K : Type) where
  smaPeriod : ℤ
  smaPeriodLong : ℤ
  smaPeriodShort : ℤ
  decoupled : Bool
  longThresholdSigma : K
  shortThresholdSigma : K
  exitSigma : K
  maxBarsInTrade : ℤ
  barsInTrade : ℤ
  inPosition : Bool
  positionSide : Option PositionSide
  corporateActionPriceAdjustment : K
  corporateActionWindowAdjusted : Bool
  corporateEventHalt : Bool
  regimeFilter : Bool
  regimeMaskActive : Bool

inductive MrMetadata (K : Type)
  | timeStop (barsInTrade : ℤ)
  | reading (zScore sma : Option K) (corporateActionPriceAdjustment : K) (regimeMaskActive : Bool)

structure MrSignal (τ K : Type) where
  symbol : String
  action : SignalAction
  price : K
  timestamp : τ
  strategyId : String
  metadata : MrMetadata K

variable {τ K : Type} [Field K] [LinearOrder K] {n : ℕ} (sqrt : K → K)

/-! ## The evaluation -/

def resolvedParams (params : MrParams K) (defaults : MeanReversionDefaults K) : ResolvedParams K :=
  let coupled := params.smaPeriod.getD defaults.smaPeriod
  -- `defaults.sma_period_long or coupled`: a zero counts as missing
  let smaLong := params.smaPeriodLong.getD
    ((defaults.smaPeriodLong.filter (· ≠ 0)).getD coupled)
  let smaShort := params.smaPeriodShort.getD
    ((defaults.smaPeriodShort.filter (· ≠ 0)).getD coupled)
  { smaPeriod := coupled
    smaPeriodLong := smaLong
    smaPeriodShort := smaShort
    decoupled := smaLong ≠ smaShort ∨ defaults.smaPeriodLong.isSome ∨
      defaults.smaPeriodShort.isSome ∨ params.smaPeriodLong.isSome ∨ params.smaPeriodShort.isSome
    longThresholdSigma := params.longThresholdSigma.getD
      (params.thresholdSigma.getD defaults.longThresholdSigma)
    shortThresholdSigma := params.shortThresholdSigma.getD
      (params.thresholdSigma.getD defaults.shortThresholdSigma)
    exitSigma := params.exitSigma.getD defaults.exitSigma
    maxBarsInTrade := params.maxBarsInTrade.getD defaults.maxBarsInTrade
    barsInTrade := params.barsInTrade.getD 0
    inPosition := params.inPosition.getD false
    positionSide := params.positionSide
    corporateActionPriceAdjustment := params.corporateActionPriceAdjustment.getD 0
    corporateActionWindowAdjusted := params.corporateActionWindowAdjusted.getD false
    corporateEventHalt := params.corporateEventHalt.getD false
    regimeFilter := params.regimeFilter.getD false
    regimeMaskActive := params.regimeMaskActive.getD true }

def warmupPeriod (p : ResolvedParams K) : ℤ :=
  if p.decoupled then max p.smaPeriodLong p.smaPeriodShort else p.smaPeriod

/-- A code as a signal, past the regime filter and the halt. -/
def gatedSignal (p : ResolvedParams K) (latest : Bar τ K) (symbol strategyId : String)
    (priceAdjustment : K) (code : SignalAction) (zMeta smaMeta : Option K) :
    Option (MrSignal τ K) :=
  if code = .hold then none
  else if p.regimeFilter ∧ code = .long ∧ ¬ p.regimeMaskActive then none
  else if p.corporateEventHalt ∧ (code = .long ∨ code = .short) then none
  else
    some
      { symbol, action := code, price := latest.close, timestamp := latest.timestamp, strategyId
        metadata := .reading zMeta smaMeta priceAdjustment p.regimeMaskActive }

def evaluateMeanReversion (window : RollingWindow τ K n) (params : MrParams K)
    (defaults : MeanReversionDefaults K) (strategyId : String) : Option (MrSignal τ K) :=
  let p := resolvedParams params defaults
  window.latest.bind fun latest =>
    if p.inPosition ∧ p.maxBarsInTrade ≤ p.barsInTrade then
      some
        { symbol := defaults.symbol, action := .exit, price := latest.close
          timestamp := latest.timestamp, strategyId, metadata := .timeStop p.barsInTrade }
    else if ¬ window.isReady (warmupPeriod p) then none
    else
      let priceAdjustment :=
        if p.corporateActionWindowAdjusted then 0 else p.corporateActionPriceAdjustment
      let evalClose := latest.close + priceAdjustment
      let signal := gatedSignal p latest defaults.symbol strategyId priceAdjustment
      if p.decoupled then
        let closesLong := window.tailCloses p.smaPeriodLong
        let closesShort := window.tailCloses p.smaPeriodShort
        let smaL := rollingSma closesLong p.smaPeriodLong
        let stdL := rollingStd sqrt closesLong p.smaPeriodLong
        let smaS := rollingSma closesShort p.smaPeriodShort
        let stdS := rollingStd sqrt closesShort p.smaPeriodShort
        if stdL.any (· ≤ 0) ∨ stdS.any (· ≤ 0) then none
        else
          let zLong := zScore evalClose smaL stdL
          let zShort := zScore evalClose smaS stdS
          let code := meanReversionActionDecoupled zLong zShort p.longThresholdSigma
            p.shortThresholdSigma p.exitSigma p.positionSide
          if p.positionSide = some .short then signal code zShort smaS else signal code zLong smaL
      else
        let closes := window.tailCloses p.smaPeriod
        let sma := rollingSma closes p.smaPeriod
        let std := rollingStd sqrt closes p.smaPeriod
        let code := meanReversionActionAsymmetric evalClose sma std p.longThresholdSigma
          p.shortThresholdSigma p.exitSigma
        signal code (if std.any (0 < ·) then zScore evalClose sma std else some 0) sma

/-! ## What it decides for a decoupled leg -/

/-- The parameters of a decoupled leg. -/
def legParams (smaPeriod : ℤ) (q : ScanParams K) : MrParams K where
  smaPeriod := some smaPeriod
  smaPeriodLong := some q.smaPeriodLong
  smaPeriodShort := some q.smaPeriodShort
  longThresholdSigma := some q.longThreshold
  shortThresholdSigma := some q.shortThreshold
  exitSigma := some q.exitSigma
  maxBarsInTrade := some q.maxBarsInTrade

/-- `{**params, "bars_in_trade": ..., "in_position": ...}`. -/
def evalParams (params : MrParams K) (barsInTrade : ℤ) (inPosition : Bool) : MrParams K :=
  { params with barsInTrade := some barsInTrade, inPosition := some inPosition }

/-- The action of a signal; no signal is a hold. -/
def actionOf (signal : Option (MrSignal τ K)) : SignalAction := signal.elim .hold (·.action)

variable {sqrt}

omit [LinearOrder K] in
theorem resolvedParams_leg (smaPeriod : ℤ) (q : ScanParams K) (barsInTrade : ℤ) (inPosition : Bool)
    (defaults : MeanReversionDefaults K) :
    resolvedParams (evalParams (legParams smaPeriod q) barsInTrade inPosition) defaults =
      { smaPeriod
        smaPeriodLong := q.smaPeriodLong
        smaPeriodShort := q.smaPeriodShort
        decoupled := true
        longThresholdSigma := q.longThreshold
        shortThresholdSigma := q.shortThreshold
        exitSigma := q.exitSigma
        maxBarsInTrade := q.maxBarsInTrade
        barsInTrade
        inPosition
        positionSide := none
        corporateActionPriceAdjustment := 0
        corporateActionWindowAdjusted := false
        corporateEventHalt := false
        regimeFilter := false
        regimeMaskActive := true } := by
  simp [resolvedParams, evalParams, legParams]

omit [Field K] [LinearOrder K] in
/-- Without filter and halt a signal carries its code. -/
theorem actionOf_gatedSignal {p : ResolvedParams K} (hfilter : p.regimeFilter = false)
    (hhalt : p.corporateEventHalt = false) (latest : Bar τ K) (symbol strategyId : String) (adj : K)
    (code : SignalAction) (z sma : Option K) :
    actionOf (gatedSignal p latest symbol strategyId adj code z sma) = code := by
  unfold gatedSignal
  simp only [hfilter, hhalt, Bool.false_eq_true, false_and, if_false]
  split
  · rename_i hhold
    exact hhold.symm
  · rfl

section Evaluate
variable [LinearOrder τ] {w : RollingWindow τ K n} {s : Series τ K} {pre : List (Bar τ K)}
  {bar : Bar τ K}

omit [LinearOrder K] [Field K] in
/-- A period that fits the window ends where the series ends. -/
theorem trailing_tailCloses (h : Mirrors w s) {period : ℤ} (hn : period ≤ n) (hpos : 0 < period) :
    trailing (w.tailCloses period) period = trailing (s.accepted.map (·.close)) period := by
  rw [h.tailCloses hpos hn, map_lastN]
  exact trailing_trailing _ _

/-- The loop's parameters have no side, so the evaluation takes the leg for flat. -/
theorem evaluate_leg (h : Mirrors w s) (hs : s.accepted = pre ++ [bar]) {q : ScanParams K}
    (hlong : q.smaPeriodLong ≤ n) (hshort : q.smaPeriodShort ≤ n) (smaPeriod barsInTrade : ℤ)
    (inPosition : Bool) (defaults : MeanReversionDefaults K) (strategyId : String) :
    actionOf (evaluateMeanReversion sqrt w
        (evalParams (legParams smaPeriod q) barsInTrade inPosition) defaults strategyId) =
      if inPosition = true ∧ q.maxBarsInTrade ≤ barsInTrade then .exit
      else if (pre.length : ℤ) + 1 < q.maxPeriod then .hold
      else lastCode sqrt q ((pre ++ [bar]).map (·.close)) bar.close none := by
  have hlatest : w.latest = some bar := by rw [h.latest, hs, List.getLast?_concat]
  have hready : w.isReady q.maxPeriod = true ↔ ¬ (pre.length : ℤ) + 1 < q.maxPeriod := by
    have hfits : q.maxPeriod ≤ n := max_le hlong hshort
    rw [h.isReady hfits, hs, List.length_append, List.length_singleton]
    push_cast
    exact not_lt.symm
  have hsma {period : ℤ} (hn : period ≤ n) : rollingSma (w.tailCloses period) period =
      rollingSma ((pre ++ [bar]).map (·.close)) period := by
    rw [← hs]
    exact rollingSma_congr (trailing_tailCloses h hn)
  have hstd {period : ℤ} (hn : period ≤ n) : rollingStd sqrt (w.tailCloses period) period =
      rollingStd sqrt ((pre ++ [bar]).map (·.close)) period := by
    rw [← hs]
    exact rollingStd_congr sqrt (trailing_tailCloses h hn)
  unfold evaluateMeanReversion
  rw [resolvedParams_leg, hlatest, Option.bind_some]
  dsimp only
  split
  · rfl
  change actionOf (if ¬ w.isReady q.maxPeriod = true then none else _) = _
  simp only [hready, not_not]
  split
  · rfl
  rw [hsma hlong, hsma hshort, hstd hlong, hstd hshort, ite_self, add_zero]
  simp only [reduceCtorEq, if_false, if_true, lastCode]
  split
  · rfl
  · exact actionOf_gatedSignal rfl rfl ..

end Evaluate

end TradingPlatform.Strategies.MeanReversion
