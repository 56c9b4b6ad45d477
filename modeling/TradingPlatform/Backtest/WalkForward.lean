import TradingPlatform.Backtest.EquityStatistics
import TradingPlatform.Broker.Simulated
import TradingPlatform.Core.RollingWindow
import TradingPlatform.Engine.PortfolioRiskGovernor

/-! # The bar-by-bar backtest

`run_backtest_on_bars` fills what is pending at the open, takes the bar in, evaluates the
strategy at the close and routes its signal; the drawdown breaker of the router halts the run.
The mean reversion loop is the same one with filters on the signal. The risk manager and the
strategy are parameters. -/

namespace TradingPlatform.Backtest.WalkForward

open TradingPlatform.Lib TradingPlatform.Lib.Runs TradingPlatform.Core
open TradingPlatform.Broker.Simulated TradingPlatform.Broker.Simulated.SimulatedBroker
open TradingPlatform.Engine.RiskGovernor (matchPosition)

structure PortfolioState where
  peakEquity : ℚ
  halted : Bool := false
  haltReason : String := ""

section Model
variable {τ : Type} {smaPeriod : ℕ}

/-- `RollingWindow(maxlen=sma_period + 50)`. -/
abbrev Window (τ : Type) (smaPeriod : ℕ) := RollingWindow τ ℚ (smaPeriod + 50)

/-- `check_drawdown_breaker` and `RiskManager.size_order`. -/
structure RiskManager (τ : Type) (smaPeriod : ℕ) where
  checkDrawdownBreaker : Account → PortfolioState → PortfolioState
  sizeOrder : Signal → Window τ smaPeriod → Account → List Position → PortfolioState → List Order

/-- `OrderRouter.route`. -/
def route (risk : RiskManager τ smaPeriod) (signal : Option Signal) (window : Window τ smaPeriod)
    (account : Account) (positions : List Position) (portfolioState : PortfolioState) :
    List Order × PortfolioState :=
  let updatedState := risk.checkDrawdownBreaker account portfolioState
  match signal with
  | none => ([], updatedState)
  | some signal =>
    if updatedState.halted then ([], updatedState)
    else (risk.sizeOrder signal window account positions updatedState, updatedState)

def getAccount (b : SimulatedBroker) : Account :=
  { equity := b.equity, cash := b.cash, buyingPower := max b.cash 0 }

def getPositions (b : SimulatedBroker) : List Position := b.positions.items.map Prod.snd

structure BacktestState (τ : Type) (smaPeriod : ℕ) where
  broker : SimulatedBroker
  window : Window τ smaPeriod
  portfolioState : PortfolioState
  equityCurve : List ℚ
  tradePnls : List ℚ := []
  prevEquity : ℚ
  /-- Empty for `None`. -/
  pendingOrders : List Order := []
  barsInTrade : ℤ := 0

/-- `strategy.evaluate_live`, from the window and, where the parameters hold them, `bars_in_trade`
and `in_position`. -/
abbrev EvaluateLive (τ : Type) (smaPeriod : ℕ) := Window τ smaPeriod → Option (ℤ × Bool) → Option Signal

/-- What is pending fills at the open of the bar. -/
def settle (now : String) (s : BacktestState τ smaPeriod) (bar : Bar τ ℚ) : BacktestState τ smaPeriod :=
  if s.pendingOrders = [] then s
  else
    let (fills, broker) := s.broker.submitOrders s.pendingOrders bar.openPrice now
    if fills = [] then { s with broker, pendingOrders := [] }
    else
      let newEq := (getAccount broker).equity
      { s with
        broker, pendingOrders := [], tradePnls := s.tradePnls ++ [newEq - s.prevEquity]
        prevEquity := newEq }

/-- The signal at the close is routed; a breaker that trips closes everything at the close. -/
def act (evaluate : Window τ smaPeriod → ℤ → Bool → Option Signal) (risk : RiskManager τ smaPeriod)
    (inPosition : Bool) (s : BacktestState τ smaPeriod) (bar : Bar τ ℚ) : BacktestState τ smaPeriod :=
  if s.portfolioState.halted then s
  else
    match (evaluate s.window s.barsInTrade inPosition).filter (·.action ≠ .hold) with
    | none => s
    | some signal =>
      let (orders, portfolioState) := route risk (some signal) s.window (getAccount s.broker)
        (getPositions s.broker) s.portfolioState
      if portfolioState.halted then
        let broker := s.broker.closeAllPositions bar.close
        { s with broker, portfolioState, prevEquity := (getAccount broker).equity, barsInTrade := 0 }
      else if orders = [] then { s with portfolioState }
      else { s with portfolioState, pendingOrders := orders }

def mark (s : BacktestState τ smaPeriod) (bar : Bar τ ℚ) : BacktestState τ smaPeriod :=
  let broker := s.broker.markEquity bar.close
  { s with broker, equityCurve := s.equityCurve ++ [broker.equity] }

/-- What the two loops read beside the bars. -/
structure LoopConfig (τ : Type) (smaPeriod : ℕ) where
  risk : RiskManager τ smaPeriod
  upper : String → String
  symbol : String
  /-- `datetime.now`, which a fill is stamped with. -/
  now : String

variable [LinearOrder τ]

/-- One pass of the loop. -/
def backtestBar (c : LoopConfig τ smaPeriod) (evaluate : Window τ smaPeriod → ℤ → Bool → Option Signal)
    (s : BacktestState τ smaPeriod) (bar : Bar τ ℚ) : BacktestState τ smaPeriod :=
  let s := settle c.now s bar
  let inPosition := (matchPosition c.upper c.symbol (getPositions s.broker)).isSome
  let s :=
    { s with
      barsInTrade := if inPosition then s.barsInTrade + 1 else 0
      window := (s.window.append bar).2 }
  if s.window.isReady smaPeriod then mark (act evaluate c.risk inPosition s bar) bar
  else mark s bar

/-- The filters of `run_mean_reversion_backtest`; a date is the first ten characters of a stamp. -/
def meanReversionSignal (evaluateLive : EvaluateLive τ smaPeriod) (allowedLongDates : Option (List String))
    (allowShort : Bool) (window : Window τ smaPeriod) (barsInTrade : ℤ) (inPosition : Bool) :
    Option Signal :=
  (evaluateLive window (some (barsInTrade, inPosition))).filter fun signal =>
    !(decide (signal.action = .long) && allowedLongDates.any fun dates =>
        decide (String.ofList (signal.timestamp.toList.take 10) ∉ dates)) &&
      !(decide (signal.action = .short) && !allowShort)

/-- The default of `SimulatedBroker`, which both loops keep. -/
def initialEquity : ℚ := 100000

def startBroker (slippagePct : ℚ) : SimulatedBroker := .new initialEquity slippagePct 0

def startState (slippagePct : ℚ) : BacktestState τ smaPeriod :=
  let broker := startBroker slippagePct
  { broker, window := .new (by omega), portfolioState := { peakEquity := broker.equity }
    equityCurve := [broker.equity], prevEquity := broker.equity }

structure BacktestResult where
  totalReturn : ℚ
  sharpe : ℚ × SignType
  maxDrawdown : ℚ
  winRate : ℚ
  totalTrades : ℕ
  /-- `none` for infinity. -/
  profitFactor : Option ℚ
  equityCurve : List ℚ

def backtestResult (s : BacktestState τ smaPeriod) : BacktestResult :=
  let first := s.equityCurve.headD 0
  let wins := s.tradePnls.filter (0 < ·)
  let losses := s.tradePnls.filter (· < 0)
  let grossLoss := |losses.sum|
  { totalReturn := (s.equityCurve.getLastD 0 - first) / first
    sharpe := sharpeRatio (curveReturns s.equityCurve)
    maxDrawdown := Backtest.maxDrawdown s.equityCurve
    winRate := if s.tradePnls = [] then 0 else wins.length / s.tradePnls.length
    totalTrades := s.broker.fills.length
    profitFactor := if 0 < grossLoss then some (wins.sum / grossLoss) else none
    equityCurve := s.equityCurve }

/-- The loop, over the rows of `sorted_bars`. -/
def backtestLoop (c : LoopConfig τ smaPeriod) (evaluate : Window τ smaPeriod → ℤ → Bool → Option Signal)
    (slippagePct : ℚ) (bars : List (Bar τ ℚ)) : BacktestState τ smaPeriod :=
  run (backtestBar c evaluate) (startState slippagePct) bars

def runMeanReversionBacktest (c : LoopConfig τ smaPeriod) (evaluateLive : EvaluateLive τ smaPeriod)
    (allowedLongDates : Option (List String)) (allowShort : Bool) (slippagePct : ℚ)
    (bars : List (Bar τ ℚ)) : BacktestResult :=
  backtestResult (backtestLoop c (meanReversionSignal evaluateLive allowedLongDates allowShort)
    slippagePct bars)

/-- The module of the strategy chooses the loop. -/
def runBacktestOnBars (c : LoopConfig τ smaPeriod) (strategyModule : String) (longOnly : Bool)
    (evaluateLive : EvaluateLive τ smaPeriod) (slippagePct : ℚ) (bars : List (Bar τ ℚ)) :
    Except String BacktestResult :=
  if bars = [] then .error "No bars provided for backtest"
  else if "mean_reversion_".toList.isPrefixOf strategyModule.toList then
    .ok (runMeanReversionBacktest c evaluateLive none (!longOnly) slippagePct bars)
  else .ok (backtestResult (backtestLoop c (fun window _ _ => evaluateLive window none) slippagePct bars))

/-! ## Where a fill comes from -/

/-- The window after the bars, those out of order dropped. -/
def windowAfter (bars : List (Bar τ ℚ)) : Window τ smaPeriod :=
  run (fun w bar => (w.append bar).2) (.new (by omega)) bars

/-- The order was sized for a signal that the window gives, while the run was not halted. -/
def SizedOn (c : LoopConfig τ smaPeriod) (evaluate : Window τ smaPeriod → ℤ → Bool → Option Signal)
    (window : Window τ smaPeriod) (order : Order) : Prop :=
  window.isReady smaPeriod ∧
    ∃ signal barsInTrade inPosition account positions portfolioState,
      evaluate window barsInTrade inPosition = some signal ∧ signal.action ≠ .hold ∧
      portfolioState.halted = false ∧
      order ∈ c.risk.sizeOrder signal window account positions portfolioState

/-- The fill was made at the open of a bar, of an order sized at the close of the bar before. -/
def FilledNextOpen (c : LoopConfig τ smaPeriod)
    (evaluate : Window τ smaPeriod → ℤ → Bool → Option Signal) (slippagePct : ℚ)
    (bars : List (Bar τ ℚ)) (fill : OrderResult) : Prop :=
  ∃ before bar after order, bars = before ++ bar :: after ∧ max 1 smaPeriod ≤ before.length ∧
    SizedOn c evaluate (windowAfter before) order ∧ 0 < bar.openPrice ∧
    FillOf (startBroker slippagePct) bar.openPrice order fill

theorem length_windowAfter (bars : List (Bar τ ℚ)) :
    (windowAfter bars : Window τ smaPeriod).cursor.count ≤ bars.length := by
  induction bars using List.reverseRecOn with
  | nil => exact le_rfl
  | append_singleton bars bar ih =>
    rw [windowAfter, run_append, List.length_append, run_cons, run_nil, RollingWindow.append]
    split
    · exact ih.trans (Nat.le_add_right _ _)
    · exact (min_le_left _ _).trans (Nat.add_le_add_right ih 1)

theorem FilledNextOpen.append {c : LoopConfig τ smaPeriod}
    {evaluate : Window τ smaPeriod → ℤ → Bool → Option Signal} {slippagePct : ℚ}
    {bars : List (Bar τ ℚ)} {fill : OrderResult}
    (h : FilledNextOpen c evaluate slippagePct bars fill) (bar : Bar τ ℚ) :
    FilledNextOpen c evaluate slippagePct (bars ++ [bar]) fill := by
  obtain ⟨before, b, after, order, rfl, h⟩ := h
  exact ⟨before, b, after ++ [bar], order, by simp, h⟩

/-- What every bar keeps. -/
structure Accounted (c : LoopConfig τ smaPeriod)
    (evaluate : Window τ smaPeriod → ℤ → Bool → Option Signal) (slippagePct : ℚ)
    (bars : List (Bar τ ℚ)) (s : BacktestState τ smaPeriod) : Prop where
  window : s.window = windowAfter bars
  held : WellHeld s.broker
  slip : s.broker.slippagePct = slippagePct
  fee : s.broker.takerFeePct = 0
  fills : ∀ fill ∈ s.broker.fills, FilledNextOpen c evaluate slippagePct bars fill
  pending : ∀ order ∈ s.pendingOrders, bars ≠ [] ∧ SizedOn c evaluate s.window order
  trading : s.portfolioState.halted = false →
    Ledger initialEquity s.broker ∧ s.tradePnls.sum = s.prevEquity - initialEquity
  halted : s.portfolioState.halted = true → Flat s.broker ∧ s.pendingOrders = []

variable {c : LoopConfig τ smaPeriod} {evaluate : Window τ smaPeriod → ℤ → Bool → Option Signal}
  {slippagePct : ℚ} {bars : List (Bar τ ℚ)} {s : BacktestState τ smaPeriod}

theorem accounted_start : Accounted c evaluate slippagePct [] (startState slippagePct) where
  window := rfl
  held := fun _ _ h => nomatch h
  slip := rfl
  fee := rfl
  fills := fun _ h => nomatch h
  pending := fun _ h => nomatch h
  trading := fun _ => ⟨⟨(sub_zero initialEquity).symm, fun _ => rfl⟩, (sub_self initialEquity).symm⟩
  halted := fun h => nomatch h

omit [LinearOrder τ] in
theorem settle_pending (now : String) (s : BacktestState τ smaPeriod) (bar : Bar τ ℚ) :
    (settle now s bar).pendingOrders = [] ∧ (settle now s bar).window = s.window ∧
      (settle now s bar).portfolioState = s.portfolioState ∧
      (settle now s bar).equityCurve = s.equityCurve := by
  unfold settle
  split
  · exact ⟨‹_›, rfl, rfl, rfl⟩
  · dsimp only
    split <;> exact ⟨rfl, rfl, rfl, rfl⟩

/-- What was pending fills at the open, or is gone. -/
theorem Accounted.settle (h : Accounted c evaluate slippagePct bars s) (bar : Bar τ ℚ) :
    Accounted c evaluate slippagePct (bars ++ [bar])
      { settle c.now s bar with window := windowAfter (bars ++ [bar]) } := by
  have hold : ∀ fill ∈ s.broker.fills, FilledNextOpen c evaluate slippagePct (bars ++ [bar]) fill :=
    fun fill hfill => (h.fills fill hfill).append bar
  have hready : ∀ order ∈ s.pendingOrders, max 1 smaPeriod ≤ bars.length := by
    intro order horder
    obtain ⟨hne, hready, -⟩ := h.pending order horder
    rw [h.window, RollingWindow.isReady, decide_eq_true_iff] at hready
    have hlen : (windowAfter bars : Window τ smaPeriod).cursor.count ≤ bars.length :=
      length_windowAfter bars
    exact max_le (List.length_pos_iff.mpr hne) (by omega)
  obtain ⟨hfills, hslip, hfee, hnew⟩ :=
    submitOrders_fills s.broker s.pendingOrders bar.openPrice c.now h.held
  obtain ⟨hheld, hledger⟩ :=
    submitOrders_keeps initialEquity s.pendingOrders bar.openPrice c.now h.held
  have hprice : s.broker.fillPrice = (startBroker slippagePct).fillPrice :=
    fillPrice_congr h.slip h.fee
  have hall : ∀ fill ∈ (s.broker.submitOrders s.pendingOrders bar.openPrice c.now).2.fills,
      FilledNextOpen c evaluate slippagePct (bars ++ [bar]) fill := by
    intro fill hfill
    rw [hfills] at hfill
    rcases List.mem_append.mp hfill with hfill | hfill
    · exact hold fill hfill
    · obtain ⟨hopen, order, horder, hof⟩ := hnew fill hfill
      have hsized := (h.pending order horder).2
      rw [h.window] at hsized
      exact ⟨bars, bar, [], order, rfl, hready order horder, hsized, hopen,
        { hof with filledPrice := hprice ▸ hof.filledPrice }⟩
  unfold WalkForward.settle
  split
  · rename_i hnone
    exact ⟨rfl, h.held, h.slip, h.fee, hold, by simp [hnone], h.trading, h.halted⟩
  rename_i hsome
  have htrading : s.portfolioState.halted = false := by
    by_contra hhalted
    exact hsome (h.halted (by simpa using hhalted)).2
  obtain ⟨hbooks, hsum⟩ := h.trading htrading
  have hnever : s.portfolioState.halted ≠ true := by simp [htrading]
  dsimp only
  split
  · exact ⟨rfl, hheld, hslip.trans h.slip, hfee.trans h.fee, hall, by simp,
      fun _ => ⟨hledger hbooks, hsum⟩, fun hhalted => absurd hhalted hnever⟩
  · refine ⟨rfl, hheld, hslip.trans h.slip, hfee.trans h.fee, hall, by simp,
      fun _ => ⟨hledger hbooks, ?_⟩, fun hhalted => absurd hhalted hnever⟩
    rw [List.sum_append, hsum, List.sum_singleton]
    ring

theorem Accounted.mark (h : Accounted c evaluate slippagePct bars s) (bar : Bar τ ℚ) :
    Accounted c evaluate slippagePct bars (mark s bar) :=
  ⟨h.window, h.held, h.slip, h.fee, h.fills, h.pending,
    fun htrading => ⟨⟨(h.trading htrading).1.cash, (h.trading htrading).1.positions⟩,
      (h.trading htrading).2⟩, h.halted⟩

theorem closeAllPositions_held {b : SimulatedBroker} (hheld : WellHeld b) (markPrice : ℚ) :
    WellHeld (b.closeAllPositions markPrice) ∧ Flat (b.closeAllPositions markPrice) ∧
      (b.closeAllPositions markPrice).slippagePct = b.slippagePct ∧
      (b.closeAllPositions markPrice).takerFeePct = b.takerFeePct := by
  obtain ⟨-, hnone⟩ := closeAllPositions_spec hheld markPrice
  refine ⟨fun s pos hpos => ?_, ?_, ?_⟩
  · rw [hnone] at hpos
    cases hpos
  · by_contra hflat
    obtain ⟨p, hp⟩ := List.exists_mem_of_ne_nil _ hflat
    have hpos := (Dict.get?_eq_some _).mpr hp
    rw [hnone] at hpos
    cases hpos
  · have hclose : ∀ (held : List (String × Position)) (b : SimulatedBroker),
        (held.foldl (closeHeld markPrice) b).slippagePct = b.slippagePct ∧
          (held.foldl (closeHeld markPrice) b).takerFeePct = b.takerFeePct := by
      intro held
      induction held with
      | nil => exact fun _ => ⟨rfl, rfl⟩
      | cons p rest ih =>
        intro b
        obtain ⟨hslip, hfee⟩ := ih (closeHeld markPrice b p)
        have hone : (closeHeld markPrice b p).slippagePct = b.slippagePct ∧
            (closeHeld markPrice b p).takerFeePct = b.takerFeePct := by
          unfold closeHeld
          cases p.2.side with
          | long =>
            have h := closePosition_routes b .long p.1 p.2.qty (b.fillPrice .sell markPrice)
            exact ⟨h.slippagePct, h.takerFeePct⟩
          | short =>
            have h := closePosition_routes b .short p.1 p.2.qty (b.fillPrice .buy markPrice)
            exact ⟨h.slippagePct, h.takerFeePct⟩
        exact ⟨hslip.trans hone.1, hfee.trans hone.2⟩
    unfold closeAllPositions
    split
    · exact ⟨rfl, rfl⟩
    · exact hclose b.positions.items b

/-- A signal is routed only when nothing is pending; a breaker that trips leaves nothing. -/
theorem Accounted.act (h : Accounted c evaluate slippagePct bars s) (hbars : bars ≠ [])
    (hnone : s.pendingOrders = []) (hready : s.window.isReady smaPeriod) (inPosition : Bool)
    (bar : Bar τ ℚ) :
    Accounted c evaluate slippagePct bars (act evaluate c.risk inPosition s bar) := by
  unfold WalkForward.act
  split
  · exact h
  rename_i htrading
  have htrading : s.portfolioState.halted = false := by simpa using htrading
  obtain ⟨hbooks, hsum⟩ := h.trading htrading
  cases hsignal : (evaluate s.window s.barsInTrade inPosition).filter (·.action ≠ .hold) with
  | none => exact h
  | some signal =>
    obtain ⟨hevaluate, haction⟩ := Option.filter_eq_some_iff.mp hsignal
    dsimp only [route]
    generalize c.risk.checkDrawdownBreaker (getAccount s.broker) s.portfolioState = updated
    by_cases hhalted : updated.halted = true
    · obtain ⟨hheld, hflat, hslip, hfee⟩ := closeAllPositions_held h.held bar.close
      obtain ⟨hfills, -⟩ := closeAllPositions_spec h.held bar.close
      simp only [hhalted, if_true]
      refine ⟨h.window, hheld, hslip.trans h.slip, hfee.trans h.fee, ?_, h.pending,
        fun htrading => ?_, fun _ => ⟨hflat, hnone⟩⟩
      · exact fun fill hfill => h.fills fill (hfills ▸ hfill)
      · cases hhalted.symm.trans htrading
    · simp only [hhalted, if_false, Bool.false_eq_true]
      split
      · exact ⟨h.window, h.held, h.slip, h.fee, h.fills, h.pending, fun _ => ⟨hbooks, hsum⟩,
          fun hnow => absurd hnow hhalted⟩
      · refine ⟨h.window, h.held, h.slip, h.fee, h.fills, fun order horder => ⟨hbars, hready, ?_⟩,
          fun _ => ⟨hbooks, hsum⟩, fun hnow => absurd hnow hhalted⟩
        exact ⟨signal, s.barsInTrade, inPosition, getAccount s.broker, getPositions s.broker,
          updated, hevaluate, by simpa using haction, by simpa using hhalted, horder⟩

theorem Accounted.step (h : Accounted c evaluate slippagePct bars s) (bar : Bar τ ℚ) :
    Accounted c evaluate slippagePct (bars ++ [bar]) (backtestBar c evaluate s bar) := by
  obtain ⟨hnone, hwindow, -⟩ := settle_pending c.now s bar
  have hsettled := h.settle bar
  have happend : ((WalkForward.settle c.now s bar).window.append bar).2 =
      windowAfter (bars ++ [bar]) := by
    rw [hwindow, h.window, windowAfter, windowAfter, run_append, run_cons, run_nil]
  have hopened : ∀ barsInTrade, Accounted c evaluate slippagePct (bars ++ [bar])
      { WalkForward.settle c.now s bar with
        barsInTrade, window := ((WalkForward.settle c.now s bar).window.append bar).2 } := by
    intro barsInTrade
    rw [happend]
    exact ⟨rfl, hsettled.held, hsettled.slip, hsettled.fee, hsettled.fills, hsettled.pending,
      hsettled.trading, hsettled.halted⟩
  unfold backtestBar
  dsimp only
  split
  · rename_i hready
    exact ((hopened _).act (by simp) hnone hready _ bar).mark bar
  · exact (hopened _).mark bar

theorem accounted (c : LoopConfig τ smaPeriod) (evaluate : Window τ smaPeriod → ℤ → Bool → Option Signal)
    (slippagePct : ℚ) (bars : List (Bar τ ℚ)) :
    Accounted c evaluate slippagePct bars (backtestLoop c evaluate slippagePct bars) := by
  induction bars using List.reverseRecOn with
  | nil => exact accounted_start
  | append_singleton bars bar ih =>
    rw [backtestLoop, run_append]
    exact ih.step bar

/-! ## The curve -/

omit [LinearOrder τ] in
theorem act_curve (evaluate : Window τ smaPeriod → ℤ → Bool → Option Signal)
    (risk : RiskManager τ smaPeriod) (inPosition : Bool) (s : BacktestState τ smaPeriod)
    (bar : Bar τ ℚ) : (act evaluate risk inPosition s bar).equityCurve = s.equityCurve := by
  unfold act
  split
  · rfl
  split
  · rfl
  dsimp only
  split
  · rfl
  split <;> rfl

/-- Every bar adds the equity at its close. -/
theorem backtestBar_curve (c : LoopConfig τ smaPeriod)
    (evaluate : Window τ smaPeriod → ℤ → Bool → Option Signal) (s : BacktestState τ smaPeriod)
    (bar : Bar τ ℚ) :
    (backtestBar c evaluate s bar).equityCurve =
        s.equityCurve ++ [(backtestBar c evaluate s bar).broker.equity] ∧
      (backtestBar c evaluate s bar).broker.equity =
        ((backtestBar c evaluate s bar).broker.markEquity bar.close).equity := by
  have hcurve := (settle_pending c.now s bar).2.2.2
  unfold backtestBar mark
  dsimp only
  split
  · refine ⟨?_, rfl⟩
    dsimp only
    rw [act_curve]
    exact congrArg (· ++ _) hcurve
  · exact ⟨congrArg (· ++ _) hcurve, rfl⟩

/-- A halted run only repeats its cash. -/
theorem backtestBar_halted {s : BacktestState τ smaPeriod} (hhalted : s.portfolioState.halted = true)
    (hflat : Flat s.broker) (hnone : s.pendingOrders = []) (bar : Bar τ ℚ) :
    backtestBar c evaluate s bar =
      { s with
        broker := { s.broker with equity := s.broker.cash }
        window := (s.window.append bar).2
        equityCurve := s.equityCurve ++ [s.broker.cash]
        barsInTrade := 0 } := by
  have hsettle : WalkForward.settle c.now s bar = s := if_pos hnone
  have hnowhere : (matchPosition c.upper c.symbol (getPositions s.broker)).isSome = false := by
    have hpositions : getPositions s.broker = [] := congrArg (List.map Prod.snd) hflat
    rw [hpositions]
    rfl
  have hmark : s.broker.markEquity bar.close = { s.broker with equity := s.broker.cash } := by
    have hitems : s.broker.positions.items = [] := hflat
    simp [SimulatedBroker.markEquity, hitems]
  have hact : WalkForward.act evaluate c.risk false
      { s with barsInTrade := 0, window := (s.window.append bar).2 } bar =
      { s with barsInTrade := 0, window := (s.window.append bar).2 } := if_pos hhalted
  unfold backtestBar
  rw [hsettle]
  simp only [hnowhere, Bool.false_eq_true, if_false]
  rw [hact, ite_self]
  unfold mark
  rw [hmark]

theorem run_halted {s : BacktestState τ smaPeriod} (hhalted : s.portfolioState.halted = true)
    (hflat : Flat s.broker) (hnone : s.pendingOrders = []) (later : List (Bar τ ℚ)) :
    (run (backtestBar c evaluate) s later).broker.fills = s.broker.fills ∧
      (run (backtestBar c evaluate) s later).tradePnls = s.tradePnls ∧
      (run (backtestBar c evaluate) s later).equityCurve =
        s.equityCurve ++ List.replicate later.length s.broker.cash := by
  induction later generalizing s with
  | nil => exact ⟨rfl, rfl, (List.append_nil _).symm⟩
  | cons bar later ih =>
    obtain ⟨hfills, hpnls, hcurve⟩ := ih (s := backtestBar c evaluate s bar)
      (by rw [backtestBar_halted hhalted hflat hnone]; exact hhalted)
      (by rw [backtestBar_halted hhalted hflat hnone]; exact hflat)
      (by rw [backtestBar_halted hhalted hflat hnone]; exact hnone)
    rw [run_cons]
    refine ⟨hfills.trans ?_, hpnls.trans ?_, hcurve.trans ?_⟩
    · rw [backtestBar_halted hhalted hflat hnone]
    · rw [backtestBar_halted hhalted hflat hnone]
    · rw [backtestBar_halted hhalted hflat hnone, List.length_cons, List.replicate_succ]
      exact List.append_assoc ..

/-- **A backtest only trades on what it had seen**, and its books add up: every fill is of an
order sized on the window of the bar before, at the next open; until the breaker halts the run the
equity is what the fills won and lost and the trades sum to the equity of the last of them; from
then on nothing is filled and the curve stays at the cash. -/
theorem backtest_accounts (c : LoopConfig τ smaPeriod)
    (evaluate : Window τ smaPeriod → ℤ → Bool → Option Signal) (slippagePct : ℚ)
    (bars : List (Bar τ ℚ)) :
    (∀ fill ∈ (backtestLoop c evaluate slippagePct bars).broker.fills,
        FilledNextOpen c evaluate slippagePct bars fill) ∧
      (backtestLoop c evaluate slippagePct bars).equityCurve.length = bars.length + 1 ∧
      ((backtestLoop c evaluate slippagePct bars).portfolioState.halted = false →
        (backtestLoop c evaluate slippagePct bars).tradePnls.sum =
            (backtestLoop c evaluate slippagePct bars).prevEquity - initialEquity ∧
          (backtestLoop c evaluate slippagePct bars).equityCurve.getLast? =
            some (initialEquity + (bars.getLast?.elim 0 fun bar =>
              ((backtestLoop c evaluate slippagePct bars).broker.fills.map fun fill =>
                signedFill fill * (bar.close - fill.filledPrice)).sum))) ∧
      ((backtestLoop c evaluate slippagePct bars).portfolioState.halted = true → ∀ later,
        (backtestLoop c evaluate slippagePct (bars ++ later)).broker.fills =
            (backtestLoop c evaluate slippagePct bars).broker.fills ∧
          (backtestLoop c evaluate slippagePct (bars ++ later)).tradePnls =
            (backtestLoop c evaluate slippagePct bars).tradePnls ∧
          (backtestLoop c evaluate slippagePct (bars ++ later)).equityCurve =
            (backtestLoop c evaluate slippagePct bars).equityCurve ++
              List.replicate later.length (backtestLoop c evaluate slippagePct bars).broker.cash) := by
  have h := accounted c evaluate slippagePct bars
  refine ⟨h.fills, ?_, fun htrading => ⟨(h.trading htrading).2, ?_⟩, fun hhalted later => ?_⟩
  · clear h
    induction bars using List.reverseRecOn with
    | nil => rfl
    | append_singleton bars bar ih =>
      rw [backtestLoop, run_append, run_cons, run_nil, (backtestBar_curve c evaluate _ bar).1,
        List.length_append, List.length_append]
      exact congrArg (· + 1) ih
  · have hbooks := (h.trading htrading).1
    clear h htrading
    cases bars using List.reverseRecOn with
    | nil => exact congrArg some (add_zero initialEquity).symm
    | append_singleton bars bar =>
      rw [backtestLoop, run_append, run_cons, run_nil] at hbooks ⊢
      obtain ⟨hcurve, hequity⟩ := backtestBar_curve c evaluate
        (run (backtestBar c evaluate) (startState slippagePct) bars) bar
      rw [hcurve, List.getLast?_concat, List.getLast?_concat, hequity, hbooks.markEquity]
      rfl
  · obtain ⟨hflat, hnone⟩ := h.halted hhalted
    rw [backtestLoop, backtestLoop, run_append]
    exact run_halted hhalted hflat hnone later

end Model

end TradingPlatform.Backtest.WalkForward
