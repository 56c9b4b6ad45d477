import TradingPlatform.Models
import Mathlib.Algebra.Order.Field.Rat

/-! # The sweep kernels

Two copies of one bar loop: `simulate_mr_slice` reads one z-score series,
`simulate_mr_slice_decoupled` one for each side. A bar fills what is pending, debits a
short, counts the bar, liquidates a short below its margin, decides and measures. -/

namespace TradingPlatform.Backtest

def tradingDaysPerYear : ℚ := 252

/-- The arrays, by index. -/
structure SliceSeries where
  opens : ℤ → ℚ
  closes : ℤ → ℚ
  regimeMask : ℤ → ℤ
  atr : ℤ → ℚ
  sessionBoundary : ℤ → ℤ
  dividendPerShare : ℤ → ℚ

structure SliceParams where
  longTh : ℚ
  shortTh : ℚ
  exitSigma : ℚ
  maxBars : ℤ
  slippagePct : ℚ
  maxRiskPct : ℚ
  maxPosPct : ℚ
  initialEquity : ℚ
  shortBorrowFeeAnnual : ℚ
  shortSizeMultiplier : ℚ
  shortMarginInitial : ℚ
  shortMarginMaint : ℚ
  liquidationSlipMultiplier : ℚ
  first : ℤ
  last : ℤ

structure SliceMetrics where
  totalReturn : ℚ := 0
  sharpe : ℚ := 0
  maxDrawdown : ℚ := 0
  trades : ℤ := 0
  profitFactor : ℚ := 0
  deriving DecidableEq

structure DecoupledMetrics extends SliceMetrics where
  tradesLong : ℤ := 0
  tradesShort : ℤ := 0
  deriving DecidableEq

/-! ## What both kernels call -/

def sizeShares (equity cash atrVal price maxRiskPct maxPosPct : ℚ) : ℤ :=
  if atrVal ≤ 0 ∨ price ≤ 0 ∨ equity ≤ 0 then 0
  else
    let shares :=
      min (min (equity * maxRiskPct / atrVal) (cash / price)) (equity * maxPosPct / price)
    if shares < 1 then 0 else truncate shares

def sizeSharesShort (equity atrVal price maxRiskPct maxPosPct initialMarginPct
    shortSizeMultiplier : ℚ) : ℤ :=
  if atrVal ≤ 0 ∨ price ≤ 0 ∨ equity ≤ 0 ∨ initialMarginPct ≤ 0 then 0
  else
    let shares := min (min (equity * maxRiskPct / atrVal) (equity * maxPosPct / price))
      (equity / (price * initialMarginPct)) * shortSizeMultiplier
    if shares < 1 then 0 else truncate shares

def markEquity (cash positionQty markPrice : ℚ) : ℚ := cash + positionQty * markPrice

def applyBorrowFee (cash positionQty markNotionalPrice borrowFeeAnnual : ℚ) : ℚ :=
  if 0 ≤ positionQty then cash
  else cash - |positionQty| * markNotionalPrice * (borrowFeeAnnual / tradingDaysPerYear)

structure Cover where
  cash : ℚ
  positionQty : ℚ := 0
  entryCost : ℚ := 0
  win : ℚ
  loss : ℚ
  fills : ℤ := 1

def coverShort (cash positionQty entryCost fillRaw slippagePct slipMultiplier : ℚ) : Cover :=
  let slip := fillRaw * slippagePct * slipMultiplier
  let coverCost := (fillRaw + slip) * |positionQty|
  let pnl := entryCost - coverCost
  { cash := cash - coverCost
    win := if 0 < pnl then pnl else 0
    loss := if 0 < pnl then 0 else if pnl < 0 then -pnl else 0 }

/-- The locals of `simulate_mr_slice`; no pending action is a hold. -/
structure SliceState where
  cash : ℚ
  positionQty : ℚ := 0
  barsInTrade : ℤ := 0
  pendingAction : SignalAction := .hold
  nFills : ℤ := 0
  grossWin : ℚ := 0
  grossLoss : ℚ := 0
  entryCost : ℚ := 0
  liquidated : Bool := false
  peak : ℚ
  maxDd : ℚ := 0
  retSum : ℚ := 0
  retSqSum : ℚ := 0
  retCount : ℤ := 0
  prevEquity : ℚ
  deriving DecidableEq

/-- Those of `simulate_mr_slice_decoupled`. -/
structure DecoupledState extends SliceState where
  nFillsLong : ℤ := 0
  nFillsShort : ℤ := 0
  deriving DecidableEq

section Kernels
variable (sqrt : ℚ → ℚ) (annualize : ℚ) (b : SliceSeries) (p : SliceParams)

/-! ## `simulate_mr_slice` -/

namespace Coupled

def fillPending (s : SliceState) (localI : ℕ) : SliceState :=
  if 0 < localI ∧ s.pendingAction ≠ .hold then
    let i := p.first + localI
    let fillRaw := b.opens i
    let slip := fillRaw * p.slippagePct
    let filled : SliceState :=
      if s.pendingAction = .long ∧ s.positionQty = 0 then
        let price := fillRaw + slip
        let markEq := markEquity s.cash s.positionQty (b.closes (i - 1))
        let qty := sizeShares markEq s.cash (b.atr (i - 1)) price p.maxRiskPct p.maxPosPct
        if 0 < qty then
          { s with
            cash := s.cash - price * qty, positionQty := qty, entryCost := price * qty
            nFills := s.nFills + 1 }
        else s
      else if s.pendingAction = .short ∧ s.positionQty = 0 then
        let price := fillRaw - slip
        let markEq := markEquity s.cash s.positionQty (b.closes (i - 1))
        let qty := sizeSharesShort markEq (b.atr (i - 1)) price p.maxRiskPct p.maxPosPct
          p.shortMarginInitial p.shortSizeMultiplier
        if 0 < qty then
          { s with
            cash := s.cash + price * qty, positionQty := -qty, entryCost := price * qty
            nFills := s.nFills + 1 }
        else s
      else if s.pendingAction = .exit then
        if 0 < s.positionQty then
          let price := fillRaw - slip
          let proceeds := price * s.positionQty
          let pnl := proceeds - s.entryCost
          { s with
            grossWin := if 0 < pnl then s.grossWin + pnl else s.grossWin
            grossLoss := if 0 < pnl then s.grossLoss
              else if pnl < 0 then s.grossLoss - pnl else s.grossLoss
            cash := s.cash + proceeds, positionQty := 0, entryCost := 0, nFills := s.nFills + 1 }
        else if s.positionQty < 0 then
          let cover := coverShort s.cash s.positionQty s.entryCost fillRaw p.slippagePct 1
          { s with
            cash := cover.cash, positionQty := cover.positionQty, entryCost := cover.entryCost
            grossWin := s.grossWin + cover.win, grossLoss := s.grossLoss + cover.loss
            nFills := s.nFills + cover.fills }
        else s
      else s
    { filled with pendingAction := .hold }
  else s

def debitShort (s : SliceState) (localI : ℕ) : SliceState :=
  let i := p.first + localI
  let s :=
    if 0 < localI ∧ b.sessionBoundary i = 1 ∧ s.positionQty < 0 then
      { s with
        cash := applyBorrowFee s.cash s.positionQty (b.closes (i - 1)) p.shortBorrowFeeAnnual }
    else s
  if s.positionQty < 0 ∧ 0 < b.dividendPerShare i then
    { s with cash := s.cash - |s.positionQty| * b.dividendPerShare i }
  else s

def countBar (s : SliceState) : SliceState :=
  { s with barsInTrade := if s.positionQty ≠ 0 then s.barsInTrade + 1 else 0 }

/-- The equity at the close, once a short below its margin is covered. -/
def liquidate (s : SliceState) (localI : ℕ) : ℚ × SliceState :=
  let i := p.first + localI
  let equity := markEquity s.cash s.positionQty (b.closes i)
  if s.positionQty < 0 ∧ equity < |s.positionQty| * b.closes i * p.shortMarginMaint then
    let cover := coverShort s.cash s.positionQty s.entryCost (b.closes i) p.slippagePct
      p.liquidationSlipMultiplier
    (markEquity cover.cash cover.positionQty (b.closes i),
      { s with
        cash := cover.cash, positionQty := cover.positionQty, entryCost := cover.entryCost
        grossWin := s.grossWin + cover.win, grossLoss := s.grossLoss + cover.loss
        nFills := s.nFills + cover.fills, barsInTrade := 0, liquidated := true })
  else (equity, s)

def signal (zScores : ℤ → ℚ) (smaPeriod : ℤ) (s : SliceState) (localI : ℕ) : SliceState :=
  if smaPeriod - 1 ≤ localI ∧ s.pendingAction = .hold ∧ s.liquidated = false then
    if s.positionQty ≠ 0 ∧ p.maxBars ≤ s.barsInTrade then { s with pendingAction := .exit }
    else
      let i := p.first + localI
      let z := zScores i
      if s.positionQty = 0 ∧ z < -p.longTh ∧ b.regimeMask i = 1 then
        { s with pendingAction := .long }
      else if s.positionQty = 0 ∧ p.shortTh < z then { s with pendingAction := .short }
      else if s.positionQty ≠ 0 ∧ |z| < p.exitSigma then { s with pendingAction := .exit }
      else s
  else s

def measure (equity : ℚ) (s : SliceState) (localI : ℕ) : SliceState :=
  let peak := if s.peak < equity then equity else s.peak
  let dd := (peak - equity) / peak
  let r := (equity - s.prevEquity) / s.prevEquity
  let counted := 0 < localI ∧ 0 < s.prevEquity
  { s with
    peak
    maxDd := if 0 < peak ∧ s.maxDd < dd then dd else s.maxDd
    retSum := if counted then s.retSum + r else s.retSum
    retSqSum := if counted then s.retSqSum + r * r else s.retSqSum
    retCount := if counted then s.retCount + 1 else s.retCount
    prevEquity := equity }

def bar (zScores : ℤ → ℚ) (smaPeriod : ℤ) (s : SliceState) (localI : ℕ) : SliceState :=
  let s := fillPending b p { s with liquidated := false } localI
  let s := countBar (debitShort b p s localI)
  let (equity, s) := liquidate b p s localI
  measure equity (signal b p zScores smaPeriod s localI) localI

def start : SliceState :=
  { cash := p.initialEquity, peak := p.initialEquity, prevEquity := p.initialEquity }

def summary (s : SliceState) : SliceMetrics :=
  let equityEnd := markEquity s.cash s.positionQty (b.closes (p.last - 1))
  let mean := s.retSum / s.retCount
  let var := max (s.retSqSum / s.retCount - mean * mean) 0
  { totalReturn :=
      if 0 < p.initialEquity then (equityEnd - p.initialEquity) / p.initialEquity else 0
    sharpe :=
      if 1 < s.retCount then if 0 < sqrt var then mean / sqrt var * annualize else 0 else 0
    maxDrawdown := s.maxDd
    trades := s.nFills
    profitFactor :=
      if 0 < s.grossLoss then s.grossWin / s.grossLoss
      else if 0 < s.grossWin then 1000000000 else 0 }

end Coupled

def simulateMrSlice (zScores : ℤ → ℚ) (smaPeriod : ℤ) : SliceMetrics :=
  let n := p.last - p.first
  if n < smaPeriod + 2 then {}
  else
    Coupled.summary sqrt annualize b p
      ((List.range n.toNat).foldl (Coupled.bar b p zScores smaPeriod) (Coupled.start p))

/-! ## `simulate_mr_slice_decoupled` -/

namespace Decoupled

def fillPending (s : DecoupledState) (localI : ℕ) : DecoupledState :=
  if 0 < localI ∧ s.pendingAction ≠ .hold then
    let i := p.first + localI
    let fillRaw := b.opens i
    let slip := fillRaw * p.slippagePct
    let filled : DecoupledState :=
      if s.pendingAction = .long ∧ s.positionQty = 0 then
        let price := fillRaw + slip
        let markEq := markEquity s.cash s.positionQty (b.closes (i - 1))
        let qty := sizeShares markEq s.cash (b.atr (i - 1)) price p.maxRiskPct p.maxPosPct
        if 0 < qty then
          { s with
            cash := s.cash - price * qty, positionQty := qty, entryCost := price * qty
            nFills := s.nFills + 1, nFillsLong := s.nFillsLong + 1 }
        else s
      else if s.pendingAction = .short ∧ s.positionQty = 0 then
        let price := fillRaw - slip
        let markEq := markEquity s.cash s.positionQty (b.closes (i - 1))
        let qty := sizeSharesShort markEq (b.atr (i - 1)) price p.maxRiskPct p.maxPosPct
          p.shortMarginInitial p.shortSizeMultiplier
        if 0 < qty then
          { s with
            cash := s.cash + price * qty, positionQty := -qty, entryCost := price * qty
            nFills := s.nFills + 1, nFillsShort := s.nFillsShort + 1 }
        else s
      else if s.pendingAction = .exit then
        if 0 < s.positionQty then
          let price := fillRaw - slip
          let proceeds := price * s.positionQty
          let pnl := proceeds - s.entryCost
          { s with
            grossWin := if 0 < pnl then s.grossWin + pnl else s.grossWin
            grossLoss := if 0 < pnl then s.grossLoss
              else if pnl < 0 then s.grossLoss - pnl else s.grossLoss
            cash := s.cash + proceeds, positionQty := 0, entryCost := 0, nFills := s.nFills + 1 }
        else if s.positionQty < 0 then
          let cover := coverShort s.cash s.positionQty s.entryCost fillRaw p.slippagePct 1
          { s with
            cash := cover.cash, positionQty := cover.positionQty, entryCost := cover.entryCost
            grossWin := s.grossWin + cover.win, grossLoss := s.grossLoss + cover.loss
            nFills := s.nFills + cover.fills }
        else s
      else s
    { filled with pendingAction := .hold }
  else s

def debitShort (s : DecoupledState) (localI : ℕ) : DecoupledState :=
  let i := p.first + localI
  let s :=
    if 0 < localI ∧ b.sessionBoundary i = 1 ∧ s.positionQty < 0 then
      { s with
        cash := applyBorrowFee s.cash s.positionQty (b.closes (i - 1)) p.shortBorrowFeeAnnual }
    else s
  if s.positionQty < 0 ∧ 0 < b.dividendPerShare i then
    { s with cash := s.cash - |s.positionQty| * b.dividendPerShare i }
  else s

def countBar (s : DecoupledState) : DecoupledState :=
  { s with barsInTrade := if s.positionQty ≠ 0 then s.barsInTrade + 1 else 0 }

/-- The equity at the close, once a short below its margin is covered. -/
def liquidate (s : DecoupledState) (localI : ℕ) : ℚ × DecoupledState :=
  let i := p.first + localI
  let equity := markEquity s.cash s.positionQty (b.closes i)
  if s.positionQty < 0 ∧ equity < |s.positionQty| * b.closes i * p.shortMarginMaint then
    let cover := coverShort s.cash s.positionQty s.entryCost (b.closes i) p.slippagePct
      p.liquidationSlipMultiplier
    (markEquity cover.cash cover.positionQty (b.closes i),
      { s with
        cash := cover.cash, positionQty := cover.positionQty, entryCost := cover.entryCost
        grossWin := s.grossWin + cover.win, grossLoss := s.grossLoss + cover.loss
        nFills := s.nFills + cover.fills, barsInTrade := 0, liquidated := true })
  else (equity, s)

def signal (zLong zShort : ℤ → ℚ) (warmup : ℤ) (s : DecoupledState) (localI : ℕ) : DecoupledState :=
  if warmup - 1 ≤ localI ∧ s.pendingAction = .hold ∧ s.liquidated = false then
    if s.positionQty ≠ 0 ∧ p.maxBars ≤ s.barsInTrade then { s with pendingAction := .exit }
    else
      let i := p.first + localI
      let zl := zLong i
      let zs := zShort i
      if s.positionQty = 0 ∧ zl < -p.longTh ∧ b.regimeMask i = 1 then
        { s with pendingAction := .long }
      else if s.positionQty = 0 ∧ p.shortTh < zs then { s with pendingAction := .short }
      else if 0 < s.positionQty ∧ |zl| < p.exitSigma then { s with pendingAction := .exit }
      else if s.positionQty < 0 ∧ |zs| < p.exitSigma then { s with pendingAction := .exit }
      else s
  else s

def measure (equity : ℚ) (s : DecoupledState) (localI : ℕ) : DecoupledState :=
  let peak := if s.peak < equity then equity else s.peak
  let dd := (peak - equity) / peak
  let r := (equity - s.prevEquity) / s.prevEquity
  let counted := 0 < localI ∧ 0 < s.prevEquity
  { s with
    peak
    maxDd := if 0 < peak ∧ s.maxDd < dd then dd else s.maxDd
    retSum := if counted then s.retSum + r else s.retSum
    retSqSum := if counted then s.retSqSum + r * r else s.retSqSum
    retCount := if counted then s.retCount + 1 else s.retCount
    prevEquity := equity }

def bar (zLong zShort : ℤ → ℚ) (warmup : ℤ) (s : DecoupledState) (localI : ℕ) : DecoupledState :=
  let s := fillPending b p { s with liquidated := false } localI
  let s := countBar (debitShort b p s localI)
  let (equity, s) := liquidate b p s localI
  measure equity (signal b p zLong zShort warmup s localI) localI

def start : DecoupledState :=
  { cash := p.initialEquity, peak := p.initialEquity, prevEquity := p.initialEquity }

def summary (s : DecoupledState) : DecoupledMetrics :=
  let equityEnd := markEquity s.cash s.positionQty (b.closes (p.last - 1))
  let mean := s.retSum / s.retCount
  let var := max (s.retSqSum / s.retCount - mean * mean) 0
  { totalReturn :=
      if 0 < p.initialEquity then (equityEnd - p.initialEquity) / p.initialEquity else 0
    sharpe :=
      if 1 < s.retCount then if 0 < sqrt var then mean / sqrt var * annualize else 0 else 0
    maxDrawdown := s.maxDd
    trades := s.nFills
    profitFactor :=
      if 0 < s.grossLoss then s.grossWin / s.grossLoss
      else if 0 < s.grossWin then 1000000000 else 0
    tradesLong := s.nFillsLong
    tradesShort := s.nFillsShort }

end Decoupled

def warmupOf (smaPeriodLong smaPeriodShort : ℤ) : ℤ :=
  if smaPeriodLong < smaPeriodShort then smaPeriodShort else smaPeriodLong

def simulateMrSliceDecoupled (zLong zShort : ℤ → ℚ) (smaPeriodLong smaPeriodShort : ℤ) :
    DecoupledMetrics :=
  let n := p.last - p.first
  let warmup := warmupOf smaPeriodLong smaPeriodShort
  if n < warmup + 2 then {}
  else
    Decoupled.summary sqrt annualize b p
      ((List.range n.toNat).foldl (Decoupled.bar b p zLong zShort warmup) (Decoupled.start p))

end Kernels

/-! ## One series for both sides -/

section Coupling
variable (sqrt : ℚ → ℚ) (annualize : ℚ) (b : SliceSeries) (p : SliceParams)

theorem fillPending_toSliceState (s : DecoupledState) (localI : ℕ) :
    (Decoupled.fillPending b p s localI).toSliceState =
      Coupled.fillPending b p s.toSliceState localI := by
  unfold Decoupled.fillPending Coupled.fillPending
  dsimp only
  split_ifs <;> rfl

theorem debitShort_toSliceState (s : DecoupledState) (localI : ℕ) :
    (Decoupled.debitShort b p s localI).toSliceState =
      Coupled.debitShort b p s.toSliceState localI := by
  unfold Decoupled.debitShort Coupled.debitShort
  dsimp only
  split_ifs <;> rfl

theorem liquidate_toSliceState (s : DecoupledState) (localI : ℕ) :
    ((Decoupled.liquidate b p s localI).1, (Decoupled.liquidate b p s localI).2.toSliceState) =
      Coupled.liquidate b p s.toSliceState localI := by
  unfold Decoupled.liquidate Coupled.liquidate
  dsimp only
  split_ifs <;> rfl

/-- The exit test of the position's own side is the coupled one, with one series. -/
theorem signal_toSliceState (z : ℤ → ℚ) (smaPeriod : ℤ) (s : DecoupledState) (localI : ℕ) :
    (Decoupled.signal b p z z smaPeriod s localI).toSliceState =
      Coupled.signal b p z smaPeriod s.toSliceState localI := by
  unfold Decoupled.signal Coupled.signal
  dsimp only
  rcases lt_trichotomy s.positionQty 0 with hshort | hflat | hlong
  · simp only [hshort, hshort.ne, hshort.not_gt, ne_eq, not_false_eq_true, true_and, false_and,
      if_false]
    split_ifs <;> rfl
  · simp only [hflat, lt_irrefl, ne_eq, not_true_eq_false, true_and, false_and, if_false]
    split_ifs <;> rfl
  · simp only [hlong, hlong.ne', hlong.not_gt, ne_eq, not_false_eq_true, true_and, false_and,
      if_false]
    split_ifs <;> rfl

theorem bar_toSliceState (z : ℤ → ℚ) (smaPeriod : ℤ) (s : DecoupledState) (localI : ℕ) :
    (Decoupled.bar b p z z smaPeriod s localI).toSliceState =
      Coupled.bar b p z smaPeriod s.toSliceState localI := by
  have hcounted : (Decoupled.countBar (Decoupled.debitShort b p
      (Decoupled.fillPending b p { s with liquidated := false } localI) localI)).toSliceState =
      Coupled.countBar (Coupled.debitShort b p
        (Coupled.fillPending b p { s.toSliceState with liquidated := false } localI) localI) := by
    rw [← fillPending_toSliceState b p { s with liquidated := false },
      ← debitShort_toSliceState]
    rfl
  have hliquidated := liquidate_toSliceState b p (Decoupled.countBar (Decoupled.debitShort b p
    (Decoupled.fillPending b p { s with liquidated := false } localI) localI)) localI
  rw [hcounted] at hliquidated
  unfold Decoupled.bar Coupled.bar
  dsimp only
  rw [← hliquidated, ← signal_toSliceState]
  rfl

theorem bars_toSliceState (z : ℤ → ℚ) (smaPeriod : ℤ) (bars : List ℕ) (s : DecoupledState) :
    (bars.foldl (Decoupled.bar b p z z smaPeriod) s).toSliceState =
      bars.foldl (Coupled.bar b p z smaPeriod) s.toSliceState := by
  induction bars generalizing s with
  | nil => rfl
  | cons localI bars ih =>
    rw [List.foldl_cons, List.foldl_cons, ih, bar_toSliceState]

theorem summary_toSliceMetrics (s : DecoupledState) :
    (Decoupled.summary sqrt annualize b p s).toSliceMetrics =
      Coupled.summary sqrt annualize b p s.toSliceState := rfl

theorem simulate_toSliceMetrics (z : ℤ → ℚ) (smaPeriod : ℤ) :
    (simulateMrSliceDecoupled sqrt annualize b p z z smaPeriod smaPeriod).toSliceMetrics =
      simulateMrSlice sqrt annualize b p z smaPeriod := by
  have hwarmup : warmupOf smaPeriod smaPeriod = smaPeriod := if_neg (lt_irrefl _)
  rw [simulateMrSliceDecoupled, simulateMrSlice, hwarmup]
  split
  · rfl
  · rw [summary_toSliceMetrics, bars_toSliceState]
    rfl

/-- With one series and one horizon, the decoupled kernel reports what the coupled one
does. -/
theorem decoupled_generalises (z : ℤ → ℚ) (smaPeriod : ℤ) :
    (simulateMrSliceDecoupled sqrt annualize b p z z smaPeriod smaPeriod).toSliceMetrics =
      simulateMrSlice sqrt annualize b p z smaPeriod :=
  simulate_toSliceMetrics sqrt annualize b p z smaPeriod

end Coupling

end TradingPlatform.Backtest
