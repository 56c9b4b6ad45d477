import TradingPlatform.Backtest.VectorizedMr
import TradingPlatform.Lib.Moments
import Mathlib.Data.Sign.Basic
import Mathlib.Tactic.Linarith
import Mathlib.Tactic.Positivity

/-! # Two statistics of one equity path

The sweep kernel keeps a peak, a drawdown and sums of returns as it goes. The
bar-by-bar backtest computes its statistics from the finished curve. The drawdowns
are the same. The Sharpe ratios divide by different variances over different
numbers of returns, and agree only where both are zero. -/

namespace TradingPlatform.Backtest

open TradingPlatform.Lib.Moments

/-! ## The metrics of a curve -/

/-- One value of the loop of `max_drawdown`: the peak and the drawdown so far. -/
def drawdownStep (s : ℚ × ℚ) (value : ℚ) : ℚ × ℚ :=
  let peak := max s.1 value
  let dd := if 0 < peak then (peak - value) / peak else 0
  (peak, max s.2 dd)

def maxDrawdown : List ℚ → ℚ
  | [] => 0
  | first :: rest => ((first :: rest).foldl drawdownStep (first, 0)).2

/-- The returns of a curve, from one value to the next where the first is positive. -/
def curveReturns : List ℚ → List ℚ
  | previous :: value :: rest =>
    (if 0 < previous then [(value - previous) / previous] else []) ++ curveReturns (value :: rest)
  | _ => []

/-- `ANNUALIZE ** 2`. -/
def annualizeSquared : ℚ := 252 * 26

/-- A Sharpe ratio by its square and its sign; none without a deviation. -/
def annualizedRatio (mean var : ℚ) : ℚ × SignType :=
  if 0 < var then (mean * mean / var * annualizeSquared, SignType.sign mean) else (0, 0)

/-- `metrics.sharpe_ratio`. -/
def sharpeRatio (returns : List ℚ) : ℚ × SignType :=
  if returns.length < 2 then (0, 0)
  else
    let mean := returns.sum / returns.length
    annualizedRatio mean (deviations mean returns / (returns.length - 1))

/-! ## What the kernel reports -/

section Kernel
variable (b : SliceSeries) (p : SliceParams) (zLong zShort : ℤ → ℚ)
  (smaPeriodLong smaPeriodShort : ℤ)

/-- The locals after the first `k` bars. -/
def sweepState (k : ℕ) : DecoupledState :=
  (List.range k).foldl (Decoupled.bar b p zLong zShort (warmupOf smaPeriodLong smaPeriodShort))
    (Decoupled.start p)

/-- The bars the kernel runs; a slice that is shorter than the warm-up runs none. -/
def sweepBars : ℕ :=
  if p.last - p.first < warmupOf smaPeriodLong smaPeriodShort + 2 then 0
  else (p.last - p.first).toNat

/-- The equity at the close of each bar. -/
def barEquities : List ℚ :=
  (List.range (sweepBars p smaPeriodLong smaPeriodShort)).map fun k =>
    (sweepState b p zLong zShort smaPeriodLong smaPeriodShort (k + 1)).prevEquity

def equityPath : List ℚ :=
  p.initialEquity :: barEquities b p zLong zShort smaPeriodLong smaPeriodShort

/-- The Sharpe ratio of `summary`, by its square and its sign. -/
def stateSharpe (s : DecoupledState) : ℚ × SignType :=
  if 1 < s.retCount then
    let mean := s.retSum / s.retCount
    annualizedRatio mean (max (s.retSqSum / s.retCount - mean * mean) 0)
  else (0, 0)

def sweepSharpe : ℚ × SignType :=
  stateSharpe (sweepState b p zLong zShort smaPeriodLong smaPeriodShort
    (sweepBars p smaPeriodLong smaPeriodShort))

end Kernel

/-! ## Keeping the statistics -/

/-- What the bar's measurement reads and writes. -/
def DecoupledState.stats (s : DecoupledState) : ℚ × ℚ × ℚ × ℚ × ℤ × ℚ :=
  (s.peak, s.maxDd, s.retSum, s.retSqSum, s.retCount, s.prevEquity)

section Frames
variable (b : SliceSeries) (p : SliceParams) (zLong zShort : ℤ → ℚ) (warmup : ℤ)
  (s : DecoupledState) (localI : ℕ)

theorem fillPending_stats : (Decoupled.fillPending b p s localI).stats = s.stats := by
  unfold Decoupled.fillPending
  dsimp only
  split_ifs <;> rfl

theorem debitShort_stats : (Decoupled.debitShort b p s localI).stats = s.stats := by
  unfold Decoupled.debitShort
  dsimp only
  split_ifs <;> rfl

theorem countBar_stats : (Decoupled.countBar s).stats = s.stats := rfl

theorem reset_stats : ({ s with liquidated := false } : DecoupledState).stats = s.stats := rfl

theorem liquidate_stats : (Decoupled.liquidate b p s localI).2.stats = s.stats := by
  unfold Decoupled.liquidate
  dsimp only
  split_ifs <;> rfl

theorem signal_stats : (Decoupled.signal b p zLong zShort warmup s localI).stats = s.stats := by
  unfold Decoupled.signal
  dsimp only
  split_ifs <;> rfl

/-- The equity a bar measures, and the locals it measures it on. -/
def beforeMeasure : ℚ × DecoupledState :=
  let counted := Decoupled.countBar (Decoupled.debitShort b p
    (Decoupled.fillPending b p { s with liquidated := false } localI) localI)
  let marked := Decoupled.liquidate b p counted localI
  (marked.1, Decoupled.signal b p zLong zShort warmup marked.2 localI)

theorem bar_eq_measure :
    Decoupled.bar b p zLong zShort warmup s localI =
      Decoupled.measure (beforeMeasure b p zLong zShort warmup s localI).1
        (beforeMeasure b p zLong zShort warmup s localI).2 localI := by
  unfold Decoupled.bar beforeMeasure
  dsimp only

/-- Nothing before the measurement touches the statistics. -/
theorem beforeMeasure_stats :
    (beforeMeasure b p zLong zShort warmup s localI).2.stats = s.stats := by
  unfold beforeMeasure
  rw [signal_stats, liquidate_stats, countBar_stats, debitShort_stats, fillPending_stats,
    reset_stats]

end Frames

/-! ## What the statistics hold -/

/-- The locals hold the statistics of the curve `initial :: equities`, of which the kernel
counts the returns between bars. -/
structure Holds (initial : ℚ) (equities : List ℚ) (s : DecoupledState) : Prop where
  drawdown : (s.peak, s.maxDd) = (initial :: equities).foldl drawdownStep (initial, 0)
  nonneg : 0 ≤ s.maxDd
  sum : s.retSum = (curveReturns equities).sum
  squares : s.retSqSum = squares (curveReturns equities)
  count : s.retCount = (curveReturns equities).length
  previous : (initial :: equities).getLast? = some s.prevEquity

theorem Holds.congr {initial : ℚ} {equities : List ℚ} {s s' : DecoupledState}
    (h : Holds initial equities s) (hstats : s'.stats = s.stats) : Holds initial equities s' := by
  simp only [DecoupledState.stats, Prod.mk.injEq] at hstats
  obtain ⟨hpeak, hdd, hsum, hsq, hcount, hprev⟩ := hstats
  refine ⟨?_, ?_, ?_, ?_, ?_, ?_⟩
  · rw [hpeak, hdd, h.drawdown]
  · rw [hdd]
    exact h.nonneg
  · rw [hsum, h.sum]
  · rw [hsq, h.squares]
  · rw [hcount, h.count]
  · rw [hprev, h.previous]

theorem holds_start (p : SliceParams) : Holds p.initialEquity [] (Decoupled.start p) where
  drawdown := by simp [Decoupled.start, drawdownStep]
  nonneg := le_rfl
  sum := rfl
  squares := rfl
  count := rfl
  previous := rfl

theorem curveReturns_concat (equities : List ℚ) (previous value : ℚ) :
    curveReturns (equities ++ [previous, value]) =
      curveReturns (equities ++ [previous]) ++
        if 0 < previous then [(value - previous) / previous] else [] := by
  induction equities with
  | nil => simp [curveReturns]
  | cons first equities ih =>
    cases equities with
    | nil => simp [curveReturns]
    | cons second equities =>
      have hrest : curveReturns (second :: (equities ++ [previous, value])) =
          curveReturns (second :: (equities ++ [previous])) ++
            if 0 < previous then [(value - previous) / previous] else [] := ih
      simp only [List.cons_append, curveReturns, hrest, List.append_assoc]

@[simp] theorem measure_prevEquity (equity : ℚ) (s : DecoupledState) (localI : ℕ) :
    (Decoupled.measure equity s localI).prevEquity = equity :=
  rfl

theorem measure_drawdown {s : DecoupledState} (hnonneg : 0 ≤ s.maxDd) (equity : ℚ) (localI : ℕ) :
    ((Decoupled.measure equity s localI).peak, (Decoupled.measure equity s localI).maxDd) =
      drawdownStep (s.peak, s.maxDd) equity := by
  have hpeak : (if s.peak < equity then equity else s.peak) = max s.peak equity :=
    (max_def_lt s.peak equity).symm
  simp only [Decoupled.measure, drawdownStep, hpeak, Prod.mk.injEq, true_and]
  by_cases hpos : 0 < max s.peak equity
  · simp only [hpos, true_and, if_true]
    exact (max_def_lt _ _).symm
  · simp only [hpos, false_and, if_false]
    exact (max_eq_left hnonneg).symm

/-- The return of a bar counts when there was a bar before it with a positive equity. -/
theorem measure_returns {equities : List ℚ} {s : DecoupledState} {initial : ℚ}
    (h : Holds initial equities s) (equity : ℚ) {localI : ℕ} (hlocal : localI = equities.length) :
    ∃ counted, curveReturns (equities ++ [equity]) = curveReturns equities ++ counted ∧
      (Decoupled.measure equity s localI).retSum = s.retSum + counted.sum ∧
      (Decoupled.measure equity s localI).retSqSum = s.retSqSum + squares counted ∧
      (Decoupled.measure equity s localI).retCount = s.retCount + counted.length := by
  rcases List.eq_nil_or_concat equities with rfl | ⟨earlier, previous, rfl⟩
  · have hzero : localI = 0 := by simpa using hlocal
    refine ⟨[], rfl, ?_, ?_, ?_⟩ <;> simp [Decoupled.measure, hzero]
  · have hlast : s.prevEquity = previous := by
      have hprevious := h.previous
      rw [List.concat_eq_append, ← List.cons_append, List.getLast?_concat] at hprevious
      exact (Option.some.inj hprevious).symm
    have hpos : 0 < localI := by rw [hlocal]; simp
    refine ⟨if 0 < previous then [(equity - previous) / previous] else [], ?_, ?_⟩
    · rw [List.concat_eq_append, List.append_assoc, List.singleton_append, curveReturns_concat]
    · by_cases hprev : 0 < previous
      · simp [Decoupled.measure, hpos, hlast, hprev]
      · simp [Decoupled.measure, hpos, hlast, hprev]

/-- One measurement holds the curve with one more equity. -/
theorem Holds.measure {initial : ℚ} {equities : List ℚ} {s : DecoupledState}
    (h : Holds initial equities s) (equity : ℚ) (localI : ℕ) (hlocal : localI = equities.length) :
    Holds initial (equities ++ [equity]) (Decoupled.measure equity s localI) := by
  obtain ⟨counted, hreturns, hsum, hsq, hcount⟩ := measure_returns h equity hlocal
  have hdrawdown := measure_drawdown h.nonneg equity localI
  refine ⟨?_, ?_, ?_, ?_, ?_, ?_⟩
  · rw [hdrawdown, h.drawdown, ← List.cons_append, List.foldl_append]
    rfl
  · have hdd : (Decoupled.measure equity s localI).maxDd =
        (drawdownStep (s.peak, s.maxDd) equity).2 := congrArg Prod.snd hdrawdown
    rw [hdd]
    exact h.nonneg.trans (le_max_left _ _)
  · rw [hsum, h.sum, hreturns, List.sum_append]
  · rw [hsq, h.squares, hreturns, squares_append]
  · rw [hcount, h.count, hreturns, List.length_append, Nat.cast_add]
  · rw [← List.cons_append, List.getLast?_concat]
    rfl

section Run
variable (b : SliceSeries) (p : SliceParams) (zLong zShort : ℤ → ℚ)
  (smaPeriodLong smaPeriodShort : ℤ)

/-- The equities of the first `k` bars. -/
def equitiesTo (k : ℕ) : List ℚ :=
  (List.range k).map fun i =>
    (sweepState b p zLong zShort smaPeriodLong smaPeriodShort (i + 1)).prevEquity

theorem sweepState_succ (k : ℕ) :
    sweepState b p zLong zShort smaPeriodLong smaPeriodShort (k + 1) =
      Decoupled.bar b p zLong zShort (warmupOf smaPeriodLong smaPeriodShort)
        (sweepState b p zLong zShort smaPeriodLong smaPeriodShort k) k := by
  simp only [sweepState, List.range_succ, List.foldl_append, List.foldl_cons, List.foldl_nil]

/-- After every bar the locals hold the statistics of the equities so far. -/
theorem holds_sweepState (k : ℕ) :
    Holds p.initialEquity (equitiesTo b p zLong zShort smaPeriodLong smaPeriodShort k)
      (sweepState b p zLong zShort smaPeriodLong smaPeriodShort k) := by
  induction k with
  | zero => exact holds_start p
  | succ k ih =>
    let measured := beforeMeasure b p zLong zShort (warmupOf smaPeriodLong smaPeriodShort)
      (sweepState b p zLong zShort smaPeriodLong smaPeriodShort k) k
    have hbar : sweepState b p zLong zShort smaPeriodLong smaPeriodShort (k + 1) =
        Decoupled.measure measured.1 measured.2 k := by
      rw [sweepState_succ, bar_eq_measure]
    have hequities : equitiesTo b p zLong zShort smaPeriodLong smaPeriodShort (k + 1) =
        equitiesTo b p zLong zShort smaPeriodLong smaPeriodShort k ++ [measured.1] := by
      rw [equitiesTo, List.range_succ, List.map_append, List.map_singleton, hbar]
      rfl
    rw [hequities, hbar]
    exact (ih.congr (beforeMeasure_stats b p zLong zShort _ _ k)).measure measured.1 k
      (by simp [equitiesTo])

end Run

/-! ## Before the first fill -/

/-- No position, and all of the equity in cash. -/
structure DecoupledState.Flat (cash : ℚ) (s : DecoupledState) : Prop where
  position : s.positionQty = 0
  cash : s.cash = cash

section Flat
variable (b : SliceSeries) (p : SliceParams) (zLong zShort : ℤ → ℚ) (warmup : ℤ) {cash : ℚ}
  {s : DecoupledState} (localI : ℕ)

/-- Nothing fills on the first bar, nor without equity. -/
theorem fillPending_flat (h : s.Flat cash) (hnone : localI = 0 ∨ cash ≤ 0) :
    (Decoupled.fillPending b p s localI).Flat cash := by
  obtain ⟨hposition, hcash⟩ := h
  unfold Decoupled.fillPending
  split
  · rename_i hpending
    have hle : cash ≤ 0 := hnone.resolve_left (by omega)
    simp only [hposition, hcash, markEquity, zero_mul, add_zero, sizeShares, sizeSharesShort, hle,
      true_or, or_true, if_true, lt_irrefl, if_false]
    split_ifs <;> exact ⟨hposition, hcash⟩
  · exact ⟨hposition, hcash⟩

theorem debitShort_flat (h : s.Flat cash) : (Decoupled.debitShort b p s localI).Flat cash := by
  unfold Decoupled.debitShort
  simp only [h.position, lt_irrefl, and_false, false_and, if_false]
  exact h

theorem liquidate_flat (h : s.Flat cash) : Decoupled.liquidate b p s localI = (cash, s) := by
  unfold Decoupled.liquidate
  simp [h.position, h.cash, markEquity]

theorem signal_flat (h : s.Flat cash) :
    (Decoupled.signal b p zLong zShort warmup s localI).Flat cash := by
  unfold Decoupled.signal
  dsimp only
  split_ifs <;> exact ⟨h.position, h.cash⟩

theorem beforeMeasure_flat (h : s.Flat cash) (hnone : localI = 0 ∨ cash ≤ 0) :
    (beforeMeasure b p zLong zShort warmup s localI).1 = cash ∧
      (beforeMeasure b p zLong zShort warmup s localI).2.Flat cash := by
  have hreset : ({ s with liquidated := false } : DecoupledState).Flat cash :=
    ⟨h.position, h.cash⟩
  have hdebited := debitShort_flat b p localI (fillPending_flat b p localI hreset hnone)
  have hcounted : (Decoupled.countBar (Decoupled.debitShort b p
      (Decoupled.fillPending b p { s with liquidated := false } localI) localI)).Flat cash :=
    ⟨hdebited.position, hdebited.cash⟩
  unfold beforeMeasure
  simp only [liquidate_flat b p localI hcounted, true_and]
  exact signal_flat b p zLong zShort warmup localI hcounted

end Flat

section Run
variable (b : SliceSeries) (p : SliceParams) (zLong zShort : ℤ → ℚ)
  (smaPeriodLong smaPeriodShort : ℤ)

theorem start_flat : (Decoupled.start p).Flat p.initialEquity := ⟨rfl, rfl⟩

/-- The first bar closes at the initial equity. -/
theorem first_equity :
    (sweepState b p zLong zShort smaPeriodLong smaPeriodShort 1).prevEquity =
      p.initialEquity := by
  rw [sweepState_succ, bar_eq_measure, measure_prevEquity]
  exact (beforeMeasure_flat b p zLong zShort (warmupOf smaPeriodLong smaPeriodShort) 0
    (start_flat p) (Or.inl rfl)).1

/-- A book that starts without equity never trades. -/
theorem sweepState_flat (hnone : p.initialEquity ≤ 0) (k : ℕ) :
    (sweepState b p zLong zShort smaPeriodLong smaPeriodShort k).Flat p.initialEquity := by
  induction k with
  | zero => exact start_flat p
  | succ k ih =>
    rw [sweepState_succ, bar_eq_measure]
    obtain ⟨hposition, hcash⟩ := (beforeMeasure_flat b p zLong zShort
      (warmupOf smaPeriodLong smaPeriodShort) k ih (Or.inr hnone)).2
    exact ⟨hposition, hcash⟩

theorem equities_without_equity (hnone : p.initialEquity ≤ 0) (k : ℕ) :
    ∀ equity ∈ equitiesTo b p zLong zShort smaPeriodLong smaPeriodShort k,
      equity = p.initialEquity := by
  intro equity hmem
  obtain ⟨i, -, rfl⟩ := List.mem_map.mp hmem
  rw [sweepState_succ, bar_eq_measure, measure_prevEquity]
  exact (beforeMeasure_flat b p zLong zShort (warmupOf smaPeriodLong smaPeriodShort) i
    (sweepState_flat b p zLong zShort smaPeriodLong smaPeriodShort hnone i) (Or.inr hnone)).1

end Run

/-! ## The two ratios -/

@[simp] theorem annualizedRatio_zero (var : ℚ) : annualizedRatio 0 var = (0, 0) := by
  simp [annualizedRatio]

theorem annualizedRatio_of_pos (mean : ℚ) {var : ℚ} (h : 0 < var) :
    annualizedRatio mean var = (mean * mean / var * annualizeSquared, SignType.sign mean) :=
  if_pos h

section Ratios
variable {m sum sq : ℚ}

theorem sq_pos_of_sum (hm : 0 < m) (hsum : sum ≠ 0) (hle : sum * sum ≤ m * sq) : 0 < sq := by
  have hpos : 0 < m * sq := (mul_self_pos.mpr hsum).trans_le hle
  exact pos_of_mul_pos_right hpos hm.le

/-- A zero among the returns gives them a spread. -/
theorem curveVar_pos (hm : 0 < m) (hsum : sum ≠ 0) (hle : sum * sum ≤ m * sq) :
    0 < (sq - sum * sum / (m + 1)) / m := by
  have hsq := sq_pos_of_sum hm hsum hle
  refine div_pos (sub_pos.mpr ?_) hm
  rw [div_lt_iff₀ (by positivity)]
  linarith

theorem spread_eq (hm : 0 < m) :
    sq / m - sum / m * (sum / m) = (m * sq - sum * sum) / (m * m) := by
  field_simp

/-- The kernel's ratio is the greater in square, where it has one. -/
theorem curveRatio_lt (hm : 0 < m) (hsum : sum ≠ 0) (hspread : 0 < m * sq - sum * sum) :
    sum / (m + 1) * (sum / (m + 1)) / ((sq - sum * sum / (m + 1)) / m) <
      sum / m * (sum / m) / (sq / m - sum / m * (sum / m)) := by
  have hle : sum * sum ≤ m * sq := by linarith
  have hpos := sq_pos_of_sum hm hsum hle
  have hwide : 0 < (m + 1) * sq - sum * sum := by linarith
  have hcurve : sum / (m + 1) * (sum / (m + 1)) / ((sq - sum * sum / (m + 1)) / m) =
      sum * sum * (m / ((m + 1) * ((m + 1) * sq - sum * sum))) := by
    have hvar : sq - sum * sum / (m + 1) = ((m + 1) * sq - sum * sum) / (m + 1) := by
      field_simp
    rw [hvar]
    field_simp
  have hkernel : sum / m * (sum / m) / (sq / m - sum / m * (sum / m)) =
      sum * sum * (1 / (m * sq - sum * sum)) := by
    rw [spread_eq hm]
    field_simp
  rw [hcurve, hkernel]
  refine mul_lt_mul_of_pos_left ?_ (mul_self_pos.mpr hsum)
  rw [div_lt_div_iff₀ (by positivity) hspread]
  linarith [mul_pos hm hpos]

end Ratios

/-- The sum of the returns, squared, is at most their number times their squares. -/
theorem sum_sq_le (returns : List ℚ) :
    returns.sum * returns.sum ≤ returns.length * squares returns := by
  rcases returns.eq_nil_or_concat with rfl | ⟨_, _, hreturns⟩
  · simp
  have hpos : (0 : ℚ) < returns.length := by
    rw [hreturns]
    simp
    positivity
  have hdev := deviations_nonneg (returns.sum / returns.length) returns
  rw [deviations_mean _ hpos.ne', sub_nonneg, div_le_iff₀ hpos] at hdev
  linarith

/-- The ratio the kernel forms from its sums over these returns. -/
def kernelRatio (returns : List ℚ) : ℚ × SignType :=
  if 1 < returns.length then
    let mean := returns.sum / returns.length
    annualizedRatio mean (max (squares returns / returns.length - mean * mean) 0)
  else (0, 0)

theorem sharpeRatio_zero_cons {returns : List ℚ} (hne : returns ≠ []) :
    sharpeRatio (0 :: returns) =
      annualizedRatio (returns.sum / (returns.length + 1))
        ((squares returns - returns.sum * returns.sum / (returns.length + 1)) /
          returns.length) := by
  have hpos := List.length_pos_iff.mpr hne
  have hlen : ((0 :: returns).length : ℚ) = returns.length + 1 := by simp
  have hmean := deviations_mean ((0 : ℚ) :: returns) (by rw [hlen]; positivity)
  rw [sharpeRatio, if_neg (by simp; omega)]
  simp only [hlen, List.sum_cons, zero_add, squares_cons, mul_zero, add_sub_cancel_right] at hmean ⊢
  rw [hmean]

/-- The kernel's ratio over some returns is the curve's over a zero and those returns exactly
when the returns sum to zero. -/
theorem kernelRatio_eq_iff (returns : List ℚ) :
    kernelRatio returns = sharpeRatio (0 :: returns) ↔ returns.sum = 0 := by
  by_cases hnil : returns = []
  · subst hnil
    exact iff_of_true rfl rfl
  have hpos : (0 : ℚ) < returns.length := Nat.cast_pos.mpr (List.length_pos_iff.mpr hnil)
  rw [sharpeRatio_zero_cons hnil]
  constructor
  · intro heq
    by_contra hsum
    have hle := sum_sq_le returns
    have hmean : returns.sum / (returns.length + 1) ≠ 0 := div_ne_zero hsum (by positivity)
    have hcurve := annualizedRatio_of_pos (returns.sum / (returns.length + 1))
      (curveVar_pos hpos hsum hle)
    have hfirst : (kernelRatio returns).1 ≠ 0 := by
      rw [heq, hcurve]
      exact mul_ne_zero (div_ne_zero (mul_ne_zero hmean hmean) (curveVar_pos hpos hsum hle).ne')
        (by norm_num [annualizeSquared])
    unfold kernelRatio at heq hfirst
    dsimp only at heq hfirst
    split at heq
    · rename_i hlong
      rw [if_pos hlong] at hfirst
      rcases le_or_gt (squares returns / returns.length -
          returns.sum / returns.length * (returns.sum / returns.length)) 0 with hflat | hspread
      · rw [max_eq_right hflat] at hfirst
        exact hfirst rfl
      · rw [max_eq_left hspread.le, annualizedRatio_of_pos _ hspread, hcurve] at heq
        rw [spread_eq hpos] at hspread
        have hspread' := (div_pos_iff_of_pos_right (mul_pos hpos hpos)).mp hspread
        have hlt := curveRatio_lt hpos hsum hspread'
        have hsame := mul_right_cancel₀ (by norm_num [annualizeSquared]) (congrArg Prod.fst heq)
        exact hlt.ne' hsame
    · rename_i hshort
      rw [if_neg hshort] at hfirst
      exact hfirst rfl
  · intro hsum
    simp [kernelRatio, hsum]

/-! ## The statistics of a run -/

section Statistics
variable (b : SliceSeries) (p : SliceParams) (zLong zShort : ℤ → ℚ)
  (smaPeriodLong smaPeriodShort : ℤ)

theorem stateSharpe_eq {initial : ℚ} {equities : List ℚ} {s : DecoupledState}
    (h : Holds initial equities s) : stateSharpe s = kernelRatio (curveReturns equities) := by
  unfold stateSharpe kernelRatio
  simp only [h.count, h.sum, h.squares, Int.cast_natCast]
  simp only [Nat.one_lt_cast]

/-- The variance whose root the kernel takes. -/
def stateVar (s : DecoupledState) : ℚ :=
  max (s.retSqSum / s.retCount - s.retSum / s.retCount * (s.retSum / s.retCount)) 0

/-- With an exact root, `stateSharpe` is the Sharpe ratio of the summary by its square, up to
the annualization, and by its sign. -/
theorem summary_sharpe {sqrt : ℚ → ℚ} {annualize : ℚ} (hannualize : 0 < annualize)
    {s : DecoupledState} (hnonneg : 0 ≤ sqrt (stateVar s))
    (hroot : sqrt (stateVar s) * sqrt (stateVar s) = stateVar s) :
    (Decoupled.summary sqrt annualize b p s).sharpe *
          (Decoupled.summary sqrt annualize b p s).sharpe * annualizeSquared =
        (stateSharpe s).1 * (annualize * annualize) ∧
      SignType.sign (Decoupled.summary sqrt annualize b p s).sharpe = (stateSharpe s).2 := by
  have hsharpe : (Decoupled.summary sqrt annualize b p s).sharpe =
      if 1 < s.retCount then
        if 0 < sqrt (stateVar s) then
          s.retSum / s.retCount / sqrt (stateVar s) * annualize
        else 0
      else 0 := rfl
  have hstate : stateSharpe s =
      if 1 < s.retCount then annualizedRatio (s.retSum / s.retCount) (stateVar s) else (0, 0) := rfl
  rw [hsharpe, hstate]
  by_cases hcount : 1 < s.retCount
  · rw [if_pos hcount, if_pos hcount]
    by_cases hpos : 0 < sqrt (stateVar s)
    · have hvar : 0 < stateVar s := by rw [← hroot]; exact mul_pos hpos hpos
      rw [if_pos hpos, annualizedRatio_of_pos _ hvar]
      constructor
      · nth_rewrite 3 [← hroot]
        field_simp
      · rw [sign_mul, sign_pos hannualize, mul_one, div_eq_mul_inv, sign_mul,
          sign_pos (inv_pos.mpr hpos), mul_one]
    · have hzero : sqrt (stateVar s) = 0 := le_antisymm (not_lt.mp hpos) hnonneg
      have hvar : stateVar s = 0 := by rw [← hroot, hzero, zero_mul]
      rw [if_neg hpos, hvar]
      simp [annualizedRatio]
  · rw [if_neg hcount, if_neg hcount]
    simp

/-- The drawdown and the Sharpe ratio of the run are those of its equity path. -/
structure SameStatistics : Prop where
  drawdown : ∀ (sqrt : ℚ → ℚ) (annualize : ℚ),
    (simulateMrSliceDecoupled sqrt annualize b p zLong zShort smaPeriodLong
        smaPeriodShort).maxDrawdown =
      maxDrawdown (equityPath b p zLong zShort smaPeriodLong smaPeriodShort)
  sharpe : sweepSharpe b p zLong zShort smaPeriodLong smaPeriodShort =
    sharpeRatio (curveReturns (equityPath b p zLong zShort smaPeriodLong smaPeriodShort))

theorem simulate_maxDrawdown (sqrt : ℚ → ℚ) (annualize : ℚ) :
    (simulateMrSliceDecoupled sqrt annualize b p zLong zShort smaPeriodLong
        smaPeriodShort).maxDrawdown =
      maxDrawdown (equityPath b p zLong zShort smaPeriodLong smaPeriodShort) := by
  have hholds := holds_sweepState b p zLong zShort smaPeriodLong smaPeriodShort
    (sweepBars p smaPeriodLong smaPeriodShort)
  have hpath : maxDrawdown (equityPath b p zLong zShort smaPeriodLong smaPeriodShort) =
      (sweepState b p zLong zShort smaPeriodLong smaPeriodShort
        (sweepBars p smaPeriodLong smaPeriodShort)).maxDd :=
    (congrArg Prod.snd hholds.drawdown).symm
  rw [hpath, simulateMrSliceDecoupled, sweepBars]
  split
  · rfl
  · rfl

theorem curveReturns_of_nonpos {equities : List ℚ} (h : ∀ equity ∈ equities, equity ≤ 0) :
    curveReturns equities = [] := by
  induction equities with
  | nil => rfl
  | cons first equities ih =>
    have hrest := ih fun equity hmem => h equity (List.mem_cons_of_mem _ hmem)
    have hfirst : ¬ 0 < first := not_lt.mpr (h first List.mem_cons_self)
    cases equities with
    | nil => rfl
    | cons second equities => rw [curveReturns, if_neg hfirst, hrest, List.append_nil]

/-- The returns of the path: those the kernel counts, and, of a book with equity and a bar,
the zero of its first bar. -/
theorem curveReturns_equityPath :
    (curveReturns (equityPath b p zLong zShort smaPeriodLong smaPeriodShort) = [] ∧
      curveReturns (barEquities b p zLong zShort smaPeriodLong smaPeriodShort) = []) ∨
    curveReturns (equityPath b p zLong zShort smaPeriodLong smaPeriodShort) =
      0 :: curveReturns (barEquities b p zLong zShort smaPeriodLong smaPeriodShort) := by
  rw [equityPath]
  cases hbars : barEquities b p zLong zShort smaPeriodLong smaPeriodShort with
  | nil => exact Or.inl ⟨rfl, rfl⟩
  | cons first rest =>
    have hfirst : first = p.initialEquity := by
      have hhead := congrArg List.head? hbars
      rw [barEquities, List.head?_map] at hhead
      obtain ⟨k, hk, rfl⟩ := Option.map_eq_some_iff.mp hhead
      obtain rfl : k = 0 := by
        cases hn : sweepBars p smaPeriodLong smaPeriodShort with
        | zero => simp [hn] at hk
        | succ n => simpa [hn, List.range_succ_eq_map] using hk.symm
      exact first_equity b p zLong zShort smaPeriodLong smaPeriodShort
    subst hfirst
    rw [curveReturns]
    by_cases hpos : 0 < p.initialEquity
    · right
      rw [if_pos hpos, sub_self, zero_div, List.singleton_append]
    · left
      have hnone : curveReturns (p.initialEquity :: rest) = [] := by
        refine curveReturns_of_nonpos fun equity hmem => ?_
        rw [← hbars] at hmem
        exact (equities_without_equity b p zLong zShort smaPeriodLong smaPeriodShort
          (not_lt.mp hpos) _ equity hmem).trans_le (not_lt.mp hpos)
      rw [if_neg hpos, hnone]
      exact ⟨rfl, rfl⟩

/-- The drawdowns always agree. The Sharpe ratios agree exactly when the returns along the
path sum to zero, where both are zero. -/
theorem sameStatistics_iff :
    SameStatistics b p zLong zShort smaPeriodLong smaPeriodShort ↔
      (curveReturns (equityPath b p zLong zShort smaPeriodLong smaPeriodShort)).sum = 0 := by
  have hholds := holds_sweepState b p zLong zShort smaPeriodLong smaPeriodShort
    (sweepBars p smaPeriodLong smaPeriodShort)
  have hkernel : sweepSharpe b p zLong zShort smaPeriodLong smaPeriodShort =
      kernelRatio (curveReturns (barEquities b p zLong zShort smaPeriodLong smaPeriodShort)) :=
    stateSharpe_eq hholds
  have hsame : SameStatistics b p zLong zShort smaPeriodLong smaPeriodShort ↔
      sweepSharpe b p zLong zShort smaPeriodLong smaPeriodShort =
        sharpeRatio (curveReturns
          (equityPath b p zLong zShort smaPeriodLong smaPeriodShort)) :=
    ⟨fun h => h.sharpe,
      fun h => ⟨simulate_maxDrawdown b p zLong zShort smaPeriodLong smaPeriodShort, h⟩⟩
  rw [hsame, hkernel]
  rcases curveReturns_equityPath b p zLong zShort smaPeriodLong smaPeriodShort with
    ⟨hpath, hbars⟩ | hpath
  · rw [hpath, hbars]
    exact iff_of_true rfl rfl
  · rw [hpath, List.sum_cons, zero_add]
    exact kernelRatio_eq_iff _

end Statistics

/-! ## A run with one gain -/

/-- Four bars; the close rises from 10 to 12 on the third. -/
def risingSeries : SliceSeries where
  opens _ := 10
  closes i := if i ≤ 1 then 10 else 12
  regimeMask _ := 1
  atr _ := 1
  sessionBoundary _ := 0
  dividendPerShare _ := 0

def risingParams : SliceParams where
  longTh := 1
  shortTh := 1
  exitSigma := 0
  maxBars := 100
  slippagePct := 0
  maxRiskPct := 5 / 100
  maxPosPct := 1
  initialEquity := 100
  shortBorrowFeeAnnual := 0
  shortSizeMultiplier := 1
  shortMarginInitial := 1
  shortMarginMaint := 0
  liquidationSlipMultiplier := 1
  first := 0
  last := 4

/-- Five shares bought at 10 gain a tenth of the book in one bar: returns 0, 0, 1/10, 0 along
the path, of which the kernel leaves out the first. -/
theorem not_sameStatistics_rising :
    equityPath risingSeries risingParams (fun _ => -2) (fun _ => 0) 1 1 =
      [100, 100, 100, 110, 110] ∧
    ¬ SameStatistics risingSeries risingParams (fun _ => -2) (fun _ => 0) 1 1 :=
  ⟨by decide +kernel, fun h => absurd h.sharpe (by decide +kernel)⟩

end TradingPlatform.Backtest
