import TradingPlatform.Backtest.EquityStatistics
import TradingPlatform.Backtest.IndicatorSeries
import TradingPlatform.Lib.Causal
import TradingPlatform.Lib.Date

/-! # No look ahead

The arrays a sweep computes over the whole frame, and the kernels on them: a slice sees no
bar after its end, and no bar of it one that is still to come. -/

namespace TradingPlatform.Backtest

open TradingPlatform.Lib TradingPlatform.Lib.Runs TradingPlatform.Math

def zPeriodMin : ℤ := 15
def zPeriodMax : ℤ := 80

/-- One session after another: whether a bar opens one. -/
def sessionStep (prevDay : Option Date) (day : Date) : Option Date × ℤ :=
  if prevDay = some day then (prevDay, 0) else (some day, 1)

/-- The first bar has no day before it. -/
def buildSessionBoundaryMask (dates : List Date) : List ℤ := outputs sessionStep none dates

def dividendsByDate (events : List (String × ℚ)) : Dict String ℚ :=
  events.foldl (fun byDate e => byDate.set e.1 ((byDate.get? e.1).getD 0 + e.2)) .empty

def buildDividendArray (dates : List Date) (events : List (String × ℚ)) : List ℚ :=
  let byDate := dividendsByDate events
  dates.map fun day =>
    let amt := (byDate.get? day.isoformat).getD 0
    if 0 < amt then amt else 0

def precomputeZScores (closes sma std : List ℚ) : List ℚ :=
  closes.mapIdx fun i c => if 0 < std.getD i 0 then (c - sma.getD i 0) / std.getD i 0 else 0

section Stack
variable (sqrt : ℚ → ℚ)

/-- One row of the stack. -/
def zRow (period : ℤ) (closes : List ℚ) : List ℚ :=
  let series := precomputeSmaStd sqrt closes period
  precomputeZScores closes series.1 series.2

def precomputeZStack (closes : List ℚ) (minPeriod maxPeriod : ℤ) : List (List ℚ) :=
  (List.range (maxPeriod - minPeriod + 1).toNat).map fun k : ℕ => zRow sqrt (minPeriod + k) closes

/-- `z_stack[period - min_period]`, which counts from the end where it is negative. -/
def zFromStack (zStack : List (List ℚ)) (period minPeriod : ℤ) : Option (List ℚ) :=
  let k := period - minPeriod
  if 0 ≤ k then zStack[k.toNat]?
  else if 0 ≤ zStack.length + k then zStack[(zStack.length + k).toNat]?
  else none

end Stack

/-! ## The arrays of a frame -/

/-- One bar, its day and its place in the regime mask. -/
structure FrameBar where
  openPrice : ℚ
  high : ℚ
  low : ℚ
  close : ℚ
  date : Date
  regime : ℤ

abbrev Frame := List FrameBar

/-- An array read at an index that is not negative. -/
def readAt {α : Type} (xs : List α) (z : α) (i : ℤ) : α := xs.getD i.toNat z

def frameAtr (period : ℤ) (f : Frame) : List ℚ :=
  precomputeAtrSeries (f.map (·.high)) (f.map (·.low)) (f.map (·.close)) period

def frameSeries (events : List (String × ℚ)) (atrPeriod : ℤ) (f : Frame) : SliceSeries where
  opens := readAt (f.map (·.openPrice)) 0
  closes := readAt (f.map (·.close)) 0
  regimeMask := readAt (f.map (·.regime)) 0
  atr := readAt (frameAtr atrPeriod f) 0
  sessionBoundary := readAt (buildSessionBoundaryMask (f.map (·.date))) 0
  dividendPerShare := readAt (buildDividendArray (f.map (·.date)) events) 0

section Run
variable (sqrt : ℚ → ℚ) (annualize : ℚ) (events : List (String × ℚ)) (atrPeriod : ℤ)
  (p : SliceParams) (smaPeriodLong smaPeriodShort : ℤ)

/-- The row of the frame's stack for a period; there is none for a period it does not hold. -/
def frameZ (period : ℤ) (f : Frame) : Option (List ℚ) :=
  zFromStack (precomputeZStack sqrt (f.map (·.close)) zPeriodMin zPeriodMax) period zPeriodMin

/-- The locals after the first `k` bars of a slice of the frame. -/
def frameState (k : ℕ) (f : Frame) : Option DecoupledState := do
  let zLong ← frameZ sqrt smaPeriodLong f
  let zShort ← frameZ sqrt smaPeriodShort f
  return sweepState (frameSeries events atrPeriod f) p (readAt zLong 0) (readAt zShort 0)
    smaPeriodLong smaPeriodShort k

/-- What the decoupled kernel reports of a slice of the frame. -/
def frameMetrics (f : Frame) : Option DecoupledMetrics := do
  let zLong ← frameZ sqrt smaPeriodLong f
  let zShort ← frameZ sqrt smaPeriodShort f
  return simulateMrSliceDecoupled sqrt annualize (frameSeries events atrPeriod f) p
    (readAt zLong 0) (readAt zShort 0) smaPeriodLong smaPeriodShort

/-- What the coupled kernel reports of it. -/
def frameCoupledMetrics (smaPeriod : ℤ) (f : Frame) : Option SliceMetrics := do
  let z ← frameZ sqrt smaPeriod f
  return simulateMrSlice sqrt annualize (frameSeries events atrPeriod f) p (readAt z 0) smaPeriod

end Run

/-! ## The arrays are causal -/

theorem causal_mask : Causal buildSessionBoundaryMask := causal_outputs sessionStep none

theorem causal_dividends (events : List (String × ℚ)) :
    Causal fun dates => buildDividendArray dates events := causal_map _

/-- The average of the window that ends with the series, once there is one. -/
def lastSma (period : ℤ) (closes : List ℚ) : ℚ :=
  if 1 ≤ period ∧ period ≤ closes.length then (rollingSma closes period).getD 0 else 0

def lastStd (sqrt : ℚ → ℚ) (period : ℤ) (closes : List ℚ) : ℚ :=
  if 1 ≤ period ∧ period ≤ closes.length then (rollingStd sqrt closes period).getD 0 else 0

theorem precomputeSmaStd_getElem? (sqrt : ℚ → ℚ) (period : ℤ) (closes : List ℚ) (i : ℕ) :
    (precomputeSmaStd sqrt closes period).1[i]? =
        (if i < closes.length then some (lastSma period (closes.take (i + 1))) else none) ∧
      (precomputeSmaStd sqrt closes period).2[i]? =
        if i < closes.length then some (lastStd sqrt period (closes.take (i + 1))) else none := by
  by_cases hcold : period ≤ 0 ∨ (closes.length : ℤ) < period
  · have hlast : ∀ j, ¬ (1 ≤ period ∧ period ≤ (closes.take (j + 1)).length) := by
      intro j
      rw [List.length_take]
      omega
    rw [precomputeSmaStd, if_pos hcold]
    simp only [List.getElem?_replicate, lastSma, lastStd, hlast, if_false]
    exact ⟨trivial, trivial⟩
  obtain ⟨n, rfl⟩ : ∃ n : ℕ, period = (n + 1 : ℕ) := ⟨(period - 1).toNat, by omega⟩
  by_cases hi : i < closes.length
  case neg =>
    rw [if_neg hi, if_neg hi, precomputeSmaStd]
    dsimp only
    rw [if_neg hcold]
    simp [not_lt.mp hi]
  rw [if_pos hi, if_pos hi]
  by_cases hwarm : n ≤ i
  · obtain ⟨hsma, hstd⟩ := precomputeSmaStd_getElem sqrt (by omega) hi hwarm
    have hlast : 1 ≤ ((n + 1 : ℕ) : ℤ) ∧ ((n + 1 : ℕ) : ℤ) ≤ (closes.take (i + 1)).length := by
      rw [List.length_take]
      omega
    obtain ⟨hs, ht⟩ := smaStdStep_written sqrt hi hwarm (run_over sqrt i hi.le)
    rw [lastSma, lastStd, if_pos hlast, if_pos hlast, hsma, hstd, hs, ht]
    exact ⟨rfl, rfl⟩
  · have hlast : ¬ (1 ≤ ((n + 1 : ℕ) : ℤ) ∧ ((n + 1 : ℕ) : ℤ) ≤ (closes.take (i + 1)).length) := by
      rw [List.length_take]
      omega
    have hready : ¬ ((n + 1 : ℕ) : ℤ) - 1 ≤ i := by omega
    rw [lastSma, lastStd, if_neg hlast, if_neg hlast, precomputeSmaStd]
    dsimp only
    rw [if_neg hcold]
    simp only [List.getElem?_map, getElem?_outputs, List.getElem?_range hi, Option.map_some,
      smaStdStep, if_neg hready]
    exact ⟨trivial, trivial⟩

theorem causal_zRow (sqrt : ℚ → ℚ) (period : ℤ) : Causal (zRow sqrt period) := by
  rw [causal_iff]
  intro xs ys m h i hi
  have hsma : Causal fun closes => (precomputeSmaStd sqrt closes period).1 :=
    causal_of_upTo fun closes j => (precomputeSmaStd_getElem? sqrt period closes j).1
  have hstd : Causal fun closes => (precomputeSmaStd sqrt closes period).2 :=
    causal_of_upTo fun closes j => (precomputeSmaStd_getElem? sqrt period closes j).2
  simp only [zRow, precomputeZScores, List.getElem?_mapIdx, getElem?_of_take h hi,
    getD_of_take (hsma xs ys m h) hi, getD_of_take (hstd xs ys m h) hi]

/-- The average of the true ranges of the last bars, once there are as many as the period. -/
def lastAtr (period : ℤ) (f : Frame) : ℚ :=
  if 1 ≤ period ∧ period ≤ f.length then
    ((List.range' (f.length - period.toNat) period.toNat).map
      (sweepTrueRange (f.map (·.high)) (f.map (·.low)) (f.map (·.close)))).sum / period
  else 0

theorem lastAtr_take {n i : ℕ} {f : Frame} (hi : i < f.length) (hwarm : n ≤ i) :
    lastAtr (n + 1 : ℕ) (f.take (i + 1)) =
      ((List.range' (i - n) (n + 1)).map
        (sweepTrueRange (f.map (·.high)) (f.map (·.low)) (f.map (·.close)))).sum /
          ((n + 1 : ℕ) : ℚ) := by
  have hlen : (f.take (i + 1)).length = i + 1 := List.length_take_of_le hi
  have hstart : i + 1 - ((n + 1 : ℕ) : ℤ).toNat = i - n := by omega
  rw [lastAtr, hlen, if_pos (by omega), hstart, Int.toNat_natCast, Int.cast_natCast]
  congr 2
  refine List.map_congr_left fun j hj => ?_
  simp only [List.map_take]
  exact sweepTrueRange_take _ _ _ (by have := List.mem_range'_1.mp hj; omega)

theorem frameAtr_getElem? (period : ℤ) (f : Frame) (i : ℕ) :
    (frameAtr period f)[i]? =
      if i < f.length then some (lastAtr period (f.take (i + 1))) else none := by
  have hlen : (f.map (·.close)).length = f.length := List.length_map ..
  by_cases hcold : period ≤ 0 ∨ (f.length : ℤ) < period
  · have hlast : ¬ (1 ≤ period ∧ period ≤ (f.take (i + 1)).length) := by
      rw [List.length_take]
      omega
    rw [frameAtr, precomputeAtrSeries, hlen, if_pos hcold, List.getElem?_replicate, lastAtr,
      if_neg hlast]
  obtain ⟨n, rfl⟩ : ∃ n : ℕ, period = (n + 1 : ℕ) := ⟨(period - 1).toNat, by omega⟩
  have hlong : n + 1 ≤ f.length := by omega
  by_cases hi : i < f.length
  · rw [frameAtr, precomputeAtrSeries_getElem (by rw [hlen]; exact hlong) (by rw [hlen]; exact hi),
      if_pos hi]
    rcases Nat.lt_or_ge i n with hearly | hwarm
    · have hlast : ¬ (1 ≤ ((n + 1 : ℕ) : ℤ) ∧ ((n + 1 : ℕ) : ℤ) ≤ (f.take (i + 1)).length) := by
        rw [List.length_take]
        omega
      rw [if_pos hearly, lastAtr, if_neg hlast]
    · rw [if_neg (not_lt.mpr hwarm), lastAtr_take hi hwarm]
  · rw [if_neg hi, frameAtr, precomputeAtrSeries, hlen, if_neg hcold, List.getElem?_map,
      List.getElem?_eq_none (by simpa using hi)]
    rfl

theorem causal_frameAtr (period : ℤ) : Causal (frameAtr period) :=
  causal_of_upTo (frameAtr_getElem? period)

/-- The stack has the same rows whatever the frame is, so two frames that share their first
bars find rows that do, or find none. -/
theorem frameZ_agree (sqrt : ℚ → ℚ) (period : ℤ) {f g : Frame} {m : ℕ}
    (hshared : f.take m = g.take m) :
    (frameZ sqrt period f = none ∧ frameZ sqrt period g = none) ∨
      ∃ zf zg, frameZ sqrt period f = some zf ∧ frameZ sqrt period g = some zg ∧
        zf.take m = zg.take m := by
  have hrow : ∀ k : ℕ,
      ((precomputeZStack sqrt (f.map (·.close)) zPeriodMin zPeriodMax)[k]? = none ∧
        (precomputeZStack sqrt (g.map (·.close)) zPeriodMin zPeriodMax)[k]? = none) ∨
      ∃ zf zg, (precomputeZStack sqrt (f.map (·.close)) zPeriodMin zPeriodMax)[k]? = some zf ∧
        (precomputeZStack sqrt (g.map (·.close)) zPeriodMin zPeriodMax)[k]? = some zg ∧
        zf.take m = zg.take m := by
    intro k
    have hcloses := causal_map (·.close) f g m hshared
    simp only [precomputeZStack, List.getElem?_map]
    cases (List.range (zPeriodMax - zPeriodMin + 1).toNat)[k]? with
    | none => exact Or.inl ⟨rfl, rfl⟩
    | some j => exact Or.inr ⟨_, _, rfl, rfl, causal_zRow sqrt _ _ _ m hcloses⟩
  have hlen : (precomputeZStack sqrt (f.map (·.close)) zPeriodMin zPeriodMax).length =
      (precomputeZStack sqrt (g.map (·.close)) zPeriodMin zPeriodMax).length := by
    simp only [precomputeZStack, List.length_map]
  unfold frameZ zFromStack
  dsimp only
  rw [← hlen]
  split_ifs
  · exact hrow _
  · exact hrow _
  · exact Or.inl ⟨rfl, rfl⟩

/-! ## The kernels read no bar ahead -/

/-- Arrays that hold the same values at the first `m` bars. -/
structure SharedBars (b c : SliceSeries) (m : ℤ) : Prop where
  opens : ∀ i, 0 ≤ i → i < m → b.opens i = c.opens i
  closes : ∀ i, 0 ≤ i → i < m → b.closes i = c.closes i
  regimeMask : ∀ i, 0 ≤ i → i < m → b.regimeMask i = c.regimeMask i
  atr : ∀ i, 0 ≤ i → i < m → b.atr i = c.atr i
  sessionBoundary : ∀ i, 0 ≤ i → i < m → b.sessionBoundary i = c.sessionBoundary i
  dividendPerShare : ∀ i, 0 ≤ i → i < m → b.dividendPerShare i = c.dividendPerShare i

section Shared
variable {b c : SliceSeries} {p : SliceParams} {m : ℤ} {localI : ℕ}

theorem SharedBars.fillPending (h : SharedBars b c m) (hfirst : 0 ≤ p.first)
    (hlocal : p.first + localI < m) (s : DecoupledState) :
    Decoupled.fillPending b p s localI = Decoupled.fillPending c p s localI := by
  unfold Decoupled.fillPending
  by_cases hdue : 0 < localI ∧ s.pendingAction ≠ .hold
  · have hpos := hdue.1
    simp only [if_pos hdue, h.opens (p.first + localI) (by omega) hlocal,
      h.closes (p.first + localI - 1) (by omega) (by omega),
      h.atr (p.first + localI - 1) (by omega) (by omega)]
  · rw [if_neg hdue, if_neg hdue]

theorem SharedBars.debitShort (h : SharedBars b c m) (hfirst : 0 ≤ p.first)
    (hlocal : p.first + localI < m) (s : DecoupledState) :
    Decoupled.debitShort b p s localI = Decoupled.debitShort c p s localI := by
  unfold Decoupled.debitShort
  simp only [h.sessionBoundary (p.first + localI) (by omega) hlocal,
    h.dividendPerShare (p.first + localI) (by omega) hlocal]
  by_cases hpos : 0 < localI
  · simp only [h.closes (p.first + localI - 1) (by omega) (by omega)]
  · simp only [hpos, false_and, if_false]

theorem SharedBars.liquidate (h : SharedBars b c m) (hfirst : 0 ≤ p.first)
    (hlocal : p.first + localI < m) (s : DecoupledState) :
    Decoupled.liquidate b p s localI = Decoupled.liquidate c p s localI := by
  unfold Decoupled.liquidate
  simp only [h.closes (p.first + localI) (by omega) hlocal]

variable {zLong zShort zLong' zShort' : ℤ → ℚ}

theorem SharedBars.signal (h : SharedBars b c m) (hfirst : 0 ≤ p.first)
    (hlocal : p.first + localI < m) (hlong : zLong (p.first + localI) = zLong' (p.first + localI))
    (hshort : zShort (p.first + localI) = zShort' (p.first + localI)) (warmup : ℤ)
    (s : DecoupledState) :
    Decoupled.signal b p zLong zShort warmup s localI =
      Decoupled.signal c p zLong' zShort' warmup s localI := by
  unfold Decoupled.signal
  simp only [hlong, hshort, h.regimeMask (p.first + localI) (by omega) hlocal]

theorem SharedBars.bar (h : SharedBars b c m) (hfirst : 0 ≤ p.first)
    (hlocal : p.first + localI < m) (hlong : zLong (p.first + localI) = zLong' (p.first + localI))
    (hshort : zShort (p.first + localI) = zShort' (p.first + localI)) (warmup : ℤ)
    (s : DecoupledState) :
    Decoupled.bar b p zLong zShort warmup s localI =
      Decoupled.bar c p zLong' zShort' warmup s localI := by
  unfold Decoupled.bar
  simp only [h.fillPending hfirst hlocal, h.debitShort hfirst hlocal, h.liquidate hfirst hlocal,
    h.signal hfirst hlocal hlong hshort]

/-- By induction on the bars: each reads no further than itself. -/
theorem SharedBars.sweepState (h : SharedBars b c m) (hfirst : 0 ≤ p.first)
    (hlong : ∀ i, 0 ≤ i → i < m → zLong i = zLong' i)
    (hshort : ∀ i, 0 ≤ i → i < m → zShort i = zShort' i) (smaPeriodLong smaPeriodShort : ℤ)
    {k : ℕ} (hk : p.first + k ≤ m) :
    Backtest.sweepState b p zLong zShort smaPeriodLong smaPeriodShort k =
      Backtest.sweepState c p zLong' zShort' smaPeriodLong smaPeriodShort k := by
  induction k with
  | zero => rfl
  | succ k ih =>
    rw [sweepState_succ, sweepState_succ, ih (by omega),
      h.bar hfirst (by omega) (hlong _ (by omega) (by omega)) (hshort _ (by omega) (by omega))]

end Shared

/-! ## A slice sees no bar after its end -/

theorem readAt_agree {α : Type} {xs ys : List α} {m : ℕ} (h : xs.take m = ys.take m) (z : α) :
    ∀ i : ℤ, 0 ≤ i → i < m → readAt xs z i = readAt ys z i :=
  fun _ _ hi => getD_of_take h (by omega) z

theorem sharedBars_frame (events : List (String × ℚ)) (atrPeriod : ℤ) {f g : Frame} {m : ℕ}
    (hshared : f.take m = g.take m) :
    SharedBars (frameSeries events atrPeriod f) (frameSeries events atrPeriod g) m := by
  have hdates := causal_map (·.date) f g m hshared
  exact {
    opens := readAt_agree (causal_map FrameBar.openPrice f g m hshared) 0
    closes := readAt_agree (causal_map FrameBar.close f g m hshared) 0
    regimeMask := readAt_agree (causal_map FrameBar.regime f g m hshared) 0
    atr := readAt_agree (causal_frameAtr atrPeriod f g m hshared) 0
    sessionBoundary := readAt_agree (causal_mask _ _ m hdates) 0
    dividendPerShare := readAt_agree (causal_dividends events _ _ m hdates) 0 }

section Frames
variable (sqrt : ℚ → ℚ) (annualize : ℚ) (events : List (String × ℚ)) (atrPeriod : ℤ)
  {p : SliceParams} (smaPeriodLong smaPeriodShort : ℤ) {f g : Frame} {m : ℕ}

theorem frameState_agree (hshared : f.take m = g.take m) (hfirst : 0 ≤ p.first) {k : ℕ}
    (hk : p.first + k ≤ m) :
    frameState sqrt events atrPeriod p smaPeriodLong smaPeriodShort k f =
      frameState sqrt events atrPeriod p smaPeriodLong smaPeriodShort k g := by
  unfold frameState
  rcases frameZ_agree sqrt smaPeriodLong hshared with ⟨hf, hg⟩ | ⟨zf, zg, hf, hg, hlong⟩
  · simp only [hf, hg, Option.bind_eq_bind, Option.bind_none]
  rcases frameZ_agree sqrt smaPeriodShort hshared with ⟨hf', hg'⟩ | ⟨wf, wg, hf', hg', hshort⟩
  · simp only [hf, hg, hf', hg', Option.bind_eq_bind, Option.bind_some, Option.bind_none]
  · have hstate := (sharedBars_frame events atrPeriod hshared).sweepState hfirst
      (readAt_agree hlong 0) (readAt_agree hshort 0) smaPeriodLong smaPeriodShort hk
    simp only [hf, hg, hf', hg', Option.bind_eq_bind, Option.bind_some, hstate]

theorem simulateMrSliceDecoupled_eq (b : SliceSeries) (p : SliceParams) (zLong zShort : ℤ → ℚ) :
    simulateMrSliceDecoupled sqrt annualize b p zLong zShort smaPeriodLong smaPeriodShort =
      if p.last - p.first < warmupOf smaPeriodLong smaPeriodShort + 2 then {}
      else Decoupled.summary sqrt annualize b p
        (sweepState b p zLong zShort smaPeriodLong smaPeriodShort (p.last - p.first).toNat) := rfl

/-- The summary reads the last close of the slice, if it is not empty. -/
theorem summary_agree {b c : SliceSeries} (h : SharedBars b c m) (hlast : p.last ≤ m)
    (hend : 0 ≤ p.last - 1) (s : DecoupledState) :
    Decoupled.summary sqrt annualize b p s = Decoupled.summary sqrt annualize c p s := by
  unfold Decoupled.summary
  simp only [h.closes (p.last - 1) hend (by omega)]

theorem frameMetrics_agree (hshared : f.take m = g.take m) (hfirst : 0 ≤ p.first)
    (hend : 0 < p.last) (hlast : p.last ≤ m) :
    frameMetrics sqrt annualize events atrPeriod p smaPeriodLong smaPeriodShort f =
      frameMetrics sqrt annualize events atrPeriod p smaPeriodLong smaPeriodShort g := by
  unfold frameMetrics
  rcases frameZ_agree sqrt smaPeriodLong hshared with ⟨hf, hg⟩ | ⟨zf, zg, hf, hg, hlong⟩
  · simp only [hf, hg, Option.bind_eq_bind, Option.bind_none]
  rcases frameZ_agree sqrt smaPeriodShort hshared with ⟨hf', hg'⟩ | ⟨wf, wg, hf', hg', hshort⟩
  · simp only [hf, hg, hf', hg', Option.bind_eq_bind, Option.bind_some, Option.bind_none]
  · simp only [hf, hg, hf', hg', Option.bind_eq_bind, Option.bind_some, simulateMrSliceDecoupled_eq]
    have hbars := sharedBars_frame events atrPeriod hshared
    by_cases hshorter : p.last - p.first < warmupOf smaPeriodLong smaPeriodShort + 2
    · rw [if_pos hshorter, if_pos hshorter]
    rcases le_or_gt p.first p.last with hle | hgt
    · rw [hbars.sweepState hfirst (readAt_agree hlong 0) (readAt_agree hshort 0) _ _
        (by omega), summary_agree sqrt annualize hbars hlast (by omega)]
    · -- a slice that ends before it begins has no bars
      have hempty : (p.last - p.first).toNat = 0 := by omega
      rw [hempty, summary_agree sqrt annualize hbars hlast (by omega)]
      rfl

theorem frameCoupledMetrics_eq (smaPeriod : ℤ) (f : Frame) :
    frameCoupledMetrics sqrt annualize events atrPeriod p smaPeriod f =
      (frameMetrics sqrt annualize events atrPeriod p smaPeriod smaPeriod f).map
        (·.toSliceMetrics) := by
  unfold frameCoupledMetrics frameMetrics
  cases frameZ sqrt smaPeriod f with
  | none => rfl
  | some z =>
    simp only [Option.bind_eq_bind, Option.bind_some, Option.pure_def, Option.map_some,
      simulate_toSliceMetrics]

/-- Frames that share their first `m` bars leave the kernels in the same state after every bar
among them, and give a slice that ends there the same metrics: neither the averages, the true
ranges, the session mask and the dividends, each computed over the whole frame, nor the kernels
let a later bar in. -/
theorem no_look_ahead (hshared : f.take m = g.take m) (hfirst : 0 ≤ p.first) :
    (∀ k : ℕ, p.first + k ≤ m →
      frameState sqrt events atrPeriod p smaPeriodLong smaPeriodShort k f =
        frameState sqrt events atrPeriod p smaPeriodLong smaPeriodShort k g) ∧
    (0 < p.last → p.last ≤ m →
      frameMetrics sqrt annualize events atrPeriod p smaPeriodLong smaPeriodShort f =
          frameMetrics sqrt annualize events atrPeriod p smaPeriodLong smaPeriodShort g ∧
        frameCoupledMetrics sqrt annualize events atrPeriod p smaPeriodLong f =
          frameCoupledMetrics sqrt annualize events atrPeriod p smaPeriodLong g) := by
  refine ⟨fun k hk => frameState_agree sqrt events atrPeriod _ _ hshared hfirst hk,
    fun hend hlast => ⟨frameMetrics_agree sqrt annualize events atrPeriod _ _ hshared hfirst hend
      hlast, ?_⟩⟩
  rw [frameCoupledMetrics_eq, frameCoupledMetrics_eq,
    frameMetrics_agree sqrt annualize events atrPeriod _ _ hshared hfirst hend hlast]

end Frames

theorem year_in_calendar : 1 ≤ 2024 ∧ 2024 ≤ 9999 := by decide

theorem january_in_year : 1 ≤ 1 ∧ 1 ≤ 12 := by decide

def barOn (i : ℕ) (close : ℚ) : FrameBar where
  openPrice := close
  high := close + 1
  low := close - 1
  close := close
  date := ⟨2024, 1, i % 31 + 1, year_in_calendar, january_in_year, by
    show 1 ≤ i % 31 + 1 ∧ i % 31 + 1 ≤ 31
    omega⟩
  regime := 1

def calmThenWild : List ℚ :=
  [10, 11, 10, 11, 10, 11, 10, 11, 10, 11, 10, 11, 10, 11, 10, 11, 8, 9, 11, 10, 14, 11]

def wildParams : SliceParams :=
  { risingParams with exitSigma := 1, maxRiskPct := 1 / 2, last := 22 }

/-- A slice that trades past its warm-up, then a crash or a rally: the slice is the same. -/
theorem no_look_ahead_crash_or_rally :
    frameMetrics id 1 [] 2 wildParams 15 16 ((calmThenWild ++ [1]).mapIdx barOn) =
      frameMetrics id 1 [] 2 wildParams 15 16 ((calmThenWild ++ [99]).mapIdx barOn) := by
  have hshared : ((calmThenWild ++ [1]).mapIdx barOn).take 22 =
      ((calmThenWild ++ [99]).mapIdx barOn).take 22 := rfl
  have hbounds : 0 ≤ wildParams.first ∧ 0 < wildParams.last ∧ wildParams.last ≤ (22 : ℕ) := by
    simp [wildParams, risingParams]
  exact ((no_look_ahead id 1 [] 2 15 16 hshared hbounds.1).2 hbounds.2.1 hbounds.2.2).1

end TradingPlatform.Backtest
