import TradingPlatform.Lib.Moments
import TradingPlatform.Lib.Window
import TradingPlatform.Math.Indicators

/-! # The indicator series of a sweep

A sweep computes its averages, deviations and true ranges once for the whole
series, where the live path computes them on the history up to a bar. The
sliding sums give what the two passes give at every bar that is warm. The two
true range averages differ at the first of their bars. -/

namespace TradingPlatform.Backtest

open TradingPlatform.Math TradingPlatform.Lib.Window TradingPlatform.Lib.Moments
open TradingPlatform.Lib.Runs

variable {K : Type} [Field K] [LinearOrder K] (sqrt : K → K)

/-! ## The averages and deviations -/

structure WindowSums (K : Type) where
  windowSum : K
  windowSqSum : K

/-- The sums with the close of the index, and without the one that leaves the window. -/
def slide (closes : List K) (smaPeriod : ℤ) (s : WindowSums K) (i : ℕ) : WindowSums K :=
  let c := closes.getD i 0
  let windowSum := s.windowSum + c
  let windowSqSum := s.windowSqSum + c * c
  if smaPeriod ≤ i then
    let old := closes.getD (i - smaPeriod).toNat 0
    ⟨windowSum - old, windowSqSum - old * old⟩
  else ⟨windowSum, windowSqSum⟩

/-- One index of the loop, and what it writes. -/
def smaStdStep (closes : List K) (smaPeriod : ℤ) (s : WindowSums K) (i : ℕ) :
    WindowSums K × K × K :=
  let s := slide closes smaPeriod s i
  if smaPeriod - 1 ≤ i then
    let mean := s.windowSum / (smaPeriod : K)
    let var := s.windowSqSum / (smaPeriod : K) - mean * mean
    (s, mean, sqrt (if var < 0 then 0 else var))
  else (s, 0, 0)

def precomputeSmaStd (closes : List K) (smaPeriod : ℤ) : List K × List K :=
  let n := closes.length
  if smaPeriod ≤ 0 ∨ n < smaPeriod then (List.replicate n 0, List.replicate n 0)
  else
    let written := outputs (smaStdStep sqrt closes smaPeriod) ⟨0, 0⟩ (List.range n)
    (written.map (·.1), written.map (·.2))

/-! ## The true ranges -/

/-- The true range of bar `j` in the sweep, which has no close before the first bar. -/
def sweepTrueRange (highs lows closes : List K) (j : ℕ) : K :=
  if j = 0 then highs.getD j 0 - lows.getD j 0
  else
    let hl := highs.getD j 0 - lows.getD j 0
    let hc := |highs.getD j 0 - closes.getD (j - 1) 0|
    let lc := |lows.getD j 0 - closes.getD (j - 1) 0|
    max (max hl hc) lc

def precomputeAtrSeries (highs lows closes : List K) (period : ℤ) : List K :=
  let n := closes.length
  if period ≤ 0 ∨ n < period then List.replicate n 0
  else
    (List.range n).map fun (i : ℕ) =>
      if (i : ℤ) < period - 1 then 0
      else
        ((List.range' (i - period + 1 : ℤ).toNat period.toNat).map
          (sweepTrueRange highs lows closes)).sum / (period : K)

/-- The true range of bar `i` on the live path. -/
def liveTrueRange (highs lows closes : List K) (i : ℕ) : K :=
  let hl := highs.getD i 0 - lows.getD i 0
  let hc := if 0 < i then |highs.getD i 0 - closes.getD (i - 1) 0| else hl
  let lc := if 0 < i then |lows.getD i 0 - closes.getD (i - 1) 0| else hl
  max (max hl hc) lc

def computeAtr (highs lows closes : List K) (period : ℤ) : K :=
  let n := closes.length
  if n < period + 1 ∨ period ≤ 0 then 0
  else
    ((List.range' (n - period).toNat period.toNat).map (liveTrueRange highs lows closes)).sum /
      (period : K)

/-! ## The sliding sums -/

section Sliding

variable {closes : List K} {n : ℕ}

/-- The sums over the window that ends before index `i`. -/
def WindowSums.Over (s : WindowSums K) (closes : List K) (n i : ℕ) : Prop :=
  s.windowSum = (window closes n i).sum ∧ s.windowSqSum = squares (window closes n i)

omit [LinearOrder K] in
theorem squares_window (closes : List K) (n i : ℕ) :
    squares (window closes n i) = (window (closes.map fun x => x * x) n i).sum := by
  simp [squares, window, List.map_take, List.map_drop]

omit [Field K] [LinearOrder K] in
theorem window_succ_of_lt {closes : List K} {i : ℕ} (hi : i < closes.length) (h : i < n) :
    window closes n (i + 1) = window closes n i ++ [closes[i]] := by
  rw [window_of_le h, window_of_le h.le, List.take_append_getElem hi]

omit [LinearOrder K] in
theorem squares_window_succ {i : ℕ} (hi : i < closes.length) (hn : n + 1 ≤ i) :
    squares (window closes (n + 1) (i + 1)) =
      squares (window closes (n + 1) i) +
        (closes.getD i 0 * closes.getD i 0 -
          closes.getD (i - (n + 1)) 0 * closes.getD (i - (n + 1)) 0) := by
  have hlen : i < (closes.map fun x => x * x).length := by simpa using hi
  have hsucc := sum_window_succ hlen hn
  have hsq : ∀ j, (closes.map fun x => x * x).getD j 0 = closes.getD j 0 * closes.getD j 0 := by
    intro j
    simp only [List.getD_eq_getElem?_getD, List.getElem?_map]
    cases closes[j]? with
    | none => simp
    | some x => rfl
  rw [hsq, hsq] at hsucc
  rw [squares_window, squares_window, hsucc]

omit [LinearOrder K] in
/-- One index moves the sums to the next window. -/
theorem slide_over {s : WindowSums K} {i : ℕ} (hi : i < closes.length)
    (hs : s.Over closes (n + 1) i) :
    (slide closes (n + 1 : ℕ) s i).Over closes (n + 1) (i + 1) := by
  obtain ⟨hsum, hsq⟩ := hs
  unfold slide WindowSums.Over
  by_cases hout : n + 1 ≤ i
  · have hold : ((i : ℤ) - (n + 1 : ℕ)).toNat = i - (n + 1) := by omega
    have hle : ((n + 1 : ℕ) : ℤ) ≤ i := by exact_mod_cast hout
    simp only [if_pos hle, hold, hsum, hsq, sum_window_succ hi hout, squares_window_succ hi hout]
    constructor
    · ring
    · ring
  · have hlt : ¬ ((n + 1 : ℕ) : ℤ) ≤ i := by exact_mod_cast hout
    have hc : closes.getD i 0 = closes[i] := List.getD_eq_getElem _ _ hi
    simp only [if_neg hlt, hsum, hsq, window_succ_of_lt hi (not_le.mp hout), hc]
    constructor
    · simp
    · simp

theorem smaStdStep_fst (closes : List K) (smaPeriod : ℤ) (s : WindowSums K) (i : ℕ) :
    (smaStdStep sqrt closes smaPeriod s i).1 = slide closes smaPeriod s i := by
  unfold smaStdStep
  dsimp only
  split
  · rfl
  · rfl

/-- The sums before index `i` are over the window before it. -/
theorem run_over (i : ℕ) (hi : i ≤ closes.length) :
    (run (fun s e => (smaStdStep sqrt closes (n + 1 : ℕ) s e).1) ⟨0, 0⟩
      (List.range i)).Over closes (n + 1) i := by
  induction i with
  | zero => exact ⟨by simp [window], by simp [window]⟩
  | succ i ih =>
    rw [List.range_succ, run_append, run_cons, run_nil, smaStdStep_fst]
    exact slide_over hi (ih (by omega))

omit [Field K] [LinearOrder K] in
theorem length_window {i : ℕ} (hi : i < closes.length) (hwarm : n ≤ i) :
    (window closes (n + 1) (i + 1)).length = n + 1 := by
  simp only [window, List.length_drop, List.length_take]
  omega

omit [Field K] [LinearOrder K] in
theorem trailing_take {i : ℕ} (hi : i < closes.length) :
    trailing (closes.take (i + 1)) (n + 1 : ℕ) = window closes (n + 1) (i + 1) := by
  rw [trailing, window, List.length_take, Nat.min_eq_left hi, Int.toNat_natCast]

variable [IsStrictOrderedRing K]

/-- The variance from the two sums is that of the two passes, and never clamped. -/
theorem slidingVar_eq (xs : List K) (hlen : xs.length = n + 1) :
    squares xs / ((n + 1 : ℕ) : K) - xs.sum / ((n + 1 : ℕ) : K) * (xs.sum / ((n + 1 : ℕ) : K)) =
      deviations (xs.sum / ((n + 1 : ℕ) : K)) xs / ((n + 1 : ℕ) : K) := by
  have hne : ((n + 1 : ℕ) : K) ≠ 0 := Nat.cast_ne_zero.mpr (Nat.succ_ne_zero n)
  have hmean := deviations_mean xs (by rw [hlen]; exact hne)
  rw [hlen] at hmean
  rw [hmean]
  field_simp

theorem smaStdStep_written {s : WindowSums K} {i : ℕ} (hi : i < closes.length) (hwarm : n ≤ i)
    (hs : s.Over closes (n + 1) i) :
    rollingSma (closes.take (i + 1)) (n + 1 : ℕ) =
      some (smaStdStep sqrt closes (n + 1 : ℕ) s i).2.1 ∧
    rollingStd sqrt (closes.take (i + 1)) (n + 1 : ℕ) =
      some (smaStdStep sqrt closes (n + 1 : ℕ) s i).2.2 := by
  obtain ⟨hsum, hsq⟩ := slide_over hi hs
  have hready : ((n + 1 : ℕ) : ℤ) - 1 ≤ i := by omega
  have hlong : ¬ ((((closes.take (i + 1)).length : ℕ) : ℤ) < (n + 1 : ℕ) ∨
      ((n + 1 : ℕ) : ℤ) ≤ 0) := by
    rw [List.length_take, Nat.min_eq_left hi]
    omega
  have hcast : (((n + 1 : ℕ) : ℤ) : K) = ((n + 1 : ℕ) : K) := Int.cast_natCast _
  have hsma : rollingSma (closes.take (i + 1)) (n + 1 : ℕ) =
      some ((window closes (n + 1) (i + 1)).sum / ((n + 1 : ℕ) : K)) := by
    rw [rollingSma, if_neg hlong, trailing_take hi, hcast]
  have hvar := slidingVar_eq _ (length_window hi hwarm)
  have hnonneg : 0 ≤ deviations ((window closes (n + 1) (i + 1)).sum / ((n + 1 : ℕ) : K))
      (window closes (n + 1) (i + 1)) / ((n + 1 : ℕ) : K) :=
    div_nonneg (deviations_nonneg _ _) (Nat.cast_nonneg _)
  rw [rollingStd, hsma, trailing_take hi]
  unfold smaStdStep
  constructor
  · simp only [if_pos hready, hsum, hcast]
  · simp only [if_pos hready, hsum, hsq, hcast, hvar, if_neg (not_lt.mpr hnonneg)]
    rfl

end Sliding

/-! ## The warm-up of the true range averages -/

section Ranges

variable (highs lows closes : List K)

/-- The live path reads the first bar as the sweep does, where it reads it. -/
theorem liveTrueRange_eq (i : ℕ) :
    liveTrueRange highs lows closes i = sweepTrueRange highs lows closes i := by
  unfold liveTrueRange sweepTrueRange
  by_cases hi : i = 0
  · simp [hi]
  · simp [hi, Nat.pos_of_ne_zero hi]

theorem sweepTrueRange_take {i j : ℕ} (hj : j < i) :
    sweepTrueRange (highs.take i) (lows.take i) (closes.take i) j =
      sweepTrueRange highs lows closes j := by
  have hget : ∀ (xs : List K) k, k < i → (xs.take i).getD k 0 = xs.getD k 0 := by
    intro xs k hk
    rw [List.getD_eq_getElem?_getD, List.getElem?_take_of_lt hk, List.getD_eq_getElem?_getD]
  unfold sweepTrueRange
  simp only [hget highs j hj, hget lows j hj, hget closes (j - 1) (by omega)]

variable {highs lows closes}

/-- The live average on the first `i + 1` bars: none yet on as many as the period. -/
theorem computeAtr_take {n i : ℕ} (hi : i < closes.length) :
    computeAtr (highs.take (i + 1)) (lows.take (i + 1)) (closes.take (i + 1)) (n + 1 : ℕ) =
      if i ≤ n then 0
      else
        ((List.range' (i - n) (n + 1)).map (sweepTrueRange highs lows closes)).sum /
          ((n + 1 : ℕ) : K) := by
  have hlen : (closes.take (i + 1)).length = i + 1 := List.length_take_of_le hi
  unfold computeAtr
  simp only [hlen]
  by_cases hshort : i ≤ n
  · rw [if_pos hshort, if_pos (by omega)]
  · rw [if_neg hshort, if_neg (by omega), Int.cast_natCast]
    congr 2
    have hstart : (((i + 1 : ℕ) : ℤ) - (n + 1 : ℕ)).toNat = i - n := by omega
    rw [hstart, Int.toNat_natCast]
    refine List.map_congr_left fun j hj => ?_
    rw [liveTrueRange_eq]
    exact sweepTrueRange_take highs lows closes (by have := List.mem_range'_1.mp hj; omega)

theorem precomputeAtrSeries_getElem {n i : ℕ} (hlong : n + 1 ≤ closes.length)
    (hi : i < closes.length) :
    (precomputeAtrSeries highs lows closes (n + 1 : ℕ))[i]? =
      some (if i < n then 0
        else
          ((List.range' (i - n) (n + 1)).map (sweepTrueRange highs lows closes)).sum /
            ((n + 1 : ℕ) : K)) := by
  unfold precomputeAtrSeries
  have hnot : ¬ (((n + 1 : ℕ) : ℤ) ≤ 0 ∨ (closes.length : ℤ) < (n + 1 : ℕ)) := by omega
  have hiff : ((i : ℤ) < ((n + 1 : ℕ) : ℤ) - 1) ↔ i < n := by omega
  have hstart : ((i : ℤ) - ((n + 1 : ℕ) : ℤ) + 1).toNat = i - n := by omega
  dsimp only
  rw [if_neg hnot, List.getElem?_map, List.getElem?_range hi, Option.map_some]
  simp only [hiff, hstart, Int.toNat_natCast, Int.cast_natCast]

end Ranges

/-! ## Where the sweep and the live path agree -/

/-- At every bar past the warm-up the precomputed average and deviation are the rolling ones of
the closes so far, and at every bar the precomputed true range average is the live one of the
bars so far. -/
structure SeriesAgree (sqrt : K → K) (highs lows closes : List K) (period : ℤ) : Prop where
  sma : ∀ i < closes.length, period - 1 ≤ i →
    (precomputeSmaStd sqrt closes period).1[i]? = rollingSma (closes.take (i + 1)) period
  std : ∀ i < closes.length, period - 1 ≤ i →
    (precomputeSmaStd sqrt closes period).2[i]? = rollingStd sqrt (closes.take (i + 1)) period
  atr : ∀ i < closes.length,
    (precomputeAtrSeries highs lows closes period)[i]? =
      some (computeAtr (highs.take (i + 1)) (lows.take (i + 1)) (closes.take (i + 1)) period)

theorem precomputeSmaStd_getElem [IsStrictOrderedRing K] {closes : List K} {n i : ℕ}
    (hlong : n + 1 ≤ closes.length) (hi : i < closes.length) (hwarm : n ≤ i) :
    (precomputeSmaStd sqrt closes (n + 1 : ℕ)).1[i]? =
        rollingSma (closes.take (i + 1)) (n + 1 : ℕ) ∧
      (precomputeSmaStd sqrt closes (n + 1 : ℕ)).2[i]? =
        rollingStd sqrt (closes.take (i + 1)) (n + 1 : ℕ) := by
  have hnot : ¬ (((n + 1 : ℕ) : ℤ) ≤ 0 ∨ (closes.length : ℤ) < (n + 1 : ℕ)) := by omega
  obtain ⟨hsma, hstd⟩ := smaStdStep_written sqrt hi hwarm (run_over sqrt i hi.le)
  unfold precomputeSmaStd
  dsimp only
  rw [if_neg hnot, hsma, hstd]
  simp only [List.getElem?_map, getElem?_outputs, List.getElem?_range hi, Option.map_some,
    List.take_range, Nat.min_eq_left hi.le]
  exact ⟨trivial, trivial⟩

/-- The series agree exactly when the first `period` bars are not all there, or have true
ranges that sum to zero: on as many bars as the period the live average is zero, and the
sweep's is the average of their true ranges. -/
theorem seriesAgree_iff [IsStrictOrderedRing K] (sqrt : K → K) (highs lows closes : List K)
    {period : ℤ} (hperiod : 1 ≤ period) :
    SeriesAgree sqrt highs lows closes period ↔
      closes.length < period ∨
        ((List.range period.toNat).map (sweepTrueRange highs lows closes)).sum = 0 := by
  obtain ⟨n, rfl⟩ : ∃ n : ℕ, period = (n + 1 : ℕ) := ⟨(period - 1).toNat, by omega⟩
  have hne : ((n + 1 : ℕ) : K) ≠ 0 := Nat.cast_ne_zero.mpr (Nat.succ_ne_zero n)
  rw [Int.toNat_natCast, List.range_eq_range']
  constructor
  · intro h
    rcases Nat.lt_or_ge closes.length (n + 1) with hshort | hlong
    · exact Or.inl (by exact_mod_cast hshort)
    · right
      have hn : n < closes.length := hlong
      have hatr := h.atr n hn
      rw [precomputeAtrSeries_getElem hlong hn, computeAtr_take hn, if_neg (lt_irrefl n),
        if_pos le_rfl, Nat.sub_self] at hatr
      exact (div_eq_zero_iff.mp (Option.some.inj hatr)).resolve_right hne
  · intro hcond
    rcases Nat.lt_or_ge closes.length (n + 1) with hshort | hlong
    · have hcold : ∀ i < closes.length, ¬ ((n + 1 : ℕ) : ℤ) - 1 ≤ i := by
        intro i hi
        omega
      refine ⟨fun i hi hw => absurd hw (hcold i hi), fun i hi hw => absurd hw (hcold i hi), ?_⟩
      intro i hi
      have hnone : ((n + 1 : ℕ) : ℤ) ≤ 0 ∨ (closes.length : ℤ) < (n + 1 : ℕ) :=
        Or.inr (by exact_mod_cast hshort)
      rw [computeAtr_take hi, if_pos (by omega), precomputeAtrSeries, if_pos hnone,
        List.getElem?_replicate, if_pos hi]
    · have hzero := hcond.resolve_left (by omega)
      refine ⟨fun i hi hw => (precomputeSmaStd_getElem sqrt hlong hi (by omega)).1,
        fun i hi hw => (precomputeSmaStd_getElem sqrt hlong hi (by omega)).2, fun i hi => ?_⟩
      rw [precomputeAtrSeries_getElem hlong hi, computeAtr_take hi]
      rcases Nat.lt_trichotomy i n with hlt | rfl | hgt
      · rw [if_pos hlt, if_pos hlt.le]
      · -- the one bar the two warm-ups disagree on
        rw [if_neg (lt_irrefl i), if_pos le_rfl, Nat.sub_self, hzero, zero_div]
      · rw [if_neg (by omega), if_neg (by omega)]

/-- Flat bars: no true range at all, so the series agree. -/
theorem seriesAgree_flat_bars :
    SeriesAgree (fun x : Rat => x) [5, 5, 5] [5, 5, 5] [5, 5, 5] 2 :=
  (seriesAgree_iff (fun x : Rat => x) [5, 5, 5] [5, 5, 5] [5, 5, 5] (by decide)).mpr
    (Or.inr (by decide +kernel))

/-- Two bars and a period of two: the sweep's average is ready, the live one is not. -/
theorem not_seriesAgree_first_average :
    ¬ SeriesAgree (fun x : Rat => x) [11, 12] [9, 10] [10, 11] 2 := by
  intro h
  exact absurd (h.atr 1 (by decide)) (by decide +kernel)

end TradingPlatform.Backtest
