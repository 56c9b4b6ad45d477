import TradingPlatform.Backtest.IndicatorSeries
import Mathlib.Algebra.Order.Field.Rat
import Mathlib.Data.Rat.Sqrt

/-! # The single-window scans

The batch scan of a leg with one window slides two sums along the closes, where the live path
averages the window anew at every bar. Over exact arithmetic both decide alike, the time stop
included; sums of floats keep what an earlier bar rounded off. -/

namespace TradingPlatform.Backtest.AsymmetricScan

open TradingPlatform.Math TradingPlatform.Lib.Runs TradingPlatform.Lib.Window

structure AsymmetricParams (K : Type) where
  smaPeriod : ℤ
  longThreshold : K
  shortThreshold : K
  exitSigma : K
  maxBarsInTrade : ℤ := 0

variable {K : Type} [Field K] [LinearOrder K] (sqrt : K → K)

section Source
variable (q : AsymmetricParams K) (closes : List K)

/-- One more bar of a held side, where bars are counted at all. -/
def counted (book : ScanState) : ScanState :=
  if 0 < q.maxBarsInTrade ∧ book.positionSide ≠ none then
    { book with barsInTrade := book.barsInTrade + 1 }
  else book

/-- The time stop, and then the code of these statistics. -/
def decideAt (book : ScanState) (c : K) (sma std : Option K) : ScanState × SignalAction :=
  if 0 < q.maxBarsInTrade ∧ book.positionSide ≠ none ∧
      q.maxBarsInTrade ≤ (counted q book).barsInTrade then ({}, .exit)
  else
    let code := meanReversionActionAsymmetric c sma std q.longThreshold q.shortThreshold q.exitSigma
    (if 0 < q.maxBarsInTrade then (counted q book).after code else counted q book, code)

structure AsymmetricState (K : Type) where
  sums : WindowSums K
  book : ScanState

/-- One index of `scan_mean_reversion_signals_asymmetric`. -/
def asymmetricStep (s : AsymmetricState K) (i : ℕ) : AsymmetricState K × SignalAction :=
  let sums := slide closes q.smaPeriod s.sums i
  if q.smaPeriod - 1 ≤ i then
    let sma := sums.windowSum / (q.smaPeriod : K)
    let var := sums.windowSqSum / (q.smaPeriod : K) - sma * sma
    let std := sqrt (if var < 0 then 0 else var)
    let (book, action) := decideAt q s.book (closes.getD i 0) (some sma) (some std)
    (⟨sums, book⟩, action)
  else (⟨sums, s.book⟩, .hold)

def scanMeanReversionSignalsAsymmetric : List SignalAction :=
  if q.smaPeriod ≤ 0 ∨ (closes.length : ℤ) < q.smaPeriod then List.replicate closes.length .hold
  else outputs (asymmetricStep sqrt q closes) ⟨⟨0, 0⟩, {}⟩ (List.range closes.length)

/-- The symmetric scan, without a time stop. -/
def scanMeanReversionSignals (smaPeriod : ℤ) (threshold exitSigma : K) : List SignalAction :=
  scanMeanReversionSignalsAsymmetric sqrt ⟨smaPeriod, threshold, threshold, exitSigma, 0⟩ closes

/-- `mean_reversion_action`. -/
def meanReversionAction (close : K) (sma std : Option K) (threshold exitSigma : K) :
    SignalAction :=
  if std.any (· ≤ 0) then .hold
  else
    match zScore close sma std with
    | none => .hold
    | some z =>
      if z < -threshold then .long
      else if threshold < z then .short
      else if |z| < exitSigma then .exit
      else .hold

/-! ## The plain scan -/

/-- One index of a scan that averages the window anew. -/
def rescanStep (book : ScanState) (i : ℕ) : ScanState × SignalAction :=
  if q.smaPeriod - 1 ≤ i then
    decideAt q book (closes.getD i 0) (rollingSma (closes.take (i + 1)) q.smaPeriod)
      (rollingStd sqrt (closes.take (i + 1)) q.smaPeriod)
  else (book, .hold)

def rescan : List SignalAction :=
  outputs (rescanStep sqrt q closes) {} (List.range closes.length)

end Source

/-! ## The sliding sums give the rolling statistics -/

section Agree
variable {q : AsymmetricParams K} {closes : List K}

theorem meanReversionAction_eq (close : K) (sma std : Option K) (threshold exitSigma : K) :
    meanReversionActionAsymmetric close sma std threshold threshold exitSigma =
      meanReversionAction close sma std threshold exitSigma := rfl

theorem asymmetricStep_sums (s : AsymmetricState K) (i : ℕ) :
    (asymmetricStep sqrt q closes s i).1.sums = slide closes q.smaPeriod s.sums i := by
  unfold asymmetricStep
  dsimp only
  split
  · rfl
  · rfl

/-- With the sums over the window before it, an index decides as the plain scan does. -/
theorem asymmetricStep_book [IsStrictOrderedRing K] {n : ℕ} (hperiod : q.smaPeriod = (n + 1 : ℕ))
    {s : AsymmetricState K} {i : ℕ} (hi : i < closes.length) (hs : s.sums.Over closes (n + 1) i) :
    ((asymmetricStep sqrt q closes s i).1.book, (asymmetricStep sqrt q closes s i).2) =
      rescanStep sqrt q closes s.book i := by
  unfold asymmetricStep rescanStep
  dsimp only
  by_cases hwarm : q.smaPeriod - 1 ≤ i
  · rw [if_pos hwarm, if_pos hwarm]
    obtain ⟨hsma, hstd⟩ := smaStdStep_written sqrt hi (by omega) hs
    rw [hperiod] at hwarm ⊢
    rw [hsma, hstd, smaStdStep]
    simp only [if_pos hwarm]
  · rw [if_neg hwarm, if_neg hwarm]

/-- Before index `i` the two scans hold the same, and the sums are over the window. -/
structure InStep (n : ℕ) (closes : List K) (i : ℕ) (s : AsymmetricState K) (book : ScanState) :
    Prop where
  sums : s.sums.Over closes (n + 1) i
  book : s.book = book

theorem InStep.next [IsStrictOrderedRing K] {n : ℕ} (hperiod : q.smaPeriod = (n + 1 : ℕ))
    {s : AsymmetricState K} {book : ScanState} {i : ℕ} (hi : i < closes.length)
    (h : InStep n closes i s book) :
    InStep n closes (i + 1) (asymmetricStep sqrt q closes s i).1
        (rescanStep sqrt q closes book i).1 ∧
      (asymmetricStep sqrt q closes s i).2 = (rescanStep sqrt q closes book i).2 := by
  have hstep := asymmetricStep_book sqrt hperiod hi h.sums
  rw [h.book] at hstep
  refine ⟨⟨?_, congrArg Prod.fst hstep⟩, congrArg Prod.snd hstep⟩
  rw [asymmetricStep_sums, hperiod]
  exact slide_over hi h.sums

theorem range_split {n i : ℕ} {pre rest : List ℕ} (h : List.range n = pre ++ i :: rest) :
    pre.length = i ∧ i < n := by
  have hlen := congrArg List.length h
  have hget := congrArg (·[pre.length]?) h
  simp only [List.length_range, List.length_append, List.length_cons] at hlen
  simp only [List.getElem?_append_right le_rfl, Nat.sub_self, List.getElem?_cons_zero] at hget
  rw [List.getElem?_range (by omega)] at hget
  exact ⟨Option.some.inj hget, by have := Option.some.inj hget; omega⟩

/-- A scan with no warm bar holds all along. -/
theorem rescan_cold (hcold : q.smaPeriod ≤ 0 ∨ (closes.length : ℤ) < q.smaPeriod) :
    rescan sqrt q closes = List.replicate closes.length .hold := by
  have hstays : ∀ i ∈ List.range closes.length,
      rescanStep sqrt q closes {} i = ({}, SignalAction.hold) := by
    intro i hi
    have hin := List.mem_range.mp hi
    unfold rescanStep
    split
    case isFalse => rfl
    case isTrue hwarm =>
      have hnone : rollingSma (closes.take (i + 1)) q.smaPeriod = none := by
        refine if_pos (.inr ?_)
        omega
      rw [rollingStd, hnone]
      simp [decideAt, counted, meanReversionActionAsymmetric, zScore, ScanState.after]
  rw [rescan, outputs_of_stays hstays, List.length_range]

theorem sliding_sums_agree [IsStrictOrderedRing K] (q : AsymmetricParams K) (closes : List K) :
    scanMeanReversionSignalsAsymmetric sqrt q closes = rescan sqrt q closes := by
  unfold scanMeanReversionSignalsAsymmetric
  by_cases hcold : q.smaPeriod ≤ 0 ∨ (closes.length : ℤ) < q.smaPeriod
  · rw [if_pos hcold, rescan_cold sqrt hcold]
  rw [if_neg hcold, rescan]
  rw [not_or, not_le, not_lt] at hcold
  obtain ⟨n, hperiod⟩ : ∃ n : ℕ, q.smaPeriod = (n + 1 : ℕ) := ⟨(q.smaPeriod - 1).toNat, by omega⟩
  refine outputs_related
    (R := fun pre s book => InStep n closes pre.length s book) ?_
    ⟨⟨by simp [window], by simp [window]⟩, rfl⟩
  intro pre i rest s book hsplit h
  obtain ⟨rfl, hi⟩ := range_split hsplit
  rw [List.length_append, List.length_singleton]
  exact h.next sqrt hperiod hi

/-- Over exact arithmetic the sliding scan takes the actions of the plain one, whatever the
closes, the period and the time stop. -/
theorem scan_eq_rescan [IsStrictOrderedRing K] (q : AsymmetricParams K) (closes : List K) :
    scanMeanReversionSignalsAsymmetric sqrt q closes = rescan sqrt q closes :=
  sliding_sums_agree sqrt q closes

/-- Closes up and down, with a time stop of two bars. -/
theorem scan_eq_rescan_up_down :
    scanMeanReversionSignalsAsymmetric Rat.sqrt ⟨2, 1 / 2, 1 / 2, 0, 2⟩ [12, 10, 12, 12, 13] =
      rescan Rat.sqrt ⟨2, 1 / 2, 1 / 2, 0, 2⟩ [12, 10, 12, 12, 13] :=
  scan_eq_rescan Rat.sqrt ⟨2, 1 / 2, 1 / 2, 0, 2⟩ [12, 10, 12, 12, 13]

omit [LinearOrder K] in
theorem rollingSma_cold {i : ℕ} {period : ℤ} (hi : i < closes.length)
    (hcold : ¬ period - 1 ≤ i) : rollingSma (closes.take (i + 1)) period = none := by
  refine if_pos (.inl ?_)
  rw [List.length_take, Nat.min_eq_left hi]
  omega

/-- Without a time stop an index is decided by its own window alone. -/
theorem rescanStep_unstopped (hmax : q.maxBarsInTrade ≤ 0) {i : ℕ} (hi : i < closes.length)
    (book : ScanState) :
    rescanStep sqrt q closes book i =
      (book, meanReversionActionAsymmetric (closes.getD i 0)
        (rollingSma (closes.take (i + 1)) q.smaPeriod)
        (rollingStd sqrt (closes.take (i + 1)) q.smaPeriod)
        q.longThreshold q.shortThreshold q.exitSigma) := by
  unfold rescanStep
  split
  case isTrue => simp [decideAt, counted, hmax.not_gt]
  case isFalse hcold =>
    rw [rollingStd, rollingSma_cold hi hcold]
    simp [meanReversionActionAsymmetric, zScore]

/-- The symmetric scan decides every bar by `mean_reversion_action` on its own window. -/
theorem scanMeanReversionSignals_eq [IsStrictOrderedRing K] (closes : List K) (smaPeriod : ℤ)
    (threshold exitSigma : K) :
    scanMeanReversionSignals sqrt closes smaPeriod threshold exitSigma =
      (List.range closes.length).map fun i =>
        meanReversionAction (closes.getD i 0) (rollingSma (closes.take (i + 1)) smaPeriod)
          (rollingStd sqrt (closes.take (i + 1)) smaPeriod) threshold exitSigma := by
  rw [scanMeanReversionSignals, sliding_sums_agree, rescan]
  refine List.ext_getElem? fun i => ?_
  rw [getElem?_outputs, List.getElem?_map]
  refine Option.map_congr fun j hj => ?_
  have hin : j < closes.length := List.mem_range.mp (List.mem_of_getElem? hj)
  rw [rescanStep_unstopped sqrt le_rfl hin, meanReversionAction_eq]

end Agree

end TradingPlatform.Backtest.AsymmetricScan
