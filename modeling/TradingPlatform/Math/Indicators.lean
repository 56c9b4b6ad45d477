import TradingPlatform.Models
import TradingPlatform.Lib.Ring
import TradingPlatform.Lib.Runs
import Mathlib.Algebra.Order.Field.Basic

/-! # Indicators of the mean reversion legs

The rolling statistics, the two maps from a reading to an action, and the batch
scan for a leg with one horizon a side. NaN is `none`: no comparison with it
holds. The power `** 0.5` is a parameter. -/

namespace TradingPlatform.Math

open TradingPlatform.Lib.Ring TradingPlatform.Lib.Runs

variable {K : Type} [Field K] [LinearOrder K] (sqrt : K → K)

/-- The trailing `period` elements. -/
def trailing (arr : List K) (period : ℤ) : List K := arr.drop (arr.length - period.toNat)

def rollingSma (arr : List K) (period : ℤ) : Option K :=
  if (arr.length : ℤ) < period ∨ period ≤ 0 then none
  else some ((trailing arr period).sum / (period : K))

def rollingStd (arr : List K) (period : ℤ) : Option K :=
  (rollingSma arr period).map fun mean =>
    sqrt (((trailing arr period).map fun x => (x - mean) * (x - mean)).sum / (period : K))

/-- `(close - sma) / std`. -/
def zScore (close : K) (sma std : Option K) : Option K :=
  sma.bind fun m => std.map fun s => (close - m) / s

def meanReversionActionAsymmetric (close : K) (sma std : Option K)
    (longThreshold shortThreshold exitSigma : K) : SignalAction :=
  if std.any (· ≤ 0) then .hold
  else
    match zScore close sma std with
    | none => .hold
    | some z =>
      if z < -longThreshold then .long
      else if shortThreshold < z then .short
      else if |z| < exitSigma then .exit
      else .hold

/-- No side is flat. -/
def meanReversionActionDecoupled (zLong zShort : Option K)
    (longThreshold shortThreshold exitSigma : K) (positionSide : Option PositionSide) :
    SignalAction :=
  match zLong, zShort with
  | some zLong, some zShort =>
    match positionSide with
    | none =>
      if zLong < -longThreshold then .long
      else if shortThreshold < zShort then .short
      else .hold
    | some .long => if |zLong| < exitSigma then .exit else .hold
    | some .short => if |zShort| < exitSigma then .exit else .hold
  | _, _ => .hold

/-- The reading a side exits on. -/
def sideReading (zLong zShort : K) : PositionSide → K
  | .long => zLong
  | .short => zShort

section Decoupled
variable {zLong zShort : Option K} {longThreshold shortThreshold exitSigma : K}

theorem decoupled_flat_ne_exit :
    meanReversionActionDecoupled zLong zShort longThreshold shortThreshold exitSigma none ≠
      .exit := by
  unfold meanReversionActionDecoupled
  split
  · dsimp only
    split_ifs <;> simp
  · simp

/-- A held leg and a flat one decide alike exactly when neither decides anything. -/
theorem decoupled_flat_eq_iff (side : PositionSide) :
    meanReversionActionDecoupled zLong zShort longThreshold shortThreshold exitSigma none =
        meanReversionActionDecoupled zLong zShort longThreshold shortThreshold exitSigma
          (some side) ↔
      ∀ l ∈ zLong, ∀ s ∈ zShort,
        exitSigma ≤ |sideReading l s side| ∧ -longThreshold ≤ l ∧ s ≤ shortThreshold := by
  unfold meanReversionActionDecoupled
  cases zLong with
  | none => simp
  | some l =>
    cases zShort with
    | none => simp
    | some s =>
      simp only [Option.mem_def, Option.some.injEq, forall_eq', ← not_lt]
      cases side with
      | long =>
        by_cases hexit : |l| < exitSigma
        · simp only [sideReading, hexit, if_true, not_true_eq_false, false_and, iff_false]
          split_ifs <;> simp
        · simp only [sideReading, hexit, if_false, not_false_eq_true, true_and]
          split_ifs <;> simp_all
      | short =>
        by_cases hexit : |s| < exitSigma
        · simp only [sideReading, hexit, if_true, not_true_eq_false, false_and, iff_false]
          split_ifs <;> simp
        · simp only [sideReading, hexit, if_false, not_false_eq_true, true_and]
          split_ifs <;> simp_all

theorem decoupled_held (side : PositionSide) :
    meanReversionActionDecoupled zLong zShort longThreshold shortThreshold exitSigma
        (some side) = .exit ∨
      meanReversionActionDecoupled zLong zShort longThreshold shortThreshold exitSigma
        (some side) = .hold := by
  unfold meanReversionActionDecoupled
  cases side with
  | long =>
    split
    · dsimp only
      split_ifs <;> simp
    · simp
  | short =>
    split
    · dsimp only
      split_ifs <;> simp
    · simp

end Decoupled

/-! ## The decoupled scan -/

structure ScanParams (K : Type) where
  smaPeriodLong : ℤ
  smaPeriodShort : ℤ
  longThreshold : K
  shortThreshold : K
  exitSigma : K
  maxBarsInTrade : ℤ := 0

structure ScanState where
  positionSide : Option PositionSide := none
  barsInTrade : ℤ := 0
  deriving DecidableEq

section Scan
variable (q : ScanParams K) (closes : List K)

def ScanParams.maxPeriod (q : ScanParams K) : ℤ := max q.smaPeriodLong q.smaPeriodShort

/-- `closes[i - period + 1 : i + 1]`, at an index that is past the warm-up. -/
def scanWindow (closes : List K) (period : ℤ) (i : ℕ) : List K :=
  (closes.take (i + 1)).drop (i - period + 1).toNat

def scanStd (period : ℤ) (i : ℕ) : Option K := rollingStd sqrt (scanWindow closes period i) period

/-- `none` also past the end of the closes, where the scan never reads. -/
def scanZ (period : ℤ) (i : ℕ) : Option K :=
  closes[i]?.bind fun c =>
    zScore c (rollingSma (scanWindow closes period i) period) (scanStd sqrt closes period i)

def scanCode (s : ScanState) (i : ℕ) : SignalAction :=
  meanReversionActionDecoupled (scanZ sqrt closes q.smaPeriodLong i)
    (scanZ sqrt closes q.smaPeriodShort i) q.longThreshold q.shortThreshold q.exitSigma
    s.positionSide

/-- The book of the scan after a code. -/
def ScanState.after (s : ScanState) : SignalAction → ScanState
  | .long => ⟨some .long, if s.positionSide ≠ some .long then 0 else s.barsInTrade⟩
  | .short => ⟨some .short, if s.positionSide ≠ some .short then 0 else s.barsInTrade⟩
  | .exit => {}
  | .hold => s

def scanFlat (i : ℕ) : Prop :=
  (scanStd sqrt closes q.smaPeriodLong i).any (· ≤ 0) = true ∨
    (scanStd sqrt closes q.smaPeriodShort i).any (· ≤ 0) = true

instance (i : ℕ) : Decidable (scanFlat sqrt q closes i) := inferInstanceAs (Decidable (_ ∨ _))

def scanSignal (s : ScanState) (i : ℕ) : ScanState × SignalAction :=
  if scanFlat sqrt q closes i then (s, .hold)
  else (s.after (scanCode sqrt q closes s i), scanCode sqrt q closes s i)

/-- One index of `scan_mean_reversion_signals_decoupled`. -/
def scanStep (s : ScanState) (i : ℕ) : ScanState × SignalAction :=
  if (i : ℤ) < q.smaPeriodLong - 1 ∨ (i : ℤ) < q.smaPeriodShort - 1 then (s, .hold)
  else if 0 < q.maxBarsInTrade ∧ s.positionSide ≠ none then
    let s := { s with barsInTrade := s.barsInTrade + 1 }
    if q.maxBarsInTrade ≤ s.barsInTrade then ({}, .exit) else scanSignal sqrt q closes s i
  else scanSignal sqrt q closes s i

def scanMeanReversionSignalsDecoupled : List SignalAction :=
  if q.maxPeriod ≤ 0 ∨ (closes.length : ℤ) < q.maxPeriod then
    List.replicate closes.length .hold
  else outputs (scanStep sqrt q closes) {} (List.range closes.length)

end Scan

/-! ## What the statistics read -/

omit [Field K] [LinearOrder K] in
theorem trailing_trailing (xs : List K) (period : ℤ) :
    trailing (trailing xs period) period = trailing xs period := by
  simp only [trailing, List.length_drop, List.drop_drop]
  congr 1
  omega

omit [LinearOrder K] in
/-- The average sees the trailing elements and nothing else. -/
theorem rollingSma_congr {xs ys : List K} {period : ℤ}
    (h : 0 < period → trailing xs period = trailing ys period) :
    rollingSma xs period = rollingSma ys period := by
  unfold rollingSma
  rcases le_or_gt period 0 with hle | hpos
  · rw [if_pos (Or.inr hle), if_pos (Or.inr hle)]
  · have hlen := congrArg List.length (h hpos)
    simp only [trailing, List.length_drop] at hlen
    rw [h hpos]
    congr 1
    rw [eq_iff_iff]
    omega

omit [LinearOrder K] in
theorem rollingStd_congr {xs ys : List K} {period : ℤ}
    (h : 0 < period → trailing xs period = trailing ys period) :
    rollingStd sqrt xs period = rollingStd sqrt ys period := by
  unfold rollingStd
  rw [rollingSma_congr h]
  rcases le_or_gt period 0 with hle | hpos
  · have hnone : rollingSma ys period = none := if_pos (Or.inr hle)
    rw [hnone]
    rfl
  · rw [h hpos]

omit [Field K] [LinearOrder K] in
theorem trailing_scanWindow {closes : List K} {i : ℕ} (hi : i < closes.length) {period : ℤ}
    (hpos : 0 < period) :
    trailing (scanWindow closes period i) period = trailing (closes.take (i + 1)) period := by
  have hcut : scanWindow closes period i = trailing (closes.take (i + 1)) period := by
    rw [scanWindow, trailing, List.length_take, Nat.min_eq_left hi]
    congr 1
    omega
  rw [hcut, trailing_trailing]

variable (q : ScanParams K)

/-- The code a series has at its last close. -/
def lastCode (closes : List K) (c : K) (side : Option PositionSide) : SignalAction :=
  let stdLong := rollingStd sqrt closes q.smaPeriodLong
  let stdShort := rollingStd sqrt closes q.smaPeriodShort
  if stdLong.any (· ≤ 0) ∨ stdShort.any (· ≤ 0) then .hold
  else
    meanReversionActionDecoupled (zScore c (rollingSma closes q.smaPeriodLong) stdLong)
      (zScore c (rollingSma closes q.smaPeriodShort) stdShort) q.longThreshold q.shortThreshold
      q.exitSigma side

section Index
variable {closes : List K} {i : ℕ}

omit [LinearOrder K] in
theorem scanStd_eq (hi : i < closes.length) (period : ℤ) :
    scanStd sqrt closes period i = rollingStd sqrt (closes.take (i + 1)) period :=
  rollingStd_congr sqrt (trailing_scanWindow hi)

omit [LinearOrder K] in
theorem scanZ_eq (hi : i < closes.length) (period : ℤ) :
    scanZ sqrt closes period i =
      zScore closes[i] (rollingSma (closes.take (i + 1)) period)
        (rollingStd sqrt (closes.take (i + 1)) period) := by
  have hsma : rollingSma (scanWindow closes period i) period =
      rollingSma (closes.take (i + 1)) period := rollingSma_congr (trailing_scanWindow hi)
  rw [scanZ, List.getElem?_eq_getElem hi, Option.bind_some, hsma, scanStd_eq sqrt hi]

/-- An index reads its own prefix. -/
theorem scanSignal_eq (hi : i < closes.length) (s : ScanState) :
    scanSignal sqrt q closes s i =
      (s.after (lastCode sqrt q (closes.take (i + 1)) closes[i] s.positionSide),
        lastCode sqrt q (closes.take (i + 1)) closes[i] s.positionSide) := by
  unfold scanSignal scanCode scanFlat lastCode
  simp only [scanZ_eq sqrt hi, scanStd_eq sqrt hi]
  split
  · rfl
  · rfl

theorem lastCode_flat_ne_exit (closes : List K) (c : K) :
    lastCode sqrt q closes c none ≠ .exit := by
  unfold lastCode
  dsimp only
  split
  · simp
  · exact decoupled_flat_ne_exit

theorem lastCode_held (closes : List K) (c : K) (side : PositionSide) :
    lastCode sqrt q closes c (some side) = .exit ∨
      lastCode sqrt q closes c (some side) = .hold := by
  unfold lastCode
  dsimp only
  split
  · exact Or.inr rfl
  · exact decoupled_held side

/-- The code of a held leg is the one of a flat leg exactly when the scan has nothing to
do for either. -/
theorem lastCode_flat_eq_iff (hi : i < closes.length) (side : PositionSide) :
    lastCode sqrt q (closes.take (i + 1)) closes[i] none =
        lastCode sqrt q (closes.take (i + 1)) closes[i] (some side) ↔
      (¬ scanFlat sqrt q closes i →
        ∀ l ∈ scanZ sqrt closes q.smaPeriodLong i, ∀ s ∈ scanZ sqrt closes q.smaPeriodShort i,
          q.exitSigma ≤ |sideReading l s side| ∧ -q.longThreshold ≤ l ∧ s ≤ q.shortThreshold) := by
  unfold scanFlat lastCode
  simp only [scanZ_eq sqrt hi, scanStd_eq sqrt hi]
  split
  · rename_i hflat
    exact iff_of_true rfl fun h => absurd hflat h
  · rename_i hflat
    rw [decoupled_flat_eq_iff]
    exact ⟨fun h _ => h, fun h => h hflat⟩

end Index

/-- The warm-up, the time stop, the code: what one index does when there is a time stop. -/
theorem scanStep_eq (hmax : 1 ≤ q.maxBarsInTrade) (closes : List K) {i : ℕ}
    (hi : i < closes.length) (s : ScanState) :
    scanStep sqrt q closes s i =
      if (i : ℤ) + 1 < q.maxPeriod then (s, .hold)
      else if s.positionSide ≠ none ∧ q.maxBarsInTrade ≤ s.barsInTrade + 1 then ({}, .exit)
      else
        let held := if s.positionSide = none then s.barsInTrade else s.barsInTrade + 1
        let code := lastCode sqrt q (closes.take (i + 1)) closes[i] s.positionSide
        (ScanState.after { s with barsInTrade := held } code, code) := by
  have hpos : 0 < q.maxBarsInTrade := by omega
  have hwarm : ((i : ℤ) < q.smaPeriodLong - 1 ∨ (i : ℤ) < q.smaPeriodShort - 1) ↔
      (i : ℤ) + 1 < q.maxPeriod := by
    rw [ScanParams.maxPeriod]
    omega
  unfold scanStep
  simp only [hwarm, hpos, true_and]
  split
  · rfl
  obtain ⟨side, bars⟩ := s
  cases side with
  | none =>
    simp only [ne_eq, not_true_eq_false, if_false, false_and, if_true]
    rw [scanSignal_eq sqrt q hi]
  | some side =>
    simp only [ne_eq, reduceCtorEq, not_false_eq_true, if_true, true_and, if_false]
    split
    · rfl
    · rw [scanSignal_eq sqrt q hi]

/-- What the scan returns at once is what its loop would return. -/
theorem scan_eq_outputs (closes : List K) :
    scanMeanReversionSignalsDecoupled sqrt q closes =
      outputs (scanStep sqrt q closes) {} (List.range closes.length) := by
  unfold scanMeanReversionSignalsDecoupled
  split
  · rename_i hshort
    rw [outputs_of_stays (o := .hold), List.length_range]
    intro i hi
    have hi := List.mem_range.mp hi
    have hnone : q.maxPeriod ≤ 0 → rollingSma (closes.take (i + 1)) q.smaPeriodLong = none := by
      intro hle
      refine if_pos (Or.inr ?_)
      rw [ScanParams.maxPeriod] at hle
      omega
    unfold scanStep
    rcases hshort with hle | hlt
    · simp only [ne_eq, not_true_eq_false, and_false, if_false]
      rw [scanSignal_eq sqrt q hi]
      have hcode : lastCode sqrt q (closes.take (i + 1)) closes[i] none = .hold := by
        unfold lastCode
        rw [hnone hle]
        dsimp only
        split
        · rfl
        · rfl
      rw [hcode]
      split
      · rfl
      · rfl
    · rw [if_pos]
      rw [ScanParams.maxPeriod] at hlt
      omega
  · rfl

end TradingPlatform.Math
