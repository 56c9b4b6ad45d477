import TradingPlatform.Strategies.MeanReversion
import Mathlib.Algebra.Order.Field.Rat
import Mathlib.Data.Rat.Sqrt

/-! # The scan beside the evaluation

The evaluation is driven bar by bar with the parameters `run_mean_reversion_backtest`
builds. Its book is the broker's and its clock the loop's; the scan keeps both itself. What
the loop does beside (the equity curve, its filters on a signal, the wait for `sma_period`
bars) is left out. -/

namespace TradingPlatform.Backtest.ScanParity

open TradingPlatform.Core TradingPlatform.Lib.Runs TradingPlatform.Math
open TradingPlatform.Strategies.MeanReversion

variable {τ K : Type} [Field K] [LinearOrder K] {n : ℕ} (sqrt : K → K)

/-- The router with the broker behind it: whether the book holds the leg's symbol, and
the book once the orders of a signal are filled at the open of a bar. -/
structure Desk (B τ K : Type) where
  start : B
  held : B → Bool
  fill : B → MrSignal τ K → Bar τ K → B

/-- Every order is filled in full. -/
structure Desk.FillsInFull {B : Type} (d : Desk B τ K) : Prop where
  starts_flat : d.held d.start = false
  enters : ∀ book signal bar, d.held book = false →
    signal.action = .long ∨ signal.action = .short → d.held (d.fill book signal bar) = true
  exits : ∀ book signal bar, d.held book = true → signal.action = .exit →
    d.held (d.fill book signal bar) = false

structure DriveState (B τ K : Type) (n : ℕ) where
  window : RollingWindow τ K n
  book : B
  barsInTrade : ℤ := 0
  pending : Option (MrSignal τ K) := none

section Drive
variable [LinearOrder τ] {B : Type} (d : Desk B τ K) (params : MrParams K)
  (defaults : MeanReversionDefaults K) (strategyId : String)

def DriveState.settled (s : DriveState B τ K n) (bar : Bar τ K) : B :=
  s.pending.elim s.book fun signal => d.fill s.book signal bar

/-- Fill at the open, count the bar if the book is held, take it in, evaluate. -/
def driveStep (s : DriveState B τ K n) (bar : Bar τ K) : DriveState B τ K n × SignalAction :=
  let book := s.settled d bar
  let inPosition := d.held book
  let barsInTrade := if inPosition then s.barsInTrade + 1 else 0
  let window := (s.window.append bar).2
  let signal := evaluateMeanReversion sqrt window (evalParams params barsInTrade inPosition)
    defaults strategyId
  ({ window, book, barsInTrade, pending := signal.filter (·.action ≠ .hold) }, actionOf signal)

def driveEvaluation (hn : 0 < n) (bars : List (Bar τ K)) : List SignalAction :=
  outputs (driveStep sqrt d params defaults strategyId) ⟨.new hn, d.start, 0, none⟩ bars

end Drive

/-- The actions that are not a hold, with the bars they are taken at. -/
def nonHold (actions : List SignalAction) : List (SignalAction × ℕ) :=
  actions.zipIdx.filter (·.1 ≠ .hold)

theorem mem_nonHold {actions : List SignalAction} {a : SignalAction} {i : ℕ} :
    (a, i) ∈ nonHold actions ↔ actions[i]? = some a ∧ a ≠ .hold := by
  simp [nonHold, List.mem_zipIdx_iff_getElem?]

/-- Over the same bars no action is lost with the holds. -/
theorem nonHold_inj {xs ys : List SignalAction} (hlen : xs.length = ys.length) :
    nonHold xs = nonHold ys ↔ xs = ys := by
  refine ⟨fun h => ?_, congrArg nonHold⟩
  refine List.ext_getElem hlen fun i hx hy => ?_
  have hmem (a : SignalAction) : xs[i] = a ∧ a ≠ .hold ↔ ys[i] = a ∧ a ≠ .hold := by
    have hiff : (a, i) ∈ nonHold xs ↔ (a, i) ∈ nonHold ys := by rw [h]
    simpa [mem_nonHold, hx, hy] using hiff
  by_cases hold : xs[i] = .hold
  · by_contra hne
    exact (((hmem ys[i]).mpr ⟨rfl, fun hy => hne (hold.trans hy.symm)⟩).1.trans_ne
      (Ne.symm hne)) rfl
  · exact ((hmem xs[i]).mp ⟨rfl, hold⟩).1.symm

/-! ## The scan beside the drive -/

/-- An action that is no surprise to a book: whether the leg is held before and after. -/
inductive Moves : Bool → SignalAction → Bool → Prop
  | stays (held : Bool) : Moves held .hold held
  | enters {action : SignalAction} (h : action = .long ∨ action = .short) :
      Moves false action true
  | exits : Moves true .exit false

section Agree
variable [LinearOrder τ] {B : Type} (d : Desk B τ K) (q : ScanParams K) (smaPeriod : ℤ)
  (defaults : MeanReversionDefaults K) (strategyId : String)

/-- Before the bar after `pre` the two books say the same, and so do the two clocks
while the leg is held. -/
structure InStep (pre : List (Bar τ K)) (s : DriveState B τ K n) (t : ScanState) : Prop where
  window : ∃ series, Mirrors s.window series ∧ series.accepted = pre
  held : ∀ bar, d.held (s.settled d bar) = t.positionSide.isSome
  clock : t.positionSide ≠ none → s.barsInTrade = t.barsInTrade
  warm : t.positionSide ≠ none → q.maxPeriod ≤ pre.length

/-- Where the scan holds a side whose time stop is not due, it has no reason to exit and
none to enter. -/
def QuietWhileHeld (sqrt : K → K) (closes : List K) (t : ScanState) (i : ℕ) : Prop :=
  ∀ side ∈ t.positionSide, t.barsInTrade + 1 < q.maxBarsInTrade → ¬ scanFlat sqrt q closes i →
    ∀ l ∈ scanZ sqrt closes q.smaPeriodLong i, ∀ s ∈ scanZ sqrt closes q.smaPeriodShort i,
      q.exitSigma ≤ |sideReading l s side| ∧ -q.longThreshold ≤ l ∧ s ≤ q.shortThreshold

instance (closes : List K) (t : ScanState) (i : ℕ) :
    Decidable (QuietWhileHeld q sqrt closes t i) :=
  inferInstanceAs (Decidable (∀ side ∈ _, _ → _ → ∀ l ∈ _, ∀ s ∈ _, _))

variable {d q}

omit [Field K] [LinearOrder K] [LinearOrder τ] in
theorem held_settled (hfull : d.FillsInFull) {s : DriveState B τ K n}
    {signal : Option (MrSignal τ K)} (hp : s.pending = signal.filter (·.action ≠ .hold))
    {after : Bool} (hmoves : Moves (d.held s.book) (actionOf signal) after) (bar : Bar τ K) :
    d.held (s.settled d bar) = after := by
  rw [DriveState.settled, hp]
  generalize hbook : d.held s.book = before at hmoves
  cases signal with
  | none =>
    generalize hact : actionOf (none : Option (MrSignal τ K)) = action at hmoves
    cases hmoves with
    | stays => exact hbook
    | enters h => simp [← hact, actionOf] at h
    | exits => cases hact
  | some signal =>
    have ha : actionOf (some signal) = signal.action := rfl
    rw [ha] at hmoves
    rw [Option.filter_some]
    generalize hact : signal.action = action at hmoves
    cases hmoves with
    | stays => simpa using hbook
    | enters h =>
      have hne : action ≠ .hold := by
        rcases h with rfl | rfl <;> simp
      rw [if_pos (by simpa using hne)]
      exact hfull.enters _ _ bar hbook (hact ▸ h)
    | exits => exact hfull.exits _ _ bar hbook hact

omit [Field K] [LinearOrder K] in
/-- The next bar of a strictly increasing series is taken in. -/
theorem append_later {w : RollingWindow τ K n} {pre : List (Bar τ K)} {bar : Bar τ K}
    (h : ∃ series, Mirrors w series ∧ series.accepted = pre)
    (hlater : ∀ b ∈ pre, b.timestamp < bar.timestamp) :
    ∃ series, Mirrors (w.append bar).2 series ∧ series.accepted = pre ++ [bar] := by
  obtain ⟨series, hmirrors, hpre⟩ := h
  refine ⟨_, (hmirrors.append bar).2, ?_⟩
  have hnew : ¬ series.lastTs.any (bar.timestamp ≤ ·) = true := by
    rw [Series.lastTs, hpre]
    cases hlast : pre.getLast? with
    | none => simp
    | some b => simpa using hlater b (List.mem_of_getLast? hlast)
  rw [Series.append, if_neg hnew]
  show series.accepted ++ [bar] = _
  rw [hpre]

section Step
variable {pre : List (Bar τ K)} {bar : Bar τ K} {s : DriveState B τ K n} {t : ScanState}

/-- What the drive decides at the next bar, in the words of the scan. -/
theorem InStep.decision (h : InStep d q pre s t) (hlater : ∀ b ∈ pre, b.timestamp < bar.timestamp)
    (hlong : q.smaPeriodLong ≤ n) (hshort : q.smaPeriodShort ≤ n) :
    (driveStep sqrt d (legParams smaPeriod q) defaults strategyId s bar).2 =
      if t.positionSide ≠ none ∧ q.maxBarsInTrade ≤ t.barsInTrade + 1 then .exit
      else if (pre.length : ℤ) + 1 < q.maxPeriod then .hold
      else lastCode sqrt q ((pre ++ [bar]).map (·.close)) bar.close none := by
  obtain ⟨series, hmirrors, hseries⟩ := append_later h.window hlater
  unfold driveStep
  dsimp only
  rw [evaluate_leg hmirrors hseries hlong hshort, h.held]
  cases hside : t.positionSide with
  | none => simp
  | some side =>
    have hclock := h.clock (by simp [hside])
    simp [hclock]

/-- The step of the drive keeps in step with a scan that takes the same action. -/
theorem InStep.next (hfull : d.FillsInFull) (h : InStep d q pre s t)
    (hlater : ∀ b ∈ pre, b.timestamp < bar.timestamp) (t' : ScanState)
    (hmoves : Moves t.positionSide.isSome
      (driveStep sqrt d (legParams smaPeriod q) defaults strategyId s bar).2
      t'.positionSide.isSome)
    (hclock : t'.positionSide ≠ none →
      t'.barsInTrade = if t.positionSide = none then 0 else t.barsInTrade + 1)
    (hwarm : t'.positionSide ≠ none → q.maxPeriod ≤ (pre.length : ℤ) + 1) :
    InStep d q (pre ++ [bar])
      (driveStep sqrt d (legParams smaPeriod q) defaults strategyId s bar).1 t' where
  window := append_later h.window hlater
  held := by
    rw [← h.held bar] at hmoves
    exact held_settled hfull rfl hmoves
  clock := by
    intro hside
    rw [hclock hside]
    show (if d.held (s.settled d bar) then s.barsInTrade + 1 else 0) = _
    rw [h.held]
    cases ht : t.positionSide with
    | none => rfl
    | some side =>
      rw [h.clock (by simp [ht])]
      rfl
  warm := by
    intro hside
    rw [List.length_append, List.length_singleton]
    push_cast
    exact hwarm hside

/-- A flat scan enters with a fresh clock, or stays flat. -/
theorem moves_of_flat {code : SignalAction} (hcode : code ≠ .exit) (bars : ℤ) :
    Moves false code (ScanState.after ⟨none, bars⟩ code).positionSide.isSome ∧
      ((ScanState.after ⟨none, bars⟩ code).positionSide ≠ none →
        (ScanState.after ⟨none, bars⟩ code).barsInTrade = 0) := by
  cases code with
  | long => exact ⟨.enters (Or.inl rfl), fun _ => rfl⟩
  | short => exact ⟨.enters (Or.inr rfl), fun _ => rfl⟩
  | exit => exact absurd rfl hcode
  | hold => exact ⟨.stays false, fun h => absurd rfl h⟩

/-- `bar` comes after `pre` in the strictly increasing series that has these closes. -/
structure ComesNext (closes : List K) (pre : List (Bar τ K)) (bar : Bar τ K) : Prop where
  inside : pre.length < closes.length
  close : closes[pre.length] = bar.close
  upTo : closes.take (pre.length + 1) = (pre ++ [bar]).map (·.close)
  later : ∀ b ∈ pre, b.timestamp < bar.timestamp

omit [Field K] [LinearOrder K] in
theorem comesNext_of_split {bars rest : List (Bar τ K)}
    (hmono : bars.Pairwise (·.timestamp < ·.timestamp)) (hbars : bars = pre ++ bar :: rest) :
    ComesNext (bars.map (·.close)) pre bar where
  inside := by simp [hbars]
  close := by simp [hbars]
  upTo := by simp [hbars, List.take_append]
  later := by
    intro b hb
    rw [hbars] at hmono
    exact (List.pairwise_append.mp hmono).2.2 b hb bar List.mem_cons_self

variable (hfull : d.FillsInFull) (hmax : 1 ≤ q.maxBarsInTrade) (hlong : q.smaPeriodLong ≤ n)
  (hshort : q.smaPeriodShort ≤ n)
include hfull hmax hlong hshort

/-- A bar the scan enters flat: both decide alike. -/
theorem InStep.agree_flat {closes : List K} (hbar : ComesNext closes pre bar)
    (h : InStep d q pre s t) (hflat : t.positionSide = none) :
    (driveStep sqrt d (legParams smaPeriod q) defaults strategyId s bar).2 =
        (scanStep sqrt q closes t pre.length).2 ∧
      InStep d q (pre ++ [bar])
        (driveStep sqrt d (legParams smaPeriod q) defaults strategyId s bar).1
        (scanStep sqrt q closes t pre.length).1 := by
  have hdrive := h.decision sqrt smaPeriod defaults strategyId hbar.later hlong hshort
  have hnext (t' : ScanState) := h.next sqrt smaPeriod defaults strategyId hfull hbar.later t'
  have hscan := scanStep_eq sqrt q hmax closes hbar.inside t
  rw [hbar.close, hbar.upTo] at hscan
  have hcode := lastCode_flat_ne_exit sqrt q ((pre ++ [bar]).map (·.close)) bar.close
  obtain ⟨side, bars⟩ := t
  obtain rfl : side = none := hflat
  simp only [ne_eq, not_true_eq_false, false_and, if_false, if_true] at hdrive hscan
  rw [hdrive] at hnext ⊢
  rw [hscan]
  by_cases hwarm : (pre.length : ℤ) + 1 < q.maxPeriod
  · simp only [hwarm, if_true] at hnext ⊢
    exact ⟨trivial, hnext ⟨none, bars⟩ (.stays false) (fun h => absurd rfl h) fun h => absurd rfl h⟩
  · simp only [hwarm, if_false] at hnext ⊢
    obtain ⟨hmoves, hclock⟩ := moves_of_flat hcode bars
    exact ⟨trivial, hnext _ hmoves hclock fun _ => by omega⟩

/-- A bar the scan holds a side over: the time stop is one and the same, and before it both
decide alike exactly when the bar is quiet. -/
theorem InStep.agree_held {closes : List K} (hbar : ComesNext closes pre bar)
    (h : InStep d q pre s t) {side : PositionSide} (hside : t.positionSide = some side) :
    ((driveStep sqrt d (legParams smaPeriod q) defaults strategyId s bar).2 =
        (scanStep sqrt q closes t pre.length).2 ↔ QuietWhileHeld q sqrt closes t pre.length) ∧
      (QuietWhileHeld q sqrt closes t pre.length →
        InStep d q (pre ++ [bar])
          (driveStep sqrt d (legParams smaPeriod q) defaults strategyId s bar).1
          (scanStep sqrt q closes t pre.length).1) := by
  have hdrive := h.decision sqrt smaPeriod defaults strategyId hbar.later hlong hshort
  have hnext (t' : ScanState) := h.next sqrt smaPeriod defaults strategyId hfull hbar.later t'
  have hscan := scanStep_eq sqrt q hmax closes hbar.inside t
  have hquiet := lastCode_flat_eq_iff sqrt q hbar.inside side
  have hheld := lastCode_held sqrt q ((pre ++ [bar]).map (·.close)) bar.close side
  have hexit := lastCode_flat_ne_exit sqrt q ((pre ++ [bar]).map (·.close)) bar.close
  have hlast := h.warm (by simp [hside])
  have hwarm : ¬ (pre.length : ℤ) + 1 < q.maxPeriod := by omega
  rw [hbar.close, hbar.upTo] at hscan hquiet
  obtain ⟨_, bars⟩ := t
  obtain rfl : _ = some side := hside
  simp only [ne_eq, reduceCtorEq, not_false_eq_true, true_and, hwarm, if_false] at hdrive hscan
  rw [hdrive] at hnext ⊢
  rw [hscan]
  by_cases hdue : q.maxBarsInTrade ≤ bars + 1
  · have hvacuous : QuietWhileHeld q sqrt closes ⟨some side, bars⟩ pre.length :=
      fun _ _ hbefore => absurd hbefore (by simpa using hdue)
    simp only [hdue, if_true] at hnext ⊢
    exact ⟨iff_of_true trivial hvacuous,
      fun _ => hnext {} .exits (fun h => absurd rfl h) fun h => absurd rfl h⟩
  · have hsame : QuietWhileHeld q sqrt closes ⟨some side, bars⟩ pre.length ↔
        lastCode sqrt q ((pre ++ [bar]).map (·.close)) bar.close none =
          lastCode sqrt q ((pre ++ [bar]).map (·.close)) bar.close (some side) := by
      rw [hquiet]
      refine ⟨fun hq => hq side rfl (not_le.mp hdue), fun hq side' hside' _ => ?_⟩
      cases hside'
      exact hq
    simp only [hdue, if_false] at hnext ⊢
    refine ⟨hsame.symm, fun hq => ?_⟩
    have heq := hsame.mp hq
    have hhold : lastCode sqrt q ((pre ++ [bar]).map (·.close)) bar.close (some side) = .hold :=
      hheld.resolve_left fun hex => hexit (heq.trans hex)
    rw [heq, hhold] at hnext
    rw [hhold]
    exact hnext ⟨some side, bars + 1⟩ (.stays true) (fun _ => rfl) fun _ => by omega

/-- One bar: the two actions are the same exactly when the bar is quiet, and then the two
stay in step. -/
theorem InStep.agree {closes : List K} (hbar : ComesNext closes pre bar) (h : InStep d q pre s t) :
    ((driveStep sqrt d (legParams smaPeriod q) defaults strategyId s bar).2 =
        (scanStep sqrt q closes t pre.length).2 ↔ QuietWhileHeld q sqrt closes t pre.length) ∧
      (QuietWhileHeld q sqrt closes t pre.length →
        InStep d q (pre ++ [bar])
          (driveStep sqrt d (legParams smaPeriod q) defaults strategyId s bar).1
          (scanStep sqrt q closes t pre.length).1) := by
  cases hside : t.positionSide with
  | none =>
    have hvacuous : QuietWhileHeld q sqrt closes t pre.length := by
      intro side hsome
      rw [hside] at hsome
      cases hsome
    obtain ⟨heq, hnext⟩ := h.agree_flat sqrt smaPeriod defaults strategyId hfull hmax hlong hshort
      hbar hside
    exact ⟨iff_of_true heq hvacuous, fun _ => hnext⟩
  | some side =>
    exact h.agree_held sqrt smaPeriod defaults strategyId hfull hmax hlong hshort hbar hside

/-- From any bar on, the actions are the same exactly when every bar is quiet. -/
theorem outputs_eq_iff {bars : List (Bar τ K)}
    (hmono : bars.Pairwise (·.timestamp < ·.timestamp)) :
    ∀ (rest pre : List (Bar τ K)) {s : DriveState B τ K n} {t : ScanState}, bars = pre ++ rest →
      InStep d q pre s t →
      (outputs (driveStep sqrt d (legParams smaPeriod q) defaults strategyId) s rest =
          outputs (scanStep sqrt q (bars.map (·.close))) t (List.range' pre.length rest.length) ↔
        Along (fun t i => (scanStep sqrt q (bars.map (·.close)) t i).1)
          (QuietWhileHeld q sqrt (bars.map (·.close))) t
          (List.range' pre.length rest.length))
  | [], _, _, _, _, _ => iff_of_true rfl trivial
  | bar :: rest, pre, s, t, hbars, h => by
    obtain ⟨hsame, hnext⟩ := h.agree sqrt smaPeriod defaults strategyId hfull hmax hlong hshort
      (comesNext_of_split hmono hbars)
    have hrest (hq : QuietWhileHeld q sqrt (bars.map (·.close)) t pre.length) :=
      outputs_eq_iff hmono rest (pre ++ [bar]) (by simpa using hbars) (hnext hq)
    rw [List.length_append, List.length_singleton] at hrest
    rw [List.length_cons, List.range'_succ, outputs, outputs, List.cons.injEq, Along, hsame]
    exact and_congr_right hrest

end Step

/-- **The evaluation and the scan** take the same actions at the same bars exactly when
every bar the scan holds a side over, with the time stop not due, is quiet. -/
theorem evaluation_matches_scan_iff (hfull : d.FillsInFull) (hmax : 1 ≤ q.maxBarsInTrade)
    (hn : 0 < n) (hlong : q.smaPeriodLong ≤ n) (hshort : q.smaPeriodShort ≤ n)
    {bars : List (Bar τ K)} (hmono : bars.Pairwise (·.timestamp < ·.timestamp)) :
    nonHold (driveEvaluation sqrt d (legParams smaPeriod q) defaults strategyId hn bars) =
        nonHold (scanMeanReversionSignalsDecoupled sqrt q (bars.map (·.close))) ↔
      Along (fun t i => (scanStep sqrt q (bars.map (·.close)) t i).1)
        (QuietWhileHeld q sqrt (bars.map (·.close))) {} (List.range bars.length) := by
  have hstart : InStep d q [] (⟨.new hn, d.start, 0, none⟩ : DriveState B τ K n) {} :=
    { window := ⟨.empty, mirrors_new hn, rfl⟩
      held := fun _ => hfull.starts_flat
      clock := fun h => absurd rfl h
      warm := fun h => absurd rfl h }
  have hrun := outputs_eq_iff sqrt smaPeriod defaults strategyId hfull hmax hlong hshort
    hmono bars [] rfl hstart
  rw [scan_eq_outputs, nonHold_inj (by simp [driveEvaluation]), driveEvaluation, List.length_map,
    List.range_eq_range']
  exact hrun

end Agree

/-! ## Two legs on one series -/

/-- The desk whose book is the side of the last entry. -/
def lastEntryDesk : Desk (Option PositionSide) ℕ ℚ where
  start := none
  held := (·.isSome)
  fill book signal _ :=
    match signal.action with
    | .long => some .long
    | .short => some .short
    | .exit => none
    | .hold => book

theorem lastEntryDesk_fillsInFull : lastEntryDesk.FillsInFull where
  starts_flat := rfl
  enters := by
    intro book signal bar _ h
    rcases h with h | h
    · simp [lastEntryDesk, h]
    · simp [lastEntryDesk, h]
  exits := by
    intro book signal bar _ h
    simp [lastEntryDesk, h]

/-- Two bars for the long side and four for the short side. -/
def twoFour (exitSigma : ℚ) (maxBarsInTrade : ℤ) : ScanParams ℚ where
  smaPeriodLong := 2
  smaPeriodShort := 4
  longThreshold := 1 / 2
  shortThreshold := 2
  exitSigma
  maxBarsInTrade

def spyDefaults : MeanReversionDefaults ℚ where
  symbol := "SPY"
  smaPeriod := 20
  longThresholdSigma := 2
  shortThresholdSigma := 2
  exitSigma := 1 / 10

/-- Closes that go up and down between 12 and 10. -/
def zigzag : List (Bar ℕ ℚ) :=
  [12, 10, 12, 10, 12, 10].mapIdx fun t c => ⟨t, c, c, c, c, 1, "SPY"⟩

/-- A long below its exit band until the time stop: the two agree. -/
theorem time_stopped_long_agrees :
    nonHold (driveEvaluation Rat.sqrt lastEntryDesk (legParams 20 (twoFour (1 / 2) 2)) spyDefaults
        "mr" (n := 70) (by decide) zigzag) =
      nonHold (scanMeanReversionSignalsDecoupled Rat.sqrt (twoFour (1 / 2) 2)
        (zigzag.map (·.close))) :=
  (evaluation_matches_scan_iff Rat.sqrt 20 spyDefaults "mr" lastEntryDesk_fillsInFull (by decide)
    (by decide) (by decide) (by decide) (by decide +kernel)).mpr (by decide +kernel)

/-- The reading is back in the exit band at the fifth bar. The scan exits there; the
evaluation, which takes the leg for flat, does not, and enters again a bar later. -/
theorem missed_exit_enters_again :
    lastEntryDesk.FillsInFull ∧
      nonHold (driveEvaluation Rat.sqrt lastEntryDesk (legParams 20 (twoFour (3 / 2) 9)) spyDefaults
        "mr" (n := 70) (by decide) zigzag) = [(.long, 3), (.long, 5)] ∧
      nonHold (scanMeanReversionSignalsDecoupled Rat.sqrt (twoFour (3 / 2) 9)
        (zigzag.map (·.close))) = [(.long, 3), (.exit, 4), (.long, 5)] :=
  ⟨lastEntryDesk_fillsInFull, by decide +kernel, by decide +kernel⟩

end TradingPlatform.Backtest.ScanParity
