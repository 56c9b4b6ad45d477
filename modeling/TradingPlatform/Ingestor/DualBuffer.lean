import TradingPlatform.Core.RollingWindow
import TradingPlatform.Ingestor.Alpaca
import TradingPlatform.Ingestor.MatrixRing
import TradingPlatform.Lib.Dict

/-! # The dual buffer

The matrix of one symbol and timeframe, and the legs registered on it. No call
reads two matrices. A refresh fetches bars, puts the last of them in the shadow
ring, writes them into the active ring and the legs' windows, and then compares
the two rings. -/

namespace TradingPlatform.Ingestor.DualBuffer

open TradingPlatform.Lib TradingPlatform.Lib.Ring TradingPlatform.Core

def shadowPostCloseDelay : ℤ := 30 * second
def activeRingCapacity : Nat := 32
def priceFeatureTolerance : ℚ := 1 / 10000
def volumeFeatureTolerance : ℚ := 1 / 100

/-! ## The refresh schedule -/

def dayMinutes : ℤ := 24 * 60

/-- Rounded up, unless the clock is within the first minute of a period. -/
def mostRecentBarClose (now : ℤ) (barMinutes : Nat) : ℤ :=
  let floored := now / minute
  let totalMin := floored % dayMinutes
  let closeMin :=
    if totalMin % barMinutes = 0 then totalMin else (totalMin / barMinutes + 1) * barMinutes
  let dayOffset := closeMin / dayMinutes
  (floored - totalMin + closeMin % dayMinutes + dayOffset * dayMinutes) * minute

def shadowRefreshDue (now : ℤ) (barMinutes : Nat) (lastRefreshedClose : Option ℤ) : Bool × ℤ :=
  let closeDt := mostRecentBarClose now barMinutes
  let refreshAt := closeDt + shadowPostCloseDelay
  if now < refreshAt then (false, closeDt)
  else if lastRefreshedClose.any (closeDt ≤ ·) then (false, closeDt)
  else (true, closeDt)

theorem shadowRefreshDue_iff {now : ℤ} {barMinutes : Nat} {last : Option ℤ} :
    (shadowRefreshDue now barMinutes last).1 = true ↔
      mostRecentBarClose now barMinutes + shadowPostCloseDelay ≤ now ∧
        ∀ c ∈ last, c < mostRecentBarClose now barMinutes := by
  unfold shadowRefreshDue
  dsimp only
  split
  · rename_i hearly
    simp only [Bool.false_eq_true, false_iff, not_and]
    intro h
    omega
  · rename_i hdelay
    rw [not_lt] at hdelay
    cases last with
    | none => simp [hdelay]
    | some c =>
      by_cases hc : mostRecentBarClose now barMinutes ≤ c
      · simp [hc]
      · simp [hc, hdelay, not_le.1 hc]

theorem shadowRefreshDue_close (now : ℤ) (barMinutes : Nat) (last : Option ℤ) :
    (shadowRefreshDue now barMinutes last).2 = mostRecentBarClose now barMinutes := by
  unfold shadowRefreshDue
  dsimp only
  split
  · rfl
  · split <;> rfl

/-! ## Comparing two matrices -/

def featureClose (tolerance a b : ℚ) : Prop :=
  |a - b| ≤ max tolerance (tolerance * max (max |a| |b|) 1)

instance (tolerance a b : ℚ) : Decidable (featureClose tolerance a b) :=
  inferInstanceAs (Decidable (_ ≤ _))

def priceClose (a b : ℚ) : Prop := featureClose priceFeatureTolerance a b

def volumeClose (a b : ℚ) : Prop := featureClose volumeFeatureTolerance a b

instance (a b : ℚ) : Decidable (priceClose a b) := inferInstanceAs (Decidable (featureClose _ a b))

instance (a b : ℚ) : Decidable (volumeClose a b) := inferInstanceAs (Decidable (featureClose _ a b))

/-- The label is the text of the timestamp. -/
structure BarFeatureDelta where
  timestamp : ℤ
  field : String
  activeValue : ℚ
  shadowValue : ℚ
  delta : ℚ
  deriving DecidableEq

/-- The fields of one row that are out of tolerance. -/
def rowDeltas (active shadow : MatrixRow) : List BarFeatureDelta :=
  let checks := [("high", active.high, shadow.high), ("low", active.low, shadow.low),
    ("close", active.close, shadow.close), ("volume", active.volume, shadow.volume)]
  checks.filterMap fun (field, a, b) =>
    if (if field = "volume" then volumeClose a b else priceClose a b) then none
    else some ⟨active.timestamp, field, a, b, a - b⟩

def compareFeatureMatrices (active shadow : List MatrixRow) : List BarFeatureDelta :=
  let shadowIndex := Dict.keyBy MatrixRow.timestamp shadow
  active.flatMap fun row => (shadowIndex.get? row.timestamp).elim [] (rowDeltas row)

structure MatrixAlignmentVerdict where
  aligned : Bool
  comparedBars : Nat
  mismatches : List BarFeatureDelta := []
  latchEngaged : Bool := false
  latchCleared : Bool := false
  skipReason : Option String := none
  deriving DecidableEq

/-! ## Legs and their windows -/

/-- A window with the series it mirrors. -/
structure LegWindow where
  size : Nat
  window : RollingWindow ℤ ℚ size
  series : Series ℤ ℚ
  mirrors : Mirrors window series

namespace LegWindow

def step (w : LegWindow) (op : WindowOp ℤ ℚ) : LegWindow :=
  ⟨w.size, w.window.step op, w.series.step op, mirrors_step w.mirrors op⟩

/-- A window that mirrors a series never reads an empty deque. -/
def upsertBar (w : LegWindow) (bar : Bar ℤ ℚ) : UpsertOutcome × LegWindow :=
  ((w.window.upsertBar bar).elim .ignored Prod.fst, w.step (.upsertBar bar))

theorem upsertBar_outcome (w : LegWindow) (bar : Bar ℤ ℚ) :
    (w.upsertBar bar).1 = (w.series.upsertBar bar).1 := by
  obtain ⟨w', hw', -⟩ := w.mirrors.upsertBar bar
  rw [upsertBar, hw']
  rfl

end LegWindow

inductive TapeStatus
  | unknown
  | verified
  | divergent
  deriving DecidableEq

structure Leg where
  strategyId : String
  window : Option LegWindow
  divergentLatch : Bool
  tapeStatus : TapeStatus

/-- A bar offered to a leg's window, and what became of it. -/
structure WindowWrite where
  strategyId : String
  bar : Bar ℤ ℚ
  outcome : UpsertOutcome

/-- The bars in turn, with the outcome of each. -/
def LegWindow.upsertBars (w : LegWindow) : List (Bar ℤ ℚ) →
    List (Bar ℤ ℚ × UpsertOutcome) × LegWindow
  | [] => ([], w)
  | bar :: bars =>
    let (outcome, w') := w.upsertBar bar
    let (outcomes, w'') := w'.upsertBars bars
    ((bar, outcome) :: outcomes, w'')

/-! ## The matrix -/

/-- `barMinutes` is `TIMEFRAME_MINUTES.get(timeframe, 15)` of the matrix. -/
structure MatrixState where
  barMinutes : Nat
  active : MatrixRing (max activeRingCapacity lockedBlockCount)
  shadow : MatrixRing (max (lockedBlockCount + 4) lockedBlockCount)
  lastShadowRefreshBarClose : Option ℤ
  legs : List Leg

/-- What the REST service holds when it is asked; nothing where the call fails. -/
structure RestBars where
  bars : List (Bar ℤ ℚ)
  increasing : bars.Pairwise (·.timestamp < ·.timestamp)

def RestBars.fetch (rest : RestBars) (start stop : ℤ) : List (Bar ℤ ℚ) :=
  rest.bars.filter fun bar => start ≤ bar.timestamp ∧ bar.timestamp ≤ stop

/-- What a call leaves behind beside the state. -/
structure RefreshLog where
  refreshed : Option ℤ
  writes : List WindowWrite
  verdicts : List (String × MatrixAlignmentVerdict)

def RefreshLog.empty : RefreshLog := ⟨none, [], []⟩

namespace MatrixState

variable (s : MatrixState)

def period : ℤ := s.barMinutes * minute

/-- `bars[-LOCKED_BLOCK_COUNT:]` of the fetch that ends at `barClose`. -/
def lockedBars (barClose : ℤ) (rest : RestBars) : List (Bar ℤ ℚ) :=
  let start := barClose - s.period * (lockedBlockCount + 4)
  lastN lockedBlockCount (rest.fetch start barClose)

theorem lockedBars_increasing (barClose : ℤ) (rest : RestBars) :
    (s.lockedBars barClose rest).Pairwise (·.timestamp < ·.timestamp) :=
  (rest.increasing.sublist List.filter_sublist).sublist (List.drop_sublist ..)

theorem length_lockedBars_le (barClose : ℤ) (rest : RestBars) :
    (s.lockedBars barClose rest).length ≤ lockedBlockCount := by
  rw [lockedBars, length_lastN]
  exact Nat.min_le_right ..

def replaceShadow (locked : List (Bar ℤ ℚ)) (barClose : ℤ) : MatrixState :=
  { s with
    shadow := s.shadow.replaceBars locked
    lastShadowRefreshBarClose := some barClose }

/-- The outcomes of a leg's window, and the leg after them. -/
def reconcileLeg (bars : List (Bar ℤ ℚ)) (leg : Leg) : List WindowWrite × Leg :=
  match leg.window with
  | none => ([], leg)
  | some w =>
    let (outcomes, w') := w.upsertBars bars
    (outcomes.map fun p => ⟨leg.strategyId, p.1, p.2⟩, { leg with window := some w' })

/-- Beside its window a leg stays as it is. -/
theorem reconcileLeg_leg (bars : List (Bar ℤ ℚ)) (leg : Leg) :
    (reconcileLeg bars leg).2 =
      { leg with window := leg.window.map fun w => (w.upsertBars bars).2 } := by
  obtain ⟨id, window, latch, status⟩ := leg
  cases window <;> rfl

theorem mem_reconcileLeg {bars : List (Bar ℤ ℚ)} {leg : Leg} {write : WindowWrite} :
    write ∈ (reconcileLeg bars leg).1 ↔
      ∃ w ∈ leg.window, ∃ p ∈ (w.upsertBars bars).1, ⟨leg.strategyId, p.1, p.2⟩ = write := by
  obtain ⟨id, window, latch, status⟩ := leg
  cases window with
  | none => simp [reconcileLeg]
  | some w => simp [reconcileLeg]

def reconcileStreamingWindows (bars : List (Bar ℤ ℚ)) : List WindowWrite × MatrixState :=
  let reconciled := s.legs.map (reconcileLeg bars)
  (reconciled.flatMap (·.1),
    { s with active := s.active.upsertBars bars, legs := reconciled.map (·.2) })

def verifyMatrixAlignment (latch : Bool) : MatrixAlignmentVerdict × Bool :=
  if s.shadow.cursor.count < lockedBlockCount then
    ({ aligned := true, comparedBars := s.shadow.cursor.count,
       skipReason := some "shadow_warming" }, latch)
  else if s.active.cursor.count < lockedBlockCount then
    ({ aligned := true, comparedBars := s.active.cursor.count,
       skipReason := some "active_warming" }, latch)
  else
    let active := s.active.tail lockedBlockCount
    let shadow := s.shadow.tail lockedBlockCount
    let mismatches := compareFeatureMatrices active shadow
    let compared := min active.length shadow.length
    if mismatches ≠ [] then
      ({ aligned := false, comparedBars := compared, mismatches, latchEngaged := !latch }, true)
    else ({ aligned := true, comparedBars := compared, latchCleared := latch }, false)

/-- A verdict that skipped the comparison leaves the tape status. -/
def verifyLeg (leg : Leg) : MatrixAlignmentVerdict × Leg :=
  let (verdict, latch) := s.verifyMatrixAlignment leg.divergentLatch
  (verdict,
    { leg with
      divergentLatch := latch
      tapeStatus :=
        if verdict.skipReason.isSome then leg.tapeStatus
        else if verdict.aligned then .verified else .divergent })

def applyTapeVerification : List (String × MatrixAlignmentVerdict) × MatrixState :=
  (s.legs.map fun leg => (leg.strategyId, (s.verifyLeg leg).1),
    { s with legs := s.legs.map fun leg => (s.verifyLeg leg).2 })

def refreshShadow (barClose : ℤ) (rest : RestBars) : RefreshLog × MatrixState :=
  let locked := s.lockedBars barClose rest
  if locked = [] then (.empty, s)
  else
    let (writes, reconciled) := (s.replaceShadow locked barClose).reconcileStreamingWindows locked
    let (verdicts, verified) := reconciled.applyTapeVerification
    (⟨some barClose, writes, verdicts⟩, verified)

def ingestStreamBar (bar : Bar ℤ ℚ) : MatrixState :=
  { s with
    active := s.active.upsertBar bar
    legs := s.legs.map fun leg =>
      { leg with window := leg.window.map (·.step (.setForming bar)) } }

end MatrixState

/-- A matrix as a leg finds it when it registers first. -/
def MatrixState.new (barMinutes : Nat) (legs : List Leg) : MatrixState where
  barMinutes := barMinutes
  active := .new activeRingCapacity
  shadow := .new (lockedBlockCount + 4)
  lastShadowRefreshBarClose := none
  legs := legs

/-! ## Runs -/

/-- The background loop, or one of the calls that refresh whether due or not. -/
inductive Caller
  | scheduled
  | forced
  deriving DecidableEq

/-- A refresh reads its clock at `now`, fetches and writes at `instant`. -/
structure Call where
  caller : Caller
  now : ℤ
  instant : ℤ
  rest : RestBars

inductive Event
  | ingestStreamBar (bar : Bar ℤ ℚ)
  | refresh (call : Call)

/-- The close a call refreshes under, if it goes ahead. -/
def MatrixState.refreshClose (s : MatrixState) (call : Call) : Option ℤ :=
  match call.caller with
  | .scheduled =>
    let (due, closeDt) := shadowRefreshDue call.now s.barMinutes s.lastShadowRefreshBarClose
    if due then some closeDt else none
  | .forced => some (mostRecentBarClose call.now s.barMinutes)

def step (s : MatrixState) : Event → RefreshLog × MatrixState
  | .ingestStreamBar bar => (.empty, s.ingestStreamBar bar)
  | .refresh call =>
    (s.refreshClose call).elim (.empty, s) fun close => s.refreshShadow close call.rest

def next (s : MatrixState) (e : Event) : MatrixState := (step s e).2

theorem refreshShadow_barMinutes (s : MatrixState) (barClose : ℤ) (rest : RestBars) :
    (s.refreshShadow barClose rest).2.barMinutes = s.barMinutes := by
  unfold MatrixState.refreshShadow
  dsimp only
  split <;> rfl

theorem next_barMinutes (s : MatrixState) (e : Event) : (next s e).barMinutes = s.barMinutes := by
  cases e with
  | ingestStreamBar bar => rfl
  | refresh call =>
    rw [next, step]
    cases s.refreshClose call with
    | none => rfl
    | some close => exact refreshShadow_barMinutes s close call.rest

/-- The remembered close is that of the last refresh that fetched anything. -/
theorem next_lastShadowRefreshBarClose (s : MatrixState) (e : Event) :
    (next s e).lastShadowRefreshBarClose =
      (step s e).1.refreshed.or s.lastShadowRefreshBarClose := by
  cases e with
  | ingestStreamBar bar => rfl
  | refresh call =>
    rw [next, step]
    cases s.refreshClose call with
    | none => rfl
    | some close =>
      show (s.refreshShadow close call.rest).2.lastShadowRefreshBarClose =
        (s.refreshShadow close call.rest).1.refreshed.or _
      unfold MatrixState.refreshShadow
      dsimp only
      split <;> rfl

/-- The close a call records: the one it refreshes under, where the fetch gives bars. -/
theorem refreshed_eq_some {s : MatrixState} {call : Call} {close : ℤ} :
    (step s (.refresh call)).1.refreshed = some close ↔
      s.refreshClose call = some close ∧ s.lockedBars close call.rest ≠ [] := by
  rw [step]
  cases s.refreshClose call with
  | none => simp [RefreshLog.empty]
  | some c =>
    show (s.refreshShadow c call.rest).1.refreshed = some close ↔ _
    unfold MatrixState.refreshShadow
    dsimp only
    split
    · rename_i hnil
      simp only [RefreshLog.empty, reduceCtorEq, Option.some.injEq, false_iff, not_and]
      intro h
      rw [← h]
      exact not_not.2 hnil
    · rename_i hne
      simp only [Option.some.injEq]
      constructor
      · intro h
        subst h
        exact ⟨rfl, hne⟩
      · intro h
        exact h.1

end TradingPlatform.Ingestor.DualBuffer
