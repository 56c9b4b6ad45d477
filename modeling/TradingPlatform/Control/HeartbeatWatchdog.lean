import TradingPlatform.Engine.RiskEscalation
import Mathlib.Data.Rat.Defs
import Mathlib.Algebra.Order.Ring.Rat

/-! # The heartbeat watchdog

One check reads the newest heartbeat and its status payload. A stale beat or a
stale consumption cycle asks the engine for ENTRY_GATE_HALT in the watchdog's
name; a run of healthy readings lifts such a halt again. Times are seconds,
the reading carries what the calendar and the heartbeat store answer. -/

namespace TradingPlatform.Control.HeartbeatWatchdog

open TradingPlatform.Engine

structure Watchdog where
  threshold : ℚ := 120
  component : String := "main_loop"
  allowDeesc : Bool
  deescStreakRequired : Int := 10
  startedAt : ℚ
  freshStreak : Nat := 0
  loggedPriorAge : Bool := false
  deriving DecidableEq, Repr

/-- `__init__`: auto-de-escalation is off in live whatever the flag says. -/
def Watchdog.create (lower : String → String) (staleThresholdSeconds : ℚ) (component : String)
    (startedAt : ℚ) (environment : String) (autoDeescalationEnabled : Bool)
    (deescalationFreshStreak : Int) : Watchdog where
  threshold := staleThresholdSeconds
  component := component
  allowDeesc := autoDeescalationEnabled && lower environment ≠ "live"
  deescStreakRequired := deescalationFreshStreak
  startedAt := startedAt

/-- The status payload beside a beat: the `str` of each key that is there. -/
structure StatusPayload where
  lastCycleTs : Option String := none
  gate : Option String := none
  gateReason : Option String := none
  escalationLevel : Option String := none
  deriving DecidableEq, Repr

structure Reading where
  now : ℚ
  marketOpen : Bool
  latest : Option ℚ
  status : Option StatusPayload := none
  deriving DecidableEq, Repr

inductive Reason
  | marketClosed
  | startupGrace
  | staleHeartbeat
  | engineCycleStale
  | gateBlocked
  | healthy
  deriving DecidableEq, Repr

structure WatchdogResult where
  tripped : Bool
  ageSeconds : Option ℚ
  marketOpen : Bool
  reason : Reason
  deriving DecidableEq, Repr

inductive AlertDetail
  | beat (ageSeconds : Option ℚ) (thresholdSeconds : ℚ) (component : String)
  | cycle (cycleAgeSeconds thresholdSeconds : ℚ) (component : String)
  | gate (gateReason : String) (escalationLevel : Option String) (component : String)
  deriving DecidableEq, Repr

structure Alert where
  kind : String
  severity : String
  message : String
  detail : AlertDetail
  deriving DecidableEq, Repr

inductive Notice
  | notify (alert : Alert)
  | resolve (component kind : String)
  deriving DecidableEq, Repr

/-- One check: its result, the watchdog after it, the transition it asks the
engine for, and what the notifier is told. -/
structure CheckStep where
  result : WatchdogResult
  watchdog : Watchdog
  transition : Option Transition := none
  notices : List Notice := []
  deriving DecidableEq, Repr

/-- The transition of both trips. -/
def tripTransition : Transition :=
  { newLevel := .entryGateHalt, commandedBy := "heartbeat_watchdog" }

def recoveryTransition : Transition :=
  { newLevel := .nominal, commandedBy := "heartbeat_watchdog_recovery" }

variable (upper : String → String) (fromisoformat : String → Option ℚ)

/-- `0.0 <= elapsed_since_start < threshold`. -/
def Watchdog.inGrace (w : Watchdog) (now : ℚ) : Bool :=
  0 ≤ now - w.startedAt && now - w.startedAt < w.threshold

def Watchdog.isStale (w : Watchdog) : Option ℚ → Bool
  | none => true
  | some age => w.threshold < age

/-- The age of the consumption loop's last cycle, when the payload has one. -/
def cycleAge (r : Reading) : Option ℚ :=
  let raw := (r.status.getD {}).lastCycleTs
  if truthy raw then (raw.bind fromisoformat).map (r.now - ·) else none

def gateIsBlocked (r : Reading) : Bool :=
  upper ((r.status.getD {}).gate.getD "") = "BLOCKED"

/-- The level a sustained fresh streak may lift. -/
def liftable (snap : RiskEscalationSnapshot) : Bool :=
  snap.level = .entryGateHalt && snap.commandedBy = "heartbeat_watchdog" &&
    !snap.portfolioLiquidationCommanded && !snap.engineShutdownLatched

/-- The healthy branch: one more fresh reading, and the halt lifted when the
streak is long enough. -/
def healthyStep (w : Watchdog) (snap : RiskEscalationSnapshot) (age : Option ℚ) : CheckStep :=
  let streak := w.freshStreak + 1
  let lift := w.allowDeesc && w.deescStreakRequired ≤ (streak : Int) && liftable snap
  { result := ⟨false, age, true, .healthy⟩
    watchdog := { w with freshStreak := if lift then 0 else streak }
    transition := if lift then some recoveryTransition else none
    notices := [.resolve w.component "heartbeat_stale"] }

def check (w : Watchdog) (snap : RiskEscalationSnapshot) (r : Reading) : CheckStep :=
  let age := r.latest.map (r.now - ·)
  if !r.marketOpen then { result := ⟨false, none, false, .marketClosed⟩, watchdog := w }
  else
    let w := { w with loggedPriorAge := true }
    if w.inGrace r.now then { result := ⟨false, age, true, .startupGrace⟩, watchdog := w }
    else if w.isStale age then
      { result := ⟨true, age, true, .staleHeartbeat⟩
        watchdog := { w with freshStreak := 0 }
        transition := some tripTransition
        notices := [.notify
          { kind := "heartbeat_stale", severity := "critical"
            message := w.component ++ " heartbeat stale"
            detail := .beat age w.threshold w.component }] }
    else
      match (cycleAge fromisoformat r).filter (w.threshold < ·) with
      | some stalled =>
        { result := ⟨true, age, true, .engineCycleStale⟩
          watchdog := { w with freshStreak := 0 }
          transition := some tripTransition
          notices := [.notify
            { kind := "heartbeat_stale", severity := "critical"
              message := w.component ++ " consumption stalled (heartbeat task alive)"
              detail := .cycle stalled w.threshold w.component }] }
      | none =>
        if gateIsBlocked upper r then
          let gateReason := (r.status.getD {}).gateReason.getD ""
          { result := ⟨false, age, true, .gateBlocked⟩
            watchdog := { w with freshStreak := 0 }
            notices :=
              [.resolve w.component "heartbeat_stale", .notify
                { kind := "gate_blocked", severity := "warning"
                  message := w.component ++ " halted by design (" ++ gateReason ++ ")"
                  detail := .gate gateReason (r.status.getD {}).escalationLevel w.component }] }
        else healthyStep w snap age

/-! ## What a check can do -/

section Results

variable (w : Watchdog) (snap : RiskEscalationSnapshot) (r : Reading)

/-- **Every check.** It trips, it lifts a liftable halt after the required
streak, or it leaves the engine alone. -/
theorem check_cases :
    ((check upper fromisoformat w snap r).result.tripped = true ∧
      (check upper fromisoformat w snap r).transition = some tripTransition ∧
      (check upper fromisoformat w snap r).watchdog.freshStreak = 0) ∨
    ((check upper fromisoformat w snap r).result.tripped = false ∧
      (check upper fromisoformat w snap r).transition = some recoveryTransition ∧
      w.allowDeesc = true ∧ liftable snap = true) ∨
    ((check upper fromisoformat w snap r).result.tripped = false ∧
      (check upper fromisoformat w snap r).transition = none) := by
  unfold check
  dsimp only
  split
  · exact .inr (.inr ⟨rfl, rfl⟩)
  split
  · exact .inr (.inr ⟨rfl, rfl⟩)
  split
  · exact .inl ⟨rfl, rfl, rfl⟩
  split
  · exact .inl ⟨rfl, rfl, rfl⟩
  split
  · exact .inr (.inr ⟨rfl, rfl⟩)
  · unfold healthyStep
    dsimp only
    split
    · rename_i hlift
      simp only [Bool.and_eq_true] at hlift
      exact .inr (.inl ⟨rfl, rfl, hlift.1.1, hlift.2⟩)
    · exact .inr (.inr ⟨rfl, rfl⟩)

/-- The readings that trip: the market is open, the grace is over, and the beat
or the consumption cycle is stale. -/
def Watchdog.readsStale (w : Watchdog) (r : Reading) : Bool :=
  r.marketOpen && !w.inGrace r.now &&
    (w.isStale (r.latest.map (r.now - ·)) ||
      ((cycleAge fromisoformat r).filter (w.threshold < ·)).isSome)

theorem check_tripped :
    (check upper fromisoformat w snap r).result.tripped = w.readsStale fromisoformat r := by
  unfold check
  dsimp only
  split
  · rename_i hclosed
    have hopen : r.marketOpen = false := by simpa using hclosed
    simp [Watchdog.readsStale, hopen]
  rename_i hclosed
  have hopen : r.marketOpen = true := by simpa using hclosed
  split
  · rename_i hgrace
    have hgrace : w.inGrace r.now = true := hgrace
    simp [Watchdog.readsStale, hgrace]
  rename_i hgrace
  have hgrace : w.inGrace r.now = false := eq_false_of_ne_true hgrace
  split
  · rename_i hstale
    have hstale : w.isStale (r.latest.map (r.now - ·)) = true := hstale
    simp [Watchdog.readsStale, hopen, hgrace, hstale]
  rename_i hstale
  have hstale : w.isStale (r.latest.map (r.now - ·)) = false := eq_false_of_ne_true hstale
  unfold Watchdog.readsStale
  rw [hopen, hgrace, hstale]
  split
  · rename_i stalled hcycle
    rw [hcycle]
    rfl
  · rename_i hcycle
    rw [hcycle]
    split <;> rfl

/-- A check asks for ENTRY_GATE_HALT when it trips, and never for more. -/
theorem check_transition_of_tripped
    (h : (check upper fromisoformat w snap r).result.tripped = true) :
    (check upper fromisoformat w snap r).transition = some tripTransition := by
  rcases check_cases upper fromisoformat w snap r with ⟨_, ht, _⟩ | ⟨hf, _⟩ | ⟨hf, _⟩
  · exact ht
  · rw [hf] at h; cases h
  · rw [hf] at h; cases h

/-- A reading taken as the grace ends, of a beat written just then. -/
def freshReading (w : Watchdog) : Reading where
  now := w.startedAt + w.threshold
  marketOpen := true
  latest := some (w.startedAt + w.threshold)

theorem check_freshReading (hthreshold : 0 ≤ w.threshold) (hgate : upper "" ≠ "BLOCKED") :
    check upper fromisoformat w snap (freshReading w) =
      healthyStep { w with loggedPriorAge := true } snap (some 0) := by
  have hgrace : ({ w with loggedPriorAge := true } : Watchdog).inGrace (freshReading w).now =
      false := by
    simp [Watchdog.inGrace, freshReading]
  have hage : (freshReading w).latest.map ((freshReading w).now - ·) = some 0 := by
    simp [freshReading]
  have hfresh : ({ w with loggedPriorAge := true } : Watchdog).isStale (some 0) = false := by
    simpa [Watchdog.isStale] using hthreshold
  have hcycle : cycleAge fromisoformat (freshReading w) = none := rfl
  have hopen : gateIsBlocked upper (freshReading w) = false := decide_eq_false hgate
  unfold check
  simp only [hgrace, hage, hfresh, hcycle, hopen, Option.filter_none]
  rfl

/-- A check counts fresh readings and changes nothing else it was set up with. -/
theorem check_watchdog :
    ∃ streak logged, (check upper fromisoformat w snap r).watchdog =
      { w with freshStreak := streak, loggedPriorAge := logged } := by
  unfold check healthyStep
  dsimp only
  repeat' split
  all_goals exact ⟨_, _, rfl⟩

end Results

end TradingPlatform.Control.HeartbeatWatchdog
