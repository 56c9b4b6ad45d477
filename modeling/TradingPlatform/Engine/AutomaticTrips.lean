import TradingPlatform.Control.HeartbeatWatchdog
import TradingPlatform.Execution.BootReconciliation
import TradingPlatform.Lib.Runs
import TradingPlatform.Lifecycle.HashChain

/-! # Automatic trips over the escalation engine

Four checks ask one engine for ENTRY_GATE_HALT by themselves, between the
transitions others command. The engine takes each request as it takes an
operator's: the halt overwrites whatever was in force. So a trip protects the
book from the two lower levels and weakens it from the two upper ones. -/

namespace TradingPlatform.Engine.AutomaticTrips

open TradingPlatform.Lib.Runs TradingPlatform.Control.HeartbeatWatchdog TradingPlatform.Execution
open TradingPlatform.Lifecycle RiskEscalationSnapshot

/-- What the checks call outside the platform: upper-casing, the parser of ISO
time stamps, and the canonical hash of a configuration. -/
structure Env (Config : Type) where
  upper : String → String
  fromisoformat : String → Option ℚ
  canonicalConfigHash : Config → String

/-- The engine, and the one automatic caller that has a state of its own. -/
structure Platform where
  escalation : RiskEscalationSnapshot := {}
  watchdog : Watchdog

inductive Event (Config : Type)
  | transition (t : Transition)
  | reconcileBoot (internalPositions brokerPositions : Positions)
      (internalOpenCoids brokerOpenCoids : Option (List String)) (qtyTol : ℚ)
  | check (reading : Reading)
  | detectOutOfBandChange (legId : String) (runningConfig : Config) (chain : List ChainEntry)
  | assertRunningHash (runningConfig : Config) (pinnedHash legId phase : String)

variable {Config : Type} (env : Env Config)

/-- The transition an event asks the engine for. -/
def asks (p : Platform) : Event Config → Option Transition
  | .transition t => some t
  | .reconcileBoot internal broker ioc boc tol =>
    (reconcileBoot env.upper internal broker ioc boc tol).transition
  | .check reading => (check env.upper env.fromisoformat p.watchdog p.escalation reading).transition
  | .detectOutOfBandChange legId config chain =>
    (detectOutOfBandChange env.canonicalConfigHash legId config chain).transition
  | .assertRunningHash config pinned legId phase =>
    (assertRunningHash env.canonicalConfigHash config pinned legId phase).transition

/-- Whether an event is an automatic trip, by the verdict its caller returns. -/
def trips (p : Platform) : Event Config → Bool
  | .transition _ => false
  | .reconcileBoot internal broker ioc boc tol =>
    (reconcileBoot env.upper internal broker ioc boc tol).result.tripped
  | .check reading =>
    (check env.upper env.fromisoformat p.watchdog p.escalation reading).result.tripped
  | .detectOutOfBandChange legId config chain =>
    (detectOutOfBandChange env.canonicalConfigHash legId config chain).result
  | .assertRunningHash config pinned legId phase =>
    !(assertRunningHash env.canonicalConfigHash config pinned legId phase).result

def step (p : Platform) (e : Event Config) : Platform where
  escalation := p.escalation.obey env.upper (asks env p e)
  watchdog :=
    match e with
    | .check reading => (check env.upper env.fromisoformat p.watchdog p.escalation reading).watchdog
    | _ => p.watchdog

@[simp] theorem step_escalation (p : Platform) (e : Event Config) :
    (step env p e).escalation = p.escalation.obey env.upper (asks env p e) := rfl

/-- Every trip is the same halt. -/
theorem asks_of_trips {p : Platform} {e : Event Config} (h : trips env p e = true) :
    (asks env p e).map (·.newLevel) = some .entryGateHalt := by
  cases e with
  | transition t => cases h
  | reconcileBoot internal broker ioc boc tol =>
    exact (reconcileBoot_transition env.upper internal broker ioc boc tol).trans (if_pos h)
  | check reading =>
    have ht := check_transition_of_tripped env.upper env.fromisoformat p.watchdog p.escalation
      reading h
    simp only [asks, ht]
    rfl
  | detectOutOfBandChange legId config chain =>
    exact (detectOutOfBandChange_transition env.canonicalConfigHash legId config chain).trans
      (if_pos h)
  | assertRunningHash config pinned legId phase =>
    refine (assertRunningHash_transition env.canonicalConfigHash config pinned legId phase).trans ?_
    exact if_neg (by simpa [trips] using h)

theorem step_level_of_trips {p : Platform} {e : Event Config} (h : trips env p e = true) :
    (step env p e).escalation.level = .entryGateHalt := by
  obtain ⟨t, ht, hlevel⟩ := Option.map_eq_some_iff.mp (asks_of_trips env h)
  rw [step_escalation, ht]
  exact hlevel

theorem step_coherent {p : Platform} (e : Event Config) (h : p.escalation.Coherent) :
    (step env p e).escalation.Coherent := by
  rw [step_escalation]
  cases asks env p e with
  | none => exact h
  | some t => exact coherent_transition env.upper p.escalation t

/-! ## Trips that weaken -/

/-- If this event is a trip, it weakens nothing. -/
def NeverWeakens (p : Platform) (e : Event Config) : Prop :=
  trips env p e = true → NotWeakened env.upper p.escalation (step env p e).escalation

/-- If this event is a trip, no level above the halt is in force. -/
def TripsBelow (p : Platform) (e : Event Config) : Prop :=
  trips env p e = true → p.escalation.level ≤ .entryGateHalt

theorem neverWeakens_iff {p : Platform} (e : Event Config) (h : p.escalation.Coherent) :
    NeverWeakens env p e ↔ TripsBelow env p e := by
  refine forall_congr' fun htrip => ?_
  exact notWeakened_entryGateHalt_iff env.upper h (step_level_of_trips env htrip)

/-- **Trips and escalations.** Along any run of commanded transitions and
automatic checks, the trips weaken nothing exactly when none of them happens
while STRATEGY_LIQUIDATE or GLOBAL_FLATTEN_AND_HALT is in force. -/
theorem trips_never_weaken_iff (w : Watchdog) (es : List (Event Config)) :
    Along (step env) (NeverWeakens env) { watchdog := w } es ↔
      Along (step env) (TripsBelow env) { watchdog := w } es :=
  along_congr (I := fun p => p.escalation.Coherent) (fun _ e h => step_coherent env e h)
    (fun _ e h => neverWeakens_iff env e h) es coherent_initial

/-- Plain upper-casing, and no time stamps or configurations. -/
def asciiEnv : Env Unit := ⟨String.toUpper, fun _ => none, fun _ => ""⟩

/-- A kill, and then a broker position the process did not keep. -/
def killThenMismatch : List (Event Unit) :=
  [.transition { newLevel := .globalFlattenAndHalt, commandedBy := "FLATTEN_AND_HALT" },
   .reconcileBoot [] [("QQQ", 10)] none none (1 / 1000000)]

/-- The mismatch takes the portfolio liquidation back. -/
theorem mismatch_cancels_flatten :
    ¬ Along (step asciiEnv) (NeverWeakens asciiEnv)
      { watchdog := { allowDeesc := true, startedAt := 0 } } killThenMismatch := by
  intro h
  have hweak := h.2.1 (by decide +kernel)
  exact absurd (hweak.protection .flattenPortfolio (by decide +kernel)) (by decide +kernel)

end TradingPlatform.Engine.AutomaticTrips
