import TradingPlatform.Ingestor.Alpaca
import TradingPlatform.Lib.Dict
import TradingPlatform.Lib.Runs
import Mathlib.Algebra.Order.Ring.Rat
import Mathlib.Tactic.Linarith

/-! # The cold-start gate

Times are seconds. A call reads the monotonic clock once: what one call reads
twice is one instant. -/

namespace TradingPlatform.Engine.ColdStart

open TradingPlatform.Lib TradingPlatform.Lib.Runs TradingPlatform.Ingestor

inductive ColdStartPolicy
  | highAvailability
  | failSafeClose
  deriving DecidableEq, Repr

inductive ColdStartGateState
  | pending
  | pendingBlocked
  | heuristicParity
  | stabilizedVerified
  | staleReverify
  | bypassOverride
  deriving DecidableEq, Repr

structure ColdStartGateConfig where
  maxColdStartWaitSeconds : ℚ := 120
  maxBarAgeSeconds : ℚ := 65
  heuristicEntryScale : ℚ := 0.25
  bypassEntryScale : ℚ := 0.15

structure StreamHealthSnapshot where
  latestBarTimestamp : Option ℚ := none
  priorBarTimestamp : Option ℚ := none
  latestVolume : ℚ := 0
  priorVolume : ℚ := 0
  barCount : Nat := 0

structure ColdStartGateTransition where
  strategyId : String
  priorState : ColdStartGateState
  newState : ColdStartGateState
  reason : String
  wallClockLagSeconds : Option ℚ
  elapsedSeconds : ℚ
  matrixAligned : Bool
  streamIntact : Bool

/-! ## Freshness -/

def barStalenessSeconds (barOpenTs barPeriodSeconds now : ℚ) : ℚ :=
  max (now - (barOpenTs + barPeriodSeconds)) 0

def staleAfterSeconds (barPeriodSeconds deliveryLatencySeconds : ℚ) : ℚ :=
  barPeriodSeconds + deliveryLatencySeconds

def barPeriodSecondsFor (timeframe : String) : ℚ := timeframeMinutes timeframe * 60

def maxBarAgeForTimeframe (timeframe : String) (config : ColdStartGateConfig) : ℚ :=
  staleAfterSeconds (barPeriodSecondsFor timeframe) config.maxBarAgeSeconds

def streamIsStructurallyIntact (snapshot : StreamHealthSnapshot) : Bool :=
  if snapshot.barCount < 2 then false
  else
    match snapshot.latestBarTimestamp, snapshot.priorBarTimestamp with
    | some latest, some prior =>
      if latest ≤ prior then false
      else if snapshot.latestVolume ≤ 0 ∧ snapshot.priorVolume ≤ 0 then false
      else true
    | _, _ => false

/-- Whether the feed is fresh at the wall-clock time `now`, and its lag. -/
def wallClockFreshnessOk (latestBarTimestamp : Option ℚ) (barPeriodSeconds now maxAgeSeconds : ℚ) :
    Bool × Option ℚ :=
  match latestBarTimestamp with
  | none => (false, none)
  | some ts =>
    let lag := barStalenessSeconds ts barPeriodSeconds now
    (lag ≤ max maxAgeSeconds 0, some lag)

/-! ## The engine -/

/-- The sets that ration log lines, and the symbols they name, are left out. -/
structure ColdStartGateEngine where
  config : ColdStartGateConfig := {}
  stateByStrategy : Dict String ColdStartGateState := .empty
  policyByStrategy : Dict String ColdStartPolicy := .empty
  startedAtMonotonic : Option ℚ := none
  pausedAccumulatedSeconds : ℚ := 0
  pausedSinceMonotonic : Option ℚ := none
  transitionLog : Dict String ColdStartGateTransition := .empty

/-- What a call has measured of one leg. -/
structure Evidence where
  matrixAligned : Bool
  backgroundVerified : Bool
  fresh : Bool
  intact : Bool
  lag : Option ℚ

namespace ColdStartGateEngine

variable (g : ColdStartGateEngine)

def beginColdStart (now : ℚ) (strategyIds : List String)
    (policies : Dict String ColdStartPolicy) : ColdStartGateEngine :=
  { g with
    startedAtMonotonic := some now
    transitionLog := .empty
    stateByStrategy := g.stateByStrategy.setAll id (fun _ => .pending) strategyIds
    policyByStrategy :=
      g.policyByStrategy.setAll id (fun sid => (policies.get? sid).getD .failSafeClose) strategyIds }

def setPolicy (strategyId : String) (policy : ColdStartPolicy) : ColdStartGateEngine :=
  { g with policyByStrategy := g.policyByStrategy.set strategyId policy }

def policy (strategyId : String) : ColdStartPolicy :=
  (g.policyByStrategy.get? strategyId).getD .failSafeClose

def state (strategyId : String) : ColdStartGateState :=
  (g.stateByStrategy.get? strategyId).getD .pending

/-- The span that is open while the clock is paused. -/
def openSpan (now : ℚ) : ℚ := g.pausedSinceMonotonic.elim 0 fun since => max (now - since) 0

def elapsedSeconds (now : ℚ) : ℚ :=
  match g.startedAtMonotonic with
  | none => 0
  | some started => max (now - started - (g.pausedAccumulatedSeconds + g.openSpan now)) 0

def pauseTimeBoundProgression (now : ℚ) : ColdStartGateEngine :=
  { g with pausedSinceMonotonic := g.pausedSinceMonotonic.orElse fun _ => some now }

def resumeTimeBoundProgression (now : ℚ) : ColdStartGateEngine :=
  { g with
    pausedAccumulatedSeconds := g.pausedAccumulatedSeconds + g.openSpan now
    pausedSinceMonotonic := none }

def setReadiness (now : ℚ) (readinessOk : Bool) : ColdStartGateEngine :=
  if readinessOk then g.resumeTimeBoundProgression now else g.pauseTimeBoundProgression now

def blockedStates : List ColdStartGateState := [.pending, .pendingBlocked]

def operationalGateCleared : Bool :=
  if g.stateByStrategy.items = [] then false
  else g.stateByStrategy.items.all fun entry => entry.2 ∉ blockedStates

def blocksAllEntries (strategyId : String) : Bool :=
  g.state strategyId ∈ [.pending, .pendingBlocked, .staleReverify]

def blocksEntrySignals (strategyId : String) : Bool :=
  match g.state strategyId with
  | .pending | .pendingBlocked | .staleReverify => true
  | .heuristicParity | .bypassOverride => g.policy strategyId = .failSafeClose
  | .stabilizedVerified => false

def coldStartEntryScale (strategyId : String) : ℚ :=
  match g.state strategyId with
  | .stabilizedVerified => 1
  | .staleReverify => 0
  | .heuristicParity =>
    if g.policy strategyId = .failSafeClose then 0 else g.config.heuristicEntryScale
  | .bypassOverride =>
    if g.policy strategyId = .failSafeClose then 0 else g.config.bypassEntryScale
  | .pending | .pendingBlocked => 0

def transition (now : ℚ) (strategyId : String) (newState : ColdStartGateState) (reason : String)
    (lag : Option ℚ) (matrixAligned streamIntact : Bool) :
    Option ColdStartGateTransition × ColdStartGateEngine :=
  let prior := g.state strategyId
  let record : ColdStartGateTransition :=
    ⟨strategyId, prior, newState, reason, lag, g.elapsedSeconds now, matrixAligned, streamIntact⟩
  if prior = newState then (some record, g)
  else
    (some record,
      { g with
        stateByStrategy := g.stateByStrategy.set strategyId newState
        transitionLog := g.transitionLog.set strategyId record })

def evaluateTimeBound (now : ℚ) (strategyId : String) (ev : Evidence) :
    Option ColdStartGateTransition × ColdStartGateEngine :=
  let current := g.state strategyId
  if current = .bypassOverride then (none, g)
  else if current = .stabilizedVerified then
    if !ev.fresh then
      g.transition now strategyId .staleReverify "stabilized_verified_feed_stale" ev.lag
        ev.matrixAligned ev.intact
    else (none, g)
  else if current = .staleReverify then
    if ev.fresh && ev.matrixAligned then
      g.transition now strategyId .stabilizedVerified "stale_reverify_feed_recovered" ev.lag true
        ev.intact
    else (none, g)
  else if g.elapsedSeconds now < g.config.maxColdStartWaitSeconds then (none, g)
  else if ev.matrixAligned && ev.backgroundVerified && ev.fresh && ev.intact then
    g.transition now strategyId .stabilizedVerified "time_bound_stabilized_verified" ev.lag true
      ev.intact
  else if g.policy strategyId = .failSafeClose then
    if current = .pending then
      g.transition now strategyId .pendingBlocked "fail_safe_timeout_without_matrix_parity" ev.lag
        ev.matrixAligned ev.intact
    else (none, g)
  else if ev.intact && ev.fresh && current = .pending then
    g.transition now strategyId .heuristicParity "time_bound_heuristic_parity" ev.lag
      ev.matrixAligned true
  else if current ≠ .bypassOverride then
    g.transition now strategyId .bypassOverride "time_bound_system_bypass" ev.lag
      ev.matrixAligned ev.intact
  else (none, g)

/-- What a call at the wall-clock time `wall` finds out about a leg. -/
def gather (wall : ℚ) (timeframe : String) (streamHealth : StreamHealthSnapshot)
    (matrixAligned backgroundVerified : Bool) : Evidence :=
  let freshness := wallClockFreshnessOk streamHealth.latestBarTimestamp
    (barPeriodSecondsFor timeframe) wall (maxBarAgeForTimeframe timeframe g.config)
  { matrixAligned := matrixAligned
    backgroundVerified := backgroundVerified
    fresh := freshness.1
    intact := streamIsStructurallyIntact streamHealth
    lag := freshness.2 }

def evaluateVerification (now wall : ℚ) (strategyId timeframe : String) (matrixAligned : Bool)
    (matrixSkipReason : Option String) (streamHealth : StreamHealthSnapshot)
    (backgroundVerified divergent : Bool) : Option ColdStartGateTransition × ColdStartGateEngine :=
  if divergent then (none, g)
  else
    let aligned := matrixAligned && matrixSkipReason.isNone
    let ev := g.gather wall timeframe streamHealth aligned backgroundVerified
    let current := g.state strategyId
    if aligned && backgroundVerified && ev.fresh && ev.intact && current ≠ .stabilizedVerified then
      g.transition now strategyId .stabilizedVerified "matrix_parity_and_wall_clock_fresh" ev.lag
        true ev.intact
    else if aligned && !ev.fresh then (none, g)
    else
      let evaluated := (g.evaluateTimeBound now strategyId ev).2
      (evaluated.transitionLog.get? strategyId, evaluated)

def tickTimeBound (now wall : ℚ) (strategyId timeframe : String)
    (streamHealth : StreamHealthSnapshot) (matrixAligned backgroundVerified readinessOk : Bool) :
    Option ColdStartGateTransition × ColdStartGateEngine :=
  let g := g.setReadiness now readinessOk
  if !readinessOk then (none, g)
  else
    g.evaluateTimeBound now strategyId
      (g.gather wall timeframe streamHealth matrixAligned backgroundVerified)

end ColdStartGateEngine

/-! ## Who enters an escape hatch -/

namespace ColdStartGateEngine

variable {g g' : ColdStartGateEngine}

/-- A step that leaves the clock, the policies and the configuration alone. -/
structure SameClock (g g' : ColdStartGateEngine) : Prop where
  config : g'.config = g.config
  policyByStrategy : g'.policyByStrategy = g.policyByStrategy
  startedAtMonotonic : g'.startedAtMonotonic = g.startedAtMonotonic
  pausedAccumulatedSeconds : g'.pausedAccumulatedSeconds = g.pausedAccumulatedSeconds
  pausedSinceMonotonic : g'.pausedSinceMonotonic = g.pausedSinceMonotonic

theorem SameClock.refl (g : ColdStartGateEngine) : SameClock g g := ⟨rfl, rfl, rfl, rfl, rfl⟩

theorem SameClock.policy (h : SameClock g g') (leg : String) : g'.policy leg = g.policy leg := by
  unfold ColdStartGateEngine.policy
  rw [h.policyByStrategy]

theorem SameClock.elapsedSeconds (h : SameClock g g') (now : ℚ) :
    g'.elapsedSeconds now = g.elapsedSeconds now := by
  unfold ColdStartGateEngine.elapsedSeconds openSpan
  rw [h.startedAtMonotonic, h.pausedAccumulatedSeconds, h.pausedSinceMonotonic]

section Transition
variable (g) (now : ℚ) (sid : String) (new : ColdStartGateState) (reason : String)
  (lag : Option ℚ) (aligned intact : Bool)

theorem transition_sameClock :
    SameClock g (g.transition now sid new reason lag aligned intact).2 := by
  unfold transition
  dsimp only
  split
  · exact .refl g
  · exact ⟨rfl, rfl, rfl, rfl, rfl⟩

theorem transition_state (leg : String) :
    (g.transition now sid new reason lag aligned intact).2.state leg =
      if leg = sid then new else g.state leg := by
  unfold transition
  dsimp only
  split
  · rename_i hsame
    split
    · rename_i hleg
      rw [hleg, hsame]
    · rfl
  · simp only [ColdStartGateEngine.state, Dict.get?_set]
    split <;> rfl

end Transition

/-- HEURISTIC_PARITY and BYPASS_OVERRIDE. -/
def IsHatch (state : ColdStartGateState) : Prop :=
  state = .heuristicParity ∨ state = .bypassOverride

instance (state : ColdStartGateState) : Decidable (IsHatch state) :=
  inferInstanceAs (Decidable (_ ∨ _))

/-- The leg has come to a hatch that it was not in. -/
def Enters (g g' : ColdStartGateEngine) (leg : String) : Prop :=
  g'.state leg ≠ g.state leg ∧ IsHatch (g'.state leg)

/-- The time bound has run out on a leg that is not settled, may not be
verified, and has the policy for it. -/
def Escapes (g : ColdStartGateEngine) (now : ℚ) (sid : String) (ev : Evidence) : Prop :=
  (g.state sid = .pending ∨ g.state sid = .pendingBlocked ∨ g.state sid = .heuristicParity) ∧
    g.config.maxColdStartWaitSeconds ≤ g.elapsedSeconds now ∧
      ¬ (ev.matrixAligned && ev.backgroundVerified && ev.fresh && ev.intact) = true ∧
        g.policy sid = .highAvailability

instance (g : ColdStartGateEngine) (now : ℚ) (sid : String) (ev : Evidence) :
    Decidable (Escapes g now sid ev) := inferInstanceAs (Decidable (_ ∧ _))

theorem not_enters_self (leg : String) : ¬ Enters g g leg := fun h => h.1 rfl

theorem transition_enters_iff (now : ℚ) (sid : String) (new : ColdStartGateState) (reason : String)
    (lag : Option ℚ) (aligned intact : Bool) (leg : String) :
    Enters g (g.transition now sid new reason lag aligned intact).2 leg ↔
      leg = sid ∧ new ≠ g.state sid ∧ IsHatch new := by
  unfold Enters
  rw [transition_state]
  by_cases hleg : leg = sid
  · simp [hleg]
  · simp [hleg]

theorem policy_cases (leg : String) :
    g.policy leg = .failSafeClose ∨ g.policy leg = .highAvailability := by
  cases g.policy leg with
  | failSafeClose => exact .inl rfl
  | highAvailability => exact .inr rfl

theorem evaluateTimeBound_sameClock (now : ℚ) (sid : String) (ev : Evidence) :
    SameClock g (g.evaluateTimeBound now sid ev).2 := by
  unfold evaluateTimeBound
  dsimp only
  split_ifs <;> first | exact .refl g | exact transition_sameClock ..

/-- The time bound lets a leg into a hatch exactly when it escapes. -/
theorem evaluateTimeBound_enters_iff (now : ℚ) (sid : String) (ev : Evidence) (leg : String) :
    Enters g (g.evaluateTimeBound now sid ev).2 leg ↔ leg = sid ∧ Escapes g now sid ev := by
  unfold evaluateTimeBound Escapes
  dsimp only
  by_cases hopen : g.state sid = .pending ∨ g.state sid = .pendingBlocked ∨
      g.state sid = .heuristicParity
  · have hbypass : g.state sid ≠ .bypassOverride := by grind
    have hstabilized : g.state sid ≠ .stabilizedVerified := by grind
    have hstale : g.state sid ≠ .staleReverify := by grind
    rw [if_neg hbypass, if_neg hstabilized, if_neg hstale]
    by_cases hwait : g.elapsedSeconds now < g.config.maxColdStartWaitSeconds
    · simp [hwait, not_le.mpr hwait, not_enters_self]
    by_cases hall : (ev.matrixAligned && ev.backgroundVerified && ev.fresh && ev.intact) = true
    · simp [hwait, hall, transition_enters_iff, IsHatch]
    rcases policy_cases (g := g) sid with hpolicy | hpolicy
    · rw [if_neg hwait, if_neg hall, if_pos hpolicy]
      split_ifs <;> simp [hpolicy, transition_enters_iff, not_enters_self, IsHatch]
    · have hpolicy' : g.policy sid ≠ .failSafeClose := by
        rw [hpolicy]
        decide
      rw [if_neg hwait, if_neg hall, if_neg hpolicy', if_pos hbypass]
      have hescape : (g.state sid = .pending ∨ g.state sid = .pendingBlocked ∨
          g.state sid = .heuristicParity) ∧
            g.config.maxColdStartWaitSeconds ≤ g.elapsedSeconds now ∧
              ¬ (ev.matrixAligned && ev.backgroundVerified && ev.fresh && ev.intact) = true ∧
                g.policy sid = .highAvailability := ⟨hopen, not_lt.mp hwait, hall, hpolicy⟩
      split_ifs with hheuristic
      · have hpending : g.state sid = .pending := by simp_all
        rw [transition_enters_iff, hpending]
        simp [hescape, IsHatch]
      · rw [transition_enters_iff]
        simp [hescape, hbypass.symm, IsHatch]
  · simp only [hopen, false_and, and_false, iff_false]
    cases hstate : g.state sid with
    | bypassOverride => simp [not_enters_self]
    | stabilizedVerified =>
      cases ev.fresh <;> simp [not_enters_self, transition_enters_iff, IsHatch]
    | staleReverify =>
      cases (ev.fresh && ev.matrixAligned) <;>
        simp [not_enters_self, transition_enters_iff, IsHatch]
    | pending => exact absurd (.inl hstate) hopen
    | pendingBlocked => exact absurd (.inr (.inl hstate)) hopen
    | heuristicParity => exact absurd (.inr (.inr hstate)) hopen

/-- What a verification passes on to the time bound, and escapes by it. -/
def VerificationEscapes (g : ColdStartGateEngine) (now wall : ℚ) (sid timeframe : String)
    (matrixAligned : Bool) (matrixSkipReason : Option String) (streamHealth : StreamHealthSnapshot)
    (backgroundVerified divergent : Bool) : Prop :=
  let aligned := matrixAligned && matrixSkipReason.isNone
  let ev := g.gather wall timeframe streamHealth aligned backgroundVerified
  divergent = false ∧ ¬ (aligned && !ev.fresh) = true ∧ Escapes g now sid ev

theorem evaluateVerification_sameClock (now wall : ℚ) (sid timeframe : String) (aligned : Bool)
    (skip : Option String) (health : StreamHealthSnapshot) (bg divergent : Bool) :
    SameClock g
      (g.evaluateVerification now wall sid timeframe aligned skip health bg divergent).2 := by
  unfold evaluateVerification
  dsimp only
  split_ifs
  · exact .refl g
  · exact transition_sameClock ..
  · exact .refl g
  · exact evaluateTimeBound_sameClock ..

theorem tickTimeBound_sameClock (now wall : ℚ) (sid timeframe : String)
    (health : StreamHealthSnapshot) (aligned bg ready : Bool) :
    SameClock (g.setReadiness now ready)
      (g.tickTimeBound now wall sid timeframe health aligned bg ready).2 := by
  unfold tickTimeBound
  dsimp only
  split_ifs
  · exact .refl _
  · exact evaluateTimeBound_sameClock ..

theorem evaluateVerification_enters_iff (now wall : ℚ) (sid timeframe : String) (aligned : Bool)
    (skip : Option String) (health : StreamHealthSnapshot) (bg divergent : Bool) (leg : String) :
    Enters g (g.evaluateVerification now wall sid timeframe aligned skip health bg divergent).2 leg ↔
      leg = sid ∧
        VerificationEscapes g now wall sid timeframe aligned skip health bg divergent := by
  unfold evaluateVerification VerificationEscapes
  dsimp only
  set ev := g.gather wall timeframe health (aligned && skip.isNone) bg
  cases divergent with
  | true => simp [not_enters_self]
  | false =>
    rw [if_neg Bool.false_ne_true]
    split_ifs with hverified hstale
    · -- a leg that can be verified does not escape
      have hnot : ¬ Escapes g now sid ev :=
        fun h => h.2.2.1 (Bool.and_eq_true_iff.mp hverified).1
      rw [transition_enters_iff]
      simp [hnot, IsHatch]
    · simp [hstale, not_enters_self]
    · rw [evaluateTimeBound_enters_iff]
      simp [hstale]

/-- A leg on FAIL_SAFE_CLOSE is in no hatch. -/
def FailSafeSettled (g : ColdStartGateEngine) : Prop :=
  ∀ leg, g.policy leg = .failSafeClose → ¬ IsHatch (g.state leg)

/-- Some reading of the gate lets entries of the leg pass. -/
def AllowsEntries (g : ColdStartGateEngine) (leg : String) : Prop :=
  g.blocksAllEntries leg = false ∨ g.blocksEntrySignals leg = false ∨ 0 < g.coldStartEntryScale leg

theorem stabilized_of_allowsEntries (h : FailSafeSettled g) {leg : String}
    (hpolicy : g.policy leg = .failSafeClose) (hallows : AllowsEntries g leg) :
    g.state leg = .stabilizedVerified := by
  have hhatch := h leg hpolicy
  unfold AllowsEntries blocksAllEntries blocksEntrySignals coldStartEntryScale at hallows
  cases hstate : g.state leg with
  | stabilizedVerified => rfl
  | heuristicParity => exact absurd (.inl hstate) hhatch
  | bypassOverride => exact absurd (.inr hstate) hhatch
  | _ => simp [hstate] at hallows

/-- A step that keeps the policies and lets no leg on FAIL_SAFE_CLOSE enter. -/
theorem FailSafeSettled.step (h : FailSafeSettled g) (hpolicy : ∀ leg, g'.policy leg = g.policy leg)
    (henters : ∀ leg, Enters g g' leg → g.policy leg = .highAvailability) : FailSafeSettled g' := by
  intro leg hfail hhatch
  rw [hpolicy] at hfail
  by_cases hsame : g'.state leg = g.state leg
  · exact h leg hfail (hsame ▸ hhatch)
  · have hha := henters leg ⟨hsame, hhatch⟩
    rw [hfail] at hha
    cases hha

end ColdStartGateEngine

/-! ## Runs of calls -/

inductive GateCall
  | beginColdStart (strategyIds : List String) (policies : Dict String ColdStartPolicy)
  | tickTimeBound (strategyId timeframe : String) (streamHealth : StreamHealthSnapshot)
      (matrixAligned backgroundVerified readinessOk : Bool)
  | evaluateVerification (strategyId timeframe : String) (matrixAligned : Bool)
      (matrixSkipReason : Option String) (streamHealth : StreamHealthSnapshot)
      (backgroundVerified divergent : Bool)
  | elapsedSeconds

/-- A call, with the readings of the monotonic and of the wall clock. -/
structure Timed where
  now : ℚ
  wall : ℚ
  call : GateCall

def ColdStartGateEngine.perform (g : ColdStartGateEngine) (e : Timed) : ColdStartGateEngine :=
  match e.call with
  | .beginColdStart ids policies => g.beginColdStart e.now ids policies
  | .tickTimeBound sid timeframe health aligned bg ready =>
    (g.tickTimeBound e.now e.wall sid timeframe health aligned bg ready).2
  | .evaluateVerification sid timeframe aligned skip health bg divergent =>
    (g.evaluateVerification e.now e.wall sid timeframe aligned skip health bg divergent).2
  | .elapsedSeconds => g

/-- What an observer of the calls knows: the last reported readiness (taken for
ok until reported), the unpaused time since the latest cold start, and the time
paused before it and altogether. -/
structure Observer where
  last : ℚ
  ready : Bool := true
  begun : Bool := false
  unpaused : ℚ := 0
  pausedBefore : ℚ := 0
  pausedTotal : ℚ := 0

def Observer.advance (o : Observer) (now : ℚ) : Observer :=
  { o with
    last := now
    unpaused := if o.ready && o.begun then o.unpaused + (now - o.last) else o.unpaused
    pausedTotal := if o.ready then o.pausedTotal else o.pausedTotal + (now - o.last) }

def Observer.observe (o : Observer) (e : Timed) : Observer :=
  let o := o.advance e.now
  match e.call with
  | .beginColdStart _ _ => { o with begun := true, unpaused := 0, pausedBefore := o.pausedTotal }
  | .tickTimeBound _ _ _ _ _ ready => { o with ready := ready }
  | _ => o

structure Watched where
  engine : ColdStartGateEngine
  observer : Observer

def Watched.step (s : Watched) (e : Timed) : Watched :=
  ⟨s.engine.perform e, s.observer.observe e⟩

/-- The clock does not go back, and a cold start leaves each leg its policy. -/
def Allowed (s : Watched) (e : Timed) : Prop :=
  s.observer.last ≤ e.now ∧
    match e.call with
    | .beginColdStart ids policies =>
      ∀ leg ∈ ids, (policies.get? leg).getD .failSafeClose = s.engine.policy leg
    | _ => True

instance (s : Watched) (e : Timed) : Decidable (Allowed s e) := by
  unfold Allowed
  cases e.call <;> infer_instance

/-- A leg that enters a hatch has the policy for it, the last reported readiness
was ok, and the wait has been sat out. -/
def EntersDuly (s s' : Watched) : Prop :=
  ∀ leg, ColdStartGateEngine.Enters s.engine s'.engine leg →
    s'.engine.policy leg = .highAvailability ∧ s'.observer.ready = true ∧
      s'.engine.config.maxColdStartWaitSeconds ≤ s'.observer.unpaused

/-- The three promises about one call. -/
structure Respects (s : Watched) (e : Timed) : Prop where
  enters : EntersDuly s (s.step e)
  elapsed : (s.step e).engine.elapsedSeconds e.now = (s.step e).observer.unpaused
  failSafe : ∀ leg, (s.step e).engine.policy leg = .failSafeClose →
    (s.step e).engine.AllowsEntries leg → (s.step e).engine.state leg = .stabilizedVerified

/-- The latest cold start came before any paused time, or no unpaused time has
passed since. -/
def CountsFromBegin (o : Observer) : Prop := o.pausedBefore = 0 ∨ o.unpaused = 0

/-- A verification while readiness is failed lets no leg escape. -/
def HeldWhilePaused (s : Watched) (e : Timed) : Prop :=
  match e.call with
  | .evaluateVerification sid timeframe aligned skip health bg divergent =>
    s.observer.ready = true ∨
      ¬ s.engine.VerificationEscapes e.now e.wall sid timeframe aligned skip health bg divergent
  | _ => True

/-! ## The engine's clock and the observer's -/

/-- The engine subtracts every pause of the process; the observer only those
since the latest cold start. -/
structure InStep (g : ColdStartGateEngine) (o : Observer) : Prop where
  paused : match g.pausedSinceMonotonic with
    | none => o.ready = true
    | some since => o.ready = false ∧ since ≤ o.last
  total : g.pausedAccumulatedSeconds + g.openSpan o.last = o.pausedTotal
  started : match g.startedAtMonotonic with
    | none => o.begun = false ∧ o.unpaused = 0
    | some started => o.begun = true ∧ o.last - started - o.pausedTotal = o.unpaused - o.pausedBefore
  unpaused_nonneg : 0 ≤ o.unpaused
  pausedBefore_nonneg : 0 ≤ o.pausedBefore
  pausedTotal_nonneg : 0 ≤ o.pausedTotal

theorem InStep.elapsedSeconds {g : ColdStartGateEngine} {o : Observer} (h : InStep g o) :
    g.elapsedSeconds o.last = max (o.unpaused - o.pausedBefore) 0 := by
  have hstarted := h.started
  unfold ColdStartGateEngine.elapsedSeconds
  cases hs : g.startedAtMonotonic with
  | none =>
    rw [hs] at hstarted
    rw [hstarted.2]
    have := h.pausedBefore_nonneg
    simp [this]
  | some started =>
    rw [hs] at hstarted
    rw [h.total, ← hstarted.2]

theorem InStep.advance {g : ColdStartGateEngine} {o : Observer} (h : InStep g o) {now : ℚ}
    (hnow : o.last ≤ now) : InStep g (o.advance now) := by
  obtain ⟨hpaused, htotal, hstarted, hunpaused, hbefore, htot⟩ := h
  cases hsince : g.pausedSinceMonotonic with
  | none =>
    have hready : o.ready = true := by simpa [hsince] using hpaused
    refine ⟨by simpa [hsince, Observer.advance] using hready, ?_, ?_, ?_, hbefore, ?_⟩
    · simpa [Observer.advance, hready, ColdStartGateEngine.openSpan, hsince] using htotal
    · cases hs : g.startedAtMonotonic with
      | none =>
        rw [hs] at hstarted
        simp [Observer.advance, hready, hstarted.1, hstarted.2]
      | some started =>
        rw [hs] at hstarted
        refine ⟨hstarted.1, ?_⟩
        simp only [Observer.advance, hready, hstarted.1, Bool.and_self, if_true]
        linarith [hstarted.2]
    · simp only [Observer.advance]
      split_ifs <;> linarith
    · simpa [Observer.advance, hready] using htot
  | some since =>
    have hready : o.ready = false ∧ since ≤ o.last := by simpa [hsince] using hpaused
    have hopen : max (o.last - since) 0 = o.last - since := max_eq_left (by linarith [hready.2])
    have hopen' : max (now - since) 0 = now - since := max_eq_left (by linarith [hready.2])
    have htotal' : g.pausedAccumulatedSeconds + (o.last - since) = o.pausedTotal := by
      simpa [ColdStartGateEngine.openSpan, hsince, hopen] using htotal
    refine ⟨?_, ?_, ?_, ?_, hbefore, ?_⟩
    · simpa [hsince, Observer.advance] using ⟨hready.1, hready.2.trans hnow⟩
    · simp only [Observer.advance, hready.1, ColdStartGateEngine.openSpan, hsince, Option.elim_some,
        hopen', Bool.false_eq_true, if_false]
      linarith
    · cases hs : g.startedAtMonotonic with
      | none =>
        rw [hs] at hstarted
        simp [Observer.advance, hready.1, hstarted.1, hstarted.2]
      | some started =>
        rw [hs] at hstarted
        refine ⟨hstarted.1, ?_⟩
        simp only [Observer.advance, hready.1, Bool.false_and, Bool.false_eq_true, if_false]
        linarith [hstarted.2]
    · simpa [Observer.advance, hready.1] using hunpaused
    · simp only [Observer.advance, hready.1, Bool.false_eq_true, if_false]
      linarith

theorem InStep.sameClock {g g' : ColdStartGateEngine} {o : Observer} (h : InStep g o)
    (hsame : g.SameClock g') : InStep g' o := by
  obtain ⟨hpaused, htotal, hstarted, hunpaused, hbefore, htot⟩ := h
  refine ⟨?_, ?_, ?_, hunpaused, hbefore, htot⟩
  · rw [hsame.pausedSinceMonotonic]
    exact hpaused
  · unfold ColdStartGateEngine.openSpan at htotal ⊢
    rw [hsame.pausedSinceMonotonic, hsame.pausedAccumulatedSeconds]
    exact htotal
  · rw [hsame.startedAtMonotonic]
    exact hstarted

theorem InStep.setReadiness {g : ColdStartGateEngine} {o : Observer} (h : InStep g o)
    (ready : Bool) : InStep (g.setReadiness o.last ready) { o with ready := ready } := by
  obtain ⟨hpaused, htotal, hstarted, hunpaused, hbefore, htot⟩ := h
  refine ⟨?_, ?_, ?_, hunpaused, hbefore, htot⟩
  · cases ready with
    | true => rfl
    | false =>
      cases hsince : g.pausedSinceMonotonic with
      | none =>
        simp [ColdStartGateEngine.setReadiness, ColdStartGateEngine.pauseTimeBoundProgression,
          hsince]
      | some since =>
        have hlast : since ≤ o.last := by
          rw [hsince] at hpaused
          exact hpaused.2
        simpa [ColdStartGateEngine.setReadiness, ColdStartGateEngine.pauseTimeBoundProgression,
          hsince] using hlast
  · rw [← htotal]
    cases ready with
    | true =>
      simp [ColdStartGateEngine.setReadiness, ColdStartGateEngine.resumeTimeBoundProgression,
        ColdStartGateEngine.openSpan]
    | false =>
      cases hsince : g.pausedSinceMonotonic <;>
        simp [ColdStartGateEngine.setReadiness, ColdStartGateEngine.pauseTimeBoundProgression,
          ColdStartGateEngine.openSpan, hsince]
  · cases ready <;> exact hstarted

theorem InStep.beginColdStart {g : ColdStartGateEngine} {o : Observer} (h : InStep g o)
    (ids : List String) (policies : Dict String ColdStartPolicy) :
    InStep (g.beginColdStart o.last ids policies)
      { o with begun := true, unpaused := 0, pausedBefore := o.pausedTotal } := by
  obtain ⟨hpaused, htotal, hstarted, hunpaused, hbefore, htot⟩ := h
  refine ⟨hpaused, htotal, ⟨rfl, ?_⟩, le_rfl, htot, htot⟩
  simp

theorem InStep.step {s : Watched} {e : Timed} (h : InStep s.engine s.observer)
    (hnow : s.observer.last ≤ e.now) : InStep (s.step e).engine (s.step e).observer := by
  have hadvance := h.advance hnow
  unfold Watched.step Observer.observe ColdStartGateEngine.perform
  cases e.call with
  | beginColdStart ids policies => exact hadvance.beginColdStart ids policies
  | tickTimeBound sid timeframe health aligned bg ready =>
    exact (hadvance.setReadiness ready).sameClock (ColdStartGateEngine.tickTimeBound_sameClock ..)
  | evaluateVerification sid timeframe aligned skip health bg divergent =>
    exact hadvance.sameClock (ColdStartGateEngine.evaluateVerification_sameClock ..)
  | elapsedSeconds => exact hadvance

/-- The reading is right exactly when the pauses that the engine subtracts are
those that count. -/
theorem InStep.elapsed_eq_iff {g : ColdStartGateEngine} {o : Observer} (h : InStep g o) :
    g.elapsedSeconds o.last = o.unpaused ↔ CountsFromBegin o := by
  rw [h.elapsedSeconds]
  have hunpaused := h.unpaused_nonneg
  have hbefore := h.pausedBefore_nonneg
  unfold CountsFromBegin
  constructor
  · intro heq
    rcases max_choice (o.unpaused - o.pausedBefore) 0 with hmax | hmax
    · exact .inl (by linarith)
    · exact .inr (by linarith)
  · intro hor
    rcases hor with hzero | hzero
    · rw [hzero, sub_zero, max_eq_left hunpaused]
    · rw [hzero, max_eq_right (by linarith)]

/-- What the engine counts of the wait is never more than what has been sat out. -/
theorem InStep.elapsed_le {g : ColdStartGateEngine} {o : Observer} (h : InStep g o) :
    g.elapsedSeconds o.last ≤ o.unpaused := by
  rw [h.elapsedSeconds]
  exact max_le (by linarith [h.pausedBefore_nonneg]) h.unpaused_nonneg

section Entering
open ColdStartGateEngine
variable {g : ColdStartGateEngine}

theorem not_enters_beginColdStart (now : ℚ) (ids : List String)
    (policies : Dict String ColdStartPolicy) (leg : String) :
    ¬ Enters g (g.beginColdStart now ids policies) leg := by
  have hstate : (g.beginColdStart now ids policies).state leg =
      if leg ∈ ids then .pending else g.state leg := by
    unfold ColdStartGateEngine.beginColdStart ColdStartGateEngine.state
    rw [Dict.get?_setAll_id]
    split <;> rfl
  intro h
  rw [Enters, hstate] at h
  split at h
  · exact absurd h.2 (by decide)
  · exact h.1 rfl

theorem beginColdStart_policy (now : ℚ) {ids : List String} {policies : Dict String ColdStartPolicy}
    (h : ∀ leg ∈ ids, (policies.get? leg).getD .failSafeClose = g.policy leg) (leg : String) :
    (g.beginColdStart now ids policies).policy leg = g.policy leg := by
  unfold ColdStartGateEngine.beginColdStart ColdStartGateEngine.policy
  rw [Dict.get?_setAll_id]
  split
  · rename_i hleg
    exact h leg hleg
  · rfl

theorem setReadiness_keeps (now : ℚ) (ready : Bool) :
    (∀ leg, (g.setReadiness now ready).state leg = g.state leg) ∧
      (∀ leg, (g.setReadiness now ready).policy leg = g.policy leg) ∧
      (g.setReadiness now ready).config = g.config := by
  cases ready <;> exact ⟨fun _ => rfl, fun _ => rfl, rfl⟩

/-- A tick lets a leg into a hatch when readiness is reported ok and it escapes. -/
theorem tickTimeBound_enters_iff (now wall : ℚ) (sid timeframe : String)
    (health : StreamHealthSnapshot) (aligned bg ready : Bool) (leg : String) :
    Enters g (g.tickTimeBound now wall sid timeframe health aligned bg ready).2 leg ↔
      ready = true ∧ leg = sid ∧ Escapes (g.setReadiness now ready) now sid
        ((g.setReadiness now ready).gather wall timeframe health aligned bg) := by
  have hkeeps := (setReadiness_keeps (g := g) now ready).1
  have hsame : ∀ g', Enters g g' leg ↔ Enters (g.setReadiness now ready) g' leg := by
    intro g'
    unfold Enters
    rw [hkeeps]
  rw [hsame]
  unfold tickTimeBound
  cases ready with
  | false => simp [not_enters_self]
  | true => simp [evaluateTimeBound_enters_iff]

/-- Policies and configuration outlast every allowed call. -/
theorem perform_keeps {s : Watched} {e : Timed} (hallowed : Allowed s e) :
    (∀ leg, (s.engine.perform e).policy leg = s.engine.policy leg) ∧
      (s.engine.perform e).config = s.engine.config := by
  obtain ⟨-, hcall⟩ := hallowed
  unfold ColdStartGateEngine.perform
  cases hc : e.call with
  | beginColdStart ids policies =>
    rw [hc] at hcall
    exact ⟨beginColdStart_policy e.now hcall, rfl⟩
  | tickTimeBound sid timeframe health aligned bg ready =>
    have hready := setReadiness_keeps (g := s.engine) e.now ready
    have hsame := tickTimeBound_sameClock (g := s.engine) e.now e.wall sid timeframe health aligned
      bg ready
    exact ⟨fun leg => (hsame.policy leg).trans (hready.2.1 leg), hsame.config.trans hready.2.2⟩
  | evaluateVerification sid timeframe aligned skip health bg divergent =>
    have hsame := evaluateVerification_sameClock (g := s.engine) e.now e.wall sid timeframe aligned
      skip health bg divergent
    exact ⟨hsame.policy, hsame.config⟩
  | elapsedSeconds => exact ⟨fun _ => rfl, rfl⟩

/-- Only a verification can let a leg in while readiness is failed. -/
theorem entersDuly_iff {s : Watched} {e : Timed} (h : InStep s.engine s.observer)
    (hallowed : Allowed s e) : EntersDuly s (s.step e) ↔ HeldWhilePaused s e := by
  obtain ⟨hpolicy, hconfig⟩ := perform_keeps hallowed
  have hadvance := h.advance hallowed.1
  obtain ⟨now, wall, call⟩ := e
  unfold EntersDuly
  simp only [Watched.step, hpolicy, hconfig]
  cases call with
  | beginColdStart ids policies =>
    exact iff_of_true (fun leg hleg => absurd hleg (not_enters_beginColdStart now ids policies leg)) trivial
  | elapsedSeconds =>
    exact iff_of_true (fun leg hleg => absurd hleg (not_enters_self leg)) trivial
  | tickTimeBound sid timeframe health aligned bg ready =>
    refine iff_of_true (fun leg hleg => ?_) trivial
    obtain ⟨hready, rfl, -, hwait, -, hha⟩ := (tickTimeBound_enters_iff ..).mp hleg
    obtain ⟨-, hpol, hconf⟩ := setReadiness_keeps (g := s.engine) now ready
    rw [hpol] at hha
    rw [hconf] at hwait
    exact ⟨hha, hready, hwait.trans (hadvance.setReadiness ready).elapsed_le⟩
  | evaluateVerification sid timeframe aligned skip health bg divergent =>
    have henters := evaluateVerification_enters_iff (g := s.engine) now wall sid timeframe aligned
      skip health bg divergent
    constructor
    · intro hduly
      by_cases hready : s.observer.ready = true
      · exact .inl hready
      · refine .inr fun hescape => hready ?_
        exact (hduly sid ((henters sid).mpr ⟨rfl, hescape⟩)).2.1
    · intro hheld leg hleg
      obtain ⟨rfl, hescape⟩ := (henters leg).mp hleg
      have hready := hheld.resolve_right (not_not_intro hescape)
      obtain ⟨-, -, -, hwait, -, hha⟩ := hescape
      exact ⟨hha, hready, hwait.trans hadvance.elapsed_le⟩

/-- Whoever enters has the policy for it, also where readiness is failed. -/
theorem step_failSafeSettled {s : Watched} {e : Timed} (hsettled : s.engine.FailSafeSettled)
    (hallowed : Allowed s e) : (s.step e).engine.FailSafeSettled := by
  obtain ⟨hpolicy, -⟩ := perform_keeps hallowed
  refine hsettled.step hpolicy fun leg hleg => ?_
  obtain ⟨now, wall, call⟩ := e
  cases call with
  | beginColdStart ids policies => exact absurd hleg (not_enters_beginColdStart now ids policies leg)
  | elapsedSeconds => exact absurd hleg (not_enters_self leg)
  | tickTimeBound sid timeframe health aligned bg ready =>
    obtain ⟨-, rfl, -, -, -, hha⟩ := (tickTimeBound_enters_iff ..).mp hleg
    exact ((setReadiness_keeps now ready).2.1 leg).symm.trans hha
  | evaluateVerification sid timeframe aligned skip health bg divergent =>
    obtain ⟨rfl, -, -, -, -, -, hha⟩ := (evaluateVerification_enters_iff ..).mp hleg
    exact hha

end Entering

/-! ## The promises along a run -/

def Watched.Sound (s : Watched) : Prop :=
  InStep s.engine s.observer ∧ s.engine.FailSafeSettled

theorem Watched.Sound.step {s : Watched} {e : Timed} (h : s.Sound) (hallowed : Allowed s e) :
    (s.step e).Sound :=
  ⟨h.1.step hallowed.1, step_failSafeSettled h.2 hallowed⟩

theorem respects_iff {s : Watched} {e : Timed} (h : s.Sound) (hallowed : Allowed s e) :
    Respects s e ↔ CountsFromBegin (s.observer.observe e) ∧ HeldWhilePaused s e := by
  obtain ⟨hstep, hsettled⟩ := h.step hallowed
  have hlast : (s.step e).observer.last = e.now := by
    unfold Watched.step Observer.observe
    cases e.call <;> rfl
  have helapsed := hstep.elapsed_eq_iff
  rw [hlast] at helapsed
  constructor
  · intro hrespects
    exact ⟨helapsed.mp hrespects.elapsed, (entersDuly_iff h.1 hallowed).mp hrespects.enters⟩
  · intro hcond
    exact ⟨(entersDuly_iff h.1 hallowed).mpr hcond.2, helapsed.mpr hcond.1,
      fun leg => ColdStartGateEngine.stabilized_of_allowsEntries hsettled⟩

/-- An engine before its first call, with any configuration and policies. -/
def Watched.init (config : ColdStartGateConfig) (policies : Dict String ColdStartPolicy)
    (now : ℚ) : Watched :=
  ⟨{ config := config, policyByStrategy := policies }, { last := now }⟩

theorem init_sound (config : ColdStartGateConfig) (policies : Dict String ColdStartPolicy)
    (now : ℚ) : (Watched.init config policies now).Sound := by
  refine ⟨⟨rfl, ?_, ⟨rfl, rfl⟩, le_rfl, le_rfl, le_rfl⟩, ?_⟩
  · simp [Watched.init, ColdStartGateEngine.openSpan]
  · intro leg _
    have hpending : (Watched.init config policies now).engine.state leg = .pending := rfl
    rw [hpending]
    decide

def oneLeg : Dict String ColdStartPolicy := Dict.empty.set "qqq" .highAvailability

/-- The time bound runs out on a leg without parity, with readiness reported ok. -/
def dulyBypassed : List Timed :=
  [⟨0, 0, .beginColdStart ["qqq"] oneLeg⟩,
    ⟨130, 130, .tickTimeBound "qqq" "15Min" {} false false true⟩]

/-- Readiness has failed before the time bound was acted on; a verification of
the same leg acts on it. -/
def bypassedWhilePaused : List Timed :=
  [⟨0, 0, .beginColdStart ["qqq"] oneLeg⟩,
    ⟨130, 130, .tickTimeBound "qqq" "15Min" {} false false false⟩,
    ⟨131, 131, .evaluateVerification "qqq" "15Min" false none {} false false⟩]

end TradingPlatform.Engine.ColdStart
