import TradingPlatform.Lib.Dict
import Mathlib.Algebra.Order.Ring.Rat

/-! # The AI policy lifecycle

A leg's authority is one row of the lifecycle table: passive, probational or
sovereign, with the bookkeeping of its probation and the state a velocity shock
took it from. The evaluators' verdicts and the readings of the clock are inputs
of each step. The table stores what it is given; a field given as `...` keeps
its value. -/

namespace TradingPlatform.Engine.PolicyLifecycle

open TradingPlatform.Lib

inductive PolicyState
  | passive
  | probational
  | sovereign
  deriving DecidableEq

/-- A text where a state is expected: one of `AI_POLICY_VALID_STATES`, or another. -/
inductive StateText
  | valid (state : PolicyState)
  | other (text : String)
  deriving DecidableEq

def StateText.orPassive : StateText → PolicyState
  | valid state => state
  | other _ => .passive

structure LifecycleRow where
  symbol : String
  executionState : StateText
  probationStartedAt : Option String := none
  probationCleanTradingDays : ℤ := 0
  lastAnomalySession : Option String := none
  evictionLockoutUntil : Option String := none
  velocityShockPriorState : Option StateText := none
  velocityShockDemotedAt : Option String := none
  updatedAt : String

abbrev Rows := Dict String LifecycleRow

/-- The arguments of `upsert_ai_policy_lifecycle_state`; `none` for a field given as `...`. -/
structure Upsert where
  symbol : String
  executionState : PolicyState
  probationStartedAt : Option String
  probationCleanTradingDays : ℤ
  lastAnomalySession : Option String
  evictionLockoutUntil : Option String
  velocityShockPriorState : Option (Option StateText) := none
  velocityShockDemotedAt : Option (Option String) := none
  updatedAt : String

def Upsert.row (u : Upsert) (stored : Option LifecycleRow) : LifecycleRow where
  symbol := u.symbol
  executionState := .valid u.executionState
  probationStartedAt := u.probationStartedAt
  probationCleanTradingDays := u.probationCleanTradingDays
  lastAnomalySession := u.lastAnomalySession
  evictionLockoutUntil := u.evictionLockoutUntil
  velocityShockPriorState :=
    u.velocityShockPriorState.getD (stored.bind (·.velocityShockPriorState))
  velocityShockDemotedAt := u.velocityShockDemotedAt.getD (stored.bind (·.velocityShockDemotedAt))
  updatedAt := u.updatedAt

def upsert (strategyId : String) (u : Upsert) (rows : Rows) : Rows :=
  rows.set strategyId (u.row (rows.get? strategyId))

theorem get?_upsert (strategyId : String) (u : Upsert) (rows : Rows) :
    (upsert strategyId u rows).get? strategyId = some (u.row (rows.get? strategyId)) :=
  Dict.get?_set_self _ _ _

theorem get?_upsert_ne {strategyId other : String} (h : other ≠ strategyId) (u : Upsert)
    (rows : Rows) : (upsert strategyId u rows).get? other = rows.get? other :=
  Dict.get?_set_ne _ h _

/-- The readings of the clock during a demotion. -/
structure Stamps where
  now : String
  session : String
  lockoutUntil : String
  updatedAt : String

structure LegContext where
  strategyId : String
  symbol : String
  /-- `params.get("ai_policy_execution_state")`, passive without it. -/
  paramsState : StateText := .valid .passive

/-- The state a pass over a leg starts from. -/
def currentState (leg : LegContext) (rows : Rows) : PolicyState :=
  match rows.get? leg.strategyId with
  | some row => row.executionState.orPassive
  | none => leg.paramsState.orPassive

/-! ## Demotions -/

inductive RollbackTier
  | none
  | sovereignToProbational
  | probationalToPassive
  | catastrophicEviction
  | velocityShockDemotion
  deriving DecidableEq

structure StagedRollbackResult where
  priorState : PolicyState
  newState : PolicyState
  tier : RollbackTier
  catastrophic : Bool
  reason : String
  evictionLockoutUntil : Option String := .none

/-- The arguments of `execute_staged_rollback`. -/
structure RollbackCall where
  currentState : StateText
  strategyId : String
  symbol : String
  reason : String
  catastrophic : Bool := false
  liveHitRate : Option ℚ := .none

def RollbackCall.isCatastrophic (call : RollbackCall) : Bool :=
  call.catastrophic || call.liveHitRate.any (fun rate => decide (rate < 3 / 10)) ||
    call.reason = "execution_drift"

def executeStagedRollback (stamps : Stamps) (call : RollbackCall) (rows : Rows) :
    StagedRollbackResult × Rows :=
  let state := call.currentState.orPassive
  let demoted (newState : PolicyState) (started lockout : Option String) : Rows :=
    upsert call.strategyId
      { symbol := call.symbol
        executionState := newState
        probationStartedAt := started
        probationCleanTradingDays := 0
        lastAnomalySession := some stamps.session
        evictionLockoutUntil := lockout
        updatedAt := stamps.updatedAt } rows
  if call.isCatastrophic then
    (⟨state, .passive, .catastrophicEviction, true, call.reason, some stamps.lockoutUntil⟩,
      demoted .passive none (some stamps.lockoutUntil))
  else
    match state with
    | .sovereign =>
      (⟨state, .probational, .sovereignToProbational, false, call.reason, none⟩,
        demoted .probational (some stamps.now) none)
    | .probational =>
      (⟨state, .passive, .probationalToPassive, false, call.reason, none⟩,
        demoted .passive none none)
    | .passive => (⟨state, state, .none, false, "no_rollback_applicable", none⟩, rows)

def executeVelocityShockDemotion (stamps : Stamps) (currentState : StateText)
    (strategyId symbol shockReason : String) (rows : Rows) : StagedRollbackResult × Rows :=
  let state := currentState.orPassive
  match state with
  | .passive => (⟨state, state, .none, false, "velocity_shock_not_applicable", none⟩, rows)
  | _ =>
    (⟨state, .passive, .velocityShockDemotion, false,
        if shockReason = "" then "macro_velocity_shock" else shockReason, none⟩,
      upsert strategyId
        { symbol
          executionState := .passive
          probationStartedAt := none
          probationCleanTradingDays := 0
          lastAnomalySession := some stamps.session
          evictionLockoutUntil := none
          velocityShockPriorState := some (some (.valid state))
          velocityShockDemotedAt := some (some stamps.now)
          updatedAt := stamps.updatedAt } rows)

/-- A leg of `handle_macro_velocity_shock`, once a shock was detected. -/
def shockLeg (stamps : Stamps) (leg : LegContext) (shockReason : String) (rows : Rows) :
    StagedRollbackResult × Rows :=
  executeVelocityShockDemotion stamps (.valid (currentState leg rows)) leg.strategyId leg.symbol
    shockReason rows

/-! ## Recovery from a shock -/

structure RegimeStabilizationVerdict where
  stabilized : Bool
  reason : String

structure VelocityShockRecoveryVerdict where
  approved : Bool
  reasons : List String

/-- The reason of a recovery that waits for the regime. -/
def waitingReason : Option RegimeStabilizationVerdict → String
  | none => "no_stabilization_verdict"
  | some verdict =>
    if verdict.reason = "cool_off_window_incomplete" then "velocity_shock_cool_off_pending"
    else if verdict.reason = "composite_stress_above_hysteresis_threshold" then
      "velocity_shock_hysteresis_blocked"
    else if verdict.reason = "no_recorded_velocity_shock" then "unchanged"
    else verdict.reason

/-- The state to restore, and the reason. -/
def attemptVelocityShockRecovery (stored : LifecycleRow)
    (stabilization : Option RegimeStabilizationVerdict) (recovery : VelocityShockRecoveryVerdict) :
    StateText × String :=
  match stored.velocityShockPriorState with
  | some (.valid prior) =>
    if stored.executionState ≠ .valid .passive then (stored.executionState, "unchanged")
    else if !stabilization.any (·.stabilized) then (.valid .passive, waitingReason stabilization)
    else if !recovery.approved then (.valid .passive, String.intercalate "|" recovery.reasons)
    else (.valid prior, "velocity_shock_cool_off_recovery")
  | _ => (stored.executionState, "unchanged")

/-- A leg of `process_intraday_velocity_shock_recovery`. -/
def recoverLeg (stamps : Stamps) (leg : LegContext)
    (stabilization : Option RegimeStabilizationVerdict) (recovery : VelocityShockRecoveryVerdict)
    (rows : Rows) : Rows :=
  match rows.get? leg.strategyId with
  | none => rows
  | some stored =>
    if stored.executionState ≠ .valid .passive then rows
    else
      match attemptVelocityShockRecovery stored stabilization recovery with
      | (.valid restored, reason) =>
        if reason = "unchanged" ∨ restored = .passive then rows
        else
          upsert leg.strategyId
            { symbol := leg.symbol
              executionState := restored
              probationStartedAt :=
                if restored = .probational ∧ stored.probationStartedAt = none then some stamps.now
                else stored.probationStartedAt
              probationCleanTradingDays := stored.probationCleanTradingDays
              lastAnomalySession := stored.lastAnomalySession
              evictionLockoutUntil := stored.evictionLockoutUntil
              velocityShockPriorState := some none
              velocityShockDemotedAt := some none
              updatedAt := stamps.updatedAt } rows
      | (.other _, _) => rows

/-! ## The evening run -/

/-- What the evaluators answer about a leg, and the clock's readings. -/
structure EveningVerdicts where
  probationEntry : Bool := false
  attributionBreached : Bool := false
  attributionReasons : List String := []
  maintainsEdge : Bool := true
  preemptiveDegrade : Bool := false
  decayStreak : ℕ := 0
  edgeReason : String := "edge_stable"
  sovereignPromotion : Bool := false
  /-- `_probation_anomaly_detected`, as the probation counts its days. -/
  anomaly : Bool := false
  /-- The same, when the row is written. -/
  anomalyAtWrite : Bool := false
  probationStart : String
  updatedAt : String
  stamps : Stamps

structure EveningLeg where
  context : LegContext
  verdicts : EveningVerdicts

/-- What an evening pass has decided when it comes to write the row. -/
structure Decision where
  current : PolicyState
  reason : String
  cleanDays : ℤ
  probationStarted : Option String
  rollback : Option StagedRollbackResult
  rows : Rows

/-- A rollback of the evening run. -/
def rollBack (leg : EveningLeg) (current : PolicyState) (reason : String) (rows : Rows) :
    StagedRollbackResult × Rows :=
  executeStagedRollback leg.verdicts.stamps
    { currentState := .valid current
      strategyId := leg.context.strategyId
      symbol := leg.context.symbol
      reason } rows

def eveningDecision (sessionDate : String) (leg : EveningLeg) (rows : Rows) : Decision :=
  let stored := rows.get? leg.context.strategyId
  let current := currentState leg.context rows
  let v := leg.verdicts
  let unchanged : Decision :=
    { current
      reason := "unchanged"
      cleanDays := (stored.map (·.probationCleanTradingDays)).getD 0
      probationStarted := stored.bind (·.probationStartedAt)
      rollback := none
      rows }
  let rolledBack (reason : String) (shown : Option String) : Decision :=
    let out := rollBack leg current reason rows
    { unchanged with
      current := out.1.newState
      reason := shown.getD out.1.reason
      rollback := some out.1
      rows := out.2 }
  let breached := rolledBack (String.intercalate "|" v.attributionReasons)
    (some "attribution_slo_rollback")
  match current with
  | .passive =>
    if v.probationEntry then
      { unchanged with
        current := .probational
        reason := "probation_entry_sieve_passed"
        cleanDays := 0
        probationStarted := some v.probationStart }
    else unchanged
  | .probational =>
    if v.attributionBreached then breached
    else if v.preemptiveDegrade then rolledBack v.edgeReason none
    else
      let counted : Decision :=
        { unchanged with
          cleanDays :=
            if v.anomaly then 0
            else if stored.all (fun row => (row.updatedAt.toList.take 10) ≠ sessionDate.toList) then
              unchanged.cleanDays + 1
            else unchanged.cleanDays }
      if v.sovereignPromotion then
        { counted with current := .sovereign, reason := "sovereign_promotion_criteria_met" }
      else counted
  | .sovereign =>
    if v.attributionBreached then breached
    else if !v.maintainsEdge && decide (1 ≤ v.decayStreak) then
      rolledBack "sovereign_edge_decay" none
    else unchanged

/-- A leg of `run_evening_progression`: the decision, and then the row of every leg. -/
def eveningPass (sessionDate : String) (rows : Rows) (leg : EveningLeg) : Rows :=
  let stored := rows.get? leg.context.strategyId
  let decision := eveningDecision sessionDate leg rows
  upsert leg.context.strategyId
    { symbol := leg.context.symbol
      executionState := decision.current
      probationStartedAt := decision.probationStarted
      probationCleanTradingDays := decision.cleanDays
      lastAnomalySession :=
        if leg.verdicts.anomalyAtWrite then some sessionDate
        else stored.bind (·.lastAnomalySession)
      evictionLockoutUntil := stored.bind (·.evictionLockoutUntil)
      updatedAt := leg.verdicts.updatedAt } decision.rows

/-- `run_evening_progression`. -/
def runEveningProgression (sessionDate : String) (legs : List EveningLeg) (rows : Rows) : Rows :=
  legs.foldl (eveningPass sessionDate) rows

/-! ## What a pass leaves alone -/

theorem executeStagedRollback_other (stamps : Stamps) (call : RollbackCall) (rows : Rows)
    {other : String} (h : other ≠ call.strategyId) :
    (executeStagedRollback stamps call rows).2.get? other = rows.get? other := by
  unfold executeStagedRollback
  dsimp only
  split
  · exact get?_upsert_ne h _ _
  · split
    · exact get?_upsert_ne h _ _
    · exact get?_upsert_ne h _ _
    · rfl

theorem shockLeg_other (stamps : Stamps) (leg : LegContext) (reason : String) (rows : Rows)
    {other : String} (h : other ≠ leg.strategyId) :
    (shockLeg stamps leg reason rows).2.get? other = rows.get? other := by
  unfold shockLeg executeVelocityShockDemotion
  dsimp only
  split
  · rfl
  · exact get?_upsert_ne h _ _

theorem recoverLeg_other (stamps : Stamps) (leg : LegContext)
    (stabilization : Option RegimeStabilizationVerdict) (recovery : VelocityShockRecoveryVerdict)
    (rows : Rows) {other : String} (h : other ≠ leg.strategyId) :
    (recoverLeg stamps leg stabilization recovery rows).get? other = rows.get? other := by
  unfold recoverLeg
  split
  · rfl
  · split
    · rfl
    · split
      · split
        · rfl
        · exact get?_upsert_ne h _ _
      · rfl

/-- What an evening pass can decide: to leave the rows as they are, or to roll the leg back, with
the bookkeeping as it was read. -/
theorem eveningDecision_cases (sessionDate : String) (leg : EveningLeg) (rows : Rows) :
    ((eveningDecision sessionDate leg rows).rollback = none ∧
      (eveningDecision sessionDate leg rows).rows = rows) ∨
    ∃ reason, (eveningDecision sessionDate leg rows).rollback =
        some (rollBack leg (currentState leg.context rows) reason rows).1 ∧
      (eveningDecision sessionDate leg rows).rows =
        (rollBack leg (currentState leg.context rows) reason rows).2 ∧
      (eveningDecision sessionDate leg rows).current =
        (rollBack leg (currentState leg.context rows) reason rows).1.newState ∧
      (eveningDecision sessionDate leg rows).cleanDays =
        ((rows.get? leg.context.strategyId).map (·.probationCleanTradingDays)).getD 0 ∧
      (eveningDecision sessionDate leg rows).probationStarted =
        (rows.get? leg.context.strategyId).bind (·.probationStartedAt) := by
  unfold eveningDecision
  dsimp only
  cases hcurrent : currentState leg.context rows with
  | passive =>
    left
    dsimp only
    split <;> exact ⟨rfl, rfl⟩
  | probational =>
    dsimp only
    split
    · exact .inr ⟨_, rfl, rfl, rfl, rfl, rfl⟩
    · split
      · exact .inr ⟨_, rfl, rfl, rfl, rfl, rfl⟩
      · split <;> exact .inl ⟨rfl, rfl⟩
  | sovereign =>
    dsimp only
    split
    · exact .inr ⟨_, rfl, rfl, rfl, rfl, rfl⟩
    · split
      · exact .inr ⟨_, rfl, rfl, rfl, rfl, rfl⟩
      · exact .inl ⟨rfl, rfl⟩

theorem eveningPass_other (sessionDate : String) (leg : EveningLeg) (rows : Rows)
    {other : String} (h : other ≠ leg.context.strategyId) :
    (eveningPass sessionDate rows leg).get? other = rows.get? other := by
  refine (get?_upsert_ne h _ _).trans ?_
  obtain ⟨-, hrows⟩ | ⟨reason, -, hrows, -⟩ := eveningDecision_cases sessionDate leg rows
  · rw [hrows]
  · rw [hrows]
    exact executeStagedRollback_other _ _ _ h

end TradingPlatform.Engine.PolicyLifecycle
