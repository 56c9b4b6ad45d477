import TradingPlatform.Engine.PolicyLifecycle
import TradingPlatform.Lib.Runs

/-! # A rollback and the write after it

An evening pass that rolls a leg back writes the leg's row twice: the rollback
writes it, and at the end of the pass it is written again from what was read at
the beginning. -/

namespace TradingPlatform.Engine.PolicyLifecycle

open TradingPlatform.Lib TradingPlatform.Lib.Runs

/-- The two rows agree in what a demotion writes. -/
structure SameBookkeeping (row row' : LifecycleRow) : Prop where
  executionState : row.executionState = row'.executionState
  probationStartedAt : row.probationStartedAt = row'.probationStartedAt
  cleanDays : row.probationCleanTradingDays = row'.probationCleanTradingDays
  lastAnomalySession : row.lastAnomalySession = row'.lastAnomalySession
  evictionLockoutUntil : row.evictionLockoutUntil = row'.evictionLockoutUntil

/-- If the pass rolls the leg back, the row at the end is the one the rollback has stored, with
no clean day. -/
def DemotionStands (sessionDate : String) (rows : Rows) (leg : EveningLeg) (final : Rows) : Prop :=
  let decision := eveningDecision sessionDate leg rows
  ∀ rollback, decision.rollback = some rollback → rollback.tier ≠ .none →
    ∃ wrote kept, decision.rows.get? leg.context.strategyId = some wrote ∧
      final.get? leg.context.strategyId = some kept ∧ SameBookkeeping kept wrote ∧
      kept.probationCleanTradingDays = 0

/-- In an evening run, every leg that the last pass over it rolls back keeps the rollback's
bookkeeping to the end. -/
def KeepsDemotions (sessionDate : String) (legs : List EveningLeg) (rows : Rows) : Prop :=
  ∀ before leg after, legs = before ++ leg :: after →
    (∀ other ∈ after, other.context.strategyId ≠ leg.context.strategyId) →
      DemotionStands sessionDate (runEveningProgression sessionDate before rows) leg
        (runEveningProgression sessionDate legs rows)

namespace RollbackTier

/-- What the tiers write where they differ. -/
def probationStart (stamps : Stamps) : RollbackTier → Option String
  | .sovereignToProbational => some stamps.now
  | _ => .none

def lockout (stamps : Stamps) : RollbackTier → Option String
  | .catastrophicEviction => some stamps.lockoutUntil
  | _ => .none

end RollbackTier

/-- The leg's row already reads, or will be given, what the rollback writes. -/
structure ReadsAsDemoted (sessionDate : String) (leg : EveningLeg) (tier : RollbackTier)
    (stored : Option LifecycleRow) : Prop where
  probationStart :
    stored.bind (·.probationStartedAt) = tier.probationStart leg.verdicts.stamps
  cleanDays : (stored.map (·.probationCleanTradingDays)).getD 0 = 0
  lastAnomaly :
    (if leg.verdicts.anomalyAtWrite then some sessionDate
      else stored.bind (·.lastAnomalySession)) = some leg.verdicts.stamps.session
  lockout : stored.bind (·.evictionLockoutUntil) = tier.lockout leg.verdicts.stamps

/-- A rollback that demotes stores the row of its tier. -/
theorem executeStagedRollback_spec (stamps : Stamps) (call : RollbackCall) (rows : Rows)
    (h : (executeStagedRollback stamps call rows).1.tier ≠ .none) :
    ∃ wrote, (executeStagedRollback stamps call rows).2.get? call.strategyId = some wrote ∧
      wrote.executionState = .valid (executeStagedRollback stamps call rows).1.newState ∧
      wrote.probationStartedAt =
        (executeStagedRollback stamps call rows).1.tier.probationStart stamps ∧
      wrote.probationCleanTradingDays = 0 ∧ wrote.lastAnomalySession = some stamps.session ∧
      wrote.evictionLockoutUntil =
        (executeStagedRollback stamps call rows).1.tier.lockout stamps := by
  unfold executeStagedRollback at h ⊢
  dsimp only at h ⊢
  cases hcat : call.isCatastrophic with
  | true => exact ⟨_, get?_upsert _ _ _, rfl, rfl, rfl, rfl, rfl⟩
  | false =>
    rw [hcat, if_neg Bool.false_ne_true] at h
    cases hstate : call.currentState.orPassive with
    | passive =>
      rw [hstate] at h
      exact absurd rfl h
    | probational => exact ⟨_, get?_upsert _ _ _, rfl, rfl, rfl, rfl, rfl⟩
    | sovereign => exact ⟨_, get?_upsert _ _ _, rfl, rfl, rfl, rfl, rfl⟩

/-- **One pass** keeps a rollback's bookkeeping exactly when the row read at its beginning has
it. -/
theorem demotionStands_iff {sessionDate : String} {rows final : Rows} {leg : EveningLeg}
    (hfinal : final.get? leg.context.strategyId =
      (eveningPass sessionDate rows leg).get? leg.context.strategyId) :
    DemotionStands sessionDate rows leg final ↔
      ∀ rollback, (eveningDecision sessionDate leg rows).rollback = some rollback →
        rollback.tier ≠ .none →
          ReadsAsDemoted sessionDate leg rollback.tier (rows.get? leg.context.strategyId) := by
  refine forall_congr' fun rollback => forall_congr' fun hrollback => forall_congr' fun htier => ?_
  obtain ⟨hnone, -⟩ | ⟨reason, hsome, hrows, hcurrent, hclean, hstarted⟩ :=
    eveningDecision_cases sessionDate leg rows
  · rw [hnone] at hrollback
    cases hrollback
  · rw [hsome] at hrollback
    cases hrollback
    obtain ⟨wrote, hwrote, hstate, hstart, hzero, hlast, hlockout⟩ :=
      executeStagedRollback_spec _ _ _ htier
    have hkept : (eveningPass sessionDate rows leg).get? leg.context.strategyId = some _ :=
      get?_upsert _ _ _
    rw [hrows, hfinal, hkept]
    constructor
    · intro hstands
      obtain ⟨wrote', kept, hwrote', hkept', hsame, hzero'⟩ := hstands
      cases hwrote.symm.trans hwrote'
      cases hkept'
      exact ⟨hstarted.symm.trans (hsame.probationStartedAt.trans hstart),
        hclean.symm.trans hzero', hsame.lastAnomalySession.trans hlast,
        hsame.evictionLockoutUntil.trans hlockout⟩
    · intro hreads
      exact ⟨wrote, _, hwrote, rfl,
        ⟨(congrArg StateText.valid hcurrent).trans hstate.symm,
          hstarted.trans (hreads.probationStart.trans hstart.symm),
          hclean.trans (hreads.cleanDays.trans hzero.symm),
          hreads.lastAnomaly.trans hlast.symm, hreads.lockout.trans hlockout.symm⟩,
        hclean.trans hreads.cleanDays⟩

theorem runEveningProgression_other (sessionDate : String) (legs : List EveningLeg) (rows : Rows)
    {id : String} (h : ∀ other ∈ legs, other.context.strategyId ≠ id) :
    (runEveningProgression sessionDate legs rows).get? id = rows.get? id := by
  induction legs generalizing rows with
  | nil => rfl
  | cons leg legs ih =>
    refine (ih _ fun other hother => h other (List.mem_cons_of_mem _ hother)).trans ?_
    exact eveningPass_other sessionDate leg rows (h leg List.mem_cons_self).symm

/-- An evening run keeps its demotions **exactly when** each leg that the last pass over it
rolls back had, when that pass began, a row without clean days, with the probation start and the
lockout the rollback writes, and with the last anomaly of the rollback's day, unless an anomaly
gives it that day. -/
theorem keepsDemotions_iff (sessionDate : String) (legs : List EveningLeg) (rows : Rows) :
    KeepsDemotions sessionDate legs rows ↔
      ∀ before leg after, legs = before ++ leg :: after →
        (∀ other ∈ after, other.context.strategyId ≠ leg.context.strategyId) →
        ∀ rollback,
          (eveningDecision sessionDate leg
            (runEveningProgression sessionDate before rows)).rollback = some rollback →
          rollback.tier ≠ .none →
            ReadsAsDemoted sessionDate leg rollback.tier
              ((runEveningProgression sessionDate before rows).get? leg.context.strategyId) := by
  refine forall_congr' fun before => forall_congr' fun leg => forall_congr' fun after =>
    forall_congr' fun hlegs => forall_congr' fun hlast => demotionStands_iff ?_
  rw [hlegs, runEveningProgression, List.foldl_append, List.foldl_cons]
  exact runEveningProgression_other sessionDate after _ hlast

/-- A probational leg whose edge has decayed. -/
def decayedLeg : EveningLeg where
  context := { strategyId := "momentum", symbol := "SPY" }
  verdicts := {
    preemptiveDegrade := true
    edgeReason := "probation_edge_decay_streak"
    probationStart := "2024-03-01T22:00:00"
    updatedAt := "2024-03-01T22:00:00"
    stamps := ⟨"2024-03-01T22:00:00", "2024-03-01", "2024-03-15T22:00:00", "2024-03-01T22:00:00"⟩ }

def probationRow : LifecycleRow where
  symbol := "SPY"
  executionState := .valid .probational
  probationStartedAt := some "2024-02-01T22:00:00"
  probationCleanTradingDays := 9
  updatedAt := "2024-02-29T22:00:00"

/-- Rolled back to passive, the leg still has its nine clean days and the start of the probation
that ended. -/
theorem rolled_back_leg_keeps_clean_days :
    let rows : Rows := Dict.empty.set "momentum" probationRow
    ((runEveningProgression "2024-03-01" [decayedLeg] rows).get? "momentum").map
        (fun row => (row.executionState, row.probationStartedAt, row.probationCleanTradingDays)) =
      some (.valid .passive, some "2024-02-01T22:00:00", 9) ∧
    ¬ KeepsDemotions "2024-03-01" [decayedLeg] rows := by
  intro rows
  have hrow : ((runEveningProgression "2024-03-01" [decayedLeg] rows).get? "momentum").map
      (fun row => (row.executionState, row.probationStartedAt, row.probationCleanTradingDays)) =
      some (.valid .passive, some "2024-02-01T22:00:00", 9) := by decide +kernel
  have htier : (eveningDecision "2024-03-01" decayedLeg rows).rollback.map (·.tier) =
      some .probationalToPassive := by decide +kernel
  refine ⟨hrow, ?_⟩
  clear_value rows
  intro hkeeps
  obtain ⟨rollback, hrollback, htier⟩ := Option.map_eq_some_iff.mp htier
  obtain ⟨-, kept, -, hkept, -, hzero⟩ :=
    hkeeps [] decayedLeg [] rfl (fun _ hother => absurd hother List.not_mem_nil) rollback hrollback
      (by rw [htier]; decide)
  rw [show decayedLeg.context.strategyId = "momentum" from rfl] at hkept
  rw [hkept] at hrow
  have hclean : kept.probationCleanTradingDays = 9 :=
    congrArg (fun row => row.2.2) (Option.some.inj hrow)
  omega

end TradingPlatform.Engine.PolicyLifecycle
