import TradingPlatform.Engine.PolicyLifecycle
import TradingPlatform.Lib.Runs

/-! # Where sovereign authority comes from

The four operations go over legs one after the other. The state a shock took a
leg from is remembered in its row, and only a recovery forgets it: the evening
run and the staged rollbacks leave it there. -/

namespace TradingPlatform.Engine.PolicyLifecycle

open TradingPlatform.Lib TradingPlatform.Lib.Runs

/-- One leg's turn in an operation. -/
inductive Pass
  | shock (stamps : Stamps) (leg : LegContext) (shockReason : String)
  | recovery (stamps : Stamps) (leg : LegContext)
      (stabilization : Option RegimeStabilizationVerdict) (verdict : VelocityShockRecoveryVerdict)
  | evening (sessionDate : String) (leg : EveningLeg)
  | rollback (stamps : Stamps) (call : RollbackCall)

inductive Operation
  | macroVelocityShock (shockDetected : Bool) (reason : String) (legs : List (Stamps × LegContext))
  | velocityShockRecovery (stabilization : Option RegimeStabilizationVerdict)
      (legs : List (Stamps × LegContext × VelocityShockRecoveryVerdict))
  | eveningProgression (sessionDate : String) (legs : List EveningLeg)
  | stagedRollback (stamps : Stamps) (call : RollbackCall)

def Operation.passes : Operation → List Pass
  | .macroVelocityShock shockDetected reason legs =>
    if shockDetected then
      let shockReason := if reason = "" then "macro_velocity_shock" else reason
      legs.map fun leg => .shock leg.1 leg.2 shockReason
    else []
  | .velocityShockRecovery stabilization legs =>
    legs.map fun leg => .recovery leg.1 leg.2.1 stabilization leg.2.2
  | .eveningProgression sessionDate legs => legs.map (.evening sessionDate)
  | .stagedRollback stamps call => [.rollback stamps call]

namespace Pass

/-- The leg, with the state it has while there is no row. -/
def context : Pass → LegContext
  | .shock _ leg _ => leg
  | .recovery _ leg _ _ => leg
  | .evening _ leg => leg.context
  | .rollback _ call => ⟨call.strategyId, call.symbol, call.currentState⟩

def apply (rows : Rows) : Pass → Rows
  | .shock stamps leg reason => (shockLeg stamps leg reason rows).2
  | .recovery stamps leg stabilization verdict => recoverLeg stamps leg stabilization verdict rows
  | .evening sessionDate leg => eveningPass sessionDate rows leg
  | .rollback stamps call => (executeStagedRollback stamps call rows).2

/-- The pass demotes the leg for a shock. -/
def demotesForShock (rows : Rows) : Pass → Bool
  | .shock stamps leg reason =>
    decide ((shockLeg stamps leg reason rows).1.tier = .velocityShockDemotion)
  | _ => false

/-- The pass takes a passive leg up the ladder: the probation sieve approves it in an evening
run, or a rollback takes it for sovereign. -/
def climbs (rows : Rows) : Pass → Bool
  | .evening _ leg =>
    leg.verdicts.probationEntry && decide (currentState leg.context rows = .passive)
  | .rollback _ call => !call.isCatastrophic && decide (call.currentState.orPassive = .sovereign)
  | _ => false

end Pass

/-- The rows, and for each leg: the state that a shock took it from, while its state has not
changed since; and whether it has climbed since the last shock that demoted it. -/
structure Authority where
  rows : Rows
  shockedFrom : String → Option PolicyState := fun _ => none
  climbed : String → Bool := fun _ => false

namespace Authority

def step (a : Authority) (pass : Pass) : Authority where
  rows := pass.apply a.rows
  shockedFrom id :=
    if id ≠ pass.context.strategyId then a.shockedFrom id
    else if pass.demotesForShock a.rows then some (currentState pass.context a.rows)
    else if ((pass.apply a.rows).get? id).map (·.executionState) =
        (a.rows.get? id).map (·.executionState) then
      a.shockedFrom id
    else none
  climbed id :=
    if id ≠ pass.context.strategyId then a.climbed id
    else if pass.demotesForShock a.rows then false
    else a.climbed id || pass.climbs a.rows

/-- Sovereign authority is earned by promotion, or given back to a leg that a shock has taken it
from and whose state has not changed since; and so is probation, by a recovery. -/
structure Earned (a : Authority) (pass : Pass) : Prop where
  others : ∀ id ≠ pass.context.strategyId, (pass.apply a.rows).get? id = a.rows.get? id
  sovereign : currentState pass.context (pass.apply a.rows) = .sovereign →
    currentState pass.context a.rows ≠ .sovereign →
      (∃ sessionDate leg, pass = .evening sessionDate leg ∧
        currentState pass.context a.rows = .probational ∧
        leg.verdicts.sovereignPromotion = true) ∨
      ∃ stamps leg stabilization verdict, pass = .recovery stamps leg (some stabilization) verdict ∧
        stabilization.stabilized = true ∧ verdict.approved = true ∧
        currentState pass.context a.rows = .passive ∧
        a.shockedFrom leg.strategyId = some .sovereign
  probational : ∀ stamps leg stabilization verdict,
    pass = .recovery stamps leg stabilization verdict →
    currentState pass.context (pass.apply a.rows) = .probational →
    currentState pass.context a.rows ≠ .probational →
      a.shockedFrom leg.strategyId = some .probational

/-- The recovery of a leg goes ahead. -/
def GoesAhead (rows : Rows) (leg : LegContext) (stabilization : Option RegimeStabilizationVerdict)
    (verdict : VelocityShockRecoveryVerdict) : Prop :=
  ∃ row prior, rows.get? leg.strategyId = some row ∧ row.executionState = .valid .passive ∧
    row.velocityShockPriorState = some (.valid prior) ∧ prior ≠ .passive ∧
    stabilization.any (·.stabilized) = true ∧ verdict.approved = true

/-- No recovery goes ahead of a leg that has climbed since the shock. -/
def StaysDown (a : Authority) : Pass → Prop
  | .recovery _ leg stabilization verdict =>
    GoesAhead a.rows leg stabilization verdict → a.climbed leg.strategyId = false
  | _ => True

/-- What a row remembers of a shock, and what has happened since. -/
structure Remembers (a : Authority) : Prop where
  marked : ∀ id row mark, a.rows.get? id = some row → row.velocityShockPriorState = some mark →
    ∃ prior, mark = .valid prior ∧ prior ≠ .passive ∧
      (a.shockedFrom id = some prior ∧ a.climbed id = false ∨
        a.shockedFrom id = none ∧ a.climbed id = true)
  shocked : ∀ id prior, a.shockedFrom id = some prior → ∃ row, a.rows.get? id = some row ∧
    row.executionState = .valid .passive ∧ row.velocityShockPriorState = some (.valid prior)

end Authority

/-! ## What a pass does to the row of its leg -/

theorem currentState_of_row {leg : LegContext} {rows : Rows} {row : LifecycleRow}
    (h : rows.get? leg.strategyId = some row) :
    currentState leg rows = row.executionState.orPassive := by
  rw [currentState, h]

theorem shockLeg_cases (stamps : Stamps) (leg : LegContext) (reason : String) (rows : Rows) :
    ((shockLeg stamps leg reason rows).1.tier = .velocityShockDemotion ∧
      currentState leg rows ≠ .passive ∧
      ∃ row, (shockLeg stamps leg reason rows).2.get? leg.strategyId = some row ∧
        row.executionState = .valid .passive ∧
        row.velocityShockPriorState = some (.valid (currentState leg rows))) ∨
    ((shockLeg stamps leg reason rows).1.tier = .none ∧
      (shockLeg stamps leg reason rows).2 = rows) := by
  unfold shockLeg executeVelocityShockDemotion
  dsimp only [StateText.orPassive]
  cases currentState leg rows with
  | passive => exact .inr ⟨rfl, rfl⟩
  | probational => exact .inl ⟨rfl, nofun, _, get?_upsert _ _ _, rfl, rfl⟩
  | sovereign => exact .inl ⟨rfl, nofun, _, get?_upsert _ _ _, rfl, rfl⟩

theorem executeStagedRollback_cases (stamps : Stamps) (call : RollbackCall) (rows : Rows) :
    (call.isCatastrophic = false ∧ call.currentState.orPassive = .passive ∧
      (executeStagedRollback stamps call rows).2 = rows) ∨
    ∃ row state, (executeStagedRollback stamps call rows).2.get? call.strategyId = some row ∧
      row.executionState = .valid state ∧
      row.velocityShockPriorState =
        (rows.get? call.strategyId).bind (·.velocityShockPriorState) ∧
      (state = .passive ∧ (Pass.rollback stamps call).climbs rows = false ∨
        state = .probational ∧ (Pass.rollback stamps call).climbs rows = true) := by
  unfold executeStagedRollback Pass.climbs
  dsimp only
  cases hcat : call.isCatastrophic with
  | true => exact .inr ⟨_, _, get?_upsert _ _ _, rfl, rfl, .inl ⟨rfl, rfl⟩⟩
  | false =>
    rw [if_neg Bool.false_ne_true]
    cases call.currentState.orPassive with
    | passive => exact .inl ⟨rfl, rfl, rfl⟩
    | probational => exact .inr ⟨_, _, get?_upsert _ _ _, rfl, rfl, .inl ⟨rfl, rfl⟩⟩
    | sovereign => exact .inr ⟨_, _, get?_upsert _ _ _, rfl, rfl, .inr ⟨rfl, rfl⟩⟩

/-- The evening's rollback leaves the mark of a shock, as its own write does. -/
theorem eveningPass_row (sessionDate : String) (leg : EveningLeg) (rows : Rows) :
    ∃ row, (eveningPass sessionDate rows leg).get? leg.context.strategyId = some row ∧
      row.executionState = .valid (eveningDecision sessionDate leg rows).current ∧
      row.velocityShockPriorState =
        (rows.get? leg.context.strategyId).bind (·.velocityShockPriorState) := by
  refine ⟨_, get?_upsert _ _ _, rfl, ?_⟩
  show ((eveningDecision sessionDate leg rows).rows.get? leg.context.strategyId).bind _ = _
  obtain ⟨-, hrows⟩ | ⟨reason, -, hrows, -⟩ := eveningDecision_cases sessionDate leg rows
  · rw [hrows]
  · rw [hrows]
    obtain ⟨-, -, hsame⟩ | ⟨row, -, hrow, -, hmark, -⟩ :=
      executeStagedRollback_cases leg.verdicts.stamps
        { currentState := .valid (currentState leg.context rows)
          strategyId := leg.context.strategyId
          symbol := leg.context.symbol
          reason } rows
    · exact congrArg (fun rows => (Dict.get? rows leg.context.strategyId).bind _) hsame
    · exact (congrArg (fun row => Option.bind row _) hrow).trans hmark

theorem rollback_not_sovereign (stamps : Stamps) (call : RollbackCall) (rows : Rows) :
    (executeStagedRollback stamps call rows).1.newState ≠ .sovereign := by
  unfold executeStagedRollback
  dsimp only
  split
  · nofun
  · cases call.currentState.orPassive <;> nofun

/-- An evening pass lifts a leg by a verdict only: the sieve's, or the promotion's. -/
theorem eveningDecision_current (sessionDate : String) (leg : EveningLeg) (rows : Rows) :
    (currentState leg.context rows = .passive →
      (eveningDecision sessionDate leg rows).current =
        if leg.verdicts.probationEntry then .probational else .passive) ∧
    ((eveningDecision sessionDate leg rows).current = .sovereign →
      currentState leg.context rows = .sovereign ∨
        currentState leg.context rows = .probational ∧
          leg.verdicts.sovereignPromotion = true) := by
  unfold eveningDecision
  dsimp only
  cases hcurrent : currentState leg.context rows with
  | passive =>
    dsimp only
    refine ⟨fun _ => ?_, fun hsovereign => ?_⟩
    · split <;> rfl
    · split at hsovereign <;> cases hsovereign
  | probational =>
    refine ⟨fun hpassive => (by cases hpassive), fun hsovereign => .inr ⟨rfl, ?_⟩⟩
    dsimp only at hsovereign
    split at hsovereign
    · exact absurd hsovereign (rollback_not_sovereign _ _ _)
    · split at hsovereign
      · exact absurd hsovereign (rollback_not_sovereign _ _ _)
      · split at hsovereign
        · assumption
        · cases hsovereign
  | sovereign => exact ⟨fun hpassive => (by cases hpassive), fun _ => .inl rfl⟩

/-- A passive row recovers to the state of its mark, or stays passive. -/
theorem attemptVelocityShockRecovery_cases {stored : LifecycleRow}
    (hstate : stored.executionState = .valid .passive)
    (stabilization : Option RegimeStabilizationVerdict) (recovery : VelocityShockRecoveryVerdict) :
    (∃ prior, stored.velocityShockPriorState = some (.valid prior) ∧
      stabilization.any (·.stabilized) = true ∧ recovery.approved = true ∧
      attemptVelocityShockRecovery stored stabilization recovery =
        (.valid prior, "velocity_shock_cool_off_recovery")) ∨
    ((∀ prior, stored.velocityShockPriorState = some (.valid prior) →
        stabilization.any (·.stabilized) = true → recovery.approved = false) ∧
      ∃ reason, attemptVelocityShockRecovery stored stabilization recovery =
        (.valid .passive, reason)) := by
  unfold attemptVelocityShockRecovery
  cases hmark : stored.velocityShockPriorState with
  | none => exact .inr ⟨nofun, _, congrArg (·, "unchanged") hstate⟩
  | some mark =>
    cases mark with
    | other text => exact .inr ⟨nofun, _, congrArg (·, "unchanged") hstate⟩
    | valid prior =>
      dsimp only
      rw [if_neg (not_not_intro hstate)]
      cases hstable : stabilization.any (·.stabilized) with
      | false => exact .inr ⟨nofun, _, rfl⟩
      | true =>
        cases happroved : recovery.approved with
        | false => exact .inr ⟨fun _ _ _ => rfl, _, rfl⟩
        | true => exact .inl ⟨prior, rfl, rfl, rfl, rfl⟩

theorem recoverLeg_cases (stamps : Stamps) (leg : LegContext)
    (stabilization : Option RegimeStabilizationVerdict) (verdict : VelocityShockRecoveryVerdict)
    (rows : Rows) :
    (∃ row prior restored, rows.get? leg.strategyId = some row ∧
      row.executionState = .valid .passive ∧
      row.velocityShockPriorState = some (.valid prior) ∧ prior ≠ .passive ∧
      stabilization.any (·.stabilized) = true ∧ verdict.approved = true ∧
      (recoverLeg stamps leg stabilization verdict rows).get? leg.strategyId = some restored ∧
      restored.executionState = .valid prior ∧ restored.velocityShockPriorState = none) ∨
    (¬ Authority.GoesAhead rows leg stabilization verdict ∧
      recoverLeg stamps leg stabilization verdict rows = rows) := by
  unfold recoverLeg
  cases hrow : rows.get? leg.strategyId with
  | none =>
    refine .inr ⟨fun hgoes => ?_, rfl⟩
    obtain ⟨row, -, hsome, -⟩ := hgoes
    rw [hrow] at hsome
    cases hsome
  | some row =>
    -- what a recovery that goes ahead would need of this row
    have hneeds : Authority.GoesAhead rows leg stabilization verdict →
        ∃ prior, row.executionState = .valid .passive ∧
          row.velocityShockPriorState = some (.valid prior) ∧ prior ≠ .passive ∧
          stabilization.any (·.stabilized) = true ∧ verdict.approved = true := by
      intro hgoes
      obtain ⟨row', prior, hsome, hneeds⟩ := hgoes
      rw [hrow] at hsome
      cases hsome
      exact ⟨prior, hneeds⟩
    dsimp only
    by_cases hstate : row.executionState = .valid .passive
    · rw [if_neg (not_not_intro hstate)]
      obtain ⟨prior, hmark, hstable, happroved, hattempt⟩ | ⟨hwaits, reason, hattempt⟩ :=
        attemptVelocityShockRecovery_cases hstate stabilization verdict
      · rw [hattempt]
        dsimp only
        by_cases hprior : prior = .passive
        · rw [if_pos (.inr hprior)]
          refine .inr ⟨fun hgoes => ?_, rfl⟩
          obtain ⟨prior', -, hmark', hne, -⟩ := hneeds hgoes
          cases hmark.symm.trans hmark'
          exact hne hprior
        · rw [if_neg (by simp [hprior])]
          exact .inl ⟨row, prior, _, rfl, hstate, hmark, hprior, hstable, happroved,
            get?_upsert _ _ _, rfl, rfl⟩
      · rw [hattempt]
        dsimp only
        rw [if_pos (.inr rfl)]
        refine .inr ⟨fun hgoes => ?_, rfl⟩
        obtain ⟨prior, -, hmark, -, hstable, happroved⟩ := hneeds hgoes
        rw [hwaits prior hmark hstable] at happroved
        cases happroved
    · rw [if_pos hstate]
      refine .inr ⟨fun hgoes => ?_, rfl⟩
      obtain ⟨-, hpassive, -⟩ := hneeds hgoes
      exact hstate hpassive

theorem Pass.apply_other (pass : Pass) (rows : Rows) {id : String}
    (h : id ≠ pass.context.strategyId) : (pass.apply rows).get? id = rows.get? id := by
  cases pass with
  | shock stamps leg reason => exact shockLeg_other stamps leg reason rows h
  | recovery stamps leg stabilization verdict =>
    exact recoverLeg_other stamps leg stabilization verdict rows h
  | evening sessionDate leg => exact eveningPass_other sessionDate leg rows h
  | rollback stamps call => exact executeStagedRollback_other stamps call rows h

/-! ## The invariant -/

namespace Authority

variable {a : Authority} {pass : Pass}

/-- A pass concerns the row of its own leg only. -/
theorem remembers_step (h : Remembers a)
    (hmarked : ∀ row mark, (pass.apply a.rows).get? pass.context.strategyId = some row →
      row.velocityShockPriorState = some mark → ∃ prior, mark = .valid prior ∧ prior ≠ .passive ∧
        ((a.step pass).shockedFrom pass.context.strategyId = some prior ∧
            (a.step pass).climbed pass.context.strategyId = false ∨
          (a.step pass).shockedFrom pass.context.strategyId = none ∧
            (a.step pass).climbed pass.context.strategyId = true))
    (hshocked : ∀ prior, (a.step pass).shockedFrom pass.context.strategyId = some prior →
      ∃ row, (pass.apply a.rows).get? pass.context.strategyId = some row ∧
        row.executionState = .valid .passive ∧
        row.velocityShockPriorState = some (.valid prior)) :
    Remembers (a.step pass) := by
  have hother : ∀ id, id ≠ pass.context.strategyId →
      (a.step pass).rows.get? id = a.rows.get? id ∧
        (a.step pass).shockedFrom id = a.shockedFrom id ∧
        (a.step pass).climbed id = a.climbed id :=
    fun id hid => ⟨pass.apply_other a.rows hid, if_pos hid, if_pos hid⟩
  refine ⟨fun id row mark hrow hmark => ?_, fun id prior hprior => ?_⟩
  · by_cases hid : id = pass.context.strategyId
    · subst hid
      exact hmarked row mark hrow hmark
    · obtain ⟨hrows, hfrom, hclimbed⟩ := hother id hid
      rw [hrows] at hrow
      rw [hfrom, hclimbed]
      exact h.marked id row mark hrow hmark
  · by_cases hid : id = pass.context.strategyId
    · subst hid
      exact hshocked prior hprior
    · obtain ⟨hrows, hfrom, -⟩ := hother id hid
      rw [hfrom] at hprior
      rw [hrows]
      exact h.shocked id prior hprior

theorem step_shockedFrom_self (hshock : pass.demotesForShock a.rows = false) :
    (a.step pass).shockedFrom pass.context.strategyId =
      if ((pass.apply a.rows).get? pass.context.strategyId).map (·.executionState) =
          (a.rows.get? pass.context.strategyId).map (·.executionState) then
        a.shockedFrom pass.context.strategyId
      else none := by
  refine (if_neg (not_not_intro rfl)).trans ?_
  rw [hshock, if_neg Bool.false_ne_true]

theorem step_climbed_self (hshock : pass.demotesForShock a.rows = false) :
    (a.step pass).climbed pass.context.strategyId =
      (a.climbed pass.context.strategyId || pass.climbs a.rows) := by
  refine (if_neg (not_not_intro rfl)).trans ?_
  rw [hshock, if_neg Bool.false_ne_true]

/-- A pass that writes nothing and lifts nobody. -/
theorem remembers_of_same (h : Remembers a) (hrows : pass.apply a.rows = a.rows)
    (hshock : pass.demotesForShock a.rows = false) (hclimbs : pass.climbs a.rows = false) :
    Remembers (a.step pass) := by
  have hfrom := step_shockedFrom_self hshock
  have hclimbed := step_climbed_self hshock
  rw [hrows, if_pos rfl] at hfrom
  rw [hclimbs, Bool.or_false] at hclimbed
  refine remembers_step h (fun row mark hrow hmark => ?_) fun prior hprior => ?_
  · rw [hrows] at hrow
    rw [hfrom, hclimbed]
    exact h.marked _ row mark hrow hmark
  · rw [hfrom] at hprior
    rw [hrows]
    exact h.shocked _ prior hprior

/-- A pass that leaves the mark in the row, and takes a passive leg up only by climbing. -/
theorem remembers_of_kept (h : Remembers a) (hshock : pass.demotesForShock a.rows = false)
    {row : LifecycleRow} (hrow : (pass.apply a.rows).get? pass.context.strategyId = some row)
    (hmark : row.velocityShockPriorState =
      (a.rows.get? pass.context.strategyId).bind (·.velocityShockPriorState))
    (hstate : ∀ stored, a.rows.get? pass.context.strategyId = some stored →
      stored.executionState = .valid .passive →
        row.executionState = .valid .passive ∧ pass.climbs a.rows = false ∨
          row.executionState = .valid .probational ∧ pass.climbs a.rows = true) :
    Remembers (a.step pass) := by
  have hfrom := step_shockedFrom_self hshock
  have hclimbed := step_climbed_self hshock
  rw [hrow, Option.map_some] at hfrom
  refine remembers_step h (fun row' mark hrow' hmark' => ?_) fun prior hprior => ?_
  · cases hrow.symm.trans hrow'
    rw [hmark] at hmark'
    obtain ⟨stored, hstored, hmark'⟩ := Option.bind_eq_some_iff.mp hmark'
    obtain ⟨prior, hvalid, hprior, hsince⟩ := h.marked _ stored mark hstored hmark'
    refine ⟨prior, hvalid, hprior, ?_⟩
    rw [hstored, Option.map_some] at hfrom
    rw [hfrom, hclimbed]
    obtain ⟨hshocked, hdown⟩ | ⟨hchanged, hup⟩ := hsince
    · obtain ⟨stored', hstored', hpassive, -⟩ := h.shocked _ prior hshocked
      cases hstored.symm.trans hstored'
      rw [hshocked, hdown, hpassive]
      obtain ⟨hstays, hclimbs⟩ | ⟨hleaves, hclimbs⟩ := hstate stored hstored hpassive
      · rw [hstays, hclimbs]
        exact .inl ⟨rfl, rfl⟩
      · rw [hleaves, hclimbs]
        exact .inr ⟨rfl, rfl⟩
    · rw [hchanged, hup, ite_self]
      exact .inr ⟨rfl, rfl⟩
  · rw [hfrom] at hprior
    split at hprior
    · obtain ⟨stored, hstored, hpassive, hstoredMark⟩ := h.shocked _ prior hprior
      rename_i hsame
      rw [hstored, Option.map_some] at hsame
      rw [hstored] at hmark
      exact ⟨row, hrow, (Option.some.inj hsame).trans hpassive, hmark.trans hstoredMark⟩
    · cases hprior

theorem remembers_shock (h : Remembers a) (stamps : Stamps) (leg : LegContext) (reason : String) :
    Remembers (a.step (.shock stamps leg reason)) := by
  obtain ⟨htier, hne, row, hrow, hpassive, hmark⟩ | ⟨htier, hrows⟩ :=
    shockLeg_cases stamps leg reason a.rows
  · have hshock : (Pass.shock stamps leg reason).demotesForShock a.rows = true :=
      decide_eq_true htier
    have hfrom : (a.step (.shock stamps leg reason)).shockedFrom leg.strategyId =
        some (currentState leg a.rows) := by
      refine (if_neg (not_not_intro rfl)).trans ?_
      rw [hshock, if_pos rfl]
      rfl
    have hclimbed : (a.step (.shock stamps leg reason)).climbed leg.strategyId = false := by
      refine (if_neg (not_not_intro rfl)).trans ?_
      rw [hshock, if_pos rfl]
    refine remembers_step h (fun row' mark hrow' hmark' => ?_) fun prior hprior => ?_
    · cases hrow.symm.trans hrow'
      cases hmark.symm.trans hmark'
      exact ⟨_, rfl, hne, .inl ⟨hfrom, hclimbed⟩⟩
    · cases hfrom.symm.trans hprior
      exact ⟨row, hrow, hpassive, hmark⟩
  · exact remembers_of_same h hrows (decide_eq_false (by rw [htier]; nofun)) rfl

theorem remembers_recovery (h : Remembers a) (stamps : Stamps) (leg : LegContext)
    (stabilization : Option RegimeStabilizationVerdict) (verdict : VelocityShockRecoveryVerdict) :
    Remembers (a.step (.recovery stamps leg stabilization verdict)) := by
  obtain ⟨row, prior, restored, hrow, hpassive, -, hprior, -, -, hrestored, hstate, hnomark⟩ |
    ⟨-, hrows⟩ := recoverLeg_cases stamps leg stabilization verdict a.rows
  · have hnoshock : (Pass.recovery stamps leg stabilization verdict).demotesForShock a.rows =
        false := rfl
    have hfrom := step_shockedFrom_self hnoshock
    have hchanged : (a.step (.recovery stamps leg stabilization verdict)).shockedFrom
        leg.strategyId = none := by
      refine hfrom.trans (if_neg fun hsame => ?_)
      have hstates : restored.executionState = row.executionState :=
        Option.some.inj ((congrArg (Option.map LifecycleRow.executionState) hrestored).symm.trans
          (hsame.trans (congrArg (Option.map LifecycleRow.executionState) hrow)))
      rw [hstate, hpassive] at hstates
      exact hprior (StateText.valid.inj hstates)
    refine remembers_step h (fun row' mark hrow' hmark' => ?_) fun prior hprior => ?_
    · cases hrestored.symm.trans hrow'
      rw [hnomark] at hmark'
      cases hmark'
    · cases hchanged.symm.trans hprior
  · exact remembers_of_same h hrows rfl rfl

theorem remembers_next (h : Remembers a) (pass : Pass) : Remembers (a.step pass) := by
  cases pass with
  | shock stamps leg reason => exact remembers_shock h stamps leg reason
  | recovery stamps leg stabilization verdict =>
    exact remembers_recovery h stamps leg stabilization verdict
  | evening sessionDate leg =>
    obtain ⟨row, hrow, hstate, hmark⟩ := eveningPass_row sessionDate leg a.rows
    refine remembers_of_kept h rfl hrow hmark fun stored hstored hpassive => ?_
    have hcurrent : currentState leg.context a.rows = .passive :=
      (currentState_of_row hstored).trans (congrArg StateText.orPassive hpassive)
    rw [hstate, (eveningDecision_current sessionDate leg a.rows).1 hcurrent]
    unfold Pass.climbs
    dsimp only
    rw [hcurrent]
    cases leg.verdicts.probationEntry with
    | false => exact .inl ⟨rfl, rfl⟩
    | true => exact .inr ⟨rfl, rfl⟩
  | rollback stamps call =>
    obtain ⟨hcat, hstate, hrows⟩ | ⟨row, state, hrow, hstate, hmark, hclimbs⟩ :=
      executeStagedRollback_cases stamps call a.rows
    · refine remembers_of_same h hrows rfl ?_
      unfold Pass.climbs
      dsimp only
      rw [hcat, hstate]
      rfl
    · refine remembers_of_kept h rfl hrow hmark fun stored hstored hpassive => ?_
      rw [hstate]
      obtain ⟨hstate, hclimbs⟩ | ⟨hstate, hclimbs⟩ := hclimbs
      · exact .inl ⟨congrArg StateText.valid hstate, hclimbs⟩
      · exact .inr ⟨congrArg StateText.valid hstate, hclimbs⟩

/-! ## Every transition -/

theorem earned_shock (a : Authority) (stamps : Stamps) (leg : LegContext) (reason : String) :
    Earned a (.shock stamps leg reason) := by
  refine ⟨fun id hid => Pass.apply_other _ _ hid, fun hsovereign hbefore => ?_, nofun⟩
  obtain ⟨-, -, row, hrow, hpassive, -⟩ | ⟨-, hrows⟩ := shockLeg_cases stamps leg reason a.rows
  · have hafter : currentState leg (shockLeg stamps leg reason a.rows).2 = .passive :=
      (currentState_of_row hrow).trans (congrArg StateText.orPassive hpassive)
    cases hafter.symm.trans hsovereign
  · exact absurd ((congrArg (currentState leg) hrows).symm.trans hsovereign) hbefore

theorem earned_evening (a : Authority) (sessionDate : String) (leg : EveningLeg) :
    Earned a (.evening sessionDate leg) := by
  refine ⟨fun id hid => Pass.apply_other _ _ hid, fun hsovereign hbefore => .inl ?_, nofun⟩
  obtain ⟨row, hrow, hstate, -⟩ := eveningPass_row sessionDate leg a.rows
  have hafter : currentState leg.context (eveningPass sessionDate a.rows leg) =
      (eveningDecision sessionDate leg a.rows).current :=
    (currentState_of_row hrow).trans (congrArg StateText.orPassive hstate)
  obtain hwas | ⟨hprobational, hpromoted⟩ :=
    (eveningDecision_current sessionDate leg a.rows).2 (hafter.symm.trans hsovereign)
  · exact absurd hwas hbefore
  · exact ⟨sessionDate, leg, rfl, hprobational, hpromoted⟩

theorem earned_rollback (a : Authority) (stamps : Stamps) (call : RollbackCall) :
    Earned a (.rollback stamps call) := by
  refine ⟨fun id hid => Pass.apply_other _ _ hid, fun hsovereign hbefore => ?_, nofun⟩
  obtain ⟨-, -, hrows⟩ | ⟨row, state, hrow, hstate, -, hlow⟩ :=
    executeStagedRollback_cases stamps call a.rows
  · exact absurd ((congrArg (currentState _) hrows).symm.trans hsovereign) hbefore
  · have hafter : state = .sovereign :=
      (((currentState_of_row hrow).trans (congrArg StateText.orPassive hstate)).symm).trans
        hsovereign
    obtain ⟨hpassive, -⟩ | ⟨hprobational, -⟩ := hlow
    · cases hafter.symm.trans hpassive
    · cases hafter.symm.trans hprobational

/-- The leg of a marked row is where the shock left it exactly when it has not climbed since. -/
theorem Remembers.climbed_iff (h : Remembers a) {id : String} {row : LifecycleRow}
    {prior : PolicyState} (hrow : a.rows.get? id = some row)
    (hmark : row.velocityShockPriorState = some (.valid prior)) :
    a.climbed id = false ↔ a.shockedFrom id = some prior := by
  obtain ⟨prior', hvalid, -, hsince⟩ := h.marked id row _ hrow hmark
  cases hvalid
  obtain ⟨hshocked, hclimbed⟩ | ⟨hshocked, hclimbed⟩ := hsince
  · exact iff_of_true hclimbed hshocked
  · rw [hclimbed, hshocked]
    exact iff_of_false nofun nofun

/-- A recovery gives back what the last change took exactly when, going ahead, it finds the leg
where the shock left it. -/
theorem earned_recovery_iff (h : Remembers a) (stamps : Stamps) (leg : LegContext)
    (stabilization : Option RegimeStabilizationVerdict) (verdict : VelocityShockRecoveryVerdict) :
    Earned a (.recovery stamps leg stabilization verdict) ↔
      StaysDown a (.recovery stamps leg stabilization verdict) := by
  have hothers : ∀ id ≠ leg.strategyId,
      (recoverLeg stamps leg stabilization verdict a.rows).get? id = a.rows.get? id :=
    fun id hid => recoverLeg_other stamps leg stabilization verdict a.rows hid
  obtain ⟨row, prior, restored, hrow, hpassive, hmark, hprior, hstable, happroved, hrestored,
    hstate, -⟩ | ⟨hwaits, hrows⟩ := recoverLeg_cases stamps leg stabilization verdict a.rows
  · have hbefore : currentState leg a.rows = .passive :=
      (currentState_of_row hrow).trans (congrArg StateText.orPassive hpassive)
    have hafter : currentState leg (recoverLeg stamps leg stabilization verdict a.rows) = prior :=
      (currentState_of_row hrestored).trans (congrArg StateText.orPassive hstate)
    have hgoes : GoesAhead a.rows leg stabilization verdict :=
      ⟨row, prior, hrow, hpassive, hmark, hprior, hstable, happroved⟩
    have hdown := h.climbed_iff hrow hmark
    constructor
    · intro hearned _
      refine hdown.mpr ?_
      cases prior with
      | passive => exact absurd rfl hprior
      | probational =>
        exact hearned.probational _ _ _ _ rfl hafter fun hwas => by
          cases hbefore.symm.trans hwas
      | sovereign =>
        obtain ⟨_, _, heq, -⟩ | ⟨_, _, _, _, heq, -, -, -, hshocked⟩ :=
          hearned.sovereign hafter fun hwas => by cases hbefore.symm.trans hwas
        · cases heq
        · cases heq
          exact hshocked
    · intro hstays
      have hshocked := hdown.mp (hstays hgoes)
      refine ⟨hothers, fun hsovereign _ => .inr ?_, fun _ _ _ _ heq hprobational _ => ?_⟩
      · cases hafter.symm.trans hsovereign
        cases stabilization with
        | none => cases hstable
        | some regime =>
          exact ⟨stamps, leg, regime, verdict, rfl, hstable, happroved, hbefore, hshocked⟩
      · cases heq
        cases hafter.symm.trans hprobational
        exact hshocked
  · have hsame : currentState leg (recoverLeg stamps leg stabilization verdict a.rows) =
        currentState leg a.rows := congrArg (currentState leg) hrows
    refine iff_of_true ⟨hothers, fun hsovereign hbefore => ?_,
      fun _ _ _ _ _ hprobational hbefore => ?_⟩ fun hgoes => absurd hgoes hwaits
    · exact absurd (hsame.symm.trans hsovereign) hbefore
    · exact absurd (hsame.symm.trans hprobational) hbefore

theorem earned_iff (h : Remembers a) (pass : Pass) : Earned a pass ↔ StaysDown a pass := by
  cases pass with
  | shock stamps leg reason => exact iff_of_true (earned_shock a stamps leg reason) trivial
  | recovery stamps leg stabilization verdict =>
    exact earned_recovery_iff h stamps leg stabilization verdict
  | evening sessionDate leg => exact iff_of_true (earned_evening a sessionDate leg) trivial
  | rollback stamps call => exact iff_of_true (earned_rollback a stamps call) trivial

/-- From rows that remember no shock, in any run of the four operations, every authority is
earned **exactly when** no recovery goes ahead of a leg that has passed the probation sieve in
an evening run, or was rolled back as sovereign, since the shock that demoted it. -/
theorem earned_run_iff (rows : Rows)
    (hrows : ∀ id row, rows.get? id = some row → row.velocityShockPriorState = none)
    (operations : List Operation) :
    Along step Earned { rows } (operations.flatMap Operation.passes) ↔
      Along step StaysDown { rows } (operations.flatMap Operation.passes) := by
  refine along_congr (I := Remembers) (fun _ pass h => remembers_next h pass)
    (fun _ pass h => earned_iff h pass) _ ⟨fun id row mark hrow hmark => ?_, nofun⟩
  rw [hrows id row hrow] at hmark
  cases hmark

/-- A sovereign leg. -/
def sovereignRows : Rows :=
  Dict.empty.set "momentum"
    { symbol := "SPY", executionState := .valid .sovereign, updatedAt := "2024-03-01T21:00:00" }

def momentum : LegContext where
  strategyId := "momentum"
  symbol := "SPY"

def atClose : Stamps :=
  ⟨"2024-03-01T22:00:00", "2024-03-01", "2024-03-15T22:00:00", "2024-03-01T22:00:00"⟩

def shockMomentum : Operation := .macroVelocityShock true "" [(atClose, momentum)]

/-- A recovery of the leg, in a regime that has stabilized. -/
def recoverMomentum : Operation :=
  .velocityShockRecovery (some ⟨true, "stabilized"⟩) [(atClose, momentum, ⟨true, []⟩)]

/-- The sieve approves the leg's probation. -/
def approveMomentum : Operation :=
  .eveningProgression "2024-03-02"
    [⟨momentum, { probationEntry := true, probationStart := "2024-03-02T22:00:00"
                  updatedAt := "2024-03-02T22:00:00", stamps := atClose }⟩]

/-- The probation ends in a rollback. -/
def failMomentum : Operation :=
  .stagedRollback atClose
    { currentState := .valid .probational
      strategyId := "momentum"
      symbol := "SPY"
      reason := "probation_edge_decay_streak" }

theorem sovereignRows_unmarked (id : String) (row : LifecycleRow)
    (h : sovereignRows.get? id = some row) : row.velocityShockPriorState = none := by
  rw [sovereignRows, Dict.get?_set] at h
  split at h
  · cases h
    rfl
  · cases h

/-- A shock and the recovery from it. -/
theorem earned_run_recovery :
    Along step Earned { rows := sovereignRows }
      ([shockMomentum, recoverMomentum].flatMap Operation.passes) :=
  (earned_run_iff sovereignRows sovereignRows_unmarked [shockMomentum, recoverMomentum]).mpr
    ⟨trivial, fun _ => rfl, trivial⟩

/-- Between the shock and the recovery the leg enters probation and fails it: what comes back is
sovereign authority. -/
theorem recovery_past_failed_probation :
    let operations := [shockMomentum, approveMomentum, failMomentum, recoverMomentum]
    currentState momentum (run step { rows := sovereignRows }
      (operations.flatMap Operation.passes)).rows = .sovereign ∧
    ¬ Along step Earned { rows := sovereignRows } (operations.flatMap Operation.passes) := by
  intro operations
  have hafter : currentState momentum (run step { rows := sovereignRows }
      (operations.flatMap Operation.passes)).rows = .sovereign := by decide +kernel
  let before := run step { rows := sovereignRows }
    ([shockMomentum, approveMomentum, failMomentum].flatMap Operation.passes)
  have hbefore : currentState momentum before.rows ≠ .sovereign := by decide +kernel
  have hfrom : before.shockedFrom "momentum" = none := by decide +kernel
  refine ⟨hafter, ?_⟩
  intro h
  obtain ⟨-, -, -, hlast, -⟩ := h
  obtain ⟨_, _, heq, -⟩ | ⟨_, _, _, _, heq, -, -, -, hshocked⟩ := hlast.sovereign hafter hbefore
  · cases heq
  · cases heq
    cases hfrom.symm.trans hshocked

end Authority

end TradingPlatform.Engine.PolicyLifecycle
