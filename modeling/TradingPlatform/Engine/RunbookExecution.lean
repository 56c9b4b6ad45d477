import TradingPlatform.Lib.Raising

/-! # Runbook execution

The supervisor awaits a worker, has its payload validated and then releases or blocks
live consumption. Whatever its collaborators do, a run that does not succeed is meant
to leave consumption blocked, the job recorded as failed and an alert sent. -/

namespace TradingPlatform.Engine.RunbookExecution

open TradingPlatform.Lib

/-! ## The supervisor -/

/-- `except Exception` catches the first kind; a cancellation or an exit is of the other. -/
inductive Exc
  | exception (text : String)
  | base (text : String)

def Exc.isException : Exc → Bool
  | .exception _ => true
  | .base _ => false

def Exc.text : Exc → String
  | .exception text | .base text => text

inductive SupervisorState
  | inactive
  | starting
  | running
  | degraded
  | stopping
  | failed
  deriving DecidableEq

def SupervisorState.value : SupervisorState → String
  | .inactive => "inactive"
  | .starting => "starting"
  | .running => "running"
  | .degraded => "degraded"
  | .stopping => "stopping"
  | .failed => "failed"

inductive CronLifecycleStage
  | idle
  | scheduled
  | dispatched
  | executing
  | validating
  | completed
  | failed
  | alerted
  deriving DecidableEq

def CronLifecycleStage.value : CronLifecycleStage → String
  | .idle => "idle"
  | .scheduled => "scheduled"
  | .dispatched => "dispatched"
  | .executing => "executing"
  | .validating => "validating"
  | .completed => "completed"
  | .failed => "failed"
  | .alerted => "alerted"

inductive RunbookStep
  | preOpenHydration
  | postCloseReconciliation
  | weekendParameterTuner
  | weeklyPolicySwap

namespace RunbookStep

def value : RunbookStep → String
  | .preOpenHydration => "PRE_OPEN_HYDRATION"
  | .postCloseReconciliation => "POST_CLOSE_RECONCILIATION"
  | .weekendParameterTuner => "WEEKEND_PARAMETER_TUNER"
  | .weeklyPolicySwap => "WEEKLY_POLICY_SWAP"

def jobId : RunbookStep → String
  | .preOpenHydration => "pre_open_readiness"
  | .postCloseReconciliation => "post_close_reconciliation"
  | .weekendParameterTuner => "weekend_parameter_tuner"
  | .weeklyPolicySwap => "weekly_policy_brain"

def restoresOnFailure : RunbookStep → Bool
  | .preOpenHydration | .weekendParameterTuner => true
  | .postCloseReconciliation | .weeklyPolicySwap => false

end RunbookStep

def allowedSupervisorTransitions : SupervisorState → List SupervisorState
  | .inactive => [.starting]
  | .starting => [.running, .failed]
  | .running => [.degraded, .stopping, .failed]
  | .degraded => [.running, .stopping, .failed]
  | .stopping => [.inactive, .failed]
  | .failed => [.inactive, .starting]

/-- What Python does with the objects that a run hands on. -/
structure Py (V : Type) where
  none : V
  str : String → V
  bool : Bool → V
  dict : List (String × V) → V
  format : V → String
  truthy : V → Bool
  setItem : V → String → V → Except Exc V
  unpack : V → Except Exc (V × V)

structure JobRecord (V : Type) where
  jobId : String
  status : String
  validationPassed : Bool
  error : V
  payload : V
  success : Bool := false

structure Alert (V : Type) where
  jobName : String
  error : V
  jobId : String
  supervisorState : String
  lifecycleStage : String
  payload : V

/-- What a run has done outside the supervisor. -/
inductive Event (V : Type)
  | blocked (reason : V)
  | released
  | recorded (job : JobRecord V)
  | alerted (alert : Alert V)

structure Supervisor where
  state : SupervisorState := .inactive
  activeRunbook : Option RunbookStep := none
  lifecycleStage : CronLifecycleStage := .idle

/-- The supervisor during a run, with the context of the run and what it has done. -/
structure Run (V : Type) extends Supervisor where
  hooksExecuted : List String := []
  events : List (Event V) := []

structure RunbookExecutionResult (V : Type) where
  step : RunbookStep
  jobId : String
  stage : CronLifecycleStage
  success : Bool
  validationPassed : Bool
  payload : V
  error : V
  hooksExecuted : List String

/-- A collaborator is called at most twice in a run. -/
inductive Turn
  | first
  | second

/-- A worker that is awaited; `stop` may run meanwhile. -/
structure Awaited (V : Type) where
  stopped : Bool := false
  outcome : Except Exc V

structure PreHook where
  name : String
  raises : Option Exc := none

/-- A hook over the payload, which it may change. -/
structure PostHook (V : Type) where
  name : String
  call : V → Except Exc V

/-- The collaborators. A validator gives back any object, and the payload as it leaves it;
restoration is called after a failed validation and after an exception. `upsert` and
`page` are what the job ledger and the alert raise for an error and a payload. -/
structure Env (V : Type) where
  py : Py V
  workers : RunbookStep → Option (Turn → Awaited V)
  validators : RunbookStep → Option (Turn → V → Except Exc (V × V))
  preHooks : RunbookStep → List PreHook
  postHooks : RunbookStep → List (PostHook V)
  restoreOnFailure : Option (Turn → Except Exc V)
  onBlockConsumption : Bool
  onReleaseConsumption : Bool
  upsert : V → V → Option Exc
  page : V → V → Option Exc

abbrev Act (V : Type) := Raising (Run V) Exc

structure Judgement (V : Type) where
  ok : Bool
  reason : V
  payload : V

section Operations
variable {V : Type}

def raiseIf : Option Exc → Act V Unit
  | none => pure ()
  | some exc => throw exc

def note (event : Event V) : Act V Unit :=
  modify fun run => { run with events := run.events ++ [event] }

def setStage (stage : CronLifecycleStage) : Act V Unit :=
  modify fun run => { run with lifecycleStage := stage }

def transition (target : SupervisorState) (reason : String) : Act V Unit := do
  let prior := (← get).state
  if target ≠ prior ∧ target ∉ allowedSupervisorTransitions prior then
    throw (.exception
      s!"illegal supervisor transition {prior.value} -> {target.value}: {reason}")
  else modify fun run => { run with state := target }

def stop : Act V Unit := do
  transition .stopping "daemon_shutdown"
  transition .inactive "daemon_stopped"

/-- What a `stop` raises is raised in its own task. -/
def awaitWorker (awaited : Awaited V) : Act V V := do
  if awaited.stopped then Raising.attempt (fun _ => true) stop fun _ => pure ()
  MonadExcept.ofExcept awaited.outcome

def runStructuralHooks : List PreHook → Act V Unit
  | [] => pure ()
  | hook :: hooks => do
    raiseIf hook.raises
    modify fun run => { run with hooksExecuted := run.hooksExecuted ++ [hook.name] }
    runStructuralHooks hooks

def runStructuralHooksPost : List (PostHook V) → V → Act V V
  | [], payload => pure payload
  | hook :: hooks, payload => do
    let payload ← MonadExcept.ofExcept (hook.call payload)
    modify fun run => { run with hooksExecuted := run.hooksExecuted ++ [hook.name] }
    runStructuralHooksPost hooks payload

end Operations

namespace Env

variable {V : Type} (env : Env V) (step : RunbookStep)

def blockConsumption (reason : V) : Act V Unit :=
  if env.onBlockConsumption then note (.blocked reason) else pure ()

def releaseConsumption : Act V Unit :=
  if env.onReleaseConsumption then note .released else pure ()

def recordJob (job : JobRecord V) : Act V Unit := do
  raiseIf (env.upsert job.error job.payload)
  note (.recorded job)

def alertFailure (error payload : V) : Act V Unit := do
  let run ← get
  raiseIf (env.page error payload)
  note (.alerted
    { jobName := step.value, error, jobId := step.jobId, supervisorState := run.state.value
      lifecycleStage := run.lifecycleStage.value, payload })

/-- What follows every failure, its status and the stage it ends in apart. -/
def failRun (status : String) (stage : CronLifecycleStage) (reason : V) (text : String)
    (payload : V) : Act V (RunbookExecutionResult V) := do
  env.blockConsumption reason
  transition .degraded text
  env.recordJob
    { jobId := step.jobId, status, validationPassed := false, error := reason, payload }
  env.alertFailure step reason payload
  setStage stage
  let run ← get
  return { step, jobId := step.jobId, stage := run.lifecycleStage, success := false
           validationPassed := false, payload, error := reason
           hooksExecuted := run.hooksExecuted }

def failRunbook (error : String) : Act V (RunbookExecutionResult V) :=
  env.failRun step "error" .alerted (env.py.str error) error (env.py.dict [])

def validate (validator : V → Except Exc (V × V)) (payload : V) : Except Exc (Judgement V) := do
  let (verdict, payload) ← validator payload
  let (ok, reason) ← env.py.unpack verdict
  return { ok := env.py.truthy ok, reason, payload }

/-- After a failed validation: whether a known good state was restored, and the payload. -/
def restore (payload : V) : Except Exc (Bool × V) := do
  match step.restoresOnFailure, env.restoreOnFailure with
  | true, some restoreOnFailure =>
    let restored ← restoreOnFailure .first
    let payload ← env.py.setItem payload "lkg_restored" restored
    return (env.py.truthy restored, payload)
  | _, _ => return (false, payload)

def revalidate (validator : V → Except Exc (V × V)) (payload : V) :
    Except Exc (Judgement V) := do
  let payload ← env.py.setItem payload "lkg_restored" (env.py.bool true)
  let payload ← env.py.setItem payload "revalidated_after_restore" (env.py.bool true)
  env.validate validator payload

/-- The worker, the hooks after it and the validator. -/
def firstRun (worker : Turn → Awaited V) (validator : Turn → V → Except Exc (V × V)) :
    Act V (Judgement V) := do
  let payload ← awaitWorker (worker .first)
  let payload ← runStructuralHooksPost (env.postHooks step) payload
  setStage .validating
  MonadExcept.ofExcept (env.validate (validator .first) payload)

/-- The one run after a restoration. -/
def secondRun (worker : Turn → Awaited V) (validator : Turn → V → Except Exc (V × V)) :
    Act V (Judgement V) := do
  let payload ← awaitWorker (worker .second)
  MonadExcept.ofExcept (env.revalidate (validator .second) payload)

/-- The run up to its verdict. -/
def judge (worker : Turn → Awaited V) (validator : Turn → V → Except Exc (V × V)) :
    Act V (Judgement V) := do
  runStructuralHooks (env.preHooks step)
  setStage .dispatched
  setStage .executing
  let judgement ← env.firstRun step worker validator
  if judgement.ok then return judgement
  else
    let (restored, payload) ← MonadExcept.ofExcept (env.restore step judgement.payload)
    if restored then env.secondRun worker validator
    else return { judgement with payload }

def recover : Act V Unit := do
  let run ← get
  if run.state = .degraded then transition .running "runbook_recovered"

def succeed (payload : V) : Act V (RunbookExecutionResult V) := do
  env.releaseConsumption
  recover
  env.recordJob
    { jobId := step.jobId, status := "success", validationPassed := true, error := env.py.none
      payload, success := true }
  setStage .completed
  let run ← get
  return { step, jobId := step.jobId, stage := run.lifecycleStage, success := true
           validationPassed := true, payload, error := env.py.none
           hooksExecuted := run.hooksExecuted }

def conclude (judgement : Judgement V) : Act V (RunbookExecutionResult V) :=
  if judgement.ok then env.succeed step judgement.payload
  else
    env.failRun step "validation_failed" .alerted judgement.reason
      (env.py.format judgement.reason) judgement.payload

/-- What is restored after an exception. -/
def restoreAfter : Except Exc V :=
  match step.restoresOnFailure, env.restoreOnFailure with
  | true, some restoreOnFailure => restoreOnFailure .second
  | _, _ => .ok (env.py.bool false)

def handle (exc : Exc) : Act V (RunbookExecutionResult V) := do
  let restored ← MonadExcept.ofExcept (env.restoreAfter step)
  env.failRun step "error" .failed (env.py.str exc.text) exc.text
    (env.py.dict [("lkg_restored", restored)])

/-- The `finally` block. -/
def finish : Act V Unit := do
  modify fun run => { run with activeRunbook := none }
  let run ← get
  if run.lifecycleStage ≠ .failed ∧ run.lifecycleStage ≠ .alerted then setStage .idle

def executeRunbook : Act V (RunbookExecutionResult V) := do
  modify fun run => { run with activeRunbook := some step }
  setStage .scheduled
  let run ← get
  if run.state ≠ .running ∧ run.state ≠ .degraded then
    env.failRunbook step s!"supervisor not runnable state={run.state.value}"
  else
    match env.workers step, env.validators step with
    | some worker, some validator =>
      Raising.ensuring
        (Raising.attempt Exc.isException (env.judge step worker validator >>= env.conclude step)
          (env.handle step))
        finish
    | _, _ => env.failRunbook step s!"missing worker or validator for {step.value}"

end Env

end TradingPlatform.Engine.RunbookExecution
