import TradingPlatform.Engine.RunbookVerdict
import TradingPlatform.Lib.Dict
import TradingPlatform.Lib.Json

/-! # A run that does not succeed leaves the gate closed

A failure is reported in four steps, the second of which is a transition that only a
supervisor that runs may make. So whether a run fails closed comes down to where the
supervisor stands when it fails, to whether blocking is configured, and to whether an
exception can itself be reported. -/

namespace TradingPlatform.Engine.RunbookExecution

open TradingPlatform.Lib

variable {V : Type}

def Event.job? : Event V → Option (JobRecord V)
  | .recorded job => some job
  | _ => none

/-- Consumption is blocked and not released since, the last record of the job is of a
failure, and an alert is sent. -/
structure Closed (step : RunbookStep) (events : List (Event V)) : Prop where
  blocked : ∃ before reason after, events = before ++ .blocked reason :: after ∧
    Event.released ∉ after
  recorded : ∃ job, (events.filterMap Event.job?).getLast? = some job ∧
    job.jobId = step.jobId ∧ job.validationPassed = false ∧ job.success = false
  alerted : ∃ alert, Event.alerted alert ∈ events ∧ alert.jobName = step.value

def Closes (step : RunbookStep) (result : RunbookExecutionResult V) (run : Run V) : Prop :=
  result.success = false → Closed step run.events

namespace Env

variable (env : Env V) (step : RunbookStep)

/-- The run returns, and unless it succeeds it leaves the gate closed. -/
def FailsClosed (supervisor : Supervisor) : Prop :=
  (env.executeRunbook step).Ends { toSupervisor := supervisor } (Closes step) fun _ _ => False

/-! ## The condition -/

/-- What recording a failure and alerting of it raises. -/
def reportRaises (error payload : V) : Option Exc :=
  (env.upsert error payload).or (env.page error payload)

/-- The exception is one that the handler catches, what it restores does not raise, and
the failure can be reported with what it gives. -/
def Reportable (exc : Exc) : Prop :=
  exc.isException = true ∧ ∃ restored, env.restoreAfter step = .ok restored ∧
    env.reportRaises (env.py.str exc.text) (env.py.dict [("lkg_restored", restored)]) = none

section Configured
variable (worker : Turn → Awaited V) (validator : Turn → V → Except Exc (V × V))

/-- The collaborators let the payload through, and the success can be recorded. -/
def Succeeds : Prop :=
  ∃ judgement, env.judgement step worker validator = .ok judgement ∧ judgement.ok = true ∧
    env.upsert env.py.none judgement.payload = none

/-- What the collaborators raise, or the report of what they decide. -/
def raised : Option Exc :=
  match env.judgement step worker validator with
  | .error exc => some exc
  | .ok judgement =>
    if judgement.ok then env.upsert env.py.none judgement.payload
    else env.reportRaises judgement.reason judgement.payload

structure Contained : Prop where
  settles : env.Succeeds step worker validator ∨
    env.onBlockConsumption = true ∧ env.stopped step worker validator = false
  reports : ∀ exc, env.raised step worker validator = some exc → env.Reportable step exc

end Configured

def Meets (state : SupervisorState) : Prop :=
  state.Runnable ∧
    match env.workers step, env.validators step with
    | some worker, some validator => env.Contained step worker validator
    | _, _ => env.onBlockConsumption = true ∧
        env.reportRaises (env.py.str s!"missing worker or validator for {step.value}")
          (env.py.dict []) = none

/-! ## Reports -/

/-- A run that cannot block has not. -/
def Quiet (run : Run V) : Prop :=
  env.onBlockConsumption = false → ∀ reason, Event.blocked reason ∉ run.events

theorem quiet_of_no_events {run : Run V} (h : run.events = []) : env.Quiet run := by
  intro _ reason
  rw [h]
  exact List.not_mem_nil

/-- The run after its block. -/
def block (reason : V) (run : Run V) : Run V :=
  { run with events := run.events ++ if env.onBlockConsumption then [.blocked reason] else [] }

/-- The run after its block, degraded. -/
def degrade (reason : V) (run : Run V) : Run V :=
  { env.block reason run with state := .degraded }

theorem quiet_degrade (reason : V) {run : Run V} (h : env.Quiet run) :
    env.Quiet (env.degrade reason run) := by
  intro hblock
  have hevents : (env.degrade reason run).events = run.events := by
    simp [degrade, block, hblock]
  rw [hevents]
  exact h hblock

theorem ends_noteIf {configured : Bool} {event : Event V} {run : Run V}
    {Q : Unit → Run V → Prop} {R : Exc → Run V → Prop} :
    (if configured then note event else pure () : Act V Unit).Ends run Q R ↔
      Q () { run with events := run.events ++ if configured then [event] else [] } := by
  cases configured with
  | true => exact Iff.rfl
  | false =>
    simp only [Bool.false_eq_true, if_false, List.append_nil]
    exact Iff.rfl

theorem ends_blockConsumption {run : Run V} {reason : V} {Q : Unit → Run V → Prop}
    {R : Exc → Run V → Prop} :
    (env.blockConsumption reason).Ends run Q R ↔ Q () (env.block reason run) :=
  ends_noteIf

theorem ends_transition_degraded {run : Run V} {text : String} {Q : Unit → Run V → Prop}
    {R : Exc → Run V → Prop} (h : run.state.Runnable) :
    (transition .degraded text).Ends run Q R ↔ Q () { run with state := .degraded } := by
  unfold transition
  rw [Raising.ends_bind, Raising.ends_get, if_neg (degraded_allowed_iff.mpr h)]
  rfl

theorem ends_recordJob {run : Run V} {job : JobRecord V} {Q : Unit → Run V → Prop}
    {R : Exc → Run V → Prop} : (env.recordJob job).Ends run Q R ↔
      match env.upsert job.error job.payload with
      | none => Q () { run with events := run.events ++ [.recorded job] }
      | some exc => R exc run := by
  unfold recordJob
  rw [Raising.ends_bind, ends_raiseIf]
  cases env.upsert job.error job.payload <;> rfl

theorem ends_alertFailure {run : Run V} {error payload : V} {Q : Unit → Run V → Prop}
    {R : Exc → Run V → Prop} : (env.alertFailure step error payload).Ends run Q R ↔
      match env.page error payload with
      | none => Q () { run with events := run.events ++ [.alerted
          { jobName := step.value, error, jobId := step.jobId
            supervisorState := run.state.value, lifecycleStage := run.lifecycleStage.value
            payload }] }
      | some exc => R exc run := by
  unfold alertFailure
  rw [Raising.ends_bind, Raising.ends_get, Raising.ends_bind, ends_raiseIf]
  cases env.page error payload <;> rfl

/-- Blocked, recorded and sent: the gate is closed if the block was configured. -/
theorem closed_report_iff {run : Run V} (hquiet : env.Quiet run) (reason : V)
    {job : JobRecord V}
    (hjob : job.jobId = step.jobId ∧ job.validationPassed = false ∧ job.success = false)
    {alert : Alert V} (halert : alert.jobName = step.value) :
    Closed step (((env.degrade reason run).events ++ [.recorded job]) ++ [.alerted alert]) ↔
      env.onBlockConsumption = true := by
  constructor
  · intro h
    cases hblock : env.onBlockConsumption with
    | true => rfl
    | false =>
    obtain ⟨before, reason', after, hevents, _⟩ := h.blocked
    have hmem : Event.blocked reason' ∈
        ((env.degrade reason run).events ++ [.recorded job]) ++ [.alerted alert] := by
      rw [hevents]
      simp
    have hnone := env.quiet_degrade reason hquiet hblock reason'
    simp [hnone] at hmem
  · intro hblock
    refine ⟨⟨run.events, reason, [.recorded job, .alerted alert], ?_, by simp⟩,
      ⟨job, ?_, hjob⟩, ⟨alert, by simp, halert⟩⟩
    · simp [degrade, block, hblock]
    · rw [List.append_assoc, List.filterMap_append]
      exact List.getLast?_concat

/-- A failure is reported when the supervisor can degrade: what the report raises is left
to whoever called. -/
theorem ends_failRun_iff {run : Run V} (hrunnable : run.state.Runnable) (hquiet : env.Quiet run)
    {R : Exc → Run V → Prop} {P : Exc → Prop}
    (hraise : ∀ exc run', run'.state.Runnable → env.Quiet run' → (R exc run' ↔ P exc))
    {status : String} {stage : CronLifecycleStage} {reason : V} {text : String} {payload : V} :
    (env.failRun step status stage reason text payload).Ends run (Closes step) R ↔
      match env.reportRaises reason payload with
      | none => env.onBlockConsumption = true
      | some exc => P exc := by
  have hdegraded : (env.degrade reason run).state.Runnable := Or.inr rfl
  have hstill := env.quiet_degrade reason hquiet
  unfold failRun
  rw [Raising.ends_bind, ends_blockConsumption, Raising.ends_bind,
    ends_transition_degraded (show (env.block reason run).state.Runnable from hrunnable),
    Raising.ends_bind, ends_recordJob]
  unfold reportRaises
  dsimp only
  cases hupsert : env.upsert reason payload with
  | some exc => exact hraise exc (env.degrade reason run) hdegraded hstill
  | none =>
    rw [Raising.ends_bind, ends_alertFailure]
    cases hpage : env.page reason payload with
    | some exc =>
      refine hraise exc _ hdegraded fun hblock reason' => ?_
      have hnone := hstill hblock reason'
      simpa [degrade] using hnone
    | none =>
      show (false = false → Closed step _) ↔ _
      rw [forall_prop_of_true rfl]
      exact env.closed_report_iff step hquiet reason ⟨rfl, rfl, rfl⟩ rfl

/-- Blocking is all that is done where the supervisor cannot degrade. -/
theorem not_ends_failRun {run : Run V} (hrunnable : ¬ run.state.Runnable)
    {Q : RunbookExecutionResult V → Run V → Prop} {R : Exc → Run V → Prop}
    (hraise : ∀ exc run', run'.state = run.state → ¬ R exc run')
    {status : String} {stage : CronLifecycleStage} {reason : V} {text : String} {payload : V} :
    ¬ (env.failRun step status stage reason text payload).Ends run Q R := by
  have hillegal : SupervisorState.degraded ≠ (env.block reason run).state ∧
      .degraded ∉ allowedSupervisorTransitions (env.block reason run).state :=
    Decidable.not_not.mp fun h => hrunnable (degraded_allowed_iff.mp h)
  unfold failRun transition
  rw [Raising.ends_bind, ends_blockConsumption, Raising.ends_bind, Raising.ends_bind,
    Raising.ends_get, if_pos hillegal, Raising.ends_throw]
  exact hraise _ _ rfl

/-! ## The except branch -/

/-- What becomes of an exception. -/
def Handled (exc : Exc) (run : Run V) : Prop :=
  if exc.isException then (env.handle step exc).Ends run (Closes step) fun _ _ => False
  else False

theorem not_handled {exc : Exc} {run : Run V} (hrunnable : ¬ run.state.Runnable) :
    ¬ env.Handled step exc run := by
  unfold Handled handle
  split
  · rw [Raising.ends_bind, Raising.ends_ofExcept]
    cases env.restoreAfter step with
    | error raised => exact id
    | ok restored => exact env.not_ends_failRun step hrunnable fun _ _ _ => id
  · exact id

theorem handled_iff {exc : Exc} {run : Run V} (hquiet : env.Quiet run) :
    env.Handled step exc run ↔
      run.state.Runnable ∧ env.Reportable step exc ∧ env.onBlockConsumption = true := by
  by_cases hrunnable : run.state.Runnable
  case neg => exact iff_of_false (env.not_handled step hrunnable) fun h => hrunnable h.1
  case pos =>
    rw [and_iff_right hrunnable]
    unfold Handled Reportable handle
    cases hexc : exc.isException with
    | false => simp
    | true =>
      rw [if_pos rfl, Raising.ends_bind, Raising.ends_ofExcept]
      cases hrestore : env.restoreAfter step with
      | error raised => simp
      | ok restored =>
        dsimp only
        rw [env.ends_failRun_iff step hrunnable hquiet fun _ _ _ _ => Iff.rfl]
        cases hreport : env.reportRaises (env.py.str exc.text)
            (env.py.dict [("lkg_restored", restored)]) with
        | none => simp [hreport]
        | some raised => simp [hreport]

/-! ## The verdict -/

theorem ends_releaseConsumption {run : Run V} {Q : Unit → Run V → Prop} {R : Exc → Run V → Prop} :
    env.releaseConsumption.Ends run Q R ↔
      Q () { run with
        events := run.events ++ if env.onReleaseConsumption then [.released] else [] } :=
  ends_noteIf

/-- A degraded supervisor runs again. -/
def recovered (state : SupervisorState) : SupervisorState :=
  if state = .degraded then .running else state

theorem runnable_recovered {state : SupervisorState} :
    (recovered state).Runnable ↔ state.Runnable := by
  cases state <;> decide

theorem ends_recover {run : Run V} {Q : Unit → Run V → Prop} {R : Exc → Run V → Prop} :
    recover.Ends run Q R ↔ Q () { run with state := recovered run.state } := by
  obtain ⟨⟨state, active, stage⟩, names, events⟩ := run
  cases state <;> exact Iff.rfl

/-- A success that cannot be recorded is an exception like any other. -/
theorem ends_succeed_iff {run : Run V} (hquiet : env.Quiet run) {R : Exc → Run V → Prop}
    {P : Exc → Prop}
    (hraise : ∀ exc run', (run'.state.Runnable ↔ run.state.Runnable) → env.Quiet run' →
      (R exc run' ↔ P exc)) {payload : V} :
    (env.succeed step payload).Ends run (Closes step) R ↔
      match env.upsert env.py.none payload with
      | none => True
      | some exc => P exc := by
  unfold succeed
  rw [Raising.ends_bind, ends_releaseConsumption, Raising.ends_bind, ends_recover,
    Raising.ends_bind, ends_recordJob]
  dsimp only
  cases env.upsert env.py.none payload with
  | none => exact ⟨fun _ => trivial, fun _ => nofun⟩
  | some exc =>
    refine hraise exc _ runnable_recovered fun hblock reason => ?_
    have hnone := hquiet hblock reason
    cases env.onReleaseConsumption <;> simpa using hnone

theorem ends_conclude_iff {run : Run V} (hquiet : env.Quiet run) (judgement : Judgement V) :
    (env.conclude step judgement).Ends run (Closes step) (env.Handled step) ↔
      (judgement.ok = true ∧ env.upsert env.py.none judgement.payload = none ∨
        env.onBlockConsumption = true ∧ run.state.Runnable) ∧
      ∀ exc, (if judgement.ok then env.upsert env.py.none judgement.payload
        else env.reportRaises judgement.reason judgement.payload) = some exc →
          env.Reportable step exc := by
  obtain ⟨ok, reason, payload⟩ := judgement
  unfold conclude
  cases ok with
  | true =>
    have hraise : ∀ exc run', (run'.state.Runnable ↔ run.state.Runnable) → env.Quiet run' →
        (env.Handled step exc run' ↔
          run.state.Runnable ∧ env.Reportable step exc ∧ env.onBlockConsumption = true) :=
      fun exc run' hstate hquiet' =>
        (env.handled_iff step hquiet').trans (and_congr_left' hstate)
    rw [if_pos rfl, env.ends_succeed_iff step hquiet hraise]
    dsimp only
    cases env.upsert env.py.none payload with
    | none => simp
    | some exc => simp [and_comm, and_assoc, and_left_comm]
  | false =>
    by_cases hrunnable : run.state.Runnable
    case neg =>
      simp only [hrunnable, and_false, Bool.false_eq_true, false_and, or_false, iff_false]
      refine env.not_ends_failRun step hrunnable fun exc run' hstate => ?_
      exact env.not_handled step (hstate ▸ hrunnable)
    case pos =>
      have hraise : ∀ exc run', run'.state.Runnable → env.Quiet run' →
          (env.Handled step exc run' ↔
            env.Reportable step exc ∧ env.onBlockConsumption = true) :=
        fun exc run' hstate hquiet' =>
          (env.handled_iff step hquiet').trans (and_iff_right hstate)
      rw [if_neg Bool.false_ne_true, env.ends_failRun_iff step hrunnable hquiet hraise]
      dsimp only
      cases env.reportRaises reason payload with
      | none => simp [hrunnable]
      | some exc => simp [hrunnable, and_comm]

/-! ## The run -/

theorem finish_yields (run : Run V) : finish.Yields run (.ok ()) (Kept run) := by
  obtain ⟨⟨state, active, stage⟩, names, events⟩ := run
  cases stage <;> exact ⟨_, rfl, rfl, rfl⟩

/-- The `finally` block changes nothing that matters here. -/
theorem ends_finish_closes {result : RunbookExecutionResult V} {run : Run V}
    {R : Exc → Run V → Prop} :
    finish.Ends run (fun _ => Closes step result) R ↔ Closes step result run :=
  (finish_yields run).ends_ok fun run' hkept => by rw [Closes, hkept.events, Closes]

theorem ends_finish_raised {run : Run V} {R : Exc → Run V → Prop} :
    finish.Ends run (fun _ _ => False) R ↔ False :=
  (finish_yields run).ends_ok fun _ _ => Iff.rfl

section Configured
variable (worker : Turn → Awaited V) (validator : Turn → V → Except Exc (V × V))

/-- What the `try` statement comes to. -/
theorem ends_try_iff {run : Run V} :
    (Raising.ensuring
      (Raising.attempt Exc.isException (env.judge step worker validator >>= env.conclude step)
        (env.handle step)) finish).Ends run (Closes step) (fun _ _ => False) ↔
      (env.judge step worker validator).Ends run
        (fun judgement run' => (env.conclude step judgement).Ends run' (Closes step)
          (env.Handled step)) (env.Handled step) := by
  rw [Raising.ends_ensuring, Raising.ends_attempt, Raising.ends_bind]
  simp only [ends_finish_closes, ends_finish_raised]
  exact Iff.rfl

/-- Only a `stop` takes the supervisor out of its stride. -/
theorem runnable_judged_iff {run run' : Run V} (hrunnable : run.state.Runnable)
    (h : run'.state = if env.stopped step worker validator then .inactive else run.state) :
    run'.state.Runnable ↔ env.stopped step worker validator = false := by
  rw [h]
  cases env.stopped step worker validator with
  | true => simp [SupervisorState.Runnable]
  | false => simpa using hrunnable

/-- Nobody succeeds where the collaborators raise. -/
theorem contained_of_raises_iff {exc : Exc}
    (hjudgement : env.judgement step worker validator = .error exc) :
    env.Contained step worker validator ↔
      env.stopped step worker validator = false ∧ env.Reportable step exc ∧
        env.onBlockConsumption = true := by
  constructor
  · intro h
    obtain ⟨hblock, hstopped⟩ := h.settles.resolve_left (by simp [Succeeds, hjudgement])
    exact ⟨hstopped, h.reports exc (by simp [raised, hjudgement]), hblock⟩
  · rintro ⟨hstopped, hreport, hblock⟩
    refine ⟨Or.inr ⟨hblock, hstopped⟩, fun exc' hraised => ?_⟩
    obtain rfl : exc = exc' := by simpa [raised, hjudgement] using hraised
    exact hreport

theorem contained_of_judges_iff {judgement : Judgement V}
    (hjudgement : env.judgement step worker validator = .ok judgement) :
    env.Contained step worker validator ↔
      (judgement.ok = true ∧ env.upsert env.py.none judgement.payload = none ∨
        env.onBlockConsumption = true ∧ env.stopped step worker validator = false) ∧
      ∀ exc, (if judgement.ok then env.upsert env.py.none judgement.payload
        else env.reportRaises judgement.reason judgement.payload) = some exc →
          env.Reportable step exc := by
  have hsucceeds : env.Succeeds step worker validator ↔
      judgement.ok = true ∧ env.upsert env.py.none judgement.payload = none := by
    simp [Succeeds, hjudgement]
  have hraised : env.raised step worker validator =
      if judgement.ok then env.upsert env.py.none judgement.payload
        else env.reportRaises judgement.reason judgement.payload := by
    simp [raised, hjudgement]
  rw [← hsucceeds, ← hraised]
  exact ⟨fun h => ⟨h.settles, h.reports⟩, fun h => ⟨h.1, h.2⟩⟩

theorem failsClosed_configured_iff {run : Run V} (hrunnable : run.state.Runnable)
    (hevents : run.events = []) :
    (Raising.ensuring
      (Raising.attempt Exc.isException (env.judge step worker validator >>= env.conclude step)
        (env.handle step)) finish).Ends run (Closes step) (fun _ _ => False) ↔
      env.Contained step worker validator := by
  rw [ends_try_iff]
  have hjudge := env.judge_yields step worker validator run hrunnable
  cases hjudgement : env.judgement step worker validator with
  | error exc =>
    rw [hjudgement] at hjudge
    refine hjudge.ends_error fun run' ⟨hkept, hstate⟩ => ?_
    rw [env.handled_iff step (env.quiet_of_no_events (hkept.trans hevents)),
      env.runnable_judged_iff step worker validator hrunnable hstate,
      env.contained_of_raises_iff step worker validator hjudgement]
  | ok judgement =>
    rw [hjudgement] at hjudge
    refine hjudge.ends_ok fun run' ⟨hkept, hstate⟩ => ?_
    rw [env.ends_conclude_iff step (env.quiet_of_no_events (hkept.trans hevents)) judgement,
      env.runnable_judged_iff step worker validator hrunnable hstate,
      env.contained_of_judges_iff step worker validator hjudgement]

end Configured

/-- Nothing catches what the report of a missing collaborator raises. -/
theorem ends_failRunbook_iff {run : Run V} (hrunnable : run.state.Runnable)
    (hevents : run.events = []) (error : String) :
    (env.failRunbook step error).Ends run (Closes step) (fun _ _ => False) ↔
      env.onBlockConsumption = true ∧
        env.reportRaises (env.py.str error) (env.py.dict []) = none := by
  have hquiet := env.quiet_of_no_events hevents
  unfold failRunbook
  rw [env.ends_failRun_iff step hrunnable hquiet fun _ _ _ _ => Iff.rfl]
  cases env.reportRaises (env.py.str error) (env.py.dict []) with
  | none => simp
  | some exc => simp

/-- **A run fails closed** exactly when the supervisor runs, no `stop` or missing block
stands in the way of a failure, and what is raised can be reported. -/
theorem failsClosed_iff (env : Env V) (step : RunbookStep) (supervisor : Supervisor) :
    env.FailsClosed step supervisor ↔ env.Meets step supervisor.state := by
  unfold FailsClosed executeRunbook setStage Meets
  rw [Raising.ends_bind, Raising.ends_modify, Raising.ends_bind, Raising.ends_modify,
    Raising.ends_bind, Raising.ends_get]
  by_cases hrunnable : supervisor.state.Runnable
  case neg =>
    rw [if_pos (not_or.mp hrunnable)]
    exact iff_of_false (env.not_ends_failRun step hrunnable fun _ _ _ => id)
      fun h => hrunnable h.1
  case pos =>
    rw [if_neg fun h => hrunnable.elim h.1 h.2, and_iff_right hrunnable]
    cases env.workers step with
    | none => exact env.ends_failRunbook_iff step hrunnable rfl _
    | some worker =>
      cases env.validators step with
      | none => exact env.ends_failRunbook_iff step hrunnable rfl _
      | some validator => exact env.failsClosed_configured_iff step worker validator hrunnable rfl

end Env

/-! ## A supervisor that is not started -/

/-- JSON values as the objects; a pair is a list of two. -/
def jsonPy : Py Json where
  none := .null
  str := .str
  bool := .bool
  dict := .obj
  format := Json.text fun _ => ""
  truthy := Json.truthy
  setItem
    | .obj fields, key, value => .ok (.obj (Dict.setItems key value fields))
    | _, _, _ => .error (.exception "object does not support item assignment")
  unpack
    | .arr [ok, reason] => .ok (ok, reason)
    | _ => .error (.exception "cannot unpack")

/-- A worker and a validator without fault, everything else configured. -/
def soundEnv : Env Json where
  py := jsonPy
  workers _ := some fun _ => { outcome := .ok (.obj [("vault_backup", .str "ok")]) }
  validators _ := some fun _ payload => .ok (.arr [.bool true, .str ""], payload)
  preHooks _ := []
  postHooks _ := []
  restoreOnFailure := some fun _ => .ok (.bool true)
  onBlockConsumption := true
  onReleaseConsumption := true
  upsert _ _ := none
  page _ _ := none

/-- The refusal is reported through a transition that is itself refused. -/
theorem inactive_supervisor_raises :
    ¬ soundEnv.FailsClosed .postCloseReconciliation { state := .inactive } :=
  id

example : soundEnv.FailsClosed .postCloseReconciliation { state := .running } := nofun

end TradingPlatform.Engine.RunbookExecution
