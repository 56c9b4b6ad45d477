import TradingPlatform.Engine.RunbookExecution

/-! # When a runbook fails closed

What the collaborators of a run decide among themselves is one value, their
judgement; the supervisor adds its state and what it has done so far. A run fails
closed when it returns and, unless it succeeds, has blocked consumption last,
recorded the failure and sent an alert. -/

namespace TradingPlatform.Engine.RunbookExecution

open TradingPlatform.Lib

/-! ## The supervisor's own steps -/

def SupervisorState.Runnable (state : SupervisorState) : Prop :=
  state = .running ∨ state = .degraded

instance (state : SupervisorState) : Decidable state.Runnable :=
  inferInstanceAs (Decidable (_ ∨ _))

/-- Where `stop` leaves the supervisor. -/
def SupervisorState.afterStop : SupervisorState → SupervisorState
  | .running | .degraded | .stopping | .inactive => .inactive
  | state => state

theorem degraded_allowed_iff {state : SupervisorState} :
    ¬ (.degraded ≠ state ∧ .degraded ∉ allowedSupervisorTransitions state) ↔ state.Runnable := by
  cases state <;> decide

section Steps
variable {V : Type}

theorem ends_raiseIf {raised : Option Exc} {run : Run V} {Q : Unit → Run V → Prop}
    {R : Exc → Run V → Prop} : (raiseIf raised).Ends run Q R ↔
      match raised with
      | none => Q () run
      | some exc => R exc run := by
  cases raised <;> rfl

/-- A frame: what collaborators leave as it is. -/
structure Kept (before after : Run V) : Prop where
  state : after.state = before.state
  events : after.events = before.events

theorem Kept.trans {a b c : Run V} (h : Kept a b) (h' : Kept b c) : Kept a c :=
  ⟨h'.state.trans h.state, h'.events.trans h.events⟩

theorem setStage_yields (stage : CronLifecycleStage) (run : Run V) :
    (setStage stage).Yields run (.ok ()) (Kept run) :=
  Raising.yields_modify ⟨rfl, rfl⟩

/-- Where a worker leaves the supervisor. -/
def afterWorker (awaited : Awaited V) (state : SupervisorState) : SupervisorState :=
  if awaited.stopped then state.afterStop else state

theorem afterWorker_of_runnable (awaited : Awaited V) {state : SupervisorState}
    (h : state.Runnable) :
    afterWorker awaited state = if awaited.stopped then .inactive else state := by
  unfold afterWorker
  rcases h with rfl | rfl <;> rfl

theorem afterWorker_inactive (awaited : Awaited V) :
    afterWorker awaited .inactive = .inactive := ite_self ..

theorem awaitWorker_yields (awaited : Awaited V) (run : Run V) :
    (awaitWorker awaited).Yields run awaited.outcome fun run' =>
      run'.events = run.events ∧ run'.state = afterWorker awaited run.state := by
  obtain ⟨stopped, outcome⟩ := awaited
  cases stopped with
  | false => exact Raising.yields_ofExcept ⟨rfl, rfl⟩
  | true =>
    have hstop : (Raising.attempt (fun _ => true) stop fun _ => pure () : Act V Unit).Yields run
        (.ok ()) (· = { run with state := run.state.afterStop }) := by
      obtain ⟨⟨state, active, stage⟩, names, events⟩ := run
      cases state <;> exact ⟨_, rfl, rfl⟩
    refine hstop.bind_ok fun run' hrun => ?_
    rw [hrun]
    exact Raising.yields_ofExcept ⟨rfl, rfl⟩

/-- The first exception of the hooks, if there is one. -/
def hookRaises (hooks : List PreHook) : Option Exc := hooks.findSome? PreHook.raises

theorem runStructuralHooks_yields (hooks : List PreHook) (run : Run V) :
    (runStructuralHooks hooks).Yields run
      (match hookRaises hooks with
        | none => .ok ()
        | some exc => .error exc) (Kept run) := by
  induction hooks generalizing run with
  | nil => exact ⟨run, rfl, rfl, rfl⟩
  | cons hook hooks ih =>
    obtain ⟨name, raises⟩ := hook
    cases raises with
    | some exc => exact ⟨run, rfl, rfl, rfl⟩
    | none =>
      obtain ⟨run', hexec, hkept⟩ := ih { run with hooksExecuted := run.hooksExecuted ++ [name] }
      exact ⟨run', hexec, hkept.state, hkept.events⟩

/-- What the hooks leave of the payload. -/
def postHooked (hooks : List (PostHook V)) (payload : V) : Except Exc V :=
  hooks.foldlM (fun payload hook => hook.call payload) payload

theorem runStructuralHooksPost_yields (hooks : List (PostHook V)) (payload : V) (run : Run V) :
    (runStructuralHooksPost hooks payload).Yields run (postHooked hooks payload) (Kept run) := by
  induction hooks generalizing run payload with
  | nil => exact ⟨run, rfl, rfl, rfl⟩
  | cons hook hooks ih =>
    unfold runStructuralHooksPost postHooked
    rw [List.foldlM_cons]
    cases hcall : hook.call payload with
    | error exc => exact ⟨run, rfl, rfl, rfl⟩
    | ok payload' =>
      obtain ⟨run', hexec, hkept⟩ :=
        ih payload' { run with hooksExecuted := run.hooksExecuted ++ [hook.name] }
      exact ⟨run', hexec, hkept.state, hkept.events⟩

end Steps

/-! ## The judgement of the collaborators -/

namespace Env

variable {V : Type} (env : Env V) (step : RunbookStep)
  (worker : Turn → Awaited V) (validator : Turn → V → Except Exc (V × V))

/-- The worker, the hooks and the validator, once. -/
def firstJudgement : Except Exc (Judgement V) := do
  let payload ← (worker .first).outcome
  let payload ← postHooked (env.postHooks step) payload
  env.validate (validator .first) payload

/-- The worker and the validator once more. -/
def secondJudgement : Except Exc (Judgement V) := do
  let payload ← (worker .second).outcome
  env.revalidate (validator .second) payload

/-- A failed validation whose restoration succeeds is tried again. -/
def retries : Bool :=
  match env.firstJudgement step worker validator with
  | .ok judgement =>
    match judgement.ok, env.restore step judgement.payload with
    | false, .ok (restored, _) => restored
    | _, _ => false
  | .error _ => false

def judgement : Except Exc (Judgement V) :=
  match hookRaises (env.preHooks step) with
  | some exc => .error exc
  | none => do
    let judgement ← env.firstJudgement step worker validator
    if judgement.ok then return judgement
    else
      let (restored, payload) ← env.restore step judgement.payload
      if restored then env.secondJudgement worker validator
      else return { judgement with payload }

/-- `stop` runs during one of the calls that the worker gets. -/
def stopped : Bool :=
  (hookRaises (env.preHooks step)).isNone &&
    ((worker .first).stopped ||
      (env.retries step worker validator && (worker .second).stopped))

theorem firstRun_yields (run : Run V) :
    (env.firstRun step worker validator).Yields run (env.firstJudgement step worker validator)
      fun run' => run'.events = run.events ∧
        run'.state = afterWorker (worker .first) run.state := by
  unfold firstRun firstJudgement
  have hworker := awaitWorker_yields (worker .first) run
  cases houtcome : (worker .first).outcome with
  | error exc =>
    rw [houtcome] at hworker
    exact hworker.bind_error
  | ok payload =>
    rw [houtcome] at hworker
    refine hworker.bind_ok fun a ⟨hevents, hstate⟩ => ?_
    have hkeeps : ∀ run', Kept a run' → run'.events = run.events ∧
        run'.state = afterWorker (worker .first) run.state :=
      fun run' hkept => ⟨hkept.events.trans hevents, hkept.state.trans hstate⟩
    have hpost := runStructuralHooksPost_yields (env.postHooks step) payload a
    show Raising.Yields _ a (postHooked (env.postHooks step) payload >>= _) _
    cases hposted : postHooked (env.postHooks step) payload with
    | error exc =>
      rw [hposted] at hpost
      exact hpost.bind_error.mono hkeeps
    | ok payload' =>
      rw [hposted] at hpost
      refine hpost.bind_ok fun b hb => ?_
      refine (setStage_yields .validating b).bind_ok fun c hc => ?_
      exact Raising.yields_ofExcept (hkeeps c (hb.trans hc))

theorem secondRun_yields (run : Run V) :
    (env.secondRun worker validator).Yields run (env.secondJudgement worker validator)
      fun run' => run'.events = run.events ∧
        run'.state = afterWorker (worker .second) run.state := by
  unfold secondRun secondJudgement
  have hworker := awaitWorker_yields (worker .second) run
  cases houtcome : (worker .second).outcome with
  | error exc =>
    rw [houtcome] at hworker
    exact hworker.bind_error
  | ok payload =>
    rw [houtcome] at hworker
    exact hworker.bind_ok fun a ha => Raising.yields_ofExcept ha

theorem judge_yields (run : Run V) (hrunnable : run.state.Runnable) :
    (env.judge step worker validator).Yields run (env.judgement step worker validator) fun run' =>
      run'.events = run.events ∧
        run'.state = if env.stopped step worker validator then .inactive else run.state := by
  unfold judge judgement stopped
  have hhooks := runStructuralHooks_yields (env.preHooks step) run
  cases hraises : hookRaises (env.preHooks step) with
  | some exc =>
    rw [hraises] at hhooks
    refine (hhooks.bind_error).mono fun run' hkept => ⟨hkept.events, ?_⟩
    rw [hkept.state]
    rfl
  | none =>
    rw [hraises] at hhooks
    refine hhooks.bind_ok fun a ha => ?_
    refine (setStage_yields .dispatched a).bind_ok fun b hb => ?_
    refine (setStage_yields .executing b).bind_ok fun c hc => ?_
    have hkept := (ha.trans hb).trans hc
    have hfirst := env.firstRun_yields step worker validator c
    rw [hkept.events, hkept.state, afterWorker_of_runnable _ hrunnable] at hfirst
    unfold retries
    cases hjudged : env.firstJudgement step worker validator with
    | error exc =>
      rw [hjudged] at hfirst
      exact hfirst.bind_error.mono fun run' h => by simpa using h
    | ok judgement =>
      rw [hjudged] at hfirst
      refine hfirst.bind_ok fun d ⟨hevents, hstate⟩ => ?_
      obtain ⟨ok, reason, payload⟩ := judgement
      cases ok with
      | true => exact ⟨d, rfl, hevents, by simpa using hstate⟩
      | false =>
        show Raising.Yields _ d (env.restore step payload >>= _) _
        cases hrestore : env.restore step payload with
        | error exc => exact ⟨d, rfl, hevents, by simpa [hrestore] using hstate⟩
        | ok restored =>
          obtain ⟨restored, payload'⟩ := restored
          cases restored with
          | false => exact ⟨d, rfl, hevents, by simpa [hrestore] using hstate⟩
          | true =>
            refine (env.secondRun_yields worker validator d).mono fun run' h => ?_
            refine ⟨h.1.trans hevents, h.2.trans ?_⟩
            rw [hstate]
            cases (worker .first).stopped with
            | true => exact afterWorker_inactive _
            | false =>
              rw [if_neg Bool.false_ne_true, afterWorker_of_runnable _ hrunnable]
              simp [hrestore]

end Env

end TradingPlatform.Engine.RunbookExecution
