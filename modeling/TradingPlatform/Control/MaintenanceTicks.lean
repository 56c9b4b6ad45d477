import TradingPlatform.Lib.Date
import TradingPlatform.Lib.Dict
import TradingPlatform.Lib.Runs

/-! # The ticks of the maintenance scheduler

A tick goes through the jobs in order and awaits the handler of each that is due; what a handler
raises ends the tick. A job is due in the one minute of its window, until its handler returned
on that date. -/

namespace TradingPlatform.Control.MaintenanceTicks

open TradingPlatform.Lib TradingPlatform.Lib.Runs

structure ScheduledMaintenanceJob where
  jobId : String
  hour : ℕ
  minute : ℕ
  weekdays : Option (List ℕ)
  handlerName : String

def weekendTunerJob : ScheduledMaintenanceJob where
  jobId := "weekend_parameter_tuner"
  hour := 6
  minute := 0
  weekdays := some [6]
  handlerName := "run_weekend_parameter_tuner"

def weeklyPolicyJob : ScheduledMaintenanceJob where
  jobId := "weekly_policy_brain"
  hour := 22
  minute := 0
  weekdays := some [5]
  handlerName := "run_weekly_policy_brain"

def preOpenJob : ScheduledMaintenanceJob where
  jobId := "pre_open_readiness"
  hour := 8
  minute := 30
  weekdays := none
  handlerName := "run_pre_open_readiness"

def postCloseJob : ScheduledMaintenanceJob where
  jobId := "post_close_reconciliation"
  hour := 16
  minute := 30
  weekdays := none
  handlerName := "run_post_close_reconciliation"

def vaultBackupJob : ScheduledMaintenanceJob where
  jobId := "vault_backup"
  hour := 3
  minute := 0
  weekdays := none
  handlerName := "run_vault_backup"

def defaultJobs : List ScheduledMaintenanceJob :=
  [weekendTunerJob, weeklyPolicyJob, preOpenJob, postCloseJob, vaultBackupJob]

def operationalJobs : List ScheduledMaintenanceJob := [preOpenJob, postCloseJob]

/-- The names in `_job_handlers`. -/
def jobHandlers : List String :=
  ["run_weekend_parameter_tuner", "run_weekly_policy_brain", "run_vault_backup",
    "run_pre_open_readiness", "run_post_close_reconciliation"]

/-- `datetime.now(ET)`, to the minute. -/
structure EtMoment where
  date : Date
  hour : ℕ
  minute : ℕ

abbrev LastFired := Dict String String

def shouldFire (lastFired : LastFired) (job : ScheduledMaintenanceJob) (nowEt : EtMoment) : Bool :=
  if job.weekdays.any fun days => decide (nowEt.date.weekday ∉ days) then false
  else if nowEt.hour ≠ job.hour ∨ nowEt.minute ≠ job.minute then false
  else
    let sessionKey := nowEt.date.isoformat
    if lastFired.get? job.jobId = some sessionKey then false else true

/-- A handler that was awaited, and whether it returned. -/
structure Firing where
  jobId : String
  nowEt : EtMoment
  returned : Bool

/-- The loop of `tick`: the handlers awaited, and `_last_fired`. What a handler does is told by
`returns`. -/
def tickJobs (nowEt : EtMoment) (returns : String → Bool) :
    List ScheduledMaintenanceJob → LastFired → List Firing × LastFired
  | [], lastFired => ([], lastFired)
  | job :: rest, lastFired =>
    if shouldFire lastFired job nowEt then
      if job.handlerName ∈ jobHandlers then
        if returns job.jobId then
          let later := tickJobs nowEt returns rest
            (lastFired.set job.jobId nowEt.date.isoformat)
          (⟨job.jobId, nowEt, true⟩ :: later.1, later.2)
        else ([⟨job.jobId, nowEt, false⟩], lastFired)
      -- `_handler_for` raises
      else ([], lastFired)
    else tickJobs nowEt returns rest lastFired

structure SchedulerState where
  lastFired : LastFired := .empty
  /-- The firings of all ticks, oldest first. -/
  log : List Firing := []

/-- A tick of the daemon, which goes on after one that raised, and `run_job`, which leaves
`_last_fired` alone. -/
inductive SchedulerEvent
  | tick (nowEt : EtMoment) (returns : String → Bool)
  | runJob (jobId : String)

def SchedulerEvent.date? : SchedulerEvent → Option Date
  | .tick nowEt _ => some nowEt.date
  | .runJob _ => none

def schedulerStep (jobs : List ScheduledMaintenanceJob) (s : SchedulerState) :
    SchedulerEvent → SchedulerState
  | .tick nowEt returns =>
    let fired := tickJobs nowEt returns jobs s.lastFired
    { lastFired := fired.2, log := s.log ++ fired.1 }
  | .runJob _ => s

/-! ## The window of a job -/

def InWindow (job : ScheduledMaintenanceJob) (nowEt : EtMoment) : Prop :=
  (∀ days ∈ job.weekdays, nowEt.date.weekday ∈ days) ∧ nowEt.hour = job.hour ∧
    nowEt.minute = job.minute

theorem shouldFire_iff (lastFired : LastFired) (job : ScheduledMaintenanceJob) (nowEt : EtMoment) :
    shouldFire lastFired job nowEt = true ↔
      InWindow job nowEt ∧ lastFired.get? job.jobId ≠ some nowEt.date.isoformat := by
  unfold shouldFire InWindow
  cases job.weekdays with
  | none => simp
  | some days => simp; tauto

theorem isoformat_injective : Function.Injective Date.isoformat := by
  intro d e h
  have hparse := Date.parse?_isoformat d
  rw [h, Date.parse?_isoformat] at hparse
  exact (Option.some.inj hparse).symm

/-! ## What the log remembers -/

/-- The firings of a job by ticks that returned. -/
def returnsOf (log : List Firing) (jobId : String) : List Firing :=
  log.filter fun f => decide (f.jobId = jobId) && f.returned

/-- `_last_fired` holds the date of the last return; no date is in the log twice for a job, and
none later than today's. -/
structure Logged (s : SchedulerState) (nowEt : EtMoment) : Prop where
  recorded : ∀ jobId, s.lastFired.get? jobId =
    (returnsOf s.log jobId).getLast?.map (·.nowEt.date.isoformat)
  sorted : s.log.Pairwise fun f g => f.nowEt.date.toordinal ≤ g.nowEt.date.toordinal
  bounded : ∀ f ∈ s.log, f.nowEt.date.toordinal ≤ nowEt.date.toordinal
  once : ∀ jobId, ((returnsOf s.log jobId).map (·.nowEt.date)).Nodup

def FreshToday (log : List Firing) (jobId : String) (nowEt : EtMoment) : Prop :=
  ∀ f ∈ returnsOf log jobId, f.nowEt.date ≠ nowEt.date

theorem Logged.freshToday_iff {s : SchedulerState} {nowEt : EtMoment} (h : Logged s nowEt)
    (jobId : String) :
    FreshToday s.log jobId nowEt ↔ s.lastFired.get? jobId ≠ some nowEt.date.isoformat := by
  rw [h.recorded jobId]
  rcases List.eq_nil_or_concat (returnsOf s.log jobId) with hnil | ⟨init, last, hlast⟩
  · simp [FreshToday, hnil]
  rw [List.concat_eq_append] at hlast
  have hsorted : (returnsOf s.log jobId).Pairwise
      fun f g => f.nowEt.date.toordinal ≤ g.nowEt.date.toordinal := h.sorted.filter _
  rw [hlast, List.pairwise_append] at hsorted
  have hlastMem : last ∈ returnsOf s.log jobId := by simp [hlast]
  have hbounded := h.bounded last (List.mem_of_mem_filter hlastMem)
  simp only [hlast, List.getLast?_append_cons, List.getLast?_singleton, Option.map_some, ne_eq,
    Option.some.injEq]
  constructor
  · exact fun hfresh heq => hfresh last hlastMem (isoformat_injective heq)
  · intro hne f hf heq
    -- an earlier return of today would date the last one today, too
    rw [hlast, List.mem_append, List.mem_singleton] at hf
    rcases hf with hf | rfl
    · have hle := hsorted.2.2 f hf last List.mem_cons_self
      rw [heq] at hle
      exact hne (congrArg _ (Date.toordinal_injective (le_antisymm hbounded hle)))
    · exact hne (congrArg _ heq)

theorem Logged.shouldFire_iff {s : SchedulerState} {nowEt : EtMoment} (h : Logged s nowEt)
    (job : ScheduledMaintenanceJob) :
    shouldFire s.lastFired job nowEt = true ↔
      InWindow job nowEt ∧ FreshToday s.log job.jobId nowEt := by
  rw [MaintenanceTicks.shouldFire_iff, h.freshToday_iff]

theorem Logged.concat {s : SchedulerState} {nowEt : EtMoment} (h : Logged s nowEt) {f : Firing}
    (hf : f.nowEt = nowEt) :
    (s.log ++ [f]).Pairwise (fun f g => f.nowEt.date.toordinal ≤ g.nowEt.date.toordinal) ∧
      ∀ g ∈ s.log ++ [f], g.nowEt.date.toordinal ≤ nowEt.date.toordinal := by
  refine ⟨List.pairwise_append.mpr ⟨h.sorted, List.pairwise_singleton .., fun g hg g' hg' => ?_⟩,
    fun g hg => ?_⟩
  · rw [List.mem_singleton.mp hg', hf]
    exact h.bounded g hg
  · rcases List.mem_append.mp hg with hg | hg
    · exact h.bounded g hg
    · rw [List.mem_singleton.mp hg, hf]

/-- A handler that raised is not recorded. -/
theorem Logged.raised {s : SchedulerState} {nowEt : EtMoment} (h : Logged s nowEt)
    (jobId : String) : Logged ⟨s.lastFired, s.log ++ [⟨jobId, nowEt, false⟩]⟩ nowEt := by
  have hsame : ∀ id, returnsOf (s.log ++ [⟨jobId, nowEt, false⟩]) id = returnsOf s.log id := by
    intro id
    simp [returnsOf]
  obtain ⟨hsorted, hbounded⟩ := h.concat (f := ⟨jobId, nowEt, false⟩) rfl
  exact ⟨fun id => (h.recorded id).trans (by rw [hsame]), hsorted, hbounded,
    fun id => by rw [hsame]; exact h.once id⟩

theorem Logged.fired {s : SchedulerState} {nowEt : EtMoment} (h : Logged s nowEt)
    {jobId : String} (hfresh : FreshToday s.log jobId nowEt) :
    Logged ⟨s.lastFired.set jobId nowEt.date.isoformat, s.log ++ [⟨jobId, nowEt, true⟩]⟩ nowEt := by
  have hself : returnsOf (s.log ++ [⟨jobId, nowEt, true⟩]) jobId =
      returnsOf s.log jobId ++ [⟨jobId, nowEt, true⟩] := by
    simp [returnsOf]
  have hother : ∀ id, id ≠ jobId →
      returnsOf (s.log ++ [⟨jobId, nowEt, true⟩]) id = returnsOf s.log id := by
    intro id hid
    simp [returnsOf, Ne.symm hid]
  obtain ⟨hsorted, hbounded⟩ := h.concat (f := ⟨jobId, nowEt, true⟩) rfl
  refine ⟨fun id => ?_, hsorted, hbounded, fun id => ?_⟩
  · rw [Dict.get?_set]
    by_cases hid : id = jobId
    · rw [if_pos hid, hid, hself]
      simp
    · rw [if_neg hid, hother id hid]
      exact h.recorded id
  · by_cases hid : id = jobId
    · rw [hid, hself, List.map_append, List.map_singleton, List.nodup_append]
      refine ⟨h.once jobId, List.nodup_singleton _, ?_⟩
      rintro _ hd _ hd' rfl
      obtain ⟨f, hf, heq⟩ := List.mem_map.mp hd
      exact hfresh f hf (heq.trans (List.mem_singleton.mp hd'))
    · rw [hother id hid]
      exact h.once id

theorem Logged.tick {nowEt : EtMoment} (returns : String → Bool)
    (jobs : List ScheduledMaintenanceJob) {s : SchedulerState} (h : Logged s nowEt) :
    Logged (schedulerStep jobs s (.tick nowEt returns)) nowEt := by
  induction jobs generalizing s with
  | nil => simpa [schedulerStep, tickJobs] using h
  | cons job rest ih =>
    simp only [schedulerStep, tickJobs]
    split
    case isFalse => exact ih h
    rename_i hfire
    split
    case isFalse => simpa using h
    split
    · have hfired := ih (h.fired ((h.shouldFire_iff job).mp hfire).2)
      simpa [schedulerStep] using hfired
    · exact h.raised job.jobId

/-- What a tick awaits is in the window of a job of the tuple. -/
theorem window_of_mem_tickJobs {nowEt : EtMoment} {returns : String → Bool}
    {jobs : List ScheduledMaintenanceJob} {lastFired : LastFired} {f : Firing}
    (h : f ∈ (tickJobs nowEt returns jobs lastFired).1) :
    f.nowEt = nowEt ∧ ∃ job ∈ jobs, job.jobId = f.jobId ∧ InWindow job nowEt := by
  induction jobs generalizing lastFired with
  | nil => cases h
  | cons job rest ih =>
    have hlater : ∀ {lastFired}, f ∈ (tickJobs nowEt returns rest lastFired).1 →
        f.nowEt = nowEt ∧ ∃ j ∈ job :: rest, j.jobId = f.jobId ∧ InWindow j nowEt := by
      intro lastFired hf
      obtain ⟨hnow, j, hj, hwindow⟩ := ih hf
      exact ⟨hnow, j, List.mem_cons_of_mem _ hj, hwindow⟩
    simp only [tickJobs] at h
    split at h
    case isFalse => exact hlater h
    rename_i hfire
    have hwindow := ((shouldFire_iff ..).mp hfire).1
    split at h
    case isFalse => cases h
    split at h
    · rcases List.mem_cons.mp h with rfl | h
      · exact ⟨rfl, job, List.mem_cons_self, rfl, hwindow⟩
      · exact hlater h
    · rw [List.mem_singleton.mp h]
      exact ⟨rfl, job, List.mem_cons_self, rfl, hwindow⟩

theorem shouldFire_set_ne {lastFired : LastFired} {job : ScheduledMaintenanceJob} {jobId : String}
    (h : job.jobId ≠ jobId) (key : String) (nowEt : EtMoment) :
    shouldFire (lastFired.set jobId key) job nowEt = shouldFire lastFired job nowEt := by
  unfold shouldFire
  rw [Dict.get?_set_ne _ h]

/-- Which jobs a tick awaits: those it should, if every job before that it should await has a
handler, and one that returns. -/
theorem started_iff {nowEt : EtMoment} {returns : String → Bool}
    {before after : List ScheduledMaintenanceJob} {job : ScheduledMaintenanceJob}
    {lastFired : LastFired} (hids : ((before ++ job :: after).map (·.jobId)).Nodup) :
    (∃ f ∈ (tickJobs nowEt returns (before ++ job :: after) lastFired).1, f.jobId = job.jobId) ↔
      shouldFire lastFired job nowEt = true ∧ job.handlerName ∈ jobHandlers ∧
      ∀ j ∈ before, shouldFire lastFired j nowEt = true →
        j.handlerName ∈ jobHandlers ∧ returns j.jobId = true := by
  induction before generalizing lastFired with
  | nil =>
    have hafter : ¬ ∃ f ∈ (tickJobs nowEt returns after lastFired).1, f.jobId = job.jobId := by
      rintro ⟨f, hf, heq⟩
      obtain ⟨-, j, hj, hid, -⟩ := window_of_mem_tickJobs hf
      exact (List.nodup_cons.mp hids).1 (List.mem_map.mpr ⟨j, hj, hid.trans heq⟩)
    simp only [List.nil_append, tickJobs, List.not_mem_nil, false_imp_iff, implies_true, and_true]
    split
    case isFalse hfire => simp [hfire, hafter]
    rename_i hfire
    split
    case isFalse hregistered => simp [hregistered]
    rename_i hregistered
    split <;> simp [hfire, hregistered]
  | cons b before ih =>
    obtain ⟨hb, hids⟩ := List.nodup_cons.mp hids
    have hne : job.jobId ≠ b.jobId := fun heq => hb (by simp [← heq])
    simp only [List.cons_append, tickJobs, List.forall_mem_cons]
    split
    case isFalse hfire => simp [ih hids, hfire]
    rename_i hfire
    split
    case isFalse hregistered => simp [hfire, hregistered]
    rename_i hregistered
    split
    case isFalse hreturns => simp [hfire, hreturns, Ne.symm hne]
    rename_i hreturns
    have hbefore : ∀ j ∈ before, j.jobId ≠ b.jobId := fun j hj heq =>
      hb (List.mem_map.mpr ⟨j, List.mem_append_left _ hj, heq⟩)
    have hsame : (∀ j ∈ before, shouldFire (lastFired.set b.jobId nowEt.date.isoformat) j nowEt =
        true → j.handlerName ∈ jobHandlers ∧ returns j.jobId = true) ↔
        ∀ j ∈ before, shouldFire lastFired j nowEt = true →
          j.handlerName ∈ jobHandlers ∧ returns j.jobId = true :=
      forall₂_congr fun j hj => by rw [shouldFire_set_ne (hbefore j hj)]
    simp only [List.exists_mem_cons_iff, Ne.symm hne, false_or, ih hids, shouldFire_set_ne hne,
      hsame, hfire, hregistered, hreturns, and_self, true_imp_iff, true_and]

/-! ## Every run -/

theorem Logged.later {s : SchedulerState} {nowEt later : EtMoment} (h : Logged s nowEt)
    (hle : nowEt.date.toordinal ≤ later.date.toordinal) : Logged s later :=
  ⟨h.recorded, h.sorted, fun f hf => (h.bounded f hf).trans hle, h.once⟩

/-- The dates of the ticks do not go back, and today is not before them. -/
def ClockForward (es : List SchedulerEvent) (nowEt : EtMoment) : Prop :=
  (es.filterMap SchedulerEvent.date? ++ [nowEt.date]).Pairwise fun d e => d.toordinal ≤ e.toordinal

theorem logged_run (jobs : List ScheduledMaintenanceJob) {es : List SchedulerEvent}
    {nowEt : EtMoment} (hclock : ClockForward es nowEt) :
    Logged (run (schedulerStep jobs) {} es) nowEt ∧
      ∀ f ∈ (run (schedulerStep jobs) {} es).log,
        ∃ job ∈ jobs, job.jobId = f.jobId ∧ InWindow job f.nowEt := by
  induction es using List.reverseRecOn generalizing nowEt with
  | nil => exact ⟨⟨by simp [returnsOf], .nil, by simp, by simp [returnsOf]⟩, by simp⟩
  | append_singleton es e ih =>
    rw [run_append, run_cons, run_nil]
    rw [ClockForward, List.filterMap_append] at hclock
    cases e with
    | runJob jobId =>
      have hnone : [SchedulerEvent.runJob jobId].filterMap SchedulerEvent.date? = [] := rfl
      rw [hnone, List.append_nil] at hclock
      exact ih hclock
    | tick now returns =>
      have hsome : [SchedulerEvent.tick now returns].filterMap SchedulerEvent.date? = [now.date] :=
        rfl
      rw [hsome, List.pairwise_append] at hclock
      obtain ⟨hlogged, hwindows⟩ := ih hclock.1
      have hle := hclock.2.2 now.date (by simp) nowEt.date List.mem_cons_self
      refine ⟨(hlogged.tick returns jobs).later hle, fun f hf => ?_⟩
      rcases List.mem_append.mp hf with hf | hf
      · exact hwindows f hf
      · obtain ⟨hnow, hjob⟩ := window_of_mem_tickJobs hf
        exact hnow ▸ hjob

/-- After any ticks whose dates do not go back, whichever handlers raised, and any jobs run by
hand in between, which the log leaves out: what the ticks ran was in its job's window; of a tick,
a handler returned at most once a date; and a tick awaits a job exactly when it is in its window,
no tick has had it return today, it has a handler, and every job before it that is due has one
that returns. -/
theorem fires_once_a_date {jobs before after : List ScheduledMaintenanceJob}
    {job : ScheduledMaintenanceJob} (hjobs : jobs = before ++ job :: after)
    (hids : (jobs.map (·.jobId)).Nodup) {es : List SchedulerEvent} {nowEt : EtMoment}
    (hclock : ClockForward es nowEt) (returns : String → Bool) :
    (∀ f ∈ (run (schedulerStep jobs) {} es).log,
      ∃ j ∈ jobs, j.jobId = f.jobId ∧ InWindow j f.nowEt) ∧
    (∀ jobId, ((returnsOf (run (schedulerStep jobs) {} es).log jobId).map (·.nowEt.date)).Nodup) ∧
    ((∃ f ∈ (tickJobs nowEt returns jobs (run (schedulerStep jobs) {} es).lastFired).1,
        f.jobId = job.jobId) ↔
      InWindow job nowEt ∧ FreshToday (run (schedulerStep jobs) {} es).log job.jobId nowEt ∧
        job.handlerName ∈ jobHandlers ∧
        ∀ j ∈ before, InWindow j nowEt →
          FreshToday (run (schedulerStep jobs) {} es).log j.jobId nowEt →
          j.handlerName ∈ jobHandlers ∧ returns j.jobId = true) := by
  obtain ⟨hlogged, hwindows⟩ := logged_run jobs hclock
  refine ⟨hwindows, hlogged.once, ?_⟩
  subst hjobs
  rw [started_iff hids, hlogged.shouldFire_iff, and_assoc]
  refine and_congr_right fun _ => and_congr_right fun _ => and_congr_right fun _ => ?_
  exact forall₂_congr fun j _ => by rw [hlogged.shouldFire_iff, and_imp]

example : (defaultJobs.map (·.jobId)).Nodup ∧
    ∀ job ∈ defaultJobs, job.handlerName ∈ jobHandlers := by
  decide

theorem in2024 : 1 ≤ 2024 ∧ 2024 ≤ 9999 := by decide

theorem inJuly : 1 ≤ 7 ∧ 7 ≤ 12 := by decide

def mondayPreOpen : EtMoment := ⟨⟨2024, 7, 22, in2024, inJuly, by decide⟩, 8, 30⟩

/-- A job that raised is awaited again in its minute. -/
theorem fires_once_a_date_retry :
    ∃ f ∈ (tickJobs mondayPreOpen (fun _ => true) operationalJobs
      (run (schedulerStep operationalJobs) {}
        [.tick mondayPreOpen fun _ => false]).lastFired).1, f.jobId = preOpenJob.jobId := by
  have hjobs : operationalJobs = [] ++ preOpenJob :: [postCloseJob] := rfl
  have hclock : ClockForward [.tick mondayPreOpen fun _ => false] mondayPreOpen := by
    simp [ClockForward, SchedulerEvent.date?]
  have hnone : returnsOf (run (schedulerStep operationalJobs) {}
      [.tick mondayPreOpen fun _ => false]).log preOpenJob.jobId = [] := by rfl
  refine ((fires_once_a_date hjobs (by decide) hclock fun _ => true).2.2).mpr
    ⟨⟨by simp [preOpenJob], rfl, rfl⟩, ?_, by decide, by simp⟩
  rw [FreshToday, hnone]
  simp

end TradingPlatform.Control.MaintenanceTicks
