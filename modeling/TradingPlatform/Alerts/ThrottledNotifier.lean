import TradingPlatform.Lib.Dict
import TradingPlatform.Lib.Runs

/-! # The throttled notifier

A condition that repeats pages at once and then ever more rarely, until it is resolved.
Whether the inner notifier raises on a page is an input of the call. Beside the notifier
stands the log of its calls, the latest first, from which the pages of an episode are
read. Times are microseconds. -/

namespace TradingPlatform.Alerts.Throttle

open TradingPlatform.Lib TradingPlatform.Lib.Runs

/-- What is read or written of an alert. -/
structure Alert where
  kind : String := ""
  severity : String := ""
  message : String := ""
  component : Option String := none
  recovered : Bool := false
  deriving DecidableEq

def Alert.key (alert : Alert) : String × String := (alert.component.getD "", alert.kind)

def second : ℤ := 1000000

/-- `_BACKOFF_SCHEDULE_S`, and the place that the sends so far have in it. -/
def requiredWait (sends : ℕ) : ℤ :=
  match min (sends - 1) 2 with
  | 0 => 300 * second
  | 1 => 900 * second
  | _ => 3600 * second

/-- The state of a key. -/
structure Sending where
  lastSent : ℤ
  sends : ℕ
  deriving DecidableEq

structure ThrottledNotifier where
  state : Dict (String × String) Sending := .empty

/-- What came of a notify: nothing, a page, or a page that raised. -/
inductive Outcome
  | throttled
  | sent
  | raised
  deriving DecidableEq

/-- The inner notifier is called, and what it raises goes to the caller. -/
def attempt (raises : Bool) : Outcome := if raises then .raised else .sent

namespace ThrottledNotifier

variable (notifier : ThrottledNotifier)

def notify (now : ℤ) (alert : Alert) (raises : Bool) : Outcome × ThrottledNotifier :=
  let key := alert.key
  match notifier.state.get? key with
  | none => (attempt raises, ⟨notifier.state.set key ⟨now, 1⟩⟩)
  | some st =>
    let elapsed := now - st.lastSent
    if requiredWait st.sends ≤ elapsed then
      (attempt raises, ⟨notifier.state.set key ⟨now, st.sends + 1⟩⟩)
    else (.throttled, notifier)

/-- The page that the condition is over, if it was on; what it raises is logged. -/
def resolve (component kind : String) : Option Alert × ThrottledNotifier :=
  let key := (component, kind)
  match notifier.state.get? key with
  | none => (none, notifier)
  | some _ =>
    (some
      { kind, severity := "info", message := component ++ " " ++ kind ++ " RECOVERED"
        component, recovered := true },
      ⟨notifier.state.erase key⟩)

end ThrottledNotifier

/-! ## Episodes -/

inductive ThrottleCall
  | notify (now : ℤ) (alert : Alert) (raises : Bool)
  | resolve (component kind : String)

inductive LogEntry
  | notified (key : String × String) (time : ℤ) (outcome : Outcome)
  | resolved (key : String × String)

/-- The notifier, its log, and the last reading of the clock. -/
structure Desk where
  notifier : ThrottledNotifier := {}
  log : List LogEntry := []
  now : ℤ

def Desk.step (desk : Desk) : ThrottleCall → Desk
  | .notify now alert raises =>
    let (outcome, notifier) := desk.notifier.notify now alert raises
    ⟨notifier, .notified alert.key now outcome :: desk.log, now⟩
  | .resolve component kind =>
    ⟨(desk.notifier.resolve component kind).2, .resolved (component, kind) :: desk.log, desk.now⟩

/-- The notifies of a key since it was last resolved, the latest first. -/
def episode (key : String × String) : List LogEntry → List (ℤ × Outcome)
  | [] => []
  | .notified k time outcome :: log =>
    if k = key then (time, outcome) :: episode key log else episode key log
  | .resolved k :: log => if k = key then [] else episode key log

def attempts (key : String × String) (log : List LogEntry) : List (ℤ × Outcome) :=
  (episode key log).filter (·.2 ≠ .throttled)

def successes (key : String × String) (log : List LogEntry) : List (ℤ × Outcome) :=
  (episode key log).filter (·.2 = .sent)

/-- What the log demands of a notify of a key: its first of an episode pages, pages lie the
scheduled wait apart, after the wait it pages, and so it does after a page that raised. -/
structure Pages (key : String × String) (log : List LogEntry) (now : ℤ) (outcome : Outcome) :
    Prop where
  first : episode key log = [] → outcome ≠ .throttled
  spaced : outcome = .sent → ∀ last ∈ (successes key log).head?,
    requiredWait (successes key log).length ≤ now - last.1
  due : ∀ last ∈ (successes key log).head?,
    requiredWait (successes key log).length ≤ now - last.1 → outcome ≠ .throttled
  again : ∀ last ∈ (attempts key log).head?, last.2 = .raised → outcome ≠ .throttled

/-- **Throttling swallows no page.** -/
def NeverSwallowed (desk : Desk) : ThrottleCall → Prop
  | .notify now alert raises =>
    Pages alert.key desk.log now (desk.notifier.notify now alert raises).1
  | .resolve _ _ => True

/-- A page that raised is followed by no notify before the wait for all pages tried; nor is
a page that went out, from the wait for those that went out on. -/
def FailuresSpaced (desk : Desk) : ThrottleCall → Prop
  | .notify now alert _ =>
    let tried := attempts alert.key desk.log
    ∀ last ∈ tried.head?,
      (last.2 = .raised ∨
        requiredWait (successes alert.key desk.log).length ≤ now - last.1) →
        requiredWait tried.length ≤ now - last.1
  | .resolve _ _ => True

/-- Times do not decrease. -/
def Timely (desk : Desk) : ThrottleCall → Prop
  | .notify now _ _ => desk.now ≤ now
  | .resolve _ _ => True

/-! ## What the notifier remembers -/

theorem requiredWait_mono {m n : ℕ} (h : m ≤ n) : requiredWait m ≤ requiredWait n := by
  have hcases : ∀ k : ℕ, requiredWait k =
      if k ≤ 1 then 300 * second else if k = 2 then 900 * second else 3600 * second := by
    intro k
    match k with
    | 0 | 1 | 2 => rfl
    | k + 3 =>
      simp [requiredWait]
  rw [hcases, hcases]
  unfold second
  split_ifs <;> omega

section Logs
variable {key k : String × String} {time : ℤ} {outcome : Outcome} {log : List LogEntry}

theorem attempts_notified :
    attempts key (.notified k time outcome :: log) =
      if k = key ∧ outcome ≠ .throttled then (time, outcome) :: attempts key log
      else attempts key log := by
  by_cases hk : k = key <;> by_cases ho : outcome = .throttled <;>
    simp [attempts, episode, hk, ho]

theorem attempts_resolved :
    attempts key (.resolved k :: log) = if k = key then [] else attempts key log := by
  by_cases hk : k = key <;> simp [attempts, episode, hk]

/-- The pages that went out are among those tried. -/
theorem successes_eq : successes key log = (attempts key log).filter (·.2 = .sent) := by
  rw [attempts, successes, List.filter_filter]
  refine List.filter_congr fun entry _ => ?_
  cases entry.2 <;> rfl

variable (key log) in
theorem length_successes_le : (successes key log).length ≤ (attempts key log).length := by
  rw [successes_eq]
  exact List.length_filter_le _ _

end Logs

/-- The notifier's states are the last pages tried and their number, and none of them lies
in the future or out of order. -/
structure Remembers (desk : Desk) : Prop where
  state : ∀ key, desk.notifier.state.get? key =
    (attempts key desk.log).head?.map fun last => ⟨last.1, (attempts key desk.log).length⟩
  past : ∀ key, ∀ entry ∈ attempts key desk.log, entry.1 ≤ desk.now
  ordered : ∀ key, (attempts key desk.log).Pairwise fun later earlier => earlier.1 ≤ later.1
  opened : ∀ key, episode key desk.log ≠ [] → attempts key desk.log ≠ []

variable {desk : Desk} {now : ℤ} {alert : Alert} {raises : Bool}

theorem attempt_ne_throttled : attempt raises ≠ .throttled := by
  cases raises <;> simp [attempt]

/-- What a notify does: it pages when the wait for the pages tried so far is over. -/
theorem notify_cases (h : Remembers desk) (now : ℤ) (alert : Alert) (raises : Bool) :
    ((∀ last ∈ (attempts alert.key desk.log).head?,
        requiredWait (attempts alert.key desk.log).length ≤ now - last.1) ∧
      desk.notifier.notify now alert raises =
        (attempt raises, ⟨desk.notifier.state.set alert.key
          ⟨now, (attempts alert.key desk.log).length + 1⟩⟩)) ∨
    ((∃ last ∈ (attempts alert.key desk.log).head?,
        now - last.1 < requiredWait (attempts alert.key desk.log).length) ∧
      desk.notifier.notify now alert raises = (.throttled, desk.notifier)) := by
  have hstate := h.state alert.key
  simp only [ThrottledNotifier.notify]
  cases hlast : (attempts alert.key desk.log).head? with
  | none =>
    have hnil : attempts alert.key desk.log = [] := List.head?_eq_none_iff.mp hlast
    rw [hlast] at hstate
    simp [hstate, hnil]
  | some last =>
    rw [hlast] at hstate
    simp only [hstate, Option.map_some]
    split
    · rename_i hwait
      exact Or.inl ⟨by simpa using hwait, rfl⟩
    · rename_i hwait
      exact Or.inr ⟨by simpa using hwait, rfl⟩

theorem notify_pages_iff (h : Remembers desk) :
    (desk.notifier.notify now alert raises).1 ≠ .throttled ↔
      ∀ last ∈ (attempts alert.key desk.log).head?,
        requiredWait (attempts alert.key desk.log).length ≤ now - last.1 := by
  obtain ⟨hover, hpaged⟩ | ⟨⟨last, hlast, hearly⟩, hpaged⟩ := notify_cases h now alert raises
  · rw [hpaged]
    exact iff_of_true attempt_ne_throttled hover
  · rw [hpaged]
    exact iff_of_false (fun hne => hne rfl) fun hover => (hover last hlast).not_gt hearly

theorem state_notify (h : Remembers desk) (key : String × String) :
    (desk.notifier.notify now alert raises).2.state.get? key =
      if alert.key = key ∧ (desk.notifier.notify now alert raises).1 ≠ .throttled then
        some ⟨now, (attempts key desk.log).length + 1⟩
      else desk.notifier.state.get? key := by
  obtain ⟨-, hpaged⟩ | ⟨-, hpaged⟩ := notify_cases h now alert raises
  · rw [hpaged]
    by_cases hkey : alert.key = key
    · subst hkey
      simp [attempt_ne_throttled]
    · simp [hkey, Dict.get?_set_ne _ (Ne.symm hkey)]
  · simp [hpaged]

theorem remembers_notify (h : Remembers desk) (hnow : desk.now ≤ now) :
    Remembers (desk.step (.notify now alert raises)) := by
  have hlog : (desk.step (.notify now alert raises)).log =
      .notified alert.key now (desk.notifier.notify now alert raises).1 :: desk.log := rfl
  have hpast : ∀ key, ∀ entry ∈ attempts key desk.log, entry.1 ≤ now :=
    fun key entry hentry => (h.past key entry hentry).trans hnow
  refine ⟨fun key => ?_, fun key => ?_, fun key => ?_, fun key => ?_⟩
  · rw [hlog, attempts_notified]
    refine (state_notify h key).trans ?_
    split_ifs with hpaged
    · simp
    · exact h.state key
  · rw [hlog, attempts_notified]
    split_ifs
    · exact List.forall_mem_cons.mpr ⟨le_rfl, hpast key⟩
    · exact hpast key
  · rw [hlog, attempts_notified]
    split_ifs
    · exact List.pairwise_cons.mpr ⟨hpast key, h.ordered key⟩
    · exact h.ordered key
  · rw [hlog, attempts_notified]
    intro hne
    split_ifs with hpaged
    · simp
    · by_cases hkey : alert.key = key
      · -- a throttled notify finds the episode open
        have hthrottled : ¬ (desk.notifier.notify now alert raises).1 ≠ .throttled :=
          fun ho => hpaged ⟨hkey, ho⟩
        rw [notify_pages_iff h, hkey] at hthrottled
        intro hnil
        exact hthrottled (by simp [hnil])
      · exact h.opened key (by simpa [episode, hkey] using hne)

theorem remembers_resolve (h : Remembers desk) (component kind : String) :
    Remembers (desk.step (.resolve component kind)) := by
  have hlog : (desk.step (.resolve component kind)).log =
      .resolved (component, kind) :: desk.log := rfl
  have hstate : ∀ key, (desk.notifier.resolve component kind).2.state.get? key =
      if (component, kind) = key then none else desk.notifier.state.get? key := by
    intro key
    unfold ThrottledNotifier.resolve
    cases hst : desk.notifier.state.get? (component, kind) with
    | none =>
      by_cases hkey : (component, kind) = key
      · simp [← hkey, hst]
      · simp [hst, hkey]
    | some st => simp [hst, Dict.get?_erase, eq_comm]
  refine ⟨fun key => ?_, fun key => ?_, fun key => ?_, fun key => ?_⟩
  · rw [hlog, attempts_resolved]
    refine (hstate key).trans ?_
    split_ifs
    · rfl
    · exact h.state key
  · rw [hlog, attempts_resolved]
    split_ifs
    · simp
    · exact h.past key
  · rw [hlog, attempts_resolved]
    split_ifs
    · exact List.Pairwise.nil
    · exact h.ordered key
  · rw [hlog, attempts_resolved]
    intro hne
    by_cases hkey : (component, kind) = key
    · simp [episode, hkey] at hne
    · simpa [hkey] using h.opened key (by simpa [episode, hkey] using hne)

theorem remembers_step (desk : Desk) (call : ThrottleCall) (h : Remembers desk)
    (hnow : Timely desk call) : Remembers (desk.step call) := by
  cases call with
  | notify now alert raises => exact remembers_notify h hnow
  | resolve component kind => exact remembers_resolve h component kind

/-! ## Swallowed pages -/

/-- The last page that went out was not tried after the last one tried. -/
theorem success_le_attempt (h : Remembers desk) {key : String × String} {out last : ℤ × Outcome}
    (hout : out ∈ (successes key desk.log).head?) (hlast : last ∈ (attempts key desk.log).head?) :
    out.1 ≤ last.1 := by
  obtain ⟨rest, hrest⟩ := List.head?_eq_some_iff.mp hlast
  have hmem : out ∈ attempts key desk.log := by
    have hmem := List.mem_of_mem_head? hout
    rw [successes_eq] at hmem
    exact List.mem_of_mem_filter hmem
  have hordered := h.ordered key
  rw [hrest] at hmem hordered
  rcases List.mem_cons.mp hmem with rfl | hmem
  · exact le_rfl
  · exact (List.pairwise_cons.mp hordered).1 out hmem

/-- The last page tried, if it went out, is the last one that did. -/
theorem head_successes {key : String × String} {log : List LogEntry} {last : ℤ × Outcome}
    (hlast : last ∈ (attempts key log).head?) (hsent : last.2 = .sent) :
    last ∈ (successes key log).head? := by
  obtain ⟨rest, hrest⟩ := List.head?_eq_some_iff.mp hlast
  rw [successes_eq, hrest, List.filter_cons_of_pos (by simpa using hsent)]
  rfl

/-- **One call** swallows a page exactly when it comes too early after a failed one. -/
theorem neverSwallowed_iff (desk : Desk) (call : ThrottleCall) (h : Remembers desk)
    (_ : Timely desk call) : NeverSwallowed desk call ↔ FailuresSpaced desk call := by
  cases call with
  | resolve component kind => exact Iff.rfl
  | notify now alert raises =>
    have hpages : (desk.notifier.notify now alert raises).1 ≠ .throttled ↔
        ∀ last ∈ (attempts alert.key desk.log).head?,
          requiredWait (attempts alert.key desk.log).length ≤ now - last.1 := notify_pages_iff h
    have hsent : ∀ last ∈ (attempts alert.key desk.log).head?, last.2 ≠ .raised →
        last.2 = .sent := by
      intro last hlast hraised
      have hne : last.2 ≠ .throttled := by
        simpa using List.of_mem_filter (List.mem_of_mem_head? hlast)
      cases hout : last.2 with
      | throttled => exact absurd hout hne
      | sent => rfl
      | raised => exact absurd hout hraised
    constructor
    · rintro ⟨-, -, hdue, hagain⟩ last hlast hwait
      refine hpages.mp ?_ last hlast
      by_cases hraised : last.2 = .raised
      · exact hagain last hlast hraised
      · exact hdue last (head_successes hlast (hsent last hlast hraised))
          (hwait.resolve_left hraised)
    · intro hspaced
      refine ⟨fun hfirst => ?_, fun hout out hhead => ?_, fun out hhead hwait => ?_,
        fun last hlast hraised => ?_⟩
      · have hnil : attempts alert.key desk.log = [] := by simp [attempts, hfirst]
        exact hpages.mpr (by simp [hnil])
      · have hne : (attempts alert.key desk.log).head? ≠ none := by
          rw [ne_eq, List.head?_eq_none_iff]
          intro hnil
          simp [successes_eq, hnil] at hhead
        obtain ⟨last, hlast⟩ := Option.ne_none_iff_exists'.mp hne
        have hpaged := hpages.mp (by rw [hout]; decide) last hlast
        have hle := success_le_attempt h hhead hlast
        have hmono := requiredWait_mono (length_successes_le alert.key desk.log)
        omega
      · refine hpages.mpr fun last hlast => hspaced last hlast ?_
        by_cases hraised : last.2 = .raised
        · exact Or.inl hraised
        · have hown := head_successes hlast (hsent last hlast hraised)
          rw [Option.mem_unique hown hhead]
          exact Or.inr hwait
      · exact hpages.mpr fun last' hlast' => by
          rw [Option.mem_unique hlast' hlast]
          exact hspaced last hlast (Or.inl hraised)

theorem remembers_new (now : ℤ) : Remembers { now } :=
  ⟨fun _ => rfl, fun _ => by simp [attempts, episode], fun _ => List.Pairwise.nil,
    fun _ hne => absurd rfl hne⟩

/-- **Throttling swallows no page** of a run, at times that do not decrease, exactly when
no notify comes too early after a failed page. -/
theorem neverSwallowed_run_iff {now : ℤ} {calls : List ThrottleCall}
    (htimely : Along Desk.step Timely { now } calls) :
    Along Desk.step NeverSwallowed { now } calls ↔
      Along Desk.step FailuresSpaced { now } calls :=
  along_congr_of remembers_step neverSwallowed_iff calls (remembers_new now) htimely

def staleHeartbeat : Alert :=
  { kind := "heartbeat_stale", severity := "critical", component := some "soak" }

/-- Two pages, the second of which raises, and a notify after the wait for both. -/
theorem neverSwallowed_run_heartbeat :
    Along Desk.step NeverSwallowed { now := 0 }
      [.notify 0 staleHeartbeat false, .notify (300 * second) staleHeartbeat true,
        .notify (1200 * second) staleHeartbeat false] :=
  (neverSwallowed_run_iff (by simp [Along, Timely, Desk.step, second])).mpr (by
    simp [Along, FailuresSpaced, Desk.step, ThrottledNotifier.notify, staleHeartbeat, Alert.key,
      attempts, successes, episode, attempt, requiredWait, second])

/-- The first page raises, and the next notify, half a minute later, is throttled. -/
theorem failed_page_swallows_next :
    Along Desk.step Timely { now := 0 }
        [.notify 0 staleHeartbeat true, .notify (30 * second) staleHeartbeat false] ∧
      ¬ Along Desk.step NeverSwallowed { now := 0 }
        [.notify 0 staleHeartbeat true, .notify (30 * second) staleHeartbeat false] := by
  refine ⟨by simp [Along, Timely, Desk.step, second], fun h => ?_⟩
  exact h.2.1.again (0, .raised) (by decide +kernel) rfl (by decide +kernel)

end TradingPlatform.Alerts.Throttle
