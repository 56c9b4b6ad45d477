import TradingPlatform.Control.QueueSpec
import TradingPlatform.Lib.Runs

/-! # The local-only bus: claims are bounded

With Supabase unconfigured every operation works on the SQLite table. Runs of
the queue operations and of process crashes, in any order, carry two tallies
for one command: the claims that returned `True` and the re-queues by the boot
reclaim. One invariant ties both to the row (`Counted`): attempts are the
re-queues, and a claim is only open while the row is pending. -/

namespace TradingPlatform.Control.LocalBus

open TradingPlatform.Lib TradingPlatform.Lib.Prog TradingPlatform.Lib.Runs

inductive LocalOp
  | enqueue (q : CommandRequest)
  | tryClaim (id now : String)
  | crash
  | reclaim (now : String)
  | retireExpired (now : String)
  | retireStale (reason now cutoff : String) (type : Option ControlCommandType)
  | markCompleted (id now : String)
  | markFailed (id msg now : String)

/-- The queue operation behind a step; a crash runs none and leaves the
tables as the last commit did. -/
def LocalOp.queueOp (maxAttempts : Nat) : LocalOp → Option BusOp
  | enqueue q => some (.enqueueLocal q)
  | tryClaim id now => some (.tryClaim false id now)
  | crash => none
  | reclaim now => some (.reclaim maxAttempts now)
  | retireExpired now => some (.retireExpired now)
  | retireStale reason now cutoff type => some (.retireStale reason now cutoff type)
  | markCompleted id now => some (.markCompleted false id now)
  | markFailed id msg now => some (.markFailed false id msg now)

def LocalOp.apply (maxAttempts : Nat) (op : LocalOp) (b : Bus) : Option BusReply × Bus :=
  match op.queueOp maxAttempts with
  | none => (none, b)
  | some q => (some (q.perform [] b).1, (q.perform [] b).2)

/-- The bus with what happened to one command so far. -/
structure Tally where
  bus : Bus
  claims : Nat := 0
  requeues : Nat := 0

/-- The step is a claim of `id` that returned `True`. -/
def claimedNow (id : String) : LocalOp → Option BusReply → Bool
  | .tryClaim id' _, some (.claimed won) => decide (id' = id) && won
  | _, _ => false

/-- The step is a reclaim that put `id` back to pending. -/
def requeuedNow (id : String) (before after : Bus) : LocalOp → Bool
  | .reclaim _ => before.localStatus id == some .processing && after.localStatus id == some .pending
  | _ => false

def step (maxAttempts : Nat) (id : String) (t : Tally) (op : LocalOp) : Tally where
  bus := (op.apply maxAttempts t.bus).2
  claims := t.claims + (claimedNow id op (op.apply maxAttempts t.bus).1).toNat
  requeues := t.requeues + (requeuedNow id t.bus (op.apply maxAttempts t.bus).2 op).toNat

def start : Tally := { bus := .empty }

/-- The tallies a row can carry. -/
def Counted (k : Nat) (claims requeues : Nat) : Option LocalRow → Prop
  | none => claims = 0 ∧ requeues = 0
  | some r => r.attempts = requeues ∧ requeues ≤ k ∧
    match r.status with
    | .pending => claims = requeues
    | .processing => claims = requeues + 1
    | _ => claims ≤ requeues + 1

theorem Counted.claims_le {k claims requeues : Nat} {row : Option LocalRow}
    (h : Counted k claims requeues row) : claims ≤ k + 1 := by
  cases row with
  | none => have := h.1; omega
  | some r =>
    obtain ⟨_, hk, hs⟩ := h
    cases hr : r.status <;> simp only [hr] at hs <;> omega

/-- Failing a row in `processing` keeps the tallies. -/
theorem Counted.fail {k claims requeues : Nat} {r : LocalRow} {st : ControlCommandStatus}
    {now : String} {err : Option String} (hst : st.terminal = true)
    (h : Counted k claims requeues (some r)) :
    Counted k claims requeues (some ((terminalLocalSet st now err).set r)) := by
  obtain ⟨ha, hk, hs⟩ := h
  refine ⟨ha, hk, ?_⟩
  have hle : claims ≤ requeues + 1 := by
    cases hr : r.status <;> simp only [hr] at hs <;> omega
  cases st with
  | completed => exact hle
  | failed => exact hle
  | pending => cases hst
  | processing => cases hst

/-- So does failing it only where `p` says so. -/
theorem Counted.failWhere {k claims requeues : Nat} {row : Option LocalRow}
    {st : ControlCommandStatus} {now : String} {err : Option String} (hst : st.terminal = true)
    (p : LocalRow → Bool) (h : Counted k claims requeues row) :
    Counted k claims requeues
      (row.map fun r => if p r then (terminalLocalSet st now err).set r else r) := by
  cases row with
  | none => exact h
  | some r =>
    rw [Option.map_some]
    split
    · exact h.fail hst
    · exact h

theorem counted_enqueue {k : Nat} {id : String} {t : Tally} (q : CommandRequest)
    (h : Counted k t.claims t.requeues (t.bus.sqlite.find id)) :
    Counted k t.claims t.requeues
      ((runAlone [] (enqueueControlCommandLocal q) t.bus).2.sqlite.find id) := by
  rw [enqueueLocal_snd]
  rcases stageLocal_find t.bus.sqlite q id with he | ⟨hn, _, he⟩
  · rw [he]; exact h
  · rw [hn] at h
    rw [he]
    exact ⟨h.2.symm, by have := h.2; omega, h.1.trans h.2.symm⟩

theorem counted_claim {k : Nat} {id : String} {t : Tally} (id' now : String)
    (h : Counted k t.claims t.requeues (t.bus.sqlite.find id)) :
    Counted k (t.claims + (decide (id' = id) && decide (t.bus.localStatus id' = some .pending)).toNat)
      t.requeues ((after default (.claimLocal id' now) t.bus).sqlite.find id) := by
  simp only [after, BusCall.onSqlite]
  by_cases he : id' = id
  · subst he
    rw [find_guarded_self]
    cases hr : t.bus.sqlite.find id' with
    | none => simpa [hr, Bus.localStatus, Counted] using h
    | some r =>
      rw [hr] at h
      by_cases hp : r.status = .pending
      · obtain ⟨ha, hk, hs⟩ := h
        simp only [hp] at hs
        simp only [Bus.localStatus, hr, Option.map_some, hp, decide_true, Bool.and_self,
          Bool.toNat_true, if_true]
        exact ⟨ha, hk, by simp [claimLocalSet, hs]⟩
      · simpa [Bus.localStatus, hr, hp] using h
  · rw [find_guarded_ne he]
    simpa [he] using h

/-- A reclaim re-queues a command exactly when it is an orphan with attempts left. -/
theorem requeuedNow_reclaim (k : Nat) (id now : String) (b : Bus) :
    requeuedNow id b (runAlone [] (reclaimOrphanedProcessingCommands k now) b).2 (.reclaim now) =
      (b.sqlite.find id).any fun r => decide (r.status = .processing) && decide (r.attempts < k) := by
  simp only [requeuedNow, Bus.localStatus, reclaim_find]
  cases b.sqlite.find id with
  | none => rfl
  | some r =>
    simp only [Option.map_some, Option.some_beq_some, Option.any_some, reclaimRow]
    by_cases hp : r.status = .processing
    · by_cases hk : k ≤ r.attempts
      · have hlt : ¬ r.attempts < k := by omega
        simp only [hp, hk, hlt, if_true, decide_true, decide_false, Bool.and_false, terminalLocalSet]
        rfl
      · simp [hp, hk, requeueSet, Nat.lt_of_not_le hk]
    · simp [hp]

theorem counted_reclaim {k : Nat} {id : String} {t : Tally} (now : String)
    (h : Counted k t.claims t.requeues (t.bus.sqlite.find id)) :
    Counted k t.claims
      (t.requeues + (requeuedNow id t.bus
        (runAlone [] (reclaimOrphanedProcessingCommands k now) t.bus).2 (.reclaim now)).toNat)
      ((runAlone [] (reclaimOrphanedProcessingCommands k now) t.bus).2.sqlite.find id) := by
  rw [requeuedNow_reclaim, reclaim_find]
  cases hr : t.bus.sqlite.find id with
  | none => simpa [hr] using h
  | some r =>
    rw [hr] at h
    simp only [Option.map_some, Option.any_some, reclaimRow]
    by_cases hp : r.status = .processing
    · by_cases hk : k ≤ r.attempts
      · -- dead-lettered: no re-queue is counted
        have hlt : ¬ r.attempts < k := by omega
        simp only [hp, hk, hlt, if_true, decide_true, decide_false, Bool.and_false,
          Bool.toNat_false, Nat.add_zero]
        exact h.fail rfl
      · obtain ⟨ha, hle, hs⟩ := h
        have hlt : r.attempts < k := by omega
        simp only [hp] at hs
        simp only [hp, hk, hlt, if_true, if_false, decide_true, Bool.and_self, Bool.toNat_true]
        exact ⟨by simp [requeueSet, ha], by omega, hs⟩
    · simpa [hp] using h

theorem counted_expire {k : Nat} {id : String} {t : Tally} (now : String)
    (h : Counted k t.claims t.requeues (t.bus.sqlite.find id)) :
    Counted k t.claims t.requeues
      ((runAlone [] (retireExpiredCommands now) t.bus).2.sqlite.find id) := by
  rw [retireExpired_find]
  exact h.failWhere rfl _

theorem counted_retire {k : Nat} {id : String} {t : Tally} (reason now cutoff : String)
    (type : Option ControlCommandType) (h : Counted k t.claims t.requeues (t.bus.sqlite.find id)) :
    Counted k t.claims t.requeues
      ((runAlone [] (retireStaleProcessingOrphans reason now cutoff type) t.bus).2.sqlite.find id) := by
  rcases retireStale_find reason now cutoff id type [] t.bus with he | ⟨r, hr, _, he⟩
  · rw [he]; exact h
  · rw [hr] at h
    rw [he]
    exact h.fail rfl

theorem counted_mark {k : Nat} {id : String} {st : ControlCommandStatus} {t : Tally}
    (id' now : String) (err : Option String) (hst : st.terminal = true)
    (h : Counted k t.claims t.requeues (t.bus.sqlite.find id)) :
    Counted k t.claims t.requeues
      ((runAlone [] (markTerminal false id' st err now) t.bus).2.sqlite.find id) := by
  rw [markTerminal_find]
  exact h.failWhere hst _

/-- Every step keeps the invariant. -/
theorem counted_step {k : Nat} {id : String} (t : Tally) (op : LocalOp)
    (h : Counted k t.claims t.requeues (t.bus.sqlite.find id)) :
    Counted k (step k id t op).claims (step k id t op).requeues
      ((step k id t op).bus.sqlite.find id) := by
  cases op with
  | enqueue q =>
    have := counted_enqueue q h
    simpa [step, LocalOp.apply, LocalOp.queueOp, claimedNow, requeuedNow, BusOp.perform, BusOp.prog,
      runAlone_bind_ret] using this
  | tryClaim id' now =>
    have := counted_claim id' now h
    simpa [step, LocalOp.apply, LocalOp.queueOp, claimedNow, requeuedNow, BusOp.perform, BusOp.prog,
      runAlone_bind_ret, tryClaim_local] using this
  | crash => simpa [step, LocalOp.apply, LocalOp.queueOp, claimedNow, requeuedNow] using h
  | reclaim now =>
    have := counted_reclaim now h
    simpa [step, LocalOp.apply, LocalOp.queueOp, claimedNow, BusOp.perform, BusOp.prog,
      runAlone_bind_ret] using this
  | retireExpired now =>
    have := counted_expire now h
    simpa [step, LocalOp.apply, LocalOp.queueOp, claimedNow, requeuedNow, BusOp.perform, BusOp.prog,
      runAlone_bind_ret] using this
  | retireStale reason now cutoff type =>
    have := counted_retire reason now cutoff type h
    simpa [step, LocalOp.apply, LocalOp.queueOp, claimedNow, requeuedNow, BusOp.perform, BusOp.prog,
      runAlone_bind_ret] using this
  | markCompleted id' now =>
    have := counted_mark id' now none (show ControlCommandStatus.terminal .completed = true from rfl) h
    simpa [step, LocalOp.apply, LocalOp.queueOp, claimedNow, requeuedNow, BusOp.perform, BusOp.prog,
      runAlone_bind_ret, markCommandCompleted] using this
  | markFailed id' msg now =>
    have := counted_mark id' now (some (String.ofList (msg.toList.take 2000)))
      (show ControlCommandStatus.terminal .failed = true from rfl) h
    simpa [step, LocalOp.apply, LocalOp.queueOp, claimedNow, requeuedNow, BusOp.perform, BusOp.prog,
      runAlone_bind_ret, markCommandFailed] using this

/-- A terminal row stays terminal, and no step claims it. -/
theorem terminal_step {k : Nat} {id : String} {st : ControlCommandStatus} (hst : st.terminal = true)
    (t : Tally) (op : LocalOp) (h : t.bus.localStatus id = some st) :
    (step k id t op).claims = t.claims ∧ (step k id t op).bus.localStatus id = some st := by
  have hne : st ≠ .pending := by
    intro he
    rw [he] at hst
    cases hst
  constructor
  · cases op with
    | tryClaim id' now =>
      have hc : ¬ (id' = id ∧ t.bus.localStatus id' = some .pending) := by
        intro ⟨hid, hp⟩
        rw [hid, h] at hp
        exact hne (Option.some.inj hp)
      simpa [step, LocalOp.apply, LocalOp.queueOp, claimedNow, BusOp.perform, BusOp.prog,
        runAlone_bind_ret, tryClaim_local] using hc
    | crash => rfl
    | _ => simp [step, claimedNow]
  · have hkeep : ∀ q : BusOp, (q.perform [] t.bus).2.localStatus id = some st := fun q =>
      local_terminal_runAlone h hst [] q.prog
    cases op with
    | crash => exact h
    | _ => exact hkeep _

theorem terminal_run {k : Nat} {id : String} {st : ControlCommandStatus} (hst : st.terminal = true)
    (ops : List LocalOp) {t : Tally} (h : t.bus.localStatus id = some st) :
    (run (step k id) t ops).claims = t.claims := by
  induction ops generalizing t with
  | nil => rfl
  | cons op ops ih =>
    obtain ⟨hc, hs⟩ := terminal_step (k := k) hst t op h
    rw [run_cons, ih hs, hc]

/-- **Bounded claims on the local bus.** In every run from an empty table, a
command is claimed at most `k + 1` times, its attempts are its re-queues, and
from the moment it is completed or failed no continuation claims it. -/
theorem local_claims_bounded (k : Nat) (id : String) (ops : List LocalOp) :
    (run (step k id) start ops).claims ≤ k + 1 ∧
    (∀ r, (run (step k id) start ops).bus.sqlite.find id = some r →
      r.attempts = (run (step k id) start ops).requeues) ∧
    (∀ st, (run (step k id) start ops).bus.localStatus id = some st → st.terminal = true →
      ∀ later, (run (step k id) start (ops ++ later)).claims =
        (run (step k id) start ops).claims) := by
  have hinv : Counted k (run (step k id) start ops).claims (run (step k id) start ops).requeues
      ((run (step k id) start ops).bus.sqlite.find id) :=
    run_keeps (I := fun t : Tally => Counted k t.claims t.requeues (t.bus.sqlite.find id))
      counted_step (s := start) ⟨rfl, rfl⟩ ops
  refine ⟨hinv.claims_le, ?_, ?_⟩
  · intro r hr
    rw [hr] at hinv
    exact hinv.1
  · intro st hs hst later
    rw [run_append]
    exact terminal_run hst later hs

end TradingPlatform.Control.LocalBus
