import TradingPlatform.Engine.PreemptionLatch
import TradingPlatform.Execution.Orders
import TradingPlatform.Lib.LockTable
import TradingPlatform.Lib.Runs

/-! # The idempotent submitter

Any number of threads call `submit` on one submitter, each one step at a time.
What a callee answers, or that it raises, is the move's. The broker accepts an
order at some point of its `submit`, or not at all; a restart kills every call
and starts with an empty lock table. -/

namespace TradingPlatform.Execution.IdempotentSubmitter

open TradingPlatform.Engine TradingPlatform.Lib TradingPlatform.Lib.Runs
open TradingPlatform.Engine.PreemptionLatch (PreemptionCheckpoint)

structure EntryDecision where
  allowed : Bool
  blockReason : Option String := none
  deriving DecidableEq

/-- The arguments of one call: the intent, and which of the two checks it was given. -/
structure SubmitCall where
  intent : OrderIntent
  entryGuard : Bool := false
  preemptCheck : Bool := false
  deriving DecidableEq

inductive SubmitOutcome
  | result (order : BrokerOrder) (wasNoop : Bool)
  | entryBlocked (decision : EntryDecision) (legId symbol : String)
  | preempted (checkpoint : PreemptionCheckpoint) (level : RiskEscalationLevel)
  | raised (error : String)
  deriving DecidableEq

/-- Where a call stands, with the lock it is about to take or holds. -/
inductive Pc
  | start
  | locking (lock : Nat)
  | querying (lock : Nat)
  | guarding (lock : Nat)
  | polling (lock : Nat)
  | sending (lock : Nat)
  | submitting (lock : Nat) (accepted : Bool)
  | reporting (lock : Nat) (order : BrokerOrder)
  | releasing (lock : Nat) (outcome : SubmitOutcome)
  | done (outcome : SubmitOutcome)
  | killed (outcome : Option SubmitOutcome)
  deriving DecidableEq

structure Thread where
  call : SubmitCall
  pc : Pc := .start
  sent : Bool := false
  deriving DecidableEq

structure OrderRejected where
  kind : String := "order_rejected"
  legId : String
  symbol : String
  side : String
  clientOrderId : String
  qty : ℚ
  deriving DecidableEq

structure State where
  locks : LockTable String := {}
  threads : List Thread := []
  accepted : List OrderIntent := []
  reports : List OrderRejected := []

/-- What the callees of one step answer; each step reads its own. -/
structure Answers where
  error : Option String := none
  existing : Option BrokerOrder := none
  decision : EntryDecision := ⟨true, none⟩
  preempt : Bool := false
  level : RiskEscalationLevel := .nominal
  order : BrokerOrder
  deriving DecidableEq

inductive Move
  | call (call : SubmitCall)
  | run (t : Nat) (answers : Answers)
  | accept (t : Nat)
  | restart
  deriving DecidableEq

section Model
variable (lower sha256Hex : String → String)

def Thread.coid (th : Thread) : String := th.call.intent.clientOrderId lower sha256Hex

def State.put (s : State) (t : Nat) (th : Thread) (pc : Pc) : State :=
  { s with threads := s.threads.set t { th with pc } }

/-- The next step of a call. -/
def runThread (s : State) (t : Nat) (th : Thread) (a : Answers) : State :=
  let intent := th.call.intent
  match th.pc with
  | .start =>
    let (lock, locks) := s.locks.lockFor (th.coid lower sha256Hex)
    { s.put t th (.locking lock) with locks }
  | .locking lock =>
    match s.locks.acquire lock with
    | none => s
    | some locks => { s.put t th (.querying lock) with locks }
  | .querying lock =>
    match a.error, a.existing with
    | some error, _ => s.put t th (.releasing lock (.raised error))
    | none, some existing => s.put t th (.releasing lock (.result existing true))
    | none, none => s.put t th (.guarding lock)
  | .guarding lock =>
    if !th.call.entryGuard then s.put t th (.polling lock)
    else
      match a.error with
      | some error => s.put t th (.releasing lock (.raised error))
      | none =>
        if a.decision.allowed then s.put t th (.polling lock)
        else s.put t th (.releasing lock (.entryBlocked a.decision intent.legId intent.symbol))
  | .polling lock =>
    if !th.call.preemptCheck then s.put t th (.sending lock)
    else
      match a.error with
      | some error => s.put t th (.releasing lock (.raised error))
      | none =>
        if a.preempt then
          let checkpoint := ⟨"submit", "pre_send", some intent.legId, some intent.symbol⟩
          s.put t th (.releasing lock (.preempted checkpoint a.level))
        else s.put t th (.sending lock)
  | .sending lock => s.put t { th with sent := true } (.submitting lock false)
  | .submitting lock _ =>
    match a.error with
    | some error => s.put t th (.releasing lock (.raised error))
    | none =>
      if lower a.order.status = "rejected" then s.put t th (.reporting lock a.order)
      else s.put t th (.releasing lock (.result a.order false))
  | .reporting lock order =>
    match a.error with
    | some error => s.put t th (.releasing lock (.raised error))
    | none =>
      { s.put t th (.releasing lock (.result order false)) with
        reports := s.reports ++ [{
          legId := intent.legId
          symbol := intent.symbol
          side := intent.side
          clientOrderId := th.coid lower sha256Hex
          qty := intent.qty }] }
  | .releasing lock outcome => { s.put t th (.done outcome) with locks := s.locks.release lock }
  | .done _ => s
  | .killed _ => s

/-- The broker accepts the order of a call that is inside `broker.submit`. -/
def acceptOrder (s : State) (t : Nat) (th : Thread) : State :=
  match th.pc with
  | .submitting lock false =>
    { s.put t th (.submitting lock true) with accepted := s.accepted ++ [th.call.intent] }
  | _ => s

/-- How a call ended, or was about to end. -/
def Thread.outcome? (th : Thread) : Option SubmitOutcome :=
  match th.pc with
  | .releasing _ outcome | .done outcome => some outcome
  | .killed outcome => outcome
  | _ => none

def Thread.kill (th : Thread) : Thread :=
  match th.pc with
  | .done _ => th
  | _ => { th with pc := .killed th.outcome? }

def step (s : State) : Move → State
  | .call call => { s with threads := s.threads ++ [{ call }] }
  | .run t a => (s.threads[t]?).elim s fun th => runThread lower sha256Hex s t th a
  | .accept t => (s.threads[t]?).elim s fun th => acceptOrder s t th
  | .restart => { s with locks := {}, threads := s.threads.map Thread.kill }

def Pc.asks : Pc → Bool
  | .querying _ => true
  | _ => false

/-- `get_by_client_order_id` returns every accepted order. -/
def FindsAccepted (s : State) : Move → Prop
  | .run t a => ∀ th ∈ s.threads[t]?, th.pc.asks = true → a.error = none →
      th.coid lower sha256Hex ∈ s.accepted.map (·.clientOrderId lower sha256Hex) →
      a.existing.isSome = true
  | _ => True

/-! ## The invariant -/

def Thread.grip (th : Thread) : Grip String :=
  match th.pc with
  | .start | .done _ | .killed _ => .none
  | .locking lock => .wants (th.coid lower sha256Hex) lock
  | .querying lock | .guarding lock | .polling lock | .sending lock | .submitting lock _
  | .reporting lock _ | .releasing lock _ => .holds (th.coid lower sha256Hex) lock

/-- The query found nothing, and nothing has been accepted for the call since. -/
def Pc.cleared : Pc → Bool
  | .guarding _ | .polling _ | .sending _ | .submitting _ false => true
  | _ => false

/-- What an outcome says about the send. -/
def SubmitOutcome.Tells : SubmitOutcome → Bool → Prop
  | .result _ wasNoop, sent => wasNoop = false → sent = true
  | .entryBlocked .., sent => sent = false
  | .preempted .., sent => sent = false
  | .raised _, _ => True

def Pc.Sent : Pc → Bool → Prop
  | .start, sent | .locking _, sent | .querying _, sent | .guarding _, sent | .polling _, sent
  | .sending _, sent => sent = false
  | .submitting .., sent | .reporting .., sent => sent = true
  | .releasing _ outcome, sent | .done outcome, sent => outcome.Tells sent
  | .killed outcome, sent => ∀ o ∈ outcome, o.Tells sent

structure Safe (s : State) : Prop where
  locks : s.locks.Excludes (s.threads.map (Thread.grip lower sha256Hex))
  cleared : ∀ th ∈ s.threads, th.pc.cleared = true →
    th.coid lower sha256Hex ∉ s.accepted.map (·.clientOrderId lower sha256Hex)
  once : (s.accepted.map (·.clientOrderId lower sha256Hex)).Nodup
  sent : ∀ th ∈ s.threads, th.pc.Sent th.sent

variable {lower sha256Hex} {s : State} {t : Nat} {th : Thread}

/-- One thread moves on: the other threads keep what they had. -/
theorem Safe.advance (h : Safe lower sha256Hex s) {th' : Thread} {locks : LockTable String}
    {reports : List OrderRejected}
    (hlocks : locks.Excludes
      ((s.threads.map (Thread.grip lower sha256Hex)).set t (th'.grip lower sha256Hex)))
    (hcleared : th'.pc.cleared = true →
      th'.coid lower sha256Hex ∉ s.accepted.map (·.clientOrderId lower sha256Hex))
    (hsent : th'.pc.Sent th'.sent) :
    Safe lower sha256Hex ⟨locks, s.threads.set t th', s.accepted, reports⟩ where
  locks := by rwa [List.map_set]
  cleared th'' hmem := by
    rcases List.mem_or_eq_of_mem_set hmem with hold | rfl
    · exact h.cleared th'' hold
    · exact hcleared
  once := h.once
  sent th'' hmem := by
    rcases List.mem_or_eq_of_mem_set hmem with hold | rfl
    · exact h.sent th'' hold
    · exact hsent

theorem set_grip {g : Grip String} {gs : List (Grip String)} (h : gs[t]? = some g) :
    gs.set t g = gs := by
  obtain ⟨hlt, rfl⟩ := List.getElem?_eq_some_iff.mp h
  exact List.set_getElem_self hlt

/-- A step that neither takes nor gives up a lock. -/
theorem Safe.put (h : Safe lower sha256Hex s) (ht : s.threads[t]? = some th) {th' : Thread} {pc : Pc}
    (hcall : th'.call = th.call)
    (hgrip : (Thread.mk th'.call pc th'.sent).grip lower sha256Hex = th.grip lower sha256Hex)
    (hcleared : pc.cleared = true →
      th.coid lower sha256Hex ∉ s.accepted.map (·.clientOrderId lower sha256Hex))
    (hsent : pc.Sent th'.sent) : Safe lower sha256Hex (s.put t th' pc) := by
  have hget : (s.threads.map (Thread.grip lower sha256Hex))[t]? =
      some ((Thread.mk th'.call pc th'.sent).grip lower sha256Hex) := by
    rw [List.getElem?_map, ht, hgrip]
    rfl
  have hcoid : (Thread.mk th'.call pc th'.sent).coid lower sha256Hex = th.coid lower sha256Hex := by
    rw [Thread.coid, Thread.coid, hcall]
  refine h.advance ?_ (fun hc => ?_) hsent
  · rw [set_grip hget]
    exact h.locks
  · rw [hcoid]
    exact hcleared hc

theorem Safe.report (h : Safe lower sha256Hex s) (reports : List OrderRejected) :
    Safe lower sha256Hex { s with reports } := ⟨h.locks, h.cleared, h.once, h.sent⟩

theorem safe_runThread (h : Safe lower sha256Hex s) (ht : s.threads[t]? = some th) (a : Answers)
    (hfinds : FindsAccepted lower sha256Hex s (.run t a)) :
    Safe lower sha256Hex (runThread lower sha256Hex s t th a) := by
  have hmem := List.mem_of_getElem? ht
  have hgrip : (s.threads.map (Thread.grip lower sha256Hex))[t]? =
      some (th.grip lower sha256Hex) := by
    rw [List.getElem?_map, ht]
    rfl
  have hcleared := h.cleared th hmem
  have hsent := h.sent th hmem
  have hfound := hfinds th ht
  obtain ⟨call, pc, sent⟩ := th
  cases pc with
  | start =>
    exact h.advance (h.locks.lockFor _) nofun hsent
  | locking lock =>
    simp only [runThread]
    split
    · exact h
    · rename_i locks hacq
      exact h.advance (h.locks.acquire hgrip hacq) nofun hsent
  | querying lock =>
    simp only [runThread]
    split
    · exact h.put ht rfl rfl nofun trivial
    · exact h.put ht rfl rfl nofun nofun
    · rename_i herror hnone
      refine h.put ht rfl rfl (fun _ hin => ?_) hsent
      have hsome := hfound rfl herror hin
      rw [hnone] at hsome
      cases hsome
  | guarding lock =>
    simp only [runThread]
    split
    · exact h.put ht rfl rfl (fun _ => hcleared rfl) hsent
    split
    · exact h.put ht rfl rfl nofun trivial
    split
    · exact h.put ht rfl rfl (fun _ => hcleared rfl) hsent
    · exact h.put ht rfl rfl nofun hsent
  | polling lock =>
    simp only [runThread]
    split
    · exact h.put ht rfl rfl (fun _ => hcleared rfl) hsent
    split
    · exact h.put ht rfl rfl nofun trivial
    split
    · exact h.put ht rfl rfl nofun hsent
    · exact h.put ht rfl rfl (fun _ => hcleared rfl) hsent
  | sending lock => exact h.put ht rfl rfl (fun _ => hcleared rfl) rfl
  | submitting lock accepted =>
    simp only [runThread]
    split
    · exact h.put ht rfl rfl nofun trivial
    split
    · exact h.put ht rfl rfl nofun hsent
    · exact h.put ht rfl rfl nofun fun _ => hsent
  | reporting lock order =>
    simp only [runThread]
    split
    · exact h.put ht rfl rfl nofun trivial
    · have hput : Safe lower sha256Hex (s.put t _ (.releasing lock (.result order false))) :=
        h.put ht rfl rfl nofun fun _ => hsent
      exact hput.report _
  | releasing lock outcome => exact h.advance (h.locks.release hgrip) nofun hsent
  | done outcome => exact h
  | killed outcome => exact h

variable (lower sha256Hex) in
/-- A call whose query is still good holds its id's lock. -/
theorem grip_of_cleared (h : th.pc.cleared = true) :
    ∃ lock, th.grip lower sha256Hex = .holds (th.coid lower sha256Hex) lock := by
  obtain ⟨call, pc, sent⟩ := th
  cases pc with
  | guarding lock => exact ⟨lock, rfl⟩
  | polling lock => exact ⟨lock, rfl⟩
  | sending lock => exact ⟨lock, rfl⟩
  | submitting lock accepted => exact ⟨lock, rfl⟩
  | _ => cases h

/-- No other call is past its query of the same id. -/
theorem Safe.one_cleared (h : Safe lower sha256Hex s) {i j : Nat} {th' : Thread}
    (hi : s.threads[i]? = some th) (hj : s.threads[j]? = some th') (hc : th.pc.cleared = true)
    (hc' : th'.pc.cleared = true) (hid : th.coid lower sha256Hex = th'.coid lower sha256Hex) :
    i = j := by
  obtain ⟨lock, hgrip⟩ := grip_of_cleared lower sha256Hex hc
  obtain ⟨lock', hgrip'⟩ := grip_of_cleared lower sha256Hex hc'
  rw [← hid] at hgrip'
  have hget : (s.threads.map (Thread.grip lower sha256Hex))[i]? =
      some (.holds (th.coid lower sha256Hex) lock) := by
    rw [List.getElem?_map, hi, ← hgrip]
    rfl
  have hget' : (s.threads.map (Thread.grip lower sha256Hex))[j]? =
      some (.holds (th.coid lower sha256Hex) lock') := by
    rw [List.getElem?_map, hj, ← hgrip']
    rfl
  exact h.locks.one_holder hget hget'

theorem safe_acceptOrder (h : Safe lower sha256Hex s) (ht : s.threads[t]? = some th) :
    Safe lower sha256Hex (acceptOrder s t th) := by
  unfold acceptOrder
  split
  swap
  · exact h
  rename_i lock hpc
  have hmem := List.mem_of_getElem? ht
  have hclear : th.pc.cleared = true := by rw [hpc]; rfl
  have hsent := h.sent th hmem
  rw [hpc] at hsent
  have hgrip : (Thread.mk th.call (.submitting lock true) th.sent).grip lower sha256Hex =
      th.grip lower sha256Hex := by
    obtain ⟨call, pc, sent⟩ := th
    cases hpc
    rfl
  have hput : Safe lower sha256Hex (s.put t th (.submitting lock true)) :=
    h.put ht rfl hgrip nofun hsent
  refine ⟨hput.locks, fun th' hmem' hclear' hin => ?_, ?_, hput.sent⟩
  · rw [List.map_append, List.mem_append] at hin
    rcases hin with hold | hnew
    · exact hput.cleared th' hmem' hclear' hold
    · -- another call past its query would hold the lock of the accepted id too
      have hid : th'.coid lower sha256Hex = th.coid lower sha256Hex :=
        List.mem_singleton.mp hnew
      obtain ⟨j, hj⟩ := List.mem_iff_getElem?.mp hmem'
      rw [State.put, List.getElem?_set] at hj
      split at hj
      · split at hj
        · cases hj
          cases hclear'
        · cases hj
      · rename_i hne
        exact hne (h.one_cleared ht hj hclear hclear' hid.symm)
  · rw [List.map_append, List.map_singleton]
    exact h.once.append (List.nodup_singleton _)
      (List.disjoint_singleton.mpr (h.cleared th hmem hclear))

theorem tells_of_sent (h : th.pc.Sent th.sent) : ∀ outcome ∈ th.outcome?, outcome.Tells th.sent := by
  obtain ⟨call, pc, sent⟩ := th
  cases pc with
  | releasing lock outcome =>
    rintro _ ⟨⟩
    exact h
  | done outcome =>
    rintro _ ⟨⟩
    exact h
  | killed outcome => exact h
  | _ => exact nofun

variable (lower sha256Hex) in
theorem kill_spec (th : Thread) :
    th.kill.grip lower sha256Hex = .none ∧ th.kill.pc.cleared = false ∧
      (th.pc.Sent th.sent → th.kill.pc.Sent th.kill.sent) := by
  unfold Thread.kill
  split
  · rename_i outcome hpc
    refine ⟨?_, by rw [hpc]; rfl, id⟩
    rw [Thread.grip, hpc]
  · exact ⟨rfl, rfl, tells_of_sent⟩

theorem safe_step (mv : Move) (h : Safe lower sha256Hex s)
    (hfinds : FindsAccepted lower sha256Hex s mv) :
    Safe lower sha256Hex (step lower sha256Hex s mv) := by
  cases mv with
  | call call =>
    refine ⟨?_, fun th hth hc => ?_, h.once, fun th hth => ?_⟩
    · show s.locks.Excludes ((s.threads ++ [_]).map _)
      rw [List.map_append]
      exact h.locks.spawn
    · rcases List.mem_append.mp hth with hold | hnew
      · exact h.cleared th hold hc
      · rw [List.mem_singleton.mp hnew] at hc
        cases hc
    · rcases List.mem_append.mp hth with hold | hnew
      · exact h.sent th hold
      · rw [List.mem_singleton.mp hnew]
        exact rfl
  | run t a =>
    rw [step]
    cases ht : s.threads[t]? with
    | none => exact h
    | some th => exact safe_runThread h ht a hfinds
  | accept t =>
    rw [step]
    cases ht : s.threads[t]? with
    | none => exact h
    | some th => exact safe_acceptOrder h ht
  | restart =>
    refine ⟨LockTable.excludes_idle _ fun g hg => ?_, fun th hth hc => ?_, h.once, fun th hth => ?_⟩
    · obtain ⟨th', hth', rfl⟩ := List.mem_map.mp hg
      obtain ⟨th, -, rfl⟩ := List.mem_map.mp hth'
      exact (kill_spec lower sha256Hex th).1
    · obtain ⟨th, -, rfl⟩ := List.mem_map.mp hth
      rw [(kill_spec lower sha256Hex th).2.1] at hc
      cases hc
    · obtain ⟨th, hold, rfl⟩ := List.mem_map.mp hth
      exact (kill_spec lower sha256Hex th).2.2 (h.sent th hold)

theorem safe_start : Safe lower sha256Hex {} where
  locks := LockTable.excludes_idle _ fun _ hg => absurd hg List.not_mem_nil
  cleared _ hth := absurd hth List.not_mem_nil
  once := List.nodup_nil
  sent _ hth := absurd hth List.not_mem_nil

/-- **At most one order an id**, in every interleaving of calls, acceptances and
restarts. A call that was blocked or preempted sent nothing, and one that
reports no no-op did. -/
theorem submit_at_most_once (lower sha256Hex : String → String) (mvs : List Move)
    (hfinds : Along (step lower sha256Hex) (FindsAccepted lower sha256Hex) {} mvs) :
    ((run (step lower sha256Hex) {} mvs).accepted.map
        (·.clientOrderId lower sha256Hex)).Nodup ∧
      ∀ th ∈ (run (step lower sha256Hex) {} mvs).threads, ∀ outcome ∈ th.outcome?,
        outcome.Tells th.sent := by
  have h := run_invariant (fun s mv hs => safe_step mv hs) mvs safe_start hfinds
  exact ⟨h.once, fun th hth => tells_of_sent (h.sent th hth)⟩

end Model

instance (lower sha256Hex : String → String) (s : State) (mv : Move) :
    Decidable (FindsAccepted lower sha256Hex s mv) := by
  cases mv <;> dsimp only [FindsAccepted] <;> infer_instance

def qqqBuy : SubmitCall := ⟨⟨"leg", "QQQ", "buy", 10, "t0", 1⟩, true, true⟩

def qqqOrder : BrokerOrder := { clientOrderId := "c1", symbol := "QQQ", side := "buy", qty := 10 }

/-- Two calls with one intent; the broker accepts the first one's order and then
raises. A third call comes after a restart. -/
def storm : List Move :=
  let ok : Answers := { order := qqqOrder }
  let finds : Answers := { order := qqqOrder, existing := some qqqOrder }
  [.call qqqBuy, .call qqqBuy, .run 0 ok, .run 1 ok, .run 0 ok, .run 1 ok, .run 0 ok, .run 0 ok,
    .run 0 ok, .run 0 ok, .accept 0, .run 0 { ok with error := some "timeout" }, .run 0 ok,
    .run 1 ok, .run 1 finds, .run 1 finds, .restart, .call qqqBuy, .run 2 ok, .run 2 ok,
    .run 2 finds, .run 2 finds]

theorem storm_accepts_one :
    ((run (step id id) {} storm).accepted.map (·.clientOrderId id id)).Nodup ∧
      (run (step id id) {} storm).accepted = [qqqBuy.intent] ∧
      (run (step id id) {} storm).threads.map (·.pc) =
        [.done (.raised "timeout"), .done (.result qqqOrder true),
          .done (.result qqqOrder true)] := by
  refine ⟨(submit_at_most_once id id storm ?_).1, ?_, ?_⟩
  all_goals decide +kernel

end TradingPlatform.Execution.IdempotentSubmitter
