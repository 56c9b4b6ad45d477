import TradingPlatform.Control.QueueSpec
import TradingPlatform.Lib.Interleave

/-! # Claims under interleaving

Any number of pollers, enqueuers, markers, mirrors and reclaims take turns at
single statements. A claim that wins Supabase's compare-and-set still has to
drive the local mirror before it returns, so a command is taken either by a
claim that has returned `True` or by one that is driving. A command taken on
Supabase stays off pending there; a command taken locally is off pending in
SQLite and not on Supabase. -/

namespace TradingPlatform.Control.ExactlyOnce

open TradingPlatform.Lib TradingPlatform.Lib.Prog TradingPlatform.Lib.Runs
open TradingPlatform.Lib.Interleave

abbrev Pollers := Config Bus BusOp BusCall BusCall.Resp BusReply

abbrev Turn := Move BusOp Fault

/-- One turn of the scheduler: a new operation, or one statement of a running one. -/
def turn : Pollers → Turn → Pollers := move BusOp.prog answer

/-! ## Counting claims -/

/-- A re-queue that hit the row starts the count anew; a claim of `id` that
returns `True` adds one. -/
def tallyClaim (id : String) (n : Nat) : Event BusOp BusCall BusCall.Resp BusReply → Nat
  | .called _ (.requeueLocal id' _) hit _ => if id' = id ∧ 0 < hit then 0 else n
  | .called (.tryClaim _ id' _) _ _ (some (.claimed true)) => if id' = id then n + 1 else n
  | _ => n

/-- How often claims of `id` returned `True` since its last re-queue. -/
def claimsSince (id : String) (log : List (Event BusOp BusCall BusCall.Resp BusReply)) : Nat :=
  log.foldl (tallyClaim id) 0

/-- A claim of `id` that has won on Supabase and is about to drive the mirror. -/
def driving (id : String) : Thread BusOp BusCall BusCall.Resp BusReply → Bool
  | ⟨.tryClaim _ id' _, .call (.driveLocal ..) _⟩ => decide (id' = id)
  | _ => false

/-- Some claim of `id` has won since its last re-queue. -/
def Taken (id : String) (cfg : Pollers) : Prop :=
  0 < claimsSince id cfg.log + cfg.threads.countP (driving id)

/-! ## What a claim in progress can do -/

/-- From here the claim drives the mirror and returns `True`. -/
def Drives (id : String) : BusProg BusReply → Prop
  | .call (.driveLocal id' _) k => id' = id ∧ ∀ n, k n = .ret (.claimed true)
  | _ => False

/-- From here the claim returns `True` only through a compare-and-set it wins. -/
def Contending (id : String) : BusProg BusReply → Prop
  | .ret r => r = .claimed false
  | .call (.claimRemote id' _) k => id' = id ∧ (∀ r rest, Drives id (k (.ok (r :: rest)))) ∧
      Contending id (k (.ok [])) ∧ ∀ e, Contending id (k (.error e))
  | .call (.selectRemoteId _) k => ∀ r, Contending id (k r)
  | .call (.claimLocal id' _) k => id' = id ∧ ∀ n : Nat, k n = .ret (.claimed (decide (0 < n)))
  | _ => False

/-- Where a claim of `id` can be. -/
def ClaimAt (id : String) (p : BusProg BusReply) : Prop :=
  Contending id p ∨ Drives id p ∨ p = .ret (.claimed true)

theorem contending_local (id now : String) :
    Contending id (BusReply.claimed <$> claimLocalCopy id now) := ⟨rfl, fun _ => rfl⟩

theorem contending_unlessOwned (id now : String) :
    Contending id (BusReply.claimed <$> claimUnlessOwned id now) := by
  intro r
  match r with
  | .ok (_ :: _) => rfl
  | .ok [] => exact contending_local id now
  | .error _ => exact contending_local id now

theorem contending_tryClaim (client : Bool) (id now : String) :
    Contending id (BusReply.claimed <$> tryClaimCommand client id now) := by
  cases client with
  | false => exact contending_local id now
  | true =>
    refine ⟨rfl, fun r rest => ⟨rfl, fun n => rfl⟩, ?_, fun e => ?_⟩
    · exact contending_unlessOwned id now
    · exact contending_unlessOwned id now

/-- A claim stays where a claim can be, whatever it is answered. -/
theorem ClaimAt.next {id : String} {c : BusCall} {k : c.Resp → BusProg BusReply}
    (h : ClaimAt id (.call c k)) (r : c.Resp) : ClaimAt id (k r) := by
  rcases h with hc | hd | hr
  · cases c with
    | claimRemote id' now =>
      obtain ⟨_, hwin, hnone, herr⟩ := hc
      match r with
      | .ok (x :: rest) => exact .inr (.inl (hwin x rest))
      | .ok [] => exact .inl hnone
      | .error e => exact .inl (herr e)
    | selectRemoteId id' => exact .inl (hc r)
    | claimLocal id' now =>
      obtain ⟨_, hk⟩ := hc
      rw [hk r]
      by_cases hn : 0 < r
      · exact .inr (.inr (by simp [hn]))
      · exact .inl (by simp [hn, Contending])
    | _ => exact hc.elim
  · cases c with
    | driveLocal id' now => exact .inr (.inr (hd.2 r))
    | _ => exact hd.elim
  · cases hr

/-- What is known of every thread: it sends its operation's statements, and a
claim is where a claim can be. -/
def ThreadOk (op : BusOp) (p : BusProg BusReply) : Prop :=
  AllCalls (Issues op) p ∧ ∀ client id now, op = .tryClaim client id now → ClaimAt id p

theorem threadOk_prog (op : BusOp) : ThreadOk op op.prog := by
  refine ⟨prog_issues op, ?_⟩
  intro client id now hop
  subst hop
  exact .inl (contending_tryClaim client id now)

theorem threadOk_next (op : BusOp) (c : BusCall) (k : c.Resp → BusProg BusReply) (r : c.Resp)
    (h : ThreadOk op (.call c k)) : ThreadOk op (k r) :=
  ⟨h.1.2 r, fun client id now hop => (h.2 client id now hop).next r⟩

/-! ## What one statement does to the count -/

/-- The claims counted and the claims driving, before and after one statement. -/
inductive Effect (id : String) (f : Fault) (b : Bus) : BusCall → Nat → Nat → Nat → Nat → Prop
  | other {c n d} : (∀ m, c = .requeueLocal id m → b.localStatus id ≠ some .processing) →
      Effect id f b c n d n d
  | requeued {m n d} : Effect id f b (.requeueLocal id m) n d 0 d
  | wonRemote {now n d} : f.reaches = true → b.remoteStatus id = some .pending →
      Effect id f b (.claimRemote id now) n d n (d + 1)
  | wonLocal {now n d} : b.localStatus id = some .pending →
      Effect id f b (.claimLocal id now) n d (n + 1) d
  | drove {now n d} : Effect id f b (.driveLocal id now) n (d + 1) (n + 1) d

/-- A status-guarded update of SQLite hits its row exactly when the status is there. -/
theorem localIs_hit (b : Bus) (id : String) (st : ControlCommandStatus) :
    0 < (b.sqlite.rows.filter (localIs id st)).length ↔ b.localStatus id = some st := by
  rw [localIs_length]
  unfold Bus.localStatus
  split
  · rename_i h
    exact iff_of_true Nat.one_pos h
  · rename_i h
    exact iff_of_false (Nat.lt_irrefl 0) h

theorem requeue_hit (f : Fault) (b : Bus) (id : String) (m : Nat) :
    0 < respond f (.requeueLocal id m) b ↔ b.localStatus id = some .processing :=
  localIs_hit b id .processing

theorem claimLocal_hit (f : Fault) (b : Bus) (id now : String) :
    0 < respond f (.claimLocal id now) b ↔ b.localStatus id = some .pending :=
  localIs_hit b id .pending

/-- Supabase answers a compare-and-set with a row only if it was pending. -/
theorem claimRemote_hit {f : Fault} {b : Bus} {id now : String} {x : CommandRow}
    {rest : List CommandRow} (h : respond f (.claimRemote id now) b = .ok (x :: rest)) :
    f.reaches = true ∧ b.remoteStatus id = some .pending := by
  simp only [respond, Fault.deliver] at h
  split at h
  · rename_i hf
    refine ⟨by rw [hf]; rfl, ?_⟩
    rw [remoteIs_filter] at h
    unfold Bus.remoteStatus
    cases hr : b.supabase.find id with
    | none => simp [hr] at h
    | some r =>
      by_cases hst : r.status = .pending
      · simp [hst]
      · simp [hr, Option.filter, hst] at h
  · cases h

/-! ## Reading the log -/

section Tally

variable {id : String} {n : Nat} {op : BusOp} {c : BusCall} {r : c.Resp}
  {res : Option BusReply}

theorem tally_quiet (hc : ∀ id' m, c ≠ .requeueLocal id' m) (hres : res ≠ some (.claimed true)) :
    tallyClaim id n (.called op c r res) = n := by
  unfold tallyClaim
  split
  · rename_i he
    cases he
    exact absurd rfl (hc _ _)
  · rename_i he
    cases he
    exact absurd rfl hres
  · rfl

theorem tally_elsewhere (hc : ∀ id' m, c ≠ .requeueLocal id' m)
    (hop : ∀ client now, op ≠ .tryClaim client id now) :
    tallyClaim id n (.called op c r res) = n := by
  unfold tallyClaim
  split
  · rename_i he
    cases he
    exact absurd rfl (hc _ _)
  · rename_i id' now c' r' he
    cases he
    rw [if_neg]
    intro hid
    subst hid
    exact hop _ _ rfl
  · rfl

theorem tally_returned {client : Bool} {now : String} (hc : ∀ id' m, c ≠ .requeueLocal id' m) :
    tallyClaim id n (.called (.tryClaim client id now) c r (some (.claimed true))) = n + 1 := by
  cases c with
  | requeueLocal id' m => exact absurd rfl (hc id' m)
  | _ => simp [tallyClaim]

end Tally

theorem Drives.shape {id : String} {p : BusProg BusReply} (h : Drives id p) (client : Bool)
    (now : String) :
    driving id ⟨.tryClaim client id now, p⟩ = true ∧ result? p = none := by
  cases p with
  | ret a => exact h.elim
  | call c k =>
    cases c with
    | driveLocal id' now' => exact ⟨by simp [driving], rfl⟩
    | _ => exact h.elim

theorem Contending.shape {id : String} {p : BusProg BusReply} (h : Contending id p) (op : BusOp) :
    driving id ⟨op, p⟩ = false ∧ result? p ≠ some (.claimed true) := by
  cases p with
  | ret a =>
    have ha : a = .claimed false := h
    subst ha
    exact ⟨by cases op <;> rfl, by simp⟩
  | call c k =>
    cases c with
    | driveLocal id' now' => exact h.elim
    | _ => exact ⟨by cases op <;> rfl, by simp⟩

theorem driving_elsewhere {id : String} {op : BusOp}
    (hop : ∀ client now, op ≠ .tryClaim client id now) (p : BusProg BusReply) :
    driving id ⟨op, p⟩ = false := by
  unfold driving
  split
  · rename_i client id' now' c' hk
    cases hk
    refine decide_eq_false fun hid => ?_
    subst hid
    exact hop _ _ rfl
  · rfl

/-- A statement of any operation but the claim moves the count only by requeueing. -/
theorem call_effect_elsewhere {id : String} {op : BusOp}
    (hop : ∀ client now, op ≠ .tryClaim client id now) (f : Fault) (c : BusCall) (b : Bus)
    (n d : Nat) (res : Option BusReply) :
    Effect id f b c n d (tallyClaim id n (.called op c (respond f c b) res)) d := by
  by_cases hreq : ∃ m, c = .requeueLocal id m
  · obtain ⟨m, rfl⟩ := hreq
    by_cases hp : b.localStatus id = some .processing
    · have hhit := (requeue_hit f b id m).mpr hp
      simp only [tallyClaim, true_and, if_pos hhit]
      exact .requeued
    · have hhit : ¬ 0 < respond f (.requeueLocal id m) b := fun h => hp ((requeue_hit f b id m).mp h)
      simp only [tallyClaim, true_and, if_neg hhit]
      exact .other fun _ _ => hp
  · have htally : tallyClaim id n (.called op c (respond f c b) res) = n := by
      cases c with
      | requeueLocal id' m =>
        have hne : id' ≠ id := by
          intro he
          exact hreq ⟨m, he ▸ rfl⟩
        simp [tallyClaim, hne]
      | _ => exact tally_elsewhere (by simp) hop
    rw [htally]
    exact .other fun m he => absurd ⟨m, he⟩ hreq

/-- A statement of a claim that has not won yet either leaves the count alone or
wins on the bus it updates. -/
theorem call_effect_contending {id now : String} {client : Bool} {c : BusCall}
    {k : c.Resp → BusProg BusReply} (hcon : Contending id (.call c k)) (f : Fault) (b : Bus)
    {n d d' : Nat}
    (hd : d' = d + (driving id ⟨.tryClaim client id now, k (respond f c b)⟩).toNat) :
    Effect id f b c n d
      (tallyClaim id n (.called (.tryClaim client id now) c (respond f c b)
        (result? (k (respond f c b))))) d' := by
  -- what is left when the answer settles nothing
  have hnext : Contending id (k (respond f c b)) → (∀ id' m, c ≠ .requeueLocal id' m) →
      Effect id f b c n d
        (tallyClaim id n (.called (.tryClaim client id now) c (respond f c b)
          (result? (k (respond f c b))))) d' := by
    intro hr hc
    obtain ⟨hnd, hnr⟩ := hr.shape (.tryClaim client id now)
    rw [hnd] at hd
    simp only [Bool.toNat_false, Nat.add_zero] at hd
    rw [tally_quiet hc hnr, hd]
    exact .other fun m he => absurd he (hc id m)
  cases c with
  | claimRemote id' now' =>
    obtain ⟨hid, hwin, hnone, herr⟩ := hcon
    subst hid
    cases hresp : respond f (.claimRemote id' now') b with
    | error e => exact hresp ▸ hnext (hresp ▸ herr e) (by simp)
    | ok rows =>
      cases rows with
      | nil => exact hresp ▸ hnext (hresp ▸ hnone) (by simp)
      | cons x rest =>
        obtain ⟨hnd, hnr⟩ := (hwin x rest).shape client now
        obtain ⟨hf, hp⟩ := claimRemote_hit hresp
        rw [hresp, hnd] at hd
        rw [hnr, tally_quiet (by simp) (by simp), hd]
        exact .wonRemote hf hp
  | selectRemoteId id' => exact hnext (hcon _) (by simp)
  | claimLocal id' now' =>
    obtain ⟨hid, hk⟩ := hcon
    subst hid
    have hd' : d' = d := by simpa [driving, hk] using hd
    rw [hk, hd', result?_ret]
    by_cases hhit : 0 < respond f (.claimLocal id' now') b
    · rw [decide_eq_true hhit, tally_returned (by simp)]
      exact .wonLocal ((claimLocal_hit f b id' now').mp hhit)
    · rw [decide_eq_false hhit, tally_quiet (by simp) (by simp)]
      exact .other (by simp)
  | _ => exact hcon.elim

/-- **One statement of a running thread** changes the count in one of five ways. -/
theorem call_effect {id : String} {op : BusOp} {c : BusCall} {k : c.Resp → BusProg BusReply}
    (hok : ThreadOk op (.call c k)) (f : Fault) (b : Bus) {n d d' : Nat}
    (hd : d' + (driving id ⟨op, .call c k⟩).toNat =
      d + (driving id ⟨op, k (respond f c b)⟩).toNat) :
    Effect id f b c n d
      (tallyClaim id n (.called op c (respond f c b) (result? (k (respond f c b))))) d' := by
  by_cases hop : ∃ client now, op = .tryClaim client id now
  · obtain ⟨client, now, rfl⟩ := hop
    rcases hok.2 client id now rfl with hcon | hdrv | hret
    · rw [(hcon.shape _).1] at hd
      exact call_effect_contending hcon f b (by simpa using hd)
    · -- the claim drives the mirror and returns
      cases c with
      | driveLocal id' now' =>
        obtain ⟨hid, hk⟩ := hdrv
        subst hid
        have hd' : d = d' + 1 := by simpa [driving, hk] using hd.symm
        rw [hk, hd', result?_ret, tally_returned (by simp)]
        exact .drove
      | _ => exact hdrv.elim
    · cases hret
  · have hop' : ∀ client now, op ≠ .tryClaim client id now := fun client now he =>
      hop ⟨client, now, he⟩
    rw [driving_elsewhere hop', driving_elsewhere hop'] at hd
    have hd' : d' = d := by simpa using hd
    rw [hd']
    exact call_effect_elsewhere hop' f c b n d _

/-! ## What keeps a taken command taken -/

/-- The statements that could offer a command again, and when they may: a local
compare-and-set wins only while Supabase has no row of the command, and no
pending row of it lands on Supabase while it is taken. -/
def OrderlyCall (id : String) (taken : Prop) (f : Fault) (b : Bus) : BusCall → Prop
  | .claimLocal id' _ =>
    id' = id → b.localStatus id = some .pending → b.remoteStatus id = none
  | .upsertRemote row =>
    row.commandId = id → row.status = .pending → f.reaches = true →
      (b.supabase.upsert row).isSome = true → ¬ taken
  | .insertRemote row =>
    row.commandId = id → f.reaches = true → (b.supabase.insert row).isSome = true → ¬ taken
  | _ => True

instance (id : String) (taken : Prop) [Decidable taken] (f : Fault) (b : Bus) (c : BusCall) :
    Decidable (OrderlyCall id taken f b c) := by
  cases c <;> dsimp only [OrderlyCall] <;> infer_instance

instance (id : String) (cfg : Pollers) : Decidable (Taken id cfg) :=
  inferInstanceAs (Decidable (0 < _))

/-- The next turn meets these conditions. -/
def Orderly (id : String) (cfg : Pollers) (mv : Turn) : Prop :=
  OnCall (fun f c b => OrderlyCall id (Taken id cfg) f b c) cfg mv

instance (id : String) (cfg : Pollers) (mv : Turn) : Decidable (Orderly id cfg mv) :=
  inferInstanceAs (Decidable (OnCall _ cfg mv))

/-- Supabase holds the command, and not as pending. -/
def Owned (id : String) (b : Bus) : Prop :=
  ∃ st, b.remoteStatus id = some st ∧ st ≠ .pending

/-- No bus that decides offers the command. -/
def Held (id : String) (b : Bus) : Prop :=
  b.remoteStatus id ≠ some .pending ∧
    (b.remoteStatus id = none → ∃ st, b.localStatus id = some st ∧ st ≠ .pending)

theorem Owned.held {id : String} {b : Bus} (h : Owned id b) : Held id b := by
  obtain ⟨st, hst, hne⟩ := h
  constructor
  · rw [hst]
    intro he
    exact hne (Option.some.inj he)
  · intro hnone
    rw [hst] at hnone
    cases hnone

/-- The statuses an operation's marks set are terminal. -/
theorem Issues.mark_terminal {op : BusOp} {id now : String} {st : ControlCommandStatus}
    {err : Option String} (h : Issues op (.markRemote id st now err) ∨
      Issues op (.markLocal id st now err)) : st ≠ .pending := by
  rcases h with h | h <;> cases op <;> first | exact h.elim | (rw [h.2]; simp)

theorem owned_after {id : String} {f : Fault} {b : Bus} {op : BusOp} {c : BusCall} {taken : Prop}
    (ht : taken) (hiss : Issues op c) (hord : OrderlyCall id taken f b c) (h : Owned id b) :
    Owned id (after f c b) := by
  obtain ⟨st, hst, hne⟩ := h
  have hstep := remoteStep_after f c b id
  generalize hs : (after f c b).remoteStatus id = s' at hstep
  cases hstep with
  | kept => exact ⟨st, hs.trans hst, hne⟩
  | inserted _ _ _ hn => rw [hst] at hn; cases hn
  | claimed _ hp => exact ⟨.processing, hs, by simp⟩
  | marked => exact ⟨_, hs, Issues.mark_terminal (.inl hiss)⟩
  | mirrored hf hid hu => exact ⟨_, hs, fun hp => hord hid hp hf hu ht⟩

theorem local_quiet_after {id : String} {f : Fault} {b : Bus} {op : BusOp} {c : BusCall}
    (hiss : Issues op c) (hreq : ∀ m, c = .requeueLocal id m → b.localStatus id ≠ some .processing)
    (h : ∃ st, b.localStatus id = some st ∧ st ≠ .pending) :
    ∃ st, (after f c b).localStatus id = some st ∧ st ≠ .pending := by
  obtain ⟨st, hst, hne⟩ := h
  have hstep := localStep_after f c b id
  generalize hs : (after f c b).localStatus id = s' at hstep
  cases hstep with
  | kept => exact ⟨st, hst, hne⟩
  | inserted _ hn => rw [hst] at hn; cases hn
  | driven => exact ⟨_, rfl, by simp⟩
  | claimed => exact ⟨_, rfl, by simp⟩
  | marked => exact ⟨_, rfl, Issues.mark_terminal (.inr hiss)⟩
  | failed => exact ⟨_, rfl, by simp⟩
  | requeued hp => exact absurd hp (hreq _ rfl)
  | expired => exact ⟨_, rfl, by simp⟩

theorem held_after {id : String} {f : Fault} {b : Bus} {op : BusOp} {c : BusCall} {taken : Prop}
    (ht : taken) (hiss : Issues op c) (hord : OrderlyCall id taken f b c)
    (hreq : ∀ m, c = .requeueLocal id m → b.localStatus id ≠ some .processing)
    (h : Held id b) : Held id (after f c b) := by
  obtain ⟨hnp, hloc⟩ := h
  have hstep := remoteStep_after f c b id
  generalize hs : (after f c b).remoteStatus id = s' at hstep
  cases hstep with
  | kept =>
    refine ⟨by rw [hs]; exact hnp, fun hnone => ?_⟩
    exact local_quiet_after hiss hreq (hloc (hs.symm.trans hnone))
  | inserted hf hid hi _ => exact absurd ht (hord hid hf hi)
  | claimed _ hp => exact absurd hp hnp
  | marked => exact Owned.held ⟨_, hs, Issues.mark_terminal (.inl hiss)⟩
  | mirrored hf hid hu => exact Owned.held ⟨_, hs, fun hp => hord hid hp hf hu ht⟩

/-! ## The invariant -/

/-- At most one claim has won since the last re-queue, and the buses know. -/
structure Inv (id : String) (cfg : Pollers) : Prop where
  threads : ∀ th ∈ cfg.threads, ThreadOk th.op th.rest
  once : claimsSince id cfg.log + cfg.threads.countP (driving id) ≤ 1
  owned : 0 < cfg.threads.countP (driving id) → Owned id cfg.shared
  held : 0 < claimsSince id cfg.log → Held id cfg.shared

/-- The part of the invariant about the tables, with the two counts named. -/
def TableInv (id : String) (b : Bus) (n d : Nat) : Prop :=
  n + d ≤ 1 ∧ (0 < d → Owned id b) ∧ (0 < n → Held id b)

theorem effect_keeps {id : String} {f : Fault} {b : Bus} {op : BusOp} {c : BusCall}
    {n d n' d' : Nat} (hiss : Issues op c) (hord : OrderlyCall id (0 < n + d) f b c)
    (he : Effect id f b c n d n' d') (h : TableInv id b n d) : TableInv id (after f c b) n' d' := by
  obtain ⟨hle, hown, hheld⟩ := h
  cases he with
  | other hreq =>
    refine ⟨hle, fun hd => ?_, fun hn => ?_⟩
    · exact owned_after (by omega) hiss hord (hown hd)
    · exact held_after (by omega) hiss hord hreq (hheld hn)
  | requeued =>
    refine ⟨by omega, fun hd => ?_, fun hn => absurd hn (Nat.lt_irrefl 0)⟩
    exact owned_after (by omega) hiss hord (hown hd)
  | wonRemote hf hp =>
    -- a pending Supabase row rules out every earlier winner
    have hd : ¬ 0 < d := by
      intro hd
      obtain ⟨st, hst, hne⟩ := hown hd
      rw [hst] at hp
      exact hne (Option.some.inj hp)
    have hn : ¬ 0 < n := fun hn => (hheld hn).1 hp
    refine ⟨by omega, fun _ => ?_, fun hn' => absurd hn' hn⟩
    exact ⟨.processing, claimRemote_after _ hf hp, by simp⟩
  | @wonLocal now _ _ hp =>
    have hnone := hord rfl hp
    have hd : ¬ 0 < d := by
      intro hd
      obtain ⟨st, hst, _⟩ := hown hd
      rw [hst] at hnone
      cases hnone
    have hn : ¬ 0 < n := by
      intro hn
      obtain ⟨st, hst, hne⟩ := (hheld hn).2 hnone
      rw [hst] at hp
      exact hne (Option.some.inj hp)
    refine ⟨by omega, fun hd' => absurd hd' hd, fun _ => ?_⟩
    have hremote : (after f (.claimLocal id now) b).remoteStatus id = none := by
      rw [← hnone]
      unfold Bus.remoteStatus
      rw [after_supabase fun _ => rfl]
    exact ⟨by simp [hremote], fun _ => ⟨.processing, claimLocal_after _ hp, by simp⟩⟩
  | drove =>
    refine ⟨by omega, fun hd => by omega, fun _ => ?_⟩
    exact (owned_after (by omega) hiss hord (hown (by omega))).held

theorem inv_init (id : String) (b : Bus) : Inv id (Config.init b) where
  threads := by simp [Config.init]
  once := by simp [Config.init, claimsSince]
  owned := by simp [Config.init]
  held := by simp [Config.init, claimsSince]

/-- The two counts a configuration carries. -/
def won (id : String) (cfg : Pollers) : Nat := claimsSince id cfg.log

def inFlight (id : String) (cfg : Pollers) : Nat := cfg.threads.countP (driving id)

/-- What a turn does: nothing to the tables and the counts, or one statement of
a running operation with its effect. -/
theorem turn_effect (id : String) {cfg : Pollers} (h : ∀ th ∈ cfg.threads, ThreadOk th.op th.rest)
    (mv : Turn) :
    ((turn cfg mv).shared = cfg.shared ∧ won id (turn cfg mv) = won id cfg ∧
      inFlight id (turn cfg mv) = inFlight id cfg) ∨
    ∃ t f op c k, mv = .step t f ∧ cfg.threads[t]? = some ⟨op, .call c k⟩ ∧
      (turn cfg mv).shared = after f c cfg.shared ∧
      Effect id f cfg.shared c (won id cfg) (inFlight id cfg) (won id (turn cfg mv))
        (inFlight id (turn cfg mv)) := by
  unfold won inFlight turn
  rcases move_cases BusOp.prog answer cfg mv with ⟨op, _, he⟩ | ⟨t, f, op, c, k, hmv, ht, he⟩ | he
  · left
    -- a new thread neither drives nor has returned
    have hnd : driving id ⟨op, op.prog⟩ = false := by
      by_cases hop : ∃ client now, op = .tryClaim client id now
      · obtain ⟨client, now, rfl⟩ := hop
        exact ((contending_tryClaim client id now).shape _).1
      · exact driving_elsewhere (fun client now hc => hop ⟨client, now, hc⟩) _
    rw [he]
    simp [claimsSince, tallyClaim, hnd]
  · right
    have hok : ThreadOk op (.call c k) := h _ (List.mem_of_getElem? ht)
    have hcount := countP_set_thread (driving id) ht ⟨op, k (answer f c cfg.shared).1⟩
    have heff := call_effect hok f cfg.shared (n := claimsSince id cfg.log) hcount
    refine ⟨t, f, op, c, k, hmv, ht, ?_, ?_⟩
    · rw [he]
      rfl
    · rw [he]
      simp only [claimsSince, List.foldl_append, List.foldl_cons, List.foldl_nil]
      exact heff
  · left
    rw [he]
    simp [claimsSince, tallyClaim]

theorem inv_turn {id : String} {cfg : Pollers} {mv : Turn} (h : Inv id cfg)
    (hord : Orderly id cfg mv) : Inv id (turn cfg mv) := by
  have hthreads := move_threads BusOp.prog answer threadOk_prog threadOk_next h.threads mv
  rcases turn_effect id h.threads mv with ⟨hs, hn, hd⟩ | ⟨t, f, op, c, k, hmv, ht, hs, heff⟩
  · unfold won at hn
    unfold inFlight at hd
    refine ⟨hthreads, ?_, ?_, ?_⟩
    · rw [hn, hd]
      exact h.once
    · rw [hd, hs]
      exact h.owned
    · rw [hn, hs]
      exact h.held
  · subst hmv
    have hok : ThreadOk op (.call c k) := h.threads _ (List.mem_of_getElem? ht)
    obtain ⟨honce, hown, hheld⟩ := effect_keeps hok.1.1 (onCall_step ht hord) heff
      ⟨h.once, h.owned, h.held⟩
    rw [← hs] at hown hheld
    exact ⟨hthreads, honce, hown, hheld⟩

/-- **Exactly-once claims.** From any two tables, however many pollers there
are and however their statements interleave with the other operations and with
faults: along orderly turns, a command is claimed at most once since its last
re-queue. -/
theorem claimed_at_most_once (b : Bus) (id : String) (mvs : List Turn)
    (h : Along turn (Orderly id) (Config.init b) mvs) :
    claimsSince id (run turn (Config.init b) mvs).log ≤ 1 := by
  have hinv : Inv id (run turn (Config.init b) mvs) :=
    run_invariant (fun _ _ hi ho => inv_turn hi ho) mvs (inv_init id b) h
  have := hinv.once
  omega

/-! ## Runs in which one command is claimed twice -/

/-- A command staged locally and mirrored, so that both buses hold it as pending. -/
def dualWritten : List Turn :=
  [.spawn (.enqueueLocal { commandType := .flattenAndHalt, commandId := "c1", now := "2026-01-01" }),
    .step 0 .answered, .spawn (.mirror true 500), .step 1 .answered, .step 1 .answered]

/-- Two pollers race for it and a late mirror pass follows. -/
def racedRun : List Turn :=
  dualWritten ++
    [.spawn (.tryClaim true "c1" "t1"), .spawn (.tryClaim true "c1" "t2"), .step 3 .answered,
      .step 2 .lost, .step 2 .answered, .step 3 .answered, .spawn (.mirror true 500),
      .step 4 .answered, .step 4 .answered]

theorem raced_claimed_once :
    claimsSince "c1" (run turn (Config.init .empty) racedRun).log ≤ 1 :=
  claimed_at_most_once .empty "c1" racedRun (by decide)

/-- A poller whose Supabase calls both raise claims the local copy; the next
poller wins on Supabase. -/
def degradedRun : List Turn :=
  dualWritten ++
    [.spawn (.tryClaim true "c1" "t1"), .step 2 .lost, .step 2 .lost, .step 2 .answered,
      .spawn (.tryClaim true "c1" "t2"), .step 3 .answered, .step 3 .answered]

/-- No fault at all: the mirror has read the row as pending when a poller
claims it on both buses, and upserts what it read. -/
def staleMirrorRun : List Turn :=
  dualWritten ++
    [.spawn (.mirror true 500), .step 2 .answered,
      .spawn (.tryClaim true "c1" "t1"), .step 3 .answered, .step 3 .answered, .step 2 .answered,
      .spawn (.tryClaim true "c1" "t2"), .step 4 .answered, .step 4 .answered]

/-- No fault: a command claimed locally is submitted again under its id. -/
def resubmittedRun : List Turn :=
  [.spawn (.enqueueLocal { commandType := .reloadConfig, commandId := "c1", now := "2026-01-01" }),
    .step 0 .answered,
    .spawn (.tryClaim true "c1" "t1"), .step 1 .answered, .step 1 .answered, .step 1 .answered,
    .spawn (.enqueue true { commandType := .reloadConfig, commandId := "c1", now := "2026-01-02" }),
    .step 2 .answered,
    .spawn (.tryClaim true "c1" "t2"), .step 3 .answered, .step 3 .answered]

/-- Each of the three conditions on turns is needed. -/
theorem claimed_twice :
    (¬ ∀ (b : Bus) (id : String) (mvs : List Turn),
      claimsSince id (run turn (Config.init b) mvs).log ≤ 1) ∧
    claimsSince "c1" (run turn (Config.init .empty) staleMirrorRun).log = 2 ∧
    claimsSince "c1" (run turn (Config.init .empty) resubmittedRun).log = 2 := by
  refine ⟨?_, by decide, by decide⟩
  intro h
  have hone := h .empty "c1" degradedRun
  revert hone
  decide

end TradingPlatform.Control.ExactlyOnce
