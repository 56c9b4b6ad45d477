import TradingPlatform.Control.ExactlyOnce
import TradingPlatform.Control.FetchSpec

/-! # Boot recovery of a command whose process died

A claim is made on the bus that holds the row; the boot pass re-queues SQLite
rows only. A command that Supabase holds in processing is therefore never
offered again, and every other open command is. -/

namespace TradingPlatform.Control.CrashRecovery

open TradingPlatform.Lib TradingPlatform.Lib.Prog TradingPlatform.Lib.Runs
open TradingPlatform.Lib.Interleave TradingPlatform.Lib.StableSort
open TradingPlatform.Control.ExactlyOnce

/-- The boot sequence: expiry first, then the poison ladder. -/
def bootRecovery (expiryNow now : String) : BusProg ReclaimOutcome := do
  let _ ← retireExpiredCommands expiryNow
  reclaimOrphanedProcessingCommands maxReclaimAttempts now

/-- A wide enough fetch returns the command, and the claim after it wins. -/
def Refires (b : Bus) (id : String) : Prop :=
  ∃ n : Nat, ∀ limit : Int, n ≤ limit →
    (∃ c ∈ (runAlone [] (fetchPendingCommands true limit) b).1, c.commandId = id) ∧
    ∀ now, (runAlone [] (tryClaimCommand true id now)
      (runAlone [] (fetchPendingCommands true limit) b).2).1 = true

/-! ## A wide fetch returns every pending command -/

theorem pendingRemote_mem (b : Bus) (id : String) :
    (∃ c ∈ b.pendingRemote, c.commandId = id) ↔ b.remoteStatus id = some .pending := by
  unfold Bus.pendingRemote Bus.remoteStatus
  constructor
  · intro h
    obtain ⟨c, hc, hid⟩ := h
    obtain ⟨r, hr, rfl⟩ := List.mem_map.mp hc
    obtain ⟨hmem, hp⟩ := List.mem_filter.mp hr
    rw [b.supabase.find_eq_some.mpr ⟨hmem, hid⟩]
    exact congrArg some (by simpa using hp)
  · intro h
    obtain ⟨r, hr, hp⟩ := Option.map_eq_some_iff.mp h
    obtain ⟨hmem, hid⟩ := b.supabase.find_eq_some.mp hr
    exact ⟨rowToCommand r, List.mem_map_of_mem (List.mem_filter.mpr ⟨hmem, by simp [hp]⟩), hid⟩

theorem pendingLocal_mem (b : Bus) (id : String) :
    (∃ c ∈ b.pendingLocal, c.commandId = id) ↔ b.localStatus id = some .pending := by
  unfold Bus.pendingLocal Bus.localStatus
  constructor
  · intro h
    obtain ⟨c, hc, hid⟩ := h
    obtain ⟨r, hr, rfl⟩ := List.mem_map.mp hc
    obtain ⟨hmem, hp⟩ := List.mem_filter.mp hr
    rw [b.sqlite.find_eq_some.mpr ⟨hmem, hid⟩]
    exact congrArg some (by simpa using hp)
  · intro h
    obtain ⟨r, hr, hp⟩ := Option.map_eq_some_iff.mp h
    obtain ⟨hmem, hid⟩ := b.sqlite.find_eq_some.mp hr
    exact ⟨sqliteRowToCommand r, List.mem_map_of_mem (List.mem_filter.mpr ⟨hmem, by simp [hp]⟩), hid⟩

theorem union_mem_id {xs ys : List ControlCommand} {id : String} :
    (∃ c ∈ union idOf xs ys, c.commandId = id) ↔
      (∃ c ∈ xs, c.commandId = id) ∨ ∃ c ∈ ys, c.commandId = id := by
  constructor
  · intro h
    obtain ⟨c, hc, hid⟩ := h
    rcases List.mem_append.mp hc with hx | hy
    · exact .inl ⟨c, hx, hid⟩
    · exact .inr ⟨c, (mem_unseen.mp hy).1, hid⟩
  · intro h
    rcases h with ⟨c, hx, hid⟩ | ⟨c, hy, hid⟩
    · exact ⟨c, List.mem_append_left _ hx, hid⟩
    · by_cases hseen : ∃ m ∈ xs, m.commandId = id
      · obtain ⟨m, hm, hmid⟩ := hseen
        exact ⟨m, List.mem_append_left _ hm, hmid⟩
      · refine ⟨c, List.mem_append_right _ (mem_unseen.mpr ⟨hy, fun m hm he => ?_⟩), hid⟩
        exact hseen ⟨m, hm, he.trans hid⟩

/-- Beyond the length of both queues the window is the whole queue. -/
theorem window_wide {n : Nat} {xs ys : List ControlCommand} (h : xs.length + ys.length ≤ n) :
    window timeOf idOf n xs ys = sortBy timeOf (union idOf (sortBy timeOf xs) (sortBy timeOf ys)) := by
  have hlen : ∀ cs, (sortBy timeOf cs).length = cs.length := fun cs => (sortBy_perm cs).length_eq
  have hun : (union idOf (sortBy timeOf xs) (sortBy timeOf ys)).length ≤ xs.length + ys.length := by
    unfold union unseen
    rw [List.length_append, hlen]
    have hfilter := List.length_filter_le
      (fun c => !(sortBy timeOf xs).any fun m => decide (idOf m = idOf c)) (sortBy timeOf ys)
    rw [hlen] at hfilter
    omega
  unfold window
  rw [List.take_of_length_le (l := sortBy timeOf xs) (by rw [hlen]; omega),
    List.take_of_length_le (l := sortBy timeOf ys) (by rw [hlen]; omega)]
  exact List.take_of_length_le (by rw [hlen]; omega)

theorem wide_fetch_mem (b : Bus) (id : String) :
    ∃ n : Nat, ∀ limit : Int, n ≤ limit →
      ((∃ c ∈ (runAlone [] (fetchPendingCommands true limit) b).1, c.commandId = id) ↔
        b.remoteStatus id = some .pending ∨ b.localStatus id = some .pending) := by
  refine ⟨b.pendingRemote.length + b.pendingLocal.length, fun limit hlimit => ?_⟩
  have hcap : b.pendingRemote.length + b.pendingLocal.length ≤ cap limit := by
    unfold cap
    omega
  rw [fetch_answered]
  simp only [remoteQueue, if_true, window_wide hcap, (sortBy_perm _).mem_iff, union_mem_id,
    pendingRemote_mem, pendingLocal_mem]

/-- A command re-fires exactly when the bus that decides offers it. -/
theorem refires_iff_offers (b : Bus) (id : String) : Refires b id ↔ b.offers true id = true := by
  constructor
  · intro ⟨n, h⟩
    have hclaim := (h n (le_refl _)).2 ""
    rw [fetch_answered, tryClaim_answered] at hclaim
    exact hclaim
  · intro h
    obtain ⟨n, hn⟩ := wide_fetch_mem b id
    refine ⟨n, fun limit hlimit => ⟨(hn limit hlimit).mpr ?_, fun now => ?_⟩⟩
    · cases hs : b.remoteStatus id with
      | none => exact .inr (by simpa [Bus.offers, hs] using h)
      | some st => exact .inl (by simpa [Bus.offers, hs] using h)
    · rw [fetch_answered, tryClaim_answered]
      exact h

/-! ## What the boot sequence leaves -/

/-- The row is within its attempts and its TTL. -/
def Recoverable (expiryNow : String) (b : Bus) (id : String) : Prop :=
  ∀ r, b.sqlite.find id = some r → r.attempts < maxReclaimAttempts ∧ expired expiryNow r = false

theorem boot_remoteStatus (expiryNow now : String) (b : Bus) (id : String) :
    (runAlone [] (bootRecovery expiryNow now) b).2.remoteStatus id = b.remoteStatus id := by
  have hsup : (runAlone [] (bootRecovery expiryNow now) b).2.supabase = b.supabase := by
    show (runAlone [] (reclaimOrphanedProcessingCommands maxReclaimAttempts now)
      (after .answered (.expireLocal expiryNow) b)).2.supabase = _
    rw [reclaim_supabase, after_supabase fun _ => rfl]
  unfold Bus.remoteStatus
  rw [hsup]

/-- The boot sequence makes a recoverable orphan pending again. -/
theorem boot_localStatus {expiryNow : String} (now : String) {b : Bus} {id : String}
    (h : Recoverable expiryNow b id) :
    (runAlone [] (bootRecovery expiryNow now) b).2.localStatus id =
      (b.localStatus id).map fun st => if st = .processing then .pending else st := by
  have hfind : (runAlone [] (bootRecovery expiryNow now) b).2.sqlite.find id =
      ((after .answered (.expireLocal expiryNow) b).sqlite.find id).map
        (reclaimRow maxReclaimAttempts now) :=
    reclaim_find maxReclaimAttempts now id [] _
  have hexp : (after .answered (.expireLocal expiryNow) b).sqlite.find id = b.sqlite.find id := by
    show (b.sqlite.updateWhere (expired expiryNow) _).find id = _
    rw [Table.find_updateWhere]
    cases hr : b.sqlite.find id with
    | none => rfl
    | some r => simp [(h r hr).2]
  unfold Bus.localStatus
  rw [hfind, hexp]
  cases hr : b.sqlite.find id with
  | none => rfl
  | some r =>
    have hatt : ¬ maxReclaimAttempts ≤ r.attempts := by
      have := (h r hr).1
      omega
    simp only [Option.map_some, reclaimRow]
    by_cases hp : r.status = .processing
    · simp [hp, hatt, requeueSet]
    · simp [hp]

/-- **What re-fires after a boot**, whatever led to the tables. -/
theorem boot_refires_iff {expiryNow : String} (now : String) {b : Bus} {id : String}
    (h : Recoverable expiryNow b id) :
    Refires (runAlone [] (bootRecovery expiryNow now) b).2 id ↔
      b.remoteStatus id = some .pending ∨ (b.remoteStatus id = none ∧
        (b.localStatus id = some .pending ∨ b.localStatus id = some .processing)) := by
  rw [refires_iff_offers]
  unfold Bus.offers
  rw [boot_remoteStatus, boot_localStatus now h]
  cases hr : b.remoteStatus id with
  | some st => cases st <;> simp
  | none =>
    cases hl : b.localStatus id with
    | none => simp
    | some st => cases st <;> simp

/-! ## A claimed command has a row -/

/-- The command has a row on some bus. -/
def Present (b : Bus) (id : String) : Prop := b.remoteStatus id ≠ none ∨ b.localStatus id ≠ none

theorem present_after {b : Bus} {id : String} (h : Present b id) (f : Fault) (c : BusCall) :
    Present (after f c b) id := by
  rcases h with hr | hl
  · left
    have hstep := remoteStep_after f c b id
    generalize (after f c b).remoteStatus id = s' at hstep
    cases hstep with
    | kept => exact hr
    | _ => simp
  · right
    have hstep := localStep_after f c b id
    generalize (after f c b).localStatus id = s' at hstep
    cases hstep with
    | kept => exact hl
    | _ => simp

/-- What the run invariant says: threads are well formed, and a command some
claim has taken is in a table. -/
structure TakenPresent (id : String) (cfg : Pollers) : Prop where
  threads : ∀ th ∈ cfg.threads, ThreadOk th.op th.rest
  present : Taken id cfg → Present cfg.shared id

theorem effect_present {id : String} {f : Fault} {b : Bus} {c : BusCall} {n d n' d' : Nat}
    (he : Effect id f b c n d n' d') (h : 0 < n + d → Present b id) (ht : 0 < n' + d') :
    Present (after f c b) id := by
  refine present_after ?_ f c
  cases he with
  | other => exact h ht
  | requeued => exact h (by omega)
  | wonRemote _ hp => exact .inl (by simp [hp])
  | wonLocal hp => exact .inr (by simp [hp])
  | drove => exact h (by omega)

theorem takenPresent_turn {id : String} {cfg : Pollers} (h : TakenPresent id cfg) (mv : Turn) :
    TakenPresent id (turn cfg mv) := by
  have hthreads := move_threads BusOp.prog answer threadOk_prog threadOk_next h.threads mv
  refine ⟨hthreads, fun ht => ?_⟩
  rcases turn_effect id h.threads mv with ⟨hs, hn, hd⟩ | ⟨t, f, op, c, k, _, _, hs, heff⟩
  · rw [hs]
    refine h.present ?_
    unfold won at hn
    unfold inFlight at hd
    unfold Taken at ht ⊢
    omega
  · rw [hs]
    exact effect_present heff h.present ht

theorem takenPresent_init (id : String) (b : Bus) : TakenPresent id (Config.init b) where
  threads := by simp [Config.init]
  present := by simp [Taken, Config.init, claimsSince]

/-- No terminal mark has landed on either bus. -/
def NotTerminal (b : Bus) (id : String) : Prop :=
  ∀ st, b.remoteStatus id = some st ∨ b.localStatus id = some st → st.terminal = false

/-- **Crash recovery.** Stop every process at any point of any interleaved run:
a command that is claimed and not terminal, within its attempts and its TTL,
re-fires after the boot sequence exactly when Supabase does not hold it in
processing. -/
theorem crashed_refires_iff (b : Bus) (id : String) (mvs : List Turn) (expiryNow now : String)
    (htaken : Taken id (run turn (Config.init b) mvs))
    (hopen : NotTerminal (run turn (Config.init b) mvs).shared id)
    (hrec : Recoverable expiryNow (run turn (Config.init b) mvs).shared id) :
    Refires (runAlone [] (bootRecovery expiryNow now) (run turn (Config.init b) mvs).shared).2 id ↔
      (run turn (Config.init b) mvs).shared.remoteStatus id ≠ some .processing := by
  have hinv : TakenPresent id (run turn (Config.init b) mvs) :=
    run_keeps (I := TakenPresent id) (fun _ mv hi => takenPresent_turn hi mv)
      (takenPresent_init id b) mvs
  have hpres := hinv.present htaken
  rw [boot_refires_iff now hrec]
  generalize (run turn (Config.init b) mvs).shared = s at hopen hpres
  cases hr : s.remoteStatus id with
  | some st =>
    have ht := hopen st (.inl hr)
    cases st with
    | pending => simp
    | processing => simp
    | completed => cases ht
    | failed => cases ht
  | none =>
    cases hl : s.localStatus id with
    | none => exact absurd hpres (by simp [Present, hr, hl])
    | some st =>
      have ht := hopen st (.inr hl)
      cases st with
      | pending => simp
      | processing => simp
      | completed => cases ht
      | failed => cases ht

/-- A flatten staged and claimed in SQLite; the process dies there. -/
def localCrash : List Turn :=
  [.spawn (.enqueueLocal { commandType := .flattenAndHalt, commandId := "c1", now := "2026-01-01" }),
    .step 0 .answered,
    .spawn (.tryClaim true "c1" "t1"), .step 1 .answered, .step 1 .answered, .step 1 .answered]

/-- A flatten staged and claimed on Supabase; the process dies there. -/
def remoteCrash : List Turn :=
  [.spawn (.enqueue true { commandType := .flattenAndHalt, commandId := "c1", now := "2026-01-01" }),
    .step 0 .answered,
    .spawn (.tryClaim true "c1" "t1"), .step 1 .answered, .step 1 .answered]

theorem notTerminal_of {b : Bus} {id : String} (hr : (b.remoteStatus id).all (!·.terminal) = true)
    (hl : (b.localStatus id).all (!·.terminal) = true) : NotTerminal b id := by
  intro st h
  rcases h with h | h
  · simpa [h] using hr
  · simpa [h] using hl

theorem recoverable_of {expiryNow : String} {b : Bus} {id : String}
    (h : (b.sqlite.find id).all (fun r => decide (r.attempts < maxReclaimAttempts) &&
      !expired expiryNow r) = true) : Recoverable expiryNow b id := by
  intro r hr
  simpa [hr] using h

theorem localCrash_refires :
    Refires (runAlone [] (bootRecovery "t2" "t2")
      (run turn (Config.init .empty) localCrash).shared).2 "c1" :=
  (crashed_refires_iff .empty "c1" localCrash "t2" "t2" (by decide)
    (notTerminal_of (by decide) (by decide)) (recoverable_of (by decide))).mpr (by decide)

/-- The boot sequence does not reach a command claimed on Supabase. -/
theorem remoteCrash_lost :
    ¬ ∀ (b : Bus) (id : String) (mvs : List Turn) (expiryNow now : String),
      Taken id (run turn (Config.init b) mvs) →
      NotTerminal (run turn (Config.init b) mvs).shared id →
      Recoverable expiryNow (run turn (Config.init b) mvs).shared id →
      Refires (runAlone [] (bootRecovery expiryNow now)
        (run turn (Config.init b) mvs).shared).2 id := by
  intro h
  have hrec : Recoverable "t2" (run turn (Config.init .empty) remoteCrash).shared "c1" :=
    recoverable_of (by decide)
  have hfire := h .empty "c1" remoteCrash "t2" "t2" (by decide)
    (notTerminal_of (by decide) (by decide)) hrec
  rw [boot_refires_iff "t2" hrec] at hfire
  revert hfire
  decide

end TradingPlatform.Control.CrashRecovery
