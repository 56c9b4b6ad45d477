import TradingPlatform.Control.CommandQueue

/-! # What each operation does to one command

One lemma an operation, for the operation run alone on the bus: what it
answers and what becomes of the row of one command in each table. Callers cite
these and never unfold an operation. -/

namespace TradingPlatform.Control

open TradingPlatform.Lib TradingPlatform.Lib.Prog

/-! ## Running alone -/

section RunAlone

variable {α β : Type}

@[simp] theorem runAlone_ret (fs : List Fault) (a : α) (b : Bus) :
    runAlone fs (.ret a) b = (a, b) := rfl

@[simp] theorem runAlone_call (fs : List Fault) (c : BusCall) (k : c.Resp → BusProg α) (b : Bus) :
    runAlone fs (.call c k) b =
      runAlone fs.tail (k (respond (fs.headD default) c b)) (after (fs.headD default) c b) := rfl

/-- A continuation that only computes leaves the bus as the program left it. -/
theorem runAlone_bind_ret (fs : List Fault) (p : BusProg α) (f : α → β) (b : Bus) :
    runAlone fs (p >>= fun a => .ret (f a)) b =
      (f (runAlone fs p b).1, (runAlone fs p b).2) := by
  simp only [runAlone, exec_bind, exec_ret]

/-- The faults a program leaves unused. -/
def faultsLeft (fs : List Fault) (p : BusProg α) (b : Bus) : List Fault := (p.exec answer fs b).2.2

/-- What follows a program runs on what it answered, where it left the bus. -/
theorem runAlone_bind (fs : List Fault) (p : BusProg α) (f : α → BusProg β) (b : Bus) :
    runAlone fs (p >>= f) b =
      runAlone (faultsLeft fs p b) (f (runAlone fs p b).1) (runAlone fs p b).2 := by
  simp only [runAlone, faultsLeft, exec_bind]

@[simp] theorem faultsLeft_nil (p : BusProg α) (b : Bus) : faultsLeft [] p b = [] := by
  unfold faultsLeft
  induction p generalizing b with
  | ret a => rfl
  | call c k ih => exact ih _ _

/-- A program whose calls all leave a part of the bus alone leaves it alone. -/
theorem runAlone_keeps {π : Type} (view : Bus → π) {P : BusCall → Prop}
    (hcall : ∀ f c b, P c → view (after f c b) = view b) {p : BusProg α} (hp : AllCalls P p)
    (fs : List Fault) (b : Bus) : view (runAlone fs p b).2 = view b := by
  have h := hp.exec_keeps answer (I := fun s => view s = view b)
    (fun f c s hc hs => (hcall f c s hc).trans hs) fs b rfl
  exact h

end RunAlone

/-- No statement moves a command out of a terminal status in SQLite. -/
theorem local_terminal_after {b : Bus} {id : String} {st : ControlCommandStatus}
    (h : b.localStatus id = some st) (hst : st.terminal = true) (f : Fault) (c : BusCall) :
    (after f c b).localStatus id = some st := by
  have hstep := localStep_after f c b id
  generalize (after f c b).localStatus id = s' at hstep
  cases hstep with
  | kept => exact h
  | inserted _ hn => rw [h] at hn; cases hn
  | driven _ hp => rw [h] at hp; cases hp; cases hst
  | claimed hp => rw [h] at hp; cases hp; cases hst
  | marked ho ht => rw [h] at ho; cases ho; rw [hst] at ht; cases ht
  | failed hp => rw [h] at hp; cases hp; cases hst
  | requeued hp => rw [h] at hp; cases hp; cases hst
  | expired ho ht => rw [h] at ho; cases ho; rw [hst] at ht; cases ht

/-- Nor does any program of statements. -/
theorem local_terminal_runAlone {α : Type} {b : Bus} {id : String} {st : ControlCommandStatus}
    (h : b.localStatus id = some st) (hst : st.terminal = true) (fs : List Fault)
    (p : BusProg α) : (runAlone fs p b).2.localStatus id = some st := by
  induction p generalizing fs b with
  | ret a => exact h
  | call c k ih => exact ih _ (local_terminal_after h hst _ c) _

/-! ## The statements an operation may send -/

/-- The statements an operation may ever send, whatever it is answered. -/
def Issues : BusOp → BusCall → Prop
  | .enqueue _ q, .insertRemote row => row = q.command.toCommandRow
  | .enqueue _ q, .insertLocal row => row = { q.fallback.command with attempts := 0 }
  | .enqueue _ q, .selectRemoteKey key => q.idempotencyKey = some key
  | .enqueue _ q, .selectLocalKey key => q.idempotencyKey = some key
  | .enqueueLocal q, .insertLocal row => row = { q.command with attempts := 0 }
  | .tryClaim _ id _, .claimRemote id' _ => id' = id
  | .tryClaim _ id _, .selectRemoteId id' => id' = id
  | .tryClaim _ id _, .claimLocal id' _ => id' = id
  | .tryClaim _ id _, .driveLocal id' _ => id' = id
  | .markCompleted _ id _, .markRemote id' st _ _ => id' = id ∧ st = .completed
  | .markCompleted _ id _, .markLocal id' st _ _ => id' = id ∧ st = .completed
  | .markFailed _ id _ _, .markRemote id' st _ _ => id' = id ∧ st = .failed
  | .markFailed _ id _ _, .markLocal id' st _ _ => id' = id ∧ st = .failed
  | .mirror .., .selectLocalHistory _ | .mirror .., .upsertRemote _ => True
  | .reclaim .., .selectLocalProcessing | .reclaim .., .failProcessing .. => True
  | .reclaim .., .requeueLocal .. => True
  | .retireExpired _, .expireLocal _ => True
  | .retireStale .., .selectLocalStale .. | .retireStale .., .failProcessing .. => True
  | _, _ => False

theorem enqueueLocal_issues {P : BusCall → Prop} {q : CommandRequest}
    (h : P (.insertLocal { q.command with attempts := 0 })) :
    AllCalls P (enqueueControlCommandLocal q) := by
  unfold enqueueControlCommandLocal
  split
  · trivial
  · simp only [perform_bind, pure_eq, allCalls_call]
    refine ⟨h, fun r => ?_⟩
    split <;> trivial

theorem fetchByKey_issues {P : BusCall → Prop} {key : String} (client : Bool)
    (hr : P (.selectRemoteKey key)) (hl : P (.selectLocalKey key)) :
    AllCalls P (fetchCommandByIdempotencyKey client key) := by
  have hlocal : AllCalls P (fetchLocalByIdempotencyKey key) := ⟨hl, fun _ => trivial⟩
  unfold fetchCommandByIdempotencyKey
  cases client with
  | false => exact hlocal
  | true =>
    simp only [if_true, perform_bind, pure_eq, allCalls_call]
    refine ⟨hr, fun r => ?_⟩
    split
    · trivial
    · exact hlocal

theorem enqueueAfterError_issues {client : Bool} {q : CommandRequest} (e : RemoteError) :
    AllCalls (Issues (.enqueue client q)) (enqueueAfterError client q e) := by
  have hstage : AllCalls (Issues (.enqueue client q)) (enqueueControlCommandLocal q.fallback) :=
    enqueueLocal_issues rfl
  unfold enqueueAfterError
  split
  · rename_i key hkey
    split
    · exact hstage
    · refine (fetchByKey_issues client hkey hkey).bind fun r => ?_
      cases r with
      | none => exact hstage
      | some _ => trivial
  · exact hstage

theorem enqueue_issues (client : Bool) (q : CommandRequest) :
    AllCalls (Issues (.enqueue client q)) (enqueueControlCommand client q) := by
  unfold enqueueControlCommand
  cases client with
  | false => exact enqueueLocal_issues (q := q.fallback) rfl
  | true =>
    simp only [if_true, perform_bind, pure_eq, allCalls_call]
    refine ⟨rfl, fun r => ?_⟩
    split
    · trivial
    · exact enqueueAfterError_issues _

theorem tryClaim_issues (client : Bool) (id now : String) :
    AllCalls (Issues (.tryClaim client id now)) (tryClaimCommand client id now) := by
  have hlocal : AllCalls (Issues (.tryClaim client id now)) (claimLocalCopy id now) :=
    ⟨rfl, fun _ => trivial⟩
  unfold tryClaimCommand
  cases client with
  | false => exact hlocal
  | true =>
    simp only [if_true, perform_bind, allCalls_call]
    refine ⟨rfl, fun r => ?_⟩
    split
    · exact ⟨rfl, fun _ => trivial⟩
    · unfold claimUnlessOwned
      simp only [perform_bind, pure_eq, allCalls_call]
      refine ⟨rfl, fun r => ?_⟩
      split
      · trivial
      · exact hlocal

theorem markTerminal_issues {P : BusCall → Prop} {id now : String} {st : ControlCommandStatus}
    {err : Option String} (client : Bool) (hr : P (.markRemote id st now err))
    (hl : P (.markLocal id st now err)) : AllCalls P (markTerminal client id st err now) := by
  unfold markTerminal
  cases client with
  | false => exact ⟨hl, fun _ => trivial⟩
  | true =>
    simp only [if_true, perform_bind, pure_eq, allCalls_call]
    refine ⟨hr, fun r => ⟨hl, fun l => ?_⟩⟩
    split <;> trivial

theorem mirrorRows_issues {P : BusCall → Prop} :
    ∀ rows : List LocalRow, (∀ r ∈ rows, P (.upsertRemote r.toCommandRow)) →
      AllCalls P (mirrorRows rows)
  | [], _ => trivial
  | r :: rest, h => by
    have ih := mirrorRows_issues rest fun x hx => h x (List.mem_cons_of_mem _ hx)
    rw [mirrorRows]
    simp only [perform_bind, pure_eq, allCalls_call]
    refine ⟨h r List.mem_cons_self, fun resp => ?_⟩
    split
    · exact ih.bind fun _ => trivial
    · exact ih

theorem mirror_issues (client : Bool) (limit : Int) :
    AllCalls (Issues (.mirror client limit)) (mirrorLocalCommandsToSupabase client limit) := by
  unfold mirrorLocalCommandsToSupabase
  cases client with
  | false => trivial
  | true =>
    simp only [if_true, perform_bind, allCalls_call]
    exact ⟨trivial, fun rows => mirrorRows_issues rows fun _ _ => trivial⟩

theorem reclaimRows_issues {P : BusCall → Prop} (hf : ∀ id now err, P (.failProcessing id now err))
    (hr : ∀ id n, P (.requeueLocal id n)) (maxAttempts : Nat) (now : String) :
    ∀ rows, AllCalls P (reclaimRows maxAttempts now rows)
  | [] => trivial
  | r :: rest => by
    have ih := reclaimRows_issues hf hr maxAttempts now rest
    rw [reclaimRows]
    split
    · refine ⟨hf _ _ _, fun n => ih.bind fun out => ?_⟩
      split <;> trivial
    · exact ⟨hr _ _, fun _ => ih.bind fun _ => trivial⟩

theorem retireRows_issues {P : BusCall → Prop} (hf : ∀ id now err, P (.failProcessing id now err))
    (reason now : String) : ∀ rows, AllCalls P (retireRows reason now rows)
  | [] => trivial
  | _ :: rest => ⟨hf _ _ _, fun _ => (retireRows_issues hf reason now rest).bind fun _ => trivial⟩

/-- **Every operation sends only its own statements.** -/
theorem prog_issues (op : BusOp) : AllCalls (Issues op) op.prog := by
  cases op with
  | enqueue client q => exact (enqueue_issues client q).bind fun _ => trivial
  | enqueueLocal q =>
    exact (enqueueLocal_issues (P := Issues (.enqueueLocal q)) rfl).bind fun _ => trivial
  | tryClaim client id now => exact (tryClaim_issues client id now).bind fun _ => trivial
  | markCompleted client id now =>
    exact (markTerminal_issues client ⟨rfl, rfl⟩ ⟨rfl, rfl⟩).bind fun _ => trivial
  | markFailed client id msg now =>
    exact (markTerminal_issues client ⟨rfl, rfl⟩ ⟨rfl, rfl⟩).bind fun _ => trivial
  | mirror client limit => exact (mirror_issues client limit).bind fun _ => trivial
  | reclaim maxAttempts now =>
    refine AllCalls.bind (p := reclaimOrphanedProcessingCommands maxAttempts now)
      ⟨trivial, fun rows => ?_⟩ fun _ => trivial
    exact reclaimRows_issues (fun _ _ _ => trivial) (fun _ _ => trivial) maxAttempts now rows
  | retireExpired now => exact ⟨trivial, fun _ => trivial⟩
  | retireStale reason now cutoff type =>
    refine AllCalls.bind (p := retireStaleProcessingOrphans reason now cutoff type)
      ⟨trivial, fun rows => ?_⟩ fun _ => trivial
    exact retireRows_issues (fun _ _ _ => trivial) reason now rows

/-! ## Which table a statement writes -/

/-- Statements that may replace a Supabase status whatever it was. -/
def Overwrites : BusCall → Prop
  | .markRemote .. | .upsertRemote _ => True
  | _ => False

/-- Any other statement leaves a terminal status on Supabase alone. -/
theorem remote_terminal_after {b : Bus} {id : String} {st : ControlCommandStatus}
    (h : b.remoteStatus id = some st) (hst : st.terminal = true) {f : Fault} {c : BusCall}
    (hc : ¬ Overwrites c) : (after f c b).remoteStatus id = some st := by
  have hstep := remoteStep_after f c b id
  generalize (after f c b).remoteStatus id = s' at hstep
  cases hstep with
  | kept => exact h
  | inserted _ _ _ hn => rw [h] at hn; cases hn
  | claimed _ hp => rw [h] at hp; cases hp; cases hst
  | marked => exact absurd trivial hc
  | mirrored => exact absurd trivial hc

/-- Statements that never write the Supabase table. -/
def SparesRemote (c : BusCall) : Prop := ∀ t, c.onSupabase t = t

theorem after_supabase {f : Fault} {c : BusCall} {b : Bus} (h : SparesRemote c) :
    (after f c b).supabase = b.supabase := by
  show (if f.reaches then c.onSupabase b.supabase else b.supabase) = b.supabase
  rw [h b.supabase, ite_self]

/-- Statements that never write the SQLite table. -/
def SparesLocal (c : BusCall) : Prop := ∀ f t, c.onSqlite f t = t

theorem after_sqlite {f : Fault} {c : BusCall} {b : Bus} (h : SparesLocal c) :
    (after f c b).sqlite = b.sqlite := h f _

theorem after_select {f : Fault} {b : Bus} {c : BusCall} (hr : SparesRemote c) (hl : SparesLocal c) :
    after f c b = b := by
  have h1 := after_supabase (f := f) (b := b) hr
  have h2 := after_sqlite (f := f) (b := b) hl
  calc after f c b = ⟨(after f c b).supabase, (after f c b).sqlite⟩ := rfl
    _ = b := by rw [h1, h2]

/-- The rows matched by a key-and-status guard: at most the command's own. -/
theorem localIs_length (t : LocalTable) (id : String) (st : ControlCommandStatus) :
    (t.rows.filter (localIs id st)).length =
      if (t.find id).map (·.status) = some st then 1 else 0 := by
  have h := t.filter_key id fun r => decide (r.status = st)
  change (t.rows.filter (localIs id st)) = _ at h
  rw [h]
  cases t.find id with
  | none => simp
  | some r => by_cases hr : r.status = st <;> simp [Option.filter, hr]

theorem remoteIs_filter (t : RemoteTable) (id : String) (st : ControlCommandStatus) :
    t.rows.filter (remoteIs id st) = ((t.find id).filter fun r => decide (r.status = st)).toList :=
  t.filter_key id fun r => decide (r.status = st)

/-- A compare-and-set that finds the command pending moves it to processing. -/
theorem claimRemote_after {f : Fault} {b : Bus} {id : String} (now : String)
    (hf : f.reaches = true) (h : b.remoteStatus id = some .pending) :
    (after f (.claimRemote id now) b).remoteStatus id = some .processing := by
  simp only [Bus.remoteStatus] at h
  simp only [Bus.remoteStatus, after, hf, if_true, BusCall.onSupabase]
  rw [remoteStatus_update]
  cases hr : b.supabase.find id with
  | none => rw [hr] at h; cases h
  | some r =>
    rw [hr] at h
    have hst : r.status = .pending := Option.some.inj h
    have hk : remoteSchema.key r = id := (b.supabase.find_eq_some.mp hr).2
    simp [remoteIs, hk, hst, claimRemoteSet]

theorem claimLocal_after {f : Fault} {b : Bus} {id : String} (now : String)
    (h : b.localStatus id = some .pending) :
    (after f (.claimLocal id now) b).localStatus id = some .processing := by
  simp only [Bus.localStatus] at h
  simp only [Bus.localStatus, after, BusCall.onSqlite]
  rw [localStatus_update]
  cases hr : b.sqlite.find id with
  | none => rw [hr] at h; cases h
  | some r =>
    rw [hr] at h
    have hst : r.status = .pending := Option.some.inj h
    have hk : localSchema.key r = id := (b.sqlite.find_eq_some.mp hr).2
    simp [localIs, hk, hst, claimLocalSet]

theorem find_guarded_ne {t : LocalTable} {id id' : String} {st : ControlCommandStatus}
    {u : Update localSchema} (h : id' ≠ id) :
    (t.updateWhere (localIs id' st) u).find id = t.find id := by
  rw [Table.find_updateWhere]
  cases hr : t.find id with
  | none => rfl
  | some r =>
    have hk : localSchema.key r = id := (t.find_eq_some.mp hr).2
    simp [localIs, hk, Ne.symm h]

theorem find_guarded_self {t : LocalTable} {id : String} {st : ControlCommandStatus}
    {u : Update localSchema} :
    (t.updateWhere (localIs id st) u).find id =
      (t.find id).map fun r => if r.status = st then u.set r else r := by
  rw [Table.find_updateWhere]
  cases hr : t.find id with
  | none => rfl
  | some r =>
    have hk : localSchema.key r = id := (t.find_eq_some.mp hr).2
    simp [localIs, hk]

/-! ## Enqueue -/

/-- The local bus after an attempt to stage a command. -/
def stageLocal (t : LocalTable) (q : CommandRequest) : LocalTable :=
  if q.expiresAt.isSome && q.commandType.emergency then t
  else (t.insert { q.command with attempts := 0 }).getD t

/-- What staging answers. -/
def stageReply (t : LocalTable) (q : CommandRequest) : Except EnqueueError ControlCommand :=
  if q.expiresAt.isSome && q.commandType.emergency then .error (ttlForbidden q.commandType)
  else if (t.insert { q.command with attempts := 0 }).isSome then .ok q.command
  else .error .integrityError

theorem enqueueLocal_fst (q : CommandRequest) (fs : List Fault) (b : Bus) :
    (runAlone fs (enqueueControlCommandLocal q) b).1 = stageReply b.sqlite q := by
  unfold enqueueControlCommandLocal stageReply
  split
  · rfl
  · simp only [perform_bind, pure_eq, runAlone_call]
    split
    · rename_i h
      rw [if_pos (show (b.sqlite.insert { q.command with attempts := 0 }).isSome = true from h)]
      rfl
    · rename_i h
      rw [if_neg (show ¬ (b.sqlite.insert { q.command with attempts := 0 }).isSome = true from h)]
      rfl

theorem enqueueLocal_snd (q : CommandRequest) (fs : List Fault) (b : Bus) :
    (runAlone fs (enqueueControlCommandLocal q) b).2 =
      { b with sqlite := stageLocal b.sqlite q } := by
  unfold enqueueControlCommandLocal stageLocal
  split
  · rfl
  · simp only [perform_bind, pure_eq, runAlone_call]
    have hb : after (fs.headD default) (.insertLocal { q.command with attempts := 0 }) b =
        { b with sqlite := (b.sqlite.insert { q.command with attempts := 0 }).getD b.sqlite } := by
      simp [after, BusCall.onSupabase, BusCall.onSqlite]
    split <;> exact hb

/-- Staging a command locally adds its pending row or changes nothing. -/
theorem stageLocal_find (t : LocalTable) (q : CommandRequest) (id : String) :
    (stageLocal t q).find id = t.find id ∨
    (t.find id = none ∧ q.commandId = id ∧
      (stageLocal t q).find id = some { q.command with attempts := 0 }) := by
  unfold stageLocal
  split
  · exact .inl rfl
  · exact (Table.find_insert_cases _ id).imp_right And.right

/-! ## Reclaim -/

/-- What a reclaim pass makes of a row it finds in `processing`. -/
def reclaimRow (maxAttempts : Nat) (now : String) (r : LocalRow) : LocalRow :=
  if r.status = .processing then
    if maxAttempts ≤ r.attempts then
      (terminalLocalSet .failed now (some (poisonMessage maxAttempts))).set r
    else (requeueSet (r.attempts + 1)).set r
  else r

/-- The call a reclaim pass makes for one orphan. -/
def reclaimCall (maxAttempts : Nat) (now : String) (r : LocalRow) : BusCall :=
  if maxAttempts ≤ r.attempts then
    .failProcessing r.commandId now (poisonMessage maxAttempts)
  else .requeueLocal r.commandId (r.attempts + 1)

theorem runAlone_reclaimRows_cons (k : Nat) (now : String) (r : LocalRow) (rest : List LocalRow)
    (fs : List Fault) (b : Bus) :
    (runAlone fs (reclaimRows k now (r :: rest)) b).2 =
      (runAlone fs.tail (reclaimRows k now rest)
        (after (fs.headD default) (reclaimCall k now r) b)).2 := by
  unfold reclaimCall
  rw [reclaimRows]
  split
  · simp only [perform_bind, pure_eq, runAlone_call]
    split <;> rw [runAlone_bind_ret]
  · simp only [perform_bind, pure_eq, runAlone_call]
    rw [runAlone_bind_ret]

theorem find_reclaimCall_ne {k : Nat} {now id : String} {r : LocalRow} {f : Fault} {b : Bus}
    (h : r.commandId ≠ id) :
    (after f (reclaimCall k now r) b).sqlite.find id = b.sqlite.find id := by
  unfold reclaimCall
  split
  · exact find_guarded_ne h
  · exact find_guarded_ne h

theorem find_reclaimCall_self {k : Nat} {now : String} {r : LocalRow} {f : Fault} {b : Bus}
    (hr : b.sqlite.find r.commandId = some r) :
    (after f (reclaimCall k now r) b).sqlite.find r.commandId = some (reclaimRow k now r) := by
  unfold reclaimCall reclaimRow
  split
  · simp only [after, BusCall.onSqlite, find_guarded_self, hr, Option.map_some]
  · simp only [after, BusCall.onSqlite, find_guarded_self, hr, Option.map_some]

theorem reclaimRows_absent {k : Nat} {now id : String} {rows : List LocalRow}
    (h : ∀ r ∈ rows, r.commandId ≠ id) (fs : List Fault) (b : Bus) :
    (runAlone fs (reclaimRows k now rows) b).2.sqlite.find id = b.sqlite.find id := by
  induction rows generalizing fs b with
  | nil => rfl
  | cons r rest ih =>
    rw [runAlone_reclaimRows_cons, ih (fun x hx => h x (List.mem_cons_of_mem _ hx))]
    exact find_reclaimCall_ne (h r List.mem_cons_self)

/-- The loop treats each orphan it was handed once. -/
theorem reclaimRows_find {k : Nat} {now id : String} {rows : List LocalRow} {r : LocalRow}
    (hmem : r ∈ rows) (hid : r.commandId = id)
    (hnd : rows.Pairwise fun x y => x.commandId ≠ y.commandId) (fs : List Fault) (b : Bus)
    (hr : b.sqlite.find id = some r) :
    (runAlone fs (reclaimRows k now rows) b).2.sqlite.find id = some (reclaimRow k now r) := by
  induction rows generalizing fs b with
  | nil => cases hmem
  | cons x rest ih =>
    obtain ⟨hx, hrest⟩ := List.pairwise_cons.mp hnd
    rw [runAlone_reclaimRows_cons]
    rcases List.mem_cons.mp hmem with rfl | hmem
    · subst hid
      rw [reclaimRows_absent fun y hy => (hx y hy).symm]
      exact find_reclaimCall_self hr
    · have hne : x.commandId ≠ id := hid ▸ hx r hmem
      exact ih hmem hrest _ _ ((find_reclaimCall_ne hne).trans hr)

theorem orphans_apart (t : LocalTable) (q : LocalRow → Bool) :
    (t.rows.filter q).Pairwise fun x y => x.commandId ≠ y.commandId :=
  (t.apart.imp fun h => h.1).sublist List.filter_sublist

/-- **Reclaim**: every orphan is re-queued or dead-lettered, nothing else moves. -/
theorem reclaim_find (k : Nat) (now id : String) (fs : List Fault) (b : Bus) :
    (runAlone fs (reclaimOrphanedProcessingCommands k now) b).2.sqlite.find id =
      (b.sqlite.find id).map (reclaimRow k now) := by
  unfold reclaimOrphanedProcessingCommands
  simp only [perform_bind, runAlone_call, respond]
  have hb : after (fs.headD default) .selectLocalProcessing b = b := by
    simp [after, BusCall.onSupabase, BusCall.onSqlite]
  rw [hb]
  cases hr : b.sqlite.find id with
  | none =>
    rw [reclaimRows_absent]
    · exact hr
    · intro r hm
      exact b.sqlite.find_eq_none.mp hr r (List.mem_of_mem_filter hm)
  | some r =>
    obtain ⟨hm, hk⟩ := b.sqlite.find_eq_some.mp hr
    by_cases hp : r.status = .processing
    · exact reclaimRows_find (List.mem_filter.mpr ⟨hm, by simp [hp]⟩) hk
        (orphans_apart _ _) _ _ hr
    · rw [reclaimRows_absent]
      · simp [hr, reclaimRow, hp]
      · intro x hx he
        obtain ⟨hxm, hxp⟩ := List.mem_filter.mp hx
        have := b.sqlite.eq_of_key hxm hm (he.trans hk.symm)
        subst this
        simp [hp] at hxp

theorem reclaim_supabase (k : Nat) (now : String) (fs : List Fault) (b : Bus) :
    (runAlone fs (reclaimOrphanedProcessingCommands k now) b).2.supabase = b.supabase :=
  runAlone_keeps Bus.supabase (fun _ _ _ h => after_supabase h)
    (p := reclaimOrphanedProcessingCommands k now)
    ⟨fun _ => rfl, fun rows => reclaimRows_issues (fun _ _ _ _ => rfl) (fun _ _ _ => rfl) k now rows⟩
    fs b

/-! ## Retirement -/

theorem retireExpired_find (now id : String) (fs : List Fault) (b : Bus) :
    (runAlone fs (retireExpiredCommands now) b).2.sqlite.find id =
      (b.sqlite.find id).map fun r => if expired now r then
        (terminalLocalSet .failed now (some expiredMessage)).set r else r :=
  Table.find_updateWhere ..

theorem runAlone_retireRows_cons (reason now : String) (r : LocalRow) (rest : List LocalRow)
    (fs : List Fault) (b : Bus) :
    (runAlone fs (retireRows reason now (r :: rest)) b).2 =
      (runAlone fs.tail (retireRows reason now rest)
        (after (fs.headD default) (.failProcessing r.commandId now ("retired: " ++ reason)) b)).2 := by
  rw [retireRows]
  simp only [perform_bind, pure_eq, runAlone_call]
  rw [runAlone_bind_ret]

/-- Retiring stale orphans only ever fails a command that was in `processing`. -/
theorem retireRows_find (reason now id : String) (rows : List LocalRow) (fs : List Fault) (b : Bus) :
    (runAlone fs (retireRows reason now rows) b).2.sqlite.find id = b.sqlite.find id ∨
    ∃ r, b.sqlite.find id = some r ∧ r.status = .processing ∧
      (runAlone fs (retireRows reason now rows) b).2.sqlite.find id =
        some ((terminalLocalSet .failed now (some ("retired: " ++ reason))).set r) := by
  induction rows generalizing fs b with
  | nil => exact .inl rfl
  | cons x rest ih =>
    rw [runAlone_retireRows_cons]
    have hcall : (after (fs.headD default) (.failProcessing x.commandId now ("retired: " ++ reason))
        b).sqlite.find id = b.sqlite.find id ∨
        ∃ r, b.sqlite.find id = some r ∧ r.status = .processing ∧
          (after (fs.headD default) (.failProcessing x.commandId now ("retired: " ++ reason))
            b).sqlite.find id =
            some ((terminalLocalSet .failed now (some ("retired: " ++ reason))).set r) := by
      by_cases hx : x.commandId = id
      · subst hx
        simp only [after, BusCall.onSqlite, find_guarded_self]
        cases hr : b.sqlite.find x.commandId with
        | none => exact .inl rfl
        | some r =>
          by_cases hp : r.status = .processing
          · exact .inr ⟨r, rfl, hp, by simp [hp]⟩
          · exact .inl (by simp [hp])
      · exact .inl (find_guarded_ne hx)
    rcases hcall with hc | ⟨r, hr, hp, hc⟩
    · rcases ih fs.tail (after (fs.headD default)
        (.failProcessing x.commandId now ("retired: " ++ reason)) b) with h | ⟨r, hr, hp, h⟩
      · exact .inl (h.trans hc)
      · exact .inr ⟨r, hc ▸ hr, hp, h⟩
    · refine .inr ⟨r, hr, hp, ?_⟩
      rcases ih fs.tail (after (fs.headD default)
        (.failProcessing x.commandId now ("retired: " ++ reason)) b) with h | ⟨r', hr', hp', h⟩
      · exact h.trans hc
      · rw [hc] at hr'
        cases hr'
        cases hp'

theorem retireStale_find (reason now cutoff id : String) (type : Option ControlCommandType)
    (fs : List Fault) (b : Bus) :
    (runAlone fs (retireStaleProcessingOrphans reason now cutoff type) b).2.sqlite.find id =
      b.sqlite.find id ∨
    ∃ r, b.sqlite.find id = some r ∧ r.status = .processing ∧
      (runAlone fs (retireStaleProcessingOrphans reason now cutoff type) b).2.sqlite.find id =
        some ((terminalLocalSet .failed now (some ("retired: " ++ reason))).set r) :=
  retireRows_find reason now id _ fs.tail _

/-! ## Terminal marks -/

theorem markTerminal_find (client : Bool) (id id' now : String) (st : ControlCommandStatus)
    (err : Option String) (fs : List Fault) (b : Bus) :
    (runAlone fs (markTerminal client id' st err now) b).2.sqlite.find id =
      (b.sqlite.find id).map fun r =>
        if localOpen id' r then (terminalLocalSet st now err).set r else r := by
  unfold markTerminal
  cases client with
  | false =>
    simp only [Bool.false_eq_true, if_false, perform_bind, pure_eq, runAlone_call, runAlone_ret]
    exact Table.find_updateWhere ..
  | true =>
    simp only [if_true, perform_bind, pure_eq, runAlone_call]
    split <;> exact Table.find_updateWhere ..

/-! ## Claim -/

theorem claimLocal_runAlone (id now : String) (fs : List Fault) (b : Bus) :
    runAlone fs (claimLocalCopy id now) b =
      (decide (b.localStatus id = some .pending), after (fs.headD default) (.claimLocal id now) b) := by
  unfold claimLocalCopy
  simp only [perform_bind, pure_eq, runAlone_call, runAlone_ret, respond, localIs_length]
  refine Prod.ext ?_ rfl
  simp only [Bus.localStatus]
  split <;> rename_i h <;> simp [h]

/-- With Supabase unconfigured a claim is the local compare-and-set. -/
theorem tryClaim_local (id now : String) (fs : List Fault) (b : Bus) :
    runAlone fs (tryClaimCommand false id now) b =
      (decide (b.localStatus id = some .pending), after (fs.headD default) (.claimLocal id now) b) :=
  claimLocal_runAlone id now fs b

theorem markTerminal_remoteStatus (client : Bool) (id id' now : String) (st : ControlCommandStatus)
    (err : Option String) (fs : List Fault) (b : Bus) :
    (runAlone fs (markTerminal client id' st err now) b).2.remoteStatus id =
      if client = true ∧ (fs.headD default).reaches = true ∧ id' = id then
        (b.remoteStatus id).map fun _ => st
      else b.remoteStatus id := by
  unfold markTerminal
  cases client with
  | false =>
    simp only [Bool.false_eq_true, if_false, false_and, perform_bind, pure_eq, runAlone_call,
      runAlone_ret]
    simp [Bus.remoteStatus, after, BusCall.onSupabase]
  | true =>
    have hmark : (after (fs.tail.headD default) (.markLocal id' st now err)
        (after (fs.headD default) (.markRemote id' st now err) b)).remoteStatus id =
        if (fs.headD default).reaches = true ∧ id' = id then
          (b.remoteStatus id).map fun _ => st
        else b.remoteStatus id := by
      simp only [Bus.remoteStatus, after, BusCall.onSupabase, ite_self]
      by_cases hf : (fs.headD default).reaches = true
      · simp only [hf, if_true, true_and]
        rw [remoteStatus_update]
        cases hr : b.supabase.find id with
        | none => simp
        | some r =>
          have hk : remoteSchema.key r = id := (b.supabase.find_eq_some.mp hr).2
          by_cases he : id' = id
          · simp [hk, he, terminalRemoteSet]
          · simp [hk, he, Ne.symm he]
      · simp only [hf, Bool.false_eq_true, if_false, false_and]
    simp only [if_true, true_and, perform_bind, pure_eq, runAlone_call]
    split <;> exact hmark

/-! ## Runs of operations -/

/-- One event of a run: an operation under the faults its calls meet. -/
structure QueueEvent where
  faults : List Fault := []
  op : BusOp

/-- The bus after an operation run to its end. -/
def queueStep (b : Bus) (e : QueueEvent) : Bus := (e.op.perform e.faults b).2

end TradingPlatform.Control
