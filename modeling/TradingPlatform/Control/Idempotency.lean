import TradingPlatform.Control.QueueSpec
import TradingPlatform.Lib.Runs

/-! # Idempotency keys across both buses

Each table refuses a second row with a key it holds, but nothing relates the
two tables: a command staged locally in an outage does not keep Supabase from
accepting its key again, and the local insert raises where the remote one
looks the existing command up. `CanHonour` is the exact condition under which
a repeated key is honoured, and runs that meet it never stage two commands
under one key. -/

namespace TradingPlatform.Control.Idempotency

open TradingPlatform.Lib TradingPlatform.Lib.Prog TradingPlatform.Lib.Runs

/-- The key an enqueue carries. -/
def keyOf : BusOp → Option String
  | .enqueue _ q | .enqueueLocal q => q.idempotencyKey
  | _ => none

def OnRemote (b : Bus) (k : String) : Prop := (b.supabase.findUniq k).isSome = true

def OnLocal (b : Bus) (k : String) : Prop := (b.sqlite.findUniq k).isSome = true

def KeyUsed (b : Bus) (k : String) : Prop := OnRemote b k ∨ OnLocal b k

/-- `c` is the command some bus holds under the key. -/
def Existing (b : Bus) (k : String) (c : ControlCommand) : Prop :=
  (∃ r, b.supabase.findUniq k = some r ∧ rowToCommand r = c) ∨
    ∃ r, b.sqlite.findUniq k = some r ∧ sqliteRowToCommand r = c

/-- The enqueue returned the existing command and staged nothing. -/
def Honoured (k : String) (b : Bus) (out : BusReply × Bus) : Prop :=
  out.2 = b ∧ ∃ c, out.1 = .staged (.ok c) ∧ Existing b k c

/-- Supabase is reached and refuses the row, and the existing command can then
be read: on Supabase if that read is answered too, else in SQLite. -/
def CanHonour (k : String) (fs : List Fault) (b : Bus) : BusOp → Prop
  | .enqueue client q => client = true ∧ k ≠ "" ∧ fs.headD default = .answered ∧
    ((OnRemote b k ∧ (fs.tail.headD default = .answered ∨ OnLocal b k)) ∨
      ((b.supabase.find q.commandId).isSome = true ∧ OnLocal b k))
  | _ => False

/-! ## One enqueue -/

/-- Staging locally raises or adds a row; either way the key is not honoured. -/
theorem stage_not_honoured {k : String} {b b' : Bus} (hb : b'.sqlite = b.sqlite) (q : CommandRequest)
    (fs : List Fault) :
    ¬ Honoured k b (runAlone fs (BusReply.staged <$> enqueueControlCommandLocal q) b') := by
  intro ⟨hsame, c, hreply, _⟩
  rw [map_eq, runAlone_bind_ret] at hsame hreply
  rw [enqueueLocal_fst] at hreply
  rw [enqueueLocal_snd] at hsame
  have hok : stageReply b'.sqlite q = .ok c := by simpa using hreply
  have hsql : stageLocal b'.sqlite q = b'.sqlite := (congrArg Bus.sqlite hsame).trans hb.symm
  unfold stageReply at hok
  unfold stageLocal at hsql
  split at hok
  · cases hok
  · rename_i httl
    rw [if_neg httl] at hsql
    cases hi : b'.sqlite.insert { q.command with attempts := 0 } with
    | none =>
      rw [hi] at hok
      cases hok
    | some t =>
      rw [hi] at hsql
      exact Table.insert_ne hi hsql

theorem insert_refused_iff (t : RemoteTable) (q : CommandRequest) {k : String}
    (hk : q.idempotencyKey = some k) :
    t.insert q.command.toCommandRow = none ↔
      (t.find q.commandId).isSome = true ∨ (t.findUniq k).isSome = true := by
  rw [Table.insert_eq_none, Option.isSome_iff_exists, Option.isSome_iff_exists]
  constructor
  · intro h
    obtain ⟨x, hx, hkey | ⟨u, hxu, hqu⟩⟩ := h
    · exact .inl ⟨x, t.find_eq_some.mpr ⟨hx, hkey⟩⟩
    · have hu : u = k := Option.some.inj (hqu.symm.trans hk)
      exact .inr ⟨x, t.findUniq_eq_some.mpr ⟨hx, hu ▸ hxu⟩⟩
  · intro h
    rcases h with ⟨x, hx⟩ | ⟨x, hx⟩
    · obtain ⟨hm, hkey⟩ := t.find_eq_some.mp hx
      exact ⟨x, hm, .inl hkey⟩
    · obtain ⟨hm, hu⟩ := t.findUniq_eq_some.mp hx
      exact ⟨x, hm, .inr ⟨k, hu, hk⟩⟩

/-- What the look-up by key returns when the Supabase read meets `f`. -/
def readKey (f : Fault) (b : Bus) (k : String) : Option ControlCommand :=
  match f, b.supabase.findUniq k with
  | .answered, some r => some (rowToCommand r)
  | _, _ => (b.sqlite.findUniq k).map sqliteRowToCommand

theorem fetchByKey_runAlone (k : String) (fs : List Fault) (b : Bus) :
    runAlone fs (fetchCommandByIdempotencyKey true k) b = (readKey (fs.headD default) b k, b) := by
  have hlocal : ∀ fs', runAlone fs' (fetchLocalByIdempotencyKey k) b =
      ((b.sqlite.findUniq k).map sqliteRowToCommand, b) := by
    intro fs'
    refine Prod.ext rfl ?_
    exact after_select (fun _ => rfl) (fun _ _ => rfl)
  unfold fetchCommandByIdempotencyKey readKey
  simp only [if_true, perform_bind, pure_eq, runAlone_call, respond]
  rw [after_select (fun _ => rfl) (fun _ _ => rfl)]
  cases hf : fs.headD default with
  | answered =>
    cases hr : b.supabase.findUniq k with
    | none => exact hlocal _
    | some r => rfl
  | lost => exact hlocal _
  | unacked => exact hlocal _

theorem readKey_existing {f : Fault} {b : Bus} {k : String} {c : ControlCommand}
    (h : readKey f b k = some c) : Existing b k c := by
  unfold readKey at h
  split at h
  · rename_i r hr
    exact .inl ⟨r, hr, Option.some.inj h⟩
  · obtain ⟨r, hr, hc⟩ := Option.map_eq_some_iff.mp h
    exact .inr ⟨r, hr, hc⟩

theorem readKey_isSome (f : Fault) (b : Bus) (k : String) :
    (readKey f b k).isSome = true ↔ (f = .answered ∧ OnRemote b k) ∨ OnLocal b k := by
  unfold readKey OnRemote OnLocal
  cases f with
  | answered => cases b.supabase.findUniq k <;> simp
  | lost => simp
  | unacked => simp

/-- What an enqueue answers once Supabase has refused the row as a duplicate. -/
theorem afterDuplicate_honoured_iff {k : String} {q : CommandRequest}
    (hk : q.idempotencyKey = some k) (fs : List Fault) (b : Bus) :
    Honoured k b (runAlone fs (BusReply.staged <$> enqueueAfterError true q .duplicate) b) ↔
      k ≠ "" ∧ ((fs.headD default = .answered ∧ OnRemote b k) ∨ OnLocal b k) := by
  rw [← readKey_isSome]
  unfold enqueueAfterError
  simp only [hk]
  by_cases hempty : k = ""
  · simp only [hempty, if_true, ne_eq, not_true_eq_false, false_and, iff_false]
    exact stage_not_honoured rfl q.fallback fs
  · simp only [hempty, if_false, ne_eq, not_false_eq_true, true_and]
    rw [map_eq, runAlone_bind_ret, runAlone_bind, fetchByKey_runAlone]
    cases hread : readKey (fs.headD default) b k with
    | none =>
      simp only [Option.isSome_none, Bool.false_eq_true, iff_false]
      have hno := stage_not_honoured (k := k) (b := b) rfl q.fallback
        (faultsLeft fs (fetchCommandByIdempotencyKey true k) b)
      rwa [map_eq, runAlone_bind_ret] at hno
    | some c =>
      simp only [Option.isSome_some, iff_true]
      exact ⟨rfl, c, rfl, readKey_existing hread⟩

/-- An enqueue with Supabase configured: the insert, then what follows its answer. -/
theorem enqueue_runAlone (q : CommandRequest) (fs : List Fault) (b : Bus) :
    runAlone fs (BusReply.staged <$> enqueueControlCommand true q) b =
      match respond (fs.headD default) (.insertRemote q.command.toCommandRow) b with
      | .ok rows => (.staged (.ok (rowToCommand (rows.headD q.command.toCommandRow))),
          after (fs.headD default) (.insertRemote q.command.toCommandRow) b)
      | .error e => runAlone fs.tail (BusReply.staged <$> enqueueAfterError true q e)
          (after (fs.headD default) (.insertRemote q.command.toCommandRow) b) := by
  unfold enqueueControlCommand
  simp only [if_true, map_eq, perform_bind, call_bind, runAlone_call]
  cases respond (fs.headD default) (.insertRemote q.command.toCommandRow) b with
  | ok rows => rfl
  | error e => rfl

/-- An insert that was not answered is staged again locally. -/
theorem unanswered_not_honoured {k : String} {q : CommandRequest} {fs : List Fault} {b : Bus}
    (hf : fs.headD default ≠ .answered) :
    ¬ Honoured k b (runAlone fs (BusReply.staged <$> enqueueControlCommand true q) b) := by
  have hresp : respond (fs.headD default) (.insertRemote q.command.toCommandRow) b =
      .error .other := if_neg hf
  rw [enqueue_runAlone, hresp]
  have hafter : enqueueAfterError true q .other = enqueueControlCommandLocal q.fallback := by
    unfold enqueueAfterError
    cases q.idempotencyKey with
    | none => rfl
    | some key => rfl
  simp only [hafter]
  exact stage_not_honoured (after_sqlite fun _ _ => rfl) q.fallback fs.tail

/-- An insert Supabase takes stages a second command. -/
theorem accepted_not_honoured {k : String} {q : CommandRequest} {fs : List Fault} {b : Bus}
    {t : RemoteTable} (hf : fs.headD default = .answered)
    (hi : b.supabase.insert q.command.toCommandRow = some t) :
    ¬ Honoured k b (runAlone fs (BusReply.staged <$> enqueueControlCommand true q) b) := by
  intro ⟨hsame, _⟩
  have hresp : respond (fs.headD default) (.insertRemote q.command.toCommandRow) b =
      .ok [q.command.toCommandRow] := by
    simp only [respond, hf, Fault.deliver, hi, Option.isSome_some, if_true]
  rw [enqueue_runAlone, hresp] at hsame
  have hsup : (after (fs.headD default) (.insertRemote q.command.toCommandRow) b).supabase = t := by
    simp only [after, hf, Fault.reaches, if_true, BusCall.onSupabase, hi, Option.getD_some]
  exact Table.insert_ne hi (hsup.symm.trans (congrArg Bus.supabase hsame))

/-- An insert Supabase refuses is honoured by the read that follows. -/
theorem refused_honoured_iff {k : String} {q : CommandRequest} {fs : List Fault} {b : Bus}
    (hq : q.idempotencyKey = some k) (hf : fs.headD default = .answered)
    (hi : b.supabase.insert q.command.toCommandRow = none) :
    Honoured k b (runAlone fs (BusReply.staged <$> enqueueControlCommand true q) b) ↔
      k ≠ "" ∧ ((fs.tail.headD default = .answered ∧ OnRemote b k) ∨ OnLocal b k) := by
  have hresp : respond (fs.headD default) (.insertRemote q.command.toCommandRow) b =
      .error .duplicate := by
    simp only [respond, hf, Fault.deliver, hi, Option.isSome_none, Bool.false_eq_true,
      if_false, if_true]
  have hbus : after (fs.headD default) (.insertRemote q.command.toCommandRow) b = b := by
    simp only [after, BusCall.onSupabase, BusCall.onSqlite, hi, Option.getD_none, ite_self]
  rw [enqueue_runAlone, hresp, hbus]
  exact afterDuplicate_honoured_iff hq fs.tail b

/-- **One repeated key**: the enqueue honours it exactly when it can. -/
theorem honoured_iff (fs : List Fault) (op : BusOp) (b : Bus) {k : String}
    (hk : keyOf op = some k) : Honoured k b (op.perform fs b) ↔ CanHonour k fs b op := by
  cases op with
  | enqueueLocal q => exact iff_of_false (stage_not_honoured rfl q fs) id
  | enqueue client q =>
    have hq : q.idempotencyKey = some k := hk
    cases client with
    | false =>
      refine iff_of_false (stage_not_honoured rfl q.fallback fs) ?_
      intro hcan
      exact absurd hcan.1 (by simp)
    | true =>
      show Honoured k b (runAlone fs (BusReply.staged <$> enqueueControlCommand true q) b) ↔ _
      by_cases hf : fs.headD default = .answered
      · have hrefused := insert_refused_iff b.supabase q hq
        unfold CanHonour
        cases hi : b.supabase.insert q.command.toCommandRow with
        | some t =>
          have hfree : ¬ ((b.supabase.find q.commandId).isSome = true ∨ OnRemote b k) := by
            intro h
            rw [hrefused.mpr h] at hi
            cases hi
          refine iff_of_false (accepted_not_honoured hf hi) ?_
          intro ⟨_, _, _, hcan⟩
          rcases hcan with ⟨hr, _⟩ | ⟨hid, _⟩
          · exact hfree (.inr hr)
          · exact hfree (.inl hid)
        | none =>
          rw [refused_honoured_iff hq hf hi]
          constructor
          · intro ⟨hne, hread⟩
            refine ⟨rfl, hne, hf, ?_⟩
            rcases hread with ⟨hf', hr⟩ | hl
            · exact .inl ⟨hr, .inl hf'⟩
            · rcases hrefused.mp hi with hid | hr
              · exact .inr ⟨hid, hl⟩
              · exact .inl ⟨hr, .inr hl⟩
          · intro ⟨_, hne, _, hcan⟩
            refine ⟨hne, ?_⟩
            rcases hcan with ⟨hr, hf' | hl⟩ | ⟨_, hl⟩
            · exact .inl ⟨hf', hr⟩
            · exact .inr hl
            · exact .inr hl
      · refine iff_of_false (unanswered_not_honoured hf) ?_
        intro hcan
        exact hf hcan.2.2.1
  | _ => cases hk

/-! ## Runs -/

/-- Some bus holds the id under the key. -/
def HasKey (b : Bus) (id k : String) : Prop := b.supabase.Maps k id ∨ b.sqlite.Maps k id

/-- No key stands for two commands. -/
def KeysApart (b : Bus) : Prop := ∀ k id id', HasKey b id k → HasKey b id' k → id = id'

theorem HasKey.used {b : Bus} {id k : String} (h : HasKey b id k) : KeyUsed b k := by
  rcases h with ⟨r, hr, _⟩ | ⟨r, hr, _⟩
  · exact .inl (by simp [OnRemote, hr])
  · exact .inr (by simp [OnLocal, hr])

/-- If the event repeats a key, the key can be honoured. -/
def Honourable (b : Bus) (e : QueueEvent) : Prop :=
  ∀ k, keyOf e.op = some k → KeyUsed b k → CanHonour k e.faults b e.op

/-- An event of a run keeps keys apart when every repeated key can be honoured.
Mirror passes are not part of these runs. -/
def KeySafe (b : Bus) (e : QueueEvent) : Prop :=
  Honourable b e ∧ ∀ client limit, e.op ≠ .mirror client limit

/-- The id an enqueue stages. -/
def stagedId : BusOp → Option String
  | .enqueue _ q | .enqueueLocal q => some q.commandId
  | _ => none

/-- What an operation may add: a row under the key and the id it carries. -/
def Adds (op : BusOp) (id k : String) : Prop := keyOf op = some k ∧ stagedId op = some id

theorem remote_maps_after {op : BusOp} {f : Fault} {c : BusCall} {b : Bus} {id k : String}
    (hiss : Issues op c) (hm : ∀ client limit, op ≠ .mirror client limit)
    (h : (after f c b).supabase.Maps k id) : b.supabase.Maps k id ∨ Adds op id k := by
  by_cases hf : f.reaches = true
  · simp only [after, hf, if_true] at h
    cases c with
    | insertRemote row =>
      rcases Table.maps_insert h with hold | ⟨hu, hid⟩
      · exact .inl hold
      · right
        cases op with
        | enqueue client q =>
          have hrow : row = q.command.toCommandRow := hiss
          subst hrow
          exact ⟨hu, congrArg some hid⟩
        | _ => exact hiss.elim
    | claimRemote id' now => exact .inl (Table.maps_updateWhere.mp h)
    | markRemote id' st now err => exact .inl (Table.maps_updateWhere.mp h)
    | upsertRemote row =>
      cases op with
      | mirror client limit => exact absurd rfl (hm client limit)
      | _ => exact hiss.elim
    | _ => exact .inl h
  · simp only [after, hf, Bool.false_eq_true, if_false] at h
    exact .inl h

theorem local_maps_after {op : BusOp} {f : Fault} {c : BusCall} {b : Bus} {id k : String}
    (hiss : Issues op c) (h : (after f c b).sqlite.Maps k id) :
    b.sqlite.Maps k id ∨ Adds op id k := by
  cases c with
  | insertLocal row =>
    rcases Table.maps_insert h with hold | ⟨hu, hid⟩
    · exact .inl hold
    · right
      cases op with
      | enqueue client q =>
        have hrow : row = { q.fallback.command with attempts := 0 } := hiss
        subst hrow
        exact ⟨hu, congrArg some hid⟩
      | enqueueLocal q =>
        have hrow : row = { q.command with attempts := 0 } := hiss
        subst hrow
        exact ⟨hu, congrArg some hid⟩
      | _ => exact hiss.elim
  | driveLocal id' now =>
    simp only [after, BusCall.onSqlite] at h
    split at h
    · exact .inl (Table.maps_updateWhere.mp h)
    · exact .inl h
  | claimLocal id' now => exact .inl (Table.maps_updateWhere.mp h)
  | markLocal id' st now err => exact .inl (Table.maps_updateWhere.mp h)
  | failProcessing id' now err => exact .inl (Table.maps_updateWhere.mp h)
  | requeueLocal id' n => exact .inl (Table.maps_updateWhere.mp h)
  | expireLocal now => exact .inl (Table.maps_updateWhere.mp h)
  | _ => exact .inl h

/-- An operation adds only its own key, and only for its own id. -/
theorem hasKey_perform {op : BusOp} (hm : ∀ client limit, op ≠ .mirror client limit)
    (fs : List Fault) (b : Bus) {id k : String} (h : HasKey (op.perform fs b).2 id k) :
    HasKey b id k ∨ Adds op id k := by
  have hkeep := (prog_issues op).exec_keeps answer
    (I := fun s => HasKey s id k → HasKey b id k ∨ Adds op id k) ?_ fs b .inl
  · exact hkeep h
  · intro f c s hc hs hafter
    rcases hafter with hr | hl
    · rcases remote_maps_after hc hm hr with hold | hadd
      · exact hs (.inl hold)
      · exact .inr hadd
    · rcases local_maps_after hc hl with hold | hadd
      · exact hs (.inr hold)
      · exact .inr hadd

/-- One safe event keeps keys apart: a repeated key changes nothing. -/
theorem keysApart_step {b : Bus} {e : QueueEvent} (h : KeysApart b) (hsafe : KeySafe b e) :
    KeysApart (queueStep b e) := by
  obtain ⟨hcan, hm⟩ := hsafe
  intro k id id' hid hid'
  by_cases hrepeat : keyOf e.op = some k ∧ KeyUsed b k
  · obtain ⟨hk, hused⟩ := hrepeat
    have hhon := (honoured_iff e.faults e.op b hk).mpr (hcan k hk hused)
    have hsame : queueStep b e = b := hhon.1
    rw [hsame] at hid hid'
    exact h k id id' hid hid'
  · have hnew : ∀ i, Adds e.op i k → ∀ j, ¬ HasKey b j k := fun i hadd j hj =>
      hrepeat ⟨hadd.1, hj.used⟩
    rcases hasKey_perform hm e.faults b hid with hold | hadd
    · rcases hasKey_perform hm e.faults b hid' with hold' | hadd'
      · exact h k id id' hold hold'
      · exact absurd hold (hnew _ hadd' _)
    · rcases hasKey_perform hm e.faults b hid' with hold' | hadd'
      · exact absurd hold' (hnew _ hadd _)
      · exact Option.some.inj (hadd.2.symm.trans hadd'.2)

/-- The ids whose claims return `True` along a run. -/
def claimedIds : Bus → List QueueEvent → List String
  | _, [] => []
  | b, e :: es =>
    match e.op, (e.op.perform e.faults b).1 with
    | .tryClaim _ id _, .claimed true => id :: claimedIds (queueStep b e) es
    | _, _ => claimedIds (queueStep b e) es

/-- A repeated key gets the existing command back. -/
def Returns (b : Bus) (e : QueueEvent) : Prop :=
  ∀ k, keyOf e.op = some k → KeyUsed b k → Honoured k b (e.op.perform e.faults b)

/-- **Idempotency keys.** Along any run from any tables, every repeated key gets
the existing command back exactly when each can be honoured; and a run from the
empty tables in which each can be honoured never claims two commands under one
key, whatever faults its calls meet. -/
theorem keys_honoured (b : Bus) (es : List QueueEvent) :
    (Along queueStep Returns b es ↔ Along queueStep Honourable b es) ∧
    (Along queueStep KeySafe .empty es →
      ∀ id ∈ claimedIds .empty es, ∀ id' ∈ claimedIds .empty es, ∀ k,
        HasKey (run queueStep .empty es) id k → HasKey (run queueStep .empty es) id' k →
          id = id') := by
  constructor
  · refine along_congr (I := fun _ => True) (fun _ _ _ => trivial) (fun s e _ => ?_) es trivial
    exact forall_congr' fun k => forall_congr' fun hk => forall_congr' fun _ =>
      honoured_iff e.faults e.op s hk
  · intro hes
    have hempty : KeysApart .empty := by
      intro k id id' h _
      rcases h with ⟨r, hr, _⟩ | ⟨r, hr, _⟩
      · cases hr
      · cases hr
    have hapart : KeysApart (run queueStep .empty es) :=
      run_invariant (fun s e hs he => keysApart_step hs he) es hempty hes
    intro id _ id' _ k hid hid'
    exact hapart k id id' hid hid'

/-- A flatten under the key `k`. -/
def keyed (id now : String) : CommandRequest where
  commandType := .flattenAndHalt
  idempotencyKey := some "k"
  commandId := id
  now := now

/-- A command staged in an outage and claimed; after recovery its key is
enqueued again and the second command is claimed too. -/
def recoveryRun : List QueueEvent :=
  [{ faults := [.lost], op := .enqueue true (keyed "c1" "t1") }, { op := .tryClaim true "c1" "t2" },
    { op := .enqueue true (keyed "c2" "t3") }, { op := .tryClaim true "c2" "t4" }]

/-- Both halves of the promise fail: two commands under one key are claimed,
and a repeated key raises. -/
theorem key_claimed_twice :
    (¬ ∀ es : List QueueEvent, (∀ e ∈ es, ∀ client limit, e.op ≠ .mirror client limit) →
      ∀ id ∈ claimedIds .empty es, ∀ id' ∈ claimedIds .empty es, ∀ k,
        HasKey (run queueStep .empty es) id k → HasKey (run queueStep .empty es) id' k →
          id = id') ∧
    (BusOp.perform [] (.enqueueLocal (keyed "c3" "t5")) (run queueStep .empty recoveryRun)).1 =
      .staged (.error .integrityError) := by
  refine ⟨fun h => ?_, rfl⟩
  have hsame := h recoveryRun (by simp [recoveryRun]) "c1" (by decide) "c2" (by decide) "k"
    (.inr ⟨_, rfl, rfl⟩) (.inl ⟨_, rfl, rfl⟩)
  revert hsame
  decide

end TradingPlatform.Control.Idempotency
