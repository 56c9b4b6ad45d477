import Mathlib.Data.List.Sort
import Mathlib.Data.String.Basic
import TradingPlatform.Lib.Prog
import TradingPlatform.Lib.Table

/-! # The control-command bus: two tables and the statements on them

The bus is a Supabase table and a local SQLite table of commands. Every
statement `command_queue.py` sends to either of them is a `BusCall`; `after`
is what the statement does to the tables and `respond` what it answers. A
Supabase statement may raise, before or after it took effect (`Fault`). The
two case theorems at the end say everything one statement can do to the status
of one command; time stamps are ISO texts and are compared as texts. -/

namespace TradingPlatform.Control

open TradingPlatform.Lib

inductive ControlCommandType
  | flattenAndHalt
  | goLive
  | engageKillSwitch
  | releaseKillSwitch
  | reloadConfig
  | ping
  deriving DecidableEq, Repr

/-- `EMERGENCY_COMMAND_TYPES`. -/
def ControlCommandType.emergency : ControlCommandType → Bool
  | .flattenAndHalt | .engageKillSwitch => true
  | _ => false

inductive ControlCommandStatus
  | pending
  | processing
  | completed
  | failed
  deriving DecidableEq, Repr

/-- `_TERMINAL_STATUSES`. -/
def ControlCommandStatus.terminal : ControlCommandStatus → Bool
  | .completed | .failed => true
  | _ => false

/-- The columns both tables have. -/
structure CommandRow where
  commandId : String
  commandType : ControlCommandType
  payloadJson : String := "{}"
  status : ControlCommandStatus := .pending
  requestedBy : Option String := none
  idempotencyKey : Option String := none
  errorMessage : Option String := none
  createdAt : String
  processedAt : Option String := none
  deriving DecidableEq, Repr

structure ControlCommand extends CommandRow where
  expiresAt : Option String := none
  deriving DecidableEq, Repr

/-- A row of the SQLite table, with its two migrated columns. -/
structure LocalRow extends ControlCommand where
  attempts : Nat := 0
  deriving DecidableEq, Repr

def remoteSchema : Schema CommandRow String String := ⟨(·.commandId), (·.idempotencyKey)⟩

def localSchema : Schema LocalRow String String := ⟨(·.commandId), (·.idempotencyKey)⟩

abbrev RemoteTable := Table remoteSchema

abbrev LocalTable := Table localSchema

structure Bus where
  supabase : RemoteTable
  sqlite : LocalTable

def Bus.empty : Bus := ⟨.empty, .empty⟩

/-! ## What the updates set -/

def claimRemoteSet (now : String) : Update remoteSchema where
  set r := { r with status := .processing, processedAt := some now }
  key_set _ := rfl
  uniq_set _ := rfl

def terminalRemoteSet (st : ControlCommandStatus) (now : String) (err : Option String) :
    Update remoteSchema where
  set r := { r with status := st, processedAt := some now, errorMessage := err }
  key_set _ := rfl
  uniq_set _ := rfl

def claimLocalSet (now : String) : Update localSchema where
  set r := { r with status := .processing, processedAt := some now }
  key_set _ := rfl
  uniq_set _ := rfl

def terminalLocalSet (st : ControlCommandStatus) (now : String) (err : Option String) :
    Update localSchema where
  set r := { r with status := st, processedAt := some now, errorMessage := err }
  key_set _ := rfl
  uniq_set _ := rfl

def requeueSet (attempts : Nat) : Update localSchema where
  set r := { r with status := .pending, attempts := attempts }
  key_set _ := rfl
  uniq_set _ := rfl

/-! ## Statements -/

/-- How a Supabase call ends: answered, raised without effect, or raised after
its effect (the answer was lost). -/
inductive Fault
  | answered
  | lost
  | unacked
  deriving DecidableEq, Repr, Inhabited

/-- The statement reached the database. -/
def Fault.reaches : Fault → Bool
  | .lost => false
  | _ => true

/-- What the raised exception tells the caller: whether its text contains
"duplicate". -/
inductive RemoteError
  | duplicate
  | other
  deriving DecidableEq, Repr

inductive BusCall
  | insertRemote (row : CommandRow)
  | selectRemoteKey (key : String)
  | selectRemotePending (cap : Nat)
  | claimRemote (id now : String)
  | selectRemoteId (id : String)
  | markRemote (id : String) (st : ControlCommandStatus) (now : String) (err : Option String)
  | upsertRemote (row : CommandRow)
  | insertLocal (row : LocalRow)
  | selectLocalKey (key : String)
  | selectLocalPending (cap : Nat)
  | driveLocal (id now : String)
  | claimLocal (id now : String)
  | markLocal (id : String) (st : ControlCommandStatus) (now : String) (err : Option String)
  | selectLocalHistory (limit : Nat)
  | selectLocalProcessing
  | selectLocalStale (cutoff : String) (type : Option ControlCommandType)
  | failProcessing (id now err : String)
  | requeueLocal (id : String) (attempts : Nat)
  | expireLocal (now : String)

namespace BusCall

/-- Supabase answers with rows or raises; an update answers the rows it hit.
SQLite answers rows, a row count, or refuses an insert. -/
@[reducible] def Resp : BusCall → Type
  | insertRemote _ | selectRemoteKey _ | selectRemotePending _ | claimRemote .. | selectRemoteId _
  | markRemote .. | upsertRemote _ => Except RemoteError (List CommandRow)
  | insertLocal _ => Bool
  | selectLocalKey _ => Option LocalRow
  | selectLocalPending _ | selectLocalHistory _ | selectLocalProcessing
  | selectLocalStale .. => List LocalRow
  | markLocal .. => Nat × Bool
  | driveLocal .. | claimLocal .. | failProcessing .. | requeueLocal .. | expireLocal _ => Nat

end BusCall

/-- `WHERE command_id = ? AND status = ?` on Supabase. -/
def remoteIs (id : String) (st : ControlCommandStatus) (r : CommandRow) : Bool :=
  decide (remoteSchema.key r = id) && decide (r.status = st)

/-- `WHERE command_id = ? AND status = ?` on SQLite. -/
def localIs (id : String) (st : ControlCommandStatus) (r : LocalRow) : Bool :=
  decide (localSchema.key r = id) && decide (r.status = st)

/-- `WHERE command_id = ? AND status NOT IN (terminal)`. -/
def localOpen (id : String) (r : LocalRow) : Bool :=
  decide (localSchema.key r = id) && !r.status.terminal

/-- `WHERE status IN ('pending', 'processing') AND expires_at IS NOT NULL AND expires_at < ?`. -/
def expired (now : String) (r : LocalRow) : Bool :=
  !r.status.terminal && r.expiresAt.any fun e => decide (e < now)

/-- `WHERE status = 'processing' AND created_at < ? [AND command_type = ?]`. -/
def stale (cutoff : String) (type : Option ControlCommandType) (r : LocalRow) : Bool :=
  decide (r.status = .processing) && decide (r.createdAt < cutoff) &&
    type.all fun t => decide (r.commandType = t)

def expiredMessage : String := "expired: TTL elapsed before terminal"

/-- `ORDER BY created_at LIMIT cap` over the pending rows. -/
def RemoteTable.pending (t : RemoteTable) (cap : Nat) : List CommandRow :=
  ((t.rows.filter fun r => decide (r.status = .pending)).insertionSort
    fun a b => a.createdAt ≤ b.createdAt).take cap

def LocalTable.pending (t : LocalTable) (cap : Nat) : List LocalRow :=
  ((t.rows.filter fun r => decide (r.status = .pending)).insertionSort
    fun a b => a.createdAt ≤ b.createdAt).take cap

/-- `ORDER BY created_at DESC LIMIT limit`. -/
def LocalTable.history (t : LocalTable) (limit : Nat) : List LocalRow :=
  (t.rows.insertionSort fun a b => b.createdAt ≤ a.createdAt).take limit

/-- The Supabase table after a statement that reached it. -/
def BusCall.onSupabase : BusCall → RemoteTable → RemoteTable
  | insertRemote row, t => (t.insert row).getD t
  | claimRemote id now, t => t.updateWhere (remoteIs id .pending) (claimRemoteSet now)
  | markRemote id st now err, t =>
    t.updateWhere (fun r => decide (remoteSchema.key r = id)) (terminalRemoteSet st now err)
  | upsertRemote row, t => (t.upsert row).getD t
  | _, t => t

/-- The SQLite table after a statement. The best-effort drive of the local copy
is the one statement whose exceptions the code swallows. -/
def BusCall.onSqlite (f : Fault) : BusCall → LocalTable → LocalTable
  | insertLocal row, t => (t.insert row).getD t
  | driveLocal id now, t =>
    if f.reaches then t.updateWhere (localIs id .pending) (claimLocalSet now) else t
  | claimLocal id now, t => t.updateWhere (localIs id .pending) (claimLocalSet now)
  | markLocal id st now err, t => t.updateWhere (localOpen id) (terminalLocalSet st now err)
  | failProcessing id now err, t =>
    t.updateWhere (localIs id .processing) (terminalLocalSet .failed now (some err))
  | requeueLocal id attempts, t => t.updateWhere (localIs id .processing) (requeueSet attempts)
  | expireLocal now, t =>
    t.updateWhere (expired now) (terminalLocalSet .failed now (some expiredMessage))
  | _, t => t

/-- The bus after a statement. -/
def after (f : Fault) (c : BusCall) (b : Bus) : Bus where
  supabase := if f.reaches then c.onSupabase b.supabase else b.supabase
  sqlite := c.onSqlite f b.sqlite

/-- A Supabase answer, if it arrives. -/
def Fault.deliver {α : Type} (f : Fault) (resp : Except RemoteError α) : Except RemoteError α :=
  if f = .answered then resp else .error .other

/-- What a statement answers. -/
def respond (f : Fault) : (c : BusCall) → Bus → c.Resp
  | .insertRemote row, b =>
    f.deliver (if (b.supabase.insert row).isSome then .ok [row] else .error .duplicate)
  | .selectRemoteKey key, b => f.deliver (.ok (b.supabase.findUniq key).toList)
  | .selectRemotePending cap, b => f.deliver (.ok (b.supabase.pending cap))
  | .claimRemote id now, b =>
    f.deliver (.ok ((b.supabase.rows.filter (remoteIs id .pending)).map (claimRemoteSet now).set))
  | .selectRemoteId id, b => f.deliver (.ok (b.supabase.find id).toList)
  | .markRemote id st now err, b =>
    f.deliver (.ok ((b.supabase.find id).map (terminalRemoteSet st now err).set).toList)
  | .upsertRemote row, b =>
    f.deliver (if (b.supabase.upsert row).isSome then .ok [row] else .error .duplicate)
  | .insertLocal row, b => (b.sqlite.insert row).isSome
  | .selectLocalKey key, b => b.sqlite.findUniq key
  | .selectLocalPending cap, b => b.sqlite.pending cap
  | .driveLocal id _, b =>
    if f = .answered then (b.sqlite.rows.filter (localIs id .pending)).length else (0 : Nat)
  | .claimLocal id _, b => (b.sqlite.rows.filter (localIs id .pending)).length
  | .markLocal id _ _ _, b =>
    ((b.sqlite.rows.filter (localOpen id)).length, (b.sqlite.find id).isSome)
  | .selectLocalHistory limit, b => b.sqlite.history limit
  | .selectLocalProcessing, b => b.sqlite.rows.filter fun r => decide (r.status = .processing)
  | .selectLocalStale cutoff type, b => b.sqlite.rows.filter (stale cutoff type)
  | .failProcessing id _ _, b => (b.sqlite.rows.filter (localIs id .processing)).length
  | .requeueLocal id _, b => (b.sqlite.rows.filter (localIs id .processing)).length
  | .expireLocal now, b => (b.sqlite.rows.filter (expired now)).length

/-- One statement: its answer and the bus it leaves. -/
def answer (f : Fault) (c : BusCall) (b : Bus) : c.Resp × Bus := (respond f c b, after f c b)

abbrev BusProg := Prog BusCall BusCall.Resp

/-- Run a queue operation with nothing else touching the bus, under one fault
a call. -/
def runAlone {α : Type} (fs : List Fault) (p : BusProg α) (b : Bus) : α × Bus :=
  ((p.exec answer fs b).1, (p.exec answer fs b).2.1)

/-! ## What one statement can do to one command -/

/-- The status of a command on Supabase; `none` when it has no row there. -/
def Bus.remoteStatus (b : Bus) (id : String) : Option ControlCommandStatus :=
  (b.supabase.find id).map (·.status)

/-- The status of a command in SQLite; `none` when it has no row there. -/
def Bus.localStatus (b : Bus) (id : String) : Option ControlCommandStatus :=
  (b.sqlite.find id).map (·.status)

/-- An update guarded by key and status acts on that command in that status. -/
theorem remoteStatus_update {t : RemoteTable} {p : CommandRow → Bool} {u : Update remoteSchema}
    (id : String) :
    ((t.updateWhere p u).find id).map (·.status) =
      (t.find id).map fun r => if p r then (u.set r).status else r.status :=
  t.map_find_updateWhere ..

theorem localStatus_update {t : LocalTable} {p : LocalRow → Bool} {u : Update localSchema}
    (id : String) :
    ((t.updateWhere p u).find id).map (·.status) =
      (t.find id).map fun r => if p r then (u.set r).status else r.status :=
  t.map_find_updateWhere ..

/-- Everything a statement can do to a command's status on Supabase. -/
inductive RemoteStep (b : Bus) (id : String) : Fault → BusCall → Option ControlCommandStatus → Prop
  | kept {f c} : RemoteStep b id f c (b.remoteStatus id)
  | inserted {f row} : f.reaches = true → row.commandId = id →
      (b.supabase.insert row).isSome = true → b.remoteStatus id = none →
      RemoteStep b id f (.insertRemote row) (some row.status)
  | claimed {f now} : f.reaches = true → b.remoteStatus id = some .pending →
      RemoteStep b id f (.claimRemote id now) (some .processing)
  | marked {f st now err} : f.reaches = true → b.remoteStatus id ≠ none →
      RemoteStep b id f (.markRemote id st now err) (some st)
  | mirrored {f row} : f.reaches = true → row.commandId = id →
      (b.supabase.upsert row).isSome = true → RemoteStep b id f (.upsertRemote row) (some row.status)

theorem remoteStep_insert {b : Bus} {id : String} {f : Fault} {row : CommandRow}
    (hf : f.reaches = true) :
    RemoteStep b id f (.insertRemote row)
      (((b.supabase.insert row).getD b.supabase).find id |>.map (·.status)) := by
  rcases Table.find_insert_cases (t := b.supabase) row id with hfind | ⟨hin, hnone, hid, hfind⟩
  · rw [hfind]
    exact .kept
  · rw [hfind]
    exact .inserted hf hid hin (by simp [Bus.remoteStatus, hnone])

theorem remoteStep_upsert {b : Bus} {id : String} {f : Fault} {row : CommandRow}
    (hf : f.reaches = true) :
    RemoteStep b id f (.upsertRemote row)
      (((b.supabase.upsert row).getD b.supabase).find id |>.map (·.status)) := by
  cases hi : b.supabase.upsert row with
  | none => exact .kept
  | some t =>
    rw [Option.getD_some, Table.find_upsert hi]
    split
    · rename_i he
      exact .mirrored hf he (by simp [hi])
    · exact .kept

theorem remoteStep_claim {b : Bus} {id id' now : String} {f : Fault} (hf : f.reaches = true) :
    RemoteStep b id f (.claimRemote id' now)
      (((b.supabase.updateWhere (remoteIs id' .pending) (claimRemoteSet now)).find id).map
        (·.status)) := by
  rcases b.supabase.find_updateWhere_cases (remoteIs id' .pending) (claimRemoteSet now) id with
    hfind | ⟨r, hr, hk, hp, hfind⟩
  · rw [hfind]
    exact .kept
  · simp only [remoteIs, Bool.and_eq_true, decide_eq_true_eq, hk] at hp
    obtain ⟨rfl, hst⟩ := hp
    rw [hfind]
    exact .claimed hf (by rw [Bus.remoteStatus, hr, Option.map_some, hst])

theorem remoteStep_mark {b : Bus} {id id' now : String} {st : ControlCommandStatus}
    {err : Option String} {f : Fault} (hf : f.reaches = true) :
    RemoteStep b id f (.markRemote id' st now err)
      (((b.supabase.updateWhere (fun r => decide (remoteSchema.key r = id'))
        (terminalRemoteSet st now err)).find id).map (·.status)) := by
  rcases b.supabase.find_updateWhere_cases (fun r => decide (remoteSchema.key r = id'))
    (terminalRemoteSet st now err) id with hfind | ⟨r, hr, hk, hp, hfind⟩
  · rw [hfind]
    exact .kept
  · obtain rfl : id = id' := hk.symm.trans (of_decide_eq_true hp)
    rw [hfind]
    exact .marked hf (by simp [Bus.remoteStatus, hr])

theorem remoteStep_after (f : Fault) (c : BusCall) (b : Bus) (id : String) :
    RemoteStep b id f c ((after f c b).remoteStatus id) := by
  unfold after Bus.remoteStatus
  by_cases hf : f.reaches = true
  · simp only [hf, if_true]
    cases c with
    | insertRemote row => exact remoteStep_insert hf
    | claimRemote id' now => exact remoteStep_claim hf
    | markRemote id' st now err => exact remoteStep_mark hf
    | upsertRemote row => exact remoteStep_upsert hf
    | _ => exact .kept
  · simp only [hf, Bool.false_eq_true, if_false]
    exact .kept

/-- Everything a statement can do to a command's status in SQLite. -/
inductive LocalStep (b : Bus) (id : String) : Fault → BusCall → Option ControlCommandStatus → Prop
  | kept {f c} : LocalStep b id f c (b.localStatus id)
  | inserted {f row} : row.commandId = id → b.localStatus id = none →
      LocalStep b id f (.insertLocal row) (some row.status)
  | driven {f now} : f.reaches = true → b.localStatus id = some .pending →
      LocalStep b id f (.driveLocal id now) (some .processing)
  | claimed {f now} : b.localStatus id = some .pending →
      LocalStep b id f (.claimLocal id now) (some .processing)
  | marked {f st now err old} : b.localStatus id = some old → old.terminal = false →
      LocalStep b id f (.markLocal id st now err) (some st)
  | failed {f now err} : b.localStatus id = some .processing →
      LocalStep b id f (.failProcessing id now err) (some .failed)
  | requeued {f n} : b.localStatus id = some .processing →
      LocalStep b id f (.requeueLocal id n) (some .pending)
  | expired {f now old} : b.localStatus id = some old → old.terminal = false →
      LocalStep b id f (.expireLocal now) (some .failed)

/-- An `UPDATE` either leaves a command's status alone or meets its row. -/
theorem localStatus_where (b : Bus) (id : String) (p : LocalRow → Bool) (u : Update localSchema) :
    ((b.sqlite.updateWhere p u).find id).map (·.status) = b.localStatus id ∨
    ∃ r, localSchema.key r = id ∧ b.localStatus id = some r.status ∧ p r = true ∧
      ((b.sqlite.updateWhere p u).find id).map (·.status) = some (u.set r).status := by
  rcases b.sqlite.find_updateWhere_cases p u id with hfind | ⟨r, hr, hk, hp, hfind⟩
  · exact .inl (by rw [hfind, Bus.localStatus])
  · have hs : b.localStatus id = some r.status := by simp [Bus.localStatus, hr]
    exact .inr ⟨r, hk, hs, hp, by rw [hfind, Option.map_some]⟩

/-- An `UPDATE` guarded by key and status either leaves a command alone or finds
it in that status. -/
theorem localStatus_guarded (b : Bus) (id id' : String) (st : ControlCommandStatus)
    (u : Update localSchema) :
    ((b.sqlite.updateWhere (localIs id' st) u).find id).map (·.status) = b.localStatus id ∨
    ∃ r, id' = id ∧ b.localStatus id = some st ∧
      ((b.sqlite.updateWhere (localIs id' st) u).find id).map (·.status) = some (u.set r).status := by
  rcases localStatus_where b id (localIs id' st) u with he | ⟨r, hk, hs, hp, he⟩
  · exact .inl he
  · simp only [localIs, Bool.and_eq_true, decide_eq_true_eq, hk] at hp
    exact .inr ⟨r, hp.1.symm, hp.2 ▸ hs, he⟩

theorem localStep_after (f : Fault) (c : BusCall) (b : Bus) (id : String) :
    LocalStep b id f c ((after f c b).localStatus id) := by
  unfold after
  simp only [Bus.localStatus]
  cases c with
  | insertLocal row =>
    simp only [BusCall.onSqlite]
    rcases Table.find_insert_cases (t := b.sqlite) row id with hfind | ⟨-, hnone, hid, hfind⟩
    · rw [hfind]
      exact .kept
    · rw [hfind]
      exact .inserted hid (by simp [Bus.localStatus, hnone])
  | driveLocal id' now =>
    by_cases hf : f.reaches = true
    · simp only [BusCall.onSqlite, hf, if_true]
      rcases localStatus_guarded b id id' .pending (claimLocalSet now) with he | ⟨r, rfl, hp, he⟩
      · rw [he]; exact .kept
      · rw [he]; exact .driven hf hp
    · simp only [BusCall.onSqlite, hf, Bool.false_eq_true, if_false]
      exact .kept
  | claimLocal id' now =>
    rcases localStatus_guarded b id id' .pending (claimLocalSet now) with he | ⟨r, rfl, hp, he⟩
    · simp only [BusCall.onSqlite]; rw [he]; exact .kept
    · simp only [BusCall.onSqlite]; rw [he]; exact .claimed hp
  | failProcessing id' now err =>
    rcases localStatus_guarded b id id' .processing (terminalLocalSet .failed now (some err))
      with he | ⟨r, rfl, hp, he⟩
    · simp only [BusCall.onSqlite]; rw [he]; exact .kept
    · simp only [BusCall.onSqlite]; rw [he]; exact .failed hp
  | requeueLocal id' n =>
    rcases localStatus_guarded b id id' .processing (requeueSet n) with he | ⟨r, rfl, hp, he⟩
    · simp only [BusCall.onSqlite]; rw [he]; exact .kept
    · simp only [BusCall.onSqlite]; rw [he]; exact .requeued hp
  | markLocal id' st now err =>
    simp only [BusCall.onSqlite]
    rcases localStatus_where b id (localOpen id') (terminalLocalSet st now err)
      with he | ⟨r, hk, hs, hp, he⟩
    · rw [he]; exact .kept
    · simp only [localOpen, Bool.and_eq_true, decide_eq_true_eq, hk, Bool.not_eq_true'] at hp
      obtain ⟨rfl, ht⟩ := hp
      rw [he]
      exact .marked hs ht
  | expireLocal now =>
    simp only [BusCall.onSqlite]
    rcases localStatus_where b id (Control.expired now)
      (terminalLocalSet .failed now (some expiredMessage)) with he | ⟨r, -, hs, hp, he⟩
    · rw [he]; exact .kept
    · simp only [Control.expired, Bool.and_eq_true, Bool.not_eq_true'] at hp
      rw [he]
      exact .expired hs hp.1
  | _ => exact .kept

end TradingPlatform.Control
