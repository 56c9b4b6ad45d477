import TradingPlatform.Control.CommandBus

/-! # The operations of the command queue

Each function of `command_queue.py` as the program of statements it sends to
the bus. `client` says whether `get_supabase()` returned one; `now` is the
clock reading the call stamps its rows with. The retries of the pending query
collapse into its last attempt, since the query writes nothing. -/

namespace TradingPlatform.Control

open TradingPlatform.Lib TradingPlatform.Lib.Prog BusCall

def ControlCommandType.value : ControlCommandType → String
  | .flattenAndHalt => "FLATTEN_AND_HALT"
  | .goLive => "GO_LIVE"
  | .engageKillSwitch => "ENGAGE_KILL_SWITCH"
  | .releaseKillSwitch => "RELEASE_KILL_SWITCH"
  | .reloadConfig => "RELOAD_CONFIG"
  | .ping => "PING"

def maxReclaimAttempts : Nat := 3

/-- `_row_to_command` on a Supabase row, which has no TTL column. -/
def rowToCommand (r : CommandRow) : ControlCommand := { r with expiresAt := none }

/-- `_sqlite_row_to_command`. -/
def sqliteRowToCommand (r : LocalRow) : ControlCommand := r.toControlCommand

/-! ## Enqueue -/

/-- The arguments of an enqueue, with the id and the time already resolved. -/
structure CommandRequest where
  commandType : ControlCommandType
  payloadJson : String := "{}"
  requestedBy : Option String := none
  idempotencyKey : Option String := none
  commandId : String
  now : String
  expiresAt : Option String := none
  deriving DecidableEq, Repr

def CommandRequest.command (q : CommandRequest) : ControlCommand where
  commandId := q.commandId
  commandType := q.commandType
  payloadJson := q.payloadJson
  requestedBy := q.requestedBy
  idempotencyKey := q.idempotencyKey
  createdAt := q.now
  expiresAt := q.expiresAt

inductive EnqueueError
  | valueError (msg : String)
  | integrityError
  deriving DecidableEq, Repr

def ttlForbidden (t : ControlCommandType) : EnqueueError :=
  .valueError (t.value ++ " must not carry a TTL (expires_at): a protective/safety " ++
    "command must never silently expire")

def enqueueControlCommandLocal (q : CommandRequest) : BusProg (Except EnqueueError ControlCommand) :=
  if q.expiresAt.isSome && q.commandType.emergency then
    return .error (ttlForbidden q.commandType)
  else do
    if ← perform (insertLocal { q.command with attempts := 0 }) then
      return .ok q.command
    else
      return .error .integrityError

def fetchLocalByIdempotencyKey (key : String) : BusProg (Option ControlCommand) := do
  let row ← perform (selectLocalKey key)
  return row.map sqliteRowToCommand

def fetchCommandByIdempotencyKey (client : Bool) (key : String) :
    BusProg (Option ControlCommand) :=
  if client then do
    match ← perform (selectRemoteKey key) with
    | .ok (r :: _) => return some (rowToCommand r)
    | _ => fetchLocalByIdempotencyKey key
  else
    fetchLocalByIdempotencyKey key

/-- The staging an enqueue falls back to: same id, same time, no TTL. -/
def CommandRequest.fallback (q : CommandRequest) : CommandRequest := { q with expiresAt := none }

/-- What follows a Supabase insert that raised. An empty key is falsy. -/
def enqueueAfterError (client : Bool) (q : CommandRequest) (e : RemoteError) :
    BusProg (Except EnqueueError ControlCommand) :=
  match q.idempotencyKey, e with
  | some key, .duplicate =>
    if key = "" then enqueueControlCommandLocal q.fallback
    else do
      match ← fetchCommandByIdempotencyKey client key with
      | some existing => return .ok existing
      | none => enqueueControlCommandLocal q.fallback
  | _, _ => enqueueControlCommandLocal q.fallback

def enqueueControlCommand (client : Bool) (q : CommandRequest) :
    BusProg (Except EnqueueError ControlCommand) :=
  if client then do
    match ← perform (insertRemote q.command.toCommandRow) with
    | .ok rows => return .ok (rowToCommand (rows.headD q.command.toCommandRow))
    | .error e => enqueueAfterError client q e
  else
    enqueueControlCommandLocal q.fallback

/-! ## Claim -/

/-- The local compare-and-set `try_claim_command` ends in. -/
def claimLocalCopy (id now : String) : BusProg Bool := do
  let n ← perform (claimLocal id now)
  return decide (0 < n)

/-- After a Supabase CAS that won nothing: a command Supabase holds is not
claimed locally; a failed read falls through to the local copy. -/
def claimUnlessOwned (id now : String) : BusProg Bool := do
  match ← perform (selectRemoteId id) with
  | .ok (_ :: _) => return false
  | _ => claimLocalCopy id now

/-- After a winning CAS: drive the local mirror, best effort. -/
def driveMirror (id now : String) : BusProg Bool := do
  let _ ← perform (driveLocal id now)
  return true

def tryClaimCommand (client : Bool) (id now : String) : BusProg Bool :=
  if client then do
    match ← perform (claimRemote id now) with
    | .ok (_ :: _) => driveMirror id now
    | _ => claimUnlessOwned id now
  else
    claimLocalCopy id now

/-! ## Fetch -/

/-- `max(int(limit), 1)`. -/
def cap (limit : Int) : Nat := (max limit 1).toNat

/-- Append a command whose id has not been seen. -/
def appendUnseen (merged : List ControlCommand) (c : ControlCommand) : List ControlCommand :=
  if merged.any fun m => decide (m.commandId = c.commandId) then merged else merged ++ [c]

/-- The merge of both query results, sorted by time and cut to the limit. -/
def mergePending (limit : Nat) (remote : List CommandRow) (sqlite : List LocalRow) :
    List ControlCommand :=
  (((remote.map rowToCommand ++ sqlite.map sqliteRowToCommand).foldl appendUnseen []).insertionSort
    fun a b => a.createdAt ≤ b.createdAt).take limit

def fetchPendingCommands (client : Bool) (limit : Int) : BusProg (List ControlCommand) :=
  if client then do
    let resp ← perform (selectRemotePending (cap limit))
    let rows ← perform (selectLocalPending (cap limit))
    match resp with
    | .ok remote => return mergePending (cap limit) remote rows
    | .error _ => return mergePending (cap limit) [] rows
  else do
    let rows ← perform (selectLocalPending (cap limit))
    return mergePending (cap limit) [] rows

/-- The command as the claim hands it on. -/
def ControlCommand.claimedAt (c : ControlCommand) (now : String) : ControlCommand :=
  { c with
    status := .processing
    errorMessage := none
    processedAt := some now
    expiresAt := none }

/-- The claim loop over fetched commands: emergency types only. -/
def claimEmergencies (client : Bool) (now : String) :
    List ControlCommand → BusProg (List ControlCommand)
  | [] => return []
  | c :: rest =>
    if !c.commandType.emergency then claimEmergencies client now rest
    else do
      if ← tryClaimCommand client c.commandId now then
        let claimed ← claimEmergencies client now rest
        return c.claimedAt now :: claimed
      else
        claimEmergencies client now rest

def fetchAndClaimEmergencyCommands (client : Bool) (limit : Int) (now : String) :
    BusProg (List ControlCommand) := do
  let commands ← fetchPendingCommands client (cap limit)
  claimEmergencies client now commands

/-! ## Terminal marks -/

/-- `_mark_terminal`; the answer is `false` when the code logs the genuine
failure: nothing written on either bus and no local row. -/
def markTerminal (client : Bool) (id : String) (st : ControlCommandStatus) (err : Option String)
    (now : String) : BusProg Bool :=
  if client then do
    let resp ← perform (markRemote id st now err)
    let (n, present) ← perform (markLocal id st now err)
    match resp with
    | .ok (_ :: _) => return true
    | _ => return decide (1 ≤ n) || present
  else do
    let (n, present) ← perform (markLocal id st now err)
    return decide (1 ≤ n) || present

def markCommandCompleted (client : Bool) (id now : String) : BusProg Bool :=
  markTerminal client id .completed none now

def markCommandFailed (client : Bool) (id msg now : String) : BusProg Bool :=
  markTerminal client id .failed (some (String.ofList (msg.toList.take 2000))) now

/-! ## Mirror -/

/-- Upsert each row; a refused or lost upsert is logged and skipped. -/
def mirrorRows : List LocalRow → BusProg Nat
  | [] => return 0
  | r :: rest => do
    match ← perform (upsertRemote r.toCommandRow) with
    | .ok _ => return (← mirrorRows rest) + 1
    | .error _ => mirrorRows rest

def mirrorLocalCommandsToSupabase (client : Bool) (limit : Int) : BusProg Nat :=
  if client then do
    let rows ← perform (selectLocalHistory (cap limit))
    mirrorRows rows
  else
    return 0

/-! ## Boot recovery and retirement -/

/-- The counters of one reclaim pass; `poisonFailures` is what gets paged. -/
structure ReclaimOutcome where
  requeued : Nat := 0
  poisoned : Nat := 0
  poisonFailures : List String := []
  deriving DecidableEq, Repr

def poisonMessage (maxAttempts : Nat) : String :=
  "poison: exceeded " ++ toString maxAttempts ++ " reclaim attempts"

def reclaimRows (maxAttempts : Nat) (now : String) : List LocalRow → BusProg ReclaimOutcome
  | [] => return {}
  | row :: rest =>
    if maxAttempts ≤ row.attempts then do
      let n ← perform (failProcessing row.commandId now (poisonMessage maxAttempts))
      let out ← reclaimRows maxAttempts now rest
      if 1 ≤ n then return { out with poisoned := out.poisoned + 1 }
      else return { out with poisonFailures := row.commandId :: out.poisonFailures }
    else do
      let _ ← perform (requeueLocal row.commandId (row.attempts + 1))
      let out ← reclaimRows maxAttempts now rest
      return { out with requeued := out.requeued + 1 }

def reclaimOrphanedProcessingCommands (maxAttempts : Nat) (now : String) :
    BusProg ReclaimOutcome := do
  let orphans ← perform selectLocalProcessing
  reclaimRows maxAttempts now orphans

def retireExpiredCommands (now : String) : BusProg Nat :=
  perform (expireLocal now)

def retireRows (reason now : String) : List LocalRow → BusProg Nat
  | [] => return 0
  | row :: rest => do
    let n ← perform (failProcessing row.commandId now ("retired: " ++ reason))
    let retired ← retireRows reason now rest
    return if 1 ≤ n then retired + 1 else retired

/-- `cutoff` is the stamp `older_than_minutes` before `now`. -/
def retireStaleProcessingOrphans (reason now cutoff : String) (type : Option ControlCommandType) :
    BusProg Nat := do
  let rows ← perform (selectLocalStale cutoff type)
  retireRows reason now rows

/-! ## The operations as one type -/

inductive BusOp
  | enqueue (client : Bool) (q : CommandRequest)
  | enqueueLocal (q : CommandRequest)
  | tryClaim (client : Bool) (id now : String)
  | markCompleted (client : Bool) (id now : String)
  | markFailed (client : Bool) (id msg now : String)
  | mirror (client : Bool) (limit : Int)
  | reclaim (maxAttempts : Nat) (now : String)
  | retireExpired (now : String)
  | retireStale (reason now cutoff : String) (type : Option ControlCommandType)

inductive BusReply
  | staged (r : Except EnqueueError ControlCommand)
  | claimed (won : Bool)
  | marked (landed : Bool)
  | counted (n : Nat)
  | reclaimed (out : ReclaimOutcome)

def BusOp.prog : BusOp → BusProg BusReply
  | enqueue client q => .staged <$> enqueueControlCommand client q
  | enqueueLocal q => .staged <$> enqueueControlCommandLocal q
  | tryClaim client id now => .claimed <$> tryClaimCommand client id now
  | markCompleted client id now => .marked <$> markCommandCompleted client id now
  | markFailed client id msg now => .marked <$> markCommandFailed client id msg now
  | mirror client limit => .counted <$> mirrorLocalCommandsToSupabase client limit
  | reclaim maxAttempts now => .reclaimed <$> reclaimOrphanedProcessingCommands maxAttempts now
  | retireExpired now => .counted <$> retireExpiredCommands now
  | retireStale reason now cutoff type =>
    .counted <$> retireStaleProcessingOrphans reason now cutoff type

/-- One operation run alone on the bus. -/
def BusOp.perform (fs : List Fault) (op : BusOp) (b : Bus) : BusReply × Bus :=
  runAlone fs op.prog b

end TradingPlatform.Control
