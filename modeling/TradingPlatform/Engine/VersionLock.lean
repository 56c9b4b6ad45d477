import TradingPlatform.Control.ConfigWatcher
import TradingPlatform.Lib.Noted

/-! # Version locks on remote strategy rows

`verify_version_lock` and `write_remote_strategy_update` as programs over the
accesses they make one at a time: to the watcher of their own process and to the
row in the remote table. The table compares the version in the update itself,
and its trigger counts the version up. -/

namespace TradingPlatform.Engine.VersionLock

open TradingPlatform.Lib TradingPlatform.Lib.Prog TradingPlatform.Control.Config

/-- The row of the strategies table; `columns` are those a write may set. -/
structure RemoteRow where
  id : String
  name : String
  versionId : ℤ
  updatedAt : Option String
  columns : Dict String Json := .empty

/-- A process: its watcher and what its resolver keeps. -/
structure Node where
  watcher : Watcher := {}
  cachedRemoteVersions : Dict String ℤ := .empty
  cachedRemoteUpdatedAt : Dict String String := .empty
  configFallbackReason : Option String := none

structure World where
  remote : RemoteRow
  nodes : ℕ → Node

def World.setNode (s : World) (p : ℕ) (node : Node) : World :=
  { s with nodes := Function.update s.nodes p node }

def World.setWatcher (s : World) (p : ℕ) (w : Watcher) : World :=
  s.setNode p { s.nodes p with watcher := w }

inductive RowFilter
  | id (uuid : Json)
  | name (strategyId : String)

inductive Call
  | getSupabase
  | strategyVersionFor (p : ℕ) (strategyId : String)
  | strategyUpdatedAtFor (p : ℕ) (strategyId : String)
  | strategyUuidFor (p : ℕ) (strategyId : String)
  | remoteSourceRequired (p : ℕ)
  | noteConfigFallback (p : ℕ) (reason : String)
  | cacheRemote (p : ℕ) (strategyId : String) (version : ℤ) (updatedAt : String)
  | requestReload (p : ℕ)
  | getLatest (p : ℕ)
  | select (filter : RowFilter)
  | update (uuid : Json) (version : ℤ) (payload : List (String × Json))
  | recordVersion (p : ℕ) (strategyId : String) (version : ℤ)
  | recordUpdatedAt (p : ℕ) (strategyId : String) (updatedAt : String)

/-- A call that can raise answers with the exception's text. -/
@[reducible] def Call.Resp : Call → Type
  | getSupabase => Bool
  | strategyVersionFor _ _ => Option ℤ
  | strategyUpdatedAtFor _ _ => Option String
  | strategyUuidFor _ _ => Option Json
  | remoteSourceRequired _ => Bool
  | getLatest _ => Except String Unit
  | select _ => Except String (Option RemoteRow)
  | update _ _ _ => Except String (Option RemoteRow)
  | _ => Unit

abbrev LockProg := Prog Call Call.Resp

abbrev ask (c : Call) : LockProg c.Resp := perform c

/-- What the surroundings bring to one call. -/
structure Turn where
  client : Bool := true
  error : Option String := none
  /-- The update takes effect and its answer is lost. -/
  lost : Option String := none
  /-- The clock and what a fetch finds; `none` where loading the configuration raises. -/
  latest : Option (ℚ × AppConfig × RemoteAnswer) := none
  updatedAt : Option String := none

section Answers
variable (env : Env)

def RowFilter.matchesRow (row : RemoteRow) : RowFilter → Bool
  | .id uuid => uuid.text env.repr = row.id
  | .name strategyId => strategyId = row.name

/-- The conditional update finds the row. -/
def finds (uuid : Json) (version : ℤ) (row : RemoteRow) : Bool :=
  (RowFilter.id uuid).matchesRow env row && row.versionId = version

/-- The row after an update: the trigger counts the version up and stamps the time. -/
def RemoteRow.written (row : RemoteRow) (payload : List (String × Json)) (stamp : Option String) :
    RemoteRow :=
  { row with
    versionId := row.versionId + 1
    updatedAt := stamp
    columns := row.columns.setAll Prod.fst Prod.snd payload }

/-- `get_latest` raises where the fetch leaves the request for a reload standing. -/
def latestWatcher (i : Turn) (w : Watcher) : Except String Unit × Watcher :=
  match i.latest with
  | none => (.error (i.error.getD ""), w)
  | some (now, base, answer) =>
    let w' := Control.Config.getLatest env now base answer w
    (if w'.reloadRequested then .error (i.error.getD "") else .ok (), w')

def answer (i : Turn) : (c : Call) → World → c.Resp × World
  | .getSupabase, s => (i.client, s)
  | .strategyVersionFor p name, s => ((s.nodes p).watcher.strategyVersionFor name, s)
  | .strategyUpdatedAtFor p name, s => ((s.nodes p).watcher.strategyUpdatedAtFor name, s)
  | .strategyUuidFor p name, s =>
    (((s.nodes p).watcher.strategyUuidFor name).filter fun uuid => !uuid.isNull, s)
  | .remoteSourceRequired p, s => ((s.nodes p).watcher.remoteSourceRequired, s)
  | .noteConfigFallback p reason, s =>
    ((), s.setNode p { s.nodes p with configFallbackReason := some reason })
  | .cacheRemote p name version updatedAt, s =>
    let node := s.nodes p
    ((), s.setNode p { node with
      cachedRemoteVersions := node.cachedRemoteVersions.set name version
      cachedRemoteUpdatedAt :=
        if updatedAt = "" then node.cachedRemoteUpdatedAt
        else node.cachedRemoteUpdatedAt.set name updatedAt })
  | .requestReload p, s => ((), s.setWatcher p (s.nodes p).watcher.requestReload)
  | .getLatest p, s =>
    let out := latestWatcher env i (s.nodes p).watcher
    (out.1, s.setWatcher p out.2)
  | .select filter, s =>
    match i.error with
    | some text => (.error text, s)
    | none => (.ok (if filter.matchesRow env s.remote then some s.remote else none), s)
  | .update uuid version payload, s =>
    match i.error with
    | some text => (.error text, s)
    | none =>
      if finds env uuid version s.remote then
        let row := s.remote.written payload i.updatedAt
        (match i.lost with
          | some text => .error text
          | none => .ok (some row), { s with remote := row })
      else (.ok none, s)
  | .recordVersion p name version, s =>
    let w := (s.nodes p).watcher
    ((), s.setWatcher p { w with strategyVersions := w.strategyVersions.set (.str name) version })
  | .recordUpdatedAt p name updatedAt, s =>
    let w := (s.nodes p).watcher
    ((), s.setWatcher p
      { w with strategyUpdatedAt := w.strategyUpdatedAt.set (.str name) updatedAt })

end Answers

structure ConfigVersionLockResult where
  allowed : Bool
  strategyId : String
  localVersionId : Option ℤ
  remoteVersionId : Option ℤ
  remoteUpdatedAt : Option String
  conflictResolved : Bool
  reason : String

structure RemoteConfigWriteResult where
  applied : Bool
  strategyId : String
  versionId : Option ℤ
  reason : String

section Programs
variable (normalize : String → Except String String)

def fetchRemoteStrategyRow (p : ℕ) (strategyId : String) : LockProg (Option RemoteRow) := do
  if ← ask .getSupabase then
    let uuid ← ask (.strategyUuidFor p strategyId)
    let filter := match uuid with
      | some uuid => if uuid.truthy then RowFilter.id uuid else .name strategyId
      | none => .name strategyId
    match ← ask (.select filter) with
    | .ok row => return row
    | .error _ =>
      if ← ask (.remoteSourceRequired p) then
        ask (.noteConfigFallback p "remote_strategy_row_fetch_failed")
      return none
  else return none

/-- `_normalize_updated_at_token` of both times, where both are there. -/
def updatedAtDiffers (localUpdated : Option String) (remoteUpdatedAt : String) :
    Except String Bool :=
  match localUpdated with
  | none => .ok false
  | some localUpdated =>
    if localUpdated = "" ∨ remoteUpdatedAt = "" then .ok false
    else
      match normalize localUpdated, normalize remoteUpdatedAt with
      | .ok l, .ok r => .ok (l != r)
      | .error text, _ => .error text
      | .ok _, .error text => .error text

/-- The watcher is made to reload, and the lock refused. -/
def resolveConflict (p : ℕ) (lock : ConfigVersionLockResult) :
    LockProg (Except String ConfigVersionLockResult) := do
  ask (.requestReload p)
  match ← ask (.getLatest p) with
  | .error text => return .error text
  | .ok () => return .ok lock

def verifyVersionLock (p : ℕ) (strategyId : String) :
    LockProg (Except String ConfigVersionLockResult) := do
  let localVersion ← ask (.strategyVersionFor p strategyId)
  match ← fetchRemoteStrategyRow p strategyId with
  | none =>
    if ← ask (.remoteSourceRequired p) then
      ask (.noteConfigFallback p "remote_unavailable")
      return .ok ⟨false, strategyId, localVersion, none, none, false, "remote_unreachable"⟩
    else
      return .ok ⟨true, strategyId, localVersion, none, none, false, "remote_unavailable"⟩
  | some row =>
    let remoteUpdatedAt := row.updatedAt.getD ""
    let shown := if remoteUpdatedAt = "" then none else some remoteUpdatedAt
    ask (.cacheRemote p strategyId row.versionId remoteUpdatedAt)
    match localVersion with
    | none =>
      return .ok ⟨true, strategyId, none, some row.versionId, shown, false,
        "no_local_version_cache"⟩
    | some version =>
      if version = row.versionId then
        match updatedAtDiffers normalize (← ask (.strategyUpdatedAtFor p strategyId))
            remoteUpdatedAt with
        | .error text => return .error text
        | .ok true =>
          resolveConflict p ⟨false, strategyId, some version, some row.versionId, shown, true,
            "updated_at_mismatch"⟩
        | .ok false =>
          return .ok ⟨true, strategyId, some version, some row.versionId, shown, false,
            "version_match"⟩
      else
        resolveConflict p
          ⟨false, strategyId, some version, some row.versionId, shown, true, "version_mismatch"⟩

/-- The columns a write sets: never the version or the time. -/
def payloadOf (updates : List (String × Json)) : List (String × Json) :=
  updates.filter fun update => update.1 ≠ "version_id" ∧ update.1 ≠ "updated_at"

/-- The conditional update, and what follows its answer. -/
def sendUpdate (p : ℕ) (strategyId : String) (uuid : Json) (version : ℤ)
    (payload : List (String × Json)) : LockProg RemoteConfigWriteResult := do
  match ← ask (.update uuid version payload) with
  | .error text => return ⟨false, strategyId, none, text⟩
  | .ok none =>
    match ← verifyVersionLock normalize p strategyId with
    | .error text => return ⟨false, strategyId, none, text⟩
    | .ok resolved =>
      return ⟨false, strategyId, resolved.remoteVersionId, "optimistic_write_rejected"⟩
  | .ok (some row) =>
    let newVersion := if row.versionId = 0 then version + 1 else row.versionId
    ask (.recordVersion p strategyId newVersion)
    match row.updatedAt with
    | some updatedAt => ask (.recordUpdatedAt p strategyId updatedAt)
    | none => pure ()
    return ⟨true, strategyId, some newVersion, "applied"⟩

/-- The version the update is sent with: the caller's, else the cached one, else the one the
check has found. -/
def versionToSend (p : ℕ) (strategyId : String) (expectedVersionId : Option ℤ)
    (lock : ConfigVersionLockResult) : LockProg ℤ := do
  match expectedVersionId with
  | some version => return version
  | none =>
    return (← ask (.strategyVersionFor p strategyId)).getD (lock.remoteVersionId.getD 0)

def writeRemoteStrategyUpdate (p : ℕ) (strategyId : String) (updates : List (String × Json))
    (expectedVersionId : Option ℤ) : LockProg (Except String RemoteConfigWriteResult) := do
  match ← verifyVersionLock normalize p strategyId with
  | .error text => return .error text
  | .ok lock =>
    if !lock.allowed && lock.conflictResolved then
      return .ok ⟨false, strategyId, lock.remoteVersionId, "config_version_conflict"⟩
    else if !(← ask .getSupabase) then
      return .ok ⟨false, strategyId, none, "remote_unavailable"⟩
    else
      match ← ask (.strategyUuidFor p strategyId) with
      | none => return .ok ⟨false, strategyId, none, "strategy_uuid_missing"⟩
      | some uuid =>
        let version ← versionToSend p strategyId expectedVersionId lock
        return .ok (← sendUpdate normalize p strategyId uuid version (payloadOf updates))

end Programs

/-- What the processes do: a write, a poll of the configuration, and a request for a reload. -/
inductive Op
  | write (p : ℕ) (strategyId : String) (updates : List (String × Json))
      (expectedVersionId : Option ℤ)
  | poll (p : ℕ)
  | reload (p : ℕ)

inductive Reply
  | wrote (result : Except String RemoteConfigWriteResult)
  | polled (result : Except String Unit)

def Op.prog (normalize : String → Except String String) : Op → LockProg Reply
  | .write p strategyId updates expected =>
    Reply.wrote <$> writeRemoteStrategyUpdate normalize p strategyId updates expected
  | .poll p => Reply.polled <$> ask (.getLatest p)
  | .reload p => do
    ask (.requestReload p)
    Reply.polled <$> ask (.getLatest p)

end TradingPlatform.Engine.VersionLock
