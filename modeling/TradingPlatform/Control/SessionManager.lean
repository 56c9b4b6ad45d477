import TradingPlatform.Control.CommandBus
import TradingPlatform.Lib.Dict
import TradingPlatform.Lib.Runs
import Mathlib.Algebra.Order.Field.Rat

/-! # Performance sessions

One manager keeps the sessions of the legs in Supabase and a cache of them; the index on
active sessions is not unique. Statements may fail before or after their effect, and sessions
are closed by SQL behind the manager's back, also between two of its statements. -/

namespace TradingPlatform.Control

open TradingPlatform.Lib TradingPlatform.Lib.Runs

/-- A row of `performance_sessions`. -/
structure SessionRow where
  id : ℕ
  strategyId : String
  environment : String
  baselineEquity : ℚ
  isActive : Bool := true
  deriving DecidableEq

structure ActiveSession where
  sessionId : ℕ
  strategyId : String
  environment : String
  baselineEquity : ℚ
  deriving DecidableEq

/-- A row of `equity_snapshots`. -/
structure EquitySnapshot where
  sessionId : ℕ
  equity : ℚ
  cash : ℚ
  pctReturn : ℚ
  deriving DecidableEq

structure SessionDb where
  sessions : List SessionRow := []
  /-- What `gen_random_uuid()` gives next. -/
  nextId : ℕ := 0
  strategies : Dict String String := .empty
  goLiveEvents : List (String × ℚ) := []
  snapshots : List EquitySnapshot := []

namespace SessionDb

/-- `UPDATE performance_sessions SET is_active = false WHERE …`. -/
def close (db : SessionDb) (which : SessionRow → Bool) : SessionDb :=
  { db with sessions := db.sessions.map fun r => { r with isActive := r.isActive && !which r } }

def insert (db : SessionDb) (strategyId environment : String) (equity : ℚ) : SessionDb :=
  { db with
    sessions := db.sessions ++ [{ id := db.nextId, strategyId, environment, baselineEquity := equity }]
    nextId := db.nextId + 1 }

def activeOf (strategyId : String) (r : SessionRow) : Bool :=
  decide (r.strategyId = strategyId) && r.isActive

end SessionDb

/-! ## Statements -/

inductive SessionCall
  | getSupabase
  | selectActive (strategyId : String)
  | insertSession (strategyId environment : String) (equity : ℚ)
  | closeSessions (strategyId : String)
  | setEnvironment (strategyId environment : String)
  | insertGoLive (strategyId : String) (equity : ℚ)
  | insertSnapshot (snapshot : EquitySnapshot)

/-- An answer, or an exception, whose text may say `ConnectionTerminated`. -/
inductive Reply (α : Type)
  | data (a : α)
  | raised (connectionTerminated : Bool)

namespace SessionCall

@[reducible] def Resp : SessionCall → Type
  | getSupabase => Bool
  | selectActive _ => Reply (Option SessionRow)
  | insertSession .. => Reply (Option ℕ)
  | _ => Reply Unit

def effect : SessionCall → SessionDb → SessionDb
  | insertSession strategyId environment equity, db => db.insert strategyId environment equity
  | closeSessions strategyId, db => db.close (SessionDb.activeOf strategyId)
  | setEnvironment strategyId environment, db =>
    { db with strategies := db.strategies.set strategyId environment }
  | insertGoLive strategyId equity, db =>
    { db with goLiveEvents := db.goLiveEvents ++ [(strategyId, equity)] }
  | insertSnapshot snapshot, db => { db with snapshots := db.snapshots ++ [snapshot] }
  | _, db => db

end SessionCall

/-- What the environment decides at a call: which sessions were closed by hand before it, whether
there is a client, and how the statement ends; an insert may answer no data. -/
structure SessionWeather where
  closed : List ℕ := []
  connected : Bool := true
  fault : Fault := .answered
  connectionTerminated : Bool := false
  silent : Bool := false

instance : Inhabited SessionWeather := ⟨{}⟩

def SessionWeather.deliver {α : Type} (w : SessionWeather) (a : α) : Reply α :=
  if w.fault = .answered then .data a else .raised w.connectionTerminated

def sessionRespond (w : SessionWeather) : (c : SessionCall) → SessionDb → c.Resp
  | .getSupabase, _ => w.connected
  | .selectActive strategyId, db =>
    w.deliver (db.sessions.find? (SessionDb.activeOf strategyId))
  | .insertSession .., db => w.deliver (if w.silent then none else some db.nextId)
  | .closeSessions _, _ | .setEnvironment .., _ | .insertGoLive .., _ | .insertSnapshot _, _ =>
    w.deliver ()

def sessionAnswer (w : SessionWeather) (c : SessionCall) (db : SessionDb) : c.Resp × SessionDb :=
  let db := db.close fun r => decide (r.id ∈ w.closed)
  (sessionRespond w c db, if w.fault.reaches then c.effect db else db)

abbrev SessionProg := Prog SessionCall SessionCall.Resp

abbrev getSupabase : SessionProg Bool := Prog.perform SessionCall.getSupabase

abbrev selectActive (strategyId : String) : SessionProg (Reply (Option SessionRow)) :=
  Prog.perform (SessionCall.selectActive strategyId)

abbrev insertSession (strategyId environment : String) (equity : ℚ) :
    SessionProg (Reply (Option ℕ)) :=
  Prog.perform (SessionCall.insertSession strategyId environment equity)

abbrev closeSessions (strategyId : String) : SessionProg (Reply Unit) :=
  Prog.perform (SessionCall.closeSessions strategyId)

abbrev setEnvironment (strategyId environment : String) : SessionProg (Reply Unit) :=
  Prog.perform (SessionCall.setEnvironment strategyId environment)

abbrev insertGoLive (strategyId : String) (equity : ℚ) : SessionProg (Reply Unit) :=
  Prog.perform (SessionCall.insertGoLive strategyId equity)

abbrev insertSnapshot (snapshot : EquitySnapshot) : SessionProg (Reply Unit) :=
  Prog.perform (SessionCall.insertSnapshot snapshot)

/-- `run_with_supabase_retry`: an operation is tried again on a terminated connection, with the
attempts that are left. -/
def runWithSupabaseRetry {α : Type} (op : SessionProg (Reply α)) : ℕ → SessionProg (Option α)
  | 0 => .ret none
  | left + 1 => do
    if ← getSupabase then
      match ← op with
      | .data a => .ret (some a)
      | .raised connectionTerminated =>
        if connectionTerminated ∧ left ≠ 0 then runWithSupabaseRetry op left else .ret none
    else .ret none

/-! ## `SessionManager` -/

abbrev SessionCache := Dict String ActiveSession

/-- The cache a call leaves, what it answers, and whether it raised. -/
structure SessionOutcome where
  cache : SessionCache
  answer : Option ActiveSession := none
  raised : Bool := false

def createSession (strategyId environment : String) (equity : ℚ) :
    SessionProg (Reply (Option ActiveSession)) := do
  if ← getSupabase then
    match ← insertSession strategyId environment equity with
    | .raised connectionTerminated => .ret (.raised connectionTerminated)
    | .data none => .ret (.data none)
    | .data (some id) =>
      .ret (.data (some { sessionId := id, strategyId, environment, baselineEquity := equity }))
  else .ret (.data none)

def ensureSession (cache : SessionCache) (strategyId environment : String) (initialBaseline : ℚ) :
    SessionProg SessionOutcome := do
  match ← runWithSupabaseRetry (selectActive strategyId) 3 with
  | none => .ret { cache }
  | some (some row) =>
    let session : ActiveSession :=
      { sessionId := row.id, strategyId
        environment := row.environment, baselineEquity := row.baselineEquity }
    match cache.get? strategyId with
    | some cached =>
      if cached.sessionId = row.id ∧ cached.environment = environment then
        .ret { cache, answer := some cached }
      else .ret { cache := cache.set strategyId session, answer := some session }
    | none => .ret { cache := cache.set strategyId session, answer := some session }
  | some none =>
    let cache := cache.erase strategyId
    match ← createSession strategyId environment initialBaseline with
    | .data (some session) => .ret { cache := cache.set strategyId session, answer := some session }
    | .data none => .ret { cache }
    -- caught and logged
    | .raised _ => .ret { cache }

def invalidate (cache : SessionCache) (strategyId : String) : SessionProg SessionOutcome :=
  .ret { cache := cache.erase strategyId }

/-- `go_live`, inside its `try`: what it leaves when a statement raises. -/
def goLive (cache : SessionCache) (strategyId : String) (liveEquity : ℚ) :
    SessionProg SessionOutcome := do
  if ← getSupabase then
    let .data () ← closeSessions strategyId | .ret { cache }
    let .data () ← setEnvironment strategyId "live" | .ret { cache }
    let .data () ← insertGoLive strategyId liveEquity | .ret { cache }
    let cache := cache.erase strategyId
    match ← createSession strategyId "live" liveEquity with
    | .raised _ => .ret { cache }
    | .data none => .ret { cache }
    | .data (some session) =>
      let cache := cache.set strategyId session
      let .data () ← insertSnapshot
        { sessionId := session.sessionId, equity := liveEquity, cash := liveEquity, pctReturn := 0 }
        | .ret { cache }
      .ret { cache, answer := some session }
  else .ret { cache }

/-- `close_active` does not catch what its statement raises. -/
def closeActive (cache : SessionCache) (strategyId : String) : SessionProg SessionOutcome := do
  if ← getSupabase then
    let .data () ← closeSessions strategyId | .ret { cache, raised := true }
    .ret { cache := cache.erase strategyId }
  else .ret { cache }

def pctReturn (baseline equity : ℚ) : ℚ :=
  if 0 < baseline then (equity - baseline) / baseline * 100 else 0

/-- `SupabaseSync.sync_equity_snapshot`. -/
def syncEquitySnapshot (cache : SessionCache) (strategyId : Option String) (environment : String)
    (equity cash : ℚ) : SessionProg SessionOutcome := do
  match strategyId with
  | none => .ret { cache }
  | some strategyId =>
    let ensured ← ensureSession cache strategyId environment equity
    match ensured.answer with
    | none => .ret { cache := ensured.cache }
    | some session =>
      if ← getSupabase then
        let _ ← insertSnapshot
          { sessionId := session.sessionId, equity, cash
            pctReturn := pctReturn session.baselineEquity equity }
        .ret { cache := ensured.cache }
      else .ret { cache := ensured.cache }

/-! ## Runs -/

inductive SessionOp
  | ensureSession (strategyId environment : String) (initialBaseline : ℚ)
  | invalidate (strategyId : String)
  | goLive (strategyId : String) (liveEquity : ℚ)
  | closeActive (strategyId : String)
  | syncEquitySnapshot (strategyId : Option String) (environment : String) (equity cash : ℚ)

def SessionOp.prog (cache : SessionCache) : SessionOp → SessionProg SessionOutcome
  | .ensureSession strategyId environment initialBaseline =>
    Control.ensureSession cache strategyId environment initialBaseline
  | .invalidate strategyId => Control.invalidate cache strategyId
  | .goLive strategyId liveEquity => Control.goLive cache strategyId liveEquity
  | .closeActive strategyId => Control.closeActive cache strategyId
  | .syncEquitySnapshot strategyId environment equity cash =>
    Control.syncEquitySnapshot cache strategyId environment equity cash

/-- A call of the manager, SQL between two calls that closes sessions or replaces one, and a new
process. -/
inductive SessionEvent
  | called (op : SessionOp) (weather : List SessionWeather)
  | closedOutside (ids : List ℕ)
  | rotatedOutside (strategyId environment : String) (baseline : ℚ)
  | restarted

structure SessionDesk where
  db : SessionDb := {}
  cache : SessionCache := .empty

/-- What a call answers, and the desk it leaves. -/
def SessionDesk.perform (d : SessionDesk) (op : SessionOp) (weather : List SessionWeather) :
    SessionOutcome × SessionDesk :=
  let (outcome, db, _) := (op.prog d.cache).exec sessionAnswer weather d.db
  (outcome, { db, cache := outcome.cache })

def sessionStep (d : SessionDesk) : SessionEvent → SessionDesk
  | .called op weather => (d.perform op weather).2
  | .closedOutside ids => { d with db := d.db.close fun r => decide (r.id ∈ ids) }
  | .rotatedOutside strategyId environment baseline =>
    { d with
      db := (d.db.close (SessionDb.activeOf strategyId)).insert strategyId environment baseline }
  | .restarted => { d with cache := .empty }

/-! ## The invariant -/

namespace SessionDb

/-- Two rows: of two ids, and not both active for one strategy. -/
def Apart (a b : SessionRow) : Prop :=
  a.id ≠ b.id ∧ ¬ (a.isActive = true ∧ b.isActive = true ∧ a.strategyId = b.strategyId)

instance : Std.Symm Apart :=
  ⟨fun _ _ h => ⟨h.1.symm, fun hr => h.2 ⟨hr.2.1, hr.1, hr.2.2.symm⟩⟩⟩

def NoActive (db : SessionDb) (strategyId : String) : Prop :=
  ∀ r ∈ db.sessions, activeOf strategyId r = false

/-- The snapshot is measured from the baseline of its session. -/
def Measures (db : SessionDb) (snapshot : EquitySnapshot) : Prop :=
  ∃ r ∈ db.sessions, r.id = snapshot.sessionId ∧
    snapshot.pctReturn = pctReturn r.baselineEquity snapshot.equity

/-- The session shows a row, which may be closed by now. -/
def Shows (r : SessionRow) (session : ActiveSession) : Prop :=
  r.id = session.sessionId ∧ r.strategyId = session.strategyId ∧
    r.environment = session.environment ∧ r.baselineEquity = session.baselineEquity

def Knows (db : SessionDb) (session : ActiveSession) : Prop :=
  ∃ r ∈ db.sessions, Shows r session

structure Sound (db : SessionDb) : Prop where
  fresh : ∀ r ∈ db.sessions, r.id < db.nextId
  single : db.sessions.Pairwise Apart
  measured : ∀ snapshot ∈ db.snapshots, db.Measures snapshot

variable {db : SessionDb}

theorem NoActive.close {strategyId : String} (h : db.NoActive strategyId)
    (which : SessionRow → Bool) : (db.close which).NoActive strategyId := by
  intro r hr
  obtain ⟨r', hr', rfl⟩ := List.mem_map.mp hr
  have hquiet := h r' hr'
  simp only [activeOf, Bool.and_eq_false_iff] at hquiet ⊢
  exact hquiet.imp id fun h => Or.inl h

theorem noActive_close (strategyId : String) : (db.close (activeOf strategyId)).NoActive strategyId := by
  intro r hr
  obtain ⟨r', -, rfl⟩ := List.mem_map.mp hr
  simp only [activeOf]
  cases r'.isActive <;> by_cases hs : r'.strategyId = strategyId <;> simp [hs]

theorem Knows.close {session : ActiveSession} (h : db.Knows session) (which : SessionRow → Bool) :
    (db.close which).Knows session := by
  obtain ⟨r, hr, hshows⟩ := h
  exact ⟨_, List.mem_map_of_mem hr, hshows⟩

theorem Measures.close {snapshot : EquitySnapshot} (h : db.Measures snapshot)
    (which : SessionRow → Bool) : (db.close which).Measures snapshot := by
  obtain ⟨r, hr, hmeasured⟩ := h
  exact ⟨_, List.mem_map_of_mem hr, hmeasured⟩

theorem Sound.close (h : db.Sound) (which : SessionRow → Bool) : (db.close which).Sound where
  fresh r hr := by
    obtain ⟨r', hr', rfl⟩ := List.mem_map.mp hr
    exact h.fresh r' hr'
  single := by
    refine List.pairwise_map.mpr (h.single.imp ?_)
    rintro a b ⟨hid, hrivals⟩
    refine ⟨hid, fun hr => hrivals ⟨?_, ?_, hr.2.2⟩⟩
    · exact (Bool.and_eq_true_iff.mp hr.1).1
    · exact (Bool.and_eq_true_iff.mp hr.2.1).1
  measured snapshot hs := (h.measured snapshot hs).close which

theorem Knows.insert {session : ActiveSession} (h : db.Knows session)
    (strategyId environment : String) (equity : ℚ) :
    (db.insert strategyId environment equity).Knows session := by
  obtain ⟨r, hr, hshows⟩ := h
  exact ⟨r, List.mem_append_left _ hr, hshows⟩

theorem Measures.insert {snapshot : EquitySnapshot} (h : db.Measures snapshot)
    (strategyId environment : String) (equity : ℚ) :
    (db.insert strategyId environment equity).Measures snapshot := by
  obtain ⟨r, hr, hmeasured⟩ := h
  exact ⟨r, List.mem_append_left _ hr, hmeasured⟩

theorem Sound.insert (h : db.Sound) {strategyId : String} (hquiet : db.NoActive strategyId)
    (environment : String) (equity : ℚ) : (db.insert strategyId environment equity).Sound where
  fresh r hr := by
    rcases List.mem_append.mp hr with hr | hr
    · exact Nat.lt_succ_of_lt (h.fresh r hr)
    · rw [List.mem_singleton.mp hr]
      exact Nat.lt_succ_self _
  single := by
    refine List.pairwise_append.mpr ⟨h.single, List.pairwise_singleton .., fun a ha b hb => ?_⟩
    rw [List.mem_singleton.mp hb]
    refine ⟨(h.fresh a ha).ne, fun hrivals => ?_⟩
    have hactive : activeOf strategyId a = true := by simp [activeOf, hrivals.1, hrivals.2.2]
    rw [hquiet a ha] at hactive
    cases hactive
  measured snapshot hs := (h.measured snapshot hs).insert ..

theorem Sound.eq_of_id (h : db.Sound) {a b : SessionRow} (ha : a ∈ db.sessions)
    (hb : b ∈ db.sessions) (hid : a.id = b.id) : a = b := by
  by_contra hne
  exact (h.single.forall ha hb hne).1 hid

/-- The active rows of a strategy, if there is one, are it. -/
theorem Sound.active_eq (h : db.Sound) {r : SessionRow} (hr : r ∈ db.sessions) {strategyId : String}
    (hactive : activeOf strategyId r = true) : db.sessions.filter (activeOf strategyId) = [r] := by
  have hall : ∀ a ∈ db.sessions.filter (activeOf strategyId), a = r := by
    intro a ha
    obtain ⟨ha, ha'⟩ := List.mem_filter.mp ha
    by_contra hne
    simp only [activeOf, Bool.and_eq_true, decide_eq_true_eq] at ha' hactive
    exact (h.single.forall ha hr hne).2 ⟨ha'.2, hactive.2, ha'.1.trans hactive.1.symm⟩
  have hnodup : (db.sessions.filter (activeOf strategyId)).Nodup :=
    List.Pairwise.filter _ (h.single.imp fun hab heq => hab.1 (congrArg SessionRow.id heq))
  exact List.perm_singleton.mp ((List.perm_ext_iff_of_nodup hnodup (List.nodup_singleton r)).mpr
    fun a => ⟨fun ha => List.mem_singleton.mpr (hall a ha), fun ha => by
      rw [List.mem_singleton.mp ha]
      exact List.mem_filter.mpr ⟨hr, hactive⟩⟩)

theorem Sound.length_active_le (h : db.Sound) (strategyId : String) :
    (db.sessions.filter (activeOf strategyId)).length ≤ 1 := by
  cases hactive : db.sessions.filter (activeOf strategyId) with
  | nil => exact Nat.zero_le 1
  | cons r rest =>
    have hr : r ∈ db.sessions.filter (activeOf strategyId) := by simp [hactive]
    obtain ⟨hr, hr'⟩ := List.mem_filter.mp hr
    rw [← hactive, h.active_eq hr hr']
    exact le_rfl

end SessionDb

/-! ## What a statement keeps -/

/-- What a statement needs for the table to stay sound. -/
def SessionCall.Allowed (db : SessionDb) : SessionCall → Prop
  | .insertSession strategyId .. => db.NoActive strategyId
  | .insertSnapshot snapshot => db.Measures snapshot
  | _ => True

section Answer
variable {db : SessionDb} {w : SessionWeather}

theorem knows_sessionAnswer {session : ActiveSession} (h : db.Knows session) (c : SessionCall) :
    (sessionAnswer w c db).2.Knows session := by
  have hclosed := h.close fun r => decide (r.id ∈ w.closed)
  unfold sessionAnswer
  dsimp only
  split
  · cases c with
    | insertSession => exact hclosed.insert ..
    | closeSessions => exact hclosed.close _
    | _ => exact hclosed
  · exact hclosed

theorem measures_sessionAnswer {snapshot : EquitySnapshot} (h : db.Measures snapshot)
    (c : SessionCall) : (sessionAnswer w c db).2.Measures snapshot := by
  have hclosed := h.close fun r => decide (r.id ∈ w.closed)
  unfold sessionAnswer
  dsimp only
  split
  · cases c with
    | insertSession => exact hclosed.insert ..
    | closeSessions => exact hclosed.close _
    | _ => exact hclosed
  · exact hclosed

theorem sound_sessionAnswer (h : db.Sound) {c : SessionCall} (hc : c.Allowed db) :
    (sessionAnswer w c db).2.Sound := by
  have hclosed := h.close fun r => decide (r.id ∈ w.closed)
  unfold sessionAnswer
  dsimp only
  split
  · cases c with
    | insertSession => exact hclosed.insert (SessionDb.NoActive.close hc _) ..
    | closeSessions => exact hclosed.close _
    | insertSnapshot snapshot =>
      have hmeasured : ∀ s ∈ db.snapshots ++ [snapshot], db.Measures s := by
        intro s hs
        rcases List.mem_append.mp hs with hs | hs
        · exact h.measured s hs
        · rw [List.mem_singleton.mp hs]
          exact hc
      exact ⟨hclosed.fresh, hclosed.single, fun s hs => (hmeasured s hs).close _⟩
    | _ => exact ⟨hclosed.fresh, hclosed.single, hclosed.measured⟩
  · exact hclosed

/-- No statement but an insert of a session opens one. -/
theorem noActive_sessionAnswer {strategyId : String} (h : db.NoActive strategyId) {c : SessionCall}
    (hc : ∀ s e q, c ≠ .insertSession s e q) :
    (sessionAnswer w c db).2.NoActive strategyId := by
  have hclosed := h.close fun r => decide (r.id ∈ w.closed)
  unfold sessionAnswer
  dsimp only
  split
  · cases c with
    | insertSession s e q => exact absurd rfl (hc s e q)
    | closeSessions => exact hclosed.close _
    | _ => exact hclosed
  · exact hclosed

end Answer

/-! ## What an operation ensures -/

/-- A sound table, and a cache of sessions it has or had. -/
structure Kept (cache : SessionCache) (db : SessionDb) : Prop where
  sound : db.Sound
  known : ∀ strategyId session, cache.get? strategyId = some session →
    session.strategyId = strategyId ∧ db.Knows session

/-- The session shows an active row of the strategy. -/
def Current (db : SessionDb) (strategyId : String) (session : ActiveSession) : Prop :=
  ∃ r ∈ db.sessions, SessionDb.activeOf strategyId r = true ∧ SessionDb.Shows r session

section Ensures
variable {db : SessionDb} {cache : SessionCache} {strategyId : String}

theorem Kept.answer (h : Kept cache db) {c : SessionCall} (hc : c.Allowed db) (w : SessionWeather) :
    Kept cache (sessionAnswer w c db).2 where
  sound := sound_sessionAnswer h.sound hc
  known s session hs := ⟨(h.known s session hs).1, knows_sessionAnswer (h.known s session hs).2 c⟩

theorem Kept.erase (h : Kept cache db) (strategyId : String) : Kept (cache.erase strategyId) db where
  sound := h.sound
  known s session hs := by
    rw [Dict.get?_erase] at hs
    split at hs
    · cases hs
    · exact h.known s session hs

theorem Current.shows {session : ActiveSession} (h : Current db strategyId session) :
    session.strategyId = strategyId ∧ db.Knows session := by
  obtain ⟨r, hr, hactive, hshows⟩ := h
  simp only [SessionDb.activeOf, Bool.and_eq_true, decide_eq_true_eq] at hactive
  exact ⟨hshows.2.1.symm.trans hactive.1, r, hr, hshows⟩

theorem Kept.set (h : Kept cache db) {session : ActiveSession}
    (hcurrent : Current db strategyId session) : Kept (cache.set strategyId session) db where
  sound := h.sound
  known s session' hs := by
    rw [Dict.get?_set] at hs
    split at hs
    · rename_i heq
      cases hs
      exact heq ▸ hcurrent.shows
    · exact h.known s session' hs

/-- What each attempt ensures, the retry ensures. -/
theorem runWithSupabaseRetry_ensures {α : Type} {op : SessionProg (Reply α)}
    {P : α → SessionDb → Prop}
    (hop : ∀ db, Kept cache db → Prog.Ensures sessionAnswer
      (fun reply db => Kept cache db ∧ ∀ a, reply = .data a → P a db) op db) :
    ∀ (attempts : ℕ) (db : SessionDb), Kept cache db → Prog.Ensures sessionAnswer
      (fun found db => Kept cache db ∧ ∀ a, found = some a → P a db)
      (runWithSupabaseRetry op attempts) db
  | 0, db, h => ⟨h, by simp⟩
  | left + 1, db, h => by
    simp only [runWithSupabaseRetry, Prog.perform_bind, Prog.ensures_call]
    intro w
    have hconnected := h.answer (c := .getSupabase) trivial w
    split
    · refine Prog.Ensures.bind (fun reply db hreply => ?_) (hop _ hconnected)
      cases reply with
      | data a => exact ⟨hreply.1, fun a' ha' => hreply.2 a' (congrArg Reply.data (Option.some.inj ha'))⟩
      | raised connectionTerminated =>
        dsimp only
        split
        · exact runWithSupabaseRetry_ensures hop left db hreply.1
        · exact ⟨hreply.1, by simp⟩
    · exact ⟨hconnected, by simp⟩

theorem deliver_eq_data {α : Type} {w : SessionWeather} {a b : α} :
    w.deliver a = .data b ↔ w.fault = .answered ∧ a = b := by
  unfold SessionWeather.deliver
  split <;> simp_all

theorem selectActive_ensures (h : Kept cache db) (strategyId : String) :
    Prog.Ensures sessionAnswer
      (fun reply db => Kept cache db ∧ ∀ found, reply = .data found →
        (found = none → db.NoActive strategyId) ∧
        ∀ row, found = some row → row ∈ db.sessions ∧ SessionDb.activeOf strategyId row = true)
      (selectActive strategyId) db := by
  intro w
  refine ⟨h.answer (c := .selectActive strategyId) trivial w, fun found hfound => ?_⟩
  obtain ⟨-, rfl⟩ := deliver_eq_data.mp hfound
  have hstate : (sessionAnswer w (.selectActive strategyId) db).2 =
      db.close fun r => decide (r.id ∈ w.closed) := by
    unfold sessionAnswer
    exact ite_self _
  rw [hstate]
  refine ⟨fun hnone r hr => ?_, fun row hrow => ?_⟩
  · exact Bool.eq_false_iff.mpr (List.find?_eq_none.mp hnone r hr)
  · exact ⟨List.mem_of_find?_eq_some hrow, List.find?_some hrow⟩

theorem current_of_insertSession {w : SessionWeather} {environment : String} {equity : ℚ} {id : ℕ}
    (h : (sessionAnswer w (.insertSession strategyId environment equity) db).1 = .data (some id)) :
    Current (sessionAnswer w (.insertSession strategyId environment equity) db).2 strategyId
      { sessionId := id, strategyId, environment, baselineEquity := equity } := by
  obtain ⟨hanswered, hid⟩ := deliver_eq_data.mp h
  have hreaches : w.fault.reaches = true := by rw [hanswered]; rfl
  have hid : (db.close fun r => decide (r.id ∈ w.closed)).nextId = id := by
    split at hid
    · cases hid
    · exact Option.some.inj hid
  unfold sessionAnswer
  simp only [if_pos hreaches]
  refine ⟨_, List.mem_append_right _ List.mem_cons_self, ?_, ?_⟩
  · simp [SessionDb.activeOf]
  · exact ⟨hid, rfl, rfl, rfl⟩

/-- A session is created where none is active. -/
theorem createSession_ensures (h : Kept cache db) (hquiet : db.NoActive strategyId)
    (environment : String) (equity : ℚ) :
    Prog.Ensures sessionAnswer
      (fun reply db => Kept cache db ∧
        ∀ session, reply = .data (some session) →
          Current db strategyId session ∧ session.baselineEquity = equity)
      (createSession strategyId environment equity) db := by
  simp only [createSession, Prog.perform_bind, Prog.ensures_call]
  intro w
  have hconnected := h.answer (c := .getSupabase) trivial w
  have hquiet' := noActive_sessionAnswer (w := w) hquiet (c := .getSupabase) (by simp)
  split
  · rw [Prog.ensures_call]
    intro w'
    have hinserted := hconnected.answer (c := .insertSession strategyId environment equity) hquiet' w'
    split
    · exact ⟨hinserted, by simp⟩
    · exact ⟨hinserted, by simp⟩
    · rename_i id hreply
      refine ⟨hinserted, fun session hsession => ?_⟩
      cases hsession
      exact ⟨current_of_insertSession hreply, rfl⟩
  · exact ⟨hconnected, by simp⟩

/-- What the manager leaves: a kept cache, and in the answer an active session. -/
def Answers (strategyId : String) (outcome : SessionOutcome) (db : SessionDb) : Prop :=
  Kept outcome.cache db ∧ ∀ session, outcome.answer = some session → Current db strategyId session

theorem ensureSession_ensures (h : Kept cache db) (strategyId environment : String)
    (initialBaseline : ℚ) :
    Prog.Ensures sessionAnswer (Answers strategyId)
      (ensureSession cache strategyId environment initialBaseline) db := by
  refine Prog.Ensures.bind (fun found db hfound => ?_)
    (runWithSupabaseRetry_ensures (fun db h => selectActive_ensures h strategyId) 3 db h)
  obtain ⟨hkept, hfound⟩ := hfound
  match found with
  | none => exact ⟨hkept, by simp⟩
  | some none =>
    refine Prog.Ensures.bind (fun reply db hreply => ?_)
      (createSession_ensures (hkept.erase strategyId) ((hfound none rfl).1 rfl) environment
        initialBaseline)
    match reply with
    | .data (some session) =>
      have hcurrent := (hreply.2 session rfl).1
      exact ⟨hreply.1.set hcurrent, fun _ heq => Option.some.inj heq ▸ hcurrent⟩
    | .data none => exact ⟨hreply.1, by simp⟩
    | .raised _ => exact ⟨hreply.1, by simp⟩
  | some (some row) =>
    obtain ⟨hrow, hactive⟩ := (hfound (some row) rfl).2 row rfl
    have hid : row.strategyId = strategyId := by
      simp only [SessionDb.activeOf, Bool.and_eq_true, decide_eq_true_eq] at hactive
      exact hactive.1
    have hcurrent : Current db strategyId
        ⟨row.id, strategyId, row.environment, row.baselineEquity⟩ :=
      ⟨row, hrow, hactive, rfl, hid, rfl, rfl⟩
    cases hcached : cache.get? strategyId with
    | none =>
      dsimp only
      exact ⟨hkept.set hcurrent, fun _ heq => Option.some.inj heq ▸ hcurrent⟩
    | some cached =>
      dsimp only
      split
      · -- the cached session is of the row that was found
        rename_i hsame
        obtain ⟨r, hr, hshows⟩ := (hkept.known strategyId cached hcached).2
        have heq : r = row := hkept.sound.eq_of_id hr hrow (hshows.1.trans hsame.1)
        refine ⟨hkept, fun session hsession => ?_⟩
        cases hsession
        exact ⟨row, hrow, hactive, heq ▸ hshows⟩
      · exact ⟨hkept.set hcurrent, fun _ heq => Option.some.inj heq ▸ hcurrent⟩

theorem noActive_of_closeSessions {w : SessionWeather}
    (h : (sessionAnswer w (.closeSessions strategyId) db).1 = .data ()) :
    (sessionAnswer w (.closeSessions strategyId) db).2.NoActive strategyId := by
  have hreaches : w.fault.reaches = true := by
    rw [(deliver_eq_data.mp h).1]
    rfl
  unfold sessionAnswer
  simp only [if_pos hreaches]
  exact SessionDb.noActive_close strategyId

theorem pctReturn_self (equity : ℚ) : pctReturn equity equity = 0 := by
  unfold pctReturn
  split
  · rw [sub_self, zero_div, zero_mul]
  · rfl

theorem Current.measures {session : ActiveSession} (h : Current db strategyId session)
    (equity cash : ℚ) :
    db.Measures ⟨session.sessionId, equity, cash, pctReturn session.baselineEquity equity⟩ := by
  obtain ⟨r, hr, -, hshows⟩ := h
  exact ⟨r, hr, hshows.1, by rw [hshows.2.2.2]⟩

theorem goLive_ensures (h : Kept cache db) (strategyId : String) (liveEquity : ℚ) :
    Prog.Ensures sessionAnswer (fun outcome db => Kept outcome.cache db)
      (goLive cache strategyId liveEquity) db := by
  simp only [goLive, Prog.perform_bind, Prog.ensures_call]
  intro w
  have h := h.answer (c := .getSupabase) trivial w
  split
  case isFalse => exact h
  simp only [Prog.ensures_call]
  intro w
  have hclosed := h.answer (c := .closeSessions strategyId) trivial w
  split
  case h_2 => exact hclosed
  rename_i hreply
  have hquiet := noActive_of_closeSessions hreply
  simp only [Prog.ensures_call]
  intro w
  have h := hclosed.answer (c := .setEnvironment strategyId "live") trivial w
  have hquiet := noActive_sessionAnswer (w := w) hquiet (c := .setEnvironment strategyId "live")
    (by simp)
  split
  case h_2 => exact h
  simp only [Prog.ensures_call]
  intro w
  have h := h.answer (c := .insertGoLive strategyId liveEquity) trivial w
  have hquiet := noActive_sessionAnswer (w := w) hquiet (c := .insertGoLive strategyId liveEquity)
    (by simp)
  split
  case h_2 => exact h
  refine Prog.Ensures.bind (fun reply db hcreated => ?_)
    (createSession_ensures (h.erase strategyId) hquiet "live" liveEquity)
  cases reply with
  | raised _ => exact hcreated.1
  | data answer =>
    cases answer with
    | none => exact hcreated.1
    | some session =>
      obtain ⟨hcurrent, hbaseline⟩ := hcreated.2 session rfl
      have hkept := hcreated.1.set hcurrent
      have hmeasures := hcurrent.measures liveEquity liveEquity
      rw [hbaseline, pctReturn_self] at hmeasures
      simp only [Prog.ensures_call]
      intro w
      have h := hkept.answer (c := .insertSnapshot _) hmeasures w
      split
      · exact h
      · exact h

theorem closeActive_ensures (h : Kept cache db) (strategyId : String) :
    Prog.Ensures sessionAnswer (fun outcome db => Kept outcome.cache db)
      (closeActive cache strategyId) db := by
  simp only [closeActive, Prog.perform_bind, Prog.ensures_call]
  intro w
  have h := h.answer (c := .getSupabase) trivial w
  split
  case isFalse => exact h
  simp only [Prog.ensures_call]
  intro w
  have h := h.answer (c := .closeSessions strategyId) trivial w
  split
  · exact h.erase strategyId
  · exact h

theorem syncEquitySnapshot_ensures (h : Kept cache db) (strategyId : Option String)
    (environment : String) (equity cash : ℚ) :
    Prog.Ensures sessionAnswer (fun outcome db => Kept outcome.cache db)
      (syncEquitySnapshot cache strategyId environment equity cash) db := by
  cases strategyId with
  | none => exact h
  | some strategyId =>
    refine Prog.Ensures.bind (fun ensured db hensured => ?_)
      (ensureSession_ensures h strategyId environment equity)
    obtain ⟨hkept, hcurrent⟩ := hensured
    match hanswer : ensured.answer with
    | none => exact hkept
    | some session =>
      simp only [Prog.perform_bind, Prog.ensures_call]
      intro w
      have h := hkept.answer (c := .getSupabase) trivial w
      split
      case isFalse => exact h
      simp only [Prog.ensures_call]
      intro w'
      have hmeasures := (hcurrent session hanswer).measures equity cash
      exact h.answer (c := .insertSnapshot _) (measures_sessionAnswer hmeasures .getSupabase) w'

theorem prog_ensures (h : Kept cache db) (op : SessionOp) :
    Prog.Ensures sessionAnswer (fun outcome db => Kept outcome.cache db) (op.prog cache) db := by
  cases op with
  | ensureSession strategyId environment initialBaseline =>
    exact (ensureSession_ensures h strategyId environment initialBaseline).mono fun _ _ h => h.1
  | invalidate strategyId => exact h.erase strategyId
  | goLive strategyId liveEquity => exact goLive_ensures h strategyId liveEquity
  | closeActive strategyId => exact closeActive_ensures h strategyId
  | syncEquitySnapshot strategyId environment equity cash =>
    exact syncEquitySnapshot_ensures h strategyId environment equity cash

end Ensures

/-! ## Every run -/

def SessionDesk.Kept (d : SessionDesk) : Prop := Control.Kept d.cache d.db

theorem kept_sessionStep {d : SessionDesk} (h : d.Kept) (e : SessionEvent) :
    (sessionStep d e).Kept := by
  cases e with
  | called op weather => exact (prog_ensures h op).exec weather
  | closedOutside ids =>
    exact ⟨h.sound.close _, fun s session hs =>
      ⟨(h.known s session hs).1, (h.known s session hs).2.close _⟩⟩
  | rotatedOutside strategyId environment baseline =>
    exact ⟨(h.sound.close _).insert (SessionDb.noActive_close strategyId) _ _,
      fun s session hs => ⟨(h.known s session hs).1, ((h.known s session hs).2.close _).insert ..⟩⟩
  | restarted => exact ⟨h.sound, by simp [sessionStep]⟩

theorem kept_run (es : List SessionEvent) : (run sessionStep {} es).Kept := by
  have hempty : SessionDesk.Kept {} := ⟨⟨by simp, .nil, by simp⟩, by simp⟩
  exact run_keeps (I := SessionDesk.Kept) (fun _ e h => kept_sessionStep h e) hempty es

/-- After any calls, each failing where it will, with sessions closed by hand between any two
statements and replaced by hand or forgotten between any two calls: no strategy has two active
sessions, what is cached for a strategy shows a row of it, every snapshot is measured from the
baseline of its own session, and what `ensure_session` answers is the one active session. -/
theorem one_active_session (es : List SessionEvent) :
    (∀ strategyId,
      ((run sessionStep {} es).db.sessions.filter (SessionDb.activeOf strategyId)).length ≤ 1) ∧
    (∀ strategyId session, (run sessionStep {} es).cache.get? strategyId = some session →
      session.strategyId = strategyId ∧ (run sessionStep {} es).db.Knows session) ∧
    (∀ snapshot ∈ (run sessionStep {} es).db.snapshots,
      (run sessionStep {} es).db.Measures snapshot) ∧
    ∀ strategyId environment initialBaseline weather session,
      ((run sessionStep {} es).perform
        (.ensureSession strategyId environment initialBaseline) weather).1.answer = some session →
      ∃ row, ((run sessionStep {} es).perform
          (.ensureSession strategyId environment initialBaseline) weather).2.db.sessions.filter
            (SessionDb.activeOf strategyId) = [row] ∧ SessionDb.Shows row session := by
  have hkept := kept_run es
  refine ⟨hkept.sound.length_active_le, hkept.known, hkept.sound.measured, ?_⟩
  intro strategyId environment initialBaseline weather session hanswer
  obtain ⟨hafter, hcurrent⟩ :=
    (ensureSession_ensures hkept strategyId environment initialBaseline).exec weather
  obtain ⟨row, hrow, hactive, hshows⟩ := hcurrent session hanswer
  exact ⟨row, hafter.sound.active_eq hrow hactive, hshows⟩

example : ((run sessionStep {} [.called (.goLive "leg" 100) [], .closedOutside [0]]).perform
    (.ensureSession "leg" "paper" 90) []).1.answer = some ⟨1, "leg", "paper", 90⟩ := by
  decide +kernel

end TradingPlatform.Control
