import TradingPlatform.Control.LastGoodConfig
import TradingPlatform.Engine.VersionLock

/-! # Which version a write replaces

Any number of processes write one row, poll the configuration and ask for
reloads, one access at a time. Each access of a write carries what the write has
been answered so far. -/

namespace TradingPlatform.Engine.VersionLock

open TradingPlatform.Lib TradingPlatform.Lib.Prog TradingPlatform.Lib.Runs
open TradingPlatform.Lib.Interleave TradingPlatform.Control.Config

/-- What a write has been told: the version its caller expects, the cached version it read
first, whether its version check was answered and with which version, the cached version it
read for the update, and the id of the row. -/
structure Notes where
  expected : Option ℤ
  began : Option (Option ℤ) := none
  reached : Bool := false
  checked : Option ℤ := none
  cached : Option ℤ := none
  uuid : Option Json := none

def note (g : Notes) : (c : Call) → c.Resp → Notes
  | .strategyVersionFor _ _, version =>
    match g.began with
    | none => { g with began := some version }
    | some _ => { g with cached := version }
  | .strategyUuidFor _ _, uuid => { g with uuid }
  | .select _, .ok row => { g with reached := true, checked := row.map (·.versionId) }
  | _, _ => g

def Op.notes : Op → Notes
  | .write _ _ _ expected => { expected }
  | _ => { expected := none }

/-- A call with the notes taken before it. -/
abbrev NotedCall := Notes × Call

abbrev System := Config World Op NotedCall (fun c => c.2.Resp) Reply

/-- One turn of the scheduler. -/
def turn (env : Env) (normalize : String → Except String String) : System → Move Op Turn → System :=
  move (fun op => noted note op.notes (op.prog normalize)) fun i c s => answer env i c.2 s

section Conditions
variable (env : Env)

/-- The call is an update that reaches the table, and the table applies it. -/
def Applied (i : Turn) : Call → World → Prop
  | .update uuid version _, s => i.error = none ∧ finds env uuid version s.remote = true
  | _, _ => False

/-- The remote version is the one the caller expects or, without one, the one the watcher held
when the call began; the watcher had loaded the row, and the version check was answered. -/
def ReplacesKnown (i : Turn) (c : NotedCall) (s : World) : Prop :=
  Applied env i c.2 s →
    c.1.reached = true ∧
    (∃ uuid, c.1.uuid = some uuid ∧ uuid.text env.repr = s.remote.id) ∧
    (∀ version, c.1.expected = some version → s.remote.versionId = version) ∧
    (c.1.expected = none → c.1.began = some (some s.remote.versionId))

/-- The version check was answered and, without an expected version, the watcher held a version
when the call began and, when it was read for the update, held the same; or it held none any
more, and the check had found the row (or the version lost was 0). -/
def KeepsVersion (i : Turn) (c : NotedCall) (s : World) : Prop :=
  Applied env i c.2 s →
    c.1.reached = true ∧
    (c.1.expected = none → ∃ version, c.1.began = some (some version) ∧
      (c.1.cached = some version ∨ c.1.cached = none ∧ (c.1.checked.isSome = true ∨ version = 0)))

end Conditions

/-! ## What a write knows when it sends its update -/

/-- An update is sent to the row the watcher named, with the expected, the cached or the found
version; and a write that gets so far had loaded the version that the check found. -/
def Informed (g : Notes) : Call → Prop
  | .update uuid version _ =>
    g.uuid = some uuid ∧ version = g.expected.getD (g.cached.getD (g.checked.getD 0)) ∧
      ∃ began, g.began = some began ∧ ∀ b v, began = some b → g.checked = some v → b = v
  | _ => True

/-- The notes after a version check that began with none. -/
structure Checked (expected : Option ℤ) (lock : ConfigVersionLockResult) (g : Notes) : Prop where
  expected : g.expected = expected
  checked : g.checked = lock.remoteVersionId
  cached : g.cached = none
  agrees : (!lock.allowed && lock.conflictResolved) = false →
    ∃ began, g.began = some began ∧ ∀ b v, began = some b → lock.remoteVersionId = some v → b = v

theorem fetch_notes (p : ℕ) (strategyId : String) (g : Notes) :
    NotesHold note Informed
      (fun g' row => g'.expected = g.expected ∧ g'.began = g.began ∧ g'.cached = g.cached ∧
        (g.checked = none → g'.checked = row.map (·.versionId)))
      g (fetchRemoteStrategyRow p strategyId) := by
  refine ⟨trivial, fun client => ?_⟩
  cases client with
  | false => exact ⟨rfl, rfl, rfl, id⟩
  | true =>
    refine ⟨trivial, fun uuid => ⟨trivial, fun found => ?_⟩⟩
    cases found with
    | ok row => exact ⟨rfl, rfl, rfl, fun _ => rfl⟩
    | error text =>
      refine ⟨trivial, fun required => ?_⟩
      cases required with
      | false => exact ⟨rfl, rfl, rfl, id⟩
      | true => exact ⟨trivial, fun _ => ⟨rfl, rfl, rfl, id⟩⟩

theorem resolveConflict_notes {Q : Notes → Except String ConfigVersionLockResult → Prop} (p : ℕ)
    (lock : ConfigVersionLockResult) (g : Notes) (hok : Q g (.ok lock))
    (herror : ∀ text, Q g (.error text)) :
    NotesHold note Informed Q g (resolveConflict p lock) := by
  refine ⟨trivial, fun _ => ⟨trivial, fun latest => ?_⟩⟩
  cases latest with
  | error text => exact herror text
  | ok _ => exact hok

variable (normalize : String → Except String String)

/-- The notes before the row is fetched, in a check that began with none. -/
theorem note_began {g : Notes} (h : g.began = none) (p : ℕ) (strategyId : String)
    (version : Option ℤ) :
    note g (.strategyVersionFor p strategyId) version = { g with began := some version } := by
  dsimp only [note]
  rw [h]

theorem verify_notes (p : ℕ) (strategyId : String) (g : Notes) :
    NotesHold note Informed
      (fun g' result => g.began = none → g.checked = none → g.cached = none →
        ∀ lock, result = .ok lock → Checked g.expected lock g')
      g (verifyVersionLock normalize p strategyId) := by
  refine ⟨trivial, fun localVersion => (fetch_notes p strategyId _).bind fun g' row hnotes => ?_⟩
  obtain ⟨hexpected, hbegan, hcached, hchecked⟩ := hnotes
  -- what every lock returned from here on shares
  have hlock : ∀ lock : ConfigVersionLockResult, lock.remoteVersionId = row.map (·.versionId) →
      ((!lock.allowed && lock.conflictResolved) = false →
        ∀ b v, localVersion = some b → lock.remoteVersionId = some v → b = v) →
      g.began = none → g.checked = none → g.cached = none → ∀ lock',
        (.ok lock : Except String ConfigVersionLockResult) = .ok lock' →
          Checked g.expected lock' g' := by
    intro lock hremote hagrees hg hgchecked hgcached lock' heq
    cases heq
    rw [note_began hg] at hexpected hbegan hcached hchecked
    exact ⟨hexpected, (hchecked hgchecked).trans hremote.symm, hcached.trans hgcached,
      fun hallowed => ⟨localVersion, hbegan, hagrees hallowed⟩⟩
  cases row with
  | none =>
    refine ⟨trivial, fun required => ?_⟩
    cases required with
    | false => exact hlock _ rfl nofun
    | true =>
      refine ⟨trivial, fun _ => ?_⟩
      exact hlock _ rfl nofun
  | some row =>
    refine ⟨trivial, fun _ => ?_⟩
    cases localVersion with
    | none => exact hlock _ rfl nofun
    | some version =>
      have hconflict : ∀ reason : String, ∀ shown : Option String,
          NotesHold note Informed
            (fun g' result => g.began = none → g.checked = none → g.cached = none →
              ∀ lock, result = .ok lock → Checked g.expected lock g')
            g' (resolveConflict p
              ⟨false, strategyId, some version, some row.versionId, shown, true, reason⟩) := by
        intro reason shown
        exact resolveConflict_notes p _ g' (hlock _ rfl nofun) nofun
      dsimp only
      by_cases hversion : version = row.versionId
      · rw [if_pos hversion]
        refine ⟨trivial, fun localUpdated => ?_⟩
        dsimp only [Prog.bind]
        cases updatedAtDiffers normalize localUpdated (row.updatedAt.getD "") with
        | error text => nofun
        | ok differs =>
          cases differs with
          | true => exact hconflict _ _
          | false =>
            refine hlock _ rfl fun _ b v hb hv => ?_
            cases hb
            cases hv
            exact hversion
      · rw [if_neg hversion]
        exact hconflict _ _

theorem sendUpdate_notes {g : Notes} {p : ℕ} {strategyId : String} {uuid : Json} {version : ℤ}
    {payload : List (String × Json)} (h : Informed g (.update uuid version payload)) :
    NotesHold note Informed (fun _ _ => True) g
      (sendUpdate normalize p strategyId uuid version payload) := by
  refine ⟨h, fun answered => ?_⟩
  cases answered with
  | error text => trivial
  | ok found =>
    cases found with
    | none =>
      refine (verify_notes normalize p strategyId _).bind fun g' result _ => ?_
      cases result with
      | error text => trivial
      | ok resolved => trivial
    | some row =>
      refine ⟨trivial, fun _ => ?_⟩
      dsimp only
      cases row.updatedAt with
      | none => trivial
      | some updatedAt => exact ⟨trivial, fun _ => trivial⟩

theorem write_notes (p : ℕ) (strategyId : String) (updates : List (String × Json))
    (expected : Option ℤ) :
    NotesHold note Informed (fun _ _ => True) { expected }
      (writeRemoteStrategyUpdate normalize p strategyId updates expected) := by
  refine (verify_notes normalize p strategyId _).bind fun g result hchecked => ?_
  replace hchecked := hchecked rfl rfl rfl
  cases result with
  | error text => trivial
  | ok lock =>
    obtain ⟨hexpected, hremote, hcached, hagrees⟩ := hchecked lock rfl
    dsimp only
    cases hrefused : !lock.allowed && lock.conflictResolved with
    | true => trivial
    | false =>
      obtain ⟨began, hbegan, hagrees⟩ := hagrees hrefused
      rw [if_neg Bool.false_ne_true]
      refine ⟨trivial, fun client => ?_⟩
      cases client with
      | false => trivial
      | true =>
        refine ⟨trivial, fun uuid => ?_⟩
        cases uuid with
        | none => trivial
        | some uuid =>
          -- the update is sent with the notes so far, and the last version read if one is
          have hsend : ∀ (cached : Option ℤ) (version : ℤ),
              version = expected.getD (cached.getD (lock.remoteVersionId.getD 0)) →
              NotesHold note Informed (fun _ _ => True) { g with uuid := some uuid, cached }
                (sendUpdate normalize p strategyId uuid version (payloadOf updates) >>=
                  fun result =>
                    pure (Except.ok result : Except String RemoteConfigWriteResult)) := by
            intro cached version hversion
            have hinformed : Informed { g with uuid := some uuid, cached }
                (.update uuid version (payloadOf updates)) := by
              refine ⟨rfl, ?_, began, hbegan, ?_⟩
              · rw [hversion, hexpected, hremote]
              · rw [hremote]
                exact hagrees
            exact (sendUpdate_notes normalize hinformed).bind fun _ _ _ => trivial
          cases expected with
          | some version =>
            have hnotes := hsend none version rfl
            rw [← hcached] at hnotes
            exact hnotes
          | none =>
            refine ⟨trivial, fun cached => ?_⟩
            have hnotes := hsend cached _ rfl
            dsimp only [note]
            rw [hbegan] at hnotes ⊢
            exact hnotes

theorem prog_notes (op : Op) :
    NotesHold note Informed (fun _ _ => True) op.notes (op.prog normalize) := by
  cases op with
  | write p strategyId updates expected =>
    exact (write_notes normalize p strategyId updates expected).bind fun _ _ _ => trivial
  | poll p => exact ⟨trivial, fun _ => trivial⟩
  | reload p => exact ⟨trivial, fun _ => ⟨trivial, fun _ => trivial⟩⟩

/-! ## Runs -/

/-- The calls the threads are at, and those that may follow, are informed. -/
def AllInformed (cfg : System) : Prop :=
  ∀ th ∈ cfg.threads, th.rest.AllCalls fun c => Informed c.1 c.2

variable {normalize} {env : Env}

theorem allInformed_turn {cfg : System} (h : AllInformed cfg) (mv : Move Op Turn) :
    AllInformed (turn env normalize cfg mv) :=
  move_allCalls (fun op => (prog_notes normalize op).allCalls) h mv

/-- The version sent without an expected one is the first the watcher held exactly when that
is the one it still held, or it held none and the check had found the row at that version. -/
theorem sent_eq_began_iff {cached checked began : Option ℤ} {version : ℤ}
    (hsent : version = cached.getD (checked.getD 0))
    (hagrees : ∀ b v, began = some b → checked = some v → b = v) :
    began = some version ↔ ∃ b, began = some b ∧
      (cached = some b ∨ cached = none ∧ (checked.isSome = true ∨ b = 0)) := by
  subst hsent
  cases cached with
  | some c =>
    constructor
    · intro h
      exact ⟨c, h, .inl rfl⟩
    · intro h
      obtain ⟨b, hb, hc | ⟨hc, -⟩⟩ := h
      · cases hc
        exact hb
      · cases hc
  | none =>
    cases checked with
    | some v =>
      constructor
      · intro h
        exact ⟨v, h, .inr ⟨rfl, .inl rfl⟩⟩
      · intro h
        obtain ⟨b, hb, -⟩ := h
        rw [hb, hagrees b v hb rfl]
        rfl
    | none =>
      constructor
      · intro h
        exact ⟨0, h, .inr ⟨rfl, .inr rfl⟩⟩
      · intro h
        obtain ⟨b, hb, hc | ⟨-, hv | hv⟩⟩ := h
        · cases hc
        · cases hv
        · rw [hb, hv]
          rfl

/-- **One update** of an informed write replaces a version it knew exactly when the version
it held was kept. -/
theorem replacesKnown_iff {i : Turn} {c : NotedCall} {s : World} (h : Informed c.1 c.2) :
    ReplacesKnown env i c s ↔ KeepsVersion env i c s := by
  obtain ⟨g, c⟩ := c
  refine forall_congr' fun happlied => and_congr_right fun _ => ?_
  cases c with
  | update uuid version payload =>
    obtain ⟨huuid, hsent, began, hbegan, hagrees⟩ := h
    obtain ⟨-, hfinds⟩ := happlied
    obtain ⟨hid, hremote⟩ := Bool.and_eq_true_iff.mp hfinds
    replace hid : uuid.text env.repr = s.remote.id := of_decide_eq_true hid
    replace hremote : s.remote.versionId = version := of_decide_eq_true hremote
    dsimp only at huuid hsent hbegan hagrees ⊢
    rw [hbegan, hremote]
    cases hexpected : g.expected with
    | some e =>
      rw [hexpected] at hsent
      refine iff_of_true ⟨⟨uuid, huuid, hid⟩, fun v hv => ?_, nofun⟩ nofun
      cases hv
      exact hsent
    | none =>
      rw [hexpected] at hsent
      have hiff := sent_eq_began_iff hsent hagrees
      constructor
      · intro hknown _
        obtain ⟨b, hb, hkept⟩ := hiff.mp (Option.some.inj (hknown.2.2 rfl))
        exact ⟨b, congrArg some hb, hkept⟩
      · intro hkept
        obtain ⟨b, hb, hkept⟩ := hkept rfl
        exact ⟨⟨uuid, huuid, hid⟩, nofun,
          fun _ => congrArg some (hiff.mpr ⟨b, Option.some.inj hb, hkept⟩)⟩
  | _ => exact happlied.elim

theorem onCall_iff {cfg : System} (h : AllInformed cfg) (mv : Move Op Turn) :
    OnCall (ReplacesKnown env) cfg mv ↔ OnCall (KeepsVersion env) cfg mv :=
  forall_congr' fun _ => forall_congr' fun hx =>
    replacesKnown_iff (nextCall_mem_allCalls h (Option.mem_def.mp hx))

/-- In any interleaving of any number of writes, polls and reloads from any state, every update
that is applied replaces the version its writer knew **exactly when** each that the table
applies was sent after an answered check, with the version held since the call began. -/
theorem replacesKnown_run_iff (env : Env) (normalize : String → Except String String) (s : World)
    (mvs : List (Move Op Turn)) :
    Along (turn env normalize) (OnCall (ReplacesKnown env)) (Config.init s) mvs ↔
      Along (turn env normalize) (OnCall (KeepsVersion env)) (Config.init s) mvs :=
  along_congr (I := AllInformed) (fun _ mv h => allInformed_turn h mv)
    (fun _ mv h => onCall_iff h mv) mvs fun _ hth => absurd hth List.not_mem_nil

/-- One process, whose watcher has loaded version 3 of the row. -/
def loadedWorld : World where
  remote := { id := "u1", name := "momentum", versionId := 3, updatedAt := none }
  nodes := fun _ => { watcher := {
    strategyUuids := Dict.empty.set (.str "momentum") (.str "u1")
    strategyVersions := Dict.empty.set (.str "momentum") 3
    remoteSourceRequired := true } }

/-- A write up to its update: the select of its version check fails. -/
def uncheckedWrite : List (Move Op Turn) :=
  .spawn (.write 0 "momentum" [("enabled", .bool false)] none) ::
    (List.replicate 3 (.step 0 {}) ++ .step 0 { error := some "timeout" } ::
      List.replicate 7 (.step 0 {}))

/-- A write whose version check could not reach the remote is applied all the same. -/
theorem unchecked_write_applies :
    let cfg := run (turn plainEnv .ok) (Config.init loadedWorld) uncheckedWrite
    cfg.shared.remote.versionId = 3 ∧
      (turn plainEnv .ok cfg (.step 0 {})).shared.remote.versionId = 4 ∧
      ¬ Along (turn plainEnv .ok) (OnCall (ReplacesKnown plainEnv)) (Config.init loadedWorld)
        (uncheckedWrite ++ [.step 0 {}]) := by
  intro cfg
  refine ⟨by decide +kernel, by decide +kernel, ?_⟩
  intro h
  obtain ⟨-, hlast, -⟩ := along_append.mp h
  let notes : Notes :=
    { expected := none, began := some (some 3), cached := some 3, uuid := some (.str "u1") }
  have hcall : nextCall cfg (.step 0 ({} : Turn)) =
      some ({}, notes, .update (.str "u1") 3 [("enabled", .bool false)]) := rfl
  have hreached := (hlast _ hcall ⟨rfl, by decide +kernel⟩).1
  cases hreached

end TradingPlatform.Engine.VersionLock
