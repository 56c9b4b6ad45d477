import TradingPlatform.Engine.KillSwitch
import TradingPlatform.Lib.Interleave

/-! # Kill switches under interleaving

One release, or one engage, takes turns with any number of snapshots at single
statements and file accesses. A snapshot that has read the state file carries
the halts it lists until it has come to each of them; one that carries a halt
past its release puts it back. -/

namespace TradingPlatform.Engine.KillSwitch

open TradingPlatform.Lib TradingPlatform.Lib.Prog TradingPlatform.Lib.Runs
open TradingPlatform.Lib.Interleave VaultCall

abbrev Processes := Config Vault RegistryOp VaultCall VaultCall.Resp RegistryReply

abbrev Turn := Move RegistryOp Unit

/-- One turn of the scheduler: a new call, or one statement or file access of a
running one. -/
def turn (hashRationale : String → String) : Processes → Turn → Processes :=
  move (RegistryOp.prog hashRationale) answer

/-- A call that has just begun. -/
def underway (hashRationale : String → String) (op : RegistryOp) (v : Vault) : Processes :=
  ⟨v, [⟨op, op.prog hashRationale⟩], []⟩

/-- The calls that begin later are of some kinds only. -/
def SpawnsOnly (allowed : RegistryOp → Prop) : Turn → Prop
  | .spawn op => allowed op
  | .step _ _ => True

/-- Every call that began has ended. -/
def Finished (cfg : Processes) : Prop := ∀ th ∈ cfg.threads, (result? th.rest).isSome = true

/-- The first call has returned, without raising. -/
def Returned (cfg : Processes) : Prop :=
  ∃ op st, cfg.threads[0]? = some ⟨op, .ret (.state (some st))⟩

/-- From here the call inserts the halt, unless it finds it active. -/
def Carries (h : Halt) : VaultProg RegistryReply → Prop
  | .call (.getState _) k => ∃ r, Carries h (k r)
  | .call (.upsertHydrated h' _) k => h' = h ∨ Carries h (k ())
  | _ => False

/-- The items list the halt as active. -/
def ListedIn (h : Halt) (items : List KillSwitchState) : Prop :=
  ∃ item ∈ items, item.active = true ∧ item.halt = h

/-- The halt's row has been set inactive. -/
def Released (h : Halt) (cfg : Processes) : Prop :=
  ∃ op n r, Event.called op (.updateInactive h) n r ∈ cfg.log

/-- The row is not set inactive while a call carries the halt, and the file is
not read after that while it lists the halt. -/
def RaceFree (h : Halt) (cfg : Processes) (mv : Turn) : Prop :=
  (nextCall cfg mv = some ((), .updateInactive h) → ∀ th ∈ cfg.threads, ¬ Carries h th.rest) ∧
    (nextCall cfg mv = some ((), .readFile) → Released h cfg → ¬ ListedIn h cfg.shared.listed)

/-! ## Where a snapshot can be -/

def hydrateThen (items : List KillSwitchState) : VaultProg RegistryReply :=
  RegistryReply.snapshot <$> (hydrateItems items >>= fun _ => readDbSnapshot)

inductive SnapshotAt (p : VaultProg RegistryReply) : Prop
  | checking (k : Bool → VaultProg RegistryReply) (hp : p = .call .fileExists k)
      (hmissing : k false = hydrateThen [])
      (hfound : ∃ k', k true = .call .readFile k' ∧ k' none = hydrateThen [] ∧
        ∀ states, k' (some states) = hydrateThen states)
  | reading (k : Option (List KillSwitchState) → VaultProg RegistryReply)
      (hp : p = .call .readFile k) (hnone : k none = hydrateThen [])
      (hsome : ∀ states, k (some states) = hydrateThen states)
  | hydrating (items : List KillSwitchState) (hp : p = hydrateThen items)
  | inserting (h : Halt) (st : KillSwitchState) (items : List KillSwitchState)
      (hp : p = .call (.upsertHydrated h st) fun _ => hydrateThen items)
  | returned (r : RegistryReply) (hp : p = .ret r)

theorem snapshotAt_prog (hashRationale : String → String) :
    SnapshotAt (RegistryOp.snapshot.prog hashRationale) :=
  .checking _ rfl rfl ⟨_, rfl, rfl, fun _ => rfl⟩

theorem hydrateThen_skip {item : KillSwitchState} (h : item.active = false)
    (items : List KillSwitchState) : hydrateThen (item :: items) = hydrateThen items := by
  unfold hydrateThen
  rw [hydrateItems, if_neg (by simp [h])]

theorem hydrateThen_item {item : KillSwitchState} (h : item.active = true)
    (items : List KillSwitchState) :
    hydrateThen (item :: items) = .call (getState item.halt) fun r =>
      if isActive r then hydrateThen items
      else .call (upsertHydrated item.halt item) fun _ => hydrateThen items := by
  unfold hydrateThen
  rw [hydrateItems, if_pos h, perform_bind, call_bind, map_eq, call_bind]
  refine congrArg (Prog.call (getState item.halt)) (funext fun r => ?_)
  split <;> rfl

theorem listedIn_cons (h : Halt) (item : KillSwitchState) (items : List KillSwitchState) :
    ListedIn h (item :: items) ↔ item.active = true ∧ item.halt = h ∨ ListedIn h items := by
  simp [ListedIn]

theorem carries_hydrateThen (h : Halt) (items : List KillSwitchState) :
    Carries h (hydrateThen items) ↔ ListedIn h items := by
  induction items with
  | nil => exact iff_of_false id (by simp [ListedIn])
  | cons item items ih =>
    rw [listedIn_cons]
    cases hitem : item.active with
    | false =>
      rw [hydrateThen_skip hitem, ih]
      simp
    | true =>
      rw [hydrateThen_item hitem, ← ih]
      constructor
      · intro h
        obtain ⟨r, hr⟩ := h
        dsimp only at hr
        split at hr
        · exact .inr hr
        · exact hr.imp (fun heq => ⟨rfl, heq⟩) id
      · intro hor
        exact ⟨none, hor.imp (·.2) id⟩

/-- What one call of a snapshot does to a halt and to who carries it. -/
structure SnapshotStep (c : VaultCall) (k : c.Resp → VaultProg RegistryReply) (v : Vault) : Prop where
  next : SnapshotAt (k (answer () c v).1)
  updates : ∀ h, c ≠ .updateInactive h
  keeps : ∀ h, v.active h = true → (answer () c v).2.active h = true
  adds : ∀ h, (answer () c v).2.active h = true → v.active h = true ∨ Carries h (.call c k)
  carried : ∀ h, Carries h (k (answer () c v).1) →
    Carries h (.call c k) ∨ c = .readFile ∧ ListedIn h v.listed
  onward : ∀ h, Carries h (.call c k) →
    (answer () c v).2.active h = true ∨ Carries h (k (answer () c v).1)
  reads : c = .readFile → ∀ h, ListedIn h v.listed → Carries h (k (answer () c v).1)

theorem answer_readFile (v : Vault) :
    (answer () .readFile v).1 = none ∧ v.listed = [] ∨
      (answer () .readFile v).1 = some v.listed := by
  obtain ⟨rows, file, journal⟩ := v
  cases file with
  | missing => exact .inl ⟨rfl, rfl⟩
  | unreadable => exact .inl ⟨rfl, rfl⟩
  | states states => exact .inr rfl

/-- The halt is looked up: it is passed over if active, and inserted next if not. -/
theorem snapshotStep_lookup {item : KillSwitchState} (hitem : item.active = true)
    (items : List KillSwitchState) (v : Vault) :
    SnapshotStep (getState item.halt) (fun r =>
      if isActive r then hydrateThen items
      else .call (upsertHydrated item.halt item) fun _ => hydrateThen items) v := by
  have hcarries : ∀ h, Carries h (.call (getState item.halt) fun r =>
      if isActive r then hydrateThen items
      else .call (upsertHydrated item.halt item) fun _ => hydrateThen items) ↔
      item.halt = h ∨ Carries h (hydrateThen items) := by
    intro h
    rw [← hydrateThen_item hitem, carries_hydrateThen, carries_hydrateThen, listedIn_cons,
      and_iff_right hitem]
  cases hactive : v.active item.halt with
  | true =>
    have hnext : (if isActive (v.rows.get? item.halt) = true then hydrateThen items
        else call (upsertHydrated item.halt item) fun _ => hydrateThen items) =
        hydrateThen items := if_pos hactive
    refine ⟨.hydrating items hnext, nofun, fun _ h => h, fun _ h => .inl h, fun h hc => ?_,
      fun h hc => ?_, nofun⟩
    · exact .inl ⟨v.rows.get? item.halt, hc⟩
    · rcases (hcarries h).mp hc with rfl | hrest
      · exact .inl hactive
      · right
        show Carries h (if isActive (v.rows.get? item.halt) = true then _ else _)
        rw [hnext]
        exact hrest
  | false =>
    have hnext : (if isActive (v.rows.get? item.halt) = true then hydrateThen items
        else call (upsertHydrated item.halt item) fun _ => hydrateThen items) =
        call (upsertHydrated item.halt item) fun _ => hydrateThen items :=
      if_neg (by rw [isActive_get?, hactive]; decide)
    refine ⟨.inserting item.halt item items hnext, nofun, fun _ h => h, fun _ h => .inl h,
      fun h hc => ?_, fun h hc => ?_, nofun⟩
    · exact .inl ⟨v.rows.get? item.halt, hc⟩
    · right
      show Carries h (if isActive (v.rows.get? item.halt) = true then _ else _)
      rw [hnext]
      exact (hcarries h).mp hc

theorem snapshot_step {c : VaultCall} {k : c.Resp → VaultProg RegistryReply}
    (hp : SnapshotAt (.call c k)) (v : Vault) : SnapshotStep c k v := by
  have hnone : ∀ h, ¬ Carries h (hydrateThen []) := fun h => id
  cases hp with
  | checking k' hp hmissing hfound =>
    cases hp
    obtain ⟨kr, hread, hempty, hstates⟩ := hfound
    have hnext : ∀ b, SnapshotAt (k' b) ∧ ∀ h, ¬ Carries h (k' b) := by
      intro b
      cases b with
      | false => exact ⟨.hydrating [] hmissing, hmissing ▸ hnone⟩
      | true => exact ⟨.reading kr hread hempty hstates, fun h => by rw [hread]; exact id⟩
    exact ⟨(hnext _).1, fun _ hc => (by cases hc), fun _ h => h, fun _ h => .inl h,
      fun h hc => absurd hc ((hnext _).2 h), fun _ hc => hc.elim, fun hc => (by cases hc)⟩
  | reading k' hp hempty hsome =>
    cases hp
    have hnext : k' (answer () .readFile v).1 = hydrateThen v.listed := by
      rcases answer_readFile v with ⟨hans, hlisted⟩ | hans
      · rw [hans, hlisted, hempty]
      · rw [hans, hsome]
    have hkeep : (answer () .readFile v).2 = v := by
      rw [answer]
      split <;> rfl
    refine ⟨.hydrating _ hnext, fun _ hc => (by cases hc), fun h => ?_, fun h hin => ?_,
      fun h hc => ?_, fun _ hc => hc.elim, fun _ h => ?_⟩
    · rw [hkeep]
      exact id
    · exact .inl (hkeep ▸ hin)
    · rw [hnext, carries_hydrateThen] at hc
      exact .inr ⟨rfl, hc⟩
    · rw [hnext, carries_hydrateThen]
      exact id
  | hydrating items hp =>
    induction items with
    | nil =>
      cases hp
      exact ⟨.returned _ rfl, fun _ hc => (by cases hc), fun _ h => h, fun _ h => .inl h,
        fun _ hc => hc.elim, fun _ hc => hc.elim, fun hc => (by cases hc)⟩
    | cons item items ih =>
      cases hitem : item.active with
      | false => exact ih (hp.trans (hydrateThen_skip hitem items))
      | true =>
        rw [hydrateThen_item hitem] at hp
        cases hp
        exact snapshotStep_lookup hitem items v
  | inserting h st items hp =>
    cases hp
    have hset : ∀ h', (answer () (.upsertHydrated h st) v).2.active h' =
        if h' = h then true else v.active h' := fun h' => active_set v h h' _ _ _
    refine ⟨.hydrating items rfl, fun _ hc => (by cases hc), fun h' hin => ?_, fun h' hin => ?_,
      fun h' hc => .inl (.inr hc), fun h' hc => ?_, fun hc => (by cases hc)⟩
    · rw [hset]
      split
      · rfl
      · exact hin
    · rw [hset] at hin
      split at hin
      · rename_i heq
        exact .inr (.inl heq.symm)
      · exact .inl hin
    · rcases hc with rfl | hrest
      · exact .inl ((hset h).trans (if_pos rfl))
      · exact .inr hrest
  | returned r hp => cases hp

/-! ## Where a release can be -/

/-- The calls that read the table or write the mirror and the journal. -/
def Mirrors : VaultCall → Prop
  | .getState _ | .selectActive | .appendJournal _ | .truncateFile | .writeFile _ => True
  | _ => False

theorem Mirrors.active {c : VaultCall} (hc : Mirrors c) (v : Vault) (h : Halt) :
    (answer () c v).2.active h = v.active h := by
  cases c with
  | getState _ | selectActive | appendJournal _ | truncateFile | writeFile _ => rfl
  | _ => exact hc.elim

theorem not_carries_of_mirrors {h : Halt} :
    ∀ {p : VaultProg RegistryReply}, AllCalls Mirrors p → ¬ Carries h p
  | .ret _, _ => id
  | .call (.getState _) _, ⟨_, hk⟩ => fun ⟨r, hr⟩ => not_carries_of_mirrors (hk r) hr
  | .call (.upsertHydrated ..) _, ⟨hc, _⟩ => hc.elim
  | .call (.upsertEngaged ..) _, _ | .call (.updateInactive _) _, _ | .call .selectActive _, _
  | .call (.appendJournal _) _, _ | .call .fileExists _, _ | .call .readFile _, _
  | .call .truncateFile _, _ | .call (.writeFile _) _, _ => id

/-- About to set the row inactive. -/
def Updates (h : Halt) (p : VaultProg RegistryReply) : Prop :=
  ∃ k, p = .call (updateInactive h) k ∧ ∀ n, AllCalls Mirrors (k n)

/-- The release has yet to set the row inactive. -/
def Before (h : Halt) (p : VaultProg RegistryReply) : Prop :=
  (∃ k, p = .call (getState h) k ∧ ∀ r, Updates h (k r)) ∨ Updates h p

theorem before_release (hashRationale : String → String) (h : Halt) (a : Act) :
    Before h ((RegistryOp.release h a).prog hashRationale) := by
  refine .inl ⟨_, rfl, fun prior => ⟨_, rfl, fun n => ?_⟩⟩
  refine ⟨trivial, fun states => ⟨trivial, fun _ => ⟨trivial, fun _ => ?_⟩⟩⟩
  refine AllCalls.bind (AllCalls.bind trivial fun _ => AllCalls.bind ?_ fun _ => ?_) fun _ => trivial
  · unfold journalRelease
    split
    · trivial
    · exact ⟨trivial, fun _ => trivial⟩
  · refine ⟨trivial, fun r => ?_⟩
    show AllCalls Mirrors (if isActive r = true then .ret none else .ret (some _))
    split <;> trivial

/-- The first call is the release of `h`, and the others are snapshots. -/
structure Watching (h : Halt) (cfg : Processes) : Prop where
  release : ∃ op p, cfg.threads[0]? = some ⟨op, p⟩ ∧
    (Before h p ∧ ¬ Released h cfg ∨ AllCalls Mirrors p ∧ Released h cfg)
  snapshots : ∀ n th, cfg.threads[n + 1]? = some th → SnapshotAt th.rest

/-- Once released, the halt is inactive and no call carries it. -/
def Clear (h : Halt) (cfg : Processes) : Prop :=
  Released h cfg → cfg.shared.active h = false ∧ ∀ th ∈ cfg.threads, ¬ Carries h th.rest

section Steps
variable {hashRationale : String → String} {h : Halt} {cfg : Processes}

/-- Only an update of its row releases a halt. -/
theorem released_log (h : Halt) {cfg cfg' : Processes}
    {event : Event RegistryOp VaultCall VaultCall.Resp RegistryReply}
    (hlog : cfg'.log = cfg.log ++ [event])
    (hevent : ∀ op n r, event ≠ .called op (.updateInactive h) n r) :
    Released h cfg' ↔ Released h cfg := by
  unfold Released
  rw [hlog]
  constructor
  · intro h
    obtain ⟨op, n, r, hin⟩ := h
    rcases List.mem_append.mp hin with hold | hnew
    · exact ⟨op, n, r, hold⟩
    · exact absurd (List.mem_singleton.mp hnew).symm (hevent op n r)
  · intro h
    obtain ⟨op, n, r, hin⟩ := h
    exact ⟨op, n, r, List.mem_append_left _ hin⟩

theorem turn_spawn (hashRationale : String → String) (cfg : Processes) (op : RegistryOp) :
    turn hashRationale cfg (.spawn op) =
      ⟨cfg.shared, cfg.threads ++ [⟨op, op.prog hashRationale⟩], cfg.log ++ [.spawned op]⟩ := rfl

theorem turn_step (hashRationale : String → String) {cfg : Processes} {n : Nat} {op : RegistryOp}
    {c : VaultCall} {k : c.Resp → VaultProg RegistryReply}
    (hth : cfg.threads[n]? = some ⟨op, .call c k⟩) :
    turn hashRationale cfg (.step n ()) = ⟨(answer () c cfg.shared).2,
      cfg.threads.set n ⟨op, k (answer () c cfg.shared).1⟩, cfg.log ++ [.called op c
        (answer () c cfg.shared).1 (result? (k (answer () c cfg.shared).1))]⟩ := by
  simp [turn, move, hth]

theorem nextCall_step {cfg : Processes} {n : Nat} {op : RegistryOp} {c : VaultCall}
    {k : c.Resp → VaultProg RegistryReply} (hth : cfg.threads[n]? = some ⟨op, .call c k⟩) :
    nextCall cfg (.step n () : Turn) = some ((), c) := by
  simp [nextCall, hth]

/-- What one turn does to a watched halt. -/
structure WatchStep (hashRationale : String → String) (h : Halt) (cfg : Processes) (mv : Turn) :
    Prop where
  watching : Watching h (turn hashRationale cfg mv)
  race : Clear h cfg → (Clear h (turn hashRationale cfg mv) ↔ RaceFree h cfg mv)
  lost : ¬ Clear h cfg → ¬ Clear h (turn hashRationale cfg mv)

/-- A turn that logs no update and leaves every carrier and the halt as they are. -/
theorem watchStep_quiet {mv : Turn} {cfg' : Processes} (hmove : turn hashRationale cfg mv = cfg')
    (hwatch : Watching h cfg') (hrel : Released h cfg' ↔ Released h cfg)
    (hactive : cfg'.shared.active h = cfg.shared.active h)
    (hcarry : (∃ th ∈ cfg'.threads, Carries h th.rest) ↔ ∃ th ∈ cfg.threads, Carries h th.rest)
    (hcall : ∀ c, nextCall cfg mv = some ((), c) → Mirrors c) :
    WatchStep hashRationale h cfg mv := by
  have hclear : Clear h cfg' ↔ Clear h cfg := by
    unfold Clear
    rw [hrel, hactive]
    refine imp_congr_right fun _ => and_congr_right fun _ => ?_
    have hnot := not_congr hcarry
    push Not at hnot
    exact hnot
  refine ⟨hmove ▸ hwatch, fun h' => ?_, fun hn => ?_⟩
  · rw [hmove]
    refine iff_of_true (hclear.mpr h') ⟨fun hnext => ?_, fun hnext => ?_⟩
    · exact (hcall _ hnext).elim
    · exact (hcall _ hnext).elim
  · rw [hmove]
    exact fun h' => hn (hclear.mp h')

theorem Watching.spawn (hw : Watching h cfg) :
    WatchStep hashRationale h cfg (.spawn .snapshot) := by
  obtain ⟨op, p, hhead, hstage⟩ := hw.release
  have hmove := turn_spawn hashRationale cfg .snapshot
  have hrel : Released h _ ↔ Released h cfg :=
    released_log h (congrArg Config.log hmove) (by rintro _ _ _ ⟨⟩)
  rw [hmove] at hrel
  have hlen : 0 < cfg.threads.length := (List.getElem?_eq_some_iff.mp hhead).1
  refine watchStep_quiet hmove ⟨⟨op, p, ?_, ?_⟩, fun n th hth => ?_⟩ hrel rfl ?_
    (by rintro c ⟨⟩)
  · exact (List.getElem?_append_left hlen).trans hhead
  · exact hstage.imp (And.imp_right (not_congr hrel).mpr) (And.imp_right hrel.mpr)
  · replace hth : (cfg.threads ++ [_])[n + 1]? = some th := hth
    rw [List.getElem?_append] at hth
    split at hth
    · exact hw.snapshots n th hth
    · rw [List.mem_singleton.mp (List.mem_of_getElem? hth)]
      exact snapshotAt_prog hashRationale
  · constructor
    · intro h
      obtain ⟨th, hth, hc⟩ := h
      rcases List.mem_append.mp hth with hold | hnew
      · exact ⟨th, hold, hc⟩
      · rw [List.mem_singleton.mp hnew] at hc
        exact hc.elim
    · intro h
      obtain ⟨th, hth, hc⟩ := h
      exact ⟨th, List.mem_append_left _ hth, hc⟩

theorem Watching.set_zero (hw : Watching h cfg) {th : Thread RegistryOp VaultCall VaultCall.Resp
    RegistryReply} {n : Nat} {new : Thread RegistryOp VaultCall VaultCall.Resp RegistryReply}
    (hth : (cfg.threads.set 0 new)[n + 1]? = some th) : SnapshotAt th.rest :=
  hw.snapshots n th (by rwa [List.getElem?_set_ne (Nat.succ_ne_zero n).symm] at hth)

/-- A call of the release that touches neither the row nor a carrier. -/
theorem Watching.mirror (hw : Watching h cfg) {op : RegistryOp} {c : VaultCall}
    {k : c.Resp → VaultProg RegistryReply} (hhead : cfg.threads[0]? = some ⟨op, .call c k⟩)
    (hc : Mirrors c) (hold : ¬ Carries h (.call c k))
    (hnew : ¬ Carries h (k (answer () c cfg.shared).1))
    (hstage : Before h (k (answer () c cfg.shared).1) ∧ ¬ Released h cfg ∨
      AllCalls Mirrors (k (answer () c cfg.shared).1) ∧ Released h cfg) :
    WatchStep hashRationale h cfg (.step 0 ()) := by
  have hmove := turn_step hashRationale hhead
  have hrel : Released h _ ↔ Released h cfg :=
    released_log h (congrArg Config.log hmove) (by rintro _ _ _ ⟨⟩; exact hc)
  rw [hmove] at hrel
  have hlen : 0 < cfg.threads.length := (List.getElem?_eq_some_iff.mp hhead).1
  refine watchStep_quiet hmove ⟨⟨op, _, List.getElem?_set_self hlen, ?_⟩, fun n th => hw.set_zero⟩
    hrel (hc.active _ _) ?_ ?_
  · exact hstage.imp (And.imp_right (not_congr hrel).mpr) (And.imp_right hrel.mpr)
  · constructor
    · intro h
      obtain ⟨th, hth, hcarry⟩ := h
      rcases List.mem_or_eq_of_mem_set hth with hth | rfl
      · exact ⟨th, hth, hcarry⟩
      · exact absurd hcarry hnew
    · intro h
      obtain ⟨th, hth, hcarry⟩ := h
      rcases mem_set_thread hhead hth ⟨op, k (answer () c cfg.shared).1⟩ with rfl | hth
      · exact absurd hcarry hold
      · exact ⟨th, hth, hcarry⟩
  · intro c' hnext
    rw [nextCall_step hhead] at hnext
    cases hnext
    exact hc

/-- The release sets the row inactive: from here the halt is clear unless a call
carries it. -/
theorem Watching.update (hw : Watching h cfg) {op : RegistryOp} {k : Nat → VaultProg RegistryReply}
    (hhead : cfg.threads[0]? = some ⟨op, .call (updateInactive h) k⟩)
    (hk : ∀ n, AllCalls Mirrors (k n)) (hfresh : ¬ Released h cfg) :
    WatchStep hashRationale h cfg (.step 0 ()) := by
  have hmove := turn_step hashRationale hhead
  have hreleased : Released h (turn hashRationale cfg (.step 0 ())) := by
    rw [hmove]
    exact ⟨op, _, _, List.mem_append_right _ (List.mem_singleton.mpr rfl)⟩
  have hinactive : (turn hashRationale cfg (.step 0 ())).shared.active h = false := by
    rw [hmove]
    exact (active_updateInactive cfg.shared h h).trans (if_pos rfl)
  have hlen : 0 < cfg.threads.length := (List.getElem?_eq_some_iff.mp hhead).1
  have hcall := nextCall_step hhead
  refine ⟨⟨⟨op, k (answer () (updateInactive h) cfg.shared).1, ?_, .inr ⟨hk _, hreleased⟩⟩,
    fun n th hth => ?_⟩, fun _ => ?_, fun hn => absurd (fun hrel => absurd hrel hfresh) hn⟩
  · rw [hmove]
    exact List.getElem?_set_self hlen
  · rw [hmove] at hth
    exact hw.set_zero hth
  · constructor
    · intro hclear
      refine ⟨fun _ th hth hcarry => ?_, fun hnext => by rw [hcall] at hnext; cases hnext⟩
      obtain ⟨-, hnone⟩ := hclear hreleased
      rw [hmove] at hnone
      rcases mem_set_thread hhead hth ⟨op, k (answer () (updateInactive h) cfg.shared).1⟩ with
        rfl | hth
      · exact hcarry
      · exact hnone th hth hcarry
    · intro hrace _
      refine ⟨hinactive, fun th hth hcarry => ?_⟩
      rw [hmove] at hth
      rcases List.mem_or_eq_of_mem_set hth with hth | rfl
      · exact hrace.1 hcall th hth hcarry
      · exact not_carries_of_mirrors (hk _) hcarry

section Snapshot
variable {n : Nat} {op : RegistryOp} {c : VaultCall} {k : c.Resp → VaultProg RegistryReply}
  (hth : cfg.threads[n]? = some ⟨op, .call c k⟩)
include hth

variable (hashRationale h) in
/-- A call of a snapshot leaves the release where it is. -/
theorem released_snapshot (hs : SnapshotStep c k cfg.shared) :
    Released h (turn hashRationale cfg (.step n ())) ↔ Released h cfg := by
  refine released_log h (congrArg Config.log (turn_step hashRationale hth)) ?_
  rintro _ _ _ ⟨⟩
  exact hs.updates h rfl

variable (hashRationale) in
theorem mem_next : ⟨op, k (answer () c cfg.shared).1⟩ ∈
    (turn hashRationale cfg (.step n ())).threads := by
  rw [turn_step hashRationale hth]
  exact List.mem_of_getElem? (List.getElem?_set_self (List.getElem?_eq_some_iff.mp hth).1)

/-- A clear halt is put at risk exactly when the snapshot reads a file that lists it. -/
theorem clear_snapshot (hs : SnapshotStep c k cfg.shared) (hclear : Clear h cfg) :
    Clear h (turn hashRationale cfg (.step n ())) ↔ RaceFree h cfg (.step n ()) := by
  have hrel := released_snapshot hashRationale h hth hs
  have hcall := nextCall_step hth
  constructor
  · intro hnext
    refine ⟨fun hc => ?_, fun hc hreleased hlisted => ?_⟩
    · rw [hcall] at hc
      exact absurd (congrArg Prod.snd (Option.some.inj hc)) (hs.updates h)
    · rw [hcall] at hc
      obtain ⟨-, hnone⟩ := hnext (hrel.mpr hreleased)
      exact hnone _ (mem_next hashRationale hth) (hs.reads (congrArg Prod.snd (Option.some.inj hc)) h hlisted)
  · intro hrace hnext
    have hreleased := hrel.mp hnext
    obtain ⟨hinactive, hnone⟩ := hclear hreleased
    have hold : ¬ Carries h (.call c k) := hnone _ (List.mem_of_getElem? hth)
    rw [turn_step hashRationale hth]
    refine ⟨Bool.eq_false_iff.mpr fun hactive => ?_, fun th hth' hcarry => ?_⟩
    · rcases hs.adds h hactive with hwas | hcarry
      · rw [hinactive] at hwas
        cases hwas
      · exact hold hcarry
    · rcases List.mem_or_eq_of_mem_set hth' with hth' | rfl
      · exact hnone th hth' hcarry
      · rcases hs.carried h hcarry with hwas | ⟨rfl, hlisted⟩
        · exact hold hwas
        · exact hrace.2 hcall hreleased hlisted

/-- A halt that is not clear stays so. -/
theorem not_clear_snapshot (hs : SnapshotStep c k cfg.shared) (hlost : ¬ Clear h cfg) :
    ¬ Clear h (turn hashRationale cfg (.step n ())) := by
  intro hnext
  refine hlost fun hreleased => ?_
  have hself := mem_next hashRationale hth
  obtain ⟨hinactive, hnone⟩ := hnext ((released_snapshot hashRationale h hth hs).mpr hreleased)
  rw [turn_step hashRationale hth] at hinactive hnone hself
  refine ⟨Bool.eq_false_iff.mpr fun hactive => ?_, fun th hth' hcarry => ?_⟩
  · have hstill : (answer () c cfg.shared).2.active h = true := hs.keeps h hactive
    exact absurd (hstill.symm.trans hinactive) (by decide)
  · rcases mem_set_thread hth hth' ⟨op, k (answer () c cfg.shared).1⟩ with rfl | hth'
    · rcases hs.onward h hcarry with hactive | hcarry'
      · exact absurd (hactive.symm.trans hinactive) (by decide)
      · exact hnone _ hself hcarry'
    · exact hnone th hth' hcarry

end Snapshot

theorem Watching.snapshot (hw : Watching h cfg) {n : Nat} {op : RegistryOp} {c : VaultCall}
    {k : c.Resp → VaultProg RegistryReply} (hth : cfg.threads[n + 1]? = some ⟨op, .call c k⟩) :
    WatchStep hashRationale h cfg (.step (n + 1) ()) := by
  have hs := snapshot_step (hw.snapshots n _ hth) cfg.shared
  have hrel := released_snapshot hashRationale h hth hs
  refine ⟨?_, clear_snapshot hth hs, not_clear_snapshot hth hs⟩
  obtain ⟨op0, p0, hhead, hstage⟩ := hw.release
  rw [turn_step hashRationale hth] at hrel ⊢
  refine ⟨⟨op0, p0, ?_, ?_⟩, fun m th hm => ?_⟩
  · exact (List.getElem?_set_ne (Nat.succ_ne_zero n)).trans hhead
  · exact hstage.imp (And.imp_right (not_congr hrel).mpr) (And.imp_right hrel.mpr)
  · by_cases hmn : n = m
    · subst hmn
      have hnew := List.getElem?_set_self (a := ⟨op, k (answer () c cfg.shared).1⟩)
        (List.getElem?_eq_some_iff.mp hth).1
      obtain rfl := Option.some.inj (hnew.symm.trans hm)
      exact hs.next
    · rw [List.getElem?_set_ne (by omega)] at hm
      exact hw.snapshots m th hm

theorem not_carries_of_updates {p : VaultProg RegistryReply} (hp : Updates h p) :
    ¬ Carries h p := by
  obtain ⟨k, rfl, -⟩ := hp
  exact id

theorem Watching.release_step (hw : Watching h cfg) {op : RegistryOp} {c : VaultCall}
    {k : c.Resp → VaultProg RegistryReply} (hhead : cfg.threads[0]? = some ⟨op, .call c k⟩) :
    WatchStep hashRationale h cfg (.step 0 ()) := by
  obtain ⟨op', p, hhead', hstage⟩ := hw.release
  rw [hhead] at hhead'
  cases hhead'
  rcases hstage with ⟨⟨k', hp, hk⟩ | ⟨k', hp, hk⟩, hfresh⟩ | ⟨hmirrors, hreleased⟩
  · cases hp
    refine hw.mirror hhead trivial ?_ (not_carries_of_updates (hk _)) (.inl ⟨.inr (hk _), hfresh⟩)
    intro h
    obtain ⟨r, hr⟩ := h
    exact not_carries_of_updates (hk r) hr
  · cases hp
    exact hw.update hhead hk hfresh
  · exact hw.mirror hhead hmirrors.1 (not_carries_of_mirrors hmirrors)
      (not_carries_of_mirrors (hmirrors.2 _)) (.inr ⟨hmirrors.2 _, hreleased⟩)

/-- **One turn** of a release among snapshots. -/
theorem Watching.step (hw : Watching h cfg) {mv : Turn} (hmv : SpawnsOnly (· = .snapshot) mv) :
    WatchStep hashRationale h cfg mv := by
  cases mv with
  | spawn op =>
    obtain rfl : op = .snapshot := hmv
    exact hw.spawn
  | step t i =>
    rcases step_cases (RegistryOp.prog hashRationale) answer cfg t i with
      ⟨hcall, hmove⟩ | ⟨op, c, k, hth, -, -⟩
    · have hrel : Released h _ ↔ Released h cfg :=
        released_log h (congrArg Config.log hmove) (by rintro _ _ _ ⟨⟩)
      rw [hmove] at hrel
      refine watchStep_quiet hmove ⟨?_, hw.snapshots⟩ hrel rfl Iff.rfl fun c hc => ?_
      · obtain ⟨op, p, hhead, hstage⟩ := hw.release
        exact ⟨op, p, hhead, hstage.imp (And.imp_right (not_congr hrel).mpr)
          (And.imp_right hrel.mpr)⟩
      · rw [hcall] at hc
        cases hc
    · cases t with
      | zero => exact hw.release_step hth
      | succ n => exact hw.snapshot hth

end Steps

/-! ## Whole runs -/

/-- What a release should mean: when it has returned and every snapshot has
ended, the halt is inactive. -/
def StaysReleased (hashRationale : String → String) (v : Vault) (h : Halt) (a : Act)
    (moves : List Turn) : Prop :=
  (run (turn hashRationale) (underway hashRationale (.release h a) v) moves).shared.active h = false

/-- What an engage should mean: once it has returned, the halt is active whatever
else is called but its release. -/
def StaysEngaged (hashRationale : String → String) (v : Vault) (h : Halt) (a : Act)
    (moves later : List Turn) : Prop :=
  Returned (run (turn hashRationale) (underway hashRationale (.engage h a) v) moves) →
    (run (turn hashRationale) (underway hashRationale (.engage h a) v)
      (moves ++ later)).shared.active h = true

theorem watching_underway (hashRationale : String → String) (v : Vault) (h : Halt) (a : Act) :
    Watching h (underway hashRationale (.release h a) v) where
  release := ⟨_, _, rfl, .inl ⟨before_release hashRationale h a, by rintro ⟨_, _, _, hin⟩; cases hin⟩⟩
  snapshots n th hth := by cases hth

theorem staysReleased_iff {hashRationale : String → String} {v : Vault} {h : Halt} {a : Act}
    {moves : List Turn} (hmoves : ∀ mv ∈ moves, SpawnsOnly (· = .snapshot) mv)
    (hfinished : Finished (run (turn hashRationale) (underway hashRationale (.release h a) v) moves))
    (hreturned : Returned
      (run (turn hashRationale) (underway hashRationale (.release h a) v) moves)) :
    StaysReleased hashRationale v h a moves ↔
      Along (turn hashRationale) (RaceFree h) (underway hashRationale (.release h a) v) moves := by
  have hstart := watching_underway hashRationale v h a
  have hguard : Along (turn hashRationale) (fun _ mv => SpawnsOnly (· = .snapshot) mv)
      (underway hashRationale (.release h a) v) moves := along_of_forall _ hmoves
  have hclear : Clear h (underway hashRationale (.release h a) v) := by
    intro h
    obtain ⟨_, _, _, hin⟩ := h
    cases hin
  have hwatch := run_invariant (P := fun _ mv => SpawnsOnly (· = .snapshot) mv) (I := Watching h)
    (fun _ _ hw hmv => (hw.step hmv).watching) moves hstart hguard
  have hend := along_iff_end (G := fun _ mv => SpawnsOnly (· = .snapshot) mv) (I := Watching h)
    (Q := Clear h) (fun _ _ hw hmv => (hw.step hmv).watching)
    (fun _ _ hw hmv => (hw.step hmv).lost) moves hstart hclear hguard
  rw [← along_next_iff_of (G := fun _ mv => SpawnsOnly (· = .snapshot) mv) (I := Watching h)
    (Q := Clear h) (fun cfg mv hw hmv _ => (hw.step hmv).watching)
    (fun cfg mv hw hmv hq => (hw.step hmv).race hq) moves hstart hclear hguard, hend]
  -- at the end the row has been updated and no call carries anything
  have hreleased : Released h (run (turn hashRationale)
      (underway hashRationale (.release h a) v) moves) := by
    obtain ⟨op, st, hret⟩ := hreturned
    obtain ⟨op', p, hhead, hstage⟩ := hwatch.release
    rw [hret] at hhead
    cases hhead
    rcases hstage with ⟨⟨k, hp, -⟩ | ⟨k, hp, -⟩, -⟩ | ⟨-, hreleased⟩
    · cases hp
    · cases hp
    · exact hreleased
  constructor
  · intro hinactive _
    refine ⟨hinactive, fun th hth hcarry => ?_⟩
    have hdone := hfinished th hth
    obtain ⟨op, p⟩ := th
    cases p with
    | ret r => exact hcarry
    | call c k => cases hdone
  · intro hend
    exact (hend hreleased).1

/-! ## Engages -/

/-- A call that does not set the halt's row inactive. -/
def Spares (h : Halt) : VaultCall → Prop
  | .updateInactive h' => h' ≠ h
  | .upsertEngaged _ row => row.active = true
  | _ => True

theorem Spares.keeps {h : Halt} {c : VaultCall} (hc : Spares h c) {v : Vault}
    (hv : v.active h = true) : (answer () c v).2.active h = true := by
  cases c with
  | updateInactive h' => rw [active_updateInactive, if_neg (Ne.symm hc), hv]
  | upsertEngaged h' row =>
    refine (active_set v h' h row _ _).trans ?_
    split
    · exact hc
    · exact hv
  | upsertHydrated h' st =>
    refine (active_set v h' h _ _ _).trans ?_
    split
    · rfl
    · exact hv
  | readFile =>
    rw [answer]
    split <;> exact hv
  | _ => exact hv

theorem spares_hydrateItems (h : Halt) (items : List KillSwitchState) :
    AllCalls (Spares h) (hydrateItems items) := by
  induction items with
  | nil => trivial
  | cons item items ih =>
    unfold hydrateItems
    split
    · refine ⟨trivial, fun r => ?_⟩
      show AllCalls (Spares h) (if isActive r = true then _ else _)
      split
      · exact ih
      · exact ⟨trivial, fun _ => ih⟩
    · exact ih

theorem spares_hydrateThen (h : Halt) (items : List KillSwitchState) :
    AllCalls (Spares h) (hydrateThen items) :=
  AllCalls.bind (AllCalls.bind (spares_hydrateItems h items) fun _ => ⟨trivial, fun _ => trivial⟩)
    fun _ => trivial

theorem spares_syncStateFile (h : Halt) : AllCalls (Spares h) syncStateFile :=
  ⟨trivial, fun _ => ⟨trivial, fun _ => ⟨trivial, fun _ => trivial⟩⟩⟩

/-- Only a release of the halt itself sets its row inactive. -/
theorem spares_prog (hashRationale : String → String) {h : Halt} {op : RegistryOp}
    (hop : ∀ a, op ≠ .release h a) : AllCalls (Spares h) (op.prog hashRationale) := by
  cases op with
  | engage h' a =>
    refine ⟨trivial, fun _ => ⟨rfl, fun _ => ?_⟩⟩
    exact AllCalls.bind (AllCalls.bind trivial fun _ => AllCalls.bind (spares_syncStateFile h)
      fun _ => ⟨trivial, fun _ => trivial⟩) fun _ => trivial
  | release h' a =>
    have hne : h' ≠ h := fun heq => hop a (by rw [heq])
    refine ⟨trivial, fun _ => ⟨hne, fun _ => ?_⟩⟩
    refine AllCalls.bind (AllCalls.bind trivial fun _ => AllCalls.bind (spares_syncStateFile h)
      fun _ => AllCalls.bind ?_ fun _ => ?_) fun _ => trivial
    · unfold journalRelease
      split
      · trivial
      · exact ⟨trivial, fun _ => trivial⟩
    · refine ⟨trivial, fun r => ?_⟩
      show AllCalls (Spares h) (if isActive r = true then .ret none else .ret (some _))
      split <;> trivial
  | snapshot =>
    refine ⟨trivial, fun found => ?_⟩
    cases found with
    | false => exact spares_hydrateThen h []
    | true =>
      refine ⟨trivial, fun states => ?_⟩
      cases states with
      | none => exact spares_hydrateThen h []
      | some states => exact spares_hydrateThen h states

/-- About to set the row active. -/
def Upserts (h : Halt) (p : VaultProg RegistryReply) : Prop :=
  ∃ row k, p = .call (upsertEngaged h row) k ∧ row.active = true

/-- The first call is an engage of `h`; once it has set the row active, the row
is active. -/
structure Engaging (h : Halt) (cfg : Processes) : Prop where
  engage : ∃ op p, cfg.threads[0]? = some ⟨op, p⟩ ∧
    ((∃ k, p = .call (getState h) k ∧ ∀ r, Upserts h (k r)) ∨ Upserts h p ∨
      cfg.shared.active h = true)
  spares : ∀ th ∈ cfg.threads, AllCalls (Spares h) th.rest

theorem engaging_underway (hashRationale : String → String) (v : Vault) (h : Halt) (a : Act) :
    Engaging h (underway hashRationale (.engage h a) v) where
  engage := ⟨_, _, rfl, .inl ⟨_, rfl, fun _ => ⟨_, _, rfl, rfl⟩⟩⟩
  spares th hth := by
    obtain rfl := List.mem_singleton.mp hth
    show AllCalls (Spares h) ((RegistryOp.engage h a).prog hashRationale)
    exact spares_prog hashRationale fun a' heq => by cases heq

theorem Engaging.step {hashRationale : String → String} {h : Halt} {cfg : Processes}
    (he : Engaging h cfg) {mv : Turn} (hmv : SpawnsOnly (fun op => ∀ a, op ≠ .release h a) mv) :
    Engaging h (turn hashRationale cfg mv) := by
  obtain ⟨op0, p0, hhead, hstage⟩ := he.engage
  have hlen : 0 < cfg.threads.length := (List.getElem?_eq_some_iff.mp hhead).1
  cases mv with
  | spawn op =>
    refine ⟨⟨op0, p0, (List.getElem?_append_left hlen).trans hhead, hstage⟩, fun th hth => ?_⟩
    rcases List.mem_append.mp hth with hold | hnew
    · exact he.spares th hold
    · rw [List.mem_singleton.mp hnew]
      exact spares_prog hashRationale hmv
  | step t i =>
    unfold turn
    rcases step_cases (RegistryOp.prog hashRationale) answer cfg t i with
      ⟨-, hmove⟩ | ⟨op, c, k, hth, -, hmove⟩
    · rw [hmove]
      exact ⟨⟨op0, p0, hhead, hstage⟩, he.spares⟩
    · have hcalls : AllCalls (Spares h) (.call c k) := he.spares _ (List.mem_of_getElem? hth)
      rw [hmove]
      refine ⟨?_, fun th hth' => ?_⟩
      · cases t with
        | zero =>
          rw [hth] at hhead
          cases hhead
          refine ⟨_, _, List.getElem?_set_self hlen, ?_⟩
          rcases hstage with ⟨k', hp, hk⟩ | ⟨row, k', hp, hrow⟩ | hactive
          · cases hp
            exact .inr (.inl (hk _))
          · cases hp
            exact .inr (.inr (((active_set cfg.shared h h row _ _).trans (if_pos rfl)).trans hrow))
          · exact .inr (.inr (hcalls.1.keeps hactive))
        | succ n =>
          refine ⟨op0, p0, (List.getElem?_set_ne (Nat.succ_ne_zero n)).trans hhead, ?_⟩
          exact hstage.imp_right (Or.imp_right hcalls.1.keeps)
      · rcases List.mem_or_eq_of_mem_set hth' with hold | rfl
        · exact he.spares th hold
        · exact hcalls.2 _

/-- No turn of an engage's run sets the row inactive. -/
theorem Engaging.stays {hashRationale : String → String} {h : Halt} {cfg : Processes}
    (he : Engaging h cfg) (hactive : cfg.shared.active h = true) (mv : Turn) :
    (turn hashRationale cfg mv).shared.active h = true := by
  cases mv with
  | spawn op => exact hactive
  | step t i =>
    unfold turn
    rcases step_cases (RegistryOp.prog hashRationale) answer cfg t i with
      ⟨-, hmove⟩ | ⟨op, c, k, hth, -, hmove⟩
    · rw [hmove]
      exact hactive
    · have hcalls : AllCalls (Spares h) (.call c k) := he.spares _ (List.mem_of_getElem? hth)
      rw [hmove]
      exact hcalls.1.keeps hactive

theorem staysEngaged {hashRationale : String → String} {v : Vault} {h : Halt} {a : Act}
    {moves later : List Turn}
    (hmoves : ∀ mv ∈ moves ++ later, SpawnsOnly (fun op => ∀ a, op ≠ .release h a) mv) :
    StaysEngaged hashRationale v h a moves later := by
  intro hreturned
  have hguard : Along (turn hashRationale)
      (fun _ mv => SpawnsOnly (fun op => ∀ a, op ≠ .release h a) mv)
      (underway hashRationale (.engage h a) v) (moves ++ later) := along_of_forall _ hmoves
  rw [along_append] at hguard
  have hmid := run_invariant (I := Engaging h) (fun _ _ he hmv => he.step hmv) moves
    (engaging_underway hashRationale v h a) hguard.1
  have hactive : (run (turn hashRationale) (underway hashRationale (.engage h a) v)
      moves).shared.active h = true := by
    obtain ⟨op, st, hret⟩ := hreturned
    obtain ⟨op', p, hhead, hstage⟩ := hmid.engage
    rw [hret] at hhead
    cases hhead
    rcases hstage with ⟨k, hp, -⟩ | ⟨row, k, hp, -⟩ | hactive
    · cases hp
    · cases hp
    · exact hactive
  rw [run_append]
  exact (run_invariant (I := fun cfg => Engaging h cfg ∧ cfg.shared.active h = true)
    (fun cfg mv he hmv => ⟨he.1.step hmv, he.1.stays he.2 mv⟩) later ⟨hmid, hactive⟩ hguard.2).2

/-- **A released halt stays released** exactly when its row is set inactive while
no snapshot carries it, and no snapshot reads the file after that while it still
lists it; and an engaged halt stays engaged whatever else runs but its release. -/
theorem released_stays_released_iff (hashRationale : String → String) (v : Vault) (h : Halt)
    (a : Act) :
    (∀ moves, (∀ mv ∈ moves, SpawnsOnly (· = .snapshot) mv) →
      Finished (run (turn hashRationale) (underway hashRationale (.release h a) v) moves) →
      Returned (run (turn hashRationale) (underway hashRationale (.release h a) v) moves) →
      (StaysReleased hashRationale v h a moves ↔ Along (turn hashRationale) (RaceFree h)
        (underway hashRationale (.release h a) v) moves)) ∧
    ∀ moves later,
      (∀ mv ∈ moves ++ later, SpawnsOnly (fun op => ∀ a, op ≠ .release h a) mv) →
      StaysEngaged hashRationale v h a moves later :=
  ⟨fun _ => staysReleased_iff, fun _ _ => staysEngaged⟩

/-- Whether the first call has returned can be read off. -/
theorem returned_of {cfg : Processes}
    (h : (cfg.threads[0]?.bind fun th => result? th.rest).any
      (fun | .state st => st.isSome | .snapshot _ => false) = true) : Returned cfg := by
  obtain ⟨reply, hreply, hstate⟩ := (Option.any_eq_true _ _).mp h
  obtain ⟨⟨op, rest⟩, hhead, hresult⟩ := Option.bind_eq_some_iff.mp hreply
  cases rest with
  | call c k => cases hresult
  | ret a =>
    cases hresult
    cases reply with
    | snapshot snap => cases hstate
    | state st =>
      obtain ⟨st', rfl⟩ := Option.isSome_iff_exists.mp hstate
      exact ⟨op, st', hhead⟩

/-- A vault with a portfolio halt, and its mirror. -/
def haltedVault : Vault where
  rows := Dict.empty.set (.portfolioHalt, "GLOBAL") ⟨true, some "09:30", some "risk", none, "{}"⟩
  stateFile := .states [⟨.portfolioHalt, "GLOBAL", true, some "09:30", some "risk", none⟩]

def clearance : Act := ⟨"risk", "cleared", "{}", "10:00"⟩

/-- A snapshot reads the file, the release runs to its end, and the snapshot goes
on to its end. -/
def resurrection : List Turn :=
  [.spawn .snapshot, .step 1 (), .step 1 ()] ++ List.replicate 7 (.step 0 ()) ++
    List.replicate 3 (.step 1 ())

theorem snapshot_resurrects_halt :
    (∀ mv ∈ resurrection, SpawnsOnly (· = .snapshot) mv) ∧
      Finished (run (turn id) (underway id (.release (.portfolioHalt, "GLOBAL") clearance)
        haltedVault) resurrection) ∧
      Returned (run (turn id) (underway id (.release (.portfolioHalt, "GLOBAL") clearance)
        haltedVault) resurrection) ∧
      ¬ StaysReleased id haltedVault (.portfolioHalt, "GLOBAL") clearance resurrection := by
  refine ⟨?_, ?_, returned_of (by decide +kernel), ?_⟩
  · simp [resurrection, SpawnsOnly]
  · unfold Finished
    decide +kernel
  · unfold StaysReleased
    decide +kernel

/-- A release that ends before a snapshot begins. -/
def cleared : List Turn := List.replicate 7 (.step 0 ()) ++ [.spawn .snapshot] ++
  List.replicate 3 (.step 1 ())

/-- Such a release is free of races, and the engage of another halt is not undone. -/
theorem cleared_halt_race_free :
    Along (turn id) (RaceFree (.portfolioHalt, "GLOBAL"))
        (underway id (.release (.portfolioHalt, "GLOBAL") clearance) haltedVault) cleared ∧
      (run (turn id) (underway id (.engage (.aiHalt, "GLOBAL") clearance) haltedVault)
        (List.replicate 6 (.step 0 ()) ++ [.spawn .snapshot])).shared.active (.aiHalt, "GLOBAL") =
          true := by
  constructor
  · refine ((released_stays_released_iff id haltedVault (.portfolioHalt, "GLOBAL") clearance).1
      cleared ?_ ?_ (returned_of (by decide +kernel))).mp ?_
    · simp [cleared, SpawnsOnly]
    · unfold Finished
      decide +kernel
    · unfold StaysReleased
      decide +kernel
  · refine (released_stays_released_iff id haltedVault (.aiHalt, "GLOBAL") clearance).2
      (List.replicate 6 (.step 0 ())) [.spawn .snapshot] ?_ (returned_of (by decide +kernel))
    simp [SpawnsOnly]

end TradingPlatform.Engine.KillSwitch
