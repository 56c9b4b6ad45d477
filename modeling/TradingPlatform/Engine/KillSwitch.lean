import TradingPlatform.Lib.Dict
import TradingPlatform.Lib.Prog
import TradingPlatform.Lib.Runs

/-! # The kill-switch registry

Halts live in a table of the vault and are mirrored to a state file. A snapshot
first inserts what the file lists as active and the table does not, and then
folds the active rows into sets by level. Each method is the program of the
statements and file accesses it performs one at a time. -/

namespace TradingPlatform.Engine.KillSwitch

open TradingPlatform.Lib TradingPlatform.Lib.Prog TradingPlatform.Lib.Runs

inductive KillLevel
  | strategyHalt
  | portfolioHalt
  | researchHalt
  | aiHalt
  deriving DecidableEq, Repr

def KillLevel.value : KillLevel → String
  | .strategyHalt => "STRATEGY_HALT"
  | .portfolioHalt => "PORTFOLIO_HALT"
  | .researchHalt => "RESEARCH_HALT"
  | .aiHalt => "AI_HALT"

/-- The primary key of `human_override_registry`. -/
abbrev Halt := KillLevel × String

structure OverrideRow where
  active : Bool
  engagedAt : Option String
  engagedBy : Option String
  rationaleHash : Option String
  metadataJson : String
  deriving DecidableEq

structure KillSwitchState where
  killLevel : KillLevel
  scopeKey : String
  active : Bool
  engagedAt : Option String
  engagedBy : Option String
  rationaleHash : Option String
  deriving DecidableEq

/-- `str(scope or "GLOBAL")`. -/
def scopeOr (scope : String) : String := if scope = "" then "GLOBAL" else scope

/-- The row a state of the file is hydrated into. -/
def KillSwitchState.halt (st : KillSwitchState) : Halt := (st.killLevel, scopeOr st.scopeKey)

def OverrideRow.toState (h : Halt) (row : OverrideRow) : KillSwitchState where
  killLevel := h.1
  scopeKey := scopeOr h.2
  active := true
  engagedAt := row.engagedAt
  engagedBy := row.engagedBy
  rationaleHash := row.rationaleHash

inductive StateFile
  | missing
  | unreadable
  | states (states : List KillSwitchState)
  deriving DecidableEq

inductive JournalEvent
  | engaged
  | released
  deriving DecidableEq, Repr

structure JournalEntry where
  event : JournalEvent
  scopeKey : String
  previousActive : Bool
  requestedActive : Bool
  operator : String
  rationale : String
  deriving DecidableEq

structure Vault where
  rows : Dict Halt OverrideRow := .empty
  stateFile : StateFile := .missing
  journal : List JournalEntry := []

def Vault.active (v : Vault) (h : Halt) : Bool := ((v.rows.get? h).map (·.active)).getD false

/-! ## Statements and file accesses -/

inductive VaultCall
  | getState (h : Halt)
  | upsertEngaged (h : Halt) (row : OverrideRow)
  | upsertHydrated (h : Halt) (st : KillSwitchState)
  | updateInactive (h : Halt)
  | selectActive
  | appendJournal (entry : JournalEntry)
  | fileExists
  | readFile
  | truncateFile
  | writeFile (states : List KillSwitchState)

namespace VaultCall

@[reducible] def Resp : VaultCall → Type
  | getState _ => Option OverrideRow
  | updateInactive _ => Nat
  | selectActive => List KillSwitchState
  | fileExists => Bool
  | readFile => Option (List KillSwitchState)
  | _ => Unit

end VaultCall

abbrev VaultProg := Prog VaultCall VaultCall.Resp

/-- The row a hydrated state makes: metadata stays as it was. -/
def hydratedRow (v : Vault) (h : Halt) (st : KillSwitchState) : OverrideRow where
  active := true
  engagedAt := st.engagedAt
  engagedBy := st.engagedBy
  rationaleHash := st.rationaleHash
  metadataJson := ((v.rows.get? h).map (·.metadataJson)).getD "\x7b\x7d"

def activeStates (v : Vault) : List KillSwitchState :=
  (v.rows.items.filter (·.2.active)).map fun p => p.2.toState p.1

/-- What a statement or a file access answers and leaves. -/
def answer (_ : Unit) : (c : VaultCall) → Vault → c.Resp × Vault
  | .getState h, v => (v.rows.get? h, v)
  | .upsertEngaged h row, v => ((), { v with rows := v.rows.set h row })
  | .upsertHydrated h st, v => ((), { v with rows := v.rows.set h (hydratedRow v h st) })
  | .updateInactive h, v =>
    match v.rows.get? h with
    | some row => ((1 : Nat), { v with rows := v.rows.set h { row with active := false } })
    | none => ((0 : Nat), v)
  | .selectActive, v => (activeStates v, v)
  | .appendJournal entry, v => ((), { v with journal := v.journal ++ [entry] })
  | .fileExists, v => (decide (v.stateFile ≠ .missing), v)
  | .readFile, v =>
    match v.stateFile with
    | .states states => (some states, v)
    | _ => (none, v)
  | .truncateFile, v => ((), { v with stateFile := .unreadable })
  | .writeFile states, v => ((), { v with stateFile := .states states })

/-! ## The methods -/

open VaultCall

/-- The arguments of an engage or a release, with the time it is stamped with. -/
structure Act where
  operator : String
  rationale : String
  metadataJson : String := "\x7b\x7d"
  now : String := ""

structure OverrideSnapshot where
  strategyHalts : List String
  portfolioHalt : Bool
  researchHalt : Bool
  aiHalt : Bool
  states : List KillSwitchState

def OverrideSnapshot.ofStates (states : List KillSwitchState) : OverrideSnapshot where
  strategyHalts := (states.filter fun st =>
    st.killLevel = .strategyHalt ∧ st.scopeKey ≠ "GLOBAL").map (·.scopeKey)
  portfolioHalt := states.any fun st => st.killLevel = .portfolioHalt
  researchHalt := states.any fun st => st.killLevel = .researchHalt
  aiHalt := states.any fun st => st.killLevel = .aiHalt
  states := states

/-- `snap.portfolio_halt or strategy_id in ... or "GLOBAL" in ...`. -/
def OverrideSnapshot.strategyHalted (snap : OverrideSnapshot) (strategyId : String) : Bool :=
  snap.portfolioHalt ||
    (decide (strategyId ∈ snap.strategyHalts) || decide ("GLOBAL" ∈ snap.strategyHalts))

def readDbSnapshot : VaultProg OverrideSnapshot := do
  let states ← perform selectActive
  return .ofStates states

/-- `write_text` truncates the file before it writes. -/
def syncStateFile : VaultProg Unit := do
  let snap ← readDbSnapshot
  perform truncateFile
  perform (writeFile snap.states)

def isActive (row : Option OverrideRow) : Bool := (row.map (·.active)).getD false

def hydrateItems : List KillSwitchState → VaultProg Unit
  | [] => return ()
  | item :: items =>
    if item.active then do
      let existing ← perform (getState item.halt)
      if isActive existing then hydrateItems items
      else do
        perform (upsertHydrated item.halt item)
        hydrateItems items
    else hydrateItems items

def hydrateFromStateFile : VaultProg Unit := do
  if ← perform fileExists then
    match ← perform readFile with
    | some states => hydrateItems states
    | none => return ()

def snapshot : VaultProg OverrideSnapshot := do
  hydrateFromStateFile
  readDbSnapshot

section Code
variable (hashRationale : String → String)

def engage (h : Halt) (a : Act) : VaultProg KillSwitchState := do
  let prior ← perform (getState h)
  perform (upsertEngaged h
    ⟨true, some a.now, some a.operator, some (hashRationale a.rationale), a.metadataJson⟩)
  syncStateFile
  perform (appendJournal
    ⟨.engaged, h.1.value ++ ":" ++ h.2, isActive prior, true, a.operator, a.rationale⟩)
  return ⟨h.1, h.2, true, some a.now, some a.operator, some (hashRationale a.rationale)⟩

/-- The journal is written only for a halt that was active. -/
def journalRelease (h : Halt) (a : Act) (prior : Option OverrideRow) (updated : Nat) :
    VaultProg Unit :=
  if updated = 0 ∨ isActive prior = false then return ()
  else perform (appendJournal
    ⟨.released, h.1.value ++ ":" ++ h.2, isActive prior, false, a.operator, a.rationale⟩)

/-- The check on a fresh connection; `none` is a `KillSwitchReleaseError`. -/
def verifyReleased (h : Halt) (a : Act) (prior : Option OverrideRow) :
    VaultProg (Option KillSwitchState) := do
  let after ← perform (getState h)
  if isActive after then return none
  else return some ⟨h.1, h.2, false, prior.bind (·.engagedAt), some a.operator,
    some (hashRationale a.rationale)⟩

def release (h : Halt) (a : Act) : VaultProg (Option KillSwitchState) := do
  let prior ← perform (getState h)
  let updated ← perform (updateInactive h)
  syncStateFile
  journalRelease h a prior updated
  verifyReleased hashRationale h a prior

/-- A call on the registry. -/
inductive RegistryOp
  | engage (h : Halt) (a : Act)
  | release (h : Halt) (a : Act)
  | snapshot

inductive RegistryReply
  | state (st : Option KillSwitchState)
  | snapshot (snap : OverrideSnapshot)

def RegistryOp.prog : RegistryOp → VaultProg RegistryReply
  | .engage h a => (fun st => .state (some st)) <$> KillSwitch.engage hashRationale h a
  | .release h a => .state <$> KillSwitch.release hashRationale h a
  | .snapshot => .snapshot <$> KillSwitch.snapshot

end Code

/-- A program run alone. -/
def alone {α : Type} (p : VaultProg α) (v : Vault) : α × Vault :=
  ((exec answer [] p v).1, (exec answer [] p v).2.1)

def isPortfolioHalted (v : Vault) : Bool := (alone snapshot v).1.portfolioHalt

def isStrategyHalted (v : Vault) (strategyId : String) : Bool :=
  (alone snapshot v).1.strategyHalted strategyId

/-! ## What the methods leave -/

section Effects
variable {hashRationale : String → String} {v : Vault} {h : Halt} {a : Act}

theorem active_set (v : Vault) (h h' : Halt) (row : OverrideRow) (file : StateFile)
    (journal : List JournalEntry) :
    Vault.active ⟨v.rows.set h row, file, journal⟩ h' =
      if h' = h then row.active else v.active h' := by
  unfold Vault.active
  rw [Dict.get?_set]
  split <;> rfl

theorem isActive_get? (v : Vault) (h : Halt) : isActive (v.rows.get? h) = v.active h := rfl

/-- The file lists what the table has active. -/
def Mirrored (v : Vault) : Prop := v.stateFile = .states (activeStates v)

variable (hashRationale) in
theorem alone_engage (v : Vault) (h : Halt) (a : Act) :
    Mirrored (alone ((RegistryOp.engage h a).prog hashRationale) v).2 ∧
      ∀ h', (alone ((RegistryOp.engage h a).prog hashRationale) v).2.active h' =
        if h' = h then true else v.active h' :=
  ⟨rfl, fun h' => active_set v h h' _ _ _⟩

theorem active_updateInactive (v : Vault) (h h' : Halt) :
    (answer () (.updateInactive h) v).2.active h' = if h' = h then false else v.active h' := by
  rw [answer]
  split
  · exact active_set v h h' _ _ _
  · rename_i hnone
    split
    · rename_i heq
      rw [heq, Vault.active, hnone]
      rfl
    · rfl

theorem exec_journalRelease (prior : Option OverrideRow) (updated : Nat) (is : List Unit) :
    ∃ journal, (exec answer is (journalRelease h a prior updated) v).2.1 = { v with journal } := by
  unfold journalRelease
  split
  · exact ⟨v.journal, rfl⟩
  · exact ⟨v.journal ++ [_], rfl⟩

theorem exec_verifyReleased (prior : Option OverrideRow) (is : List Unit) (v : Vault) :
    (exec answer is (verifyReleased hashRationale h a prior) v).2.1 = v := by
  unfold verifyReleased
  rw [perform_bind, exec_call]
  split <;> rfl

variable (hashRationale) in
theorem alone_release (v : Vault) (h : Halt) (a : Act) :
    Mirrored (alone ((RegistryOp.release h a).prog hashRationale) v).2 ∧
      ∀ h', (alone ((RegistryOp.release h a).prog hashRationale) v).2.active h' =
        if h' = h then false else v.active h' := by
  have hupdate := active_updateInactive v h
  generalize hmid : (answer () (.updateInactive h) v).2 = mid at hupdate
  have hleft : ∃ journal, (alone ((RegistryOp.release h a).prog hashRationale) v).2 =
      { mid with stateFile := .states (activeStates mid), journal } := by
    obtain ⟨journal, hjournal⟩ := exec_journalRelease (h := h) (a := a)
      (v := { mid with stateFile := .states (activeStates mid) }) (v.rows.get? h)
      (answer () (.updateInactive h) v).1 []
    refine ⟨journal, ?_⟩
    rw [← hjournal, alone, RegistryOp.prog, exec_map, ← hmid]
    show (exec answer [] (journalRelease h a _ _ >>= fun _ => verifyReleased hashRationale h a _)
      _).2.1 = _
    rw [exec_bind, exec_verifyReleased]
    rfl
  obtain ⟨journal, hleft⟩ := hleft
  rw [hleft]
  exact ⟨rfl, hupdate⟩

/-! ## Hydration -/

def hydrateOne (v : Vault) (item : KillSwitchState) : Vault :=
  if item.active = true ∧ v.active item.halt = false then
    { v with rows := v.rows.set item.halt (hydratedRow v item.halt item) }
  else v

theorem exec_hydrateItems (items : List KillSwitchState) (is : List Unit) (v : Vault) :
    (exec answer is (hydrateItems items) v).2.1 = items.foldl hydrateOne v := by
  induction items generalizing is v with
  | nil => rfl
  | cons item items ih =>
    rw [List.foldl_cons, hydrateOne]
    unfold hydrateItems
    cases hitem : item.active with
    | false =>
      rw [if_neg (by simp), if_neg (by simp)]
      exact ih is v
    | true =>
      rw [if_pos rfl, perform_bind, exec_call]
      show (exec answer is.tail (if v.active item.halt = true then _ else _) v).2.1 = _
      cases hactive : v.active item.halt with
      | true =>
        rw [if_pos rfl, if_neg (by simp)]
        exact ih is.tail v
      | false =>
        rw [if_neg (by simp), if_pos ⟨rfl, rfl⟩]
        exact ih is.tail.tail _

/-- Hydration adds what the items list as active, and nothing else. -/
theorem active_hydrate (items : List KillSwitchState) (v : Vault) (h : Halt) :
    (items.foldl hydrateOne v).active h = true ↔
      v.active h = true ∨ ∃ item ∈ items, item.active = true ∧ item.halt = h := by
  induction items generalizing v with
  | nil => simp
  | cons item items ih =>
    have hone : (hydrateOne v item).active h = true ↔
        v.active h = true ∨ item.active = true ∧ item.halt = h := by
      unfold hydrateOne
      split
      · rename_i hinsert
        rw [active_set]
        by_cases hhalt : h = item.halt
        · simp [hhalt, hinsert.1, hydratedRow]
        · simp [hhalt, Ne.symm hhalt]
      · rename_i hskip
        constructor
        · exact .inl
        · intro h
          rcases h with hactive | ⟨hactive, rfl⟩
          · exact hactive
          · by_contra hoff
            exact hskip ⟨hactive, by simpa using hoff⟩
    rw [List.foldl_cons, ih, hone]
    simp only [List.mem_cons, exists_eq_or_imp, or_assoc]

theorem hydrate_eq_self {items : List KillSwitchState} {v : Vault}
    (h : ∀ item ∈ items, item.active = true → v.active item.halt = true) :
    items.foldl hydrateOne v = v := by
  induction items with
  | nil => rfl
  | cons item items ih =>
    have hhead : hydrateOne v item = v := by
      refine if_neg fun hinsert => ?_
      have hon := h item List.mem_cons_self hinsert.1
      rw [hinsert.2] at hon
      cases hon
    rw [List.foldl_cons, hhead]
    exact ih fun item hitem => h item (List.mem_cons_of_mem _ hitem)

/-- What a snapshot hydrates from. -/
def Vault.listed (v : Vault) : List KillSwitchState :=
  match v.stateFile with
  | .states states => states
  | _ => []

theorem exec_hydrateFromStateFile (v : Vault) :
    (exec answer [] hydrateFromStateFile v).2.1 = v.listed.foldl hydrateOne v := by
  obtain ⟨rows, file, journal⟩ := v
  cases file with
  | missing => rfl
  | unreadable => rfl
  | states states => exact exec_hydrateItems states [] _

theorem alone_snapshot (v : Vault) :
    alone snapshot v = (.ofStates (activeStates (v.listed.foldl hydrateOne v)),
      v.listed.foldl hydrateOne v) := by
  have hbind := exec_bind answer (fun _ => readDbSnapshot) hydrateFromStateFile [] v
  rw [alone, snapshot, hbind, exec_hydrateFromStateFile]
  rfl

theorem mem_activeStates {v : Vault} {st : KillSwitchState} :
    st ∈ activeStates v ↔
      ∃ h row, v.rows.get? h = some row ∧ row.active = true ∧ st = row.toState h := by
  unfold activeStates
  rw [List.mem_map]
  constructor
  · intro h
    obtain ⟨⟨h, row⟩, hmem, rfl⟩ := h
    obtain ⟨hitem, hactive⟩ := List.mem_filter.mp hmem
    exact ⟨h, row, (Dict.get?_eq_some _).mpr hitem, hactive, rfl⟩
  · intro h
    obtain ⟨h, row, hget, hactive, rfl⟩ := h
    exact ⟨(h, row), List.mem_filter.mpr ⟨(Dict.get?_eq_some _).mp hget, hactive⟩, rfl⟩

theorem active_iff {v : Vault} {h : Halt} :
    v.active h = true ↔ ∃ row, v.rows.get? h = some row ∧ row.active = true := by
  unfold Vault.active
  cases v.rows.get? h with
  | none => simp
  | some row => simp

end Effects

/-! ## Runs of calls -/

/-- The vault, and the halts that are engaged and not released since. -/
structure World where
  vault : Vault := {}
  engaged : Halt → Bool := fun _ => false

def step (hashRationale : String → String) (w : World) (op : RegistryOp) : World where
  vault := (alone (op.prog hashRationale) w.vault).2
  engaged :=
    match op with
    | .engage h _ => Function.update w.engaged h true
    | .release h _ => Function.update w.engaged h false
    | .snapshot => w.engaged

/-- The queries answer by what is engaged, and a snapshot changes no halt. -/
structure Answers (w : World) : Prop where
  portfolio : isPortfolioHalted w.vault = true ↔ ∃ scope, w.engaged (.portfolioHalt, scope) = true
  strategy : ∀ s, isStrategyHalted w.vault s = true ↔
    (∃ scope, w.engaged (.portfolioHalt, scope) = true) ∨ w.engaged (.strategyHalt, s) = true ∨
      w.engaged (.strategyHalt, "GLOBAL") = true
  snapshot : ∀ h, (alone snapshot w.vault).2.active h = w.vault.active h

/-- No halt is engaged under an empty scope without the `GLOBAL` one of its
level, and a strategy halt is engaged `GLOBAL` only beside a portfolio halt. -/
structure Expressible (engaged : Halt → Bool) : Prop where
  scopes : ∀ level, engaged (level, "") = true → engaged (level, "GLOBAL") = true
  strategy : engaged (.strategyHalt, "GLOBAL") = true →
    ∃ scope, engaged (.portfolioHalt, scope) = true

/-- The table is what is engaged, and the file is its mirror once it exists. -/
structure Synced (w : World) : Prop where
  table : ∀ h, w.vault.active h = w.engaged h
  file : Mirrored w.vault ∨ w.vault.stateFile = .missing ∧ ∀ h, w.vault.active h = false

section Runs
variable {hashRationale : String → String} {w : World}

/-- What the file lists is what is active, under scopes as they are read. -/
theorem Synced.listed (hw : Synced w) (h : Halt) :
    (∃ item ∈ w.vault.listed, item.active = true ∧ item.halt = h) ↔
      ∃ scope, w.engaged (h.1, scope) = true ∧ scopeOr scope = h.2 := by
  have hscope : ∀ scope, scopeOr (scopeOr scope) = scopeOr scope := by
    intro scope
    unfold scopeOr
    split <;> simp_all
  rcases hw.file with hmirror | ⟨hmissing, hnone⟩
  · have hlisted : w.vault.listed = activeStates w.vault := by
      rw [Vault.listed, hmirror]
    rw [hlisted]
    constructor
    · intro h
      obtain ⟨item, hitem, -, rfl⟩ := h
      obtain ⟨⟨level, scope⟩, row, hget, hactive, rfl⟩ := mem_activeStates.mp hitem
      exact ⟨scope, hw.table _ ▸ active_iff.mpr ⟨row, hget, hactive⟩, (hscope scope).symm⟩
    · intro h
      obtain ⟨scope, hengaged, hscoped⟩ := h
      rw [← hw.table] at hengaged
      obtain ⟨row, hget, hactive⟩ := active_iff.mp hengaged
      refine ⟨row.toState (h.1, scope), mem_activeStates.mpr ⟨_, row, hget, hactive, rfl⟩, rfl, ?_⟩
      exact Prod.ext rfl ((hscope scope).trans hscoped)
  · have hlisted : w.vault.listed = [] := by
      rw [Vault.listed, hmissing]
    rw [hlisted]
    refine iff_of_false (by simp) ?_
    intro h
    obtain ⟨scope, hengaged, -⟩ := h
    rw [← hw.table, hnone] at hengaged
    cases hengaged

/-- A snapshot changes no halt exactly when no empty scope stands alone. -/
theorem Synced.snapshot_iff (hw : Synced w) :
    (∀ h, (alone snapshot w.vault).2.active h = w.vault.active h) ↔
      ∀ level, w.engaged (level, "") = true → w.engaged (level, "GLOBAL") = true := by
  rw [alone_snapshot]
  constructor
  · intro hsame level hempty
    have hin : (w.vault.listed.foldl hydrateOne w.vault).active (level, "GLOBAL") = true :=
      (active_hydrate _ _ _).mpr (.inr ((hw.listed _).mpr ⟨"", hempty, rfl⟩))
    rw [← hw.table, ← hsame]
    exact hin
  · intro hscoped h
    have hsub : (∃ item ∈ w.vault.listed, item.active = true ∧ item.halt = h) →
        w.vault.active h = true := by
      intro hlisted
      obtain ⟨scope, hengaged, hscope⟩ := (hw.listed h).mp hlisted
      rw [hw.table]
      unfold scopeOr at hscope
      split at hscope
      · rename_i hempty
        subst hempty
        rw [show h = (h.1, "GLOBAL") from Prod.ext rfl hscope.symm]
        exact hscoped h.1 hengaged
      · rw [show h = (h.1, scope) from Prod.ext rfl hscope.symm]
        exact hengaged
    rw [Bool.eq_iff_iff, active_hydrate]
    exact ⟨fun hor => hor.elim id hsub, .inl⟩

/-- With the scopes in order a snapshot leaves the vault as it is. -/
theorem Synced.snapshot_eq (hw : Synced w)
    (h : ∀ level, w.engaged (level, "") = true → w.engaged (level, "GLOBAL") = true) :
    alone snapshot w.vault = (.ofStates (activeStates w.vault), w.vault) := by
  have hsame := hw.snapshot_iff.mpr h
  rw [alone_snapshot] at hsame ⊢
  have hself : w.vault.listed.foldl hydrateOne w.vault = w.vault := by
    refine hydrate_eq_self fun item hitem hactive => ?_
    rw [← hsame]
    exact (active_hydrate _ _ _).mpr (.inr ⟨item, hitem, hactive, rfl⟩)
  rw [hself]

theorem portfolioHalt_iff (hw : Synced w) :
    (OverrideSnapshot.ofStates (activeStates w.vault)).portfolioHalt = true ↔
      ∃ scope, w.engaged (.portfolioHalt, scope) = true := by
  rw [OverrideSnapshot.ofStates, List.any_eq_true]
  constructor
  · intro h
    obtain ⟨st, hst, hlevel⟩ := h
    obtain ⟨⟨level, scope⟩, row, hget, hactive, rfl⟩ := mem_activeStates.mp hst
    obtain rfl : level = .portfolioHalt := of_decide_eq_true hlevel
    exact ⟨scope, hw.table _ ▸ active_iff.mpr ⟨row, hget, hactive⟩⟩
  · intro h
    obtain ⟨scope, hengaged⟩ := h
    rw [← hw.table] at hengaged
    obtain ⟨row, hget, hactive⟩ := active_iff.mp hengaged
    exact ⟨_, mem_activeStates.mpr ⟨_, row, hget, hactive, rfl⟩, decide_eq_true rfl⟩

/-- The set of halted strategies never has `GLOBAL`. -/
theorem mem_strategyHalts (hw : Synced w) (s : String) :
    s ∈ (OverrideSnapshot.ofStates (activeStates w.vault)).strategyHalts ↔
      s ≠ "GLOBAL" ∧ s ≠ "" ∧ w.engaged (.strategyHalt, s) = true := by
  rw [OverrideSnapshot.ofStates, List.mem_map]
  constructor
  · intro h
    obtain ⟨st, hst, rfl⟩ := h
    obtain ⟨hst, hnamed⟩ := List.mem_filter.mp hst
    obtain ⟨⟨level, scope⟩, row, hget, hactive, rfl⟩ := mem_activeStates.mp hst
    obtain ⟨rfl, hglobal⟩ : level = .strategyHalt ∧ scopeOr scope ≠ "GLOBAL" :=
      of_decide_eq_true hnamed
    have hempty : scope ≠ "" := by
      rintro rfl
      exact hglobal rfl
    have hscope : scopeOr scope = scope := if_neg hempty
    show scopeOr scope ≠ "GLOBAL" ∧ scopeOr scope ≠ "" ∧ w.engaged (_, scopeOr scope) = true
    rw [hscope] at hglobal ⊢
    exact ⟨hglobal, hempty, hw.table _ ▸ active_iff.mpr ⟨row, hget, hactive⟩⟩
  · intro h
    obtain ⟨hglobal, hempty, hengaged⟩ := h
    rw [← hw.table] at hengaged
    obtain ⟨row, hget, hactive⟩ := active_iff.mp hengaged
    have hscope : scopeOr s = s := if_neg hempty
    refine ⟨_, List.mem_filter.mpr ⟨mem_activeStates.mpr ⟨_, row, hget, hactive, rfl⟩, ?_⟩, hscope⟩
    exact decide_eq_true ⟨rfl, fun heq => hglobal (hscope.symm.trans heq)⟩

/-- **One state**: its queries are right, and its snapshot changes nothing,
exactly when what is engaged can be expressed. -/
theorem answers_iff (hw : Synced w) : Answers w ↔ Expressible w.engaged := by
  constructor
  · intro h
    have hscopes := hw.snapshot_iff.mp h.snapshot
    refine ⟨hscopes, fun hglobal => ?_⟩
    have hhalted := (h.strategy "GLOBAL").mpr (.inr (.inl hglobal))
    rw [isStrategyHalted, hw.snapshot_eq hscopes, OverrideSnapshot.strategyHalted, Bool.or_self,
      Bool.or_eq_true, decide_eq_true_eq, mem_strategyHalts hw] at hhalted
    rcases hhalted with hportfolio | hstrategy
    · exact (portfolioHalt_iff hw).mp hportfolio
    · exact absurd rfl hstrategy.1
  · intro h
    have hsnap := hw.snapshot_eq h.scopes
    refine ⟨?_, fun s => ?_, hw.snapshot_iff.mpr h.scopes⟩
    · rw [isPortfolioHalted, hsnap]
      exact portfolioHalt_iff hw
    · rw [isStrategyHalted, hsnap, OverrideSnapshot.strategyHalted, Bool.or_eq_true,
        Bool.or_eq_true, decide_eq_true_eq, decide_eq_true_eq, mem_strategyHalts hw,
        mem_strategyHalts hw, portfolioHalt_iff hw]
      constructor
      · intro h
        rcases h with hportfolio | hself | hglobal
        · exact .inl hportfolio
        · exact .inr (.inl hself.2.2)
        · exact absurd rfl hglobal.1
      · intro h
        rcases h with hportfolio | hself | hglobal
        · exact .inl hportfolio
        · by_cases hnamed : s ≠ "GLOBAL" ∧ s ≠ ""
          · exact .inr (.inl ⟨hnamed.1, hnamed.2, hself⟩)
          · left
            refine h.strategy ?_
            by_cases hempty : s = ""
            · exact h.scopes _ (hempty ▸ hself)
            · by_cases heq : s = "GLOBAL"
              · exact heq ▸ hself
              · exact absurd ⟨heq, hempty⟩ hnamed
        · exact .inl (h.strategy hglobal)

theorem synced_step (hw : Synced w) (hscopes : ∀ level, w.engaged (level, "") = true →
    w.engaged (level, "GLOBAL") = true) (op : RegistryOp) : Synced (step hashRationale w op) := by
  cases op with
  | engage h a =>
    obtain ⟨hmirror, hactive⟩ := alone_engage hashRationale w.vault h a
    refine ⟨fun h' => ?_, .inl hmirror⟩
    show _ = Function.update w.engaged h true h'
    rw [step, hactive, Function.update_apply, hw.table]
  | release h a =>
    obtain ⟨hmirror, hactive⟩ := alone_release hashRationale w.vault h a
    refine ⟨fun h' => ?_, .inl hmirror⟩
    show _ = Function.update w.engaged h false h'
    rw [step, hactive, Function.update_apply, hw.table]
  | snapshot =>
    have hvault : (step hashRationale w .snapshot).vault = w.vault := by
      show (alone (RegistryReply.snapshot <$> snapshot) w.vault).2 = w.vault
      rw [alone, exec_map]
      exact congrArg Prod.snd (hw.snapshot_eq hscopes)
    refine ⟨fun h => ?_, ?_⟩
    · rw [hvault]
      exact hw.table h
    · rw [hvault]
      exact hw.file

end Runs

/-- **The registry answers by its history**, after every call of a run, exactly
when after every call what is engaged can be expressed. -/
theorem registry_answers_iff (hashRationale : String → String) (ops : List RegistryOp) :
    Along (step hashRationale) (fun w op => Answers (step hashRationale w op)) {} ops ↔
      Along (step hashRationale) (fun w op => Expressible (step hashRationale w op).engaged) {}
        ops := by
  have hinit : Synced {} := ⟨fun _ => rfl, .inr ⟨rfl, fun _ => rfl⟩⟩
  refine along_next_iff_of (G := fun _ _ => True)
    (I := fun w => Synced w ∧ ∀ level, w.engaged (level, "") = true →
      w.engaged (level, "GLOBAL") = true) (Q := Answers)
    (fun w op hw _ hnext => ⟨synced_step hw.1 hw.2 op, hnext.scopes⟩)
    (fun w op hw _ _ => answers_iff (synced_step hw.1 hw.2 op)) ops ⟨hinit, nofun⟩
    ((answers_iff hinit).mpr ⟨nofun, nofun⟩) (along_true _ _)

/-- A strategy halt engaged for every strategy halts none. -/
theorem global_strategy_halt_ignored :
    ¬ Along (step id) (fun w op => Answers (step id w op)) {}
      [.engage (.strategyHalt, "GLOBAL") ⟨"risk", "drawdown", "{}", "09:30"⟩] := by
  intro h
  obtain ⟨hanswers, -⟩ := h
  have hhalted := (hanswers.strategy "momentum_spy").mpr (.inr (.inr rfl))
  revert hhalted
  decide +kernel

end TradingPlatform.Engine.KillSwitch
