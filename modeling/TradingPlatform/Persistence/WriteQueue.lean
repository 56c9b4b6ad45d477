import TradingPlatform.Lib.Dict
import TradingPlatform.Lib.Runs

/-! # The write-ahead queue

Rows wait in a stage until a flush has carried them to SQLite and, when it is
configured, to Postgres. A flush takes one batch, group by group; whether the
rows of a group leave the stage is known only after Postgres has answered, when
SQLite already holds them. Rows are enqueued at any point of a flush. -/

namespace TradingPlatform.Persistence

open TradingPlatform.Lib TradingPlatform.Lib.Runs

/-- The two kinds whose flush inserts into SQLite and then into Postgres. -/
inductive WriteKind
  | portfolioConstraint
  | counterfactualState
  deriving DecidableEq, Repr

/-- A table of one SQLite file. -/
abbrev Target := WriteKind × String

structure QueuedWrite (P : Type) where
  kind : WriteKind
  payload : P
  dbPath : String
  deriving DecidableEq

def QueuedWrite.target {P : Type} (item : QueuedWrite P) : Target := (item.kind, item.dbPath)

structure StagedWrite (P : Type) where
  stageId : Nat
  item : QueuedWrite P
  deriving DecidableEq

def StagedWrite.target {P : Type} (staged : StagedWrite P) : Target := staged.item.target

/-- Where the one flush that may hold the lock stands. -/
inductive Flush (P : Type)
  | idle
  | fetching (force : Bool)
  | persisting (force : Bool) (groups : List (Target × List (StagedWrite P))) (committed : List Nat)
  | deleting (force : Bool) (committed : List Nat)

namespace Flush
variable {P : Type}

def committed : Flush P → List Nat
  | .persisting _ _ committed | .deleting _ committed => committed
  | _ => []

def groups : Flush P → List (Target × List (StagedWrite P))
  | .persisting _ groups _ => groups
  | _ => []

end Flush

/-- The stage is in the order of its ids; `enqueued` records every row it was given. -/
structure AsyncDBWriter (P : Type) where
  stage : List (StagedWrite P) := []
  nextId : Nat := 1
  tables : Dict Target (List P)
  flush : Flush P := .idle
  enqueued : List (QueuedWrite P) := []

/-- What the outside answers in one step of a flush: the limiter, and the two
databases. A SQLite write that raises is rolled back. -/
structure Answers where
  granted : Bool := true
  sqliteRaises : Bool := false
  postgresRaises : Bool := false
  deriving DecidableEq

inductive Move (P : Type)
  | enqueue (item : QueuedWrite P)
  | flush (force : Bool)
  | step (answers : Answers)

section Writer
variable {P : Type} (postgresConfigured : Bool) (maxBatchSize : Nat)

namespace AsyncDBWriter

def rows (w : AsyncDBWriter P) (target : Target) : List P := (w.tables.get? target).getD []

def enqueue (w : AsyncDBWriter P) (item : QueuedWrite P) : AsyncDBWriter P :=
  { w with
    stage := w.stage ++ [⟨w.nextId, item⟩]
    nextId := w.nextId + 1
    enqueued := w.enqueued ++ [item] }

def fetchStagedBatch (w : AsyncDBWriter P) : List (StagedWrite P) := w.stage.take (max maxBatchSize 1)

/-- `_flush_portfolio_constraint_batch` and `_flush_counterfactual_batch`, which
differ in their tables' columns only: the SQLite insert, and whether the group
counts as committed. -/
def persistGroup (w : AsyncDBWriter P) (target : Target) (items : List (StagedWrite P))
    (a : Answers) : Bool × Dict Target (List P) :=
  (!(postgresConfigured && a.postgresRaises),
    w.tables.set target (w.rows target ++ items.map (·.item.payload)))

/-- The next step of the flush that holds the lock. -/
def advance (w : AsyncDBWriter P) (a : Answers) : AsyncDBWriter P :=
  match w.flush with
  | .idle => w
  | .fetching force =>
    if !(force || a.granted) then { w with flush := .idle }
    else
      match w.fetchStagedBatch maxBatchSize with
      | [] => { w with flush := .idle }
      | batch => { w with flush := .persisting force (Dict.groupBy StagedWrite.target batch).items [] }
  | .persisting force [] committed =>
    if committed = [] then { w with flush := .idle }
    else { w with flush := .deleting force committed }
  | .persisting force ((target, items) :: groups) committed =>
    if a.sqliteRaises then { w with flush := .persisting force groups committed }
    else
      let (ok, tables) := w.persistGroup postgresConfigured target items a
      let committed := if ok then committed ++ items.map (·.stageId) else committed
      { w with tables, flush := .persisting force groups committed }
  | .deleting force committed =>
    { w with
      stage := w.stage.filter (·.stageId ∉ committed)
      flush := if force then .fetching force else .idle }

/-- A flush waits while another holds the lock. -/
def step (w : AsyncDBWriter P) : Move P → AsyncDBWriter P
  | .enqueue item => w.enqueue item
  | .flush force =>
    match w.flush with
    | .idle => { w with flush := .fetching force }
    | _ => w
  | .step a => w.advance postgresConfigured maxBatchSize a

end AsyncDBWriter

/-- Every enqueued row is in its table once, in the order of enqueueing. -/
def Landed (base : Dict Target (List P)) (w : AsyncDBWriter P) : Prop :=
  ∀ target, w.rows target =
    (base.get? target).getD [] ++ (w.enqueued.filter (·.target = target)).map (·.payload)

/-- The move flushes a group to SQLite and its Postgres attempt then raises. -/
def postgresFails (w : AsyncDBWriter P) : Move P → Bool
  | .step a => !w.flush.groups.isEmpty && !a.sqliteRaises && postgresConfigured && a.postgresRaises
  | _ => false

/-! ## What one step can do -/

inductive Effect (w : AsyncDBWriter P) (fails : Bool) : AsyncDBWriter P → Prop
  | quiet (flush : Flush P) (hcommitted : flush.committed = w.flush.committed)
      (hgroups : flush.groups <:+ w.flush.groups) (hok : fails = false) :
      Effect w fails { w with flush }
  | enqueued (item : QueuedWrite P) (hok : fails = false) : Effect w fails (w.enqueue item)
  | fetched (force : Bool) (n : Nat) (hcommitted : w.flush.committed = []) (hok : fails = false) :
      Effect w fails
        { w with
          flush := .persisting force (Dict.groupBy StagedWrite.target (w.stage.take n)).items [] }
  | landed (force : Bool) (target : Target) (items : List (StagedWrite P))
      (groups : List (Target × List (StagedWrite P))) (committed : List Nat)
      (hflush : w.flush = .persisting force ((target, items) :: groups) committed)
      (hok : fails = false) :
      Effect w fails
        { w with
          tables := w.tables.set target (w.rows target ++ items.map (·.item.payload))
          flush := .persisting force groups (committed ++ items.map (·.stageId)) }
  | repeated (force : Bool) (target : Target) (items : List (StagedWrite P))
      (groups : List (Target × List (StagedWrite P))) (committed : List Nat)
      (hflush : w.flush = .persisting force ((target, items) :: groups) committed)
      (hfails : fails = true) :
      Effect w fails
        { w with
          tables := w.tables.set target (w.rows target ++ items.map (·.item.payload))
          flush := .persisting force groups committed }
  | deleted (flush : Flush P) (hcommitted : flush.committed = []) (hgroups : flush.groups = [])
      (hok : fails = false) :
      Effect w fails { w with stage := w.stage.filter (·.stageId ∉ w.flush.committed), flush }

theorem effect_advance (w : AsyncDBWriter P) (a : Answers) :
    Effect w (postgresFails postgresConfigured w (.step a))
      (w.advance postgresConfigured maxBatchSize a) := by
  obtain ⟨stage, nextId, tables, flush, enqueued⟩ := w
  unfold AsyncDBWriter.advance postgresFails
  cases flush with
  | idle => exact .quiet .idle rfl (List.suffix_refl _) rfl
  | fetching force =>
    dsimp only
    split
    · exact .quiet .idle rfl (List.suffix_refl _) rfl
    split
    · exact .quiet .idle rfl (List.suffix_refl _) rfl
    · exact .fetched force (max maxBatchSize 1) rfl rfl
  | persisting force groups committed =>
    cases groups with
    | nil =>
      dsimp only
      split
      · rename_i hnil
        exact .quiet .idle hnil.symm (List.suffix_refl _) rfl
      · exact .quiet (.deleting force committed) rfl (List.suffix_refl _) rfl
    | cons g groups =>
      obtain ⟨target, items⟩ := g
      dsimp only
      split
      · rename_i hsqlite
        refine .quiet (.persisting force groups committed) rfl (List.suffix_cons _ _) ?_
        rw [hsqlite]
        rfl
      · rename_i hsqlite
        have hsqlite : a.sqliteRaises = false := by simpa using hsqlite
        unfold AsyncDBWriter.persistGroup
        dsimp only
        cases hpg : postgresConfigured && a.postgresRaises with
        | false =>
          refine .landed force target items groups committed rfl ?_
          rw [hsqlite, Bool.and_assoc, hpg]
          rfl
        | true =>
          refine .repeated force target items groups committed rfl ?_
          rw [hsqlite, Bool.and_assoc, hpg]
          rfl
  | deleting force committed =>
    cases force with
    | false => exact .deleted .idle rfl rfl rfl
    | true => exact .deleted (.fetching true) rfl rfl rfl

theorem effect_step (w : AsyncDBWriter P) (mv : Move P) :
    Effect w (postgresFails postgresConfigured w mv)
      (w.step postgresConfigured maxBatchSize mv) := by
  cases mv with
  | enqueue item => exact .enqueued item rfl
  | flush force =>
    rw [AsyncDBWriter.step]
    split
    · rename_i hidle
      refine .quiet (.fetching force) ?_ ?_ rfl
      · rw [hidle]
        rfl
      · rw [hidle]
        exact List.suffix_refl _
    · exact .quiet w.flush rfl (List.suffix_refl _) rfl
  | step a => exact effect_advance postgresConfigured maxBatchSize w a

/-! ## The stage and the flush -/

structure Sound (w : AsyncDBWriter P) : Prop where
  ids : (w.stage.map (·.stageId)).Nodup
  below : ∀ r ∈ w.stage, r.stageId < w.nextId
  committed : ∀ id ∈ w.flush.committed, id < w.nextId
  keys : (w.flush.groups.map (·.1)).Nodup
  groups : ∀ g ∈ w.flush.groups, g.2 ≠ [] ∧
    ∃ later, w.stage.filter (·.target = g.1) = g.2 ++ later
  fresh : ∀ g ∈ w.flush.groups, ∀ r ∈ w.stage, r.target = g.1 → r.stageId ∉ w.flush.committed

theorem Sound.mem_items {w : AsyncDBWriter P} (h : Sound w)
    {g : Target × List (StagedWrite P)} (hg : g ∈ w.flush.groups) {r : StagedWrite P}
    (hr : r ∈ g.2) : r ∈ w.stage ∧ r.target = g.1 := by
  obtain ⟨-, later, hlater⟩ := h.groups g hg
  have hmem : r ∈ w.stage.filter (·.target = g.1) := hlater ▸ List.mem_append_left _ hr
  simpa using List.mem_filter.mp hmem

/-- The id of a staged row of another table is not among a group's. -/
theorem Sound.notMem_ids {w : AsyncDBWriter P} (h : Sound w)
    {g : Target × List (StagedWrite P)} (hg : g ∈ w.flush.groups) {r : StagedWrite P}
    (hr : r ∈ w.stage) (hne : r.target ≠ g.1) : r.stageId ∉ g.2.map (·.stageId) := by
  intro hin
  obtain ⟨i, hi, hid⟩ := List.mem_map.mp hin
  obtain ⟨histage, hitarget⟩ := h.mem_items hg hi
  have heq := List.inj_on_of_nodup_map h.ids histage hr hid
  exact hne (heq ▸ hitarget)

/-- What is left of a flush that is at its next group. -/
theorem of_persisting {w : AsyncDBWriter P} {force : Bool}
    {gs : List (Target × List (StagedWrite P))} {committed : List Nat}
    (hflush : w.flush = .persisting force gs committed) :
    w.flush.groups = gs ∧ w.flush.committed = committed := by
  rw [hflush]
  exact ⟨rfl, rfl⟩

/-- The groups after the next one are groups too, each of another table than its own. -/
theorem Sound.later_groups {w : AsyncDBWriter P} (h : Sound w)
    {g : Target × List (StagedWrite P)} {groups : List (Target × List (StagedWrite P))}
    (hgroups : w.flush.groups = g :: groups) :
    (∀ later ∈ groups, later ∈ w.flush.groups ∧ later.1 ≠ g.1) ∧ (groups.map (·.1)).Nodup := by
  have hkeys := h.keys
  rw [hgroups, List.map_cons] at hkeys
  obtain ⟨hnotin, hkeys⟩ := List.nodup_cons.mp hkeys
  refine ⟨fun later hlater => ⟨hgroups ▸ List.mem_cons_of_mem _ hlater, fun heq => ?_⟩, hkeys⟩
  exact hnotin (List.mem_map.mpr ⟨later, hlater, heq⟩)

theorem Sound.nextId_notMem {w : AsyncDBWriter P} (h : Sound w) : w.nextId ∉ w.flush.committed :=
  fun hin => Nat.lt_irrefl _ (h.committed _ hin)

theorem Sound.enqueue {w : AsyncDBWriter P} (h : Sound w) (item : QueuedWrite P) :
    Sound (w.enqueue item) := by
  refine ⟨?_, fun r hr => ?_, fun id hid => ?_, h.keys, fun g hg => ?_, fun g hg r hr hr' => ?_⟩
  · show ((w.stage ++ [_]).map _).Nodup
    rw [List.map_append, List.map_singleton]
    refine h.ids.append (List.nodup_singleton _) (List.disjoint_singleton.mpr ?_)
    intro hin
    obtain ⟨r, hr, hid⟩ := List.mem_map.mp hin
    exact Nat.ne_of_lt (h.below r hr) hid
  · rcases List.mem_append.mp hr with hold | hnew
    · exact Nat.lt_succ_of_lt (h.below r hold)
    · rw [List.mem_singleton.mp hnew]
      exact Nat.lt_succ_self _
  · exact Nat.lt_succ_of_lt (h.committed id hid)
  · obtain ⟨hne, later, hlater⟩ := h.groups g hg
    refine ⟨hne, later ++ [(⟨w.nextId, item⟩ : StagedWrite P)].filter (·.target = g.1), ?_⟩
    show (w.stage ++ [_]).filter _ = _
    rw [List.filter_append, hlater, List.append_assoc]
  · rcases List.mem_append.mp hr with hold | hlast
    · exact h.fresh g hg r hold hr'
    · rw [List.mem_singleton.mp hlast]
      exact h.nextId_notMem

theorem sound_effect {w w' : AsyncDBWriter P} {fails : Bool} (h : Sound w)
    (he : Effect w fails w') : Sound w' := by
  cases he with
  | quiet flush hcommitted hgroups hok =>
    refine ⟨h.ids, h.below, ?_, h.keys.sublist (hgroups.sublist.map _), fun g hg => ?_,
      fun g hg => ?_⟩
    · rw [hcommitted]
      exact h.committed
    · exact h.groups g (hgroups.subset hg)
    · rw [hcommitted]
      exact h.fresh g (hgroups.subset hg)
  | enqueued item hok => exact h.enqueue item
  | fetched force n hcommitted hok =>
    refine ⟨h.ids, h.below, nofun, (Dict.groupBy _ _).nodup, fun g hg => ?_, fun _ _ _ _ _ => nofun⟩
    obtain ⟨hitems, hne⟩ := Dict.mem_groupBy _ hg
    refine ⟨hne, (w.stage.drop n).filter (·.target = g.1), ?_⟩
    rw [hitems, ← List.filter_append, List.take_append_drop]
  | landed force target items groups committed hflush hok =>
    obtain ⟨hgroups, hcommitted⟩ := of_persisting hflush
    obtain ⟨hlater, hkeys⟩ := h.later_groups hgroups
    have hhead : (target, items) ∈ w.flush.groups := hgroups ▸ List.mem_cons_self
    refine ⟨h.ids, h.below, fun id hid => ?_, hkeys, fun g hg => h.groups g (hlater g hg).1,
      fun g hg r hr hr' hin => ?_⟩
    · rcases List.mem_append.mp hid with hold | hnew
      · exact h.committed id (hcommitted ▸ hold)
      · obtain ⟨r, hr, rfl⟩ := List.mem_map.mp hnew
        exact h.below r (h.mem_items hhead hr).1
    · rcases List.mem_append.mp hin with hold | hnew
      · exact h.fresh g (hlater g hg).1 r hr hr' (hcommitted ▸ hold)
      · exact h.notMem_ids hhead hr (hr' ▸ (hlater g hg).2) hnew
  | repeated force target items groups committed hflush hfails =>
    obtain ⟨hgroups, hcommitted⟩ := of_persisting hflush
    obtain ⟨hlater, hkeys⟩ := h.later_groups hgroups
    refine ⟨h.ids, h.below, ?_, hkeys, fun g hg => h.groups g (hlater g hg).1, fun g hg => ?_⟩
    · exact hcommitted ▸ h.committed
    · exact hcommitted ▸ h.fresh g (hlater g hg).1
  | deleted flush hcommitted hgroups hok =>
    refine ⟨h.ids.sublist (List.filter_sublist.map _), fun r hr => h.below r (List.mem_of_mem_filter hr),
      ?_, ?_, ?_, ?_⟩
    · show ∀ id ∈ flush.committed, _
      rw [hcommitted]
      nofun
    · show (flush.groups.map _).Nodup
      rw [hgroups]
      exact List.nodup_nil
    · show ∀ g ∈ flush.groups, _
      rw [hgroups]
      nofun
    · show ∀ g ∈ flush.groups, _
      rw [hgroups]
      nofun

/-! ## What a table has and still awaits -/

/-- The staged rows of a table that no finished group covers. -/
def openRows (w : AsyncDBWriter P) (target : Target) : List (StagedWrite P) :=
  w.stage.filter fun r => r.target = target ∧ r.stageId ∉ w.flush.committed

def content (w : AsyncDBWriter P) (target : Target) : List P :=
  w.rows target ++ (openRows w target).map (·.item.payload)

/-- What enqueueing should leave in a table. -/
def expected (base : Dict Target (List P)) (w : AsyncDBWriter P) (target : Target) : List P :=
  (base.get? target).getD [] ++ (w.enqueued.filter (·.target = target)).map (·.payload)

theorem rows_set (w : AsyncDBWriter P) (flush : Flush P) (target target' : Target) (rows : List P) :
    AsyncDBWriter.rows { w with tables := w.tables.set target rows, flush } target' =
      if target' = target then rows else w.rows target' := by
  unfold AsyncDBWriter.rows
  rw [Dict.get?_set]
  split <;> rfl

/-- Every row of a group is still open when its turn comes. -/
theorem Sound.openRows_eq {w : AsyncDBWriter P} (h : Sound w)
    {g : Target × List (StagedWrite P)} (hg : g ∈ w.flush.groups) :
    openRows w g.1 = w.stage.filter (·.target = g.1) := by
  refine List.filter_congr fun r hr => ?_
  by_cases htarget : r.target = g.1
  · simp [htarget, h.fresh g hg r hr htarget]
  · simp [htarget]

/-- A group that is committed leaves the open rows of its table, and those of no
other. -/
theorem Sound.openRows_landed {w : AsyncDBWriter P} (h : Sound w) {force : Bool}
    {g : Target × List (StagedWrite P)} {groups : List (Target × List (StagedWrite P))}
    {committed : List Nat} (hflush : w.flush = .persisting force (g :: groups) committed)
    (tables : Dict Target (List P)) (target : Target) :
    openRows w target = (if target = g.1 then g.2 else []) ++
      openRows { w with
        tables, flush := .persisting force groups (committed ++ g.2.map (·.stageId)) } target := by
  obtain ⟨hgroups, hcommitted⟩ := of_persisting hflush
  have hg : g ∈ w.flush.groups := hgroups ▸ List.mem_cons_self
  have hsplit : openRows { w with
        tables, flush := .persisting force groups (committed ++ g.2.map (·.stageId)) } target =
      (openRows w target).filter (·.stageId ∉ g.2.map (·.stageId)) := by
    unfold openRows
    rw [List.filter_filter, hcommitted]
    refine List.filter_congr fun r _ => ?_
    simp only [Flush.committed, List.mem_append, not_or, decide_eq_decide, ← Bool.decide_and]
    tauto
  rw [hsplit]
  by_cases htarget : target = g.1
  · subst htarget
    obtain ⟨-, later, hlater⟩ := h.groups g hg
    have hids : ((g.2 ++ later).map (·.stageId)).Nodup := by
      rw [← hlater]
      exact h.ids.sublist (List.filter_sublist.map _)
    rw [List.map_append] at hids
    rw [h.openRows_eq hg, hlater, List.filter_append, if_pos rfl]
    have hnone : g.2.filter (·.stageId ∉ g.2.map (·.stageId)) = [] := by
      refine List.filter_eq_nil_iff.mpr fun r hr => ?_
      simpa using ⟨r, hr, rfl⟩
    have hall : later.filter (·.stageId ∉ g.2.map (·.stageId)) = later := by
      refine List.filter_eq_self.mpr fun r hr => decide_eq_true fun hin => ?_
      exact (List.disjoint_of_nodup_append hids) hin (List.mem_map_of_mem hr)
    rw [hnone, hall, List.nil_append]
  · rw [if_neg htarget, List.nil_append]
    refine (List.filter_eq_self.mpr fun r hr => decide_eq_true ?_).symm
    obtain ⟨hstage, hopen⟩ := List.mem_filter.mp hr
    have hr' : r.target = target := (of_decide_eq_true hopen).1
    exact h.notMem_ids hg hstage (hr' ▸ htarget)

variable (base : Dict Target (List P)) {w w' : AsyncDBWriter P}

/-- **One step** that no Postgres failure strikes adds to what a table has and
awaits just what enqueueing adds to it. -/
theorem content_effect (h : Sound w) (he : Effect w false w') (target : Target) :
    ∃ new, content w' target = content w target ++ new ∧
      expected base w' target = expected base w target ++ new := by
  cases he with
  | quiet flush hcommitted hgroups hok =>
    refine ⟨[], ?_, (List.append_nil _).symm⟩
    rw [List.append_nil, content, openRows]
    simp only [hcommitted]
    rfl
  | enqueued item hok =>
    have hnew := h.nextId_notMem
    have hopen : openRows (w.enqueue item) target = openRows w target ++
        [(⟨w.nextId, item⟩ : StagedWrite P)].filter (·.target = target) := by
      show (w.stage ++ [_]).filter _ = _
      rw [List.filter_append]
      refine congrArg (openRows w target ++ ·) (List.filter_congr fun r hr => ?_)
      rw [List.mem_singleton.mp hr]
      simp [AsyncDBWriter.enqueue, hnew]
    refine ⟨([(⟨w.nextId, item⟩ : StagedWrite P)].filter (·.target = target)).map (·.item.payload),
      ?_, ?_⟩
    · rw [content, hopen, List.map_append, ← List.append_assoc]
      rfl
    · show _ ++ ((w.enqueued ++ [item]).filter _).map _ = _
      rw [List.filter_append, List.map_append, ← List.append_assoc]
      refine congrArg (expected base w target ++ ·) ?_
      by_cases htarget : item.target = target
      · simp [htarget, StagedWrite.target]
      · simp [htarget, StagedWrite.target]
  | fetched force n hcommitted hok =>
    refine ⟨[], ?_, (List.append_nil _).symm⟩
    rw [List.append_nil, content, openRows, content, openRows, hcommitted]
    rfl
  | landed force target' items groups committed hflush hok =>
    refine ⟨[], ?_, (List.append_nil _).symm⟩
    have hopen := h.openRows_landed hflush
      (w.tables.set target' (w.rows target' ++ items.map (·.item.payload))) target
    rw [List.append_nil, content, content, hopen, rows_set]
    by_cases htarget : target = target'
    · subst htarget
      rw [if_pos rfl, if_pos rfl, List.map_append, List.append_assoc]
    · rw [if_neg htarget, if_neg htarget, List.nil_append]
  | repeated force target' items groups committed hflush hfails => cases hfails
  | deleted flush hcommitted hgroups hok =>
    refine ⟨[], ?_, (List.append_nil _).symm⟩
    have hopen : openRows { w with stage := w.stage.filter (·.stageId ∉ w.flush.committed), flush }
        target = openRows w target := by
      unfold openRows
      rw [List.filter_filter, hcommitted]
      refine List.filter_congr fun r _ => ?_
      simp
    rw [List.append_nil, content, hopen]
    rfl

/-- A step that a Postgres failure strikes puts a group into its table and leaves
it staged. -/
theorem content_repeated (h : Sound w) (he : Effect w true w') :
    (∀ target, expected base w' target = expected base w target) ∧
      (∀ target, (content w target).length ≤ (content w' target).length) ∧
      ∃ target, (content w target).length < (content w' target).length := by
  cases he with
  | repeated force target' items groups committed hflush hfails =>
    obtain ⟨hgroups, hcommitted⟩ := of_persisting hflush
    have hg : (target', items) ∈ w.flush.groups := hgroups ▸ List.mem_cons_self
    have hlen : ∀ target, (content { w with
          tables := w.tables.set target' (w.rows target' ++ items.map (·.item.payload))
          flush := .persisting force groups committed } target).length =
        (content w target).length + if target = target' then items.length else 0 := by
      intro target
      have hopen : openRows { w with
          tables := w.tables.set target' (w.rows target' ++ items.map (·.item.payload))
          flush := .persisting force groups committed } target = openRows w target := by
        unfold openRows
        rw [hcommitted]
        rfl
      rw [content, hopen, rows_set, content]
      by_cases htarget : target = target'
      · subst htarget
        simp only [if_true, List.length_append, List.length_map]
        omega
      · rw [if_neg htarget, if_neg htarget, Nat.add_zero]
    refine ⟨fun _ => rfl, fun target => ?_, target', ?_⟩
    · rw [hlen]
      exact Nat.le_add_right _ _
    · have hpos := List.length_pos_iff.mpr (h.groups _ hg).1
      rw [hlen, if_pos rfl]
      exact Nat.lt_add_of_pos_right hpos
  | quiet _ _ _ hok => cases hok
  | enqueued _ hok => cases hok
  | fetched _ _ _ hok => cases hok
  | landed _ _ _ _ _ _ hok => cases hok
  | deleted _ _ _ hok => cases hok

/-! ## Runs -/

/-- Some table has or awaits more than it should, and none less. -/
def Overfull (w : AsyncDBWriter P) : Prop :=
  (∀ target, (expected base w target).length ≤ (content w target).length) ∧
    ∃ target, (expected base w target).length < (content w target).length

theorem overfull_step (h : Sound w) {fails : Bool} (he : Effect w fails w')
    (ho : Overfull base w) : Overfull base w' := by
  obtain ⟨hall, target, hlt⟩ := ho
  cases fails with
  | false =>
    have hgrow : ∀ target', ∃ n, (content w' target').length = (content w target').length + n ∧
        (expected base w' target').length = (expected base w target').length + n := by
      intro target'
      obtain ⟨new, hcontent, hexpected⟩ := content_effect base h he target'
      exact ⟨new.length, by rw [hcontent, List.length_append], by rw [hexpected, List.length_append]⟩
    refine ⟨fun target' => ?_, target, ?_⟩
    · obtain ⟨n, hc, hx⟩ := hgrow target'
      have hle := hall target'
      omega
    · obtain ⟨n, hc, hx⟩ := hgrow target
      omega
  | true =>
    obtain ⟨hsame, hle, -⟩ := content_repeated base h he
    refine ⟨fun target' => ?_, target, ?_⟩
    · rw [hsame]
      exact (hall target').trans (hle target')
    · rw [hsame]
      exact hlt.trans_le (hle target)

/-- Every table has and awaits just what enqueueing should leave in it. -/
def Exact (w : AsyncDBWriter P) : Prop := ∀ target, content w target = expected base w target

theorem sound_step (w : AsyncDBWriter P) (mv : Move P) (h : Sound w) :
    Sound (w.step postgresConfigured maxBatchSize mv) :=
  sound_effect h (effect_step postgresConfigured maxBatchSize w mv)

theorem exact_step (w : AsyncDBWriter P) (mv : Move P) (h : Sound w ∧ Exact base w)
    (hok : postgresFails postgresConfigured w mv = false) :
    Sound (w.step postgresConfigured maxBatchSize mv) ∧
      Exact base (w.step postgresConfigured maxBatchSize mv) := by
  have he := effect_step postgresConfigured maxBatchSize w mv
  rw [hok] at he
  refine ⟨sound_effect h.1 he, fun target => ?_⟩
  obtain ⟨new, hcontent, hexpected⟩ := content_effect base h.1 he target
  rw [hcontent, hexpected, h.2 target]

/-- The first Postgres failure overfills a table for good. -/
theorem overfull_of_failure (mvs : List (Move P)) :
    ∀ {w : AsyncDBWriter P}, Sound w → Exact base w →
      ¬ Along (AsyncDBWriter.step postgresConfigured maxBatchSize)
        (fun w mv => postgresFails postgresConfigured w mv = false) w mvs →
      Overfull base (run (AsyncDBWriter.step postgresConfigured maxBatchSize) w mvs) := by
  induction mvs with
  | nil => exact fun _ _ hfails => absurd trivial hfails
  | cons mv mvs ih =>
    intro w h hexact hfails
    rw [run_cons]
    have he := effect_step postgresConfigured maxBatchSize w mv
    cases hmv : postgresFails postgresConfigured w mv with
    | false =>
      obtain ⟨h', hexact'⟩ := exact_step postgresConfigured maxBatchSize base w mv ⟨h, hexact⟩ hmv
      exact ih h' hexact' fun hok => hfails ⟨hmv, hok⟩
    | true =>
      rw [hmv] at he
      obtain ⟨hsame, hle, target, hlt⟩ := content_repeated base h he
      have hover : Overfull base (w.step postgresConfigured maxBatchSize mv) := by
        refine ⟨fun target => ?_, target, ?_⟩
        · rw [hsame, ← hexact target]
          exact hle target
        · rw [hsame, ← hexact target]
          exact hlt
      refine (run_keeps (I := fun w => Sound w ∧ Overfull base w) (fun w mv hw => ?_)
        ⟨sound_effect h he, hover⟩ mvs).2
      exact ⟨sound_step postgresConfigured maxBatchSize w mv hw.1,
        overfull_step base hw.1 (effect_step postgresConfigured maxBatchSize w mv) hw.2⟩

theorem content_of_empty {w : AsyncDBWriter P} (h : w.stage = []) (target : Target) :
    content w target = w.rows target := by
  rw [content, openRows, h]
  exact List.append_nil _

/-- **Queued writes land exactly once**: with the stage empty, every table holds
what was enqueued for it, once and in order, exactly when no Postgres attempt
has failed after its SQLite insert. -/
theorem landed_iff (postgresConfigured : Bool) (maxBatchSize : Nat) (base : Dict Target (List P))
    (mvs : List (Move P))
    (hempty : (run (AsyncDBWriter.step postgresConfigured maxBatchSize) { tables := base } mvs).stage
      = []) :
    Landed base (run (AsyncDBWriter.step postgresConfigured maxBatchSize) { tables := base } mvs) ↔
      Along (AsyncDBWriter.step postgresConfigured maxBatchSize)
        (fun w mv => postgresFails postgresConfigured w mv = false) { tables := base } mvs := by
  have hsound : Sound ({ tables := base } : AsyncDBWriter P) :=
    ⟨List.nodup_nil, nofun, nofun, List.nodup_nil, nofun, nofun⟩
  have hexact : Exact base ({ tables := base } : AsyncDBWriter P) := fun _ => rfl
  constructor
  · intro hlanded
    by_contra hfails
    obtain ⟨-, target, hlt⟩ :=
      overfull_of_failure postgresConfigured maxBatchSize base mvs hsound hexact hfails
    rw [content_of_empty hempty, hlanded target] at hlt
    exact Nat.lt_irrefl _ hlt
  · intro hok target
    have hend := run_invariant (I := fun w => Sound w ∧ Exact base w)
      (exact_step postgresConfigured maxBatchSize base) mvs ⟨hsound, hexact⟩ hok
    rw [← content_of_empty hempty]
    exact hend.2 target

end Writer

def breach : QueuedWrite Nat := ⟨.portfolioConstraint, 7, "research_vault.db"⟩

/-- Enqueue one row and flush it; `raises` is whether Postgres raises. -/
def flushOnce (raises : Bool) : List (Move Nat) :=
  [.flush true, .step {}, .step { postgresRaises := raises }, .step {}, .step {}, .step {}]

/-- One failed attempt, and the row is in its table twice. -/
theorem failed_attempt_duplicates :
    let w := run (AsyncDBWriter.step true 64) { tables := .empty }
      (.enqueue breach :: flushOnce true ++ flushOnce false)
    w.stage = [] ∧ w.rows breach.target = [7, 7] ∧ ¬ Landed .empty w := by
  intro w
  have hrows : w.rows breach.target = [7, 7] := by decide +kernel
  refine ⟨by decide +kernel, hrows, fun h => ?_⟩
  have hlanded := h breach.target
  rw [hrows] at hlanded
  revert hlanded
  decide +kernel

theorem quiet_flush_lands :
    Landed .empty (run (AsyncDBWriter.step true 64) { tables := .empty }
      (.enqueue breach :: flushOnce false)) := by
  refine (landed_iff true 64 .empty _ ?_).mpr ?_
  all_goals decide +kernel

end TradingPlatform.Persistence
