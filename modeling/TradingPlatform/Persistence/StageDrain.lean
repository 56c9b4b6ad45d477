import TradingPlatform.Lib.Dict
import TradingPlatform.Lib.Drain
import TradingPlatform.Lib.Runs

/-! # Draining the write-ahead stage

A flush reads the oldest rows of the stage, writes them table by table, deletes
what was committed and, when forced, reads again from the head. A table whose
write fails keeps its rows; a row that cannot be decoded makes the read itself
raise, which nothing in the flush catches. Rows that stay hold their places in
the batch. -/

namespace TradingPlatform.Persistence.StageDrain

open TradingPlatform.Lib TradingPlatform.Lib.Runs

/-- What the write of a row does to the group it is written in. -/
inductive RowWrite
  | lands
  | declines
  | raises
  deriving DecidableEq, Repr

/-- A row of `local_write_ahead_stage`. -/
structure StagedRow where
  stageId : Nat
  writeKind : String
  targetDbPath : String
  decodes : Bool := true
  write : RowWrite := .lands
  deriving DecidableEq

namespace StagedRow

def key (r : StagedRow) : String × String := (r.writeKind, r.targetDbPath)

/-- The row can be read and its own write succeeds. -/
def healthy (r : StagedRow) : Bool := r.decodes && r.write == .lands

end StagedRow

/-- The table, in the order of its primary key. -/
structure WriteAheadStage where
  rows : List StagedRow
  ordered : rows.Pairwise (·.stageId < ·.stageId)

/-- The stage, and the rows whose writes are in their tables. -/
structure Writer where
  stage : WriteAheadStage
  landed : List StagedRow := []

/-- A call of `_flush_from_write_ahead`, with the limiter's answer to it. -/
structure Call where
  force : Bool
  granted : Bool := true

section Code
variable (maxBatchSize : Nat)

/-- `none` is the exception of `json.loads` or of `WriteKind(..)`. -/
def fetchStagedBatch (w : Writer) : Option (List StagedRow) :=
  let rows := w.stage.rows.take (max maxBatchSize 1)
  if rows.all (·.decodes) then some rows else none

/-- `none` is the exception of a write that failed. -/
def persistGroup (items : List StagedRow) : Option (List Nat) :=
  if items.any (·.write == .raises) then none
  else if items.any (·.write == .declines) then some []
  else some (items.map (·.stageId))

/-- The ids of every group that neither raised nor declined. -/
def persistStagedBatch (batch : List StagedRow) : List Nat :=
  (Dict.groupBy StagedRow.key batch).items.flatMap fun g => (persistGroup g.2).getD []

def deleteStagedRows (w : Writer) (stageIds : List Nat) : Writer where
  stage.rows := w.stage.rows.filter (·.stageId ∉ stageIds)
  stage.ordered := w.stage.ordered.sublist List.filter_sublist
  landed := w.landed ++ w.stage.rows.filter (·.stageId ∈ stageIds)

/-- A group is committed whole, when every write in it lands, or not at all. -/
theorem mem_persistGroup {items : List StagedRow} {id : Nat} :
    id ∈ (persistGroup items).getD [] ↔
      (∀ r' ∈ items, r'.write = .lands) ∧ ∃ r ∈ items, r.stageId = id := by
  unfold persistGroup
  split
  · rename_i hraise
    obtain ⟨r, hr, hwrite⟩ := List.any_eq_true.mp hraise
    have hwrite : r.write = .raises := by simpa using hwrite
    refine iff_of_false (by simp) fun h => ?_
    rw [h.1 r hr] at hwrite
    cases hwrite
  split
  · rename_i hdecline
    obtain ⟨r, hr, hwrite⟩ := List.any_eq_true.mp hdecline
    have hwrite : r.write = .declines := by simpa using hwrite
    refine iff_of_false (by simp) fun h => ?_
    rw [h.1 r hr] at hwrite
    cases hwrite
  · rename_i hraise hdecline
    have hall : ∀ r' ∈ items, r'.write = .lands := by
      intro r' hr'
      simp only [List.any_eq_true, beq_iff_eq, not_exists, not_and] at hraise hdecline
      cases hw : r'.write with
      | lands => rfl
      | declines => exact absurd hw (hdecline r' hr')
      | raises => exact absurd hw (hraise r' hr')
    refine ⟨fun h => ⟨hall, ?_⟩, fun h => ?_⟩
    · simpa using h
    · simpa using h.2

theorem mem_persistStagedBatch {batch : List StagedRow} {id : Nat} :
    id ∈ persistStagedBatch batch ↔
      ∃ r ∈ batch, r.stageId = id ∧ ∀ r' ∈ batch, r'.key = r.key → r'.write = .lands := by
  unfold persistStagedBatch
  rw [List.mem_flatMap]
  constructor
  · intro h
    obtain ⟨⟨k, items⟩, hg, hid⟩ := h
    obtain ⟨hitems, -⟩ := Dict.mem_groupBy _ hg
    obtain ⟨hall, r, hr, hrid⟩ := mem_persistGroup.mp hid
    rw [hitems] at hr hall
    obtain ⟨hr, hkey⟩ := List.mem_filter.mp hr
    have hkey : r.key = k := by simpa using hkey
    refine ⟨r, hr, hrid, fun r' hr' hsame => hall r' (List.mem_filter.mpr ⟨hr', ?_⟩)⟩
    simpa using hsame.trans hkey
  · intro h
    obtain ⟨r, hr, hrid, hall⟩ := h
    have hmem : r ∈ batch.filter (·.key = r.key) := List.mem_filter.mpr ⟨hr, by simp⟩
    have hget := Dict.get?_groupBy StagedRow.key batch r.key
    rw [if_neg (List.ne_nil_of_mem hmem)] at hget
    refine ⟨(r.key, _), (Dict.get?_eq_some _).mp hget, mem_persistGroup.mpr ⟨?_, r, hmem, hrid⟩⟩
    intro r' hr'
    obtain ⟨hr', hsame⟩ := List.mem_filter.mp hr'
    exact hall r' hr' (by simpa using hsame)

theorem persistStagedBatch_subset {batch : List StagedRow} :
    persistStagedBatch batch ⊆ batch.map (·.stageId) := by
  intro id hid
  obtain ⟨r, hr, hrid, -⟩ := mem_persistStagedBatch.mp hid
  exact List.mem_map.mpr ⟨r, hr, hrid⟩

theorem delete_shrinks {w : Writer} {batch : List StagedRow} (hbatch : batch <+: w.stage.rows)
    (h : persistStagedBatch batch ≠ []) :
    (deleteStagedRows w (persistStagedBatch batch)).stage.rows.length < w.stage.rows.length := by
  obtain ⟨id, hid⟩ := List.exists_mem_of_ne_nil _ h
  obtain ⟨r, hr, rfl⟩ := List.mem_map.mp (persistStagedBatch_subset hid)
  refine List.length_filter_lt_length_iff_exists.mpr ⟨r, hbatch.subset hr, ?_⟩
  simpa using hid

theorem fetchStagedBatch_eq_some {w : Writer} {batch : List StagedRow}
    (h : fetchStagedBatch maxBatchSize w = some batch) :
    batch = w.stage.rows.take (max maxBatchSize 1) ∧ ∀ r ∈ batch, r.decodes = true := by
  unfold fetchStagedBatch at h
  dsimp only at h
  split at h
  · rename_i hall
    cases h
    exact ⟨rfl, List.all_eq_true.mp hall⟩
  · cases h

set_option linter.unusedVariables false in
/-- The flush, and whether it raised. -/
def flushFromWriteAhead (w : Writer) (c : Call) : Writer × Bool :=
  if !(c.force || c.granted) then (w, false)
  else
    match h : fetchStagedBatch maxBatchSize w with
    | none => (w, true)
    | some [] => (w, false)
    | some batch =>
      if hcommitted : persistStagedBatch batch = [] then (w, false)
      else
        let w' := deleteStagedRows w (persistStagedBatch batch)
        if c.force then flushFromWriteAhead w' c else (w', false)
termination_by w.stage.rows.length
decreasing_by
  obtain ⟨hbatch, -⟩ := fetchStagedBatch_eq_some maxBatchSize h
  exact delete_shrinks (hbatch ▸ List.take_prefix _ _) hcommitted

def step (w : Writer) (c : Call) : Writer := (flushFromWriteAhead maxBatchSize w c).1

def forced : Call := ⟨true, true⟩

/-- The worker's call when the limiter grants it. -/
def poll : Call := ⟨false, true⟩

/-- Forced flushes commit every healthy row in finitely many calls, and no
sequence of calls meets an exception. -/
def Unjammed (w : Writer) : Prop :=
  (∃ k, let w' := run (step maxBatchSize) w (List.replicate k forced)
    ∀ r ∈ w.stage.rows, r.healthy = true → r ∈ w'.landed ∧ r ∉ w'.stage.rows) ∧
  ∀ calls, Along (step maxBatchSize)
    (fun w c => (flushFromWriteAhead maxBatchSize w c).2 = false) w calls

end Code

/-! ## When nothing jams -/

/-- In the batch of `n` oldest rows every row decodes, and no healthy row has a
row of its table beside it whose write fails. -/
def CleanBatch (n : Nat) (rows : List StagedRow) : Prop :=
  ∀ r ∈ rows.take n, r.decodes = true ∧
    (r.healthy = true → ∀ r' ∈ rows.take n, r'.key = r.key → r'.write = .lands)

/-- Fewer than `n` rows that stay stand ahead of each healthy row, and each batch
of the drain that takes just the healthy rows is clean. -/
def Drainable (n : Nat) (rows : List StagedRow) : Prop :=
  Drain.Unblocked StagedRow.healthy n rows ∧
    ∀ j, CleanBatch n ((Drain.remaining StagedRow.healthy n)^[j] rows)

namespace Drainable
variable {n : Nat} {rows : List StagedRow}

theorem clean (h : Drainable n rows) : CleanBatch n rows := h.2 0

theorem remaining (h : Drainable n rows) :
    Drainable n (Drain.remaining StagedRow.healthy n rows) :=
  ⟨h.1.remaining, fun j => h.2 (j + 1)⟩

end Drainable

/-! ## One batch -/

section Batch
variable {maxBatchSize : Nat}

/-- What a pass over the head of the stage leaves. -/
def pass (maxBatchSize : Nat) (w : Writer) : Writer := step maxBatchSize w poll

theorem writer_ext {w w' : Writer} (hrows : w.stage.rows = w'.stage.rows)
    (hlanded : w.landed = w'.landed) : w = w' := by
  obtain ⟨⟨rows, _⟩, landed⟩ := w
  obtain ⟨⟨rows', _⟩, landed'⟩ := w'
  cases hrows
  cases hlanded
  rfl

theorem deleteStagedRows_nil (w : Writer) : deleteStagedRows w [] = w :=
  writer_ext (by simp [deleteStagedRows]) (by simp [deleteStagedRows])

theorem flush_raises {w : Writer} {c : Call} (hc : (c.force || c.granted) = true)
    (h : fetchStagedBatch maxBatchSize w = none) :
    flushFromWriteAhead maxBatchSize w c = (w, true) := by
  rw [flushFromWriteAhead, hc]
  simp only [Bool.not_true, Bool.false_eq_true, if_false]
  split
  · rfl
  · rename_i h'
    rw [h] at h'
    cases h'
  · rename_i h'
    rw [h] at h'
    cases h'

theorem pass_of_fetch {w : Writer} {batch : List StagedRow}
    (h : fetchStagedBatch maxBatchSize w = some batch) :
    pass maxBatchSize w = deleteStagedRows w (persistStagedBatch batch) := by
  have hnil : persistStagedBatch [] = [] := rfl
  unfold pass step
  rw [flushFromWriteAhead]
  simp only [poll, Bool.or_true, Bool.not_true, Bool.false_eq_true, if_false]
  split
  · rename_i h'
    rw [h] at h'
    cases h'
  · rename_i h'
    obtain rfl : batch = [] := by simpa [h] using h'
    rw [hnil, deleteStagedRows_nil]
  · rename_i batch' _ h'
    obtain rfl : batch = batch' := by simpa [h] using h'
    split
    · rename_i hcommitted
      rw [hcommitted, deleteStagedRows_nil]
    · rfl

/-- The rows of a batch whose tables take them. -/
theorem mem_delete {w : Writer} {n : Nat} {r : StagedRow} (hr : r ∈ w.stage.rows) :
    r.stageId ∈ persistStagedBatch (w.stage.rows.take n) ↔
      r ∈ w.stage.rows.take n ∧ ∀ r' ∈ w.stage.rows.take n, r'.key = r.key → r'.write = .lands := by
  rw [mem_persistStagedBatch]
  constructor
  · intro h
    obtain ⟨r', hr', hid, hall⟩ := h
    have hids : (w.stage.rows.map (·.stageId)).Nodup := by
      refine (List.pairwise_map.mpr w.stage.ordered).imp ?_
      exact Nat.ne_of_lt
    obtain rfl : r' = r := List.inj_on_of_nodup_map hids (List.mem_of_mem_take hr') hr hid
    exact ⟨hr', hall⟩
  · intro h
    obtain ⟨hr', hall⟩ := h
    exact ⟨r, hr', rfl, hall⟩

theorem fetch_of_clean {w : Writer} (h : CleanBatch (max maxBatchSize 1) w.stage.rows) :
    fetchStagedBatch maxBatchSize w = some (w.stage.rows.take (max maxBatchSize 1)) := by
  unfold fetchStagedBatch
  exact if_pos (List.all_eq_true.mpr fun r hr => (h r hr).1)

theorem rows_nodup (w : Writer) : w.stage.rows.Nodup :=
  w.stage.ordered.imp fun hlt heq => Nat.ne_of_lt hlt (congrArg StagedRow.stageId heq)

/-- From a clean batch just the healthy rows leave. -/
theorem delete_clean {w : Writer} {n : Nat} (h : CleanBatch n w.stage.rows) :
    let w' := deleteStagedRows w (persistStagedBatch (w.stage.rows.take n))
    w'.stage.rows = Drain.remaining StagedRow.healthy n w.stage.rows ∧
      w'.landed = w.landed ++ Drain.served StagedRow.healthy n w.stage.rows := by
  have hwrite : ∀ r ∈ w.stage.rows.take n,
      r.stageId ∈ persistStagedBatch (w.stage.rows.take n) ↔ r.healthy = true := by
    intro r hr
    rw [mem_delete (List.mem_of_mem_take hr)]
    constructor
    · intro hall
      simp [StagedRow.healthy, (h r hr).1, hall.2 r hr rfl]
    · intro hhealthy
      exact ⟨hr, (h r hr).2 hhealthy⟩
  have hlater : ∀ r ∈ w.stage.rows.drop n,
      r.stageId ∉ persistStagedBatch (w.stage.rows.take n) := by
    intro r hr hin
    have htake := ((mem_delete (List.mem_of_mem_drop hr)).mp hin).1
    have hdisj := rows_nodup w
    rw [← List.take_append_drop n w.stage.rows] at hdisj
    exact (List.nodup_append.mp hdisj).2.2 r htake r hr rfl
  constructor
  · show w.stage.rows.filter _ = _
    conv_lhs => rw [← List.take_append_drop n w.stage.rows]
    rw [List.filter_append, List.take_append_drop]
    refine congrArg₂ (· ++ ·) (List.filter_congr fun r hr => ?_) ?_
    · have hiff := hwrite r hr
      cases hp : r.healthy with
      | true => simp [hiff.mpr hp]
      | false => simp [show r.stageId ∉ persistStagedBatch (w.stage.rows.take n) by simp [hiff, hp]]
    · exact List.filter_eq_self.mpr fun r hr => decide_eq_true (hlater r hr)
  · show w.landed ++ w.stage.rows.filter _ = _
    conv_lhs => rw [← List.take_append_drop n w.stage.rows]
    rw [List.filter_append, List.take_append_drop]
    have hnone : (w.stage.rows.drop n).filter
        (·.stageId ∈ persistStagedBatch (w.stage.rows.take n)) = [] :=
      List.filter_eq_nil_iff.mpr fun r hr => by simpa using hlater r hr
    rw [hnone, List.append_nil]
    refine congrArg (w.landed ++ ·) (List.filter_congr fun r hr => ?_)
    have hiff := hwrite r hr
    cases hp : r.healthy with
    | true => simp [hiff.mpr hp]
    | false => simp [show r.stageId ∉ persistStagedBatch (w.stage.rows.take n) by simp [hiff, hp]]

theorem delete_sublist (w : Writer) (ids : List Nat) :
    (deleteStagedRows w ids).stage.rows.Sublist w.stage.rows ∧
      w.landed ⊆ (deleteStagedRows w ids).landed :=
  ⟨List.filter_sublist, List.subset_append_left _ _⟩

variable (maxBatchSize) in
/-- A flush is a number of passes. -/
theorem flush_passes (w : Writer) (c : Call) :
    ∃ m, (flushFromWriteAhead maxBatchSize w c).1 = (pass maxBatchSize)^[m] w := by
  fun_induction flushFromWriteAhead maxBatchSize w c with
  | case1 => exact ⟨0, rfl⟩
  | case2 => exact ⟨0, rfl⟩
  | case3 => exact ⟨0, rfl⟩
  | case4 => exact ⟨0, rfl⟩
  | case5 w _ batch _ hfetch _ w' _ ih =>
    obtain ⟨m, hm⟩ := ih
    refine ⟨m + 1, hm.trans ?_⟩
    rw [Function.iterate_succ_apply, pass_of_fetch hfetch]
  | case6 w _ batch _ hfetch _ w' _ =>
    refine ⟨1, ?_⟩
    rw [Function.iterate_one, pass_of_fetch hfetch]

variable (maxBatchSize) in
theorem run_passes (w : Writer) (calls : List Call) :
    ∃ m, run (step maxBatchSize) w calls = (pass maxBatchSize)^[m] w := by
  induction calls generalizing w with
  | nil => exact ⟨0, rfl⟩
  | cons c calls ih =>
    obtain ⟨m, hm⟩ := flush_passes maxBatchSize w c
    obtain ⟨m', hm'⟩ := ih (step maxBatchSize w c)
    refine ⟨m' + m, ?_⟩
    rw [run_cons, hm', Function.iterate_add_apply, ← hm]
    rfl

theorem run_polls (w : Writer) (j : Nat) :
    run (step maxBatchSize) w (List.replicate j poll) = (pass maxBatchSize)^[j] w := by
  induction j generalizing w with
  | zero => rfl
  | succ j ih => rw [List.replicate_succ, run_cons, ih, Function.iterate_succ_apply, pass]

variable (maxBatchSize) in
theorem flush_sublist (w : Writer) (c : Call) :
    (flushFromWriteAhead maxBatchSize w c).1.stage.rows.Sublist w.stage.rows ∧
      w.landed ⊆ (flushFromWriteAhead maxBatchSize w c).1.landed := by
  fun_induction flushFromWriteAhead maxBatchSize w c with
  | case1 => exact ⟨List.Sublist.refl _, List.Subset.refl _⟩
  | case2 => exact ⟨List.Sublist.refl _, List.Subset.refl _⟩
  | case3 => exact ⟨List.Sublist.refl _, List.Subset.refl _⟩
  | case4 => exact ⟨List.Sublist.refl _, List.Subset.refl _⟩
  | case5 w _ batch _ _ _ w' _ ih =>
    obtain ⟨hrows, hlanded⟩ := delete_sublist w (persistStagedBatch batch)
    exact ⟨ih.1.trans hrows, List.Subset.trans hlanded ih.2⟩
  | case6 w _ batch _ _ _ w' _ => exact delete_sublist w (persistStagedBatch batch)

/-! ## Whole drains -/

variable {w : Writer}

/-- **Where the stage is drainable** a flush does not raise, leaves it drainable
and, when forced, commits every healthy row. -/
theorem flush_drainable (w : Writer) (c : Call) (h : Drainable (max maxBatchSize 1) w.stage.rows) :
    (flushFromWriteAhead maxBatchSize w c).2 = false ∧
      Drainable (max maxBatchSize 1) (flushFromWriteAhead maxBatchSize w c).1.stage.rows ∧
      (c.force = true → ∀ r ∈ w.stage.rows, r.healthy = true →
        r ∈ (flushFromWriteAhead maxBatchSize w c).1.landed ∧
          r ∉ (flushFromWriteAhead maxBatchSize w c).1.stage.rows) := by
  fun_induction flushFromWriteAhead maxBatchSize w c with
  | case1 w hthrottled =>
    refine ⟨rfl, h, fun hforce => ?_⟩
    simp [hforce] at hthrottled
  | case2 w _ hraise =>
    rw [fetch_of_clean h.clean] at hraise
    cases hraise
  | case3 w _ hempty =>
    obtain ⟨hrows, -⟩ := fetchStagedBatch_eq_some maxBatchSize hempty
    have hnil : w.stage.rows = [] := by
      rcases List.take_eq_nil_iff.mp hrows.symm with hzero | hnil
      · omega
      · exact hnil
    refine ⟨rfl, h, fun _ r hr => ?_⟩
    rw [hnil] at hr
    cases hr
  | case4 w _ batch _ hfetch hcommitted =>
    obtain ⟨rfl, -⟩ := fetchStagedBatch_eq_some maxBatchSize hfetch
    obtain ⟨-, hlanded⟩ := delete_clean h.clean
    rw [hcommitted, deleteStagedRows_nil] at hlanded
    have hserved := List.self_eq_append_right.mp hlanded
    refine ⟨rfl, h, fun _ r hr hhealthy => ?_⟩
    exact absurd hserved (h.1.served_ne_nil ⟨r, hr, hhealthy⟩)
  | case5 w _ batch _ hfetch _ w' _ ih =>
    obtain ⟨rfl, -⟩ := fetchStagedBatch_eq_some maxBatchSize hfetch
    obtain ⟨hrows, hlanded⟩ := delete_clean h.clean
    obtain ⟨hraised, hleft, hall⟩ := ih (hrows ▸ h.remaining)
    refine ⟨hraised, hleft, fun hforce r hr hhealthy => ?_⟩
    rcases Drain.mem_remaining_or_served (p := StagedRow.healthy) (n := max maxBatchSize 1) hr with
      hlater | hnow
    · exact hall hforce r (hrows ▸ hlater) hhealthy
    · -- the row leaves now, and nothing brings it back
      obtain ⟨hsub, hkept⟩ := flush_sublist maxBatchSize w' c
      refine ⟨hkept ?_, fun hin => ?_⟩
      · show r ∈ (deleteStagedRows w _).landed
        rw [hlanded]
        exact List.mem_append_right _ hnow
      · have hrest : r ∈ w'.stage.rows := hsub.subset hin
        have htake := (List.mem_filter.mp hnow).1
        have hcommitted := (mem_delete hr).mpr ⟨htake, (h.clean r htake).2 hhealthy⟩
        simpa [hcommitted] using (List.mem_filter.mp hrest).2
  | case6 w _ batch _ hfetch _ w' hforce =>
    obtain ⟨rfl, -⟩ := fetchStagedBatch_eq_some maxBatchSize hfetch
    obtain ⟨hrows, -⟩ := delete_clean h.clean
    exact ⟨rfl, hrows ▸ h.remaining, fun hforce' => absurd hforce' hforce⟩

/-! ## What jams -/

variable (maxBatchSize) in
theorem pass_cases (w : Writer) : pass maxBatchSize w = w ∨
    pass maxBatchSize w =
      deleteStagedRows w (persistStagedBatch (w.stage.rows.take (max maxBatchSize 1))) := by
  cases hfetch : fetchStagedBatch maxBatchSize w with
  | none =>
    left
    unfold pass step
    rw [flush_raises rfl hfetch]
  | some batch =>
    right
    rw [pass_of_fetch hfetch, (fetchStagedBatch_eq_some maxBatchSize hfetch).1]

theorem passes_sublist (w : Writer) {i j : Nat} (h : i ≤ j) :
    ((pass maxBatchSize)^[j] w).stage.rows.Sublist ((pass maxBatchSize)^[i] w).stage.rows := by
  induction j, h using Nat.le_induction with
  | base => exact List.Sublist.refl _
  | succ j _ ih =>
    rw [Function.iterate_succ_apply']
    exact (flush_sublist maxBatchSize _ poll).1.trans ih

theorem mem_take_filter {α : Type*} {p : α → Bool} {n : Nat} {xs : List α} {x : α}
    (hx : x ∈ xs.take n) (hp : p x = true) : x ∈ (xs.filter p).take n := by
  have hlen : ((xs.take n).filter p).length ≤ n :=
    (List.length_filter_le _ _).trans (List.length_take_le _ _)
  rw [← List.take_append_drop n xs, List.filter_append, List.take_append,
    List.take_of_length_le hlen]
  exact List.mem_append_left _ (List.mem_filter.mpr ⟨hx, hp⟩)

/-- A row whose group fails in the batch it is in stays in the batch, with the
row that fails it. -/
theorem jammed {r u : StagedRow} (hkey : u.key = r.key) (hwrite : u.write ≠ .lands)
    (hr : r ∈ w.stage.rows.take (max maxBatchSize 1))
    (hu : u ∈ w.stage.rows.take (max maxBatchSize 1)) (m : Nat) :
    r ∈ ((pass maxBatchSize)^[m] w).stage.rows.take (max maxBatchSize 1) ∧
      u ∈ ((pass maxBatchSize)^[m] w).stage.rows.take (max maxBatchSize 1) := by
  induction m with
  | zero => exact ⟨hr, hu⟩
  | succ m ih =>
    rw [Function.iterate_succ_apply']
    obtain ⟨hr, hu⟩ := ih
    rcases pass_cases maxBatchSize ((pass maxBatchSize)^[m] w) with hsame | hdel
    · rw [hsame]
      exact ⟨hr, hu⟩
    · rw [hdel]
      refine ⟨mem_take_filter hr (decide_eq_true fun hin => ?_),
        mem_take_filter hu (decide_eq_true fun hin => ?_)⟩
      · exact hwrite (((mem_delete (List.mem_of_mem_take hr)).mp hin).2 u hu hkey)
      · exact hwrite (((mem_delete (List.mem_of_mem_take hu)).mp hin).2 u hu rfl)

/-- While batches are clean, passes take just the healthy rows. -/
theorem rows_passes (w : Writer) (j : Nat)
    (h : ∀ i < j, CleanBatch (max maxBatchSize 1)
      ((Drain.remaining StagedRow.healthy (max maxBatchSize 1))^[i] w.stage.rows)) :
    ((pass maxBatchSize)^[j] w).stage.rows =
      (Drain.remaining StagedRow.healthy (max maxBatchSize 1))^[j] w.stage.rows := by
  induction j with
  | zero => rfl
  | succ j ih =>
    have hrows := ih fun i hi => h i (Nat.lt_succ_of_lt hi)
    have hclean := h j (Nat.lt_succ_self j)
    rw [← hrows] at hclean
    rw [Function.iterate_succ_apply', Function.iterate_succ_apply', ← hrows,
      pass_of_fetch (fetch_of_clean hclean)]
    exact (delete_clean hclean).1

theorem Unjammed.leaves (h : Unjammed maxBatchSize w) {r : StagedRow} (hr : r ∈ w.stage.rows)
    (hhealthy : r.healthy = true) : ∃ m, r ∉ ((pass maxBatchSize)^[m] w).stage.rows := by
  obtain ⟨⟨k, hk⟩, -⟩ := h
  obtain ⟨m, hm⟩ := run_passes maxBatchSize w (List.replicate k forced)
  exact ⟨m, hm ▸ (hk r hr hhealthy).2⟩

theorem Unjammed.clean (h : Unjammed maxBatchSize w) (j : Nat) :
    CleanBatch (max maxBatchSize 1)
      ((Drain.remaining StagedRow.healthy (max maxBatchSize 1))^[j] w.stage.rows) := by
  induction j using Nat.strong_induction_on with
  | _ j ih =>
    have hrows := rows_passes w j ih
    have hpolls := h.2 (List.replicate j poll ++ [poll])
    rw [along_append, run_polls] at hpolls
    have hraise : (flushFromWriteAhead maxBatchSize ((pass maxBatchSize)^[j] w) poll).2 = false :=
      hpolls.2.1
    rw [← hrows]
    cases hfetch : fetchStagedBatch maxBatchSize ((pass maxBatchSize)^[j] w) with
    | none =>
      rw [flush_raises rfl hfetch] at hraise
      cases hraise
    | some batch =>
      obtain ⟨rfl, hdecodes⟩ := fetchStagedBatch_eq_some maxBatchSize hfetch
      refine fun r hr => ⟨hdecodes r hr, fun hhealthy u hu hkey => ?_⟩
      by_contra hwrite
      have hin : r ∈ w.stage.rows :=
        (passes_sublist w (Nat.zero_le j)).subset (List.mem_of_mem_take hr)
      obtain ⟨m, hm⟩ := h.leaves hin hhealthy
      refine hm ?_
      rcases Nat.le_total m j with hle | hle
      · exact (passes_sublist w hle).subset (List.mem_of_mem_take hr)
      · obtain ⟨d, rfl⟩ := Nat.exists_eq_add_of_le' hle
        rw [Function.iterate_add_apply]
        exact List.mem_of_mem_take (jammed hkey hwrite hr hu d).1

theorem Unjammed.unblocked (h : Unjammed maxBatchSize w) :
    Drain.Unblocked StagedRow.healthy (max maxBatchSize 1) w.stage.rows := by
  intro front r back hsplit hhealthy
  by_contra hlt
  have hblocked : Drain.BlockedAt StagedRow.healthy (max maxBatchSize 1) r w.stage.rows :=
    ⟨front, back, hsplit, not_lt.mp hlt⟩
  have hr : r ∈ w.stage.rows := by
    rw [hsplit]
    simp
  obtain ⟨m, hm⟩ := h.leaves hr hhealthy
  rw [rows_passes w m fun i _ => h.clean i] at hm
  obtain ⟨front', back', hsplit', -⟩ := hblocked.remaining_iterate m
  rw [hsplit'] at hm
  simp at hm

/-- **No poisoned row jams a healthy one** exactly when no healthy row has a
batch of rows that stay ahead of it, and no batch of the drain that takes just
the healthy rows reads a row that cannot be decoded, or a healthy row beside a
row of its table whose write fails. -/
theorem unjammed_iff (maxBatchSize : Nat) (stage : WriteAheadStage) :
    Unjammed maxBatchSize { stage } ↔ Drainable (max maxBatchSize 1) stage.rows := by
  constructor
  · intro h
    exact ⟨h.unblocked, h.clean⟩
  · intro h
    refine ⟨⟨1, (flush_drainable { stage } forced h).2.2 rfl⟩, fun calls => ?_⟩
    generalize hw : ({ stage } : Writer) = w
    replace h : Drainable (max maxBatchSize 1) w.stage.rows := hw ▸ h
    clear hw
    induction calls generalizing w with
    | nil => trivial
    | cons c calls ih =>
      obtain ⟨hraised, hleft, -⟩ := flush_drainable w c h
      exact ⟨hraised, ih _ hleft⟩

end Batch

/-- A row that cannot be decoded, at the head of the stage, and a healthy one. -/
def undecodableHead : WriteAheadStage where
  rows := [{ stageId := 1, writeKind := "trade_attribution", targetDbPath := "research_vault.db",
             decodes := false },
           { stageId := 2, writeKind := "trade_attribution", targetDbPath := "research_vault.db" }]
  ordered := by decide

/-- The first flush raises. -/
theorem undecodable_head_jams : ¬ Unjammed 64 { stage := undecodableHead } := by
  intro h
  obtain ⟨-, hquiet⟩ := h
  have hraise : flushFromWriteAhead 64 { stage := undecodableHead } forced =
      ({ stage := undecodableHead }, true) := flush_raises rfl rfl
  have hfirst : (flushFromWriteAhead 64 { stage := undecodableHead } forced).2 = false :=
    (hquiet [forced]).1
  rw [hraise] at hfirst
  cases hfirst

end TradingPlatform.Persistence.StageDrain
