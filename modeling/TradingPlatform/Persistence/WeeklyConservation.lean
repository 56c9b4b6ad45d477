import TradingPlatform.Persistence.Retention
import TradingPlatform.Lib.Runs
import Mathlib

/-! # Conservation of the weekly counts

Rows are inserted with the time of their insertion, and retention runs in
between. Beside the database stand all rows ever inserted. A run counts a week
again from the rows it still has, so the count is right as long as no week with
rows left has lost any. -/

namespace TradingPlatform.Persistence

open TradingPlatform.Lib TradingPlatform.Lib.Runs

inductive MetricsEvent
  | insert (createdUtc : ℤ)
  | retain (now : ℤ) (dryRun : Bool)
  deriving DecidableEq

def MetricsEvent.time : MetricsEvent → ℤ
  | .insert createdUtc => createdUtc
  | .retain now _ => now

/-- `INSERT INTO cycle_metrics`; the first one creates the table. -/
def Db.insertCycle (db : Db) (createdUtc : ℤ) : Db :=
  { db with tables := db.tables.set "cycle_metrics" (db.cycleRows ++ [createdUtc]) }

section Events
variable (week : ℤ → String)

def Db.retain (now : ℤ) (dryRun : Bool) (db : Db) : Db :=
  match runRetention week now dryRun db with
  | .ok (db', _) => db'
  | .error _ => db

/-- The database, the rows ever inserted, those inserted up to the latest run that was not
dry with the time of that run, and the time of the latest event. -/
structure MetricsHistory where
  db : Db
  inserted : List ℤ := []
  counted : List ℤ := []
  lastRun : WithBot ℤ := ⊥
  clock : WithBot ℤ := ⊥

def metricsStep (s : MetricsHistory) : MetricsEvent → MetricsHistory
  | .insert createdUtc =>
    { s with
      db := s.db.insertCycle createdUtc
      inserted := s.inserted ++ [createdUtc]
      clock := createdUtc }
  | .retain now true => { s with db := s.db.retain week now true, clock := now }
  | .retain now false =>
    { s with
      db := s.db.retain week now false
      counted := s.inserted
      lastRun := now
      clock := now }

/-- Every week's count is of all rows ever inserted in it, and the rows of the window are
all there. -/
structure HistoryKept (now : ℤ) (s : MetricsHistory) : Prop where
  weeks : ∀ w, s.db.weekCount w = s.inserted.countP (week · = w)
  window : (s.inserted.filter (cutoff now 30 ≤ ·)).Sublist s.db.cycleRows

/-- What is claimed of an event: of a run that is not dry, that the history is kept. -/
def KeepsHistory (s : MetricsHistory) : MetricsEvent → Prop
  | .retain now false => HistoryKept week now (metricsStep week s (.retain now false))
  | _ => True

/-- When a run starts, no row in the table is of a week that has lost a row. -/
def NoWeekCut (s : MetricsHistory) : MetricsEvent → Prop
  | .retain _ false =>
    ∀ gone ∈ s.inserted, gone ∉ s.db.cycleRows → ∀ t ∈ s.db.cycleRows, week t ≠ week gone
  | _ => True

/-! ## One event -/

theorem cycleRows_insertCycle (db : Db) (t : ℤ) :
    (db.insertCycle t).cycleRows = db.cycleRows ++ [t] := by
  rw [Db.cycleRows, Db.insertCycle, Dict.get?_set_self, Option.getD_some]

theorem retain_spec (now : ℤ) (db : Db) :
    (db.retain week now false).cycleRows = db.cycleRows.filter (cutoff now 30 ≤ ·) ∧
      ∀ w, (db.retain week now false).weekCount w =
        if db.cycleRows.filter (week · = w) = [] then db.weekCount w
        else db.cycleRows.countP (week · = w) := by
  obtain ⟨s, hrun, hrows, hcounts⟩ := runRetention_spec week now db
  have hdb : db.retain week now false = s.1 := by rw [Db.retain, hrun]
  rw [hdb]
  exact ⟨hrows, hcounts⟩

theorem metricsStep_retain (s : MetricsHistory) (now : ℤ) :
    metricsStep week s (.retain now false) =
      { s with
        db := s.db.retain week now false
        counted := s.inserted
        lastRun := now
        clock := now } := rfl

theorem metricsStep_dryRun (s : MetricsHistory) (now : ℤ) :
    metricsStep week s (.retain now true) =
      { s with db := s.db.retain week now true, clock := now } := rfl

theorem retain_dryRun (now : ℤ) (db : Db) : db.retain week now true = db := by
  obtain ⟨reports, hrun⟩ := runRetention_dryRun week now db
  rw [Db.retain, hrun]

def retentionWindow : ℤ := 30 * microsecondsPerDay

theorem retentionWindow_pos : 0 < retentionWindow := by decide

/-- The rows in the table are those the latest run kept and those inserted since. -/
structure Timed (s : MetricsHistory) : Prop where
  past : s.lastRun ≤ s.clock
  rows : s.db.cycleRows =
    s.inserted.filter fun t => s.lastRun ≤ ((t + retentionWindow : ℤ) : WithBot ℤ)
  fresh : ∃ since, s.inserted = s.counted ++ since ∧ ∀ t ∈ since, s.lastRun ≤ (t : WithBot ℤ)

variable {week}

/-- What was inserted since the latest run is in the table. -/
theorem Timed.mem_rows {s : MetricsHistory} (h : Timed s) {t : ℤ} (ht : t ∈ s.inserted)
    (hrun : s.lastRun ≤ (t : WithBot ℤ)) : t ∈ s.db.cycleRows := by
  rw [h.rows, List.mem_filter, decide_eq_true_iff]
  refine ⟨ht, hrun.trans (WithBot.coe_le_coe.mpr ?_)⟩
  exact le_add_of_nonneg_right retentionWindow_pos.le

/-- The rows a run keeps are those of its window. -/
theorem Timed.retained {s : MetricsHistory} (h : Timed s) {now : ℤ} (hnow : s.clock ≤ now) :
    (s.db.retain week now false).cycleRows = s.inserted.filter (cutoff now 30 ≤ ·) := by
  rw [(retain_spec week now s.db).1, h.rows, List.filter_filter]
  refine List.filter_congr fun t _ => ?_
  rw [← Bool.decide_and]
  refine decide_eq_decide.mpr (and_iff_left_of_imp fun hcut => ?_)
  refine (h.past.trans hnow).trans (WithBot.coe_le_coe.mpr ?_)
  exact sub_le_iff_le_add.mp hcut

theorem timed_step (s : MetricsHistory) (e : MetricsEvent) (h : Timed s)
    (htime : s.clock ≤ (e.time : WithBot ℤ)) : Timed (metricsStep week s e) := by
  obtain ⟨since, hsince, hfresh⟩ := h.fresh
  cases e with
  | insert t =>
    have hrun : s.lastRun ≤ (t : WithBot ℤ) := h.past.trans htime
    refine ⟨hrun, ?_, since ++ [t], ?_, fun x hx => ?_⟩
    · have hkeep : s.lastRun ≤ ((t + retentionWindow : ℤ) : WithBot ℤ) :=
        hrun.trans (WithBot.coe_le_coe.mpr (le_add_of_nonneg_right retentionWindow_pos.le))
      show (s.db.insertCycle t).cycleRows = (s.inserted ++ [t]).filter fun x =>
        s.lastRun ≤ ((x + retentionWindow : ℤ) : WithBot ℤ)
      rw [cycleRows_insertCycle, h.rows, List.filter_append]
      refine congrArg _ (List.filter_eq_self.mpr fun x hx => decide_eq_true ?_).symm
      rw [List.mem_singleton.mp hx]
      exact hkeep
    · show s.inserted ++ [t] = s.counted ++ (since ++ [t])
      rw [hsince, List.append_assoc]
    · rcases List.mem_append.mp hx with hx | hx
      · exact hfresh x hx
      · rw [List.mem_singleton.mp hx]
        exact hrun
  | retain now dryRun =>
    cases dryRun with
    | true =>
      rw [metricsStep_dryRun, retain_dryRun]
      exact ⟨h.past.trans htime, h.rows, since, hsince, hfresh⟩
    | false =>
      rw [metricsStep_retain]
      replace htime : s.clock ≤ (now : WithBot ℤ) := htime
      refine ⟨le_rfl, ?_, [], (List.append_nil _).symm, nofun⟩
      refine (h.retained htime).trans ?_
      refine List.filter_congr fun t _ => decide_eq_decide.mpr ?_
      exact sub_le_iff_le_add.trans WithBot.coe_le_coe.symm

variable (week) in
/-- The counts are of the rows inserted up to the latest run. -/
def Counted (s : MetricsHistory) : Prop :=
  ∀ w, s.db.weekCount w = s.counted.countP (week · = w)

/-- A count of what a filter keeps is short by what it drops. -/
theorem countP_filter_eq_iff {p q : ℤ → Bool} {xs : List ℤ} :
    (xs.filter p).countP q = xs.countP q ↔ ∀ x ∈ xs, q x = true → p x = true := by
  rw [List.countP_eq_countP_filter_add xs q p, left_eq_add, List.countP_eq_zero]
  simp only [List.mem_filter, Bool.not_eq_true', and_imp]
  refine forall₂_congr fun x _ => ?_
  cases p x <;> cases q x <;> decide

/-- **One event.** The counts stay right exactly when no week with rows left has lost any. -/
theorem counted_step (s : MetricsHistory) (e : MetricsEvent) (h : Timed s)
    (hq : Counted week s) : Counted week (metricsStep week s e) ↔ NoWeekCut week s e := by
  obtain ⟨since, hsince, hfresh⟩ := h.fresh
  cases e with
  | insert t => exact iff_of_true hq trivial
  | retain now dryRun =>
    cases dryRun with
    | true =>
      rw [metricsStep_dryRun, retain_dryRun]
      exact iff_of_true hq trivial
    | false =>
      rw [metricsStep_retain]
      unfold Counted
      simp only [(retain_spec week now s.db).2]
      have hall : ∀ w, s.db.cycleRows.countP (week · = w) = s.inserted.countP (week · = w) ↔
          ∀ x ∈ s.inserted, week x = w → x ∈ s.db.cycleRows := by
        intro w
        rw [h.rows, countP_filter_eq_iff]
        refine forall₂_congr fun x hx => ?_
        rw [decide_eq_true_iff, List.mem_filter, and_iff_right hx]
      constructor
      · intro hcounts gone hgone hlost t ht hweek
        have hrows : s.db.cycleRows.filter (week · = week t) ≠ [] :=
          List.ne_nil_of_mem (List.mem_filter.mpr ⟨ht, decide_eq_true rfl⟩)
        have hcount := hcounts (week t)
        rw [if_neg hrows, hall] at hcount
        exact hlost (hcount gone hgone hweek.symm)
      · intro hcut w
        split
        · rename_i hnone
          rw [List.filter_eq_nil_iff] at hnone
          have hsinceNone : since.countP (week · = w) = 0 := by
            refine List.countP_eq_zero.mpr fun t ht => hnone t (h.mem_rows ?_ (hfresh t ht))
            rw [hsince]
            exact List.mem_append_right _ ht
          rw [hq, hsince, List.countP_append, hsinceNone, add_zero]
        · rename_i hsome
          obtain ⟨t, ht⟩ := List.exists_mem_of_ne_nil _ hsome
          obtain ⟨ht, hweek⟩ := List.mem_filter.mp ht
          rw [hall]
          intro x hx hxw
          by_contra hlost
          exact hcut x hx hlost t ht ((of_decide_eq_true hweek).trans hxw.symm)

/-! ## Runs -/

/-- Events whose times do not fall happen in time. -/
theorem inTime_run {es : List MetricsEvent} (h : (es.map MetricsEvent.time).Pairwise (· ≤ ·))
    {s : MetricsHistory} (hs : ∀ e ∈ es, s.clock ≤ (e.time : WithBot ℤ)) :
    Along (metricsStep week) (fun s e => s.clock ≤ (e.time : WithBot ℤ)) s es := by
  induction es generalizing s with
  | nil => trivial
  | cons e es ih =>
    obtain ⟨he, hes⟩ := List.pairwise_cons.mp h
    refine ⟨hs e List.mem_cons_self, ih hes fun e' he' => ?_⟩
    have hclock : (metricsStep week s e).clock = e.time := by
      cases e with
      | insert t => rfl
      | retain now dryRun => cases dryRun <;> rfl
    rw [hclock, WithBot.coe_le_coe]
    exact he e'.time (List.mem_map_of_mem he')

/-- While the counts are right, a run keeps the history when it keeps them right. -/
theorem keepsHistory_iff_counted (s : MetricsHistory) (e : MetricsEvent) (h : Timed s)
    (htime : s.clock ≤ (e.time : WithBot ℤ)) (hq : Counted week s) :
    KeepsHistory week s e ↔ Counted week (metricsStep week s e) := by
  cases e with
  | insert t => exact iff_of_true trivial hq
  | retain now dryRun =>
    cases dryRun with
    | true => exact iff_of_true trivial ((counted_step s (.retain now true) h hq).mpr trivial)
    | false =>
      replace htime : s.clock ≤ (now : WithBot ℤ) := htime
      have hrows : (s.db.retain week now false).cycleRows = _ := h.retained htime
      rw [metricsStep_retain, KeepsHistory, metricsStep_retain]
      refine ⟨fun hkept => hkept.weeks, fun hcounted => ⟨hcounted, ?_⟩⟩
      rw [hrows]

/-- **Aggregation loses no history**, run after run, exactly when no run finds rows of a week
that an earlier one has pruned from. -/
theorem keepsHistory_run_iff (week : ℤ → String) (db : Db) (hrows : db.cycleRows = [])
    (hcounts : ∀ w, db.weekCount w = 0) (es : List MetricsEvent)
    (hes : (es.map MetricsEvent.time).Pairwise (· ≤ ·)) :
    Along (metricsStep week) (KeepsHistory week) { db } es ↔
      Along (metricsStep week) (NoWeekCut week) { db } es := by
  refine along_congr_while_of (I := fun s => Timed s ∧ Counted week s) ?_ ?_ es ?_
    (inTime_run hes fun e _ => bot_le)
  · intro s e hi htime hkept
    exact ⟨timed_step s e hi.1 htime, (keepsHistory_iff_counted s e hi.1 htime hi.2).mp hkept⟩
  · intro s e hi htime
    exact (keepsHistory_iff_counted s e hi.1 htime hi.2).trans (counted_step s e hi.1 hi.2)
  · exact ⟨⟨le_rfl, hrows, [], rfl, nofun⟩, hcounts⟩

/-- Weeks, in microseconds from the midnight a Monday begins with. -/
def firstWeeks (t : ℤ) : String := if t < 7 * microsecondsPerDay then "2026-W01" else "2026-W02"

/-- Two rows of one week, and a run on each of the days that cut it. -/
def twoRuns : List MetricsEvent :=
  [.insert 0, .insert (4 * microsecondsPerDay), .retain (31 * microsecondsPerDay) false,
    .retain (32 * microsecondsPerDay) false]

/-- The second run counts one row and replaces the count of two. -/
theorem second_run_forgets :
    (twoRuns.map MetricsEvent.time).Pairwise (· ≤ ·) ∧
      ¬ Along (metricsStep firstWeeks) (KeepsHistory firstWeeks) { db := {} } twoRuns := by
  refine ⟨by decide, fun h => ?_⟩
  exact absurd (h.2.2.2.1.weeks "2026-W01") (by decide)

theorem keepsHistory_run_twoRuns :
    (Db.cycleRows {} = [] ∧ ∀ w, Db.weekCount {} w = 0) ∧
      (twoRuns.map MetricsEvent.time).Pairwise (· ≤ ·) ∧
      (Along (metricsStep firstWeeks) (KeepsHistory firstWeeks) { db := {} } twoRuns ↔
        Along (metricsStep firstWeeks) (NoWeekCut firstWeeks) { db := {} } twoRuns) :=
  ⟨⟨rfl, fun _ => rfl⟩, by decide,
    keepsHistory_run_iff firstWeeks {} rfl (fun _ => rfl) twoRuns (by decide)⟩

end Events

end TradingPlatform.Persistence
