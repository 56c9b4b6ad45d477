import TradingPlatform.Lib.Dict

/-! # Telemetry retention

A table is the timestamps of its rows, in microseconds: stamps are written as
ISO text in UTC, which sorts as the times do. The week of a row is a parameter,
`strftime('%Y-W%W')` on its stamp. -/

namespace TradingPlatform.Persistence

open TradingPlatform.Lib

structure RetentionPolicy where
  table : String
  permanent : Bool := false
  retentionDays : Option ℤ := none
  aggregateBeforePrune : Bool := false
  aggregateTable : Option String := none
  deriving DecidableEq

def cycleMetricsPolicy : RetentionPolicy where
  table := "cycle_metrics"
  retentionDays := some 30
  aggregateBeforePrune := true
  aggregateTable := some "cycle_metrics_weekly"

def loopHeartbeatsPolicy : RetentionPolicy where
  table := "loop_heartbeats"
  retentionDays := some 7

def permanentPolicies : List RetentionPolicy :=
  [ { table := "vtd_diagnostic_reports", permanent := true },
    { table := "psd_trial_ledger", permanent := true },
    { table := "config_hash_chain", permanent := true },
    { table := "vtd_quarantined_hypotheses", permanent := true },
    { table := "operator_alerts", permanent := true } ]

/-- `RETENTION_POLICIES`. -/
def retentionPolicies : List RetentionPolicy :=
  permanentPolicies ++ [loopHeartbeatsPolicy, cycleMetricsPolicy]

/-- `RETENTION_POLICIES.get(table)`. -/
def policyOf (table : String) : Option RetentionPolicy := retentionPolicies.find? (·.table = table)

/-- `KeyError` for a table without a policy, and the two named exceptions. -/
inductive RetentionError
  | noPolicy (table : String)
  | permanentTablePrune (table : String)
  | aggregateBeforePrune (table : String) (aggregateTable : Option String)
  deriving DecidableEq

/-- One row of an aggregate table; its key is the week. -/
structure WeeklyBucket where
  rowCount : ℕ
  rolledUtc : ℤ
  deriving DecidableEq

/-- The tables there are, and the aggregate tables there are. -/
structure Db where
  tables : Dict String (List ℤ) := .empty
  weekly : Dict String (Dict String WeeklyBucket) := .empty
  deriving DecidableEq

def microsecondsPerDay : ℤ := 86400000000

def cutoff (now days : ℤ) : ℤ := now - days * microsecondsPerDay

def countOlder (db : Db) (policy : RetentionPolicy) (cutoff : ℤ) : ℕ :=
  ((db.tables.get? policy.table).getD []).countP (· < cutoff)

/-- `DELETE FROM table WHERE stamp < cutoff`. -/
def deleteOlder (db : Db) (policy : RetentionPolicy) (cutoff : ℤ) : Db :=
  match db.tables.get? policy.table with
  | none => db
  | some rows => { db with tables := db.tables.set policy.table (rows.filter (cutoff ≤ ·)) }

def pruneTable (table : String) (db : Db) (now : ℤ) (dryRun aggregated : Bool) :
    Except RetentionError (ℕ × Db) :=
  match policyOf table with
  | none => .error (.noPolicy table)
  | some policy =>
    if policy.permanent then .error (.permanentTablePrune table)
    else if policy.aggregateBeforePrune && !aggregated then
      .error (.aggregateBeforePrune table policy.aggregateTable)
    else
      match policy.retentionDays with
      | none => .ok (0, db)
      | some days =>
        let cut := cutoff now days
        let n := countOlder db policy cut
        .ok (n, if !dryRun && decide (0 < n) then deleteOlder db policy cut else db)

section Week
variable (week : ℤ → String)

/-- `INSERT OR REPLACE` of a count for each week that has rows. -/
def rollUp (now : ℤ) (rows : List ℤ) (buckets : Dict String WeeklyBucket) :
    Dict String WeeklyBucket :=
  buckets.setAll Prod.fst (fun group => { rowCount := group.2.length, rolledUtc := now })
    (Dict.groupBy week rows).items

/-- The weekly buckets written, and the database. -/
def aggregateWeekly (table : String) (db : Db) (now : ℤ) : ℕ × Db :=
  match policyOf table with
  | none => (0, db)
  | some policy =>
    match policy.aggregateTable with
    | none => (0, db)
    | some aggregateTable =>
      match db.tables.get? policy.table with
      | none => (0, db)
      | some rows =>
        ((Dict.groupBy week rows).items.length,
          { db with
            weekly := db.weekly.set aggregateTable
              (rollUp week now rows ((db.weekly.get? aggregateTable).getD .empty)) })

/-- What `run_retention` reports of a table. -/
structure TableReport where
  table : String
  permanent : Bool
  pruned : ℕ
  weeklyBuckets : Option ℕ := none
  deriving DecidableEq

/-- One pass of the loop of `run_retention`. -/
def retainTable (now : ℤ) (dryRun : Bool) (s : Db × List TableReport) (policy : RetentionPolicy) :
    Except RetentionError (Db × List TableReport) :=
  if policy.permanent then
    .ok (s.1, s.2 ++ [{ table := policy.table, permanent := true, pruned := 0 }])
  else
    let rolls := policy.aggregateBeforePrune && !dryRun
    let (buckets, db) := if rolls then aggregateWeekly week policy.table s.1 now else (0, s.1)
    match pruneTable policy.table db now dryRun (rolls || policy.aggregateBeforePrune) with
    | .error e => .error e
    | .ok (pruned, db') =>
      .ok (db', s.2 ++
        [{ table := policy.table, permanent := false, pruned, weeklyBuckets := some buckets }])

def runRetention (now : ℤ) (dryRun : Bool) (db : Db) :
    Except RetentionError (Db × List TableReport) :=
  retentionPolicies.foldlM (retainTable week now dryRun) (db, [])

end Week

/-! ## What a prune does -/

/-- What is left of the rows of a table. -/
def keepRows (policy : RetentionPolicy) (now : ℤ) (rows : List ℤ) : List ℤ :=
  match policy.retentionDays with
  | none => rows
  | some days => rows.filter (cutoff now days ≤ ·)

theorem policyOf_table {table : String} {policy : RetentionPolicy}
    (h : policyOf table = some policy) : policy.table = table := by
  simpa using List.find?_some h

theorem deleteOlder_weekly (db : Db) (policy : RetentionPolicy) (cut : ℤ) :
    (deleteOlder db policy cut).weekly = db.weekly := by
  unfold deleteOlder
  split <;> rfl

theorem deleteOlder_tables (db : Db) (policy : RetentionPolicy) (cut : ℤ) (name : String) :
    (deleteOlder db policy cut).tables.get? name =
      if name = policy.table then (db.tables.get? name).map (·.filter (cut ≤ ·))
      else db.tables.get? name := by
  unfold deleteOlder
  split
  · rename_i hnone
    split
    · rename_i hname
      rw [hname, hnone]
      rfl
    · rfl
  · rename_i rows hrows
    dsimp only
    rw [Dict.get?_set]
    split
    · rename_i hname
      rw [hname, hrows]
      rfl
    · rfl

/-- Where nothing is older, the delete that is skipped would have removed nothing. -/
theorem filter_of_countOlder {db : Db} {policy : RetentionPolicy} {cut : ℤ}
    (h : ¬ 0 < countOlder db policy cut) :
    (db.tables.get? policy.table).map (·.filter (cut ≤ ·)) = db.tables.get? policy.table := by
  unfold countOlder at h
  cases hrows : db.tables.get? policy.table with
  | none => rfl
  | some rows =>
    rw [hrows, Option.getD_some] at h
    refine congrArg some (List.filter_eq_self.mpr fun t ht => ?_)
    simpa using List.countP_eq_zero.mp (Nat.eq_zero_of_not_pos h) t ht

/-- A table with a policy that is not permanent is pruned once it is aggregated. -/
theorem pruneTable_spec {table : String} {policy : RetentionPolicy}
    (hpolicy : policyOf table = some policy) (hperm : policy.permanent = false) (aggregated : Bool)
    (hagg : policy.aggregateBeforePrune = true → aggregated = true) (db : Db) (now : ℤ)
    (dryRun : Bool) :
    ∃ n db', pruneTable table db now dryRun aggregated = .ok (n, db') ∧ db'.weekly = db.weekly ∧
      ∀ name, db'.tables.get? name =
        if dryRun = false ∧ name = table then (db.tables.get? name).map (keepRows policy now)
        else db.tables.get? name := by
  have hname := policyOf_table hpolicy
  have hready : (policy.aggregateBeforePrune && !aggregated) = false := by
    rw [Bool.and_eq_false_imp]
    intro h
    rw [hagg h]
    rfl
  unfold pruneTable keepRows
  rw [hpolicy]
  dsimp only
  rw [hperm, hready, if_neg Bool.false_ne_true, if_neg Bool.false_ne_true]
  cases policy.retentionDays with
  | none => exact ⟨0, db, rfl, rfl, fun name => by simp⟩
  | some days =>
    refine ⟨_, _, rfl, ?_⟩
    cases dryRun with
    | true => exact ⟨rfl, fun name => (if_neg (fun h => nomatch h.1)).symm⟩
    | false =>
      by_cases hn : 0 < countOlder db policy (cutoff now days)
      · rw [Bool.not_false, Bool.true_and, if_pos (decide_eq_true hn)]
        refine ⟨deleteOlder_weekly _ _ _, fun name => ?_⟩
        rw [deleteOlder_tables, hname]
        simp only [true_and]
      · rw [Bool.not_false, Bool.true_and, if_neg (by simpa using hn)]
        refine ⟨rfl, fun name => ?_⟩
        split
        · rename_i h
          rw [h.2, ← hname]
          exact (filter_of_countOlder hn).symm
        · rfl

section Week
variable (week : ℤ → String)

/-! ## What a run does to the cycle metrics -/

def Db.cycleRows (db : Db) : List ℤ := (db.tables.get? "cycle_metrics").getD []

def Db.weekCount (db : Db) (w : String) : ℕ :=
  ((db.weekly.get? "cycle_metrics_weekly").bind (·.get? w)).elim 0 (·.rowCount)

/-- The new count of a week: of the rows there are, if there are any. -/
theorem get?_rollUp (now : ℤ) (rows : List ℤ) (buckets : Dict String WeeklyBucket) (w : String) :
    (rollUp week now rows buckets).get? w =
      if rows.filter (week · = w) = [] then buckets.get? w
      else some { rowCount := rows.countP (week · = w), rolledUtc := now } := by
  have hget := Dict.get?_groupBy week rows w
  unfold rollUp
  rw [Dict.get?_setAll, Dict.get?_tabulate]
  cases hkey : (Dict.keyBy Prod.fst (Dict.groupBy week rows).items).get? w with
  | none =>
    have hnone : (Dict.groupBy week rows).get? w = none := by
      rw [Dict.get?_eq_none]
      intro hmem
      obtain ⟨item, hitem, hw⟩ := List.mem_map.mp hmem
      exact (Dict.keyBy_eq_none _).mp hkey item hitem hw
    rw [hnone] at hget
    split at hget
    · rename_i hnil
      rw [if_pos hnil]
      rfl
    · cases hget
  | some item =>
    obtain ⟨hitem, rfl⟩ := Dict.mem_of_keyBy _ hkey
    obtain ⟨hgroup, hne⟩ := Dict.mem_groupBy week hitem
    rw [hgroup] at hne
    rw [if_neg hne, Option.map_some, Option.some_or, hgroup, List.countP_eq_length_filter]

theorem aggregateWeekly_tables (table : String) (db : Db) (now : ℤ) :
    (aggregateWeekly week table db now).2.tables = db.tables := by
  unfold aggregateWeekly
  split
  · rfl
  split
  · rfl
  split <;> rfl

/-- The weekly counts after the aggregation of the cycle metrics. -/
theorem weekCount_aggregateWeekly (db : Db) (now : ℤ) (w : String) :
    (aggregateWeekly week "cycle_metrics" db now).2.weekCount w =
      if db.cycleRows.filter (week · = w) = [] then db.weekCount w
      else db.cycleRows.countP (week · = w) := by
  have hpolicy : policyOf "cycle_metrics" = some cycleMetricsPolicy := by decide
  unfold aggregateWeekly
  rw [hpolicy]
  dsimp only [cycleMetricsPolicy]
  unfold Db.cycleRows
  cases hrows : db.tables.get? "cycle_metrics" with
  | none => rfl
  | some rows =>
    dsimp only [Option.getD_some]
    rw [Db.weekCount, Dict.get?_set_self, Option.bind_some, get?_rollUp]
    split
    · unfold Db.weekCount
      cases db.weekly.get? "cycle_metrics_weekly" <;> rfl
    · rfl

/-- One pass over a table that is not permanent. -/
theorem retainTable_spec (policy : RetentionPolicy) (hpolicy : policyOf policy.table = some policy)
    (hperm : policy.permanent = false) (now : ℤ) (s : Db × List TableReport) :
    ∃ s', retainTable week now false s policy = .ok s' ∧
      s'.1.weekly = (if policy.aggregateBeforePrune = true then
        (aggregateWeekly week policy.table s.1 now).2 else s.1).weekly ∧
      ∀ name, s'.1.tables.get? name =
        if name = policy.table then (s.1.tables.get? name).map (keepRows policy now)
        else s.1.tables.get? name := by
  cases hagg : policy.aggregateBeforePrune with
  | false =>
    obtain ⟨n, db', hprune, hweekly, htables⟩ :=
      pruneTable_spec hpolicy hperm false (fun h => hagg.symm.trans h) s.1 now false
    refine ⟨(db', s.2 ++ [{ table := policy.table, permanent := false, pruned := n
                            weeklyBuckets := some 0 }]), ?_, hweekly, fun name => ?_⟩
    · simp only [retainTable, hperm, hagg, hprune, Bool.false_and, Bool.or_false,
        Bool.false_eq_true, if_false]
    · simpa using htables name
  | true =>
    obtain ⟨n, db', hprune, hweekly, htables⟩ := pruneTable_spec hpolicy hperm true
      (fun _ => rfl) (aggregateWeekly week policy.table s.1 now).2 now false
    refine ⟨(db', s.2 ++ [{ table := policy.table, permanent := false, pruned := n
                            weeklyBuckets :=
                              some (aggregateWeekly week policy.table s.1 now).1 }]),
      ?_, hweekly, fun name => ?_⟩
    · simp only [retainTable, hperm, hagg, hprune, Bool.not_false, Bool.and_true, Bool.or_true,
        Bool.false_eq_true, if_false, if_true]
    · simpa [aggregateWeekly_tables] using htables name

/-- Permanent tables are passed over. -/
theorem retainTable_permanent (now : ℤ) (dryRun : Bool) :
    ∀ (policies : List RetentionPolicy) (s : Db × List TableReport),
      (∀ policy ∈ policies, policy.permanent = true) →
        ∃ reports, policies.foldlM (retainTable week now dryRun) s = .ok (s.1, reports)
  | [], s, _ => ⟨s.2, rfl⟩
  | policy :: policies, s, h => by
    have hskip : retainTable week now dryRun s policy =
        .ok (s.1, s.2 ++ [{ table := policy.table, permanent := true, pruned := 0 }]) :=
      if_pos (h policy List.mem_cons_self)
    rw [List.foldlM_cons, hskip]
    exact retainTable_permanent now dryRun policies _
      fun p hp => h p (List.mem_cons_of_mem _ hp)

/-- **A run of the retention** never raises; it counts the rows of each week that has any,
and keeps the rows of the window. -/
theorem runRetention_spec (now : ℤ) (db : Db) :
    ∃ s, runRetention week now false db = .ok s ∧
      s.1.cycleRows = db.cycleRows.filter (cutoff now 30 ≤ ·) ∧
      ∀ w, s.1.weekCount w =
        if db.cycleRows.filter (week · = w) = [] then db.weekCount w
        else db.cycleRows.countP (week · = w) := by
  obtain ⟨reports, hperm⟩ :=
    retainTable_permanent week now false permanentPolicies (db, []) (by decide)
  obtain ⟨beats, hbeats, hbeatsWeekly, hbeatsTables⟩ := retainTable_spec week loopHeartbeatsPolicy
    (by decide) rfl now (db, reports)
  obtain ⟨cycle, hcycle, hcycleWeekly, hcycleTables⟩ := retainTable_spec week cycleMetricsPolicy
    (by decide) rfl now beats
  have hrows : beats.1.tables.get? "cycle_metrics" = db.tables.get? "cycle_metrics" :=
    hbeatsTables "cycle_metrics"
  have hbeatsRows : beats.1.cycleRows = db.cycleRows := by rw [Db.cycleRows, hrows, Db.cycleRows]
  have hbeatsCount : beats.1.weekCount = db.weekCount := by
    funext w
    rw [Db.weekCount, hbeatsWeekly]
    rfl
  refine ⟨cycle, ?_, ?_, fun w => ?_⟩
  · rw [runRetention, retentionPolicies, List.foldlM_append, hperm]
    show (retainTable week now false (db, reports) loopHeartbeatsPolicy >>= fun s =>
      [cycleMetricsPolicy].foldlM (retainTable week now false) s) = _
    rw [hbeats]
    show (retainTable week now false beats cycleMetricsPolicy >>= fun s => pure s) = _
    rw [hcycle]
    rfl
  · have hkept : cycle.1.tables.get? "cycle_metrics" =
        (db.tables.get? "cycle_metrics").map (keepRows cycleMetricsPolicy now) :=
      hrows ▸ hcycleTables "cycle_metrics"
    rw [Db.cycleRows, hkept, Db.cycleRows]
    cases db.tables.get? "cycle_metrics" <;> rfl
  · have hcount : cycle.1.weekCount w =
        (aggregateWeekly week "cycle_metrics" beats.1 now).2.weekCount w := by
      rw [Db.weekCount, hcycleWeekly]
      rfl
    rw [hcount, weekCount_aggregateWeekly, hbeatsRows, hbeatsCount]

/-- A dry run prunes nothing and counts nothing. -/
theorem runRetention_dryRun (now : ℤ) (db : Db) :
    ∃ reports, runRetention week now true db = .ok (db, reports) := by
  obtain ⟨reports, hperm⟩ :=
    retainTable_permanent week now true permanentPolicies (db, []) (by decide)
  rw [runRetention, retentionPolicies, List.foldlM_append, hperm]
  exact ⟨_, rfl⟩

end Week

end TradingPlatform.Persistence
