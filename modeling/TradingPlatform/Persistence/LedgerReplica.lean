import TradingPlatform.Lib.Dict
import Mathlib.Algebra.Order.Ring.Rat
import Mathlib.Data.List.Induction

/-! # The attribution ledger and its replica

One flush runs an upsert of the same records against SQLite and against
Postgres. The two statements differ in the symbol they insert and in the columns
they set on a conflict. -/

namespace TradingPlatform.Persistence.LedgerReplica

open TradingPlatform.Lib

/-- Every column but the surrogate key. -/
structure LiveAttributionRecord where
  tradeId : String
  timestamp : String
  strategyId : String
  symbol : String
  side : String
  qty : ℚ
  pnl : ℚ
  regimeId : String
  sessionType : String
  liquidityState : String
  executionTactic : String
  championVersionId : Option ℤ
  aiPolicyExecutionState : String
  promotionId : Option String
  expectedPrice : Option ℚ := none
  filledPrice : Option ℚ := none
  slippagePct : Option ℚ := none
  executionDirectionType : Option String := none
  slipDirectionLongEntry : Option ℚ := none
  slipDirectionLongExit : Option ℚ := none
  slipDirectionShortEntry : Option ℚ := none
  slipDirectionShortExit : Option ℚ := none
  markout5bar : Option ℚ := none
  participationCapPct : Option ℚ := none
  metadataJson : Option String := none
  deriving DecidableEq

structure LedgerRow where
  attributionId : ℕ
  record : LiveAttributionRecord
  deriving DecidableEq

/-- Rows under their unique `trade_id`; every insert draws a number, also one that
ends as an update. -/
structure LedgerTable where
  rows : Dict String LedgerRow := .empty
  nextId : ℕ := 1

/-- `INSERT ... VALUES values ON CONFLICT(trade_id) DO UPDATE SET onConflict`. -/
structure Upsert where
  values : LiveAttributionRecord → LiveAttributionRecord
  /-- Of the stored and the excluded row. -/
  onConflict : LiveAttributionRecord → LiveAttributionRecord → LiveAttributionRecord

def LedgerTable.upsert (stmt : Upsert) (t : LedgerTable) (record : LiveAttributionRecord) :
    LedgerTable :=
  let excluded := stmt.values record
  let row : LedgerRow :=
    match t.rows.get? excluded.tradeId with
    | none => { attributionId := t.nextId, record := excluded }
    | some stored => { stored with record := stmt.onConflict stored.record excluded }
  { rows := t.rows.set excluded.tradeId row, nextId := t.nextId + 1 }

section Statements
variable (upper : String → String)

/-- `to_insert_tuple`, which puts the symbol in upper case. -/
def LiveAttributionRecord.toInsertTuple (record : LiveAttributionRecord) : LiveAttributionRecord :=
  { record with symbol := upper record.symbol }

def sqliteUpsert : Upsert where
  values := LiveAttributionRecord.toInsertTuple upper
  onConflict stored excluded :=
    { stored with
      pnl := excluded.pnl
      slippagePct := excluded.slippagePct
      executionDirectionType := excluded.executionDirectionType
      slipDirectionLongEntry := excluded.slipDirectionLongEntry
      slipDirectionLongExit := excluded.slipDirectionLongExit
      slipDirectionShortEntry := excluded.slipDirectionShortEntry
      slipDirectionShortExit := excluded.slipDirectionShortExit
      markout5bar := excluded.markout5bar.or stored.markout5bar
      metadataJson := excluded.metadataJson }

def postgresUpsert : Upsert where
  values := id
  onConflict stored excluded :=
    { stored with
      pnl := excluded.pnl
      slippagePct := excluded.slippagePct
      metadataJson := excluded.metadataJson }

structure Stores where
  sqlite : LedgerTable := {}
  postgres : LedgerTable := {}

/-- Both stores are reachable and take the batch. -/
def flushTradeAttributionBatch (s : Stores) (records : List LiveAttributionRecord) : Stores where
  sqlite := records.foldl (LedgerTable.upsert (sqliteUpsert upper)) s.sqlite
  postgres := records.foldl (LedgerTable.upsert postgresUpsert) s.postgres

end Statements

/-! ## What an upsert stores -/

/-- What the records of one trade come to. -/
def Upsert.stored (stmt : Upsert) (records : List LiveAttributionRecord) :
    Option LiveAttributionRecord :=
  records.foldl (fun stored record =>
    some (stored.elim (stmt.values record) fun s => stmt.onConflict s (stmt.values record))) none

/-- The records of a trade, in the order they were flushed. -/
def recordsOf (tradeId : String) (records : List LiveAttributionRecord) :
    List LiveAttributionRecord :=
  records.filter (·.tradeId = tradeId)

theorem Upsert.stored_concat (stmt : Upsert) (records : List LiveAttributionRecord)
    (record : LiveAttributionRecord) :
    stmt.stored (records ++ [record]) =
      some ((stmt.stored records).elim (stmt.values record)
        fun s => stmt.onConflict s (stmt.values record)) :=
  List.foldl_concat ..

theorem recordsOf_concat (tradeId : String) (records : List LiveAttributionRecord)
    (record : LiveAttributionRecord) :
    recordsOf tradeId (records ++ [record]) =
      recordsOf tradeId records ++ if record.tradeId = tradeId then [record] else [] := by
  rw [recordsOf, List.filter_append, ← recordsOf]
  congr 1
  by_cases h : record.tradeId = tradeId <;> simp [h]

/-- The rows are the trades' records; the numbers they carry do not depend on the statement. -/
theorem get?_upserts (stmt stmt' : Upsert) (hkey : ∀ r, (stmt.values r).tradeId = r.tradeId)
    (hkey' : ∀ r, (stmt'.values r).tradeId = r.tradeId) (records : List LiveAttributionRecord) :
    (records.foldl (LedgerTable.upsert stmt) {}).nextId =
        (records.foldl (LedgerTable.upsert stmt') {}).nextId ∧
      ∀ tradeId,
        ((records.foldl (LedgerTable.upsert stmt) {}).rows.get? tradeId).map (·.record) =
          stmt.stored (recordsOf tradeId records) ∧
        ((records.foldl (LedgerTable.upsert stmt) {}).rows.get? tradeId).map (·.attributionId) =
          ((records.foldl (LedgerTable.upsert stmt') {}).rows.get? tradeId).map
            (·.attributionId) := by
  induction records using List.reverseRecOn with
  | nil => exact ⟨rfl, fun _ => ⟨rfl, rfl⟩⟩
  | append_singleton records record ih =>
    obtain ⟨hnext, hrows⟩ := ih
    rw [List.foldl_concat, List.foldl_concat]
    generalize records.foldl (LedgerTable.upsert stmt) {} = t at *
    generalize records.foldl (LedgerTable.upsert stmt') {} = t' at *
    refine ⟨congrArg (· + 1) hnext, fun tradeId => ?_⟩
    unfold LedgerTable.upsert
    dsimp only
    rw [hkey, hkey', Dict.get?_set, Dict.get?_set, recordsOf_concat]
    obtain ⟨hrecord, hid⟩ := hrows tradeId
    by_cases hsame : tradeId = record.tradeId
    case neg =>
      rw [if_neg hsame, if_neg hsame, if_neg (Ne.symm hsame), List.append_nil]
      exact ⟨hrecord, hid⟩
    subst hsame
    rw [if_pos rfl, if_pos rfl, if_pos rfl, Upsert.stored_concat, ← hrecord]
    cases hrow : t.rows.get? record.tradeId with
    | none =>
      rw [hrow, Option.map_none, eq_comm, Option.map_eq_none_iff] at hid
      rw [hid]
      exact ⟨rfl, congrArg some hnext⟩
    | some row =>
      rw [hrow, Option.map_some, eq_comm, Option.map_eq_some_iff] at hid
      obtain ⟨row', hrow', hid⟩ := hid
      rw [hrow']
      exact ⟨rfl, congrArg some hid.symm⟩

/-! ## One trade -/

variable {upper : String → String}

/-- The trade's last record; `first` when there is no other. -/
abbrev lastOf (first : LiveAttributionRecord) (rest : List LiveAttributionRecord) :
    LiveAttributionRecord :=
  rest.getLast?.getD first

theorem lastOf_concat (first : LiveAttributionRecord) (rest : List LiveAttributionRecord)
    (record : LiveAttributionRecord) : lastOf first (rest ++ [record]) = record := by
  rw [lastOf, List.getLast?_concat]
  rfl

theorem sqlite_stored (first : LiveAttributionRecord) (rest : List LiveAttributionRecord) :
    (sqliteUpsert upper).stored (first :: rest) =
      some { first with
        symbol := upper first.symbol
        pnl := (lastOf first rest).pnl
        slippagePct := (lastOf first rest).slippagePct
        executionDirectionType := (lastOf first rest).executionDirectionType
        slipDirectionLongEntry := (lastOf first rest).slipDirectionLongEntry
        slipDirectionLongExit := (lastOf first rest).slipDirectionLongExit
        slipDirectionShortEntry := (lastOf first rest).slipDirectionShortEntry
        slipDirectionShortExit := (lastOf first rest).slipDirectionShortExit
        markout5bar := ((first :: rest).filterMap (·.markout5bar)).getLast?
        metadataJson := (lastOf first rest).metadataJson } := by
  induction rest using List.reverseRecOn with
  | nil =>
    have hmarkout : ([first].filterMap (·.markout5bar)).getLast? = first.markout5bar := by
      cases h : first.markout5bar <;> simp [h]
    rw [hmarkout]
    rfl
  | append_singleton rest record ih =>
    rw [← List.cons_append, Upsert.stored_concat, ih]
    have hmarkout : ((first :: rest ++ [record]).filterMap (·.markout5bar)).getLast? =
        record.markout5bar.or ((first :: rest).filterMap (·.markout5bar)).getLast? := by
      rw [List.filterMap_append, List.getLast?_append]
      cases h : record.markout5bar <;> simp [h]
    rw [hmarkout, lastOf_concat]
    rfl

theorem postgres_stored (first : LiveAttributionRecord) (rest : List LiveAttributionRecord) :
    postgresUpsert.stored (first :: rest) =
      some { first with
        pnl := (lastOf first rest).pnl
        slippagePct := (lastOf first rest).slippagePct
        metadataJson := (lastOf first rest).metadataJson } := by
  induction rest using List.reverseRecOn with
  | nil => rfl
  | append_singleton rest record ih =>
    rw [← List.cons_append, Upsert.stored_concat, ih, lastOf_concat]
    rfl

/-- What Postgres does not update did not change: the symbol came in upper case, the
last record has the first's direction and its four slips, and the last markout
there is, is the first record's. -/
structure Unrevised (upper : String → String) (first last : LiveAttributionRecord)
    (markouts : List ℚ) : Prop where
  symbol : upper first.symbol = first.symbol
  direction : last.executionDirectionType = first.executionDirectionType
  longEntry : last.slipDirectionLongEntry = first.slipDirectionLongEntry
  longExit : last.slipDirectionLongExit = first.slipDirectionLongExit
  shortEntry : last.slipDirectionShortEntry = first.slipDirectionShortEntry
  shortExit : last.slipDirectionShortExit = first.slipDirectionShortExit
  markout : markouts.getLast? = first.markout5bar

/-- Of each trade, only what both statements set was revised. -/
def RevisesOnlyShared (upper : String → String) (records : List LiveAttributionRecord) : Prop :=
  ∀ tradeId, ∀ first ∈ (recordsOf tradeId records).head?,
    ∀ last ∈ (recordsOf tradeId records).getLast?,
      Unrevised upper first last ((recordsOf tradeId records).filterMap (·.markout5bar))

theorem stored_eq_iff (records : List LiveAttributionRecord) :
    (sqliteUpsert upper).stored records = postgresUpsert.stored records ↔
      ∀ first ∈ records.head?, ∀ last ∈ records.getLast?,
        Unrevised upper first last (records.filterMap (·.markout5bar)) := by
  cases records with
  | nil =>
    refine iff_of_true rfl fun first hfirst => ?_
    cases hfirst
  | cons first rest =>
    have hlast : (first :: rest).getLast? = some (lastOf first rest) := by
      rw [List.getLast?_cons]
    rw [sqlite_stored, postgres_stored, hlast]
    constructor
    · rintro h _ ⟨⟩ _ ⟨⟩
      have h := Option.some.inj h
      exact {
        symbol := congrArg (·.symbol) h
        direction := congrArg (·.executionDirectionType) h
        longEntry := congrArg (·.slipDirectionLongEntry) h
        longExit := congrArg (·.slipDirectionLongExit) h
        shortEntry := congrArg (·.slipDirectionShortEntry) h
        shortExit := congrArg (·.slipDirectionShortExit) h
        markout := congrArg (·.markout5bar) h }
    · intro h
      obtain ⟨hsymbol, hdirection, hle, hlx, hse, hsx, hmarkout⟩ := h _ rfl _ rfl
      rw [hsymbol, hdirection, hle, hlx, hse, hsx, hmarkout]

/-! ## The replica -/

/-- The stores after a sequence of flushes. -/
def flushed (upper : String → String) (batches : List (List LiveAttributionRecord)) : Stores :=
  batches.foldl (flushTradeAttributionBatch upper) {}

/-- Every trade has the same row in both stores, or none in either. -/
def ReplicaAgrees (s : Stores) : Prop :=
  ∀ tradeId, s.postgres.rows.get? tradeId = s.sqlite.rows.get? tradeId

theorem flushed_eq (batches : List (List LiveAttributionRecord)) (s : Stores) :
    batches.foldl (flushTradeAttributionBatch upper) s =
      flushTradeAttributionBatch upper s batches.flatten := by
  induction batches generalizing s with
  | nil => rfl
  | cons batch rest ih =>
    rw [List.foldl_cons, ih, List.flatten_cons]
    unfold flushTradeAttributionBatch
    rw [List.foldl_append, List.foldl_append]

/-- **The replica agrees with the ledger** exactly when, of each trade, the records
flushed revise only what both statements set, and name the symbol in upper case. -/
theorem replicaAgrees_iff (upper : String → String)
    (batches : List (List LiveAttributionRecord)) :
    ReplicaAgrees (flushed upper batches) ↔ RevisesOnlyShared upper batches.flatten := by
  rw [flushed, flushed_eq]
  refine forall_congr' fun tradeId => ?_
  rw [← stored_eq_iff]
  obtain ⟨hsqlite, hid⟩ := (get?_upserts (sqliteUpsert upper) postgresUpsert (fun _ => rfl)
    (fun _ => rfl) batches.flatten).2 tradeId
  obtain ⟨hpostgres, -⟩ := (get?_upserts postgresUpsert postgresUpsert (fun _ => rfl)
    (fun _ => rfl) batches.flatten).2 tradeId
  rw [← hsqlite, ← hpostgres]
  show (batches.flatten.foldl (LedgerTable.upsert postgresUpsert) {}).rows.get? tradeId =
    (batches.flatten.foldl (LedgerTable.upsert (sqliteUpsert upper)) {}).rows.get? tradeId ↔ _
  generalize (batches.flatten.foldl (LedgerTable.upsert postgresUpsert) {}).rows.get? tradeId = p
    at *
  generalize (batches.flatten.foldl (LedgerTable.upsert (sqliteUpsert upper)) {}).rows.get?
    tradeId = q at *
  constructor
  · rintro rfl
    rfl
  · intro hrecord
    cases p with
    | none => cases q with
      | none => rfl
      | some row => cases hrecord
    | some row => cases q with
      | none => cases hrecord
      | some row' =>
        obtain ⟨id, record⟩ := row
        obtain ⟨id', record'⟩ := row'
        obtain rfl : record' = record := Option.some.inj hrecord
        obtain rfl : id' = id := Option.some.inj hid
        rfl

def qqqTrade : LiveAttributionRecord :=
  { tradeId := "t1", timestamp := "2024-01-02T15:00:00+00:00", strategyId := "mr_qqq"
    symbol := "QQQ", side := "buy", qty := 10, pnl := 0, regimeId := "calm"
    sessionType := "regular", liquidityState := "normal", executionTactic := "ioc"
    championVersionId := none, aiPolicyExecutionState := "PASSIVE", promotionId := none }

/-- The markout that arrives five bars later stays out of the replica. -/
theorem late_markout_not_replicated :
    ¬ ReplicaAgrees (flushed id [[qqqTrade], [{ qqqTrade with markout5bar := some 1 }]]) := by
  intro h
  exact absurd (h "t1") (by decide +kernel)

end TradingPlatform.Persistence.LedgerReplica
