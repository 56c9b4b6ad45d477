import TradingPlatform.Lib.IsoTime
import TradingPlatform.Lib.JsonText
import TradingPlatform.Lib.Tally
import TradingPlatform.Persistence.LedgerReplica
import Mathlib.Data.List.Dedup

/-! # Attribution of live trades

A trade close is decorated with the session, the tactic and the direction of its
execution and written to the ledger, where a later close of the same trade revises
the row of the first. A row of a window is read back by the text of its time. -/

namespace TradingPlatform.Engine.Attribution

open TradingPlatform.Lib
open TradingPlatform.Persistence.LedgerReplica

/-! ## Directions of an execution -/

inductive ExecutionDirection
  | longEntry
  | longExit
  | shortEntry
  | shortExit
  deriving DecidableEq

namespace ExecutionDirection

def value : ExecutionDirection → String
  | longEntry => "long_entry"
  | longExit => "long_exit"
  | shortEntry => "short_entry"
  | shortExit => "short_exit"

end ExecutionDirection

def executionDirectionTypes : List ExecutionDirection :=
  [.longEntry, .longExit, .shortEntry, .shortExit]

/-- `direction in EXECUTION_DIRECTION_TYPES`. -/
def ofValue? (direction : String) : Option ExecutionDirection :=
  executionDirectionTypes.find? (·.value = direction)

@[simp] theorem ofValue?_value (d : ExecutionDirection) : ofValue? d.value = some d := by
  cases d <;> rfl

theorem ofValue?_eq_some {direction : String} {d : ExecutionDirection} :
    ofValue? direction = some d ↔ direction = d.value := by
  refine ⟨fun h => ?_, fun h => h ▸ ofValue?_value d⟩
  have hfound := List.find?_some h
  exact (of_decide_eq_true hfound).symm

theorem ofValue?_eq_none {direction : String} :
    ofValue? direction = none ↔ ∀ d : ExecutionDirection, direction ≠ d.value := by
  refine ⟨fun h d hd => ?_, fun h => ?_⟩
  · rw [hd, ofValue?_value] at h
    cases h
  · exact List.find?_eq_none.mpr fun d _ => by simpa using (h d).symm

def classifyExecutionDirection (lower : String → String) (orderSide : String)
    (positionSideBefore : Option String) : ExecutionDirection :=
  let side := lower orderSide
  let prior := lower (positionSideBefore.elim "flat" fun p => if p = "" then "flat" else p)
  if prior = "long" then if side = "sell" then .longExit else .longEntry
  else if prior = "short" then if side = "buy" then .shortExit else .shortEntry
  else if side = "buy" then .longEntry else .shortEntry

/-- The slippage in the column of its direction; an unknown direction has none. -/
def bucketDirectionalSlippage (executionDirectionType : String) (slippagePct : ℚ)
    (d : ExecutionDirection) : Option ℚ :=
  if executionDirectionType = d.value then some slippagePct else none

def slipDirection (row : LiveAttributionRecord) : ExecutionDirection → Option ℚ
  | .longEntry => row.slipDirectionLongEntry
  | .longExit => row.slipDirectionLongExit
  | .shortEntry => row.slipDirectionShortEntry
  | .shortExit => row.slipDirectionShortExit

def rowSlippageForDirection (row : LiveAttributionRecord) (d : ExecutionDirection) : Option ℚ :=
  match slipDirection row d with
  | some value => some value
  | none => if row.executionDirectionType.getD "" = d.value then row.slippagePct else none

/-! ## The record of a close -/

structure TradeAttributionInput where
  tradeId : String
  timestamp : Datetime
  strategyId : String
  symbol : String
  side : String
  qty : ℚ
  pnl : ℚ
  expectedPrice : ℚ
  filledPrice : ℚ
  slippagePct : ℚ
  barsHeld : ℤ := 0
  positionSideBefore : Option String := none
  executionDirectionType : Option String := none

structure ExecutionDriftDiagnostics where
  averageRealizedSlippagePct : ℚ
  modeledSlippagePct : ℚ
  driftMultiple : ℚ
  elevated : Bool
  critical : Bool

abbrev Metadata := Dict String (Doc String ℚ)

structure AttributionEnvironmentState where
  regimeId : String
  thinLiquidityActive : Bool := false
  executionDiagnostics : Option ExecutionDriftDiagnostics := none
  championVersionId : Option ℤ := none
  aiPolicyExecutionState : String
  promotionId : Option String := none
  participationCapPct : Option ℚ := none
  markout5bar : Option ℚ := none
  extraMetadata : Metadata := .empty

structure PromotionRow where
  logId : ℕ
  symbol : String
  regime : String
  actionType : String
  newCandidateId : Option String

structure ChampionRow where
  symbol : String
  regime : String
  runId : Option ℤ

/-- The promotion rows in the order of their `log_id`, and the champions, whose table
may be missing. -/
structure Vault where
  promotionLedger : List PromotionRow := []
  regimeChampions : Option (List ChampionRow) := none

/-- What comes from Python and from the router: the case of a text, the text of a
document, the offset of the system's zone at a naive time, and the session names. -/
structure Host where
  upper : String → String
  lower : String → String
  dumps : Metadata → String
  localOffset : Datetime → ℤ
  localOffset_lt : ∀ d, (localOffset d).natAbs < 86400000000
  resolveTradingSession : Datetime → String
  sessionOpeningCross : String
  sessionMiddayDoldrums : String
  sessionClosingImbalance : String
  thinLiquiditySubLabel : String

def liquidityNormal : String := "NORMAL"
def liquidityThin : String := "THIN"
def executionPassive : String := "PASSIVE"
def executionAggressive : String := "AGGRESSIVE"
def executionMarketFallback : String := "MARKET_FALLBACK"

def resolveLiquidityState (thinLiquidityActive : Bool) : String :=
  if thinLiquidityActive then liquidityThin else liquidityNormal

def resolveExecutionTactic (diagnostics : Option ExecutionDriftDiagnostics)
    (brokerTactic : Option String) : String :=
  if brokerTactic = some "passive_twap" then executionPassive
  else if brokerTactic = some "aggressive_ioc_limit" ∨ brokerTactic = some "market_fallback" then
    executionAggressive
  else match diagnostics with
    | none => executionAggressive
    | some diag =>
      if diag.elevated && !diag.critical then executionPassive
      else if diag.critical then executionMarketFallback
      else executionAggressive

section Build
variable (h : Host)

def resolvePromotionId (vault : Vault) (symbol regimeId : String) : Option String :=
  let matching := vault.promotionLedger.filter fun row =>
    row.symbol = h.upper symbol ∧ row.regime = regimeId ∧ row.actionType = "PROMOTION"
  matching.getLast?.map fun row =>
    let suffix := row.newCandidateId.elim "unknown" fun c => if c = "" then "unknown" else c
    "promo_" ++ toString row.logId ++ ":" ++ suffix

def resolveChampionVersionId (vault : Vault) (symbol regimeId : String)
    (fallback : Option ℤ) : Option ℤ :=
  match fallback with
  | some version => some version
  | none => do
    let champions ← vault.regimeChampions
    let row ← champions.find? fun row => row.symbol = h.upper symbol ∧ row.regime = regimeId
    row.runId

def driftDocument (diag : ExecutionDriftDiagnostics) : Doc String ℚ :=
  .obj [("average_realized_slippage_pct", .float diag.averageRealizedSlippagePct),
    ("modeled_slippage_pct", .float diag.modeledSlippagePct),
    ("drift_multiple", .float diag.driftMultiple), ("elevated", .bool diag.elevated),
    ("critical", .bool diag.critical)]

def executionDirectionOf (trade : TradeAttributionInput) : String :=
  match trade.executionDirectionType.filter (· ≠ "") with
  | some direction => direction
  | none =>
    (classifyExecutionDirection h.lower trade.side trade.positionSideBefore).value

def metadataOf (trade : TradeAttributionInput) (environment : AttributionEnvironmentState) :
    Metadata :=
  let base : Metadata := Dict.empty.setAll Prod.fst Prod.snd
    [("bars_held", .int trade.barsHeld),
      ("session_labels", .obj [("opening", .str h.sessionOpeningCross),
        ("midday", .str h.sessionMiddayDoldrums), ("close", .str h.sessionClosingImbalance)]),
      ("thin_liquidity_sub_label",
        if environment.thinLiquidityActive then .str h.thinLiquiditySubLabel else .null)]
  let extended := base.setAll Prod.fst Prod.snd environment.extraMetadata.items
  let drifted := environment.executionDiagnostics.elim extended fun diag =>
    extended.set "execution_drift" (driftDocument diag)
  drifted.set "execution_direction_type" (.str (executionDirectionOf h trade))

/-- It raises where the time has no UTC text. -/
def buildAttributionRecord (vault : Vault) (trade : TradeAttributionInput)
    (environment : AttributionEnvironmentState) : Option LiveAttributionRecord :=
  trade.timestamp.astimezoneUtc.map fun ts =>
    let direction := executionDirectionOf h trade
    let slip := bucketDirectionalSlippage direction trade.slippagePct
    { tradeId := trade.tradeId
      timestamp := ts.isoformat
      strategyId := trade.strategyId
      symbol := h.upper trade.symbol
      side := trade.side
      qty := trade.qty
      pnl := trade.pnl
      regimeId := environment.regimeId
      sessionType := h.resolveTradingSession trade.timestamp
      liquidityState := resolveLiquidityState environment.thinLiquidityActive
      executionTactic := resolveExecutionTactic environment.executionDiagnostics none
      championVersionId := resolveChampionVersionId h vault trade.symbol environment.regimeId
        environment.championVersionId
      aiPolicyExecutionState := environment.aiPolicyExecutionState
      promotionId := (environment.promotionId.filter (· ≠ "")).or
        (resolvePromotionId h vault trade.symbol environment.regimeId)
      expectedPrice := some trade.expectedPrice
      filledPrice := some trade.filledPrice
      slippagePct := some trade.slippagePct
      executionDirectionType := some direction
      slipDirectionLongEntry := slip .longEntry
      slipDirectionLongExit := slip .longExit
      slipDirectionShortEntry := slip .shortEntry
      slipDirectionShortExit := slip .shortExit
      markout5bar := environment.markout5bar
      participationCapPct := environment.participationCapPct
      metadataJson := some (h.dumps (metadataOf h trade environment)) }

/-- The time itself, or the local time that `astimezone` takes a naive one for. -/
def Host.localised (h : Host) (d : Datetime) : Datetime :=
  { d with
    utcoffset := some (d.utcoffset.getD (h.localOffset d))
    offset_lt := by
      rintro o ⟨⟩
      cases hoffset : d.utcoffset with
      | none => exact h.localOffset_lt d
      | some o => exact d.offset_lt o hoffset }

/-- The ledger rows of a window in the order of their times; it raises where a bound
has no UTC text. -/
def fetchAttributionRows (t : LedgerTable) (start stop : Datetime) (symbol : Option String) :
    Option (List LedgerRow) := do
  let startIso ← (h.localised start).astimezoneUtc.map (·.isoformat)
  let endIso ← (h.localised stop).astimezoneUtc.map (·.isoformat)
  let rows := (t.rows.items.map Prod.snd).filter fun row =>
    startIso ≤ row.record.timestamp ∧ row.record.timestamp < endIso ∧
      ∀ s ∈ symbol, row.record.symbol = h.upper s
  some (StableSort.sortBy (·.record.timestamp) rows)

end Build

/-! ## Trades -/

/-- A close and the record built of it. -/
structure Logged (h : Host) where
  vault : Vault
  trade : TradeAttributionInput
  environment : AttributionEnvironmentState
  record : LiveAttributionRecord
  built : buildAttributionRecord h vault trade environment = some record

variable {h : Host}

/-- The ledger after the batches are written. -/
def ledgerOf (batches : List (List (Logged h))) : LedgerTable :=
  (flushed h.upper (batches.map (·.map (·.record)))).sqlite

/-- The first and the last close of one trade, and the last markout it was given. -/
structure Settled (h : Host) where
  first : Logged h
  last : Logged h
  markout : Option ℚ

def closesOf (tradeId : String) (log : List (Logged h)) : List (Logged h) :=
  log.filter (·.trade.tradeId = tradeId)

def settle : List (Logged h) → Option (Settled h)
  | [] => none
  | first :: rest =>
    some { first := first
           last := rest.getLast?.getD first
           markout := ((first :: rest).filterMap (·.environment.markout5bar)).getLast? }

/-- The trades of a log, one for each id. -/
def settled (log : List (Logged h)) : List (Settled h) :=
  (log.map (·.trade.tradeId)).dedup.filterMap fun tradeId => settle (closesOf tradeId log)

/-- The trade was first closed in the window, under the symbol if one is asked for; a naive
bound is a local time. -/
def InWindow (start stop : Datetime) (symbol : Option String) (s : Settled h) : Prop :=
  (h.localised start).instant.micros ≤ s.first.trade.timestamp.instant.micros ∧
    s.first.trade.timestamp.instant.micros < (h.localised stop).instant.micros ∧
    ∀ sym ∈ symbol, h.upper (h.upper s.first.trade.symbol) = h.upper sym

instance (start stop : Datetime) (symbol : Option String) :
    DecidablePred (InWindow (h := h) start stop symbol) := fun _ => by
  unfold InWindow
  infer_instance

/-- The row of a trade: of the first close but for what the last revised. -/
def Settled.row (s : Settled h) : LiveAttributionRecord :=
  { s.first.record with
    symbol := h.upper s.first.record.symbol
    pnl := s.last.record.pnl
    slippagePct := s.last.record.slippagePct
    executionDirectionType := s.last.record.executionDirectionType
    slipDirectionLongEntry := s.last.record.slipDirectionLongEntry
    slipDirectionLongExit := s.last.record.slipDirectionLongExit
    slipDirectionShortEntry := s.last.record.slipDirectionShortEntry
    slipDirectionShortExit := s.last.record.slipDirectionShortExit
    markout5bar := s.markout
    metadataJson := s.last.record.metadataJson }

/-! ## What a record says of its close -/

/-- The time of the close in UTC. -/
theorem Logged.utc (l : Logged h) :
    ∃ ts : Datetime, l.trade.timestamp.astimezoneUtc = some ts ∧
      l.record.timestamp = ts.isoformat := by
  obtain ⟨ts, hts, hrecord⟩ := Option.map_eq_some_iff.mp l.built
  exact ⟨ts, hts, by rw [← hrecord]⟩

theorem Logged.tradeId (l : Logged h) : l.record.tradeId = l.trade.tradeId := by
  obtain ⟨_, _, hrecord⟩ := Option.map_eq_some_iff.mp l.built
  rw [← hrecord]

theorem Logged.pnl (l : Logged h) : l.record.pnl = l.trade.pnl := by
  obtain ⟨_, _, hrecord⟩ := Option.map_eq_some_iff.mp l.built
  rw [← hrecord]

theorem Logged.symbol (l : Logged h) : l.record.symbol = h.upper l.trade.symbol := by
  obtain ⟨_, _, hrecord⟩ := Option.map_eq_some_iff.mp l.built
  rw [← hrecord]

theorem Logged.sessionType (l : Logged h) :
    l.record.sessionType = h.resolveTradingSession l.trade.timestamp := by
  obtain ⟨_, _, hrecord⟩ := Option.map_eq_some_iff.mp l.built
  rw [← hrecord]

theorem Logged.markout (l : Logged h) : l.record.markout5bar = l.environment.markout5bar := by
  obtain ⟨_, _, hrecord⟩ := Option.map_eq_some_iff.mp l.built
  rw [← hrecord]

/-- A record read back has the close's slippage in the close's direction only. -/
theorem Logged.direction (l : Logged h) :
    l.record.executionDirectionType = some (executionDirectionOf h l.trade) ∧
      l.record.slippagePct = some l.trade.slippagePct ∧
      ∀ d, slipDirection l.record d =
        bucketDirectionalSlippage (executionDirectionOf h l.trade) l.trade.slippagePct d := by
  obtain ⟨_, _, hrecord⟩ := Option.map_eq_some_iff.mp l.built
  rw [← hrecord]
  refine ⟨rfl, rfl, fun d => ?_⟩
  cases d <;> rfl

/-! ## The rows are the trades -/

theorem recordsOf_map (tradeId : String) (log : List (Logged h)) :
    recordsOf tradeId (log.map (·.record)) = (closesOf tradeId log).map (·.record) := by
  rw [recordsOf, List.filter_map, closesOf]
  congr 1
  refine List.filter_congr fun l _ => ?_
  simp only [Function.comp_apply, l.tradeId]

theorem stored_map (closes : List (Logged h)) :
    (sqliteUpsert h.upper).stored (closes.map (·.record)) = (settle closes).map Settled.row := by
  cases closes with
  | nil => rfl
  | cons first rest =>
    have hlast : lastOf first.record (rest.map (·.record)) =
        (rest.getLast?.getD first).record := by
      rw [lastOf, List.getLast?_map]
      cases rest.getLast? <;> rfl
    have hmarkout : (first.record :: rest.map (·.record)).filterMap (·.markout5bar) =
        (first :: rest).filterMap (·.environment.markout5bar) := by
      rw [← List.map_cons, List.filterMap_map]
      exact List.filterMap_congr fun l _ => l.markout
    rw [List.map_cons, sqlite_stored, hlast, hmarkout]
    rfl

/-- The ledger has one row for each trade. -/
theorem ledger_rows (batches : List (List (Logged h))) :
    ((ledgerOf batches).rows.items.map fun p => p.2.record).Perm
      ((settled batches.flatten).map Settled.row) := by
  have hflat : (batches.map (·.map (·.record))).flatten =
      batches.flatten.map fun l : Logged h => l.record := List.map_flatten.symm
  have hledger : ledgerOf batches =
      (batches.flatten.map (·.record)).foldl (LedgerTable.upsert (sqliteUpsert h.upper)) {} := by
    rw [ledgerOf, flushed, flushed_eq, hflat]
    rfl
  have hrow : ∀ tradeId, ((ledgerOf batches).rows.get? tradeId).map (·.record) =
      (settle (closesOf tradeId batches.flatten)).map Settled.row := by
    intro tradeId
    obtain ⟨hstored, -⟩ := (get?_upserts (sqliteUpsert h.upper) (sqliteUpsert h.upper)
      (fun _ => rfl) (fun _ => rfl) (batches.flatten.map (·.record))).2 tradeId
    rw [hledger, hstored, recordsOf_map, stored_map]
  have hknown : ∀ tradeId row, (ledgerOf batches).rows.get? tradeId = some row →
      tradeId ∈ (batches.flatten.map (·.trade.tradeId)).dedup := by
    intro tradeId row hget
    have hsome := hrow tradeId
    rw [hget, Option.map_some, eq_comm, Option.map_eq_some_iff] at hsome
    obtain ⟨s, hs, -⟩ := hsome
    rw [List.mem_dedup, List.mem_map]
    cases hcloses : closesOf tradeId batches.flatten with
    | nil =>
      rw [hcloses] at hs
      cases hs
    | cons first rest =>
      have hfirst : first ∈ closesOf tradeId batches.flatten := hcloses ▸ List.mem_cons_self
      obtain ⟨hmem, hid⟩ := List.mem_filter.mp hfirst
      exact ⟨first, hmem, of_decide_eq_true hid⟩
  refine (Tally.values_perm _ LedgerRow.record (List.nodup_dedup _) hknown).trans ?_
  rw [settled, List.map_filterMap]
  exact List.Perm.of_eq (List.filterMap_congr fun tradeId _ => hrow tradeId)

/-- The bounds of a window are compared as times. -/
theorem inWindow_row (s : Settled h) {start stop u v : Datetime} (symbol : Option String)
    (hstart : (h.localised start).astimezoneUtc = some u)
    (hstop : (h.localised stop).astimezoneUtc = some v) :
    (u.isoformat ≤ s.row.timestamp ∧ s.row.timestamp < v.isoformat ∧
      ∀ sym ∈ symbol, s.row.symbol = h.upper sym) ↔ InWindow start stop symbol s := by
  obtain ⟨ts, hts, htext⟩ := s.first.utc
  obtain ⟨hutc, hmicros⟩ := Datetime.astimezoneUtc_spec hts
  obtain ⟨hu, hstart⟩ := Datetime.astimezoneUtc_spec hstart
  obtain ⟨hv, hstop⟩ := Datetime.astimezoneUtc_spec hstop
  have hrow : s.row.timestamp = ts.isoformat := htext
  have hsymbol : s.row.symbol = h.upper (h.upper s.first.trade.symbol) :=
    congrArg h.upper s.first.symbol
  rw [InWindow, hrow, hsymbol, ← not_lt, Datetime.isoformat_lt_iff hutc hu,
    Datetime.isoformat_lt_iff hutc hv, hmicros, hstart, hstop, not_lt]

/-- **What is fetched** are the trades first closed in the window, each once. -/
theorem fetched_perm {batches : List (List (Logged h))} {start stop : Datetime}
    {symbol : Option String} {rows : List LedgerRow}
    (hfetch : fetchAttributionRows h (ledgerOf batches) start stop symbol = some rows) :
    (rows.map (·.record)).Perm
      (((settled batches.flatten).filter fun s => InWindow start stop symbol s).map Settled.row) := by
  unfold fetchAttributionRows at hfetch
  obtain ⟨_, hu, hfetch⟩ := Option.bind_eq_some_iff.mp hfetch
  obtain ⟨_, hv, hrows⟩ := Option.bind_eq_some_iff.mp hfetch
  obtain ⟨u, hstart, rfl⟩ := Option.map_eq_some_iff.mp hu
  obtain ⟨v, hstop, rfl⟩ := Option.map_eq_some_iff.mp hv
  obtain rfl := Option.some.inj hrows
  let kept (record : LiveAttributionRecord) : Bool :=
    u.isoformat ≤ record.timestamp ∧ record.timestamp < v.isoformat ∧
      ∀ sym ∈ symbol, record.symbol = h.upper sym
  have hkept : ((((ledgerOf batches).rows.items.map Prod.snd).filter fun row =>
      kept row.record).map (·.record)) =
        ((ledgerOf batches).rows.items.map fun p => p.2.record).filter kept := by
    rw [List.filter_map, List.filter_map, List.map_map]
    rfl
  have hwindow : ((settled batches.flatten).map Settled.row).filter kept =
      ((settled batches.flatten).filter fun s => InWindow start stop symbol s).map
        Settled.row := by
    rw [List.filter_map]
    congr 1
    refine List.filter_congr fun s _ => ?_
    exact decide_eq_decide.mpr (inWindow_row s symbol hstart hstop)
  refine ((StableSort.sortBy_perm _).map _).trans ?_
  rw [← hwindow]
  exact (List.Perm.of_eq hkept).trans ((ledger_rows batches).filter kept)

/-! ## A window of January -/

def deskHost : Host where
  upper := id
  lower := id
  dumps _ := "\x7b\"bars_held\":0,\"session_labels\":\x7b\"opening\":\"OPENING_CROSS\"," ++
    "\"midday\":\"MIDDAY_DOLDRUMS\",\"close\":\"CLOSING_IMBALANCE\"\x7d," ++
    "\"thin_liquidity_sub_label\":null,\"execution_direction_type\":\"long_exit\"\x7d"
  localOffset _ := -18000000000
  localOffset_lt _ := by decide
  resolveTradingSession _ := "MIDDAY_DOLDRUMS"
  sessionOpeningCross := "OPENING_CROSS"
  sessionMiddayDoldrums := "MIDDAY_DOLDRUMS"
  sessionClosingImbalance := "CLOSING_IMBALANCE"
  thinLiquiditySubLabel := "THIN_LIQUIDITY"

theorem in2024 : 1 ≤ 2024 ∧ 2024 ≤ 9999 := by decide

theorem inJanuary : 1 ≤ 1 ∧ 1 ≤ 12 := by decide

theorem second_of_month : 1 ≤ 2 ∧ 2 ≤ daysInMonth 2024 1 := by decide

theorem zero_lt_minute : 0 < 60 := by decide

theorem zero_lt_micros : 0 < 1000000 := by decide

def newYear : Datetime where
  year := 2024
  month := 1
  day := 1
  utcoffset := some 0
  year_range := in2024
  month_range := inJanuary
  minute_lt := zero_lt_minute
  second_lt := zero_lt_minute
  microsecond_lt := zero_lt_micros
  offset_lt := Datetime.utc_offset_lt

def endOfJanuary : Datetime where
  year := 2024
  month := 2
  day := 1
  utcoffset := some 0
  year_range := in2024
  minute_lt := zero_lt_minute
  second_lt := zero_lt_minute
  microsecond_lt := zero_lt_micros
  offset_lt := Datetime.utc_offset_lt

def noon : Datetime where
  year := 2024
  month := 1
  day := 2
  hour := 17
  utcoffset := some 0
  year_range := in2024
  month_range := inJanuary
  day_range := second_of_month
  minute_lt := zero_lt_minute
  second_lt := zero_lt_minute
  microsecond_lt := zero_lt_micros
  offset_lt := Datetime.utc_offset_lt

def qqqExit (pnl : ℚ) : TradeAttributionInput where
  tradeId := "t1"
  timestamp := noon
  strategyId := "mr_qqq"
  symbol := "QQQ"
  side := "sell"
  qty := 10
  pnl := pnl
  expectedPrice := 400
  filledPrice := 399
  slippagePct := 1 / 400
  positionSideBefore := some "long"

def calm : AttributionEnvironmentState where
  regimeId := "calm"
  aiPolicyExecutionState := "PASSIVE_SHADOW"

theorem qqqExit_builds (pnl : ℚ) :
    (buildAttributionRecord deskHost {} (qqqExit pnl) calm).isSome := by
  rw [buildAttributionRecord, Option.isSome_map]
  show noon.astimezoneUtc.isSome
  decide +kernel

def qqqLogged (pnl : ℚ) : Logged deskHost where
  vault := {}
  trade := qqqExit pnl
  environment := calm
  record := (buildAttributionRecord deskHost {} (qqqExit pnl) calm).get (qqqExit_builds pnl)
  built := (Option.some_get _).symm

theorem january_fetches (batches : List (List (Logged deskHost))) :
    ∃ rows, fetchAttributionRows deskHost (ledgerOf batches) newYear endOfJanuary none =
      some rows := by
  obtain ⟨u, hu⟩ := Option.isSome_iff_exists.mp
    (show (deskHost.localised newYear).astimezoneUtc.isSome by decide +kernel)
  obtain ⟨v, hv⟩ := Option.isSome_iff_exists.mp
    (show (deskHost.localised endOfJanuary).astimezoneUtc.isSome by decide +kernel)
  rw [fetchAttributionRows, hu, hv]
  exact ⟨_, rfl⟩

end TradingPlatform.Engine.Attribution
