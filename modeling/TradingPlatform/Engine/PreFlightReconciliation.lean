import TradingPlatform.Engine.DegradationManager
import TradingPlatform.Lib.Binary64
import TradingPlatform.Lib.StableSort
import TradingPlatform.Models
import Mathlib.Algebra.Order.Round
import Mathlib.Data.Rat.Floor

/-! # The reconciliation before the first bar

The broker's positions and open orders are compared with the runtime snapshots the
process kept. A difference makes the engine adopt the broker's book, each position it
has no telemetry for dated from the fill that opened it. The differences are searched
over the snapshots there are, the adoption runs over the strategies that are mapped. -/

namespace TradingPlatform.Engine.PreFlight

open TradingPlatform.Lib TradingPlatform.Lib.StableSort TradingPlatform.Engine.Degradation
open TradingPlatform.Lib.Binary64 (nearestValue)

def positionSideText : PositionSide → String
  | .long => "long"
  | .short => "short"

def qtyToleranceDefault : ℚ := nearestValue (1 / 10000)
def priceToleranceDefault : ℚ := nearestValue (2 / 100)
def preFlightReconLockScope : String := "PRE_FLIGHT_RECON"
def eventStateReconRecovery : String := "STATE_RECON_RECOVERY"
def defaultBarIntervalSeconds : ℤ := 900
def defaultMaxBars : ℤ := 40
def fillLookbackDaysDefault : ℤ := 30
def fillLookbackExpansionDays : List ℤ := [60, 90]
def deepPositionEntryUnresolved : String := "deep_position_entry_fill_unresolved"

/-- Python's text functions, and how it prints a float. -/
structure Texts where
  upper : String → String
  lower : String → String
  strip : String → String
  float : ℚ → String

structure OpenOrderSnapshot where
  symbol : String
  qty : ℚ
  deriving DecidableEq

/-- The time of a fill is in microseconds; one without a zone is read as UTC. -/
structure BrokerFillSnapshot where
  symbol : String
  side : String
  filledQty : ℚ
  filledAt : ℤ
  deriving DecidableEq

/-- What the broker answers during the boot. -/
structure BrokerBook where
  positions : List Position
  openOrders : List OpenOrderSnapshot
  symbolFills : String → ℤ → List BrokerFillSnapshot

structure StrategyRuntimeSnapshot where
  symbol : String
  side : String
  qty : ℚ
  avgEntryPrice : ℚ
  barsInTrade : ℤ
  maxBarsInTrade : ℤ := defaultMaxBars
  openOrderCount : ℤ := 0
  deriving DecidableEq

structure LegMemoryBound where
  strategyId : String
  symbol : String
  inPosition : Bool
  positionSide : String
  barsInTrade : ℤ
  qty : ℚ
  avgEntryPrice : ℚ
  maxBarsInTrade : ℤ := defaultMaxBars
  openOrderCount : ℤ := 0
  deriving DecidableEq

inductive DeltaValue
  | number (q : ℚ)
  | text (s : String)
  deriving DecidableEq

structure PositionDelta where
  strategyId : String
  symbol : String
  fieldName : String
  localValue : DeltaValue
  brokerValue : DeltaValue
  deriving DecidableEq

structure JournalEntry where
  eventType : String
  triggeredBy : String
  scopeKey : String
  localSnapshots : Dict String (Option StrategyRuntimeSnapshot)
  localPendingOrders : Dict String ℤ
  brokerSnapshots : Dict String LegMemoryBound
  openOrderCounts : Dict String ℤ
  rationale : String
  deltas : List PositionDelta

structure PreFlightReconciliationResult where
  success : Bool
  recovered : Bool := false
  latchedSoftDegrade : Bool := false
  deltas : List PositionDelta := []
  failureReason : String := ""
  journalEventId : Option Nat := none

/-- The database of the runtime snapshots, which is not part of the repository. -/
structure RuntimeDb (σ : Type*) where
  loadStrategyRuntimeSnapshots : σ → Dict String String → Dict String StrategyRuntimeSnapshot
  countLocalPendingOrders : σ → Dict String String → Dict String ℤ
  persistStrategyRuntimeSnapshots : σ → Dict String LegMemoryBound → σ
  syncLocalOpenOrderLiability : σ → Dict String ℤ → Dict String String → σ

structure PreFlightReconciliationEngine where
  strategySymbols : Dict String String
  strategyBarIntervals : Dict String ℤ := .empty
  qtyTolerance : ℚ := qtyToleranceDefault
  priceTolerance : ℚ := priceToleranceDefault
  fillLookbackDays : ℤ := fillLookbackDaysDefault
  deferLatch : Bool := false

/-- What a boot reads and leaves; `lock` is the reason of an active latch. -/
structure BootState (σ : Type*) where
  db : σ
  lock : Option String := none
  journal : List JournalEntry := []
  degradationManager : Option Governed := none

/-! ## The broker's book -/

section Model
variable (t : Texts)

def brokerPositionsBySymbol (positions : List Position) : Dict String Position :=
  Dict.keyBy (fun position => t.upper position.symbol) positions

def openOrderCounts (orders : List OpenOrderSnapshot) : Dict String ℤ :=
  orders.foldl
    (fun counts order =>
      counts.set (t.upper order.symbol) ((counts.get? (t.upper order.symbol)).getD 0 + 1))
    .empty

def requiresWholeShares (symbol : String) : Bool := inferAssetClass t.upper symbol ≠ .crypto

/-- The distance from a whole number does not depend on how `round` breaks ties. -/
def fractional (qty : ℚ) : Bool := qtyToleranceDefault < |qty - round qty|

def openOrderMismatch (mappedSymbols : List String) (order : OpenOrderSnapshot) : Option String :=
  let symbol := t.upper order.symbol
  if symbol ∉ mappedSymbols then some ("unmapped_open_order_symbol:" ++ symbol)
  else if order.qty ≤ 0 then
    some ("fractional_open_order_qty:" ++ symbol ++ ":" ++ t.float order.qty)
  else if requiresWholeShares t order.symbol && fractional order.qty then
    some ("fractional_open_order_qty:" ++ symbol ++ ":" ++ t.float order.qty)
  else none

def positionConflict (symbol : String) (position : Position) : Option String :=
  if position.qty ≤ 0 then none
  else if requiresWholeShares t symbol && fractional position.qty then
    some ("fractional_share_position_conflict:" ++ symbol ++ ":" ++ t.float position.qty)
  else none

/-- The first mismatch of the three loops, if any. -/
def detectIrrecoverableMismatch (brokerBySymbol : Dict String Position)
    (mappedSymbols : List String) (brokerOrders : List OpenOrderSnapshot) : Option String :=
  let unmapped := brokerBySymbol.items.findSome? fun item =>
    if item.1 ∉ mappedSymbols then some ("unmapped_broker_symbol:" ++ item.1) else none
  (unmapped.or (brokerOrders.findSome? (openOrderMismatch t mappedSymbols))).or
    (brokerBySymbol.items.findSome? fun item => positionConflict t item.1 item.2)

/-! ## The differences -/

def snapshotDeltas (brokerBySymbol : Dict String Position)
    (localPending brokerPending : Dict String ℤ) (qtyTolerance priceTolerance : ℚ)
    (strategyId : String) (snapshot : StrategyRuntimeSnapshot) : List PositionDelta :=
  let symbol := t.upper snapshot.symbol
  let broker := brokerBySymbol.get? symbol
  let brokerQty := broker.elim 0 (·.qty)
  let brokerSide := broker.elim "flat" fun position => positionSideText position.side
  let brokerAvg := broker.elim 0 (·.avgEntryPrice)
  let localOpen := (localPending.get? strategyId).getD 0
  let brokerOpen := (brokerPending.get? symbol).getD 0
  let delta (fieldName : String) (localValue brokerValue : DeltaValue) : List PositionDelta :=
    [{ strategyId, symbol, fieldName, localValue, brokerValue }]
  (if qtyTolerance < |snapshot.qty - brokerQty| then
    delta "qty" (.number snapshot.qty) (.number brokerQty) else []) ++
  (if snapshot.side ≠ brokerSide ∧ ¬ (snapshot.side = "flat" ∧ brokerQty ≤ qtyTolerance) then
    delta "side" (.text snapshot.side) (.text brokerSide) else []) ++
  (if qtyTolerance < brokerQty ∧ priceTolerance < |snapshot.avgEntryPrice - brokerAvg| then
    delta "avg_entry_price" (.number snapshot.avgEntryPrice) (.number brokerAvg) else []) ++
  if localOpen ≠ brokerOpen then
    delta "open_order_count" (.number localOpen) (.number brokerOpen) else []

def diffSnapshots (localSnapshots : Dict String StrategyRuntimeSnapshot)
    (brokerBySymbol : Dict String Position) (localPending brokerPending : Dict String ℤ)
    (qtyTolerance priceTolerance : ℚ) : List PositionDelta :=
  localSnapshots.items.flatMap fun item =>
    snapshotDeltas t brokerBySymbol localPending brokerPending qtyTolerance priceTolerance
      item.1 item.2

def lacksMatchingLocalTelemetry (prior : Option StrategyRuntimeSnapshot) (broker : Position)
    (qtyTolerance priceTolerance : ℚ) : Bool :=
  match prior with
  | none => true
  | some prior =>
    qtyTolerance < |prior.qty - broker.qty| ||
    (prior.side ≠ positionSideText broker.side &&
      !(prior.side = "flat" && broker.qty ≤ qtyTolerance)) ||
    (qtyTolerance < broker.qty && priceTolerance < |prior.avgEntryPrice - broker.avgEntryPrice|)

/-! ## The fill that opened a position -/

/-- `float(qty)` with a sign. -/
def signedFillInventoryDelta (side : String) (qty : ℚ) : ℚ :=
  let normalized := t.lower (t.strip side)
  if normalized = "buy" then nearestValue qty
  else if normalized = "sell" then -nearestValue qty
  else 0

def inventoryCrossedZeroBoundary (priorNet net qtyTolerance : ℚ) : Bool :=
  if |net| ≤ qtyTolerance then qtyTolerance < |priorNet|
  else (qtyTolerance < priorNet && net < -qtyTolerance) ||
    (priorNet < -qtyTolerance && qtyTolerance < net)

def signedPositionInventoryTarget (positionQty : ℚ) (positionSide : PositionSide)
    (qtyTolerance : ℚ) : Option ℚ :=
  let qty := nearestValue positionQty
  if qty ≤ qtyTolerance then none else some (positionSide.sign * qty)

/-- The walk over the fills, newest first; the inventory is a double, rounded after each. -/
def walkFills (qtyTolerance : ℚ) : ℚ → List BrokerFillSnapshot → Option ℤ
  | _, [] => none
  | running, fill :: fills =>
    let net := nearestValue (running - signedFillInventoryDelta t fill.side fill.filledQty)
    if inventoryCrossedZeroBoundary running net qtyTolerance then some fill.filledAt
    else walkFills qtyTolerance net fills

def findPositionEntryFillTs (fills : List BrokerFillSnapshot) (symbol : String) (positionQty : ℚ)
    (positionSide : PositionSide) (qtyTolerance : ℚ) : Option ℤ :=
  match signedPositionInventoryTarget positionQty positionSide qtyTolerance with
  | none => none
  | some signedTarget =>
    let symbolKey := t.upper (t.strip symbol)
    let kept := fills.filter fun fill =>
      t.upper (t.strip fill.symbol) = symbolKey && qtyTolerance < nearestValue fill.filledQty
    walkFills t qtyTolerance signedTarget (sortBy (fun fill => -fill.filledAt) kept)

/-- `lookbacks`: at least a day each, and no one twice. -/
def lookbackDays (initialLookbackDays : ℤ) : List ℤ :=
  (initialLookbackDays :: fillLookbackExpansionDays).foldl
    (fun lookbacks days =>
      if max days 1 ∉ lookbacks then lookbacks ++ [max days 1] else lookbacks)
    []

def resolvePositionEntryFillTs (symbolFills : String → ℤ → List BrokerFillSnapshot)
    (symbol : String) (positionQty : ℚ) (positionSide : PositionSide) (qtyTolerance : ℚ)
    (initialLookbackDays : ℤ) : Option ℤ :=
  (lookbackDays initialLookbackDays).findSome? fun days =>
    findPositionEntryFillTs t (symbolFills symbol days) symbol positionQty positionSide
      qtyTolerance

/-- `n or default`. -/
def orDefault (n default : ℤ) : ℤ := if n = 0 then default else n

def deduceBarsInTrade (entryTs now barIntervalSeconds maxBars : ℤ) : ℤ :=
  let interval := max (orDefault barIntervalSeconds defaultBarIntervalSeconds) 1
  let elapsed := max 0 (now - entryTs)
  let bars := elapsed / (interval * 1000000) + 1
  let ceiling := max (orDefault maxBars 1) 1
  max 1 (min bars ceiling)

/-! ## The adoption -/

def maxBarsOf (prior : Option StrategyRuntimeSnapshot) : ℤ :=
  orDefault (prior.elim defaultMaxBars (·.maxBarsInTrade)) defaultMaxBars

def snapshotFromBroker (strategyId symbol : String) (broker : Option Position)
    (prior : Option StrategyRuntimeSnapshot) (barsInTradeOverride : Option ℤ) : LegMemoryBound :=
  let openOrderCount := prior.elim 0 (·.openOrderCount)
  match broker.filter fun position => qtyToleranceDefault < position.qty with
  | none =>
    { strategyId, symbol := t.upper symbol, inPosition := false, positionSide := "flat"
      barsInTrade := 0, qty := 0, avgEntryPrice := 0
      maxBarsInTrade := prior.elim defaultMaxBars (·.maxBarsInTrade), openOrderCount }
  | some position =>
    let maxBars := maxBarsOf prior
    let priorBars := prior.elim 0 (·.barsInTrade)
    let bars := barsInTradeOverride.getD (if 0 < priorBars then priorBars else 1)
    { strategyId, symbol := t.upper symbol, inPosition := true
      positionSide := positionSideText position.side, barsInTrade := max 1 (min bars maxBars)
      qty := position.qty, avgEntryPrice := position.avgEntryPrice, maxBarsInTrade := maxBars
      openOrderCount }

end Model

section Execute
variable {σ : Type*} (t : Texts) (store : RuntimeDb σ) (engine : PreFlightReconciliationEngine)
  (broker : BrokerBook) (marketNow : ℤ)

/-- What a boot compares. -/
structure Compared where
  localSnapshots : Dict String StrategyRuntimeSnapshot
  localPending : Dict String ℤ
  brokerBySymbol : Dict String Position
  brokerPending : Dict String ℤ

def compared (db : σ) : Compared where
  localSnapshots := store.loadStrategyRuntimeSnapshots db engine.strategySymbols
  localPending := store.countLocalPendingOrders db engine.strategySymbols
  brokerBySymbol := brokerPositionsBySymbol t broker.positions
  brokerPending := openOrderCounts t broker.openOrders

variable (c : Compared)

def irrecoverableReason : Option String :=
  detectIrrecoverableMismatch t c.brokerBySymbol
    (engine.strategySymbols.items.map fun item => t.upper item.2) broker.openOrders

def deltas : List PositionDelta :=
  diffSnapshots t c.localSnapshots c.brokerBySymbol c.localPending c.brokerPending
    engine.qtyTolerance engine.priceTolerance

/-- The broker's position that a mapped strategy has no matching telemetry for. -/
def unmatchedPosition (strategyId symbol : String) : Option Position :=
  (c.brokerBySymbol.get? (t.upper symbol)).filter fun position =>
    engine.qtyTolerance < position.qty &&
      lacksMatchingLocalTelemetry (c.localSnapshots.get? strategyId) position engine.qtyTolerance
        engine.priceTolerance

def entryFillTs (symbol : String) (position : Position) : Option ℤ :=
  resolvePositionEntryFillTs t broker.symbolFills symbol position.qty position.side
    engine.qtyTolerance engine.fillLookbackDays

def barsFromFill (strategyId : String) (entryTs : ℤ) : ℤ :=
  deduceBarsInTrade entryTs marketNow
    (orDefault ((engine.strategyBarIntervals.get? strategyId).getD defaultBarIntervalSeconds)
      defaultBarIntervalSeconds)
    (maxBarsOf (c.localSnapshots.get? strategyId))

/-- `_apply_broker_baseline` before it writes: the bounds, and the strategies whose
position has no entry fill. -/
def brokerBaseline : Dict String LegMemoryBound × List String :=
  (engine.strategySymbols.mapValues fun strategyId symbol =>
      snapshotFromBroker t strategyId symbol (c.brokerBySymbol.get? (t.upper symbol))
        (c.localSnapshots.get? strategyId)
        ((unmatchedPosition t engine c strategyId symbol).bind fun position =>
          (entryFillTs t engine broker symbol position).map
            (barsFromFill engine marketNow c strategyId)),
    (engine.strategySymbols.items.filter fun item =>
      (unmatchedPosition t engine c item.1 item.2).any fun position =>
        (entryFillTs t engine broker item.2 position).isNone).map Prod.fst)

/-- `now` is the clock of the degradation manager. -/
def latchSoftDegrade (s : BootState σ) (reason now : String) :
    PreFlightReconciliationResult × BootState σ :=
  ({ success := false, latchedSoftDegrade := true, failureReason := reason },
    if engine.deferLatch then s
    else { s with
      lock := some reason
      degradationManager := s.degradationManager.map (·.applySoftDegrade reason now) })

def execute (s : BootState σ) (now : String) : PreFlightReconciliationResult × BootState σ :=
  match s.lock with
  | some reason =>
    ({ success := false, latchedSoftDegrade := true
       failureReason := if reason = "" then "pre_flight_recon_lock_active" else reason }, s)
  | none =>
    let c := compared t store engine broker s.db
    match irrecoverableReason t engine broker c with
    | some reason => latchSoftDegrade engine s reason now
    | none =>
      let deltas := deltas t engine c
      let synced (db : σ) := store.syncLocalOpenOrderLiability db c.brokerPending
        engine.strategySymbols
      if deltas ≠ [] then
        let (bounds, unresolved) := brokerBaseline t engine broker marketNow c
        if unresolved ≠ [] then
          latchSoftDegrade engine s
            (deepPositionEntryUnresolved ++ ":" ++ String.intercalate "," unresolved) now
        else
          let entry : JournalEntry :=
            { eventType := eventStateReconRecovery, triggeredBy := "SYSTEM_AUTOMATIC"
              scopeKey := preFlightReconLockScope
              localSnapshots := engine.strategySymbols.mapValues fun strategyId _ =>
                c.localSnapshots.get? strategyId
              localPendingOrders := c.localPending, brokerSnapshots := bounds
              openOrderCounts := c.brokerPending
              rationale := "pre_flight_broker_reconciliation_recovery", deltas }
          ({ success := true, recovered := true, deltas
             journalEventId := some (s.journal.length + 1) },
            { s with
              db := synced (store.persistStrategyRuntimeSnapshots s.db bounds)
              journal := s.journal ++ [entry] })
      else
        let bounds := engine.strategySymbols.mapValues fun strategyId symbol =>
          snapshotFromBroker t strategyId symbol (c.brokerBySymbol.get? (t.upper symbol))
            (c.localSnapshots.get? strategyId) none
        ({ success := true },
          { s with db := synced (store.persistStrategyRuntimeSnapshots s.db bounds) })

/-! ## What a boot owes a position -/

/-- What the code relies on of the database: it returns the bars it was given, and
the open order counts do not touch them. -/
structure RuntimeDb.Keeps (store : RuntimeDb σ) : Prop where
  persisted : ∀ db bounds symbols strategyId symbol bound,
    symbols.get? strategyId = some symbol → bounds.get? strategyId = some bound →
    ((store.loadStrategyRuntimeSnapshots (store.persistStrategyRuntimeSnapshots db bounds)
      symbols).get? strategyId).map (·.barsInTrade) = some bound.barsInTrade
  synced : ∀ db counts symbols strategyId,
    ((store.loadStrategyRuntimeSnapshots (store.syncLocalOpenOrderLiability db counts symbols)
      symbols).get? strategyId).map (·.barsInTrade) =
    ((store.loadStrategyRuntimeSnapshots db symbols).get? strategyId).map (·.barsInTrade)

def storedBars (db : σ) (strategyId : String) : Option ℤ :=
  ((store.loadStrategyRuntimeSnapshots db engine.strategySymbols).get? strategyId).map
    (·.barsInTrade)

/-- Quantity, side and average price agree, within the tolerances. -/
def Matches (snapshot : StrategyRuntimeSnapshot) (position : Position) : Prop :=
  |snapshot.qty - position.qty| ≤ engine.qtyTolerance ∧
    snapshot.side = positionSideText position.side ∧
    |snapshot.avgEntryPrice - position.avgEntryPrice| ≤ engine.priceTolerance

/-- The broker holds a position in the strategy's symbol. -/
structure Holds (strategyId symbol : String) (position : Position) : Prop where
  mapped : engine.strategySymbols.get? strategyId = some symbol
  held : c.brokerBySymbol.get? (t.upper symbol) = some position
  above : engine.qtyTolerance < position.qty

/-- And the strategy has no snapshot that matches it. -/
structure Unmatched (strategyId symbol : String) (position : Position) : Prop
    extends Holds t engine c strategyId symbol position where
  differs : ∀ snapshot, c.localSnapshots.get? strategyId = some snapshot →
    ¬ Matches engine snapshot position

/-- A boot that succeeds has recovered every position without telemetry, in the
journal and with its bars counted from its fill; one that fails writes nothing. -/
def AdoptsOpenly (s : BootState σ) (now : String) : Prop :=
  let c := compared t store engine broker s.db
  let out := execute t store engine broker marketNow s now
  (out.1.success = true → ∀ strategyId symbol position,
    Unmatched t engine c strategyId symbol position →
    out.1.recovered = true ∧
    (∃ entry, out.2.journal = s.journal ++ [entry] ∧ entry.eventType = eventStateReconRecovery) ∧
    ∃ entryTs, entryFillTs t engine broker symbol position = some entryTs ∧
      storedBars store engine out.2.db strategyId =
        some (barsFromFill engine marketNow c strategyId entryTs)) ∧
  (out.1.success = false → out.2.db = s.db)

/-- Some difference arises, or every position has a snapshot under its own symbol, or
one that matches it all the same. A boot that stops at a latch owes nothing. -/
def Accounted (s : BootState σ) : Prop :=
  let c := compared t store engine broker s.db
  s.lock ≠ none ∨ irrecoverableReason t engine broker c ≠ none ∨
  (deltas t engine c = [] ∧ ∀ strategyId symbol position,
    Holds t engine c strategyId symbol position →
    ∃ snapshot, c.localSnapshots.get? strategyId = some snapshot ∧
      (t.upper snapshot.symbol = t.upper symbol ∨ Matches engine snapshot position)) ∨
  (deltas t engine c ≠ [] ∧
    ((∃ strategyId symbol position, Unmatched t engine c strategyId symbol position ∧
      entryFillTs t engine broker symbol position = none) ∨
    ∀ strategyId symbol position, Unmatched t engine c strategyId symbol position →
      qtyToleranceDefault < position.qty))

end Execute

/-! ## The comparison -/

section Comparison
variable {t : Texts} {engine : PreFlightReconciliationEngine} {broker : BrokerBook}
  {marketNow : ℤ} {c : Compared} {strategyId symbol : String} {position : Position}

theorem lacks_eq_false {snapshot : StrategyRuntimeSnapshot}
    (habove : engine.qtyTolerance < position.qty) :
    lacksMatchingLocalTelemetry (some snapshot) position engine.qtyTolerance
      engine.priceTolerance = false ↔ Matches engine snapshot position := by
  have hflat : decide (position.qty ≤ engine.qtyTolerance) = false := by simpa using habove
  simp [lacksMatchingLocalTelemetry, Matches, hflat, habove, and_assoc]

theorem unmatchedPosition_eq_some (hmapped : engine.strategySymbols.get? strategyId = some symbol) :
    unmatchedPosition t engine c strategyId symbol = some position ↔
      Unmatched t engine c strategyId symbol position := by
  rw [unmatchedPosition, Option.filter_eq_some_iff, Bool.and_eq_true, decide_eq_true_eq]
  constructor
  · intro h
    obtain ⟨hheld, habove, hlacks⟩ := h
    refine ⟨⟨hmapped, hheld, habove⟩, fun snapshot hsnapshot hmatches => ?_⟩
    rw [hsnapshot, (lacks_eq_false habove).mpr hmatches] at hlacks
    cases hlacks
  · intro h
    obtain ⟨⟨-, hheld, habove⟩, hdiffers⟩ := h
    refine ⟨hheld, habove, ?_⟩
    cases hlocal : c.localSnapshots.get? strategyId with
    | none => rfl
    | some snapshot =>
      by_contra hlacks
      exact hdiffers snapshot hlocal ((lacks_eq_false habove).mp (Bool.eq_false_iff.mpr hlacks))

/-- A snapshot without a difference matches the position of its own symbol. -/
theorem matches_of_no_deltas {snapshot : StrategyRuntimeSnapshot} (hnone : deltas t engine c = [])
    (hsnapshot : c.localSnapshots.get? strategyId = some snapshot)
    (hheld : c.brokerBySymbol.get? (t.upper snapshot.symbol) = some position)
    (habove : engine.qtyTolerance < position.qty) : Matches engine snapshot position := by
  have hown := List.flatMap_eq_nil_iff.mp hnone _ (Dict.get?_eq_some _ |>.mp hsnapshot)
  simp only [snapshotDeltas, hheld, Option.elim_some, List.append_eq_nil_iff] at hown
  obtain ⟨⟨⟨hqty, hside⟩, havg⟩, -⟩ := hown
  refine ⟨?_, ?_, ?_⟩
  · by_contra h
    simp [not_le.mp h] at hqty
  · by_contra h
    simp [h, not_le.mpr habove] at hside
  · by_contra h
    simp [not_le.mp h, habove] at havg

theorem no_unmatched_iff (hnone : deltas t engine c = []) :
    (∀ strategyId symbol position, ¬ Unmatched t engine c strategyId symbol position) ↔
      ∀ strategyId symbol position, Holds t engine c strategyId symbol position →
        ∃ snapshot, c.localSnapshots.get? strategyId = some snapshot ∧
          (t.upper snapshot.symbol = t.upper symbol ∨ Matches engine snapshot position) := by
  constructor
  · intro h strategyId symbol position hholds
    by_contra hno
    refine h strategyId symbol position ⟨hholds, fun snapshot hsnapshot hmatches => ?_⟩
    exact hno ⟨snapshot, hsnapshot, .inr hmatches⟩
  · intro h strategyId symbol position hunmatched
    obtain ⟨snapshot, hsnapshot, hown | hmatches⟩ := h _ _ _ hunmatched.toHolds
    · have hheld : c.brokerBySymbol.get? (t.upper snapshot.symbol) = some position := by
        rw [hown]
        exact hunmatched.held
      exact hunmatched.differs snapshot hsnapshot
        (matches_of_no_deltas hnone hsnapshot hheld hunmatched.above)
    · exact hunmatched.differs snapshot hsnapshot hmatches

/-! ## The bars of an adopted position -/

theorem orDefault_ne_zero (n : ℤ) {default : ℤ} (h : default ≠ 0) : orDefault n default ≠ 0 := by
  unfold orDefault
  split <;> assumption

theorem deduceBarsInTrade_bounds (entryTs now interval : ℤ) {maxBars : ℤ} (h : maxBars ≠ 0) :
    1 ≤ deduceBarsInTrade entryTs now interval maxBars ∧
      deduceBarsInTrade entryTs now interval maxBars ≤ max maxBars 1 := by
  simp only [deduceBarsInTrade, orDefault, if_neg h]
  omega

theorem barsFromFill_bounds (engine : PreFlightReconciliationEngine) (marketNow : ℤ)
    (c : Compared) (strategyId : String) (entryTs : ℤ) :
    1 ≤ barsFromFill engine marketNow c strategyId entryTs ∧
      barsFromFill engine marketNow c strategyId entryTs ≤
        max (maxBarsOf (c.localSnapshots.get? strategyId)) 1 :=
  deduceBarsInTrade_bounds _ _ _ (orDefault_ne_zero _ (by decide))

/-- The bars counted from the fill are kept, unless the position is too small to be
one for `_snapshot_from_broker`. -/
theorem adopted_bars (entryTs : ℤ) :
    (snapshotFromBroker t strategyId symbol (some position) (c.localSnapshots.get? strategyId)
      (some (barsFromFill engine marketNow c strategyId entryTs))).barsInTrade =
        barsFromFill engine marketNow c strategyId entryTs ↔
      qtyToleranceDefault < position.qty := by
  have hbounds := barsFromFill_bounds engine marketNow c strategyId entryTs
  by_cases h : qtyToleranceDefault < position.qty
  · simp only [snapshotFromBroker, Option.filter_some, h, decide_true, if_true, Option.getD_some,
      iff_true]
    omega
  · simp only [snapshotFromBroker, Option.filter_some, h, decide_false, iff_false]
    intro hzero
    have : (0 : ℤ) = barsFromFill engine marketNow c strategyId entryTs := by simpa using hzero
    omega

theorem mem_unresolved : (brokerBaseline t engine broker marketNow c).2 ≠ [] ↔
    ∃ strategyId symbol position, Unmatched t engine c strategyId symbol position ∧
      entryFillTs t engine broker symbol position = none := by
  simp only [brokerBaseline, ne_eq, List.map_eq_nil_iff, List.filter_eq_nil_iff, not_forall,
    Decidable.not_not]
  constructor
  · intro h
    obtain ⟨⟨strategyId, symbol⟩, hmem, hany⟩ := h
    obtain ⟨position, hunmatched, hfill⟩ := Option.any_eq_true _ _ |>.mp hany
    have hmapped := Dict.get?_eq_some _ |>.mpr hmem
    exact ⟨strategyId, symbol, position, (unmatchedPosition_eq_some hmapped).mp hunmatched,
      Option.isNone_iff_eq_none.mp hfill⟩
  · intro h
    obtain ⟨strategyId, symbol, position, hunmatched, hfill⟩ := h
    refine ⟨(strategyId, symbol), Dict.get?_eq_some _ |>.mp hunmatched.mapped, ?_⟩
    rw [(unmatchedPosition_eq_some hunmatched.mapped).mpr hunmatched]
    simpa using hfill

end Comparison

/-! ## One boot -/

section Boot
variable {σ : Type*} {t : Texts} {store : RuntimeDb σ} {engine : PreFlightReconciliationEngine}
  {broker : BrokerBook} {marketNow : ℤ} {s : BootState σ} {now : String}

theorem execute_locked (h : s.lock ≠ none) :
    (execute t store engine broker marketNow s now).1.success = false ∧
      (execute t store engine broker marketNow s now).2.db = s.db := by
  obtain ⟨reason, hlock⟩ := Option.ne_none_iff_exists'.mp h
  simp only [execute, hlock, and_self]

theorem latchSoftDegrade_db (reason : String) :
    (latchSoftDegrade engine s reason now).1.success = false ∧
      (latchSoftDegrade engine s reason now).2.db = s.db := by
  refine ⟨rfl, ?_⟩
  simp only [latchSoftDegrade]
  split <;> rfl

variable (hlock : s.lock = none)
include hlock

theorem execute_irrecoverable
    (h : irrecoverableReason t engine broker (compared t store engine broker s.db) ≠ none) :
    (execute t store engine broker marketNow s now).1.success = false ∧
      (execute t store engine broker marketNow s now).2.db = s.db := by
  obtain ⟨reason, hreason⟩ := Option.ne_none_iff_exists'.mp h
  simp only [execute, hlock, hreason]
  exact latchSoftDegrade_db reason

variable (hreason :
  irrecoverableReason t engine broker (compared t store engine broker s.db) = none)
include hreason

theorem execute_unresolved (hdeltas : deltas t engine (compared t store engine broker s.db) ≠ [])
    (h : (brokerBaseline t engine broker marketNow (compared t store engine broker s.db)).2 ≠ []) :
    (execute t store engine broker marketNow s now).1.success = false ∧
      (execute t store engine broker marketNow s now).2.db = s.db := by
  simp only [execute, hlock, hreason, if_pos hdeltas, if_pos h]
  exact latchSoftDegrade_db _

theorem execute_recovered (marketNow : ℤ) (now : String)
    (hdeltas : deltas t engine (compared t store engine broker s.db) ≠ [])
    (h : (brokerBaseline t engine broker marketNow (compared t store engine broker s.db)).2 = []) :
    ∃ entry, (execute t store engine broker marketNow s now).1.success = true ∧
      (execute t store engine broker marketNow s now).1.recovered = true ∧
      entry.eventType = eventStateReconRecovery ∧
      (execute t store engine broker marketNow s now).2 = { s with
        db := store.syncLocalOpenOrderLiability
          (store.persistStrategyRuntimeSnapshots s.db
            (brokerBaseline t engine broker marketNow (compared t store engine broker s.db)).1)
          (compared t store engine broker s.db).brokerPending engine.strategySymbols
        journal := s.journal ++ [entry] } := by
  simp only [execute, hlock, hreason, if_pos hdeltas, h, ne_eq, not_true_eq_false, if_false]
  exact ⟨_, trivial, trivial, rfl, rfl⟩

theorem execute_unchanged (marketNow : ℤ) (now : String)
    (hdeltas : deltas t engine (compared t store engine broker s.db) = []) :
    (execute t store engine broker marketNow s now).1.success = true ∧
      (execute t store engine broker marketNow s now).1.recovered = false := by
  simp only [execute, hlock, hreason, hdeltas, ne_eq, not_true_eq_false, if_false, and_self]

end Boot

section Boot
variable {σ : Type*} {t : Texts} {store : RuntimeDb σ} {engine : PreFlightReconciliationEngine}
  {broker : BrokerBook} {marketNow : ℤ} {s : BootState σ} {now : String}

/-- The bars the database returns for an adopted position. -/
theorem storedBars_recovered (marketNow : ℤ) (hstore : store.Keeps) (db : σ) {c : Compared}
    {strategyId symbol : String} {position : Position}
    (hunmatched : Unmatched t engine c strategyId symbol position) {entryTs : ℤ}
    (hfill : entryFillTs t engine broker symbol position = some entryTs)
    (counts : Dict String ℤ) :
    storedBars store engine
        (store.syncLocalOpenOrderLiability
          (store.persistStrategyRuntimeSnapshots db (brokerBaseline t engine broker marketNow c).1)
          counts engine.strategySymbols) strategyId =
        some (barsFromFill engine marketNow c strategyId entryTs) ↔
      qtyToleranceDefault < position.qty := by
  have hbound : (brokerBaseline t engine broker marketNow c).1.get? strategyId =
      some (snapshotFromBroker t strategyId symbol (some position)
        (c.localSnapshots.get? strategyId)
        (some (barsFromFill engine marketNow c strategyId entryTs))) := by
    have hposition := (unmatchedPosition_eq_some hunmatched.mapped).mpr hunmatched
    simp only [brokerBaseline, Dict.get?_mapValues, hunmatched.mapped, hunmatched.held, hposition,
      Option.map_some, Option.bind_some, hfill]
  rw [storedBars, hstore.synced, hstore.persisted _ _ _ _ _ _ hunmatched.mapped hbound,
    Option.some.injEq]
  exact adopted_bars entryTs

theorem adoptsOpenly_of_failed
    (h : (execute t store engine broker marketNow s now).1.success = false ∧
      (execute t store engine broker marketNow s now).2.db = s.db) :
    AdoptsOpenly t store engine broker marketNow s now := by
  refine ⟨fun hsuccess => ?_, fun _ => h.2⟩
  rw [h.1] at hsuccess
  cases hsuccess

/-- A boot that recovers adopts openly exactly when the position it writes is one the
database counts as held. -/
theorem adoptsOpenly_of_recovered (hstore : store.Keeps) (hlock : s.lock = none)
    (hreason : irrecoverableReason t engine broker (compared t store engine broker s.db) = none)
    (hdeltas : deltas t engine (compared t store engine broker s.db) ≠ [])
    (hunresolved :
      (brokerBaseline t engine broker marketNow (compared t store engine broker s.db)).2 = []) :
    AdoptsOpenly t store engine broker marketNow s now ↔
      ∀ strategyId symbol position,
        Unmatched t engine (compared t store engine broker s.db) strategyId symbol position →
          qtyToleranceDefault < position.qty := by
  obtain ⟨entry, hsuccess, hrecovered, hevent, hout⟩ :=
    execute_recovered hlock hreason marketNow now hdeltas hunresolved
  have hstored {strategyId symbol : String} {position : Position} {entryTs : ℤ}
      (h : Unmatched t engine (compared t store engine broker s.db) strategyId symbol position)
      (hfill : entryFillTs t engine broker symbol position = some entryTs) :=
    storedBars_recovered marketNow hstore s.db h hfill
      (compared t store engine broker s.db).brokerPending
  constructor
  · intro hopenly strategyId symbol position h
    obtain ⟨-, -, entryTs, hfill, hbars⟩ := hopenly.1 hsuccess strategyId symbol position h
    rw [hout] at hbars
    exact (hstored h hfill).mp hbars
  · intro habove
    refine ⟨fun _ strategyId symbol position h => ⟨hrecovered, ⟨entry, by rw [hout], hevent⟩, ?_⟩,
      fun hfails => ?_⟩
    · cases hfill : entryFillTs t engine broker symbol position with
      | none =>
        exact absurd hunresolved (mem_unresolved.mpr ⟨strategyId, symbol, position, h, hfill⟩)
      | some entryTs =>
        refine ⟨entryTs, rfl, ?_⟩
        rw [hout]
        exact (hstored h hfill).mpr (habove strategyId symbol position h)
    · rw [hsuccess] at hfails
      cases hfails

/-- A boot adopts no position silently exactly when some difference arises that
reaches every one, or each has its own snapshot. -/
theorem adopts_openly_iff (t : Texts) (store : RuntimeDb σ) (hstore : store.Keeps)
    (engine : PreFlightReconciliationEngine) (broker : BrokerBook) (marketNow : ℤ)
    (s : BootState σ) (now : String) :
    AdoptsOpenly t store engine broker marketNow s now ↔ Accounted t store engine broker s := by
  by_cases hlock : s.lock = none
  case neg => exact iff_of_true (adoptsOpenly_of_failed (execute_locked hlock)) (.inl hlock)
  by_cases hreason :
    irrecoverableReason t engine broker (compared t store engine broker s.db) = none
  case neg =>
    exact iff_of_true (adoptsOpenly_of_failed (execute_irrecoverable hlock hreason))
      (.inr (.inl hreason))
  by_cases hdeltas : deltas t engine (compared t store engine broker s.db) = []
  · obtain ⟨hsuccess, hrecovered⟩ :=
      execute_unchanged hlock hreason marketNow now hdeltas
    simp only [AdoptsOpenly, Accounted, hlock, hreason, hdeltas, hsuccess, hrecovered, ne_eq,
      not_true_eq_false, false_or, false_and, or_false, true_and, forall_const]
    rw [← no_unmatched_iff hdeltas]
    simp
  by_cases hunresolved :
    (brokerBaseline t engine broker marketNow (compared t store engine broker s.db)).2 = []
  case neg =>
    exact iff_of_true
      (adoptsOpenly_of_failed (execute_unresolved hlock hreason hdeltas hunresolved))
      (.inr (.inr (.inr ⟨hdeltas, .inl (mem_unresolved.mp hunresolved)⟩)))
  rw [adoptsOpenly_of_recovered hstore hlock hreason hdeltas hunresolved]
  constructor
  · intro habove
    exact .inr (.inr (.inr ⟨hdeltas, .inr habove⟩))
  · intro h
    rcases h with h | h | ⟨h, -⟩ | ⟨-, h | habove⟩
    · exact absurd hlock h
    · exact absurd hreason h
    · exact absurd h hdeltas
    · exact absurd hunresolved (mem_unresolved.mpr h)
    · exact habove

end Boot

/-! ## A database in memory -/

structure LocalDb where
  snapshots : Dict String StrategyRuntimeSnapshot := .empty
  pending : Dict String ℤ := .empty

def snapshotOf (bound : LegMemoryBound) : StrategyRuntimeSnapshot :=
  { symbol := bound.symbol, side := bound.positionSide, qty := bound.qty
    avgEntryPrice := bound.avgEntryPrice, barsInTrade := bound.barsInTrade
    maxBarsInTrade := bound.maxBarsInTrade, openOrderCount := bound.openOrderCount }

def localDb : RuntimeDb LocalDb where
  loadStrategyRuntimeSnapshots db _ := db.snapshots
  countLocalPendingOrders db _ := db.pending
  persistStrategyRuntimeSnapshots db bounds :=
    { db with
      snapshots := db.snapshots.setAll Prod.fst (fun item => snapshotOf item.2) bounds.items }
  syncLocalOpenOrderLiability db counts symbols :=
    { db with pending := symbols.mapValues fun _ symbol => (counts.get? symbol).getD 0 }

theorem localDb_keeps : localDb.Keeps := by
  refine ⟨fun db bounds symbols strategyId symbol bound _ hbound => ?_, fun _ _ _ _ => rfl⟩
  have hkey : (Dict.keyBy Prod.fst bounds.items).get? strategyId = some (strategyId, bound) :=
    (Dict.get?_keyBy_of_nodup Prod.fst bounds.nodup).mpr
      ⟨bounds.get?_eq_some.mp hbound, rfl⟩
  simp only [localDb, Dict.get?_setAll, Dict.get?_tabulate, hkey, Option.map_some, Option.some_or,
    snapshotOf]

def plainTexts : Texts := ⟨id, id, id, fun _ => ""⟩

def qqqEngine : PreFlightReconciliationEngine where
  strategySymbols := .set .empty "mean_reversion_qqq" "QQQ"

def qqqPosition : Position := ⟨"QQQ", 8, .long, 405, 0⟩

def qqqBroker : BrokerBook where
  positions := [qqqPosition]
  openOrders := []
  symbolFills _ _ := [⟨"QQQ", "buy", 8, 0⟩]

/-- The process has no snapshot of its one strategy, and the broker a position in its
symbol: nothing is compared, and the position is adopted as one bar old. -/
theorem missing_snapshot_silent :
    ¬ AdoptsOpenly plainTexts localDb qqqEngine qqqBroker 1800000000 { db := {} } "now" := by
  intro h
  have hunmatched : Unmatched plainTexts qqqEngine
      (compared plainTexts localDb qqqEngine qqqBroker {}) "mean_reversion_qqq" "QQQ" qqqPosition :=
    ⟨⟨rfl, rfl, by decide +kernel⟩, fun snapshot hsnapshot => by cases hsnapshot⟩
  have hrecovered := (h.1 (by decide +kernel) _ _ _ hunmatched).1
  exact absurd hrecovered (by decide +kernel)

/-- With a flat snapshot kept, the same position is adopted in the open. -/
theorem flat_snapshot_recovered :
    AdoptsOpenly plainTexts localDb qqqEngine qqqBroker 1800000000
      { db := { snapshots := .set .empty "mean_reversion_qqq" ⟨"QQQ", "flat", 0, 0, 0, 40, 0⟩ } }
      "now" :=
  (adopts_openly_iff plainTexts localDb localDb_keeps qqqEngine qqqBroker 1800000000 _ "now").mpr
    (.inr (.inr (.inr ⟨by decide +kernel, .inr fun _ _ _ h => h.above⟩)))

end TradingPlatform.Engine.PreFlight
