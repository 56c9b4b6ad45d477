import TradingPlatform.Core.RollingWindow
import TradingPlatform.Engine.PortfolioGates
import TradingPlatform.Engine.PortfolioMode
import Mathlib.Data.String.Basic

/-! # The portfolio coordinator

Legs hand in their signals, and one call gates them all: the inventory lockout,
the conflicts, the exposure and the macro flag each may take an entry out, and a
position held too long is turned into an exit. -/

namespace TradingPlatform.Engine.Portfolio

open TradingPlatform.Lib TradingPlatform.Core

abbrev LegWindow := (n : Nat) × RollingWindow String ℚ n

def LegWindow.closesArray (w : LegWindow) : List ℚ := w.2.closesArray

def LegWindow.latest (w : LegWindow) : Option (Bar String ℚ) := w.2.latest

/-- What a call reads of the world around it, and the float routines it uses. -/
structure CycleEnv where
  upper : String → String
  /-- `float(text)`, where it does not raise. -/
  parseFloat : String → Option ℚ
  fixed3 : ℚ → String
  /-- The annualised deviation of the log returns. -/
  returnsVol : List ℚ → ℚ
  /-- The correlation of the log returns, 0 where one hardly varies. -/
  returnsCorr : List ℚ → List ℚ → ℚ
  std : List ℚ → ℚ
  norm : FactorLoadings → ℚ
  dateOrdinal : String → Option ℤ
  todayOrdinal : ℤ
  today : String
  now : String
  legRealizedPnl : String → ℚ
  promotionPnls : String → String → List ℚ

/-! ## State -/

section Types
variable (Ctx : Type)

structure LegCyclePayload where
  strategyId : String
  symbol : String
  signal : Option Signal
  routingParams : Dict String ParamValue
  baseRiskFraction : ℚ
  window : LegWindow
  healthScore : ℚ := 1
  championScore : ℚ := 0
  assetContext : Option Ctx := none

structure CoordinatedLegPlan where
  strategyId : String
  signal : Option Signal
  routingParams : Dict String ParamValue
  riskFraction : ℚ
  sizingMultiplier : ℚ
  window : LegWindow
  assetContext : Option Ctx
  blocked : Bool
  blockReason : String
  forceLiquidation : Bool
  cancelPendingOrders : Bool
  forceLiquidationReason : String

structure CycleCoordinationResult where
  cycleId : String
  riskBudgets : Dict String ℚ
  plans : Dict String (CoordinatedLegPlan Ctx)
  modeReason : ModeReason
  exposureAllowed : Bool
  exposureBlockReason : Option String

/-- A row of `portfolio_inventory_registry`, under its strategy and symbol. -/
structure InventoryRow where
  side : PositionSide
  openedSessionDate : String
  lastSeenAt : String
  netDirectionalExposure : ℚ

structure PortfolioCoordinator where
  brain : PortfolioBrain := {}
  cycleId : String := ""
  pending : Dict String (LegCyclePayload Ctx) := .empty
  windows : Dict String LegWindow := .empty
  inventory : Dict (String × String) InventoryRow := .empty

end Types

/-- The arguments of `coordinate_cycle`. -/
structure CycleInputs where
  enabledConfigs : List StrategyConfig
  account : Account
  positions : List Position
  capitalWinnerStrategyId : Option String := none
  grossExposureCapMultiplier : ℚ := 1
  macroBlockNewEntries : Bool := false

variable {Ctx : Type}

/-- `cycleId` is a fresh `uuid4().hex`. -/
def PortfolioCoordinator.beginCycle (c : PortfolioCoordinator Ctx) (cycleId : String)
    (account : Account) : PortfolioCoordinator Ctx :=
  { c with
    cycleId
    pending := .empty
    windows := .empty
    brain := { c.brain with equity := max account.equity 1 } }

def PortfolioCoordinator.registerLegEvaluation (c : PortfolioCoordinator Ctx)
    (payload : LegCyclePayload Ctx) : PortfolioCoordinator Ctx :=
  { c with
    pending := c.pending.set payload.strategyId payload
    windows := c.windows.set payload.strategyId payload.window }

/-! ## Metrics and inventory -/

section Measures
variable (env : CycleEnv)

def annualizedVolFromCloses (closes : List ℚ) : ℚ :=
  if closes.length < 3 then volFloor else max (env.returnsVol closes) volFloor

/-- Over the last sixty returns; zero where either series is shorter. -/
def computeReturnCorrelation (closesA closesB : List ℚ) : ℚ :=
  if closesA.length < 61 ∨ closesB.length < 61 then 0
  else env.returnsCorr (closesA.drop (closesA.length - 61)) (closesB.drop (closesB.length - 61))

def marginalSharpe (strategyId symbol : String) : ℚ :=
  let series := env.promotionPnls strategyId symbol
  if series = [] then 1 / 4
  else if env.std series < 1 / 1000000000 then 1 / 4
  else max (series.sum / series.length / env.std series) (5 / 100)

def positionsBySymbol (positions : List Position) : Dict String Position :=
  .keyBy (fun p : Position => env.upper p.symbol) positions

def PortfolioCoordinator.buildLegMetrics (c : PortfolioCoordinator Ctx)
    (enabledConfigs : List StrategyConfig) (positions : List Position) : Dict String LegMetrics :=
  let posBySymbol := positionsBySymbol env positions
  let stress := fun cfg : StrategyConfig => max 0 (-env.legRealizedPnl cfg.strategyId)
  let legDd := Dict.tabulate StrategyConfig.strategyId stress enabledConfigs
  let totalDdStress := (enabledConfigs.map stress).sum
  Dict.tabulate StrategyConfig.strategyId (fun cfg =>
    let payload := c.pending.get? cfg.strategyId
    let window := (payload.map (·.window)).or (c.windows.get? cfg.strategyId)
    { strategyId := cfg.strategyId
      symbol := env.upper cfg.symbol
      realizedVol := annualizedVolFromCloses env ((window.map LegWindow.closesArray).getD [])
      drawdownContribution :=
        if 0 < totalDdStress then (legDd.get? cfg.strategyId).getD 0 / totalDdStress else 0
      marginalSharpe := marginalSharpe env cfg.strategyId cfg.symbol
      notionalExposure := ((posBySymbol.get? (env.upper cfg.symbol)).map positionNotional).getD 0
      healthScore := (payload.map (·.healthScore)).getD 1
      championScore := (payload.map (·.championScore)).getD 0
      enabled := cfg.enabled }) enabledConfigs

def SymbolCorrelations.empty : SymbolCorrelations where
  map := .empty
  symm := by
    intro _ _ _ _ hnone
    cases hnone

/-- One correlation, both ways. -/
def SymbolCorrelations.add (c : SymbolCorrelations) (symA symB : String) (corr : ℚ) :
    SymbolCorrelations where
  map := (c.map.set (symA, symB) corr).set (symB, symA) corr
  symm := by
    intro a b v w hab hba
    have hsymm := c.symm a b v w
    simp only [Dict.get?_set] at hab hba
    grind

def PortfolioCoordinator.symbolCorrelationMap (c : PortfolioCoordinator Ctx) : SymbolCorrelations :=
  let symbols := Dict.tabulate (fun p : LegCyclePayload Ctx => env.upper p.symbol)
    (·.window.closesArray) (c.pending.items.map Prod.snd)
  let closes := fun symbol => (symbols.get? symbol).getD []
  foldPairs (fun correlations symA symB =>
      correlations.add symA symB (computeReturnCorrelation env (closes symA) (closes symB)))
    .empty (StableSort.sortBy id (symbols.items.map Prod.fst))

def heldSide (pos : Position) : PositionSide := if 0 < pos.qty then .long else .short

/-- A held position keeps the date it was first seen; one that is gone is forgotten. -/
def PortfolioCoordinator.syncInventoryRegistry (c : PortfolioCoordinator Ctx)
    (enabledConfigs : List StrategyConfig) (positions : List Position) :
    Dict (String × String) InventoryRow :=
  let posBySymbol := positionsBySymbol env positions
  let strategyBySymbol := Dict.keyBy (fun cfg : StrategyConfig => env.upper cfg.symbol) enabledConfigs
  let held := posBySymbol.items.foldl (fun registry p =>
      match strategyBySymbol.get? p.1 with
      | none => registry
      | some cfg =>
        let row := registry.get? (cfg.strategyId, p.1)
        registry.set (cfg.strategyId, p.1)
          { side := heldSide p.2
            openedSessionDate := (row.map (·.openedSessionDate)).getD env.today
            lastSeenAt := env.today
            netDirectionalExposure := (heldSide p.2).sign * positionNotional p.2 }) c.inventory
  enabledConfigs.foldl (fun registry cfg =>
    if (posBySymbol.get? (env.upper cfg.symbol)).isSome then registry
    else registry.erase (cfg.strategyId, env.upper cfg.symbol)) held

def buildActivePositionsManifest (inventory : Dict (String × String) InventoryRow)
    (enabledConfigs : List StrategyConfig) (positions : List Position) :
    List ActivePositionManifest :=
  let posBySymbol := positionsBySymbol env positions
  enabledConfigs.filterMap fun cfg =>
    let symbol := env.upper cfg.symbol
    (posBySymbol.get? symbol).map fun pos =>
      let row := inventory.get? (cfg.strategyId, symbol)
      let openedSessionDate := (row.map (·.openedSessionDate)).getD env.today
      { strategyId := cfg.strategyId, symbol, side := heldSide pos
        notional := positionNotional pos
        calendarDaysHeld := calendarDaysBetween env.dateOrdinal env.todayOrdinal openedSessionDate
        openedSessionDate }

end Measures

/-! ## Lockout and liquidation -/

section Gates
variable (env : CycleEnv)

def Entry.lockedBy (verdict : InventoryPathDependencyVerdict) (e : Entry) : Bool :=
  verdict.isEntryLocked env.upper e.signal.symbol (entrySide e.signal.action)

def lockoutReason (e : Entry) : String :=
  InventoryDirective.globalEntryLockout.text ++ ":" ++ sideText (entrySide e.signal.action) ++ ":" ++
    env.upper e.signal.symbol

/-- The signals without the entries that are locked, and why these are. -/
def applyInventoryEntryLockouts (activeSignals : Dict String (Option Signal))
    (verdict : InventoryPathDependencyVerdict) :
    Dict String (Option Signal) × Dict String String :=
  if verdict.hasDirective .globalEntryLockout = false then (activeSignals, .empty)
  else
    let locked := (entriesOf activeSignals).filter (Entry.lockedBy env verdict)
    (activeSignals.setAll Entry.strategyId (fun _ => none) locked,
      .tabulate Entry.strategyId (lockoutReason env) locked)

def forceLiquidationMap (verdict : InventoryPathDependencyVerdict) :
    Dict String ForceLiquidationTarget :=
  if verdict.hasDirective .forceLiquidationExecute = false then .empty
  else .keyBy ForceLiquidationTarget.strategyId verdict.forceLiquidationTargets

def buildForcedExitSignal (target : ForceLiquidationTarget) (referencePrice : ℚ)
    (timestamp : String) : Signal where
  symbol := target.symbol
  action := .exit
  price := max referencePrice 0
  timestamp := timestamp
  strategyId := target.strategyId
  metadata := .tabulate Prod.fst Prod.snd
    [("force_liquidation", .flag true), ("transition_reason", .text target.transitionReason),
     ("calendar_days_held", .number target.calendarDaysHeld)]

def routingPostureAggressiveTaker : String := "AGGRESSIVE_TAKER"

def applyForceLiquidationRouting (routingParams : Dict String ParamValue)
    (target : ForceLiquidationTarget) : Dict String ParamValue :=
  routingParams.setAll Prod.fst Prod.snd
    [("force_terminal_liquidation", .flag true), ("bypass_exit_thresholds", .flag true),
     ("routing_posture_override", .text routingPostureAggressiveTaker),
     ("force_liquidation_reason", .text target.transitionReason),
     ("calendar_days_held", .number target.calendarDaysHeld), ("symbol", .text target.symbol)]

/-- The cap multiplier of the macro mode, below one, on top of the verdict. -/
def ExposureValidation.scaledBy (exposure : ExposureValidation) (grossExposureCapMultiplier : ℚ) :
    ExposureValidation :=
  if 1 ≤ grossExposureCapMultiplier then exposure
  else
    let breach := !exposure.allowed || decide (grossExposureCapMultiplier < 65 / 100)
    { exposure with
      allowed := !breach
      sizingMultipliers := exposure.sizingMultipliers.mapValues fun _ m => m * grossExposureCapMultiplier
      breachCodes := exposure.breachCodes ++ if breach then [.macroRiskOffCap] else [] }

/-- What one call decides before it plans the legs. -/
structure CycleVerdicts where
  riskBudgets : Dict String ℚ
  mode : PortfolioModeDecision
  inventory : InventoryPathDependencyVerdict
  inventoryBlockReasons : Dict String String
  conflicts : SignalConflictResolution
  exposure : ExposureValidation

def PortfolioCoordinator.activeSignals (c : PortfolioCoordinator Ctx) :
    Dict String (Option Signal) :=
  c.pending.mapValues fun _ payload => payload.signal

def CycleInputs.enabledIds (inputs : CycleInputs) : List String :=
  ((inputs.enabledConfigs.filter (·.enabled)).map (·.strategyId)).dedup

/-- The verdicts of a call, and the coordinator with the budgets, the mode and the
registry they leave. -/
def PortfolioCoordinator.judge (c : PortfolioCoordinator Ctx) (inputs : CycleInputs) :
    CycleVerdicts × PortfolioCoordinator Ctx :=
  let legMetrics := c.buildLegMetrics env inputs.enabledConfigs inputs.positions
  let (riskBudgets, brain) := c.brain.allocateRiskBudgets legMetrics
  let mode := brain.resolvePortfolioMode legMetrics inputs.capitalWinnerStrategyId
    (some inputs.enabledIds)
  let brain := { brain with mode := some mode }
  let registry := c.syncInventoryRegistry env inputs.enabledConfigs inputs.positions
  let inventory := brain.checkInventoryPathDependency env.upper
    (buildActivePositionsManifest env registry inputs.enabledConfigs inputs.positions)
    inputs.account.equity
  let (signals, inventoryBlockReasons) := applyInventoryEntryLockouts env c.activeSignals inventory
  let conflicts := resolveSignalConflicts env.upper legMetrics (c.symbolCorrelationMap env)
    brain.mode signals
  let proposed := brain.estimateProposedPositions env.upper conflicts.approvedSignals
    inputs.positions legMetrics inputs.account.equity
  let exposure := (brain.validateGlobalExposure env.norm proposed inputs.account.equity).scaledBy
    inputs.grossExposureCapMultiplier
  ({ riskBudgets, mode, inventory, inventoryBlockReasons, conflicts, exposure },
    { c with brain, inventory := registry })

/-! ## Plans -/

/-- A leg on its way through the gates. -/
structure LegGate where
  signal : Option Signal
  blocked : Bool
  blockReason : String

def LegGate.asksEntry (g : LegGate) : Bool := g.signal.any fun sig => isEntryAction sig.action

/-- `block_reason or reason`. -/
def LegGate.block (g : LegGate) (reason : String) : LegGate :=
  { g with blocked := true, blockReason := if g.blockReason = "" then reason else g.blockReason }

def conflictGate (v : CycleVerdicts) (sid : String) : LegGate where
  signal := (v.conflicts.approvedSignals.get? sid).join
  blocked := sid ∈ v.conflicts.blockedStrategyIds
  blockReason := ((v.conflicts.reasons.get? sid).map (·.text env.fixed3)).getD ""

def inventoryGate (v : CycleVerdicts) (sid : String) (g : LegGate) : LegGate :=
  (v.inventoryBlockReasons.get? sid).elim g g.block

def exposureGate (v : CycleVerdicts) (g : LegGate) : LegGate :=
  if v.exposure.allowed = false ∧ g.asksEntry = true then
    g.block ("|".intercalate (v.exposure.breachCodes.map (·.text)))
  else g

def macroGate (macroBlockNewEntries : Bool) (g : LegGate) : LegGate :=
  if macroBlockNewEntries = true ∧ g.asksEntry = true then g.block "macro_risk_off_block" else g

/-- The leg to liquidate passes every gate, as an exit. -/
def forcedGate (target : ForceLiquidationTarget) (payload : LegCyclePayload Ctx) : LegGate where
  signal := some (buildForcedExitSignal target ((payload.window.latest.map (·.close)).getD 0) env.now)
  blocked := false
  blockReason := InventoryDirective.forceLiquidationExecute.text

def gateLeg (v : CycleVerdicts) (macroBlockNewEntries : Bool) (sid : String)
    (payload : LegCyclePayload Ctx) : LegGate :=
  match (forceLiquidationMap v.inventory).get? sid with
  | some target => forcedGate env target payload
  | none =>
    macroGate macroBlockNewEntries
      (exposureGate v (inventoryGate v sid (conflictGate env v sid)))

/-- A blocked leg's entry is dropped. -/
def LegGate.finalSignal (g : LegGate) : Option Signal :=
  if g.blocked = true ∧ g.asksEntry = true then none else g.signal

def sizingMultiplier (v : CycleVerdicts) (sid : String) (g : LegGate) : ℚ :=
  if g.blocked then 0
  else (v.conflicts.scaleMultipliers.get? sid).getD 1 * (v.exposure.sizingMultipliers.get? sid).getD 1

/-- `float(value or 0.95)`; the error is the text `float` cannot read. -/
def positionLimit : ParamValue → Except String ℚ
  | .flag b => .ok (if b then 1 else 95 / 100)
  | .number q => .ok (if q = 0 then 95 / 100 else q)
  | .text t => if t = "" then .ok (95 / 100) else (env.parseFloat t).elim (.error t) .ok

def maxPositionParam (routingParams : Dict String ParamValue) : ParamValue :=
  ((routingParams.get? "max_position_pct").or
    (routingParams.get? "effective_max_position_pct")).getD (.number (95 / 100))

/-- The routing parameters of a plan: those of a liquidation, or with a limit
scaled down. -/
def planRouting (routingParams : Dict String ParamValue) (target : Option ForceLiquidationTarget)
    (sizing : ℚ) : Except String (Dict String ParamValue) :=
  match target with
  | some target => .ok (applyForceLiquidationRouting routingParams target)
  | none =>
    if sizing < 1 ∧ 0 < sizing then
      (positionLimit env (maxPositionParam routingParams)).map fun baseMax =>
        (routingParams.set "max_position_pct" (.number (baseMax * sizing))).set
          "portfolio_coordination_scale" (.number sizing)
    else .ok routingParams

def planLeg (v : CycleVerdicts) (macroBlockNewEntries : Bool) (sid : String)
    (payload : LegCyclePayload Ctx) : Except String (CoordinatedLegPlan Ctx) :=
  let target := (forceLiquidationMap v.inventory).get? sid
  let g := gateLeg env v macroBlockNewEntries sid payload
  let sizing := sizingMultiplier v sid g
  (planRouting env payload.routingParams target sizing).map fun routingParams =>
    { strategyId := sid
      signal := g.finalSignal
      routingParams
      riskFraction := (v.riskBudgets.get? sid).getD payload.baseRiskFraction * max sizing 0
      sizingMultiplier := sizing
      window := payload.window
      assetContext := payload.assetContext
      blocked := g.blocked
      blockReason := g.blockReason
      forceLiquidation := target.isSome
      cancelPendingOrders := target.isSome
      forceLiquidationReason := (target.map (·.transitionReason)).getD "" }

/-- The error is the text that ends the call. -/
def PortfolioCoordinator.coordinateCycle (c : PortfolioCoordinator Ctx) (freshId : String)
    (inputs : CycleInputs) :
    Except String (CycleCoordinationResult Ctx × PortfolioCoordinator Ctx) :=
  let c := if c.cycleId = "" then c.beginCycle freshId inputs.account else c
  let (v, after) := c.judge env inputs
  (c.pending.traverse (planLeg env v inputs.macroBlockNewEntries)).map fun plans =>
    ({ cycleId := c.cycleId
       riskBudgets := v.riskBudgets
       plans
       modeReason := v.mode.reason
       exposureAllowed := v.exposure.allowed
       exposureBlockReason :=
         if v.exposure.allowed then none
         else if v.exposure.breachCodes = [] then some "gross_cap_below_breach_line"
         else some ("|".intercalate (v.exposure.breachCodes.map (·.text))) },
      after)

/-! ## What the gates let through -/

section Lockouts
variable {env} {activeSignals : Dict String (Option Signal)}
  {verdict : InventoryPathDependencyVerdict}

theorem mem_lockouts {e : Entry}
    (he : e ∈ entriesOf (applyInventoryEntryLockouts env activeSignals verdict).1) :
    e ∈ entriesOf activeSignals ∧
      (verdict.hasDirective .globalEntryLockout = true → Entry.lockedBy env verdict e = false) := by
  unfold applyInventoryEntryLockouts at he
  split at he
  · rename_i hoff
    exact ⟨he, fun hon => nomatch hoff.symm.trans hon⟩
  obtain ⟨hget, haction⟩ := mem_entriesOf.mp he
  rw [Dict.get?_setAll] at hget
  cases htab : (Dict.tabulate Entry.strategyId (fun _ => none)
      ((entriesOf activeSignals).filter (Entry.lockedBy env verdict))).get? e.strategyId with
  | some removed =>
    obtain ⟨-, -, -, rfl⟩ := Dict.mem_of_tabulate _ htab
    rw [htab] at hget
    cases hget
  | none =>
    rw [htab] at hget
    have hin : e ∈ entriesOf activeSignals := mem_entriesOf.mpr ⟨hget, haction⟩
    refine ⟨hin, fun _ => ?_⟩
    by_contra hlocked
    obtain ⟨removed, hremoved⟩ := Dict.exists_of_mem_tabulate Entry.strategyId
      (fun _ => (none : Option Signal))
      (List.mem_filter.mpr ⟨hin, Bool.not_eq_false _ ▸ hlocked⟩)
    cases htab.symm.trans hremoved

/-- A leg that asks for no entry is no business of the lockout. -/
theorem lockouts_keep {sid : String} (h : ∀ e ∈ entriesOf activeSignals, e.strategyId ≠ sid) :
    (applyInventoryEntryLockouts env activeSignals verdict).1.get? sid = activeSignals.get? sid ∧
      (applyInventoryEntryLockouts env activeSignals verdict).2.get? sid = none := by
  have hnone : ∀ {ν : Type} (val : Entry → ν), (Dict.tabulate Entry.strategyId val
      ((entriesOf activeSignals).filter (Entry.lockedBy env verdict))).get? sid = none := by
    intro ν val
    rw [Dict.get?_tabulate, Option.map_eq_none_iff, Dict.keyBy_eq_none]
    exact fun e he => h e (List.mem_filter.mp he).1
  unfold applyInventoryEntryLockouts
  split
  · exact ⟨rfl, rfl⟩
  · refine ⟨?_, hnone _⟩
    rw [Dict.get?_setAll, hnone]
    rfl

end Lockouts

/-- What the verdicts of one call say of the signals it was given. -/
structure CycleVerdicts.Sound (activeSignals : Dict String (Option Signal)) (v : CycleVerdicts) :
    Prop where
  unlocked : ∀ e ∈ entriesOf v.conflicts.approvedSignals, Entry.lockedBy env v.inventory e = false
  kept : ∀ sid, (∀ e ∈ entriesOf activeSignals, e.strategyId ≠ sid) →
    v.conflicts.approvedSignals.get? sid = activeSignals.get? sid ∧
      sid ∉ v.conflicts.blockedStrategyIds ∧ v.inventoryBlockReasons.get? sid = none
  unscaled : ∀ sid m, v.conflicts.scaleMultipliers.get? sid = some m → m = 1
  capped : ∀ sid m, v.exposure.sizingMultipliers.get? sid = some m → m ≤ 1
  budgets : ∀ sid b, v.riskBudgets.get? sid = some b → 0 ≤ b
  total : v.riskBudgets.total (fun _ b => b) ≤ 1

theorem scaledBy_capped {exposure : ExposureValidation} {cap : ℚ}
    (h : ∀ sid m, exposure.sizingMultipliers.get? sid = some m → 0 ≤ m ∧ m ≤ 1) {sid : String} {m : ℚ}
    (hm : (exposure.scaledBy cap).sizingMultipliers.get? sid = some m) : m ≤ 1 := by
  unfold ExposureValidation.scaledBy at hm
  split at hm
  · exact (h sid m hm).2
  rename_i hcap
  rw [Dict.get?_mapValues, Option.map_eq_some_iff] at hm
  obtain ⟨base, hbase, rfl⟩ := hm
  obtain ⟨hnonneg, hle⟩ := h sid base hbase
  calc base * cap ≤ base * 1 := mul_le_mul_of_nonneg_left (not_le.mp hcap).le hnonneg
    _ ≤ 1 := by rwa [mul_one]

theorem allocateRiskBudgets_sound (brain : PortfolioBrain) (legMetrics : Dict String LegMetrics) :
    (∀ sid b, (brain.allocateRiskBudgets legMetrics).1.get? sid = some b → 0 ≤ b) ∧
      (brain.allocateRiskBudgets legMetrics).1.total (fun _ b => b) ≤ 1 := by
  unfold PortfolioBrain.allocateRiskBudgets
  split
  · exact ⟨nofun, zero_le_one⟩
  · exact ⟨fun sid b => normalizeWeights_nonneg, total_normalizeWeights_le _⟩

theorem judge_sound (c : PortfolioCoordinator Ctx) (inputs : CycleInputs) :
    (c.judge env inputs).1.Sound env c.activeSignals := by
  generalize hv : (c.judge env inputs).1 = v
  unfold PortfolioCoordinator.judge at hv
  dsimp only at hv
  subst hv
  constructor
  case unlocked =>
    intro e he
    obtain ⟨hin, hunlocked⟩ := mem_lockouts (mem_approved.mp he).1
    by_contra hlocked
    exact hlocked (hunlocked (hasDirective_of_locked (Bool.not_eq_false _ ▸ hlocked)))
  case kept =>
    intro sid hnone
    obtain ⟨hkept, hpassed⟩ := resolve_keeps fun e he => hnone e (mem_lockouts he).1
    obtain ⟨hsame, hreason⟩ := lockouts_keep hnone
    exact ⟨hkept.trans hsame, hpassed, hreason⟩
  case unscaled => exact fun sid m => resolve_unscaled
  case capped =>
    intro sid m hm
    exact scaledBy_capped (fun _ _ => exposureMultipliers_bounds) hm
  case budgets => exact (allocateRiskBudgets_sound _ _).1
  case total => exact (allocateRiskBudgets_sound _ _).2

section Legs
variable {env} {v : CycleVerdicts} {macroBlockNewEntries : Bool} {sid : String}

theorem LegGate.asksEntry_congr {g g' : LegGate} (h : g.signal = g'.signal) :
    g.asksEntry = g'.asksEntry := congrArg (Option.any _) h

@[simp] theorem inventoryGate_signal (g : LegGate) : (inventoryGate v sid g).signal = g.signal := by
  unfold inventoryGate
  cases v.inventoryBlockReasons.get? sid <;> rfl

@[simp] theorem exposureGate_signal (g : LegGate) : (exposureGate v g).signal = g.signal := by
  unfold exposureGate
  split <;> rfl

@[simp] theorem macroGate_signal (g : LegGate) :
    (macroGate macroBlockNewEntries g).signal = g.signal := by
  unfold macroGate
  split <;> rfl

theorem inventoryGate_passes (g : LegGate) :
    (inventoryGate v sid g).blocked = false ↔
      g.blocked = false ∧ v.inventoryBlockReasons.get? sid = none := by
  unfold inventoryGate
  cases v.inventoryBlockReasons.get? sid <;> simp [LegGate.block]

theorem exposureGate_passes (g : LegGate) :
    (exposureGate v g).blocked = false ↔
      g.blocked = false ∧ (g.asksEntry = true → v.exposure.allowed = true) := by
  unfold exposureGate
  by_cases hshut : v.exposure.allowed = false ∧ g.asksEntry = true
  · simp [hshut, LegGate.block]
  · rw [if_neg hshut]
    refine (and_iff_left fun hask => ?_).symm
    by_contra hdenied
    exact hshut ⟨Bool.not_eq_true _ ▸ hdenied, hask⟩

theorem macroGate_passes (g : LegGate) :
    (macroGate macroBlockNewEntries g).blocked = false ↔
      g.blocked = false ∧ (g.asksEntry = true → macroBlockNewEntries = false) := by
  unfold macroGate
  by_cases hshut : macroBlockNewEntries = true ∧ g.asksEntry = true
  · simp [hshut, LegGate.block]
  · rw [if_neg hshut]
    refine (and_iff_left fun hask => ?_).symm
    by_contra hon
    exact hshut ⟨Bool.not_eq_false _ ▸ hon, hask⟩

variable (env macroBlockNewEntries) in
/-- A leg that is not liquidated keeps the signal the conflicts leave it, and is
let through just when every gate lets it. -/
theorem gateLeg_spec (payload : LegCyclePayload Ctx)
    (hfree : (forceLiquidationMap v.inventory).get? sid = none) :
    (gateLeg env v macroBlockNewEntries sid payload).signal =
        (v.conflicts.approvedSignals.get? sid).join ∧
      ((gateLeg env v macroBlockNewEntries sid payload).blocked = false ↔
        sid ∉ v.conflicts.blockedStrategyIds ∧ v.inventoryBlockReasons.get? sid = none ∧
          ((conflictGate env v sid).asksEntry = true →
            v.exposure.allowed = true ∧ macroBlockNewEntries = false)) := by
  unfold gateLeg
  rw [hfree]
  dsimp only
  constructor
  · rw [macroGate_signal, exposureGate_signal, inventoryGate_signal]
    rfl
  · have hexposure : (exposureGate v (inventoryGate v sid (conflictGate env v sid))).asksEntry =
        (conflictGate env v sid).asksEntry := LegGate.asksEntry_congr (by simp)
    have hinventory : (inventoryGate v sid (conflictGate env v sid)).asksEntry =
        (conflictGate env v sid).asksEntry := LegGate.asksEntry_congr (by simp)
    rw [macroGate_passes, exposureGate_passes, inventoryGate_passes, hexposure, hinventory]
    simp only [conflictGate, decide_eq_false_iff_not]
    tauto

theorem planLeg_spec {payload : LegCyclePayload Ctx} {plan : CoordinatedLegPlan Ctx}
    (h : planLeg env v macroBlockNewEntries sid payload = .ok plan) :
    let g := gateLeg env v macroBlockNewEntries sid payload
    plan.signal = g.finalSignal ∧ plan.blocked = g.blocked ∧
      plan.riskFraction =
        (v.riskBudgets.get? sid).getD payload.baseRiskFraction * max (sizingMultiplier v sid g) 0 := by
  unfold planLeg at h
  dsimp only at h
  cases hrouting : planRouting env payload.routingParams ((forceLiquidationMap v.inventory).get? sid)
      (sizingMultiplier v sid (gateLeg env v macroBlockNewEntries sid payload)) with
  | error text =>
    rw [hrouting] at h
    cases h
  | ok routingParams =>
    rw [hrouting] at h
    cases h
    exact ⟨rfl, rfl, rfl⟩

/-- The leg's position limit, where the plan may need it, is one `float` reads. -/
def LegCyclePayload.LimitReads (env : CycleEnv) (payload : LegCyclePayload Ctx) : Prop :=
  ∃ limit, positionLimit env (maxPositionParam payload.routingParams) = .ok limit

variable (v macroBlockNewEntries sid) in
theorem planLeg_ok {payload : LegCyclePayload Ctx} (hlimit : payload.LimitReads env) :
    ∃ plan, planLeg env v macroBlockNewEntries sid payload = .ok plan := by
  obtain ⟨limit, hlimit⟩ := hlimit
  have hrouting : ∀ target sizing, ∃ routingParams,
      planRouting env payload.routingParams target sizing = .ok routingParams := by
    intro target sizing
    unfold planRouting
    rw [hlimit]
    cases target with
    | some target => exact ⟨_, rfl⟩
    | none =>
      dsimp only
      split
      · exact ⟨_, rfl⟩
      · exact ⟨_, rfl⟩
  obtain ⟨routingParams, hr⟩ := hrouting ((forceLiquidationMap v.inventory).get? sid)
    (sizingMultiplier v sid (gateLeg env v macroBlockNewEntries sid payload))
  unfold planLeg
  dsimp only
  rw [hr]
  exact ⟨_, rfl⟩

/-- An exit that is not liquidated is planned as it was submitted. -/
theorem exit_planned {activeSignals : Dict String (Option Signal)} (hv : v.Sound env activeSignals)
    {sig : Signal} (hsig : activeSignals.get? sid = some (some sig)) (hexit : sig.action = .exit)
    (hfree : (forceLiquidationMap v.inventory).get? sid = none) {payload : LegCyclePayload Ctx}
    {plan : CoordinatedLegPlan Ctx}
    (hplan : planLeg env v macroBlockNewEntries sid payload = .ok plan) :
    plan.signal = some sig ∧ plan.blocked = false := by
  obtain ⟨hkept, hpassed, hreason⟩ := hv.kept sid fun e he hid => by
    obtain ⟨hget, haction⟩ := mem_entriesOf.mp he
    rw [hid, hsig] at hget
    cases hget
    rw [hexit] at haction
    cases haction
  obtain ⟨hsignal, hblocked, -⟩ := planLeg_spec hplan
  obtain ⟨hgsignal, hpasses⟩ := gateLeg_spec env macroBlockNewEntries payload hfree
  rw [hkept, hsig] at hgsignal
  have hasks : (conflictGate env v sid).asksEntry = false := by
    simp [LegGate.asksEntry, conflictGate, hkept, hsig, hexit, isEntryAction]
  have hopen : (gateLeg env v macroBlockNewEntries sid payload).blocked = false :=
    hpasses.mpr ⟨hpassed, hreason, fun hask => absurd (hasks.symm.trans hask) Bool.false_ne_true⟩
  rw [hsignal, hblocked, LegGate.finalSignal, hopen]
  exact ⟨hgsignal, rfl⟩

/-- An entry that is planned has passed every gate. -/
theorem entry_passed {activeSignals : Dict String (Option Signal)} (hv : v.Sound env activeSignals)
    {payload : LegCyclePayload Ctx} {plan : CoordinatedLegPlan Ctx}
    (hplan : planLeg env v macroBlockNewEntries sid payload = .ok plan) {sig : Signal}
    (hsig : plan.signal = some sig) (hentry : isEntryAction sig.action = true) :
    plan.blocked = false ∧ v.conflicts.approvedSignals.get? sid = some (some sig) ∧
      v.exposure.allowed = true ∧ macroBlockNewEntries = false ∧
      v.inventory.isEntryLocked env.upper sig.symbol (entrySide sig.action) = false := by
  obtain ⟨hsignal, hblocked, -⟩ := planLeg_spec hplan
  have hasks : (gateLeg env v macroBlockNewEntries sid payload).signal = some sig ∧
      (gateLeg env v macroBlockNewEntries sid payload).blocked = false := by
    rw [hsignal, LegGate.finalSignal] at hsig
    split at hsig
    · cases hsig
    rename_i hpass
    refine ⟨hsig, by_contra fun hb => hpass ⟨Bool.not_eq_false _ ▸ hb, ?_⟩⟩
    rw [LegGate.asksEntry, hsig]
    exact hentry
  obtain ⟨hgsignal, hopen⟩ := hasks
  cases hforced : (forceLiquidationMap v.inventory).get? sid with
  | some target =>
    -- What is liquidated carries an exit.
    rw [gateLeg, hforced] at hgsignal
    cases hgsignal
    cases hentry
  | none =>
    obtain ⟨hjoin, hpasses⟩ := gateLeg_spec env macroBlockNewEntries payload hforced
    have happroved : v.conflicts.approvedSignals.get? sid = some (some sig) :=
      Option.join_eq_some_iff.mp (hjoin.symm.trans hgsignal)
    obtain ⟨-, -, hgates⟩ := hpasses.mp hopen
    obtain ⟨hallowed, hmacro⟩ := hgates (by
      rw [LegGate.asksEntry, conflictGate, happroved]
      exact hentry)
    refine ⟨hblocked.trans hopen, happroved, hallowed, hmacro, ?_⟩
    exact hv.unlocked ⟨sid, sig⟩ (mem_entriesOf.mpr ⟨happroved, hentry⟩)

/-- A leg with a budget risks at most that budget. -/
theorem riskFraction_le {activeSignals : Dict String (Option Signal)}
    (hv : v.Sound env activeSignals) {payload : LegCyclePayload Ctx} {plan : CoordinatedLegPlan Ctx}
    (hplan : planLeg env v macroBlockNewEntries sid payload = .ok plan) {budget : ℚ}
    (hbudget : v.riskBudgets.get? sid = some budget) : plan.riskFraction ≤ budget := by
  obtain ⟨-, -, hrisk⟩ := planLeg_spec hplan
  rw [hrisk, hbudget, Option.getD_some]
  refine mul_le_of_le_one_right (hv.budgets sid budget hbudget) (max_le ?_ zero_le_one)
  unfold sizingMultiplier
  split
  · exact zero_le_one
  have hscale : (v.conflicts.scaleMultipliers.get? sid).getD 1 = 1 := by
    cases hm : v.conflicts.scaleMultipliers.get? sid with
    | none => rfl
    | some m => exact hv.unscaled sid m hm
  rw [hscale, one_mul]
  cases hm : v.exposure.sizingMultipliers.get? sid with
  | none => exact le_rfl
  | some m => exact hv.capped sid m hm

end Legs

/-! ## The plans of a call -/

/-- Every exit is planned, every entry planned has passed every gate, and the
fractions stay within the whole. -/
structure Gated (c : PortfolioCoordinator Ctx) (inputs : CycleInputs) (v : CycleVerdicts)
    (r : CycleCoordinationResult Ctx) : Prop where
  exits : ∀ sid payload sig, c.pending.get? sid = some payload → payload.signal = some sig →
    sig.action = .exit → (forceLiquidationMap v.inventory).get? sid = none →
    ∃ plan, r.plans.get? sid = some plan ∧ plan.signal = some sig ∧ plan.blocked = false
  entries : ∀ sid plan sig, r.plans.get? sid = some plan → plan.signal = some sig →
    isEntryAction sig.action = true →
    plan.blocked = false ∧ v.conflicts.approvedSignals.get? sid = some (some sig) ∧
      v.exposure.allowed = true ∧ inputs.macroBlockNewEntries = false ∧
      v.inventory.isEntryLocked env.upper sig.symbol (entrySide sig.action) = false
  budgeted : (∀ sid payload, c.pending.get? sid = some payload →
      ∃ budget, v.riskBudgets.get? sid = some budget) →
    r.plans.total (fun _ plan => plan.riskFraction) ≤ 1

end Gates

def stillEnv : CycleEnv where
  upper := id
  parseFloat := fun _ => none
  fixed3 := fun _ => "0.000"
  returnsVol := fun _ => 0
  returnsCorr := fun _ _ => 0
  std := fun _ => 0
  norm := fun _ => 1
  dateOrdinal := fun _ => none
  todayOrdinal := 0
  today := "2026-07-20"
  now := "2026-07-20T14:30"
  legRealizedPnl := fun _ => 0
  promotionPnls := fun _ _ => []

def goldExit : Signal where
  symbol := "GLD"
  action := .exit
  price := 100
  timestamp := "2026-07-20"
  strategyId := "trend_gld"

def goldLeg (limit : ParamValue) : LegCyclePayload Unit where
  strategyId := "trend_gld"
  symbol := "GLD"
  signal := some goldExit
  routingParams := Dict.empty.set "max_position_pct" limit
  baseRiskFraction := 1 / 2
  window := ⟨1, .new Nat.one_pos⟩

/-- A book that holds gold and oil. -/
def goldOilInputs (grossExposureCapMultiplier : ℚ) : CycleInputs where
  enabledConfigs := [{ strategyId := "trend_gld", symbol := "GLD" },
    { strategyId := "trend_uso", symbol := "USO" }]
  account := { equity := 1000, cash := 1000, buyingPower := 1000 }
  positions := [{ symbol := "GLD", qty := 5, side := .long, avgEntryPrice := 100 },
    { symbol := "USO", qty := 5, side := .long, avgEntryPrice := 100 }]
  grossExposureCapMultiplier := grossExposureCapMultiplier

def begun : PortfolioCoordinator Unit :=
  PortfolioCoordinator.beginCycle {} "c0" (goldOilInputs 1).account

def LeavesExitUnplanned (c : PortfolioCoordinator Unit) (inputs : CycleInputs) : Prop :=
  c.activeSignals.get? "trend_gld" = some (some goldExit) ∧
    (forceLiquidationMap (c.judge stillEnv inputs).1.inventory).get? "trend_gld" = none ∧
    ∀ r after, c.coordinateCycle stillEnv "c1" inputs = .ok (r, after) →
      r.plans.get? "trend_gld" = none

def plansNothing (c : PortfolioCoordinator Unit) (inputs : CycleInputs) : Bool :=
  (c.coordinateCycle stillEnv "c1" inputs).toOption.all fun p => p.1.plans.items.isEmpty

end TradingPlatform.Engine.Portfolio
