import TradingPlatform.Engine.PortfolioBrain

/-! # Inventory and exposure

The two gates of the brain that look at what the book holds. Positions carried
over days lock entries that would add to them, and a position held too long is
to be liquidated; the book as proposed is held to four caps. -/

namespace TradingPlatform.Engine.Portfolio

open TradingPlatform.Lib

/-! ## Cross-session inventory -/

def minMultidayCalendarDays : ℤ := 1
def forcedDurationExhaustion : String := "FORCED_DURATION_EXHAUSTION"

inductive InventoryDirective
  | globalEntryLockout
  | forceLiquidationExecute
  deriving DecidableEq, Repr

def InventoryDirective.text : InventoryDirective → String
  | .globalEntryLockout => "GLOBAL_ENTRY_LOCKOUT"
  | .forceLiquidationExecute => "FORCE_LIQUIDATION_EXECUTE"

inductive InventoryBreach
  | multidayLongExposureCap
  | multidayShortExposureCap
  | multidayHoldingDuration
  deriving DecidableEq, Repr

def sideText : PositionSide → String
  | .long => "long"
  | .short => "short"

structure ActivePositionManifest where
  strategyId : String
  symbol : String
  side : PositionSide
  notional : ℚ
  calendarDaysHeld : ℤ
  openedSessionDate : String := ""
  deriving DecidableEq

structure ForceLiquidationTarget where
  strategyId : String
  symbol : String
  side : PositionSide
  notional : ℚ
  calendarDaysHeld : ℤ
  openedSessionDate : String
  transitionReason : String := forcedDurationExhaustion
  deriving DecidableEq

/-- The verdict, without the texts that are only logged. -/
structure InventoryPathDependencyVerdict where
  directive : Option InventoryDirective
  allowed : Bool
  netLongExposure : ℚ
  netShortExposure : ℚ
  multidayNetExposure : ℚ
  multidayExposureRatio : ℚ
  capNotional : ℚ
  blockedEntryBySymbol : Dict String (List PositionSide)
  breachCodes : List InventoryBreach
  directives : List InventoryDirective
  forceLiquidationTargets : List ForceLiquidationTarget
  deriving DecidableEq

def InventoryPathDependencyVerdict.isEntryLocked (upper : String → String)
    (v : InventoryPathDependencyVerdict) (symbol : String) (direction : PositionSide) : Bool :=
  direction ∈ (v.blockedEntryBySymbol.get? (upper symbol)).getD []

def InventoryPathDependencyVerdict.hasDirective (v : InventoryPathDependencyVerdict)
    (directive : InventoryDirective) : Bool :=
  v.directive = some directive ∨ directive ∈ v.directives

/-- `blocked_entry_by_symbol.setdefault(symbol, set()).add(side)`. -/
def lockEntry (blocked : Dict String (List PositionSide)) (lock : String × PositionSide) :
    Dict String (List PositionSide) :=
  blocked.set lock.1 (((blocked.get? lock.1).getD []).insert lock.2)

/-- `d[key] = d.get(key, 0.0) + amount`. -/
def addTo (d : Dict String ℚ) (key : String) (amount : ℚ) : Dict String ℚ :=
  d.set key ((d.get? key).getD 0 + amount)

/-- What one side of the book carries over days, by symbol. -/
def multidayBySymbol (upper : String → String) (side : PositionSide)
    (rows : List ActivePositionManifest) : Dict String ℚ :=
  (rows.filter (·.side = side)).foldl (fun d row => addTo d (upper row.symbol) |row.notional|) .empty

def multidayNet (side : PositionSide) (rows : List ActivePositionManifest) : ℚ :=
  ((rows.filter (·.side = side)).map (|·.notional|)).sum

def multidayPositions (manifest : List ActivePositionManifest) : List ActivePositionManifest :=
  manifest.filter fun row => 0 < row.notional ∧ minMultidayCalendarDays ≤ row.calendarDaysHeld

def PortfolioBrain.forceLiquidationTargets (brain : PortfolioBrain) (upper : String → String)
    (rows : List ActivePositionManifest) : List ForceLiquidationTarget :=
  (rows.filter fun row => brain.maxMultidayHoldingCalendarDays ≤ row.calendarDaysHeld).map fun row =>
    { strategyId := row.strategyId, symbol := upper row.symbol, side := row.side
      notional := |row.notional|, calendarDaysHeld := row.calendarDaysHeld
      openedSessionDate := row.openedSessionDate }

/-- The symbols a side over its cap may not add to. -/
def capLocks (side : PositionSide) (bySymbol : Dict String ℚ) : List (String × PositionSide) :=
  (bySymbol.items.filter (0 < ·.2)).map fun p => (p.1, side)

def PortfolioBrain.capNotional (brain : PortfolioBrain) (currentEquity : ℚ) : ℚ :=
  max currentEquity 1 * brain.maxMultidayDirectionalExposureFraction

def PortfolioBrain.overCap (brain : PortfolioBrain) (currentEquity : ℚ) (side : PositionSide)
    (rows : List ActivePositionManifest) : Bool :=
  brain.capNotional currentEquity + 1 / 1000000000 < multidayNet side rows

def PortfolioBrain.checkInventoryPathDependency (brain : PortfolioBrain) (upper : String → String)
    (manifest : List ActivePositionManifest) (currentEquity : ℚ) :
    InventoryPathDependencyVerdict :=
  let rows := multidayPositions manifest
  let netLong := multidayNet .long rows
  let netShort := multidayNet .short rows
  let targets := brain.forceLiquidationTargets upper rows
  let longOver := brain.overCap currentEquity .long rows
  let shortOver := brain.overCap currentEquity .short rows
  let locks :=
    (if longOver then capLocks .long (multidayBySymbol upper .long rows) else []) ++
    (if shortOver then capLocks .short (multidayBySymbol upper .short rows) else []) ++
    targets.map fun target => (target.symbol, target.side)
  let breachCodes :=
    (if longOver then [.multidayLongExposureCap] else []) ++
    (if shortOver then [.multidayShortExposureCap] else []) ++
    (if targets = [] then [] else [.multidayHoldingDuration])
  let directives :=
    (if breachCodes = [] then [] else [InventoryDirective.globalEntryLockout]) ++
    (if targets = [] then [] else [.forceLiquidationExecute])
  { directive := directives.head?
    allowed := directives = []
    netLongExposure := netLong
    netShortExposure := netShort
    multidayNetExposure := max netLong netShort
    multidayExposureRatio := max netLong netShort / max currentEquity 1
    capNotional := brain.capNotional currentEquity
    blockedEntryBySymbol := locks.foldl lockEntry .empty
    breachCodes, directives
    forceLiquidationTargets := targets }

/-- Both ends count; a date that does not parse counts as none. -/
def calendarDaysBetween (dateOrdinal : String → Option ℤ) (today : ℤ) (openedSessionDate : String) :
    ℤ :=
  if openedSessionDate = "" then 0
  else
    match dateOrdinal (.ofList (openedSessionDate.toList.take 10)) with
    | none => 0
    | some opened => max 1 (today - opened + 1)

/-- An entry is locked only under the directive that says so. -/
theorem hasDirective_of_locked {brain : PortfolioBrain} {upper : String → String}
    {manifest : List ActivePositionManifest} {equity : ℚ} {symbol : String}
    {direction : PositionSide}
    (h : (brain.checkInventoryPathDependency upper manifest equity).isEntryLocked upper symbol
      direction = true) :
    (brain.checkInventoryPathDependency upper manifest equity).hasDirective .globalEntryLockout =
      true := by
  by_cases hcodes : (brain.checkInventoryPathDependency upper manifest equity).breachCodes = []
  · simp only [PortfolioBrain.checkInventoryPathDependency, List.append_eq_nil_iff,
      ite_eq_right_iff, ite_eq_left_iff, reduceCtorEq, imp_false, not_not,
      Bool.not_eq_true] at hcodes
    obtain ⟨⟨hlong, hshort⟩, htargets⟩ := hcodes
    simp [InventoryPathDependencyVerdict.isEntryLocked,
      PortfolioBrain.checkInventoryPathDependency, hlong, hshort, htargets] at h
  · rw [InventoryPathDependencyVerdict.hasDirective, decide_eq_true_eq]
    refine .inr (List.mem_append_left _ ?_)
    rw [if_neg (by exact hcodes)]
    exact List.mem_singleton_self _

/-! ## Global exposure -/

def maxNetBetaExposure : ℚ := 125 / 100
def maxGrossExposureRatio : ℚ := 150 / 100
def maxSectorConcentration : ℚ := 85 / 100
def maxFactorCrowding : ℚ := 90 / 100

abbrev FactorLoadings := ℚ × ℚ × ℚ

def sectorBySymbol : Dict String String :=
  .tabulate Prod.fst Prod.snd
    [("QQQ", "US_LARGE_CAP_GROWTH"), ("SPY", "US_LARGE_CAP_BLEND"), ("GLD", "PRECIOUS_METALS"),
     ("USO", "ENERGY_COMMODITIES"), ("BTC/USD", "CRYPTO")]

def factorLoadingsBySymbol : Dict String FactorLoadings :=
  .tabulate Prod.fst Prod.snd
    [("QQQ", (115 / 100, -20 / 100, 30 / 100)), ("SPY", (1, 0, 5 / 100)),
     ("GLD", (5 / 100, 0, 0)), ("USO", (30 / 100, 0, 0)), ("BTC/USD", (2, 0, 0))]

def betaBySymbol : Dict String ℚ :=
  .tabulate Prod.fst Prod.snd
    [("QQQ", 115 / 100), ("SPY", 1), ("GLD", 5 / 100), ("USO", 30 / 100), ("BTC/USD", 2)]

inductive ExposureBreach
  | netBetaCap
  | grossExposureCap
  | sectorConcentrationCap
  | factorCrowdingCap
  | macroRiskOffCap
  deriving DecidableEq, Repr

def ExposureBreach.text : ExposureBreach → String
  | .netBetaCap => "net_beta_cap"
  | .grossExposureCap => "gross_exposure_cap"
  | .sectorConcentrationCap => "sector_concentration_cap"
  | .factorCrowdingCap => "factor_crowding_cap"
  | .macroRiskOffCap => "macro_risk_off_cap"

structure ProposedPosition where
  strategyId : String
  symbol : String
  side : PositionSide
  notional : ℚ
  beta : ℚ
  sector : String
  factorLoadings : FactorLoadings

structure ExposureValidation where
  allowed : Bool
  sizingMultipliers : Dict String ℚ
  breachCodes : List ExposureBreach
  netBeta : ℚ
  grossExposureRatio : ℚ
  sectorConcentration : ℚ
  factorCrowding : ℚ

section Exposure
variable (upper : String → String) (norm : FactorLoadings → ℚ)

def symbolBeta (symbol : String) : ℚ := (betaBySymbol.get? (upper symbol)).getD 1

def symbolSector (symbol : String) : String :=
  (sectorBySymbol.get? (upper symbol)).getD "US_EQUITY_OTHER"

def symbolFactors (symbol : String) : FactorLoadings :=
  (factorLoadingsBySymbol.get? (upper symbol)).getD (1, 0, 0)

def proposedPosition (strategyId symbol : String) (side : PositionSide) (notional : ℚ) :
    ProposedPosition where
  strategyId := strategyId
  symbol := symbol
  side := side
  notional := notional
  beta := symbolBeta upper symbol
  sector := symbolSector upper symbol
  factorLoadings := symbolFactors upper symbol

def positionNotional (pos : Position) : ℚ := |pos.qty| * max pos.avgEntryPrice 0

/-- The side an entry opens. -/
def entrySide (action : SignalAction) : PositionSide := if action = .long then .long else .short

/-- What the legs hold, then what their entries would add. -/
def PortfolioBrain.estimateProposedPositions (brain : PortfolioBrain)
    (signals : Dict String (Option Signal)) (positions : List Position)
    (legMetrics : Dict String LegMetrics) (equity : ℚ) : List ProposedPosition :=
  let posMap := Dict.keyBy (fun p : Position => upper p.symbol) positions
  let held := legMetrics.items.filterMap fun leg =>
    (posMap.get? (upper leg.2.symbol)).map fun existing =>
      proposedPosition upper leg.1 (upper leg.2.symbol) existing.side (positionNotional existing)
  let budgets :=
    if brain.riskBudgets.items = [] then normalizeWeights (legMetrics.mapValues fun _ _ => 1)
    else brain.riskBudgets
  let entered := signals.items.filterMap fun leg =>
    match leg.2 with
    | none => none
    | some sig =>
      if isEntryAction sig.action = true ∧ (legMetrics.get? leg.1).isSome = true then
        some (proposedPosition upper leg.1 (upper sig.symbol) (entrySide sig.action)
          (equity * (budgets.get? leg.1).getD 0 * (95 / 100)))
      else none
  held ++ entered

/-- `float(1 - np.average(dispersions, weights))`, between zero and one; a lone
position does not crowd. -/
def factorCrowding (counted : List ProposedPosition) : ℚ :=
  if counted.length < 2 then 0
  else
    let weightSum := (counted.map (|·.notional|)).sum
    let weighted := counted.map fun pos =>
      (|pos.notional| / (if weightSum = 0 then 1 else weightSum), pos.factorLoadings)
    let centroid := (weighted.map fun p => p.1 • p.2).sum
    let dispersion := (weighted.map fun p => norm (p.2 - centroid) * p.1).sum
    max 0 (min 1 (1 - dispersion / (weighted.map Prod.fst).sum))

/-- A breach scales every leg down, and past the cap to nothing. -/
def exposureMultipliers (proposedPositions : List ProposedPosition) (allowed : Bool) (severity : ℚ) :
    Dict String ℚ :=
  let multipliers := Dict.tabulate ProposedPosition.strategyId (fun _ => 1) proposedPositions
  if allowed then multipliers
  else
    let scale := max 0 (min 1 (1 / severity))
    multipliers.mapValues fun _ _ => if 1 < severity then 0 else scale

def PortfolioBrain.validateGlobalExposure (brain : PortfolioBrain)
    (proposedPositions : List ProposedPosition) (equity : ℚ) : ExposureValidation :=
  let equityBase := max (if equity = 0 then brain.equity else equity) 1
  let counted := proposedPositions.filter (0 < ·.notional)
  let netBeta := (counted.map fun pos => pos.side.sign * pos.notional * pos.beta).sum / equityBase
  let grossRatio := (counted.map (|·.notional|)).sum / equityBase
  let sectorNotionals :=
    (counted.foldl (fun d pos => addTo d pos.sector |pos.notional|) .empty).items.map Prod.snd
  let sectorTotal := if sectorNotionals.sum = 0 then 1 else sectorNotionals.sum
  let sectorConcentration := sectorNotionals.foldl max 0 / sectorTotal
  let crowding := factorCrowding norm counted
  let breachCodes :=
    (if maxNetBetaExposure < |netBeta| then [.netBetaCap] else []) ++
    (if maxGrossExposureRatio < grossRatio then [.grossExposureCap] else []) ++
    (if maxSectorConcentration < sectorConcentration then [.sectorConcentrationCap] else []) ++
    (if maxFactorCrowding < crowding then [.factorCrowdingCap] else [])
  let severity := max (max (max (|netBeta| / maxNetBetaExposure) (grossRatio / maxGrossExposureRatio))
    (sectorConcentration / maxSectorConcentration))
    (if 0 < crowding then crowding / maxFactorCrowding else 0)
  { allowed := breachCodes = []
    sizingMultipliers := exposureMultipliers proposedPositions (breachCodes = []) severity
    breachCodes, netBeta
    grossExposureRatio := grossRatio
    sectorConcentration
    factorCrowding := crowding }

/-- No leg is sized up, or below nothing. -/
theorem exposureMultipliers_bounds {proposed : List ProposedPosition} {allowed : Bool}
    {severity : ℚ} {sid : String} {m : ℚ}
    (h : (exposureMultipliers proposed allowed severity).get? sid = some m) : 0 ≤ m ∧ m ≤ 1 := by
  unfold exposureMultipliers at h
  dsimp only at h
  split at h
  · obtain ⟨_, -, -, rfl⟩ := Dict.mem_of_tabulate _ h
    exact ⟨zero_le_one, le_rfl⟩
  rw [Dict.get?_mapValues, Option.map_eq_some_iff] at h
  obtain ⟨_, -, rfl⟩ := h
  split
  · exact ⟨le_rfl, zero_le_one⟩
  · exact ⟨le_max_left _ _, max_le zero_le_one (min_le_left _ _)⟩

end Exposure

end TradingPlatform.Engine.Portfolio
