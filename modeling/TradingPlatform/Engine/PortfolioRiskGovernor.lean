import TradingPlatform.Models
import TradingPlatform.Lib.Dict
import TradingPlatform.Lib.Runs
import TradingPlatform.Lib.StableSort
import Mathlib.Data.List.Dedup
import Mathlib.Data.String.Basic
import Mathlib.Tactic.Linarith

/-! # The portfolio risk governor

Each due leg is measured against the peak of its own profit curve, over the
high-water of the account. The peaks go through the store; the high-water is
serialized, but the table has no column for it, so a restart starts it at zero. -/

namespace TradingPlatform.Engine.RiskGovernor

open TradingPlatform.Lib TradingPlatform.Lib.Runs

/-- `symbol.upper().replace("/", "")`. -/
def cryptoPositionSymbol (upper : String → String) (symbol : String) : String :=
  String.ofList ((upper symbol).toList.filter (· ≠ '/'))

def matchPosition (upper : String → String) (symbol : String) (positions : List Position) :
    Option Position :=
  positions.find? fun pos => cryptoPositionSymbol upper pos.symbol = cryptoPositionSymbol upper symbol

structure GovernorVerdict where
  sizingMultipliers : Dict String ℚ
  exitOnlyStrategyIds : List String
  correlationPairs : Dict (String × String) ℚ
  strategyDrawdowns : Dict String ℚ
  coldStartClampedStrategyIds : List String

def correlationClampMultiplier : ℚ := 6 / 10

def equityHistoryLimit : Nat := 256

def formulaVersion : String := "v-GV3-pnlcurve"

/-- The fields a governor is configured with. -/
structure Limits where
  maxSafeCorrelation : ℚ := 85 / 100
  clampMultiplier : ℚ := correlationClampMultiplier
  strategyMaxDrawdown : ℚ := 6 / 100
  minCorrelationSamples : Nat := 20

structure PortfolioRiskGovernor where
  equityHistoryByStrategy : Dict String (List ℚ) := .empty
  strategyPeaks : Dict String ℚ := .empty
  strategyDrawdowns : Dict String ℚ := .empty
  strategyExitOnly : List String := []
  peakBrokerEquity : ℚ := 0
  deriving DecidableEq

/-- `evaluate(...)`; of a window the governor reads the closes. -/
structure EvaluateCall where
  enabledConfigs : List StrategyConfig
  windows : Dict String (List ℚ) := .empty
  positions : List Position := []
  realizedPnls : Dict String ℚ := .empty
  brokerEquity : ℚ
  allocationFractions : Dict String ℚ := .empty

/-! ## Sizing -/

section Sizing
variable (computeReturnCorrelation : List ℚ → List ℚ → ℚ) (limits : Limits) (call : EvaluateCall)

def EvaluateCall.closes (strategyId : String) : List ℚ := (call.windows.get? strategyId).getD []

/-- The pairs of one leg with the legs after it. -/
def pairLegs (left : StrategyConfig) (rest : List StrategyConfig)
    (pairs : Dict (String × String) ℚ) : Dict (String × String) ℚ :=
  rest.foldl (fun pairs right =>
    if (call.closes right.strategyId).length < limits.minCorrelationSamples then pairs
    else
      let corr :=
        computeReturnCorrelation (call.closes left.strategyId) (call.closes right.strategyId)
      (pairs.set (left.strategyId, right.strategyId) corr).set
        (right.strategyId, left.strategyId) corr) pairs

def correlationLoop : List StrategyConfig → Dict (String × String) ℚ → Dict (String × String) ℚ
  | [], pairs => pairs
  | left :: rest, pairs =>
    if (call.closes left.strategyId).length < limits.minCorrelationSamples then
      correlationLoop rest pairs
    else correlationLoop rest (pairLegs computeReturnCorrelation limits call left rest pairs)

def computeCorrelationPairs : Dict (String × String) ℚ :=
  correlationLoop computeReturnCorrelation limits call (call.enabledConfigs.filter (·.enabled))
    .empty

def clampTo (cap : ℚ) (multipliers : Dict String ℚ) (strategyId : String) : Dict String ℚ :=
  multipliers.set strategyId (min ((multipliers.get? strategyId).getD 1) cap)

def coldStart (cfg : StrategyConfig) : Bool :=
  cfg.enabled && decide ((call.closes cfg.strategyId).length < limits.minCorrelationSamples)

/-- The multipliers are a function of the call alone. -/
def sizingMultipliers : Dict String ℚ :=
  let enabled := call.enabledConfigs.filter (·.enabled)
  let base : Dict String ℚ := .tabulate (·.strategyId) (fun _ => 1) enabled
  let clamped :=
    (computeCorrelationPairs computeReturnCorrelation limits call).items.foldl
      (fun multipliers pair =>
        if |pair.2| < limits.maxSafeCorrelation then multipliers
        else
          clampTo limits.clampMultiplier (clampTo limits.clampMultiplier multipliers pair.1.1)
            pair.1.2) base
  -- The cold-start clamp takes the module's constant, not the governor's own field.
  (call.enabledConfigs.filter (coldStart limits call)).foldl
    (fun multipliers cfg => clampTo correlationClampMultiplier multipliers cfg.strategyId) clamped

end Sizing

/-! ## Drawdowns -/

/-- The largest of a leg's readings, zero when there is none. -/
def historyPeak : List ℚ → ℚ
  | [] => 0
  | v :: vs => vs.foldl max v

/-- `deque(maxlen=EQUITY_HISTORY_LIMIT).append`. -/
def pushHistory (history : List ℚ) (v : ℚ) : List ℚ :=
  (history ++ [v]).drop ((history ++ [v]).length - equityHistoryLimit)

/-- `(peak_pnl - leg_pnl) / peak_broker_equity`, from the fall and the high-water. -/
def drawdownAt (peakBrokerEquity fall : ℚ) : ℚ :=
  if peakBrokerEquity ≤ 0 then 0 else max 0 (fall / peakBrokerEquity)

structure EvaluateLoop where
  governor : PortfolioRiskGovernor
  strategyDrawdowns : Dict String ℚ := .empty
  exitOnly : List String := []

namespace PortfolioRiskGovernor

def peakOf (g : PortfolioRiskGovernor) (strategyId : String) : ℚ :=
  (g.strategyPeaks.get? strategyId).getD 0

def drawdownOf (g : PortfolioRiskGovernor) (strategyId : String) : ℚ :=
  (g.strategyDrawdowns.get? strategyId).getD 0

def historyOf (g : PortfolioRiskGovernor) (strategyId : String) : List ℚ :=
  (g.equityHistoryByStrategy.get? strategyId).getD []

end PortfolioRiskGovernor

section Evaluate
variable (upper : String → String) (computeReturnCorrelation : List ℚ → List ℚ → ℚ)
  (limits : Limits) (call : EvaluateCall)

/-- A leg's cumulative profit: realized, and unrealized on the position of its symbol. -/
def legPnl (cfg : StrategyConfig) : ℚ :=
  (call.realizedPnls.get? cfg.strategyId).getD 0 +
    ((matchPosition upper cfg.symbol call.positions).map (·.unrealizedPl)).getD 0

def carryLeg (l : EvaluateLoop) (strategyId : String) : EvaluateLoop :=
  { l with
    strategyDrawdowns := l.strategyDrawdowns.set strategyId (l.governor.drawdownOf strategyId)
    exitOnly :=
      if strategyId ∈ l.governor.strategyExitOnly then l.exitOnly.insert strategyId
      else l.exitOnly }

def measureLeg (l : EvaluateLoop) (strategyId : String) (pnl : ℚ) : EvaluateLoop :=
  let g := l.governor
  let history := pushHistory (g.historyOf strategyId) pnl
  -- `_resolve_peak`
  let peak := max (max (g.peakOf strategyId) (historyPeak history)) pnl
  let drawdown := drawdownAt g.peakBrokerEquity (peak - pnl)
  let exceeds := limits.strategyMaxDrawdown < drawdown
  { governor :=
      { g with
        equityHistoryByStrategy := g.equityHistoryByStrategy.set strategyId history
        strategyPeaks := g.strategyPeaks.set strategyId peak
        strategyDrawdowns := g.strategyDrawdowns.set strategyId drawdown
        strategyExitOnly :=
          if exceeds then g.strategyExitOnly.insert strategyId
          else g.strategyExitOnly.filter (· ≠ strategyId) }
    strategyDrawdowns := l.strategyDrawdowns.set strategyId drawdown
    exitOnly := if exceeds then l.exitOnly.insert strategyId else l.exitOnly }

/-- One leg's turn. A leg without an allocation fraction was not due: it is not measured. -/
def evaluateLeg (l : EvaluateLoop) (cfg : StrategyConfig) : EvaluateLoop :=
  if cfg.enabled = false then l
  else if call.allocationFractions.get? cfg.strategyId = none then carryLeg l cfg.strategyId
  else measureLeg limits l cfg.strategyId (legPnl upper call cfg)

def evaluateLegs (g : PortfolioRiskGovernor) : EvaluateLoop :=
  call.enabledConfigs.foldl (evaluateLeg upper limits call)
    { governor := { g with peakBrokerEquity := max g.peakBrokerEquity call.brokerEquity } }

def evaluate (g : PortfolioRiskGovernor) : GovernorVerdict × PortfolioRiskGovernor :=
  let l := evaluateLegs upper limits call g
  ({ sizingMultipliers := sizingMultipliers computeReturnCorrelation limits call
     exitOnlyStrategyIds := l.exitOnly
     correlationPairs := computeCorrelationPairs computeReturnCorrelation limits call
     strategyDrawdowns := l.strategyDrawdowns
     coldStartClampedStrategyIds :=
       ((call.enabledConfigs.filter (coldStart limits call)).map (·.strategyId)).dedup },
    l.governor)

end Evaluate

/-! ## The store -/

structure RiskRow where
  peakEquity : ℚ
  trailingDrawdownPct : ℚ
  exitOnlyMode : Bool
  deriving DecidableEq

/-- The serializer's mapping, and the loader's, which has no `peak_broker_equity`. -/
structure RiskPayload where
  formulaVersion : Option String
  peakBrokerEquity : Option ℚ
  strategies : Dict String RiskRow
  deriving DecidableEq

/-- A row of `portfolio_risk_strategy_state`. -/
structure StoredRow where
  strategyId : String
  row : RiskRow
  formulaVersion : Option String
  deriving DecidableEq

namespace PortfolioRiskGovernor

def riskRow (g : PortfolioRiskGovernor) (strategyId : String) : RiskRow where
  peakEquity := g.peakOf strategyId
  trailingDrawdownPct := g.drawdownOf strategyId
  exitOnlyMode := strategyId ∈ g.strategyExitOnly

/-- `sorted(set(peaks) | set(drawdowns) | set(exit_only))`. -/
def strategyIds (g : PortfolioRiskGovernor) : List String :=
  StableSort.sortBy id
    (g.strategyPeaks.items.map (·.1) ++ g.strategyDrawdowns.items.map (·.1) ++
      g.strategyExitOnly).dedup

def serializeRiskState (g : PortfolioRiskGovernor) : RiskPayload where
  formulaVersion := some RiskGovernor.formulaVersion
  peakBrokerEquity := some g.peakBrokerEquity
  strategies := .tabulate id g.riskRow g.strategyIds

end PortfolioRiskGovernor

/-- The table is emptied and filled again; the account's high-water has no column. -/
def persistPortfolioRiskState (payload : RiskPayload) : List StoredRow :=
  payload.strategies.items.map fun p =>
    { strategyId := p.1, row := p.2, formulaVersion := payload.formulaVersion }

/-- Mixed stamps read as no stamp. -/
def coherentStamp (rows : List StoredRow) : Option String :=
  match (rows.map (·.formulaVersion)).dedup with
  | [stamp] => stamp
  | _ => none

def loadPortfolioRiskState (table : List StoredRow) : Option RiskPayload :=
  let rows := StableSort.sortBy (·.strategyId) table
  if rows = [] then none
  else
    some
      { formulaVersion := coherentStamp rows
        peakBrokerEquity := none
        strategies := .tabulate (·.strategyId) (·.row) rows }

namespace PortfolioRiskGovernor

/-- The baselines' values are ignored: a leg that has not traded peaks at zero. -/
def seedBaseline (g : PortfolioRiskGovernor) (strategyId : String) : PortfolioRiskGovernor :=
  { g with
    strategyPeaks := g.strategyPeaks.set strategyId 0
    strategyDrawdowns := g.strategyDrawdowns.set strategyId 0
    strategyExitOnly := g.strategyExitOnly.filter (· ≠ strategyId)
    equityHistoryByStrategy := g.equityHistoryByStrategy.set strategyId [0] }

def seedRow (g : PortfolioRiskGovernor) (p : String × RiskRow) : PortfolioRiskGovernor :=
  { g with
    strategyPeaks := g.strategyPeaks.set p.1 p.2.peakEquity
    strategyDrawdowns := g.strategyDrawdowns.set p.1 p.2.trailingDrawdownPct
    strategyExitOnly :=
      if p.2.exitOnlyMode then g.strategyExitOnly.insert p.1
      else g.strategyExitOnly.filter (· ≠ p.1)
    equityHistoryByStrategy := g.equityHistoryByStrategy.set p.1 [p.2.peakEquity] }

def rehydrateRiskState (g : PortfolioRiskGovernor) (payload : Option RiskPayload)
    (baselines : List String) : Bool × PortfolioRiskGovernor :=
  match payload with
  | none => (false, baselines.foldl seedBaseline g)
  | some payload =>
    if payload.strategies.items = [] then (false, baselines.foldl seedBaseline g)
    else if payload.formulaVersion ≠ some RiskGovernor.formulaVersion then (false, {})
    else
      (true,
        payload.strategies.items.foldl seedRow
          { g with peakBrokerEquity := payload.peakBrokerEquity.getD 0 })

/-- Serialize, store, load, and rehydrate a fresh governor. -/
def restart (g : PortfolioRiskGovernor) (baselines : List String) : PortfolioRiskGovernor :=
  (rehydrateRiskState {}
    (loadPortfolioRiskState (persistPortfolioRiskState g.serializeRiskState)) baselines).2

end PortfolioRiskGovernor

/-! ## One leg at a time -/

/-- What the loop holds of one leg: its peak, drawdown and latch in the governor,
and its drawdown and flag in the verdict. -/
structure LegView where
  peak : ℚ
  drawdown : ℚ
  exitOnly : Bool
  reported : Option ℚ := none
  flagged : Bool := false

def PortfolioRiskGovernor.leg (g : PortfolioRiskGovernor) (strategyId : String) : LegView :=
  { peak := g.peakOf strategyId, drawdown := g.drawdownOf strategyId
    exitOnly := strategyId ∈ g.strategyExitOnly }

def EvaluateLoop.leg (l : EvaluateLoop) (strategyId : String) : LegView :=
  { l.governor.leg strategyId with
    reported := l.strategyDrawdowns.get? strategyId, flagged := strategyId ∈ l.exitOnly }

def LegView.carry (v : LegView) : LegView :=
  { v with reported := some v.drawdown, flagged := v.flagged || v.exitOnly }

/-- A reading at a fall of `max v.peak pnl - pnl` from the peak, under a high-water. -/
def LegView.measure (limit highWater : ℚ) (v : LegView) (pnl : ℚ) : LegView :=
  let drawdown := drawdownAt highWater (max v.peak pnl - pnl)
  { peak := max v.peak pnl, drawdown, exitOnly := limit < drawdown
    reported := some drawdown, flagged := v.flagged || decide (limit < drawdown) }

/-- No reading of a leg's history stands above its peak. -/
def PeaksBound (g : PortfolioRiskGovernor) : Prop :=
  ∀ strategyId, ∀ v ∈ g.historyOf strategyId, v ≤ g.peakOf strategyId

theorem historyPeak_le {history : List ℚ} {b : ℚ} (hne : history ≠ [])
    (h : ∀ v ∈ history, v ≤ b) : historyPeak history ≤ b := by
  cases history with
  | nil => exact absurd rfl hne
  | cons v vs =>
    have hfold : ∀ (vs : List ℚ) (v : ℚ), v ≤ b → (∀ w ∈ vs, w ≤ b) → vs.foldl max v ≤ b := by
      intro vs
      induction vs with
      | nil => exact fun _ hv _ => hv
      | cons w ws ih =>
        intro v hv hws
        exact ih (max v w) (max_le hv (hws w List.mem_cons_self))
          fun u hu => hws u (List.mem_cons_of_mem _ hu)
    exact hfold vs v (h v List.mem_cons_self) fun w hw => h w (List.mem_cons_of_mem _ hw)

theorem mem_pushHistory {history : List ℚ} {pnl v : ℚ} (h : v ∈ pushHistory history pnl) :
    v ∈ history ∨ v = pnl := by
  simpa using List.mem_of_mem_drop h

theorem pushHistory_ne_nil (history : List ℚ) (pnl : ℚ) : pushHistory history pnl ≠ [] := by
  unfold pushHistory
  rw [ne_eq, List.drop_eq_nil_iff, List.length_append, List.length_singleton, equityHistoryLimit]
  omega

/-- The capped history never decides the peak. -/
theorem resolved_peak {history : List ℚ} {peak : ℚ} (h : ∀ v ∈ history, v ≤ peak) (pnl : ℚ) :
    max (max peak (historyPeak (pushHistory history pnl))) pnl = max peak pnl := by
  have hle : historyPeak (pushHistory history pnl) ≤ max peak pnl := by
    refine historyPeak_le (pushHistory_ne_nil history pnl) fun v hv => ?_
    rcases mem_pushHistory hv with hv | rfl
    · exact le_max_of_le_left (h v hv)
    · exact le_max_right _ _
  rw [max_assoc, max_comm (historyPeak _), ← max_assoc]
  exact max_eq_left hle

section Views
variable {upper : String → String} {limits : Limits} {call : EvaluateCall}

theorem leg_carryLeg (l : EvaluateLoop) (strategyId sid : String) :
    (carryLeg l strategyId).leg sid =
      if sid = strategyId then (l.leg sid).carry else l.leg sid := by
  unfold carryLeg EvaluateLoop.leg LegView.carry PortfolioRiskGovernor.leg
  by_cases hsid : sid = strategyId
  · subst hsid
    by_cases hexit : sid ∈ l.governor.strategyExitOnly <;> simp [hexit]
  · simp only [if_neg hsid, Dict.get?_set, LegView.mk.injEq, true_and]
    split <;> simp [List.mem_insert_iff, hsid]

theorem leg_measureLeg {l : EvaluateLoop} (hb : PeaksBound l.governor) (strategyId : String)
    (pnl : ℚ) (sid : String) :
    (measureLeg limits l strategyId pnl).leg sid =
      if sid = strategyId then
        (l.leg sid).measure limits.strategyMaxDrawdown l.governor.peakBrokerEquity pnl
      else l.leg sid := by
  have hpeak := resolved_peak (hb strategyId) pnl
  unfold measureLeg
  dsimp only
  rw [hpeak]
  unfold EvaluateLoop.leg LegView.measure PortfolioRiskGovernor.leg PortfolioRiskGovernor.peakOf
    PortfolioRiskGovernor.drawdownOf
  dsimp only
  simp only [Dict.get?_set]
  by_cases hsid : sid = strategyId
  · subst hsid
    simp only [if_true, Option.getD_some, LegView.mk.injEq, true_and]
    split <;> simp_all
  · simp only [if_neg hsid, LegView.mk.injEq, true_and]
    constructor <;> split <;> simp [List.mem_insert_iff, hsid]

theorem peaksBound_measureLeg {l : EvaluateLoop} (hb : PeaksBound l.governor) (strategyId : String)
    (pnl : ℚ) : PeaksBound (measureLeg limits l strategyId pnl).governor := by
  have hpeak := resolved_peak (hb strategyId) pnl
  intro sid v hv
  unfold measureLeg PortfolioRiskGovernor.historyOf at hv
  unfold measureLeg
  dsimp only at hv ⊢
  rw [hpeak]
  unfold PortfolioRiskGovernor.peakOf
  dsimp only
  rw [Dict.get?_set] at hv ⊢
  by_cases hsid : sid = strategyId
  · subst hsid
    rw [if_pos rfl, Option.getD_some] at hv ⊢
    rcases mem_pushHistory hv with hv | rfl
    · exact le_max_of_le_left (hb sid v hv)
    · exact le_max_right _ _
  · rw [if_neg hsid] at hv ⊢
    exact hb sid v hv

variable (upper call) in
/-- The turns of one leg in a call, whether it is measured at them or carried. -/
def turns (strategyId : String) (cfgs : List StrategyConfig) : List ℚ :=
  (cfgs.filter fun cfg => cfg.enabled && decide (cfg.strategyId = strategyId)).map
    (legPnl upper call)

variable (limits call) in
def LegView.turn (strategyId : String) (highWater : ℚ) (v : LegView) (pnl : ℚ) : LegView :=
  if call.allocationFractions.get? strategyId = none then v.carry
  else v.measure limits.strategyMaxDrawdown highWater pnl

variable (upper limits call) in
theorem evaluateLeg_spec {l : EvaluateLoop} (hb : PeaksBound l.governor) (cfg : StrategyConfig) :
    PeaksBound (evaluateLeg upper limits call l cfg).governor ∧
    (evaluateLeg upper limits call l cfg).governor.peakBrokerEquity =
      l.governor.peakBrokerEquity ∧
    ∀ sid, (evaluateLeg upper limits call l cfg).leg sid =
      (turns upper call sid [cfg]).foldl
        (LegView.turn limits call sid l.governor.peakBrokerEquity) (l.leg sid) := by
  unfold evaluateLeg turns LegView.turn
  by_cases hoff : cfg.enabled = false
  · rw [if_pos hoff]
    exact ⟨hb, rfl, fun sid => by simp [hoff]⟩
  rw [if_neg hoff]
  have hon : cfg.enabled = true := Bool.not_eq_false _ ▸ hoff
  by_cases hdue : call.allocationFractions.get? cfg.strategyId = none
  · rw [if_pos hdue]
    refine ⟨hb, rfl, fun sid => ?_⟩
    rw [leg_carryLeg]
    by_cases hsid : sid = cfg.strategyId
    · subst hsid
      simp [hon, hdue]
    · simp [hon, hsid, Ne.symm hsid]
  · rw [if_neg hdue]
    refine ⟨peaksBound_measureLeg hb _ _, rfl, fun sid => ?_⟩
    rw [leg_measureLeg hb]
    by_cases hsid : sid = cfg.strategyId
    · subst hsid
      simp [hon, hdue]
    · simp [hon, hsid, Ne.symm hsid]

/-- Over the whole loop each leg sees its own turns only. -/
theorem foldl_evaluateLeg (cfgs : List StrategyConfig) {l : EvaluateLoop}
    (hb : PeaksBound l.governor) :
    PeaksBound (cfgs.foldl (evaluateLeg upper limits call) l).governor ∧
    (cfgs.foldl (evaluateLeg upper limits call) l).governor.peakBrokerEquity =
      l.governor.peakBrokerEquity ∧
    ∀ sid, (cfgs.foldl (evaluateLeg upper limits call) l).leg sid =
      (turns upper call sid cfgs).foldl
        (LegView.turn limits call sid l.governor.peakBrokerEquity) (l.leg sid) := by
  induction cfgs generalizing l with
  | nil => exact ⟨hb, rfl, fun _ => rfl⟩
  | cons cfg rest ih =>
    obtain ⟨hb', hhw, hleg⟩ := evaluateLeg_spec upper limits call hb cfg
    obtain ⟨hbound, hsame, hview⟩ := ih hb'
    refine ⟨hbound, hsame.trans hhw, fun sid => ?_⟩
    have hsplit : turns upper call sid (cfg :: rest) =
        turns upper call sid [cfg] ++ turns upper call sid rest := by
      unfold turns
      rw [← List.map_append, ← List.filter_append]
      rfl
    rw [List.foldl_cons, hview, hhw, hleg, hsplit, List.foldl_append]

end Views

/-! ## Two high-waters -/

/-- How far below its peak a leg stands at each reading. -/
def falls : ℚ → List ℚ → List ℚ
  | _, [] => []
  | peak, pnl :: rest => (max peak pnl - pnl) :: falls (max peak pnl) rest

theorem falls_nonneg {peak : ℚ} {pnls : List ℚ} : ∀ f ∈ falls peak pnls, 0 ≤ f := by
  induction pnls generalizing peak with
  | nil => exact fun _ hf => nomatch hf
  | cons pnl rest ih =>
    intro f hf
    rcases List.mem_cons.mp hf with rfl | hf
    · exact sub_nonneg.mpr (le_max_right _ _)
    · exact ih f hf

/-- The readings of a leg in closed form: the last one stays, and any one flags. -/
theorem foldl_measure (limit highWater : ℚ) (pnls : List ℚ) (v : LegView) :
    pnls.foldl (LegView.measure limit highWater) v =
      { peak := pnls.foldl max v.peak
        drawdown := ((falls v.peak pnls).getLast?).elim v.drawdown (drawdownAt highWater)
        exitOnly := ((falls v.peak pnls).getLast?).elim v.exitOnly
          fun f => decide (limit < drawdownAt highWater f)
        reported := ((falls v.peak pnls).getLast?).elim v.reported
          fun f => some (drawdownAt highWater f)
        flagged := v.flagged ||
          (falls v.peak pnls).any fun f => decide (limit < drawdownAt highWater f) } := by
  induction pnls generalizing v with
  | nil => simp [falls]
  | cons pnl rest ih =>
    rw [List.foldl_cons, ih, falls]
    unfold LegView.measure
    dsimp only
    rw [List.getLast?_cons, List.any_cons, Bool.or_assoc]
    cases (falls (max v.peak pnl) rest).getLast? <;> rfl

/-- The readings come out the same under both high-waters: these are equal, or the
last reading is at its peak and the two draw the line through no other reading. -/
def Unread (limit highWater highWater' : ℚ) (fs : List ℚ) : Prop :=
  highWater = highWater' ∨
    (∀ f ∈ fs.getLast?, f = 0) ∧
      ((∃ f ∈ fs, limit < drawdownAt highWater f) ↔ ∃ f ∈ fs, limit < drawdownAt highWater' f)

theorem drawdownAt_zero (highWater : ℚ) : drawdownAt highWater 0 = 0 := by
  simp [drawdownAt]

/-- Below its peak a leg tells any two high-waters apart. -/
theorem drawdownAt_inj {a b f : ℚ} (ha : 0 ≤ a) (hb : 0 ≤ b) (hf : 0 < f)
    (h : drawdownAt a f = drawdownAt b f) : a = b := by
  have hpos : ∀ {c : ℚ}, 0 < c → drawdownAt c f = f / c := fun hc => by
    rw [drawdownAt, if_neg (not_le.mpr hc), max_eq_right (div_pos hf hc).le]
  have hzero : ∀ {c : ℚ}, 0 ≤ c → ¬0 < c → c = 0 := fun hc hn => le_antisymm (not_lt.mp hn) hc
  have hflat : drawdownAt 0 f = 0 := if_pos le_rfl
  by_cases hap : 0 < a
  · by_cases hbp : 0 < b
    · rw [hpos hap, hpos hbp] at h
      exact inv_injective (mul_left_cancel₀ hf.ne' h)
    · rw [hzero hb hbp, hpos hap, hflat] at h
      exact absurd h (div_pos hf hap).ne'
  · by_cases hbp : 0 < b
    · rw [hzero ha hap, hpos hbp, hflat] at h
      exact absurd h.symm (div_pos hf hbp).ne'
    · rw [hzero ha hap, hzero hb hbp]

theorem any_eq_any_iff {α : Type*} {p q : α → Bool} {fs : List α} :
    fs.any p = fs.any q ↔ ((∃ f ∈ fs, p f = true) ↔ ∃ f ∈ fs, q f = true) := by
  rw [Bool.eq_iff_iff, List.any_eq_true, List.any_eq_true]

/-- What one leg shows under two high-waters agrees just when its readings do not
depend on them, and then nothing of the leg does. -/
theorem measured_agree_iff {limit a b : ℚ} (ha : 0 ≤ a) (hb : 0 ≤ b) {v : LegView}
    (hnew : v.flagged = false) (pnls : List ℚ) :
    ((pnls.foldl (LegView.measure limit a) v).reported =
        (pnls.foldl (LegView.measure limit b) v).reported ∧
      (pnls.foldl (LegView.measure limit a) v).flagged =
        (pnls.foldl (LegView.measure limit b) v).flagged) ↔
      Unread limit a b (falls v.peak pnls) := by
  simp only [foldl_measure, hnew, Bool.false_or, any_eq_any_iff, decide_eq_true_eq]
  have hnonneg : ∀ f ∈ falls v.peak pnls, 0 ≤ f := falls_nonneg
  unfold Unread
  constructor
  · intro h
    obtain ⟨hlast, hflag⟩ := h
    by_cases hab : a = b
    · exact .inl hab
    refine .inr ⟨fun f hf => ?_, hflag⟩
    rw [Option.mem_def.mp hf] at hlast
    by_contra hne
    have hpos : 0 < f := lt_of_le_of_ne (hnonneg f (List.mem_of_getLast? hf)) (Ne.symm hne)
    exact hab (drawdownAt_inj ha hb hpos (Option.some.inj hlast))
  · intro h
    rcases h with rfl | ⟨hlast, hflag⟩
    · exact ⟨rfl, Iff.rfl⟩
    refine ⟨?_, hflag⟩
    cases hget : (falls v.peak pnls).getLast? with
    | none => rfl
    | some f =>
      rw [hlast f hget]
      simp [drawdownAt_zero]

/-- A leg listed once is read the same when its one reading stands at the peak. -/
theorem unread_singleton {limit a b f : ℚ} : Unread limit a b [f] ↔ a = b ∨ f = 0 := by
  unfold Unread
  constructor
  · intro h
    rcases h with hab | ⟨hlast, -⟩
    · exact .inl hab
    · exact .inr (hlast f rfl)
  · intro h
    rcases h with hab | rfl
    · exact .inl hab
    · simp [drawdownAt_zero]

theorem measured_same {limit a b : ℚ} {v : LegView} {pnls : List ℚ}
    (h : Unread limit a b (falls v.peak pnls)) :
    pnls.foldl (LegView.measure limit a) v = pnls.foldl (LegView.measure limit b) v := by
  rcases h with rfl | ⟨hlast, hflag⟩
  · rfl
  simp only [foldl_measure]
  have hany : ((falls v.peak pnls).any fun f => decide (limit < drawdownAt a f)) =
      (falls v.peak pnls).any fun f => decide (limit < drawdownAt b f) := by
    rw [any_eq_any_iff]
    simpa only [decide_eq_true_eq] using hflag
  rw [hany]
  cases hget : (falls v.peak pnls).getLast? with
  | none => rfl
  | some f =>
    rw [hlast f hget]
    simp only [Option.elim_some, drawdownAt_zero]

/-! ## Through the store -/

namespace PortfolioRiskGovernor

/-- A leg as a row restores it, with no reading above the row's peak. -/
structure Restores (g : PortfolioRiskGovernor) (strategyId : String) (row : RiskRow) : Prop where
  peak : g.peakOf strategyId = row.peakEquity
  drawdown : g.drawdownOf strategyId = row.trailingDrawdownPct
  exitOnly : strategyId ∈ g.strategyExitOnly ↔ row.exitOnlyMode = true
  bound : ∀ v ∈ g.historyOf strategyId, v ≤ row.peakEquity

theorem restores_seedRow (g : PortfolioRiskGovernor) (sid : String) (row : RiskRow) :
    (g.seedRow (sid, row)).Restores sid row := by
  refine ⟨?_, ?_, ?_, ?_⟩
  · simp [seedRow, peakOf]
  · simp [seedRow, drawdownOf]
  · unfold seedRow
    by_cases hexit : row.exitOnlyMode = true
    · simp [hexit]
    · simp [hexit]
  · simp [seedRow, historyOf]

theorem Restores.seedRow {g : PortfolioRiskGovernor} {sid : String} {row : RiskRow}
    (h : g.Restores sid row) {p : String × RiskRow} (hne : sid ≠ p.1) :
    (g.seedRow p).Restores sid row := by
  obtain ⟨hpeak, hdrawdown, hexit, hbound⟩ := h
  refine ⟨?_, ?_, ?_, ?_⟩
  · rw [← hpeak]
    simp only [PortfolioRiskGovernor.seedRow, peakOf, Dict.get?_set_ne _ hne]
  · rw [← hdrawdown]
    simp only [PortfolioRiskGovernor.seedRow, drawdownOf, Dict.get?_set_ne _ hne]
  · rw [← hexit]
    unfold PortfolioRiskGovernor.seedRow
    dsimp only
    split <;> simp [List.mem_insert_iff, hne]
  · simpa only [PortfolioRiskGovernor.seedRow, historyOf, Dict.get?_set_ne _ hne] using hbound

/-- Seeding from rows that agree with one table of rows restores the legs seeded. -/
theorem restores_foldl_seedRow {rowOf : String → RiskRow} (sid : String) :
    ∀ (items : List (String × RiskRow)) (g : PortfolioRiskGovernor),
      (∀ p ∈ items, p.2 = rowOf p.1) →
      sid ∈ items.map (·.1) ∨ g.Restores sid (rowOf sid) →
      (items.foldl PortfolioRiskGovernor.seedRow g).Restores sid (rowOf sid)
  | [], _, _, h => h.resolve_left List.not_mem_nil
  | p :: rest, g, hrows, h => by
    refine restores_foldl_seedRow sid rest _ (fun q hq => hrows q (List.mem_cons_of_mem _ hq)) ?_
    by_cases hsid : sid = p.1
    · subst hsid
      rw [← hrows p List.mem_cons_self]
      exact .inr (restores_seedRow g p.1 p.2)
    · rcases h with hmem | hrest
      · exact .inl ((List.mem_cons.mp hmem).resolve_left hsid)
      · exact .inr (hrest.seedRow hsid)

theorem foldl_seedRow_peakBrokerEquity (items : List (String × RiskRow))
    (g : PortfolioRiskGovernor) :
    (items.foldl PortfolioRiskGovernor.seedRow g).peakBrokerEquity = g.peakBrokerEquity := by
  induction items generalizing g with
  | nil => rfl
  | cons p rest ih => exact ih _

theorem mem_strategyIds {g : PortfolioRiskGovernor} {sid : String} :
    sid ∈ g.strategyIds ↔
      (∃ v, (sid, v) ∈ g.strategyPeaks.items) ∨ (∃ v, (sid, v) ∈ g.strategyDrawdowns.items) ∨
        sid ∈ g.strategyExitOnly := by
  unfold strategyIds
  rw [(StableSort.sortBy_perm _).mem_iff, List.mem_dedup]
  simp

/-- A leg the governor has nothing on is as a fresh governor has it. -/
theorem restores_fresh {g : PortfolioRiskGovernor} {sid : String} (h : sid ∉ g.strategyIds) :
    Restores {} sid (g.riskRow sid) := by
  rw [mem_strategyIds, not_or, not_or] at h
  obtain ⟨hpeak, hdrawdown, hexit⟩ := h
  have hnone : ∀ {d : Dict String ℚ}, (¬∃ v, (sid, v) ∈ d.items) → d.get? sid = none := by
    intro d hd
    cases hget : d.get? sid with
    | none => rfl
    | some v => exact absurd ⟨v, (d.get?_eq_some).mp hget⟩ hd
  refine ⟨?_, ?_, ?_, fun v hv => nomatch hv⟩
  · simp [riskRow, peakOf, hnone hpeak]
  · simp [riskRow, drawdownOf, hnone hdrawdown]
  · simp [riskRow, hexit]

end PortfolioRiskGovernor

theorem coherentStamp_of_forall {rows : List StoredRow} {stamp : Option String} (hne : rows ≠ [])
    (h : ∀ row ∈ rows, row.formulaVersion = stamp) : coherentStamp rows = stamp := by
  have hrep : rows.map (·.formulaVersion) = List.replicate rows.length stamp := by
    rw [← List.length_map (·.formulaVersion)]
    refine List.eq_replicate_of_mem fun s hs => ?_
    obtain ⟨row, hrow, rfl⟩ := List.mem_map.mp hs
    exact h row hrow
  have hlen : rows.length ≠ 0 := fun h0 => hne (List.length_eq_zero_iff.mp h0)
  rw [coherentStamp, hrep, List.replicate_dedup hlen]

/-- What the loader gives back of what the serializer wrote. -/
theorem load_persist (g : PortfolioRiskGovernor) :
    (g.strategyIds = [] ∧
      loadPortfolioRiskState (persistPortfolioRiskState g.serializeRiskState) = none) ∨
    ∃ strategies,
      loadPortfolioRiskState (persistPortfolioRiskState g.serializeRiskState) =
        some { formulaVersion := some formulaVersion, peakBrokerEquity := none, strategies } ∧
      strategies.items ≠ [] ∧ (∀ p ∈ strategies.items, p.2 = g.riskRow p.1) ∧
      ∀ sid ∈ g.strategyIds, sid ∈ strategies.items.map (·.1) := by
  unfold loadPortfolioRiskState
  have hperm : (StableSort.sortBy (·.strategyId)
      (persistPortfolioRiskState g.serializeRiskState)).Perm
      (persistPortfolioRiskState g.serializeRiskState) := StableSort.sortBy_perm _
  generalize StableSort.sortBy (·.strategyId) (persistPortfolioRiskState g.serializeRiskState) =
    rows at hperm
  have hrow : ∀ row ∈ rows, row.row = g.riskRow row.strategyId ∧
      row.formulaVersion = some formulaVersion := by
    intro row hmem
    obtain ⟨p, hp, rfl⟩ := List.mem_map.mp (hperm.mem_iff.mp hmem)
    obtain ⟨sid, -, hkey, hval⟩ := Dict.mem_of_tabulate id ((Dict.get?_eq_some _).mpr hp)
    exact ⟨by rw [← hval, ← hkey]; rfl, rfl⟩
  have hids : ∀ sid ∈ g.strategyIds, ∃ row ∈ rows, row.strategyId = sid := by
    intro sid hsid
    obtain ⟨row, hget⟩ := Dict.exists_of_mem_tabulate id g.riskRow hsid
    have hin := List.mem_map_of_mem (f := fun p : String × RiskRow =>
      ({ strategyId := p.1, row := p.2, formulaVersion := some formulaVersion } : StoredRow))
      ((Dict.get?_eq_some _).mp hget)
    exact ⟨_, hperm.mem_iff.mpr hin, rfl⟩
  by_cases hempty : rows = []
  · rw [if_pos hempty]
    refine .inl ⟨List.eq_nil_iff_forall_not_mem.mpr fun sid hsid => ?_, rfl⟩
    obtain ⟨row, hmem, -⟩ := hids sid hsid
    exact List.not_mem_nil (hempty ▸ hmem)
  rw [if_neg hempty, coherentStamp_of_forall hempty fun row hmem => (hrow row hmem).2]
  have hkeys : ∀ row ∈ rows,
      row.strategyId ∈ (Dict.tabulate (·.strategyId) (·.row) rows).items.map (·.1) := by
    intro row hmem
    obtain ⟨v, hget⟩ := Dict.exists_of_mem_tabulate (·.strategyId) (·.row) hmem
    exact List.mem_map.mpr ⟨_, (Dict.get?_eq_some _).mp hget, rfl⟩
  refine .inr ⟨_, rfl, ?_, ?_, ?_⟩
  · obtain ⟨row, hmem⟩ := List.exists_mem_of_ne_nil rows hempty
    exact List.map_eq_nil_iff.not.mp (List.ne_nil_of_mem (hkeys row hmem))
  · intro p hp
    have hget := (Dict.get?_eq_some _).mpr hp
    obtain ⟨row, hmem, hkey, hval⟩ := Dict.mem_of_tabulate StoredRow.strategyId hget
    rw [← hval, ← hkey]
    exact (hrow row hmem).1
  · intro sid hsid
    obtain ⟨row, hmem, rfl⟩ := hids sid hsid
    exact hkeys row hmem

/-- A restart restores every leg, and forgets the account's high-water. -/
theorem restart_spec (g : PortfolioRiskGovernor) (baselines : List String) :
    (g.restart baselines).peakBrokerEquity = 0 ∧
      ∀ sid, (g.restart baselines).Restores sid (g.riskRow sid) := by
  unfold PortfolioRiskGovernor.restart
  rcases load_persist g with ⟨hids, hload⟩ | ⟨strategies, hload, hne, hrows, hkeys⟩
  · -- Nothing was stored: the baselines register their legs at zero.
    have hfresh : ∀ sid, ({} : PortfolioRiskGovernor).Restores sid (g.riskRow sid) := fun sid =>
      PortfolioRiskGovernor.restores_fresh (hids ▸ List.not_mem_nil)
    have hzero : ∀ sid, g.riskRow sid = ⟨0, 0, false⟩ := by
      intro sid
      obtain ⟨hpeak, hdrawdown, hexit, -⟩ := hfresh sid
      have hoff : (g.riskRow sid).exitOnlyMode = false := by
        rw [← Bool.not_eq_true, ← hexit]
        exact List.not_mem_nil
      calc g.riskRow sid
          = ⟨(g.riskRow sid).peakEquity, (g.riskRow sid).trailingDrawdownPct,
              (g.riskRow sid).exitOnlyMode⟩ := rfl
        _ = ⟨0, 0, false⟩ := by rw [← hpeak, ← hdrawdown, hoff]; rfl
    have hseed : baselines.foldl PortfolioRiskGovernor.seedBaseline {} =
        (baselines.map fun sid => (sid, (⟨0, 0, false⟩ : RiskRow))).foldl
          PortfolioRiskGovernor.seedRow {} := by
      rw [List.foldl_map]
      rfl
    rw [hload]
    simp only [PortfolioRiskGovernor.rehydrateRiskState, hseed]
    refine ⟨PortfolioRiskGovernor.foldl_seedRow_peakBrokerEquity _ _, fun sid => ?_⟩
    refine PortfolioRiskGovernor.restores_foldl_seedRow sid _ _ (fun p hp => ?_)
      (.inr (hfresh sid))
    obtain ⟨sid', -, rfl⟩ := List.mem_map.mp hp
    exact (hzero sid').symm
  · rw [hload]
    simp only [PortfolioRiskGovernor.rehydrateRiskState, if_neg hne, ne_eq, not_true_eq_false,
      if_false]
    refine ⟨PortfolioRiskGovernor.foldl_seedRow_peakBrokerEquity _ _, fun sid => ?_⟩
    refine PortfolioRiskGovernor.restores_foldl_seedRow sid _ _ hrows ?_
    by_cases hsid : sid ∈ g.strategyIds
    · exact .inl (hkeys sid hsid)
    · have hfresh := PortfolioRiskGovernor.restores_fresh hsid
      exact .inr ⟨hfresh.peak, hfresh.drawdown, hfresh.exitOnly, hfresh.bound⟩

/-! ## Runs -/

/-- What every run of calls keeps. -/
structure Sound (g : PortfolioRiskGovernor) : Prop where
  bound : PeaksBound g
  nonneg : 0 ≤ g.peakBrokerEquity

/-- Two governors that differ in their high-waters and histories only. -/
structure Twins (g g' : PortfolioRiskGovernor) : Prop where
  live : Sound g
  restarted : Sound g'
  leg : ∀ sid, g.leg sid = g'.leg sid

theorem twins_restart {g : PortfolioRiskGovernor} (hg : Sound g) (baselines : List String) :
    Twins g (g.restart baselines) := by
  obtain ⟨hzero, hrow⟩ := restart_spec g baselines
  refine ⟨hg, ⟨fun sid v hv => ?_, hzero.ge⟩, fun sid => ?_⟩
  · rw [(hrow sid).peak]
    exact (hrow sid).bound v hv
  · have hexit : sid ∈ g.strategyExitOnly ↔ sid ∈ (g.restart baselines).strategyExitOnly := by
      rw [(hrow sid).exitOnly, PortfolioRiskGovernor.riskRow, decide_eq_true_eq]
    unfold PortfolioRiskGovernor.leg
    rw [(hrow sid).peak, (hrow sid).drawdown, decide_eq_decide.mpr hexit]
    rfl

/-- The two verdicts name the same exit-only legs, drawdowns and multipliers. -/
structure SameVerdict (v w : GovernorVerdict) : Prop where
  exitOnly : ∀ sid, sid ∈ v.exitOnlyStrategyIds ↔ sid ∈ w.exitOnlyStrategyIds
  drawdowns : ∀ sid, v.strategyDrawdowns.get? sid = w.strategyDrawdowns.get? sid
  sizing : ∀ sid, v.sizingMultipliers.get? sid = w.sizingMultipliers.get? sid

section Runs
variable (upper : String → String) (computeReturnCorrelation : List ℚ → List ℚ → ℚ)
  (limits : Limits)

def govern (g : PortfolioRiskGovernor) (call : EvaluateCall) : PortfolioRiskGovernor :=
  (evaluate upper computeReturnCorrelation limits call g).2

/-- A governor that never restarted and one that did, given the same call. -/
def governBoth (s : PortfolioRiskGovernor × PortfolioRiskGovernor) (call : EvaluateCall) :
    PortfolioRiskGovernor × PortfolioRiskGovernor :=
  (govern upper computeReturnCorrelation limits s.1 call,
    govern upper computeReturnCorrelation limits s.2 call)

def SameVerdicts (s : PortfolioRiskGovernor × PortfolioRiskGovernor) (call : EvaluateCall) : Prop :=
  SameVerdict (evaluate upper computeReturnCorrelation limits call s.1).1
    (evaluate upper computeReturnCorrelation limits call s.2).1

/-- A leg's readings in a call: none when it is not due. -/
def readings (call : EvaluateCall) (strategyId : String) : List ℚ :=
  if call.allocationFractions.get? strategyId = none then []
  else turns upper call strategyId call.enabledConfigs

/-- At the call no leg's readings depend on which of the two high-waters is used. -/
def HighWaterUnread (s : PortfolioRiskGovernor × PortfolioRiskGovernor) (call : EvaluateCall) :
    Prop :=
  ∀ sid, Unread limits.strategyMaxDrawdown (max s.1.peakBrokerEquity call.brokerEquity)
    (max s.2.peakBrokerEquity call.brokerEquity)
    (falls (s.1.peakOf sid) (readings upper call sid))

variable {upper computeReturnCorrelation limits}

variable (upper limits) in
theorem evaluateLegs_spec {g : PortfolioRiskGovernor} (hg : PeaksBound g) (call : EvaluateCall) :
    PeaksBound (evaluateLegs upper limits call g).governor ∧
    (evaluateLegs upper limits call g).governor.peakBrokerEquity =
      max g.peakBrokerEquity call.brokerEquity ∧
    ∀ sid, (evaluateLegs upper limits call g).leg sid =
      (turns upper call sid call.enabledConfigs).foldl
        (LegView.turn limits call sid (max g.peakBrokerEquity call.brokerEquity)) (g.leg sid) :=
  foldl_evaluateLeg call.enabledConfigs (l := { governor :=
    { g with peakBrokerEquity := max g.peakBrokerEquity call.brokerEquity } }) hg

variable (computeReturnCorrelation) in
theorem sound_govern {g : PortfolioRiskGovernor} (hg : Sound g) (call : EvaluateCall) :
    Sound (govern upper computeReturnCorrelation limits g call) := by
  obtain ⟨hbound, hhw, -⟩ := evaluateLegs_spec upper limits hg.bound call
  exact ⟨hbound, hhw ▸ le_max_of_le_left hg.nonneg⟩

variable (upper limits) in
/-- One leg in one call, before two governors that differ in the high-water. -/
theorem leg_agree_iff {a b : ℚ} (ha : 0 ≤ a) (hb : 0 ≤ b) (g : PortfolioRiskGovernor)
    (call : EvaluateCall) (sid : String) :
    let xs := turns upper call sid call.enabledConfigs
    let va := xs.foldl (LegView.turn limits call sid a) (g.leg sid)
    let vb := xs.foldl (LegView.turn limits call sid b) (g.leg sid)
    let unread := Unread limits.strategyMaxDrawdown a b
      (falls (g.peakOf sid) (readings upper call sid))
    ((va.reported = vb.reported ∧ va.flagged = vb.flagged) ↔ unread) ∧ (unread → va = vb) := by
  unfold readings LegView.turn
  by_cases hdue : call.allocationFractions.get? sid = none
  · simp [hdue, falls, Unread]
  · simp only [if_neg hdue]
    exact ⟨measured_agree_iff (v := g.leg sid) ha hb rfl _, measured_same (v := g.leg sid)⟩

/-- The verdicts agree just when no reading depends on the high-water, and then the
governors stay twins. -/
theorem sameVerdicts_iff {s : PortfolioRiskGovernor × PortfolioRiskGovernor} (hs : Twins s.1 s.2)
    (call : EvaluateCall) :
    (SameVerdicts upper computeReturnCorrelation limits s call ↔
      HighWaterUnread upper limits s call) ∧
    (HighWaterUnread upper limits s call →
      Twins (governBoth upper computeReturnCorrelation limits s call).1
        (governBoth upper computeReturnCorrelation limits s call).2) := by
  obtain ⟨-, -, hleg⟩ := evaluateLegs_spec upper limits hs.live.bound call
  obtain ⟨-, -, hleg'⟩ :=
    evaluateLegs_spec upper limits hs.restarted.bound call
  have hagree := leg_agree_iff upper limits
    (le_max_of_le_left hs.live.nonneg : 0 ≤ max s.1.peakBrokerEquity call.brokerEquity)
    (le_max_of_le_left hs.restarted.nonneg : 0 ≤ max s.2.peakBrokerEquity call.brokerEquity)
    s.1 call
  constructor
  · have hshown : ∀ sid, (((evaluateLegs upper limits call s.1).leg sid).reported =
        ((evaluateLegs upper limits call s.2).leg sid).reported ∧
        ((evaluateLegs upper limits call s.1).leg sid).flagged =
          ((evaluateLegs upper limits call s.2).leg sid).flagged) ↔
        Unread limits.strategyMaxDrawdown (max s.1.peakBrokerEquity call.brokerEquity)
          (max s.2.peakBrokerEquity call.brokerEquity)
          (falls (s.1.peakOf sid) (readings upper call sid)) := fun sid => by
      rw [hleg sid, hleg' sid, ← hs.leg sid]
      exact (hagree sid).1
    constructor
    · rintro ⟨hexit, hdrawdown, -⟩ sid
      exact (hshown sid).mp ⟨hdrawdown sid, decide_eq_decide.mpr (hexit sid)⟩
    · intro hunread
      refine ⟨fun sid => ?_, fun sid => ((hshown sid).mpr (hunread sid)).1, fun _ => rfl⟩
      exact decide_eq_decide.mp ((hshown sid).mpr (hunread sid)).2
  · intro hunread
    refine ⟨sound_govern computeReturnCorrelation hs.live call,
      sound_govern computeReturnCorrelation hs.restarted call, fun sid => ?_⟩
    have hsame : (evaluateLegs upper limits call s.1).leg sid =
        (evaluateLegs upper limits call s.2).leg sid := by
      rw [hleg sid, hleg' sid, ← hs.leg sid]
      exact (hagree sid).2 (hunread sid)
    exact congrArg (fun v : LegView => { v with reported := none, flagged := false }) hsame

variable (upper computeReturnCorrelation limits)

/-- After a restart the verdicts are those of the governor that never restarted just
when, call by call, no leg is measured below its peak against a lower high-water. -/
theorem restart_invisible_iff (before continuation : List EvaluateCall) (baselines : List String) :
    let g := run (govern upper computeReturnCorrelation limits) {} before
    Along (governBoth upper computeReturnCorrelation limits)
        (SameVerdicts upper computeReturnCorrelation limits) (g, g.restart baselines)
        continuation ↔
      Along (governBoth upper computeReturnCorrelation limits) (HighWaterUnread upper limits)
        (g, g.restart baselines) continuation := by
  intro g
  have hfresh : Sound {} := ⟨fun _ _ hv => absurd hv List.not_mem_nil, le_rfl⟩
  have hstep : ∀ g call, Sound g → Sound (govern upper computeReturnCorrelation limits g call) :=
    fun _ call hs => sound_govern computeReturnCorrelation hs call
  have hg : Sound g := run_keeps hstep hfresh before
  refine along_congr_while (I := fun s => Twins s.1 s.2) ?_ ?_ continuation
    (twins_restart hg baselines)
  · exact fun s call hs hsame => (sameVerdicts_iff hs call).2 ((sameVerdicts_iff hs call).1.mp hsame)
  · exact fun s call hs => (sameVerdicts_iff hs call).1

end Runs

/-- A call for one due leg on QQQ. -/
def qqqCall (equity pnl : ℚ) : EvaluateCall where
  enabledConfigs := [{ strategyId := "mean_reversion_qqq", symbol := "QQQ" }]
  realizedPnls := Dict.empty.set "mean_reversion_qqq" pnl
  brokerEquity := equity
  allocationFractions := Dict.empty.set "mean_reversion_qqq" 1

/-- The account falls from 1000 to 500 and the leg loses 40: four percent of the
high-water, which after a restart reads as eight and latches the leg exit-only. -/
theorem restart_latches_leg :
    let g := run (govern id (fun _ _ => 0) {}) {} [qqqCall 1000 0]
    "mean_reversion_qqq" ∉ (evaluate id (fun _ _ => 0) {} (qqqCall 500 (-40)) g).1.exitOnlyStrategyIds ∧
    "mean_reversion_qqq" ∈
      (evaluate id (fun _ _ => 0) {} (qqqCall 500 (-40)) (g.restart [])).1.exitOnlyStrategyIds := by
  decide +kernel

end TradingPlatform.Engine.RiskGovernor
