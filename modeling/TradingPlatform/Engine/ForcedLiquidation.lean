import TradingPlatform.Engine.PortfolioCoordinator

/-! # Positions held too long

The age verdict looks at every config that holds a position, while plans are
made of the legs that have reported this cycle, and the targets are filed under
strategy ids. A position is liquidated when these three meet. -/

namespace TradingPlatform.Engine.Portfolio

open TradingPlatform.Lib TradingPlatform.Core

variable {Ctx : Type}

/-- The coordinator a call works with. -/
def PortfolioCoordinator.inCycle (c : PortfolioCoordinator Ctx) (freshId : String)
    (account : Account) : PortfolioCoordinator Ctx :=
  if c.cycleId = "" then c.beginCycle freshId account else c

section Ages
variable (env : CycleEnv) (c : PortfolioCoordinator Ctx) (inputs : CycleInputs)

def heldPosition (cfg : StrategyConfig) : Option Position :=
  (positionsBySymbol env inputs.positions).get? (env.upper cfg.symbol)

/-- The date the registry has for the config once the call has synced it. -/
def registryDate (cfg : StrategyConfig) : String :=
  (((c.syncInventoryRegistry env inputs.enabledConfigs inputs.positions).get?
    (cfg.strategyId, env.upper cfg.symbol)).map (·.openedSessionDate)).getD env.today

def registryAge (cfg : StrategyConfig) : ℤ :=
  calendarDaysBetween env.dateOrdinal env.todayOrdinal (registryDate env c inputs cfg)

/-- The config's position is as old as the brain allows, or older. -/
def OverAge (cfg : StrategyConfig) : Prop :=
  (heldPosition env inputs cfg).isSome = true ∧
    c.brain.maxMultidayHoldingCalendarDays ≤ registryAge env c inputs cfg

/-- Over age, with a notional and at least a day on the book. -/
def countsOverAge (cfg : StrategyConfig) : Bool :=
  (heldPosition env inputs cfg).any fun pos =>
    decide (0 < positionNotional pos) &&
      decide (minMultidayCalendarDays ≤ registryAge env c inputs cfg) &&
      decide (c.brain.maxMultidayHoldingCalendarDays ≤ registryAge env c inputs cfg)

/-- Of the configs under one strategy id whose position counts as over age, the last. -/
def dueConfig (sid : String) : Option StrategyConfig :=
  inputs.enabledConfigs.reverse.find? fun cfg =>
    countsOverAge env c inputs cfg && decide (cfg.strategyId = sid)

def manifestRow (cfg : StrategyConfig) (pos : Position) : ActivePositionManifest where
  strategyId := cfg.strategyId
  symbol := env.upper cfg.symbol
  side := heldSide pos
  notional := positionNotional pos
  calendarDaysHeld := registryAge env c inputs cfg
  openedSessionDate := registryDate env c inputs cfg

/-- An unblocked plan liquidates the symbol. -/
def Liquidated (r : CycleCoordinationResult Ctx) (symbol : String) : Prop :=
  ∃ sid plan sig, r.plans.get? sid = some plan ∧ plan.signal = some sig ∧ sig.symbol = symbol ∧
    sig.action = .exit ∧ plan.blocked = false ∧ plan.forceLiquidation = true ∧
    plan.cancelPendingOrders = true

end Ages

section Targets
variable {env : CycleEnv} {c : PortfolioCoordinator Ctx} {inputs : CycleInputs}

theorem allocateRiskBudgets_limits (brain : PortfolioBrain) (legMetrics : Dict String LegMetrics) :
    (brain.allocateRiskBudgets legMetrics).2.maxMultidayHoldingCalendarDays =
      brain.maxMultidayHoldingCalendarDays := by
  unfold PortfolioBrain.allocateRiskBudgets
  split <;> rfl

def ActivePositionManifest.target (upper : String → String) (row : ActivePositionManifest) :
    ForceLiquidationTarget where
  strategyId := row.strategyId
  symbol := upper row.symbol
  side := row.side
  notional := |row.notional|
  calendarDaysHeld := row.calendarDaysHeld
  openedSessionDate := row.openedSessionDate

variable (env c inputs) in
theorem judge_targets :
    (c.judge env inputs).1.inventory.forceLiquidationTargets =
      inputs.enabledConfigs.filterMap fun cfg =>
        if countsOverAge env c inputs cfg then
          (heldPosition env inputs cfg).map fun pos =>
            (manifestRow env c inputs cfg pos).target env.upper
        else none := by
  have hmanifest : buildActivePositionsManifest env
      (c.syncInventoryRegistry env inputs.enabledConfigs inputs.positions) inputs.enabledConfigs
        inputs.positions = inputs.enabledConfigs.filterMap fun cfg =>
          (heldPosition env inputs cfg).map (manifestRow env c inputs cfg) := rfl
  unfold PortfolioCoordinator.judge PortfolioBrain.checkInventoryPathDependency
    PortfolioBrain.forceLiquidationTargets multidayPositions
  dsimp only
  rw [hmanifest, allocateRiskBudgets_limits, List.filter_filterMap, List.filter_filterMap,
    List.map_filterMap]
  refine List.filterMap_congr fun cfg _ => ?_
  unfold countsOverAge
  cases heldPosition env inputs cfg with
  | none => rfl
  | some pos =>
    simp only [Option.map_some, Option.any_some, Option.filter_some, manifestRow]
    by_cases hcarried : 0 < positionNotional pos ∧
        minMultidayCalendarDays ≤ registryAge env c inputs cfg
    · by_cases hage : c.brain.maxMultidayHoldingCalendarDays ≤ registryAge env c inputs cfg
      · simp [hcarried, hage, ActivePositionManifest.target]
      · simp only [hcarried, hage, and_self, decide_true, if_true, Option.filter_some,
          decide_false, Bool.and_false, Bool.false_eq_true, if_false, Option.map_none]
    · have hskip : (decide (0 < positionNotional pos) &&
          decide (minMultidayCalendarDays ≤ registryAge env c inputs cfg)) = false := by
        rw [← Bool.decide_and]
        exact decide_eq_false hcarried
      simp only [hskip, hcarried, decide_false, Bool.false_and, Bool.false_eq_true, if_false,
        Option.filter_none, Option.map_none]

theorem held_of_counts {cfg : StrategyConfig} (h : countsOverAge env c inputs cfg = true) :
    ∃ pos, heldPosition env inputs cfg = some pos := by
  unfold countsOverAge at h
  obtain ⟨pos, hpos, -⟩ := (Option.any_eq_true _ _).mp h
  exact ⟨pos, hpos⟩

theorem forceLiquidationMap_eq {brain : PortfolioBrain} {upper : String → String}
    {manifest : List ActivePositionManifest} {equity : ℚ} :
    forceLiquidationMap (brain.checkInventoryPathDependency upper manifest equity) =
      .keyBy ForceLiquidationTarget.strategyId
        (brain.checkInventoryPathDependency upper manifest equity).forceLiquidationTargets := by
  unfold forceLiquidationMap
  split
  · rename_i hoff
    have hnone : (brain.checkInventoryPathDependency upper manifest
        equity).forceLiquidationTargets = [] := by
      by_contra hsome
      rw [InventoryPathDependencyVerdict.hasDirective, decide_eq_false_iff_not] at hoff
      refine hoff (.inr (List.mem_append_right _ ?_))
      rw [if_neg (by exact hsome)]
      exact List.mem_singleton_self _
    rw [hnone]
    rfl
  · rfl

/-- **The target of a leg** is the last position under its id that counts as over age. -/
theorem forceLiquidationMap_get? (sid : String) :
    (forceLiquidationMap (c.judge env inputs).1.inventory).get? sid =
      (dueConfig env c inputs sid).bind fun cfg => (heldPosition env inputs cfg).map fun pos =>
        (manifestRow env c inputs cfg pos).target env.upper := by
  have hmap : forceLiquidationMap (c.judge env inputs).1.inventory =
      .keyBy ForceLiquidationTarget.strategyId
        (c.judge env inputs).1.inventory.forceLiquidationTargets := forceLiquidationMap_eq
  rw [hmap, judge_targets, Dict.get?_keyBy, ← List.filterMap_reverse, List.find?_filterMap, dueConfig]
  have hdue : (fun cfg : StrategyConfig => Option.any (fun target => decide (target.strategyId = sid))
      (if countsOverAge env c inputs cfg = true then (heldPosition env inputs cfg).map fun pos =>
        (manifestRow env c inputs cfg pos).target env.upper else none)) =
      fun cfg => countsOverAge env c inputs cfg && decide (cfg.strategyId = sid) := by
    funext cfg
    cases hcounts : countsOverAge env c inputs cfg with
    | false => rfl
    | true =>
      obtain ⟨pos, hpos⟩ := held_of_counts hcounts
      rw [if_pos rfl, hpos]
      rfl
  rw [hdue]
  refine Option.bind_congr fun cfg hfound => ?_
  have hcounts := List.find?_some hfound
  rw [Bool.and_eq_true] at hcounts
  rw [if_pos hcounts.1]

end Targets

/-! ## The plans that liquidate -/

section Plans
variable {env : CycleEnv} {v : CycleVerdicts} {macroBlockNewEntries : Bool} {sid : String}
  {payload : LegCyclePayload Ctx} {plan : CoordinatedLegPlan Ctx}

theorem planLeg_forces (hplan : planLeg env v macroBlockNewEntries sid payload = .ok plan) :
    plan.forceLiquidation = ((forceLiquidationMap v.inventory).get? sid).isSome ∧
      plan.cancelPendingOrders = ((forceLiquidationMap v.inventory).get? sid).isSome := by
  unfold planLeg at hplan
  dsimp only at hplan
  generalize planRouting env payload.routingParams _ _ = routing at hplan
  cases routing with
  | error text => cases hplan
  | ok routingParams =>
    cases hplan
    exact ⟨rfl, rfl⟩

/-- A plan liquidates a symbol just when the leg has a target, on that symbol. -/
theorem plan_liquidates (hplan : planLeg env v macroBlockNewEntries sid payload = .ok plan)
    (symbol : String) :
    (∃ sig, plan.signal = some sig ∧ sig.symbol = symbol ∧ sig.action = .exit ∧
        plan.blocked = false ∧ plan.forceLiquidation = true ∧ plan.cancelPendingOrders = true) ↔
      ∃ target, (forceLiquidationMap v.inventory).get? sid = some target ∧
        target.symbol = symbol := by
  obtain ⟨hsignal, hblocked, -⟩ := planLeg_spec hplan
  obtain ⟨hliquidation, hcancel⟩ := planLeg_forces hplan
  cases htarget : (forceLiquidationMap v.inventory).get? sid with
  | none =>
    refine iff_of_false ?_ (by simp)
    intro h
    obtain ⟨sig, -, -, -, -, hforce, -⟩ := h
    rw [hliquidation, htarget] at hforce
    cases hforce
  | some target =>
    have hgate : gateLeg env v macroBlockNewEntries sid payload = forcedGate env target payload := by
      rw [gateLeg, htarget]
    rw [hgate] at hsignal hblocked
    rw [htarget] at hliquidation hcancel
    constructor
    · intro h
      obtain ⟨sig, hsig, rfl, -⟩ := h
      rw [hsignal] at hsig
      cases hsig
      exact ⟨target, rfl, rfl⟩
    · intro h
      obtain ⟨_, ⟨⟩, rfl⟩ := h
      exact ⟨_, hsignal, rfl, rfl, hblocked, hliquidation, hcancel⟩

end Plans

/-- A leg that reports this cycle has the config's symbol for its target. -/
def LegDue (env : CycleEnv) (c : PortfolioCoordinator Ctx) (inputs : CycleInputs)
    (cfg : StrategyConfig) : Prop :=
  ∃ sid payload due, c.pending.get? sid = some payload ∧ dueConfig env c inputs sid = some due ∧
    env.upper due.symbol = env.upper cfg.symbol

theorem target_on_symbol {env : CycleEnv} {c : PortfolioCoordinator Ctx} {inputs : CycleInputs}
    (hupper : ∀ s, env.upper (env.upper s) = env.upper s) (sid symbol : String) :
    (∃ target, (forceLiquidationMap (c.judge env inputs).1.inventory).get? sid = some target ∧
        target.symbol = symbol) ↔
      ∃ due, dueConfig env c inputs sid = some due ∧ env.upper due.symbol = symbol := by
  rw [forceLiquidationMap_get?]
  cases hdue : dueConfig env c inputs sid with
  | none => simp
  | some due =>
    have hcounts := List.find?_some hdue
    rw [Bool.and_eq_true] at hcounts
    obtain ⟨pos, hpos⟩ := held_of_counts hcounts.1
    rw [Option.bind_some, hpos]
    constructor
    · intro h
      obtain ⟨_, ⟨⟩, hsymbol⟩ := h
      exact ⟨due, rfl, (hupper due.symbol).symm.trans hsymbol⟩
    · intro h
      obtain ⟨_, ⟨⟩, hsymbol⟩ := h
      exact ⟨_, rfl, (hupper due.symbol).trans hsymbol⟩

section Calls
variable {env : CycleEnv} {c : PortfolioCoordinator Ctx} {freshId : String} {inputs : CycleInputs}

/-- A call whose legs have limits that can be read returns. -/
theorem coordinateCycle_returns
    (hlimits : ∀ sid payload, (c.inCycle freshId inputs.account).pending.get? sid = some payload →
      payload.LimitReads env) :
    ∃ r after, c.coordinateCycle env freshId inputs = .ok (r, after) := by
  obtain ⟨plans, hplans, -⟩ := (c.inCycle freshId inputs.account).pending.traverse_ok
    (planLeg env ((c.inCycle freshId inputs.account).judge env inputs).1
      inputs.macroBlockNewEntries)
    fun sid payload hin => planLeg_ok _ _ sid (hlimits sid payload hin)
  unfold PortfolioCoordinator.inCycle at hplans
  unfold PortfolioCoordinator.coordinateCycle
  dsimp only
  rw [hplans]
  exact ⟨_, _, rfl⟩

/-- A call that returned has planned each of its pending legs. -/
theorem coordinateCycle_plans {r : CycleCoordinationResult Ctx} {after : PortfolioCoordinator Ctx}
    (h : c.coordinateCycle env freshId inputs = .ok (r, after)) :
    (c.inCycle freshId inputs.account).pending.traverse
      (planLeg env ((c.inCycle freshId inputs.account).judge env inputs).1
        inputs.macroBlockNewEntries) = .ok r.plans := by
  unfold PortfolioCoordinator.coordinateCycle at h
  unfold PortfolioCoordinator.inCycle
  dsimp only at h
  generalize (if c.cycleId = "" then c.beginCycle freshId inputs.account else c) = opened at h ⊢
  cases htraverse : opened.pending.traverse (planLeg env (opened.judge env inputs).1
      inputs.macroBlockNewEntries) with
  | error text =>
    rw [htraverse] at h
    cases h
  | ok plans =>
    rw [htraverse] at h
    cases h
    rfl

end Calls

/-- **Every position over age is liquidated in the same call** exactly when a leg
that reports has the position's symbol for its target. -/
theorem over_age_liquidated_iff (env : CycleEnv)
    (hupper : ∀ s, env.upper (env.upper s) = env.upper s) (c : PortfolioCoordinator Ctx)
    (freshId : String) (inputs : CycleInputs) :
    let opened := c.inCycle freshId inputs.account
    ((∀ sid payload, opened.pending.get? sid = some payload → payload.LimitReads env) →
        ∃ r after, c.coordinateCycle env freshId inputs = .ok (r, after)) ∧
      ∀ r after, c.coordinateCycle env freshId inputs = .ok (r, after) →
        ((∀ cfg ∈ inputs.enabledConfigs, OverAge env opened inputs cfg →
            Liquidated r (env.upper cfg.symbol)) ↔
          ∀ cfg ∈ inputs.enabledConfigs, OverAge env opened inputs cfg →
            LegDue env opened inputs cfg) := by
  refine ⟨coordinateCycle_returns, fun r after h => ?_⟩
  have hplans := coordinateCycle_plans h
  refine forall_congr' fun cfg => forall_congr' fun _ => forall_congr' fun _ => ?_
  constructor
  · intro h
    obtain ⟨sid, plan, sig, hin, hsig, hliquidates⟩ := h
    obtain ⟨payload, hpending, hplan⟩ := (Dict.get?_of_traverse _ _ hplans sid plan).mp hin
    have htarget := (plan_liquidates hplan _).mp ⟨sig, hsig, hliquidates⟩
    obtain ⟨due, hdue, hsymbol⟩ := (target_on_symbol hupper sid _).mp htarget
    exact ⟨sid, payload, due, hpending, hdue, hsymbol⟩
  · intro h
    obtain ⟨sid, payload, due, hpending, hdue, hsymbol⟩ := h
    have htarget := (target_on_symbol hupper sid _).mpr ⟨due, hdue, hsymbol⟩
    obtain ⟨plan, hplan⟩ := Dict.ok_of_traverse _ _ hplans hpending
    obtain ⟨sig, hsig, hliquidates⟩ := (plan_liquidates hplan _).mpr htarget
    exact ⟨sid, plan, sig, (Dict.get?_of_traverse _ _ hplans sid plan).mpr ⟨payload, hpending, hplan⟩,
      hsig, hliquidates⟩

/-- Gold was first seen ten days ago. -/
def tenDaysOn : CycleEnv :=
  { stillEnv with
    dateOrdinal := fun date => if date = "2026-07-10" then some 10 else none
    todayOrdinal := 20 }

def agedBook : PortfolioCoordinator Unit :=
  { begun with
    inventory := Dict.empty.set ("trend_gld", "GLD")
      { side := .long, openedSessionDate := "2026-07-10", lastSeenAt := "2026-07-19",
        netDirectionalExposure := 500 } }

def goldConfig : StrategyConfig := { strategyId := "trend_gld", symbol := "GLD" }

/-- The leg reports, and asks for nothing. -/
def silentGold : PortfolioCoordinator Unit :=
  agedBook.registerLegEvaluation { goldLeg (.number 1) with signal := none }

instance (cfg : StrategyConfig) (env : CycleEnv) (c : PortfolioCoordinator Unit)
    (inputs : CycleInputs) : Decidable (OverAge env c inputs cfg) :=
  inferInstanceAs (Decidable (_ ∧ _))

/-- Gold is over age and its leg does not report: nothing is planned. -/
theorem absent_leg_not_liquidated :
    OverAge tenDaysOn agedBook (goldOilInputs 1) goldConfig ∧
      ∃ r after, agedBook.coordinateCycle tenDaysOn "c1" (goldOilInputs 1) = .ok (r, after) ∧
        ¬ Liquidated r "GLD" := by
  refine ⟨by decide +kernel, _, _, rfl, ?_⟩
  intro h
  obtain ⟨sid, plan, sig, hin, -⟩ := h
  cases hin

/-- With the leg reporting, gold is liquidated. -/
theorem silent_leg_liquidated :
    ∃ r after, silentGold.coordinateCycle tenDaysOn "c1" (goldOilInputs 1) = .ok (r, after) ∧
      Liquidated r "GLD" := by
  obtain ⟨hreturns, hiff⟩ := over_age_liquidated_iff tenDaysOn (fun _ => rfl) silentGold "c1"
    (goldOilInputs 1)
  obtain ⟨r, after, h⟩ := hreturns fun sid payload hin => by
    have hin : (sid, payload) ∈ [("trend_gld", { goldLeg (.number 1) with signal := none })] :=
      (Dict.get?_eq_some _).mp hin
    cases List.mem_singleton.mp hin
    exact ⟨1, by decide +kernel⟩
  refine ⟨r, after, h, (hiff r after h).mpr ?_ goldConfig (by decide) (by decide +kernel)⟩
  intro cfg hcfg hover
  rcases List.mem_cons.mp hcfg with rfl | hcfg
  · exact ⟨"trend_gld", _, goldConfig, rfl, by decide +kernel, rfl⟩
  · obtain rfl := List.mem_singleton.mp hcfg
    exact absurd hover (by decide +kernel)

end TradingPlatform.Engine.Portfolio
