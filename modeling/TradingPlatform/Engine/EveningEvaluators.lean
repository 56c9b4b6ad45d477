import TradingPlatform.Engine.PolicyLifecycle
import TradingPlatform.Lib.Outlier
import TradingPlatform.Lib.Runs
import TradingPlatform.Lib.Streak

/-! # The evaluators of the evening run

The verdicts of an evening come from two ledgers and from a counter: how often in a row the edge of
a leg was found gone. The counter is an attribute of the lifecycle manager, and the scheduler makes
a new manager every evening. The frames are what the queries find when a leg is evaluated. -/

namespace TradingPlatform.Engine.EveningEvaluators

open TradingPlatform.Lib TradingPlatform.Lib.Runs TradingPlatform.Engine.PolicyLifecycle
open TradingPlatform.Lib.Outlier (mean variance)

/-- A row of `shadow_rl_ledger` that has its reward. -/
structure ShadowRow where
  timestamp : String
  symbol : String
  shadowActionTaken : Option String
  realizedReward24h : ℚ
  rulesEngineAction : Option String

/-- A row of `live_attribution_ledger`. -/
structure AttributionRow where
  timestamp : String
  strategyId : String
  symbol : String
  pnl : ℚ
  slippagePct : ℚ

/-- A table that cannot be read is empty. -/
structure Vault where
  shadow : List ShadowRow := []
  attribution : List AttributionRow := []

def shadowAllocation (action : String) : ℚ :=
  if action = "STAND_DOWN" then 0
  else if action = "ALLOCATION_HALF" then 1 / 2
  else if action = "ALLOCATION_MAX" then 1
  else 3 / 4

def rulesAllocation (action : String) : ℚ :=
  if action ∈ ["NO_TRADE_FALLBACK", "UNSAFE_DISABLED"] then 0
  else if action ∈ ["DEFENSIVE_FALLBACK", "BEAR_DEFENSIVE"] then 1 / 4
  else if action = "BASELINE_FALLBACK" then 1 / 2
  else if action ∈ ["HIGH_VOL_MR", "CALM_MR"] then 1
  else 3 / 4

section Evaluators
variable (upper : String → String)

/-- `_load_shadow_frame`, from the cut-off that the clock and the lookback give. -/
def loadShadowFrame (vault : Vault) (cutoff symbol : String) : List ShadowRow :=
  vault.shadow.filter fun row =>
    decide (cutoff ≤ row.timestamp) && (symbol = "" || row.symbol = upper symbol)

/-- `_load_attribution_frame`. -/
def loadAttributionFrame (vault : Vault) (cutoff strategyId : String) : List AttributionRow :=
  vault.attribution.filter fun row =>
    decide (cutoff ≤ row.timestamp) && (strategyId = "" || row.strategyId = strategyId)

/-! ## The edge of a probation -/

def challengerReturns (frame : List ShadowRow) : List ℚ :=
  frame.map fun row => shadowAllocation (row.shadowActionTaken.getD "") * row.realizedReward24h

/-- `str(row.get("rules_engine_action") or "UNKNOWN")`. -/
def rulesReturns (frame : List ShadowRow) : List ℚ :=
  frame.map fun row =>
    rulesAllocation ((row.rulesEngineAction.filter (· ≠ "")).getD "UNKNOWN") * row.realizedReward24h

def edgeRatio (challengerEdge rulesEdge : ℚ) : ℚ :=
  if 0 < rulesEdge then challengerEdge / max rulesEdge (1 / 10 ^ 9)
  else if 0 ≤ challengerEdge then 1
  else 0

def probationEdgeDecayRatio : ℚ := 85 / 100

def probationEdgeDecayStreak : ℕ := 3

structure ProbationEdgeVerdict where
  maintainsEdge : Bool
  directive : String
  challengerEdge : ℚ
  rulesEdge : ℚ
  edgeRatio : ℚ
  decayStreak : ℕ
  reason : String

def maintains (frame : List ShadowRow) : Bool :=
  probationEdgeDecayRatio ≤ edgeRatio (mean (challengerReturns frame)) (mean (rulesReturns frame)) &&
    mean (rulesReturns frame) ≤ mean (challengerReturns frame)

/-- `self._edge_decay_streak`. -/
abbrev Streaks := Dict String ℕ

/-- `str(active_probation_policy.get("strategy_id") or "global")`. -/
def edgeKey (strategyId : String) : String := if strategyId = "" then "global" else strategyId

def decayStreak (streaks : Streaks) (key : String) : ℕ := (streaks.get? key).getD 0

def evaluateProbationEdge (strategyId : String) (frame : List ShadowRow) (streaks : Streaks) :
    ProbationEdgeVerdict × Streaks :=
  if frame = [] then
    ({ maintainsEdge := true, directive := "NONE", challengerEdge := 0, rulesEdge := 0, edgeRatio := 1
       decayStreak := 0, reason := "insufficient_recent_shadow_sample" }, streaks)
  else
    let challengerEdge := mean (challengerReturns frame)
    let rulesEdge := mean (rulesReturns frame)
    let maintains := maintains frame
    let streak := if maintains then 0 else decayStreak streaks (edgeKey strategyId) + 1
    ({ maintainsEdge := maintains
       directive := if probationEdgeDecayStreak ≤ streak then "PREEMPTIVE_DEGRADE" else "NONE"
       challengerEdge, rulesEdge, edgeRatio := edgeRatio challengerEdge rulesEdge
       decayStreak := streak
       reason :=
         if probationEdgeDecayStreak ≤ streak then "probation_edge_decay_streak"
         else if !maintains then "probation_edge_below_rules"
         else "edge_stable" },
      streaks.set (edgeKey strategyId) streak)

/-! ## The live attribution objective -/

structure AttributionSloVerdict where
  breached : Bool
  reasons : List String
  maxDrawdownPct : ℚ
  tradeCount : ℕ
  drawdownLimitPct : ℚ

/-- The equity, the peak and the drawdown so far. -/
def drawdownStep (s : ℚ × ℚ × ℚ) (pnl : ℚ) : ℚ × ℚ × ℚ :=
  let equity := s.1 + pnl
  let peak := max s.2.1 equity
  (equity, peak, if 0 < peak then max s.2.2 ((peak - equity) / peak) else s.2.2)

def maxDrawdownPct (pnls : List ℚ) : ℚ := (pnls.foldl drawdownStep (100000, 100000, 0)).2.2

/-- `_sharpe(pnls) < PROBATION_MIN_LIVE_SHARPE`, which is zero: a spread, and a mean below zero. -/
def sharpeBelowZero (pnls : List ℚ) : Bool :=
  2 ≤ pnls.length && 1 / 10 ^ 24 ≤ variance pnls && mean pnls < 0

def evaluateLiveAttributionSlo (vault : Vault) (cutoff strategyId symbol : String)
    (drawdownLimit : ℚ) : AttributionSloVerdict :=
  let symbol := upper symbol
  let attr := (loadAttributionFrame vault cutoff strategyId).filter fun row =>
    symbol = "" || row.symbol = symbol
  let pnls := attr.map (·.pnl)
  if attr = [] then ⟨false, ["insufficient_attribution_sample"], 0, 0, drawdownLimit⟩
  else if pnls.length < 5 then
    ⟨false, ["insufficient_attribution_trades"], maxDrawdownPct pnls, pnls.length, drawdownLimit⟩
  else
    let reasons := (if sharpeBelowZero pnls then ["live_sharpe_below_zero"] else []) ++
      if drawdownLimit < maxDrawdownPct pnls then ["live_drawdown_breach"] else []
    ⟨!reasons.isEmpty, reasons, maxDrawdownPct pnls, pnls.length, drawdownLimit⟩

/-! ## The promotion to sovereign -/

structure SovereignPromotionVerdict where
  approved : Bool
  reasons : List String
  verifiedTradingDays : ℤ
  filledTradeCount : ℕ
  avgSlippagePct : ℚ
  fillQualityScore : ℚ

def evaluateSovereignPromotion (vault : Vault) (cutoff shadowCutoff symbol : String)
    (probationCleanTradingDays : ℤ) : SovereignPromotionVerdict :=
  let symbol := upper symbol
  let attr := (loadAttributionFrame vault cutoff "").filter fun row =>
    symbol = "" || row.symbol = symbol
  let days := ((attr.map fun row => row.timestamp.toList.take 10).dedup.length : ℤ)
  let verifiedTradingDays := max days probationCleanTradingDays
  let avgSlippage := if attr = [] then 0 else mean (attr.map (·.slippagePct))
  let fillQuality :=
    if attr = [] then 1 else 1 - min (max (avgSlippage / (15 / 10000)) 0) 1
  let frame := loadShadowFrame upper vault shadowCutoff symbol
  let edgeDelta :=
    if frame = [] then 0 else mean (challengerReturns frame) - mean (rulesReturns frame)
  let reasons :=
    (if attr.length < 25 then ["insufficient_filled_trades"] else []) ++
      (if verifiedTradingDays < 10 then ["insufficient_verified_trading_days"] else []) ++
      (if 15 / 10000 < avgSlippage then ["execution_slippage_breach"] else []) ++
      (if fillQuality < 7 / 10 then ["fill_quality_below_floor"] else []) ++
      if edgeDelta < 2 / 100 then ["sovereign_edge_vs_rules_insufficient"] else []
  ⟨reasons.isEmpty, reasons, verifiedTradingDays, attr.length, avgSlippage, fillQuality⟩

/-! ## An evening with its evaluators -/

/-- What a pass over a leg reads beside its row. -/
structure LegReadings where
  vault : Vault
  /-- The approval of `evaluate_probation_entry`. -/
  probationEntry : Bool := false
  drawdownLimit : ℚ := 8 / 100
  edgeCutoff : String
  sloCutoff : String
  promotionCutoff : String
  promotionShadowCutoff : String
  anomaly : Bool := false
  anomalyAtWrite : Bool := false
  probationStart : String
  updatedAt : String
  stamps : Stamps

structure ManagedLeg where
  context : LegContext
  readings : LegReadings

def legSlo (leg : ManagedLeg) : AttributionSloVerdict :=
  evaluateLiveAttributionSlo upper leg.readings.vault leg.readings.sloCutoff leg.context.strategyId
    leg.context.symbol leg.readings.drawdownLimit

def edgeFrame (leg : ManagedLeg) : List ShadowRow :=
  loadShadowFrame upper leg.readings.vault leg.readings.edgeCutoff (upper leg.context.symbol)

/-- The pass asks for the edge. -/
def asksForEdge (rows : Rows) (leg : ManagedLeg) : Bool :=
  currentState leg.context rows ≠ .passive && !(legSlo upper leg).breached

def legEdge (streaks : Streaks) (leg : ManagedLeg) : ProbationEdgeVerdict × Streaks :=
  evaluateProbationEdge leg.context.strategyId (edgeFrame upper leg) streaks

/-- The clean days the promotion is asked with. -/
def countedDays (sessionDate : String) (rows : Rows) (leg : ManagedLeg) : ℤ :=
  let stored := rows.get? leg.context.strategyId
  let cleanDays := (stored.map (·.probationCleanTradingDays)).getD 0
  if leg.readings.anomaly then 0
  else if stored.all (fun row => row.updatedAt.toList.take 10 ≠ sessionDate.toList) then cleanDays + 1
  else cleanDays

def eveningVerdicts (sessionDate : String) (s : Streaks × Rows) (leg : ManagedLeg) :
    EveningVerdicts :=
  let r := leg.readings
  let slo := legSlo upper leg
  let edge := (legEdge upper s.1 leg).1
  { probationEntry := r.probationEntry
    attributionBreached := slo.breached
    attributionReasons := slo.reasons
    maintainsEdge := edge.maintainsEdge
    preemptiveDegrade := edge.directive = "PREEMPTIVE_DEGRADE"
    decayStreak := edge.decayStreak
    edgeReason := edge.reason
    sovereignPromotion :=
      (evaluateSovereignPromotion upper r.vault r.promotionCutoff r.promotionShadowCutoff
        leg.context.symbol (countedDays sessionDate s.2 leg)).approved
    anomaly := r.anomaly
    anomalyAtWrite := r.anomalyAtWrite
    probationStart := r.probationStart
    updatedAt := r.updatedAt
    stamps := r.stamps }

def eveningLeg (sessionDate : String) (s : Streaks × Rows) (leg : ManagedLeg) : EveningLeg :=
  ⟨leg.context, eveningVerdicts upper sessionDate s leg⟩

def legDecision (sessionDate : String) (s : Streaks × Rows) (leg : ManagedLeg) : Decision :=
  eveningDecision sessionDate (eveningLeg upper sessionDate s leg) s.2

/-- The rollbacks to passive clear the counter. -/
def clears (rollback : Option StagedRollbackResult) : Bool :=
  rollback.any fun r => r.tier = .catastrophicEviction || r.tier = .probationalToPassive

/-- A leg of `run_evening_progression`, evaluators included. -/
def managedPass (sessionDate : String) (s : Streaks × Rows) (leg : ManagedLeg) : Streaks × Rows :=
  let streaks := if asksForEdge upper s.2 leg then (legEdge upper s.1 leg).2 else s.1
  (if clears (legDecision upper sessionDate s leg).rollback then
      streaks.set leg.context.strategyId 0
    else streaks,
    eveningPass sessionDate s.2 (eveningLeg upper sessionDate s leg))

/-- `run_ai_policy_lifecycle_progression`, with a manager of its own. -/
def runAiPolicyLifecycleProgression (sessionDate : String) (legs : List ManagedLeg) (rows : Rows) :
    Rows :=
  (run (managedPass upper sessionDate) (.empty, rows) legs).2

/-! ## The life of one manager -/

/-- What a manager does, and what others do to the rows meanwhile. -/
inductive Event
  | pass (sessionDate : String) (leg : ManagedLeg)
  | shock (stamps : Stamps) (leg : LegContext) (shockReason : String)
  | rollback (stamps : Stamps) (call : RollbackCall)
  | others (rows : Rows)

def step (s : Streaks × Rows) : Event → Streaks × Rows
  | .pass sessionDate leg => managedPass upper sessionDate s leg
  | .shock stamps leg shockReason =>
    let out := shockLeg stamps leg shockReason s.2
    (if out.1.tier = .velocityShockDemotion then s.1.set leg.strategyId 0 else s.1, out.2)
  | .rollback stamps call =>
    let out := executeStagedRollback stamps call s.2
    (if clears (some out.1) then s.1.set call.strategyId 0 else s.1, out.2)
  | .others rows => (s.1, rows)

/-- What an event says of the edge under a key: that it was found gone, that it was found kept or
its counter cleared, or nothing. -/
def finding (key : String) (s : Streaks × Rows) : Event → Option Bool
  | .pass sessionDate leg =>
    if leg.context.strategyId = key ∧ clears (legDecision upper sessionDate s leg).rollback then
      some false
    else if asksForEdge upper s.2 leg ∧ edgeFrame upper leg ≠ [] ∧
        edgeKey leg.context.strategyId = key then
      some (!maintains (edgeFrame upper leg))
    else none
  | .shock stamps leg shockReason =>
    if leg.strategyId = key ∧ (shockLeg stamps leg shockReason s.2).1.tier = .velocityShockDemotion
    then some false
    else none
  | .rollback stamps call =>
    if call.strategyId = key ∧ clears (some (executeStagedRollback stamps call s.2).1) then some false
    else none
  | .others _ => none

def findings (key : String) : Streaks × Rows → List Event → List Bool
  | _, [] => []
  | s, e :: es => (finding upper key s e).toList ++ findings key (step upper s e) es

/-- The pass rolls a leg back because its edge decayed. -/
def Degrades (sessionDate : String) (s : Streaks × Rows) (leg : ManagedLeg) : Prop :=
  ∃ r, (legDecision upper sessionDate s leg).rollback = some r ∧
    r.reason = "probation_edge_decay_streak"

end Evaluators

/-! ## When the edge is kept -/

/-- The decay ratio leaves no room below the rules: the edge is kept when the challenger comes up
to them and does not lose, but for rules that earn next to nothing. -/
theorem edgeRatio_maintains_iff (challenger rules : ℚ) :
    (probationEdgeDecayRatio ≤ edgeRatio challenger rules ∧ rules ≤ challenger) ↔
      max rules 0 ≤ challenger ∧ (0 < rules → 85 / 10 ^ 11 ≤ challenger) := by
  unfold probationEdgeDecayRatio edgeRatio
  by_cases hrules : 0 < rules
  · have hmax : (0 : ℚ) < max rules (1 / 10 ^ 9) := lt_max_of_lt_left hrules
    simp only [hrules, if_true, forall_const, max_eq_left hrules.le, le_div_iff₀ hmax]
    constructor
    · intro h
      refine ⟨h.2, ?_⟩
      have hfloor : (1 : ℚ) / 10 ^ 9 ≤ max rules (1 / 10 ^ 9) := le_max_right _ _
      linarith [h.1]
    · intro h
      refine ⟨?_, h.1⟩
      rcases le_total rules (1 / 10 ^ 9) with hle | hle
      · rw [max_eq_right hle]
        linarith [h.2]
      · rw [max_eq_left hle]
        linarith [h.1]
  · have hrules := not_lt.mp hrules
    simp only [not_lt.mpr hrules, if_false, false_implies, and_true, max_eq_right hrules]
    by_cases hchallenger : 0 ≤ challenger
    · simp only [hchallenger, if_true, iff_true]
      exact ⟨by norm_num, hrules.trans hchallenger⟩
    · simp only [hchallenger, if_false, iff_false, not_and]
      intro h
      norm_num at h

/-- The edge of a frame, found gone. -/
def EdgeGone (frame : List ShadowRow) : Prop :=
  mean (challengerReturns frame) < max (mean (rulesReturns frame)) 0 ∨
    0 < mean (rulesReturns frame) ∧ mean (challengerReturns frame) < 85 / 10 ^ 11

theorem maintains_eq_false_iff (frame : List ShadowRow) :
    maintains frame = false ↔ EdgeGone frame := by
  have h := edgeRatio_maintains_iff (mean (challengerReturns frame)) (mean (rulesReturns frame))
  rw [← Bool.not_eq_true, maintains, Bool.and_eq_true, decide_eq_true_iff, decide_eq_true_iff, h,
    EdgeGone, not_and_or, not_le]
  simp only [Classical.not_imp, not_le]

section Findings
variable {upper : String → String} {sessionDate key : String} {s : Streaks × Rows} {leg : ManagedLeg}

/-! ## What a pass decides -/

theorem breach_reasons (sharpe : Bool) (drawdown : Prop) [Decidable drawdown]
    (h : (!((if sharpe then ["live_sharpe_below_zero"] else []) ++
      if drawdown then ["live_drawdown_breach"] else []).isEmpty) = true) :
    String.intercalate "|" ((if sharpe then ["live_sharpe_below_zero"] else []) ++
        if drawdown then ["live_drawdown_breach"] else []) ∈
      ["live_sharpe_below_zero|live_drawdown_breach", "live_sharpe_below_zero",
        "live_drawdown_breach"] := by
  by_cases hdrawdown : drawdown
  · cases sharpe <;> simp only [hdrawdown, if_true] <;> decide
  · cases sharpe with
    | true => simp only [hdrawdown, if_true, if_false]; decide
    | false => simp [hdrawdown] at h

theorem legSlo_reasons (h : (legSlo upper leg).breached = true) :
    String.intercalate "|" (legSlo upper leg).reasons ∈
      ["live_sharpe_below_zero|live_drawdown_breach", "live_sharpe_below_zero",
        "live_drawdown_breach"] := by
  revert h
  unfold legSlo evaluateLiveAttributionSlo
  dsimp only
  split
  · exact fun h => nomatch h
  split
  · exact fun h => nomatch h
  · exact fun h => breach_reasons _ _ h

theorem legEdge_directive :
    ((legEdge upper s.1 leg).1.directive = "PREEMPTIVE_DEGRADE" ↔
      edgeFrame upper leg ≠ [] ∧ maintains (edgeFrame upper leg) = false ∧
        2 ≤ decayStreak s.1 (edgeKey leg.context.strategyId)) ∧
    ((legEdge upper s.1 leg).1.directive = "PREEMPTIVE_DEGRADE" →
      (legEdge upper s.1 leg).1.reason = "probation_edge_decay_streak") := by
  unfold legEdge evaluateProbationEdge
  by_cases hframe : edgeFrame upper leg = []
  · simp [hframe]
  · cases hmaintains : maintains (edgeFrame upper leg) with
    | true => simp [hframe, probationEdgeDecayStreak]
    | false =>
      simp only [hframe, if_false, Bool.false_eq_true, ne_eq, not_false_eq_true,
        true_and, probationEdgeDecayStreak]
      by_cases hstreak : 3 ≤ decayStreak s.1 (edgeKey leg.context.strategyId) + 1
      · simp only [hstreak, if_true, true_iff, implies_true, and_true]
        omega
      · simp only [hstreak, if_false]
        refine ⟨iff_of_false (by decide) (by omega), fun h => absurd h (by decide)⟩

/-- A rollback of the evening is never an eviction. -/
theorem rollBack_eq (v : EveningLeg) (current : PolicyState) {reason : String} (rows : Rows)
    (h : reason ≠ "execution_drift") :
    (rollBack v current reason rows).1 =
      match current with
      | .sovereign => ⟨.sovereign, .probational, .sovereignToProbational, false, reason, none⟩
      | .probational => ⟨.probational, .passive, .probationalToPassive, false, reason, none⟩
      | .passive => ⟨.passive, .passive, .none, false, "no_rollback_applicable", none⟩ := by
  have hcalm : RollbackCall.isCatastrophic ⟨.valid current, v.context.strategyId, v.context.symbol,
      reason, false, none⟩ = false := by
    simp [RollbackCall.isCatastrophic, h]
  unfold rollBack executeStagedRollback
  simp only [hcalm, Bool.false_eq_true, if_false]
  cases current <;> rfl

theorem eveningDecision_rollback (v : EveningLeg) (rows : Rows) :
    (eveningDecision sessionDate v rows).rollback =
      match currentState v.context rows with
      | .passive => none
      | .probational =>
        if v.verdicts.attributionBreached then
          some (rollBack v .probational (String.intercalate "|" v.verdicts.attributionReasons) rows).1
        else if v.verdicts.preemptiveDegrade then
          some (rollBack v .probational v.verdicts.edgeReason rows).1
        else none
      | .sovereign =>
        if v.verdicts.attributionBreached then
          some (rollBack v .sovereign (String.intercalate "|" v.verdicts.attributionReasons) rows).1
        else if !v.verdicts.maintainsEdge && decide (1 ≤ v.verdicts.decayStreak) then
          some (rollBack v .sovereign "sovereign_edge_decay" rows).1
        else none := by
  unfold eveningDecision
  dsimp only
  cases currentState v.context rows with
  | passive =>
    dsimp only
    split <;> rfl
  | probational =>
    cases v.verdicts.attributionBreached with
    | true => rfl
    | false =>
      cases v.verdicts.preemptiveDegrade with
      | true => rfl
      | false => cases v.verdicts.sovereignPromotion <;> rfl
  | sovereign =>
    cases v.verdicts.attributionBreached with
    | true => rfl
    | false =>
      cases !v.verdicts.maintainsEdge && decide (1 ≤ v.verdicts.decayStreak) <;> rfl

/-- What a pass rolls back, and why. -/
theorem legDecision_rollback :
    (legDecision upper sessionDate s leg).rollback =
      match currentState leg.context s.2 with
      | .passive => none
      | .probational =>
        if (legSlo upper leg).breached then
          some ⟨.probational, .passive, .probationalToPassive, false,
            String.intercalate "|" (legSlo upper leg).reasons, none⟩
        else if (legEdge upper s.1 leg).1.directive = "PREEMPTIVE_DEGRADE" then
          some ⟨.probational, .passive, .probationalToPassive, false,
            "probation_edge_decay_streak", none⟩
        else none
      | .sovereign =>
        if (legSlo upper leg).breached then
          some ⟨.sovereign, .probational, .sovereignToProbational, false,
            String.intercalate "|" (legSlo upper leg).reasons, none⟩
        else if !(legEdge upper s.1 leg).1.maintainsEdge &&
            decide (1 ≤ (legEdge upper s.1 leg).1.decayStreak) then
          some ⟨.sovereign, .probational, .sovereignToProbational, false, "sovereign_edge_decay", none⟩
        else none := by
  have hslo : (legSlo upper leg).breached = true →
      String.intercalate "|" (legSlo upper leg).reasons ≠ "execution_drift" := by
    intro h heq
    have hmem := legSlo_reasons h
    rw [heq] at hmem
    exact absurd hmem (by decide)
  have hreason : (legEdge upper s.1 leg).1.directive = "PREEMPTIVE_DEGRADE" →
      (legEdge upper s.1 leg).1.reason = "probation_edge_decay_streak" := legEdge_directive.2
  have hverdicts : (eveningLeg upper sessionDate s leg).verdicts.attributionBreached =
      (legSlo upper leg).breached := rfl
  have hdegrade : (eveningLeg upper sessionDate s leg).verdicts.preemptiveDegrade = true ↔
      (legEdge upper s.1 leg).1.directive = "PREEMPTIVE_DEGRADE" := decide_eq_true_iff
  have hcontext : (eveningLeg upper sessionDate s leg).context = leg.context := rfl
  rw [legDecision, eveningDecision_rollback, hcontext]
  cases currentState leg.context s.2 with
  | passive => rfl
  | probational =>
    dsimp only
    by_cases hbreached : (legSlo upper leg).breached = true
    · rw [if_pos (hverdicts.trans hbreached), if_pos hbreached]
      exact congrArg some (rollBack_eq _ .probational _ (hslo hbreached))
    · rw [if_neg (hverdicts ▸ hbreached), if_neg hbreached]
      by_cases hdirective : (legEdge upper s.1 leg).1.directive = "PREEMPTIVE_DEGRADE"
      · have hsaid : (eveningLeg upper sessionDate s leg).verdicts.edgeReason =
            "probation_edge_decay_streak" := hreason hdirective
        rw [if_pos (hdegrade.mpr hdirective), if_pos hdirective, hsaid]
        exact congrArg some (rollBack_eq _ .probational _ (by decide))
      · rw [if_neg (mt hdegrade.mp hdirective), if_neg hdirective]
  | sovereign =>
    dsimp only
    by_cases hbreached : (legSlo upper leg).breached = true
    · rw [if_pos (hverdicts.trans hbreached), if_pos hbreached]
      exact congrArg some (rollBack_eq _ .sovereign _ (hslo hbreached))
    · rw [if_neg (hverdicts ▸ hbreached), if_neg hbreached, rollBack_eq _ _ _ (by decide)]
      rfl

theorem degrades_iff :
    Degrades upper sessionDate s leg ↔
      currentState leg.context s.2 = .probational ∧ (legSlo upper leg).breached = false ∧
        edgeFrame upper leg ≠ [] ∧ EdgeGone (edgeFrame upper leg) ∧
          2 ≤ decayStreak s.1 (edgeKey leg.context.strategyId) := by
  have hother : (legSlo upper leg).breached = true →
      String.intercalate "|" (legSlo upper leg).reasons ≠ "probation_edge_decay_streak" := by
    intro h heq
    have hmem := legSlo_reasons h
    rw [heq] at hmem
    exact absurd hmem (by decide)
  unfold Degrades
  rw [legDecision_rollback, ← maintains_eq_false_iff, ← legEdge_directive.1]
  cases currentState leg.context s.2 with
  | passive => simp
  | probational =>
    cases hbreached : (legSlo upper leg).breached with
    | true => simpa using hother hbreached
    | false =>
      by_cases hdirective : (legEdge upper s.1 leg).1.directive = "PREEMPTIVE_DEGRADE"
      · simp [hdirective]
      · simp [hdirective]
  | sovereign =>
    cases hbreached : (legSlo upper leg).breached with
    | true => simpa using hother hbreached
    | false =>
      simp only [Bool.false_eq_true, if_false, reduceCtorEq, false_and, iff_false, not_exists,
        not_and]
      intro r hr
      split at hr
      · cases hr
        decide
      · cases hr

/-! ## The counter is a streak -/

theorem decayStreak_set (streaks : Streaks) (k key : String) (n : ℕ) :
    decayStreak (streaks.set k n) key = if k = key then n else decayStreak streaks key := by
  unfold decayStreak
  rw [Dict.get?_set]
  simp only [eq_comm (a := key)]
  split <;> rfl

theorem legEdge_streak (key : String) :
    decayStreak (legEdge upper s.1 leg).2 key =
      if edgeFrame upper leg ≠ [] ∧ edgeKey leg.context.strategyId = key then
        if maintains (edgeFrame upper leg) then 0 else decayStreak s.1 key + 1
      else decayStreak s.1 key := by
  unfold legEdge evaluateProbationEdge
  by_cases hframe : edgeFrame upper leg = []
  · simp [hframe]
  · simp only [hframe, if_false, ne_eq, not_false_eq_true, true_and]
    rw [decayStreak_set]
    split
    · rename_i hkey
      rw [hkey]
    · rfl

/-- One event moves a counter by what it finds. -/
theorem decayStreak_step (key : String) (e : Event) :
    decayStreak (step upper s e).1 key =
      match finding upper key s e with
      | none => decayStreak s.1 key
      | some gone => if gone then decayStreak s.1 key + 1 else 0 := by
  cases e with
  | pass sessionDate leg =>
    simp only [step, finding, managedPass]
    by_cases hclears : clears (legDecision upper sessionDate s leg).rollback = true ∧
        leg.context.strategyId = key
    · simp only [hclears.1, hclears.2, and_self, if_true, Bool.false_eq_true, if_false]
      rw [decayStreak_set, if_pos rfl]
    · have hnot : ¬(leg.context.strategyId = key ∧
          clears (legDecision upper sessionDate s leg).rollback = true) := fun h => hclears h.symm
      have hkept : ∀ streaks : Streaks,
          decayStreak (if clears (legDecision upper sessionDate s leg).rollback = true then
            streaks.set leg.context.strategyId 0 else streaks) key = decayStreak streaks key := by
        intro streaks
        split
        · rename_i h
          rw [decayStreak_set, if_neg fun hkey => hnot ⟨hkey, h⟩]
        · rfl
      rw [if_neg hnot, hkept]
      by_cases hasks : asksForEdge upper s.2 leg = true
      · simp only [hasks, if_true, true_and]
        rw [legEdge_streak]
        split
        · cases maintains (edgeFrame upper leg) <;> rfl
        · rfl
      · simp [hasks]
  | shock stamps leg shockReason =>
    simp only [step, finding]
    by_cases htier : (shockLeg stamps leg shockReason s.2).1.tier = .velocityShockDemotion
    · simp only [htier, if_true, and_true]
      rw [decayStreak_set]
      split <;> rfl
    · simp [htier]
  | rollback stamps call =>
    simp only [step, finding]
    by_cases hclears : clears (some (executeStagedRollback stamps call s.2).1) = true
    · simp only [hclears, if_true, and_true]
      rw [decayStreak_set]
      split <;> rfl
    · simp [hclears]
  | others rows => rfl

theorem findings_concat (key : String) (es : List Event) (e : Event) (s : Streaks × Rows) :
    findings upper key s (es ++ [e]) =
      findings upper key s es ++ (finding upper key (run (step upper) s es) e).toList := by
  induction es generalizing s with
  | nil => simp [findings]
  | cons f es ih =>
    simp only [List.cons_append, findings, run_cons, ih, List.append_assoc]

/-- The counter is how often in a row the edge was found gone at the end. -/
theorem decayStreak_run (key : String) (rows : Rows) (es : List Event) :
    decayStreak (run (step upper) (.empty, rows) es).1 key =
      streak id (findings upper key (.empty, rows) es) := by
  induction es using List.reverseRecOn with
  | nil => rw [findings, streak_nil]; rfl
  | append_singleton es e ih =>
    rw [run_append, run_cons, run_nil, decayStreak_step, findings_concat, ih]
    cases finding upper key (run (step upper) (.empty, rows) es) e with
    | none => rw [Option.toList_none, List.append_nil]
    | some gone => rw [Option.toList_some, streak_concat]; rfl

/-- A new manager has counted at most the legs it has passed. -/
theorem decayStreak_passes (key : String) (rows : Rows) (legs : List ManagedLeg) :
    decayStreak (run (managedPass upper sessionDate) (.empty, rows) legs).1 key ≤
      (legs.filter fun leg => edgeKey leg.context.strategyId = key).length := by
  induction legs using List.reverseRecOn with
  | nil => exact le_rfl
  | append_singleton legs leg ih =>
    rw [run_append, run_cons, run_nil, List.filter_append, List.length_append]
    have hstep := @decayStreak_step upper (run (managedPass upper sessionDate) (.empty, rows) legs)
      key (.pass sessionDate leg)
    rw [step] at hstep
    rw [hstep]
    cases hfinding : finding upper key (run (managedPass upper sessionDate) (.empty, rows) legs)
        (.pass sessionDate leg) with
    | none => exact Nat.le_add_right_of_le ih
    | some gone =>
      cases gone with
      | false => exact Nat.zero_le _
      | true =>
        have hkey : edgeKey leg.context.strategyId = key := by
          simp only [finding] at hfinding
          split at hfinding
          · cases hfinding
          · split at hfinding
            · rename_i hfound
              exact hfound.2.2
            · cases hfinding
        simp only [List.filter_cons, hkey, decide_true, if_true, List.filter_nil,
          List.length_singleton]
        exact Nat.succ_le_succ ih

/-! ## The scheduled evening -/

theorem run_other (legs : List ManagedLeg) (s : Streaks × Rows) {other : String}
    (h : ∀ leg ∈ legs, leg.context.strategyId ≠ other) :
    (run (managedPass upper sessionDate) s legs).2.get? other = s.2.get? other := by
  induction legs generalizing s with
  | nil => rfl
  | cons leg legs ih =>
    rw [run_cons, ih _ fun l hl => h l (List.mem_cons_of_mem _ hl)]
    exact eveningPass_other sessionDate (eveningLeg upper sessionDate s leg) s.2
      (h leg List.mem_cons_self).symm

theorem currentState_congr {rows rows' : Rows} {leg : LegContext}
    (h : rows.get? leg.strategyId = rows'.get? leg.strategyId) :
    currentState leg rows = currentState leg rows' := by
  unfold currentState
  rw [h]

/-- A probation that is not rolled back goes on, or is promoted. -/
theorem eveningDecision_kept (v : EveningLeg) (rows : Rows)
    (hstate : currentState v.context rows = .probational)
    (hbreached : v.verdicts.attributionBreached = false)
    (hdegrade : v.verdicts.preemptiveDegrade = false) :
    (eveningDecision sessionDate v rows).current = .probational ∨
      (eveningDecision sessionDate v rows).current = .sovereign := by
  unfold eveningDecision
  simp only [hstate, hbreached, hdegrade, Bool.false_eq_true, if_false]
  split
  · exact .inr rfl
  · exact .inl rfl

end Findings

/-- **The counter of lost edges does not outlive an evening.** While one manager lives, a pass rolls
a probation back for its edge exactly when the edge is gone and was found gone the last two times,
with no rollback or shock in between, which clears the count; a manager that is new in the evening
does so only where the same strategy came up twice before. So an evening of the scheduler that names
each strategy once never takes a leg out of probation for its edge, whatever the ledgers say. -/
theorem edge_decay_forgotten (upper : String → String) (sessionDate : String) (rows : Rows) :
    (∀ es leg, Degrades upper sessionDate (run (step upper) (.empty, rows) es) leg ↔
        currentState leg.context (run (step upper) (.empty, rows) es).2 = .probational ∧
          (legSlo upper leg).breached = false ∧ edgeFrame upper leg ≠ [] ∧
            EdgeGone (edgeFrame upper leg) ∧
              2 ≤ streak id
                (findings upper (edgeKey leg.context.strategyId) (.empty, rows) es)) ∧
      (∀ before leg,
        Degrades upper sessionDate (run (managedPass upper sessionDate) (.empty, rows) before) leg →
          2 ≤ (before.filter fun l =>
            edgeKey l.context.strategyId = edgeKey leg.context.strategyId).length) ∧
      ∀ legs, (legs.map fun leg => edgeKey leg.context.strategyId).Nodup → ∀ leg ∈ legs,
        currentState leg.context rows = .probational → (legSlo upper leg).breached = false →
          ∃ row, (runAiPolicyLifecycleProgression upper sessionDate legs rows).get?
              leg.context.strategyId = some row ∧
            (row.executionState = .valid .probational ∨ row.executionState = .valid .sovereign) := by
  have hfresh : ∀ before leg,
      Degrades upper sessionDate (run (managedPass upper sessionDate) (.empty, rows) before) leg →
        2 ≤ (before.filter fun l =>
          edgeKey l.context.strategyId = edgeKey leg.context.strategyId).length := by
    intro before leg h
    exact (degrades_iff.mp h).2.2.2.2.trans (decayStreak_passes _ rows before)
  refine ⟨fun es leg => ?_, hfresh, fun legs hnodup leg hleg hstate hbreached => ?_⟩
  · rw [degrades_iff, decayStreak_run]
  · obtain ⟨before, after, rfl⟩ := List.append_of_mem hleg
    rw [List.map_append, List.map_cons, List.nodup_append] at hnodup
    obtain ⟨-, hafter, hbefore⟩ := hnodup
    have hearlier : ∀ l ∈ before, edgeKey l.context.strategyId ≠ edgeKey leg.context.strategyId :=
      fun l hl => hbefore _ (List.mem_map_of_mem hl) _ List.mem_cons_self
    have hlater : ∀ l ∈ after, edgeKey l.context.strategyId ≠ edgeKey leg.context.strategyId :=
      fun l hl heq => (List.nodup_cons.mp hafter).1 (heq ▸ List.mem_map_of_mem hl)
    let s := run (managedPass upper sessionDate) (.empty, rows) before
    have hsame : s.2.get? leg.context.strategyId = rows.get? leg.context.strategyId :=
      run_other before _ fun l hl heq => hearlier l hl (heq ▸ rfl)
    have hnow : currentState leg.context s.2 = .probational :=
      (currentState_congr hsame).trans hstate
    have hkept : (legEdge upper s.1 leg).1.directive ≠ "PREEMPTIVE_DEGRADE" := by
      intro hdirective
      obtain ⟨hframe, hgone, hstreak⟩ := legEdge_directive.1.mp hdirective
      have hnone : (before.filter fun l =>
          edgeKey l.context.strategyId = edgeKey leg.context.strategyId) = [] :=
        List.filter_eq_nil_iff.mpr fun l hl => by simpa using hearlier l hl
      have htwo := hfresh before leg (degrades_iff.mpr
        ⟨hnow, hbreached, hframe, (maintains_eq_false_iff _).mp hgone, hstreak⟩)
      rw [hnone] at htwo
      exact absurd htwo (by simp)
    have hdecision : (eveningDecision sessionDate (eveningLeg upper sessionDate s leg) s.2).current =
        .probational ∨
        (eveningDecision sessionDate (eveningLeg upper sessionDate s leg) s.2).current = .sovereign :=
      eveningDecision_kept _ s.2 hnow hbreached (decide_eq_false hkept)
    have hrow : (runAiPolicyLifecycleProgression upper sessionDate (before ++ leg :: after) rows).get?
        leg.context.strategyId =
          (eveningPass sessionDate s.2 (eveningLeg upper sessionDate s leg)).get?
            leg.context.strategyId := by
      rw [runAiPolicyLifecycleProgression, run_append, run_cons,
        run_other after _ fun l hl heq => hlater l hl (heq ▸ rfl)]
      rfl
    refine ⟨_, hrow.trans (get?_upsert leg.context.strategyId _ _), ?_⟩
    exact hdecision.imp (congrArg StateText.valid) (congrArg StateText.valid)

/-- A challenger that stood down while the rules won. -/
theorem edge_decay_forgotten_losing :
    let stamps : Stamps := ⟨"2024-03-01T21:00", "2024-03-01", "2024-03-15", "2024-03-01"⟩
    let readings : LegReadings :=
      { vault :=
          { shadow := [⟨"2024-02-28", "QQQ", some "STAND_DOWN", 1, some "CALM_MR"⟩] }
        edgeCutoff := "2024-02-16", sloCutoff := "2024-02-16", promotionCutoff := "2024-01-31"
        promotionShadowCutoff := "2024-01-31", probationStart := "2024-03-01T21:00"
        updatedAt := "2024-03-01T21:00", stamps }
    let leg : ManagedLeg := ⟨⟨"mr_qqq", "QQQ", .valid .probational⟩, readings⟩
    ∃ row, (runAiPolicyLifecycleProgression id "2024-03-01" [leg] .empty).get? "mr_qqq" = some row ∧
      (row.executionState = .valid .probational ∨ row.executionState = .valid .sovereign) := by
  refine (edge_decay_forgotten id "2024-03-01" .empty).2.2 _ ?_ _ List.mem_cons_self rfl rfl
  exact List.nodup_singleton _

end TradingPlatform.Engine.EveningEvaluators
