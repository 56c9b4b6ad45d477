import TradingPlatform.Models
import TradingPlatform.Lib.Dict
import Mathlib.Algebra.Order.BigOperators.Group.List
import Mathlib.Algebra.Order.Field.Rat
import Mathlib.Tactic.NormNum

/-! # The portfolio brain: metrics, budgets and the mode of a cycle -/

namespace TradingPlatform.Engine.Portfolio

open TradingPlatform.Lib

def qqqStrategyId : String := "mean_reversion_qqq"
def spyStrategyId : String := "mean_reversion_spy"

def minMarginalSharpe : ℚ := 5 / 100
def volFloor : ℚ := 5 / 100
def oneRiskUnitCorrelation : ℚ := 85 / 100
def opposingSignalCorrelationFloor : ℚ := oneRiskUnitCorrelation

structure LegMetrics where
  strategyId : String
  symbol : String
  realizedVol : ℚ
  drawdownContribution : ℚ
  marginalSharpe : ℚ
  notionalExposure : ℚ := 0
  healthScore : ℚ := 1
  championScore : ℚ := 0
  enabled : Bool := true
  deriving DecidableEq

inductive PortfolioMode
  | dualLeg
  | singleLegQqq
  | singleLegSpy
  | spyDisabled
  deriving DecidableEq, Repr

inductive ModeReason
  | explicitSingleLegSymbolQqq
  | explicitSingleLegSymbolSpy
  | singleEnabledLegConfig
  | spyConfigDisabled
  | spyHealthBelowFloor
  | capitalPrioritizationNonSpy
  | dualLegDefault
  | volParityDominantBudget
  deriving DecidableEq, Repr

def ModeReason.text : ModeReason → String
  | .explicitSingleLegSymbolQqq => "explicit_single_leg_symbol_qqq"
  | .explicitSingleLegSymbolSpy => "explicit_single_leg_symbol_spy"
  | .singleEnabledLegConfig => "single_enabled_leg_config"
  | .spyConfigDisabled => "spy_config_disabled"
  | .spyHealthBelowFloor => "spy_health_below_floor"
  | .capitalPrioritizationNonSpy => "capital_prioritization_non_spy"
  | .dualLegDefault => "dual_leg_default"
  | .volParityDominantBudget => "vol_parity_dominant_budget"

structure PortfolioModeDecision where
  mode : PortfolioMode
  spyLegEnabled : Bool
  singleLegMode : Bool
  dominantStrategyId : Option String
  reason : ModeReason
  deriving DecidableEq

/-- The brain's settings, and of its state the budgets and the mode, which later
calls read. -/
structure PortfolioBrain where
  equity : ℚ := 100000
  singleLegSymbol : Option String := none
  staticEqualSplit : Bool := false
  maxMultidayDirectionalExposureFraction : ℚ := 40 / 100
  maxMultidayHoldingCalendarDays : ℤ := 5
  riskBudgets : Dict String ℚ := .empty
  mode : Option PortfolioModeDecision := none
  deriving DecidableEq

def isEntryAction (action : SignalAction) : Bool := action == .long || action == .short

def signalDirection : SignalAction → ℤ
  | .long => 1
  | .short => -1
  | _ => 0

/-! ## Budgets -/

/-- `_normalize_weights`: negative weights count as zero, and no weight at all splits evenly. -/
def normalizeWeights (raw : Dict String ℚ) : Dict String ℚ :=
  let positive := raw.mapValues fun _ v => max v 0
  let total := positive.total fun _ v => v
  if total ≤ 0 then
    positive.mapValues fun _ _ => 1 / (if positive.items = [] then 1 else positive.items.length)
  else positive.mapValues fun _ v => v / total

/-- Inverse volatility, less the leg's part in the drawdown, times its marginal Sharpe. -/
def LegMetrics.rawWeight (m : LegMetrics) : ℚ :=
  if m.enabled = false then 0
  else
    let invVol := 1 / max m.realizedVol volFloor
    let ddPenalty := 1 - min (max m.drawdownContribution 0) (95 / 100)
    let sharpeBoost := max m.marginalSharpe minMarginalSharpe
    invVol * ddPenalty * sharpeBoost

def PortfolioBrain.rawWeights (brain : PortfolioBrain) (legMetrics : Dict String LegMetrics) :
    Dict String ℚ :=
  if brain.staticEqualSplit then legMetrics.mapValues fun _ m => if m.enabled then 1 else 0
  else legMetrics.mapValues fun _ m => m.rawWeight

/-- The budgets are also kept in the state, unless there is no leg to budget. -/
def PortfolioBrain.allocateRiskBudgets (brain : PortfolioBrain)
    (legMetrics : Dict String LegMetrics) : Dict String ℚ × PortfolioBrain :=
  if legMetrics.items = [] then (.empty, brain)
  else
    let budgets := normalizeWeights (brain.rawWeights legMetrics)
    (budgets, { brain with riskBudgets := budgets })

/-- An enabled leg weighs something, a disabled one nothing. -/
theorem rawWeight_pos_iff (m : LegMetrics) : 0 < m.rawWeight ↔ m.enabled = true := by
  unfold LegMetrics.rawWeight
  by_cases hoff : m.enabled = false
  · simp [hoff]
  rw [if_neg hoff]
  refine iff_of_true ?_ (Bool.not_eq_false _ ▸ hoff)
  have hvol : 0 < max m.realizedVol volFloor := lt_max_of_lt_right (by decide +kernel)
  have hpenalty : 0 < 1 - min (max m.drawdownContribution 0) (95 / 100) :=
    sub_pos.mpr (lt_of_le_of_lt (min_le_right _ _) (by norm_num))
  have hboost : 0 < max m.marginalSharpe minMarginalSharpe :=
    lt_max_of_lt_right (by decide +kernel)
  exact mul_pos (mul_pos (one_div_pos.mpr hvol) hpenalty) hboost

theorem rawWeights_pos_iff (brain : PortfolioBrain) (legMetrics : Dict String LegMetrics)
    (sid : String) :
    (∃ w, (brain.rawWeights legMetrics).get? sid = some w ∧ 0 < w) ↔
      ∃ m, legMetrics.get? sid = some m ∧ m.enabled = true := by
  unfold PortfolioBrain.rawWeights
  split
  · simp only [Dict.get?_mapValues, Option.map_eq_some_iff]
    constructor
    · intro h
      obtain ⟨_, ⟨m, hm, rfl⟩, hpos⟩ := h
      exact ⟨m, hm, by by_contra hoff; simp [hoff] at hpos⟩
    · intro h
      obtain ⟨m, hm, hon⟩ := h
      exact ⟨_, ⟨m, hm, rfl⟩, by simp [hon]⟩
  · simp only [Dict.get?_mapValues, Option.map_eq_some_iff]
    constructor
    · intro h
      obtain ⟨_, ⟨m, hm, rfl⟩, hpos⟩ := h
      exact ⟨m, hm, (rawWeight_pos_iff m).mp hpos⟩
    · intro h
      obtain ⟨m, hm, hon⟩ := h
      exact ⟨_, ⟨m, hm, rfl⟩, (rawWeight_pos_iff m).mpr hon⟩

theorem normalizeWeights_nonneg {raw : Dict String ℚ} {sid : String} {w : ℚ}
    (h : (normalizeWeights raw).get? sid = some w) : 0 ≤ w := by
  unfold normalizeWeights at h
  dsimp only at h
  split at h
  · rw [Dict.get?_mapValues, Option.map_eq_some_iff] at h
    obtain ⟨_, -, rfl⟩ := h
    refine one_div_nonneg.mpr ?_
    split
    · exact zero_le_one
    · exact Nat.cast_nonneg _
  · rename_i htotal
    rw [Dict.get?_mapValues, Dict.get?_mapValues, Option.map_map, Option.map_eq_some_iff] at h
    obtain ⟨v, -, rfl⟩ := h
    exact div_nonneg (le_max_right _ _) (not_le.mp htotal).le

/-- The weights of a book share out at most the whole. -/
theorem total_normalizeWeights_le (raw : Dict String ℚ) :
    (normalizeWeights raw).total (fun _ w => w) ≤ 1 := by
  unfold normalizeWeights
  dsimp only
  split
  · rw [Dict.total_mapValues]
    by_cases hempty : (raw.mapValues fun _ v => max v 0).items = []
    · simp [Dict.total, List.map_eq_nil_iff.mp hempty]
    · rw [if_neg hempty]
      simp only [Dict.total, List.map_const', List.sum_replicate, nsmul_eq_mul]
      have hlen : ((raw.mapValues fun _ v => max v 0).items.length : ℚ) ≠ 0 :=
        Nat.cast_ne_zero.mpr fun h0 => hempty (List.length_eq_zero_iff.mp h0)
      rw [mul_one_div_cancel hlen]
  · rename_i htotal
    rw [Dict.total_mapValues]
    simp only [div_eq_inv_mul, Dict.total_mul_left]
    exact (inv_mul_cancel₀ (not_le.mp htotal).ne').le

/-- With some weight on the book, a leg has a share just when it has weight. -/
theorem normalizeWeights_pos {raw : Dict String ℚ} (hsome : ∃ sid w, raw.get? sid = some w ∧ 0 < w)
    {sid : String} {share : ℚ} (h : (normalizeWeights raw).get? sid = some share)
    (hpos : 0 < share) : ∃ w, raw.get? sid = some w ∧ 0 < w := by
  have htotal : ¬(raw.mapValues fun _ v => max v 0).total (fun _ v => v) ≤ 0 := by
    obtain ⟨sid', w, hw, hwpos⟩ := hsome
    rw [not_le, Dict.total_mapValues]
    have hmem : max w 0 ∈ raw.items.map fun p => max p.2 0 :=
      List.mem_map.mpr ⟨(sid', w), (Dict.get?_eq_some _).mp hw, rfl⟩
    refine lt_of_lt_of_le (lt_max_of_lt_left hwpos) (List.single_le_sum ?_ _ hmem)
    intro v hv
    obtain ⟨p, -, rfl⟩ := List.mem_map.mp hv
    exact le_max_right _ _
  unfold normalizeWeights at h
  dsimp only at h
  rw [if_neg htotal, Dict.get?_mapValues, Dict.get?_mapValues, Option.map_map,
    Option.map_eq_some_iff] at h
  obtain ⟨w, hw, rfl⟩ := h
  refine ⟨w, hw, ?_⟩
  by_contra hneg
  simp [max_eq_right (not_lt.mp hneg)] at hpos

end TradingPlatform.Engine.Portfolio
