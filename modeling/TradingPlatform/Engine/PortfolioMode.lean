import TradingPlatform.Engine.SignalConflicts

/-! # The portfolio mode

A book is held to one leg, the dominant one. Where the mode comes from SPY being
off, that leg is QQQ by name, whether or not the book holds it. -/

namespace TradingPlatform.Engine.Portfolio

open TradingPlatform.Lib

def spyDisableHealthFloor : ℚ := 45 / 100
def dominantLegBudgetShare : ℚ := 95 / 100

/-- `max(budgets, key=budgets.get)`: the first of the largest. -/
def topBudget : List (String × ℚ) → Option (String × ℚ)
  | [] => none
  | p :: rest =>
    match topBudget rest with
    | none => some p
    | some q => if q.2 ≤ p.2 then some p else some q

/-- `enabled_strategy_ids or frozenset(leg_metrics)`. -/
def enabledSet (legMetrics : Dict String LegMetrics) (enabledStrategyIds : Option (List String)) :
    List String :=
  match enabledStrategyIds with
  | some (id :: ids) => (id :: ids).dedup
  | _ => legMetrics.items.map (·.1)

/-- The mode without an explicit leg, a lone leg, SPY off or a capital winner. -/
def PortfolioBrain.budgetMode (brain : PortfolioBrain) (spyEnabledConfig : Bool) :
    PortfolioModeDecision :=
  match topBudget brain.riskBudgets.items with
  | some (topId, topShare) =>
    if dominantLegBudgetShare ≤ topShare then
      { mode :=
          if topId = qqqStrategyId then .singleLegQqq
          else if topId = spyStrategyId then .singleLegSpy
          else .dualLeg
        spyLegEnabled := spyEnabledConfig, singleLegMode := true, dominantStrategyId := some topId
        reason := .volParityDominantBudget }
    else
      { mode := .dualLeg, spyLegEnabled := spyEnabledConfig, singleLegMode := false
        dominantStrategyId := none, reason := .dualLegDefault }
  | none =>
    { mode := .dualLeg, spyLegEnabled := spyEnabledConfig, singleLegMode := false
      dominantStrategyId := none, reason := .dualLegDefault }

/-- SPY is off: its id drops out, and the book is held to QQQ. -/
def spyDisabledMode (dominant : String) (reason : ModeReason) : PortfolioModeDecision where
  mode := .spyDisabled
  spyLegEnabled := false
  singleLegMode := true
  dominantStrategyId := some dominant
  reason := reason

def PortfolioBrain.resolvePortfolioMode (brain : PortfolioBrain)
    (legMetrics : Dict String LegMetrics) (capitalWinnerStrategyId : Option String)
    (enabledStrategyIds : Option (List String)) : PortfolioModeDecision :=
  let enabled := enabledSet legMetrics enabledStrategyIds
  let spyMetrics := legMetrics.get? spyStrategyId
  let spyEnabledConfig := (spyMetrics.map (·.enabled)).getD false
  if brain.singleLegSymbol = some "QQQ" then
    { mode := .singleLegQqq, spyLegEnabled := false, singleLegMode := true
      dominantStrategyId := some qqqStrategyId, reason := .explicitSingleLegSymbolQqq }
  else if brain.singleLegSymbol = some "SPY" then
    { mode := .singleLegSpy, spyLegEnabled := true, singleLegMode := true
      dominantStrategyId := some spyStrategyId, reason := .explicitSingleLegSymbolSpy }
  else if enabled.length = 1 then
    { mode :=
        if enabled.head? = some qqqStrategyId then .singleLegQqq
        else if enabled.head? = some spyStrategyId then .singleLegSpy
        else .dualLeg
      spyLegEnabled := spyStrategyId ∈ enabled, singleLegMode := true
      dominantStrategyId := enabled.head?, reason := .singleEnabledLegConfig }
  else if spyEnabledConfig = false then spyDisabledMode qqqStrategyId .spyConfigDisabled
  else if spyMetrics.any fun m => decide (m.healthScore < spyDisableHealthFloor) then
    spyDisabledMode qqqStrategyId .spyHealthBelowFloor
  else
    match capitalWinnerStrategyId.filter fun w => w ≠ "" ∧ w ≠ spyStrategyId with
    | some winner =>
      if spyStrategyId ∈ enabled ∧ qqqStrategyId ∈ enabled then
        spyDisabledMode winner .capitalPrioritizationNonSpy
      else brain.budgetMode spyEnabledConfig
    | none => brain.budgetMode spyEnabledConfig

/-! ## Who dominates -/

def EnabledLeg (legMetrics : Dict String LegMetrics) (sid : String) : Prop :=
  ∃ m, legMetrics.get? sid = some m ∧ m.enabled = true

/-- A book held to one leg is held to an enabled one. -/
def DominantEnabled (legMetrics : Dict String LegMetrics) (mode : PortfolioModeDecision) : Prop :=
  mode.singleLegMode = true →
    ∃ dominant, mode.dominantStrategyId = some dominant ∧ EnabledLeg legMetrics dominant

theorem mem_of_topBudget {items : List (String × ℚ)} {p : String × ℚ}
    (h : topBudget items = some p) : p ∈ items := by
  induction items generalizing p with
  | nil => cases h
  | cons q rest ih =>
    unfold topBudget at h
    cases hrest : topBudget rest with
    | none =>
      rw [hrest] at h
      cases h
      exact List.mem_cons_self
    | some q' =>
      rw [hrest] at h
      dsimp only at h
      split at h
      · cases h
        exact List.mem_cons_self
      · cases h
        exact List.mem_cons_of_mem _ (ih hrest)

/-- A budget large enough to dominate is an enabled leg's. -/
theorem budgetMode_dominantEnabled {brain : PortfolioBrain} {legMetrics : Dict String LegMetrics}
    (hbudgets : brain.riskBudgets = normalizeWeights (brain.rawWeights legMetrics))
    (hsome : ∃ sid, EnabledLeg legMetrics sid) (spyEnabledConfig : Bool) :
    DominantEnabled legMetrics (brain.budgetMode spyEnabledConfig) := by
  intro hsingle
  unfold PortfolioBrain.budgetMode at hsingle ⊢
  cases htop : topBudget brain.riskBudgets.items with
  | none => simp [htop] at hsingle
  | some p =>
    obtain ⟨topId, topShare⟩ := p
    rw [htop] at hsingle
    dsimp only at hsingle ⊢
    split at hsingle
    · rename_i hshare
      refine ⟨topId, by rw [if_pos hshare], ?_⟩
      have hget := (Dict.get?_eq_some _).mpr (mem_of_topBudget htop)
      rw [hbudgets] at hget
      obtain ⟨sid, hsid⟩ := hsome
      have hraw : ∃ sid w, (brain.rawWeights legMetrics).get? sid = some w ∧ 0 < w :=
        ⟨sid, (rawWeights_pos_iff brain legMetrics sid).mpr hsid⟩
      have hpos : 0 < topShare := lt_of_lt_of_le (by decide +kernel) hshare
      exact (rawWeights_pos_iff brain legMetrics topId).mp (normalizeWeights_pos hraw hget hpos)
    · cases hsingle

theorem spyDisabledMode_dominantEnabled {legMetrics : Dict String LegMetrics} {dominant : String}
    {reason : ModeReason} :
    DominantEnabled legMetrics (spyDisabledMode dominant reason) ↔
      EnabledLeg legMetrics dominant := by
  constructor
  · intro h
    obtain ⟨d, hd, hon⟩ := h rfl
    cases hd
    exact hon
  · exact fun hon _ => ⟨dominant, rfl, hon⟩

theorem dominantLeg_spyDisabledMode {dominant : String} {reason : ModeReason} (h : dominant ≠ "") :
    dominantLeg (some (spyDisabledMode dominant reason)) = some dominant := by
  simp [dominantLeg, spyDisabledMode, Option.filter, h]

/-- An enabled-id set that belongs to the metrics: left out, or the enabled legs. -/
def EnabledIds (legMetrics : Dict String LegMetrics) (ids : Option (List String)) : Prop :=
  ∀ xs, ids = some xs → ∀ sid, sid ∈ xs ↔ EnabledLeg legMetrics sid

/-- A lone id is an enabled leg's. -/
theorem lone_enabled {legMetrics : Dict String LegMetrics} {ids : Option (List String)}
    (hids : EnabledIds legMetrics ids) (hsome : ∃ sid, EnabledLeg legMetrics sid)
    (hlone : (enabledSet legMetrics ids).length = 1) :
    ∃ dominant, (enabledSet legMetrics ids).head? = some dominant ∧
      EnabledLeg legMetrics dominant := by
  obtain ⟨dominant, hset⟩ := List.length_eq_one_iff.mp hlone
  refine ⟨dominant, by rw [hset]; rfl, ?_⟩
  have hall : ∀ sid, EnabledLeg legMetrics sid → sid ∈ legMetrics.items.map (·.1) := by
    rintro sid ⟨m, hm, -⟩
    exact List.mem_map.mpr ⟨_, (Dict.get?_eq_some _).mp hm, rfl⟩
  obtain ⟨sid, hsid⟩ := hsome
  unfold enabledSet at hset
  split at hset
  · rename_i x xs
    refine (hids (x :: xs) rfl dominant).mp (List.mem_dedup.mp ?_)
    rw [hset]
    exact List.mem_singleton_self dominant
  · have hmem := hall sid hsid
    rw [hset, List.mem_singleton] at hmem
    exact hmem ▸ hsid

/-- SPY is enabled and healthy. -/
def SpyHealthy (legMetrics : Dict String LegMetrics) : Prop :=
  ∃ m, legMetrics.get? spyStrategyId = some m ∧ m.enabled = true ∧
    spyDisableHealthFloor ≤ m.healthScore

section Mode
variable {brain : PortfolioBrain} {legMetrics : Dict String LegMetrics} {winner : Option String}
  {ids : Option (List String)}

theorem healthy_dominantEnabled (hfree : brain.singleLegSymbol = none)
    (hbudgets : brain.riskBudgets = normalizeWeights (brain.rawWeights legMetrics))
    (hsome : ∃ sid, EnabledLeg legMetrics sid)
    (hwinner : ∀ w, winner = some w → EnabledLeg legMetrics w)
    (hmany : (enabledSet legMetrics ids).length ≠ 1) (hspy : SpyHealthy legMetrics) :
    DominantEnabled legMetrics (brain.resolvePortfolioMode legMetrics winner ids) := by
  obtain ⟨m, hm, hon, hhealth⟩ := hspy
  unfold PortfolioBrain.resolvePortfolioMode
  simp only [hfree, hm, hon, hmany, Option.map_some, Option.getD_some, Option.any_some,
    not_lt.mpr hhealth, decide_false, Bool.false_eq_true, Bool.true_eq_false, if_false, reduceCtorEq]
  split
  · rename_i w hw
    have hin := hwinner w (Option.eq_some_of_filter_eq_some hw)
    split
    · exact spyDisabledMode_dominantEnabled.mpr hin
    · exact budgetMode_dominantEnabled hbudgets hsome true
  · exact budgetMode_dominantEnabled hbudgets hsome true

variable (winner) in
/-- Many legs and SPY off: QQQ dominates, by name. -/
theorem spyOff_mode (hfree : brain.singleLegSymbol = none)
    (hmany : (enabledSet legMetrics ids).length ≠ 1) (hspy : ¬SpyHealthy legMetrics) :
    ∃ reason, brain.resolvePortfolioMode legMetrics winner ids =
      spyDisabledMode qqqStrategyId reason := by
  unfold PortfolioBrain.resolvePortfolioMode
  simp only [hfree, hmany, if_false, reduceCtorEq]
  split
  · exact ⟨_, rfl⟩
  rename_i hon
  cases hm : legMetrics.get? spyStrategyId with
  | none => simp [hm] at hon
  | some m =>
    have henabled : m.enabled = true := by simpa [hm] using hon
    have hlow : m.healthScore < spyDisableHealthFloor := by
      by_contra hhigh
      exact hspy ⟨m, hm, henabled, not_lt.mp hhigh⟩
    exact ⟨_, if_pos (by simpa using hlow)⟩

/-- The dominant leg is enabled just when there is one leg, SPY is on, or QQQ is on;
otherwise no enabled leg may enter. -/
theorem dominant_enabled_iff (hfree : brain.singleLegSymbol = none)
    (hsome : ∃ sid, EnabledLeg legMetrics sid) (hids : EnabledIds legMetrics ids)
    (hwinner : ∀ w, winner = some w → EnabledLeg legMetrics w) :
    let mode := (brain.allocateRiskBudgets legMetrics).2.resolvePortfolioMode legMetrics winner ids
    (DominantEnabled legMetrics mode ↔
      (enabledSet legMetrics ids).length = 1 ∨ SpyHealthy legMetrics ∨
        EnabledLeg legMetrics qqqStrategyId) ∧
      (¬DominantEnabled legMetrics mode →
        ∀ upper metrics correlations activeSignals,
          (∀ e ∈ entriesOf activeSignals, EnabledLeg legMetrics e.strategyId) →
          entriesOf (resolveSignalConflicts upper metrics correlations (some mode)
            activeSignals).approvedSignals = []) := by
  have hne : legMetrics.items ≠ [] := by
    obtain ⟨sid, m, hm, -⟩ := hsome
    exact List.ne_nil_of_mem ((Dict.get?_eq_some _).mp hm)
  have halloc : (brain.allocateRiskBudgets legMetrics).2 =
      { brain with riskBudgets := normalizeWeights (brain.rawWeights legMetrics) } := by
    rw [PortfolioBrain.allocateRiskBudgets, if_neg hne]
  rw [halloc]
  generalize hbrain : { brain with riskBudgets := normalizeWeights (brain.rawWeights legMetrics) } =
    after
  have hfree' : after.singleLegSymbol = none := hbrain ▸ hfree
  have hbudgets : after.riskBudgets = normalizeWeights (after.rawWeights legMetrics) := hbrain ▸ rfl
  intro mode
  have hiff : DominantEnabled legMetrics mode ↔
      (enabledSet legMetrics ids).length = 1 ∨ SpyHealthy legMetrics ∨
        EnabledLeg legMetrics qqqStrategyId := by
    by_cases hlone : (enabledSet legMetrics ids).length = 1
    · refine iff_of_true (fun _ => ?_) (.inl hlone)
      obtain ⟨dominant, hhead, hon⟩ := lone_enabled hids hsome hlone
      refine ⟨dominant, ?_, hon⟩
      unfold mode PortfolioBrain.resolvePortfolioMode
      simp [hfree', hlone, hhead]
    by_cases hspy : SpyHealthy legMetrics
    · exact iff_of_true (healthy_dominantEnabled hfree' hbudgets hsome hwinner hlone hspy)
        (.inr (.inl hspy))
    obtain ⟨reason, hmode⟩ := spyOff_mode winner hfree' hlone hspy
    simp only [mode, hmode, spyDisabledMode_dominantEnabled, hlone, hspy, false_or]
  refine ⟨hiff, fun hlocked upper metrics correlations activeSignals hlegs => ?_⟩
  have hcond := mt hiff.mpr hlocked
  rw [not_or, not_or] at hcond
  obtain ⟨hmany, hspy, hqqq⟩ := hcond
  obtain ⟨reason, hmode⟩ := spyOff_mode winner hfree' hmany hspy
  refine List.eq_nil_iff_forall_not_mem.mpr fun e he => ?_
  obtain ⟨hin, hstays⟩ := mem_approved.mp he
  refine hstays (.inr ⟨qqqStrategyId, ?_, fun hid => hqqq (hid ▸ hlegs e hin)⟩)
  unfold mode
  rw [hmode, dominantLeg_spyDisabledMode (by decide +kernel)]

end Mode

def legBook (legs : List (String × String)) : Dict String LegMetrics :=
  Dict.tabulate (·.strategyId) id (legs.map fun leg =>
    { strategyId := leg.1, symbol := leg.2, realizedVol := 1 / 5, drawdownContribution := 0
      marginalSharpe := 1 / 4 })

/-- With SPY on and healthy the book is free, though it holds no QQQ. -/
theorem spy_book_dominant_enabled :
    DominantEnabled (legBook [(spyStrategyId, "SPY"), ("trend_gld", "GLD")])
      ((({} : PortfolioBrain).allocateRiskBudgets
        (legBook [(spyStrategyId, "SPY"), ("trend_gld", "GLD")])).2.resolvePortfolioMode
        (legBook [(spyStrategyId, "SPY"), ("trend_gld", "GLD")]) none none) := by
  refine (dominant_enabled_iff rfl ?_ ?_ ?_).1.mpr (.inr (.inl ⟨_, rfl, rfl, by decide +kernel⟩))
  · exact ⟨"trend_gld", _, rfl, rfl⟩
  · rintro _ ⟨⟩
  · rintro _ ⟨⟩

/-- A book of gold and oil is held to QQQ, which it does not hold. -/
theorem gold_oil_book_locked_out :
    let metrics := legBook [("trend_gld", "GLD"), ("trend_uso", "USO")]
    let mode := (({} : PortfolioBrain).allocateRiskBudgets metrics).2.resolvePortfolioMode metrics
      none (some ["trend_gld", "trend_uso"])
    mode.singleLegMode = true ∧ mode.dominantStrategyId = some "mean_reversion_qqq" ∧
      metrics.get? "mean_reversion_qqq" = none := by
  decide +kernel

end TradingPlatform.Engine.Portfolio
