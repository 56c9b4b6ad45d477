import TradingPlatform.Engine.PortfolioBrain
import Mathlib.Algebra.Order.Field.Basic
import Mathlib.Tactic.Linarith

/-! # What the risk budgets share out

While some leg is enabled, a leg's budget is its weight over the weight of the
book, and a worse metric moves budget from the leg to the others. With every
leg disabled the even split of `_normalize_weights` hands budget to disabled
legs. -/

namespace TradingPlatform.Engine.Portfolio

open TradingPlatform.Lib

/-- What a leg weighs before the normalization, in either split mode. -/
def PortfolioBrain.legWeight (brain : PortfolioBrain) (m : LegMetrics) : ℚ :=
  if brain.staticEqualSplit then (if m.enabled then 1 else 0) else m.rawWeight

/-- What the whole book weighs. -/
def PortfolioBrain.bookWeight (brain : PortfolioBrain) (legMetrics : Dict String LegMetrics) : ℚ :=
  legMetrics.total fun _ m => brain.legWeight m

def SomeEnabled (legMetrics : Dict String LegMetrics) : Prop :=
  ∃ sid m, legMetrics.get? sid = some m ∧ m.enabled = true

variable (brain : PortfolioBrain) {legMetrics : Dict String LegMetrics}

theorem rawWeights_eq_legWeight (legMetrics : Dict String LegMetrics) :
    brain.rawWeights legMetrics = legMetrics.mapValues fun _ m => brain.legWeight m := by
  unfold PortfolioBrain.rawWeights PortfolioBrain.legWeight
  split <;> rfl

theorem legWeight_pos_iff (m : LegMetrics) : 0 < brain.legWeight m ↔ m.enabled = true := by
  unfold PortfolioBrain.legWeight
  split
  · cases m.enabled <;> simp
  · exact rawWeight_pos_iff m

theorem legWeight_of_disabled {m : LegMetrics} (h : m.enabled = false) :
    brain.legWeight m = 0 := by
  simp [PortfolioBrain.legWeight, LegMetrics.rawWeight, h]

theorem legWeight_nonneg (m : LegMetrics) : 0 ≤ brain.legWeight m := by
  by_cases hon : m.enabled = true
  · exact ((legWeight_pos_iff brain m).mpr hon).le
  · rw [legWeight_of_disabled brain (by simpa using hon)]

theorem legWeight_le_bookWeight {sid : String} {m : LegMetrics}
    (h : legMetrics.get? sid = some m) : brain.legWeight m ≤ brain.bookWeight legMetrics := by
  refine List.single_le_sum ?_ _
    (List.mem_map.mpr ⟨(sid, m), (Dict.get?_eq_some _).mp h, rfl⟩)
  intro w hw
  obtain ⟨p, -, rfl⟩ := List.mem_map.mp hw
  exact legWeight_nonneg brain p.2

theorem bookWeight_pos (h : SomeEnabled legMetrics) : 0 < brain.bookWeight legMetrics := by
  obtain ⟨sid, m, hm, hon⟩ := h
  exact ((legWeight_pos_iff brain m).mpr hon).trans_le (legWeight_le_bookWeight brain hm)

theorem bookWeight_of_disabled (h : ¬ SomeEnabled legMetrics) :
    brain.bookWeight legMetrics = 0 := by
  have hzero : ∀ sid m, legMetrics.get? sid = some m → brain.legWeight m = 0 := by
    intro sid m hm
    exact legWeight_of_disabled brain (by simpa using fun hon => h ⟨sid, m, hm, hon⟩)
  rw [PortfolioBrain.bookWeight, Dict.total_congr legMetrics hzero]
  simp [Dict.total]

/-- The clamp at zero changes no weight of a leg. -/
theorem positive_weights (legMetrics : Dict String LegMetrics) :
    ((brain.rawWeights legMetrics).mapValues fun _ v => max v 0) =
      legMetrics.mapValues fun _ m => brain.legWeight m := by
  rw [rawWeights_eq_legWeight, Dict.mapValues_mapValues]
  simp only [max_eq_left (legWeight_nonneg brain _)]

theorem allocateRiskBudgets_eq (legMetrics : Dict String LegMetrics) :
    (brain.allocateRiskBudgets legMetrics).1 = normalizeWeights (brain.rawWeights legMetrics) := by
  unfold PortfolioBrain.allocateRiskBudgets
  split
  · rename_i hempty
    obtain ⟨items, hnodup⟩ := legMetrics
    subst hempty
    rw [rawWeights_eq_legWeight]
    rfl
  · rfl

/-- With a leg enabled, the budgets are the weights over the weight of the book. -/
theorem allocateRiskBudgets_of_someEnabled (h : SomeEnabled legMetrics) :
    (brain.allocateRiskBudgets legMetrics).1 =
      legMetrics.mapValues fun _ m => brain.legWeight m / brain.bookWeight legMetrics := by
  have htotal : (legMetrics.mapValues fun _ m => brain.legWeight m).total (fun _ v => v) =
      brain.bookWeight legMetrics := by
    rw [Dict.total_mapValues, PortfolioBrain.bookWeight]
  rw [allocateRiskBudgets_eq, normalizeWeights]
  simp only [positive_weights, htotal]
  rw [if_neg (not_le.mpr (bookWeight_pos brain h)), Dict.mapValues_mapValues]

/-- With none enabled, every leg has the same budget, and none is without one. -/
theorem allocateRiskBudgets_of_disabled (h : ¬ SomeEnabled legMetrics)
    {sid : String} {m : LegMetrics} (hm : legMetrics.get? sid = some m) :
    ∃ b, (brain.allocateRiskBudgets legMetrics).1.get? sid = some b ∧ 0 < b := by
  have hmem := (Dict.get?_eq_some _).mp hm
  have hitems : (legMetrics.mapValues fun _ m => brain.legWeight m).items ≠ [] := by
    simpa using List.ne_nil_of_mem hmem
  have htotal : (legMetrics.mapValues fun _ m => brain.legWeight m).total (fun _ v => v) = 0 := by
    rw [Dict.total_mapValues]
    exact bookWeight_of_disabled brain h
  rw [allocateRiskBudgets_eq, normalizeWeights]
  simp only [positive_weights, htotal, le_refl, if_true, if_neg hitems]
  rw [Dict.get?_mapValues, Dict.get?_mapValues, hm]
  refine ⟨_, rfl, one_div_pos.mpr (Nat.cast_pos.mpr ?_)⟩
  exact List.length_pos_iff.mpr hitems

/-! ## A worse metric -/

/-- One metric of the leg gets worse, the others stay. -/
inductive LegMetrics.Worsened (m : LegMetrics) : LegMetrics → Prop
  | vol {v : ℚ} (h : m.realizedVol ≤ v) : Worsened m { m with realizedVol := v }
  | drawdown {d : ℚ} (h : m.drawdownContribution ≤ d) :
      Worsened m { m with drawdownContribution := d }
  | sharpe {s : ℚ} (h : s ≤ m.marginalSharpe) : Worsened m { m with marginalSharpe := s }

theorem LegMetrics.Worsened.enabled {m m' : LegMetrics} (h : m.Worsened m') :
    m'.enabled = m.enabled := by
  cases h <;> rfl

theorem rawWeight_of_enabled {m : LegMetrics} (hon : m.enabled = true) :
    m.rawWeight = 1 / max m.realizedVol volFloor *
      (1 - min (max m.drawdownContribution 0) (95 / 100)) *
      max m.marginalSharpe minMarginalSharpe := by
  simp [LegMetrics.rawWeight, hon]

theorem rawWeight_worsened {m m' : LegMetrics} (hon : m.enabled = true) (h : m.Worsened m') :
    m'.rawWeight ≤ m.rawWeight := by
  have hfloor : 0 < max m.realizedVol volFloor := lt_max_of_lt_right (by norm_num [volFloor])
  have hpenalty : 0 ≤ 1 - min (max m.drawdownContribution 0) (95 / 100) :=
    sub_nonneg.mpr ((min_le_right _ _).trans (by norm_num))
  have hboost : 0 ≤ max m.marginalSharpe minMarginalSharpe :=
    le_max_of_le_right (by norm_num [minMarginalSharpe])
  rw [rawWeight_of_enabled hon, rawWeight_of_enabled (h.enabled.trans hon)]
  cases h with
  | vol hv =>
    have hinv := one_div_le_one_div_of_le hfloor (max_le_max_right volFloor hv)
    exact mul_le_mul_of_nonneg_right (mul_le_mul_of_nonneg_right hinv hpenalty) hboost
  | drawdown hd =>
    have hmin := min_le_min_right (95 / 100) (max_le_max_right 0 hd)
    have hless := sub_le_sub_left hmin 1
    have hinv : 0 ≤ 1 / max m.realizedVol volFloor := (one_div_pos.mpr hfloor).le
    exact mul_le_mul_of_nonneg_right (mul_le_mul_of_nonneg_left hless hinv) hboost
  | sharpe hs =>
    have hinv : 0 ≤ 1 / max m.realizedVol volFloor := (one_div_pos.mpr hfloor).le
    have hmax := max_le_max_right minMarginalSharpe hs
    exact mul_le_mul_of_nonneg_left hmax (mul_nonneg hinv hpenalty)

theorem legWeight_worsened {m m' : LegMetrics} (hon : m.enabled = true) (h : m.Worsened m') :
    brain.legWeight m' ≤ brain.legWeight m := by
  unfold PortfolioBrain.legWeight
  split
  · simp [h.enabled, hon]
  · exact rawWeight_worsened hon h

/-- The leg's change of weight is the book's. -/
theorem bookWeight_set {sid : String} {m : LegMetrics} (h : legMetrics.get? sid = some m)
    (m' : LegMetrics) :
    brain.bookWeight (legMetrics.set sid m') + brain.legWeight m =
      brain.bookWeight legMetrics + brain.legWeight m' := by
  have hset := legMetrics.total_set (fun _ m => brain.legWeight m) sid m'
  rw [Dict.share, h] at hset
  exact hset

theorem someEnabled_set {sid : String} {m' : LegMetrics} (hon : m'.enabled = true) :
    SomeEnabled (legMetrics.set sid m') :=
  ⟨sid, m', by simp, hon⟩

/-- A weight that falls, over a whole that falls as much. -/
theorem share_le_share {w w' whole whole' : ℚ} (hw : w' ≤ w) (hle : w ≤ whole)
    (hwhole : 0 < whole) (hwhole' : 0 < whole') (hsum : whole' + w = whole + w') :
    w' / whole' ≤ w / whole := by
  rw [div_le_div_iff₀ hwhole' hwhole]
  have hrest : 0 ≤ (w - w') * (whole - w) :=
    mul_nonneg (sub_nonneg.mpr hw) (sub_nonneg.mpr hle)
  have hwhole'' : whole' = whole + w' - w := by linarith
  rw [hwhole'']
  linarith [mul_comm w whole, mul_comm w' whole, mul_comm w w']

theorem budget_worsened {sid : String} {m m' : LegMetrics}
    (hm : legMetrics.get? sid = some m) (hon : m.enabled = true) (h : m.Worsened m') {b b' : ℚ}
    (hb : (brain.allocateRiskBudgets legMetrics).1.get? sid = some b)
    (hb' : (brain.allocateRiskBudgets (legMetrics.set sid m')).1.get? sid = some b') :
    b' ≤ b := by
  have hsome : SomeEnabled legMetrics := ⟨sid, m, hm, hon⟩
  have hsome' : SomeEnabled (legMetrics.set sid m') := someEnabled_set (h.enabled.trans hon)
  rw [allocateRiskBudgets_of_someEnabled brain hsome, Dict.get?_mapValues, hm] at hb
  rw [allocateRiskBudgets_of_someEnabled brain hsome', Dict.get?_mapValues,
    Dict.get?_set_self] at hb'
  obtain rfl := Option.some.inj hb
  obtain rfl := Option.some.inj hb'
  exact share_le_share (legWeight_worsened brain hon h) (legWeight_le_bookWeight brain hm)
    (bookWeight_pos brain hsome) (bookWeight_pos brain hsome') (bookWeight_set brain hm m')

theorem budget_of_others_worsened {sid other : String} {m m' : LegMetrics} (hne : other ≠ sid)
    (hm : legMetrics.get? sid = some m) (hon : m.enabled = true) (h : m.Worsened m') {b b' : ℚ}
    (hb : (brain.allocateRiskBudgets legMetrics).1.get? other = some b)
    (hb' : (brain.allocateRiskBudgets (legMetrics.set sid m')).1.get? other = some b') :
    b ≤ b' := by
  have hsome : SomeEnabled legMetrics := ⟨sid, m, hm, hon⟩
  have hsome' : SomeEnabled (legMetrics.set sid m') := someEnabled_set (h.enabled.trans hon)
  rw [allocateRiskBudgets_of_someEnabled brain hsome, Dict.get?_mapValues,
    Option.map_eq_some_iff] at hb
  obtain ⟨o, ho, rfl⟩ := hb
  rw [allocateRiskBudgets_of_someEnabled brain hsome', Dict.get?_mapValues,
    Dict.get?_set_ne _ hne, ho] at hb'
  obtain rfl := Option.some.inj hb'
  refine div_le_div_of_nonneg_left (legWeight_nonneg brain o) (bookWeight_pos brain hsome') ?_
  linarith [bookWeight_set brain hm m', legWeight_worsened brain hon h]

/-! ## The budgets as a sub-probability on the enabled legs -/

structure SubProbability (legMetrics : Dict String LegMetrics) : Prop where
  disabled : ∀ sid m, legMetrics.get? sid = some m → m.enabled = false →
    (brain.allocateRiskBudgets legMetrics).1.get? sid = some 0
  nonneg : ∀ sid m, legMetrics.get? sid = some m →
    ∃ b, (brain.allocateRiskBudgets legMetrics).1.get? sid = some b ∧ 0 ≤ b
  total : SomeEnabled legMetrics →
    (brain.allocateRiskBudgets legMetrics).1.total (fun _ b => b) = 1
  monotone : ∀ sid m m', legMetrics.get? sid = some m → m.enabled = true → m.Worsened m' →
    (∀ b b', (brain.allocateRiskBudgets legMetrics).1.get? sid = some b →
      (brain.allocateRiskBudgets (legMetrics.set sid m')).1.get? sid = some b' → b' ≤ b) ∧
    ∀ other, other ≠ sid → ∀ b b',
      (brain.allocateRiskBudgets legMetrics).1.get? other = some b →
      (brain.allocateRiskBudgets (legMetrics.set sid m')).1.get? other = some b' → b ≤ b'

theorem subProbability_of_someEnabled (h : SomeEnabled legMetrics) :
    SubProbability brain legMetrics where
  disabled sid m hm hoff := by
    rw [allocateRiskBudgets_of_someEnabled brain h, Dict.get?_mapValues, hm]
    simp [legWeight_of_disabled brain hoff]
  nonneg sid m hm := by
    rw [allocateRiskBudgets_of_someEnabled brain h, Dict.get?_mapValues, hm]
    exact ⟨_, rfl, div_nonneg (legWeight_nonneg brain m) (bookWeight_pos brain h).le⟩
  total _ := by
    rw [allocateRiskBudgets_of_someEnabled brain h, Dict.total_mapValues]
    simp only [div_eq_inv_mul, Dict.total_mul_left]
    exact inv_mul_cancel₀ (bookWeight_pos brain h).ne'
  monotone sid m m' hm hon hw :=
    ⟨fun b b' hb hb' => budget_worsened brain hm hon hw hb hb',
      fun other hne b b' hb hb' => budget_of_others_worsened brain hne hm hon hw hb hb'⟩

/-- The budgets are a sub-probability on the enabled legs exactly when there is no leg at all
or some leg is enabled: with only disabled legs, each is handed a budget. -/
theorem subProbability_iff (legMetrics : Dict String LegMetrics) :
    SubProbability brain legMetrics ↔ legMetrics.items = [] ∨ SomeEnabled legMetrics := by
  constructor
  · intro h
    by_cases hsome : SomeEnabled legMetrics
    · exact Or.inr hsome
    refine Or.inl (List.eq_nil_iff_forall_not_mem.mpr fun p hp => ?_)
    have hm := (Dict.get?_eq_some _).mpr hp
    obtain ⟨b, hb, hpos⟩ := allocateRiskBudgets_of_disabled brain hsome hm
    have hoff : p.2.enabled = false := by simpa using fun hon => hsome ⟨p.1, p.2, hm, hon⟩
    rw [h.disabled p.1 p.2 hm hoff] at hb
    exact hpos.ne (Option.some.inj hb)
  · rintro (hempty | hsome)
    · have hnone : ∀ sid m, legMetrics.get? sid ≠ some m := by
        intro sid m hm
        simpa [hempty] using (Dict.get?_eq_some _).mp hm
      exact
        { disabled := fun sid m hm => absurd hm (hnone sid m)
          nonneg := fun sid m hm => absurd hm (hnone sid m)
          total := fun ⟨sid, m, hm, _⟩ => absurd hm (hnone sid m)
          monotone := fun sid m _ hm => absurd hm (hnone sid m) }
    · exact subProbability_of_someEnabled brain hsome

/-- A book of one disabled leg. -/
def disabledSpy : Dict String LegMetrics :=
  Dict.empty.set "mean_reversion_spy"
    { strategyId := "mean_reversion_spy", symbol := "SPY", realizedVol := 1 / 5,
      drawdownContribution := 0, marginalSharpe := 1, enabled := false }

/-- In either split mode the disabled leg is handed the whole book. -/
theorem not_subProbability_disabledSpy :
    (({} : PortfolioBrain).allocateRiskBudgets disabledSpy).1.get? "mean_reversion_spy" =
      some 1 ∧
    ¬ SubProbability {} disabledSpy ∧
    ¬ SubProbability { staticEqualSplit := true } disabledSpy := by
  refine ⟨by decide +kernel, fun h => ?_, fun h => ?_⟩
  · exact absurd (h.disabled "mean_reversion_spy" _ (Dict.get?_set_self _ _ _) rfl)
      (by decide +kernel)
  · exact absurd (h.disabled "mean_reversion_spy" _ (Dict.get?_set_self _ _ _) rfl)
      (by decide +kernel)

end TradingPlatform.Engine.Portfolio
