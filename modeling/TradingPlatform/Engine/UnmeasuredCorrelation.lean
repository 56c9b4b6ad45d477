import TradingPlatform.Engine.PortfolioRiskGovernor

/-! # Sizing on a correlation that was never measured

The governor pairs legs with `min_correlation_samples` closes and clamps the legs
with fewer. The correlation itself asks for a longer window, and for returns that
move; without them it is 0.0, which reads as a safe correlation. -/

namespace TradingPlatform.Engine.RiskGovernor

open TradingPlatform.Lib

/-- What is used of the numerics library, whose arithmetic is not modelled. -/
structure Numerics where
  log : ℚ → ℚ
  std : List ℚ → ℚ
  corrcoef : List ℚ → List ℚ → ℚ

def correlationLookback : Nat := 60

def stdFloor : ℚ := 1 / 1000000000000

def diff (xs : List ℚ) : List ℚ := (xs.zip xs.tail).map fun p => p.2 - p.1

/-- `arr[-n:]`, of a positive `n`. -/
def lastN (n : Nat) (xs : List ℚ) : List ℚ := xs.drop (xs.length - n)

section Correlation
variable (np : Numerics)

def logReturns (lookback : Nat) (closes : List ℚ) : List ℚ :=
  diff ((lastN (lookback + 1) closes).map np.log)

/-- The correlation, where it comes to be computed. -/
def measuredCorrelation (lookback : Nat) (closesA closesB : List ℚ) : Option ℚ :=
  if closesA.length < lookback + 1 ∨ closesB.length < lookback + 1 then none
  else
    let ra := logReturns np lookback closesA
    let rb := logReturns np lookback closesB
    let n := min ra.length rb.length
    if n < 5 then none
    else
      let ra := lastN n ra
      let rb := lastN n rb
      if np.std ra < stdFloor ∨ np.std rb < stdFloor then none
      else some (np.corrcoef ra rb)

/-- `compute_return_correlation`: 0.0 on each of its early returns. -/
def computeReturnCorrelation (closesA closesB : List ℚ) : ℚ :=
  (measuredCorrelation np correlationLookback closesA closesB).getD 0

/-- Both windows are as long as the correlation asks for, and both move. -/
def Measurable (closesA closesB : List ℚ) : Prop :=
  correlationLookback < closesA.length ∧ correlationLookback < closesB.length ∧
    stdFloor ≤ np.std (logReturns np correlationLookback closesA) ∧
    stdFloor ≤ np.std (logReturns np correlationLookback closesB)

theorem length_diff (xs : List ℚ) : (diff xs).length = xs.length - 1 := by
  simp [diff]

theorem length_logReturns {lookback : Nat} {closes : List ℚ} (h : lookback + 1 ≤ closes.length) :
    (logReturns np lookback closes).length = lookback := by
  simp only [logReturns, length_diff, List.length_map, lastN, List.length_drop]
  omega

theorem lastN_length (xs : List ℚ) : lastN xs.length xs = xs := by
  simp [lastN]

/-- On two long windows only the spread of the returns is still asked for. -/
theorem measuredCorrelation_of_long {closesA closesB : List ℚ}
    (ha : correlationLookback < closesA.length) (hb : correlationLookback < closesB.length) :
    measuredCorrelation np correlationLookback closesA closesB =
      let ra := logReturns np correlationLookback closesA
      let rb := logReturns np correlationLookback closesB
      if np.std ra < stdFloor ∨ np.std rb < stdFloor then none else some (np.corrcoef ra rb) := by
  have hra : (logReturns np correlationLookback closesA).length = correlationLookback :=
    length_logReturns np ha
  have hrb : (logReturns np correlationLookback closesB).length = correlationLookback :=
    length_logReturns np hb
  have hlong : ¬(closesA.length < correlationLookback + 1 ∨
      closesB.length < correlationLookback + 1) := by omega
  have hn : min (logReturns np correlationLookback closesA).length
      (logReturns np correlationLookback closesB).length = correlationLookback := by
    rw [hra, hrb, min_self]
  have hlastA := lastN_length (logReturns np correlationLookback closesA)
  have hlastB := lastN_length (logReturns np correlationLookback closesB)
  rw [hra] at hlastA
  rw [hrb] at hlastB
  rw [measuredCorrelation, if_neg hlong]
  simp only [hn, hlastA, hlastB]
  exact if_neg (by decide)

/-- The correlation is computed exactly on measurable windows. -/
theorem measuredCorrelation_isSome {closesA closesB : List ℚ} :
    (measuredCorrelation np correlationLookback closesA closesB).isSome = true ↔
      Measurable np closesA closesB := by
  by_cases hlong : correlationLookback < closesA.length ∧ correlationLookback < closesB.length
  · rw [measuredCorrelation_of_long np hlong.1 hlong.2]
    simp only [Measurable, hlong.1, hlong.2, true_and, ← not_lt, ← not_or]
    split
    · rename_i hflat
      simp [hflat]
    · rename_i hmoves
      simp [hmoves]
  · have hshort : closesA.length < correlationLookback + 1 ∨
        closesB.length < correlationLookback + 1 := by omega
    rw [measuredCorrelation, if_pos hshort]
    simp only [Option.isSome_none, Bool.false_eq_true, false_iff]
    exact fun h => hlong ⟨h.1, h.2.1⟩

end Correlation

/-! ## The pairs -/

/-- Two legs of a list, one after the other. -/
def Paired (ids : List String) (a b : String) : Prop :=
  [a, b].Sublist ids ∨ [b, a].Sublist ids

theorem paired_cons {id a b : String} {ids : List String} :
    Paired (id :: ids) a b ↔ Paired ids a b ∨ (a = id ∧ b ∈ ids) ∨ (b = id ∧ a ∈ ids) := by
  have hcons : ∀ x y, [x, y].Sublist (id :: ids) ↔ [x, y].Sublist ids ∨ (x = id ∧ y ∈ ids) := by
    intro x y
    rw [List.sublist_cons_iff]
    constructor
    · rintro (h | ⟨r, heq, h⟩)
      · exact Or.inl h
      · obtain ⟨rfl, rfl⟩ := List.cons.inj heq
        exact Or.inr ⟨rfl, List.singleton_sublist.mp h⟩
    · rintro (h | ⟨rfl, h⟩)
      · exact Or.inl h
      · exact Or.inr ⟨[y], rfl, List.singleton_sublist.mpr h⟩
  rw [Paired, Paired, hcons, hcons]
  tauto

theorem paired_of_mem {ids : List String} {a b : String} (ha : a ∈ ids) (hb : b ∈ ids)
    (hne : a ≠ b) : Paired ids a b := by
  induction ids with
  | nil => cases ha
  | cons id ids ih =>
    rw [paired_cons]
    rcases List.mem_cons.mp ha with hleft | ha'
    · exact Or.inr (Or.inl ⟨hleft, (List.mem_cons.mp hb).resolve_left fun h =>
        hne (hleft.trans h.symm)⟩)
    · rcases List.mem_cons.mp hb with hright | hb'
      · exact Or.inr (Or.inr ⟨hright, ha'⟩)
      · exact Or.inl (ih ha' hb')

section Pairs
variable {corr : List ℚ → List ℚ → ℚ} (limits : Limits) (call : EvaluateCall)

/-- A leg with as many closes as the governor asks for. -/
def Warm (strategyId : String) : Prop :=
  limits.minCorrelationSamples ≤ (call.closes strategyId).length

/-- The dictionary holds the correlation of the pairs in `P`, and no other. -/
def HoldsPairs (corr : List ℚ → List ℚ → ℚ) (call : EvaluateCall)
    (pairs : Dict (String × String) ℚ) (P : String → String → Prop) : Prop :=
  ∀ a b v, pairs.get? (a, b) = some v ↔ P a b ∧ v = corr (call.closes a) (call.closes b)

variable {call} in
theorem HoldsPairs.congr {pairs : Dict (String × String) ℚ} {P Q : String → String → Prop}
    (h : HoldsPairs corr call pairs P) (hpq : ∀ a b, P a b ↔ Q a b) :
    HoldsPairs corr call pairs Q := by
  intro a b v
  rw [h a b v, hpq]

variable (hsymm : ∀ xs ys, corr xs ys = corr ys xs)
include hsymm

/-- A pair is set both ways round. -/
theorem HoldsPairs.set {pairs : Dict (String × String) ℚ} {P : String → String → Prop}
    (h : HoldsPairs corr call pairs P) (l r : String) :
    HoldsPairs corr call
      ((pairs.set (l, r) (corr (call.closes l) (call.closes r))).set (r, l)
        (corr (call.closes l) (call.closes r)))
      fun a b => P a b ∨ (a = l ∧ b = r) ∨ (a = r ∧ b = l) := by
  intro a b v
  rw [Dict.get?_set, Dict.get?_set]
  by_cases hback : (a, b) = (r, l)
  · obtain ⟨rfl, rfl⟩ := Prod.mk.inj hback
    rw [if_pos rfl, Option.some.injEq, hsymm]
    simp [eq_comm]
  rw [if_neg hback]
  by_cases hforth : (a, b) = (l, r)
  · obtain ⟨rfl, rfl⟩ := Prod.mk.inj hforth
    rw [if_pos rfl, Option.some.injEq]
    simp [eq_comm]
  · rw [if_neg hforth, h a b v]
    simp only [Prod.mk.injEq] at hback hforth
    simp [hback, hforth]

theorem HoldsPairs.pairLegs (left : StrategyConfig) (rest : List StrategyConfig)
    {pairs : Dict (String × String) ℚ} {P : String → String → Prop}
    (h : HoldsPairs corr call pairs P) :
    HoldsPairs corr call (pairLegs corr limits call left rest pairs) fun a b =>
      P a b ∨ ∃ right ∈ rest.map (·.strategyId), Warm limits call right ∧
        ((a = left.strategyId ∧ b = right) ∨ (a = right ∧ b = left.strategyId)) := by
  unfold RiskGovernor.pairLegs
  induction rest generalizing pairs P with
  | nil => simpa using h
  | cons right rest ih =>
    rw [List.foldl_cons]
    by_cases hcold : (call.closes right.strategyId).length < limits.minCorrelationSamples
    · rw [if_pos hcold]
      refine (ih h).congr fun a b => ?_
      simp [Warm, not_le.mpr hcold]
    · rw [if_neg hcold]
      refine (ih (h.set call hsymm left.strategyId right.strategyId)).congr fun a b => ?_
      have hwarm : Warm limits call right.strategyId := not_lt.mp hcold
      simp only [List.map_cons, List.mem_cons, exists_eq_or_imp, hwarm, true_and]
      exact or_assoc

/-- The loop pairs the warm legs of its list. -/
theorem HoldsPairs.correlationLoop (ordered : List StrategyConfig)
    {pairs : Dict (String × String) ℚ} {P : String → String → Prop}
    (h : HoldsPairs corr call pairs P) :
    HoldsPairs corr call (correlationLoop corr limits call ordered pairs) fun a b =>
      P a b ∨ (Warm limits call a ∧ Warm limits call b ∧
        Paired (ordered.map (·.strategyId)) a b) := by
  induction ordered generalizing pairs P with
  | nil => simpa [Paired, RiskGovernor.correlationLoop] using h
  | cons left rest ih =>
    rw [RiskGovernor.correlationLoop]
    by_cases hcold : (call.closes left.strategyId).length < limits.minCorrelationSamples
    · have hnot : ¬ Warm limits call left.strategyId := not_le.mpr hcold
      rw [if_pos hcold]
      refine (ih h).congr fun a b => ?_
      rw [List.map_cons, paired_cons]
      constructor
      · tauto
      · rintro (hp | ⟨ha, hb, hpaired | ⟨rfl, -⟩ | ⟨rfl, -⟩⟩)
        · exact Or.inl hp
        · exact Or.inr ⟨ha, hb, hpaired⟩
        · exact absurd ha hnot
        · exact absurd hb hnot
    · have hwarm : Warm limits call left.strategyId := not_lt.mp hcold
      rw [if_neg hcold]
      refine (ih (h.pairLegs limits call hsymm left rest)).congr fun a b => ?_
      rw [List.map_cons, paired_cons]
      constructor
      · rintro ((hp | ⟨right, hright, hw, ⟨rfl, rfl⟩ | ⟨rfl, rfl⟩⟩) | ⟨ha, hb, hpaired⟩)
        · exact Or.inl hp
        · exact Or.inr ⟨hwarm, hw, Or.inr (Or.inl ⟨rfl, hright⟩)⟩
        · exact Or.inr ⟨hw, hwarm, Or.inr (Or.inr ⟨rfl, hright⟩)⟩
        · exact Or.inr ⟨ha, hb, Or.inl hpaired⟩
      · rintro (hp | ⟨ha, hb, hpaired | ⟨rfl, hright⟩ | ⟨rfl, hright⟩⟩)
        · exact Or.inl (Or.inl hp)
        · exact Or.inr ⟨ha, hb, hpaired⟩
        · exact Or.inl (Or.inr ⟨b, hright, hb, Or.inl ⟨rfl, rfl⟩⟩)
        · exact Or.inl (Or.inr ⟨a, hright, ha, Or.inr ⟨rfl, rfl⟩⟩)

/-- The ids of the legs that are enabled, in order. -/
def EvaluateCall.enabledIds (call : EvaluateCall) : List String :=
  (call.enabledConfigs.filter (·.enabled)).map (·.strategyId)

theorem holdsPairs_computeCorrelationPairs :
    HoldsPairs corr call (computeCorrelationPairs corr limits call) fun a b =>
      Warm limits call a ∧ Warm limits call b ∧ Paired call.enabledIds a b := by
  have hempty : HoldsPairs corr call Dict.empty fun _ _ => False := by
    intro a b v
    simp
  refine (hempty.correlationLoop limits call hsymm _).congr fun a b => ?_
  rw [false_or, EvaluateCall.enabledIds]

end Pairs

/-! ## The multipliers -/

/-- `sizing_multipliers.get(strategy_id, 1.0)`. -/
def multiplierOf (multipliers : Dict String ℚ) (strategyId : String) : ℚ :=
  (multipliers.get? strategyId).getD 1

theorem multiplierOf_clampTo (cap : ℚ) (multipliers : Dict String ℚ) (a b : String) :
    multiplierOf (clampTo cap multipliers a) b =
      if b = a then min (multiplierOf multipliers b) cap else multiplierOf multipliers b := by
  unfold multiplierOf clampTo
  rw [Dict.get?_set]
  split
  · rename_i h
    rw [h, Option.getD_some]
  · rfl

/-- Clamping is done once, however often a leg is named. -/
theorem multiplierOf_foldl_clampTo (cap : ℚ) (ids : List String) (multipliers : Dict String ℚ)
    (a : String) :
    multiplierOf (ids.foldl (clampTo cap) multipliers) a =
      if a ∈ ids then min (multiplierOf multipliers a) cap else multiplierOf multipliers a := by
  induction ids generalizing multipliers with
  | nil => simp
  | cons id ids ih =>
    rw [List.foldl_cons, ih, multiplierOf_clampTo]
    by_cases hid : a = id
    · by_cases hmem : a ∈ ids <;> simp [hid]
    · simp [hid]

section Multipliers
variable {corr : List ℚ → List ℚ → ℚ} (limits : Limits) (call : EvaluateCall)

/-- The legs the correlation clamp names, in the order of the pairs. -/
def pairClamped (pairs : Dict (String × String) ℚ) : List String :=
  pairs.items.flatMap fun pair =>
    if |pair.2| < limits.maxSafeCorrelation then [] else [pair.1.1, pair.1.2]

theorem sizingMultipliers_eq :
    sizingMultipliers corr limits call =
      ((call.enabledConfigs.filter (coldStart limits call)).map (·.strategyId)).foldl
        (clampTo correlationClampMultiplier)
        ((pairClamped limits (computeCorrelationPairs corr limits call)).foldl
          (clampTo limits.clampMultiplier)
          (.tabulate (·.strategyId) (fun _ => 1) (call.enabledConfigs.filter (·.enabled)))) := by
  rw [List.foldl_map, pairClamped, List.foldl_flatMap, sizingMultipliers]
  congr 2
  funext multipliers pair
  by_cases hsafe : |pair.2| < limits.maxSafeCorrelation
  · simp [hsafe]
  · simp [hsafe]

theorem multiplierOf_base (configs : List StrategyConfig) (a : String) :
    multiplierOf (.tabulate (·.strategyId) (fun _ => 1) configs) a = 1 := by
  unfold multiplierOf
  cases hget : (Dict.tabulate (·.strategyId) (fun _ => (1 : ℚ)) configs).get? a with
  | none => rfl
  | some v =>
    obtain ⟨-, -, -, hval⟩ := Dict.mem_of_tabulate StrategyConfig.strategyId hget
    rw [Option.getD_some, ← hval]

/-- Two legs of the call are paired at an unsafe correlation. -/
def UnsafelyPaired (corr : List ℚ → List ℚ → ℚ) (a : String) : Prop :=
  ∃ b, Warm limits call a ∧ Warm limits call b ∧ Paired call.enabledIds a b ∧
    limits.maxSafeCorrelation ≤ |corr (call.closes a) (call.closes b)|

/-- A leg is clamped for want of bars. -/
def ColdStarted (a : String) : Prop := a ∈ call.enabledIds ∧ ¬ Warm limits call a

theorem mem_coldStart (a : String) :
    a ∈ (call.enabledConfigs.filter (coldStart limits call)).map (·.strategyId) ↔
      ColdStarted limits call a := by
  simp only [ColdStarted, EvaluateCall.enabledIds, Warm, List.mem_map, List.mem_filter, coldStart,
    Bool.and_eq_true, decide_eq_true_eq, not_le]
  constructor
  · rintro ⟨cfg, ⟨hmem, hon, hcold⟩, rfl⟩
    exact ⟨⟨cfg, ⟨hmem, hon⟩, rfl⟩, hcold⟩
  · rintro ⟨⟨cfg, ⟨hmem, hon⟩, rfl⟩, hcold⟩
    exact ⟨cfg, ⟨hmem, hon, hcold⟩, rfl⟩

theorem mem_pairClamped (hsymm : ∀ xs ys, corr xs ys = corr ys xs) (a : String) :
    a ∈ pairClamped limits (computeCorrelationPairs corr limits call) ↔
      UnsafelyPaired limits call corr a := by
  have hpairs := holdsPairs_computeCorrelationPairs limits call hsymm
  simp only [pairClamped, List.mem_flatMap, Prod.exists]
  constructor
  · rintro ⟨l, r, v, hmem, ha⟩
    split at ha
    · cases ha
    rename_i hunsafe
    obtain ⟨⟨hl, hr, hpaired⟩, rfl⟩ := (hpairs l r v).mp ((Dict.get?_eq_some _).mpr hmem)
    rcases List.mem_pair.mp ha with rfl | rfl
    · exact ⟨r, hl, hr, hpaired, not_lt.mp hunsafe⟩
    · exact ⟨l, hr, hl, hpaired.symm, hsymm _ _ ▸ not_lt.mp hunsafe⟩
  · rintro ⟨b, ha, hb, hpaired, hunsafe⟩
    refine ⟨a, b, _, (Dict.get?_eq_some _).mp ((hpairs a b _).mpr ⟨⟨ha, hb, hpaired⟩, rfl⟩), ?_⟩
    rw [if_neg (not_lt.mpr hunsafe)]
    exact List.mem_cons_self

theorem multiplierOf_sizingMultipliers_le (hsymm : ∀ xs ys, corr xs ys = corr ys xs) (a : String) :
    multiplierOf (sizingMultipliers corr limits call) a ≤ limits.clampMultiplier ↔
      1 ≤ limits.clampMultiplier ∨ UnsafelyPaired limits call corr a ∨
        (ColdStarted limits call a ∧ correlationClampMultiplier ≤ limits.clampMultiplier) := by
  rw [sizingMultipliers_eq, multiplierOf_foldl_clampTo, multiplierOf_foldl_clampTo,
    multiplierOf_base, ← mem_coldStart, ← mem_pairClamped limits call hsymm]
  split
  · rename_i hcold
    rw [min_le_iff, and_iff_right hcold]
    split
    · rename_i hpair
      simp [hpair]
    · rename_i hpair
      simp [hpair]
  · rename_i hcold
    split
    · rename_i hpair
      simp [hpair]
    · rename_i hpair
      simp [hpair, hcold]

end Multipliers

/-! ## Legs at full size -/

section FullSize
variable (np : Numerics) (upper : String → String) (limits : Limits) (call : EvaluateCall)
  (g : PortfolioRiskGovernor)

/-- The verdict's correlation of two legs was computed, from both windows, and is safe. -/
def SafelyMeasured (pairs : Dict (String × String) ℚ) (a b : String) : Prop :=
  ∃ corr, pairs.get? (a, b) = some corr ∧ |corr| < limits.maxSafeCorrelation ∧
    measuredCorrelation np correlationLookback (call.closes a) (call.closes b) = some corr

/-- Every enabled leg is clamped, or measured against every other enabled leg. -/
def FullSizeMeasured : Prop :=
  let verdict := (evaluate upper (computeReturnCorrelation np) limits call g).1
  ∀ a ∈ call.enabledIds,
    multiplierOf verdict.sizingMultipliers a ≤ limits.clampMultiplier ∨
      ∀ b ∈ call.enabledIds, b ≠ a → SafelyMeasured np limits call verdict.correlationPairs a b

/-- What the leg itself meets: a clamp that is no clamp, an unsafe pair, a cold start,
or windows long enough and moving beside every other leg's. -/
def LegCovered (a : String) : Prop :=
  1 ≤ limits.clampMultiplier ∨
    UnsafelyPaired limits call (computeReturnCorrelation np) a ∨
    (ColdStarted limits call a ∧ correlationClampMultiplier ≤ limits.clampMultiplier) ∨
    ∀ b ∈ call.enabledIds, b ≠ a →
      Warm limits call a ∧ Warm limits call b ∧ Measurable np (call.closes a) (call.closes b)

variable {np}

theorem Measurable.symm {xs ys : List ℚ} (h : Measurable np xs ys) : Measurable np ys xs :=
  ⟨h.2.1, h.1, h.2.2.2, h.2.2.1⟩

theorem measuredCorrelation_of_measurable {xs ys : List ℚ} (h : Measurable np xs ys) :
    measuredCorrelation np correlationLookback xs ys =
      some (np.corrcoef (logReturns np correlationLookback xs)
        (logReturns np correlationLookback ys)) := by
  rw [measuredCorrelation_of_long np h.1 h.2.1]
  exact if_neg (not_or.mpr ⟨not_lt.mpr h.2.2.1, not_lt.mpr h.2.2.2⟩)

theorem measuredCorrelation_of_not {xs ys : List ℚ} (h : ¬ Measurable np xs ys) :
    measuredCorrelation np correlationLookback xs ys = none := by
  rwa [← Option.not_isSome_iff_eq_none, measuredCorrelation_isSome]

theorem computeReturnCorrelation_symm (hsymm : ∀ xs ys, np.corrcoef xs ys = np.corrcoef ys xs)
    (xs ys : List ℚ) : computeReturnCorrelation np xs ys = computeReturnCorrelation np ys xs := by
  unfold computeReturnCorrelation
  by_cases h : Measurable np xs ys
  · rw [measuredCorrelation_of_measurable h, measuredCorrelation_of_measurable h.symm, hsymm]
  · rw [measuredCorrelation_of_not h, measuredCorrelation_of_not fun hback => h hback.symm]

/-- Beside a leg it is not unsafely paired with, a leg is safely measured just when both
windows are warm and measurable. -/
theorem safelyMeasured_iff (hsymm : ∀ xs ys, np.corrcoef xs ys = np.corrcoef ys xs) {a b : String}
    (ha : a ∈ call.enabledIds) (hb : b ∈ call.enabledIds) (hne : b ≠ a)
    (hsafe : ¬ UnsafelyPaired limits call (computeReturnCorrelation np) a) :
    SafelyMeasured np limits call
        (computeCorrelationPairs (computeReturnCorrelation np) limits call) a b ↔
      Warm limits call a ∧ Warm limits call b ∧ Measurable np (call.closes a) (call.closes b) := by
  have hpairs :=
    holdsPairs_computeCorrelationPairs limits call (computeReturnCorrelation_symm hsymm)
  have hpaired : Paired call.enabledIds a b := paired_of_mem ha hb hne.symm
  constructor
  · rintro ⟨corr, hget, -, hmeasured⟩
    obtain ⟨⟨hwarm, hwarm', -⟩, -⟩ := (hpairs a b corr).mp hget
    exact ⟨hwarm, hwarm', (measuredCorrelation_isSome np).mp (hmeasured ▸ rfl)⟩
  · rintro ⟨hwarm, hwarm', hmeasurable⟩
    have hmeasured := measuredCorrelation_of_measurable hmeasurable
    have hcorr : computeReturnCorrelation np (call.closes a) (call.closes b) =
        np.corrcoef (logReturns np correlationLookback (call.closes a))
          (logReturns np correlationLookback (call.closes b)) := by
      rw [computeReturnCorrelation, hmeasured, Option.getD_some]
    refine ⟨_, (hpairs a b _).mpr ⟨⟨hwarm, hwarm', hpaired⟩, rfl⟩, ?_, hcorr ▸ hmeasured⟩
    rw [← not_le]
    exact fun hunsafe => hsafe ⟨b, hwarm, hwarm', hpaired, hunsafe⟩

/-- No leg stands at full size on an unmeasured correlation just when every enabled leg
is covered. -/
theorem fullSizeMeasured_iff (hsymm : ∀ xs ys, np.corrcoef xs ys = np.corrcoef ys xs) :
    FullSizeMeasured np upper limits call g ↔
      ∀ a ∈ call.enabledIds, LegCovered np limits call a := by
  have hclamped :=
    multiplierOf_sizingMultipliers_le limits call (computeReturnCorrelation_symm hsymm)
  refine forall₂_congr fun a ha => ?_
  unfold LegCovered
  by_cases hunsafe : UnsafelyPaired limits call (computeReturnCorrelation np) a
  · have hclamp := (hclamped a).mpr (Or.inr (Or.inl hunsafe))
    exact iff_of_true (Or.inl hclamp) (Or.inr (Or.inl hunsafe))
  · have hothers : (∀ b ∈ call.enabledIds, b ≠ a → SafelyMeasured np limits call
          (computeCorrelationPairs (computeReturnCorrelation np) limits call) a b) ↔
        ∀ b ∈ call.enabledIds, b ≠ a → Warm limits call a ∧ Warm limits call b ∧
          Measurable np (call.closes a) (call.closes b) :=
      forall₃_congr fun b hb hne => safelyMeasured_iff limits call hsymm ha hb hne hunsafe
    rw [← hothers, ← or_assoc, ← or_assoc, or_assoc (a := 1 ≤ limits.clampMultiplier), ← hclamped]
    rfl

end FullSize

/-- Two legs on one rising price: their true correlation is 1. -/
def risingBook (bars : Nat) : EvaluateCall where
  enabledConfigs :=
    [{ strategyId := "mean_reversion_qqq", symbol := "QQQ" },
      { strategyId := "mean_reversion_tqqq", symbol := "TQQQ" }]
  windows :=
    (Dict.empty.set "mean_reversion_qqq" ((List.range bars).map fun i => (100 + i : ℚ))).set
      "mean_reversion_tqqq" ((List.range bars).map fun i => (100 + i : ℚ))
  brokerEquity := 100000

/-- Two equal windows, as the library sees them; shorter ones never reach it. -/
def equalWindows : Numerics where
  log x := x
  std _ := 1
  corrcoef _ _ := 1

/-- With ten bars both legs are clamped for the cold start. -/
theorem fullSizeMeasured_ten_bars : FullSizeMeasured equalWindows id {} (risingBook 10) {} := by
  refine (fullSizeMeasured_iff id {} (risingBook 10) {} fun _ _ => rfl).mpr fun a ha => ?_
  have hids : (risingBook 10).enabledIds = ["mean_reversion_qqq", "mean_reversion_tqqq"] := by
    decide
  have hcold : ¬ Warm {} (risingBook 10) a := by
    rw [hids] at ha
    rcases List.mem_pair.mp ha with rfl | rfl
    · simp [Warm, risingBook, EvaluateCall.closes, Dict.get?_set]
    · simp [Warm, risingBook, EvaluateCall.closes]
  exact Or.inr (Or.inr (Or.inl ⟨⟨ha, hcold⟩, le_rfl⟩))

/-- With thirty bars neither is: their correlation reads 0.0, and both trade at full size. -/
theorem not_fullSizeMeasured_thirty_bars :
    ¬ FullSizeMeasured equalWindows id {} (risingBook 30) {} := by
  intro h
  rcases h "mean_reversion_qqq" (by decide) with hclamped | hmeasured
  · exact absurd hclamped (by decide +kernel)
  · obtain ⟨corr, -, -, hcorr⟩ := hmeasured "mean_reversion_tqqq" (by decide) (by decide)
    have hnone : measuredCorrelation equalWindows correlationLookback
        ((risingBook 30).closes "mean_reversion_qqq")
        ((risingBook 30).closes "mean_reversion_tqqq") = none := by
      decide +kernel
    rw [hnone] at hcorr
    cases hcorr

end TradingPlatform.Engine.RiskGovernor
