import TradingPlatform.Portfolio.ClusterBrain
import Mathlib.Algebra.Order.BigOperators.Group.List

/-! # The books the allocator is defined on

The cluster volatility has a floor of `1e-9`; a leg's has only its registered
volatility, which may be zero. The common window of a cluster is the shortest
history, taken by a slice that keeps everything when that history is empty. -/

namespace TradingPlatform.Portfolio

open TradingPlatform.Lib

section Domain
variable (std : List ℚ → ℚ) (cfg : PortfolioConfig) (legs : List LegInput)

/-- What `allocate` divides by on the way to its weights. -/
def divisors : List ℚ :=
  let vols := volsOf std cfg legs
  let clusterLegs := Dict.groupBy LegInput.cluster legs
  let clusters := clusterLegs.items.map Prod.snd
  -- each leg's volatility, each cluster's, and the three sums of inverses
  legs.map (fun leg => (vols.get? leg.legId).getD 0) ++
    clusters.map (clusterVolOf std vols) ++
    clusters.map (fun members => (members.map (inverseVol vols)).sum) ++
    [(clusterLegs.mapValues fun _ members =>
      1 / clusterVolOf std vols members).total fun _ v => v] ++
    clusters.map fun members =>
      (Dict.tabulate LegInput.legId (inverseVol vols) members).total fun _ v => v

/-- Rows of one length. -/
def Stackable (rows : List (List ℚ)) : Prop := ∃ n, ∀ row ∈ rows, row.length = n

/-- The allocator reaches its weights, and they are shares. -/
structure DefinedOn (stepCap : Bool) : Prop where
  divides : ∀ d ∈ divisors std cfg legs, d ≠ 0
  stack : ∀ g ∈ (Dict.groupBy LegInput.cluster legs).items, Stackable (stackedReturns g.2)
  shares : ∃ r, allocate std cfg legs stepCap = some r ∧
    (∀ leg w, r.weights.get? leg = some w → 0 ≤ w ∧ w ≤ 1) ∧ 0 ≤ r.cashShare ∧ r.cashShare ≤ 1

/-- The weeks a leg was exposed, of its window. -/
def exposedWeeks (returns : List ℚ) : List ℚ :=
  (lastN cfg.clusterVolWindowWeeks returns).filter (0 < |·|)

/-- A leg with a registered volatility, or with exposed weeks that vary. -/
def Moves (leg : LegInput) : Prop :=
  0 < cfg.volFloorFactor * |leg.oosVol| ∨
    (1 < (exposedWeeks cfg leg.returns).length ∧ 0 < std (exposedWeeks cfg leg.returns))

/-- The leg an id stands for: the last of that id. -/
def legOf (legId : String) : Option LegInput := (Dict.keyBy LegInput.legId legs).get? legId

/-- What the book must be. -/
structure Fit (stepCap : Bool) : Prop where
  moves : ∀ legId leg, legOf legs legId = some leg → Moves std cfg leg
  histories : ∀ a ∈ legs, ∀ b ∈ legs, a.cluster = b.cluster → (a.returns = [] ↔ b.returns = [])
  priors : stepCap = true →
    ∀ legId leg, legOf legs legId = some leg → leg.priorWeight ≤ 1 + cfg.maxStep

end Domain

/-! ## Volatilities -/

section Vols
variable {std : List ℚ → ℚ} {cfg : PortfolioConfig} {legs : List LegInput}

theorem get?_volsOf (legId : String) :
    (volsOf std cfg legs).get? legId =
      (legOf legs legId).map fun leg => causalVol std cfg leg.returns leg.oosVol :=
  Dict.get?_tabulate ..

theorem exists_legOf {leg : LegInput} (hleg : leg ∈ legs) :
    ∃ last, legOf legs leg.legId = some last := by
  cases hlast : legOf legs leg.legId with
  | some last => exact ⟨last, rfl⟩
  | none => exact absurd rfl ((Dict.keyBy_eq_none LegInput.legId).mp hlast leg hleg)

theorem causalVol_nonneg (hstd : ∀ xs, 0 ≤ std xs) (returns : List ℚ) (oosVol : ℚ) :
    0 ≤ causalVol std cfg returns oosVol := by
  unfold causalVol
  refine le_max_of_le_left ?_
  split
  · exact hstd _
  · exact le_rfl

theorem causalVol_pos_iff (leg : LegInput) :
    0 < causalVol std cfg leg.returns leg.oosVol ↔ Moves std cfg leg := by
  unfold causalVol Moves exposedWeeks
  rw [lt_max_iff, or_comm]
  refine or_congr_right ?_
  split
  · rename_i hlong
    rw [and_iff_right hlong]
  · rename_i hshort
    exact iff_of_false (lt_irrefl 0) fun h => hshort h.1

theorem volsOf_nonneg_of_std (hstd : ∀ xs, 0 ≤ std xs) : Nonneg (volsOf std cfg legs) := by
  intro legId v hv
  obtain ⟨leg, -, -, rfl⟩ := Dict.mem_of_tabulate LegInput.legId hv
  exact causalVol_nonneg hstd _ _

/-- Every volatility of the book is positive. -/
def VolsPositive (std : List ℚ → ℚ) (cfg : PortfolioConfig) (legs : List LegInput) : Prop :=
  ∀ legId v, (volsOf std cfg legs).get? legId = some v → 0 < v

theorem volsPositive_iff :
    VolsPositive std cfg legs ↔ ∀ legId leg, legOf legs legId = some leg → Moves std cfg leg := by
  unfold VolsPositive
  simp only [get?_volsOf, Option.map_eq_some_iff]
  constructor
  · intro h legId leg hleg
    exact (causalVol_pos_iff leg).mp (h legId _ ⟨leg, hleg, rfl⟩)
  · rintro h legId _ ⟨leg, hleg, rfl⟩
    exact (causalVol_pos_iff leg).mpr (h legId leg hleg)

theorem VolsPositive.getD (h : VolsPositive std cfg legs) {leg : LegInput} (hleg : leg ∈ legs) :
    0 < ((volsOf std cfg legs).get? leg.legId).getD 0 := by
  obtain ⟨last, hlast⟩ := exists_legOf hleg
  have hget : (volsOf std cfg legs).get? leg.legId =
      some (causalVol std cfg last.returns last.oosVol) := by
    rw [get?_volsOf, hlast, Option.map_some]
  rw [hget, Option.getD_some]
  exact h _ _ hget

end Vols

/-! ## Divisions and stacks -/

section Reaches
variable {std : List ℚ → ℚ} {cfg : PortfolioConfig} {legs : List LegInput}

theorem mem_cluster {cl : String} {members : List LegInput}
    (h : (cl, members) ∈ (Dict.groupBy LegInput.cluster legs).items) :
    members ≠ [] ∧ ∀ leg, leg ∈ members ↔ leg ∈ legs ∧ leg.cluster = cl := by
  obtain ⟨rfl, hne⟩ := Dict.mem_groupBy LegInput.cluster h
  exact ⟨hne, fun leg => by simp⟩

theorem exists_cluster {leg : LegInput} (hleg : leg ∈ legs) :
    ∃ members, (Dict.groupBy LegInput.cluster legs).get? leg.cluster = some members ∧
      leg ∈ members := by
  have hmem : leg ∈ legs.filter (·.cluster = leg.cluster) := by simpa using hleg
  refine ⟨_, ?_, hmem⟩
  rw [Dict.get?_groupBy, if_neg (List.ne_nil_of_mem hmem)]

/-- Once no volatility is zero, nothing divided by is. -/
theorem divisors_pos (h : VolsPositive std cfg legs) (hne : legs ≠ []) :
    ∀ d ∈ divisors std cfg legs, 0 < d := by
  have hinverse : ∀ leg ∈ legs, 0 < inverseVol (volsOf std cfg legs) leg := fun leg hleg =>
    one_div_pos.mpr (h.getD hleg)
  intro d hd
  simp only [divisors, List.mem_append, List.mem_map, List.mem_singleton] at hd
  rcases hd with (((⟨leg, hleg, rfl⟩ | ⟨members, -, rfl⟩) | ⟨_, ⟨⟨cl, members⟩, hmem, rfl⟩, rfl⟩) |
    rfl) | ⟨_, ⟨⟨cl, members⟩, hmem, rfl⟩, rfl⟩
  · exact h.getD hleg
  · exact clusterVolOf_pos _ members
  · obtain ⟨hsome, hmembers⟩ := mem_cluster hmem
    refine List.sum_pos _ (fun v hv => ?_) (List.map_eq_nil_iff.not.mpr hsome)
    obtain ⟨leg, hleg, rfl⟩ := List.mem_map.mp hv
    exact hinverse leg ((hmembers leg).mp hleg).1
  · obtain ⟨leg, hleg⟩ := List.exists_mem_of_ne_nil legs hne
    obtain ⟨members, hget, -⟩ := exists_cluster hleg
    rw [Dict.total_mapValues]
    exact Dict.total_pos _ (fun _ members _ => one_div_pos.mpr (clusterVolOf_pos _ members)) hget
  · obtain ⟨hsome, hmembers⟩ := mem_cluster hmem
    obtain ⟨leg, hleg⟩ := List.exists_mem_of_ne_nil members hsome
    obtain ⟨v, hget⟩ := Dict.exists_of_mem_tabulate LegInput.legId
      (inverseVol (volsOf std cfg legs)) hleg
    refine Dict.total_pos _ (fun legId v hv => ?_) hget
    obtain ⟨m, hm, -, rfl⟩ := Dict.mem_of_tabulate LegInput.legId hv
    exact hinverse m ((hmembers m).mp hm).1

theorem length_lastN {n : Nat} {xs : List ℚ} (hn : n ≠ 0) (h : n ≤ xs.length) :
    (lastN n xs).length = n := by
  rw [lastN, if_neg hn, List.length_drop]
  omega

/-- A cluster's returns stack unless an empty history stands beside one that is not. -/
theorem stackable_iff (members : List LegInput) :
    Stackable (stackedReturns members) ↔
      ∀ a ∈ members, ∀ b ∈ members, (a.returns = [] ↔ b.returns = []) := by
  cases hmin : (members.map (·.returns.length)).min? with
  | none =>
    have hnil : members = [] := by simpa using hmin
    subst hnil
    exact iff_of_true ⟨0, nofun⟩ nofun
  | some n =>
    have hle : ∀ leg ∈ members, n ≤ leg.returns.length := fun leg hleg =>
      (List.le_min?_iff hmin).mp le_rfl _ (List.mem_map_of_mem hleg)
    have hrows : stackedReturns members = members.map fun leg => lastN n leg.returns := by
      rw [stackedReturns, hmin]
      rfl
    by_cases hn : n = 0
    · subst hn
      obtain ⟨shortest, hshortest, hempty⟩ := List.mem_map.mp (List.min?_mem hmin)
      have hwhole : stackedReturns members = members.map (·.returns) := hrows
      rw [hwhole]
      constructor
      · rintro ⟨m, hm⟩ a ha b hb
        rw [← List.length_eq_zero_iff, ← List.length_eq_zero_iff,
          hm _ (List.mem_map_of_mem ha), hm _ (List.mem_map_of_mem hb)]
      · intro h
        refine ⟨0, fun row hrow => ?_⟩
        obtain ⟨leg, hleg, rfl⟩ := List.mem_map.mp hrow
        rw [List.length_eq_zero_iff, ← h shortest hshortest leg hleg]
        exact List.length_eq_zero_iff.mp hempty
    · have hsome : ∀ leg ∈ members, leg.returns ≠ [] := by
        intro leg hleg hnil
        have hlen := hle leg hleg
        rw [hnil] at hlen
        exact hn (Nat.le_zero.mp hlen)
      refine iff_of_true ⟨n, fun row hrow => ?_⟩ fun a ha b hb =>
        iff_of_false (hsome a ha) (hsome b hb)
      rw [hrows] at hrow
      obtain ⟨leg, hleg, rfl⟩ := List.mem_map.mp hrow
      exact length_lastN hn (hle leg hleg)

theorem stacks_iff :
    (∀ g ∈ (Dict.groupBy LegInput.cluster legs).items, Stackable (stackedReturns g.2)) ↔
      ∀ a ∈ legs, ∀ b ∈ legs, a.cluster = b.cluster → (a.returns = [] ↔ b.returns = []) := by
  constructor
  · intro h a ha b hb hcl
    obtain ⟨members, hget, hmem⟩ := exists_cluster ha
    have hitem := (Dict.get?_eq_some _).mp hget
    have hb' : b ∈ members := ((mem_cluster hitem).2 b).mpr ⟨hb, hcl.symm⟩
    exact (stackable_iff members).mp (h _ hitem) a hmem b hb'
  · rintro h ⟨cl, members⟩ hitem
    have hmem := (mem_cluster hitem).2
    refine (stackable_iff members).mpr fun a ha b hb => ?_
    obtain ⟨ha', hacl⟩ := (hmem a).mp ha
    obtain ⟨hb', hbcl⟩ := (hmem b).mp hb
    exact h a ha' b hb' (hacl.trans hbcl.symm)

theorem stackable_iff_head (rows : List (List ℚ)) :
    (∀ row ∈ rows, row.length = (rows.head?.map List.length).getD 0) ↔ Stackable rows := by
  constructor
  · exact fun h => ⟨_, h⟩
  · rintro ⟨n, hn⟩ row hrow
    cases rows with
    | nil => cases hrow
    | cons first rest =>
      rw [hn row hrow, List.head?_cons, Option.map_some, Option.getD_some,
        hn first List.mem_cons_self]

variable (std cfg legs) in
theorem computes_iff :
    Computes std cfg legs = true ↔
      (∀ legId v, (volsOf std cfg legs).get? legId = some v → v ≠ 0) ∧
        ∀ g ∈ (Dict.groupBy LegInput.cluster legs).items, Stackable (stackedReturns g.2) := by
  simp only [Computes, Bool.and_eq_true, List.all_eq_true, decide_eq_true_eq, stackable_iff_head,
    Dict.get?_eq_some, Prod.forall]

end Reaches

/-! ## Shares -/

section Shares
variable {std : List ℚ → ℚ} {cfg : PortfolioConfig} {legs : List LegInput}

theorem stepTo_nonneg (tw pw : ℚ) : 0 ≤ stepTo cfg tw pw := le_max_left _ _

/-- A step leaves a share unless the weight it comes from is more than a step above one. -/
theorem stepTo_le_one_iff {tw : ℚ} (htw : tw ≤ 1) (pw : ℚ) :
    stepTo cfg tw pw ≤ 1 ↔ pw ≤ 1 + cfg.maxStep := by
  have hstep := cfg.maxStep_nonneg
  unfold stepTo
  rw [max_le_iff, and_iff_right zero_le_one]
  split
  · rename_i hover
    split
    · rename_i hup
      rw [abs_of_pos hup] at hover
      exact iff_of_true (by linarith) (by linarith)
    · rename_i hdown
      rw [mul_neg_one, ← sub_eq_add_neg, sub_le_iff_le_add]
  · rename_i hwithin
    have hnear := (abs_le.mp (not_lt.mp hwithin)).1
    exact iff_of_true htw (by linarith)

/-- The raw weights name every leg of the clusters. -/
theorem exists_setAll (val : String × List LegInput → LegInput → ℚ)
    (groups : List (String × List LegInput)) (raw : Dict String ℚ) (legId : String)
    (h : (∃ w, raw.get? legId = some w) ∨ ∃ g ∈ groups, ∃ leg ∈ g.2, leg.legId = legId) :
    ∃ w, (groups.foldl (fun raw g => raw.setAll LegInput.legId (val g) g.2) raw).get? legId =
      some w := by
  induction groups generalizing raw with
  | nil =>
    rcases h with h | ⟨g, hg, -⟩
    · exact h
    · cases hg
  | cons g groups ih =>
    refine ih _ ?_
    rcases h with ⟨w, hw⟩ | ⟨g', hg', leg, hleg, rfl⟩
    · refine Or.inl ?_
      rw [Dict.get?_setAll, hw]
      cases (Dict.tabulate LegInput.legId (val g) g.2).get? legId with
      | none => exact ⟨w, rfl⟩
      | some v => exact ⟨v, rfl⟩
    · rcases List.mem_cons.mp hg' with rfl | hrest
      · obtain ⟨v, hv⟩ := Dict.exists_of_mem_tabulate LegInput.legId (val g') hleg
        exact Or.inl ⟨v, by rw [Dict.get?_setAll, hv, Option.some_or]⟩
      · exact Or.inr ⟨g', hrest, leg, hleg, rfl⟩

/-- Every leg has a target. -/
theorem exists_target (hvols : Nonneg (volsOf std cfg legs)) {leg : LegInput} (hleg : leg ∈ legs) :
    ∃ w, (targetWeights std cfg legs).get? leg.legId = some w := by
  obtain ⟨members, hget, hmem⟩ := exists_cluster hleg
  obtain ⟨hraw, -⟩ := rawWeights_spec std hvols (Dict.groupBy LegInput.cluster legs)
  obtain ⟨⟨f, -, hscaled⟩, -⟩ := capAndCash_spec cfg _ (clustersOf legs) hraw
  obtain ⟨w, hw⟩ : ∃ w, (rawWeights (volsOf std cfg legs) (Dict.groupBy LegInput.cluster legs)
      (clusterBudgetsOf std (volsOf std cfg legs) (Dict.groupBy LegInput.cluster legs))).get?
        leg.legId = some w :=
    exists_setAll _ _ _ _ (Or.inr ⟨_, (Dict.get?_eq_some _).mp hget, leg, hmem, rfl⟩)
  have hcapped : (cappedFull std cfg legs).get? leg.legId =
      some (min w cfg.maxLeg * f leg.legId) := by
    unfold cappedFull
    rw [hscaled, Dict.get?_mapValues, Dict.get?_mapValues, hw]
    rfl
  exact ⟨_, by rw [targetWeights, Dict.get?_mapValues, hcapped, Option.map_some]⟩

theorem targetWeights_share (hvols : Nonneg (volsOf std cfg legs)) {legId : String} {w : ℚ}
    (hw : (targetWeights std cfg legs).get? legId = some w) : 0 ≤ w ∧ w ≤ 1 := by
  have hcapped := targetWeights_capped std cfg hvols
  exact ⟨hcapped.nonneg legId w hw, (Dict.le_total _ hcapped.nonneg hw).trans hcapped.total⟩

/-- The weights `allocate` ends with. -/
def finalWeights (std : List ℚ → ℚ) (cfg : PortfolioConfig) (legs : List LegInput)
    (stepCap : Bool) : Dict String ℚ :=
  if stepCap then applyStepCap cfg (targetWeights std cfg legs) (priorOf legs)
  else targetWeights std cfg legs

theorem get?_stepped (legId : String) :
    (finalWeights std cfg legs true).get? legId =
      ((targetWeights std cfg legs).get? legId).map fun tw =>
        stepTo cfg tw (((legOf legs legId).map (·.priorWeight)).getD 0) := by
  rw [finalWeights, if_pos rfl, applyStepCap, Dict.get?_mapValues, priorOf, Dict.get?_tabulate]
  rfl

theorem finalWeights_nonneg (hvols : Nonneg (volsOf std cfg legs)) (stepCap : Bool) :
    Nonneg (finalWeights std cfg legs stepCap) := by
  intro legId w hw
  cases stepCap with
  | false => exact (targetWeights_share hvols hw).1
  | true =>
    rw [get?_stepped, Option.map_eq_some_iff] at hw
    obtain ⟨tw, -, rfl⟩ := hw
    exact stepTo_nonneg _ _

/-- The weights are shares unless the step cap starts more than a step above one. -/
theorem finalWeights_le_one_iff (hvols : Nonneg (volsOf std cfg legs)) (stepCap : Bool) :
    (∀ legId w, (finalWeights std cfg legs stepCap).get? legId = some w → w ≤ 1) ↔
      (stepCap = true →
        ∀ legId leg, legOf legs legId = some leg → leg.priorWeight ≤ 1 + cfg.maxStep) := by
  cases stepCap with
  | false => exact iff_of_true (fun legId w hw => (targetWeights_share hvols hw).2) nofun
  | true =>
    simp only [get?_stepped, Option.map_eq_some_iff, forall_const]
    constructor
    · intro h legId leg hleg
      obtain ⟨hmem, rfl⟩ := Dict.mem_of_keyBy LegInput.legId hleg
      obtain ⟨tw, htw⟩ := exists_target hvols hmem
      have hstep := h leg.legId _ ⟨tw, htw, rfl⟩
      rw [stepTo_le_one_iff (targetWeights_share hvols htw).2, hleg] at hstep
      exact hstep
    · rintro h legId _ ⟨tw, htw, rfl⟩
      rw [stepTo_le_one_iff (targetWeights_share hvols htw).2]
      cases hleg : legOf legs legId with
      | none => exact add_nonneg zero_le_one cfg.maxStep_nonneg
      | some leg => exact h legId leg hleg

theorem allocate_of_computes (hne : legs ≠ []) (h : Computes std cfg legs = true) (stepCap : Bool) :
    ∃ r, allocate std cfg legs stepCap = some r ∧ r.weights = finalWeights std cfg legs stepCap ∧
      r.cashShare = max 0 (1 - (finalWeights std cfg legs stepCap).total fun _ w => w) := by
  rw [allocate, if_neg hne, if_pos h]
  exact ⟨_, rfl, rfl, rfl⟩

end Shares

/-- A leg admitted this week: a registered volatility, and no return yet. -/
def newLeg : LegInput where
  legId := "N1"
  cluster := "SHORTVOL"
  returns := []
  oosVol := 1 / 100

theorem sampleStd_nonneg (xs : List ℚ) : 0 ≤ sampleStd xs := by
  unfold sampleStd
  positivity

end TradingPlatform.Portfolio
