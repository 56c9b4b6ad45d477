import TradingPlatform.Lib.Dict
import TradingPlatform.Lib.Runs
import Mathlib.Tactic.Linarith
import Mathlib.Tactic.Positivity
import Mathlib.Tactic.FieldSimp
import Mathlib.Algebra.Order.Field.Rat

/-! # The cluster allocator

Budget is split over clusters by inverse volatility, and within a cluster over
its legs; what a cap removes and what a leg's state holds back stays in cash.
The step cap comes last and moves each weight to within one step of the month
before. Returns and weights are rationals; the sample deviation `std` is a
parameter, as no property of it is used. -/

namespace TradingPlatform.Portfolio

open TradingPlatform.Lib TradingPlatform.Lib.Runs

/-- The knobs `allocate` reads. -/
structure PortfolioConfig where
  clusterVolWindowWeeks : Nat
  maxStep : ℚ
  volFloorFactor : ℚ
  maxCluster : ℚ
  maxLeg : ℚ
  shortvolClusterCap : ℚ
  maxStep_nonneg : 0 ≤ maxStep
  maxCluster_nonneg : 0 ≤ maxCluster
  maxLeg_nonneg : 0 ≤ maxLeg
  shortvolClusterCap_nonneg : 0 ≤ shortvolClusterCap

/-- The defaults. -/
def PortfolioConfig.standard : PortfolioConfig where
  clusterVolWindowWeeks := 26
  maxStep := 1 / 5
  volFloorFactor := 1 / 2
  maxCluster := 2 / 5
  maxLeg := 1 / 4
  shortvolClusterCap := 3 / 20
  maxStep_nonneg := by decide +kernel
  maxCluster_nonneg := by decide +kernel
  maxLeg_nonneg := by decide +kernel
  shortvolClusterCap_nonneg := by decide +kernel

structure LegInput where
  legId : String
  cluster : String
  returns : List ℚ
  oosVol : ℚ
  state : String := "ACTIVE"
  priorWeight : ℚ := 0
  deriving DecidableEq

structure AllocationResult where
  weights : Dict String ℚ
  cashShare : ℚ
  clusterBudgets : Dict String ℚ
  vols : Dict String ℚ
  deriving DecidableEq

/-- `_STATE_SIZING.get(state, 0.0)`. -/
def stateSizing (state : String) : ℚ :=
  if state = "ACTIVE" then 1 else if state = "WATCH" then 1 / 2 else 0

/-- `xs[-n:]`, which is all of `xs` when `n` is zero. -/
def lastN {α : Type} (n : Nat) (xs : List α) : List α := if n = 0 then xs else xs.drop (xs.length - n)

def PortfolioConfig.clusterCap (cfg : PortfolioConfig) (cl : String) : ℚ :=
  if cl = "SHORTVOL" then cfg.shortvolClusterCap else cfg.maxCluster

def clustersOf (legs : List LegInput) : Dict String String :=
  Dict.tabulate LegInput.legId LegInput.cluster legs

section Code
variable (std : List ℚ → ℚ) (cfg : PortfolioConfig)

def causalVol (returns : List ℚ) (oosVol : ℚ) : ℚ :=
  let w := lastN cfg.clusterVolWindowWeeks returns
  let exposed := w.filter (0 < |·|)
  let realized := if 1 < exposed.length then std exposed else 0
  max realized (cfg.volFloorFactor * |oosVol|)

/-- Scale the legs of one cluster down to its cap. -/
def capCluster (capped : Dict String ℚ) (cl : String) (legs : List String) : Dict String ℚ :=
  let cap := cfg.clusterCap cl
  let total := (legs.map fun l => (capped.get? l).getD 0).sum
  if cap < total ∧ 0 < total then
    capped.mapValues fun l w => if l ∈ legs then w * (cap / total) else w
  else capped

/-- The legs of each cluster. -/
def byCluster (clusters : Dict String String) : Dict String (List String) :=
  (Dict.groupBy Prod.snd clusters.items).mapValues fun _ legs => legs.map Prod.fst

def capAndCash (weights : Dict String ℚ) (clusters : Dict String String) : Dict String ℚ × ℚ :=
  let capped := (byCluster clusters).items.foldl (fun capped g => capCluster cfg capped g.1 g.2)
    (weights.mapValues fun _ w => min w cfg.maxLeg)
  (capped, max 0 (1 - capped.total fun _ w => w))

/-- The weight one step allows. -/
def stepTo (tw pw : ℚ) : ℚ :=
  let delta := tw - pw
  max 0 (if cfg.maxStep < |delta| then pw + cfg.maxStep * (if 0 < delta then 1 else -1) else tw)

def applyStepCap (target prior : Dict String ℚ) : Dict String ℚ :=
  target.mapValues fun leg tw => stepTo cfg tw ((prior.get? leg).getD 0)

def volsOf (legs : List LegInput) : Dict String ℚ :=
  Dict.tabulate LegInput.legId (fun leg => causalVol std cfg leg.returns leg.oosVol) legs

/-- `1.0 / vols[leg_id]`. -/
def inverseVol (vols : Dict String ℚ) (leg : LegInput) : ℚ := 1 / (vols.get? leg.legId).getD 0

/-- The returns `np.vstack` is given. -/
def stackedReturns (members : List LegInput) : List (List ℚ) :=
  let n := ((members.map (·.returns.length)).min?).getD 0
  members.map fun m => lastN n m.returns

/-- `inv @ stacked`. -/
def weightedSeries (inv : List ℚ) (stacked : List (List ℚ)) : List ℚ :=
  (List.range ((stacked.head?.map List.length).getD 0)).map fun week =>
    (inv.zipWith (fun a row => a * (row[week]?).getD 0) stacked).sum

def clusterVolOf (vols : Dict String ℚ) (members : List LegInput) : ℚ :=
  let inv := members.map (inverseVol vols)
  let inv := inv.map (· / inv.sum)
  let n := ((members.map (·.returns.length)).min?).getD 0
  let clusterSeries := weightedSeries inv (stackedReturns members)
  max (if 1 < n then std clusterSeries else 0) (1 / 1000000000)

/-- Level 1: equal risk over the clusters. -/
def clusterBudgetsOf (vols : Dict String ℚ) (clusterLegs : Dict String (List LegInput)) :
    Dict String ℚ :=
  let invCluster := clusterLegs.mapValues fun _ members => 1 / clusterVolOf std vols members
  let totalInv := invCluster.total fun _ v => v
  invCluster.mapValues fun _ v => v / totalInv

/-- Level 2: inverse volatility within each cluster, at full sizing. -/
def rawWeights (vols : Dict String ℚ) (clusterLegs : Dict String (List LegInput))
    (clusterBudget : Dict String ℚ) : Dict String ℚ :=
  clusterLegs.items.foldl (fun raw g =>
    let inv := Dict.tabulate LegInput.legId (inverseVol vols) g.2
    let s := inv.total fun _ v => v
    raw.setAll LegInput.legId (fun m =>
      (clusterBudget.get? g.1).getD 0 * ((inv.get? m.legId).getD 0) / s) g.2) .empty

/-- The allocation before states and the step cap. -/
def cappedFull (legs : List LegInput) : Dict String ℚ :=
  let vols := volsOf std cfg legs
  let clusterLegs := Dict.groupBy LegInput.cluster legs
  let budgets := clusterBudgetsOf std vols clusterLegs
  (capAndCash cfg (rawWeights vols clusterLegs budgets) (clustersOf legs)).1

def stateByLeg (legs : List LegInput) : Dict String String :=
  Dict.tabulate LegInput.legId LegInput.state legs

/-- The weights before the step cap. -/
def targetWeights (legs : List LegInput) : Dict String ℚ :=
  (cappedFull std cfg legs).mapValues fun leg w =>
    w * stateSizing (((stateByLeg legs).get? leg).getD "")

def priorOf (legs : List LegInput) : Dict String ℚ :=
  Dict.tabulate LegInput.legId LegInput.priorWeight legs

/-- `allocate` divides by no zero volatility and stacks series of one length. -/
def Computes (legs : List LegInput) : Bool :=
  (volsOf std cfg legs).items.all (fun p => p.2 ≠ 0) &&
    (Dict.groupBy LegInput.cluster legs).items.all fun g =>
      (stackedReturns g.2).all fun row =>
        row.length = (((stackedReturns g.2).head?).map List.length).getD 0

/-- `none` is a `ZeroDivisionError` or the `ValueError` of `np.vstack`. -/
def allocate (legs : List LegInput) (stepCap : Bool) : Option AllocationResult :=
  if legs = [] then some ⟨.empty, 1, .empty, .empty⟩
  else if Computes std cfg legs then
    let vols := volsOf std cfg legs
    let capped := targetWeights std cfg legs
    let capped := if stepCap then applyStepCap cfg capped (priorOf legs) else capped
    some
      { weights := capped
        cashShare := max 0 (1 - capped.total fun _ w => w)
        clusterBudgets := clusterBudgetsOf std vols (Dict.groupBy LegInput.cluster legs)
        vols }
  else none

end Code

/-! ## Scaling down -/

/-- Every weight of `W'` is one of `W`, scaled down. -/
def ScaledDown (W W' : Dict String ℚ) : Prop :=
  ∃ f : String → ℚ, (∀ l, 0 ≤ f l ∧ f l ≤ 1) ∧ W' = W.mapValues fun l w => w * f l

def Nonneg (W : Dict String ℚ) : Prop := ∀ l w, W.get? l = some w → 0 ≤ w

theorem Nonneg.getD {W : Dict String ℚ} (h : Nonneg W) (l : String) : 0 ≤ (W.get? l).getD 0 := by
  cases hw : W.get? l with
  | none => exact le_refl _
  | some w => exact h l w hw

namespace ScaledDown
variable {W W' W'' : Dict String ℚ}

theorem refl (W : Dict String ℚ) : ScaledDown W W :=
  ⟨fun _ => 1, fun _ => ⟨zero_le_one, le_refl _⟩,
    (W.mapValues_eq_self fun _ w _ => mul_one w).symm⟩

theorem trans (h : ScaledDown W W') (h' : ScaledDown W' W'') : ScaledDown W W'' := by
  obtain ⟨f, hf, rfl⟩ := h
  obtain ⟨g, hg, rfl⟩ := h'
  refine ⟨fun l => f l * g l, fun l => ⟨mul_nonneg (hf l).1 (hg l).1, ?_⟩, ?_⟩
  · exact mul_le_one₀ (hf l).2 (hg l).1 (hg l).2
  · rw [Dict.mapValues_mapValues]
    simp only [mul_assoc]

theorem get? (h : ScaledDown W W') {l : String} {w' : ℚ} (hw' : W'.get? l = some w') :
    ∃ w, W.get? l = some w ∧ (0 ≤ w → 0 ≤ w' ∧ w' ≤ w) := by
  obtain ⟨f, hf, rfl⟩ := h
  rw [Dict.get?_mapValues, Option.map_eq_some_iff] at hw'
  obtain ⟨w, hw, rfl⟩ := hw'
  exact ⟨w, hw, fun hnonneg =>
    ⟨mul_nonneg hnonneg (hf l).1, mul_le_of_le_one_right hnonneg (hf l).2⟩⟩

theorem nonneg (h : ScaledDown W W') (hW : Nonneg W) : Nonneg W' := by
  intro l w' hw'
  obtain ⟨w, hw, hle⟩ := h.get? hw'
  exact (hle (hW l w hw)).1

theorem getD_le (h : ScaledDown W W') (hW : Nonneg W) (l : String) :
    (W'.get? l).getD 0 ≤ (W.get? l).getD 0 := by
  cases hw' : W'.get? l with
  | none => exact hW.getD l
  | some w' =>
    obtain ⟨w, hw, hle⟩ := h.get? hw'
    rw [hw]
    exact (hle (hW l w hw)).2

theorem total_le (h : ScaledDown W W') (hW : Nonneg W) :
    (W'.total fun _ w => w) ≤ W.total fun _ w => w := by
  obtain ⟨f, hf, rfl⟩ := h
  rw [Dict.total_mapValues]
  exact W.total_le_total fun l w hw => mul_le_of_le_one_right (hW l w hw) (hf l).2

end ScaledDown

/-! ## Caps -/

section Caps
variable {cfg : PortfolioConfig}

theorem clusterCap_nonneg (cl : String) : 0 ≤ cfg.clusterCap cl := by
  unfold PortfolioConfig.clusterCap
  split
  · exact cfg.shortvolClusterCap_nonneg
  · exact cfg.maxCluster_nonneg

variable (cfg) in
theorem capCluster_scales (W : Dict String ℚ) (cl : String) (legs : List String) :
    ScaledDown W (capCluster cfg W cl legs) := by
  unfold capCluster
  dsimp only
  split
  · rename_i hover
    obtain ⟨hcap, hpos⟩ := hover
    refine ⟨fun l => if l ∈ legs then cfg.clusterCap cl /
      (legs.map fun l => (W.get? l).getD 0).sum else 1, fun l => ?_, ?_⟩
    · dsimp only
      split
      · exact ⟨div_nonneg (clusterCap_nonneg cl) hpos.le, (div_le_one hpos).mpr hcap.le⟩
      · exact ⟨zero_le_one, le_refl _⟩
    · refine congrArg W.mapValues (funext fun l => funext fun w => ?_)
      dsimp only
      split
      · rfl
      · exact (mul_one w).symm
  · exact ScaledDown.refl W

/-- A cluster is within its cap once its turn has come. -/
theorem capCluster_le (W : Dict String ℚ) (cl : String) (legs : List String) :
    (legs.map fun l => ((capCluster cfg W cl legs).get? l).getD 0).sum ≤ cfg.clusterCap cl := by
  unfold capCluster
  dsimp only
  split
  · rename_i hover
    have hscaled : ∀ l ∈ legs, ((W.mapValues fun l w => if l ∈ legs then
        w * (cfg.clusterCap cl / (legs.map fun l => (W.get? l).getD 0).sum) else w).get? l).getD 0 =
        (W.get? l).getD 0 * (cfg.clusterCap cl / (legs.map fun l => (W.get? l).getD 0).sum) := by
      intro l hl
      rw [Dict.get?_mapValues]
      cases W.get? l with
      | none => simp
      | some w => simp [hl]
    rw [List.map_congr_left hscaled, List.sum_map_mul_right, mul_div_cancel₀ _ hover.2.ne']
  · rename_i hover
    by_contra hlt
    push Not at hlt
    exact hover ⟨hlt, (clusterCap_nonneg cl).trans_lt hlt⟩

variable (cfg) in
theorem capClusters_spec (groups : List (String × List String)) {W : Dict String ℚ}
    (hW : Nonneg W) :
    let capped := groups.foldl (fun W g => capCluster cfg W g.1 g.2) W
    ScaledDown W capped ∧
      ∀ g ∈ groups, (g.2.map fun l => (capped.get? l).getD 0).sum ≤ cfg.clusterCap g.1 := by
  induction groups generalizing W with
  | nil => exact ⟨ScaledDown.refl W, nofun⟩
  | cons g groups ih =>
    have hhead := capCluster_scales cfg W g.1 g.2
    obtain ⟨hrest, hcaps⟩ := ih (hhead.nonneg hW)
    refine ⟨hhead.trans hrest, fun g' hg' => ?_⟩
    rcases List.mem_cons.mp hg' with rfl | hg'
    · refine le_trans (List.sum_le_sum fun l _ => ?_) (capCluster_le W g'.1 g'.2)
      exact hrest.getD_le (hhead.nonneg hW) l
    · exact hcaps g' hg'

/-- The weight of a cluster. -/
def clusterSum (clusters : Dict String String) (cl : String) (W : Dict String ℚ) : ℚ :=
  W.total fun l w => if clusters.get? l = some cl then w else 0

theorem mem_byCluster {clusters : Dict String String} {cl : String} {legs : List String}
    (h : (byCluster clusters).get? cl = some legs) :
    legs.Nodup ∧ ∀ l, l ∈ legs ↔ clusters.get? l = some cl := by
  unfold byCluster at h
  rw [Dict.get?_mapValues, Dict.get?_groupBy, Option.map_eq_some_iff] at h
  obtain ⟨members, hmembers, rfl⟩ := h
  split at hmembers
  · cases hmembers
  obtain rfl := Option.some.inj hmembers
  refine ⟨clusters.nodup.sublist (List.filter_sublist.map _), fun l => ?_⟩
  rw [Dict.get?_eq_some, List.mem_map]
  constructor
  · intro h
    obtain ⟨⟨l', cl'⟩, hfilter, rfl⟩ := h
    obtain ⟨hitem, hcl⟩ := List.mem_filter.mp hfilter
    obtain rfl : cl' = cl := by simpa using hcl
    exact hitem
  · intro hmem
    exact ⟨(l, cl), List.mem_filter.mpr ⟨hmem, by simp⟩, rfl⟩

theorem byCluster_none {clusters : Dict String String} {cl : String}
    (h : (byCluster clusters).get? cl = none) (l : String) : clusters.get? l ≠ some cl := by
  unfold byCluster at h
  rw [Dict.get?_mapValues, Dict.get?_groupBy, Option.map_eq_none_iff] at h
  intro hl
  split at h
  · rename_i hnil
    refine List.filter_eq_nil_iff.mp hnil (l, cl) (clusters.get?_eq_some.mp hl) ?_
    simp
  · cases h

variable (cfg) in
/-- **What the caps leave**: weights scaled down from those under the leg cap,
with every cluster within its own. -/
theorem capAndCash_spec (weights : Dict String ℚ) (clusters : Dict String String)
    (hweights : Nonneg weights) :
    ScaledDown (weights.mapValues fun _ w => min w cfg.maxLeg)
        (capAndCash cfg weights clusters).1 ∧
      ∀ cl, clusterSum clusters cl (capAndCash cfg weights clusters).1 ≤ cfg.clusterCap cl := by
  have hmin : Nonneg (weights.mapValues fun _ w => min w cfg.maxLeg) := by
    intro l w hw
    rw [Dict.get?_mapValues, Option.map_eq_some_iff] at hw
    obtain ⟨w, hw, rfl⟩ := hw
    exact le_min (hweights l w hw) cfg.maxLeg_nonneg
  obtain ⟨hscaled, hcaps⟩ := capClusters_spec cfg (byCluster clusters).items hmin
  refine ⟨hscaled, fun cl => ?_⟩
  cases hlegs : (byCluster clusters).get? cl with
  | some legs =>
    obtain ⟨hnodup, hmem⟩ := mem_byCluster hlegs
    have hcap := hcaps (cl, legs) ((Dict.get?_eq_some _).mp hlegs)
    rw [Dict.sum_getD _ hnodup] at hcap
    simp only [hmem] at hcap
    exact hcap
  | none =>
    refine le_of_eq_of_le ?_ (clusterCap_nonneg cl)
    unfold clusterSum
    simp only [if_neg (byCluster_none hlegs _)]
    exact List.sum_eq_zero fun q hq => by
      obtain ⟨p, -, rfl⟩ := List.mem_map.mp hq
      rfl

end Caps

/-! ## Budgets -/

section Budgets
variable {std : List ℚ → ℚ} {cfg : PortfolioConfig} {legs : List LegInput}

theorem clusterVolOf_pos (vols : Dict String ℚ) (members : List LegInput) :
    0 < clusterVolOf std vols members := by
  unfold clusterVolOf
  exact lt_max_of_lt_right (by norm_num)

variable (std) in
/-- The budgets share out one. -/
theorem clusterBudgets_spec (vols : Dict String ℚ) (clusterLegs : Dict String (List LegInput)) :
    Nonneg (clusterBudgetsOf std vols clusterLegs) ∧
      (clusterLegs.items.map fun g =>
        ((clusterBudgetsOf std vols clusterLegs).get? g.1).getD 0).sum ≤ 1 := by
  have hinv : Nonneg (clusterLegs.mapValues fun _ members => 1 / clusterVolOf std vols members) := by
    intro cl v hv
    rw [Dict.get?_mapValues, Option.map_eq_some_iff] at hv
    obtain ⟨members, -, rfl⟩ := hv
    exact (one_div_pos.mpr (clusterVolOf_pos vols members)).le
  have htotal : 0 ≤ (clusterLegs.mapValues fun _ members =>
      1 / clusterVolOf std vols members).total fun _ v => v := Dict.total_nonneg _ hinv
  constructor
  · intro cl v hv
    unfold clusterBudgetsOf at hv
    rw [Dict.get?_mapValues, Option.map_eq_some_iff] at hv
    obtain ⟨w, hw, rfl⟩ := hv
    exact div_nonneg (hinv cl w hw) htotal
  · have hsum : (clusterLegs.total fun cl _ =>
        ((clusterBudgetsOf std vols clusterLegs).get? cl).getD 0) =
        (clusterLegs.mapValues fun _ members => 1 / clusterVolOf std vols members).total
          (fun _ v => v) / (clusterLegs.mapValues fun _ members =>
            1 / clusterVolOf std vols members).total fun _ v => v := by
      rw [div_eq_inv_mul, Dict.total_mapValues, ← Dict.total_mul_left]
      refine Dict.total_congr _ fun cl members hcl => ?_
      unfold clusterBudgetsOf
      rw [Dict.get?_mapValues, Dict.get?_mapValues, hcl, Dict.total_mapValues]
      exact div_eq_inv_mul _ _
    exact le_of_eq_of_le hsum (div_self_le_one _)

/-- The legs of one cluster share out its budget. -/
theorem total_cluster_le (vols : Dict String ℚ) (members : List LegInput) {budget : ℚ}
    (hbudget : 0 ≤ budget) :
    ((Dict.tabulate LegInput.legId (fun m => budget *
        (((Dict.tabulate LegInput.legId (inverseVol vols) members).get? m.legId).getD 0) /
          (Dict.tabulate LegInput.legId (inverseVol vols) members).total fun _ v => v) members).total
      fun _ w => w) ≤ budget := by
  generalize hinv : Dict.tabulate LegInput.legId (inverseVol vols) members = inv
  have hsame : ∀ l, (Dict.tabulate LegInput.legId (fun m => budget *
        ((inv.get? m.legId).getD 0) / inv.total fun _ v => v) members).get? l =
      (inv.mapValues fun _ v => budget / (inv.total fun _ v => v) * v).get? l := by
    intro l
    rw [Dict.get?_tabulate, Dict.get?_mapValues, ← hinv, Dict.get?_tabulate, Option.map_map]
    cases hleg : (Dict.keyBy LegInput.legId members).get? l with
    | none => rfl
    | some m =>
      obtain ⟨-, rfl⟩ := Dict.mem_of_keyBy _ hleg
      simp only [Option.map_some, Function.comp_apply, Dict.get?_tabulate, hleg, Option.getD_some,
        Option.some.injEq]
      exact mul_div_right_comm _ _ _
  rw [Dict.total_eq_of_get? hsame, Dict.total_mapValues, Dict.total_mul_left, div_mul_comm, mul_comm]
  exact mul_le_of_le_one_right hbudget (div_self_le_one _)

variable (std) in
/-- Raw weights are non-negative and sum to one at most. -/
theorem rawWeights_spec {vols : Dict String ℚ} (hvols : Nonneg vols)
    (clusterLegs : Dict String (List LegInput)) :
    Nonneg (rawWeights vols clusterLegs (clusterBudgetsOf std vols clusterLegs)) ∧
      ((rawWeights vols clusterLegs (clusterBudgetsOf std vols clusterLegs)).total fun _ w => w)
        ≤ 1 := by
  obtain ⟨hbudget, hsum⟩ := clusterBudgets_spec std vols clusterLegs
  generalize clusterBudgetsOf std vols clusterLegs = budgets at hbudget hsum ⊢
  suffices hfold : ∀ (groups : List (String × List LegInput)) (raw : Dict String ℚ), Nonneg raw →
      let final := groups.foldl (fun raw g =>
        let inv := Dict.tabulate LegInput.legId (inverseVol vols) g.2
        let s := inv.total fun _ v => v
        raw.setAll LegInput.legId (fun m =>
          (budgets.get? g.1).getD 0 * ((inv.get? m.legId).getD 0) / s) g.2) raw
      Nonneg final ∧ (final.total fun _ w => w) ≤
        (raw.total fun _ w => w) + (groups.map fun g => (budgets.get? g.1).getD 0).sum by
    obtain ⟨hnonneg, htotal⟩ := hfold clusterLegs.items .empty nofun
    refine ⟨hnonneg, htotal.trans ?_⟩
    rw [Dict.total_empty, zero_add]
    exact hsum
  intro groups
  induction groups with
  | nil =>
    intro raw hraw
    exact ⟨hraw, le_of_eq (add_zero _).symm⟩
  | cons g groups ih =>
    intro raw hraw
    have hinvs : Nonneg (Dict.tabulate LegInput.legId (inverseVol vols) g.2) := by
      intro l v hv
      obtain ⟨m, -, -, rfl⟩ := Dict.mem_of_tabulate _ hv
      exact one_div_nonneg.mpr (hvols.getD m.legId)
    have hval : ∀ m ∈ g.2, 0 ≤ (budgets.get? g.1).getD 0 *
        (((Dict.tabulate LegInput.legId (inverseVol vols) g.2).get? m.legId).getD 0) /
          (Dict.tabulate LegInput.legId (inverseVol vols) g.2).total fun _ v => v := fun m _ =>
      div_nonneg (mul_nonneg (hbudget.getD g.1) (hinvs.getD m.legId)) (Dict.total_nonneg _ hinvs)
    have hle := Dict.total_setAll_le LegInput.legId hraw hval
    obtain ⟨hnonneg, htotal⟩ := ih _ (show Nonneg (raw.setAll LegInput.legId _ g.2) by
      intro l w hw
      rw [Dict.get?_setAll, Option.or_eq_some_iff] at hw
      rcases hw with hw | ⟨-, hw⟩
      · obtain ⟨m, hm, -, rfl⟩ := Dict.mem_of_tabulate _ hw
        exact hval m hm
      · exact hraw l w hw)
    refine ⟨hnonneg, htotal.trans ?_⟩
    have hcluster := total_cluster_le vols g.2 (hbudget.getD g.1)
    rw [List.map_cons, List.sum_cons]
    linarith

/-! ## Targets -/

theorem volsOf_nonneg (h : ∀ leg ∈ legs, 0 < causalVol std cfg leg.returns leg.oosVol) :
    Nonneg (volsOf std cfg legs) := by
  intro l v hv
  obtain ⟨leg, hleg, -, rfl⟩ := Dict.mem_of_tabulate _ hv
  exact (h leg hleg).le

theorem stateSizing_mem (state : String) : 0 ≤ stateSizing state ∧ stateSizing state ≤ 1 := by
  unfold stateSizing
  split
  · decide +kernel
  split
  · decide +kernel
  · decide +kernel

theorem targetWeights_scales (legs : List LegInput) :
    ScaledDown (cappedFull std cfg legs) (targetWeights std cfg legs) :=
  ⟨fun leg => stateSizing (((stateByLeg legs).get? leg).getD ""), fun _ => stateSizing_mem _, rfl⟩

/-- Weights within every cap. -/
structure Capped (cfg : PortfolioConfig) (clusters : Dict String String) (W : Dict String ℚ) :
    Prop where
  nonneg : Nonneg W
  leg : ∀ l w, W.get? l = some w → w ≤ cfg.maxLeg
  cluster : ∀ cl, clusterSum clusters cl W ≤ cfg.clusterCap cl
  total : (W.total fun _ w => w) ≤ 1

theorem Capped.of_scaledDown {clusters : Dict String String} {W W' : Dict String ℚ}
    (h : Capped cfg clusters W) (hscaled : ScaledDown W W') : Capped cfg clusters W' where
  nonneg := hscaled.nonneg h.nonneg
  leg l w' hw' := by
    obtain ⟨w, hw, hle⟩ := hscaled.get? hw'
    exact (hle (h.nonneg l w hw)).2.trans (h.leg l w hw)
  cluster cl := by
    refine le_trans ?_ (h.cluster cl)
    obtain ⟨f, hf, rfl⟩ := hscaled
    unfold clusterSum
    rw [Dict.total_mapValues]
    refine W.total_le_total fun l w hw => ?_
    split
    · exact mul_le_of_le_one_right (h.nonneg l w hw) (hf l).2
    · exact le_refl _
  total := (hscaled.total_le h.nonneg).trans h.total

theorem cappedFull_capped (h : Nonneg (volsOf std cfg legs)) :
    Capped cfg (clustersOf legs) (cappedFull std cfg legs) := by
  obtain ⟨hraw, htotal⟩ :=
    rawWeights_spec std h (Dict.groupBy LegInput.cluster legs)
  obtain ⟨hscaled, hcluster⟩ := capAndCash_spec cfg _ (clustersOf legs) hraw
  have hmin : ∀ l w, ((rawWeights (volsOf std cfg legs) (Dict.groupBy LegInput.cluster legs)
      (clusterBudgetsOf std (volsOf std cfg legs) (Dict.groupBy LegInput.cluster legs))).mapValues
        fun _ w => min w cfg.maxLeg).get? l = some w → 0 ≤ w ∧ w ≤ cfg.maxLeg := by
    intro l w hw
    rw [Dict.get?_mapValues, Option.map_eq_some_iff] at hw
    obtain ⟨w, hw, rfl⟩ := hw
    exact ⟨le_min (hraw l w hw) cfg.maxLeg_nonneg, min_le_right _ _⟩
  have hnonneg : Nonneg _ := fun l w hw => (hmin l w hw).1
  refine ⟨hscaled.nonneg hnonneg, fun l w' hw' => ?_, hcluster, ?_⟩
  · obtain ⟨w, hw, hle⟩ := hscaled.get? hw'
    obtain ⟨hpos, hcap⟩ := hmin l w hw
    exact (hle hpos).2.trans hcap
  · refine (hscaled.total_le hnonneg).trans (le_trans ?_ htotal)
    rw [Dict.total_mapValues]
    exact Dict.total_le_total _ fun _ _ _ => min_le_left _ _

variable (std cfg) in
/-- **Targets are within every cap.** -/
theorem targetWeights_capped (h : Nonneg (volsOf std cfg legs)) :
    Capped cfg (clustersOf legs) (targetWeights std cfg legs) :=
  (cappedFull_capped h).of_scaledDown (targetWeights_scales legs)

end Budgets

/-! ## States -/

section States
variable (std : List ℚ → ℚ) (cfg : PortfolioConfig)

/-- The legs, each in the state its place is assigned. -/
def assignStates (states : Nat → String) (legs : List LegInput) : List LegInput :=
  legs.mapIdx fun i leg => { leg with state := states i }

/-- A leg but for its state. -/
def unstated (leg : LegInput) : LegInput := { leg with state := "" }

theorem map_unstated_assignStates (states : Nat → String) (legs : List LegInput) :
    (assignStates states legs).map unstated = legs.map unstated := by
  refine List.ext_getElem? fun i => ?_
  simp only [assignStates, List.getElem?_map, List.getElem?_mapIdx, Option.map_map]
  rfl

theorem volsOf_unstated (legs : List LegInput) :
    volsOf std cfg (legs.map unstated) = volsOf std cfg legs := Dict.tabulate_map ..

theorem clustersOf_unstated (legs : List LegInput) :
    clustersOf (legs.map unstated) = clustersOf legs := Dict.tabulate_map ..

theorem clusterLegs_unstated (legs : List LegInput) :
    Dict.groupBy LegInput.cluster (legs.map unstated) =
      (Dict.groupBy LegInput.cluster legs).mapValues fun _ members => members.map unstated :=
  Dict.groupBy_map ..

theorem stackedReturns_unstated (members : List LegInput) :
    stackedReturns (members.map unstated) = stackedReturns members := by
  unfold stackedReturns
  simp only [List.map_map]
  rfl

theorem clusterVolOf_unstated (vols : Dict String ℚ) (members : List LegInput) :
    clusterVolOf std vols (members.map unstated) = clusterVolOf std vols members := by
  unfold clusterVolOf
  simp only [List.map_map, stackedReturns_unstated]
  rfl

theorem clusterBudgetsOf_unstated (vols : Dict String ℚ) (clusterLegs : Dict String (List LegInput)) :
    clusterBudgetsOf std vols (clusterLegs.mapValues fun _ members => members.map unstated) =
      clusterBudgetsOf std vols clusterLegs := by
  unfold clusterBudgetsOf
  simp only [Dict.mapValues_mapValues, clusterVolOf_unstated]

theorem rawWeights_unstated (vols : Dict String ℚ) (clusterLegs : Dict String (List LegInput))
    (budgets : Dict String ℚ) :
    rawWeights vols (clusterLegs.mapValues fun _ members => members.map unstated) budgets =
      rawWeights vols clusterLegs budgets := by
  unfold rawWeights
  simp only [Dict.items_mapValues, List.foldl_map, Dict.setAll_map, Dict.tabulate_map]
  rfl

/-- Full sizing does not read states. -/
theorem cappedFull_unstated (legs : List LegInput) :
    cappedFull std cfg (legs.map unstated) = cappedFull std cfg legs := by
  unfold cappedFull
  simp only [volsOf_unstated, clustersOf_unstated, clusterLegs_unstated, clusterBudgetsOf_unstated,
    rawWeights_unstated]

theorem computes_unstated (legs : List LegInput) :
    Computes std cfg (legs.map unstated) = Computes std cfg legs := by
  unfold Computes
  simp only [volsOf_unstated, clusterLegs_unstated, Dict.items_mapValues, List.all_map]
  simp only [Function.comp_def, stackedReturns_unstated]

theorem cappedFull_assignStates (states : Nat → String) (legs : List LegInput) :
    cappedFull std cfg (assignStates states legs) = cappedFull std cfg legs := by
  rw [← cappedFull_unstated, map_unstated_assignStates, cappedFull_unstated]

theorem computes_assignStates (states : Nat → String) (legs : List LegInput) :
    Computes std cfg (assignStates states legs) = Computes std cfg legs := by
  rw [← computes_unstated, map_unstated_assignStates, computes_unstated]

theorem causalVol_assignStates {states : Nat → String} {legs : List LegInput}
    (h : ∀ leg ∈ legs, 0 < causalVol std cfg leg.returns leg.oosVol) :
    ∀ leg ∈ assignStates states legs, 0 < causalVol std cfg leg.returns leg.oosVol := by
  intro leg hleg
  obtain ⟨i, hi, rfl⟩ := List.mem_mapIdx.mp hleg
  exact h legs[i] (List.getElem_mem hi)

def AllocationResult.weightOf (r : AllocationResult) (leg : String) : ℚ :=
  (r.weights.get? leg).getD 0

def AllocationResult.deployed (r : AllocationResult) : ℚ := r.weights.total fun _ w => w

/-- The sizing of the state a leg is read in. -/
def sizingOf (legs : List LegInput) (leg : String) : ℚ :=
  stateSizing (((stateByLeg legs).get? leg).getD "")

/-- Without the step cap a leg is its full sizing, sized by its state, and the
rest of the book is cash. -/
theorem allocate_unstepped {legs : List LegInput} {r : AllocationResult} (hne : legs ≠ [])
    (hvols : ∀ leg ∈ legs, 0 < causalVol std cfg leg.returns leg.oosVol)
    (h : allocate std cfg legs false = some r) :
    (∀ leg, r.weightOf leg = ((cappedFull std cfg legs).get? leg).getD 0 * sizingOf legs leg) ∧
      r.cashShare = 1 - r.deployed := by
  unfold allocate at h
  rw [if_neg hne] at h
  split at h
  · obtain rfl := Option.some.inj h
    constructor
    · intro leg
      show ((targetWeights std cfg legs).get? leg).getD 0 = _
      unfold targetWeights sizingOf
      rw [Dict.get?_mapValues]
      cases (cappedFull std cfg legs).get? leg with
      | none => exact (zero_mul _).symm
      | some w => rfl
    · exact max_eq_right (sub_nonneg.mpr (targetWeights_capped std cfg (volsOf_nonneg hvols)).total)
  · cases h

theorem allocate_isSome (legs : List LegInput) (stepCap : Bool) :
    (allocate std cfg legs stepCap).isSome = (legs.isEmpty || Computes std cfg legs) := by
  unfold allocate
  split
  · rename_i hnil
    rw [hnil]
    rfl
  · rename_i hne
    rw [List.isEmpty_eq_false_iff.mpr hne, Bool.false_or]
    split
    · rename_i hcomputes
      exact hcomputes.symm
    · rename_i hcomputes
      exact (Bool.eq_false_iff.mpr hcomputes).symm

end States

/-- **Freed budget goes to cash.** Two assignments of states to the same legs
size each leg by its own state alone, and cash takes the difference. -/
theorem freed_budget_to_cash (std : List ℚ → ℚ) (cfg : PortfolioConfig) (legs : List LegInput)
    (hvols : ∀ leg ∈ legs, 0 < causalVol std cfg leg.returns leg.oosVol)
    (states states' : Nat → String) :
    (allocate std cfg (assignStates states legs) false).isSome =
        (allocate std cfg (assignStates states' legs) false).isSome ∧
      ∀ r r', allocate std cfg (assignStates states legs) false = some r →
        allocate std cfg (assignStates states' legs) false = some r' →
        (∀ leg, r'.weightOf leg * sizingOf (assignStates states legs) leg =
          r.weightOf leg * sizingOf (assignStates states' legs) leg) ∧
        (∀ leg, (stateByLeg (assignStates states legs)).get? leg =
          (stateByLeg (assignStates states' legs)).get? leg → r'.weightOf leg = r.weightOf leg) ∧
        r'.cashShare - r.cashShare = r.deployed - r'.deployed := by
  have hempty : ∀ states, (assignStates states legs).isEmpty = legs.isEmpty := by
    intro states
    rw [Bool.eq_iff_iff, List.isEmpty_iff, List.isEmpty_iff]
    exact List.mapIdx_eq_nil_iff
  refine ⟨?_, fun r r' hr hr' => ?_⟩
  · rw [allocate_isSome, allocate_isSome, hempty, hempty, computes_assignStates,
      computes_assignStates]
  by_cases hnil : legs = []
  · subst hnil
    obtain rfl : r = r' := Option.some.inj (hr.symm.trans hr')
    exact ⟨fun _ => rfl, fun _ _ => rfl, (sub_self _).trans (sub_self _).symm⟩
  have hne : ∀ states, assignStates states legs ≠ [] := by
    intro states
    simpa [assignStates] using hnil
  obtain ⟨hweight, hcash⟩ :=
    allocate_unstepped std cfg (hne states) (causalVol_assignStates std cfg hvols) hr
  obtain ⟨hweight', hcash'⟩ :=
    allocate_unstepped std cfg (hne states') (causalVol_assignStates std cfg hvols) hr'
  simp only [cappedFull_assignStates] at hweight hweight'
  refine ⟨fun leg => ?_, fun leg hstate => ?_, ?_⟩
  · rw [hweight, hweight']
    exact mul_right_comm _ _ _
  · rw [hweight, hweight', sizingOf, sizingOf, hstate]
  · rw [hcash, hcash']
    exact sub_sub_sub_cancel_left _ _ _

/-- `np.std(xs, ddof=1)`, for returns whose variance is the square of a rational. -/
def sampleStd (xs : List ℚ) : ℚ :=
  let mean : ℚ := xs.sum / xs.length
  let variance : ℚ := (xs.map fun x => (x - mean) ^ 2).sum / (xs.length - 1)
  Nat.sqrt variance.num.toNat / Nat.sqrt variance.den

/-- A leg whose returns over three weeks deviate by `vol`. -/
def threeWeekLeg (legId cluster : String) (vol : ℚ) : LegInput where
  legId := legId
  cluster := cluster
  returns := [vol, 2 * vol, 3 * vol]
  oosVol := vol

/-- Two short-volatility legs. -/
def siblings : List LegInput :=
  [threeWeekLeg "S1" "SHORTVOL" (1 / 100), threeWeekLeg "S2" "SHORTVOL" (1 / 50)]

/-- The first is put in `WATCH`; the second keeps its weight. -/
theorem watch_frees_to_cash : ∃ r r',
    allocate sampleStd .standard (assignStates (fun _ => "ACTIVE") siblings) false = some r ∧
    allocate sampleStd .standard
      (assignStates (fun i => if i = 0 then "WATCH" else "ACTIVE") siblings) false = some r' ∧
    r'.weightOf "S2" = r.weightOf "S2" ∧ r'.cashShare - r.cashShare = r.deployed - r'.deployed := by
  obtain ⟨r, hr⟩ := Option.isSome_iff_exists.mp (show (allocate sampleStd .standard
    (assignStates (fun _ => "ACTIVE") siblings) false).isSome = true by decide +kernel)
  obtain ⟨hsome, hboth⟩ := freed_budget_to_cash sampleStd .standard siblings (by decide +kernel)
    (fun _ => "ACTIVE") (fun i => if i = 0 then "WATCH" else "ACTIVE")
  obtain ⟨r', hr'⟩ := Option.isSome_iff_exists.mp (hsome ▸ Option.isSome_of_eq_some hr)
  obtain ⟨-, hsame, hcash⟩ := hboth r r' hr hr'
  exact ⟨r, r', hr, hr', hsame "S2" (by decide +kernel), hcash⟩

end TradingPlatform.Portfolio
