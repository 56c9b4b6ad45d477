import TradingPlatform.Portfolio.Entitlement

/-! # Monthly rebalances

Each rebalance starts from the weights of the one before. The step cap comes
after the caps, and no cap comes after it: a leg that falls by more than a step
is held back above what it is entitled to, with weight that its cluster's headroom,
or the book's, may not hold. -/

namespace TradingPlatform.Portfolio

open TradingPlatform.Lib TradingPlatform.Lib.Runs

structure Rebalance where
  legs : List LegInput
  stepCap : Bool

/-- Each leg's prior weight is its weight in the previous result. -/
def carryPrior (prior : Dict String ℚ) (legs : List LegInput) : List LegInput :=
  legs.map fun leg => { leg with priorWeight := (prior.get? leg.legId).getD 0 }

/-- What a result should be. -/
structure Respects (cfg : PortfolioConfig) (clusters : Dict String String) (r : AllocationResult) :
    Prop where
  nonneg : Nonneg r.weights
  leg : ∀ l w, r.weights.get? l = some w → w ≤ cfg.maxLeg
  cluster : ∀ cl, clusterSum clusters cl r.weights ≤ cfg.clusterCap cl
  total : r.deployed + r.cashShare = 1

section Rebalances
variable (std : List ℚ → ℚ) (cfg : PortfolioConfig)

def rebalance (prior : Dict String ℚ) (c : Rebalance) : Option AllocationResult :=
  allocate std cfg (carryPrior prior c.legs) c.stepCap

/-- A rebalance that raises leaves the weights as they were. -/
def step (prior : Dict String ℚ) (c : Rebalance) : Dict String ℚ :=
  ((rebalance std cfg prior c).map (·.weights)).getD prior

/-- The weight beyond its target that a falling leg keeps. -/
def keptBack (tw pw : ℚ) : ℚ := max 0 (pw - cfg.maxStep - tw)

/-- The weight of its target that a rising leg goes without. -/
def withheld (tw pw : ℚ) : ℚ := max 0 (tw - pw - cfg.maxStep)

/-- What falling legs keep fits into the headroom that the targets leave and
what rising legs go without, in each cluster and in the book. -/
def StepFits (prior : Dict String ℚ) (c : Rebalance) : Prop :=
  let legs := carryPrior prior c.legs
  let target := targetWeights std cfg legs
  let prior (l : String) : ℚ := ((priorOf legs).get? l).getD 0
  (∀ cl, (target.total fun l tw =>
      if (clustersOf legs).get? l = some cl then keptBack cfg tw (prior l) else 0) ≤
    cfg.clusterCap cl - clusterSum (clustersOf legs) cl target + target.total fun l tw =>
      if (clustersOf legs).get? l = some cl then withheld cfg tw (prior l) else 0) ∧
  (target.total fun l tw => keptBack cfg tw (prior l)) ≤
    1 - (target.total fun _ tw => tw) + target.total fun l tw => withheld cfg tw (prior l)

/-- The step cap holds no leg back: none comes from more than a step above its
entitlement. Where two legs share an id, none comes from more than a step. -/
def NoneHeldBack (legs : List LegInput) : Prop :=
  ((legs.map LegInput.legId).Nodup ∧
    ∀ leg ∈ legs, leg.priorWeight ≤ entitlement std cfg legs leg + cfg.maxStep) ∨
  ∀ leg ∈ legs, leg.priorWeight ≤ cfg.maxStep

instance (legs : List LegInput) : Decidable (NoneHeldBack std cfg legs) :=
  inferInstanceAs (Decidable (_ ∨ _))

end Rebalances

section Proofs
variable {std : List ℚ → ℚ} {cfg : PortfolioConfig}

theorem stepTo_eq {tw pw : ℚ} (htw : 0 ≤ tw) (hpw : 0 ≤ pw) :
    stepTo cfg tw pw + withheld cfg tw pw = tw + keptBack cfg tw pw := by
  have hstep := cfg.maxStep_nonneg
  unfold stepTo withheld keptBack
  dsimp only
  rcases lt_or_ge cfg.maxStep |tw - pw| with hover | hwithin
  · rw [if_pos hover]
    rcases lt_abs.mp hover with hrise | hfall
    · rw [if_pos (by linarith), max_eq_right (by linarith), max_eq_right (by linarith),
        max_eq_left (by linarith)]
      linarith
    · rw [if_neg (by linarith), max_eq_right (by linarith), max_eq_left (by linarith),
        max_eq_right (by linarith)]
      linarith
  · obtain ⟨hlow, hhigh⟩ := abs_le.mp hwithin
    rw [if_neg hwithin.not_gt, max_eq_right htw, max_eq_left (by linarith),
      max_eq_left (by linarith)]

theorem stepTo_le {tw pw : ℚ} (hleg : tw ≤ cfg.maxLeg) (hprior : pw ≤ cfg.maxLeg) :
    stepTo cfg tw pw ≤ cfg.maxLeg := by
  have hstep := cfg.maxStep_nonneg
  unfold stepTo
  refine max_le cfg.maxLeg_nonneg ?_
  split
  · rename_i hover
    split
    · rename_i hrise
      rw [abs_of_pos hrise] at hover
      linarith
    · linarith
  · exact hleg

/-- Weights a rebalance may start from. -/
def Bounded (cfg : PortfolioConfig) (W : Dict String ℚ) : Prop :=
  ∀ l w, W.get? l = some w → 0 ≤ w ∧ w ≤ cfg.maxLeg

theorem Bounded.getD {W : Dict String ℚ} (h : Bounded cfg W) (l : String) :
    0 ≤ (W.get? l).getD 0 ∧ (W.get? l).getD 0 ≤ cfg.maxLeg := by
  cases hw : W.get? l with
  | none => exact ⟨le_refl _, cfg.maxLeg_nonneg⟩
  | some w => exact h l w hw

theorem bounded_priorOf {prior : Dict String ℚ} (h : Bounded cfg prior) (legs : List LegInput) :
    Bounded cfg (priorOf (carryPrior prior legs)) := by
  intro l w hw
  obtain ⟨leg, hleg, -, rfl⟩ := Dict.mem_of_tabulate _ hw
  obtain ⟨leg', -, rfl⟩ := List.mem_map.mp hleg
  exact h.getD leg'.legId

variable (std cfg) in
theorem causalVol_carryPrior (prior : Dict String ℚ) {legs : List LegInput}
    (h : ∀ leg ∈ legs, 0 < causalVol std cfg leg.returns leg.oosVol) :
    ∀ leg ∈ carryPrior prior legs, 0 < causalVol std cfg leg.returns leg.oosVol := by
  intro leg hleg
  obtain ⟨leg', hmem, rfl⟩ := List.mem_map.mp hleg
  exact h leg' hmem

variable (cfg) in
/-- What the step cap does to any part of the book. -/
theorem total_applyStepCap {target prior : Dict String ℚ} (htarget : Nonneg target)
    (hprior : ∀ l, 0 ≤ (prior.get? l).getD 0) (part : String → Prop) [DecidablePred part] :
    ((applyStepCap cfg target prior).total fun l w => if part l then w else 0) +
        (target.total fun l tw =>
          if part l then withheld cfg tw ((prior.get? l).getD 0) else 0) =
      (target.total fun l tw => if part l then tw else 0) + target.total fun l tw =>
        if part l then keptBack cfg tw ((prior.get? l).getD 0) else 0 := by
  unfold applyStepCap
  rw [Dict.total_mapValues, ← Dict.total_add, ← Dict.total_add]
  refine Dict.total_congr _ fun l tw htw => ?_
  split
  · exact stepTo_eq (htarget l tw htw) (hprior l)
  · rfl

theorem applyStepCap_bounded {target prior : Dict String ℚ}
    (htarget : ∀ l w, target.get? l = some w → w ≤ cfg.maxLeg) (hprior : Bounded cfg prior) :
    Bounded cfg (applyStepCap cfg target prior) := by
  intro l w hw
  unfold applyStepCap at hw
  rw [Dict.get?_mapValues, Option.map_eq_some_iff] at hw
  obtain ⟨tw, htw, rfl⟩ := hw
  exact ⟨le_max_left _ _, stepTo_le (htarget l tw htw) (hprior.getD l).2⟩

theorem deployed_add_cash {W : Dict String ℚ} :
    (W.total fun _ w => w) + max 0 (1 - W.total fun _ w => w) = 1 ↔
      (W.total fun _ w => w) ≤ 1 := by
  constructor
  · intro h
    have hle := le_max_left 0 (1 - W.total fun _ w => w)
    linarith
  · intro h
    rw [max_eq_right (sub_nonneg.mpr h)]
    exact add_sub_cancel _ _

/-- The step cap has nothing to do where there is no leg. -/
theorem stepFits_nil (prior : Dict String ℚ) (c : Rebalance) (h : c.legs = []) :
    StepFits std cfg prior c := by
  have htarget : targetWeights std cfg (carryPrior prior c.legs) = .empty := by
    rw [h]
    rfl
  unfold StepFits clusterSum
  dsimp only
  rw [htarget]
  simp only [Dict.total_empty, sub_zero, add_zero]
  exact ⟨fun cl => clusterCap_nonneg cl, zero_le_one⟩

/-- With the cash that a rebalance holds, respecting the caps is being capped. -/
theorem respects_iff_capped {clusters : Dict String String} {r : AllocationResult}
    (hcash : r.cashShare = max 0 (1 - r.weights.total fun _ w => w)) :
    Respects cfg clusters r ↔ Capped cfg clusters r.weights := by
  constructor
  · intro h
    have htotal := h.total
    rw [hcash] at htotal
    exact ⟨h.nonneg, h.leg, h.cluster, deployed_add_cash.mp htotal⟩
  · intro h
    refine ⟨h.nonneg, h.leg, h.cluster, ?_⟩
    rw [hcash]
    exact deployed_add_cash.mpr h.total

/-- From capped targets the step cap ends capped exactly when what falling legs
keep fits. -/
theorem applyStepCap_capped_iff {prior : Dict String ℚ} {c : Rebalance} (hprior : Bounded cfg prior)
    (hcapped : Capped cfg (clustersOf (carryPrior prior c.legs))
      (targetWeights std cfg (carryPrior prior c.legs))) :
    Capped cfg (clustersOf (carryPrior prior c.legs))
        (applyStepCap cfg (targetWeights std cfg (carryPrior prior c.legs))
          (priorOf (carryPrior prior c.legs))) ↔
      StepFits std cfg prior c := by
  have hlegs := bounded_priorOf hprior c.legs
  have hbounded := applyStepCap_bounded hcapped.leg hlegs
  have hpart : ∀ (part : String → Prop) [DecidablePred part], _ := fun part _ =>
    total_applyStepCap cfg hcapped.nonneg (fun l => (hlegs.getD l).1) part
  have hbook := hpart fun _ => True
  simp only [if_true] at hbook
  have hcluster : ∀ cl, _ := fun cl =>
    hpart fun l => (clustersOf (carryPrior prior c.legs)).get? l = some cl
  constructor
  · intro h
    refine ⟨fun cl => ?_, ?_⟩
    · have hle := h.cluster cl
      have heq := hcluster cl
      unfold clusterSum at hle ⊢
      linarith
    · have hle := h.total
      linarith
  · intro hfits
    obtain ⟨hclusters, htotal⟩ := hfits
    refine ⟨fun l w hw => (hbounded l w hw).1, fun l w hw => (hbounded l w hw).2, fun cl => ?_, ?_⟩
    · have hle := hclusters cl
      have heq := hcluster cl
      unfold clusterSum at hle ⊢
      linarith
    · linarith

/-- **One rebalance** from bounded weights: without the step cap its result is
within every cap; with it, exactly when what falling legs keep fits. -/
theorem respects_iff {prior : Dict String ℚ} {c : Rebalance} {r : AllocationResult}
    (hprior : Bounded cfg prior)
    (hvols : ∀ leg ∈ c.legs, 0 < causalVol std cfg leg.returns leg.oosVol)
    (hr : rebalance std cfg prior c = some r) :
    Bounded cfg r.weights ∧ (Respects cfg (clustersOf (carryPrior prior c.legs)) r ↔
      (c.stepCap = true → StepFits std cfg prior c)) := by
  have hcapped :=
    targetWeights_capped std cfg (volsOf_nonneg (causalVol_carryPrior std cfg prior hvols))
  unfold rebalance allocate at hr
  split at hr
  · rename_i hnil
    have hlegs : c.legs = [] := List.map_eq_nil_iff.mp hnil
    cases hr
    refine ⟨nofun, iff_of_true ⟨nofun, nofun, fun cl => clusterCap_nonneg cl, ?_⟩
      fun _ => stepFits_nil prior c hlegs⟩
    exact zero_add 1
  split at hr
  · cases hstep : c.stepCap with
    | false =>
      simp only [hstep, Bool.false_eq_true, if_false, Option.some.injEq] at hr
      subst hr
      exact ⟨fun l w hw => ⟨hcapped.nonneg l w hw, hcapped.leg l w hw⟩,
        iff_of_true ((respects_iff_capped rfl).mpr hcapped) nofun⟩
    | true =>
      simp only [hstep, if_true, Option.some.injEq] at hr
      subst hr
      refine ⟨applyStepCap_bounded hcapped.leg (bounded_priorOf hprior c.legs), ?_⟩
      rw [respects_iff_capped rfl, applyStepCap_capped_iff hprior hcapped]
      simp only [true_implies]
  · cases hr

theorem bounded_step {prior : Dict String ℚ} {c : Rebalance} (hprior : Bounded cfg prior)
    (hvols : ∀ leg ∈ c.legs, 0 < causalVol std cfg leg.returns leg.oosVol) :
    Bounded cfg (step std cfg prior c) := by
  unfold step
  cases hr : rebalance std cfg prior c with
  | none => exact hprior
  | some r => exact (respects_iff hprior hvols hr).1

/-- Where no leg is held back, nothing is kept back. -/
theorem keptBack_eq_zero {legs : List LegInput} (hcapped : Nonneg (targetWeights std cfg legs))
    (h : NoneHeldBack std cfg legs) {l : String} {tw : ℚ}
    (htw : (targetWeights std cfg legs).get? l = some tw) :
    keptBack cfg tw (((priorOf legs).get? l).getD 0) = 0 := by
  refine max_eq_left ?_
  have hstep := cfg.maxStep_nonneg
  have hnonneg := hcapped l tw htw
  cases hprior : (priorOf legs).get? l with
  | none =>
    rw [Option.getD_none]
    linarith
  | some pw =>
    obtain ⟨leg, hleg, rfl, rfl⟩ := Dict.mem_of_tabulate _ hprior
    rw [Option.getD_some]
    rcases h with ⟨hnodup, hall⟩ | hall
    · rw [get?_targetWeights hnodup hleg] at htw
      obtain rfl := Option.some.inj htw
      have hle := hall leg hleg
      linarith
    · have hle := hall leg hleg
      linarith

theorem total_keptBack_eq_zero {legs : List LegInput}
    (hcapped : Nonneg (targetWeights std cfg legs)) (h : NoneHeldBack std cfg legs) (part : String → Prop) [DecidablePred part] :
    ((targetWeights std cfg legs).total fun l tw =>
      if part l then keptBack cfg tw (((priorOf legs).get? l).getD 0) else 0) = 0 := by
  refine List.sum_eq_zero fun q hq => ?_
  obtain ⟨p, hp, rfl⟩ := List.mem_map.mp hq
  dsimp only
  rw [keptBack_eq_zero hcapped h ((Dict.get?_eq_some _).mpr hp), ite_self]

theorem total_withheld_nonneg (target prior : Dict String ℚ) (part : String → Prop)
    [DecidablePred part] : 0 ≤ target.total fun l tw =>
      if part l then withheld cfg tw ((prior.get? l).getD 0) else 0 := by
  refine target.total_nonneg fun l tw _ => ?_
  split
  · exact le_max_left _ _
  · exact le_refl _

theorem NoneHeldBack.stepFits {prior : Dict String ℚ} {c : Rebalance}
    (hcapped : Capped cfg (clustersOf (carryPrior prior c.legs))
      (targetWeights std cfg (carryPrior prior c.legs)))
    (h : NoneHeldBack std cfg (carryPrior prior c.legs)) : StepFits std cfg prior c := by
  have hkept : ∀ (part : String → Prop) [DecidablePred part], _ :=
    fun part _ => total_keptBack_eq_zero hcapped.nonneg h part
  have hwithheld : ∀ (part : String → Prop) [DecidablePred part],
      0 ≤ (targetWeights std cfg (carryPrior prior c.legs)).total fun l tw =>
        if part l then withheld cfg tw (((priorOf (carryPrior prior c.legs)).get? l).getD 0)
        else 0 :=
    fun part _ => total_withheld_nonneg _ _ part
  refine ⟨fun cl => ?_, ?_⟩
  · have hroom := hcapped.cluster cl
    have hnone := hkept fun l => (clustersOf (carryPrior prior c.legs)).get? l = some cl
    have hless := hwithheld fun l => (clustersOf (carryPrior prior c.legs)).get? l = some cl
    linarith
  · have hroom := hcapped.total
    have hnone := hkept fun _ => True
    have hless := hwithheld fun _ => True
    simp only [if_true] at hnone hless
    linarith

end Proofs

/-- **Caps along any run of rebalances** hold when, in each step-capped one, no leg
is held back above its entitlement. -/
theorem rebalances_respect_caps (std : List ℚ → ℚ) (cfg : PortfolioConfig) (calls : List Rebalance)
    (hvols : ∀ c ∈ calls, ∀ leg ∈ c.legs, 0 < causalVol std cfg leg.returns leg.oosVol)
    (hsteps : Along (step std cfg) (fun prior c => c.stepCap = true →
      NoneHeldBack std cfg (carryPrior prior c.legs)) .empty calls) :
    Along (step std cfg) (fun prior c => ∀ r, rebalance std cfg prior c = some r →
      Respects cfg (clustersOf (carryPrior prior c.legs)) r) .empty calls := by
  have hempty : Bounded cfg (.empty : Dict String ℚ) := nofun
  refine (along_congr_of (I := Bounded cfg)
    (G := fun prior c => (∀ leg ∈ c.legs, 0 < causalVol std cfg leg.returns leg.oosVol) ∧
      (c.stepCap = true → NoneHeldBack std cfg (carryPrior prior c.legs)))
    (fun prior c hprior hc => bounded_step hprior hc.1) (fun prior c hprior hc => ?_) calls hempty
    (along_and (along_of_forall _ hvols) hsteps)).mpr hsteps
  obtain ⟨hvol, hnone⟩ := hc
  refine iff_of_true (fun r hr => (respects_iff hprior hvol hr).2.mpr fun hstep => ?_) hnone
  exact (hnone hstep).stepFits
    (targetWeights_capped std cfg (volsOf_nonneg (causalVol_carryPrior std cfg prior hvol)))

/-- Leg `A` alone; then `A` in `SAFE_MODE`, its returns wild, beside two new legs
of its cluster. -/
def safeModeRotation : List Rebalance :=
  [⟨[threeWeekLeg "A" "TREND" (1 / 100)], false⟩,
   ⟨[{ threeWeekLeg "A" "TREND" (49 / 100) with state := "SAFE_MODE" },
     threeWeekLeg "B" "TREND" (1 / 100), threeWeekLeg "C" "TREND" (1 / 100)], true⟩]

/-- The cluster ends above its cap. -/
theorem step_cap_breaks_cluster_cap :
    ¬ Along (step sampleStd .standard) (fun prior c => ∀ r,
      rebalance sampleStd .standard prior c = some r →
        Respects .standard (clustersOf (carryPrior prior c.legs)) r) .empty safeModeRotation := by
  intro h
  obtain ⟨-, hsecond, -⟩ := h
  have hover : (rebalance sampleStd .standard (step sampleStd .standard .empty safeModeRotation[0])
      safeModeRotation[1]).any (fun r => PortfolioConfig.standard.clusterCap "TREND" <
        clusterSum (clustersOf (carryPrior (step sampleStd .standard .empty safeModeRotation[0])
          safeModeRotation[1].legs)) "TREND" r.weights) = true := by
    decide +kernel
  obtain ⟨r, hr, hlt⟩ := (Option.any_eq_true _ _).mp hover
  exact absurd ((hsecond r hr).cluster "TREND") (not_le.mpr (of_decide_eq_true hlt))

/-- The second leg in `WATCH`, beside a new leg that a step cap lets in by a step. -/
def watchRotation : List Rebalance :=
  [⟨siblings, false⟩,
   ⟨[siblings[0], { siblings[1] with state := "WATCH" }, threeWeekLeg "T" "TREND" (1 / 100)], true⟩]

/-- No leg comes down by more than a step. -/
theorem watch_rotation_respects_caps :
    Along (step sampleStd .standard) (fun prior c => ∀ r,
      rebalance sampleStd .standard prior c = some r →
        Respects .standard (clustersOf (carryPrior prior c.legs)) r) .empty watchRotation := by
  refine rebalances_respect_caps sampleStd .standard watchRotation ?_ ⟨?_, ?_, trivial⟩
  · decide +kernel
  · decide +kernel
  · decide +kernel

end TradingPlatform.Portfolio
