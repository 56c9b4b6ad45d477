import TradingPlatform.Portfolio.ClusterBrain

/-! # What a leg is entitled to

A share by inverse volatility, cut at the caps and sized by the leg's state. In a book
whose legs have an id each, it is the weight the allocator aims at before the step cap. -/

namespace TradingPlatform.Portfolio

open TradingPlatform.Lib

section Entitlement
variable (std : List ℚ → ℚ) (cfg : PortfolioConfig) (legs : List LegInput)

def legVol (leg : LegInput) : ℚ := causalVol std cfg leg.returns leg.oosVol

def membersOf (cl : String) : List LegInput := legs.filter (·.cluster = cl)

def clusterNames : List String := (Dict.groupBy LegInput.cluster legs).items.map Prod.fst

def clusterVol (cl : String) : ℚ := clusterVolOf std (volsOf std cfg legs) (membersOf legs cl)

/-- A cluster's share of the book, and a leg's of that. -/
def inverseVolShare (leg : LegInput) : ℚ :=
  (1 / clusterVol std cfg legs leg.cluster) /
      ((clusterNames legs).map fun cl => 1 / clusterVol std cfg legs cl).sum *
    (1 / legVol std cfg leg) /
      ((membersOf legs leg.cluster).map fun member => 1 / legVol std cfg member).sum

def cutShare (leg : LegInput) : ℚ := min (inverseVolShare std cfg legs leg) cfg.maxLeg

/-- How far a cluster is scaled down to its cap. -/
def clusterScale (cl : String) : ℚ :=
  let total := ((membersOf legs cl).map (cutShare std cfg legs)).sum
  if cfg.clusterCap cl < total ∧ 0 < total then cfg.clusterCap cl / total else 1

def entitlement (leg : LegInput) : ℚ :=
  cutShare std cfg legs leg * clusterScale std cfg legs leg.cluster * stateSizing leg.state

end Entitlement

section Targets
variable {std : List ℚ → ℚ} {cfg : PortfolioConfig} {legs : List LegInput}

theorem get?_tabulate_legs {ν : Type*} (val : LegInput → ν)
    (hnodup : (legs.map LegInput.legId).Nodup) {leg : LegInput} (hleg : leg ∈ legs) :
    (Dict.tabulate LegInput.legId val legs).get? leg.legId = some (val leg) := by
  rw [Dict.get?_tabulate, (Dict.get?_keyBy_of_nodup LegInput.legId hnodup).mpr ⟨hleg, rfl⟩,
    Option.map_some]

theorem total_tabulate_legs (val : LegInput → ℚ) (hnodup : (legs.map LegInput.legId).Nodup) :
    ((Dict.tabulate LegInput.legId val legs).total fun _ v => v) = (legs.map val).sum := by
  have hsum := (Dict.tabulate LegInput.legId val legs).sum_getD hnodup
  rw [List.map_map] at hsum
  calc ((Dict.tabulate LegInput.legId val legs).total fun _ v => v)
      = (Dict.tabulate LegInput.legId val legs).total fun k v =>
          if k ∈ legs.map LegInput.legId then v else 0 := by
        refine Dict.total_congr _ fun k v hv => ?_
        obtain ⟨leg, hleg, rfl, -⟩ := Dict.mem_of_tabulate _ hv
        rw [if_pos (List.mem_map_of_mem hleg)]
    _ = (legs.map val).sum := by
        rw [← hsum]
        refine congrArg List.sum (List.map_congr_left fun leg hleg => ?_)
        rw [Function.comp_apply, get?_tabulate_legs val hnodup hleg, Option.getD_some]

theorem inverseVol_volsOf (hnodup : (legs.map LegInput.legId).Nodup) {leg : LegInput}
    (hleg : leg ∈ legs) : inverseVol (volsOf std cfg legs) leg = 1 / legVol std cfg leg := by
  rw [inverseVol, volsOf, get?_tabulate_legs _ hnodup hleg, Option.getD_some]
  rfl

theorem nodup_membersOf (hnodup : (legs.map LegInput.legId).Nodup) (cl : String) :
    ((membersOf legs cl).map LegInput.legId).Nodup :=
  hnodup.sublist (List.filter_sublist.map _)

theorem get?_clusterBudgetsOf {cl : String} (hne : membersOf legs cl ≠ []) :
    (clusterBudgetsOf std (volsOf std cfg legs) (Dict.groupBy LegInput.cluster legs)).get? cl =
      some ((1 / clusterVol std cfg legs cl) /
        ((clusterNames legs).map fun cl => 1 / clusterVol std cfg legs cl).sum) := by
  have htotal : ((Dict.groupBy LegInput.cluster legs).total fun _ members =>
      1 / clusterVolOf std (volsOf std cfg legs) members) =
      ((clusterNames legs).map fun cl => 1 / clusterVol std cfg legs cl).sum := by
    rw [Dict.total, clusterNames, List.map_map]
    refine congrArg List.sum (List.map_congr_left fun group hgroup => ?_)
    rw [(Dict.mem_groupBy LegInput.cluster hgroup).1]
    rfl
  have hmembers : legs.filter (·.cluster = cl) ≠ [] := hne
  rw [clusterBudgetsOf, Dict.get?_mapValues, Dict.get?_mapValues, Dict.total_mapValues, htotal,
    Dict.get?_groupBy, if_neg hmembers]
  rfl

/-- Of all groups, only one names the leg. -/
theorem get?_setGroups {val : String × List LegInput → LegInput → ℚ} {legId : String} {v : ℚ}
    {groups : List (String × List LegInput)}
    (hval : ∀ g ∈ groups, ∀ m ∈ g.2, m.legId = legId → val g m = v) (raw : Dict String ℚ)
    (h : raw.get? legId = some v ∨ ∃ g ∈ groups, ∃ m ∈ g.2, m.legId = legId) :
    (groups.foldl (fun raw g => raw.setAll LegInput.legId (val g) g.2) raw).get? legId =
      some v := by
  induction groups generalizing raw with
  | nil =>
    rcases h with h | ⟨g, hg, -⟩
    · exact h
    · cases hg
  | cons g groups ih =>
    refine ih (fun g' hg' => hval g' (List.mem_cons_of_mem _ hg')) _ ?_
    rw [Dict.get?_setAll]
    cases htable : (Dict.tabulate LegInput.legId (val g) g.2).get? legId with
    | some w =>
      obtain ⟨m, hm, hid, rfl⟩ := Dict.mem_of_tabulate _ htable
      exact Or.inl (by rw [hval g List.mem_cons_self m hm hid, Option.some_or])
    | none =>
      rcases h with h | ⟨g', hg', m, hm, rfl⟩
      · exact Or.inl (by rw [Option.none_or, h])
      · rcases List.mem_cons.mp hg' with rfl | hrest
        · obtain ⟨w, hw⟩ := Dict.exists_of_mem_tabulate LegInput.legId (val g') hm
          rw [htable] at hw
          cases hw
        · exact Or.inr ⟨g', hrest, m, hm, rfl⟩

theorem get?_rawWeights (hnodup : (legs.map LegInput.legId).Nodup) {leg : LegInput}
    (hleg : leg ∈ legs) :
    (rawWeights (volsOf std cfg legs) (Dict.groupBy LegInput.cluster legs)
      (clusterBudgetsOf std (volsOf std cfg legs) (Dict.groupBy LegInput.cluster legs))).get?
        leg.legId = some (inverseVolShare std cfg legs leg) := by
  have hmem : leg ∈ membersOf legs leg.cluster := List.mem_filter.mpr ⟨hleg, by simp⟩
  have hgroup : (leg.cluster, membersOf legs leg.cluster) ∈
      (Dict.groupBy LegInput.cluster legs).items := by
    rw [← Dict.get?_eq_some, Dict.get?_groupBy]
    exact if_neg (List.ne_nil_of_mem hmem)
  refine get?_setGroups (fun g hg m hm hid => ?_) .empty
    (Or.inr ⟨_, hgroup, leg, hmem, rfl⟩)
  obtain ⟨cl, members⟩ := g
  obtain ⟨rfl, hne⟩ := Dict.mem_groupBy LegInput.cluster hg
  obtain ⟨hmlegs, hcl⟩ := List.mem_filter.mp hm
  obtain rfl : m = leg := List.inj_on_of_nodup_map hnodup hmlegs hleg hid
  obtain rfl : m.cluster = cl := by simpa using hcl
  have hown := nodup_membersOf hnodup m.cluster
  have hinverse : (membersOf legs m.cluster).map (inverseVol (volsOf std cfg legs)) =
      (membersOf legs m.cluster).map fun member => 1 / legVol std cfg member :=
    List.map_congr_left fun member hmember =>
      inverseVol_volsOf hnodup (List.mem_filter.mp hmember).1
  have htotal := total_tabulate_legs (inverseVol (volsOf std cfg legs)) hown
  have hget := get?_tabulate_legs (inverseVol (volsOf std cfg legs)) hown hmem
  rw [hinverse] at htotal
  rw [inverseVol_volsOf hnodup hleg] at hget
  change ((clusterBudgetsOf std (volsOf std cfg legs) (Dict.groupBy LegInput.cluster legs)).get?
    m.cluster).getD 0 * ((Dict.tabulate LegInput.legId (inverseVol (volsOf std cfg legs))
      (membersOf legs m.cluster)).get? m.legId).getD 0 /
        ((Dict.tabulate LegInput.legId (inverseVol (volsOf std cfg legs))
          (membersOf legs m.cluster)).total fun _ v => v) = _
  rw [get?_clusterBudgetsOf hne, hget, htotal, Option.getD_some, Option.getD_some]
  rfl

/-! ## Caps -/

/-- The factor of one turn in the caps. -/
def turnScale (cfg : PortfolioConfig) (W : Dict String ℚ) (cl : String) (ids : List String) : ℚ :=
  let total := (ids.map fun l => (W.get? l).getD 0).sum
  if cfg.clusterCap cl < total ∧ 0 < total then cfg.clusterCap cl / total else 1

theorem get?_capCluster (W : Dict String ℚ) (cl : String) (ids : List String) (l : String) :
    (capCluster cfg W cl ids).get? l =
      (W.get? l).map fun w => if l ∈ ids then w * turnScale cfg W cl ids else w := by
  unfold capCluster turnScale
  dsimp only
  split
  · exact W.get?_mapValues _ l
  · simp only [mul_one, ite_self]
    exact Option.map_id'.symm

theorem get?_capClusters_of_notMem {groups : List (String × List String)} {l : String}
    (h : ∀ g ∈ groups, l ∉ g.2) (W : Dict String ℚ) :
    (groups.foldl (fun W g => capCluster cfg W g.1 g.2) W).get? l = W.get? l := by
  induction groups generalizing W with
  | nil => rfl
  | cons g groups ih =>
    have hg := h g List.mem_cons_self
    rw [List.foldl_cons, ih fun g' hg' => h g' (List.mem_cons_of_mem _ hg'), get?_capCluster]
    simp only [if_neg hg]
    exact Option.map_id'

/-- A leg is scaled in its own cluster's turn alone, by what the cluster holds
at the start. -/
theorem get?_capClusters {groups : List (String × List String)}
    (hdisjoint : groups.Pairwise fun g g' => ∀ l ∈ g.2, l ∉ g'.2) {cl : String}
    {ids : List String} (hgroup : (cl, ids) ∈ groups) {l : String} (hl : l ∈ ids)
    (W : Dict String ℚ) :
    (groups.foldl (fun W g => capCluster cfg W g.1 g.2) W).get? l =
      (W.get? l).map (· * turnScale cfg W cl ids) := by
  induction groups generalizing W with
  | nil => cases hgroup
  | cons g groups ih =>
    obtain ⟨hhead, hrest⟩ := List.pairwise_cons.mp hdisjoint
    rw [List.foldl_cons]
    rcases List.mem_cons.mp hgroup with rfl | hgroup
    · rw [get?_capClusters_of_notMem fun g' hg' => hhead g' hg' l hl, get?_capCluster]
      simp only [if_pos hl]
    · have hkept : ∀ l' ∈ ids, (capCluster cfg W g.1 g.2).get? l' = W.get? l' := by
        intro l' hl'
        rw [get?_capCluster]
        simp only [if_neg fun hmem => hhead _ hgroup l' hmem hl']
        exact Option.map_id'
      have hscale : turnScale cfg (capCluster cfg W g.1 g.2) cl ids = turnScale cfg W cl ids := by
        unfold turnScale
        rw [List.map_congr_left fun l' hl' => congrArg (Option.getD · 0) (hkept l' hl')]
      rw [ih hrest hgroup, hscale, hkept l hl]

theorem byCluster_disjoint (clusters : Dict String String) :
    (byCluster clusters).items.Pairwise fun g g' => ∀ l ∈ g.2, l ∉ g'.2 := by
  refine ((List.pairwise_map.mp (byCluster clusters).nodup).imp_of_mem ?_)
  intro g g' hg hg' hne l hl hl'
  have h := ((mem_byCluster ((Dict.get?_eq_some _).mpr hg)).2 l).mp hl
  have h' := ((mem_byCluster ((Dict.get?_eq_some _).mpr hg')).2 l).mp hl'
  exact hne (Option.some.inj (h.symm.trans h'))

/-- A cluster's ids, in the order the caps take them. -/
theorem exists_byCluster (hnodup : (legs.map LegInput.legId).Nodup) {leg : LegInput}
    (hleg : leg ∈ legs) : ∃ ids, (leg.cluster, ids) ∈ (byCluster (clustersOf legs)).items ∧
      ids.Perm ((membersOf legs leg.cluster).map LegInput.legId) := by
  have hcluster : ∀ l cl, (clustersOf legs).get? l = some cl ↔
      l ∈ (membersOf legs cl).map LegInput.legId := by
    intro l cl
    unfold clustersOf membersOf
    constructor
    · intro h
      obtain ⟨m, hm, rfl, rfl⟩ := Dict.mem_of_tabulate _ h
      exact List.mem_map_of_mem (List.mem_filter.mpr ⟨hm, by simp⟩)
    · intro h
      obtain ⟨m, hm, rfl⟩ := List.mem_map.mp h
      obtain ⟨hm, hcl⟩ := List.mem_filter.mp hm
      rw [get?_tabulate_legs _ hnodup hm]
      exact congrArg some (by simpa using hcl)
  have hown : (clustersOf legs).get? leg.legId = some leg.cluster :=
    get?_tabulate_legs LegInput.cluster hnodup hleg
  cases hids : (byCluster (clustersOf legs)).get? leg.cluster with
  | none => exact absurd hown (byCluster_none hids leg.legId)
  | some ids =>
    obtain ⟨hidsNodup, hmem⟩ := mem_byCluster hids
    refine ⟨ids, (Dict.get?_eq_some _).mp hids, ?_⟩
    refine (List.perm_ext_iff_of_nodup hidsNodup (nodup_membersOf hnodup _)).mpr fun l => ?_
    rw [hmem, hcluster]

/-- **In a book of distinct legs the allocator aims at the entitlements.** -/
theorem get?_targetWeights (hnodup : (legs.map LegInput.legId).Nodup) {leg : LegInput}
    (hleg : leg ∈ legs) :
    (targetWeights std cfg legs).get? leg.legId = some (entitlement std cfg legs leg) := by
  have hcut : ∀ m ∈ legs, ((rawWeights (volsOf std cfg legs) (Dict.groupBy LegInput.cluster legs)
      (clusterBudgetsOf std (volsOf std cfg legs)
        (Dict.groupBy LegInput.cluster legs))).mapValues fun _ w => min w cfg.maxLeg).get? m.legId =
      some (cutShare std cfg legs m) := by
    intro m hm
    rw [Dict.get?_mapValues, get?_rawWeights hnodup hm]
    rfl
  obtain ⟨ids, hgroup, hperm⟩ := exists_byCluster hnodup hleg
  have hmem : leg.legId ∈ ids := hperm.mem_iff.mpr
    (List.mem_map_of_mem (List.mem_filter.mpr ⟨hleg, by simp⟩))
  have hcapped : (cappedFull std cfg legs).get? leg.legId =
      some (cutShare std cfg legs leg * clusterScale std cfg legs leg.cluster) := by
    have hturn : (cappedFull std cfg legs).get? leg.legId = _ :=
      get?_capClusters (byCluster_disjoint (clustersOf legs)) hgroup hmem
        ((rawWeights (volsOf std cfg legs) (Dict.groupBy LegInput.cluster legs)
          (clusterBudgetsOf std (volsOf std cfg legs)
            (Dict.groupBy LegInput.cluster legs))).mapValues fun _ w => min w cfg.maxLeg)
    rw [hcut leg hleg] at hturn
    refine hturn.trans (congrArg some (congrArg _ ?_))
    unfold turnScale clusterScale
    rw [(hperm.map _).sum_eq, List.map_map, List.map_congr_left fun m hm => by
      rw [Function.comp_apply, hcut m (List.mem_filter.mp hm).1, Option.getD_some]]
  have hstate : (stateByLeg legs).get? leg.legId = some leg.state :=
    get?_tabulate_legs LegInput.state hnodup hleg
  rw [targetWeights, Dict.get?_mapValues, hcapped, hstate]
  rfl

end Targets

end TradingPlatform.Portfolio
