import TradingPlatform.Lib.Combinations
import Mathlib.Data.List.SplitBy
import Mathlib.Data.List.Sort
import Mathlib.Order.Interval.Set.Basic
import Mathlib.Data.Set.Lattice
import Mathlib.Order.CompletePartialOrder

/-! # Combinatorial purged cross-validation

Bars are numbered from 0. A split tests one combination of groups and trains on
the other groups, less the bars whose labels reach into a test block or follow
it too closely. -/

namespace TradingPlatform.Research

open TradingPlatform.Lib

/-! ## Purging around one block -/

/-- The bars kept for training beside the test block `[testStart, testEnd)`. -/
def purgeEmbargoTrain (trainIdx : List Nat) (testStart testEnd e : Nat) : List Nat :=
  trainIdx.filter fun t =>
    let purged := testStart ≤ t + e ∧ t < testEnd
    let embargoed := testEnd ≤ t ∧ t < testEnd + e
    ¬ (purged ∨ embargoed)

/-- The label of a bar made at `t`. -/
def labelWindow (e t : Nat) : Set Nat := Set.Icc t (t + e)

theorem labelWindow_disjoint {e s t : Nat} :
    Disjoint (labelWindow e t) (labelWindow e s) ↔ t + e < s ∨ s + e < t := by
  rw [labelWindow, labelWindow, Set.disjoint_iff_inter_eq_empty, Set.Icc_inter_Icc,
    Set.Icc_eq_empty_iff, not_le]
  change min (t + e) (s + e) < max t s ↔ _
  omega

/-- The bars of a block. -/
def InBlock (block : Nat × Nat) (t : Nat) : Prop := block.1 ≤ t ∧ t < block.2

/-- Outside a block, a bar is kept exactly when its label meets no label of the block. -/
theorem mem_purgeEmbargoTrain {trainIdx : List Nat} {block : Nat × Nat} {e t : Nat}
    (hblock : block.1 < block.2) (hout : ¬ InBlock block t) :
    t ∈ purgeEmbargoTrain trainIdx block.1 block.2 e ↔
      t ∈ trainIdx ∧ ∀ s, InBlock block s → Disjoint (labelWindow e t) (labelWindow e s) := by
  simp only [purgeEmbargoTrain, List.mem_filter, decide_eq_true_eq, labelWindow_disjoint]
  refine and_congr_right fun _ => ?_
  unfold InBlock at hout ⊢
  constructor
  · intro h s hs
    omega
  · intro h
    have hfirst := h block.1 ⟨le_rfl, hblock⟩
    have hlast := h (block.2 - 1) ⟨by omega, by omega⟩
    omega

/-! ## Blocks of a sorted list -/

/-- `[start, end)` for each run of consecutive indexes: the breaks are where the
difference exceeds one. -/
def contiguousBlocks (sortedIdx : List Nat) : List (Nat × Nat) :=
  (sortedIdx.splitBy fun a b => b ≤ a + 1).map fun run => (run.headD 0, run.getLastD 0 + 1)

/-- A strictly rising run without a gap holds every index from its first to its last. -/
theorem mem_run {run : List Nat} (hne : run ≠ []) (hrise : run.Pairwise (· < ·))
    (hgap : run.IsChain fun a b => b ≤ a + 1) :
    ∀ t, t ∈ run ↔ InBlock (run.headD 0, run.getLastD 0 + 1) t := by
  induction run with
  | nil => exact absurd rfl hne
  | cons a rest ih =>
    intro t
    cases rest with
    | nil =>
      simp [InBlock]
      omega
    | cons b rest =>
      obtain ⟨hab, hgap⟩ := List.isChain_cons_cons.mp hgap
      obtain ⟨ha, hrise⟩ := List.pairwise_cons.mp hrise
      have hlt := ha b List.mem_cons_self
      have hrest := ih (List.cons_ne_nil _ _) hrise hgap
      have hlast := (hrest b).mp List.mem_cons_self
      rw [List.mem_cons, hrest]
      simp only [InBlock, List.headD_cons, List.getLastD_cons] at hlast ⊢
      omega

/-- Each block of a strictly sorted list is one of its runs. -/
theorem block_of_run {sortedIdx : List Nat} (hsorted : sortedIdx.Pairwise (· < ·))
    {run : List Nat} (hmem : run ∈ sortedIdx.splitBy fun a b => b ≤ a + 1) :
    ∀ t, t ∈ run ↔ InBlock (run.headD 0, run.getLastD 0 + 1) t := by
  have hsub : run.Sublist sortedIdx := by
    rw [← List.flatten_splitBy (fun a b => decide (b ≤ a + 1)) sortedIdx]
    exact List.sublist_flatten_of_mem hmem
  have hchain := List.isChain_of_mem_splitBy hmem
  exact mem_run (List.ne_nil_of_mem_splitBy hmem) (hsorted.sublist hsub)
    (hchain.imp fun a b h => by simpa using h)

theorem contiguousBlocks_lt {sortedIdx : List Nat} (hsorted : sortedIdx.Pairwise (· < ·))
    {block : Nat × Nat} (hblock : block ∈ contiguousBlocks sortedIdx) : block.1 < block.2 := by
  obtain ⟨run, hmem, rfl⟩ := List.mem_map.mp hblock
  obtain ⟨t, ht⟩ := List.exists_mem_of_ne_nil run (List.ne_nil_of_mem_splitBy hmem)
  obtain ⟨hfirst, hlast⟩ := (block_of_run hsorted hmem t).mp ht
  exact hfirst.trans_lt hlast

/-- The blocks of a strictly sorted list cover it and nothing else. -/
theorem mem_contiguousBlocks {sortedIdx : List Nat} (hsorted : sortedIdx.Pairwise (· < ·))
    (t : Nat) :
    t ∈ sortedIdx ↔ ∃ block ∈ contiguousBlocks sortedIdx, InBlock block t := by
  have hflatten := List.flatten_splitBy (fun a b => decide (b ≤ a + 1)) sortedIdx
  constructor
  · intro ht
    rw [← hflatten] at ht
    obtain ⟨run, hmem, htrun⟩ := List.mem_flatten.mp ht
    exact ⟨_, List.mem_map_of_mem hmem, (block_of_run hsorted hmem t).mp htrun⟩
  · intro h
    obtain ⟨block, hblock, hin⟩ := h
    obtain ⟨run, hmem, rfl⟩ := List.mem_map.mp hblock
    rw [← hflatten]
    exact List.mem_flatten_of_mem hmem ((block_of_run hsorted hmem t).mpr hin)

/-- Purging block after block. -/
def purgeBlocks (trainIdx : List Nat) (blocks : List (Nat × Nat)) (e : Nat) : List Nat :=
  blocks.foldl (fun t block => purgeEmbargoTrain t block.1 block.2 e) trainIdx

theorem purgeBlocks_sublist (blocks : List (Nat × Nat)) (e : Nat) (trainIdx : List Nat) :
    (purgeBlocks trainIdx blocks e).Sublist trainIdx := by
  induction blocks generalizing trainIdx with
  | nil => exact List.Sublist.refl _
  | cons block blocks ih => exact (ih _).trans List.filter_sublist

theorem mem_purgeBlocks {blocks : List (Nat × Nat)} {e t : Nat}
    (hblocks : ∀ block ∈ blocks, block.1 < block.2 ∧ ¬ InBlock block t) (trainIdx : List Nat) :
    t ∈ purgeBlocks trainIdx blocks e ↔
      t ∈ trainIdx ∧ ∀ block ∈ blocks, ∀ s, InBlock block s →
        Disjoint (labelWindow e t) (labelWindow e s) := by
  induction blocks generalizing trainIdx with
  | nil => simp [purgeBlocks]
  | cons block blocks ih =>
    obtain ⟨hblock, hblocks⟩ := List.forall_mem_cons.mp hblocks
    rw [purgeBlocks, List.foldl_cons, ← purgeBlocks, ih hblocks,
      mem_purgeEmbargoTrain hblock.1 hblock.2, List.forall_mem_cons, and_assoc]

/-- Outside the test bars, a bar survives all blocks exactly when its label
meets no test bar's label. -/
theorem mem_purged {trainIdx testIdx : List Nat} (hsorted : testIdx.Pairwise (· < ·)) {e t : Nat}
    (hout : t ∉ testIdx) :
    t ∈ purgeBlocks trainIdx (contiguousBlocks testIdx) e ↔
      t ∈ trainIdx ∧ ∀ s ∈ testIdx, Disjoint (labelWindow e t) (labelWindow e s) := by
  have hblocks : ∀ block ∈ contiguousBlocks testIdx, block.1 < block.2 ∧ ¬ InBlock block t :=
    fun block hblock => ⟨contiguousBlocks_lt hsorted hblock,
      fun hin => hout ((mem_contiguousBlocks hsorted t).mpr ⟨block, hblock, hin⟩)⟩
  rw [mem_purgeBlocks hblocks]
  refine and_congr_right fun _ => ⟨fun h s hs => ?_, fun h block hblock s hs => ?_⟩
  · obtain ⟨block, hblock, hin⟩ := (mem_contiguousBlocks hsorted s).mp hs
    exact h block hblock s hin
  · exact h s ((mem_contiguousBlocks hsorted s).mpr ⟨block, hblock, hs⟩)

/-! ## The splits -/

/-- `np.linspace(0, n_bars, n_groups + 1).astype(int)`: however its steps are
rounded, the cuts rise from 0 to `n_bars`. -/
structure Bounds (nBars nGroups : Nat) where
  cut : Nat → Nat
  cut_zero : cut 0 = 0
  cut_last : cut nGroups = nBars
  cut_le : ∀ g < nGroups, cut g ≤ cut (g + 1)

/-- The cuts without rounding but the last. -/
def Bounds.exact (nBars : Nat) {nGroups : Nat} (h : 0 < nGroups) : Bounds nBars nGroups where
  cut g := g * nBars / nGroups
  cut_zero := by simp
  cut_last := Nat.mul_div_cancel_left nBars h
  cut_le g _ := Nat.div_le_div_right (Nat.mul_le_mul_right nBars (Nat.le_succ g))

/-- `math.comb(n_groups, n_test_groups) * n_test_groups // n_groups`. -/
def nCpcvPaths (nGroups nTestGroups : Nat) : Nat :=
  nGroups.choose nTestGroups * nTestGroups / nGroups

section Splits
variable {nBars nGroups : Nat} (bounds : Bounds nBars nGroups)

/-- `np.arange(bounds[g], bounds[g + 1])`. -/
def Bounds.group (g : Nat) : List Nat :=
  List.range' (bounds.cut g) (bounds.cut (g + 1) - bounds.cut g)

/-- The bars of one combination of groups, with the train bars the others leave it. -/
def cpcvSplit (e : Nat) (testCombo : List Nat) : List Nat × List Nat :=
  let testIdx := (testCombo.flatMap bounds.group).insertionSort (· ≤ ·)
  let trainGroups := (List.range nGroups).filter (· ∉ testCombo)
  let trainIdx := trainGroups.flatMap bounds.group
  ((purgeBlocks trainIdx (contiguousBlocks testIdx) e).insertionSort (· ≤ ·), testIdx)

def cpcvSplits (nTestGroups e : Nat) : List (List Nat × List Nat) :=
  (combinations nTestGroups (List.range nGroups)).map (cpcvSplit bounds e)

namespace Bounds

theorem cut_mono {g h : Nat} (hgh : g ≤ h) (hh : h ≤ nGroups) : bounds.cut g ≤ bounds.cut h := by
  induction h, hgh using Nat.le_induction with
  | base => exact le_rfl
  | succ h hgh ih => exact (ih (by omega)).trans (bounds.cut_le h (by omega))

theorem mem_group {g t : Nat} : t ∈ bounds.group g ↔ bounds.cut g ≤ t ∧ t < bounds.cut (g + 1) := by
  rw [group, List.mem_range'_1]
  omega

/-- No bar is in two groups. -/
theorem group_unique {g h t : Nat} (hg : g < nGroups) (hh : h < nGroups)
    (htg : t ∈ bounds.group g) (hth : t ∈ bounds.group h) : g = h := by
  rw [mem_group] at htg hth
  rcases Nat.lt_trichotomy g h with hlt | heq | hlt
  · have hcut : bounds.cut (g + 1) ≤ bounds.cut h := bounds.cut_mono hlt hh.le
    omega
  · exact heq
  · have hcut : bounds.cut (h + 1) ≤ bounds.cut g := bounds.cut_mono hlt hg.le
    omega

/-- Every bar is in a group. -/
theorem exists_group {t : Nat} (ht : t < nBars) : ∃ g < nGroups, t ∈ bounds.group g := by
  have hcover : ∀ k ≤ nGroups, t < bounds.cut k → ∃ g < k, t ∈ bounds.group g := by
    intro k
    induction k with
    | zero =>
      intro _ hlt
      rw [bounds.cut_zero] at hlt
      omega
    | succ k ih =>
      intro hk hlt
      rcases Nat.lt_or_ge t (bounds.cut k) with hbefore | hin
      · obtain ⟨g, hg, hmem⟩ := ih (by omega) hbefore
        exact ⟨g, by omega, hmem⟩
      · exact ⟨k, Nat.lt_succ_self k, bounds.mem_group.mpr ⟨hin, hlt⟩⟩
  exact hcover nGroups le_rfl (by rwa [bounds.cut_last])

theorem lt_of_mem_group {g t : Nat} (hg : g < nGroups) (ht : t ∈ bounds.group g) : t < nBars := by
  have hlast : bounds.cut (g + 1) ≤ bounds.cut nGroups := bounds.cut_mono hg le_rfl
  rw [bounds.cut_last] at hlast
  exact (bounds.mem_group.mp ht).2.trans_le hlast

/-- The bars of different groups, one after the other, are all different. -/
theorem nodup_flatMap {combo : List Nat} (hcombo : combo.Nodup) (hlt : ∀ g ∈ combo, g < nGroups) :
    (combo.flatMap bounds.group).Nodup := by
  rw [List.nodup_flatMap]
  refine ⟨fun g _ => List.nodup_range', hcombo.imp_of_mem fun {g h} hg hh hne => ?_⟩
  intro t htg hth
  exact hne (bounds.group_unique (hlt g hg) (hlt h hh) htg hth)

end Bounds

variable {bounds}

/-- A combination lists groups, each once. -/
theorem combo_groups {nTestGroups : Nat} {combo : List Nat}
    (h : combo ∈ combinations nTestGroups (List.range nGroups)) :
    combo.Nodup ∧ ∀ g ∈ combo, g < nGroups := by
  have hsub := (mem_combinations.mp h).1
  exact ⟨hsub.nodup List.nodup_range, fun g hg => List.mem_range.mp (hsub.subset hg)⟩

theorem mem_test (bounds : Bounds nBars nGroups) (e : Nat) (combo : List Nat) (t : Nat) :
    t ∈ (cpcvSplit bounds e combo).2 ↔ ∃ g ∈ combo, t ∈ bounds.group g := by
  rw [cpcvSplit, List.mem_insertionSort, List.mem_flatMap]

theorem test_sorted (e : Nat) {combo : List Nat} (hnodup : combo.Nodup)
    (hlt : ∀ g ∈ combo, g < nGroups) : (cpcvSplit bounds e combo).2.Pairwise (· < ·) := by
  have hperm := List.perm_insertionSort (· ≤ ·) (combo.flatMap bounds.group)
  have hdistinct := hperm.nodup_iff.mpr (bounds.nodup_flatMap hnodup hlt)
  have hsorted := List.pairwise_insertionSort (· ≤ ·) (combo.flatMap bounds.group)
  exact (hsorted.and hdistinct).imp fun h => lt_of_le_of_ne h.1 h.2

/-- A bar is tested exactly when its group is. -/
theorem mem_test_iff_group {g t : Nat} (hg : g < nGroups) (ht : t ∈ bounds.group g) (e : Nat)
    {combo : List Nat} (hlt : ∀ h ∈ combo, h < nGroups) :
    t ∈ (cpcvSplit bounds e combo).2 ↔ g ∈ combo := by
  rw [mem_test]
  refine ⟨fun h => ?_, fun h => ⟨g, h, ht⟩⟩
  obtain ⟨g', hg', ht'⟩ := h
  rwa [bounds.group_unique hg (hlt g' hg') ht ht']

/-- **What a split trains on**: the bars outside its test groups whose labels
meet no test bar's label. -/
theorem mem_train_iff (e : Nat) {combo : List Nat} (hnodup : combo.Nodup)
    (hlt : ∀ g ∈ combo, g < nGroups) (t : Nat) :
    t ∈ (cpcvSplit bounds e combo).1 ↔
      t < nBars ∧ t ∉ (cpcvSplit bounds e combo).2 ∧
        ∀ s ∈ (cpcvSplit bounds e combo).2, Disjoint (labelWindow e t) (labelWindow e s) := by
  have hothers : t ∈ ((List.range nGroups).filter (· ∉ combo)).flatMap bounds.group ↔
      t < nBars ∧ t ∉ (cpcvSplit bounds e combo).2 := by
    rw [List.mem_flatMap]
    constructor
    · intro h
      obtain ⟨g, hg, ht⟩ := h
      obtain ⟨hrange, hnot⟩ := List.mem_filter.mp hg
      have hg := List.mem_range.mp hrange
      refine ⟨bounds.lt_of_mem_group hg ht, fun hmem => ?_⟩
      exact (of_decide_eq_true hnot) ((mem_test_iff_group hg ht e hlt).mp hmem)
    · intro h
      obtain ⟨htn, hnot⟩ := h
      obtain ⟨g, hg, ht⟩ := bounds.exists_group htn
      have hrange := List.mem_range.mpr hg
      refine ⟨g, List.mem_filter.mpr ⟨hrange, decide_eq_true fun hmem => hnot ?_⟩, ht⟩
      exact (mem_test_iff_group hg ht e hlt).mpr hmem
  have htrain : t ∈ (cpcvSplit bounds e combo).1 ↔
      t ∈ purgeBlocks (((List.range nGroups).filter (· ∉ combo)).flatMap bounds.group)
        (contiguousBlocks (cpcvSplit bounds e combo).2) e := List.mem_insertionSort _
  rw [htrain, ← and_assoc, ← hothers]
  by_cases hout : t ∈ (cpcvSplit bounds e combo).2
  · have hnot : t ∉ ((List.range nGroups).filter (· ∉ combo)).flatMap bounds.group :=
      fun h => (hothers.mp h).2 hout
    exact iff_of_false (fun h => hnot ((purgeBlocks_sublist _ _ _).subset h)) fun h => hnot h.1
  · exact mem_purged (test_sorted e hnodup hlt) hout

/-- `phi` without its division. -/
theorem choose_mul_eq {n k : Nat} (hk : 1 ≤ k) (hkn : k ≤ n) :
    n.choose k * k = n * (n - 1).choose (k - 1) := by
  obtain ⟨k, rfl⟩ : ∃ j, k = j + 1 := ⟨k - 1, by omega⟩
  obtain ⟨n, rfl⟩ : ∃ m, n = m + 1 := ⟨n - 1, by omega⟩
  exact (Nat.add_one_mul_choose_eq n k).symm

/-- **Nothing leaks and nothing is wasted.** -/
theorem cpcv_splits_exact (bounds : Bounds nBars nGroups) {nTestGroups : Nat} (hk : 1 ≤ nTestGroups)
    (hkn : nTestGroups ≤ nGroups) (e : Nat) :
    (∀ split ∈ cpcvSplits bounds nTestGroups e,
      List.Disjoint split.1 split.2 ∧
        ∀ t, t ∈ split.1 ↔
          t < nBars ∧ t ∉ split.2 ∧
            ∀ s ∈ split.2, Disjoint (labelWindow e t) (labelWindow e s)) ∧
      (cpcvSplits bounds nTestGroups e).length = nGroups.choose nTestGroups ∧
      (∀ t < nBars, (cpcvSplits bounds nTestGroups e).countP (t ∈ ·.2) =
        (nGroups - 1).choose (nTestGroups - 1)) ∧
      nCpcvPaths nGroups nTestGroups = (nGroups - 1).choose (nTestGroups - 1) ∧
      nGroups ∣ nGroups.choose nTestGroups * nTestGroups := by
  have hmul := choose_mul_eq hk hkn
  refine ⟨?_, ?_, ?_, ?_, ?_⟩
  · intro split hsplit
    obtain ⟨combo, hcombo, rfl⟩ := List.mem_map.mp hsplit
    obtain ⟨hnodup, hlt⟩ := combo_groups hcombo
    have htrain : ∀ t, t ∈ (cpcvSplit bounds e combo).1 ↔ _ := mem_train_iff e hnodup hlt
    exact ⟨fun t ht => ((htrain t).mp ht).2.1, htrain⟩
  · rw [cpcvSplits, List.length_map, length_combinations, List.length_range]
  · intro t ht
    obtain ⟨g, hg, hmem⟩ := bounds.exists_group ht
    obtain ⟨k, rfl⟩ : ∃ j, nTestGroups = j + 1 := ⟨nTestGroups - 1, by omega⟩
    have hcount := countP_mem_combinations List.nodup_range (List.mem_range.mpr hg) k
    rw [List.length_range] at hcount
    rw [cpcvSplits, List.countP_map, Nat.add_sub_cancel, ← hcount]
    refine List.countP_congr fun combo hcombo => ?_
    simpa using mem_test_iff_group hg hmem e (combo_groups hcombo).2
  · rw [nCpcvPaths, hmul, Nat.mul_div_cancel_left _ (by omega)]
  · exact ⟨_, hmul⟩

/-- Three bars in five groups, so that groups are empty, with an embargo of one. -/
theorem three_bars_five_groups :
    nCpcvPaths 5 3 = 6 ∧ ∀ t < 3,
      (cpcvSplits (Bounds.exact 3 (by decide : 0 < 5)) 3 1).countP (t ∈ ·.2) = 6 :=
  have h := cpcv_splits_exact (Bounds.exact 3 (by decide : 0 < 5)) (by decide : 1 ≤ 3) (by decide) 1
  ⟨h.2.2.2.1, h.2.2.1⟩

end Splits

end TradingPlatform.Research
