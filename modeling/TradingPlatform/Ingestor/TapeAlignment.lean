import TradingPlatform.Ingestor.DualBuffer
import Mathlib.Tactic.NormNum

/-! # What tape verification compares

A refresh writes the bars it fetched into both rings before it compares them. -/

namespace TradingPlatform.Ingestor.DualBuffer

open TradingPlatform.Lib TradingPlatform.Lib.Ring

/-! ## The rings after a refresh -/

theorem featureClose_self {tolerance : ℚ} (h : 0 ≤ tolerance) (a : ℚ) :
    featureClose tolerance a a := by
  rw [featureClose, sub_self, abs_zero]
  exact h.trans (le_max_left ..)

theorem rowDeltas_self (row : MatrixRow) : rowDeltas row row = [] := by
  have hprice : ∀ a : ℚ, priceClose a a := featureClose_self (by norm_num [priceFeatureTolerance])
  have hvolume : ∀ a : ℚ, volumeClose a a :=
    featureClose_self (by norm_num [volumeFeatureTolerance])
  simp [rowDeltas, hprice, hvolume]

/-- Rows of increasing time never differ from themselves. -/
theorem compareFeatureMatrices_self {rows : List MatrixRow}
    (h : rows.Pairwise (·.timestamp < ·.timestamp)) : compareFeatureMatrices rows rows = [] := by
  have hnodup : (rows.map MatrixRow.timestamp).Nodup :=
    List.pairwise_map.2 (h.imp fun hlt => hlt.ne)
  unfold compareFeatureMatrices
  dsimp only
  rw [List.flatMap_eq_nil_iff]
  intro row hrow
  rw [(Dict.get?_keyBy_of_nodup MatrixRow.timestamp hnodup).2 ⟨hrow, rfl⟩]
  exact rowDeltas_self row

theorem lockedRows_increasing (s : MatrixState) (close : ℤ) (rest : RestBars) :
    ((s.lockedBars close rest).map MatrixRow.ofBar).Pairwise (·.timestamp < ·.timestamp) :=
  List.pairwise_map.2 (s.lockedBars_increasing close rest)

/-- The matrix as the verification of a refresh sees it. -/
def reconciled (s : MatrixState) (close : ℤ) (rest : RestBars) : MatrixState :=
  ((s.replaceShadow (s.lockedBars close rest) close).reconcileStreamingWindows
    (s.lockedBars close rest)).2

section Rings
variable (s : MatrixState) (close : ℤ) (rest : RestBars)

theorem shadow_reconciled : (reconciled s close rest).shadow.toList =
    (s.lockedBars close rest).map MatrixRow.ofBar := by
  have hle := s.length_lockedBars_le close rest
  have hcap : lockedBlockCount ≤ max (lockedBlockCount + 4) lockedBlockCount := by decide
  exact s.shadow.toList_replaceBars (s.lockedBars_increasing close rest)
    (hle.trans hcap)

/-- The active ring ends in the fetched bars, whatever it held before. -/
theorem active_reconciled : ∃ old, (reconciled s close rest).active.toList =
    old ++ (s.lockedBars close rest).map MatrixRow.ofBar := by
  have hle := s.length_lockedBars_le close rest
  have hcap : lockedBlockCount ≤ max activeRingCapacity lockedBlockCount := by decide
  obtain ⟨old, hold, -⟩ := s.active.exists_toList_upsertBars
    (s.lockedBars_increasing close rest) (hle.trans hcap)
  exact ⟨old, hold⟩

/-- Verification compares the fetched bars with themselves, or nothing. -/
theorem verify_reconciled (latch : Bool) :
    ((reconciled s close rest).verifyMatrixAlignment latch).1.mismatches = [] ∧
      ((reconciled s close rest).verifyMatrixAlignment latch).2 =
        (decide ((s.lockedBars close rest).length < lockedBlockCount) && latch) := by
  have hle := s.length_lockedBars_le close rest
  have hshadow := shadow_reconciled s close rest
  obtain ⟨old, hactive⟩ := active_reconciled s close rest
  have hinc := lockedRows_increasing s close rest
  have hcount : (reconciled s close rest).shadow.cursor.count =
      (s.lockedBars close rest).length := by
    rw [← MatrixRing.length_toList, hshadow, List.length_map]
  have hcount' : (s.lockedBars close rest).length ≤
      (reconciled s close rest).active.cursor.count := by
    rw [← MatrixRing.length_toList, hactive, List.length_append, List.length_map]
    exact Nat.le_add_left ..
  generalize hrows : (s.lockedBars close rest).map MatrixRow.ofBar = rows at *
  have hlen : rows.length = (s.lockedBars close rest).length := by rw [← hrows, List.length_map]
  unfold MatrixState.verifyMatrixAlignment
  rw [hcount]
  by_cases hfew : (s.lockedBars close rest).length < lockedBlockCount
  · rw [if_pos hfew, decide_eq_true hfew, Bool.true_and]
    exact ⟨rfl, rfl⟩
  · -- the last five rows of both rings are the fetched ones
    have hfive : rows.length = lockedBlockCount := by omega
    have hlast : ∀ pre : List MatrixRow, lastN lockedBlockCount (pre ++ rows) = rows := by
      intro pre
      rw [lastN, List.length_append, ← hfive, Nat.add_sub_cancel, List.drop_left]
    have htail : (reconciled s close rest).active.tail lockedBlockCount = rows := by
      rw [MatrixRing.tail_eq_lastN, hactive, hlast]
      rw [hactive, hlast]
      exact hinc.imp le_of_lt
    have htail' : (reconciled s close rest).shadow.tail lockedBlockCount = rows := by
      have hself := hlast []
      rw [List.nil_append] at hself
      rw [MatrixRing.tail_eq_lastN, hshadow, hself]
      rw [hshadow, hself]
      exact hinc.imp le_of_lt
    rw [if_neg hfew, if_neg (by omega), htail, htail', decide_eq_false hfew, Bool.false_and]
    dsimp only
    rw [compareFeatureMatrices_self hinc, if_neg (not_not.2 rfl)]
    exact ⟨rfl, rfl⟩

end Rings

/-! ## Divergence -/

/-- For the time of a fetched bar the active ring holds a value out of tolerance. -/
def Diverges (s : MatrixState) (locked : List (Bar ℤ ℚ)) : Prop :=
  ∃ row ∈ s.active.toList, ∃ bar ∈ locked, row.timestamp = bar.timestamp ∧
    rowDeltas row (.ofBar bar) ≠ []

/-- A divergence before the refresh leaves the leg latched or its verdict with mismatches. -/
def DivergenceDetected (s : MatrixState) (close : ℤ) (rest : RestBars) (i : Nat) : Prop :=
  Diverges s (s.lockedBars close rest) →
    (∃ leg ∈ (s.refreshShadow close rest).2.legs[i]?, leg.divergentLatch = true) ∨
      ∃ verdict ∈ (s.refreshShadow close rest).1.verdicts[i]?, verdict.2.mismatches ≠ []

theorem divergence_detected_iff (s : MatrixState) (close : ℤ) (rest : RestBars)
    (i : Fin s.legs.length) :
    DivergenceDetected s close rest i ↔
      ¬ Diverges s (s.lockedBars close rest) ∨
        (s.lockedBars close rest).length < lockedBlockCount ∧ s.legs[i].divergentLatch = true := by
  unfold DivergenceDetected
  rw [imp_iff_not_or]
  by_cases hdiv : Diverges s (s.lockedBars close rest)
  · have hne : s.lockedBars close rest ≠ [] := by
      obtain ⟨-, -, bar, hbar, -⟩ := hdiv
      exact List.ne_nil_of_mem hbar
    let leg := (MatrixState.reconcileLeg (s.lockedBars close rest) s.legs[i]).2
    have hlatch : leg.divergentLatch = s.legs[i].divergentLatch := by
      show (MatrixState.reconcileLeg _ _).2.divergentLatch = _
      rw [MatrixState.reconcileLeg_leg]
    obtain ⟨hclean, hafter⟩ := verify_reconciled s close rest leg.divergentLatch
    have hlegs : (s.refreshShadow close rest).2.legs[(i : Nat)]? =
        some ((reconciled s close rest).verifyLeg leg).2 := by
      rw [MatrixState.refreshShadow, if_neg hne]
      simp [MatrixState.applyTapeVerification, MatrixState.reconcileStreamingWindows,
        MatrixState.replaceShadow, reconciled, leg]
    have hverdicts : ∃ id, (s.refreshShadow close rest).1.verdicts[(i : Nat)]? =
        some (id, ((reconciled s close rest).verifyLeg leg).1) := by
      rw [MatrixState.refreshShadow, if_neg hne]
      simp [MatrixState.applyTapeVerification, MatrixState.reconcileStreamingWindows,
        MatrixState.replaceShadow, reconciled, leg]
    obtain ⟨id, hverdicts⟩ := hverdicts
    rw [hlegs, hverdicts]
    refine or_congr_right ?_
    simp only [Option.mem_some_iff, exists_eq_left', MatrixState.verifyLeg]
    rw [hclean, hafter, hlatch, Bool.and_eq_true, decide_eq_true_eq]
    exact or_iff_left (not_not.2 rfl)
  · exact iff_of_true (.inl hdiv) (.inl hdiv)

/-! ## A wrong tape -/

/-- Five quarter-hour bars that all close at 10. -/
def fiveBars : RestBars where
  bars := [0, 15, 30, 45, 60].map fun m => ⟨m * minute, 10, 11, 9, 10, 100, "QQQ"⟩
  increasing := by decide

/-- The stream has delivered the first of them with a close of 50. -/
def wrongTape : MatrixState :=
  (MatrixState.new (timeframeMinutes "15Min")
    [⟨"mean_reversion_qqq", none, false, .unknown⟩]).ingestStreamBar
      ⟨0, 10, 51, 9, 50, 100, "QQQ"⟩

theorem wrong_tape_certified :
    ¬ DivergenceDetected wrongTape (60 * minute) fiveBars 0 ∧
      (wrongTape.refreshShadow (60 * minute) fiveBars).2.legs.map Leg.tapeStatus = [.verified] := by
  refine ⟨fun h => ?_, by decide +kernel⟩
  have hdiv : Diverges wrongTape (wrongTape.lockedBars (60 * minute) fiveBars) := by
    refine ⟨⟨0, 51, 9, 50, 100⟩, by decide +kernel, ⟨0, 10, 11, 9, 10, 100, "QQQ"⟩,
      by decide +kernel, rfl, by decide +kernel⟩
  have hlatches : (wrongTape.refreshShadow (60 * minute) fiveBars).2.legs.map Leg.divergentLatch =
      [false] := by decide +kernel
  have hverdicts : (wrongTape.refreshShadow (60 * minute) fiveBars).1.verdicts.map
      (·.2.mismatches) = [[]] := by decide +kernel
  rcases h hdiv with ⟨leg, hleg, hlatch⟩ | ⟨verdict, hverdict, hmismatch⟩
  · have := List.mem_map_of_mem (f := Leg.divergentLatch) (List.mem_of_getElem? hleg)
    rw [hlatches, hlatch] at this
    simp at this
  · have := List.mem_map_of_mem (f := fun p : String × MatrixAlignmentVerdict => p.2.mismatches)
      (List.mem_of_getElem? hverdict)
    rw [hverdicts, List.mem_singleton] at this
    exact hmismatch this

end TradingPlatform.Ingestor.DualBuffer
