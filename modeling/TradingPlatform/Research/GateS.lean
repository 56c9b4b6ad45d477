import TradingPlatform.Lib.Moments
import TradingPlatform.Research.NeighborSmoothing
import Mathlib.Algebra.Order.Group.MinMax

/-! # Gate S

The verdict on a star from draws around it, each axis snapped to its nearest
node. Bands widen until enough nodes lie inside them; where the draws land is
never asked again. -/

namespace TradingPlatform.Research.GateS

open TradingPlatform.Lib.Moments TradingPlatform.Research.Smoothing

variable {K : Type*} [Field K] [LinearOrder K] {n d m : ℕ}

/-! ## One axis -/

section Axis
variable (vals : Fin n → K)

def nodesWithin (c band : K) : ℕ :=
  (List.finRange n).countP fun i => c * (1 - band) ≤ vals i ∧ vals i ≤ c * (1 + band)

/-- At most so many rounds of widening from a band on. -/
def widenBand (c : K) (minNodes : ℕ) : ℕ → K → K
  | 0, band => band
  | rounds + 1, band =>
    if minNodes ≤ nodesWithin vals c band then band
    else if 2 ≤ band * (5 / 4) then band * (5 / 4)
    else widenBand c minNodes rounds (band * (5 / 4))

def axisBandForMinNodes (starI : Fin n) (relBand : K) (minNodes : ℕ) : Option K :=
  if n < minNodes then none else some (widenBand vals (vals starI) minNodes 64 relBand)

/-- The first of the nearest nodes; the star is there for the axis not to be empty. -/
def snap (starI : Fin n) (target : K) : Fin n :=
  ((List.finRange n).argmin fun i => |vals i - target|).getD starI

def distinctNodes (starI : Fin n) (targets : Fin m → K) : ℕ :=
  (Finset.univ.image fun k => snap vals starI (targets k)).card

end Axis

/-! ## The gate -/

inductive Verdict
  | pass
  | grey
  | fail
  | tooCoarse
  deriving DecidableEq

section Gate
variable {shape : Fin d → ℕ} (sqrt : K → K) (perfGrid : Cell shape → K)
  (axes : ∀ a, Fin (shape a) → K) (star : Cell shape) (relBand : K) (minNodes : ℕ)

/-- Each axis draws between the two ends of its band, which a negative star swaps. -/
def Requested (draws : Fin d → Fin m → K) : Prop :=
  ∀ a, ∀ band ∈ axisBandForMinNodes (axes a) (star a) relBand minNodes, ∀ k,
    draws a k ∈ Set.uIcc (axes a (star a) * (1 - band)) (axes a (star a) * (1 + band))

/-- The performance at each draw; a grid without axes is a single number. -/
def drawnPerfs (draws : Fin d → Fin m → K) : List K :=
  if d = 0 then [perfGrid star]
  else List.ofFn fun k => perfGrid fun a => snap (axes a) (star a) (draws a k)

/-- The deviation from fewer than two numbers is not a number, and compares false. -/
def judge (starPerf : K) (perfs : List K) : Verdict × Option K :=
  if perfs.length < 2 then (.fail, none)
  else
    let mu := perfs.sum / perfs.length
    let sd := sampleStd sqrt perfs
    if sd ≤ 0 then (.pass, some 0)
    else
      let z := (starPerf - mu) / sd
      if z ≤ 1 then (.pass, some z) else if z ≤ (2 : ℕ) then (.grey, some z) else (.fail, some z)

def gateS (draws : Fin d → Fin m → K) : Verdict × Option K :=
  if ∃ a, (axisBandForMinNodes (axes a) (star a) relBand minNodes).isNone then (.tooCoarse, none)
  else if ∃ a, distinctNodes (axes a) (star a) (draws a) < min minNodes (shape a) ∧
      shape a < minNodes then (.tooCoarse, none)
  else judge sqrt (perfGrid star) (drawnPerfs perfGrid axes star draws)

/-- A surface that is judged is covered on every axis. -/
def NeverSilent (draws : Fin d → Fin m → K) : Prop :=
  (gateS sqrt perfGrid axes star relBand minNodes draws).1 = .tooCoarse ∨
    ∀ a, minNodes ≤ distinctNodes (axes a) (star a) (draws a)

end Gate

/-! ## The cell of a node -/

section Cells
variable [IsStrictOrderedRing K] {vals : Fin n → K} {starI i : Fin n} {t : K}

/-- From the midpoint below a node, which belongs to the node below, to the one above. -/
def InCell (vals : Fin n → K) (i : Fin n) (t : K) : Prop :=
  (∀ j : Fin n, (j : ℕ) + 1 = i → vals j + vals i < t + t) ∧
    ∀ j : Fin n, (i : ℕ) + 1 = j → t + t ≤ vals i + vals j

instance (vals : Fin n → K) (i : Fin n) (t : K) : Decidable (InCell vals i t) :=
  inferInstanceAs (Decidable (_ ∧ _))

/-- The nodes whose cell a draw falls into. -/
def hitNodes (vals : Fin n → K) (targets : Fin m → K) : Finset (Fin n) :=
  Finset.univ.filter fun i => ∃ k, InCell vals i (targets k)

theorem abs_sub_le_iff_midpoint {a b : K} (h : a < b) : |a - t| ≤ |b - t| ↔ t + t ≤ a + b := by
  constructor
  · intro hle
    by_contra hgt
    rcases abs_cases (a - t) with ⟨ha, _⟩ | ⟨ha, _⟩ <;>
      rcases abs_cases (b - t) with ⟨hb, _⟩ | ⟨hb, _⟩ <;> linarith
  · intro hle
    rcases abs_cases (a - t) with ⟨ha, _⟩ | ⟨ha, _⟩ <;>
      rcases abs_cases (b - t) with ⟨hb, _⟩ | ⟨hb, _⟩ <;> linarith

theorem InCell.below (hinc : StrictMono vals) (h : InCell vals i t) {j : Fin n} (hj : j < i) :
    |vals i - t| < |vals j - t| := by
  have hpred : (i : ℕ) - 1 + 1 = i := by omega
  have hle : vals j ≤ vals ⟨i - 1, by omega⟩ := hinc.monotone (Fin.le_def.mpr (by simp only; omega))
  have hmid := h.1 ⟨i - 1, by omega⟩ hpred
  refine lt_of_not_ge fun hge => ?_
  linarith [(abs_sub_le_iff_midpoint (hinc hj)).mp hge]

theorem InCell.above (hinc : StrictMono vals) (h : InCell vals i t) {j : Fin n} (hj : i < j) :
    |vals i - t| ≤ |vals j - t| := by
  have hlt : (i : ℕ) + 1 < n := by omega
  have hle : vals ⟨i + 1, hlt⟩ ≤ vals j := hinc.monotone (Fin.le_def.mpr (by simp only; omega))
  have hmid := h.2 ⟨i + 1, hlt⟩ rfl
  exact (abs_sub_le_iff_midpoint (hinc hj)).mpr (by linarith)

/-- A draw is snapped to the node whose cell it lies in. -/
theorem snap_eq_iff (hinc : StrictMono vals) : snap vals starI t = i ↔ InCell vals i t := by
  have hargmin : snap vals starI t = i ↔
      i ∈ (List.finRange n).argmin fun i => |vals i - t| := by
    unfold snap
    cases hmin : (List.finRange n).argmin fun i => |vals i - t| with
    | none => exact absurd (List.mem_finRange starI) (by simp [List.argmin_eq_none.mp hmin])
    | some j => simp [eq_comm]
  rw [hargmin, List.mem_argmin_iff]
  simp only [List.mem_finRange, true_and, forall_const, List.idxOf_finRange]
  constructor
  · rintro ⟨hmin, hfirst⟩
    constructor
    · intro j hj
      refine lt_of_not_ge fun hge => ?_
      have hji : j < i := by omega
      have := hfirst j ((abs_sub_le_iff_midpoint (hinc hji)).mpr (by linarith))
      omega
    · intro j hj
      exact (abs_sub_le_iff_midpoint (hinc (by omega))).mp (hmin j)
  · intro h
    constructor
    · intro j
      rcases lt_trichotomy j i with hlt | rfl | hgt
      · exact (h.below hinc hlt).le
      · exact le_rfl
      · exact h.above hinc hgt
    · intro j hle
      by_contra hlt
      exact absurd hle (not_le.mpr (h.below hinc (by omega)))

theorem distinctNodes_eq (hinc : StrictMono vals) (targets : Fin m → K) :
    distinctNodes vals starI targets = (hitNodes vals targets).card := by
  unfold distinctNodes
  congr 1
  ext i
  simp [hitNodes, snap_eq_iff hinc]

end Cells

/-! ## When a judged surface is covered -/

section Covered
variable {shape : Fin d → ℕ} {sqrt : K → K} {perfGrid : Cell shape → K}
  {axes : ∀ a, Fin (shape a) → K} {star : Cell shape} {relBand : K} {minNodes : ℕ}

theorem judge_ne_tooCoarse (starPerf : K) (perfs : List K) :
    (judge sqrt starPerf perfs).1 ≠ .tooCoarse := by
  unfold judge
  split_ifs <;> simp only [ne_eq, reduceCtorEq, not_false_eq_true]
  split_ifs <;> simp

/-- Only the length of an axis is too coarse. -/
theorem gateS_tooCoarse_iff (draws : Fin d → Fin m → K) :
    (gateS sqrt perfGrid axes star relBand minNodes draws).1 = .tooCoarse ↔
      ∃ a, shape a < minNodes := by
  have hnone : (∃ a, (axisBandForMinNodes (axes a) (star a) relBand minNodes).isNone) ↔
      ∃ a, shape a < minNodes := by
    refine exists_congr fun a => ?_
    by_cases hshort : shape a < minNodes <;> simp [axisBandForMinNodes, hshort]
  unfold gateS
  split_ifs with hband hguard
  · exact iff_of_true rfl (hnone.mp hband)
  · exact iff_of_true rfl (hguard.imp fun _ h => h.2)
  · exact iff_of_false (judge_ne_tooCoarse _ _) (mt hnone.mpr hband)

theorem distinctNodes_const (vals : Fin n → K) (starI : Fin n) (t : K) :
    distinctNodes vals starI (fun _ : Fin m => t) = min m 1 := by
  unfold distinctNodes
  rcases Nat.eq_zero_or_pos m with rfl | hm
  · simp
  · have : Nonempty (Fin m) := ⟨⟨0, hm⟩⟩
    rw [Finset.image_const Finset.univ_nonempty, Finset.card_singleton]
    omega

theorem min_le_distinctNodes (vals : Fin n → K) (starI : Fin n) (targets : Fin m → K) :
    min m 1 ≤ distinctNodes vals starI targets := by
  rcases Nat.eq_zero_or_pos m with rfl | hm
  · simp
  · have : 0 < distinctNodes vals starI targets :=
      Finset.card_pos.mpr ⟨_, Finset.mem_image_of_mem _ (Finset.mem_univ ⟨0, hm⟩)⟩
    omega

/-- Coverage holds of given draws exactly when an axis is too short or the draws hit enough
cells on every axis, and of all draws exactly when an axis is too short, there is none, or
one node is enough. -/
theorem neverSilent_iff [IsStrictOrderedRing K] (sqrt : K → K) (perfGrid : Cell shape → K)
    (star : Cell shape) (relBand : K) (minNodes m : ℕ) (hinc : ∀ a, StrictMono (axes a)) :
    (∀ draws : Fin d → Fin m → K, NeverSilent sqrt perfGrid axes star relBand minNodes draws ↔
      (∃ a, shape a < minNodes) ∨ ∀ a, minNodes ≤ (hitNodes (axes a) (draws a)).card) ∧
    ((∀ draws : Fin d → Fin m → K, Requested axes star relBand minNodes draws →
        NeverSilent sqrt perfGrid axes star relBand minNodes draws) ↔
      (∃ a, shape a < minNodes) ∨ d = 0 ∨ minNodes ≤ min m 1) := by
  constructor
  · intro draws
    unfold NeverSilent
    simp only [gateS_tooCoarse_iff, distinctNodes_eq (hinc _)]
  · simp only [NeverSilent, gateS_tooCoarse_iff]
    constructor
    · intro hall
      by_contra hcond
      obtain ⟨hlong, hd, hmin⟩ : (¬ ∃ a, shape a < minNodes) ∧ d ≠ 0 ∧ ¬ minNodes ≤ min m 1 := by
        simpa only [not_or] using hcond
      -- every draw at the lower end of its band
      let low (a : Fin d) (_ : Fin m) : K := axes a (star a) *
        (1 - (axisBandForMinNodes (axes a) (star a) relBand minNodes).getD 0)
      have hlow : Requested axes star relBand minNodes low := by
        intro a band hband k
        simp only [low, Option.mem_def.mp hband, Option.getD_some]
        exact Set.left_mem_uIcc
      have hcovers := (hall low hlow).resolve_left hlong ⟨0, Nat.pos_of_ne_zero hd⟩
      rw [distinctNodes_const] at hcovers
      exact hmin hcovers
    · rintro (hshort | rfl | hmin) draws -
      · exact .inl hshort
      · exact .inr fun a => a.elim0
      · exact .inr fun a => hmin.trans (min_le_distinctNodes _ _ _)

end Covered

/-! ## A star at zero -/

def zeroAxis (i : Fin 5) : ℚ := (i : ℕ) - 2

theorem zeroAxis_strictMono : StrictMono zeroAxis := by decide +kernel

def zeroStar : Cell fun _ : Fin 1 => 5 := fun _ => 2

def risingGrid (c : Cell fun _ : Fin 1 => 5) : ℚ := (c 0 : ℕ)

/-- Around a star on zero the band has no width: three draws, one node, and a pass. -/
theorem neverSilent_zero_false :
    ∃ draws : Fin 1 → Fin 3 → ℚ, Requested (fun _ => zeroAxis) zeroStar (1 / 5) 5 draws ∧
      ¬ NeverSilent id risingGrid (fun _ => zeroAxis) zeroStar (1 / 5) 5 draws := by
  refine ⟨fun _ _ => 0, fun a band _ k => ?_, by unfold NeverSilent; decide +kernel⟩
  simp [zeroAxis, zeroStar]

theorem neverSilent_iff_zero :
    (∀ draws : Fin 1 → Fin 3 → ℚ,
      NeverSilent id risingGrid (fun _ => zeroAxis) zeroStar (1 / 5) 5 draws ↔
      (∃ _ : Fin 1, 5 < 5) ∨ ∀ a, 5 ≤ (hitNodes zeroAxis (draws a)).card) ∧
    ((∀ draws : Fin 1 → Fin 3 → ℚ, Requested (fun _ => zeroAxis) zeroStar (1 / 5) 5 draws →
        NeverSilent id risingGrid (fun _ => zeroAxis) zeroStar (1 / 5) 5 draws) ↔
      (∃ _ : Fin 1, 5 < 5) ∨ 1 = 0 ∨ 5 ≤ min 3 1) :=
  neverSilent_iff id risingGrid zeroStar (1 / 5) 5 3 fun _ => zeroAxis_strictMono

end TradingPlatform.Research.GateS
