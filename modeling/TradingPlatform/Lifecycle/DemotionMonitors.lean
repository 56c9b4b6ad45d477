import TradingPlatform.Lib.BlockSums
import Mathlib.Algebra.Order.Ring.Rat
import Mathlib.Algebra.Field.Rat
import Mathlib.Data.List.Find
import Mathlib.Tactic.NormNum

/-! # The CUSUM demotion monitor

`cusumDrift` runs once over the weekly returns with the recursion
`s = max(0, s + (mu0 - r) / sigma - k)`. `cusumDrift_blocks` says what the verdict
means without the recursion: it is about the drift accumulated over the contiguous
blocks of weeks. -/

namespace TradingPlatform.Lifecycle

open BlockSums

inductive Tier where
  | none
  | watch
  | safeMode
  deriving DecidableEq, Repr

inductive CusumDetail where
  | invalidSigma
  | measured (tripIndex : Option Nat) (sMax h : Rat)
  deriving DecidableEq, Repr

structure MonitorVerdict (Detail : Type) where
  name : String
  tier : Tier
  detail : Detail
  deriving DecidableEq, Repr

def MonitorVerdict.tripped {Detail : Type} (v : MonitorVerdict Detail) : Bool :=
  decide (v.tier ≠ .none)

/-- The variables of the loop. -/
structure CusumState where
  s : Rat := 0
  tripIndex : Option Nat := Option.none
  sMax : Rat := 0
  deriving DecidableEq, Repr

/-- What one week adds before the reset at zero. -/
def cusumIncrement (mu0 sigma k r : Rat) : Rat := (mu0 - r) / sigma - k

def cusumStep (mu0 sigma k h : Rat) (st : CusumState) : Rat × Nat → CusumState
  | (r, i) =>
    let s := max 0 (st.s + (mu0 - r) / sigma - k)
    { s := s
      sMax := max st.sMax s
      tripIndex := if s > h ∧ st.tripIndex = Option.none then some i else st.tripIndex }

def cusumLoop (mu0 sigma k h : Rat) (returns : List Rat) : CusumState :=
  returns.zipIdx.foldl (cusumStep mu0 sigma k h) {}

def cusumDrift (returns : List Rat) (mu0 sigma k h : Rat) : MonitorVerdict CusumDetail :=
  if sigma ≤ 0 then { name := "cusum", tier := .none, detail := .invalidSigma }
  else
    let st := cusumLoop mu0 sigma k h returns
    { name := "cusum"
      tier := if st.tripIndex ≠ Option.none then .safeMode else .none
      detail := .measured st.tripIndex st.sMax h }

section Loop

variable (mu0 sigma k h : Rat)

theorem cusumLoop_concat (returns : List Rat) (r : Rat) :
    cusumLoop mu0 sigma k h (returns ++ [r]) =
      cusumStep mu0 sigma k h (cusumLoop mu0 sigma k h returns) (r, returns.length) := by
  simp [cusumLoop, List.zipIdx_append]

/-- The accumulator is the reflected walk over the increments. -/
theorem cusumLoop_s (returns : List Rat) :
    (cusumLoop mu0 sigma k h returns).s = walk (returns.map (cusumIncrement mu0 sigma k)) := by
  induction returns using List.reverseRecOn with
  | nil => rfl
  | append_singleton returns r ih =>
    rw [cusumLoop_concat, List.map_append, List.map_singleton, walk_concat, ← ih]
    simp only [cusumStep, cusumIncrement, add_sub_assoc]

theorem cusumLoop_sMax (returns : List Rat) :
    IsGreatest (blockSums (returns.map (cusumIncrement mu0 sigma k)))
      (cusumLoop mu0 sigma k h returns).sMax := by
  induction returns using List.reverseRecOn with
  | nil =>
    refine ⟨⟨[], List.nil_infix, rfl⟩, ?_⟩
    rintro v ⟨t, ht, rfl⟩
    rw [List.infix_nil.mp ht]
    exact le_refl _
  | append_singleton returns r ih =>
    have hstep := isGreatest_blockSums_concat (cusumIncrement mu0 sigma k r) ih
    rw [List.map_append, List.map_singleton, cusumLoop_concat]
    have hs := cusumLoop_s mu0 sigma k h (returns ++ [r])
    rw [cusumLoop_concat, List.map_append, List.map_singleton] at hs
    rw [← hs] at hstep
    exact hstep

/-- `trip_index` is the first position after which the walk stands above `h`. -/
theorem cusumLoop_tripIndex (returns : List Rat) :
    (cusumLoop mu0 sigma k h returns).tripIndex =
      (List.range returns.length).find? fun i =>
        decide (h < walk ((returns.map (cusumIncrement mu0 sigma k)).take (i + 1))) := by
  induction returns using List.reverseRecOn with
  | nil => rfl
  | append_singleton returns r ih =>
    set drift := cusumIncrement mu0 sigma k
    have hlen : returns.length = (returns.map drift).length := by simp
    have hearlier : ∀ i ∈ List.range returns.length,
        decide (h < walk ((returns.map drift ++ [drift r]).take (i + 1))) =
          decide (h < walk ((returns.map drift).take (i + 1))) := by
      intro i hi
      have hlt := List.mem_range.mp hi
      rw [List.take_append_of_le_length (by omega)]
    have hlast : (returns.map drift ++ [drift r]).take (returns.length + 1) =
        (returns ++ [r]).map drift := by simp
    have hs := cusumLoop_s mu0 sigma k h (returns ++ [r])
    rw [cusumLoop_concat] at hs ⊢
    simp only [List.length_append, List.length_singleton, List.range_succ, List.map_append,
      List.map_singleton, List.find?_append, List.find?_singleton]
    rw [List.find?_congr hearlier, ← ih, hlast]
    simp only [cusumStep] at hs ⊢
    rw [← hs]
    cases (cusumLoop mu0 sigma k h returns).tripIndex with
    | none => simp
    | some j => simp

/-- The drift accumulated over the weeks `b` to `e`. -/
def blockDrift (returns : List Rat) (b e : Nat) : Rat :=
  ((segment returns b e).map (cusumIncrement mu0 sigma k)).sum

/-- Some block of weeks ending with week `e` drifted past `h`. -/
def DriftedAt (returns : List Rat) (e : Nat) : Prop :=
  ∃ b ≤ e, h < blockDrift mu0 sigma k returns b e

variable {h}

theorem lt_walk_iff_driftedAt {returns : List Rat} {e : Nat} (he : e < returns.length)
    (hh : 0 ≤ h) :
    h < walk ((returns.map (cusumIncrement mu0 sigma k)).take (e + 1)) ↔
      DriftedAt mu0 sigma k h returns e := by
  have hlen : e < (returns.map (cusumIncrement mu0 sigma k)).length := by simpa using he
  simp only [lt_walk_take_iff hlen hh, segment_map, DriftedAt, blockDrift]

theorem cusumLoop_tripIndex_eq_some (returns : List Rat) (hh : 0 ≤ h) (i : Nat) :
    (cusumLoop mu0 sigma k h returns).tripIndex = some i ↔
      i < returns.length ∧ DriftedAt mu0 sigma k h returns i ∧
        ∀ e < i, ¬ DriftedAt mu0 sigma k h returns e := by
  simp only [cusumLoop_tripIndex, List.find?_range_eq_some, List.mem_range, decide_eq_true_eq,
    Bool.not_eq_true', decide_eq_false_iff_not]
  constructor
  · rintro ⟨habove, hi, hbefore⟩
    refine ⟨hi, (lt_walk_iff_driftedAt mu0 sigma k hi hh).mp habove, fun e he hd => ?_⟩
    exact hbefore e he ((lt_walk_iff_driftedAt mu0 sigma k (he.trans hi) hh).mpr hd)
  · rintro ⟨hi, hd, hbefore⟩
    refine ⟨(lt_walk_iff_driftedAt mu0 sigma k hi hh).mpr hd, hi, fun e he habove => ?_⟩
    exact hbefore e he ((lt_walk_iff_driftedAt mu0 sigma k (he.trans hi) hh).mp habove)

theorem cusumLoop_tripIndex_ne_none (returns : List Rat) (hh : 0 ≤ h) :
    (cusumLoop mu0 sigma k h returns).tripIndex ≠ Option.none ↔
      ∃ e < returns.length, DriftedAt mu0 sigma k h returns e := by
  rw [cusumLoop_tripIndex, Ne, List.find?_range_eq_none]
  simp only [Bool.not_eq_true', decide_eq_false_iff_not, not_forall, not_not, exists_prop]
  constructor
  · rintro ⟨e, he, habove⟩
    exact ⟨e, he, (lt_walk_iff_driftedAt mu0 sigma k he hh).mp habove⟩
  · rintro ⟨e, he, hd⟩
    exact ⟨e, he, (lt_walk_iff_driftedAt mu0 sigma k he hh).mpr hd⟩

theorem cusumLoop_sMax_blocks (h : Rat) (returns : List Rat) :
    IsGreatest ({0} ∪ {v | ∃ b e, b ≤ e ∧ e < returns.length ∧
        v = blockDrift mu0 sigma k returns b e})
      (cusumLoop mu0 sigma k h returns).sMax := by
  have hset : {0} ∪ {v | ∃ b e, b ≤ e ∧ e < returns.length ∧
      v = blockDrift mu0 sigma k returns b e} =
        blockSums (returns.map (cusumIncrement mu0 sigma k)) := by
    ext v
    simp only [mem_blockSums_iff, segment_map, List.length_map, blockDrift,
      Set.mem_union, Set.mem_singleton_iff, Set.mem_ofPred_eq]
  rw [hset]
  exact cusumLoop_sMax mu0 sigma k h returns

end Loop

theorem cusumDrift_of_pos (returns : List Rat) (mu0 k h : Rat) {sigma : Rat} (hs : 0 < sigma) :
    cusumDrift returns mu0 sigma k h =
      { name := "cusum"
        tier := if (cusumLoop mu0 sigma k h returns).tripIndex ≠ Option.none
          then .safeMode else .none
        detail := .measured (cusumLoop mu0 sigma k h returns).tripIndex
          (cusumLoop mu0 sigma k h returns).sMax h } :=
  if_neg (not_le.mpr hs)

theorem cusumDrift_tripped (returns : List Rat) (mu0 k h : Rat) {sigma : Rat} (hs : 0 < sigma) :
    (cusumDrift returns mu0 sigma k h).tripped = true ↔
      (cusumLoop mu0 sigma k h returns).tripIndex ≠ Option.none := by
  rw [cusumDrift_of_pos returns mu0 k h hs]
  by_cases ht : (cusumLoop mu0 sigma k h returns).tripIndex = Option.none
  · simp [MonitorVerdict.tripped, ht]
  · simp [MonitorVerdict.tripped, ht]

/-- The monitor trips exactly when the drift over some block of weeks is above `h`. The index
it reports is the end of the earliest-ending such block, and `s_max` is the greatest drift
over any block, or zero. -/
theorem cusumDrift_blocks (returns : List Rat) (mu0 sigma k h : Rat) (hs : 0 < sigma)
    (hh : 0 < h) :
    ((cusumDrift returns mu0 sigma k h).tripped = true ↔
      ∃ b e, b ≤ e ∧ e < returns.length ∧ h < blockDrift mu0 sigma k returns b e) ∧
    ∃ tripIndex sMax,
      (cusumDrift returns mu0 sigma k h).detail = .measured tripIndex sMax h ∧
      (∀ i, tripIndex = some i ↔
        i < returns.length ∧ (∃ b ≤ i, h < blockDrift mu0 sigma k returns b i) ∧
          ∀ e < i, ∀ b ≤ e, blockDrift mu0 sigma k returns b e ≤ h) ∧
      IsGreatest ({0} ∪ {v | ∃ b e, b ≤ e ∧ e < returns.length ∧
        v = blockDrift mu0 sigma k returns b e}) sMax := by
  refine ⟨?_, (cusumLoop mu0 sigma k h returns).tripIndex, (cusumLoop mu0 sigma k h returns).sMax,
    ?_, fun i => ?_, cusumLoop_sMax_blocks mu0 sigma k h returns⟩
  · rw [cusumDrift_tripped returns mu0 k h hs,
      cusumLoop_tripIndex_ne_none mu0 sigma k returns hh.le]
    constructor
    · rintro ⟨e, he, b, hb, hlt⟩
      exact ⟨b, e, hb, he, hlt⟩
    · rintro ⟨b, e, hb, he, hlt⟩
      exact ⟨e, he, b, hb, hlt⟩
  · rw [cusumDrift_of_pos returns mu0 k h hs]
  · rw [cusumLoop_tripIndex_eq_some mu0 sigma k returns hh.le i]
    simp only [DriftedAt, not_exists, not_and, not_lt]

/-- Two weeks of two sigmas down trip a monitor that neither of them trips alone. -/
theorem cusumDrift_blocks_two_weeks :
    (cusumDrift [-2, -2, 3] 0 1 (1 / 2) 2).detail = .measured (some 1) 3 2 ∧
    (∃ b e, b ≤ e ∧ e < 3 ∧ 2 < blockDrift 0 1 (1 / 2) [-2, -2, 3] b e) ∧
    ∀ b ≤ 0, blockDrift 0 1 (1 / 2) [-2, -2, 3] b 0 ≤ 2 := by
  have hdetail : (cusumDrift [-2, -2, 3] 0 1 (1 / 2) 2).detail = .measured (some 1) 3 2 := by
    decide +kernel
  obtain ⟨htrip, tripIndex, sMax, hd, hindex, -⟩ :=
    cusumDrift_blocks [-2, -2, 3] 0 1 (1 / 2) 2 (by norm_num) (by norm_num)
  rw [hdetail] at hd
  injection hd with ht
  obtain ⟨_, _, hbefore⟩ := (hindex 1).mp ht.symm
  exact ⟨hdetail, htrip.mp (by decide +kernel), hbefore 0 (by norm_num)⟩

end TradingPlatform.Lifecycle
