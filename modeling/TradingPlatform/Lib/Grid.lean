import Mathlib.Data.Int.ConditionallyCompleteOrder
import Mathlib.Data.Int.Interval
import Mathlib.Data.Set.Card
import Mathlib.Data.Set.Finite.Lattice
import Mathlib.Algebra.Order.BigOperators.Group.List
import Mathlib.Tactic.Linarith
import Mathlib.Tactic.Ring

/-! # Points on a grid

What lies between consecutive points of a set is counted pair by pair, and between
two points of a strictly monotone grid by their indexes. A grid that starts anew
in each period is one such grid; its points lie at most a step apart, and closer
where the step does not divide the period. -/

namespace TradingPlatform.Lib.Grid

/-! ## Consecutive points -/

section Consecutive
variable {α : Type*} [LinearOrder α]

/-- `b` is the next point of the list after `a`. -/
def Consecutive (l : List α) (a b : α) : Prop :=
  a ∈ l ∧ b ∈ l ∧ a < b ∧ ∀ c ∈ l, a < c → b ≤ c

theorem consecutive_congr {l l' : List α} (h : ∀ a, a ∈ l ↔ a ∈ l') {a b : α} :
    Consecutive l a b ↔ Consecutive l' a b := by
  simp only [Consecutive, h]

theorem mem_zip_tail_iff {l : List α} (h : l.Pairwise (· < ·)) {a b : α} :
    (a, b) ∈ l.zip l.tail ↔ Consecutive l a b := by
  induction l with
  | nil => simp [Consecutive]
  | cons x rest ih =>
    obtain ⟨hx, hrest⟩ := List.pairwise_cons.mp h
    cases rest with
    | nil =>
      simp only [Consecutive, List.tail_cons, List.zip_nil_right, List.not_mem_nil, false_iff,
        List.mem_singleton]
      rintro ⟨rfl, rfl, hlt, -⟩
      exact lt_irrefl _ hlt
    | cons y rest =>
      have hzip : (a, b) ∈ (x :: y :: rest).zip (x :: y :: rest).tail ↔
          (a, b) = (x, y) ∨ (a, b) ∈ (y :: rest).zip (y :: rest).tail := List.mem_cons
      rw [hzip, ih hrest]
      constructor
      · rintro (heq | ⟨ha, hb, hlt, hnext⟩)
        · cases heq
          refine ⟨by simp, by simp, hx b (by simp), fun c hc hlt => ?_⟩
          rcases List.mem_cons.mp hc with rfl | hc
          · exact absurd hlt (lt_irrefl _)
          · rcases List.mem_cons.mp hc with rfl | hc
            · exact le_rfl
            · exact ((List.pairwise_cons.mp hrest).1 c hc).le
        · refine ⟨List.mem_cons_of_mem _ ha, List.mem_cons_of_mem _ hb, hlt, fun c hc hlt' => ?_⟩
          rcases List.mem_cons.mp hc with rfl | hc
          · exact absurd hlt' (lt_asymm (hx a ha))
          · exact hnext c hc hlt'
      · rintro ⟨ha, hb, hlt, hnext⟩
        have hb' : b ∈ y :: rest := by
          rcases List.mem_cons.mp hb with rfl | hb
          · rcases List.mem_cons.mp ha with rfl | ha
            · exact absurd hlt (lt_irrefl _)
            · exact absurd hlt (lt_asymm (hx a ha))
          · exact hb
        rcases List.mem_cons.mp ha with rfl | ha
        · have hle : b ≤ y := hnext y (by simp) (hx y (by simp))
          rcases List.mem_cons.mp hb' with rfl | hb'
          · exact .inl rfl
          · exact absurd ((List.pairwise_cons.mp hrest).1 b hb') (not_lt.mpr hle)
        · exact .inr ⟨ha, hb', hlt, fun c hc => hnext c (List.mem_cons_of_mem _ hc)⟩

/-- **What lies between** consecutive points is counted pair by pair. -/
theorem ncard_between {l : List α} (h : l.Pairwise (· < ·)) {Q : α → α → Set α}
    (hQ : ∀ a b, Q a b ⊆ Set.Ioo a b) (hfin : ∀ a b, (Q a b).Finite) :
    {u | ∃ a b, Consecutive l a b ∧ u ∈ Q a b}.ncard =
      ((l.zip l.tail).map fun p => (Q p.1 p.2).ncard).sum := by
  have hset : {u | ∃ a b, Consecutive l a b ∧ u ∈ Q a b} =
      ⋃ p ∈ {p | p ∈ l.zip l.tail}, Q p.1 p.2 := by
    ext u
    simp only [Set.mem_ofPred_eq, Set.mem_iUnion, Prod.exists, exists_prop, ← mem_zip_tail_iff h]
  rw [hset]
  clear hset
  induction l with
  | nil => simp
  | cons x rest ih =>
    obtain ⟨hx, hrest⟩ := List.pairwise_cons.mp h
    cases rest with
    | nil => simp
    | cons y rest =>
      have hsplit : ⋃ p ∈ {p | p ∈ (x :: y :: rest).zip (x :: y :: rest).tail}, Q p.1 p.2 =
          Q x y ∪ ⋃ p ∈ {p | p ∈ (y :: rest).zip (y :: rest).tail}, Q p.1 p.2 := by
        ext u
        simp
      have hlate : ∀ p ∈ (y :: rest).zip (y :: rest).tail, y ≤ p.1 := by
        rintro ⟨a, b⟩ hp
        rcases List.mem_cons.mp (List.of_mem_zip hp).1 with hay | ha
        · exact hay.ge
        · exact ((List.pairwise_cons.mp hrest).1 a ha).le
      rw [hsplit, Set.ncard_union_eq ?_ (hfin x y) ?_, ih hrest]
      · simp
      · rw [Set.disjoint_left]
        intro u hu hu'
        obtain ⟨p, hp, hu'⟩ := Set.mem_iUnion₂.mp hu'
        exact absurd ((hQ _ _ hu).2.trans_le (hlate p hp)) (lt_asymm (hQ _ _ hu').1)
      · exact Set.Finite.biUnion (List.finite_toSet _) fun p _ => hfin p.1 p.2

end Consecutive

/-- Totals of terms that are at most others agree exactly when each term agrees. -/
theorem sum_eq_iff_of_le {ι : Type*} {xs : List ι} {f g : ι → ℤ} (h : ∀ x ∈ xs, f x ≤ g x) :
    (xs.map f).sum = (xs.map g).sum ↔ ∀ x ∈ xs, f x = g x := by
  induction xs with
  | nil => simp
  | cons x xs ih =>
    obtain ⟨hx, hxs⟩ := List.forall_mem_cons.mp h
    have hle : (xs.map f).sum ≤ (xs.map g).sum := List.sum_le_sum hxs
    simp only [List.map_cons, List.sum_cons, List.forall_mem_cons, ← ih hxs]
    omega

/-! ## Indexes -/

/-- Between two points of a strictly monotone grid lie those with an index between. -/
theorem ncard_range_inter_Ioo {g : ℤ → ℤ} (hg : StrictMono g) (i j : ℤ) :
    (Set.range g ∩ Set.Ioo (g i) (g j)).ncard = (j - i - 1).toNat := by
  have himage : Set.range g ∩ Set.Ioo (g i) (g j) = g '' Set.Ioo i j := by
    ext u
    constructor
    · rintro ⟨⟨n, rfl⟩, hlt, hlt'⟩
      exact ⟨n, ⟨hg.lt_iff_lt.mp hlt, hg.lt_iff_lt.mp hlt'⟩, rfl⟩
    · rintro ⟨n, ⟨hlt, hlt'⟩, rfl⟩
      exact ⟨⟨n, rfl⟩, hg hlt, hg hlt'⟩
  rw [himage, Set.ncard_image_of_injective _ hg.injective, ← Finset.coe_Ioo, Set.ncard_coe_finset,
    Int.card_Ioo]

/-! ## Grids that start anew -/

section Periodic
variable (period step : ℤ)

/-- How many points a period has. -/
def perPeriod : ℤ := (period - 1) / step + 1

/-- The points of all periods, in order. -/
def point (n : ℤ) : ℤ := n / perPeriod period step * period + n % perPeriod period step * step

variable {period step} (hperiod : 0 < period) (hstep : 0 < step)
include hperiod hstep

theorem perPeriod_pos : 0 < perPeriod period step := by
  have hnonneg : 0 ≤ (period - 1) / step := Int.ediv_nonneg (by omega) hstep.le
  unfold perPeriod
  omega

omit hperiod in
theorem lt_perPeriod_iff {k : ℤ} : k < perPeriod period step ↔ k * step < period := by
  rw [perPeriod, Int.lt_add_one_iff, Int.le_ediv_iff_mul_le hstep]
  omega

variable (period) in
omit hperiod in
/-- The steps of a period reach its end, -/
theorem period_le : period ≤ perPeriod period step * step :=
  not_lt.mp fun h => lt_irrefl _ ((lt_perPeriod_iff hstep).mpr h)

omit hperiod in
/-- and no further exactly when they divide it. -/
theorem period_eq_iff : period = perPeriod period step * step ↔ step ∣ period := by
  constructor
  · intro h
    exact ⟨perPeriod period step, by rw [Int.mul_comm]; exact h⟩
  · rintro ⟨c, rfl⟩
    have hle := period_le (step * c) hstep
    have hlast : (perPeriod (step * c) step - 1) * step < step * c :=
      (lt_perPeriod_iff hstep).mp (by omega)
    rw [Int.mul_comm (perPeriod (step * c) step)] at hle
    rw [Int.mul_comm _ step] at hlast
    have hc : c ≤ perPeriod (step * c) step := le_of_mul_le_mul_left hle hstep
    have hc' : perPeriod (step * c) step - 1 < c := lt_of_mul_lt_mul_left hlast hstep.le
    have heq : perPeriod (step * c) step = c := by omega
    rw [heq, Int.mul_comm]

/-- An index is a period and a place in it. -/
theorem point_eq {d k : ℤ} (hk : 0 ≤ k) (hlt : k * step < period) :
    point period step (d * perPeriod period step + k) = d * period + k * step := by
  have hpos := perPeriod_pos hperiod hstep
  have hk' := (lt_perPeriod_iff hstep).mpr hlt
  unfold point
  rw [Int.add_comm (d * perPeriod period step), Int.add_mul_ediv_right _ _ hpos.ne',
    Int.add_mul_emod_self_right, Int.ediv_eq_zero_of_lt hk hk', Int.emod_eq_of_lt hk hk', zero_add]

theorem mem_range_point {u : ℤ} : u ∈ Set.range (point period step) ↔
    ∃ d k, 0 ≤ k ∧ k * step < period ∧ u = d * period + k * step := by
  have hpos := perPeriod_pos hperiod hstep
  constructor
  · rintro ⟨n, rfl⟩
    refine ⟨n / perPeriod period step, n % perPeriod period step, Int.emod_nonneg _ hpos.ne', ?_, rfl⟩
    exact (lt_perPeriod_iff hstep).mp (Int.emod_lt_of_pos _ hpos)
  · rintro ⟨d, k, hk, hlt, rfl⟩
    exact ⟨_, point_eq hperiod hstep hk hlt⟩

omit hperiod hstep in
/-- A point, from where it would be if periods were as long as their steps. -/
theorem point_eq_sub (n : ℤ) : point period step n =
    n * step - n / perPeriod period step * (perPeriod period step * step - period) := by
  have hdiv := Int.ediv_mul_add_emod n (perPeriod period step)
  unfold point
  generalize n / perPeriod period step = d, n % perPeriod period step = k at *
  rw [← hdiv]
  ring

theorem point_strictMono : StrictMono (point period step) := by
  refine strictMono_int_of_lt_succ fun n => ?_
  have hpos := perPeriod_pos hperiod hstep
  have hdiv := Int.ediv_mul_add_emod n (perPeriod period step)
  have hk := Int.emod_nonneg n hpos.ne'
  have hlt := Int.emod_lt_of_pos n hpos
  have hhere : point period step n = n / perPeriod period step * period +
      n % perPeriod period step * step := rfl
  rw [hhere]
  generalize n / perPeriod period step = d, n % perPeriod period step = k at *
  have hkstep := (lt_perPeriod_iff hstep).mp hlt
  by_cases hnext : k + 1 < perPeriod period step
  · have hn : n + 1 = d * perPeriod period step + (k + 1) := by omega
    rw [hn, point_eq hperiod hstep (by omega) ((lt_perPeriod_iff hstep).mp hnext)]
    linarith
  · have hn : n + 1 = (d + 1) * perPeriod period step + 0 := by
      rw [Int.add_mul]
      omega
    rw [hn, point_eq hperiod hstep le_rfl (by simpa using hperiod)]
    linarith

/-- Points lie at most a step apart for each index between them, and exactly so where no
period starts between them or the step divides the period. -/
theorem point_sub_le {i j : ℤ} (h : i ≤ j) :
    point period step j - point period step i ≤ (j - i) * step ∧
      (point period step j - point period step i = (j - i) * step ↔
        step ∣ period ∨ i / perPeriod period step = j / perPeriod period step) := by
  have hpos := perPeriod_pos hperiod hstep
  have hle := period_le period hstep
  have hdiv : i / perPeriod period step ≤ j / perPeriod period step :=
    Int.ediv_le_ediv hpos h
  have hprod : 0 ≤ (j / perPeriod period step - i / perPeriod period step) *
      (perPeriod period step * step - period) :=
    mul_nonneg (by omega) (by omega)
  have hsub : point period step j - point period step i = (j - i) * step -
      (j / perPeriod period step - i / perPeriod period step) *
        (perPeriod period step * step - period) := by
    rw [point_eq_sub, point_eq_sub]
    ring
  rw [hsub]
  refine ⟨by omega, ?_⟩
  rw [sub_eq_self, mul_eq_zero, ← period_eq_iff hstep]
  omega

end Periodic

end TradingPlatform.Lib.Grid
