import Mathlib.Algebra.BigOperators.Group.List.Basic
import Mathlib.Algebra.Order.Field.Basic
import Mathlib.Data.List.Induction
import Mathlib.Tactic.FieldSimp
import Mathlib.Tactic.Positivity
import Mathlib.Tactic.Ring

/-! # The unitized return of a leg

P&L moves the NAV of the units outstanding, a reallocation moves the number of units at
that NAV. Arithmetic is exact, over any ordered field. -/

namespace TradingPlatform.Control.LegReturn

section Model
variable (K : Type*)

structure LegNavState where
  units : K
  nav : K
  pnlCum : K
  capitalBase : K
  deriving DecidableEq

structure Observation where
  pnlCum : K
  capitalBase : K
  deriving DecidableEq

end Model

variable {K : Type*} [Field K] [LinearOrder K]

def startNav : K := 100

/-- First sight of the leg: the units stand for the capital base. -/
def seedNavState (pnlCum capitalBase : K) : LegNavState K where
  units := if 0 < capitalBase then capitalBase / startNav else 0
  nav := startNav
  pnlCum
  capitalBase

def nextNavState (prev : Option (LegNavState K)) (pnlCum capitalBase : K) : LegNavState K :=
  match prev with
  | none => seedNavState pnlCum capitalBase
  | some prev =>
    if prev.units ≤ 0 ∨ prev.nav ≤ 0 then seedNavState pnlCum capitalBase
    else
      let pnlDelta := pnlCum - prev.pnlCum
      let earned := prev.nav + pnlDelta / prev.units
      let nav := if earned ≤ 0 then 1e-9 else earned
      let units := if 0 < capitalBase then capitalBase / nav else prev.units
      { units, nav, pnlCum, capitalBase }

/-- The state after the observations, oldest first. -/
def navState (obs : List (Observation K)) : Option (LegNavState K) :=
  obs.foldl (fun prev o => some (nextNavState prev o.pnlCum o.capitalBase)) none

def navOf (obs : List (Observation K)) : Option K := (navState obs).map LegNavState.nav

/-! ## The chain-linked return -/

/-- The last positive capital base seen, and the P&L accrued since. -/
def capitalInForce (seen : List (Observation K)) : K :=
  match (seen.filter fun o => 0 < o.capitalBase).getLast?, seen.getLast? with
  | some funded, some last => funded.capitalBase + (last.pnlCum - funded.pnlCum)
  | _, _ => 0

/-- What the observation after the first `i + 1` earns on the capital in force. -/
def link (obs : List (Observation K)) (i : ℕ) : K :=
  let pnl j := (obs[j]?.map Observation.pnlCum).getD 0
  1 + (pnl (i + 1) - pnl i) / capitalInForce (obs.take (i + 1))

def chainLinkedNav (obs : List (Observation K)) : K :=
  100 * ((List.range (obs.length - 1)).map (link obs)).prod

def Observation.scale (k : K) (o : Observation K) : Observation K where
  pnlCum := k * o.pnlCum
  capitalBase := k * o.capitalBase

/-- **The NAV is the chain-linked return**, blind to capital flows and to scale. -/
structure ChainLinked (obs : List (Observation K)) : Prop where
  nav : navOf obs = some (chainLinkedNav obs)
  flows : ∀ last ∈ obs.getLast?, ∀ capitalBase,
    navOf (obs ++ [{ last with capitalBase }]) = navOf obs
  scale : ∀ k, 0 < k → navOf (obs.map (Observation.scale k)) = navOf obs

theorem navState_concat (obs : List (Observation K)) (o : Observation K) :
    navState (obs ++ [o]) = some (nextNavState (navState obs) o.pnlCum o.capitalBase) := by
  simp [navState]

theorem capitalInForce_concat {obs : List (Observation K)} {last : Observation K}
    (hlast : obs.getLast? = some last) (hfunded : ∃ o ∈ obs, 0 < o.capitalBase)
    (o : Observation K) :
    capitalInForce (obs ++ [o]) =
      if 0 < o.capitalBase then o.capitalBase
      else capitalInForce obs + (o.pnlCum - last.pnlCum) := by
  by_cases ho : 0 < o.capitalBase
  · simp [capitalInForce, List.filter_append, ho]
  · obtain ⟨f, hf, hpos⟩ := hfunded
    have hne : obs.filter (fun o => 0 < o.capitalBase) ≠ [] :=
      List.ne_nil_of_mem (List.mem_filter.mpr ⟨hf, by simpa using hpos⟩)
    have hsome := List.getLast?_eq_some_getLast hne
    simp only [capitalInForce, List.filter_append, List.filter_cons, List.filter_nil, ho, hsome,
      hlast, decide_false, Bool.false_eq_true, if_false, List.append_nil, List.getLast?_concat]
    ring

theorem chainLinkedNav_concat {obs : List (Observation K)} {last : Observation K}
    (hlast : obs.getLast? = some last) (o : Observation K) :
    chainLinkedNav (obs ++ [o]) =
      chainLinkedNav obs * (1 + (o.pnlCum - last.pnlCum) / capitalInForce obs) := by
  obtain ⟨n, hn⟩ : ∃ n, obs.length = n + 1 := by
    refine Nat.exists_eq_succ_of_ne_zero fun hzero => ?_
    rw [List.length_eq_zero_iff] at hzero
    simp [hzero] at hlast
  have hold : ∀ i ∈ List.range n, link (obs ++ [o]) i = link obs i := by
    intro i hi
    have hi := List.mem_range.mp hi
    simp only [link, List.getElem?_append_left (show i + 1 < obs.length by omega),
      List.getElem?_append_left (show i < obs.length by omega),
      List.take_append_of_le_length (show i + 1 ≤ obs.length by omega)]
  have hnew : link (obs ++ [o]) n = 1 + (o.pnlCum - last.pnlCum) / capitalInForce obs := by
    have hlast : obs[n]? = some last := by
      rw [← hlast, List.getLast?_eq_getElem?, hn, Nat.add_sub_cancel]
    have hseen : (obs ++ [o])[n]? = some last := by
      rw [List.getElem?_append_left (by omega), hlast]
    rw [link, ← hn, List.take_left]
    simp [hseen]
  simp only [chainLinkedNav, List.length_append, List.length_singleton, hn, Nat.add_sub_cancel,
    List.range_succ, List.map_append, List.prod_append, List.map_congr_left hold,
    List.map_singleton, List.prod_singleton, hnew, mul_assoc]

variable [IsStrictOrderedRing K]

/-- The state against the observations: the units at the NAV are the capital in force. -/
structure Unitized (obs : List (Observation K)) (s : LegNavState K) : Prop where
  units_pos : 0 < s.units
  nav_pos : 0 < s.nav
  nav : s.nav = chainLinkedNav obs
  capital : s.units * s.nav = capitalInForce obs
  pnl : ∀ last ∈ obs.getLast?, s.pnlCum = last.pnlCum
  funded : ∃ o ∈ obs, 0 < o.capitalBase

theorem unitized_first {first : Observation K} (h : 0 < first.capitalBase) :
    Unitized [first] (seedNavState first.pnlCum first.capitalBase) where
  units_pos := by simp [seedNavState, startNav, h]
  nav_pos := by simp [seedNavState, startNav]
  nav := by simp [seedNavState, startNav, chainLinkedNav]
  capital := by simp [seedNavState, startNav, capitalInForce, h]
  pnl := by simp [seedNavState]
  funded := ⟨first, List.mem_cons_self, h⟩

omit [IsStrictOrderedRing K] in
/-- The observation's P&L is earned on the units outstanding. -/
theorem earned_eq {obs : List (Observation K)} {s : LegNavState K} (h : Unitized obs s)
    {last : Observation K} (hlast : obs.getLast? = some last) (o : Observation K) :
    s.nav + (o.pnlCum - s.pnlCum) / s.units = chainLinkedNav (obs ++ [o]) := by
  have hunits := h.units_pos.ne'
  have hnav := h.nav_pos.ne'
  rw [chainLinkedNav_concat hlast, ← h.capital, ← h.nav, h.pnl last hlast]
  field_simp

/-- **One observation**, while the chain-linked return stays positive. -/
theorem unitized_next {obs : List (Observation K)} {s : LegNavState K} (h : Unitized obs s)
    (hne : obs ≠ []) (o : Observation K) (hpos : 0 < chainLinkedNav (obs ++ [o])) :
    Unitized (obs ++ [o]) (nextNavState (some s) o.pnlCum o.capitalBase) := by
  have hlast := List.getLast?_eq_some_getLast hne
  have hseeded : ¬ (s.units ≤ 0 ∨ s.nav ≤ 0) := by
    simp [h.units_pos, h.nav_pos]
  have hearned := earned_eq h hlast o
  have hclamp : ¬ s.nav + (o.pnlCum - s.pnlCum) / s.units ≤ 0 := by
    rw [hearned]
    exact hpos.not_ge
  have hnext : nextNavState (some s) o.pnlCum o.capitalBase =
      { units := if 0 < o.capitalBase then o.capitalBase / chainLinkedNav (obs ++ [o])
          else s.units
        nav := chainLinkedNav (obs ++ [o])
        pnlCum := o.pnlCum
        capitalBase := o.capitalBase } := by
    rw [hearned] at hclamp
    simp only [nextNavState, if_neg hseeded, hearned, if_neg hclamp]
  rw [hnext]
  refine ⟨?_, hpos, rfl, ?_, by simp, ?_⟩
  · dsimp only
    split_ifs with ho
    · exact div_pos ho hpos
    · exact h.units_pos
  · rw [capitalInForce_concat hlast h.funded]
    dsimp only
    split_ifs with ho
    · exact div_mul_cancel₀ _ hpos.ne'
    · -- the units stay, and what they earn is the P&L accrued
      have hunits := h.units_pos.ne'
      rw [← hearned, ← h.capital, h.pnl _ hlast]
      field_simp
  · obtain ⟨f, hf, hfunded⟩ := h.funded
    exact ⟨f, List.mem_append_left _ hf, hfunded⟩

theorem unitized_navState {first : Observation K} (hfirst : 0 < first.capitalBase)
    (rest : List (Observation K))
    (hpos : ∀ n, 0 < chainLinkedNav (first :: rest.take n)) :
    ∃ s, navState (first :: rest) = some s ∧ Unitized (first :: rest) s := by
  induction rest using List.reverseRecOn with
  | nil => exact ⟨_, rfl, unitized_first hfirst⟩
  | append_singleton rest o ih =>
    have hprefix : ∀ n, 0 < chainLinkedNav (first :: rest.take n) := by
      intro n
      have hn := hpos (min n rest.length)
      rwa [List.take_append_of_le_length (Nat.min_le_right _ _), ← List.take_eq_take_min] at hn
    have hwhole := hpos (rest ++ [o]).length
    rw [List.take_length] at hwhole
    obtain ⟨s, hs, hunitized⟩ := ih hprefix
    refine ⟨nextNavState (some s) o.pnlCum o.capitalBase, ?_,
      unitized_next hunitized (by simp) o hwhole⟩
    rw [← List.cons_append, navState_concat, hs]

/-! ## Scaling -/

def LegNavState.scale (k : K) (s : LegNavState K) : LegNavState K where
  units := k * s.units
  nav := s.nav
  pnlCum := k * s.pnlCum
  capitalBase := k * s.capitalBase

theorem nextNavState_scale {k : K} (hk : 0 < k) (prev : Option (LegNavState K))
    (o : Observation K) :
    nextNavState (prev.map (LegNavState.scale k)) (o.scale k).pnlCum (o.scale k).capitalBase =
      (nextNavState prev o.pnlCum o.capitalBase).scale k := by
  have hseed : seedNavState (k * o.pnlCum) (k * o.capitalBase) =
      (seedNavState o.pnlCum o.capitalBase).scale k := by
    simp only [seedNavState, LegNavState.scale, mul_pos_iff_of_pos_left hk, mul_ite, mul_zero,
      mul_div_assoc]
  cases prev with
  | none => exact hseed
  | some s =>
    have hdelta : (k * o.pnlCum - k * s.pnlCum) / (k * s.units) =
        (o.pnlCum - s.pnlCum) / s.units := by
      rw [← mul_sub, mul_div_mul_left _ _ hk.ne']
    have hneg : k * s.units ≤ 0 ↔ s.units ≤ 0 := by
      rw [← not_lt, ← not_lt, mul_pos_iff_of_pos_left hk]
    simp only [nextNavState, Option.map_some, LegNavState.scale, Observation.scale, hdelta, hneg]
    by_cases hseeded : s.units ≤ 0 ∨ s.nav ≤ 0
    · rw [if_pos hseeded, if_pos hseeded, hseed]
      rfl
    · rw [if_neg hseeded, if_neg hseeded]
      simp only [mul_pos_iff_of_pos_left hk, mul_ite, mul_div_assoc]

theorem navState_scale {k : K} (hk : 0 < k) (obs : List (Observation K)) :
    navState (obs.map (Observation.scale k)) = (navState obs).map (LegNavState.scale k) := by
  induction obs using List.reverseRecOn with
  | nil => rfl
  | append_singleton obs o ih =>
    rw [List.map_append, List.map_singleton, navState_concat, ih, navState_concat,
      nextNavState_scale hk, Option.map_some]

/-- **The NAV is the chain-linked return** of every sequence of observations that starts
with a positive capital base and on which that return stays positive. -/
theorem chainLinked {first : Observation K} (hfirst : 0 < first.capitalBase)
    (rest : List (Observation K))
    (hpos : ∀ n, 0 < chainLinkedNav (first :: rest.take n)) :
    ChainLinked (first :: rest) := by
  obtain ⟨s, hs, hunitized⟩ := unitized_navState hfirst rest hpos
  refine ⟨?_, fun last hlast capitalBase => ?_, fun k hk => ?_⟩
  · rw [navOf, hs, Option.map_some, hunitized.nav]
  · have hseeded : ¬ (s.units ≤ 0 ∨ s.nav ≤ 0) := by
      simp [hunitized.units_pos, hunitized.nav_pos]
    have hflat : (nextNavState (some s) last.pnlCum capitalBase).nav = s.nav := by
      simp only [nextNavState, if_neg hseeded, hunitized.pnl last hlast, sub_self, zero_div,
        add_zero, if_neg hunitized.nav_pos.not_ge]
    rw [navOf, navOf, navState_concat, hs, Option.map_some, Option.map_some, hflat]
  · rw [navOf, navOf, navState_scale hk, Option.map_map]
    rfl

/-- A gain, a stretch without capital, and a loss on what was left. -/
theorem chainLinked_zero_capital :
    ChainLinked ([⟨0, 50000⟩, ⟨1000, 0⟩, ⟨-4100, -10⟩, ⟨-4100, 9000⟩] : List (Observation ℚ)) := by
  refine chainLinked (by norm_num) _ fun n => ?_
  match n with
  | 0 | 1 | 2 => decide +kernel
  | n + 3 =>
    rw [List.take_of_length_le (by simp)]
    decide +kernel

end TradingPlatform.Control.LegReturn
