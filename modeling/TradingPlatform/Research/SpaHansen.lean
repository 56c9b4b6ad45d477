import TradingPlatform.Research.StepwiseRw
import Mathlib.Analysis.SpecialFunctions.Log.Basic

/-! # The SPA test

Does any strategy beat the benchmark: the largest statistic against its bootstrap, where
the poor strategies are not recentred. On the same rows of the bootstrap, a strategy that
stepwise Romano-Wolf selects bounds the p-value. -/

namespace TradingPlatform.Research.Spa

open TradingPlatform.Lib TradingPlatform.Lib.Moments TradingPlatform.Lib.Quantile

inductive SpaHansenError
  | core (e : SpaError)
  | emptyMax
  deriving DecidableEq

structure SpaResult (L : ℕ) (K : Type) where
  pValue : K
  statistic : Option K
  reject5pct : Bool
  studentized : Option (Fin L → K)
  nBoot : ℕ

section Source
variable {K : Type} [Field K] [LinearOrder K] {T L : ℕ} (sqrt log : K → K)

/-- `row.max()`. -/
def rowMax (row : Fin L → K) : K := ((List.finRange L).map row).max?.getD 0

/-- A statistic below this is a poor one. -/
def recentringThreshold (T : ℕ) : K := -sqrt (((2 : ℕ) : K) * log (log (max T 3 : ℕ)))

/-- What each strategy is recentred by. -/
def recentring (T : ℕ) (c : Core L K) (k : Fin L) : K :=
  if recentringThreshold sqrt log T ≤ c.w k then c.dBar k else 0

def spaStatistic (c : Core L K) : K := max (rowMax c.w) 0

def bootMax (T : ℕ) (c : Core L K) : List K :=
  c.bootMeans.map fun mean =>
    max (rowMax fun k => sqrt T * (mean k - recentring sqrt log T c k) / c.omega k) 0

/-- The share of the bootstrap at the statistic or above. -/
def spaPValue (T : ℕ) (c : Core L K) : K :=
  (bootMax sqrt log T c).countP (spaStatistic c ≤ ·) / c.bootMeans.length

/-- The result of the test, from the statistics on. -/
def spaResult (T : ℕ) (nBoot : ℕ) : Option (Core L K) → SpaResult L K
  -- no bootstrap value compares with a statistic that is not a number
  | none => ⟨0, none, true, none, nBoot⟩
  | some c =>
    let pValue := spaPValue sqrt log T c
    ⟨pValue, some (spaStatistic c), decide (pValue < 1 / ((20 : ℕ) : K)), some c.w, nBoot⟩

def spaHansen (perf : Fin T → Fin L → K) (bench : List K) (idx : List (Fin T → Fin T))
    (ledgerUniverseSize : Option ℕ) : Except SpaHansenError (SpaResult L K) := do
  let c ← (core sqrt perf bench idx).mapError .core
  if let some n := ledgerUniverseSize then (assertFullUniverse L n).mapError .core
  if L = 0 then .error .emptyMax
  else .ok (spaResult sqrt log T idx.length c)

end Source

/-! ## The two null distributions -/

section Null
variable {K : Type} [Field K] [LinearOrder K] [IsStrictOrderedRing K] {T L : ℕ}

omit [IsStrictOrderedRing K] in
theorem le_rowMax (row : Fin L → K) (k : Fin L) : row k ≤ rowMax row := by
  have hmem : row k ∈ (List.finRange L).map row := List.mem_map_of_mem (List.mem_finRange k)
  obtain ⟨x, hx⟩ := Option.isSome_iff_exists.mp
    (List.isSome_max?_of_ne_nil (List.ne_nil_of_mem hmem))
  rw [rowMax, hx]
  exact (List.max?_eq_some_iff.mp hx).2 _ hmem

omit [IsStrictOrderedRing K] in
/-- The largest value of a row is one of them. -/
theorem exists_rowMax (row : Fin L → K) (hL : 0 < L) : ∃ k, rowMax row = row k := by
  have hmem : row ⟨0, hL⟩ ∈ (List.finRange L).map row := List.mem_map_of_mem (List.mem_finRange _)
  obtain ⟨x, hx⟩ := Option.isSome_iff_exists.mp
    (List.isSome_max?_of_ne_nil (List.ne_nil_of_mem hmem))
  obtain ⟨k, -, hk⟩ := List.mem_map.mp (List.max?_eq_some_iff.mp hx).1
  exact ⟨k, by rw [rowMax, hx, hk]; rfl⟩

omit [IsStrictOrderedRing K] in
theorem rowMax_le_rowMax {row row' : Fin L → K} (h : ∀ k, row k ≤ row' k) :
    rowMax row ≤ rowMax row' := by
  rcases Nat.eq_zero_or_pos L with rfl | hL
  · exact le_rfl
  · obtain ⟨k, hk⟩ := exists_rowMax row hL
    rw [hk]
    exact (h k).trans (le_rowMax row' k)

/-- What the statistics of a call are made of. -/
structure Studentized (sqrt : K → K) (T : ℕ) (c : Core L K) : Prop where
  omega_pos : ∀ k, 0 < c.omega k
  w_eq : ∀ k, c.w k = sqrt T * c.dBar k / c.omega k

theorem eps_pos : (0 : K) < eps := by
  unfold eps
  positivity

theorem core_studentized {sqrt : K → K} {perf : Fin T → Fin L → K} {bench : List K}
    {idx : List (Fin T → Fin T)} {c : Core L K} (h : core sqrt perf bench idx = .ok (some c)) :
    Studentized sqrt T c ∧ c.bootMeans.length = idx.length ∧ idx ≠ [] := by
  unfold core at h
  by_cases hbench : bench.length ≠ T
  · rw [if_pos hbench] at h
    cases h
  by_cases hidx : idx = []
  · rw [if_neg hbench, if_pos hidx] at h
    cases h
  by_cases hnan : T = 0 ∨ idx.length = 1
  · rw [if_neg hbench, if_neg hidx, if_pos hnan] at h
    cases h
  rw [if_neg hbench, if_neg hidx, if_neg hnan] at h
  obtain rfl := Option.some.inj (Except.ok.inj h)
  refine ⟨⟨fun k => ?_, fun k => rfl⟩, List.length_map _, hidx⟩
  dsimp only
  split
  case isTrue => exact eps_pos
  case isFalse hlarge => exact eps_pos.trans_le (not_lt.mp hlarge)

variable {sqrt log : K → K} {c : Core L K}

/-- Only strategies that lose to the benchmark go without their recentring. -/
theorem dBar_le_recentring (hc : Studentized sqrt T c) (hsqrt : ∀ x, 0 ≤ sqrt x) (k : Fin L) :
    c.dBar k ≤ recentring sqrt log T c k := by
  unfold recentring
  split
  case isTrue => exact le_rfl
  case isFalse hpoor =>
    have hw : c.w k < 0 :=
      (not_le.mp hpoor).trans_le (neg_nonpos.mpr (hsqrt _))
    rw [hc.w_eq, div_neg_iff] at hw
    rcases hw with ⟨-, hneg⟩ | ⟨hneg, -⟩
    · exact absurd hneg (hc.omega_pos k).not_gt
    · by_contra hpos
      exact absurd hneg (mul_nonneg (hsqrt _) (not_le.mp hpos).le).not_gt

variable (log) in
/-- A bootstrap value of the SPA test that is above zero is at most the largest recentred
statistic of its row. -/
theorem bootMax_le (hc : Studentized sqrt T c) (hsqrt : ∀ x, 0 ≤ sqrt x) :
    List.Forall₂ (fun a b => a ≤ max b 0) (bootMax sqrt log T c)
      (maxNull (bootStd (T := T) sqrt c) (List.finRange L)) := by
  unfold bootMax maxNull bootStd
  rw [List.map_map]
  refine List.forall₂_map_right_iff.mpr (List.forall₂_map_left_iff.mpr
    (List.forall₂_same.mpr fun mean _ => max_le_max_right 0 (rowMax_le_rowMax fun k => ?_)))
  refine div_le_div_of_nonneg_right ?_ (hc.omega_pos k).le
  exact mul_le_mul_of_nonneg_left (sub_le_sub_left (dBar_le_recentring hc hsqrt k) _) (hsqrt _)

omit [Field K] [IsStrictOrderedRing K] in
theorem countP_le_of_forall₂ [Zero K] {xs ys : List K} {s v : K} (hs : 0 < s) (hv : v < s)
    (h : List.Forall₂ (fun a b => a ≤ max b 0) xs ys) :
    xs.countP (s ≤ ·) ≤ ys.countP (v < ·) := by
  induction h with
  | nil => exact le_rfl
  | @cons a b _ _ hab _ ih =>
    rw [List.countP_cons, List.countP_cons]
    refine Nat.add_le_add ih ?_
    by_cases ha : s ≤ a
    · have hb : v < b := by
        rcases le_max_iff.mp (ha.trans hab) with hle | hle
        · exact hv.trans_le hle
        · exact absurd hle hs.not_ge
      simp [ha, hb]
    · simp [ha]

omit [IsStrictOrderedRing K] in
/-- What the first round finds is above the critical value of the whole universe. -/
theorem exists_above_crit [FloorSemiring K] {w : Fin L → K} {boot : List (Fin L → K)} {fwer : K}
    (h : (rounds w boot fwer (List.finRange L) [] 0).1 ≠ []) :
    ∃ k, crit boot fwer (List.finRange L) < w k := by
  rcases rounds_cases w boot fwer (List.finRange L) [] 0 with ⟨-, hr⟩ | ⟨-, -, hr⟩ | ⟨hnew, -⟩
  · rw [hr] at h
    exact absurd rfl h
  · rw [hr] at h
    exact absurd rfl h
  · obtain ⟨k, hk⟩ := List.exists_mem_of_ne_nil _ hnew
    exact ⟨k, (mem_newlySuperior.mp hk).2⟩

variable (log) in
/-- A selected strategy, and one that beats the benchmark, bound the bootstrap values at
the statistic. -/
theorem countP_bootMax_le [FloorSemiring K] {fwer : K} (hc : Studentized sqrt T c)
    (hsqrt : ∀ x, 0 ≤ sqrt x) (h1 : fwer ≤ 1) {k k' : Fin L}
    (hk : crit (bootStd (T := T) sqrt c) fwer (List.finRange L) < c.w k) (hk' : 0 < c.w k') :
    (bootMax sqrt log T c).countP (spaStatistic c ≤ ·) ≤
      c.bootMeans.length - 1 - ⌊((c.bootMeans.length - 1 : ℕ) : K) * (1 - fwer)⌋₊ := by
  have hstat : ∀ j, c.w j ≤ spaStatistic c := fun j => (le_rowMax c.w j).trans (le_max_left _ _)
  have hcount := countP_le_of_forall₂ (hk'.trans_le (hstat k')) (hk.trans_le (hstat k))
    (bootMax_le log hc hsqrt)
  have hquantile := countP_quantile_lt_le
    (maxNull (bootStd (T := T) sqrt c) (List.finRange L)) (sub_nonneg.mpr h1)
  have hlen : (maxNull (bootStd (T := T) sqrt c) (List.finRange L)).length = c.bootMeans.length := by
    simp [maxNull, bootStd]
  rw [hlen] at hquantile
  exact hcount.trans hquantile

variable (sqrt log) (T) in
/-- Where no strategy beats the benchmark, every bootstrap value is at the statistic or
above. -/
theorem spaPValue_eq_one (hne : c.bootMeans ≠ []) (h : ∀ k, c.w k ≤ 0) (hL : 0 < L) :
    spaPValue sqrt log T c = 1 := by
  have hstat : spaStatistic c = 0 := by
    obtain ⟨k, hk⟩ := exists_rowMax c.w hL
    exact max_eq_right (hk ▸ h k)
  have hall : (bootMax sqrt log T c).countP (spaStatistic c ≤ ·) = c.bootMeans.length := by
    have hlen : (bootMax sqrt log T c).length = c.bootMeans.length := List.length_map _
    rw [hstat, ← hlen, List.countP_eq_length]
    intro x hx
    obtain ⟨mean, -, rfl⟩ := List.mem_map.mp hx
    exact decide_eq_true (le_max_right _ _)
  have hpos : (c.bootMeans.length : K) ≠ 0 := by
    simpa using hne
  rw [spaPValue, hall, div_self hpos]

end Null

/-! ## The two tests on one bootstrap -/

/-- What the SPA test and stepwise Romano-Wolf say of the same rows. -/
structure Consistent {L : ℕ} (fwer : ℝ) (s : SpaResult L ℝ) (r : StepwiseResult L ℝ) : Prop where
  studentized : s.studentized = r.studentized
  notNumbers : s.studentized = none → s.pValue = 0 ∧ s.reject5pct = true ∧ r.superior = []
  noneBeats : ∀ w ∈ s.studentized, (∀ k, w k ≤ 0) → s.pValue = 1 ∧ s.reject5pct = false
  someSelected : ∀ w ∈ s.studentized, r.superior ≠ [] → (∃ k, 0 < w k) →
    s.pValue * s.nBoot ≤ (s.nBoot - 1 - ⌊((s.nBoot - 1 : ℕ) : ℝ) * (1 - fwer)⌋₊ : ℕ)

variable {T L : ℕ}

theorem selected_consistent {fwer : ℝ} (h1 : fwer ≤ 1) {c : Core L ℝ}
    (hc : Studentized Real.sqrt T c) (hne : c.bootMeans ≠ []) (hL : 0 < L) :
    Consistent fwer
      ⟨spaPValue Real.sqrt Real.log T c, some (spaStatistic c),
        decide (spaPValue Real.sqrt Real.log T c < 1 / ((20 : ℕ) : ℝ)), some c.w,
        c.bootMeans.length⟩
      (selected c (bootStd (T := T) Real.sqrt c) fwer c.bootMeans.length) := by
  refine ⟨rfl, nofun, fun w hw hlow => ?_, fun w hw hsel hpos => ?_⟩
  · obtain rfl : c.w = w := Option.some.inj hw
    have hone := spaPValue_eq_one T Real.sqrt Real.log hne hlow hL
    refine ⟨hone, ?_⟩
    show decide (spaPValue Real.sqrt Real.log T c < 1 / ((20 : ℕ) : ℝ)) = false
    rw [hone]
    norm_num
  · obtain rfl : c.w = w := Option.some.inj hw
    obtain ⟨k', hk'⟩ := hpos
    obtain ⟨j, hj⟩ := List.exists_mem_of_ne_nil _ hsel
    obtain ⟨k, hk⟩ := exists_above_crit (List.ne_nil_of_mem (mem_selected.mp hj))
    have hcount := countP_bootMax_le Real.log hc Real.sqrt_nonneg h1 hk hk'
    have hpos : (c.bootMeans.length : ℝ) ≠ 0 := by simpa using hne
    show spaPValue Real.sqrt Real.log T c * c.bootMeans.length ≤ _
    rw [spaPValue, div_mul_cancel₀ _ hpos]
    exact_mod_cast hcount

/-- Whatever the arguments, the two tests are refused alike, or the SPA test fails on an
empty universe, or they are consistent. -/
theorem spaHansen_stepwiseRw (perf : Fin T → Fin L → ℝ) (bench : List ℝ)
    (idx : List (Fin T → Fin T)) (ledgerUniverseSize : Option ℕ) {fwer : ℝ}
    (hf : 0 ≤ fwer ∧ fwer ≤ 1) :
    (∃ e, spaHansen Real.sqrt Real.log perf bench idx ledgerUniverseSize = .error (.core e) ∧
      stepwiseRw Real.sqrt perf bench idx fwer ledgerUniverseSize = .error e) ∨
    (L = 0 ∧
      spaHansen Real.sqrt Real.log perf bench idx ledgerUniverseSize = .error .emptyMax) ∨
    ∃ s r, spaHansen Real.sqrt Real.log perf bench idx ledgerUniverseSize = .ok s ∧
      stepwiseRw Real.sqrt perf bench idx fwer ledgerUniverseSize = .ok r ∧
      Consistent fwer s r := by
  have hguard : ∀ n, L ≠ n → assertFullUniverse L n = .error (.universeGuard L n) :=
    fun _ hne => if_pos hne
  have hpass : assertFullUniverse L L = .ok () := if_neg (not_not.mpr rfl)
  cases hcore : core Real.sqrt perf bench idx with
  | error e =>
    refine .inl ⟨e, ?_, ?_⟩
    · rw [spaHansen, hcore]
      rfl
    · rw [stepwiseRw, hcore]
      rfl
  | ok c =>
    by_cases hledger : ∃ n, ledgerUniverseSize = some n ∧ L ≠ n
    · obtain ⟨n, rfl, hne⟩ := hledger
      refine .inl ⟨.universeGuard L n, ?_, ?_⟩
      · rw [spaHansen, hcore]
        simp only [Except.mapError, bind, Except.bind, hguard n hne]
      · rw [stepwiseRw, hcore]
        simp only [bind, Except.bind, hguard n hne]
    -- the guard passes, so each goes on with what the core found
    have hledger' : ∀ n, ledgerUniverseSize = some n → n = L := by
      intro n hn
      by_contra hne
      exact hledger ⟨n, hn, Ne.symm hne⟩
    have hspa : spaHansen Real.sqrt Real.log perf bench idx ledgerUniverseSize =
        if L = 0 then .error .emptyMax
        else .ok (spaResult Real.sqrt Real.log T idx.length c) := by
      rw [spaHansen, hcore]
      rcases ledgerUniverseSize with - | n
      · rfl
      · obtain rfl := hledger' n rfl
        simp only [Except.mapError, bind, Except.bind, hpass]
    by_cases hL : L = 0
    · exact .inr (.inl ⟨hL, by rw [hspa, if_pos hL]⟩)
    have hrw : ∃ r, stepwiseRw Real.sqrt perf bench idx fwer ledgerUniverseSize = .ok r ∧
        Consistent fwer (spaResult Real.sqrt Real.log T idx.length c) r := by
      cases c with
      | none =>
        refine ⟨⟨[], none, if L = 0 then 0 else 1, idx.length⟩, ?_, rfl, fun _ => ⟨rfl, rfl, rfl⟩,
          fun w hw => absurd hw (Option.not_mem_none w),
          fun w hw => absurd hw (Option.not_mem_none w)⟩
        rw [stepwiseRw, hcore]
        rcases ledgerUniverseSize with - | n
        · rfl
        · obtain rfl := hledger' n rfl
          simp only [bind, Except.bind, hpass]
      | some c =>
        obtain ⟨hc, hlen, hne⟩ := core_studentized hcore
        have hmeans : c.bootMeans ≠ [] := by
          rw [← List.length_pos_iff, hlen]
          exact List.length_pos_iff.mpr hne
        have hconsistent := selected_consistent hf.2 hc hmeans (Nat.pos_of_ne_zero hL)
        rw [hlen] at hconsistent
        refine ⟨selected c (bootStd (T := T) Real.sqrt c) fwer idx.length, ?_, hconsistent⟩
        rw [stepwiseRw, hcore]
        rcases ledgerUniverseSize with - | n
        · rfl
        · obtain rfl := hledger' n rfl
          simp only [bind, Except.bind, hpass, selected]
    obtain ⟨r, hr, hconsistent⟩ := hrw
    exact .inr (.inr ⟨_, r, by rw [hspa, if_neg hL], hr, hconsistent⟩)

theorem spaHansen_stepwiseRw_twoLegs :
    ∃ s r, spaHansen Real.sqrt Real.log twoLegs [0, 0, 0, 0] twoRows (some 2) = .ok s ∧
      stepwiseRw Real.sqrt twoLegs [0, 0, 0, 0] twoRows (1 / 20) (some 2) = .ok r ∧
      Consistent (1 / 20) s r := by
  rcases spaHansen_stepwiseRw twoLegs [0, 0, 0, 0] twoRows (some 2)
    (show (0 : ℝ) ≤ 1 / 20 ∧ (1 / 20 : ℝ) ≤ 1 by norm_num) with ⟨e, he, -⟩ | ⟨h, -⟩ | h
  · simp [spaHansen, core, twoRows, assertFullUniverse, Except.mapError, bind, Except.bind] at he
  · simp at h
  · exact h

end TradingPlatform.Research.Spa
