import TradingPlatform.Lib.Moments
import TradingPlatform.Lib.Quantile
import Mathlib.Analysis.Real.Sqrt
import Mathlib.Data.List.FinRange
import Mathlib.Data.Fintype.BigOperators

/-! # Stepwise Romano-Wolf

Which strategies beat the benchmark: in rounds, each against the largest
recentred statistics of those that are still active. The rows of the bootstrap
are given; a statistic that is not a number compares false with everything. -/

namespace TradingPlatform.Research.Spa

open TradingPlatform.Lib TradingPlatform.Lib.Moments TradingPlatform.Lib.Quantile

variable {K : Type} [Field K] [LinearOrder K] {T L : ℕ}

inductive SpaError
  | benchmarkShape (expected got : ℕ)
  | emptyBootstrap
  | universeGuard (universeSize ledger : ℕ)
  deriving DecidableEq

def assertFullUniverse (universeSize ledgerRecordedUniverse : ℕ) : Except SpaError Unit :=
  if universeSize ≠ ledgerRecordedUniverse then
    .error (.universeGuard universeSize ledgerRecordedUniverse)
  else .ok ()

structure Core (L : ℕ) (K : Type) where
  dBar : Fin L → K
  bootMeans : List (Fin L → K)
  omega : Fin L → K
  w : Fin L → K

section Source
variable (sqrt : K → K)

def eps : K := 1 / ((10 : ℕ) : K) ^ 12

/-- The studentized loss differentials; `none` where they are not numbers. -/
def core (perf : Fin T → Fin L → K) (bench : List K) (idx : List (Fin T → Fin T)) :
    Except SpaError (Option (Core L K)) :=
  if bench.length ≠ T then .error (.benchmarkShape T bench.length)
  else if idx = [] then .error .emptyBootstrap
  else if T = 0 ∨ idx.length = 1 then .ok none
  else
    let d : Fin T → Fin L → K := fun t k => perf t k - bench.getD t 0
    let dBar : Fin L → K := fun k => (∑ t, d t k) / T
    let bootMeans := idx.map fun row (k : Fin L) => (∑ t, d (row t) k) / (T : K)
    let omega : Fin L → K := fun k =>
      let std := sqrt T * sampleStd sqrt (bootMeans.map (· k))
      if std < eps then eps else std
    .ok (some ⟨dBar, bootMeans, omega, fun k => sqrt T * dBar k / omega k⟩)

/-- The recentred statistics of each bootstrap row. -/
def bootStd (c : Core L K) : List (Fin L → K) :=
  c.bootMeans.map fun mean k => sqrt T * (mean k - c.dBar k) / c.omega k

end Source

section Rounds
variable [FloorSemiring K] (w : Fin L → K) (bootStd : List (Fin L → K)) (fwer : K)

/-- `boot_std[:, active].max(axis=1)`. -/
def maxNull (active : List (Fin L)) : List K :=
  bootStd.map fun row => (active.map row).max?.getD 0

def crit (active : List (Fin L)) : K := quantile (maxNull bootStd active) (1 - fwer)

def newlySuperior (active : List (Fin L)) : List (Fin L) :=
  active.filter fun k => crit bootStd fwer active < w k

def stillActive (active : List (Fin L)) : List (Fin L) :=
  active.filter fun k => !(newlySuperior w bootStd fwer active).contains k

theorem length_stillActive_lt {active : List (Fin L)}
    (h : newlySuperior w bootStd fwer active ≠ []) :
    (stillActive w bootStd fwer active).length < active.length := by
  obtain ⟨k, hk⟩ := List.exists_mem_of_ne_nil _ h
  refine List.length_filter_lt_length_iff_exists.mpr ⟨k, List.mem_of_mem_filter hk, ?_⟩
  simpa using hk

/-- The rounds from a state on: the superior strategies and the count of rounds. -/
def rounds (active superior : List (Fin L)) (nSteps : ℕ) : List (Fin L) × ℕ :=
  if active = [] then (superior, nSteps)
  else
    let newly := newlySuperior w bootStd fwer active
    if newly = [] then (superior, nSteps + 1)
    else rounds (stillActive w bootStd fwer active) (superior ++ newly) (nSteps + 1)
termination_by active.length
decreasing_by exact length_stillActive_lt w bootStd fwer ‹_›

end Rounds

structure StepwiseResult (L : ℕ) (K : Type) where
  superior : List (Fin L)
  studentized : Option (Fin L → K)
  nSteps : ℕ
  nBoot : ℕ

variable [FloorSemiring K]

def stepwiseRw (sqrt : K → K) (perf : Fin T → Fin L → K) (bench : List K)
    (idx : List (Fin T → Fin T)) (fwer : K) (ledgerUniverseSize : Option ℕ) :
    Except SpaError (StepwiseResult L K) := do
  let c ← core sqrt perf bench idx
  if let some n := ledgerUniverseSize then assertFullUniverse L n
  match c with
  | none =>
    -- no statistic exceeds a critical value that is not a number
    .ok ⟨[], none, if L = 0 then 0 else 1, idx.length⟩
  | some c =>
    let (superior, nSteps) := rounds c.w (bootStd (T := T) sqrt c) fwer (List.finRange L) [] 0
    .ok ⟨superior.insertionSort (· ≤ ·), some c.w, nSteps, idx.length⟩

/-! ## What a round does -/

section Rounds
variable {w : Fin L → K} {bootStd : List (Fin L → K)} {fwer : K} {active : List (Fin L)}

theorem mem_newlySuperior {k : Fin L} :
    k ∈ newlySuperior w bootStd fwer active ↔ k ∈ active ∧ crit bootStd fwer active < w k := by
  simp [newlySuperior]

theorem mem_stillActive {k : Fin L} :
    k ∈ stillActive w bootStd fwer active ↔ k ∈ active ∧ w k ≤ crit bootStd fwer active := by
  simp only [stillActive, List.mem_filter, Bool.not_eq_true', List.contains_eq_mem,
    decide_eq_false_iff_not, mem_newlySuperior, not_and, not_lt]
  exact and_congr_right fun hk => imp_iff_right hk

/-- A round is the last one, or the run goes on with those it leaves. -/
theorem rounds_cases (w : Fin L → K) (bootStd : List (Fin L → K)) (fwer : K)
    (active superior : List (Fin L)) (nSteps : ℕ) :
    active = [] ∧ rounds w bootStd fwer active superior nSteps = (superior, nSteps) ∨
      active ≠ [] ∧ newlySuperior w bootStd fwer active = [] ∧
        rounds w bootStd fwer active superior nSteps = (superior, nSteps + 1) ∨
      newlySuperior w bootStd fwer active ≠ [] ∧
        rounds w bootStd fwer active superior nSteps =
          rounds w bootStd fwer (stillActive w bootStd fwer active)
            (superior ++ newlySuperior w bootStd fwer active) (nSteps + 1) := by
  by_cases hactive : active = []
  · refine .inl ⟨hactive, ?_⟩
    rw [rounds, if_pos hactive]
  · by_cases hnewly : newlySuperior w bootStd fwer active = []
    · refine .inr (.inl ⟨hactive, hnewly, ?_⟩)
      rw [rounds, if_neg hactive]
      exact if_pos hnewly
    · refine .inr (.inr ⟨hnewly, ?_⟩)
      rw [rounds, if_neg hactive]
      exact if_neg hnewly

end Rounds

/-! ## Critical values -/

section Critical
variable [IsStrictOrderedRing K] {bootStd : List (Fin L → K)} {F active : List (Fin L)}

omit [Field K] [IsStrictOrderedRing K] [FloorSemiring K] in
theorem max?_le_max? {xs ys : List K} (hne : xs ≠ []) (h : ∀ x ∈ xs, x ∈ ys) (z : K) :
    xs.max?.getD z ≤ ys.max?.getD z := by
  obtain ⟨x, hx⟩ := Option.isSome_iff_exists.mp (List.isSome_max?_of_ne_nil hne)
  obtain ⟨hmem, -⟩ := List.max?_eq_some_iff.mp hx
  obtain ⟨y, hy⟩ :=
    Option.isSome_iff_exists.mp (List.isSome_max?_of_ne_nil (List.ne_nil_of_mem (h x hmem)))
  rw [hx, hy]
  exact (List.max?_eq_some_iff.mp hy).2 x (h x hmem)

omit [IsStrictOrderedRing K] [FloorSemiring K] in
/-- Over fewer strategies every maximum is lower. -/
theorem maxNull_le (hne : F ≠ []) (hsub : ∀ k ∈ F, k ∈ active) :
    List.Forall₂ (· ≤ ·) (maxNull bootStd F) (maxNull bootStd active) := by
  refine List.forall₂_map_right_iff.mpr (List.forall₂_map_left_iff.mpr
    (List.forall₂_same.mpr fun row _ => max?_le_max? (by simpa using hne) (fun x hx => ?_) 0))
  obtain ⟨k, hk, rfl⟩ := List.mem_map.mp hx
  exact List.mem_map_of_mem (hsub k hk)

theorem crit_le {fwer fwer' : K} (hne : F ≠ []) (hsub : ∀ k ∈ F, k ∈ active)
    (hle : fwer ≤ fwer') (h1 : fwer' < 1) : crit bootStd fwer' F ≤ crit bootStd fwer active := by
  have h0 : 0 ≤ 1 - fwer' := by linarith
  exact (quantile_le (maxNull_le hne hsub) h0).trans (quantile_mono _ h0 (by linarith))

end Critical

/-! ## A run of rounds -/

/-- A round on these strategies would find none of them superior. -/
def Stable (w : Fin L → K) (bootStd : List (Fin L → K)) (fwer : K) (F : List (Fin L)) : Prop :=
  ∀ k ∈ F, w k ≤ crit bootStd fwer F

/-- The strategies a run of rounds ends with. -/
structure EndsWith (w : Fin L → K) (bootStd : List (Fin L → K)) (fwer : K)
    (active superior : List (Fin L)) (nSteps : ℕ) (F : List (Fin L)) : Prop where
  subset : ∀ k ∈ F, k ∈ active
  stable : Stable w bootStd fwer F
  below : ∀ a ∈ F, ∀ s ∈ (rounds w bootStd fwer active superior nSteps).1, w a < w s
  rest : ∀ k ∈ active, k ∈ (rounds w bootStd fwer active superior nSteps).1 ∨ k ∈ F
  keeps : ∀ s ∈ superior, s ∈ (rounds w bootStd fwer active superior nSteps).1
  count : (rounds w bootStd fwer active superior nSteps).2 ≤ nSteps + active.length

section Run
variable {w : Fin L → K} {bootStd : List (Fin L → K)} {fwer : K}

theorem exists_endsWith {active superior : List (Fin L)} (nSteps : ℕ)
    (hsep : ∀ a ∈ active, ∀ s ∈ superior, w a < w s) :
    ∃ F, EndsWith w bootStd fwer active superior nSteps F := by
  induction hn : active.length using Nat.strong_induction_on
    generalizing active superior nSteps with
  | _ n ih =>
    rcases rounds_cases w bootStd fwer active superior nSteps with
      ⟨rfl, hr⟩ | ⟨hactive, hnewly, hr⟩ | ⟨hnewly, hr⟩
    · exact ⟨[], nofun, nofun, nofun, nofun, fun s hs => by rwa [hr], by simp [hr]⟩
    · have hpos := List.length_pos_iff.mpr hactive
      refine ⟨active, fun k hk => hk, fun k hk => ?_, ?_, fun k hk => .inr hk, ?_, ?_⟩
      · refine not_lt.mp fun hlt => ?_
        exact List.ne_nil_of_mem (mem_newlySuperior.mpr ⟨hk, hlt⟩) hnewly
      · rwa [hr]
      · exact fun s hs => by rwa [hr]
      · rw [hr]
        simp only
        omega
    · have hshorter := length_stillActive_lt w bootStd fwer hnewly
      have hsep' : ∀ a ∈ stillActive w bootStd fwer active,
          ∀ s ∈ superior ++ newlySuperior w bootStd fwer active, w a < w s := by
        intro a ha s hs
        obtain ⟨hain, hale⟩ := mem_stillActive.mp ha
        rcases List.mem_append.mp hs with hold | hnew
        · exact hsep a hain s hold
        · exact hale.trans_lt (mem_newlySuperior.mp hnew).2
      obtain ⟨F, hF⟩ := ih _ (hn ▸ hshorter) (nSteps + 1) hsep' rfl
      refine ⟨F, fun k hk => (mem_stillActive.mp (hF.subset k hk)).1, hF.stable, ?_, ?_, ?_, ?_⟩
      · rw [hr]
        exact hF.below
      · rw [hr]
        intro k hk
        rcases lt_or_ge (crit bootStd fwer active) (w k) with hlt | hge
        · exact .inl (hF.keeps k (List.mem_append_right _ (mem_newlySuperior.mpr ⟨hk, hlt⟩)))
        · exact hF.rest k (mem_stillActive.mpr ⟨hk, hge⟩)
      · rw [hr]
        exact fun s hs => hF.keeps s (List.mem_append_left _ hs)
      · rw [hr]
        have := hF.count
        omega

/-- What is stable at a larger error rate is never found superior at a smaller one. -/
theorem rounds_avoid [IsStrictOrderedRing K] {fwer' : K} {F : List (Fin L)}
    (hF : Stable w bootStd fwer' F) (hle : fwer ≤ fwer') (h1 : fwer' < 1)
    {active superior : List (Fin L)} (nSteps : ℕ) (hsub : ∀ k ∈ F, k ∈ active)
    (hout : ∀ k ∈ F, k ∉ superior) :
    ∀ k ∈ F, k ∉ (rounds w bootStd fwer active superior nSteps).1 := by
  induction hn : active.length using Nat.strong_induction_on
    generalizing active superior nSteps with
  | _ n ih =>
    rcases rounds_cases w bootStd fwer active superior nSteps with
      ⟨-, hr⟩ | ⟨-, -, hr⟩ | ⟨hnewly, hr⟩
    · rwa [hr]
    · rwa [hr]
    · have hbelow : ∀ k ∈ F, w k ≤ crit bootStd fwer active := fun k hk =>
        (hF k hk).trans (crit_le (List.ne_nil_of_mem hk) hsub hle h1)
      rw [hr]
      refine ih _ (hn ▸ length_stillActive_lt w bootStd fwer hnewly) (nSteps + 1)
        (fun k hk => mem_stillActive.mpr ⟨hsub k hk, hbelow k hk⟩) (fun k hk hin => ?_) rfl
      rcases List.mem_append.mp hin with hold | hnew
      · exact hout k hk hold
      · exact absurd (hbelow k hk) (not_le.mpr (mem_newlySuperior.mp hnew).2)

end Run

/-! ## The selection -/

/-- What one step selects: everything above the critical value of the whole universe. -/
def singleStep (sqrt : K → K) (perf : Fin T → Fin L → K) (bench : List K)
    (idx : List (Fin T → Fin T)) (fwer : K) : List (Fin L) :=
  match core sqrt perf bench idx with
  | .ok (some c) => newlySuperior c.w (bootStd (T := T) sqrt c) fwer (List.finRange L)
  | _ => []

/-- What the call asks of its arguments before the first round. -/
def Refused (bench : List K) (idx : List (Fin T → Fin T)) (L : ℕ)
    (ledgerUniverseSize : Option ℕ) : Prop :=
  bench.length ≠ T ∨ idx = [] ∨ ∃ n ∈ ledgerUniverseSize, L ≠ n

structure Coherent (r : StepwiseResult L K) (single : List (Fin L)) : Prop where
  upward : ∀ w ∈ r.studentized, ∀ s ∈ r.superior, ∀ k, w s ≤ w k → k ∈ r.superior
  single : ∀ k ∈ single, k ∈ r.superior
  steps : r.nSteps ≤ L

/-- The result of the rounds over the whole universe. -/
def selected (c : Core L K) (bootStd : List (Fin L → K)) (fwer : K) (nBoot : ℕ) :
    StepwiseResult L K :=
  let (superior, nSteps) := rounds c.w bootStd fwer (List.finRange L) [] 0
  ⟨superior.insertionSort (· ≤ ·), some c.w, nSteps, nBoot⟩

theorem mem_selected {c : Core L K} {bootStd : List (Fin L → K)} {fwer : K} {nBoot : ℕ}
    {k : Fin L} : k ∈ (selected c bootStd fwer nBoot).superior ↔
      k ∈ (rounds c.w bootStd fwer (List.finRange L) [] 0).1 := List.mem_insertionSort _

theorem exists_endsWith_all (w : Fin L → K) (bootStd : List (Fin L → K)) (fwer : K) :
    ∃ F, EndsWith w bootStd fwer (List.finRange L) [] 0 F :=
  exists_endsWith 0 fun _ _ _ hs => absurd hs List.not_mem_nil

theorem selected_coherent (c : Core L K) (bootStd : List (Fin L → K)) (fwer : K) (nBoot : ℕ) :
    Coherent (selected c bootStd fwer nBoot)
      (newlySuperior c.w bootStd fwer (List.finRange L)) := by
  obtain ⟨F, hF⟩ := exists_endsWith_all c.w bootStd fwer
  constructor
  · intro w hw s hs k hle
    obtain rfl : c.w = w := Option.some.inj hw
    rcases hF.rest k (List.mem_finRange k) with hin | hout
    · exact mem_selected.mpr hin
    · exact absurd (hF.below k hout s (mem_selected.mp hs)) (not_lt.mpr hle)
  · intro k hk
    have hne := List.ne_nil_of_mem hk
    rw [mem_selected]
    rcases rounds_cases c.w bootStd fwer (List.finRange L) [] 0 with
      ⟨hnil, -⟩ | ⟨-, hnone, -⟩ | ⟨-, hr⟩
    · exact absurd (hnil ▸ List.mem_finRange k) List.not_mem_nil
    · exact absurd hnone hne
    · rw [hr]
      refine (exists_endsWith _ fun a ha s hs => ?_).choose_spec.keeps k hk
      exact (mem_stillActive.mp ha).2.trans_lt (mem_newlySuperior.mp hs).2
  · have := hF.count
    rw [List.length_finRange] at this
    exact this.trans_eq (Nat.zero_add L)

theorem selected_mono [IsStrictOrderedRing K] (c : Core L K) (bootStd : List (Fin L → K))
    {fwer₁ fwer₂ : K} (hle : fwer₁ ≤ fwer₂) (h1 : fwer₂ < 1) (nBoot : ℕ) :
    ∀ k ∈ (selected c bootStd fwer₁ nBoot).superior,
      k ∈ (selected c bootStd fwer₂ nBoot).superior := by
  intro k hk
  obtain ⟨F, hF⟩ := exists_endsWith_all c.w bootStd fwer₂
  rcases hF.rest k (List.mem_finRange k) with hin | hout
  · exact mem_selected.mpr hin
  · exact absurd (mem_selected.mp hk) (rounds_avoid hF.stable hle h1 0
      (fun j _ => List.mem_finRange j) (fun _ _ => List.not_mem_nil) k hout)

omit [FloorSemiring K] in
theorem core_cases (sqrt : K → K) (perf : Fin T → Fin L → K) (bench : List K)
    (idx : List (Fin T → Fin T)) :
    ((bench.length ≠ T ∨ idx = []) ∧ ∃ e, core sqrt perf bench idx = .error e) ∨
      core sqrt perf bench idx = .ok none ∨ ∃ c, core sqrt perf bench idx = .ok (some c) := by
  by_cases hbench : bench.length ≠ T
  · exact .inl ⟨.inl hbench, _, if_pos hbench⟩
  by_cases hidx : idx = []
  · refine .inl ⟨.inr hidx, .emptyBootstrap, ?_⟩
    rw [core, if_neg hbench, if_pos hidx]
  by_cases hnan : T = 0 ∨ idx.length = 1
  · refine .inr (.inl ?_)
    rw [core, if_neg hbench, if_neg hidx, if_pos hnan]
  · rw [core, if_neg hbench, if_neg hidx, if_neg hnan]
    exact .inr (.inr ⟨_, rfl⟩)

/-- What a call comes to: a refusal, an empty selection where no statistic is a number,
or the rounds. -/
theorem stepwiseRw_cases (sqrt : K → K) (perf : Fin T → Fin L → K) (bench : List K)
    (idx : List (Fin T → Fin T)) (ledgerUniverseSize : Option ℕ) :
    (Refused bench idx L ledgerUniverseSize ∧
      ∃ e, ∀ fwer, stepwiseRw sqrt perf bench idx fwer ledgerUniverseSize = .error e) ∨
    (∀ fwer, stepwiseRw sqrt perf bench idx fwer ledgerUniverseSize =
        .ok ⟨[], none, if L = 0 then 0 else 1, idx.length⟩ ∧
      singleStep sqrt perf bench idx fwer = []) ∨
    ∃ c, ∀ fwer, stepwiseRw sqrt perf bench idx fwer ledgerUniverseSize =
        .ok (selected c (bootStd (T := T) sqrt c) fwer idx.length) ∧
      singleStep sqrt perf bench idx fwer =
        newlySuperior c.w (bootStd (T := T) sqrt c) fwer (List.finRange L) := by
  rcases core_cases sqrt perf bench idx with ⟨hbad, e, he⟩ | hc
  · refine .inl ⟨hbad.elim .inl fun h => .inr (.inl h), e, fun fwer => ?_⟩
    rw [stepwiseRw, he]
    rfl
  by_cases hguard : ∃ n ∈ ledgerUniverseSize, L ≠ n
  · refine .inl ⟨.inr (.inr hguard), ?_⟩
    obtain ⟨n, hn, hne⟩ := hguard
    obtain rfl := Option.mem_def.mp hn
    refine ⟨.universeGuard L n, fun fwer => ?_⟩
    have hraise : assertFullUniverse L n = .error (.universeGuard L n) := if_pos hne
    rcases hc with hc | ⟨c, hc⟩
    · simp only [stepwiseRw, hc, hraise, bind, Except.bind]
    · simp only [stepwiseRw, hc, hraise, bind, Except.bind]
  · have hpass : ∀ n, ledgerUniverseSize = some n → assertFullUniverse L n = .ok () := by
      intro n hn
      refine if_neg fun hne => hguard ⟨n, hn, hne⟩
    refine .inr (hc.imp (fun hc fwer => ⟨?_, ?_⟩) fun ⟨c, hc⟩ => ⟨c, fun fwer => ⟨?_, ?_⟩⟩)
    · rcases ledgerUniverseSize with - | n
      · simp only [stepwiseRw, hc, bind, Except.bind]
      · simp only [stepwiseRw, hc, bind, Except.bind, hpass n rfl]
    · simp only [singleStep, hc]
    · rcases ledgerUniverseSize with - | n
      · simp only [stepwiseRw, hc, bind, Except.bind, selected]
      · simp only [stepwiseRw, hc, bind, Except.bind, hpass n rfl, selected]
    · simp only [singleStep, hc]

/-- Selection is coherent: whatever the arguments, both error rates are refused alike, or
each result is closed upwards, holds a single step's choice and ends within `L` rounds,
and the larger rate selects no fewer. -/
theorem stepwiseRw_coherent [IsStrictOrderedRing K] (sqrt : K → K) (perf : Fin T → Fin L → K)
    (bench : List K) (idx : List (Fin T → Fin T)) (ledgerUniverseSize : Option ℕ)
    {fwer₁ fwer₂ : K} (_h0 : 0 < fwer₁) (hle : fwer₁ ≤ fwer₂) (h1 : fwer₂ < 1) :
    (Refused bench idx L ledgerUniverseSize ∧
      ∃ e, stepwiseRw sqrt perf bench idx fwer₁ ledgerUniverseSize = .error e ∧
        stepwiseRw sqrt perf bench idx fwer₂ ledgerUniverseSize = .error e) ∨
    ∃ r₁ r₂, stepwiseRw sqrt perf bench idx fwer₁ ledgerUniverseSize = .ok r₁ ∧
      stepwiseRw sqrt perf bench idx fwer₂ ledgerUniverseSize = .ok r₂ ∧
      Coherent r₁ (singleStep sqrt perf bench idx fwer₁) ∧
      Coherent r₂ (singleStep sqrt perf bench idx fwer₂) ∧
      ∀ k ∈ r₁.superior, k ∈ r₂.superior := by
  rcases stepwiseRw_cases sqrt perf bench idx ledgerUniverseSize with
    ⟨href, e, he⟩ | hnan | ⟨c, hc⟩
  · exact .inl ⟨href, e, he fwer₁, he fwer₂⟩
  · have hempty : ∀ fwer, Coherent (K := K) (L := L) ⟨[], none, if L = 0 then 0 else 1, idx.length⟩
        (singleStep sqrt perf bench idx fwer) := fun fwer => by
      refine ⟨nofun, by simp [(hnan fwer).2], ?_⟩
      show (if L = 0 then 0 else 1) ≤ L
      split <;> omega
    exact .inr ⟨_, _, (hnan fwer₁).1, (hnan fwer₂).1, hempty fwer₁, hempty fwer₂, nofun⟩
  · refine .inr ⟨_, _, (hc fwer₁).1, (hc fwer₂).1, ?_, ?_, selected_mono c _ hle h1 _⟩
    · rw [(hc fwer₁).2]
      exact selected_coherent c _ fwer₁ _
    · rw [(hc fwer₂).2]
      exact selected_coherent c _ fwer₂ _

/-- Two legs over four days. -/
def twoLegs (t : Fin 4) (k : Fin 2) : ℝ := if (k : ℕ) = 0 then t else (t - 1) ^ 2

/-- Rows that draw a day twice. -/
def twoRows : List (Fin 4 → Fin 4) := [![0, 0, 1, 3], ![2, 3, 3, 1]]

theorem stepwiseRw_coherent_twoLegs :
    ∃ r₁ r₂, stepwiseRw Real.sqrt twoLegs [0, 0, 0, 0] twoRows (1 / 20) (some 2) = .ok r₁ ∧
      stepwiseRw Real.sqrt twoLegs [0, 0, 0, 0] twoRows (1 / 10) (some 2) = .ok r₂ ∧
      Coherent r₁ (singleStep Real.sqrt twoLegs [0, 0, 0, 0] twoRows (1 / 20)) ∧
      Coherent r₂ (singleStep Real.sqrt twoLegs [0, 0, 0, 0] twoRows (1 / 10)) ∧
      ∀ k ∈ r₁.superior, k ∈ r₂.superior := by
  refine (stepwiseRw_coherent Real.sqrt twoLegs [0, 0, 0, 0] twoRows (some 2)
    (by norm_num) (by norm_num) (by norm_num)).resolve_left fun ⟨hrefused, _⟩ => ?_
  simp [Refused, twoRows] at hrefused

end TradingPlatform.Research.Spa
