import Mathlib.Algebra.BigOperators.Group.List.Basic
import Mathlib.Algebra.Order.BigOperators.Group.List
import Mathlib.Algebra.Order.Field.Basic
import Mathlib.Data.Rat.Sqrt
import Mathlib.Tactic.FieldSimp
import Mathlib.Tactic.Linarith
import Mathlib.Tactic.NormNum
import Mathlib.Tactic.Positivity
import Mathlib.Tactic.Ring

/-! # The haircut Sharpe

An observed Sharpe is turned into a two-sided p-value, the p-value is adjusted
for the trials behind it, and the adjusted one is turned back. The way back has
lost the sign. -/

namespace TradingPlatform.Research.Haircut

variable {K : Type*} [Field K] [LinearOrder K]

/-- The survival function of the normal distribution and its inverse, and the
square root. -/
structure Numerics (K : Type*) where
  sf : K → K
  isf : K → K
  sqrt : K → K

inductive HaircutError
  | trialCount
  | periods
  | mathDomain
  | zeroDivision
  deriving DecidableEq

inductive Method
  | bonferroni
  | holm
  | bhy
  deriving DecidableEq

/-- `c(N) = sum_{k=1..N} 1/k`. -/
def cOfN (n : ℕ) : K :=
  if 1 ≤ n then ((List.range n).map fun k : ℕ => 1 / ((k : K) + 1)).sum else 1

def minPvalue : K := 1 / 10 ^ 300

section Source
variable (num : Numerics K)

def srToPvalue (srPeriod : K) (T : ℕ) : Except HaircutError K :=
  if T < 2 then .error .periods else .ok (2 * num.sf |srPeriod * num.sqrt T|)

def pvalueToSr (p : K) (T : ℕ) : Except HaircutError K :=
  if T < 2 then .error .periods
  else .ok (num.isf (min (max p minPvalue) 1 / 2) / num.sqrt T)

def adjustedPvalues (pSingle : K) (N : ℕ) : Method → K
  | .bonferroni => min (N * pSingle) 1
  | .holm => min (N * pSingle) 1
  | .bhy => min (N * cOfN N * pSingle) 1

structure HaircutReport (K : Type*) where
  srAnnual : K
  T : ℕ
  N : ℕ
  periodsPerYear : K
  pSingle : K
  adjustedP : Method → K
  haircutSr : Method → K
  haircutPct : Method → K

def reportHaircut (srAnnual : K) (T N : ℕ) (periodsPerYear : K) :
    Except HaircutError (HaircutReport K) :=
  if N < 1 then .error .trialCount
  else if periodsPerYear < 0 then .error .mathDomain
  else
    let annFactor := num.sqrt periodsPerYear
    if annFactor = 0 then .error .zeroDivision
    else do
      let pSingle ← srToPvalue num (srAnnual / annFactor) T
      let adj := adjustedPvalues pSingle N
      let bonferroni ← pvalueToSr num (adj .bonferroni) T
      let holm ← pvalueToSr num (adj .holm) T
      let bhy ← pvalueToSr num (adj .bhy) T
      let haircutSr : Method → K
        | .bonferroni => bonferroni * annFactor
        | .holm => holm * annFactor
        | .bhy => bhy * annFactor
      .ok
        { srAnnual := srAnnual
          T := T
          N := N
          periodsPerYear := periodsPerYear
          pSingle := pSingle
          adjustedP := adj
          haircutSr := haircutSr
          haircutPct := fun method =>
            if 1 / 10 ^ 12 < |srAnnual| then (srAnnual - haircutSr method) / srAnnual else 0 }

end Source

/-! ## What the normal distribution is relied on for -/

structure Numerics.Lawful (num : Numerics K) : Prop where
  sf_strictAnti : StrictAnti num.sf
  sf_pos : ∀ x, 0 < num.sf x
  sf_lt_one : ∀ x, num.sf x < 1
  sf_zero : num.sf 0 = 1 / 2
  isf_sf : ∀ x, num.isf (num.sf x) = x
  sf_isf : ∀ p, 0 < p → p < 1 → num.sf (num.isf p) = p
  sqrt_pos : ∀ x, 0 < x → 0 < num.sqrt x

variable {num : Numerics K}

theorem Numerics.Lawful.isf_anti (h : num.Lawful) {p q : K} (hp : 0 < p) (hpq : p ≤ q)
    (hq : q < 1) : num.isf q ≤ num.isf p := by
  by_contra hlt
  have hsf := h.sf_strictAnti (not_le.mp hlt)
  rw [h.sf_isf q (hp.trans_le hpq) hq, h.sf_isf p hp (hpq.trans_lt hq)] at hsf
  exact absurd hpq (not_le.mpr hsf)

/-! ## From a p-value back to a Sharpe -/

/-- The p-value that `pvalue_to_sr` works with. -/
def clamp (p : K) : K := min (max p minPvalue) 1

theorem clamp_le_one (p : K) : clamp p ≤ 1 := min_le_right _ _

theorem clamp_mono {p q : K} (h : p ≤ q) : clamp p ≤ clamp q :=
  min_le_min_right 1 (max_le_max_right minPvalue h)

theorem le_clamp {p q : K} (hq : p ≤ q) (h1 : p ≤ 1) : p ≤ clamp q :=
  le_min (hq.trans (le_max_left _ _)) h1

/-! ## The report -/

/-- The annual Sharpe that the adjusted p-value of a method implies. -/
def impliedSr (num : Numerics K) (srAnnual : K) (T N : ℕ) (periodsPerYear : K) (method : Method) :
    K :=
  let annFactor := num.sqrt periodsPerYear
  let pSingle := 2 * num.sf |srAnnual / annFactor * num.sqrt T|
  num.isf (clamp (adjustedPvalues pSingle N method) / 2) / num.sqrt T * annFactor

variable {srAnnual periodsPerYear : K} {T N : ℕ}

theorem exists_reportHaircut (h : num.Lawful) (hT : 2 ≤ T) (hN : 1 ≤ N)
    (hperiods : 0 < periodsPerYear) :
    ∃ r, reportHaircut num srAnnual T N periodsPerYear = .ok r ∧
      r.haircutSr = impliedSr num srAnnual T N periodsPerYear := by
  have hann := (h.sqrt_pos _ hperiods).ne'
  have hto : ∀ sr : K, srToPvalue num sr T = .ok (2 * num.sf |sr * num.sqrt T|) := fun sr =>
    if_neg (not_lt.mpr hT)
  have hback : ∀ p : K, pvalueToSr num p T = .ok (num.isf (clamp p / 2) / num.sqrt T) := fun p =>
    if_neg (not_lt.mpr hT)
  unfold reportHaircut
  dsimp only
  rw [if_neg (not_lt.mpr hN), if_neg (not_lt.mpr hperiods.le), if_neg hann]
  simp only [hto, hback, Bind.bind, Except.bind]
  refine ⟨_, rfl, funext fun method => ?_⟩
  cases method <;> rfl

variable [IsStrictOrderedRing K]

theorem minPvalue_pos : 0 < (minPvalue : K) := by
  unfold minPvalue
  positivity

theorem clamp_pos (p : K) : 0 < clamp p :=
  lt_min (lt_max_of_lt_right minPvalue_pos) one_pos

theorem isf_clamp_anti (h : num.Lawful) {p q : K} (hpq : p ≤ q) :
    num.isf (clamp q / 2) ≤ num.isf (clamp p / 2) := by
  have hq := clamp_le_one q
  refine h.isf_anti (half_pos (clamp_pos p)) ?_ (by linarith)
  linarith [clamp_mono hpq]

theorem isf_clamp_nonneg (h : num.Lawful) (p : K) : 0 ≤ num.isf (clamp p / 2) := by
  have hhalf : num.isf (1 / 2) = 0 := by rw [← h.sf_zero, h.isf_sf]
  have hle := clamp_le_one p
  rw [← hhalf]
  exact h.isf_anti (half_pos (clamp_pos p)) (by linarith) (by norm_num)

/-- An adjusted p-value is not below the single one, so it implies no more. -/
theorem isf_clamp_le (h : num.Lawful) {t q : K} (ht : 0 ≤ t) (hq : 2 * num.sf t ≤ q) :
    num.isf (clamp q / 2) ≤ t := by
  have hhalf : num.sf t ≤ 1 / 2 := h.sf_zero ▸ h.sf_strictAnti.antitone ht
  have hle : 2 * num.sf t ≤ clamp q := le_clamp hq (by linarith)
  have hone := clamp_le_one q
  calc num.isf (clamp q / 2) ≤ num.isf (num.sf t) :=
        h.isf_anti (h.sf_pos t) (by linarith) (by linarith)
    _ = t := h.isf_sf t

/-! ## The corrections -/

omit [LinearOrder K] [IsStrictOrderedRing K] in
theorem cOfN_succ {n : ℕ} (h : 1 ≤ n) : (cOfN (n + 1) : K) = cOfN n + 1 / ((n : K) + 1) := by
  rw [cOfN, if_pos (by omega), cOfN, if_pos h, List.range_succ, List.map_append, List.sum_append]
  simp

theorem cOfN_mono {n m : ℕ} (hn : 1 ≤ n) (h : n ≤ m) : (cOfN n : K) ≤ cOfN m := by
  induction m, h using Nat.le_induction with
  | base => exact le_refl _
  | succ m hm ih =>
    rw [cOfN_succ (hn.trans hm)]
    have hpos : 0 < 1 / ((m : K) + 1) := by positivity
    linarith

theorem one_le_cOfN {n : ℕ} (h : 1 ≤ n) : 1 ≤ (cOfN n : K) := by
  have hone : (cOfN 1 : K) = 1 := by simp [cOfN]
  exact hone ▸ cOfN_mono le_rfl h

theorem le_adjustedPvalues {p : K} {N : ℕ} (hp : 0 ≤ p) (h1 : p ≤ 1) (hN : 1 ≤ N)
    (method : Method) : p ≤ adjustedPvalues p N method := by
  have hcast : (1 : K) ≤ N := by exact_mod_cast hN
  have hbonferroni : p ≤ N * p := le_mul_of_one_le_left hp hcast
  have hbhy : p ≤ N * cOfN N * p :=
    le_mul_of_one_le_left hp (one_le_mul_of_one_le_of_one_le hcast (one_le_cOfN hN))
  cases method with
  | bonferroni => exact le_min hbonferroni h1
  | holm => exact le_min hbonferroni h1
  | bhy => exact le_min hbhy h1

theorem adjustedPvalues_mono {p : K} {N M : ℕ} (hp : 0 ≤ p) (hN : 1 ≤ N) (h : N ≤ M)
    (method : Method) : adjustedPvalues p N method ≤ adjustedPvalues p M method := by
  have hcast : (N : K) ≤ M := by exact_mod_cast h
  have hbonferroni : (N : K) * p ≤ M * p := mul_le_mul_of_nonneg_right hcast hp
  have hc : (0 : K) ≤ cOfN N := zero_le_one.trans (one_le_cOfN hN)
  have hbhy : (N : K) * cOfN N * p ≤ M * cOfN M * p :=
    mul_le_mul_of_nonneg_right (mul_le_mul hcast (cOfN_mono hN h) hc (Nat.cast_nonneg M)) hp
  cases method with
  | bonferroni => exact min_le_min_right 1 hbonferroni
  | holm => exact min_le_min_right 1 hbonferroni
  | bhy => exact min_le_min_right 1 hbhy

theorem bonferroni_le_bhy {p : K} {N : ℕ} (hp : 0 ≤ p) (hN : 1 ≤ N) :
    adjustedPvalues p N .bonferroni ≤ adjustedPvalues p N .bhy := by
  refine min_le_min_right 1 (mul_le_mul_of_nonneg_right ?_ hp)
  exact le_mul_of_one_le_right (Nat.cast_nonneg N) (one_le_cOfN hN)

/-! ## The bounds -/

theorem sqrt_period_count_pos (h : num.Lawful) (hT : 2 ≤ T) : 0 < num.sqrt T :=
  h.sqrt_pos _ (by exact_mod_cast Nat.lt_of_lt_of_le two_pos hT)

theorem pSingle_bounds (h : num.Lawful) (t : K) : 0 ≤ 2 * num.sf |t| ∧ 2 * num.sf |t| ≤ 1 := by
  have hhalf : num.sf |t| ≤ 1 / 2 := h.sf_zero ▸ h.sf_strictAnti.antitone (abs_nonneg t)
  exact ⟨by linarith [h.sf_pos |t|], by linarith⟩

section Bounds
variable (h : num.Lawful) (hT : 2 ≤ T) (hperiods : 0 < periodsPerYear)
include h hT hperiods

theorem impliedSr_nonneg (N : ℕ) (method : Method) :
    0 ≤ impliedSr num srAnnual T N periodsPerYear method :=
  mul_nonneg (div_nonneg (isf_clamp_nonneg h _) (sqrt_period_count_pos h hT).le)
    (h.sqrt_pos _ hperiods).le

/-- What a larger p-value implies, in the same report or in another, is less. -/
theorem impliedSr_le_of_le {N M : ℕ} {method method' : Method}
    (hp : adjustedPvalues (2 * num.sf |srAnnual / num.sqrt periodsPerYear * num.sqrt T|) N method ≤
      adjustedPvalues (2 * num.sf |srAnnual / num.sqrt periodsPerYear * num.sqrt T|) M method') :
    impliedSr num srAnnual T M periodsPerYear method' ≤
      impliedSr num srAnnual T N periodsPerYear method :=
  mul_le_mul_of_nonneg_right
    (div_le_div_of_nonneg_right (isf_clamp_anti h hp) (sqrt_period_count_pos h hT).le)
    (h.sqrt_pos _ hperiods).le

theorem impliedSr_le_abs (hN : 1 ≤ N) (method : Method) :
    impliedSr num srAnnual T N periodsPerYear method ≤ |srAnnual| := by
  have hann := h.sqrt_pos _ hperiods
  have hroot := sqrt_period_count_pos h hT
  obtain ⟨hp, h1⟩ := pSingle_bounds h (srAnnual / num.sqrt periodsPerYear * num.sqrt T)
  have hle := isf_clamp_le h (abs_nonneg _) (le_adjustedPvalues hp h1 hN method)
  have ht : |srAnnual / num.sqrt periodsPerYear * num.sqrt T| =
      |srAnnual| / num.sqrt periodsPerYear * num.sqrt T := by
    rw [abs_mul, abs_div, abs_of_pos hann, abs_of_pos hroot]
  calc impliedSr num srAnnual T N periodsPerYear method
      ≤ |srAnnual / num.sqrt periodsPerYear * num.sqrt T| / num.sqrt T *
          num.sqrt periodsPerYear :=
        mul_le_mul_of_nonneg_right (div_le_div_of_nonneg_right hle hroot.le) hann.le
    _ = |srAnnual| := by
        rw [ht, mul_div_cancel_right₀ _ hroot.ne', div_mul_cancel₀ _ hann.ne']

end Bounds

/-! ## A haircut that does not flatter -/

/-- What a report promises of each haircut Sharpe. -/
structure Sober (num : Numerics K) (srAnnual : K) (T N : ℕ) (periodsPerYear : K)
    (r : HaircutReport K) : Prop where
  magnitude : ∀ method, |r.haircutSr method| ≤ |srAnnual|
  ceiling : ∀ method, r.haircutSr method ≤ srAnnual
  moreTrials : 0 < srAnnual → ∀ M, N ≤ M →
    ∃ r', reportHaircut num srAnnual T M periodsPerYear = .ok r' ∧
      ∀ method, r'.haircutSr method ≤ r.haircutSr method
  bhyLowest : r.haircutSr .bhy ≤ r.haircutSr .bonferroni

/-- The haircut never flatters. -/
def NeverFlatters (num : Numerics K) (srAnnual : K) (T N : ℕ) (periodsPerYear : K) : Prop :=
  ∃ r, reportHaircut num srAnnual T N periodsPerYear = .ok r ∧
    Sober num srAnnual T N periodsPerYear r

/-- The magnitude is in order for every Sharpe, and the sign for one that is not
negative. -/
theorem neverFlatters_iff (h : num.Lawful) (hT : 2 ≤ T) (hN : 1 ≤ N)
    (hperiods : 0 < periodsPerYear) :
    NeverFlatters num srAnnual T N periodsPerYear ↔ 0 ≤ srAnnual := by
  obtain ⟨r, hr, hsr⟩ : ∃ r, reportHaircut num srAnnual T N periodsPerYear = .ok r ∧
      r.haircutSr = impliedSr num srAnnual T N periodsPerYear :=
    exists_reportHaircut h hT hN hperiods
  have hnonneg : ∀ method, 0 ≤ r.haircutSr method := fun method =>
    hsr ▸ impliedSr_nonneg h hT hperiods N method
  have hle : ∀ method, r.haircutSr method ≤ |srAnnual| := fun method =>
    hsr ▸ impliedSr_le_abs h hT hperiods hN method
  obtain ⟨hp, -⟩ := pSingle_bounds h (srAnnual / num.sqrt periodsPerYear * num.sqrt T)
  constructor
  · rintro ⟨r', hr', hsober⟩
    cases hr.symm.trans hr'
    exact (hnonneg .bonferroni).trans (hsober.ceiling .bonferroni)
  · intro hsign
    refine ⟨r, hr, fun method => ?_, fun method => ?_, fun _ M hM => ?_, ?_⟩
    · rw [abs_of_nonneg (hnonneg method)]
      exact hle method
    · exact abs_of_nonneg hsign ▸ hle method
    · obtain ⟨r', hr', hsr'⟩ := exists_reportHaircut h hT (hN.trans hM) hperiods
      refine ⟨r', hr', fun method => ?_⟩
      rw [hsr, hsr']
      exact impliedSr_le_of_le h hT hperiods (adjustedPvalues_mono hp hN hM method)
    · rw [hsr]
      exact impliedSr_le_of_le h hT hperiods (bonferroni_le_bhy hp hN)

/-- A symmetric law with rational values. -/
def hyperbola : Numerics ℚ where
  sf x := if 0 ≤ x then 1 / (2 * (1 + x)) else 1 - 1 / (2 * (1 - x))
  isf p := if p ≤ 1 / 2 then 1 / (2 * p) - 1 else 1 - 1 / (2 * (1 - p))
  sqrt := Rat.sqrt

theorem hyperbola_sf_of_nonneg {x : ℚ} (h : 0 ≤ x) : hyperbola.sf x = 1 / (2 * (1 + x)) := if_pos h

theorem hyperbola_sf_of_neg {x : ℚ} (h : x < 0) : hyperbola.sf x = 1 - 1 / (2 * (1 - x)) :=
  if_neg (not_le.mpr h)

theorem hyperbola_half {y : ℚ} (h : 0 ≤ y) : 0 < 1 / (2 * (1 + y)) ∧ 1 / (2 * (1 + y)) ≤ 1 / 2 :=
  ⟨by positivity, one_div_le_one_div_of_le (by norm_num) (by linarith)⟩

theorem hyperbola_half_anti {x y : ℚ} (hx : 0 ≤ x) (h : x < y) :
    1 / (2 * (1 + y)) < 1 / (2 * (1 + x)) :=
  one_div_lt_one_div_of_lt (by positivity) (by linarith)

theorem hyperbola_half_lt {y : ℚ} (h : 0 < y) : 1 / (2 * (1 + y)) < 1 / 2 := by
  simpa using hyperbola_half_anti le_rfl h

theorem hyperbola_sf_strictAnti : StrictAnti hyperbola.sf := by
  intro x y hxy
  rcases lt_or_ge x 0 with hx | hx
  · rw [hyperbola_sf_of_neg hx]
    have hxhalf := hyperbola_half_lt (neg_pos.mpr hx)
    rcases lt_or_ge y 0 with hy | hy
    · rw [hyperbola_sf_of_neg hy]
      have hlt := hyperbola_half_anti (neg_nonneg.mpr hy.le) (neg_lt_neg hxy)
      rw [← sub_eq_add_neg, ← sub_eq_add_neg] at hlt
      linarith
    · rw [hyperbola_sf_of_nonneg hy]
      rw [← sub_eq_add_neg] at hxhalf
      linarith [(hyperbola_half hy).2]
  · rw [hyperbola_sf_of_nonneg hx, hyperbola_sf_of_nonneg (hx.trans hxy.le)]
    exact hyperbola_half_anti hx hxy

theorem hyperbola_isf_sf (x : ℚ) : hyperbola.isf (hyperbola.sf x) = x := by
  rcases lt_or_ge x 0 with hx | hx
  · have hlt := hyperbola_half_lt (neg_pos.mpr hx)
    rw [← sub_eq_add_neg] at hlt
    have hne : 1 - x ≠ 0 := by linarith
    rw [hyperbola_sf_of_neg hx]
    refine (if_neg (by linarith)).trans ?_
    field_simp
    ring
  · have hne : 1 + x ≠ 0 := by linarith
    rw [hyperbola_sf_of_nonneg hx]
    refine (if_pos (hyperbola_half hx).2).trans ?_
    field_simp
    ring

theorem hyperbola_sf_isf (p : ℚ) (h0 : 0 < p) (h1 : p < 1) :
    hyperbola.sf (hyperbola.isf p) = p := by
  rcases le_or_gt p (1 / 2) with hp | hp
  · have hisf : hyperbola.isf p = 1 / (2 * p) - 1 := if_pos hp
    have hge : 1 ≤ 1 / (2 * p) := (one_le_div (by linarith)).mpr (by linarith)
    rw [hisf, hyperbola_sf_of_nonneg (by linarith)]
    field_simp
    ring
  · have hisf : hyperbola.isf p = 1 - 1 / (2 * (1 - p)) := if_neg (not_le.mpr hp)
    have hgt : 1 < 1 / (2 * (1 - p)) := (one_lt_div (by linarith)).mpr (by linarith)
    have hne : 1 - p ≠ 0 := by linarith
    rw [hisf, hyperbola_sf_of_neg (by linarith)]
    field_simp
    ring

theorem hyperbola_lawful : hyperbola.Lawful where
  sf_strictAnti := hyperbola_sf_strictAnti
  sf_pos x := by
    rcases lt_or_ge x 0 with hx | hx
    · have hlt := hyperbola_half_lt (neg_pos.mpr hx)
      rw [← sub_eq_add_neg] at hlt
      rw [hyperbola_sf_of_neg hx]
      linarith
    · exact hyperbola_sf_of_nonneg hx ▸ (hyperbola_half hx).1
  sf_lt_one x := by
    rcases lt_or_ge x 0 with hx | hx
    · have hpos := (hyperbola_half (neg_nonneg.mpr hx.le)).1
      rw [← sub_eq_add_neg] at hpos
      rw [hyperbola_sf_of_neg hx]
      linarith
    · rw [hyperbola_sf_of_nonneg hx]
      linarith [(hyperbola_half hx).2]
  sf_zero := by norm_num [hyperbola]
  isf_sf := hyperbola_isf_sf
  sf_isf := hyperbola_sf_isf
  sqrt_pos x hx := by
    have hnum : 0 < Int.sqrt x.num := by
      have hpos := Rat.num_pos.mpr hx
      rw [Int.sqrt, Int.natCast_pos, Nat.sqrt_pos]
      omega
    have hden : 0 < Nat.sqrt x.den := Nat.sqrt_pos.mpr x.den_pos
    show 0 < mkRat (Int.sqrt x.num) (Nat.sqrt x.den)
    rw [Rat.mkRat_eq_div]
    exact div_pos (by exact_mod_cast hnum) (by exact_mod_cast hden)

/-- A Sharpe of two over sixteen years of quarters and three trials, which Bonferroni
cuts to a half. -/
theorem neverFlatters_threeTrials :
    NeverFlatters hyperbola 2 64 3 4 ∧
      (reportHaircut hyperbola 2 64 3 4).toOption.map (·.haircutSr .bonferroni) = some (1 / 2) :=
  ⟨(neverFlatters_iff hyperbola_lawful (by decide) (by decide) (by norm_num)).mpr (by norm_num),
    by decide +kernel⟩

/-- A losing strategy with one trial comes back with its Sharpe turned positive. -/
theorem not_neverFlatters_losing : ¬ NeverFlatters hyperbola (-1) 16 1 4 := by
  rintro ⟨r, hr, hsober⟩
  have hvalue : (reportHaircut hyperbola (-1) 16 1 4).toOption.map (·.haircutSr .bonferroni) =
      some 1 := by decide +kernel
  rw [hr] at hvalue
  have hone : r.haircutSr .bonferroni = 1 := Option.some.inj hvalue
  have hle := hsober.ceiling .bonferroni
  rw [hone] at hle
  norm_num at hle

end TradingPlatform.Research.Haircut
