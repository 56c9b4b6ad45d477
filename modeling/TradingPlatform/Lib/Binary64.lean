import Mathlib.Data.Int.Log
import Mathlib.Data.Rat.Floor
import Mathlib.Algebra.Order.Ring.Rat
import Mathlib.Tactic.Linarith
import Mathlib.Tactic.NormNum
import Mathlib.Tactic.Ring

/-! # Doubles, and decimals of so many digits

A number is rounded to a multiple of a unit, ties to even. The unit is a power of
two for a double, and of ten for a decimal. Two decimals of few enough digits are
read back as two doubles, unless both are below the normal range. -/

namespace TradingPlatform.Lib

/-! ## Rounding -/

namespace Rounding

/-- The nearest integer; ties go to the even neighbour. -/
def nearestInt (x : ℚ) : ℤ :=
  let f := ⌊x⌋
  if x - f < 1 / 2 then f
  else if 1 / 2 < x - f then f + 1
  else if f % 2 = 0 then f else f + 1

/-- The nearest multiple of a unit. -/
def roundTo (unit x : ℚ) : ℚ := nearestInt (x / unit) * unit

theorem nearestInt_error (x : ℚ) : |(nearestInt x : ℚ) - x| ≤ 1 / 2 := by
  have hfloor := Int.floor_le x
  have hceil := Int.lt_floor_add_one x
  unfold nearestInt
  rw [abs_le]
  dsimp only
  split
  · constructor <;> linarith
  split
  · push_cast
    constructor <;> linarith
  have hhalf : x - ⌊x⌋ = 1 / 2 := by linarith
  split
  · constructor <;> linarith
  · push_cast
    constructor <;> linarith

theorem nearestInt_zero : nearestInt 0 = 0 := by decide +kernel

/-- The tie rule is the same on both sides of zero. -/
theorem nearestInt_neg (x : ℚ) : nearestInt (-x) = -nearestInt x := by
  by_cases hint : x = ⌊x⌋
  · have hfloor : ⌊-x⌋ = -⌊x⌋ := by
      rw [hint, ← Int.cast_neg, Int.floor_intCast, Int.floor_intCast]
    unfold nearestInt
    rw [hfloor]
    dsimp only
    push_cast
    rw [if_pos (by linarith), if_pos (by linarith)]
  · have hle := Int.floor_le x
    have hlt : (⌊x⌋ : ℚ) < x := hle.lt_of_ne fun heq => hint heq.symm
    have hfloor : ⌊-x⌋ = -⌊x⌋ - 1 := by
      have hup := Int.lt_floor_add_one x
      rw [Int.floor_eq_iff]
      push_cast
      constructor <;> linarith
    unfold nearestInt
    rw [hfloor]
    dsimp only
    push_cast
    split_ifs <;> first | omega | (exfalso; linarith)

theorem nearestInt_mem (x : ℚ) : nearestInt x = ⌊x⌋ ∨ nearestInt x = ⌊x⌋ + 1 := by
  unfold nearestInt
  dsimp only
  split
  · exact Or.inl rfl
  split
  · exact Or.inr rfl
  split
  · exact Or.inl rfl
  · exact Or.inr rfl

theorem nearestInt_intCast (n : ℤ) : nearestInt n = n := by
  rw [nearestInt, Int.floor_intCast, sub_self, if_pos (by norm_num)]

/-- Rounding keeps the order. -/
theorem nearestInt_mono {x y : ℚ} (h : x ≤ y) : nearestInt x ≤ nearestInt y := by
  rcases (Int.floor_mono h).lt_or_eq with hlt | heq
  · have hx := nearestInt_mem x
    have hy := nearestInt_mem y
    omega
  · -- Between two neighbours only the fractions decide.
    have hfrac : x - ⌊x⌋ ≤ y - ⌊x⌋ := by linarith
    unfold nearestInt
    rw [← heq]
    dsimp only
    split_ifs <;> first | omega | (exfalso; linarith)

theorem roundTo_zero (unit : ℚ) : roundTo unit 0 = 0 := by
  rw [roundTo, zero_div, nearestInt_zero, Int.cast_zero, zero_mul]

theorem roundTo_error {unit : ℚ} (hunit : 0 < unit) (x : ℚ) :
    |roundTo unit x - x| ≤ unit / 2 := by
  have hscale : roundTo unit x - x = (nearestInt (x / unit) - x / unit) * unit := by
    rw [roundTo, sub_mul, div_mul_cancel₀ _ hunit.ne']
  rw [hscale, abs_mul, abs_of_pos hunit]
  calc |(nearestInt (x / unit) : ℚ) - x / unit| * unit
      ≤ 1 / 2 * unit := mul_le_mul_of_nonneg_right (nearestInt_error _) hunit.le
    _ = unit / 2 := one_div_mul_eq_div ..

/-- Rounding does not go past an integer. -/
theorem abs_nearestInt_le {x : ℚ} {n : ℤ} (h : |x| ≤ n) : |nearestInt x| ≤ n := by
  have herror := nearestInt_error x
  have habs : |(nearestInt x : ℚ)| ≤ |(nearestInt x : ℚ) - x| + |x| := by
    simpa using abs_add_le ((nearestInt x : ℚ) - x) x
  have hlt : ((|nearestInt x| : ℤ) : ℚ) < ((n + 1 : ℤ) : ℚ) := by
    push_cast
    linarith
  exact Int.lt_add_one_iff.mp (Int.cast_lt.mp hlt)

theorem le_abs_nearestInt {x : ℚ} {n : ℤ} (h : n ≤ |x|) : n ≤ |nearestInt x| := by
  have herror := nearestInt_error x
  have habs : |x| ≤ |(nearestInt x : ℚ) - x| + |(nearestInt x : ℚ)| := by
    rw [abs_sub_comm]
    simpa using abs_add_le (x - nearestInt x) (nearestInt x : ℚ)
  have hlt : (n : ℚ) < ((|nearestInt x| + 1 : ℤ) : ℚ) := by
    push_cast
    linarith
  exact Int.lt_add_one_iff.mp (Int.cast_lt.mp hlt)

/-- The unit of the last of `digits` places. -/
def lastPlace (base digits : ℕ) (x : ℚ) : ℚ := (base : ℚ) ^ (Int.log base |x| + 1 - digits)

section LastPlace
variable {base : ℕ} (hbase : 1 < base) (digits : ℕ) (x : ℚ)
include hbase

theorem lastPlace_pos : 0 < lastPlace base digits x :=
  zpow_pos (by exact_mod_cast zero_lt_one.trans hbase) _

/-- A number is at most as many units as the places count. -/
theorem abs_div_lastPlace_le : |x / lastPlace base digits x| ≤ ((base ^ digits : ℕ) : ℤ) := by
  have hpos := lastPlace_pos hbase digits x
  have hne : (base : ℚ) ≠ 0 := by exact_mod_cast (zero_lt_one.trans hbase).ne'
  rw [abs_div, abs_of_pos hpos, div_le_iff₀ hpos]
  calc |x| ≤ (base : ℚ) ^ (Int.log base |x| + 1) := (Int.lt_zpow_succ_log_self hbase _).le
    _ = (base : ℚ) ^ (digits : ℤ) * (base : ℚ) ^ (Int.log base |x| + 1 - digits) := by
      rw [← zpow_add₀ hne, add_sub_cancel]
    _ = _ := by
      rw [zpow_natCast, lastPlace]
      push_cast
      rfl

variable {x} in
/-- The first place is not zero. -/
theorem lastPlace_mul_le (hx : x ≠ 0) :
    lastPlace base digits x * (base : ℚ) ^ ((digits : ℤ) - 1) ≤ |x| := by
  have hne : (base : ℚ) ≠ 0 := by exact_mod_cast (zero_lt_one.trans hbase).ne'
  rw [lastPlace, ← zpow_add₀ hne]
  calc (base : ℚ) ^ (Int.log base |x| + 1 - digits + (digits - 1))
      = (base : ℚ) ^ Int.log base |x| := by congr 1; ring
    _ ≤ |x| := Int.zpow_log_le_self hbase (abs_pos.mpr hx)

end LastPlace

/-- A number of so many decimal digits. -/
def HasDigits (digits : ℕ) (x : ℚ) : Prop :=
  ∃ n e : ℤ, |n| ≤ 10 ^ digits ∧ x = n * (10 : ℚ) ^ e

/-- The nearest decimal of so many digits. -/
def significant (digits : ℕ) (x : ℚ) : ℚ := roundTo (lastPlace 10 digits x) x

theorem hasDigits_significant (digits : ℕ) (x : ℚ) : HasDigits digits (significant digits x) := by
  refine ⟨_, Int.log 10 |x| + 1 - digits, abs_nearestInt_le ?_, rfl⟩
  have h := abs_div_lastPlace_le (show 1 < 10 by norm_num) digits x
  push_cast at h ⊢
  exact h

theorem significant_zero (digits : ℕ) : significant digits 0 = 0 := roundTo_zero _

theorem significant_error (digits : ℕ) (x : ℚ) :
    |significant digits x - x| ≤ lastPlace 10 digits x / 2 :=
  roundTo_error (lastPlace_pos (by norm_num) digits x) x

/-- Rounding to some digits leaves more than half of a number. -/
theorem abs_le_two_mul_significant {digits : ℕ} (hdigits : 1 ≤ digits) (x : ℚ) :
    |x| ≤ 2 * |significant digits x| := by
  by_cases hx : x = 0
  · rw [hx, abs_zero]
    positivity
  have hplace : lastPlace 10 digits x ≤ |x| := by
    have hone : (1 : ℚ) ≤ 10 ^ ((digits : ℤ) - 1) := one_le_zpow₀ (by norm_num) (by omega)
    have hmul := lastPlace_mul_le (show 1 < 10 by norm_num) digits hx
    push_cast at hmul
    exact (le_mul_of_one_le_right (lastPlace_pos (by norm_num) digits x).le hone).trans hmul
  have herror := significant_error digits x
  have htriangle := abs_sub_abs_le_abs_sub x (significant digits x)
  rw [abs_sub_comm] at htriangle
  linarith

end Rounding

/-! ## Doubles -/

namespace Binary64

open Rounding

/-- The values of a finite double: fifty-three bits and an exponent in range. -/
def Representable (x : ℚ) : Prop :=
  ∃ m e : ℤ, |m| < 2 ^ 53 ∧ -1074 ≤ e ∧ e ≤ 971 ∧ x = m * (2 : ℚ) ^ e

/-- The spacing of the doubles next to a number; below the normal range it is constant. -/
def spacingExponent (x : ℚ) : ℤ := max (Int.log 2 |x| - 52) (-1074)

def nearestValue (x : ℚ) : ℚ := roundTo (2 ^ spacingExponent x) x

theorem two_zpow_pos (e : ℤ) : (0 : ℚ) < 2 ^ e := zpow_pos two_pos e

theorem two_zpow_lt {a b : ℤ} : (2 : ℚ) ^ a < 2 ^ b ↔ a < b := zpow_lt_zpow_iff_right₀ one_lt_two

theorem abs_div_spacing_le (x : ℚ) : |x / 2 ^ spacingExponent x| ≤ ((2 ^ 53 : ℤ) : ℚ) := by
  have hpos := two_zpow_pos (spacingExponent x)
  have hexp : Int.log 2 |x| + 1 ≤ 53 + spacingExponent x := by
    have := le_max_left (Int.log 2 |x| - 52) (-1074)
    rw [spacingExponent]
    omega
  rw [abs_div, abs_of_pos hpos, div_le_iff₀ hpos]
  calc |x| ≤ ((2 : ℕ) : ℚ) ^ (Int.log 2 |x| + 1) := (Int.lt_zpow_succ_log_self one_lt_two _).le
    _ ≤ 2 ^ (53 + spacingExponent x) := by
      push_cast
      exact zpow_le_zpow_right₀ one_le_two hexp
    _ = _ := by
      rw [zpow_add₀ two_ne_zero]
      push_cast
      rfl

theorem le_abs_div_spacing {x : ℚ} (hx : x ≠ 0) (hexp : -1074 < spacingExponent x) :
    ((2 ^ 52 : ℤ) : ℚ) ≤ |x / 2 ^ spacingExponent x| := by
  have hpos := two_zpow_pos (spacingExponent x)
  have hlog : 52 + spacingExponent x = Int.log 2 |x| := by
    rw [spacingExponent] at hexp ⊢
    omega
  rw [abs_div, abs_of_pos hpos, le_div_iff₀ hpos]
  calc ((2 ^ 52 : ℤ) : ℚ) * 2 ^ spacingExponent x = 2 ^ (52 + spacingExponent x) := by
        rw [zpow_add₀ two_ne_zero]
        push_cast
        rfl
    _ = ((2 : ℕ) : ℚ) ^ Int.log 2 |x| := by
      rw [hlog]
      push_cast
      rfl
    _ ≤ |x| := Int.zpow_log_le_self one_lt_two (abs_pos.mpr hx)

/-- Short of an overflow, the nearest value is a double's. -/
theorem representable_nearestValue {x : ℚ} (h : |nearestValue x| < 2 ^ (1024 : ℤ)) :
    Representable (nearestValue x) := by
  have hmax := abs_nearestInt_le (abs_div_spacing_le x)
  have habs : |nearestValue x| =
      ((|nearestInt (x / 2 ^ spacingExponent x)| : ℤ) : ℚ) * 2 ^ spacingExponent x := by
    rw [nearestValue, roundTo, abs_mul, abs_of_pos (two_zpow_pos _), Int.cast_abs]
  have hmin : -1074 ≤ spacingExponent x := le_max_right _ _
  rw [habs] at h
  rcases hmax.lt_or_eq with hlt | heq
  · refine ⟨nearestInt (x / 2 ^ spacingExponent x), spacingExponent x, hlt, hmin, ?_, rfl⟩
    by_contra hbig
    have hx : x ≠ 0 := by
      rintro rfl
      exact hbig (by decide +kernel)
    have hbits := le_abs_nearestInt (le_abs_div_spacing hx (by omega))
    have hover : (2 : ℚ) ^ (52 + spacingExponent x) < 2 ^ (1024 : ℤ) := by
      refine lt_of_le_of_lt ?_ h
      rw [zpow_add₀ two_ne_zero]
      refine mul_le_mul_of_nonneg_right ?_ (two_zpow_pos _).le
      exact_mod_cast hbits
    have hexp := two_zpow_lt.mp hover
    omega
  · -- The rounding has carried into a fifty-fourth bit.
    have hexp : 53 + spacingExponent x < 1024 := by
      rw [heq] at h
      refine two_zpow_lt.mp (lt_of_eq_of_lt ?_ h)
      rw [zpow_add₀ two_ne_zero]
      push_cast
      rfl
    have hcarry : ∀ m : ℤ, |m| = 2 ^ 52 →
        nearestInt (x / 2 ^ spacingExponent x) = m * 2 → Representable (nearestValue x) := by
      intro m hm hn
      refine ⟨m, spacingExponent x + 1, by rw [hm]; norm_num, by omega, by omega, ?_⟩
      rw [nearestValue, roundTo, hn, zpow_add₀ two_ne_zero]
      push_cast
      ring
    rcases (abs_eq (by norm_num)).mp heq with hn | hn
    · exact hcarry (2 ^ 52) (by norm_num) (by rw [hn]; norm_num)
    · exact hcarry (-2 ^ 52) (by norm_num) (by rw [hn]; norm_num)

theorem nearestValue_zero : nearestValue 0 = 0 := roundTo_zero _

theorem nearestValue_neg (x : ℚ) : nearestValue (-x) = -nearestValue x := by
  unfold nearestValue roundTo spacingExponent
  rw [abs_neg, neg_div, nearestInt_neg, Int.cast_neg, neg_mul]

theorem nearestValue_nonneg {x : ℚ} (h : 0 ≤ x) : 0 ≤ nearestValue x := by
  have hpos := two_zpow_pos (spacingExponent x)
  have hint := nearestInt_mono (div_nonneg h hpos.le)
  rw [nearestInt_zero] at hint
  exact mul_nonneg (by exact_mod_cast hint) hpos.le

theorem nearestValue_nonpos {x : ℚ} (h : x ≤ 0) : nearestValue x ≤ 0 := by
  have hpos := two_zpow_pos (spacingExponent x)
  have hint := nearestInt_mono (div_nonpos_of_nonpos_of_nonneg h hpos.le)
  rw [nearestInt_zero] at hint
  exact mul_nonpos_of_nonpos_of_nonneg (by exact_mod_cast hint) hpos.le

theorem spacingExponent_mono {x y : ℚ} (hx : x ≠ 0) (h : |x| ≤ |y|) :
    spacingExponent x ≤ spacingExponent y :=
  max_le_max_right _ (sub_le_sub_right (Int.log_mono_right (abs_pos.mpr hx) h) _)

/-- A wider spacing leaves the larger number. -/
theorem abs_nearestValue_le_of_spacing_lt {x y : ℚ} (hy : y ≠ 0)
    (h : spacingExponent x < spacingExponent y) : |nearestValue x| ≤ |nearestValue y| := by
  have hmin : -1074 ≤ spacingExponent x := le_max_right _ _
  have habs : ∀ z, |nearestValue z| =
      ((|nearestInt (z / 2 ^ spacingExponent z)| : ℤ) : ℚ) * 2 ^ spacingExponent z := fun z => by
    rw [nearestValue, roundTo, abs_mul, abs_of_pos (two_zpow_pos _), Int.cast_abs]
  have hupper := abs_nearestInt_le (abs_div_spacing_le x)
  have hlower := le_abs_nearestInt (le_abs_div_spacing hy (by omega))
  calc |nearestValue x| ≤ ((2 ^ 53 : ℤ) : ℚ) * 2 ^ spacingExponent x := by
        rw [habs]
        exact mul_le_mul_of_nonneg_right (by exact_mod_cast hupper) (two_zpow_pos _).le
    _ = ((2 ^ 52 : ℤ) : ℚ) * 2 ^ (spacingExponent x + 1) := by
        rw [zpow_add₀ two_ne_zero]
        push_cast
        ring
    _ ≤ ((2 ^ 52 : ℤ) : ℚ) * 2 ^ spacingExponent y :=
        mul_le_mul_of_nonneg_left (zpow_le_zpow_right₀ one_le_two (by omega)) (by norm_num)
    _ ≤ |nearestValue y| := by
        rw [habs]
        exact mul_le_mul_of_nonneg_right (by exact_mod_cast hlower) (two_zpow_pos _).le

/-- **Rounding keeps the order.** -/
theorem nearestValue_mono {x y : ℚ} (h : x ≤ y) : nearestValue x ≤ nearestValue y := by
  have hsame : spacingExponent x = spacingExponent y → nearestValue x ≤ nearestValue y := by
    intro heq
    have hpos := two_zpow_pos (spacingExponent y)
    have hint := nearestInt_mono (div_le_div_of_nonneg_right h hpos.le)
    rw [nearestValue, nearestValue, heq]
    exact mul_le_mul_of_nonneg_right (by exact_mod_cast hint) hpos.le
  rcases le_or_gt x 0 with hx | hx
  · rcases le_or_gt 0 y with hy | hy
    · exact (nearestValue_nonpos hx).trans (nearestValue_nonneg hy)
    · -- Below zero the spacing narrows.
      have habs : |y| ≤ |x| := by
        rw [abs_of_neg hy, abs_of_nonpos hx]
        linarith
      rcases (spacingExponent_mono hy.ne habs).lt_or_eq with hlt | heq
      · have hle := abs_nearestValue_le_of_spacing_lt (h.trans_lt hy).ne hlt
        rw [abs_of_nonpos (nearestValue_nonpos hx)] at hle
        have hneg := neg_abs_le (nearestValue y)
        linarith
      · exact hsame heq.symm
  · have habs : |x| ≤ |y| := by rwa [abs_of_pos hx, abs_of_pos (hx.trans_le h)]
    rcases (spacingExponent_mono hx.ne' habs).lt_or_eq with hlt | heq
    · have hle := abs_nearestValue_le_of_spacing_lt (hx.trans_le h).ne' hlt
      rw [abs_of_nonneg (nearestValue_nonneg (hx.trans_le h).le)] at hle
      exact (le_abs_self _).trans hle
    · exact hsame heq

/-- A value of fifty-three bits, and the carry into a fifty-fourth, is its own nearest value. -/
theorem nearestValue_eq_self {m e : ℤ} (hm : |m| ≤ 2 ^ 53) (he : -1074 ≤ e) :
    nearestValue (m * 2 ^ e) = m * 2 ^ e := by
  by_cases h0 : m = 0
  · rw [h0, Int.cast_zero, zero_mul, nearestValue_zero]
  have hpos := two_zpow_pos e
  have hne : (m : ℚ) * 2 ^ e ≠ 0 := mul_ne_zero (by exact_mod_cast h0) hpos.ne'
  have hexact : ∀ k : ℤ, ((m : ℚ) * 2 ^ e) = k * 2 ^ spacingExponent (m * 2 ^ e) →
      nearestValue (m * 2 ^ e) = m * 2 ^ e := by
    intro k hk
    have hdiv : (m : ℚ) * 2 ^ e / 2 ^ spacingExponent (m * 2 ^ e) = k :=
      (div_eq_iff (two_zpow_pos _).ne').mpr hk
    rw [nearestValue, roundTo, hdiv, nearestInt_intCast]
    exact hk.symm
  rcases hm.lt_or_eq with hlt | heq
  · have hlog : Int.log 2 |(m : ℚ) * 2 ^ e| < e + 53 := by
      refine (Int.lt_zpow_iff_log_lt one_lt_two (abs_pos.mpr hne)).mp ?_
      rw [abs_mul, abs_of_pos hpos]
      push_cast
      rw [zpow_add₀ two_ne_zero, mul_comm]
      exact mul_lt_mul_of_pos_left (by exact_mod_cast hlt) hpos
    have hle : spacingExponent (m * 2 ^ e) ≤ e := max_le (by omega) he
    obtain ⟨k, hk⟩ := Int.le.dest hle
    refine hexact (m * 2 ^ k) ?_
    conv_lhs => rw [← hk, zpow_add₀ two_ne_zero, zpow_natCast]
    push_cast
    ring
  · have hlog : Int.log 2 |(m : ℚ) * 2 ^ e| = 53 + e := by
      have habs : |(m : ℚ) * 2 ^ e| = ((2 : ℕ) : ℚ) ^ (53 + e) := by
        rw [abs_mul, abs_of_pos hpos, ← Int.cast_abs, heq, zpow_add₀ (by norm_num)]
        push_cast
        rfl
      rw [habs, Int.log_zpow one_lt_two]
    have hspacing : spacingExponent (m * 2 ^ e) = e + 1 := by
      rw [spacingExponent, hlog, max_eq_left (by omega)]
      omega
    have heven : m = m / 2 * 2 := by
      rcases (abs_eq (by norm_num)).mp heq with h | h <;> rw [h] <;> norm_num
    refine hexact (m / 2) ?_
    rw [hspacing, zpow_add₀ two_ne_zero]
    conv_lhs => rw [heven]
    push_cast
    ring

/-- A rounded number is rounded to itself. -/
theorem nearestValue_idem (x : ℚ) : nearestValue (nearestValue x) = nearestValue x :=
  nearestValue_eq_self (abs_nearestInt_le (abs_div_spacing_le x)) (le_max_right _ _)

theorem nearestValue_le {x y : ℚ} (h : x ≤ nearestValue y) : nearestValue x ≤ nearestValue y := by
  simpa [nearestValue_idem] using nearestValue_mono h

/-- A rounded number. -/
abbrev Double := {x : ℚ // nearestValue x = x}

namespace Double

def round (x : ℚ) : Double := ⟨nearestValue x, nearestValue_idem x⟩

instance : Zero Double := ⟨0, nearestValue_zero⟩

instance : Sub Double := ⟨fun x y => round (x.val - y.val)⟩

theorem sub_mono {x y : Double} (h : x ≤ y) (z : Double) : x - z ≤ y - z :=
  nearestValue_mono (sub_le_sub_right (Subtype.coe_le_coe.mpr h) z.val)

theorem sub_le_of_nonneg (x : Double) {y : Double} (h : 0 ≤ y) : x - y ≤ x :=
  (nearestValue_mono (sub_le_self x.val (Subtype.coe_le_coe.mpr h))).trans x.property.le

end Double

/-- Two rounded numbers that differ, differ by a rounded number above zero. -/
theorem nearestValue_sub_pos {x y : ℚ} (h : nearestValue x < nearestValue y) :
    0 < nearestValue (nearestValue y - nearestValue x) := by
  have hgrid : ∀ z, ∃ k : ℤ, nearestValue z = k * 2 ^ (-1074 : ℤ) := by
    intro z
    obtain ⟨k, hk⟩ := Int.le.dest (le_max_right (Int.log 2 |z| - 52) (-1074))
    refine ⟨nearestInt (z / 2 ^ spacingExponent z) * 2 ^ k, ?_⟩
    rw [nearestValue, roundTo, show spacingExponent z = -1074 + k from hk.symm,
      zpow_add₀ two_ne_zero, zpow_natCast, Int.cast_mul, Int.cast_pow, Int.cast_ofNat, mul_assoc,
      mul_comm (2 ^ k)]
  obtain ⟨k, hk⟩ := hgrid x
  obtain ⟨l, hl⟩ := hgrid y
  have hpos := two_zpow_pos (-1074)
  have hkl : k + 1 ≤ l := by
    rw [hk, hl] at h
    exact Int.add_one_le_iff.mpr (Int.cast_lt.mp (lt_of_mul_lt_mul_right h hpos.le))
  have hunit : (2 : ℚ) ^ (-1074 : ℤ) ≤ nearestValue y - nearestValue x := by
    rw [hk, hl, ← sub_mul]
    refine le_mul_of_one_le_left hpos.le ?_
    have hcast : (k : ℚ) + 1 ≤ l := by exact_mod_cast hkl
    linarith
  have hself := nearestValue_eq_self (show |1| ≤ 2 ^ 53 by norm_num) (le_refl (-1074))
  rw [Int.cast_one, one_mul] at hself
  exact hpos.trans_le (hself ▸ nearestValue_mono hunit)

/-- A number is off its nearest value by half a unit of the fifty-third bit at most; the
unit of the smallest normal number serves below it. -/
theorem nearestValue_error (x : ℚ) :
    |nearestValue x - x| ≤ max |x| (2 ^ (-1022 : ℤ)) * 2 ^ (-53 : ℤ) := by
  by_cases hx : x = 0
  · rw [hx, nearestValue_zero, sub_zero, abs_zero]
    positivity
  have hexp : spacingExponent x = max (Int.log 2 |x|) (-1022) + -52 := by
    rw [spacingExponent]
    omega
  have hlog : (2 : ℚ) ^ Int.log 2 |x| ≤ |x| := by
    simpa using Int.zpow_log_le_self (R := ℚ) one_lt_two (abs_pos.mpr hx)
  calc |nearestValue x - x| ≤ 2 ^ spacingExponent x / 2 := roundTo_error (two_zpow_pos _) x
    _ = 2 ^ max (Int.log 2 |x|) (-1022) * 2 ^ (-53 : ℤ) := by
      rw [hexp, zpow_add₀ two_ne_zero, mul_div_assoc]
      norm_num
    _ = max (2 ^ Int.log 2 |x|) (2 ^ (-1022 : ℤ)) * 2 ^ (-53 : ℤ) := by
      rw [(zpow_right_mono₀ one_le_two).map_max]
    _ ≤ max |x| (2 ^ (-1022 : ℤ)) * 2 ^ (-53 : ℤ) :=
      mul_le_mul_of_nonneg_right (max_le_max_right _ hlog) (two_zpow_pos _).le

/-- Two decimals of one digit count that differ, differ by a unit of the finer one's last
place, which is not finer than its own size allows. -/
theorem HasDigits.gap {digits : ℕ} {x y : ℚ} (hx : HasDigits digits x) (hy : HasDigits digits y)
    (hne : x ≠ y) : min |x| |y| ≤ 10 ^ digits * |x - y| := by
  -- Both are multiples of the finer unit, and the finer one is at most `10 ^ digits` of it.
  have hle : ∀ {x y : ℚ} {n e m f : ℤ}, |n| ≤ 10 ^ digits → x = n * (10 : ℚ) ^ e →
      y = m * (10 : ℚ) ^ f → e ≤ f → x ≠ y → |x| ≤ 10 ^ digits * |x - y| := by
    rintro _ _ n e m f hn rfl rfl hef hne
    obtain ⟨k, rfl⟩ := Int.le.dest hef
    have hpos : (0 : ℚ) < 10 ^ e := zpow_pos (by norm_num) _
    have hdiff : (n : ℚ) * 10 ^ e - m * 10 ^ (e + k) = ((n - m * 10 ^ k : ℤ) : ℚ) * 10 ^ e := by
      rw [zpow_add₀ (by norm_num), zpow_natCast]
      push_cast
      ring
    have hone : 1 ≤ |n - m * 10 ^ k| := by
      refine Int.one_le_abs fun h0 => hne (sub_eq_zero.mp ?_)
      rw [hdiff, h0, Int.cast_zero, zero_mul]
    rw [hdiff, abs_mul, abs_mul, abs_of_pos hpos, ← mul_assoc]
    refine mul_le_mul_of_nonneg_right ?_ hpos.le
    calc |(n : ℚ)| ≤ 10 ^ digits * 1 := by
          rw [mul_one]
          exact_mod_cast hn
      _ ≤ 10 ^ digits * |((n - m * 10 ^ k : ℤ) : ℚ)| := by
        refine mul_le_mul_of_nonneg_left ?_ (by positivity)
        exact_mod_cast hone
  obtain ⟨n, e, hn, hx⟩ := hx
  obtain ⟨m, f, hm, hy⟩ := hy
  rcases le_total e f with hef | hfe
  · exact (min_le_left _ _).trans (hle hn hx hy hef hne)
  · rw [abs_sub_comm]
    exact (min_le_right _ _).trans (hle hm hy hx hfe hne.symm)

/-- Decimals of at most fifteen digits, one of them in the normal range, are told apart
by their nearest values. -/
theorem eq_of_nearestValue_eq {digits : ℕ} (hdigits : digits ≤ 15) {x y : ℚ}
    (hx : HasDigits digits x) (hy : HasDigits digits y) (hnormal : 2 ^ (-1022 : ℤ) ≤ max |x| |y|)
    (h : nearestValue x = nearestValue y) : x = y := by
  by_contra hne
  have hgap := HasDigits.gap hx hy hne
  have hpow : (10 : ℚ) ^ digits ≤ 10 ^ 15 := pow_le_pow_right₀ (by norm_num) hdigits
  have herr : ∀ z, |z| ≤ max |x| |y| → |nearestValue z - z| ≤ max |x| |y| * 2 ^ (-53 : ℤ) :=
    fun z hz => (nearestValue_error z).trans
      (mul_le_mul_of_nonneg_right (max_le hz hnormal) (two_zpow_pos _).le)
  have hclose : |x - y| ≤ max |x| |y| * 2 ^ (-52 : ℤ) := by
    have hbetween : x - y = (nearestValue y - y) - (nearestValue x - x) := by
      rw [h]
      ring
    have hexp : (2 : ℚ) ^ (-52 : ℤ) = 2 ^ (-53 : ℤ) + 2 ^ (-53 : ℤ) := by norm_num
    rw [hbetween, hexp, mul_add]
    exact (abs_sub _ _).trans (add_le_add (herr y (le_max_right _ _)) (herr x (le_max_left _ _)))
  have hmax : max |x| |y| ≤ min |x| |y| + |x - y| := by
    have hxy := abs_sub_abs_le_abs_sub x y
    have hyx := abs_sub_abs_le_abs_sub y x
    rw [abs_sub_comm y x] at hyx
    rcases le_total |x| |y| with hle | hle
    · rw [max_eq_right hle, min_eq_left hle]
      linarith
    · rw [max_eq_left hle, min_eq_right hle]
      linarith
  have hpos : 0 < |x - y| := abs_pos.mpr (sub_ne_zero.mpr hne)
  have hmul := mul_le_mul_of_nonneg_right hpow hpos.le
  norm_num at hclose hmul
  linarith

theorem Representable.abs_le {x : ℚ} (hx : Representable x) :
    |x| ≤ (2 ^ 53 - 1) * 2 ^ (971 : ℤ) := by
  obtain ⟨m, e, hm, -, he, rfl⟩ := hx
  rw [abs_mul, abs_of_pos (two_zpow_pos e)]
  refine mul_le_mul ?_ (zpow_le_zpow_right₀ one_le_two he) (two_zpow_pos e).le (by norm_num)
  exact_mod_cast Int.le_sub_one_of_lt hm

/-- The largest decimal of twelve digits that is nearest to a double. -/
def topDecimal : ℚ := 179769313486 * 10 ^ (297 : ℤ)

theorem topDecimal_nonneg : 0 ≤ topDecimal := by decide +kernel

theorem abs_significant_twelve_le {x : ℚ} (hx : Representable x) :
    |significant 12 x| ≤ topDecimal := by
  by_cases h0 : x = 0
  · rw [h0, significant_zero, abs_zero]
    exact topDecimal_nonneg
  have hlog : Int.log 10 |x| < 309 := by
    refine (Int.lt_zpow_iff_log_lt (by norm_num) (abs_pos.mpr h0)).mp (hx.abs_le.trans_lt ?_)
    decide +kernel
  have hunit : lastPlace 10 12 x = 10 ^ (Int.log 10 |x| + 1 - 12) := rfl
  have hpos : 0 < lastPlace 10 12 x := lastPlace_pos (by norm_num) 12 x
  have hn : |significant 12 x| =
      ((|nearestInt (x / lastPlace 10 12 x)| : ℤ) : ℚ) * lastPlace 10 12 x := by
    rw [significant, roundTo, abs_mul, abs_of_pos hpos, Int.cast_abs]
  obtain hlow | htop : Int.log 10 |x| + 1 - 12 ≤ 296 ∨ Int.log 10 |x| + 1 - 12 = 297 := by omega
  · have hdigits := abs_nearestInt_le (abs_div_lastPlace_le (show 1 < 10 by norm_num) 12 x)
    calc |significant 12 x|
        ≤ 10 ^ 12 * 10 ^ (296 : ℤ) := by
          rw [hn]
          refine mul_le_mul (by exact_mod_cast hdigits) ?_ hpos.le (by norm_num)
          rw [hunit]
          exact zpow_le_zpow_right₀ (by norm_num) hlow
      _ ≤ topDecimal := by decide +kernel
  · -- The next decimal is more than half a unit past the largest double.
    rw [htop] at hunit
    have hhalf : ((2 : ℚ) ^ 53 - 1) * 2 ^ (971 : ℤ) + 10 ^ (297 : ℤ) / 2 <
        179769313487 * 10 ^ (297 : ℤ) := by decide +kernel
    have herror := significant_error 12 x
    have htriangle := abs_sub_abs_le_abs_sub (significant 12 x) x
    have hmax := hx.abs_le
    rw [topDecimal, ← hunit]
    rw [← hunit] at hhalf
    generalize lastPlace 10 12 x = unit at hpos hn hhalf herror ⊢
    generalize ((2 : ℚ) ^ 53 - 1) * 2 ^ (971 : ℤ) = largest at hhalf hmax
    have hlt : |significant 12 x| < 179769313487 * unit := by linarith
    rw [hn] at hlt ⊢
    have hint : |nearestInt (x / unit)| < 179769313487 := by
      exact_mod_cast lt_of_mul_lt_mul_right hlt hpos.le
    refine mul_le_mul_of_nonneg_right ?_ hpos.le
    exact_mod_cast Int.lt_add_one_iff.mp hint

/-- A double written with twelve digits is read back as a finite one. -/
theorem abs_nearestValue_twelve_lt {x : ℚ} (hx : Representable x) :
    |nearestValue (significant 12 x)| < 2 ^ (1024 : ℤ) := by
  have hle := abs_significant_twelve_le hx
  have herror := nearestValue_error (significant 12 x)
  have hmax : max |significant 12 x| (2 ^ (-1022 : ℤ)) ≤ topDecimal :=
    max_le hle (by decide +kernel)
  have hscaled := mul_le_mul_of_nonneg_right hmax (two_zpow_pos (-53)).le
  have htriangle := abs_sub_abs_le_abs_sub (nearestValue (significant 12 x)) (significant 12 x)
  calc |nearestValue (significant 12 x)|
      ≤ topDecimal + topDecimal * 2 ^ (-53 : ℤ) := by linarith
    _ < 2 ^ (1024 : ℤ) := by decide +kernel

/-- Two numbers whose different decimals of twelve digits have one nearest value are both
below twice the smallest normal double. -/
theorem small_of_nearestValue_eq {x y : ℚ} (hne : significant 12 x ≠ significant 12 y)
    (h : nearestValue (significant 12 x) = nearestValue (significant 12 y)) :
    |x| < 2 ^ (-1021 : ℤ) ∧ |y| < 2 ^ (-1021 : ℤ) := by
  have hsmall : max |significant 12 x| |significant 12 y| < 2 ^ (-1022 : ℤ) := by
    by_contra hnormal
    exact hne (eq_of_nearestValue_eq (by norm_num) (hasDigits_significant 12 x)
      (hasDigits_significant 12 y) (not_lt.mp hnormal) h)
  have hdouble : (2 : ℚ) ^ (-1021 : ℤ) = 2 * 2 ^ (-1022 : ℤ) := by
    rw [← zpow_one_add₀ two_ne_zero]
    norm_num
  have hbound : ∀ z, |significant 12 z| ≤ max |significant 12 x| |significant 12 y| →
      |z| < 2 ^ (-1021 : ℤ) := by
    intro z hz
    have htwice := abs_le_two_mul_significant (show 1 ≤ 12 by norm_num) z
    rw [hdouble]
    linarith
  exact ⟨hbound x (le_max_left _ _), hbound y (le_max_right _ _)⟩

end Binary64

/-- A double: a zero has a sign, and is finite without one. -/
inductive Binary64
  | nan
  | inf (negative : Bool)
  | negZero
  | finite (x : ℚ) (h : Binary64.Representable x)

/-- A number as text: its value, and the sign of a zero. -/
inductive Numeral
  | nan
  | inf (negative : Bool)
  | minusZero
  | decimal (x : ℚ)
  deriving DecidableEq

namespace Binary64

open Rounding

/-- The double nearest to a number; past the largest one is infinity. -/
def nearest (x : ℚ) : Binary64 :=
  if h : |nearestValue x| < 2 ^ (1024 : ℤ) then
    if nearestValue x = 0 ∧ x < 0 then negZero
    else finite (nearestValue x) (representable_nearestValue h)
  else inf (decide (x < 0))

theorem representable_zero : Representable 0 :=
  ⟨0, 0, by norm_num, by norm_num, by norm_num, by norm_num⟩

def zero : Binary64 := finite 0 representable_zero

/-- `m * 2 ^ e`, for an `m` of fifty-three bits. -/
def dyadic (m e : ℤ) (hm : |m| < 2 ^ 53) (he : -1074 ≤ e ∧ e ≤ 971) : Binary64 :=
  finite (m * 2 ^ e) ⟨m, e, hm, he.1, he.2, rfl⟩

/-- `x == 0.0`. -/
def isZero : Binary64 → Bool
  | negZero => true
  | finite x _ => decide (x = 0)
  | _ => false

/-- The value, where it is a number. -/
def toRat? : Binary64 → Option ℚ
  | negZero => some 0
  | finite x _ => some x
  | _ => none

/-- The text of a double, to so many significant digits. -/
def format (digits : ℕ) : Binary64 → Numeral
  | nan => .nan
  | inf negative => .inf negative
  | negZero => .minusZero
  | finite x _ => .decimal (significant digits x)

/-- `float(text)`. -/
def ofNumeral : Numeral → Binary64
  | .nan => nan
  | .inf negative => inf negative
  | .minusZero => negZero
  | .decimal x => nearest x

end Binary64

end TradingPlatform.Lib
