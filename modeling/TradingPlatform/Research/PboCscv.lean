import TradingPlatform.Lib.Combinations
import TradingPlatform.Lib.StableSort
import Mathlib.Algebra.BigOperators.Ring.List
import Mathlib.Algebra.Order.BigOperators.Group.List
import Mathlib.Algebra.Order.Field.Basic
import Mathlib.Analysis.SpecialFunctions.Log.Basic
import Mathlib.Data.List.FinRange
import Mathlib.Data.List.MinMax
import Mathlib.Data.Multiset.Powerset
import Mathlib.Data.Prod.Lex
import Mathlib.Tactic.Linarith

/-! # The probability of backtest overfitting

Over every half of the slices, where the in-sample winner ends up out of sample.
The winner is the first of the greatest means, and its rank a position in a sort
whose order among equals is the sort's own; so ties are resolved by label. -/

namespace TradingPlatform.Research.Pbo

open TradingPlatform.Lib TradingPlatform.Lib.StableSort

variable {K : Type*} [Field K] [LinearOrder K] {s n : ℕ}

/-! ## The estimator -/

abbrev PerfMatrix (s n : ℕ) (K : Type*) := Fin s → Fin n → K

/-- The indices of an array in ascending order of its values. -/
abbrev Argsort (n : ℕ) (K : Type*) := (Fin n → K) → List (Fin n)

structure Sorts (argsort : Argsort n K) : Prop where
  perm : ∀ v, (argsort v).Perm (List.finRange n)
  ascending : ∀ v, (argsort v).Pairwise fun i j => v i ≤ v j
  compares : ∀ v (f : K → K), StrictMono f → argsort (f ∘ v) = argsort v

/-- `m[slices].mean(axis=0)`. -/
def means (m : PerfMatrix s n K) (slices : List (Fin s)) (j : Fin n) : K :=
  (slices.map (m · j)).sum / slices.length

def oosSlices (isSlices : List (Fin s)) : List (Fin s) :=
  (List.finRange s).filter (· ∉ isSlices)

/-- The first of the greatest. -/
def nStar (isPerf : Fin n → K) : Option (Fin n) := (List.finRange n).argmax isPerf

def omega (argsort : Argsort n K) (isPerf oosPerf : Fin n → K) : Option K :=
  (nStar isPerf).map fun w => ((argsort oosPerf).idxOf w + 1) / (n + 1)

def splits (s : ℕ) : List (List (Fin s)) := combinations (s / 2) (List.finRange s)

def splitOmegas (argsort : Argsort n K) (m : PerfMatrix s n K) : List (Option K) :=
  (splits s).map fun isSlices => omega argsort (means m isSlices) (means m (oosSlices isSlices))

structure PboResult (K : Type*) where
  pbo : K
  nCombinations : ℕ
  lambdaMean : K
  lambdas : List K

inductive PboError
  | oddSlices (s : ℕ)
  | emptyArgmax
  deriving DecidableEq

def summary (log : K → K) (omegas : List K) : PboResult K :=
  let lambdas := omegas.map fun omega => log (omega / (1 - omega))
  ⟨(omegas.countP fun omega => omega < 1 / ((2 : ℕ) : K) : ℕ) / (omegas.length : K), omegas.length,
    lambdas.sum / lambdas.length, lambdas⟩

def pboCscv (argsort : Argsort n K) (log : K → K) (m : PerfMatrix s n K) :
    Except PboError (PboResult K) :=
  if s % 2 ≠ 0 then .error (.oddSlices s)
  else if n = 0 then .error .emptyArgmax
  else .ok (summary log (splitOmegas argsort m).reduceOption)

/-! ## What labels may not change -/

/-- One error, or one `pbo` over the same lambdas in some order. -/
def Same : Except PboError (PboResult K) → Except PboError (PboResult K) → Prop
  | .error e, .error e' => e = e'
  | .ok r, .ok r' => r.pbo = r'.pbo ∧ r.lambdas.Perm r'.lambdas
  | _, _ => False

def relabelColumns (σ : Equiv.Perm (Fin n)) (m : PerfMatrix s n K) : PerfMatrix s n K :=
  fun i j => m i (σ j)

def relabelRows (ρ : Equiv.Perm (Fin s)) (m : PerfMatrix s n K) : PerfMatrix s n K :=
  fun i => m (ρ i)

structure LabelFree (argsort : Argsort n K) (log : K → K) (m : PerfMatrix s n K) : Prop where
  columns : ∀ σ, Same (pboCscv argsort log (relabelColumns σ m)) (pboCscv argsort log m)
  rows : ∀ ρ, Same (pboCscv argsort log (relabelRows ρ m)) (pboCscv argsort log m)
  affine : ∀ a b, 0 < a →
    Same (pboCscv argsort log fun i j => a * m i j + b) (pboCscv argsort log m)

/-- One column wins and no other ends where it does, or all columns are alike. -/
def Decided (isPerf oosPerf : Fin n → K) : Prop :=
  (∃ w, (∀ j, j ≠ w → isPerf j < isPerf w) ∧ ∀ j, j ≠ w → oosPerf j ≠ oosPerf w) ∨
    (∀ i j, isPerf i = isPerf j) ∧ ∀ i j, oosPerf i = oosPerf j

instance (isPerf oosPerf : Fin n → K) : Decidable (Decided isPerf oosPerf) :=
  inferInstanceAs (Decidable (_ ∨ _))

theorem same_of_perm {argsort : Argsort n K} (log : K → K) {m m' : PerfMatrix s n K}
    (h : (splitOmegas argsort m).Perm (splitOmegas argsort m')) :
    Same (pboCscv argsort log m) (pboCscv argsort log m') := by
  have hperm : (splitOmegas argsort m).reduceOption.Perm (splitOmegas argsort m').reduceOption :=
    h.filterMap id
  unfold pboCscv
  split_ifs
  · rfl
  · rfl
  · refine ⟨?_, hperm.map _⟩
    simp only [summary]
    rw [hperm.countP_eq, hperm.length_eq]

/-! ## The winner and its rank -/

section Winner
variable {isPerf oosPerf v : Fin n → K} {w : Fin n}

omit [Field K] in
theorem nStar_eq_some : nStar isPerf = some w ↔
    (∀ j, isPerf j ≤ isPerf w) ∧ ∀ j, isPerf w ≤ isPerf j → w ≤ j := by
  unfold nStar
  rw [List.argmax_eq_some_iff]
  simp only [List.mem_finRange, true_and, forall_const, List.idxOf_finRange, Fin.le_def]

omit [Field K] in
theorem exists_nStar (hn : n ≠ 0) (isPerf : Fin n → K) : ∃ w, nStar isPerf = some w := by
  rw [← Option.isSome_iff_exists, Option.isSome_iff_ne_none, nStar, ne_eq, List.argmax_eq_none]
  simpa using hn

omit [Field K] in
theorem nStar_comp {f : K → K} (hf : StrictMono f) (isPerf : Fin n → K) :
    nStar (f ∘ isPerf) = nStar isPerf := by
  ext w
  simp only [nStar_eq_some, Function.comp_apply, hf.le_iff_le]

theorem omega_comp {argsort : Argsort n K} (hs : Sorts argsort) {f : K → K} (hf : StrictMono f)
    (isPerf oosPerf : Fin n → K) :
    omega argsort (f ∘ isPerf) (f ∘ oosPerf) = omega argsort isPerf oosPerf := by
  rw [omega, omega, nStar_comp hf, hs.compares _ _ hf]

omit [Field K] in
theorem rank_bounds {argsort : Argsort n K} (hs : Sorts argsort) (v : Fin n → K) (w : Fin n) :
    (List.finRange n).countP (v · < v w) ≤ (argsort v).idxOf w ∧
      (argsort v).idxOf w < (List.finRange n).countP (v · ≤ v w) := by
  have hperm := hs.perm v
  rw [← hperm.countP_eq, ← hperm.countP_eq]
  exact idxOf_bounds (hs.ascending v) (hperm.nodup_iff.mpr (List.nodup_finRange n))
    (hperm.mem_iff.mpr (List.mem_finRange w))

theorem countP_lt_countP {α : Type*} {p q : α → Bool} {l : List α} (h : ∀ i ∈ l, p i → q i)
    {w : α} (hw : w ∈ l) (hp : ¬ p w) (hq : q w) : l.countP p < l.countP q := by
  have hcount : l.countP p = (l.filter q).countP p := by
    rw [List.countP_filter]
    exact List.countP_congr fun i hi => by simpa using h i hi
  rw [hcount, List.countP_eq_length_filter (p := q)]
  exact List.countP_lt_length_iff.mpr ⟨w, List.mem_filter.mpr ⟨hw, hq⟩, by simpa using hp⟩

theorem countP_comp (σ : Equiv.Perm (Fin n)) (p : Fin n → Prop) [DecidablePred p] :
    (List.finRange n).countP (fun i => p (σ i)) = (List.finRange n).countP p := by
  rw [← σ.map_finRange_perm.countP_eq (fun i => decide (p i)), List.countP_map]
  rfl

end Winner

/-! ## Columns -/

section Columns
variable {isPerf oosPerf : Fin n → K} {argsort : Argsort n K}

omit [Field K] in
/-- A rank that no other column can share is the number of those below. -/
theorem rank_eq (hs : Sorts argsort) {v : Fin n → K} {w : Fin n} (h : ∀ j, j ≠ w → v j ≠ v w) :
    (argsort v).idxOf w = (List.finRange n).countP (v · < v w) := by
  have hperm := hs.perm v
  rw [← hperm.countP_eq]
  exact idxOf_eq_countP (hs.ascending v) (hperm.nodup_iff.mpr (List.nodup_finRange n))
    (hperm.mem_iff.mpr (List.mem_finRange w)) fun j _ hv => not_imp_not.mp (h j) hv

theorem omega_relabel (hs : Sorts argsort) (hd : Decided isPerf oosPerf)
    (σ : Equiv.Perm (Fin n)) :
    omega argsort (isPerf ∘ σ) (oosPerf ∘ σ) = omega argsort isPerf oosPerf := by
  rcases hd with ⟨w, hwin, hout⟩ | ⟨his, hoos⟩
  · have hwinner : nStar isPerf = some w := by
      refine nStar_eq_some.mpr ⟨fun j => ?_, fun j hle => ?_⟩
      · by_cases hj : j = w
        · rw [hj]
        · exact (hwin j hj).le
      · by_contra hlt
        exact absurd hle (not_le.mpr (hwin j fun h => hlt h.ge))
    have hmoved : nStar (isPerf ∘ σ) = some (σ.symm w) := by
      have hbelow : ∀ j, j ≠ σ.symm w → isPerf (σ j) < isPerf w := fun j hj =>
        hwin _ fun h => hj (by rw [← h, σ.symm_apply_apply])
      refine nStar_eq_some.mpr ⟨fun j => ?_, fun j hle => ?_⟩
      · rw [Function.comp_apply, Function.comp_apply, σ.apply_symm_apply]
        by_cases hj : j = σ.symm w
        · rw [hj, σ.apply_symm_apply]
        · exact (hbelow j hj).le
      · rw [Function.comp_apply, Function.comp_apply, σ.apply_symm_apply] at hle
        by_contra hlt
        exact absurd hle (not_le.mpr (hbelow j fun h => hlt h.ge))
    have hrank : (argsort (oosPerf ∘ σ)).idxOf (σ.symm w) = (argsort oosPerf).idxOf w := by
      rw [rank_eq hs hout, rank_eq hs fun j hj => ?_]
      · simp only [Function.comp_apply, σ.apply_symm_apply]
        exact countP_comp σ fun i => oosPerf i < oosPerf w
      · simp only [Function.comp_apply, σ.apply_symm_apply]
        exact hout _ fun h => hj (by rw [← h, σ.symm_apply_apply])
    rw [omega, omega, hwinner, hmoved, Option.map_some, Option.map_some, hrank]
  · have hsame : isPerf ∘ σ = isPerf := funext fun j => his _ _
    have hsame' : oosPerf ∘ σ = oosPerf := funext fun j => hoos _ _
    rw [hsame, hsame']

end Columns

/-! ## Rows -/

section Rows

/-- The means over a multiset of slices. -/
def meansOver (m : PerfMatrix s n K) (slices : Multiset (Fin s)) (j : Fin n) : K :=
  (slices.map (m · j)).sum / slices.card

def oosOver (slices : Multiset (Fin s)) : Multiset (Fin s) :=
  (List.finRange s : Multiset (Fin s)).filter (· ∉ slices)

omit [LinearOrder K] in
theorem means_eq (m : PerfMatrix s n K) (slices : List (Fin s)) :
    means m slices = meansOver m slices := by
  funext j
  simp [means, meansOver]

theorem oosSlices_eq (isSlices : List (Fin s)) :
    (oosSlices isSlices : Multiset (Fin s)) = oosOver isSlices := by
  simp [oosSlices, oosOver]

theorem map_finRange (ρ : Equiv.Perm (Fin s)) :
    (List.finRange s : Multiset (Fin s)).map ρ = List.finRange s := by
  rw [Multiset.map_coe]
  exact Multiset.coe_eq_coe.mpr ρ.map_finRange_perm

omit [LinearOrder K] in
theorem meansOver_relabel (ρ : Equiv.Perm (Fin s)) (m : PerfMatrix s n K)
    (slices : Multiset (Fin s)) :
    meansOver (relabelRows ρ m) slices = meansOver m (slices.map ρ) := by
  funext j
  rw [meansOver, meansOver, Multiset.map_map, Multiset.card_map]
  rfl

theorem oosOver_map (ρ : Equiv.Perm (Fin s)) (slices : Multiset (Fin s)) :
    oosOver (slices.map ρ) = (oosOver slices).map ρ := by
  have hmem : ∀ i, ρ i ∉ slices.map ρ ↔ i ∉ slices := fun i => by
    rw [Multiset.mem_map_of_injective ρ.injective]
  conv_lhs => rw [oosOver, ← map_finRange ρ, Multiset.filter_map]
  simp only [Function.comp_def, hmem]
  rfl

/-- One split, by the multiset of its slices. -/
def omegaOver (argsort : Argsort n K) (m : PerfMatrix s n K) (slices : Multiset (Fin s)) :
    Option K :=
  omega argsort (meansOver m slices) (meansOver m (oosOver slices))

theorem splitOmegas_eq (argsort : Argsort n K) (m : PerfMatrix s n K) :
    (splitOmegas argsort m : Multiset (Option K)) =
      (Multiset.powersetCard (s / 2) (List.finRange s : Multiset (Fin s))).map
        (omegaOver argsort m) := by
  have hsplits : ((splits s).map Multiset.ofList).Perm
      (((List.finRange s).sublistsLen (s / 2)).map Multiset.ofList) := (combinations_perm _ _).map _
  rw [Multiset.powersetCard_coe, Multiset.map_coe, Multiset.coe_eq_coe]
  refine List.Perm.trans (List.Perm.of_eq ?_) (hsplits.map _)
  rw [List.map_map]
  refine List.map_congr_left fun slices _ => ?_
  simp only [Function.comp_apply, omegaOver, ← oosSlices_eq, means_eq]

theorem splitOmegas_relabelRows (argsort : Argsort n K) (ρ : Equiv.Perm (Fin s))
    (m : PerfMatrix s n K) :
    (splitOmegas argsort (relabelRows ρ m)).Perm (splitOmegas argsort m) := by
  rw [← Multiset.coe_eq_coe, splitOmegas_eq, splitOmegas_eq]
  conv_rhs => rw [← map_finRange ρ, Multiset.powersetCard_map, Multiset.map_map]
  refine Multiset.map_congr rfl fun slices _ => ?_
  simp only [Function.comp_apply, omegaOver, meansOver_relabel, oosOver_map]

end Rows

/-! ## Increasing affine maps -/

section Affine
variable [IsStrictOrderedRing K]

theorem means_affine (a b : K) (m : PerfMatrix s n K) {slices : List (Fin s)} (h : slices ≠ []) :
    means (fun i j => a * m i j + b) slices = (fun x => a * x + b) ∘ means m slices := by
  have hlen : (slices.length : K) ≠ 0 := by
    simpa using h
  funext j
  have hsum : (slices.map fun i => a * m i j + b).sum =
      a * (slices.map (m · j)).sum + slices.length * b := by
    rw [List.sum_map_add, ← List.sum_map_mul_left]
    simp
  rw [means, hsum, Function.comp_apply, means, add_div, mul_div_assoc, mul_div_cancel_left₀ b hlen]

omit [LinearOrder K] [IsStrictOrderedRing K] in
theorem means_nil (m : PerfMatrix s n K) : means m [] = fun _ => 0 := by
  funext j
  simp [means]

theorem split_ne_nil (heven : s % 2 = 0) (hs : s ≠ 0) {isSlices : List (Fin s)}
    (h : isSlices ∈ splits s) : isSlices ≠ [] ∧ oosSlices isSlices ≠ [] := by
  obtain ⟨-, hlen⟩ := mem_combinations.mp h
  constructor
  · rintro rfl
    simp only [List.length_nil] at hlen
    omega
  · intro hnil
    have hall : ∀ i ∈ List.finRange s, i ∈ isSlices := by
      simpa [oosSlices] using hnil
    have := ((List.nodup_finRange s).subperm hall).length_le
    rw [List.length_finRange] at this
    omega

theorem splitOmegas_affine {argsort : Argsort n K} (hs : Sorts argsort) (heven : s % 2 = 0)
    {a : K} (ha : 0 < a) (b : K) (m : PerfMatrix s n K) :
    splitOmegas argsort (fun i j => a * m i j + b) = splitOmegas argsort m := by
  have hmono : StrictMono fun x : K => a * x + b := fun x y hxy =>
    add_lt_add_left (mul_lt_mul_of_pos_left hxy ha) b
  refine List.map_congr_left fun isSlices hsplit => ?_
  rcases eq_or_ne s 0 with rfl | hne
  · -- no slices: the means of nothing on both sides
    have hnil : ∀ slices : List (Fin 0), slices = [] := fun slices =>
      List.eq_nil_iff_forall_not_mem.mpr fun i => i.elim0
    rw [hnil isSlices, hnil (oosSlices [])]
    simp only [means_nil]
  · obtain ⟨his, hoos⟩ := split_ne_nil heven hne hsplit
    rw [means_affine a b m his, means_affine a b m hoos, omega_comp hs hmono]

end Affine

/-! ## What an undecided split can show -/

section Undecided
variable {isPerf oosPerf : Fin n → K}

/-- The sort whose order among equals is given, and may depend on the array. -/
def argsortBy (tie : (Fin n → K) → Fin n → ℕ) : Argsort n K := fun v =>
  sortBy (fun i => toLex (v i, tie v i)) (List.finRange n)

omit [Field K] in
theorem argsortBy_sorts {tie : (Fin n → K) → Fin n → ℕ}
    (htie : ∀ v (f : K → K), StrictMono f → tie (f ∘ v) = tie v) : Sorts (argsortBy tie) where
  perm v := sortBy_perm _
  ascending v := by
    have hsorted : Sorted (fun i => toLex (v i, tie v i)) (argsortBy tie v) := sortBy_sorted _
    refine List.Pairwise.imp (fun {i j} hle => ?_) hsorted
    exact (Prod.Lex.toLex_le_toLex.mp hle).elim le_of_lt fun h => h.1.le
  compares v f hf := by
    have hkey : (fun i j => toLex ((f ∘ v) i, tie (f ∘ v) i) ≤ toLex ((f ∘ v) j, tie (f ∘ v) j)) =
        fun i j => toLex (v i, tie v i) ≤ toLex (v j, tie v j) := by
      funext i j
      simp only [Prod.Lex.toLex_le_toLex, htie v f hf, Function.comp_apply, hf.lt_iff_lt,
        hf.injective.eq_iff]
    unfold argsortBy sortBy
    congr! 1

omit [Field K] in
/-- An index that no other ties with ranks by its value and its tie-break. -/
theorem idxOf_argsortBy {tie : (Fin n → K) → Fin n → ℕ} {v : Fin n → K} {w : Fin n}
    (h : ∀ i, v i = v w → tie v i = tie v w → i = w) :
    (argsortBy tie v).idxOf w =
      (List.finRange n).countP fun i => v i < v w ∨ v i = v w ∧ tie v i < tie v w := by
  have hperm : (argsortBy tie v).Perm (List.finRange n) := sortBy_perm _
  have hsorted : Sorted (fun i => toLex (v i, tie v i)) (argsortBy tie v) := sortBy_sorted _
  rw [idxOf_eq_countP hsorted (hperm.nodup_iff.mpr (List.nodup_finRange n))
    (hperm.mem_iff.mpr (List.mem_finRange w)), hperm.countP_eq]
  · simp only [Prod.Lex.toLex_lt_toLex]
  · intro i _ hkey
    obtain ⟨hv, ht⟩ := Prod.mk.inj (toLex.injective hkey)
    exact h i hv ht

/-- No order of the columns and no sort moves the rank of the winner. -/
def OmegaFixed (isPerf oosPerf : Fin n → K) : Prop :=
  ∀ argsort : Argsort n K, Sorts argsort → ∀ σ : Equiv.Perm (Fin n),
    omega argsort (isPerf ∘ σ) (oosPerf ∘ σ) = omega argsort isPerf oosPerf

section Fixed
variable [IsStrictOrderedRing K] {a b : Fin n} {σ : Equiv.Perm (Fin n)}

theorem OmegaFixed.idxOf_eq (h : OmegaFixed isPerf oosPerf) {argsort : Argsort n K}
    (hs : Sorts argsort) (ha : nStar isPerf = some a) (hb : nStar (isPerf ∘ σ) = some b) :
    (argsort (oosPerf ∘ σ)).idxOf b = (argsort oosPerf).idxOf a := by
  have heq := h argsort hs σ
  have hpos : (n : K) + 1 ≠ 0 := by positivity
  rw [omega, omega, ha, hb, Option.map_some, Option.map_some, Option.some.injEq,
    div_left_inj' hpos, add_left_inj, Nat.cast_inj] at heq
  exact heq

/-- Whoever wins under another order ends up at the same mean. -/
theorem OmegaFixed.oos_eq (h : OmegaFixed isPerf oosPerf) (ha : nStar isPerf = some a)
    (hb : nStar (isPerf ∘ σ) = some b) : oosPerf (σ b) = oosPerf a := by
  have hs : Sorts (argsortBy fun (_ : Fin n → K) _ => 0) := argsortBy_sorts fun _ _ _ => rfl
  have hrank := h.idxOf_eq hs ha hb
  obtain ⟨hlow, hhigh⟩ := rank_bounds hs oosPerf a
  obtain ⟨hlow', hhigh'⟩ := rank_bounds hs (oosPerf ∘ σ) b
  simp only [Function.comp_apply] at hlow' hhigh'
  rw [countP_comp σ fun i => oosPerf i < oosPerf (σ b)] at hlow'
  rw [countP_comp σ fun i => oosPerf i ≤ oosPerf (σ b)] at hhigh'
  have hcount : ∀ x y : Fin n, oosPerf x < oosPerf y →
      (List.finRange n).countP (oosPerf · ≤ oosPerf x) ≤
        (List.finRange n).countP (oosPerf · < oosPerf y) := fun x y hxy =>
    List.countP_mono_left fun i _ hi => by
      simp only [decide_eq_true_eq] at hi ⊢
      exact hi.trans_lt hxy
  rcases lt_trichotomy (oosPerf (σ b)) (oosPerf a) with hlt | heq | hgt
  · have := hcount _ _ hlt
    omega
  · exact heq
  · have := hcount _ _ hgt
    omega

omit [Field K] [LinearOrder K] [IsStrictOrderedRing K] in
/-- Of two columns with one mean, one stands elsewhere than at `b` in any order. -/
theorem exists_ne_of_tie {x : Fin n} (hx : x ≠ a) (htie : oosPerf x = oosPerf a)
    (σ : Equiv.Perm (Fin n)) (b : Fin n) : ∃ i, i ≠ b ∧ oosPerf (σ i) = oosPerf a := by
  by_cases hb : σ.symm x = b
  · refine ⟨σ.symm a, fun hab => hx ?_, by rw [Equiv.apply_symm_apply]⟩
    exact σ.symm.injective (hb.trans hab.symm)
  · exact ⟨σ.symm x, hb, by rw [Equiv.apply_symm_apply, htie]⟩

/-- Where another column ends with the winner, all columns end there. -/
theorem OmegaFixed.oos_const (h : OmegaFixed isPerf oosPerf) (ha : nStar isPerf = some a)
    {x : Fin n} (hx : x ≠ a) (htie : oosPerf x = oosPerf a) (y : Fin n) :
    oosPerf y = oosPerf a := by
  by_contra hy
  have hn : n ≠ 0 := fun hn => by
    subst hn
    exact a.elim0
  obtain ⟨b, hb⟩ := exists_nStar hn (isPerf ∘ Equiv.swap a y)
  -- the winner goes first among equals before the swap, and last after it
  let tie (v : Fin n → K) (i : Fin n) : ℕ :=
    if v a = v x then (if i = a then 0 else 1) else if i = b then 1 else 0
  have hs : Sorts (argsortBy tie) := argsortBy_sorts fun v f hf => by
    funext i
    simp only [tie, Function.comp_apply, hf.injective.eq_iff]
  have hmoved : (oosPerf ∘ Equiv.swap a y) a ≠ (oosPerf ∘ Equiv.swap a y) x := by
    have hxy : x ≠ y := fun hxy => hy (hxy ▸ htie)
    rw [Function.comp_apply, Function.comp_apply, Equiv.swap_apply_left,
      Equiv.swap_apply_of_ne_of_ne hx hxy, htie]
    exact hy
  have hfirst : ∀ i, tie oosPerf i = if i = a then 0 else 1 := fun i => if_pos htie.symm
  have hlast : ∀ i, tie (oosPerf ∘ Equiv.swap a y) i = if i = b then 1 else 0 := fun i =>
    if_neg hmoved
  have hrank := h.idxOf_eq hs ha hb
  have hsame := h.oos_eq ha hb
  rw [idxOf_argsortBy fun i _ ht => ?_, idxOf_argsortBy fun i _ ht => ?_] at hrank
  · simp only [hfirst, hlast, Function.comp_apply, hsame, if_true, Nat.not_lt_zero, and_false,
      or_false] at hrank
    obtain ⟨i, hib, hi⟩ := exists_ne_of_tie hx htie (Equiv.swap a y) b
    refine absurd hrank.symm (ne_of_lt ?_)
    rw [← countP_comp (Equiv.swap a y) fun i => oosPerf i < oosPerf a]
    refine countP_lt_countP (fun j _ hj => ?_) (List.mem_finRange i) (by simp [hi])
      (by simp [hi, hib])
    simp only [decide_eq_true_eq] at hj ⊢
    exact .inl hj
  · by_contra hi
    rw [hfirst, hfirst, if_neg hi, if_pos rfl] at ht
    exact absurd ht one_ne_zero
  · by_contra hi
    rw [hlast, hlast, if_neg hi, if_pos rfl] at ht
    exact absurd ht zero_ne_one

omit [Field K] [LinearOrder K] [IsStrictOrderedRing K] in
theorem countP_position (w : Fin n) : (List.finRange n).countP (· < w) = w := by
  have hsorted : Sorted (id : Fin n → Fin n) (List.finRange n) := List.pairwise_le_finRange n
  have hidx := idxOf_eq_countP hsorted (List.nodup_finRange n) (List.mem_finRange w)
    fun i _ h => h
  rw [List.idxOf_finRange] at hidx
  exact hidx.symm

/-- Where all columns end alike, all of them win. -/
theorem OmegaFixed.is_const (h : OmegaFixed isPerf oosPerf) (ha : nStar isPerf = some a)
    (hoos : ∀ j, oosPerf j = oosPerf a) (y : Fin n) : isPerf y = isPerf a := by
  by_contra hy
  have hn : n ≠ 0 := fun hn => by
    subst hn
    exact a.elim0
  obtain ⟨b, hb⟩ := exists_nStar hn (isPerf ∘ Equiv.swap a y)
  have hs : Sorts (argsortBy fun (_ : Fin n → K) i => (i : ℕ)) := argsortBy_sorts fun _ _ _ => rfl
  have hrank := h.idxOf_eq hs ha hb
  rw [idxOf_argsortBy fun i _ => Fin.ext, idxOf_argsortBy fun i _ => Fin.ext] at hrank
  simp only [Function.comp_apply, hoos, lt_self_iff_false, true_and, false_or, Fin.val_fin_lt,
    countP_position] at hrank
  have hba : b = a := Fin.ext hrank
  subst hba
  have hmax := (nStar_eq_some.mp hb).1 y
  rw [Function.comp_apply, Function.comp_apply, Equiv.swap_apply_right,
    Equiv.swap_apply_left] at hmax
  exact hy (le_antisymm ((nStar_eq_some.mp ha).1 y) hmax)

/-- Where no other column ends with the winner, no other wins. -/
theorem OmegaFixed.wins (h : OmegaFixed isPerf oosPerf) (ha : nStar isPerf = some a)
    (hout : ∀ j, j ≠ a → oosPerf j ≠ oosPerf a) {j : Fin n} (hj : j ≠ a) :
    isPerf j < isPerf a := by
  obtain ⟨hmax, hfirst⟩ := nStar_eq_some.mp ha
  refine lt_of_le_of_ne (hmax j) fun heq => hout j hj ?_
  have hsame : isPerf ∘ Equiv.swap a j = isPerf := by
    funext i
    rw [Function.comp_apply, Equiv.swap_apply_def]
    split_ifs with hia hij
    · rw [hia, heq]
    · rw [hij, heq]
    · rfl
  have hb : nStar (isPerf ∘ Equiv.swap a j) = some a := by rw [hsame, ha]
  simpa using h.oos_eq ha hb

theorem omegaFixed_iff : OmegaFixed isPerf oosPerf ↔ Decided isPerf oosPerf := by
  refine ⟨fun h => ?_, fun hd argsort hs σ => omega_relabel hs hd σ⟩
  rcases Nat.eq_zero_or_pos n with rfl | hpos
  · exact .inr ⟨fun i => i.elim0, fun i => i.elim0⟩
  obtain ⟨a, ha⟩ := exists_nStar hpos.ne' isPerf
  by_cases htie : ∃ x, x ≠ a ∧ oosPerf x = oosPerf a
  · obtain ⟨x, hx, hxa⟩ := htie
    have hoos := h.oos_const ha hx hxa
    have his := h.is_const ha hoos
    exact .inr ⟨fun i j => (his i).trans (his j).symm, fun i j => (hoos i).trans (hoos j).symm⟩
  · have hout : ∀ j, j ≠ a → oosPerf j ≠ oosPerf a := fun j hj hja => htie ⟨j, hj, hja⟩
    exact .inl ⟨a, fun j hj => h.wins ha hout hj, hout⟩

end Fixed

end Undecided

/-! ## Labels -/

section Labels
variable [IsStrictOrderedRing K] {argsort : Argsort n K}

def AllDecided (m : PerfMatrix s n K) : Prop :=
  ∀ isSlices ∈ splits s, Decided (means m isSlices) (means m (oosSlices isSlices))

omit [LinearOrder K] [IsStrictOrderedRing K] in
theorem means_relabelColumns (σ : Equiv.Perm (Fin n)) (m : PerfMatrix s n K)
    (slices : List (Fin s)) : means (relabelColumns σ m) slices = means m slices ∘ σ := rfl

theorem allDecided_iff (m : PerfMatrix s n K) :
    AllDecided m ↔ ∀ argsort : Argsort n K, Sorts argsort → ∀ σ,
      splitOmegas argsort (relabelColumns σ m) = splitOmegas argsort m := by
  constructor
  · intro hdec argsort hs σ
    refine List.map_congr_left fun isSlices hsplit => ?_
    rw [means_relabelColumns, means_relabelColumns, omega_relabel hs (hdec isSlices hsplit)]
  · intro hfixed isSlices hsplit
    refine omegaFixed_iff.mp fun argsort hs σ => ?_
    exact List.map_inj_left.mp (hfixed argsort hs σ) isSlices hsplit

end Labels

/-! ## Two slices -/

theorem stable_sorts {n : ℕ} {K : Type*} [LinearOrder K] :
    Sorts (argsortBy fun (_ : Fin n → K) _ => 0) := argsortBy_sorts fun _ _ _ => rfl

def rising (i j : Fin 2) : ℝ := (2 * i + j : ℕ)

/-- Two configurations that tie in the first slice, and end apart in the second. -/
def tiedWinners : PerfMatrix 2 3 ℚ := ![![1, 1, 0], ![0, 5, 2]]

end TradingPlatform.Research.Pbo
