import TradingPlatform.Lib.Dict
import Mathlib.Algebra.BigOperators.Group.Finset.Basic
import Mathlib.Algebra.BigOperators.Fin
import Mathlib.Algebra.Order.BigOperators.Ring.Finset
import Mathlib.Algebra.Order.Ring.Rat
import Mathlib.Data.Fintype.BigOperators
import Mathlib.Data.List.MinMax
import Mathlib.Tactic.Linarith

/-! # Neighbor-smoothed selection, sparse and dense

One formula twice: over a dictionary of passing grid keys, and over a whole grid
by a convolution. A cell is its row of indices. -/

namespace TradingPlatform.Research.Smoothing

open TradingPlatform.Lib

/-! ## The sparse selector -/

/-- What the selection reads of a record. -/
structure PasserRecord where
  calmar : ℚ
  deriving DecidableEq

section Sparse
variable {κ : Type*} [DecidableEq κ] (passers : Dict κ PasserRecord) (neighborKeys : κ → List κ)

def neighborScore (key : κ) (rec_ : PasserRecord) : ℚ :=
  let own := rec_.calmar
  let nb := (neighborKeys key).filterMap fun nk => (passers.get? nk).map (·.calmar)
  1 / 2 * own + if nb = [] then 0 else 1 / 2 * (nb.sum / nb.length)

/-- The best key so far and its score; `⊥` is `float("-inf")`. -/
def selectStep {ι : Type*} (score : ι → ℚ) (best : Option ι × WithBot ℚ) (key : ι) :
    Option ι × WithBot ℚ :=
  if best.2 < score key then (some key, score key) else best

def neighborSmoothedSelect : Option κ :=
  ((passers.items.foldl (selectStep fun entry => neighborScore passers neighborKeys entry.1 entry.2)
    (none, ⊥)).1).map Prod.fst

end Sparse

/-! ## The dense smoother -/

section Dense
variable {d : ℕ} (shape : Fin d → ℕ)

abbrev Cell := ∀ axis, Fin (shape axis)

def centre (d : ℕ) : Fin d → Fin 3 := fun _ => 1

/-- The entries of the kernel that are one: the centre moved by a step on one axis. -/
def oneStepIndices (d : ℕ) : List (Fin d → Fin 3) :=
  (List.finRange d).flatMap fun axis =>
    [-1, 1].map fun off => Function.update (centre d) axis (1 + off)

def oneStepKernel (d : ℕ) : (Fin d → Fin 3) → ℚ :=
  (oneStepIndices d).foldl (fun k idx => Function.update k idx 1) fun _ => 0

/-- A convolution over the grid with a kernel of three cells on each axis. -/
abbrev Convolve := (Cell shape → ℚ) → ((Fin d → Fin 3) → ℚ) → Cell shape → ℚ

variable {shape}

def smoothSurface (convolve : Convolve shape) (grid : Cell shape → ℚ) : Cell shape → ℚ :=
  if d = 0 ∨ ∏ axis, shape axis = 1 then grid
  else
    let kern := oneStepKernel d
    let nsum := convolve grid kern
    let ncnt := convolve (fun _ => 1) kern
    let nmean := fun c => if 0 < ncnt c then nsum c / ncnt c else 0
    fun c => if 0 < ncnt c then 1 / 2 * grid c + 1 / 2 * nmean c else grid c

/-- The grid inside, `cval` outside. -/
def padded (grid : Cell shape → ℚ) (i : Fin d → ℤ) : ℚ :=
  if h : ∀ axis, 0 ≤ i axis ∧ i axis < shape axis then
    grid fun axis => ⟨(i axis).toNat, by have := h axis; omega⟩
  else 0

/-- `mode="constant", cval=0.0`, the kernel being turned around its centre. -/
def ConvolvesPadded (convolve : Convolve shape) : Prop :=
  ∀ grid kern c, convolve grid kern c =
    ∑ j : Fin d → Fin 3, kern j * padded grid fun axis => (c axis : ℤ) + 1 - (j axis : ℕ)

/-- One step away on a single axis. -/
def OneStep (c c' : Cell shape) : Prop :=
  ∃ axis, (∀ other, other ≠ axis → c' other = c other) ∧
    ((c' axis : ℕ) = c axis + 1 ∨ (c' axis : ℕ) + 1 = c axis)

instance (c c' : Cell shape) : Decidable (OneStep c c') := inferInstanceAs (Decidable (∃ _, _))

end Dense

/-! ## What the convolution sums -/

theorem foldl_update_one {ι : Type*} [DecidableEq ι] (is : List ι) (f : ι → ℚ) (j : ι) :
    is.foldl (fun k i => Function.update k i 1) f j = if j ∈ is then 1 else f j := by
  induction is generalizing f with
  | nil => simp
  | cons i is ih =>
    rw [List.foldl_cons, ih]
    by_cases hmem : j ∈ is
    · simp [hmem]
    · by_cases hji : j = i
      · simp [hji]
      · simp [hmem, hji]

variable {d : ℕ}

theorem mem_oneStepIndices {j : Fin d → Fin 3} :
    j ∈ oneStepIndices d ↔
      ∃ axis, (∀ other, other ≠ axis → j other = 1) ∧ (j axis = 0 ∨ j axis = 2) := by
  simp only [oneStepIndices, List.mem_flatMap, List.mem_finRange, true_and, List.mem_map]
  constructor
  · rintro ⟨axis, off, hoff, rfl⟩
    refine ⟨axis, fun other hother => Function.update_of_ne hother _ _, ?_⟩
    rw [Function.update_self]
    simp only [List.mem_cons, List.not_mem_nil, or_false] at hoff
    rcases hoff with rfl | rfl
    · exact .inl rfl
    · exact .inr rfl
  · rintro ⟨axis, hother, hstep⟩
    have hj : ∀ v, j axis = v → Function.update (centre d) axis v = j := by
      intro v hv
      funext k
      by_cases hk : k = axis
      · rw [hk, Function.update_self, hv]
      · rw [Function.update_of_ne hk, hother k hk]
        rfl
    rcases hstep with h | h
    · exact ⟨axis, -1, by simp, hj _ (h.trans (by decide))⟩
    · exact ⟨axis, 1, by simp, hj _ (h.trans (by decide))⟩

theorem oneStepKernel_eq (j : Fin d → Fin 3) :
    oneStepKernel d j = if j ∈ oneStepIndices d then 1 else 0 :=
  foldl_update_one _ _ j

variable {shape : Fin d → ℕ}

theorem padded_eq_sum (grid : Cell shape → ℚ) (i : Fin d → ℤ) :
    padded grid i = ∑ c : Cell shape, if (∀ axis, (c axis : ℤ) = i axis) then grid c else 0 := by
  unfold padded
  split
  · rename_i hin
    have hcell : ∀ c : Cell shape, (∀ axis, (c axis : ℤ) = i axis) ↔
        c = fun axis => ⟨(i axis).toNat, by have := hin axis; omega⟩ := by
      intro c
      refine ⟨fun h => funext fun axis => Fin.ext ?_, fun h axis => ?_⟩
      · have := h axis
        show (c axis : ℕ) = (i axis).toNat
        omega
      · have := (hin axis).1
        rw [h]
        exact Int.toNat_of_nonneg this
    simp only [hcell, Finset.sum_ite_eq', Finset.mem_univ, if_true]
  · rename_i hout
    refine (Finset.sum_eq_zero fun c _ => if_neg fun h => hout fun axis => ?_).symm
    have := h axis
    omega

/-- The kernel index at which the convolution at `c` reads the cell `c'`. -/
def ReadsAt (c c' : Cell shape) (j : Fin d → Fin 3) : Prop :=
  ∀ axis, (c' axis : ℤ) = (c axis : ℤ) + 1 - (j axis : ℕ)

instance (c c' : Cell shape) (j : Fin d → Fin 3) : Decidable (ReadsAt c c' j) :=
  inferInstanceAs (Decidable (∀ _, _))

theorem ReadsAt.unique {c c' : Cell shape} {j j' : Fin d → Fin 3} (h : ReadsAt c c' j)
    (h' : ReadsAt c c' j') : j = j' := by
  refine funext fun axis => Fin.ext ?_
  have hj := h axis
  have hj' := h' axis
  omega

theorem ReadsAt.oneStep {c c' : Cell shape} {j : Fin d → Fin 3} (h : ReadsAt c c' j)
    (hj : j ∈ oneStepIndices d) : OneStep c c' := by
  obtain ⟨axis, hother, hstep⟩ := mem_oneStepIndices.mp hj
  refine ⟨axis, fun other hne => Fin.ext ?_, ?_⟩
  · have hread := h other
    rw [hother other hne] at hread
    simp only [Fin.val_one, Nat.cast_one] at hread
    omega
  · have hread := h axis
    rcases hstep with hzero | htwo
    · rw [hzero] at hread
      simp only [Fin.val_zero, Nat.cast_zero] at hread
      omega
    · rw [htwo] at hread
      simp only [Fin.val_two, Nat.cast_ofNat] at hread
      omega

theorem OneStep.exists_readsAt {c c' : Cell shape} (h : OneStep c c') :
    ∃ j ∈ oneStepIndices d, ReadsAt c c' j := by
  obtain ⟨axis, hsame, hstep⟩ := h
  have hread : ∀ v : Fin 3, (c' axis : ℤ) = (c axis : ℤ) + 1 - (v : ℕ) →
      ReadsAt c c' (Function.update (centre d) axis v) := by
    intro v hv other
    by_cases hother : other = axis
    · rw [hother, Function.update_self, hv]
    · rw [Function.update_of_ne hother, hsame other hother]
      simp [centre]
  have hin : ∀ v : Fin 3, v = 0 ∨ v = 2 →
      Function.update (centre d) axis v ∈ oneStepIndices d := fun v hv =>
    mem_oneStepIndices.mpr
      ⟨axis, fun other hne => Function.update_of_ne hne _ _, by rwa [Function.update_self]⟩
  rcases hstep with hup | hdown
  · exact ⟨_, hin 0 (.inl rfl), hread 0 (by simp only [Fin.val_zero, Nat.cast_zero]; omega)⟩
  · exact ⟨_, hin 2 (.inr rfl), hread 2 (by simp only [Fin.val_two, Nat.cast_ofNat]; omega)⟩

/-- The kernel sums the cells one step away. -/
theorem convolve_oneStepKernel {convolve : Convolve shape} (h : ConvolvesPadded convolve)
    (grid : Cell shape → ℚ) (c : Cell shape) :
    convolve grid (oneStepKernel d) c = ∑ c', if OneStep c c' then grid c' else 0 := by
  rw [h]
  simp only [padded_eq_sum, Finset.mul_sum]
  rw [Finset.sum_comm]
  refine Finset.sum_congr rfl fun c' _ => ?_
  show ∑ j, oneStepKernel d j * (if ReadsAt c c' j then grid c' else 0) = _
  by_cases hstep : OneStep c c'
  · obtain ⟨j, hj, hread⟩ := hstep.exists_readsAt
    rw [Finset.sum_eq_single j]
    · rw [oneStepKernel_eq, if_pos hj, if_pos hread, if_pos hstep, one_mul]
    · intro j' _ hne
      rw [if_neg fun hread' => hne (hread'.unique hread), mul_zero]
    · exact fun hnot => absurd (Finset.mem_univ j) hnot
  · rw [if_neg hstep]
    refine Finset.sum_eq_zero fun j _ => ?_
    by_cases hread : ReadsAt c c' j
    · rw [oneStepKernel_eq, if_neg fun hj => hstep (hread.oneStep hj), zero_mul]
    · rw [if_neg hread, mul_zero]

/-! ## The neighbours of a cell -/

/-- The cells one step away, in some order. -/
def YieldsNeighbours (neighborKeys : Cell shape → List (Cell shape)) : Prop :=
  ∀ c, (neighborKeys c).Nodup ∧ ∀ c', c' ∈ neighborKeys c ↔ OneStep c c'

theorem YieldsNeighbours.sum_eq {neighborKeys : Cell shape → List (Cell shape)}
    (h : YieldsNeighbours neighborKeys) (f : Cell shape → ℚ) (c : Cell shape) :
    ((neighborKeys c).map f).sum = ∑ c', if OneStep c c' then f c' else 0 := by
  obtain ⟨hnodup, hmem⟩ := h c
  rw [← List.sum_toFinset f hnodup, ← Finset.sum_filter]
  congr 1
  ext c'
  simp [hmem]

theorem YieldsNeighbours.length_eq {neighborKeys : Cell shape → List (Cell shape)}
    (h : YieldsNeighbours neighborKeys) (c : Cell shape) :
    ((neighborKeys c).length : ℚ) = ∑ c', if OneStep c c' then (1 : ℚ) else 0 := by
  rw [← h.sum_eq fun _ => 1]
  simp

/-- With two cells on some axis, every cell has a neighbour. -/
theorem exists_oneStep {axis : Fin d} (h : 2 ≤ shape axis) (c : Cell shape) :
    ∃ c', OneStep c c' := by
  by_cases hup : (c axis : ℕ) + 1 < shape axis
  · refine ⟨Function.update c axis ⟨c axis + 1, hup⟩, axis, fun other hne => ?_, .inl ?_⟩
    · exact Function.update_of_ne hne _ _
    · rw [Function.update_self]
  · have hlt := (c axis).isLt
    refine ⟨Function.update c axis ⟨c axis - 1, by omega⟩, axis, fun other hne => ?_, .inr ?_⟩
    · exact Function.update_of_ne hne _ _
    · rw [Function.update_self]
      simp only
      omega

theorem exists_long_axis (h : 2 ≤ Fintype.card (Cell shape)) : ∃ axis, 2 ≤ shape axis := by
  by_contra hshort
  have hone : ∏ axis, shape axis ≤ 1 :=
    Finset.prod_le_one (fun _ _ => Nat.zero_le _) fun axis _ =>
      Nat.lt_succ_iff.mp (not_le.mp fun h => hshort ⟨axis, h⟩)
  rw [Fintype.card_pi] at h
  simp only [Fintype.card_fin] at h
  omega

/-! ## The loop keeps the first maximum -/

theorem foldl_selectStep {ι : Type*} (score : ι → ℚ) (keys : List ι) :
    keys.foldl (selectStep score) (none, ⊥) =
      (keys.argmax score, (keys.argmax score).elim ⊥ fun key => (score key : WithBot ℚ)) := by
  induction keys using List.reverseRecOn with
  | nil => rfl
  | append_singleton keys key ih =>
    rw [List.foldl_concat, ih, List.argmax_concat, selectStep]
    cases keys.argmax score with
    | none => simp
    | some best =>
      simp only [Option.elim_some, WithBot.coe_lt_coe]
      split_ifs <;> rfl

theorem argmax_map {ι κ : Type*} (f : ι → κ) (score : κ → ℚ) (keys : List ι) :
    (keys.map f).argmax score = (keys.argmax (score ∘ f)).map f := by
  induction keys using List.reverseRecOn with
  | nil => rfl
  | append_singleton keys key ih =>
    rw [List.map_append, List.map_singleton, List.argmax_concat, List.argmax_concat, ih]
    cases keys.argmax (score ∘ f) with
    | none => rfl
    | some best =>
      simp only [Option.map_some, Function.comp_apply]
      split_ifs <;> rfl

/-! ## Sparse and dense -/

variable {passers : Dict (Cell shape) PasserRecord} {neighborKeys : Cell shape → List (Cell shape)}
  {grid : Cell shape → ℚ}

/-- Every cell is a passer, with its value on the grid. -/
def AllPass (passers : Dict (Cell shape) PasserRecord) (grid : Cell shape → ℚ) : Prop :=
  ∀ c, passers.get? c = some ⟨grid c⟩

theorem neighborScore_eq (hall : AllPass passers grid) (hnb : YieldsNeighbours neighborKeys)
    (hcells : 2 ≤ Fintype.card (Cell shape)) (c : Cell shape) :
    neighborScore passers neighborKeys c ⟨grid c⟩ =
      1 / 2 * grid c + 1 / 2 * ((∑ c', if OneStep c c' then grid c' else 0) /
        ∑ c', if OneStep c c' then (1 : ℚ) else 0) := by
  have hfilter : ((neighborKeys c).filterMap fun nk => (passers.get? nk).map (·.calmar)) =
      (neighborKeys c).map grid := by
    rw [← List.filterMap_eq_map]
    exact List.filterMap_congr fun nk _ => by rw [hall nk]; rfl
  obtain ⟨axis, haxis⟩ := exists_long_axis hcells
  obtain ⟨c', hstep⟩ := exists_oneStep haxis c
  have hne : (neighborKeys c).map grid ≠ [] := by
    simpa using List.ne_nil_of_mem (((hnb c).2 c').mpr hstep)
  unfold neighborScore
  simp only [hfilter, if_neg hne]
  rw [hnb.sum_eq, List.length_map, hnb.length_eq]

theorem smoothSurface_eq {convolve : Convolve shape} (hconv : ConvolvesPadded convolve)
    (hcells : 2 ≤ Fintype.card (Cell shape)) (c : Cell shape) :
    smoothSurface convolve grid c =
      1 / 2 * grid c + 1 / 2 * ((∑ c', if OneStep c c' then grid c' else 0) /
        ∑ c', if OneStep c c' then (1 : ℚ) else 0) := by
  obtain ⟨axis, haxis⟩ := exists_long_axis hcells
  obtain ⟨c', hstep⟩ := exists_oneStep haxis c
  have hsmall : ¬ (d = 0 ∨ ∏ axis, shape axis = 1) := by
    rw [Fintype.card_pi] at hcells
    simp only [Fintype.card_fin] at hcells
    rintro (rfl | hone)
    · exact axis.elim0
    · omega
  have hcount : (0 : ℚ) < ∑ c', if OneStep c c' then (1 : ℚ) else 0 := by
    rw [← Finset.sum_filter, Finset.sum_const, nsmul_one, Nat.cast_pos, Finset.card_pos]
    exact ⟨c', by simpa using hstep⟩
  unfold smoothSurface
  rw [if_neg hsmall]
  simp only [convolve_oneStepKernel hconv, if_pos hcount]

theorem items_eq_map_keys (hall : AllPass passers grid) :
    passers.items = (passers.items.map Prod.fst).map fun c => (c, ⟨grid c⟩) := by
  rw [List.map_map]
  refine (List.map_id _).symm.trans (List.map_congr_left fun entry hentry => ?_)
  have hget := hall entry.1
  rw [(passers.get?_eq_some).mpr hentry] at hget
  exact Prod.ext rfl (Option.some.inj hget)

/-- The selection is the first cell of the greatest smoothed value. -/
theorem neighborSmoothedSelect_eq {convolve : Convolve shape} (hconv : ConvolvesPadded convolve)
    (hnb : YieldsNeighbours neighborKeys) (hall : AllPass passers grid)
    (hcells : 2 ≤ Fintype.card (Cell shape)) :
    neighborSmoothedSelect passers neighborKeys =
      (passers.items.map Prod.fst).argmax (smoothSurface convolve grid) := by
  have hscore : ((fun entry => neighborScore passers neighborKeys entry.1 entry.2) ∘
      fun c => (c, ⟨grid c⟩)) = smoothSurface convolve grid := by
    funext c
    rw [smoothSurface_eq hconv hcells]
    exact neighborScore_eq hall hnb hcells c
  rw [neighborSmoothedSelect, foldl_selectStep, items_eq_map_keys hall, argmax_map, hscore,
    ← items_eq_map_keys hall, Option.map_map]
  exact Option.map_id'

/-- **Sparse and dense smoothing agree.** -/
theorem sparse_dense_agree {convolve : Convolve shape} (hconv : ConvolvesPadded convolve)
    (hnb : YieldsNeighbours neighborKeys) (hall : AllPass passers grid)
    (hcells : 2 ≤ Fintype.card (Cell shape)) :
    (∀ c rec_, passers.get? c = some rec_ →
      neighborScore passers neighborKeys c rec_ = smoothSurface convolve grid c) ∧
    ∃ key, neighborSmoothedSelect passers neighborKeys = some key ∧
      (∀ c, smoothSurface convolve grid c ≤ smoothSurface convolve grid key) ∧
      ∀ c, smoothSurface convolve grid c = smoothSurface convolve grid key →
        (passers.items.map Prod.fst).idxOf key ≤ (passers.items.map Prod.fst).idxOf c := by
  have hmem : ∀ c, c ∈ passers.items.map Prod.fst := fun c =>
    List.mem_map.mpr ⟨_, (passers.get?_eq_some).mp (hall c), rfl⟩
  constructor
  · intro c rec_ hrec
    cases (hall c).symm.trans hrec
    rw [smoothSurface_eq hconv hcells, neighborScore_eq hall hnb hcells]
  · obtain ⟨c₀⟩ : Nonempty (Cell shape) := Fintype.card_pos_iff.mp (by omega)
    rw [neighborSmoothedSelect_eq hconv hnb hall hcells]
    cases hmax : (passers.items.map Prod.fst).argmax (smoothSurface convolve grid) with
    | none => exact absurd (List.argmax_eq_none.mp hmax) (List.ne_nil_of_mem (hmem c₀))
    | some key =>
      obtain ⟨-, hle, hfirst⟩ := List.argmax_eq_some_iff.mp hmax
      exact ⟨key, rfl, fun c => hle c (hmem c), fun c heq => hfirst c (hmem c) heq.ge⟩

/-! ## A square -/

/-- The documented convolution itself. -/
def directConvolve (grid : Cell shape → ℚ) (kern : (Fin d → Fin 3) → ℚ) (c : Cell shape) : ℚ :=
  ∑ j : Fin d → Fin 3, kern j * padded grid fun axis => (c axis : ℤ) + 1 - (j axis : ℕ)

theorem directConvolve_convolvesPadded : ConvolvesPadded (directConvolve : Convolve shape) :=
  fun _ _ _ => rfl

def squareCells : List (Fin 2 → Fin 2) := [![0, 0], ![0, 1], ![1, 0], ![1, 1]]

def squareGrid (c : Cell fun _ : Fin 2 => 2) : ℚ := (c 0 : ℕ) * 3 + (c 1 : ℕ)

def squarePassers : Dict (Cell fun _ : Fin 2 => 2) PasserRecord :=
  Dict.tabulate id (fun c => ⟨squareGrid c⟩) squareCells

def squareNeighbours (c : Cell fun _ : Fin 2 => 2) : List (Cell fun _ : Fin 2 => 2) :=
  squareCells.filter fun c' => OneStep c c'

theorem square_agrees :
    (∀ c rec_, squarePassers.get? c = some rec_ →
      neighborScore squarePassers squareNeighbours c rec_ =
        smoothSurface directConvolve squareGrid c) ∧
    ∃ key, neighborSmoothedSelect squarePassers squareNeighbours = some key ∧
      (∀ c, smoothSurface directConvolve squareGrid c ≤
        smoothSurface directConvolve squareGrid key) ∧
      ∀ c, smoothSurface directConvolve squareGrid c = smoothSurface directConvolve squareGrid key →
        (squarePassers.items.map Prod.fst).idxOf key ≤
          (squarePassers.items.map Prod.fst).idxOf c :=
  sparse_dense_agree directConvolve_convolvesPadded (by unfold YieldsNeighbours; decide)
    (by unfold AllPass; decide +kernel) (by decide)

end TradingPlatform.Research.Smoothing
