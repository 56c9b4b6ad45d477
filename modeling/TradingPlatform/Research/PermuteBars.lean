import TradingPlatform.Lib.StableSort
import TradingPlatform.Research.Resample
import Mathlib.Algebra.BigOperators.Group.List.Basic
import Mathlib.Algebra.Order.Field.Basic
import Mathlib.Analysis.SpecialFunctions.Log.Basic
import Mathlib.Data.List.TakeWhile

/-! # Block permutation of bars

Within a session the log increments off the prior close are reordered in blocks
and compounded again from the first bar. Logarithm and exponential are given, as
is the order in which a session's blocks come. -/

namespace TradingPlatform.Research.Mcpt

open TradingPlatform.Lib
open TradingPlatform.Research.Resample (Polars plainPolars session sourceIntervalMinutes)

variable {K G : Type}

structure Bar (K : Type) where
  timestamp : ℤ
  openPx : K
  high : K
  low : K
  close : K
  volume : K
  symbol : Option String

/-! ## Blocks -/

inductive BlockArg
  | len (n : ℤ)
  | str (s : String)

inductive McptError
  | unknownBlock (s : String)
  | lookbackMissing
  | blockTooShort
  deriving DecidableEq

def resolveBlock (block : BlockArg) (lookback : Option ℤ) : Except McptError ℕ :=
  match block with
  | .str s =>
    if s ≠ "auto" then .error (.unknownBlock s)
    else match lookback with
      | none => .error .lookbackMissing
      | some n => if n < 1 then .error .lookbackMissing else .ok n.toNat
  | .len n => if n < 1 then .error .blockTooShort else .ok n.toNat

def blocks (n block : ℕ) : List (List ℕ) :=
  (List.range ((n + block - 1) / block)).map fun j =>
    List.range' (j * block) (min (j * block + block) n - j * block)

/-- The blocks of `range(n)` in the order drawn. -/
def blockOrder (n block : ℕ) (permutation : ℕ → List ℕ) : List ℕ :=
  if n ≤ 1 then List.range n
  else (permutation (blocks n block).length).flatMap fun i => (blocks n block).getD i []

/-! ## One session -/

structure Increment (G K : Type) where
  dOpen : G
  dHigh : G
  dLow : G
  dClose : G
  volume : K

section Session
variable [AddCommGroup G] (log : K → G) (exp : G → K)

def incrementOff (prev b : Bar K) : Increment G K where
  dOpen := log b.openPx - log prev.close
  dHigh := log b.high - log prev.close
  dLow := log b.low - log prev.close
  dClose := log b.close - log prev.close
  volume := b.volume

/-- The increments of a session's bars after the first. -/
def increments (first : Bar K) (tail : List (Bar K)) : List (Increment G K) :=
  List.zipWith (incrementOff log) (first :: tail) tail

def anchorBar (first : Bar K) : Bar K :=
  { first with
    openPx := exp (log first.openPx)
    high := exp (log first.high)
    low := exp (log first.low)
    close := exp (log first.close) }

/-- The anchor and the sums of the changes before each bar. -/
def runPrior (anchorClose : G) (changes : List G) : List G :=
  (changes.scanl (· + ·) 0).map (anchorClose + ·)

/-- An increment off a prior close, at the place of a bar. -/
def rebuild (place : Bar K) (prior : G) (x : Increment G K) : Bar K :=
  { place with
    openPx := exp (prior + x.dOpen)
    high := exp (prior + x.dHigh)
    low := exp (prior + x.dLow)
    close := exp (prior + x.dClose)
    volume := x.volume }

def compound (anchorClose : G) (places : List (Bar K)) (xs : List (Increment G K)) :
    List (Bar K) :=
  List.zipWith3 (rebuild exp) places (runPrior anchorClose (xs.map Increment.dClose)) xs

def permuteSession (blk : ℕ) (permutation : ℕ → List ℕ) (first : Bar K) (tail : List (Bar K)) :
    List (Bar K) :=
  if tail = [] then [anchorBar log exp first]
  else
    let incr := increments log first tail
    let order := blockOrder tail.length blk permutation
    anchorBar log exp first ::
      compound exp (log first.close) tail (order.filterMap (incr[·]?))

end Session

section Compound
variable [AddCommGroup G]

theorem scanl_add (g : G) (changes : List G) :
    changes.scanl (· + ·) g = (changes.scanl (· + ·) 0).map (g + ·) := by
  induction changes generalizing g with
  | nil => simp
  | cons c changes ih =>
    rw [List.scanl_cons, List.scanl_cons, ih (g + c), ih (0 + c), List.map_cons, List.map_map]
    simp [Function.comp_def, add_assoc]

theorem runPrior_cons (p c : G) (changes : List G) :
    runPrior p (c :: changes) = p :: runPrior (p + c) changes := by
  rw [runPrior, List.scanl_cons, scanl_add, List.map_cons, List.map_map, runPrior, add_zero]
  simp [Function.comp_def, add_assoc]

/-- Compounding bar by bar: the next prior is the close just built. -/
theorem compound_cons (exp : G → K) (p : G) (place : Bar K) (places : List (Bar K))
    (x : Increment G K) (xs : List (Increment G K)) :
    compound exp p (place :: places) (x :: xs) =
      rebuild exp place p x :: compound exp (p + x.dClose) places xs := by
  rw [compound, List.map_cons, runPrior_cons]
  rfl

theorem compound_nil (exp : G → K) (p : G) (xs : List (Increment G K)) :
    compound exp p [] xs = [] := rfl

theorem compound_nil_right (exp : G → K) (p : G) (places : List (Bar K)) :
    compound exp p places [] = [] := by
  cases places <;> rfl

theorem map_timestamp_compound (exp : G → K) (p : G) {places : List (Bar K)}
    {xs : List (Increment G K)} (h : xs.length = places.length) :
    (compound exp p places xs).map Bar.timestamp = places.map Bar.timestamp := by
  induction places generalizing p xs with
  | nil => rfl
  | cons place places ih =>
    cases xs with
    | nil => simp at h
    | cons x xs =>
      rw [compound_cons, List.map_cons, List.map_cons, ih _ (by simpa using h)]
      rfl

end Compound

/-! ## All sessions -/

/-- The maximal runs of rows with one session id. -/
def sessionRuns {α : Type*} : List (α × ℕ) → List (List α)
  | [] => []
  | row :: rest =>
    (row.1 :: (rest.takeWhile (·.2 = row.2)).map Prod.fst) ::
      sessionRuns (rest.dropWhile (·.2 = row.2))
termination_by rows => rows.length
decreasing_by exact Nat.lt_succ_of_le (List.dropWhile_sublist _).length_le

def sessionIds (pl : Polars) (sessionAware : Bool) (times : List ℤ) : List ℕ :=
  if sessionAware then
    (List.range times.length).map (session pl (sourceIntervalMinutes pl times) times)
  else List.replicate times.length 0

/-- The sessions of a sorted frame. -/
def sessions (pl : Polars) (sessionAware : Bool) (b : List (Bar K)) : List (List (Bar K)) :=
  sessionRuns (b.zip (sessionIds pl sessionAware (b.map Bar.timestamp)))

section Frame
variable [AddCommGroup G] (log : K → G) (exp : G → K)

/-- The loop over the sessions from a row on, each with its own draw. -/
def permuteFrom (blk : ℕ) (permutation : ℕ → ℕ → List ℕ) (start : ℕ) :
    List (List (Bar K)) → List (Bar K)
  | [] => []
  | [] :: runs => permuteFrom blk permutation start runs -- a run has a row
  | (first :: tail) :: runs =>
    permuteSession log exp blk (permutation start) first tail ++
      permuteFrom blk permutation (start + tail.length + 1) runs

def permuteBars (pl : Polars) (sort : List (Bar K) → List (Bar K))
    (permutation : ℕ → ℕ → List ℕ) (bars : List (Bar K)) (block : BlockArg) (lookback : Option ℤ)
    (sessionAware : Bool) : Except McptError (List (Bar K)) := do
  if bars = [] then return []
  -- `_with_sessions` sorts the sorted frame again
  let b := if sessionAware then sort (sort bars) else sort bars
  let blk ← resolveBlock block lookback
  return permuteFrom log exp blk permutation 0 (sessions pl sessionAware b)

end Frame

/-! ## What is promised -/

structure Sorts (sort : List (Bar K) → List (Bar K)) : Prop where
  perm : ∀ bars, (sort bars).Perm bars
  ascending : ∀ bars, ((sort bars).map Bar.timestamp).Pairwise (· ≤ ·)

/-- Every draw is a permutation of the blocks. -/
def Draws (permutation : ℕ → ℕ → List ℕ) : Prop :=
  ∀ start k, (permutation start k).Perm (List.range k)

variable [Field K] [LinearOrder K]

/-- Inverse isomorphisms between the positive numbers and the log scale. -/
structure LogExp [AddCommGroup G] [LinearOrder G] (log : K → G) (exp : G → K) : Prop where
  exp_log : ∀ x, 0 < x → exp (log x) = x
  log_exp : ∀ g, log (exp g) = g
  exp_pos : ∀ g, 0 < exp g
  exp_le : ∀ g h, exp g ≤ exp h ↔ g ≤ h
  exp_add : ∀ g h, exp (g + h) = exp g * exp h

structure Positive (b : Bar K) : Prop where
  openPx : 0 < b.openPx
  high : 0 < b.high
  low : 0 < b.low
  close : 0 < b.close

structure Consistent (b : Bar K) : Prop where
  low_open : b.low ≤ b.openPx
  low_close : b.low ≤ b.close
  open_high : b.openPx ≤ b.high
  close_high : b.close ≤ b.high

/-- Open, high, low and close over the prior close, and volume. -/
def overPriorClose (prev b : Bar K) : K × K × K × K × K :=
  (b.openPx / prev.close, b.high / prev.close, b.low / prev.close, b.close / prev.close, b.volume)

/-- What one session keeps. -/
structure Keeps (run out : List (Bar K)) : Prop where
  timestamps : out.map Bar.timestamp = run.map Bar.timestamp
  first : out.head? = run.head?
  lastClose : out.getLast?.map Bar.close = run.getLast?.map Bar.close
  content : (List.zipWith overPriorClose out out.tail).Perm
    (List.zipWith overPriorClose run run.tail)
  consistent : ∀ b ∈ out, Consistent b

/-! ## Blocks are a partition -/

theorem flatten_range'_blocks (n block k : ℕ) :
    ((List.range k).map fun j =>
      List.range' (j * block) (min (j * block + block) n - j * block)).flatten =
      List.range (min (k * block) n) := by
  induction k with
  | zero => simp
  | succ k ih =>
    rw [List.range_succ, List.map_append, List.flatten_append, ih, List.range_eq_range',
      List.range_eq_range', Nat.succ_mul]
    simp only [List.map_cons, List.map_nil, List.flatten_cons, List.flatten_nil, List.append_nil]
    rcases le_total (k * block) n with hle | hge
    · rw [min_eq_left hle]
      have happ := List.range'_append_1 (s := 0) (m := k * block)
        (n := min (k * block + block) n - k * block)
      rw [Nat.zero_add] at happ
      rw [happ]
      congr 1
      omega
    · have hmin : min (k * block + block) n = n := by omega
      rw [hmin, min_eq_right hge, Nat.sub_eq_zero_of_le hge]
      simp

theorem flatten_blocks (n : ℕ) {block : ℕ} (h : 0 < block) :
    (blocks n block).flatten = List.range n := by
  rw [blocks, flatten_range'_blocks, min_eq_right]
  have := Nat.lt_div_mul_add (a := n + block - 1) h
  omega

theorem flatMap_getD_perm {α : Type*} (ls : List (List α)) {order : List ℕ}
    (h : order.Perm (List.range ls.length)) :
    (order.flatMap fun i => ls.getD i []).Perm ls.flatten := by
  have hall : (List.range ls.length).map (fun i => ls.getD i []) = ls := by
    refine List.ext_getElem (by simp) fun i _ hi => ?_
    simp [List.getElem?_eq_getElem hi]
  rw [List.flatMap_def]
  refine ((h.map _).flatten).trans (.of_eq ?_)
  rw [hall]

theorem blockOrder_perm (n : ℕ) {block : ℕ} (h : 0 < block) {permutation : ℕ → List ℕ}
    (hperm : ∀ k, (permutation k).Perm (List.range k)) :
    (blockOrder n block permutation).Perm (List.range n) := by
  unfold blockOrder
  split_ifs
  · exact .refl _
  · rw [← flatten_blocks n h]
    exact flatMap_getD_perm _ (hperm _)

theorem filterMap_getElem?_range {α : Type*} (xs : List α) :
    (List.range xs.length).filterMap (xs[·]?) = xs := by
  induction xs with
  | nil => rfl
  | cons x xs ih =>
    rw [List.length_cons, List.range_succ_eq_map, List.filterMap_cons, List.filterMap_map]
    simpa [Function.comp_def] using ih

/-- Taken in any order, the elements are the same ones. -/
theorem filterMap_getElem?_perm {α : Type*} (xs : List α) {order : List ℕ}
    (h : order.Perm (List.range xs.length)) : (order.filterMap (xs[·]?)).Perm xs :=
  (h.filterMap _).trans (.of_eq (filterMap_getElem?_range xs))

/-! ## Compounding -/

section Compound
variable [AddCommGroup G] [LinearOrder G] {log : K → G} {exp : G → K}

/-- What an increment says of a bar, over the prior close. -/
def Increment.ratios (exp : G → K) (x : Increment G K) : K × K × K × K × K :=
  (exp x.dOpen, exp x.dHigh, exp x.dLow, exp x.dClose, x.volume)

theorem content_compound (hl : LogExp log exp) {p : G} {prev : Bar K} (hprev : prev.close = exp p)
    {places : List (Bar K)} {xs : List (Increment G K)} (h : xs.length = places.length) :
    List.zipWith overPriorClose (prev :: compound exp p places xs) (compound exp p places xs) =
      xs.map (Increment.ratios exp) := by
  induction places generalizing p prev xs with
  | nil =>
    rw [List.length_eq_zero_iff.mp h]
    rfl
  | cons place places ih =>
    cases xs with
    | nil => simp at h
    | cons x xs =>
      have hne : exp p ≠ 0 := (hl.exp_pos p).ne'
      rw [compound_cons, List.zipWith_cons_cons, List.map_cons, ih rfl (by simpa using h)]
      congr 1
      simp only [overPriorClose, rebuild, Increment.ratios, hprev, hl.exp_add,
        mul_div_cancel_left₀ _ hne]

omit [Field K] [LinearOrder K] [LinearOrder G] in
theorem lastClose_compound {p : G} {prev : Bar K} (hprev : prev.close = exp p)
    {places : List (Bar K)} {xs : List (Increment G K)} (h : xs.length = places.length) :
    ((prev :: compound exp p places xs).getLast?).map Bar.close =
      some (exp (p + (xs.map Increment.dClose).sum)) := by
  induction places generalizing p prev xs with
  | nil =>
    rw [List.length_eq_zero_iff.mp h]
    simp [compound_nil, hprev]
  | cons place places ih =>
    cases xs with
    | nil => simp at h
    | cons x xs =>
      rw [compound_cons, List.getLast?_cons_cons, ih rfl (by simpa using h), List.map_cons,
        List.sum_cons, add_assoc]

structure Increment.Ordered (x : Increment G K) : Prop where
  low_open : x.dLow ≤ x.dOpen
  low_close : x.dLow ≤ x.dClose
  open_high : x.dOpen ≤ x.dHigh
  close_high : x.dClose ≤ x.dHigh

variable [IsOrderedAddMonoid G]

theorem rebuild_consistent (hl : LogExp log exp) (place : Bar K) (p : G) {x : Increment G K}
    (h : x.Ordered) : Consistent (rebuild exp place p x) := by
  have hle : ∀ {g g' : G}, g ≤ g' → exp (p + g) ≤ exp (p + g') := fun hg =>
    (hl.exp_le _ _).mpr (add_le_add_right hg p)
  exact ⟨hle h.low_open, hle h.low_close, hle h.open_high, hle h.close_high⟩

theorem compound_consistent (hl : LogExp log exp) {p : G} {places : List (Bar K)}
    {xs : List (Increment G K)} (h : ∀ x ∈ xs, x.Ordered) :
    ∀ b ∈ compound exp p places xs, Consistent b := by
  induction places generalizing p xs with
  | nil => simp [compound_nil]
  | cons place places ih =>
    cases xs with
    | nil => simp [compound_nil_right]
    | cons x xs =>
      rw [compound_cons]
      intro b hb
      rcases List.mem_cons.mp hb with rfl | hb
      · exact rebuild_consistent hl place p (h x List.mem_cons_self)
      · exact ih (fun y hy => h y (List.mem_cons_of_mem _ hy)) b hb

/-! ## One session keeps its promise -/

omit [IsOrderedAddMonoid G] in
theorem LogExp.log_le (hl : LogExp log exp) {x y : K} (hx : 0 < x) (hy : 0 < y) :
    log x ≤ log y ↔ x ≤ y := by
  rw [← hl.exp_le, hl.exp_log x hx, hl.exp_log y hy]

theorem increments_ordered (hl : LogExp log exp) {first : Bar K} {tail : List (Bar K)}
    (hpos : ∀ b ∈ tail, Positive b) (hcons : ∀ b ∈ tail, Consistent b) :
    ∀ x ∈ increments log first tail, x.Ordered := by
  induction tail generalizing first with
  | nil => simp [increments]
  | cons b tail ih =>
    have hp := hpos b List.mem_cons_self
    have hc := hcons b List.mem_cons_self
    intro x hx
    rcases List.mem_cons.mp hx with rfl | hx
    · exact ⟨sub_le_sub_right ((hl.log_le hp.low hp.openPx).mpr hc.low_open) _,
        sub_le_sub_right ((hl.log_le hp.low hp.close).mpr hc.low_close) _,
        sub_le_sub_right ((hl.log_le hp.openPx hp.high).mpr hc.open_high) _,
        sub_le_sub_right ((hl.log_le hp.close hp.high).mpr hc.close_high) _⟩
    · exact ih (fun c h => hpos c (List.mem_cons_of_mem _ h))
        (fun c h => hcons c (List.mem_cons_of_mem _ h)) x hx

omit [IsOrderedAddMonoid G] in
/-- In their own order the increments give the session back. -/
theorem compound_increments (hl : LogExp log exp) {first : Bar K} {tail : List (Bar K)}
    (hpos : ∀ b ∈ tail, Positive b) :
    compound exp (log first.close) tail (increments log first tail) = tail := by
  induction tail generalizing first with
  | nil => rfl
  | cons b tail ih =>
    have hb := hpos b List.mem_cons_self
    have hrebuild : rebuild exp b (log first.close) (incrementOff log first b) = b := by
      simp only [rebuild, incrementOff, add_sub_cancel, hl.exp_log _ hb.openPx,
        hl.exp_log _ hb.high, hl.exp_log _ hb.low, hl.exp_log _ hb.close]
    have hnext : log first.close + (incrementOff log first b).dClose = log b.close :=
      add_sub_cancel _ _
    rw [increments, List.zipWith_cons_cons, compound_cons, hrebuild, hnext]
    exact congrArg _ (ih fun c hc => hpos c (List.mem_cons_of_mem _ hc))

omit [IsOrderedAddMonoid G] in
theorem anchorBar_eq (hl : LogExp log exp) {first : Bar K} (h : Positive first) :
    anchorBar log exp first = first := by
  simp only [anchorBar, hl.exp_log _ h.openPx, hl.exp_log _ h.high, hl.exp_log _ h.low,
    hl.exp_log _ h.close]

theorem permuteSession_keeps (hl : LogExp log exp) {blk : ℕ} (hblk : 0 < blk)
    {permutation : ℕ → List ℕ} (hperm : ∀ k, (permutation k).Perm (List.range k))
    {first : Bar K} {tail : List (Bar K)} (hpos : ∀ b ∈ first :: tail, Positive b)
    (hcons : ∀ b ∈ first :: tail, Consistent b) :
    Keeps (first :: tail) (permuteSession log exp blk permutation first tail) := by
  have hfirst := hpos first List.mem_cons_self
  have htail : ∀ b ∈ tail, Positive b := fun b hb => hpos b (List.mem_cons_of_mem _ hb)
  have hctail : ∀ b ∈ tail, Consistent b := fun b hb => hcons b (List.mem_cons_of_mem _ hb)
  rw [permuteSession, anchorBar_eq hl hfirst]
  split_ifs with hnil
  · subst hnil
    exact ⟨rfl, rfl, rfl, .refl _, hcons⟩
  · have hlen : (increments log first tail).length = tail.length := by
      simp [increments]
    have horder : (blockOrder tail.length blk permutation).Perm
        (List.range (increments log first tail).length) := by
      rw [hlen]
      exact blockOrder_perm tail.length hblk hperm
    have hxs := filterMap_getElem?_perm (increments log first tail) horder
    show Keeps _ (first :: compound exp (log first.close) tail
      ((blockOrder tail.length blk permutation).filterMap ((increments log first tail)[·]?)))
    generalize (blockOrder tail.length blk permutation).filterMap
      ((increments log first tail)[·]?) = xs at hxs ⊢
    have hclose : first.close = exp (log first.close) := (hl.exp_log _ hfirst.close).symm
    have hown : compound exp (log first.close) tail (increments log first tail) = tail :=
      compound_increments hl htail
    constructor
    · rw [List.map_cons, List.map_cons,
        map_timestamp_compound _ _ (hxs.length_eq.trans hlen)]
    · rfl
    · rw [lastClose_compound hclose (hxs.length_eq.trans hlen)]
      conv_rhs => rw [← hown]
      rw [lastClose_compound hclose hlen, (hxs.map _).sum_eq]
    · simp only [List.tail_cons]
      rw [content_compound hl hclose (hxs.length_eq.trans hlen)]
      conv_rhs => rw [← hown]
      rw [content_compound hl hclose hlen]
      exact hxs.map _
    · intro b hb
      rcases List.mem_cons.mp hb with rfl | hb
      · exact hcons b List.mem_cons_self
      · exact compound_consistent hl
          (fun x hx => increments_ordered hl htail hctail x (hxs.mem_iff.mp hx)) b hb

end Compound

/-! ## Sessions of the output -/

section Runs
variable {α β : Type*}

theorem flatten_sessionRuns (rows : List (α × ℕ)) :
    (sessionRuns rows).flatten = rows.map Prod.fst := by
  induction rows using sessionRuns.induct with
  | case1 => simp [sessionRuns]
  | case2 row rest ih =>
    rw [sessionRuns, List.flatten_cons, ih, List.map_cons, List.cons_append, ← List.map_append,
      List.takeWhile_append_dropWhile]

theorem nil_notMem_sessionRuns (rows : List (α × ℕ)) : [] ∉ sessionRuns rows := by
  induction rows using sessionRuns.induct with
  | case1 => simp [sessionRuns]
  | case2 row rest ih =>
    rw [sessionRuns, List.mem_cons, not_or]
    exact ⟨nofun, ih⟩

/-- Rows of one id, and then rows that start with another. -/
theorem sessionRuns_append {first : β} {tail : List β} {id : ℕ} {rest : List (β × ℕ)}
    (h : ∀ row ∈ rest.head?, row.2 ≠ id) :
    sessionRuns ((first, id) :: (tail.zip (List.replicate tail.length id) ++ rest)) =
      (first :: tail) :: sessionRuns rest := by
  have hall : ∀ row ∈ tail.zip (List.replicate tail.length id), decide (row.2 = id) = true := by
    intro row hrow
    simpa using List.eq_of_mem_replicate (List.of_mem_zip hrow).2
  have hhead : rest.takeWhile (·.2 = id) = [] ∧ rest.dropWhile (·.2 = id) = rest := by
    cases rest with
    | nil => simp
    | cons row rest =>
      have := h row rfl
      simp [this]
  rw [sessionRuns, List.takeWhile_append_of_pos hall, List.dropWhile_append_of_pos hall, hhead.1,
    hhead.2, List.append_nil, List.map_fst_zip (by simp)]

/-- Behind a run of one id the ids go on. -/
theorem map_snd_eq_replicate_append {n id : ℕ} {rest : List (α × ℕ)}
    (h : n = (rest.takeWhile (·.2 = id)).length) :
    rest.map Prod.snd = List.replicate n id ++ (rest.dropWhile (·.2 = id)).map Prod.snd := by
  have hsame : (rest.takeWhile (·.2 = id)).map Prod.snd = List.replicate n id := by
    refine List.eq_replicate_iff.mpr ⟨by simp [h], fun other hother => ?_⟩
    obtain ⟨r, hr, rfl⟩ := List.mem_map.mp hother
    simpa using List.mem_takeWhile_imp hr
  rw [← hsame, ← List.map_append, List.takeWhile_append_dropWhile]

theorem head_ne_of_dropWhile {outs : List β} {id : ℕ} {rest : List (α × ℕ)} :
    ∀ r ∈ (outs.zip ((rest.dropWhile (·.2 = id)).map Prod.snd)).head?, r.2 ≠ id := by
  intro r hr
  have hnot := List.head?_dropWhile_not (fun r : α × ℕ => decide (r.2 = id)) rest
  cases hdrop : rest.dropWhile (·.2 = id) with
  | nil => simp [hdrop] at hr
  | cons d ds =>
    rw [hdrop] at hr hnot
    cases outs with
    | nil => simp at hr
    | cons o os =>
      simp only [List.map_cons, List.zip_cons_cons, List.head?_cons, Option.mem_def,
        Option.some.injEq] at hr
      subst hr
      simpa using hnot

/-- Rebuilt run by run at the same lengths, a frame has the rebuilt runs. -/
theorem sessionRuns_rebuilt (rows : List (α × ℕ)) {outs : List (List β)}
    (h : List.Forall₂ (fun run out => out.length = run.length) (sessionRuns rows) outs) :
    sessionRuns (outs.flatten.zip (rows.map Prod.snd)) = outs := by
  induction rows using sessionRuns.induct generalizing outs with
  | case1 =>
    rw [sessionRuns, List.forall₂_nil_left_iff] at h
    subst h
    simp [sessionRuns]
  | case2 row rest ih =>
    rw [sessionRuns, List.forall₂_cons_left_iff] at h
    obtain ⟨out, outs, hlen, hrest, rfl⟩ := h
    cases out with
    | nil => simp at hlen
    | cons first tail =>
      have hids : rest.map Prod.snd = List.replicate tail.length row.2 ++
          (rest.dropWhile (·.2 = row.2)).map Prod.snd :=
        map_snd_eq_replicate_append (by simpa using hlen)
      rw [List.flatten_cons, List.map_cons, List.cons_append, List.zip_cons_cons, hids,
        List.zip_append (by simp), sessionRuns_append head_ne_of_dropWhile, ih hrest]

end Runs

/-! ## The whole frame -/

section Frame
variable [AddCommGroup G] [LinearOrder G] [IsOrderedAddMonoid G] {log : K → G} {exp : G → K}

theorem permuteFrom_keeps (hl : LogExp log exp) {blk : ℕ} (hblk : 0 < blk)
    {permutation : ℕ → ℕ → List ℕ} (hdraws : Draws permutation) {runs : List (List (Bar K))}
    (hne : [] ∉ runs) (hpos : ∀ b ∈ runs.flatten, Positive b)
    (hcons : ∀ b ∈ runs.flatten, Consistent b) (start : ℕ) :
    ∃ outs, permuteFrom log exp blk permutation start runs = outs.flatten ∧
      List.Forall₂ Keeps runs outs := by
  induction runs generalizing start with
  | nil => exact ⟨[], by simp [permuteFrom], .nil⟩
  | cons run runs ih =>
    rw [List.mem_cons, not_or] at hne
    rw [List.flatten_cons] at hpos hcons
    cases run with
    | nil => exact absurd rfl hne.1
    | cons first tail =>
      obtain ⟨outs, houts, hkeeps⟩ := ih hne.2 (fun b hb => hpos b (List.mem_append_right _ hb))
        (fun b hb => hcons b (List.mem_append_right _ hb)) (start + tail.length + 1)
      refine ⟨permuteSession log exp blk (permutation start) first tail :: outs, ?_, ?_⟩
      · rw [permuteFrom, houts, List.flatten_cons]
      · exact .cons (permuteSession_keeps hl hblk (hdraws start)
          (fun b hb => hpos b (List.mem_append_left _ hb))
          fun b hb => hcons b (List.mem_append_left _ hb)) hkeeps

theorem map_timestamp_keeps {runs outs : List (List (Bar K))} (h : List.Forall₂ Keeps runs outs) :
    outs.flatten.map Bar.timestamp = runs.flatten.map Bar.timestamp := by
  induction h with
  | nil => rfl
  | cons hkeeps _ ih =>
    rw [List.flatten_cons, List.flatten_cons, List.map_append, List.map_append, ih,
      hkeeps.timestamps]

theorem length_sessionIds (pl : Polars) (sessionAware : Bool) (times : List ℤ) :
    (sessionIds pl sessionAware times).length = times.length := by
  unfold sessionIds
  split_ifs <;> simp

theorem resolveBlock_pos {block : BlockArg} {lookback : Option ℤ} {blk : ℕ}
    (h : resolveBlock block lookback = .ok blk) : 0 < blk := by
  cases block with
  | str s =>
    simp only [resolveBlock] at h
    split_ifs at h
    cases lookback with
    | none => cases h
    | some n =>
      simp only at h
      split_ifs at h
      cases h
      omega
  | len n =>
    simp only [resolveBlock] at h
    split_ifs at h
    cases h
    omega

/-- **Permutation keeps what it promises**: the sorted timestamps, and in every session the
first bar, the last close and the content of the bars in between, all of them consistent. -/
theorem permuteBars_keeps (pl : Polars) (hl : LogExp log exp) {sort : List (Bar K) → List (Bar K)}
    (hsort : Sorts sort) {permutation : ℕ → ℕ → List ℕ} (hdraws : Draws permutation)
    {bars : List (Bar K)} (hpos : ∀ b ∈ bars, Positive b) (hcons : ∀ b ∈ bars, Consistent b)
    {block : BlockArg} {lookback : Option ℤ} {blk : ℕ}
    (hblk : resolveBlock block lookback = .ok blk) (sessionAware : Bool) :
    ∃ b out, permuteBars log exp pl sort permutation bars block lookback sessionAware = .ok out ∧
      b.Perm bars ∧ (b.map Bar.timestamp).Pairwise (· ≤ ·) ∧
      out.map Bar.timestamp = b.map Bar.timestamp ∧
      List.Forall₂ Keeps (sessions pl sessionAware b) (sessions pl sessionAware out) := by
  by_cases hnil : bars = []
  · subst hnil
    refine ⟨[], [], rfl, .refl _, .nil, rfl, ?_⟩
    simp [sessions, sessionRuns]
  obtain ⟨b, hb, hperm, hsorted⟩ : ∃ b,
      (if sessionAware then sort (sort bars) else sort bars) = b ∧ b.Perm bars ∧
        (b.map Bar.timestamp).Pairwise (· ≤ ·) := by
    cases sessionAware with
    | true => exact ⟨_, rfl, (hsort.perm _).trans (hsort.perm _), hsort.ascending _⟩
    | false => exact ⟨_, rfl, hsort.perm _, hsort.ascending _⟩
  have hids := length_sessionIds pl sessionAware (b.map Bar.timestamp)
  have hflat : (sessions pl sessionAware b).flatten = b := by
    rw [sessions, flatten_sessionRuns, List.map_fst_zip (by rw [hids, List.length_map])]
  have hne : [] ∉ sessions pl sessionAware b := nil_notMem_sessionRuns _
  obtain ⟨outs, houts, hkeeps⟩ := permuteFrom_keeps hl (resolveBlock_pos hblk) hdraws hne
    (fun x hx => hpos x (hperm.mem_iff.mp (hflat ▸ hx)))
    (fun x hx => hcons x (hperm.mem_iff.mp (hflat ▸ hx))) 0
  have htimes : outs.flatten.map Bar.timestamp = b.map Bar.timestamp := by
    rw [map_timestamp_keeps hkeeps, hflat]
  refine ⟨b, outs.flatten, ?_, hperm, hsorted, htimes, ?_⟩
  · simp only [permuteBars, if_neg hnil, hb, hblk, bind, Except.bind, pure, Except.pure, houts]
  · have hlengths : List.Forall₂ (fun run out : List (Bar K) => out.length = run.length)
        (sessions pl sessionAware b) outs := hkeeps.imp fun run out h => by
      simpa using congrArg List.length h.timestamps
    have hruns := sessionRuns_rebuilt _ hlengths
    rw [List.map_snd_zip (by rw [hids, List.length_map])] at hruns
    rw [show sessions pl sessionAware outs.flatten = outs by rw [sessions, htimes, hruns]]
    exact hkeeps

end Frame

/-! ## Three bars -/

theorem real_logExp : LogExp Real.log Real.exp where
  exp_log _ := Real.exp_log
  log_exp := Real.log_exp
  exp_pos := Real.exp_pos
  exp_le _ _ := Real.exp_le_exp
  exp_add := Real.exp_add

omit [Field K] [LinearOrder K] in
theorem sortBy_sorts : Sorts (StableSort.sortBy (Bar.timestamp : Bar K → ℤ)) where
  perm := StableSort.sortBy_perm
  ascending bars := List.pairwise_map.mpr (StableSort.sortBy_sorted bars)

def wholeBar (timestamp : ℤ) (openPx high low close volume : ℕ) : Bar ℝ :=
  ⟨timestamp, openPx, high, low, close, volume, none⟩

/-- A quarter of an hour apart. -/
def threeBars : List (Bar ℝ) :=
  [wholeBar 0 10 11 9 10 100, wholeBar 900000000 10 13 10 12 50,
    wholeBar 1800000000 12 12 10 11 70]

theorem permuteBars_keeps_threeBars :
    ∃ b out, permuteBars Real.log Real.exp plainPolars (StableSort.sortBy Bar.timestamp)
        (fun _ k => (List.range k).reverse) threeBars (.len 1) none true = .ok out ∧
      b.Perm threeBars ∧ (b.map Bar.timestamp).Pairwise (· ≤ ·) ∧
      out.map Bar.timestamp = b.map Bar.timestamp ∧
      List.Forall₂ Keeps (sessions plainPolars true b) (sessions plainPolars true out) := by
  refine permuteBars_keeps plainPolars real_logExp sortBy_sorts (fun _ k => List.reverse_perm _)
    (fun b hb => ?_) (fun b hb => ?_) rfl true
  · simp only [threeBars, List.mem_cons, List.not_mem_nil, or_false] at hb
    rcases hb with rfl | rfl | rfl <;> constructor <;> norm_num [wholeBar]
  · simp only [threeBars, List.mem_cons, List.not_mem_nil, or_false] at hb
    rcases hb with rfl | rfl | rfl <;> constructor <;> norm_num [wholeBar]

end TradingPlatform.Research.Mcpt
