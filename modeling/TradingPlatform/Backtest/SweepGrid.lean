import TradingPlatform.Backtest.EquityStatistics
import TradingPlatform.Lib.Writes
import Mathlib.Data.List.Nodup

/-! # The parallel sweep

`sweep_decoupled_inner_grid` runs the decoupled kernel on every combination of four grids, in
parallel; each iteration writes its place in seven arrays. -/

namespace TradingPlatform.Backtest

open TradingPlatform.Lib.Writes

inductive Column
  | returns | sharpes | dds | trades | pf | tradesLong | tradesShort
  deriving DecidableEq

/-- The output arrays, by name and place. -/
abbrev Outputs := Column × ℕ → ℚ

structure InnerGrids where
  longGrid : List ℚ
  shortGrid : List ℚ
  exitGrid : List ℚ
  maxBarsGrid : List ℚ

def InnerGrids.nInner (g : InnerGrids) : ℕ :=
  g.longGrid.length * g.shortGrid.length * g.exitGrid.length * g.maxBarsGrid.length

def decodeInnerIndex (idx _nLong nShort nExit nMax : ℕ) : ℕ × ℕ × ℕ × ℕ :=
  let mi := idx % nMax
  let t := idx / nMax
  let ei := t % nExit
  let t := t / nExit
  let si := t % nShort
  let li := t / nShort
  (li, si, ei, mi)

/-- The place of a combination. -/
def innerIndex (g : InnerGrids) (li si ei mi : ℕ) : ℕ :=
  ((li * g.shortGrid.length + si) * g.exitGrid.length + ei) * g.maxBarsGrid.length + mi

section Sweep
variable (sqrt : ℚ → ℚ) (annualize : ℚ) (b : SliceSeries) (p : SliceParams)
  (zLong zShort : ℤ → ℚ) (smaPeriodLong smaPeriodShort : ℤ) (g : InnerGrids)

/-- The kernel on one combination. -/
def innerMetrics (li si ei mi : ℕ) : DecoupledMetrics :=
  simulateMrSliceDecoupled sqrt annualize b
    { p with
      longTh := g.longGrid.getD li 0
      shortTh := g.shortGrid.getD si 0
      exitSigma := g.exitGrid.getD ei 0
      maxBars := truncate (g.maxBarsGrid.getD mi 0) }
    zLong zShort smaPeriodLong smaPeriodShort

def DecoupledMetrics.column (r : DecoupledMetrics) : Column → ℚ
  | .returns => r.totalReturn
  | .sharpes => r.sharpe
  | .dds => r.maxDrawdown
  | .trades => r.trades
  | .pf => r.profitFactor
  | .tradesLong => r.tradesLong
  | .tradesShort => r.tradesShort

/-- What the iteration of `idx` writes, in order. -/
def sweepIteration (idx : ℕ) : List ((Column × ℕ) × ℚ) :=
  let nShort := g.shortGrid.length
  let nExit := g.exitGrid.length
  let nMax := g.maxBarsGrid.length
  let mi := idx % nMax
  let t := idx / nMax
  let ei := t % nExit
  let t := t / nExit
  let si := t % nShort
  let li := t / nShort
  let r := innerMetrics sqrt annualize b p zLong zShort smaPeriodLong smaPeriodShort g li si ei mi
  [.returns, .sharpes, .dds, .trades, .pf, .tradesLong, .tradesShort].map fun c =>
    ((c, idx), r.column c)

/-- The iterations of `prange`. -/
def sweepThreads : List (List ((Column × ℕ) × ℚ)) :=
  (List.range g.nInner).map
    (sweepIteration sqrt annualize b p zLong zShort smaPeriodLong smaPeriodShort g)

end Sweep

/-! ## Places and combinations -/

theorem add_mul_div_mod {q r m : ℕ} (hr : r < m) : (q * m + r) / m = q ∧ (q * m + r) % m = r := by
  refine ⟨?_, ?_⟩
  · rw [Nat.mul_comm, Nat.mul_add_div (Nat.zero_lt_of_lt hr), Nat.div_eq_of_lt hr, Nat.add_zero]
  · rw [Nat.mul_add_mod', Nat.mod_eq_of_lt hr]

theorem decodeInnerIndex_innerIndex {g : InnerGrids} {li si ei mi : ℕ}
    (hs : si < g.shortGrid.length) (he : ei < g.exitGrid.length) (hm : mi < g.maxBarsGrid.length) :
    decodeInnerIndex (innerIndex g li si ei mi) g.longGrid.length g.shortGrid.length
      g.exitGrid.length g.maxBarsGrid.length = (li, si, ei, mi) := by
  unfold decodeInnerIndex innerIndex
  simp only [(add_mul_div_mod hm).1, (add_mul_div_mod hm).2, (add_mul_div_mod he).1,
    (add_mul_div_mod he).2, (add_mul_div_mod hs).1, (add_mul_div_mod hs).2]

theorem innerIndex_lt {g : InnerGrids} {li si ei mi : ℕ} (hl : li < g.longGrid.length)
    (hs : si < g.shortGrid.length) (he : ei < g.exitGrid.length) (hm : mi < g.maxBarsGrid.length) :
    innerIndex g li si ei mi < g.nInner := by
  have hstep : ∀ {a i n m : ℕ}, a < n → i < m → a * m + i < n * m := by
    intro a i n m ha hi
    calc a * m + i < a * m + m := by omega
      _ = (a + 1) * m := (Nat.succ_mul a m).symm
      _ ≤ n * m := Nat.mul_le_mul_right m ha
  exact hstep (hstep (hstep hl hs) he) hm

/-- Every place is that of a combination: the one it decodes to. -/
theorem exists_innerIndex {g : InnerGrids} {idx : ℕ} (h : idx < g.nInner) :
    ∃ li si ei mi, li < g.longGrid.length ∧ si < g.shortGrid.length ∧ ei < g.exitGrid.length ∧
      mi < g.maxBarsGrid.length ∧ idx = innerIndex g li si ei mi := by
  have hpos : 0 < g.nInner := Nat.zero_lt_of_lt h
  unfold InnerGrids.nInner at h hpos
  have hm : 0 < g.maxBarsGrid.length := Nat.pos_of_mul_pos_left hpos
  have hpos := Nat.pos_of_mul_pos_right hpos
  have he : 0 < g.exitGrid.length := Nat.pos_of_mul_pos_left hpos
  have hs : 0 < g.shortGrid.length := Nat.pos_of_mul_pos_left (Nat.pos_of_mul_pos_right hpos)
  have ht := (Nat.div_lt_iff_lt_mul hm).mpr h
  have ht' := (Nat.div_lt_iff_lt_mul he).mpr ht
  refine ⟨idx / g.maxBarsGrid.length / g.exitGrid.length / g.shortGrid.length,
    idx / g.maxBarsGrid.length / g.exitGrid.length % g.shortGrid.length,
    idx / g.maxBarsGrid.length % g.exitGrid.length, idx % g.maxBarsGrid.length,
    (Nat.div_lt_iff_lt_mul hs).mpr ht', Nat.mod_lt _ hs, Nat.mod_lt _ he, Nat.mod_lt _ hm, ?_⟩
  simp only [innerIndex, Nat.div_add_mod']

/-! ## What the sweep leaves -/

section Sweep
variable (sqrt : ℚ → ℚ) (annualize : ℚ) (b : SliceSeries) (p : SliceParams)
  (zLong zShort : ℤ → ℚ) (smaPeriodLong smaPeriodShort : ℤ) (g : InnerGrids)

theorem mem_sweepThreads {w : (Column × ℕ) × ℚ} :
    w ∈ (sweepThreads sqrt annualize b p zLong zShort smaPeriodLong smaPeriodShort g).flatten ↔
      ∃ idx < g.nInner, ∃ c, w ∈ sweepIteration sqrt annualize b p zLong zShort smaPeriodLong
        smaPeriodShort g idx ∧ w.1 = (c, idx) := by
  simp only [sweepThreads, List.mem_flatten, List.mem_map, List.mem_range]
  constructor
  · rintro ⟨_, ⟨idx, hidx, rfl⟩, hw⟩
    have hcell := hw
    simp only [sweepIteration, List.mem_map] at hcell
    obtain ⟨c, -, rfl⟩ := hcell
    exact ⟨idx, hidx, c, hw, rfl⟩
  · rintro ⟨idx, hidx, c, hw, -⟩
    exact ⟨_, ⟨idx, hidx, rfl⟩, hw⟩

/-- No two writes of the sweep share a cell. -/
theorem nodup_sweepThreads :
    ((sweepThreads sqrt annualize b p zLong zShort smaPeriodLong smaPeriodShort g).flatten.map
      Prod.fst).Nodup := by
  have hcells : (sweepThreads sqrt annualize b p zLong zShort smaPeriodLong smaPeriodShort
      g).flatten.map Prod.fst = (List.range g.nInner).flatMap fun idx =>
        ([.returns, .sharpes, .dds, .trades, .pf, .tradesLong, .tradesShort] : List Column).map
          fun c => (c, idx) := by
    simp only [sweepThreads, List.map_flatten, List.map_map, List.flatMap]
    rfl
  rw [hcells, List.nodup_flatMap]
  refine ⟨fun idx _ => ?_, ?_⟩
  · exact (by decide : ([.returns, .sharpes, .dds, .trades, .pf, .tradesLong, .tradesShort] :
      List Column).Nodup).map fun _ _ h => (Prod.mk.inj h).1
  · refine List.nodup_range.imp ?_
    intro i j hne
    simp only [Function.onFun, List.disjoint_left, List.mem_map]
    rintro _ ⟨c, -, rfl⟩ ⟨c', -, h⟩
    exact hne (Prod.mk.inj h).2.symm

/-- Whatever order the iterations' writes are merged in, the sweep leaves at the place of every
combination what the kernel reports of it, and nothing past the last place; a place decodes
to its combination, and every place up to the last is one. -/
theorem sweep_fills_grid {trace : List ((Column × ℕ) × ℚ)}
    (h : Merge (sweepThreads sqrt annualize b p zLong zShort smaPeriodLong smaPeriodShort g) trace)
    (out : Outputs) :
    (∀ li si ei mi, li < g.longGrid.length → si < g.shortGrid.length → ei < g.exitGrid.length →
      mi < g.maxBarsGrid.length → innerIndex g li si ei mi < g.nInner ∧
        decodeInnerIndex (innerIndex g li si ei mi) g.longGrid.length g.shortGrid.length
          g.exitGrid.length g.maxBarsGrid.length = (li, si, ei, mi) ∧
        ∀ c, run out trace (c, innerIndex g li si ei mi) =
          (innerMetrics sqrt annualize b p zLong zShort smaPeriodLong smaPeriodShort g
            li si ei mi).column c) ∧
    (∀ idx < g.nInner, ∃ li si ei mi, li < g.longGrid.length ∧ si < g.shortGrid.length ∧
      ei < g.exitGrid.length ∧ mi < g.maxBarsGrid.length ∧ idx = innerIndex g li si ei mi) ∧
    ∀ c idx, g.nInner ≤ idx → run out trace (c, idx) = out (c, idx) := by
  have hperm := h.perm
  have hnodup := (hperm.map Prod.fst).nodup_iff.mpr
    (nodup_sweepThreads sqrt annualize b p zLong zShort smaPeriodLong smaPeriodShort g)
  refine ⟨fun li si ei mi hl hs he hm => ?_, fun idx => exists_innerIndex, fun c idx hidx => ?_⟩
  · have hplace := innerIndex_lt hl hs he hm
    have hdecode : decodeInnerIndex (innerIndex g li si ei mi) g.longGrid.length g.shortGrid.length
        g.exitGrid.length g.maxBarsGrid.length = (li, si, ei, mi) :=
      decodeInnerIndex_innerIndex hs he hm
    refine ⟨hplace, hdecode, fun c => run_of_mem hnodup (hperm.mem_iff.mpr ?_) out⟩
    rw [mem_sweepThreads]
    refine ⟨_, hplace, c, ?_, rfl⟩
    simp only [decodeInnerIndex, Prod.mk.injEq] at hdecode
    simp only [sweepIteration, hdecode, List.mem_map]
    exact ⟨c, by cases c <;> decide, rfl⟩
  · refine run_of_notMem ?_ out
    rw [(hperm.map Prod.fst).mem_iff, List.mem_map]
    rintro ⟨w, hw, hcell⟩
    obtain ⟨i, hi, c', -, hcell'⟩ := (mem_sweepThreads ..).mp hw
    rw [hcell'] at hcell
    exact absurd (Prod.mk.inj hcell).2 (by omega)

end Sweep

def twoExits : InnerGrids := ⟨[1], [2], [1 / 2, 1], [5]⟩

def exitIteration (idx : ℕ) : List ((Column × ℕ) × ℚ) :=
  sweepIteration id 1 risingSeries risingParams (fun _ => -2) (fun _ => 0) 1 1 twoExits idx

theorem merge_exits_swapped :
    Merge (sweepThreads id 1 risingSeries risingParams (fun _ => -2) (fun _ => 0) 1 1 twoExits)
      (exitIteration 1 ++ (exitIteration 0 ++ [])) := by
  have hdone : Merge ([] ++ [] :: [[]] : List (List ((Column × ℕ) × ℚ))) [] := .done (by simp)
  have hzero : Merge ([exitIteration 0] ++ [] :: []) (exitIteration 0 ++ []) := hdone.alone _
  exact hzero.alone _

/-- Two exits, the second iteration first. -/
theorem sweep_fills_grid_second_first :
    run (fun _ => 0) (exitIteration 1 ++ (exitIteration 0 ++ [])) (.trades, 1) =
      (innerMetrics id 1 risingSeries risingParams (fun _ => -2) (fun _ => 0) 1 1 twoExits
        0 0 1 0).column .trades :=
  ((sweep_fills_grid id 1 risingSeries risingParams (fun _ => -2) (fun _ => 0) 1 1 twoExits
    merge_exits_swapped (fun _ => 0)).1 0 0 1 0 (by decide) (by decide) (by decide)
      (by decide)).2.2 .trades

end TradingPlatform.Backtest
