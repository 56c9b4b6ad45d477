import TradingPlatform.Engine.Attribution
import TradingPlatform.Lib.Runs
import TradingPlatform.Research.Resample
import Mathlib.Tactic.Ring

/-! # Calibration of slippage by session and direction

The slippages and markouts of the ledger rows are gathered in cells, a session and a
direction each. A cell's multiplier is the median of what its trades imply of the
base slippage, so that the base times the multiplier is the median of the slippages. -/

namespace TradingPlatform.Engine.SlippageModelCalibrator

open TradingPlatform.Lib
open TradingPlatform.Research.Resample (median)
open TradingPlatform.Persistence.LedgerReplica
open TradingPlatform.Engine.Attribution

/-! ## The grid -/

inductive SessionType
  | openingCross
  | middayDoldrums
  | closingImbalance
  deriving DecidableEq

namespace SessionType

def value : SessionType → String
  | openingCross => "OPENING_CROSS"
  | middayDoldrums => "MIDDAY_DOLDRUMS"
  | closingImbalance => "CLOSING_IMBALANCE"

/-- `SESSION_SLIPPAGE_MULTIPLIERS[session]`. -/
def slippageMultiplier : SessionType → ℚ
  | openingCross => 2
  | middayDoldrums => 1
  | closingImbalance => 3 / 2

def stress : SessionType → Bool
  | openingCross => true
  | middayDoldrums => false
  | closingImbalance => true

end SessionType

def sessionTypes : List SessionType := [.openingCross, .middayDoldrums, .closingImbalance]

def sessionOfValue? (session : String) : Option SessionType :=
  sessionTypes.find? (·.value = session)

@[simp] theorem sessionOfValue?_value (s : SessionType) : sessionOfValue? s.value = some s := by
  cases s <;> rfl

theorem sessionOfValue?_eq_some {session : String} {s : SessionType} :
    sessionOfValue? session = some s ↔ session = s.value := by
  refine ⟨fun h => ?_, fun h => h ▸ sessionOfValue?_value s⟩
  have hfound := List.find?_some h
  exact (of_decide_eq_true hfound).symm

abbrev Grid := Dict String (Dict String ℚ)

def gridOf (f : SessionType → ExecutionDirection → ℚ) : Grid :=
  Dict.tabulate SessionType.value
    (fun s => Dict.tabulate ExecutionDirection.value (f s) executionDirectionTypes) sessionTypes

def defaultMultiplier (s : SessionType) (d : ExecutionDirection) : ℚ :=
  let exitBias : ℚ := if s.stress then 135 / 100 else 115 / 100
  let entryBias : ℚ := if s = .middayDoldrums then 9 / 10 else 1
  match d with
  | .longEntry => s.slippageMultiplier * entryBias
  | .longExit => s.slippageMultiplier * exitBias
  | .shortEntry => s.slippageMultiplier * entryBias
  | .shortExit => s.slippageMultiplier * exitBias

def defaultAsymmetricMultipliers : Grid := gridOf defaultMultiplier

def resolveDirectionalSlippageMultiplier (multipliers : Grid) (session direction : String) : ℚ :=
  let sessionMap := (multipliers.get? session).getD .empty
  match sessionMap.get? direction with
  | some value => value
  | none => ((sessionOfValue? session).map (·.slippageMultiplier)).getD 1

/-- An empty grid is none, as an absent one. -/
def resolveDirectionalSlippagePct (baseSlippagePct : ℚ) (session direction : String)
    (multipliers : Option Grid) : ℚ :=
  let grid := match multipliers.filter (·.items ≠ []) with
    | some grid => grid
    | none => defaultAsymmetricMultipliers
  max baseSlippagePct 0 * resolveDirectionalSlippageMultiplier grid session direction

/-! ## The calibrator -/

structure SlippageCalibration where
  baseSlippagePct : ℚ
  currentMultipliers : Grid
  calibratedMultipliers : Grid
  sampleCounts : SessionType → ExecutionDirection → ℕ
  impliedFromSlippage : Grid
  impliedFromMarkout : Grid

abbrev Cells := SessionType → ExecutionDirection → List ℚ

def Cells.append (cells : Cells) (s : SessionType) (d : ExecutionDirection) (x : ℚ) : Cells :=
  fun s' d' => if s' = s ∧ d' = d then cells s' d' ++ [x] else cells s' d'

/-- The direction of a row; where it names none, the first with an adverse slippage. -/
def rowDirection (row : LiveAttributionRecord) : Option ExecutionDirection :=
  match ofValue? (row.executionDirectionType.getD "") with
  | some d => some d
  | none => executionDirectionTypes.find? fun candidate =>
      (rowSlippageForDirection row candidate).any (0 < ·)

/-- The cell of a row, `none` of one that is passed over. -/
def cellOf (h : Host) (row : LiveAttributionRecord) : Option (SessionType × ExecutionDirection) := do
  let session := if row.sessionType = "" then h.sessionMiddayDoldrums else row.sessionType
  let s ← sessionOfValue? session
  let d ← rowDirection row
  some (s, d)

def gather (h : Host) (baseSlippagePct : ℚ) (implied : Cells × Cells)
    (row : LiveAttributionRecord) : Cells × Cells :=
  match cellOf h row with
  | none => implied
  | some (s, d) =>
    let slip := (rowSlippageForDirection row d).getD (row.slippagePct.getD 0)
    let impliedSlippage :=
      if 0 < slip ∧ 0 < baseSlippagePct then implied.1.append s d (slip / baseSlippagePct)
      else implied.1
    let impliedMarkout :=
      match row.markout5bar with
      | none => implied.2
      | some markout =>
        if 0 < baseSlippagePct then implied.2.append s d (max 0 (-markout) / baseSlippagePct)
        else implied.2
    (impliedSlippage, impliedMarkout)

def estimate (samples : List ℚ) (current : ℚ) : ℚ :=
  if samples = [] then current else median samples

def calibratedMultiplier (slipVals markVals : List ℚ) (current : ℚ) : ℚ :=
  let slipEst := estimate slipVals current
  let markEst := estimate markVals current
  if slipVals ≠ [] ∧ markVals ≠ [] then median [slipEst, markEst]
  else if slipVals ≠ [] then slipEst
  else if markVals ≠ [] then markEst
  else current

def calibrate (h : Host) (baseSlippagePct : ℚ) (rows : List LiveAttributionRecord) :
    SlippageCalibration :=
  let implied := rows.foldl (gather h baseSlippagePct) (fun _ _ => [], fun _ _ => [])
  { baseSlippagePct := baseSlippagePct
    currentMultipliers := defaultAsymmetricMultipliers
    calibratedMultipliers := gridOf fun s d =>
      calibratedMultiplier (implied.1 s d) (implied.2 s d) (defaultMultiplier s d)
    sampleCounts := fun s d => (implied.1 s d).length
    impliedFromSlippage := gridOf fun s d => estimate (implied.1 s d) (defaultMultiplier s d)
    impliedFromMarkout := gridOf fun s d => estimate (implied.2 s d) (defaultMultiplier s d) }

/-! ## Looking a grid up -/

theorem resolve_gridOf (f : SessionType → ExecutionDirection → ℚ) (s : SessionType)
    (d : ExecutionDirection) :
    resolveDirectionalSlippageMultiplier (gridOf f) s.value d.value = f s d := by
  cases s <;> cases d <;> rfl

/-- The grid is asked at its own cells. -/
theorem resolvePct_gridOf (f : SessionType → ExecutionDirection → ℚ) (base : ℚ) (s : SessionType)
    (d : ExecutionDirection) :
    resolveDirectionalSlippagePct base s.value d.value (some (gridOf f)) = max base 0 * f s d := by
  have hsome : (some (gridOf f)).filter (fun grid => decide (grid.items ≠ [])) =
      some (gridOf f) := rfl
  rw [resolveDirectionalSlippagePct, hsome]
  exact congrArg (max base 0 * ·) (resolve_gridOf f s d)

/-! ## Medians -/

theorem median_perm {xs ys : List ℚ} (h : xs.Perm ys) : median xs = median ys := by
  have hsort : xs.insertionSort (· ≤ ·) = ys.insertionSort (· ≤ ·) :=
    ((List.perm_insertionSort _ _).trans (h.trans (List.perm_insertionSort _ _).symm)).eq_of_pairwise'
      (List.pairwise_insertionSort _ _) (List.pairwise_insertionSort _ _)
  rw [median, median, hsort]

theorem median_div_mul (xs : List ℚ) {c : ℚ} (hc : 0 < c) :
    c * median (xs.map (· / c)) = median xs := by
  have hsort : (xs.map (· / c)).insertionSort (· ≤ ·) =
      (xs.insertionSort (· ≤ ·)).map (· / c) :=
    (List.map_insertionSort (· ≤ ·) (· ≤ ·) (· / c) xs fun _ _ _ _ =>
      (div_le_div_iff_of_pos_right hc).symm).symm
  have hget : ∀ (l : List ℚ) (i : ℕ), (l.map (· / c)).getD i 0 = l.getD i 0 / c := by
    intro l i
    rw [List.getD_eq_getElem?_getD, List.getD_eq_getElem?_getD, List.getElem?_map]
    cases l[i]? <;> simp
  rw [median, median, hsort, List.length_map, hget, hget]
  split_ifs
  · exact mul_div_cancel₀ _ hc.ne'
  · rw [← add_div, div_right_comm]
    exact mul_div_cancel₀ _ hc.ne'

theorem median_pair (a b : ℚ) : median [a, b] = (a + b) / 2 := by
  rcases le_total a b with hab | hab
  · simp [median, hab]
  · by_cases hba : a ≤ b
    · simp [median, hba]
    · simp [median, hba, add_comm]

/-! ## What a cell gathers -/

section Gather
variable (h : Host) (base : ℚ)

/-- What a row adds to the slippages of a cell. -/
def slipSample (s : SessionType) (d : ExecutionDirection) (row : LiveAttributionRecord) :
    Option ℚ :=
  let slip := (rowSlippageForDirection row d).getD (row.slippagePct.getD 0)
  if cellOf h row = some (s, d) ∧ 0 < slip ∧ 0 < base then some (slip / base) else none

/-- What a row adds to the markouts of a cell. -/
def markSample (s : SessionType) (d : ExecutionDirection) (row : LiveAttributionRecord) :
    Option ℚ :=
  if cellOf h row = some (s, d) ∧ 0 < base then
    row.markout5bar.map fun markout => max 0 (-markout) / base
  else none

theorem gather_cell (implied : Cells × Cells) (row : LiveAttributionRecord) (s : SessionType)
    (d : ExecutionDirection) :
    (gather h base implied row).1 s d = implied.1 s d ++ (slipSample h base s d row).toList ∧
      (gather h base implied row).2 s d = implied.2 s d ++ (markSample h base s d row).toList := by
  unfold gather slipSample markSample
  cases hcell : cellOf h row with
  | none => simp
  | some cell =>
    obtain ⟨s', d'⟩ := cell
    by_cases hsame : s = s' ∧ d = d'
    · obtain ⟨rfl, rfl⟩ := hsame
      constructor
      · dsimp only
        split_ifs <;> simp_all [Cells.append]
      · cases row.markout5bar with
        | none => simp
        | some markout =>
          dsimp only
          split_ifs <;> simp_all [Cells.append]
    · have hne : ¬ (s' = s ∧ d' = d) := fun ⟨hs, hd⟩ => hsame ⟨hs.symm, hd.symm⟩
      have hother : ∀ (cells : Cells) (x : ℚ), cells.append s' d' x s d = cells s d :=
        fun cells x => if_neg hsame
      constructor
      · dsimp only
        split_ifs <;> simp_all
      · cases row.markout5bar with
        | none => simp
        | some markout =>
          dsimp only
          split_ifs <;> simp_all

theorem gathered (rows : List LiveAttributionRecord) (s : SessionType) (d : ExecutionDirection) :
    (rows.foldl (gather h base) (fun _ _ => [], fun _ _ => [])).1 s d =
        rows.filterMap (slipSample h base s d) ∧
      (rows.foldl (gather h base) (fun _ _ => [], fun _ _ => [])).2 s d =
        rows.filterMap (markSample h base s d) := by
  induction rows using List.reverseRecOn with
  | nil => exact ⟨rfl, rfl⟩
  | append_singleton rows row ih =>
    obtain ⟨hslip, hmark⟩ := gather_cell h base
      (rows.foldl (gather h base) (fun _ _ => [], fun _ _ => [])) row s d
    rw [List.foldl_concat, hslip, hmark, ih.1, ih.2, Runs.filterMap_concat, Runs.filterMap_concat]
    exact ⟨rfl, rfl⟩

end Gather

/-! ## The cells of the trades -/

section Trades
variable {h : Host}

/-- The trade was first closed in the session and last in the direction. -/
def InCell (s : SessionType) (d : ExecutionDirection) (trade : Settled h) : Prop :=
  (if h.resolveTradingSession trade.first.trade.timestamp = "" then h.sessionMiddayDoldrums
    else h.resolveTradingSession trade.first.trade.timestamp) = s.value ∧
    executionDirectionOf h trade.last.trade = d.value

instance (s : SessionType) (d : ExecutionDirection) : DecidablePred (InCell (h := h) s d) :=
  fun _ => by
    unfold InCell
    infer_instance

/-- The adverse slippages of a cell. -/
def slipsOf (trades : List (Settled h)) (s : SessionType) (d : ExecutionDirection) : List ℚ :=
  ((trades.filter fun trade => InCell s d trade).map (·.last.trade.slippagePct)).filter (0 < ·)

/-- The adverse markouts of a cell, a favourable one as 0. -/
def costsOf (trades : List (Settled h)) (s : SessionType) (d : ExecutionDirection) : List ℚ :=
  ((trades.filter fun trade => InCell s d trade).filterMap (·.markout)).map fun markout =>
    max 0 (-markout)

theorem rowDirection_row (trade : Settled h) :
    rowDirection trade.row = ofValue? (executionDirectionOf h trade.last.trade) := by
  obtain ⟨hdirection, -, hslips⟩ := trade.last.direction
  have htype : trade.row.executionDirectionType =
      some (executionDirectionOf h trade.last.trade) := hdirection
  have hcolumn : ∀ d, slipDirection trade.row d = slipDirection trade.last.record d := by
    intro d
    cases d <;> rfl
  rw [rowDirection, htype, Option.getD_some]
  cases hof : ofValue? (executionDirectionOf h trade.last.trade) with
  | some d => rfl
  | none =>
    refine List.find?_eq_none.mpr fun d _ => ?_
    have hne := ofValue?_eq_none.mp hof d
    rw [rowSlippageForDirection, hcolumn, hslips, bucketDirectionalSlippage, if_neg hne, htype,
      Option.getD_some, if_neg hne]
    simp

theorem cellOf_row (trade : Settled h) (s : SessionType) (d : ExecutionDirection) :
    cellOf h trade.row = some (s, d) ↔ InCell s d trade := by
  have hsession : trade.row.sessionType =
      h.resolveTradingSession trade.first.trade.timestamp := trade.first.sessionType
  rw [cellOf, rowDirection_row, hsession, InCell, ← sessionOfValue?_eq_some, ← ofValue?_eq_some]
  simp only [Option.bind_eq_bind, Option.bind_eq_some_iff, Option.some.injEq, Prod.mk.injEq]
  constructor
  · rintro ⟨s', hs, d', hd, rfl, rfl⟩
    exact ⟨hs, hd⟩
  · rintro ⟨hs, hd⟩
    exact ⟨s, hs, d, hd, rfl, rfl⟩

/-- The slippage read back is that of the last close. -/
theorem slippage_row {trade : Settled h} {s : SessionType} {d : ExecutionDirection}
    (hcell : InCell s d trade) :
    rowSlippageForDirection trade.row d = some trade.last.trade.slippagePct := by
  obtain ⟨-, -, hslips⟩ := trade.last.direction
  have hcolumn : slipDirection trade.row d = slipDirection trade.last.record d := by
    cases d <;> rfl
  rw [rowSlippageForDirection, hcolumn, hslips, bucketDirectionalSlippage, if_pos hcell.2]

variable {trades : List (Settled h)} {rows : List LiveAttributionRecord} {base : ℚ}

theorem gathered_slips (hperm : rows.Perm (trades.map Settled.row)) (hbase : 0 < base)
    (s : SessionType) (d : ExecutionDirection) :
    (rows.filterMap (slipSample h base s d)).Perm ((slipsOf trades s d).map (· / base)) := by
  refine (hperm.filterMap _).trans (List.Perm.of_eq ?_)
  rw [List.filterMap_map]
  clear hperm
  induction trades with
  | nil => rfl
  | cons trade trades ih =>
    rw [List.filterMap_cons, ih]
    unfold slipsOf
    by_cases hcell : InCell s d trade
    · by_cases hslip : 0 < trade.last.trade.slippagePct <;>
        simp [slipSample, cellOf_row, hcell, slippage_row hcell, hbase, hslip]
    · simp [slipSample, cellOf_row, hcell]

theorem gathered_costs (hperm : rows.Perm (trades.map Settled.row)) (hbase : 0 < base)
    (s : SessionType) (d : ExecutionDirection) :
    (rows.filterMap (markSample h base s d)).Perm ((costsOf trades s d).map (· / base)) := by
  refine (hperm.filterMap _).trans (List.Perm.of_eq ?_)
  rw [List.filterMap_map]
  clear hperm
  induction trades with
  | nil => rfl
  | cons trade trades ih =>
    have hmarkout : trade.row.markout5bar = trade.markout := rfl
    rw [List.filterMap_cons, ih]
    unfold costsOf
    by_cases hcell : InCell s d trade
    · cases hm : trade.markout <;>
        simp [markSample, cellOf_row, hcell, hmarkout, hm, hbase]
    · simp [markSample, cellOf_row, hcell]

/-! ## What the calibrated grid charges -/

/-- The slippage of a cell's trades: the median of the adverse slippages, that of the
markouts, the middle of the two, or the default of the base. -/
def realizedSlippage (base : ℚ) (trades : List (Settled h)) (s : SessionType)
    (d : ExecutionDirection) : ℚ :=
  match slipsOf trades s d, costsOf trades s d with
  | [], [] => base * defaultMultiplier s d
  | [], costs => median costs
  | slips, [] => median slips
  | slips, costs => (median slips + median costs) / 2

theorem charge_estimate {samples values : List ℚ} (hperm : samples.Perm (values.map (· / base)))
    (hbase : 0 < base) (hne : values ≠ []) (current : ℚ) :
    base * estimate samples current = median values := by
  have hsamples : samples ≠ [] := by
    rintro rfl
    exact hne (List.map_eq_nil_iff.mp hperm.symm.eq_nil)
  rw [estimate, if_neg hsamples, median_perm hperm, median_div_mul values hbase]

theorem charge_calibrated {slipVals markVals : List ℚ} (hbase : 0 < base) (s : SessionType)
    (d : ExecutionDirection) (hslip : slipVals.Perm ((slipsOf trades s d).map (· / base)))
    (hmark : markVals.Perm ((costsOf trades s d).map (· / base))) :
    base * calibratedMultiplier slipVals markVals (defaultMultiplier s d) =
      realizedSlippage base trades s d := by
  have hslipnil : slipVals = [] ↔ slipsOf trades s d = [] := by
    rw [← List.length_eq_zero_iff, hslip.length_eq, List.length_map, List.length_eq_zero_iff]
  have hmarknil : markVals = [] ↔ costsOf trades s d = [] := by
    rw [← List.length_eq_zero_iff, hmark.length_eq, List.length_map, List.length_eq_zero_iff]
  have hslipest : slipsOf trades s d ≠ [] → base * estimate slipVals (defaultMultiplier s d) =
      median (slipsOf trades s d) := fun hne => charge_estimate hslip hbase hne _
  have hmarkest : costsOf trades s d ≠ [] → base * estimate markVals (defaultMultiplier s d) =
      median (costsOf trades s d) := fun hne => charge_estimate hmark hbase hne _
  rw [calibratedMultiplier, realizedSlippage]
  simp only [ne_eq, hslipnil, hmarknil, median_pair]
  cases hslips : slipsOf trades s d with
  | nil => cases hcosts : costsOf trades s d with
    | nil => simp
    | cons cost costs =>
      rw [hcosts] at hmarkest
      simpa using hmarkest (List.cons_ne_nil _ _)
  | cons slip slips =>
    rw [hslips] at hslipest
    have hslipest := hslipest (List.cons_ne_nil _ _)
    cases hcosts : costsOf trades s d with
    | nil => simpa using hslipest
    | cons cost costs =>
      rw [hcosts] at hmarkest
      have hmarkest := hmarkest (List.cons_ne_nil _ _)
      simp only [reduceCtorEq, not_false_eq_true, and_self, if_true]
      rw [← hslipest, ← hmarkest]
      ring

end Trades

/-- **The calibrated grid charges what the trades cost.** At a positive base, a cell's
charge is the median of the adverse slippages and markouts of the trades first closed
in its session and last in its direction, and no other trade moves it; without such a
trade it is the default. At another base nothing is charged. -/
theorem calibration_charges_realized {h : Host} {batches : List (List (Logged h))}
    {start stop : Datetime} {symbol : Option String} {rows : List LedgerRow}
    (hfetch : fetchAttributionRows h (ledgerOf batches) start stop symbol = some rows)
    (base : ℚ) (s : SessionType) (d : ExecutionDirection) :
    let trades := (settled batches.flatten).filter fun trade => InWindow start stop symbol trade
    let calibration := calibrate h base (rows.map (·.record))
    resolveDirectionalSlippagePct base s.value d.value (some calibration.calibratedMultipliers) =
        (if 0 < base then realizedSlippage base trades s d else 0) ∧
      calibration.sampleCounts s d = if 0 < base then (slipsOf trades s d).length else 0 := by
  intro trades calibration
  have hperm := fetched_perm hfetch
  obtain ⟨hslip, hmark⟩ := gathered h base (rows.map (·.record)) s d
  have hcharge : resolveDirectionalSlippagePct base s.value d.value
      (some calibration.calibratedMultipliers) = max base 0 * _ := resolvePct_gridOf _ base s d
  have hcount : calibration.sampleCounts s d = List.length _ := rfl
  rw [hcharge, hcount]
  split_ifs with hbase
  · have hslips := gathered_slips hperm hbase s d
    have hcosts := gathered_costs hperm hbase s d
    rw [← hslip] at hslips
    rw [← hmark] at hcosts
    rw [max_eq_left hbase.le, charge_calibrated hbase s d hslips hcosts, hslips.length_eq,
      List.length_map]
    exact ⟨rfl, rfl⟩
  · rw [max_eq_right (not_lt.mp hbase), zero_mul, hslip, List.length_eq_zero_iff,
      List.filterMap_eq_nil_iff]
    exact ⟨rfl, fun row _ => if_neg fun ⟨_, _, hpos⟩ => hbase hpos⟩

theorem calibration_charges_realized_midday :
    ∃ rows,
      fetchAttributionRows deskHost (ledgerOf [[qqqLogged 10], [qqqLogged 12]]) newYear
        endOfJanuary none = some rows ∧
      resolveDirectionalSlippagePct (1 / 2000) "MIDDAY_DOLDRUMS" "long_exit"
        (some (calibrate deskHost (1 / 2000) (rows.map (·.record))).calibratedMultipliers) =
          1 / 400 := by
  obtain ⟨rows, hrows⟩ := january_fetches [[qqqLogged 10], [qqqLogged 12]]
  have hcharge :=
    (calibration_charges_realized hrows (1 / 2000) .middayDoldrums .longExit).1
  exact ⟨rows, hrows, hcharge.trans (by decide +kernel)⟩

end TradingPlatform.Engine.SlippageModelCalibrator
