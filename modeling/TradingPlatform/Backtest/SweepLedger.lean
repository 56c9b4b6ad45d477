import TradingPlatform.Backtest.VectorizedMr
import Mathlib.Tactic.Linarith
import Mathlib.Tactic.Ring

/-! # The ledger of the sweep kernel

Cash plus what the open position cost, less what was won and lost, falls only by the
fees and dividends of shorts. A position is counted on every bar it is held, and the
count has its exit pending before it can pass `max_bars`. -/

namespace TradingPlatform.Backtest

/-- A long counts up, a short counts down. -/
def sideOf (positionQty : ℚ) : ℚ := if 0 < positionQty then 1 else if positionQty < 0 then -1 else 0

@[simp] theorem sideOf_zero : sideOf 0 = 0 := by simp [sideOf]

theorem sideOf_pos {q : ℚ} (h : 0 < q) : sideOf q = 1 := if_pos h

theorem sideOf_neg {q : ℚ} (h : q < 0) : sideOf q = -1 := by
  rw [sideOf, if_neg h.not_gt, if_pos h]

theorem sideOf_mul_abs (q : ℚ) : sideOf q * |q| = q := by
  rcases lt_trichotomy q 0 with h | rfl | h
  · rw [sideOf_neg h, abs_of_neg h]
    ring
  · simp
  · rw [sideOf_pos h, abs_of_pos h, one_mul]

namespace Decoupled

/-- What the cash would be had the open position never been entered, and nothing been
won or lost. -/
def bookValue (s : DecoupledState) : ℚ :=
  s.cash + sideOf s.positionQty * s.entryCost - s.grossWin + s.grossLoss

section Phases
variable (b : SliceSeries) (p : SliceParams)

/-! ## What one fill can do -/

inductive Fill (s : DecoupledState) : DecoupledState → Prop
  | nothing (hexit : s.pendingAction = .exit → s.positionQty = 0) :
      Fill s { s with pendingAction := .hold }
  | enterLong {qty : ℤ} {price : ℚ} (hpending : s.pendingAction = .long)
      (hflat : s.positionQty = 0) (hqty : 0 < qty) (hcash : price * qty ≤ s.cash) :
      Fill s { s with
        cash := s.cash - price * qty, positionQty := qty, entryCost := price * qty
        nFills := s.nFills + 1, nFillsLong := s.nFillsLong + 1, pendingAction := .hold }
  | enterShort {qty : ℤ} {price : ℚ} (hpending : s.pendingAction = .short)
      (hflat : s.positionQty = 0) (hqty : 0 < qty) :
      Fill s { s with
        cash := s.cash + price * qty, positionQty := -qty, entryCost := price * qty
        nFills := s.nFills + 1, nFillsShort := s.nFillsShort + 1, pendingAction := .hold }
  | close {cash grossWin grossLoss : ℚ} (hpending : s.pendingAction = .exit)
      (hopen : s.positionQty ≠ 0) (hvalue : cash - grossWin + grossLoss = bookValue s) :
      Fill s { s with
        cash, positionQty := 0, entryCost := 0, grossWin, grossLoss, nFills := s.nFills + 1
        pendingAction := .hold }

/-- Shares are bought only for cash that is there. -/
theorem sizeShares_affordable {equity cash atrVal price maxRiskPct maxPosPct : ℚ}
    (h : 0 < sizeShares equity cash atrVal price maxRiskPct maxPosPct) :
    price * sizeShares equity cash atrVal price maxRiskPct maxPosPct ≤ cash := by
  unfold sizeShares at h ⊢
  dsimp only at h ⊢
  split at h
  · exact absurd h (lt_irrefl 0)
  rename_i hpositive
  rw [if_neg hpositive]
  split at h
  · exact absurd h (lt_irrefl 0)
  rename_i hone
  rw [if_neg hone]
  have hprice : 0 < price := by
    by_contra hprice
    exact hpositive (.inr (.inl (not_lt.mp hprice)))
  set shares := min (min (equity * maxRiskPct / atrVal) (cash / price))
    (equity * maxPosPct / price)
  have hshares : shares ≤ cash / price := (min_le_left _ _).trans (min_le_right _ _)
  have hwhole : (truncate shares : ℚ) ≤ shares := truncate_le (by linarith)
  calc price * truncate shares ≤ price * (cash / price) :=
        mul_le_mul_of_nonneg_left (hwhole.trans hshares) hprice.le
    _ = cash := mul_div_cancel₀ cash hprice.ne'

theorem coverShort_value (cash entryCost fillRaw slippagePct slipMultiplier grossWin grossLoss : ℚ)
    {positionQty : ℚ} (h : positionQty < 0) :
    let cover := coverShort cash positionQty entryCost fillRaw slippagePct slipMultiplier
    cover.cash - (grossWin + cover.win) + (grossLoss + cover.loss) =
      cash + sideOf positionQty * entryCost - grossWin + grossLoss := by
  rw [sideOf_neg h]
  simp only [coverShort]
  split_ifs <;> linarith

theorem fill_of_pending {s : DecoupledState} {localI : ℕ}
    (hpending : s.pendingAction ≠ .hold → 0 < localI) : Fill s (fillPending b p s localI) := by
  by_cases hhold : s.pendingAction = .hold
  · have hsame : fillPending b p s localI = { s with pendingAction := .hold } := by
      rw [fillPending, if_neg fun h => h.2 hhold, ← hhold]
    rw [hsame]
    exact .nothing fun hexit => absurd (hhold.symm.trans hexit) (by decide)
  rw [fillPending, if_pos ⟨hpending hhold, hhold⟩]
  dsimp only
  by_cases hlong : s.pendingAction = .long ∧ s.positionQty = 0
  · have hexit : s.pendingAction ≠ .exit := by rw [hlong.1]; decide
    rw [if_pos hlong]
    split
    · rename_i hqty
      exact .enterLong hlong.1 hlong.2 hqty (sizeShares_affordable hqty)
    · exact .nothing fun h => absurd h hexit
  rw [if_neg hlong]
  by_cases hshort : s.pendingAction = .short ∧ s.positionQty = 0
  · have hexit : s.pendingAction ≠ .exit := by rw [hshort.1]; decide
    rw [if_pos hshort]
    split
    · rename_i hqty
      exact .enterShort hshort.1 hshort.2 hqty
    · exact .nothing fun h => absurd h hexit
  rw [if_neg hshort]
  by_cases hexit : s.pendingAction = .exit
  · rw [if_pos hexit]
    rcases lt_trichotomy s.positionQty 0 with hneg | hzero | hpos
    · rw [if_neg hneg.not_gt, if_pos hneg]
      exact .close hexit hneg.ne (coverShort_value _ _ _ _ _ _ _ hneg)
    · rw [if_neg hzero.not_gt, if_neg hzero.not_lt]
      exact .nothing fun _ => hzero
    · rw [if_pos hpos]
      refine .close hexit hpos.ne' ?_
      rw [bookValue, sideOf_pos hpos]
      split_ifs <;> linarith
  · rw [if_neg hexit]
    exact .nothing fun h => absurd h hexit

/-! ## What the other phases do -/

def borrowFeeDue (s : DecoupledState) (localI : ℕ) : ℚ :=
  let i := p.first + localI
  if 0 < localI ∧ b.sessionBoundary i = 1 ∧ s.positionQty < 0 then
    |s.positionQty| * b.closes (i - 1) * (p.shortBorrowFeeAnnual / tradingDaysPerYear)
  else 0

def dividendDue (s : DecoupledState) (localI : ℕ) : ℚ :=
  let i := p.first + localI
  if s.positionQty < 0 ∧ 0 < b.dividendPerShare i then |s.positionQty| * b.dividendPerShare i else 0

variable (s : DecoupledState) (localI : ℕ)

theorem debitShort_eq : debitShort b p s localI =
    { s with cash := s.cash - borrowFeeDue b p s localI - dividendDue b p s localI } := by
  unfold debitShort borrowFeeDue dividendDue applyBorrowFee
  dsimp only
  by_cases hneg : s.positionQty < 0
  · rw [if_neg (not_le.mpr hneg)]
    split_ifs <;> simp
  · simp [hneg]

inductive Liquidation (s : DecoupledState) : DecoupledState → Prop
  | spared : Liquidation s s
  | covered {cash grossWin grossLoss : ℚ} (hshort : s.positionQty < 0)
      (hvalue : cash - grossWin + grossLoss = bookValue s) :
      Liquidation s { s with
        cash, positionQty := 0, entryCost := 0, grossWin, grossLoss, nFills := s.nFills + 1
        barsInTrade := 0, liquidated := true }

theorem Liquidation.pendingAction_eq {c l : DecoupledState} (h : Liquidation c l) :
    l.pendingAction = c.pendingAction := by
  cases h <;> rfl

theorem liquidation : Liquidation s (liquidate b p s localI).2 := by
  unfold liquidate
  dsimp only
  split
  · rename_i hmargin
    exact .covered hmargin.1 (coverShort_value _ _ _ _ _ _ _ hmargin.1)
  · exact .spared

variable (zLong zShort : ℤ → ℚ) (warmup : ℤ)

/-- What a bar decides: an exit only of an open position, at the latest when it has
been held for `max_bars`. -/
structure Signals (s : DecoupledState) (localI : ℕ) (action : SignalAction) : Prop where
  waits : s.liquidated = true → action = .hold
  warm : action ≠ .hold → warmup - 1 ≤ localI
  exits : s.liquidated = false → warmup - 1 ≤ localI → s.positionQty ≠ 0 →
    p.maxBars ≤ s.barsInTrade → action = .exit

theorem signal_spec (hhold : s.pendingAction = .hold) :
    ∃ action, signal b p zLong zShort warmup s localI = { s with pendingAction := action } ∧
      Signals p warmup s localI action := by
  unfold signal
  dsimp only
  split
  · rename_i hready
    have hwait : s.liquidated ≠ true := by simp [hready.2.2]
    split
    · exact ⟨.exit, rfl, fun h => absurd h hwait, fun _ => hready.1, fun _ _ _ _ => rfl⟩
    · rename_i hyoung
      have hspec (action : SignalAction) : Signals p warmup s localI action :=
        ⟨fun h => absurd h hwait, fun _ => hready.1, fun _ _ hopen hbars =>
          absurd ⟨hopen, hbars⟩ hyoung⟩
      split_ifs
      · exact ⟨_, rfl, hspec _⟩
      · exact ⟨_, rfl, hspec _⟩
      · exact ⟨_, rfl, hspec _⟩
      · exact ⟨_, rfl, hspec _⟩
      · exact ⟨s.pendingAction, rfl, hspec _⟩
  · rename_i hready
    refine ⟨.hold, by rw [← hhold], fun _ => rfl, fun h => absurd rfl h, fun hlive hwarm => ?_⟩
    exact absurd ⟨hwarm, hhold, hlive⟩ hready

end Phases

/-! ## Runs -/

/-- The kernel's locals; what its shorts were debited; and on how many bars in a row,
up to the last, a position was held. -/
structure Audit where
  state : DecoupledState
  debited : ℚ := 0
  held : ℤ := 0

section Runs
variable (b : SliceSeries) (p : SliceParams) (zLong zShort : ℤ → ℚ) (warmup : ℤ)

/-- The bar after its open, with what was pending filled. -/
def opened (s : DecoupledState) (localI : ℕ) : DecoupledState :=
  fillPending b p { s with liquidated := false } localI

/-- The bar as it is held, before its close is marked. -/
def carried (s : DecoupledState) (localI : ℕ) : DecoupledState :=
  countBar (debitShort b p (opened b p s localI) localI)

def auditBar (a : Audit) (localI : ℕ) : Audit :=
  let filled := opened b p a.state localI
  { state := bar b p zLong zShort warmup a.state localI
    debited := a.debited + borrowFeeDue b p filled localI + dividendDue b p filled localI
    held := if filled.positionQty ≠ 0 then a.held + 1 else 0 }

/-- After the first `count` bars. -/
def audit (count : ℕ) : Audit :=
  (List.range count).foldl (auditBar b p zLong zShort warmup) { state := start p }

theorem audit_succ (count : ℕ) : audit b p zLong zShort warmup (count + 1) =
    auditBar b p zLong zShort warmup (audit b p zLong zShort warmup count) count := by
  rw [audit, audit, List.range_succ, List.foldl_concat]

/-- The audit follows the kernel. -/
theorem audit_state (count : ℕ) : (audit b p zLong zShort warmup count).state =
    (List.range count).foldl (bar b p zLong zShort warmup) (start p) := by
  induction count with
  | zero => rfl
  | succ count ih =>
    rw [audit_succ, List.range_succ, List.foldl_concat, ← ih]
    rfl

end Runs

section Invariant
variable {b : SliceSeries} {p : SliceParams} {warmup : ℤ}

theorem Fill.bookValue_eq {s t : DecoupledState} (h : Fill s t) : bookValue t = bookValue s := by
  cases h with
  | nothing hexit => rfl
  | enterLong hpending hflat hqty hcash =>
    have hpos : (0 : ℚ) < _ := Int.cast_pos.mpr hqty
    simp only [bookValue, sideOf_pos hpos, hflat, sideOf_zero]
    ring
  | enterShort hpending hflat hqty =>
    have hneg : -((_ : ℤ) : ℚ) < 0 := neg_lt_zero.mpr (Int.cast_pos.mpr hqty)
    simp only [bookValue, sideOf_neg hneg, hflat, sideOf_zero]
    ring
  | close hpending hopen hvalue =>
    rw [← hvalue]
    simp [bookValue]

/-- What holds at the end of a bar, with `count` bars done. -/
structure Kept (p : SliceParams) (warmup : ℤ) (count : ℕ) (a : Audit) : Prop where
  value : bookValue a.state = p.initialEquity - a.debited
  whole : ∃ m : ℤ, a.state.positionQty = m
  flat : a.state.positionQty = 0 → a.state.barsInTrade = 0
  held : a.state.positionQty ≠ 0 → a.held = a.state.barsInTrade
  young : a.state.positionQty ≠ 0 → a.state.pendingAction ≠ .exit → a.state.barsInTrade < p.maxBars
  bound : a.held ≤ p.maxBars
  fresh : a.state.positionQty = 0 → a.state.pendingAction ≠ .hold → a.held = 0
  warm : a.state.positionQty ≠ 0 ∨ a.state.pendingAction ≠ .hold → 0 < count ∧ warmup ≤ count

/-- And what holds of the bar while it is carried, with what it adds to the audit. -/
structure Carries (p : SliceParams) (warmup : ℤ) (count : ℕ) (c : DecoupledState)
    (debited : ℚ) (held : ℤ) : Prop where
  value : bookValue c = p.initialEquity - debited
  whole : ∃ m : ℤ, c.positionQty = m
  pending : c.pendingAction = .hold
  live : c.liquidated = false
  flat : c.positionQty = 0 → c.barsInTrade = 0 ∧ held = 0
  open_ : c.positionQty ≠ 0 → held = c.barsInTrade ∧ held ≤ p.maxBars ∧ warmup ≤ count

theorem kept_start (hmax : 1 ≤ p.maxBars) : Kept p warmup 0 { state := start p } where
  value := by simp [bookValue, start]
  whole := ⟨0, by simp [start]⟩
  flat _ := rfl
  held h := absurd rfl h
  young h := absurd rfl h
  bound := by
    show (0 : ℤ) ≤ p.maxBars
    omega
  fresh _ h := absurd rfl h
  warm h := h.elim (absurd rfl) (absurd rfl)

/-- The open of a bar: the fill, seen from the position and the counts alone. -/
theorem opened_fill {count : ℕ} {a : Audit} (h : Kept p warmup count a) :
    Fill { a.state with liquidated := false } (opened b p a.state count) :=
  fill_of_pending b p fun hpending => (h.warm (.inr hpending)).1

/-- A position at the open is an old one, not due to go, or a new one, counted from nothing. -/
theorem opened_counts (hmax : 1 ≤ p.maxBars) {count : ℕ} {a : Audit} (h : Kept p warmup count a)
    {t : DecoupledState} : Fill { a.state with liquidated := false } t →
    (∃ m : ℤ, t.positionQty = m) ∧ t.pendingAction = .hold ∧ t.liquidated = false ∧
      (t.positionQty ≠ 0 →
        a.held = t.barsInTrade ∧ a.held + 1 ≤ p.maxBars ∧ warmup ≤ count) := by
  intro hfill
  have hnew (hflat : a.state.positionQty = 0) (hpending : a.state.pendingAction ≠ .hold) :
      a.held = a.state.barsInTrade ∧ a.held + 1 ≤ p.maxBars ∧ warmup ≤ count := by
    have hheld := h.fresh hflat hpending
    have hbars := h.flat hflat
    exact ⟨by omega, by omega, (h.warm (.inr hpending)).2⟩
  cases hfill with
  | nothing hexit =>
    refine ⟨h.whole, rfl, rfl, fun hopen => ?_⟩
    have hyoung := h.young hopen fun hpending => hopen (hexit hpending)
    have hheld := h.held hopen
    exact ⟨hheld, by omega, (h.warm (.inl hopen)).2⟩
  | @enterLong qty price hpending hflat hqty hcash =>
    have hwaits : a.state.pendingAction ≠ .hold := by
      rw [show a.state.pendingAction = .long from hpending]
      decide
    exact ⟨⟨qty, rfl⟩, rfl, rfl, fun _ => hnew hflat hwaits⟩
  | @enterShort qty price hpending hflat hqty =>
    have hwaits : a.state.pendingAction ≠ .hold := by
      rw [show a.state.pendingAction = .short from hpending]
      decide
    exact ⟨⟨-qty, by push_cast; rfl⟩, rfl, rfl, fun _ => hnew hflat hwaits⟩
  | close hpending hopen hvalue =>
    exact ⟨⟨0, by simp⟩, rfl, rfl, fun hzero => absurd rfl hzero⟩

theorem carries_of_kept (hmax : 1 ≤ p.maxBars) {count : ℕ} {a : Audit} (h : Kept p warmup count a) :
    Carries p warmup count (carried b p a.state count)
      (a.debited + borrowFeeDue b p (opened b p a.state count) count +
        dividendDue b p (opened b p a.state count) count)
      (if (opened b p a.state count).positionQty ≠ 0 then a.held + 1 else 0) := by
  have hfill := opened_fill (b := b) h
  have hbook : bookValue (opened b p a.state count) = p.initialEquity - a.debited :=
    hfill.bookValue_eq.trans h.value
  obtain ⟨hwhole, hpending, hlive, hopen⟩ := opened_counts hmax h hfill
  rw [carried, debitShort_eq]
  generalize opened b p a.state count = t at hbook hwhole hpending hlive hopen ⊢
  refine ⟨?_, hwhole, hpending, hlive, fun hflat => ?_, fun hheld => ?_⟩
  · simp only [bookValue, countBar] at hbook ⊢
    linarith
  · have hflat : t.positionQty = 0 := hflat
    simp [countBar, hflat]
  · have hheld : t.positionQty ≠ 0 := hheld
    obtain ⟨hcount, hbound, hwarm⟩ := hopen hheld
    simp only [countBar, if_pos hheld, hcount, true_and]
    exact ⟨hcount ▸ hbound, hwarm⟩

theorem Carries.bound (hmax : 1 ≤ p.maxBars) {count : ℕ} {c : DecoupledState} {debited : ℚ}
    {held : ℤ} (h : Carries p warmup count c debited held) : held ≤ p.maxBars := by
  by_cases hopen : c.positionQty = 0
  · have hzero := (h.flat hopen).2
    omega
  · exact (h.open_ hopen).2.1

/-- The margin check, the decision and the measures leave what the audit is about. -/
theorem kept_of_carries (hmax : 1 ≤ p.maxBars) {count : ℕ} {c l : DecoupledState} {debited : ℚ}
    {held : ℤ} (h : Carries p warmup count c debited held) (hliquidation : Liquidation c l)
    {action : SignalAction} (hspec : Signals p warmup l count action) (equity : ℚ) :
    Kept p warmup (count + 1)
      { state := measure equity { l with pendingAction := action } count, debited, held } := by
  have hcount : action ≠ .hold → 0 < count + 1 ∧ warmup ≤ (count + 1 : ℕ) := fun hwaits => by
    have := hspec.warm hwaits
    push_cast
    omega
  cases hliquidation with
  | spared =>
    refine ⟨h.value, h.whole, fun hflat => (h.flat hflat).1, fun hopen => (h.open_ hopen).1,
      fun hopen hstays => ?_, h.bound hmax, fun hflat _ => (h.flat hflat).2, ?_⟩
    · obtain ⟨-, -, hwarm⟩ := h.open_ hopen
      by_contra hold
      exact hstays (hspec.exits h.live (by omega) hopen (not_lt.mp hold))
    · intro h
      rcases h with hopen | hwaits
      · obtain ⟨-, -, hwarm⟩ := h.open_ hopen
        push_cast
        omega
      · exact hcount hwaits
  | covered hshort hvalue =>
    -- a bar that liquidates decides nothing
    have hwaits : action = .hold := hspec.waits rfl
    refine ⟨?_, ⟨0, by simp [measure]⟩, fun _ => rfl, fun hopen => absurd rfl hopen,
      fun hopen => absurd rfl hopen, h.bound hmax, fun _ hpending => absurd hwaits hpending, ?_⟩
    · rw [← h.value, ← hvalue]
      simp [bookValue, measure]
    · exact fun hopen => hopen.elim (absurd rfl) hcount

theorem kept_step (zLong zShort : ℤ → ℚ) (hmax : 1 ≤ p.maxBars) {count : ℕ} {a : Audit}
    (h : Kept p warmup count a) :
    Kept p warmup (count + 1) (auditBar b p zLong zShort warmup a count) := by
  have hcarries := carries_of_kept (b := b) hmax h
  have hliquidation := liquidation b p (carried b p a.state count) count
  have hhold : (liquidate b p (carried b p a.state count) count).2.pendingAction = .hold :=
    hliquidation.pendingAction_eq.trans hcarries.pending
  obtain ⟨action, hsignal, hspec⟩ := signal_spec b p
    (liquidate b p (carried b p a.state count) count).2 count zLong zShort warmup hhold
  have hkept := kept_of_carries hmax hcarries hliquidation hspec
    (liquidate b p (carried b p a.state count) count).1
  rw [← hsignal] at hkept
  exact hkept

theorem kept_audit (b : SliceSeries) (zLong zShort : ℤ → ℚ) (hmax : 1 ≤ p.maxBars) (count : ℕ) :
    Kept p warmup count (audit b p zLong zShort warmup count) := by
  induction count with
  | zero => exact kept_start hmax
  | succ count ih =>
    rw [audit_succ]
    exact kept_step zLong zShort hmax ih

end Invariant

/-- The mark of the open position less its entry cost, or the other way for a short. -/
def openGain (s : DecoupledState) (close : ℚ) : ℚ :=
  sideOf s.positionQty * (|s.positionQty| * close - s.entryCost)

theorem mark_eq (s : DecoupledState) (close : ℚ) : s.cash + s.positionQty * close =
    bookValue s + s.grossWin - s.grossLoss + openGain s close := by
  have hqty := sideOf_mul_abs s.positionQty
  calc s.cash + s.positionQty * close
      = s.cash + sideOf s.positionQty * |s.positionQty| * close := by rw [hqty]
    _ = bookValue s + s.grossWin - s.grossLoss + openGain s close := by
      rw [bookValue, openGain]
      ring

/-- A long entry is paid from the cash there is. -/
theorem Fill.solvent {s t : DecoupledState} (h : Fill s t) (hflat : s.positionQty = 0)
    (hlong : 0 < t.positionQty) : 0 ≤ t.cash := by
  cases h with
  | nothing hexit => exact absurd hlong (by simp [hflat])
  | enterLong hpending hflat hqty hcash => exact sub_nonneg.mpr hcash
  | enterShort hpending hflat hqty =>
    have hpos : (0 : ℚ) < _ := Int.cast_pos.mpr hqty
    have hneg : (0 : ℚ) < -_ := hlong
    linarith
  | close hpending hopen hvalue => exact absurd hlong (lt_irrefl 0)

/-- What fills on an open position is the exit, and closes it. -/
theorem Fill.closes {s t : DecoupledState} (h : Fill s t) (hopen : s.positionQty ≠ 0)
    (hfills : t.nFills ≠ s.nFills) : s.pendingAction = .exit ∧ t.positionQty = 0 := by
  cases h with
  | nothing hexit => exact absurd rfl hfills
  | enterLong hpending hflat hqty hcash => exact absurd hflat hopen
  | enterShort hpending hflat hqty => exact absurd hflat hopen
  | close hpending hopen hvalue => exact ⟨hpending, rfl⟩

/-- No order at all is filled on an open position. -/
def NothingFillsOpen (b : SliceSeries) (p : SliceParams) (zLong zShort : ℤ → ℚ) (warmup : ℤ)
    (localI : ℕ) : Prop :=
  let before := audit b p zLong zShort warmup localI
  before.state.positionQty ≠ 0 →
    (opened b p before.state localI).nFills = before.state.nFills

/-- At the end of every bar of the kernel the books close, and the position is whole
and no more than `max_bars` bars old; on every open, a long entry is paid for, and an
order that fills on an open position closes it. -/
theorem sweep_ledger_closes (b : SliceSeries) (p : SliceParams) (zLong zShort : ℤ → ℚ)
    (smaPeriodLong smaPeriodShort : ℤ) (hmax : 1 ≤ p.maxBars) (localI : ℕ) :
    let warmup := warmupOf smaPeriodLong smaPeriodShort
    let before := audit b p zLong zShort warmup localI
    let filled := opened b p before.state localI
    let after := audit b p zLong zShort warmup (localI + 1)
    after.state = (List.range (localI + 1)).foldl (bar b p zLong zShort warmup) (start p) ∧
    after.state.cash + after.state.positionQty * b.closes (p.first + localI) =
      p.initialEquity + after.state.grossWin - after.state.grossLoss +
        openGain after.state (b.closes (p.first + localI)) - after.debited ∧
    (∃ m : ℤ, after.state.positionQty = m) ∧ after.held ≤ p.maxBars ∧
    (before.state.positionQty = 0 → 0 < filled.positionQty → 0 ≤ filled.cash) ∧
    (before.state.positionQty ≠ 0 → filled.nFills ≠ before.state.nFills →
      before.state.pendingAction = .exit ∧ filled.positionQty = 0) := by
  intro warmup before filled after
  have hbefore : Kept p warmup localI before := kept_audit b zLong zShort hmax localI
  have hafter : Kept p warmup (localI + 1) after := kept_audit b zLong zShort hmax (localI + 1)
  have hfill : Fill { before.state with liquidated := false } filled := opened_fill hbefore
  refine ⟨audit_state b p zLong zShort warmup (localI + 1), ?_, hafter.whole, hafter.bound,
    hfill.solvent, hfill.closes⟩
  rw [mark_eq, hafter.value]
  ring

/-! ## A long that is held for one bar -/

def flatSeries : SliceSeries where
  opens _ := 100
  closes _ := 100
  regimeMask _ := 1
  atr _ := 1
  sessionBoundary _ := 0
  dividendPerShare _ := 0

def oneBarParams : SliceParams where
  longTh := 2
  shortTh := 2
  exitSigma := 1 / 2
  maxBars := 1
  slippagePct := 1 / 2000
  maxRiskPct := 1 / 100
  maxPosPct := 19 / 20
  initialEquity := 100000
  shortBorrowFeeAnnual := 1 / 200
  shortSizeMultiplier := 3 / 4
  shortMarginInitial := 1 / 2
  shortMarginMaint := 1 / 4
  liquidationSlipMultiplier := 3
  first := 0
  last := 3

/-- The exit order of the third bar fills while the long is open. -/
theorem exit_fills_while_open :
    ¬ NothingFillsOpen flatSeries oneBarParams (fun _ => -5) (fun _ => -5) (warmupOf 1 1) 2 := by
  unfold NothingFillsOpen
  decide +kernel

theorem one_bar_ledger_closes :
    (audit flatSeries oneBarParams (fun _ => -5) (fun _ => -5) (warmupOf 1 1) 3).held ≤ 1 :=
  (sweep_ledger_closes flatSeries oneBarParams (fun _ => -5) (fun _ => -5) 1 1 (by decide)
    2).2.2.2.1

end Decoupled

end TradingPlatform.Backtest
