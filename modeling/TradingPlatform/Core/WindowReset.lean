import TradingPlatform.Core.RollingWindow

/-! # Clearing a window

`clear` empties the deque, the cursor and the forming slot and leaves what the
ring buffers hold, which nothing reads again. It leaves the applied offset too. -/

namespace TradingPlatform.Core

open TradingPlatform.Lib.Ring TradingPlatform.Lib.Runs

variable {τ α : Type} {n : Nat}

/-- What a call on the window returns; an upsert that would raise is `none`. -/
inductive Returned
  | taken (ok : Bool)
  | upserted (outcome : Option UpsertOutcome)
  | nothing
  deriving DecidableEq

namespace RollingWindow

def corporateActionOffsetApplied (w : RollingWindow τ α n) : α := w.appliedCorporateOffset

/-- `self.forming_bar() or self.latest()`. -/
def latestIncludingForming [LinearOrder τ] (w : RollingWindow τ α n) : Option (Bar τ α) :=
  w.formingBar.or w.latest

/-- Everything a reader of the window sees; `tail_closes` and `is_ready` read no more. -/
structure View (τ α : Type) where
  len : Nat
  bars : List (Bar τ α)
  opens : List α
  highs : List α
  lows : List α
  closes : List α
  volumes : List α
  latest : Option (Bar τ α)
  formingBar : Option (Bar τ α)
  latestIncludingForming : Option (Bar τ α)
  lastTimestamp : Option τ
  corporateActionOffsetApplied : α
  deriving DecidableEq

def view [LinearOrder τ] (w : RollingWindow τ α n) : View τ α where
  len := w.len
  bars := w.chronologicalBars
  opens := w.opensArray
  highs := w.highsArray
  lows := w.lowsArray
  closes := w.closesArray
  volumes := w.volumesArray
  latest := w.latest
  formingBar := w.formingBar
  latestIncludingForming := w.latestIncludingForming
  lastTimestamp := w.lastTimestamp
  corporateActionOffsetApplied := w.corporateActionOffsetApplied

section Calls
variable [LinearOrder τ] [Zero α] [Add α] [LE α] [DecidableLE α] [LT α] [DecidableLT α]

def returned (w : RollingWindow τ α n) : WindowOp τ α → Returned
  | .append bar => .taken (w.append bar).1
  | .upsertBar bar => .upserted ((w.upsertBar bar).map (·.1))
  | .setForming bar => .taken (w.setForming bar).1
  | .applyCorporateActionOffset offset => .taken (w.applyCorporateActionOffset offset).1
  | .clear => .nothing

/-- One call, with what it returns and what is seen afterwards. -/
def observe (w : RollingWindow τ α n) (op : WindowOp τ α) :
    RollingWindow τ α n × Returned × View τ α :=
  (w.step op, w.returned op, (w.step op).view)

/-- No sequence of calls tells the two windows apart. -/
def Indistinguishable (w w' : RollingWindow τ α n) : Prop :=
  w.view = w'.view ∧ ∀ ops, outputs observe w ops = outputs observe w' ops

end Calls

end RollingWindow

variable [LinearOrder τ] {w w' : RollingWindow τ α n} {s : Series τ α}

/-- The series says all that is seen of a window that mirrors it. -/
theorem Mirrors.view_eq (h : Mirrors w s) (h' : Mirrors w' s) : w.view = w'.view := by
  have hbars : w.bars = w'.bars := by rw [h.bars, h'.bars]
  have hlast : w.lastTs = w'.lastTs := by rw [h.lastTs, h'.lastTs]
  have hcells : ∀ col, w.cursor.ordered (w.buffer col) = w'.cursor.ordered (w'.buffer col) := by
    intro col
    rw [h.cells, h'.cells, hbars]
  have hlatest : w.latest = w'.latest := congrArg List.getLast? hbars
  have hforming : w.formingBar = w'.formingBar := by
    rw [RollingWindow.formingBar, RollingWindow.formingBar, h.forming, h'.forming, hlast]
  have hlen : w.cursor.count = w'.cursor.count := by rw [h.count, h'.count, hbars]
  have hoffset : w.appliedCorporateOffset = w'.appliedCorporateOffset := by
    rw [h.offset, h'.offset]
  unfold RollingWindow.view RollingWindow.latestIncludingForming
  rw [hlatest, hforming]
  congr 1
  · exact hcells .opens
  · exact hcells .highs
  · exact hcells .lows
  · exact hcells .closes
  · exact hcells .volumes

variable [Zero α] [Add α] [LE α] [DecidableLE α] [LT α] [DecidableLT α]

theorem Mirrors.returned_eq (h : Mirrors w s) (h' : Mirrors w' s) (op : WindowOp τ α) :
    w.returned op = w'.returned op := by
  cases op with
  | append bar => exact congrArg Returned.taken ((h.append bar).1.trans (h'.append bar).1.symm)
  | upsertBar bar =>
    obtain ⟨v, hv, -⟩ := h.upsertBar bar
    obtain ⟨v', hv', -⟩ := h'.upsertBar bar
    rw [RollingWindow.returned, RollingWindow.returned, hv, hv']
    rfl
  | setForming bar =>
    exact congrArg Returned.taken ((h.setForming bar).1.trans (h'.setForming bar).1.symm)
  | applyCorporateActionOffset offset =>
    exact congrArg Returned.taken ((h.applyCorporateActionOffset offset).1.trans
      (h'.applyCorporateActionOffset offset).1.symm)
  | clear => rfl

/-- Two windows of one series: each call returns and shows the same, and leaves
them windows of one series. -/
theorem Mirrors.outputs_eq (ops : List (WindowOp τ α)) :
    ∀ {w w' : RollingWindow τ α n} {s : Series τ α}, Mirrors w s → Mirrors w' s →
      outputs RollingWindow.observe w ops = outputs RollingWindow.observe w' ops := by
  induction ops with
  | nil => exact fun _ _ => rfl
  | cons op rest ih =>
    intro w w' s h h'
    have hstep := mirrors_step h op
    have hstep' := mirrors_step h' op
    have hhead : (w.observe op).2 = (w'.observe op).2 :=
      Prod.ext (h.returned_eq h' op) (hstep.view_eq hstep')
    rw [outputs, outputs, hhead]
    exact congrArg _ (ih hstep hstep')

theorem Mirrors.indistinguishable (h : Mirrors w s) (h' : Mirrors w' s) :
    w.Indistinguishable w' :=
  ⟨h.view_eq h', fun ops => Mirrors.outputs_eq ops h h'⟩

/-- **A cleared window is a new one** exactly when no corporate action offset stands
applied to it, whatever calls it has been through. -/
theorem clear_indistinguishable_iff (hn : 0 < n) (ops : List (WindowOp τ α)) :
    let w := run RollingWindow.step (RollingWindow.new hn) ops
    w.clear.Indistinguishable (RollingWindow.new hn) ↔ w.corporateActionOffsetApplied = 0 := by
  intro w
  have h : Mirrors w (run Series.step Series.empty ops) := mirrors_run ops (mirrors_new hn)
  constructor
  · intro hsame
    exact congrArg RollingWindow.View.corporateActionOffsetApplied hsame.1
  · intro hzero
    have hempty : (run Series.step Series.empty ops).clear = (Series.empty : Series τ α) := by
      have hoffset := h.offset
      rw [show w.appliedCorporateOffset = 0 from hzero] at hoffset
      rw [Series.clear, ← hoffset]
      rfl
    have hclear := mirrors_clear h
    rw [hempty] at hclear
    exact hclear.indistinguishable (mirrors_new hn)

/-- A bar and a dividend. -/
def dividendOps : List (WindowOp Nat Nat) :=
  [.append (barAt 1 10), .applyCorporateActionOffset 5]

/-- The next dividend is refused after the clear, and not by a new window. -/
theorem clear_keeps_offset :
    let w := run RollingWindow.step (RollingWindow.new (n := 2) (by decide)) dividendOps
    ¬ w.clear.Indistinguishable (RollingWindow.new (by decide)) := by
  intro w h
  exact absurd (h.2 [.append (barAt 1 10), .applyCorporateActionOffset 3]) (by decide)

theorem clear_indistinguishable_bars :
    let w := run RollingWindow.step (RollingWindow.new (n := 2) (by decide))
      [.append (barAt 1 10), .upsertBar (barAt 2 20)]
    w.clear.Indistinguishable (RollingWindow.new (by decide)) :=
  (clear_indistinguishable_iff (n := 2) (by decide)
    [.append (barAt 1 10), .upsertBar (barAt 2 20)]).mpr (by decide)

end TradingPlatform.Core
