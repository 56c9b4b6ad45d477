import TradingPlatform.Models
import TradingPlatform.Lib.Ring
import TradingPlatform.Lib.Runs
import Mathlib.Algebra.GroupWithZero.Nat

/-! # The rolling window

A deque of closed bars, five ring buffers that share one cursor, and the
forming bar beside them. Nothing is assumed of prices but an addition and a
test against zero, so whatever rounding they carry is in both copies alike. -/

namespace TradingPlatform.Core

open TradingPlatform.Lib.Ring TradingPlatform.Lib.Runs

variable {τ α : Type} {n : Nat}

/-- `_head` and `_count` are the cursor; the label and the clock of the
rejection log are left out. -/
structure RollingWindow (τ α : Type) (n : Nat) where
  bars : List (Bar τ α)
  lastTs : Option τ
  cursor : Cursor n
  closes : Vector α n
  highs : Vector α n
  lows : Vector α n
  opens : Vector α n
  volumes : Vector α n
  appliedCorporateOffset : α
  forming : Option (Bar τ α)

/-- `replace(bar, open=bar.open + offset, ...)`. -/
def shiftBar [Add α] (offset : α) (bar : Bar τ α) : Bar τ α :=
  { bar with
    openPrice := bar.openPrice + offset
    high := bar.high + offset
    low := bar.low + offset
    close := bar.close + offset }

inductive UpsertOutcome
  | appended
  | updated
  | ignored
  deriving DecidableEq, Repr

namespace RollingWindow

def new [Zero α] (hn : 0 < n) : RollingWindow τ α n where
  bars := []
  lastTs := none
  cursor := .start hn
  closes := .replicate n 0
  highs := .replicate n 0
  lows := .replicate n 0
  opens := .replicate n 0
  volumes := .replicate n 0
  appliedCorporateOffset := 0
  forming := none

/-- `RollingWindow(maxlen)`, which raises on a length that is not positive. -/
def create [Zero α] (maxlen : Int) : Except String (Σ n, RollingWindow τ α n) :=
  if h : maxlen ≤ 0 then .error "maxlen must be positive"
  else .ok ⟨maxlen.toNat, new (by omega)⟩

def writeBarSlot (w : RollingWindow τ α n) (bar : Bar τ α) : RollingWindow τ α n :=
  { w with
    opens := w.opens.set w.cursor.head bar.openPrice w.cursor.head_lt
    highs := w.highs.set w.cursor.head bar.high w.cursor.head_lt
    lows := w.lows.set w.cursor.head bar.low w.cursor.head_lt
    closes := w.closes.set w.cursor.head bar.close w.cursor.head_lt
    volumes := w.volumes.set w.cursor.head bar.volume w.cursor.head_lt
    cursor := w.cursor.advance }

/-- `self._bars.append(bar)` and the timestamp that goes with it. -/
def appendBar (w : RollingWindow τ α n) (bar : Bar τ α) : RollingWindow τ α n :=
  { w with bars := appendBounded n w.bars bar, lastTs := some bar.timestamp }

def rewriteLatest (w : RollingWindow τ α n) (bar : Bar τ α) : RollingWindow τ α n :=
  if w.cursor.count = 0 then w
  else
    { w with
      opens := w.opens.set w.cursor.latest bar.openPrice w.cursor.latest_lt
      highs := w.highs.set w.cursor.latest bar.high w.cursor.latest_lt
      lows := w.lows.set w.cursor.latest bar.low w.cursor.latest_lt
      closes := w.closes.set w.cursor.latest bar.close w.cursor.latest_lt
      volumes := w.volumes.set w.cursor.latest bar.volume w.cursor.latest_lt
      bars := w.bars.dropLast ++ [bar]
      lastTs := some bar.timestamp }

section Ingest
variable [LinearOrder τ]

def append (w : RollingWindow τ α n) (bar : Bar τ α) : Bool × RollingWindow τ α n :=
  if w.lastTs.any (bar.timestamp ≤ ·) then (false, w)
  else (true, (w.writeBarSlot bar).appendBar bar)

/-- `none` where `self._bars[-1]` would raise. -/
def upsertBar (w : RollingWindow τ α n) (bar : Bar τ α) :
    Option (UpsertOutcome × RollingWindow τ α n) :=
  if w.cursor.count = 0 then some (.appended, (w.writeBarSlot bar).appendBar bar)
  else
    w.bars.getLast?.map fun latest =>
      if bar.timestamp = latest.timestamp then (.updated, w.rewriteLatest bar)
      else if latest.timestamp < bar.timestamp then
        let (ok, w') := w.append bar
        (if ok then .appended else .ignored, w')
      else (.ignored, w)

/-- Whether the bar was set, and the window after. -/
def setForming (w : RollingWindow τ α n) (bar : Bar τ α) : Bool × RollingWindow τ α n :=
  if w.lastTs.any (bar.timestamp ≤ ·) then (false, w)
  else if w.forming.any (bar.timestamp < ·.timestamp) then (false, w)
  else (true, { w with forming := some bar })

def formingBar (w : RollingWindow τ α n) : Option (Bar τ α) :=
  w.forming.filter fun bar => !w.lastTs.any (bar.timestamp ≤ ·)

end Ingest

section Offset
variable [Zero α] [Add α] [LE α] [DecidableLE α] [LT α] [DecidableLT α]

def applyCorporateActionOffset (w : RollingWindow τ α n) (offset : α) : Bool × RollingWindow τ α n :=
  if offset ≤ 0 ∨ w.cursor.count = 0 ∨ 0 < w.appliedCorporateOffset then (false, w)
  else
    (true,
      { w with
        appliedCorporateOffset := offset
        opens := w.cursor.mapActive (· + offset) w.opens
        highs := w.cursor.mapActive (· + offset) w.highs
        lows := w.cursor.mapActive (· + offset) w.lows
        closes := w.cursor.mapActive (· + offset) w.closes
        bars := w.bars.map (shiftBar offset) })

end Offset

def clear (w : RollingWindow τ α n) : RollingWindow τ α n :=
  { w with bars := [], lastTs := none, cursor := .start w.cursor.pos, forming := none }

def len (w : RollingWindow τ α n) : Nat := w.cursor.count

def chronologicalBars (w : RollingWindow τ α n) : List (Bar τ α) := w.bars

/-- The last closed bar, never the forming one. -/
def latest (w : RollingWindow τ α n) : Option (Bar τ α) := w.bars.getLast?

def lastTimestamp (w : RollingWindow τ α n) : Option τ := w.lastTs

def closesArray (w : RollingWindow τ α n) : List α := w.cursor.ordered w.closes

def highsArray (w : RollingWindow τ α n) : List α := w.cursor.ordered w.highs

def lowsArray (w : RollingWindow τ α n) : List α := w.cursor.ordered w.lows

def opensArray (w : RollingWindow τ α n) : List α := w.cursor.ordered w.opens

def volumesArray (w : RollingWindow τ α n) : List α := w.cursor.ordered w.volumes

def isReady (w : RollingWindow τ α n) (minBars : ℤ) : Bool := minBars ≤ w.cursor.count

/-- A slice from `-period`, which counts from the front when the period is not positive. -/
def tailCloses (w : RollingWindow τ α n) (period : ℤ) : List α :=
  let full := w.closesArray
  if (full.length : ℤ) ≤ period then full
  else if period ≤ 0 then full.drop (-period).toNat
  else full.drop (full.length - period.toNat)

end RollingWindow

/-! ## The window as an unbounded series -/

/-- Every bar taken in since the last `clear`, with the forming bar beside them. -/
structure Series (τ α : Type) where
  accepted : List (Bar τ α)
  offset : α
  forming : Option (Bar τ α)

namespace Series

def empty [Zero α] : Series τ α := ⟨[], 0, none⟩

def lastTs (s : Series τ α) : Option τ := s.accepted.getLast?.map (·.timestamp)

def accept (s : Series τ α) (bar : Bar τ α) : Series τ α :=
  { s with accepted := s.accepted ++ [bar] }

def applyCorporateActionOffset [Zero α] [Add α] [LE α] [DecidableLE α] [LT α] [DecidableLT α]
    (s : Series τ α) (offset : α) : Bool × Series τ α :=
  if offset ≤ 0 ∨ s.accepted.length = 0 ∨ 0 < s.offset then (false, s)
  else (true, { s with accepted := s.accepted.map (shiftBar offset), offset })

def clear (s : Series τ α) : Series τ α := { s with accepted := [], forming := none }

variable [LinearOrder τ]

def append (s : Series τ α) (bar : Bar τ α) : Bool × Series τ α :=
  if s.lastTs.any (bar.timestamp ≤ ·) then (false, s) else (true, s.accept bar)

def upsertBar (s : Series τ α) (bar : Bar τ α) : UpsertOutcome × Series τ α :=
  match s.accepted.getLast? with
  | none => (.appended, s.accept bar)
  | some latest =>
    if bar.timestamp = latest.timestamp then
      (.updated, { s with accepted := s.accepted.dropLast ++ [bar] })
    else if latest.timestamp < bar.timestamp then (.appended, s.accept bar)
    else (.ignored, s)

def setForming (s : Series τ α) (bar : Bar τ α) : Bool × Series τ α :=
  if s.lastTs.any (bar.timestamp ≤ ·) then (false, s)
  else if s.forming.any (bar.timestamp < ·.timestamp) then (false, s)
  else (true, { s with forming := some bar })

/-- Only a bar before the last one is ignored. -/
theorem upsertBar_ignored {s : Series τ α} {bar : Bar τ α} :
    (s.upsertBar bar).1 = .ignored ↔
      ∃ latest ∈ s.accepted.getLast?, bar.timestamp < latest.timestamp := by
  unfold upsertBar
  cases s.accepted.getLast? with
  | none => simp
  | some latest =>
    simp only [Option.mem_some_iff, exists_eq_left']
    by_cases heq : bar.timestamp = latest.timestamp
    · simp [heq]
    · by_cases hlt : latest.timestamp < bar.timestamp
      · simp [heq, hlt, hlt.le]
      · simp [heq, hlt, lt_of_le_of_ne (not_lt.1 hlt) heq]

/-- A bar that is not ignored is the last one afterwards. -/
theorem getLast?_upsertBar (s : Series τ α) (bar : Bar τ α) :
    (s.upsertBar bar).2.accepted.getLast? =
      if (s.upsertBar bar).1 = .ignored then s.accepted.getLast? else some bar := by
  unfold upsertBar
  cases hlast : s.accepted.getLast? with
  | none => simp [accept]
  | some latest =>
    by_cases heq : bar.timestamp = latest.timestamp
    · simp [heq]
    · by_cases hlt : latest.timestamp < bar.timestamp
      · simp [heq, hlt, accept]
      · simp [heq, hlt, hlast]

/-- An upsert takes in the offered bar and nothing else. -/
theorem mem_upsertBar {s : Series τ α} {bar b : Bar τ α} (h : b ∈ (s.upsertBar bar).2.accepted) :
    b ∈ s.accepted ∨ b = bar ∧ (s.upsertBar bar).1 ≠ .ignored := by
  unfold upsertBar at h ⊢
  cases hlast : s.accepted.getLast? with
  | none => simpa [hlast, accept] using h
  | some latest =>
    rw [hlast] at h
    dsimp only at h ⊢
    split at h
    · rename_i heq
      rw [if_pos heq]
      rcases List.mem_append.1 h with h | h
      · exact .inl (List.mem_of_mem_dropLast h)
      · exact .inr ⟨List.mem_singleton.1 h, by simp⟩
    · rename_i hne
      rw [if_neg hne]
      split at h
      · rename_i hlt
        rw [if_pos hlt]
        simpa [accept] using h
      · exact .inl h

end Series

/-! ## The representation invariant -/

inductive Column
  | opens
  | highs
  | lows
  | closes
  | volumes
  deriving DecidableEq, Repr

/-- The field of a bar that a ring buffer holds. -/
def Column.read : Column → Bar τ α → α
  | .opens => (·.openPrice)
  | .highs => (·.high)
  | .lows => (·.low)
  | .closes => (·.close)
  | .volumes => (·.volume)

def RollingWindow.buffer (w : RollingWindow τ α n) : Column → Vector α n
  | .opens => w.opens
  | .highs => w.highs
  | .lows => w.lows
  | .closes => w.closes
  | .volumes => w.volumes

/-- The window holds the last `n` bars of the series, in the deque and in every
ring buffer. -/
structure Mirrors [LinearOrder τ] (w : RollingWindow τ α n) (s : Series τ α) : Prop where
  bars : w.bars = lastN n s.accepted
  lastTs : w.lastTs = s.lastTs
  cells : ∀ col, w.cursor.ordered (w.buffer col) = w.bars.map col.read
  offset : w.appliedCorporateOffset = s.offset
  forming : w.forming = s.forming
  increasing : s.accepted.Pairwise (·.timestamp < ·.timestamp)

variable [LinearOrder τ] {w : RollingWindow τ α n} {s : Series τ α}

theorem Mirrors.count (h : Mirrors w s) : w.cursor.count = w.bars.length := by
  have hlen := congrArg List.length (h.cells .closes)
  rwa [Cursor.ordered_length, List.length_map] at hlen

theorem Mirrors.isReady (h : Mirrors w s) {minBars : ℤ} (hn : minBars ≤ n) :
    w.isReady minBars = true ↔ minBars ≤ s.accepted.length := by
  rw [RollingWindow.isReady, decide_eq_true_eq, h.count, h.bars, length_lastN]
  omega

theorem Mirrors.latest (h : Mirrors w s) : w.latest = s.accepted.getLast? := by
  rw [RollingWindow.latest, h.bars, getLast?_lastN w.cursor.pos]

/-- A period that fits the window reads the end of the series. -/
theorem Mirrors.tailCloses (h : Mirrors w s) {period : ℤ} (hpos : 0 < period) (hn : period ≤ n) :
    w.tailCloses period = (lastN period.toNat s.accepted).map (·.close) := by
  have hcloses : w.closesArray = (lastN n s.accepted).map (·.close) := by
    rw [← h.bars]
    exact h.cells .closes
  have hlen : w.closesArray.length = min s.accepted.length n := by
    rw [hcloses, List.length_map, length_lastN]
  unfold RollingWindow.tailCloses
  dsimp only
  rw [if_neg (by omega : ¬ period ≤ 0), hlen, hcloses, map_lastN, map_lastN]
  split
  · -- the whole window is read
    simp only [lastN, List.length_map]
    congr 1
    omega
  · simp only [lastN, List.length_map, List.drop_drop]
    congr 1
    omega

/-- The deque is empty exactly when nothing was taken in. -/
theorem Mirrors.count_eq_zero (h : Mirrors w s) : w.cursor.count = 0 ↔ s.accepted.length = 0 := by
  have hn := w.cursor.pos
  rw [h.count, h.bars, length_lastN]
  omega

theorem mirrors_new [Zero α] (hn : 0 < n) :
    Mirrors (RollingWindow.new hn : RollingWindow τ α n) Series.empty where
  bars := by simp [RollingWindow.new, Series.empty, lastN]
  lastTs := rfl
  cells := fun _ => Cursor.ordered_eq_nil rfl _
  offset := rfl
  forming := rfl
  increasing := .nil

theorem mirrors_clear (h : Mirrors w s) : Mirrors w.clear s.clear where
  bars := by simp [RollingWindow.clear, Series.clear, lastN]
  lastTs := rfl
  cells := fun _ => Cursor.ordered_eq_nil rfl _
  offset := h.offset
  forming := rfl
  increasing := .nil

omit [LinearOrder τ] in
theorem Series.last_eq {ys : List (Bar τ α)} {latest : Bar τ α}
    (hs : s.accepted = ys ++ [latest]) : s.lastTs = some latest.timestamp := by
  simp [Series.lastTs, hs]

theorem Mirrors.earlier (h : Mirrors w s) {t : τ} (hlate : ¬ s.lastTs.any (t ≤ ·) = true) :
    ∀ b ∈ s.accepted, b.timestamp < t := by
  intro b hb
  rcases List.eq_nil_or_concat' s.accepted with hnil | ⟨ys, latest, hs⟩
  · rw [hnil] at hb
    cases hb
  have hlt : latest.timestamp < t := by simpa [Series.last_eq hs] using hlate
  have hinc := h.increasing
  rw [hs] at hb hinc
  rcases List.mem_append.mp hb with hy | hlast
  · exact ((List.pairwise_append.mp hinc).2.2 b hy latest List.mem_cons_self).trans hlt
  · rw [List.mem_singleton.mp hlast]
    exact hlt

/-- A bar later than the last one goes to the end of both. -/
theorem Mirrors.accept (h : Mirrors w s) {bar : Bar τ α}
    (hlate : ¬ s.lastTs.any (bar.timestamp ≤ ·) = true) :
    Mirrors ((w.writeBarSlot bar).appendBar bar) (s.accept bar) where
  bars := by
    show appendBounded n w.bars bar = lastN n (s.accepted ++ [bar])
    rw [h.bars, appendBounded_lastN]
  lastTs := by simp [RollingWindow.appendBar, Series.lastTs, Series.accept]
  cells := by
    intro col
    have hpush := w.cursor.ordered_push (w.buffer col) (col.read bar)
    rw [h.cells col, ← map_appendBounded] at hpush
    cases col <;> exact hpush
  offset := h.offset
  forming := h.forming
  increasing := by
    refine List.pairwise_append.mpr ⟨h.increasing, List.pairwise_singleton _ _, ?_⟩
    intro b hb b' hb'
    rw [List.mem_singleton.mp hb']
    exact h.earlier hlate b hb

theorem Mirrors.append (h : Mirrors w s) (bar : Bar τ α) :
    (w.append bar).1 = (s.append bar).1 ∧ Mirrors (w.append bar).2 (s.append bar).2 := by
  unfold RollingWindow.append Series.append
  rw [h.lastTs]
  split
  · exact ⟨rfl, h⟩
  · rename_i hlate
    exact ⟨rfl, h.accept hlate⟩

/-- A bar at the last timestamp revises the last element of both. -/
theorem Mirrors.revise (h : Mirrors w s) {ys : List (Bar τ α)} {latest bar : Bar τ α}
    (hs : s.accepted = ys ++ [latest]) (hts : bar.timestamp = latest.timestamp) :
    Mirrors (w.rewriteLatest bar) { s with accepted := s.accepted.dropLast ++ [bar] } := by
  have hcount : ¬ w.cursor.count = 0 := by
    rw [h.count_eq_zero, hs]
    simp
  have hdrop : s.accepted.dropLast = ys := by rw [hs, List.dropLast_concat]
  unfold RollingWindow.rewriteLatest
  rw [if_neg hcount]
  refine ⟨?_, ?_, fun col => ?_, h.offset, h.forming, ?_⟩
  · show w.bars.dropLast ++ [bar] = _
    rw [h.bars, dropLast_lastN w.cursor.pos]
  · simp [Series.lastTs]
  · have hrewrite := w.cursor.ordered_rewrite (by omega) (w.buffer col) (col.read bar)
    rw [h.cells col, ← List.map_dropLast] at hrewrite
    show w.cursor.ordered _ = (w.bars.dropLast ++ [bar]).map col.read
    rw [List.map_append, List.map_singleton]
    cases col <;> exact hrewrite
  · have hinc := h.increasing
    rw [hs] at hinc
    obtain ⟨hys, -, hlt⟩ := List.pairwise_append.mp hinc
    show (s.accepted.dropLast ++ [bar]).Pairwise _
    rw [hdrop]
    refine List.pairwise_append.mpr ⟨hys, List.pairwise_singleton _ _, ?_⟩
    intro b hb b' hb'
    rw [List.mem_singleton.mp hb', hts]
    exact hlt b hb latest List.mem_cons_self

/-- An upsert never reads an empty deque, and does to the window what it does to
the series. -/
theorem Mirrors.upsertBar (h : Mirrors w s) (bar : Bar τ α) :
    ∃ w', w.upsertBar bar = some ((s.upsertBar bar).1, w') ∧ Mirrors w' (s.upsertBar bar).2 := by
  unfold RollingWindow.upsertBar Series.upsertBar
  rcases List.eq_nil_or_concat' s.accepted with hnil | ⟨ys, latest, hs⟩
  · have hcount : w.cursor.count = 0 := h.count_eq_zero.mpr (by rw [hnil]; rfl)
    have hlate : ¬ s.lastTs.any (bar.timestamp ≤ ·) = true := by simp [Series.lastTs, hnil]
    rw [if_pos hcount, hnil]
    exact ⟨_, rfl, h.accept hlate⟩
  · have hcount : ¬ w.cursor.count = 0 := by
      rw [h.count_eq_zero, hs]
      simp
    have hlast : s.accepted.getLast? = some latest := by rw [hs, List.getLast?_concat]
    have hwlast : w.bars.getLast? = some latest := by
      rw [h.bars, getLast?_lastN w.cursor.pos, hlast]
    rw [if_neg hcount, hwlast, hlast, Option.map_some]
    dsimp only
    by_cases heq : bar.timestamp = latest.timestamp
    · rw [if_pos heq, if_pos heq]
      exact ⟨_, rfl, h.revise hs heq⟩
    rw [if_neg heq, if_neg heq]
    by_cases hlt : latest.timestamp < bar.timestamp
    · have hlate : ¬ s.lastTs.any (bar.timestamp ≤ ·) = true := by
        simpa [Series.last_eq hs] using hlt
      rw [if_pos hlt, if_pos hlt, RollingWindow.append, h.lastTs, if_neg hlate]
      exact ⟨_, rfl, h.accept hlate⟩
    · rw [if_neg hlt, if_neg hlt]
      exact ⟨w, rfl, h⟩

theorem Mirrors.setForming (h : Mirrors w s) (bar : Bar τ α) :
    (w.setForming bar).1 = (s.setForming bar).1 ∧
      Mirrors (w.setForming bar).2 (s.setForming bar).2 := by
  have hset : Mirrors { w with forming := some bar } { s with forming := some bar } :=
    ⟨h.bars, h.lastTs, h.cells, h.offset, rfl, h.increasing⟩
  unfold RollingWindow.setForming Series.setForming
  simp only [h.lastTs, h.forming]
  split
  · exact ⟨rfl, h⟩
  split
  · exact ⟨rfl, h⟩
  · simpa only [h.lastTs, true_and] using hset

/-- The forming bar, when there is one, is later than every closed bar. -/
theorem RollingWindow.formingBar_later (w : RollingWindow τ α n) :
    ∀ bar ∈ w.formingBar, ∀ t ∈ w.lastTimestamp, t < bar.timestamp := by
  intro bar hbar t ht
  obtain ⟨-, hlate⟩ := Option.filter_eq_some_iff.mp (Option.mem_def.mp hbar)
  have hlast : w.lastTs = some t := ht
  simpa [hlast] using hlate

section Offset
variable [Zero α] [Add α] [LE α] [DecidableLE α] [LT α] [DecidableLT α]

theorem Mirrors.applyCorporateActionOffset (h : Mirrors w s) (offset : α) :
    (w.applyCorporateActionOffset offset).1 = (s.applyCorporateActionOffset offset).1 ∧
      Mirrors (w.applyCorporateActionOffset offset).2 (s.applyCorporateActionOffset offset).2 := by
  have hguard : (offset ≤ 0 ∨ w.cursor.count = 0 ∨ 0 < w.appliedCorporateOffset) ↔
      (offset ≤ 0 ∨ s.accepted.length = 0 ∨ 0 < s.offset) := by rw [h.count_eq_zero, h.offset]
  unfold RollingWindow.applyCorporateActionOffset Series.applyCorporateActionOffset
  by_cases hstays : offset ≤ 0 ∨ s.accepted.length = 0 ∨ 0 < s.offset
  · rw [if_pos (hguard.mpr hstays), if_pos hstays]
    exact ⟨rfl, h⟩
  rw [if_neg (mt hguard.mp hstays), if_neg hstays]
  refine ⟨rfl, ?_, ?_, fun col => ?_, rfl, h.forming, ?_⟩
  · show w.bars.map (shiftBar offset) = lastN n (s.accepted.map (shiftBar offset))
    rw [h.bars, map_lastN]
  · show w.lastTs = (s.accepted.map (shiftBar offset)).getLast?.map (·.timestamp)
    rw [h.lastTs, Series.lastTs, List.getLast?_map, Option.map_map]
    rfl
  · show w.cursor.ordered _ = (w.bars.map (shiftBar offset)).map col.read
    have hcells := h.cells col
    have hshift := w.cursor.ordered_mapActive (· + offset) (w.buffer col)
    rw [hcells] at hshift
    rw [List.map_map] at hshift ⊢
    cases col with
    | volumes => exact hcells
    | _ => exact hshift
  · show (s.accepted.map (shiftBar offset)).Pairwise fun a b => a.timestamp < b.timestamp
    rw [List.pairwise_map]
    exact h.increasing

/-! ## Runs -/

inductive WindowOp (τ α : Type)
  | append (bar : Bar τ α)
  | upsertBar (bar : Bar τ α)
  | setForming (bar : Bar τ α)
  | applyCorporateActionOffset (offset : α)
  | clear
  deriving DecidableEq

def RollingWindow.step (w : RollingWindow τ α n) : WindowOp τ α → RollingWindow τ α n
  | .append bar => (w.append bar).2
  | .upsertBar bar => (w.upsertBar bar).elim w (·.2)
  | .setForming bar => (w.setForming bar).2
  | .applyCorporateActionOffset offset => (w.applyCorporateActionOffset offset).2
  | .clear => w.clear

def Series.step (s : Series τ α) : WindowOp τ α → Series τ α
  | .append bar => (s.append bar).2
  | .upsertBar bar => (s.upsertBar bar).2
  | .setForming bar => (s.setForming bar).2
  | .applyCorporateActionOffset offset => (s.applyCorporateActionOffset offset).2
  | .clear => s.clear

theorem mirrors_step (h : Mirrors w s) (op : WindowOp τ α) : Mirrors (w.step op) (s.step op) := by
  cases op with
  | append bar => exact (h.append bar).2
  | upsertBar bar =>
    obtain ⟨w', hw', hmirrors⟩ := h.upsertBar bar
    rw [RollingWindow.step, hw']
    exact hmirrors
  | setForming bar => exact (h.setForming bar).2
  | applyCorporateActionOffset offset => exact (h.applyCorporateActionOffset offset).2
  | clear => exact mirrors_clear h

theorem mirrors_run (ops : List (WindowOp τ α)) :
    ∀ {w : RollingWindow τ α n} {s : Series τ α}, Mirrors w s →
      Mirrors (run RollingWindow.step w ops) (run Series.step s ops) := by
  induction ops with
  | nil => exact fun h => h
  | cons op rest ih => exact fun h => ih (mirrors_step h op)

/-- **The window after any run** is the last `n` bars of the series it took in,
in increasing time, and every array reads them in order. No upsert reads an
empty deque. -/
theorem window_holds_latest (hn : 0 < n) (ops : List (WindowOp τ α)) :
    let w := run RollingWindow.step (RollingWindow.new hn) ops
    w.chronologicalBars = lastN n (run Series.step Series.empty ops).accepted ∧
    w.chronologicalBars.length ≤ n ∧
    w.chronologicalBars.Pairwise (·.timestamp < ·.timestamp) ∧
    w.len = w.chronologicalBars.length ∧
    w.closesArray = w.chronologicalBars.map (·.close) ∧
    w.highsArray = w.chronologicalBars.map (·.high) ∧
    w.lowsArray = w.chronologicalBars.map (·.low) ∧
    w.opensArray = w.chronologicalBars.map (·.openPrice) ∧
    w.volumesArray = w.chronologicalBars.map (·.volume) ∧
    (∀ bar ∈ w.formingBar, ∀ t ∈ w.lastTimestamp, t < bar.timestamp) ∧
    ∀ bar, (w.upsertBar bar).isSome = true := by
  intro w
  have h : Mirrors w (run Series.step Series.empty ops) := mirrors_run ops (mirrors_new hn)
  refine ⟨h.bars, ?_, ?_, h.count, h.cells .closes, h.cells .highs, h.cells .lows, h.cells .opens,
    h.cells .volumes, w.formingBar_later, fun bar => ?_⟩
  · rw [RollingWindow.chronologicalBars, h.bars, length_lastN]
    exact Nat.min_le_right ..
  · rw [RollingWindow.chronologicalBars, h.bars]
    exact h.increasing.sublist (List.drop_sublist ..)
  · obtain ⟨w', hw', -⟩ := h.upsertBar bar
    rw [hw']
    rfl

end Offset

def barAt (t close : Nat) : Bar Nat Nat :=
  { timestamp := t, openPrice := close, high := close, low := close, close := close, volume := 1 }

/-- Three bars into a window of two, the last of them revised, a dividend after. -/
def wrappedOps : List (WindowOp Nat Nat) :=
  [.append (barAt 1 10), .append (barAt 2 20), .append (barAt 3 30), .upsertBar (barAt 3 31),
    .applyCorporateActionOffset 5, .setForming (barAt 4 40)]

theorem wrapped_window_holds_latest :
    (run RollingWindow.step (RollingWindow.new (n := 2) (by decide)) wrappedOps).closesArray =
        [25, 36] ∧
      (run RollingWindow.step (RollingWindow.new (n := 2) (by decide)) wrappedOps).len = 2 := by
  have h := window_holds_latest (n := 2) (by decide) wrappedOps
  have hbars : lastN 2 (run Series.step Series.empty wrappedOps).accepted =
      [shiftBar 5 (barAt 2 20), shiftBar 5 (barAt 3 31)] := by decide
  obtain ⟨hlast, -, -, hlen, hcloses, -⟩ := h
  rw [hbars] at hlast
  rw [hcloses, hlen, hlast]
  exact ⟨rfl, rfl⟩

end TradingPlatform.Core
