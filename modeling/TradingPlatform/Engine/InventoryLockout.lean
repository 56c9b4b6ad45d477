import TradingPlatform.Engine.PortfolioCoordinator

/-! # The inventory lockout

What the inventory verdict locks, and what is left of a cycle's entries. A side
over its cap is locked on the symbols that it holds over days, and on no other. -/

namespace TradingPlatform.Engine.Portfolio

open TradingPlatform.Lib

/-! ## What a verdict locks -/

theorem mem_lockEntries {symbol : String} {side : PositionSide} {locks : List (String × PositionSide)}
    {blocked : Dict String (List PositionSide)} :
    side ∈ ((locks.foldl lockEntry blocked).get? symbol).getD [] ↔
      side ∈ (blocked.get? symbol).getD [] ∨ (symbol, side) ∈ locks := by
  induction locks generalizing blocked with
  | nil => simp
  | cons lock locks ih =>
    rw [List.foldl_cons, ih, lockEntry, Dict.get?_set, List.mem_cons]
    obtain ⟨lockedSymbol, lockedSide⟩ := lock
    by_cases hsymbol : symbol = lockedSymbol
    · subst hsymbol
      simp only [if_true, Option.getD_some, List.mem_insert_iff, Prod.mk.injEq, true_and]
      tauto
    · simp [hsymbol]

theorem get?_addTo_fold {α : Type} (key : α → String) (amount : α → ℚ) {rows : List α}
    {d : Dict String ℚ} {symbol : String} :
    ((rows.foldl (fun d row => addTo d (key row) (amount row)) d).get? symbol).getD 0 =
      (d.get? symbol).getD 0 + ((rows.filter (key · = symbol)).map amount).sum := by
  induction rows generalizing d with
  | nil => simp
  | cons row rows ih =>
    rw [List.foldl_cons, ih, addTo, Dict.get?_set, List.filter_cons]
    by_cases hkey : symbol = key row
    · subst hkey
      simp [add_assoc]
    · simp [hkey, Ne.symm hkey]

theorem mem_capLocks {side side' : PositionSide} {bySymbol : Dict String ℚ} {symbol : String} :
    (symbol, side') ∈ capLocks side bySymbol ↔
      side' = side ∧ 0 < (bySymbol.get? symbol).getD 0 := by
  simp only [capLocks, List.mem_map, List.mem_filter, Prod.exists, Prod.mk.injEq,
    ← Dict.get?_eq_some, decide_eq_true_eq]
  constructor
  · intro h
    obtain ⟨_, n, ⟨hget, hpos⟩, rfl, rfl⟩ := h
    rw [hget]
    exact ⟨rfl, hpos⟩
  · intro h
    obtain ⟨rfl, hpos⟩ := h
    cases hget : bySymbol.get? symbol with
    | none =>
      rw [hget] at hpos
      exact absurd hpos (lt_irrefl _)
    | some n =>
      rw [hget] at hpos
      exact ⟨symbol, n, ⟨hget, hpos⟩, rfl, rfl⟩

section Verdict
variable (brain : PortfolioBrain) (upper : String → String)
  (manifest : List ActivePositionManifest) (equity : ℚ)

/-- A side is held over days on the symbol. -/
def CarriedOn (side : PositionSide) (symbol : String) : Prop :=
  ∃ row ∈ multidayPositions manifest, row.side = side ∧ upper row.symbol = upper symbol

def InventoryBreach.ofSide : PositionSide → InventoryBreach
  | .long => .multidayLongExposureCap
  | .short => .multidayShortExposureCap

variable {brain upper manifest equity}

theorem ofSide_mem_breachCodes {side : PositionSide} :
    .ofSide side ∈ (brain.checkInventoryPathDependency upper manifest equity).breachCodes ↔
      brain.overCap equity side (multidayPositions manifest) = true := by
  simp only [PortfolioBrain.checkInventoryPathDependency]
  cases side <;> simp [InventoryBreach.ofSide]

theorem multidayBySymbol_pos {side : PositionSide} {symbol : String} :
    0 < ((multidayBySymbol upper side (multidayPositions manifest)).get? (upper symbol)).getD 0 ↔
      CarriedOn upper manifest side symbol := by
  have hnotional : ∀ row ∈ multidayPositions manifest, 0 < |row.notional| := by
    intro row hrow
    have hpos := (of_decide_eq_true (List.mem_filter.mp hrow).2).1
    exact abs_pos.mpr hpos.ne'
  rw [multidayBySymbol, get?_addTo_fold, List.filter_filter]
  simp only [Dict.get?_empty, Option.getD_none, zero_add]
  constructor
  · intro hpos
    have hne : (multidayPositions manifest).filter (fun row =>
        decide (upper row.symbol = upper symbol) && decide (row.side = side)) ≠ [] := by
      intro hnil
      rw [hnil] at hpos
      exact lt_irrefl _ hpos
    obtain ⟨row, hrow⟩ := List.exists_mem_of_ne_nil _ hne
    obtain ⟨hin, hrow⟩ := List.mem_filter.mp hrow
    rw [Bool.and_eq_true, decide_eq_true_eq, decide_eq_true_eq] at hrow
    exact ⟨row, hin, hrow.2, hrow.1⟩
  · intro h
    obtain ⟨row, hin, hside, hsymbol⟩ := h
    refine lt_of_lt_of_le (hnotional row hin) (List.single_le_sum ?_ _ ?_)
    · intro n hn
      obtain ⟨row', -, rfl⟩ := List.mem_map.mp hn
      exact abs_nonneg _
    · exact List.mem_map.mpr ⟨row, List.mem_filter.mpr ⟨hin, by simp [hside, hsymbol]⟩, rfl⟩

/-- The locks of one side's cap. -/
theorem mem_breachLocks {side side' : PositionSide} {symbol : String} :
    (upper symbol, side) ∈ (if brain.overCap equity side' (multidayPositions manifest) then
        capLocks side' (multidayBySymbol upper side' (multidayPositions manifest)) else []) ↔
      side = side' ∧ CarriedOn upper manifest side symbol ∧
        brain.overCap equity side (multidayPositions manifest) = true := by
  split
  · rename_i hover
    rw [mem_capLocks, multidayBySymbol_pos]
    constructor
    · intro h
      obtain ⟨rfl, hcarried⟩ := h
      exact ⟨rfl, hcarried, hover⟩
    · intro h
      obtain ⟨rfl, hcarried, -⟩ := h
      exact ⟨rfl, hcarried⟩
  · rename_i hover
    refine iff_of_false List.not_mem_nil ?_
    intro h
    obtain ⟨rfl, -, h⟩ := h
    exact hover h

/-- The locks of what has been carried too long. -/
theorem mem_targetLocks {side : PositionSide} {symbol : String} :
    (upper symbol, side) ∈ (brain.forceLiquidationTargets upper
        (multidayPositions manifest)).map (fun target => (target.symbol, target.side)) ↔
      ∃ row ∈ multidayPositions manifest, row.side = side ∧ upper row.symbol = upper symbol ∧
        brain.maxMultidayHoldingCalendarDays ≤ row.calendarDaysHeld := by
  simp only [PortfolioBrain.forceLiquidationTargets, List.map_map, List.mem_map, List.mem_filter,
    Function.comp_apply, Prod.mk.injEq, decide_eq_true_eq]
  constructor
  · intro h
    obtain ⟨row, ⟨hin, hage⟩, hsymbol, hside⟩ := h
    exact ⟨row, hin, hside, hsymbol, hage⟩
  · intro h
    obtain ⟨row, hin, hside, hsymbol, hage⟩ := h
    exact ⟨row, ⟨hin, hage⟩, hsymbol, hside⟩

/-- **What is locked**: a side over its cap on each symbol that carries it, and
what has been carried too long. -/
theorem isEntryLocked_iff {side : PositionSide} {symbol : String} :
    (brain.checkInventoryPathDependency upper manifest equity).isEntryLocked upper symbol side =
        true ↔
      CarriedOn upper manifest side symbol ∧
        (brain.overCap equity side (multidayPositions manifest) = true ∨
          ∃ row ∈ multidayPositions manifest, row.side = side ∧ upper row.symbol = upper symbol ∧
            brain.maxMultidayHoldingCalendarDays ≤ row.calendarDaysHeld) := by
  rw [InventoryPathDependencyVerdict.isEntryLocked, decide_eq_true_eq,
    PortfolioBrain.checkInventoryPathDependency]
  dsimp only
  rw [mem_lockEntries, List.mem_append, List.mem_append, mem_breachLocks, mem_breachLocks,
    mem_targetLocks]
  simp only [Dict.get?_empty, Option.getD_none, List.not_mem_nil, false_or]
  constructor
  · intro h
    rcases h with (⟨-, hcarried, hover⟩ | ⟨-, hcarried, hover⟩) | ⟨row, hin, hside, hsymbol, hage⟩
    · exact ⟨hcarried, .inl hover⟩
    · exact ⟨hcarried, .inl hover⟩
    · exact ⟨⟨row, hin, hside, hsymbol⟩, .inr ⟨row, hin, hside, hsymbol, hage⟩⟩
  · intro h
    obtain ⟨hcarried, hover | haged⟩ := h
    · cases side with
      | long => exact .inl (.inl ⟨rfl, hcarried, hover⟩)
      | short => exact .inl (.inr ⟨rfl, hcarried, hover⟩)
    · exact .inr haged

end Verdict

/-! ## What is left of the entries -/

section Entries
variable {env : CycleEnv} {activeSignals : Dict String (Option Signal)}

theorem mem_lockouts_iff {brain : PortfolioBrain} {manifest : List ActivePositionManifest}
    {equity : ℚ} {e : Entry} :
    let verdict := brain.checkInventoryPathDependency env.upper manifest equity
    e ∈ entriesOf (applyInventoryEntryLockouts env activeSignals verdict).1 ↔
      e ∈ entriesOf activeSignals ∧ Entry.lockedBy env verdict e = false := by
  dsimp only
  constructor
  · intro he
    obtain ⟨hin, hunlocked⟩ := mem_lockouts he
    refine ⟨hin, ?_⟩
    by_contra hlocked
    exact hlocked (hunlocked (hasDirective_of_locked (Bool.not_eq_false _ ▸ hlocked)))
  · intro h
    obtain ⟨hin, hunlocked⟩ := h
    unfold applyInventoryEntryLockouts
    split
    · exact hin
    obtain ⟨hget, haction⟩ := mem_entriesOf.mp hin
    refine mem_entriesOf.mpr ⟨?_, haction⟩
    rw [Dict.get?_setAll]
    cases htab : (Dict.tabulate Entry.strategyId (fun _ => (none : Option Signal))
        ((entriesOf activeSignals).filter (Entry.lockedBy env
          (brain.checkInventoryPathDependency env.upper manifest equity)))).get? e.strategyId with
    | none => exact hget
    | some removed =>
      -- a locked entry of the same leg would be this very entry
      obtain ⟨e', hlocked, hid, -⟩ := Dict.mem_of_tabulate _ htab
      obtain ⟨hin', hlocked⟩ := List.mem_filter.mp hlocked
      obtain ⟨hget', -⟩ := mem_entriesOf.mp hin'
      rw [hid, hget] at hget'
      obtain ⟨sid, sig⟩ := e
      obtain ⟨sid', sig'⟩ := e'
      cases hid
      cases hget'
      exact nomatch hunlocked.symm.trans hlocked

end Entries

/-- **A cap breach stops the growth of its side** exactly when every entry that
asks for the side is on a symbol that carries it over days. -/
theorem growth_stopped_iff (env : CycleEnv) (brain : PortfolioBrain)
    (manifest : List ActivePositionManifest) (equity : ℚ)
    (activeSignals : Dict String (Option Signal)) :
    let verdict := brain.checkInventoryPathDependency env.upper manifest equity
    (∀ side, .ofSide side ∈ verdict.breachCodes →
        ∀ e ∈ entriesOf (applyInventoryEntryLockouts env activeSignals verdict).1,
          entrySide e.signal.action ≠ side) ↔
      ∀ side, brain.overCap equity side (multidayPositions manifest) = true →
        ∀ e ∈ entriesOf activeSignals, entrySide e.signal.action = side →
          CarriedOn env.upper manifest side e.signal.symbol := by
  dsimp only
  refine forall_congr' fun side => ?_
  rw [ofSide_mem_breachCodes]
  refine forall_congr' fun hover => ?_
  constructor
  · intro hstopped e he hside
    by_contra huncarried
    refine hstopped e (mem_lockouts_iff.mpr ⟨he, ?_⟩) hside
    rw [← Bool.not_eq_true, Entry.lockedBy, isEntryLocked_iff, hside]
    exact fun hlocked => huncarried hlocked.1
  · intro hcarried e he hside
    obtain ⟨hin, hunlocked⟩ := mem_lockouts_iff.mp he
    have hlocked : Entry.lockedBy env
        (brain.checkInventoryPathDependency env.upper manifest equity) e = true := by
      rw [Entry.lockedBy, isEntryLocked_iff, hside]
      exact ⟨hcarried e hin hside, .inl hover⟩
    exact nomatch hunlocked.symm.trans hlocked

def qqqCarry : ActivePositionManifest where
  strategyId := qqqStrategyId
  symbol := "QQQ"
  side := .long
  notional := 45000
  calendarDaysHeld := 2

def spyLong : Entry where
  strategyId := spyStrategyId
  signal :=
    { symbol := "SPY", action := .long, price := 500, timestamp := "2026-06-24",
      strategyId := spyStrategyId }

/-- Longs are over their cap on QQQ, and a long entry on SPY goes through. -/
theorem unheld_symbol_entry_passes :
    let verdict := PortfolioBrain.checkInventoryPathDependency {} id [qqqCarry] 100000
    let signals := Dict.empty.set spyStrategyId (some spyLong.signal)
    InventoryBreach.ofSide .long ∈ verdict.breachCodes ∧
      spyLong ∈ entriesOf (applyInventoryEntryLockouts stillEnv signals verdict).1 ∧
      entrySide spyLong.signal.action = .long := by
  decide +kernel

end TradingPlatform.Engine.Portfolio
