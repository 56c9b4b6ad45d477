import TradingPlatform.Models
import TradingPlatform.Lib.Dict
import TradingPlatform.Lib.Runs
import Mathlib.Algebra.BigOperators.Group.List.Lemmas
import Mathlib.Data.List.Dedup
import Mathlib.Tactic.Linarith
import Mathlib.Tactic.Ring

/-! # The simulated broker and its fill log

Orders fill at once, in whole shares, at one price a call. The fills a call
makes go on the log; a forced close goes through the same close routines and
puts nothing there. -/

namespace TradingPlatform.Broker.Simulated

open TradingPlatform.Lib TradingPlatform.Lib.Runs

/-- Initial margin of a short, as a fraction of its notional. -/
def shortMarginInitial : ℚ := 1 / 2

structure SimulatedBroker where
  equity : ℚ
  cash : ℚ
  slippagePct : ℚ
  takerFeePct : ℚ
  positions : Dict String Position := .empty
  fills : List OrderResult := []
  deriving DecidableEq

/-- `SimulatedBroker(initial_equity, slippage_pct, taker_fee_pct)`. -/
def SimulatedBroker.new (initialEquity slippagePct takerFeePct : ℚ) : SimulatedBroker :=
  { equity := initialEquity, cash := initialEquity, slippagePct, takerFeePct }

namespace SimulatedBroker

def fillPrice (b : SimulatedBroker) (side : Side) (rawPrice : ℚ) : ℚ :=
  let slip := rawPrice * (b.slippagePct + b.takerFeePct)
  match side with
  | .buy => rawPrice + slip
  | .sell => rawPrice - slip

/-- The position after `fillQty` more shares on `side`; one on the other side is replaced. -/
def extended (b : SimulatedBroker) (side : PositionSide) (symbol : String) (fillQty price : ℚ) :
    Position :=
  match b.positions.get? symbol with
  | some pos =>
    if pos.side = side then
      let totalQty := pos.qty + fillQty
      { symbol, qty := totalQty, side
        avgEntryPrice := (pos.avgEntryPrice * pos.qty + price * fillQty) / totalQty }
    else { symbol, qty := fillQty, side, avgEntryPrice := price }
  | none => { symbol, qty := fillQty, side, avgEntryPrice := price }

/-- Opens or adds on `side`, clipped to what is affordable; a long pays the
notional, a short receives it. -/
def openPosition (b : SimulatedBroker) (side : PositionSide) (affordable : ℤ) (symbol : String)
    (qty price : ℚ) : ℚ × SimulatedBroker :=
  if price ≤ 0 then (0, b)
  else
    let fillQty := min (truncate qty) affordable
    if fillQty ≤ 0 then (0, b)
    else
      (fillQty,
        { b with
          positions := b.positions.set symbol (b.extended side symbol fillQty price)
          cash := b.cash - side.sign * (price * fillQty) })

def openLong (b : SimulatedBroker) (symbol : String) (qty price : ℚ) : ℚ × SimulatedBroker :=
  b.openPosition .long (truncate (b.cash / price)) symbol qty price

def openShort (b : SimulatedBroker) (symbol : String) (qty price : ℚ) : ℚ × SimulatedBroker :=
  let marginPerShare := price * shortMarginInitial
  b.openPosition .short (if 0 < marginPerShare then truncate (b.cash / marginPerShare) else 0)
    symbol qty price

/-- Closes shares held on `side`; a long receives the notional, a short pays it. -/
def closePosition (b : SimulatedBroker) (side : PositionSide) (symbol : String) (qty price : ℚ) :
    ℚ × SimulatedBroker :=
  match b.positions.get? symbol with
  | none => (0, b)
  | some pos =>
    if pos.side ≠ side then (0, b)
    else
      let fillQty := min (truncate qty) (truncate pos.qty)
      if fillQty ≤ 0 then (0, b)
      else
        let remaining := pos.qty - fillQty
        (fillQty,
          { b with
            cash := b.cash + side.sign * (price * fillQty)
            positions :=
              if remaining ≤ 0 then b.positions.erase symbol
              else b.positions.set symbol
                { symbol, qty := remaining, side, avgEntryPrice := pos.avgEntryPrice } })

def closeLong (b : SimulatedBroker) (symbol : String) (qty price : ℚ) : ℚ × SimulatedBroker :=
  b.closePosition .long symbol qty price

def closeShort (b : SimulatedBroker) (symbol : String) (qty price : ℚ) : ℚ × SimulatedBroker :=
  b.closePosition .short symbol qty price

/-- Routes one order: a buy covers a short or opens a long, a sell closes a long
or opens a short. -/
def route (b : SimulatedBroker) (order : Order) (price : ℚ) : ℚ × SimulatedBroker :=
  let held := (b.positions.get? order.symbol).map (·.side)
  match order.side with
  | .buy =>
    if held = some .short then b.closeShort order.symbol order.qty price
    else b.openLong order.symbol order.qty price
  | .sell =>
    if held = some .long then b.closeLong order.symbol order.qty price
    else b.openShort order.symbol order.qty price

/-- One pass of the loop of `submit_orders`. -/
def submitOrder (now : String) (fillPrice : ℚ) (b : SimulatedBroker) (order : Order) :
    SimulatedBroker :=
  let price := b.fillPrice order.side fillPrice
  let (filledQty, b') := b.route order price
  if filledQty ≤ 0 then b'
  else
    { b' with
      fills := b'.fills ++
        [{ symbol := order.symbol, side := order.side, qty := filledQty, filledPrice := price
           filledAt := now, status := "filled" }] }

def markEquity (b : SimulatedBroker) (markPrice : ℚ) : SimulatedBroker :=
  { b with equity := b.cash + (b.positions.items.map fun p => markPrice * p.2.signedQty).sum }

/-- The results are what the call adds to `fills`. -/
def submitOrders (b : SimulatedBroker) (orders : List Order) (fillPrice : ℚ) (now : String) :
    List OrderResult × SimulatedBroker :=
  if fillPrice ≤ 0 then ([], b)
  else
    let b' := orders.foldl (submitOrder now fillPrice) b
    (b'.fills.drop b.fills.length, b'.markEquity fillPrice)

/-- One pass of the loop of `close_all_positions`. -/
def closeHeld (markPrice : ℚ) (b : SimulatedBroker) (held : String × Position) : SimulatedBroker :=
  match held.2.side with
  | .long => (b.closeLong held.1 held.2.qty (b.fillPrice .sell markPrice)).2
  | .short => (b.closeShort held.1 held.2.qty (b.fillPrice .buy markPrice)).2

def closeAllPositions (b : SimulatedBroker) (markPrice : ℚ) : SimulatedBroker :=
  if markPrice ≤ 0 then { b with positions := .empty, equity := b.cash }
  else (b.positions.items.foldl (closeHeld markPrice) b).markEquity markPrice

/-- The signed quantity held under a symbol. -/
def signedPosition (b : SimulatedBroker) (symbol : String) : ℚ :=
  (b.positions.get? symbol).elim 0 Position.signedQty

/-- Positions are whole and never empty. -/
def WellHeld (b : SimulatedBroker) : Prop :=
  ∀ symbol pos, b.positions.get? symbol = some pos → 0 < pos.qty ∧ ∃ n : ℤ, pos.qty = n

/-! ## One trade -/

/-- `b'` is `b` after `delta` signed shares of `symbol` changed hands at `price`. -/
structure Trade (symbol : String) (delta price : ℚ) (b b' : SimulatedBroker) : Prop where
  cash : b'.cash = b.cash - delta * price
  position : ∀ s, b'.signedPosition s = b.signedPosition s + if s = symbol then delta else 0
  fills : b'.fills = b.fills
  held : WellHeld b'

theorem Trade.none {b : SimulatedBroker} (hheld : WellHeld b) (symbol : String) (price : ℚ) :
    Trade symbol 0 price b b :=
  ⟨by ring, fun s => by simp, rfl, hheld⟩

theorem WellHeld.set {b : SimulatedBroker} (h : WellHeld b) {pos : Position} (symbol : String)
    (cash : ℚ) (hpos : 0 < pos.qty) (hint : ∃ n : ℤ, pos.qty = n) :
    WellHeld { b with positions := b.positions.set symbol pos, cash } := by
  intro s pos' hs
  rw [Dict.get?_set] at hs
  split at hs
  · cases hs
    exact ⟨hpos, hint⟩
  · exact h s pos' hs

theorem WellHeld.erase {b : SimulatedBroker} (h : WellHeld b) (symbol : String) (cash : ℚ) :
    WellHeld { b with positions := b.positions.erase symbol, cash } := by
  intro s pos' hs
  rw [Dict.get?_erase] at hs
  split at hs
  · cases hs
  · exact h s pos' hs

/-- Filling one key of the dictionary moves one symbol. -/
theorem signedPosition_set {b b' : SimulatedBroker} {symbol : String} {pos : Position} {delta : ℚ}
    (hb' : b'.positions = b.positions.set symbol pos)
    (hpos : pos.signedQty = b.signedPosition symbol + delta) (s : String) :
    b'.signedPosition s = b.signedPosition s + if s = symbol then delta else 0 := by
  by_cases hs : s = symbol
  · subst hs
    rw [if_pos rfl, ← hpos, signedPosition, hb', Dict.get?_set_self]
    rfl
  · rw [if_neg hs, add_zero, signedPosition, hb', Dict.get?_set_ne _ hs]
    rfl

theorem signedPosition_erase {b b' : SimulatedBroker} {symbol : String} {delta : ℚ}
    (hb' : b'.positions = b.positions.erase symbol) (hpos : b.signedPosition symbol + delta = 0)
    (s : String) :
    b'.signedPosition s = b.signedPosition s + if s = symbol then delta else 0 := by
  by_cases hs : s = symbol
  · subst hs
    rw [if_pos rfl, hpos, signedPosition, hb', Dict.get?_erase, if_pos rfl]
    rfl
  · rw [if_neg hs, add_zero, signedPosition, hb', Dict.get?_erase, if_neg hs]
    rfl

/-- The extended position is whole, and holds the fill more. -/
theorem extended_spec {b : SimulatedBroker} (hheld : WellHeld b) {side : PositionSide}
    {symbol : String} (hside : ∀ pos, b.positions.get? symbol = some pos → pos.side = side)
    {fillQty : ℤ} (hfill : 0 < fillQty) (price : ℚ) :
    0 < (b.extended side symbol fillQty price).qty ∧
      (∃ n : ℤ, (b.extended side symbol fillQty price).qty = n) ∧
      (b.extended side symbol fillQty price).signedQty =
        b.signedPosition symbol + side.sign * fillQty := by
  have hfill' : (0 : ℚ) < fillQty := by exact_mod_cast hfill
  unfold extended signedPosition
  cases hpos : b.positions.get? symbol with
  | none => exact ⟨hfill', ⟨fillQty, rfl⟩, by simp [Position.signedQty]⟩
  | some pos =>
    obtain ⟨hqty, n, hn⟩ := hheld symbol pos hpos
    have hsame := hside pos hpos
    simp only [hsame, if_true]
    refine ⟨by linarith, ⟨n + fillQty, by rw [hn]; push_cast; rfl⟩, ?_⟩
    simp only [Position.signedQty, Option.elim_some, hsame]
    ring

theorem openPosition_trade {b : SimulatedBroker} (hheld : WellHeld b) {side : PositionSide}
    {symbol : String} (hside : ∀ pos, b.positions.get? symbol = some pos → pos.side = side)
    (affordable : ℤ) (qty price : ℚ) :
    0 ≤ (b.openPosition side affordable symbol qty price).1 ∧
      Trade symbol (side.sign * (b.openPosition side affordable symbol qty price).1) price b
        (b.openPosition side affordable symbol qty price).2 := by
  have hnone : Trade symbol (side.sign * 0) price b b := by
    rw [mul_zero]
    exact .none hheld symbol price
  unfold openPosition
  dsimp only
  split
  · exact ⟨le_rfl, hnone⟩
  split
  · exact ⟨le_rfl, hnone⟩
  · rename_i hfill
    have hfill := not_le.mp hfill
    obtain ⟨hpos, hint, hsigned⟩ := extended_spec hheld hside hfill price
    have hnonneg : (0 : ℚ) ≤ (min (truncate qty) affordable : ℤ) := by exact_mod_cast hfill.le
    refine ⟨hnonneg, ?_, ?_, rfl, hheld.set symbol _ hpos hint⟩
    · show b.cash - _ = _
      ring
    · exact signedPosition_set rfl hsigned

theorem closePosition_trade {b : SimulatedBroker} (hheld : WellHeld b) (side : PositionSide)
    (symbol : String) (qty price : ℚ) :
    0 ≤ (b.closePosition side symbol qty price).1 ∧
      Trade symbol (-(side.sign * (b.closePosition side symbol qty price).1)) price b
        (b.closePosition side symbol qty price).2 := by
  have hnone : Trade symbol (-(side.sign * 0)) price b b := by
    rw [mul_zero, neg_zero]
    exact .none hheld symbol price
  unfold closePosition
  cases hpos : b.positions.get? symbol with
  | none => exact ⟨le_rfl, hnone⟩
  | some pos =>
    obtain ⟨hqty, n, hn⟩ := hheld symbol pos hpos
    have hwhole : truncate pos.qty = n := by rw [hn, truncate_intCast]
    dsimp only
    rw [hwhole]
    split
    · exact ⟨le_rfl, hnone⟩
    rename_i hside
    have hside := not_not.mp hside
    split
    · exact ⟨le_rfl, hnone⟩
    rename_i hfill
    have hfill := not_le.mp hfill
    have hheldNow : b.signedPosition symbol = side.sign * pos.qty := by
      rw [signedPosition, hpos, ← hside]
      rfl
    generalize hk : min (truncate qty) n = k at hfill
    have hle : (k : ℚ) ≤ pos.qty := by
      rw [hn]
      exact_mod_cast hk ▸ min_le_right (truncate qty) n
    have hnonneg : (0 : ℚ) ≤ k := by exact_mod_cast hfill.le
    refine ⟨hnonneg, ?_, ?_, rfl, ?_⟩
    · show b.cash + _ = _
      ring
    · split
      · rename_i hrem
        have hall : pos.qty = k := le_antisymm (by linarith) hle
        refine signedPosition_erase rfl ?_
        rw [hheldNow, hall]
        ring
      · refine signedPosition_set rfl ?_
        rw [hheldNow]
        simp only [Position.signedQty]
        ring
    · split
      · exact hheld.erase symbol _
      · rename_i hrem
        refine hheld.set symbol _ (not_le.mp hrem) ⟨n - k, ?_⟩
        rw [hn]
        push_cast
        rfl

theorem route_trade {b : SimulatedBroker} (hheld : WellHeld b) (order : Order) (price : ℚ) :
    0 ≤ (b.route order price).1 ∧
      Trade order.symbol (order.side.sign * (b.route order price).1) price b
        (b.route order price).2 := by
  have hother : ∀ {side side' : PositionSide}, (∀ s : PositionSide, s ≠ side' → s = side) →
      (b.positions.get? order.symbol).map (·.side) ≠ some side' →
      ∀ pos, b.positions.get? order.symbol = some pos → pos.side = side := by
    intro side side' hall hne pos hpos
    refine hall _ fun hside => hne ?_
    rw [hpos, Option.map_some, hside]
  unfold route
  cases hside : order.side with
  | buy =>
    dsimp only
    split
    · obtain ⟨hnonneg, htrade⟩ := closePosition_trade hheld .short order.symbol order.qty price
      refine ⟨hnonneg, ?_⟩
      simpa [PositionSide.sign, Side.sign, closeShort] using htrade
    · rename_i hne
      exact openPosition_trade hheld (hother (fun s hs => by cases s <;> simp_all) hne) _ _ _
  | sell =>
    dsimp only
    split
    · obtain ⟨hnonneg, htrade⟩ := closePosition_trade hheld .long order.symbol order.qty price
      refine ⟨hnonneg, ?_⟩
      simpa [PositionSide.sign, Side.sign, closeLong] using htrade
    · rename_i hne
      exact openPosition_trade hheld (hother (fun s hs => by cases s <;> simp_all) hne) _ _ _

end SimulatedBroker

open SimulatedBroker

/-! ## The fill log as a ledger -/

def signedFill (fill : OrderResult) : ℚ := fill.side.sign * fill.qty

/-- What the fills paid in all, sales counting against. -/
def paid (fills : List OrderResult) : ℚ := (fills.map fun f => signedFill f * f.filledPrice).sum

/-- The signed shares of a symbol the fills add up to. -/
def filled (fills : List OrderResult) (symbol : String) : ℚ :=
  ((fills.filter fun f => decide (f.symbol = symbol)).map signedFill).sum

theorem paid_concat (fills : List OrderResult) (f : OrderResult) :
    paid (fills ++ [f]) = paid fills + signedFill f * f.filledPrice := by simp [paid]

theorem filled_concat (fills : List OrderResult) (f : OrderResult) (symbol : String) :
    filled (fills ++ [f]) symbol =
      filled fills symbol + if symbol = f.symbol then signedFill f else 0 := by
  by_cases hs : symbol = f.symbol
  · simp [filled, hs]
  · simp [filled, hs, Ne.symm hs]

/-- Cash and positions are what the fills account for. -/
structure Ledger (initialEquity : ℚ) (b : SimulatedBroker) : Prop where
  cash : b.cash = initialEquity - paid b.fills
  positions : ∀ symbol, b.signedPosition symbol = filled b.fills symbol

/-- A trade that goes on the log keeps the ledger. -/
theorem Ledger.logged {initialEquity : ℚ} {b b' : SimulatedBroker} (h : Ledger initialEquity b)
    {f : OrderResult} (ht : Trade f.symbol (signedFill f) f.filledPrice b b') :
    Ledger initialEquity { b' with fills := b'.fills ++ [f] } := by
  constructor
  · show b'.cash = initialEquity - paid (b'.fills ++ [f])
    rw [ht.cash, h.cash, ht.fills, paid_concat]
    ring
  · intro symbol
    show b'.signedPosition symbol = filled (b'.fills ++ [f]) symbol
    rw [ht.position, h.positions, ht.fills, filled_concat]

theorem submitOrder_keeps (initialEquity : ℚ) (now : String) (price : ℚ) {b : SimulatedBroker}
    (order : Order) (hheld : WellHeld b) :
    WellHeld (submitOrder now price b order) ∧
      (Ledger initialEquity b → Ledger initialEquity (submitOrder now price b order)) := by
  obtain ⟨hnonneg, htrade⟩ := route_trade hheld order (b.fillPrice order.side price)
  unfold submitOrder
  dsimp only
  split
  · -- nothing filled, and nothing moved
    rename_i hle
    have hzero := le_antisymm hle hnonneg
    rw [hzero, mul_zero] at htrade
    refine ⟨htrade.held, fun h => ⟨?_, fun symbol => ?_⟩⟩
    · rw [htrade.cash, htrade.fills, h.cash]
      ring
    · rw [htrade.position, htrade.fills, h.positions, ite_self, add_zero]
  · exact ⟨htrade.held, fun h => h.logged htrade⟩

theorem submitOrders_keeps (initialEquity : ℚ) {b : SimulatedBroker} (orders : List Order)
    (price : ℚ) (now : String) (hheld : WellHeld b) :
    WellHeld (b.submitOrders orders price now).2 ∧
      (Ledger initialEquity b → Ledger initialEquity (b.submitOrders orders price now).2) := by
  have hfold : ∀ (orders : List Order) (b : SimulatedBroker), WellHeld b →
      WellHeld (orders.foldl (submitOrder now price) b) ∧
        (Ledger initialEquity b → Ledger initialEquity (orders.foldl (submitOrder now price) b)) := by
    intro orders
    induction orders with
    | nil => exact fun b hheld => ⟨hheld, id⟩
    | cons order rest ih =>
      intro b hheld
      obtain ⟨hheld', hledger⟩ := submitOrder_keeps initialEquity now price order hheld
      obtain ⟨hheld'', hledger'⟩ := ih _ hheld'
      exact ⟨hheld'', fun h => hledger' (hledger h)⟩
  unfold submitOrders
  split
  · exact ⟨hheld, id⟩
  · obtain ⟨hheld', hledger⟩ := hfold orders b hheld
    exact ⟨hheld', fun h => ⟨(hledger h).cash, (hledger h).positions⟩⟩

/-! ## What a call fills -/

/-- A whole part of what was asked for, clipped. -/
theorem clipped_le {qty : ℚ} {bound : ℤ} (h : 0 < min (truncate qty) bound) :
    ((min (truncate qty) bound : ℤ) : ℚ) ≤ qty :=
  calc ((min (truncate qty) bound : ℤ) : ℚ) ≤ truncate qty := by exact_mod_cast min_le_left _ _
    _ ≤ qty := truncate_le (nonneg_of_truncate_pos (h.trans_le (min_le_left _ _)))

/-- The rates stay, and what fills is at most what was asked for. -/
structure Routes (qty : ℚ) (b : SimulatedBroker) (r : ℚ × SimulatedBroker) : Prop where
  slippagePct : r.2.slippagePct = b.slippagePct
  takerFeePct : r.2.takerFeePct = b.takerFeePct
  qty : 0 < r.1 → r.1 ≤ qty

theorem openPosition_routes (b : SimulatedBroker) (side : PositionSide) (affordable : ℤ)
    (symbol : String) (qty price : ℚ) :
    Routes qty b (b.openPosition side affordable symbol qty price) := by
  unfold openPosition
  dsimp only
  split
  · exact ⟨rfl, rfl, fun h => absurd h (lt_irrefl 0)⟩
  split
  · exact ⟨rfl, rfl, fun h => absurd h (lt_irrefl 0)⟩
  · exact ⟨rfl, rfl, fun _ => clipped_le (not_le.mp ‹_›)⟩

theorem closePosition_routes (b : SimulatedBroker) (side : PositionSide) (symbol : String)
    (qty price : ℚ) : Routes qty b (b.closePosition side symbol qty price) := by
  unfold closePosition
  cases b.positions.get? symbol with
  | none => exact ⟨rfl, rfl, fun h => absurd h (lt_irrefl 0)⟩
  | some pos =>
    dsimp only
    split
    · exact ⟨rfl, rfl, fun h => absurd h (lt_irrefl 0)⟩
    split
    · exact ⟨rfl, rfl, fun h => absurd h (lt_irrefl 0)⟩
    · exact ⟨rfl, rfl, fun _ => clipped_le (not_le.mp ‹_›)⟩

theorem route_routes (b : SimulatedBroker) (order : Order) (price : ℚ) :
    Routes order.qty b (b.route order price) := by
  unfold route
  cases order.side with
  | buy =>
    dsimp only
    split
    · exact closePosition_routes b .short _ _ _
    · exact openPosition_routes b .long _ _ _ _
  | sell =>
    dsimp only
    split
    · exact closePosition_routes b .long _ _ _
    · exact openPosition_routes b .short _ _ _ _

/-- The fill is of the order, at a price slipped from `rawPrice`. -/
structure FillOf (b : SimulatedBroker) (rawPrice : ℚ) (order : Order) (fill : OrderResult) : Prop where
  symbol : fill.symbol = order.symbol
  side : fill.side = order.side
  qty_pos : 0 < fill.qty
  qty_le : fill.qty ≤ order.qty
  filledPrice : fill.filledPrice = b.fillPrice order.side rawPrice

theorem fillPrice_congr {b b' : SimulatedBroker} (hslip : b'.slippagePct = b.slippagePct)
    (hfee : b'.takerFeePct = b.takerFeePct) : b'.fillPrice = b.fillPrice := by
  funext side rawPrice
  simp only [fillPrice, hslip, hfee]

/-- One order adds its fill, if any. -/
theorem submitOrder_adds (now : String) (rawPrice : ℚ) {b : SimulatedBroker} (order : Order)
    (hheld : WellHeld b) :
    ∃ added, (submitOrder now rawPrice b order).fills = b.fills ++ added ∧
      (submitOrder now rawPrice b order).slippagePct = b.slippagePct ∧
      (submitOrder now rawPrice b order).takerFeePct = b.takerFeePct ∧
      ∀ fill ∈ added, FillOf b rawPrice order fill := by
  obtain ⟨-, htrade⟩ := route_trade hheld order (b.fillPrice order.side rawPrice)
  obtain ⟨hslip, hfee, hqty⟩ := route_routes b order (b.fillPrice order.side rawPrice)
  unfold submitOrder
  dsimp only
  split
  · exact ⟨[], by rw [htrade.fills, List.append_nil], hslip, hfee, by simp⟩
  · rename_i hpos
    refine ⟨_, congrArg (· ++ _) htrade.fills, hslip, hfee, fun fill hfill => ?_⟩
    obtain rfl := List.mem_singleton.mp hfill
    exact ⟨rfl, rfl, not_le.mp hpos, hqty (not_le.mp hpos), rfl⟩

/-- What one call adds to the log is fills of its orders; the rates stay. -/
theorem submitOrders_fills (b : SimulatedBroker) (orders : List Order) (rawPrice : ℚ)
    (now : String) (hheld : WellHeld b) :
    (b.submitOrders orders rawPrice now).2.fills = b.fills ++ (b.submitOrders orders rawPrice now).1 ∧
      (b.submitOrders orders rawPrice now).2.slippagePct = b.slippagePct ∧
      (b.submitOrders orders rawPrice now).2.takerFeePct = b.takerFeePct ∧
      ∀ fill ∈ (b.submitOrders orders rawPrice now).1,
        0 < rawPrice ∧ ∃ order ∈ orders, FillOf b rawPrice order fill := by
  have hfold : ∀ (orders : List Order) (b : SimulatedBroker), WellHeld b → ∃ results,
      (orders.foldl (submitOrder now rawPrice) b).fills = b.fills ++ results ∧
        (orders.foldl (submitOrder now rawPrice) b).slippagePct = b.slippagePct ∧
        (orders.foldl (submitOrder now rawPrice) b).takerFeePct = b.takerFeePct ∧
        ∀ fill ∈ results, ∃ order ∈ orders, FillOf b rawPrice order fill := by
    intro orders
    induction orders with
    | nil => exact fun b _ => ⟨[], by simp, rfl, rfl, by simp⟩
    | cons order rest ih =>
      intro b hheld
      have hheld' := (submitOrder_keeps 0 now rawPrice order hheld).1
      obtain ⟨results, hfills, hslip, hfee, hall⟩ := ih _ hheld'
      obtain ⟨added, hfirst, hslip', hfee', hnew⟩ := submitOrder_adds now rawPrice order hheld
      have hprice := fillPrice_congr hslip' hfee'
      refine ⟨added ++ results, ?_, hslip.trans hslip', hfee.trans hfee', fun fill hfill => ?_⟩
      · rw [List.foldl_cons, hfills, hfirst, List.append_assoc]
      · rcases List.mem_append.mp hfill with hfill | hfill
        · exact ⟨order, List.mem_cons_self, hnew fill hfill⟩
        · obtain ⟨o, ho, hof⟩ := hall fill hfill
          exact ⟨o, List.mem_cons_of_mem _ ho, { hof with filledPrice := hprice ▸ hof.filledPrice }⟩
  unfold submitOrders
  split
  · exact ⟨(List.append_nil _).symm, rfl, rfl, by simp⟩
  · rename_i hpos
    obtain ⟨results, hfills, hslip, hfee, hall⟩ := hfold orders b hheld
    have hdrop : (orders.foldl (submitOrder now rawPrice) b).fills.drop b.fills.length = results := by
      rw [hfills, List.drop_left]
    dsimp only
    rw [hdrop]
    exact ⟨hfills, hslip, hfee, fun fill hfill => ⟨not_le.mp hpos, hall fill hfill⟩⟩

/-! ## Marked to market -/

/-- The signed shares over all symbols, as the fills have them. -/
theorem filled_total {fills : List OrderResult} {keys : List String} (hnodup : keys.Nodup)
    (hkeys : ∀ f ∈ fills, f.symbol ∈ keys) :
    (keys.map (filled fills)).sum = (fills.map signedFill).sum := by
  induction fills using List.reverseRecOn with
  | nil =>
    have hnil : filled [] = fun _ => 0 := rfl
    simp [hnil]
  | append_singleton fills f ih =>
    have ih := ih fun g hg => hkeys g (List.mem_append_left _ hg)
    have hf : f.symbol ∈ keys := hkeys f (by simp)
    have hconcat : filled (fills ++ [f]) = fun k =>
        filled fills k + if k = f.symbol then signedFill f else 0 := by
      funext k
      exact filled_concat fills f k
    rw [hconcat, List.sum_map_add, ih, List.sum_map_ite_eq, List.count_eq_one_of_mem hnodup hf]
    simp

theorem SimulatedBroker.positions_total (b : SimulatedBroker) {keys : List String} (hnodup : keys.Nodup)
    (hkeys : ∀ symbol ∈ b.positions.items.map Prod.fst, symbol ∈ keys) :
    (keys.map b.signedPosition).sum = b.positions.total fun _ pos => pos.signedQty := by
  have hget : b.signedPosition =
      fun k => ((b.positions.mapValues fun _ pos => pos.signedQty).get? k).getD 0 := by
    funext k
    rw [Dict.get?_mapValues, signedPosition]
    cases b.positions.get? k <;> rfl
  rw [hget, Dict.sum_getD _ hnodup, Dict.total_mapValues]
  refine Dict.total_congr _ fun k pos hpos => if_pos (hkeys k ?_)
  exact List.mem_map_of_mem (f := Prod.fst) ((Dict.get?_eq_some _).mp hpos)

/-- The equity is what every fill won or lost since it was made. -/
theorem Ledger.markEquity {initialEquity : ℚ} {b : SimulatedBroker} (h : Ledger initialEquity b)
    (markPrice : ℚ) :
    (b.markEquity markPrice).equity =
      initialEquity + (b.fills.map fun f => signedFill f * (markPrice - f.filledPrice)).sum := by
  let keys := (b.positions.items.map Prod.fst ++ b.fills.map (·.symbol)).dedup
  have hnodup : keys.Nodup := List.nodup_dedup _
  have hheld : (b.positions.total fun _ pos => pos.signedQty) = (b.fills.map signedFill).sum := by
    rw [← b.positions_total hnodup fun s hs => List.mem_dedup.mpr (List.mem_append_left _ hs),
      ← filled_total hnodup fun f hf =>
        List.mem_dedup.mpr (List.mem_append_right _ (List.mem_map_of_mem hf))]
    exact congrArg List.sum (List.map_congr_left fun s _ => h.positions s)
  have hmark : (b.positions.items.map fun p => markPrice * p.2.signedQty).sum =
      markPrice * (b.fills.map signedFill).sum := by
    rw [← hheld]
    exact List.sum_map_mul_left ..
  have hsplit : (b.fills.map fun f => signedFill f * (markPrice - f.filledPrice)).sum =
      markPrice * (b.fills.map signedFill).sum - paid b.fills := by
    rw [paid, ← List.sum_map_mul_left]
    induction b.fills with
    | nil => simp
    | cons f rest ih =>
      simp only [List.map_cons, List.sum_cons, ih]
      ring
  show b.cash + _ = _
  rw [hmark, hsplit, h.cash]
  ring

/-! ## The forced close -/

/-- Closing all of what is held drops the position, and logs nothing. -/
theorem closePosition_all {b : SimulatedBroker} (hheld : WellHeld b) {symbol : String}
    {pos : Position} (hpos : b.positions.get? symbol = some pos) (price : ℚ) :
    (b.closePosition pos.side symbol pos.qty price).2.positions = b.positions.erase symbol ∧
      (b.closePosition pos.side symbol pos.qty price).2.fills = b.fills := by
  obtain ⟨hqty, n, hn⟩ := hheld symbol pos hpos
  have hn0 : ¬ n ≤ 0 := by
    rw [hn] at hqty
    exact not_le.mpr (by exact_mod_cast hqty)
  have hnone : pos.qty - n ≤ 0 := by rw [hn, sub_self]
  have hwhole : truncate pos.qty = n := by rw [hn, truncate_intCast]
  unfold closePosition
  simp only [hpos, hwhole, min_self, ne_eq, not_true_eq_false, if_false, hn0, hnone, if_true]
  exact ⟨trivial, trivial⟩

theorem closeHeld_spec {b : SimulatedBroker} (hheld : WellHeld b) {held : String × Position}
    (hpos : b.positions.get? held.1 = some held.2) (markPrice : ℚ) :
    (closeHeld markPrice b held).positions = b.positions.erase held.1 ∧
      (closeHeld markPrice b held).fills = b.fills ∧ WellHeld (closeHeld markPrice b held) := by
  unfold closeHeld closeLong closeShort
  cases hside : held.2.side with
  | long =>
    obtain ⟨hgone, hfills⟩ := closePosition_all hheld hpos (b.fillPrice .sell markPrice)
    rw [hside] at hgone hfills
    exact ⟨hgone, hfills, (closePosition_trade hheld _ _ _ _).2.held⟩
  | short =>
    obtain ⟨hgone, hfills⟩ := closePosition_all hheld hpos (b.fillPrice .buy markPrice)
    rw [hside] at hgone hfills
    exact ⟨hgone, hfills, (closePosition_trade hheld _ _ _ _).2.held⟩

/-- The loop over what was held leaves the other positions. The induction is on
what is left of the snapshot, all of it still held. -/
theorem closeHeld_fold (markPrice : ℚ) :
    ∀ (held : List (String × Position)) {b : SimulatedBroker}, WellHeld b →
      (held.map Prod.fst).Nodup → (∀ p ∈ held, b.positions.get? p.1 = some p.2) →
      (held.foldl (closeHeld markPrice) b).fills = b.fills ∧
        WellHeld (held.foldl (closeHeld markPrice) b) ∧
        ∀ s, (held.foldl (closeHeld markPrice) b).positions.get? s =
          if s ∈ held.map Prod.fst then none else b.positions.get? s
  | [], _, hheld, _, _ => ⟨rfl, hheld, fun _ => rfl⟩
  | p :: rest, b, hheld, hnodup, hall => by
    obtain ⟨hgone, hfills, hheld'⟩ := closeHeld_spec hheld (hall p List.mem_cons_self) markPrice
    obtain ⟨hp, hnodup'⟩ := List.nodup_cons.mp hnodup
    have hrest : ∀ q ∈ rest, (closeHeld markPrice b p).positions.get? q.1 = some q.2 := by
      intro q hq
      have hne : q.1 ≠ p.1 := fun he => hp (he ▸ List.mem_map_of_mem hq)
      rw [hgone, Dict.get?_erase, if_neg hne]
      exact hall q (List.mem_cons_of_mem _ hq)
    obtain ⟨hfills', hheld'', hget⟩ := closeHeld_fold markPrice rest hheld' hnodup' hrest
    refine ⟨hfills'.trans hfills, hheld'', fun s => ?_⟩
    rw [List.foldl_cons, hget, hgone, Dict.get?_erase]
    by_cases hs : s = p.1
    · simp [hs]
    · simp only [List.map_cons, List.mem_cons, hs, false_or, if_false]

/-- A forced close drops every position, and logs nothing. -/
theorem closeAllPositions_spec {b : SimulatedBroker} (hheld : WellHeld b) (markPrice : ℚ) :
    (b.closeAllPositions markPrice).fills = b.fills ∧
      ∀ s, (b.closeAllPositions markPrice).positions.get? s = none := by
  unfold closeAllPositions
  split
  · exact ⟨rfl, fun _ => rfl⟩
  · obtain ⟨hfills, -, hget⟩ := closeHeld_fold markPrice b.positions.items hheld b.positions.nodup
      fun p hp => (Dict.get?_eq_some _).mpr hp
    refine ⟨hfills, fun s => (hget s).trans ?_⟩
    split
    · rfl
    · rename_i hs
      refine Option.eq_none_iff_forall_ne_some.mpr fun pos hpos => hs ?_
      exact List.mem_map_of_mem (f := Prod.fst) ((Dict.get?_eq_some _).mp hpos)

/-- Nothing is held. -/
def Flat (b : SimulatedBroker) : Prop := b.positions.items = []

instance (b : SimulatedBroker) : Decidable (Flat b) := inferInstanceAs (Decidable (_ = _))

/-- A forced close keeps the ledger exactly when there is nothing to close. -/
theorem closeAll_ledger_iff {initialEquity : ℚ} {b : SimulatedBroker} (hheld : WellHeld b)
    (h : Ledger initialEquity b) (markPrice : ℚ) :
    Ledger initialEquity (b.closeAllPositions markPrice) ↔ Flat b := by
  obtain ⟨hfills, hnone⟩ := closeAllPositions_spec hheld markPrice
  constructor
  · intro h'
    by_contra hflat
    obtain ⟨p, hp⟩ := List.exists_mem_of_ne_nil _ hflat
    have hpos := (Dict.get?_eq_some b.positions).mpr hp
    obtain ⟨hqty, -⟩ := hheld p.1 p.2 hpos
    have hgone := h'.positions p.1
    rw [hfills, ← h.positions, signedPosition, signedPosition, hnone, hpos] at hgone
    have hzero : p.2.side.sign * p.2.qty = 0 := hgone.symm
    cases hside : p.2.side <;> simp [hside, PositionSide.sign] at hzero <;> linarith
  · intro hflat
    have hitems : b.positions.items = [] := hflat
    have hsame : (b.closeAllPositions markPrice).cash = b.cash := by
      unfold closeAllPositions
      rw [hitems]
      split <;> rfl
    refine ⟨by rw [hsame, hfills, h.cash], fun symbol => ?_⟩
    have hold := h.positions symbol
    rw [hfills, ← hold, signedPosition, hnone, signedPosition]
    simp [Dict.get?, hitems]

/-! ## Runs -/

inductive Event
  | submitOrders (orders : List Order) (fillPrice : ℚ) (now : String)
  | closeAllPositions (markPrice : ℚ)
  deriving DecidableEq

def step (b : SimulatedBroker) : Event → SimulatedBroker
  | .submitOrders orders fillPrice now => (b.submitOrders orders fillPrice now).2
  | .closeAllPositions markPrice => b.closeAllPositions markPrice

/-- A forced close comes with nothing held. -/
def ClosesFlat (b : SimulatedBroker) : Event → Prop
  | .closeAllPositions _ => Flat b
  | _ => True

instance (b : SimulatedBroker) (e : Event) : Decidable (ClosesFlat b e) := by
  cases e <;> dsimp only [ClosesFlat] <;> infer_instance

theorem wellHeld_step (b : SimulatedBroker) (e : Event) (h : WellHeld b) : WellHeld (step b e) := by
  cases e with
  | submitOrders orders price now => exact (submitOrders_keeps 0 orders price now h).1
  | closeAllPositions markPrice =>
    intro symbol pos hpos
    rw [step, (closeAllPositions_spec h markPrice).2] at hpos
    cases hpos

/-- **The fill log is a complete ledger** exactly until a forced close finds a
position to close. Whatever is held is whole and positive throughout. -/
theorem ledger_iff (initialEquity slippagePct takerFeePct : ℚ) (es : List Event) :
    WellHeld (run step (.new initialEquity slippagePct takerFeePct) es) ∧
      (Along step (fun b e => Ledger initialEquity (step b e))
          (.new initialEquity slippagePct takerFeePct) es ↔
        Along step ClosesFlat (.new initialEquity slippagePct takerFeePct) es) := by
  have hnew : WellHeld (.new initialEquity slippagePct takerFeePct) := fun _ _ h => nomatch h
  refine ⟨run_keeps wellHeld_step hnew es, ?_⟩
  refine along_next_iff (I := WellHeld) (Q := Ledger initialEquity) wellHeld_step
    (fun b e hheld h => ?_) es hnew ⟨?_, fun _ => rfl⟩
  · cases e with
    | submitOrders orders price now =>
      exact iff_of_true ((submitOrders_keeps initialEquity orders price now hheld).2 h) trivial
    | closeAllPositions markPrice => exact closeAll_ledger_iff hheld h markPrice
  · exact (sub_zero initialEquity).symm

/-- A liquidation that the log does not know of. -/
theorem forced_close_unlogged :
    ¬ Along step (fun b e => Ledger 1000 (step b e)) (.new 1000 0 0)
      [.submitOrders [{ symbol := "QQQ", side := .buy, qty := 3 }] 100 "t0", .closeAllPositions 110] := by
  intro h
  have hcash : (run step (.new 1000 0 0)
      [.submitOrders [{ symbol := "QQQ", side := .buy, qty := 3 }] 100 "t0",
        .closeAllPositions 110]).cash = 1030 := by decide +kernel
  have hpaid : paid (run step (.new 1000 0 0)
      [.submitOrders [{ symbol := "QQQ", side := .buy, qty := 3 }] 100 "t0",
        .closeAllPositions 110]).fills = 300 := by decide +kernel
  have hledger := h.2.1.cash
  have heq : (1030 : ℚ) = 1000 - 300 := hcash ▸ hpaid ▸ hledger
  norm_num at heq

end TradingPlatform.Broker.Simulated
