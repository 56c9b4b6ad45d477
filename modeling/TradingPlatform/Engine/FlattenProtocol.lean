import TradingPlatform.Models
import TradingPlatform.Lib.Dict
import TradingPlatform.Lib.StableSort
import Mathlib.Data.List.Dedup
import Mathlib.Data.String.Basic

/-! # The portfolio flatten

The cascade cancels, waits and flattens symbol by symbol, and takes the symbols
from the open positions. An order on a symbol without a position is met only by
`close_all_positions`, which is called when there is no position at all. -/

namespace TradingPlatform.Engine.FlattenProtocol

open TradingPlatform.Lib

/-! ## The exchange -/

/-- A holding counts up when long, down when short. -/
structure Holding where
  symbol : String
  qty : ℚ
  deriving DecidableEq

structure OpenOrder where
  orderId : String
  symbol : String
  cancelRequested : Bool := false
  deriving DecidableEq

structure Exchange where
  holdings : List Holding := []
  openOrders : List OpenOrder := []
  deriving DecidableEq

/-- How the broker's calls turn out. -/
structure Venue where
  /-- `cancel_order_by_id` raises on these orders. -/
  refusesCancel : String → Bool
  awaitRaises : String → Bool
  /-- The first wait for the symbol runs out before the exchange confirms. -/
  firstWaitRunsOut : String → Bool
  secondWaitRunsOut : String → Bool
  flattenRaises : String → Bool
  /-- What the closing order leaves of the position. -/
  unfilled : String → ℚ
  closeAllRaises : Bool := false
  soakMode : Bool := false

/-- Every cancel, wait and flatten does its work; the first wait may still run out. -/
structure Venue.Succeeds (v : Venue) : Prop where
  cancels : ∀ orderId, v.refusesCancel orderId = false
  awaits : ∀ symbol, v.awaitRaises symbol = false
  clears : ∀ symbol, v.secondWaitRunsOut symbol = false
  flattens : ∀ symbol, v.flattenRaises symbol = false
  fills : ∀ symbol, v.unfilled symbol = 0
  closesAll : v.closeAllRaises = false
  live : v.soakMode = false

def Exchange.openHoldings (x : Exchange) : List Holding := x.holdings.filter (·.qty ≠ 0)

/-- What `_get_positions_sync` keeps of a holding: a magnitude and a side. -/
structure BrokerPosition where
  symbol : String
  qty : ℚ
  side : PositionSide
  deriving DecidableEq

def Holding.position (h : Holding) : BrokerPosition :=
  { symbol := h.symbol, qty := |h.qty|, side := if 0 < h.qty then .long else .short }

def Exchange.getPositions (x : Exchange) : List BrokerPosition := x.openHoldings.map (·.position)

section Broker
variable (upper : String → String)

/-- A fill comes off the first holding of its symbol on the other side. -/
def trade (symbol : String) (delta : ℚ) : List Holding → List Holding
  | [] => [{ symbol, qty := delta }]
  | h :: rest =>
    if upper h.symbol = upper symbol ∧ h.qty * delta < 0 then
      { h with qty := h.qty + delta } :: rest
    else h :: trade symbol delta rest

/-- The loop of `_cancel_open_orders_for_symbol_sync`; `none` when an order refuses. -/
def cancelLoop (refuses : String → Bool) (symbol : String) :
    List OpenOrder → Option Nat × List OpenOrder
  | [] => (some 0, [])
  | o :: rest =>
    if upper o.symbol ≠ upper symbol then
      let r := cancelLoop refuses symbol rest
      (r.1, o :: r.2)
    else if refuses o.orderId then (none, o :: rest)
    else
      let r := cancelLoop refuses symbol rest
      (r.1.map (· + 1), { o with cancelRequested := true } :: r.2)

variable (v : Venue)

def cancelOpenOrdersForSymbol (symbol : String) (x : Exchange) : Option Nat × Exchange :=
  let r := cancelLoop upper v.refusesCancel symbol x.openOrders
  (r.1, { x with openOrders := r.2 })

/-- A refused cancel is logged and passed over. -/
def forceCancelAllOrdersForSymbol (symbol : String) (x : Exchange) : Exchange :=
  { x with
    openOrders := x.openOrders.map fun o =>
      if upper o.symbol = upper symbol ∧ v.refusesCancel o.orderId = false then
        { o with cancelRequested := true }
      else o }

def countOpenOrdersForSymbol (symbol : String) (x : Exchange) : Nat :=
  x.openOrders.countP fun o => upper o.symbol = upper symbol

/-- Unless the wait runs out, the exchange has dropped what it was asked to cancel. -/
def awaitOpenOrdersCleared (runsOut : Bool) (symbol : String) (x : Exchange) :
    (Bool × Nat) × Exchange :=
  let x :=
    if runsOut then x
    else
      { x with
        openOrders :=
          x.openOrders.filter fun o => ¬(upper o.symbol = upper symbol ∧ o.cancelRequested) }
  let remaining := countOpenOrdersForSymbol upper symbol x
  ((remaining == 0, remaining), x)

/-- `none` when the call raises, `some false` when it returns `None`. -/
def forceFlattenSymbolPosition (symbol : String) (side : PositionSide) (qty : ℚ) (x : Exchange) :
    Option Bool × Exchange :=
  if v.soakMode then (some false, x)
  else if v.flattenRaises symbol then (none, x)
  else if qty ≤ 0 then (some false, x)
  else
    (some true,
      { x with holdings := trade upper symbol (-side.sign * (qty - v.unfilled symbol)) x.holdings })

/-- `close_all_positions(cancel_orders=True)`; `none` when it raises. -/
def closeAllPositions (x : Exchange) : Option Exchange :=
  if v.soakMode then some x else if v.closeAllRaises then none else some {}

end Broker

/-! ## The cascade -/

structure FlattenResult where
  executed : Bool
  skipped : Bool
  reason : String
  symbolsFlattened : List String := []
  symbolsFailed : List String := []
  positionCount : Nat := 0
  deriving DecidableEq

/-- The protocol's flag, the staged orders (key to broker id) and the broker. -/
structure Desk where
  portfolioFlattening : Bool := false
  pendingOrders : Dict String (Option String) := .empty
  exchange : Exchange := {}
  deriving DecidableEq

/-- What the flatten loop has done so far. -/
structure FlattenLoop where
  flattened : List String := []
  failed : List String := []
  exchange : Exchange

section Cascade
variable (upper : String → String) (v : Venue)

/-- An exception is logged, and the next symbol has its turn. -/
def cancelStep (x : Exchange) (symbol : String) : Exchange :=
  (cancelOpenOrdersForSymbol upper v symbol x).2

def awaitStep (x : Exchange) (symbol : String) : Exchange :=
  if v.awaitRaises symbol then x
  else
    let waited := awaitOpenOrdersCleared upper (v.firstWaitRunsOut symbol) symbol x
    if waited.1.1 then waited.2
    else
      (awaitOpenOrdersCleared upper (v.secondWaitRunsOut symbol) symbol
        (forceCancelAllOrdersForSymbol upper v symbol waited.2)).2

def flattenStep (l : FlattenLoop) (position : BrokerPosition) : FlattenLoop :=
  let symbol := upper position.symbol
  if position.qty ≤ 0 then l
  else
    match forceFlattenSymbolPosition upper v symbol position.side position.qty l.exchange with
    | (none, x) => { l with failed := l.failed ++ [symbol], exchange := x }
    | (some true, x) => { l with flattened := l.flattened ++ [symbol], exchange := x }
    | (some false, x) => { l with exchange := x }

/-- `sorted({str(p.symbol).upper() for p in positions})`. -/
def symbolsOf (positions : List BrokerPosition) : List String :=
  StableSort.sortBy id (positions.map fun p => upper p.symbol).dedup

/-- `none` in place of the result when the call raises. -/
def executePortfolioFlatten (reason : String) (s : Desk) : Option FlattenResult × Desk :=
  if s.portfolioFlattening then
    (some { executed := false, skipped := true, reason := "portfolio_flatten_already_active" }, s)
  else
    let positions := s.exchange.getPositions
    let symbols := symbolsOf upper positions
    let x := symbols.foldl (cancelStep upper v) s.exchange
    let x := symbols.foldl (awaitStep upper v) x
    -- `clear_all` drops the staged orders whatever the waits have shown.
    let s := { s with pendingOrders := .empty }
    if positions ≠ [] then
      let l := positions.foldl (flattenStep upper v) { exchange := x }
      (some
        { executed := true, skipped := false, reason, symbolsFlattened := l.flattened
          symbolsFailed := l.failed, positionCount := positions.length },
        { s with exchange := l.exchange })
    else
      match closeAllPositions v x with
      | none => (none, { s with exchange := x })
      | some x =>
        (some { executed := true, skipped := false, reason }, { s with exchange := x })

end Cascade

/-- No open position, no open order, and no staged entry for an open order. -/
structure NothingLive (s : Desk) : Prop where
  flat : s.exchange.openHoldings = []
  clear : s.exchange.openOrders = []
  unstaged : ∀ key orderId, s.pendingOrders.get? key = some (some orderId) →
    ∀ o ∈ s.exchange.openOrders, o.orderId ≠ orderId

/-! ## The orders -/

variable {upper : String → String} {v : Venue}

/-- No cancel was asked of the order: its symbol is none of these. -/
def PassedOver (upper : String → String) (symbols : List String) (o : OpenOrder) : Prop :=
  upper o.symbol ∉ symbols.map upper

instance (symbols : List String) : DecidablePred (PassedOver upper symbols) := fun o =>
  inferInstanceAs (Decidable (upper o.symbol ∉ symbols.map upper))

theorem passedOver_cons (symbol : String) (rest : List String) (o : OpenOrder) :
    PassedOver upper (symbol :: rest) o ↔
      PassedOver upper rest o ∧ PassedOver upper [symbol] o := by
  simp only [PassedOver, List.map_cons, List.mem_cons, List.map_nil, List.not_mem_nil, or_false,
    not_or]
  exact and_comm

theorem filter_cancelLoop (refuses : String → Bool) {symbol : String} {p : OpenOrder → Bool}
    (hp : ∀ o, upper o.symbol = upper symbol → p o = false) (orders : List OpenOrder) :
    (cancelLoop upper refuses symbol orders).2.filter p = orders.filter p := by
  induction orders with
  | nil => rfl
  | cons o rest ih =>
    unfold cancelLoop
    split
    · simp only [List.filter_cons, ih]
    · rename_i hsym
      split
      · rfl
      · have hoff : ∀ c, p { o with cancelRequested := c } = false :=
          fun c => hp _ (not_not.mp hsym)
        simp only [List.filter_cons, hoff true, hp o (not_not.mp hsym), ih, Bool.false_eq_true,
          if_false]

theorem filter_forceCancel {symbol : String} {p : OpenOrder → Bool}
    (hp : ∀ o, upper o.symbol = upper symbol → p o = false) (x : Exchange) :
    (forceCancelAllOrdersForSymbol upper v symbol x).openOrders.filter p =
      x.openOrders.filter p := by
  unfold forceCancelAllOrdersForSymbol
  induction x.openOrders with
  | nil => rfl
  | cons o rest ih =>
    simp only [List.map_cons, List.filter_cons, ih]
    split
    · rename_i hsym
      rw [hp { o with cancelRequested := true } hsym.1, hp o hsym.1]
      rfl
    · rfl

/-- A wait touches the orders of its own symbol only. -/
theorem filter_await (runsOut : Bool) {symbol : String} {p : OpenOrder → Bool}
    (hp : ∀ o, upper o.symbol = upper symbol → p o = false) (x : Exchange) :
    (awaitOpenOrdersCleared upper runsOut symbol x).2.openOrders.filter p =
      x.openOrders.filter p := by
  unfold awaitOpenOrdersCleared
  cases runsOut with
  | true => rfl
  | false =>
    simp only [Bool.false_eq_true, if_false, List.filter_filter]
    refine List.filter_congr fun o _ => ?_
    by_cases hsym : upper o.symbol = upper symbol
    · simp [hp o hsym]
    · simp [hsym]

/-- A wait that reports the symbol cleared leaves the other orders alone. -/
theorem await_cleared {runsOut : Bool} {symbol : String} {x : Exchange}
    (h : (awaitOpenOrdersCleared upper runsOut symbol x).1.1 = true) :
    (awaitOpenOrdersCleared upper runsOut symbol x).2.openOrders =
      x.openOrders.filter (PassedOver upper [symbol] ·) := by
  have hothers : ∀ o : OpenOrder, upper o.symbol = upper symbol →
      decide (PassedOver upper [symbol] o) = false := fun o ho => by simp [PassedOver, ho]
  rw [← filter_await runsOut hothers x]
  refine (List.filter_eq_self.mpr fun o ho => ?_).symm
  have hzero : countOpenOrdersForSymbol upper symbol
      (awaitOpenOrdersCleared upper runsOut symbol x).2 = 0 := beq_iff_eq.mp h
  have hnot := List.countP_eq_zero.mp hzero o ho
  simpa [PassedOver] using hnot

/-- Forced and then waited for, every order of the symbol is gone. -/
theorem forced_cleared (hv : v.Succeeds) (symbol : String) (x : Exchange) :
    (awaitOpenOrdersCleared upper false symbol
      (forceCancelAllOrdersForSymbol upper v symbol x)).1.1 = true := by
  refine beq_iff_eq.mpr (List.countP_eq_zero.mpr fun o ho => ?_)
  obtain ⟨hin, hkept⟩ := List.mem_filter.mp ho
  obtain ⟨o', -, rfl⟩ := List.mem_map.mp hin
  intro hsym
  by_cases hsym' : upper o'.symbol = upper symbol
  · simp [hsym', hv.cancels] at hkept
  · simp [hsym'] at hsym

theorem awaitStep_openOrders (hv : v.Succeeds) (x : Exchange) (symbol : String) :
    (awaitStep upper v x symbol).openOrders = x.openOrders.filter (PassedOver upper [symbol] ·) := by
  have hothers : ∀ o : OpenOrder, upper o.symbol = upper symbol →
      decide (PassedOver upper [symbol] o) = false := fun o ho => by simp [PassedOver, ho]
  unfold awaitStep
  rw [hv.awaits, hv.clears]
  dsimp only
  split
  · contradiction
  split
  · rename_i hcleared
    exact await_cleared hcleared
  · rw [await_cleared (forced_cleared hv symbol _), filter_forceCancel hothers,
      filter_await _ hothers]

theorem awaitSteps_openOrders (hv : v.Succeeds) (symbols : List String) (x : Exchange) :
    (symbols.foldl (awaitStep upper v) x).openOrders =
      x.openOrders.filter (PassedOver upper symbols ·) := by
  induction symbols generalizing x with
  | nil => exact (List.filter_eq_self.mpr fun o _ => by simp [PassedOver]).symm
  | cons symbol rest ih =>
    rw [List.foldl_cons, ih, awaitStep_openOrders hv, List.filter_filter]
    refine List.filter_congr fun o _ => ?_
    rw [← Bool.decide_and]
    exact decide_eq_decide.mpr (passedOver_cons symbol rest o).symm

theorem cancelSteps_openOrders {symbols : List String} {p : OpenOrder → Bool}
    (hp : ∀ symbol ∈ symbols, ∀ o, upper o.symbol = upper symbol → p o = false) (x : Exchange) :
    (symbols.foldl (cancelStep upper v) x).openOrders.filter p = x.openOrders.filter p := by
  induction symbols generalizing x with
  | nil => rfl
  | cons symbol rest ih =>
    rw [List.foldl_cons, ih fun s hs => hp s (List.mem_cons_of_mem _ hs)]
    exact filter_cancelLoop _ (hp symbol List.mem_cons_self) x.openOrders

/-- What the two loops leave of the orders: those they passed over. -/
theorem loops_openOrders (hv : v.Succeeds) (symbols : List String) (x : Exchange) :
    (symbols.foldl (awaitStep upper v) (symbols.foldl (cancelStep upper v) x)).openOrders =
      x.openOrders.filter (PassedOver upper symbols ·) := by
  rw [awaitSteps_openOrders hv]
  refine cancelSteps_openOrders (fun symbol hsymbol o ho => decide_eq_false ?_) x
  exact fun hpassed => hpassed (List.mem_map.mpr ⟨symbol, hsymbol, ho.symm⟩)

theorem awaitStep_holdings (x : Exchange) (symbol : String) :
    (awaitStep upper v x symbol).holdings = x.holdings := by
  have hwait : ∀ (runsOut : Bool) (x : Exchange),
      (awaitOpenOrdersCleared upper runsOut symbol x).2.holdings = x.holdings := by
    intro runsOut x
    cases runsOut <;> rfl
  unfold awaitStep
  dsimp only
  split
  · rfl
  split
  · exact hwait _ x
  · exact (hwait _ _).trans (hwait _ x)

theorem loops_holdings (symbols : List String) (x : Exchange) :
    (symbols.foldl (awaitStep upper v) (symbols.foldl (cancelStep upper v) x)).holdings =
      x.holdings := by
  have hloop : ∀ (step : Exchange → String → Exchange),
      (∀ x symbol, (step x symbol).holdings = x.holdings) →
      ∀ x, (symbols.foldl step x).holdings = x.holdings := by
    intro step hstep
    induction symbols with
    | nil => exact fun _ => rfl
    | cons symbol rest ih => exact fun x => (ih (step x symbol)).trans (hstep x symbol)
  rw [hloop _ awaitStep_holdings, hloop (cancelStep upper v) fun _ _ => rfl]

/-! ## The positions -/

/-- A holding after its turn: flat, unless its flatten raised. -/
def Holding.closed (upper : String → String) (v : Venue) (h : Holding) : Holding :=
  if v.flattenRaises (upper h.symbol) then h else { h with qty := 0 }

/-- A holding no later closing order falls on by mistake. -/
def Settled (upper : String → String) (v : Venue) (h : Holding) : Prop :=
  h.qty = 0 ∨ v.flattenRaises (upper h.symbol) = true

theorem settled_closed (h : Holding) : Settled upper v (h.closed upper v) := by
  unfold Holding.closed
  split
  · rename_i hraises
    exact .inr hraises
  · exact .inl rfl

/-- The closing order nets out the position it was sized from. -/
theorem closing_delta (h : Holding) : -h.position.side.sign * (h.position.qty - 0) = -h.qty := by
  unfold Holding.position
  dsimp only
  split
  · rename_i hpos
    rw [abs_of_pos hpos]
    simp [PositionSide.sign]
  · rename_i hneg
    rw [abs_of_nonpos (not_lt.mp hneg)]
    simp [PositionSide.sign]

variable (hup : ∀ s, upper (upper s) = upper s)
include hup

theorem trade_closes {h : Holding} (hopen : h.qty ≠ 0)
    (hworks : v.flattenRaises (upper h.symbol) = false) (rest : List Holding) :
    ∀ {settled : List Holding}, (∀ g ∈ settled, Settled upper v g) →
      trade upper (upper h.symbol) (-h.qty) (settled ++ h :: rest) =
        settled ++ { h with qty := 0 } :: rest
  | [], _ => by
    have hneg : h.qty * -h.qty < 0 := by
      rw [mul_neg]
      exact neg_neg_of_pos (mul_self_pos.mpr hopen)
    rw [List.nil_append, trade, if_pos ⟨(hup _).symm, hneg⟩, add_neg_cancel]
    rfl
  | g :: settled, hsettled => by
    have hskip : ¬(upper g.symbol = upper (upper h.symbol) ∧ g.qty * -h.qty < 0) := by
      intro h
      obtain ⟨hsym, hneg⟩ := h
      rcases hsettled g List.mem_cons_self with hzero | hraises
      · simp [hzero] at hneg
      · rw [hsym, hup, hworks] at hraises
        exact Bool.false_ne_true hraises
    have ih := trade_closes hopen hworks rest fun g' hg' =>
      hsettled g' (List.mem_cons_of_mem _ hg')
    simp only [List.cons_append, trade, if_neg hskip, ih]

/-- One turn of the loop: the holding is closed, or its symbol is put down as failed. -/
theorem flattenStep_closes (hlive : v.soakMode = false) (hfills : ∀ s, v.unfilled s = 0)
    {h : Holding} (hopen : h.qty ≠ 0) {settled : List Holding}
    (hsettled : ∀ g ∈ settled, Settled upper v g) (rest : List Holding) {l : FlattenLoop}
    (hl : l.exchange.holdings = settled ++ h :: rest) :
    (flattenStep upper v l h.position).exchange.holdings = settled ++ h.closed upper v :: rest ∧
    (flattenStep upper v l h.position).exchange.openOrders = l.exchange.openOrders ∧
    (flattenStep upper v l h.position).failed =
      l.failed ++ (if v.flattenRaises (upper h.symbol) then [upper h.symbol] else []) := by
  have hqty : ¬h.position.qty ≤ 0 := not_le.mpr (abs_pos.mpr hopen)
  have hsym : h.position.symbol = h.symbol := rfl
  unfold flattenStep forceFlattenSymbolPosition Holding.closed
  simp only [if_neg hqty, hlive, hsym, hfills, closing_delta, Bool.false_eq_true, if_false]
  by_cases hraises : v.flattenRaises (upper h.symbol) = true
  · simp only [hraises, if_true]
    exact ⟨hl, trivial, trivial⟩
  · have hworks : v.flattenRaises (upper h.symbol) = false := Bool.not_eq_true _ ▸ hraises
    simp only [hworks, Bool.false_eq_true, if_false, List.append_nil]
    exact ⟨hl ▸ trade_closes hup hopen hworks rest hsettled, trivial, trivial⟩

omit hup in
theorem closed_of_flat {h : Holding} (hflat : h.qty = 0) : h.closed upper v = h := by
  unfold Holding.closed
  split
  · rfl
  · cases h
    cases hflat
    rfl

/-- The whole loop: every holding is closed but those whose flatten raised, and
just their symbols are reported. -/
theorem flatten_loop (hlive : v.soakMode = false) (hfills : ∀ s, v.unfilled s = 0)
    (holdings : List Holding) :
    ∀ (settled : List Holding), (∀ g ∈ settled, Settled upper v g) →
      ∀ l : FlattenLoop, l.exchange.holdings = settled ++ holdings →
        let positions := (holdings.filter (·.qty ≠ 0)).map (·.position)
        let l' := positions.foldl (flattenStep upper v) l
        l'.exchange.holdings = settled ++ holdings.map (·.closed upper v) ∧
        l'.exchange.openOrders = l.exchange.openOrders ∧
        l'.failed = l.failed ++
          (positions.map fun p => upper p.symbol).filter (v.flattenRaises ·) := by
  induction holdings with
  | nil =>
    intro settled _ l hl
    exact ⟨hl, rfl, (List.append_nil _).symm⟩
  | cons h rest ih =>
    intro settled hsettled l hl
    have hnext : ∀ g ∈ settled ++ [h.closed upper v], Settled upper v g := by
      intro g hg
      rcases List.mem_append.mp hg with hg | hg
      · exact hsettled g hg
      · rw [List.mem_singleton.mp hg]
        exact settled_closed h
    by_cases hflat : h.qty = 0
    · have hself : h.closed upper v = h := closed_of_flat hflat
      obtain ⟨hholdings, horders, hfailed⟩ :=
        ih (settled ++ [h.closed upper v]) hnext l (by rw [hl, hself, List.append_assoc]; rfl)
      rw [List.filter_cons_of_neg (by simp [hflat])]
      exact ⟨by rw [hholdings, List.append_assoc]; rfl, horders, hfailed⟩
    · obtain ⟨hstep, hsame, hreport⟩ := flattenStep_closes hup hlive hfills hflat hsettled rest hl
      obtain ⟨hholdings, horders, hfailed⟩ :=
        ih (settled ++ [h.closed upper v]) hnext (flattenStep upper v l h.position)
          (by rw [hstep, List.append_assoc]; rfl)
      rw [List.filter_cons_of_pos (by simpa using hflat), List.map_cons]
      dsimp only
      rw [List.foldl_cons]
      refine ⟨by rw [hholdings, List.append_assoc]; rfl, horders.trans hsame, ?_⟩
      rw [hfailed, hreport, List.append_assoc, List.map_cons, List.filter_cons]
      have hsym : h.position.symbol = h.symbol := rfl
      rw [hsym]
      split <;> rfl

omit hup in
theorem closed_flat (hv : v.Succeeds) (h : Holding) : (h.closed upper v).qty = 0 := by
  simp [Holding.closed, hv.flattens]

/-! ## The portfolio flatten -/

omit hup in
theorem mem_symbolsOf {positions : List BrokerPosition} {s : String} :
    s ∈ symbolsOf upper positions ↔ ∃ p ∈ positions, upper p.symbol = s := by
  unfold symbolsOf
  rw [(StableSort.sortBy_perm _).mem_iff, List.mem_dedup, List.mem_map]

/-- An order is passed over when no open position is on its symbol. -/
theorem passedOver_symbolsOf (x : Exchange) (o : OpenOrder) :
    PassedOver upper (symbolsOf upper x.getPositions) o ↔
      ∀ h ∈ x.openHoldings, upper h.symbol ≠ upper o.symbol := by
  unfold PassedOver Exchange.getPositions
  constructor
  · intro hpassed h hh hsym
    refine hpassed (List.mem_map.mpr ⟨upper h.symbol, mem_symbolsOf.mpr ?_, ?_⟩)
    · exact ⟨h.position, List.mem_map.mpr ⟨h, hh, rfl⟩, rfl⟩
    · rw [hup, hsym]
  · intro hnone hin
    obtain ⟨s, hs, hsym⟩ := List.mem_map.mp hin
    obtain ⟨p, hp, rfl⟩ := mem_symbolsOf.mp hs
    obtain ⟨h, hh, rfl⟩ := List.mem_map.mp hp
    exact hnone h hh ((hup _).symm.trans hsym)

/-- What an executed flatten leaves when it found a position. -/
theorem execute_with_positions (hv : v.Succeeds) (reason : String) {s : Desk}
    (hidle : s.portfolioFlattening = false) (hopen : s.exchange.openHoldings ≠ []) :
    ∃ result, (executePortfolioFlatten upper v reason s).1 = some result ∧
      result.executed = true ∧ result.symbolsFailed = [] ∧
      let s' := (executePortfolioFlatten upper v reason s).2
      s'.exchange.openHoldings = [] ∧ s'.pendingOrders = .empty ∧
      s'.exchange.openOrders =
        s.exchange.openOrders.filter
          (PassedOver upper (symbolsOf upper s.exchange.getPositions) ·) := by
  have hpos : s.exchange.getPositions ≠ [] := mt List.map_eq_nil_iff.mp hopen
  obtain ⟨hholdings, horders, hfailed⟩ :=
    flatten_loop hup hv.live hv.fills s.exchange.holdings [] (fun _ h => nomatch h)
      { exchange := (symbolsOf upper s.exchange.getPositions).foldl (awaitStep upper v)
          ((symbolsOf upper s.exchange.getPositions).foldl (cancelStep upper v) s.exchange) }
      (loops_holdings _ _)
  unfold executePortfolioFlatten
  simp only [hidle, Bool.false_eq_true, if_false, if_pos hpos]
  refine ⟨_, rfl, rfl, hfailed.trans ?_, ?_, trivial, horders.trans (loops_openOrders hv _ _)⟩
  · exact List.filter_eq_nil_iff.mpr fun symbol _ => by simp [hv.flattens]
  · unfold Exchange.openHoldings
    refine List.filter_eq_nil_iff.mpr fun g hg => ?_
    obtain ⟨h, -, rfl⟩ := List.mem_map.mp ((congrArg (g ∈ ·) hholdings).mp hg)
    simp [closed_flat hv]

omit hup in
/-- Without a position the broker is told to close and to cancel everything. -/
theorem execute_without_positions (hv : v.Succeeds) (reason : String) {s : Desk}
    (hidle : s.portfolioFlattening = false) (hflat : s.exchange.openHoldings = []) :
    (executePortfolioFlatten upper v reason s).2 = { s with pendingOrders := .empty, exchange := {} }
    := by
  have hpos : s.exchange.getPositions = [] := List.map_eq_nil_iff.mpr hflat
  unfold executePortfolioFlatten closeAllPositions
  simp [hidle, hpos, hv.live, hv.closesAll]

/-- An executed flatten leaves nothing live just when every open order was on the
symbol of an open position, or there was no position to begin with. -/
theorem nothing_live_iff (hv : v.Succeeds) (reason : String) (s : Desk) :
    (∀ result, (executePortfolioFlatten upper v reason s).1 = some result →
      result.executed = true → NothingLive (executePortfolioFlatten upper v reason s).2) ↔
    (s.portfolioFlattening = true ∨ s.exchange.openHoldings = [] ∨
      ∀ o ∈ s.exchange.openOrders, ∃ h ∈ s.exchange.openHoldings,
        upper h.symbol = upper o.symbol) := by
  by_cases hidle : s.portfolioFlattening = false
  swap
  · have hbusy : s.portfolioFlattening = true := Bool.not_eq_false _ ▸ hidle
    refine iff_of_true (fun result hres hexec => ?_) (.inl hbusy)
    rw [executePortfolioFlatten, if_pos hbusy] at hres
    cases hres
    cases hexec
  by_cases hflat : s.exchange.openHoldings = []
  · refine iff_of_true (fun result _ _ => ?_) (.inr (.inl hflat))
    rw [execute_without_positions hv reason hidle hflat]
    exact ⟨rfl, rfl, fun _ _ hkey => nomatch hkey⟩
  obtain ⟨result, hres, hexec, -, hclosed, hunstaged, horders⟩ :=
    execute_with_positions hup hv reason hidle hflat
  have hmet : (∀ o ∈ s.exchange.openOrders, ∃ h ∈ s.exchange.openHoldings,
      upper h.symbol = upper o.symbol) ↔
      (executePortfolioFlatten upper v reason s).2.exchange.openOrders = [] := by
    rw [horders, List.filter_eq_nil_iff]
    refine forall₂_congr fun o _ => ?_
    rw [decide_eq_true_eq, passedOver_symbolsOf hup]
    simp only [ne_eq, not_forall, not_not, exists_prop]
  simp only [hidle, hflat, Bool.false_eq_true, false_or, hmet]
  constructor
  · exact fun hall => (hall result hres hexec).clear
  · intro hclear _ _ _
    refine ⟨hclosed, hclear, fun key orderId hkey => ?_⟩
    rw [hunstaged] at hkey
    cases hkey

omit hup

/-- A broker on which everything works at once. -/
def smooth : Venue where
  refusesCancel := fun _ => false
  awaitRaises := fun _ => false
  firstWaitRunsOut := fun _ => false
  secondWaitRunsOut := fun _ => false
  flattenRaises := fun _ => false
  unfilled := fun _ => 0

theorem smooth_succeeds : smooth.Succeeds :=
  ⟨fun _ => rfl, fun _ => rfl, fun _ => rfl, fun _ => rfl, fun _ => rfl, rfl, rfl⟩

/-- A position in QQQ, and a resting order on the symbols given. -/
def qqqDesk (symbols : List String) : Desk :=
  { exchange :=
      { holdings := [{ symbol := "QQQ", qty := 10 }]
        openOrders := symbols.map fun symbol => { orderId := "resting-" ++ symbol, symbol } } }

theorem qqq_order_cancelled :
    NothingLive (executePortfolioFlatten id smooth "trip" (qqqDesk ["QQQ"])).2 :=
  (nothing_live_iff (fun _ => rfl) smooth_succeeds "trip" (qqqDesk ["QQQ"])).mpr
    (.inr (.inr (by decide +kernel))) _ rfl (by decide +kernel)

/-- The resting SPY order survives the flatten of the QQQ position. -/
theorem unheld_symbol_order_survives :
    (∃ result, (executePortfolioFlatten id smooth "trip" (qqqDesk ["SPY"])).1 = some result ∧
      result.executed = true) ∧
    ¬NothingLive (executePortfolioFlatten id smooth "trip" (qqqDesk ["SPY"])).2 := by
  refine ⟨⟨_, rfl, by decide +kernel⟩, fun h => ?_⟩
  have horder : (executePortfolioFlatten id smooth "trip" (qqqDesk ["SPY"])).2.exchange.openOrders =
      [{ orderId := "resting-SPY", symbol := "SPY" }] := by decide +kernel
  exact List.cons_ne_nil _ _ (horder.symm.trans h.clear)

end TradingPlatform.Engine.FlattenProtocol
