import TradingPlatform.Broker.AlpacaTactics
import TradingPlatform.Engine.EntryReconstruction

/-! # The fill history that reconciliation reads

`_get_symbol_fills_sync` asks the broker for the closed orders of a symbol since
a cutoff, and keeps those of two statuses whose symbol is spelled as asked for.
What an order executed under another status, under another spelling or after a
submission before the cutoff is lost. -/

namespace TradingPlatform.Broker.Alpaca

open TradingPlatform.Lib TradingPlatform.Lib.StableSort TradingPlatform.Engine.PreFlight
open TradingPlatform.Lib.Binary64 (nearestValue)

/-- The statuses an order can have at the broker. -/
inductive OrderStatus
  | new
  | accepted
  | pendingNew
  | acceptedForBidding
  | partiallyFilled
  | filled
  | doneForDay
  | canceled
  | expired
  | replaced
  | pendingCancel
  | pendingReplace
  | stopped
  | rejected
  | suspended
  | calculated
  deriving DecidableEq, Repr

inductive QueryOrderStatus
  | open
  | closed
  | all
  deriving DecidableEq, Repr

/-- Times are in microseconds. -/
structure BrokerOrder where
  orderId : String
  symbol : String
  side : Side
  filledQty : Option ℚ
  filledAt : Option ℤ
  status : OrderStatus
  submittedAt : ℤ
  deriving DecidableEq

structure GetOrdersRequest where
  status : QueryOrderStatus
  symbols : List String
  after : ℤ
  descending : Bool
  limit : Nat
  deriving DecidableEq

def symbolFillsLimit : Nat := 500

section Fills
variable (t : Texts) (getOrders : GetOrdersRequest → List BrokerOrder) (now : ℤ)
  (symbol : String) (lookbackDays : ℤ)

def fillsAfter : ℤ := now - max lookbackDays 1 * 86400000000

def symbolFillsRequest : GetOrdersRequest where
  status := .closed
  symbols := [brokerSymbol t.upper (t.upper symbol)]
  after := fillsAfter now lookbackDays
  descending := true
  limit := symbolFillsLimit

/-- The body of the loop over the orders. -/
def fillOf (order : BrokerOrder) : Option BrokerFillSnapshot :=
  match order.filledAt with
  | none => none
  | some filledAt =>
    let filledQty := order.filledQty.getD 0
    if filledQty ≤ 0 then none
    else if order.status ∉ [OrderStatus.filled, OrderStatus.partiallyFilled] then none
    else if t.upper order.symbol ≠ t.upper symbol then none
    else some { symbol := t.upper symbol, side := t.lower order.side.value, filledQty, filledAt }

def getSymbolFillsSync : List BrokerFillSnapshot :=
  sortBy (·.filledAt)
    ((getOrders (symbolFillsRequest t now symbol lookbackDays)).filterMap (fillOf t symbol))

/-! ## What the orders executed -/

/-- What the order executed, as the reconciliation would have to see it. -/
def BrokerOrder.execution (order : BrokerOrder) : BrokerFillSnapshot where
  symbol := t.upper symbol
  side := t.lower order.side.value
  filledQty := order.filledQty.getD 0
  filledAt := order.filledAt.getD 0

def BrokerOrder.signedExecuted (order : BrokerOrder) : ℚ :=
  order.side.sign * order.filledQty.getD 0

/-- The order executed something since the cutoff. -/
def ExecutedSince (after : ℤ) (order : BrokerOrder) : Bool :=
  decide (0 < order.filledQty.getD 0) &&
    order.filledAt.any fun filledAt => decide (after < filledAt)

/-- The order answers the request, and passes the filter on status and spelling. -/
def Kept (closed : OrderStatus → Bool) (after : ℤ) (order : BrokerOrder) : Bool :=
  closed order.status && decide (after < order.submittedAt) &&
    decide (order.status ∈ [OrderStatus.filled, OrderStatus.partiallyFilled]) &&
      decide (t.upper order.symbol = t.upper symbol)

def totalSigned (orders : List BrokerOrder) : ℚ := (orders.map (·.signedExecuted)).sum

/-- The orders that executed since the cutoff, in the order of their fills. -/
def executedOrders (after : ℤ) (history : List BrokerOrder) : List BrokerOrder :=
  sortBy (fun order => order.filledAt.getD 0) (history.filter (ExecutedSince after))

/-- The broker answers a request for the closed orders of the symbol with those of its
history that were submitted after the cutoff, if they fit the page. -/
def AnswersClosed (closed : OrderStatus → Bool) (history : List BrokerOrder) : Prop :=
  ∀ request : GetOrdersRequest, request.status = .closed →
    request.symbols = [brokerSymbol t.upper (t.upper symbol)] →
    history.length ≤ request.limit →
    (getOrders request).Perm (history.filter fun order =>
      closed order.status && decide (request.after < order.submittedAt))

/-- Python's text functions on the two sides. -/
structure ReadsSides : Prop where
  buy : t.lower (t.strip (t.lower "buy")) = "buy"
  sell : t.lower (t.strip (t.lower "sell")) = "sell"

variable {t getOrders now symbol lookbackDays}
variable {closed : OrderStatus → Bool} {history : List BrokerOrder}

/-- An order is filled after it was submitted. -/
def FilledAfterSubmission (history : List BrokerOrder) : Prop :=
  ∀ order ∈ history, ∀ filledAt, order.filledAt = some filledAt → order.submittedAt ≤ filledAt

/-- An order that comes back yields its execution exactly when it is kept. -/
theorem fillOf_of_submitted {order : BrokerOrder} {after : ℤ}
    (hcausal : ∀ filledAt, order.filledAt = some filledAt → order.submittedAt ≤ filledAt) :
    (if closed order.status && decide (after < order.submittedAt) then fillOf t symbol order
      else none) =
      if ExecutedSince after order && Kept t symbol closed after order then
        some (order.execution t symbol)
      else none := by
  unfold fillOf ExecutedSince Kept BrokerOrder.execution
  cases hfilled : order.filledAt with
  | none => simp
  | some filledAt =>
    have hle := hcausal filledAt hfilled
    by_cases hback : closed order.status = true ∧ after < order.submittedAt
    · have hlt : after < filledAt := hback.2.trans_le hle
      by_cases hqty : order.filledQty.getD 0 ≤ 0
      · simp [hqty]
      · simp only [hback.1, hback.2, hqty, not_le.mp hqty]
        by_cases hstatus : order.status ∈ [OrderStatus.filled, OrderStatus.partiallyFilled]
        · by_cases hsymbol : t.upper order.symbol = t.upper symbol
          · simp [hstatus, hsymbol, hlt]
          · simp [hstatus, hsymbol]
        · simp [hstatus]
    · have hnot : (closed order.status && decide (after < order.submittedAt)) = false := by
        simpa using hback
      simp [hnot]

/-- The kept executions, in the order of their fills. -/
def keptFills (t : Texts) (symbol : String) (closed : OrderStatus → Bool) (after : ℤ)
    (history : List BrokerOrder) : List BrokerFillSnapshot :=
  ((executedOrders after history).filter (Kept t symbol closed after)).map (·.execution t symbol)

def executedFills (t : Texts) (symbol : String) (after : ℤ) (history : List BrokerOrder) :
    List BrokerFillSnapshot :=
  (executedOrders after history).map (·.execution t symbol)

/-- The fills returned are the kept executions. -/
theorem getSymbolFillsSync_perm (hanswers : AnswersClosed t getOrders symbol closed history)
    (hpage : history.length ≤ symbolFillsLimit) (hcausal : FilledAfterSubmission history) :
    (getSymbolFillsSync t getOrders now symbol lookbackDays).Perm
      (keptFills t symbol closed (fillsAfter now lookbackDays) history) := by
  set after := fillsAfter now lookbackDays
  have hpoint : (history.filter fun order =>
      closed order.status && decide (after < order.submittedAt)).filterMap (fillOf t symbol) =
      (history.filter fun order =>
        ExecutedSince after order && Kept t symbol closed after order).map
          (·.execution t symbol) := by
    rw [List.filterMap_filter, ← List.filterMap_eq_map, List.filterMap_filter]
    exact List.filterMap_congr fun order horder => fillOf_of_submitted (hcausal order horder)
  have hback := hanswers (symbolFillsRequest t now symbol lookbackDays) rfl rfl hpage
  refine (sortBy_perm _).trans ((hback.filterMap _).trans ?_)
  have hkept : ((executedOrders after history).filter (Kept t symbol closed after)).Perm
      (history.filter fun order =>
        ExecutedSince after order && Kept t symbol closed after order) := by
    refine ((sortBy_perm _).filter _).trans (List.Perm.of_eq ?_)
    simp only [List.filter_filter, Bool.and_comm]
  exact (List.Perm.of_eq hpoint).trans (hkept.map _).symm

theorem netFills_perm (t : Texts) {xs ys : List BrokerFillSnapshot} (h : xs.Perm ys) :
    netFills t xs = netFills t ys :=
  (h.map _).sum_eq

theorem netFills_execution (hreads : ReadsSides t) (orders : List BrokerOrder) :
    netFills t (orders.map (·.execution t symbol)) = totalSigned orders := by
  induction orders with
  | nil => rfl
  | cons order orders ih =>
    have hone : signedQty t (order.execution t symbol) = order.signedExecuted := by
      unfold signedQty BrokerOrder.execution BrokerOrder.signedExecuted
      cases order.side with
      | buy => simp [Side.value, Side.sign, hreads.buy]
      | sell => simp [Side.value, Side.sign, hreads.sell]
    rw [List.map_cons, netFills_cons, ih, hone, totalSigned, totalSigned, List.map_cons,
      List.sum_cons]

theorem totalSigned_perm {xs ys : List BrokerOrder} (h : xs.Perm ys) :
    totalSigned xs = totalSigned ys :=
  (h.map _).sum_eq

/-- Kept and lost make up the whole. -/
theorem totalSigned_filter (p : BrokerOrder → Bool) (orders : List BrokerOrder) :
    totalSigned (orders.filter p) + totalSigned (orders.filter fun order => !p order) =
      totalSigned orders := by
  have hperm : (orders.filter p ++ orders.filter fun order => !p order).Perm orders :=
    List.filter_append_perm p orders
  rw [← totalSigned_perm hperm]
  simp [totalSigned]

/-! ## When the fill history is lossless -/

/-- The orders whose execution since the cutoff does not come back: their status is neither
FILLED nor PARTIALLY_FILLED (or not a closed one), they are spelled otherwise than asked for,
or they were submitted before the cutoff. -/
def lostOrders (t : Texts) (symbol : String) (closed : OrderStatus → Bool) (after : ℤ)
    (history : List BrokerOrder) : List BrokerOrder :=
  (executedOrders after history).filter fun order => !Kept t symbol closed after order

/-- The fills returned add up to what was executed since the cutoff, and of a position that
the executions explain they show the opening fill. -/
structure Lossless (t : Texts) (getOrders : GetOrdersRequest → List BrokerOrder) (now : ℤ)
    (symbol : String) (lookbackDays : ℤ) (history : List BrokerOrder) : Prop where
  sum : netFills t (getSymbolFillsSync t getOrders now symbol lookbackDays) =
    totalSigned (history.filter (ExecutedSince (fillsAfter now lookbackDays)))
  opening : ∀ side qty qtyTolerance, 0 ≤ qtyTolerance →
    CompleteHistory t symbol side qty qtyTolerance
      (executedFills t symbol (fillsAfter now lookbackDays) history) →
    ∀ opening, OpensBlock t side qtyTolerance
      (executedFills t symbol (fillsAfter now lookbackDays) history) opening →
    findPositionEntryFillTs t (getSymbolFillsSync t getOrders now symbol lookbackDays) symbol qty
      side qtyTolerance = some opening.filledAt

theorem keptFills_sublist (after : ℤ) (history : List BrokerOrder) :
    (keptFills t symbol closed after history).Sublist (executedFills t symbol after history) :=
  List.Sublist.map _ List.filter_sublist

/-- Over the fills that come back the search is the walk over the kept ones. -/
theorem find_eq_walk_kept {side : PositionSide} {qty qtyTolerance : ℚ} {after : ℤ}
    (h : CompleteHistory t symbol side qty qtyTolerance (executedFills t symbol after history))
    {fills : List BrokerFillSnapshot}
    (hperm : fills.Perm (keptFills t symbol closed after history)) :
    findPositionEntryFillTs t fills symbol qty side qtyTolerance =
      walkFills t qtyTolerance (side.sign * nearestValue qty)
        (keptFills t symbol closed after history).reverse :=
  findPositionEntryFillTs_eq_walk h.beyond
    (fun fill hfill => h.symbol fill ((keptFills_sublist after history).subset hfill))
    (fun fill hfill => h.quantity fill ((keptFills_sublist after history).subset hfill))
    (h.chronological.sublist (keptFills_sublist after history)) hperm

variable (now lookbackDays) in
/-- What comes back and what is lost make up what was executed. -/
theorem netFills_returned (hreads : ReadsSides t)
    (hanswers : AnswersClosed t getOrders symbol closed history)
    (hpage : history.length ≤ symbolFillsLimit) (hcausal : FilledAfterSubmission history) :
    netFills t (getSymbolFillsSync t getOrders now symbol lookbackDays) +
        totalSigned (lostOrders t symbol closed (fillsAfter now lookbackDays) history) =
      totalSigned (history.filter (ExecutedSince (fillsAfter now lookbackDays))) := by
  rw [netFills_perm t (getSymbolFillsSync_perm hanswers hpage hcausal), keptFills,
    netFills_execution hreads, lostOrders, totalSigned_filter]
  exact totalSigned_perm (sortBy_perm _)

/-- The history is lossless exactly when the lost orders cancel out and, of a position that the
executions explain, the inventory that is walked back over the others, each time rounded, leaves
the block before the fill that opened it. -/
theorem lossless_iff (hreads : ReadsSides t)
    (hanswers : AnswersClosed t getOrders symbol closed history)
    (hpage : history.length ≤ symbolFillsLimit) (hcausal : FilledAfterSubmission history) :
    Lossless t getOrders now symbol lookbackDays history ↔
      totalSigned (lostOrders t symbol closed (fillsAfter now lookbackDays) history) = 0 ∧
      ∀ side qty qtyTolerance, 0 ≤ qtyTolerance →
        CompleteHistory t symbol side qty qtyTolerance
          (executedFills t symbol (fillsAfter now lookbackDays) history) →
        ∀ opening, OpensBlock t side qtyTolerance
          (executedFills t symbol (fillsAfter now lookbackDays) history) opening →
        WalkOpens t side qtyTolerance (side.sign * nearestValue qty)
          (keptFills t symbol closed (fillsAfter now lookbackDays) history) opening := by
  set after := fillsAfter now lookbackDays
  have hperm : (getSymbolFillsSync t getOrders now symbol lookbackDays).Perm
      (keptFills t symbol closed after history) :=
    getSymbolFillsSync_perm hanswers hpage hcausal
  have hparts := netFills_returned now lookbackDays hreads hanswers hpage hcausal
  have hfinds : ∀ {side qty qtyTolerance}, 0 ≤ qtyTolerance →
      CompleteHistory t symbol side qty qtyTolerance (executedFills t symbol after history) →
      ∀ {opening}, OpensBlock t side qtyTolerance (executedFills t symbol after history) opening →
      (findPositionEntryFillTs t (getSymbolFillsSync t getOrders now symbol lookbackDays) symbol
          qty side qtyTolerance = some opening.filledAt ↔
        WalkOpens t side qtyTolerance (side.sign * nearestValue qty)
          (keptFills t symbol closed after history) opening) := by
    intro side qty qtyTolerance h0 hhistory opening hopens
    rw [find_eq_walk_kept hhistory hperm,
      walkFills_eq_some_iff t h0 (hhistory.target_not_outside h0)]
    constructor
    · rintro ⟨found, hfound, htime⟩
      have hsame : found = opening := (chronological_distinct hhistory.chronological).eq
        ((keptFills_sublist after history).subset (walkOpens_mem hfound)) (opensBlock_mem hopens)
        htime
      exact hsame ▸ hfound
    · exact fun hwalk => ⟨opening, hwalk, rfl⟩
  constructor
  · intro h
    refine ⟨by linarith [h.sum, hparts], ?_⟩
    intro side qty qtyTolerance h0 hhistory opening hopens
    exact (hfinds h0 hhistory hopens).mp (h.opening side qty qtyTolerance h0 hhistory opening hopens)
  · rintro ⟨hlost, hwalk⟩
    refine ⟨by rw [← hparts, hlost, add_zero], ?_⟩
    intro side qty qtyTolerance h0 hhistory opening hopens
    exact (hfinds h0 hhistory hopens).mpr (hwalk side qty qtyTolerance h0 hhistory opening hopens)

/-- Where no order is lost the kept fills are all the executions. -/
theorem keptFills_of_no_lost {after : ℤ} (h : lostOrders t symbol closed after history = []) :
    keptFills t symbol closed after history = executedFills t symbol after history := by
  have hall : ∀ order ∈ executedOrders after history, Kept t symbol closed after order = true := by
    simpa [lostOrders] using h
  rw [keptFills, executedFills, List.filter_eq_self.mpr hall]

end Fills

/-! ## A broker with a page of orders -/

def closedStatus (status : OrderStatus) : Bool :=
  decide (status ∈ [OrderStatus.filled, .canceled, .expired, .rejected, .replaced, .doneForDay])

/-- The closed orders of a history since the cutoff, a page of them. -/
def closedPage (history : List BrokerOrder) (request : GetOrdersRequest) : List BrokerOrder :=
  (history.filter fun order =>
    closedStatus order.status && decide (request.after < order.submittedAt)).take request.limit

theorem closedPage_answersClosed (t : Texts) (symbol : String) (history : List BrokerOrder) :
    AnswersClosed t (closedPage history) symbol closedStatus history := by
  intro request _ _ hlimit
  have hle := (List.length_filter_le (fun order =>
    closedStatus order.status && decide (request.after < order.submittedAt)) history).trans hlimit
  rw [closedPage, List.take_of_length_le hle]

theorem plainTexts_readsSides : ReadsSides plainTexts := ⟨rfl, rfl⟩

def spyOrder (orderId : String) (side : Side) (qty : ℚ) (filledAt : ℤ) (status : OrderStatus) :
    BrokerOrder where
  orderId := orderId
  symbol := "SPY"
  side := side
  filledQty := some qty
  filledAt := some filledAt
  status := status
  submittedAt := filledAt

/-- Filled orders only, spelled as asked for. -/
theorem lossless_filled_orders :
    Lossless plainTexts
      (closedPage [spyOrder "1" .buy 10 5 .filled, spyOrder "2" .sell 4 9 .filled]) 20 "SPY" 30
      [spyOrder "1" .buy 10 5 .filled, spyOrder "2" .sell 4 9 .filled] := by
  refine (lossless_iff plainTexts_readsSides (closedPage_answersClosed plainTexts "SPY" _)
    (by decide) ?_).mpr ⟨by decide +kernel, ?_⟩
  · intro order horder filledAt hfilled
    simp only [List.mem_cons, List.not_mem_nil, or_false] at horder
    rcases horder with rfl | rfl <;> simp_all [spyOrder]
  · intro side qty qtyTolerance h0 hhistory opening hopens
    have hinventories : ∀ p ∈ (executedFills plainTexts "SPY" (fillsAfter 20 30)
        [spyOrder "1" .buy 10 5 .filled, spyOrder "2" .sell 4 9 .filled]).inits,
        nearestValue (netFills plainTexts p) = netFills plainTexts p := by decide +kernel
    rw [keptFills_of_no_lost (by decide +kernel)]
    exact hopens.walkOpens h0 hhistory
      ⟨by decide +kernel, fun p hp => hinventories p ((List.mem_inits _ _).mpr hp)⟩

/-- The broker's spelling of a crypto pair. -/
def btcOrder : BrokerOrder where
  orderId := "7"
  symbol := "BTC/USD"
  side := .buy
  filledQty := some 2
  filledAt := some 5
  status := .filled
  submittedAt := 5

/-- Four shares of an order that was canceled do not come back; nor does a filled crypto order
that was asked for without the slash. -/
theorem not_lossless_canceled :
    ¬ Lossless plainTexts (closedPage [spyOrder "1" .buy 4 5 .canceled]) 20 "SPY" 30
      [spyOrder "1" .buy 4 5 .canceled] ∧
    ¬ Lossless plainTexts (closedPage [btcOrder]) 20 "BTCUSD" 30 [btcOrder] :=
  ⟨fun h => absurd h.sum (by decide +kernel), fun h => absurd h.sum (by decide +kernel)⟩

end TradingPlatform.Broker.Alpaca
