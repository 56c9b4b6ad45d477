import TradingPlatform.Lib.Dict
import TradingPlatform.Models

/-! # Polling the broker for fills

How the Alpaca client turns a poll of an order into a fresh result. What a poll
answers is an oracle's; whatever it answers, a refreshed result is about the same
symbol and side as before. -/

namespace TradingPlatform.Broker

open TradingPlatform.Lib

def shortPollAttempts : Nat := 3

def terminalOrderStatuses : List String :=
  ["filled", "partially_filled", "canceled", "cancelled", "expired", "rejected"]

/-- What `_poll_order_by_id_sync` answers. -/
structure PollAnswer where
  filledPrice : ℚ
  filledQty : ℚ
  status : String
  deriving DecidableEq

/-- The refreshing half of the sieve's broker protocol; `refresh` is told which
call of its loop it answers. -/
structure RefreshBroker where
  shortBurst : List Order → List OrderResult → List OrderResult
  refresh : Nat → Order → OrderResult → OrderResult
  shortBurst_same : ∀ orders results,
    (shortBurst orders results).map (fun r => (r.symbol, r.side)) =
      results.map fun r => (r.symbol, r.side)
  refresh_same : ∀ i order result, (refresh i order result).symbol = result.symbol ∧
    (refresh i order result).side = result.side

/-- `f"{symbol}:{side.value}"`. -/
def orderKey (symbol : String) (side : Side) : String := symbol ++ ":" ++ side.value

theorem orderKey_side {a b : String} {s s' : Side} (h : orderKey a s = orderKey b s') : s = s' := by
  have hlast := congrArg (fun k => k.toList.getLast?) h
  cases s <;> cases s' <;> first | rfl | simp [orderKey, Side.value] at hlast

/-! ## The Alpaca client -/

section Alpaca
variable (lower : String → String)

/-- Without a fill, an order that is not dead counts as filled for all of its quantity. -/
def resolvedFillQty (order : Order) (filledQty : ℚ) (status : String) : ℚ :=
  if 0 < filledQty then filledQty
  else if lower status ∈ ["rejected", "expired", "canceled", "cancelled"] then 0
  else order.qty

def polledResult (order : Order) (result : OrderResult) (a : PollAnswer) : OrderResult :=
  { result with
    qty := resolvedFillQty lower order a.filledQty a.status
    filledPrice := a.filledPrice
    status := a.status }

def refreshOrderResult (poll : PollAnswer) (order : Order) (result : OrderResult) : OrderResult :=
  if result.orderId.getD "" = "" then result else polledResult lower order result poll

def settled (a : PollAnswer) : Bool :=
  decide (0 < a.filledQty) || decide (lower a.status ∈ terminalOrderStatuses)

/-- The first settled answer of `attempts` polls, or else the last. -/
def shortBurst (poll : Nat → PollAnswer) : (attempts i : Nat) → PollAnswer → PollAnswer
  | 0, _, last => last
  | attempts + 1, i, _ =>
    if settled lower (poll i) then poll i else shortBurst poll attempts (i + 1) (poll i)

def shortBurstRefreshOrderResult (poll : Nat → PollAnswer) (orders : List Order)
    (result : OrderResult) : OrderResult :=
  let orderLookup := Dict.keyBy (fun order => orderKey order.symbol order.side) orders
  match (orderLookup.get? (orderKey result.symbol result.side)).or orders.head? with
  | none => result
  | some order =>
    if result.orderId.getD "" = "" then result
    else
      polledResult lower order result
        (shortBurst lower poll shortPollAttempts 0 ⟨result.filledPrice, 0, result.status⟩)

theorem shortBurst_same_order (poll : Nat → PollAnswer) (orders : List Order)
    (result : OrderResult) :
    (shortBurstRefreshOrderResult lower poll orders result).symbol = result.symbol ∧
      (shortBurstRefreshOrderResult lower poll orders result).side = result.side := by
  unfold shortBurstRefreshOrderResult
  dsimp only
  split
  · exact ⟨rfl, rfl⟩
  · split <;> exact ⟨rfl, rfl⟩

/-- The client as the sieve sees it: `bursts` answers the polls of each result,
`polls` the single ones. -/
def alpacaBroker (bursts : Nat → Nat → PollAnswer) (polls : Nat → PollAnswer) : RefreshBroker where
  shortBurst orders results :=
    results.mapIdx fun i result => shortBurstRefreshOrderResult lower (bursts i) orders result
  refresh i := refreshOrderResult lower (polls i)
  shortBurst_same orders results := by
    refine List.ext_getElem? fun i => ?_
    rw [List.getElem?_map, List.getElem?_mapIdx, List.getElem?_map]
    cases results[i]? with
    | none => rfl
    | some result =>
      obtain ⟨hsymbol, hside⟩ := shortBurst_same_order lower (bursts i) orders result
      simp only [Option.map_some, hsymbol, hside]
  refresh_same i order result := by
    unfold refreshOrderResult
    split <;> exact ⟨rfl, rfl⟩

end Alpaca

end TradingPlatform.Broker
