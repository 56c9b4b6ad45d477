import Mathlib.Algebra.Order.Ring.Rat

/-! # Intended orders and broker orders

Case folding and the hash of an id are parameters: Unicode tables and SHA-256
are not modelled, and nothing here depends on them. -/

namespace TradingPlatform.Execution

/-- `signal_ts` is the text that goes into the id. -/
structure OrderIntent where
  legId : String
  symbol : String
  side : String
  qty : ℚ
  signalTs : String
  epoch : Int
  deriving DecidableEq

section Digest
variable (lower sha256Hex : String → String)

def deterministicClientOrderId (legId signalTs side : String) (epoch : Int) : String :=
  let raw := legId ++ "|" ++ signalTs ++ "|" ++ lower side ++ "|" ++ toString epoch
  "mbappe-" ++ String.ofList ((sha256Hex raw).toList.take 38)

def OrderIntent.clientOrderId (intent : OrderIntent) : String :=
  deterministicClientOrderId lower sha256Hex intent.legId intent.signalTs intent.side intent.epoch

end Digest

structure BrokerOrder where
  clientOrderId : String
  symbol : String
  side : String
  qty : ℚ
  status : String := "new"
  filledQty : ℚ := 0
  filledAvgPrice : ℚ := 0
  orderId : Option String := none
  deriving DecidableEq

def BrokerOrder.remainder (order : BrokerOrder) : ℚ := max (order.qty - order.filledQty) 0

end TradingPlatform.Execution
