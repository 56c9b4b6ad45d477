import TradingPlatform.Lib.Dict
import Mathlib.Algebra.Order.Ring.Rat
import Mathlib.Data.Rat.Floor
import Mathlib.Tactic.Linarith

/-! # Shared records

Prices, quantities and cash are rationals: a float's rounding, and its
infinities and NaN, are not modelled. -/

namespace TradingPlatform

open TradingPlatform.Lib

inductive Side
  | buy
  | sell
  deriving DecidableEq, Repr

def Side.value : Side → String
  | .buy => "buy"
  | .sell => "sell"

/-- A buy counts up, a sell counts down. -/
def Side.sign : Side → ℚ
  | .buy => 1
  | .sell => -1

structure Order where
  symbol : String
  side : Side
  qty : ℚ
  orderType : String := "market"
  stopPrice : Option ℚ := none
  strategyId : String := ""
  clientOrderId : Option String := none
  deriving DecidableEq

structure OrderResult where
  symbol : String
  side : Side
  qty : ℚ
  filledPrice : ℚ
  filledAt : String
  orderId : Option String := none
  status : String := "filled"
  deriving DecidableEq

inductive SignalAction
  | long
  | short
  | exit
  | hold
  deriving DecidableEq, Repr

/-- What the routing parameters and a signal's metadata hold under their keys. -/
inductive ParamValue
  | flag (b : Bool)
  | text (s : String)
  | number (q : ℚ)
  deriving DecidableEq

structure Signal where
  symbol : String
  action : SignalAction
  price : ℚ
  timestamp : String
  strategyId : String
  metadata : Dict String ParamValue := .empty
  deriving DecidableEq

/-- What the engine reads of a leg's config. -/
structure StrategyConfig where
  strategyId : String
  symbol : String
  enabled : Bool := true
  deriving DecidableEq

structure Account where
  equity : ℚ
  cash : ℚ
  buyingPower : ℚ
  deriving DecidableEq

/-- One OHLCV bar, over any type of time and of price. -/
structure Bar (τ α : Type*) where
  timestamp : τ
  openPrice : α
  high : α
  low : α
  close : α
  volume : α
  symbol : String := ""
  deriving DecidableEq

/-- The two texts `Position.side` takes. -/
inductive PositionSide
  | long
  | short
  deriving DecidableEq, Repr

/-- A long counts up, a short counts down. -/
def PositionSide.sign : PositionSide → ℚ
  | .long => 1
  | .short => -1

structure Position where
  symbol : String
  qty : ℚ
  side : PositionSide
  avgEntryPrice : ℚ
  unrealizedPl : ℚ := 0
  deriving DecidableEq

def Position.signedQty (pos : Position) : ℚ := pos.side.sign * pos.qty

inductive AssetClass
  | stock
  | crypto
  deriving DecidableEq, Repr

/-- A slash pair, or one of four symbols, is crypto. -/
def inferAssetClass (upper : String → String) (symbol : String) : AssetClass :=
  if '/' ∈ symbol.toList then .crypto
  else if upper symbol ∈ ["BTCUSD", "ETHUSD", "BTC", "ETH"] then .crypto
  else .stock

/-- `int(q)`, which truncates towards zero. -/
def truncate (q : ℚ) : ℤ := q.num.tdiv q.den

@[simp] theorem truncate_intCast (n : ℤ) : truncate n = n := by
  simp [truncate]

theorem truncate_le {q : ℚ} (h : 0 ≤ q) : (truncate q : ℚ) ≤ q := by
  have hfloor : truncate q = ⌊q⌋ := by
    rw [truncate, Int.tdiv_eq_ediv_of_nonneg (Rat.num_nonneg.mpr h), Rat.floor_def']
  rw [hfloor]
  exact Int.floor_le q

theorem nonneg_of_truncate_pos {q : ℚ} (h : 0 < truncate q) : 0 ≤ q := by
  by_contra hneg
  have hnum : 0 ≤ (-q.num).tdiv q.den :=
    Int.tdiv_nonneg (by linarith [Rat.num_neg.mpr (not_le.mp hneg)]) (Int.natCast_nonneg _)
  rw [Int.neg_tdiv] at hnum
  exact absurd h (not_lt.mpr (by rw [truncate]; linarith))

end TradingPlatform
