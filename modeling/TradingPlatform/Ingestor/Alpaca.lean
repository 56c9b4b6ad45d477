import Mathlib.Algebra.Order.Ring.Int

/-! # Timeframes

Instants and durations are microseconds, the resolution of a datetime. -/

namespace TradingPlatform.Ingestor

def second : ℤ := 1000000

def minute : ℤ := 60 * second

theorem minute_pos : 0 < minute := by decide

/-- `TIMEFRAME_MINUTES.get(timeframe, 15)`. -/
def timeframeMinutes : String → Nat
  | "1Min" => 1
  | "15Min" => 15
  | "1Hour" => 60
  | "4Hour" => 240
  | "1Day" => 1440
  | _ => 15

theorem timeframeMinutes_pos (timeframe : String) : 0 < timeframeMinutes timeframe := by
  unfold timeframeMinutes
  split <;> decide

theorem timeframeMinutes_dvd (timeframe : String) : timeframeMinutes timeframe ∣ 1440 := by
  unfold timeframeMinutes
  split <;> decide

end TradingPlatform.Ingestor
