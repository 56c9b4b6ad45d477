import TradingPlatform.Engine.ColdStartGate
import TradingPlatform.Ingestor.Alpaca
import TradingPlatform.Lib.Dict
import TradingPlatform.Lib.Runs
import TradingPlatform.Lib.Streak

/-! # The ingest circuit breaker

A bar that arrives late, for its timeframe, is a breach; three breaches in a row of one
symbol and timeframe trip the breaker of that pair, for good. Instants are in seconds. -/

namespace TradingPlatform.Ingestor.IngestCircuitBreaker

open TradingPlatform.Lib TradingPlatform.Lib.Runs
open TradingPlatform.Engine.ColdStart (barStalenessSeconds)

def ingestArrivalLagCeilingFraction : ℚ := 15 / 900
def ingestCircuitBreakerStreak : ℕ := 3
def streamBarPeriodSeconds : ℚ := 60

def barPeriodSeconds (timeframe : String) : ℚ := timeframeMinutes timeframe * 60

abbrev Key := String × String

structure IngestGuardSnapshot where
  sequenceMisalignmentEvents : ℕ
  consecutiveLagBreaches : ℕ
  ingestCircuitBreakerTripped : Bool
  lastArrivalLagSeconds : ℚ
  deriving DecidableEq

structure Breaker where
  consecutiveBreaches : Dict Key ℕ := .empty
  lastLagSeconds : Dict Key ℚ := .empty
  tripped : Dict Key Bool := .empty

/-- The arguments of `note_bar_arrival`, and when it is called. -/
structure Arrival where
  barTimestamp : ℚ
  symbol : String
  timeframe : String
  arrival : ℚ
  deriving DecidableEq

section Breaker
variable (upper : String → String)

def Arrival.key (a : Arrival) : Key := (upper a.symbol, a.timeframe)

def Arrival.lag (a : Arrival) : ℚ :=
  barStalenessSeconds a.barTimestamp streamBarPeriodSeconds a.arrival

def ceiling (timeframe : String) : ℚ :=
  ingestArrivalLagCeilingFraction * barPeriodSeconds timeframe

def noteBarArrival (b : Breaker) (a : Arrival) : Breaker :=
  let key := a.key upper
  let breaches :=
    if ceiling a.timeframe < a.lag then (b.consecutiveBreaches.get? key).getD 0 + 1 else 0
  { consecutiveBreaches := b.consecutiveBreaches.set key breaches
    lastLagSeconds := b.lastLagSeconds.set key a.lag
    tripped :=
      if ingestCircuitBreakerStreak ≤ breaches then b.tripped.set key true else b.tripped }

/-- Of one pair, or of any. -/
def isTripped (b : Breaker) : Option String → Option String → Bool
  | some symbol, some timeframe => (b.tripped.get? (upper symbol, timeframe)).getD false
  | _, _ => b.tripped.items.any (·.2)

def snapshot (b : Breaker) : Option String → Option String → IngestGuardSnapshot
  | some symbol, some timeframe =>
    let key := (upper symbol, timeframe)
    { sequenceMisalignmentEvents := 0
      consecutiveLagBreaches := (b.consecutiveBreaches.get? key).getD 0
      ingestCircuitBreakerTripped := (b.tripped.get? key).getD false
      lastArrivalLagSeconds := (b.lastLagSeconds.get? key).getD 0 }
  | _, _ =>
    { sequenceMisalignmentEvents := 0
      consecutiveLagBreaches := (b.consecutiveBreaches.items.map (·.2)).max?.getD 0
      ingestCircuitBreakerTripped := b.tripped.items.any (·.2)
      lastArrivalLagSeconds := (b.lastLagSeconds.items.map (·.2)).max?.getD 0 }

/-! ## What the breaker shows -/

/-- The bars of one pair, in the order they came. -/
def barsOf (key : Key) (arrivals : List Arrival) : List Arrival :=
  arrivals.filter fun a => a.key upper = key

/-- A bar that came later than its timeframe allows. -/
def breach (a : Arrival) : Bool := decide (ceiling a.timeframe < a.lag)

/-- What the dictionaries hold of a pair, in the words of its bars. -/
structure Shows (key : Key) (arrivals : List Arrival) (b : Breaker) : Prop where
  breaches : b.consecutiveBreaches.get? key =
    (barsOf upper key arrivals).getLast?.map fun _ => streak breach (barsOf upper key arrivals)
  lag : b.lastLagSeconds.get? key = (barsOf upper key arrivals).getLast?.map Arrival.lag
  tripped : b.tripped.get? key = some true ↔
    InARow breach ingestCircuitBreakerStreak (barsOf upper key arrivals)

variable {upper} {key : Key} {arrivals : List Arrival} {b : Breaker}

/-- What a pair without an entry counts from. -/
theorem Shows.count (h : Shows upper key arrivals b) :
    (b.consecutiveBreaches.get? key).getD 0 = streak breach (barsOf upper key arrivals) := by
  rw [h.breaches]
  cases hlast : (barsOf upper key arrivals).getLast? with
  | none => rw [List.getLast?_eq_none_iff.mp hlast]; rfl
  | some a => rfl

theorem Shows.next (h : Shows upper key arrivals b) (a : Arrival) :
    Shows upper key (arrivals ++ [a]) (noteBarArrival upper b a) := by
  by_cases hkey : a.key upper = key
  · have hbars : barsOf upper key (arrivals ++ [a]) = barsOf upper key arrivals ++ [a] := by
      simp [barsOf, hkey]
    have hcount : (if ceiling a.timeframe < a.lag then
        (b.consecutiveBreaches.get? (a.key upper)).getD 0 + 1 else 0) =
        streak breach (barsOf upper key (arrivals ++ [a])) := by
      rw [hbars, streak_concat, hkey, h.count]
      exact if_congr (by simp [breach]) rfl rfl
    unfold noteBarArrival
    dsimp only
    rw [hcount, hkey]
    refine ⟨?_, ?_, ?_⟩
    · rw [Dict.get?_set_self, hbars]
      simp
    · rw [Dict.get?_set_self, hbars]
      simp
    · dsimp only
      rw [hbars, inARow_concat, ← h.tripped, ← hbars]
      split
      case isTrue hlong => simp [hlong]
      case isFalse hshort => simp [hshort]
  · have hbars : barsOf upper key (arrivals ++ [a]) = barsOf upper key arrivals := by
      simp [barsOf, hkey]
    have hne : key ≠ a.key upper := Ne.symm hkey
    unfold noteBarArrival
    dsimp only
    refine ⟨?_, ?_, ?_⟩
    · rw [hbars, Dict.get?_set_ne _ hne]
      exact h.breaches
    · rw [hbars, Dict.get?_set_ne _ hne]
      exact h.lag
    · dsimp only
      rw [hbars, ← h.tripped]
      by_cases hlong : ingestCircuitBreakerStreak ≤ (if ceiling a.timeframe < a.lag then
          (b.consecutiveBreaches.get? (a.key upper)).getD 0 + 1 else 0)
      · rw [if_pos hlong, Dict.get?_set_ne _ hne]
      · rw [if_neg hlong]

theorem shows_run (upper : String → String) (key : Key) (arrivals : List Arrival) :
    Shows upper key arrivals (run (noteBarArrival upper) {} arrivals) := by
  induction arrivals using List.reverseRecOn with
  | nil =>
    refine ⟨rfl, rfl, iff_of_false (by simp) fun hrow => ?_⟩
    simp [barsOf, inARow_nil, ingestCircuitBreakerStreak] at hrow
  | append_singleton arrivals a ih =>
    rw [run_append, run_cons, run_nil]
    exact ih.next a

/-! ## Any pair -/

theorem any_tripped_iff (d : Dict Key Bool) :
    d.items.any (·.2) = true ↔ ∃ key, d.get? key = some true := by
  rw [List.any_eq_true]
  constructor
  · rintro ⟨⟨key, v⟩, hin, hv⟩
    obtain rfl : v = true := hv
    exact ⟨key, d.get?_eq_some.mpr hin⟩
  · rintro ⟨key, hget⟩
    exact ⟨(key, true), d.get?_eq_some.mp hget, rfl⟩

/-- The largest value of a dictionary, or zero where it is empty. -/
theorem max_values {ν : Type} [LinearOrder ν] [Zero ν] (d : Dict Key ν) :
    (∀ key v, d.get? key = some v → v ≤ (d.items.map (·.2)).max?.getD 0) ∧
      ((∀ key, d.get? key = none) ∧ (d.items.map (·.2)).max?.getD 0 = 0 ∨
        ∃ key, d.get? key = some ((d.items.map (·.2)).max?.getD 0)) := by
  cases hmax : (d.items.map (·.2)).max? with
  | none =>
    have hempty : d.items = [] := by simpa using hmax
    have hnone : ∀ key, d.get? key = none := fun key => by simp [Dict.get?_eq_none, hempty]
    refine ⟨fun key v hget => ?_, .inl ⟨hnone, rfl⟩⟩
    rw [hnone key] at hget
    cases hget
  | some m =>
    obtain ⟨hmem, hall⟩ := List.max?_eq_some_iff.mp hmax
    obtain ⟨⟨key, v⟩, hin, rfl⟩ := List.mem_map.mp hmem
    refine ⟨fun key v hget => ?_, .inr ⟨key, d.get?_eq_some.mpr hin⟩⟩
    exact hall v (List.mem_map.mpr ⟨(key, v), d.get?_eq_some.mp hget, rfl⟩)

variable (upper) in
/-- **The breaker remembers every streak.** After any arrivals, of any pairs in any order: the
breaker of a pair is tripped exactly when three bars of that pair in a row ever came late,
whatever came after; its counter is the streak of late bars it is in and its lag that of its
last bar; and over all pairs, the breaker is tripped exactly when that of some pair is, and
the counter is the longest streak a pair is in. -/
theorem breaker_remembers (arrivals : List Arrival) (symbol timeframe : String) :
    let b := run (noteBarArrival upper) {} arrivals
    let bars := barsOf upper (upper symbol, timeframe) arrivals
    let one := snapshot upper b (some symbol) (some timeframe)
    let any := snapshot upper b none none
    (isTripped upper b (some symbol) (some timeframe) = true ↔
        InARow breach ingestCircuitBreakerStreak bars) ∧
      one.consecutiveLagBreaches = streak breach bars ∧
      one.lastArrivalLagSeconds = (bars.getLast?.map Arrival.lag).getD 0 ∧
      (isTripped upper b none none = true ↔
        ∃ key, InARow breach ingestCircuitBreakerStreak (barsOf upper key arrivals)) ∧
      (∀ key, streak breach (barsOf upper key arrivals) ≤ any.consecutiveLagBreaches) ∧
      (any.consecutiveLagBreaches = 0 ∨
        ∃ key, any.consecutiveLagBreaches = streak breach (barsOf upper key arrivals)) := by
  intro b bars one any
  have hshows := fun key => shows_run upper key arrivals
  have hone := hshows (upper symbol, timeframe)
  obtain ⟨hlongest, hsome⟩ := max_values b.consecutiveBreaches
  refine ⟨?_, hone.count, congrArg (·.getD 0) hone.lag, ?_, fun key => ?_, ?_⟩
  · rw [← hone.tripped]
    show (b.tripped.get? (upper symbol, timeframe)).getD false = true ↔ _
    cases b.tripped.get? (upper symbol, timeframe) <;> simp
  · show b.tripped.items.any (·.2) = true ↔ _
    rw [any_tripped_iff]
    exact exists_congr fun key => (hshows key).tripped
  · rw [← (hshows key).count]
    cases hget : b.consecutiveBreaches.get? key with
    | none => exact Nat.zero_le _
    | some n => exact hlongest key n hget
  · rcases hsome with ⟨-, hzero⟩ | ⟨key, hget⟩
    · exact .inl hzero
    · refine .inr ⟨key, ?_⟩
      rw [← (hshows key).count, hget]
      rfl

end Breaker

end TradingPlatform.Ingestor.IngestCircuitBreaker
