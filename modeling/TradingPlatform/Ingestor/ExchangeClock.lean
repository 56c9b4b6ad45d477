import TradingPlatform.Ingestor.Alpaca
import TradingPlatform.Lib.Runs
import TradingPlatform.Models
import Mathlib.Data.List.MinMax

/-! # The exchange clock

Bars and heartbeats are noted at exchange times that never go back. For each
symbol and timeframe the latest reference survives; three sources propose it,
each by an offset of its own. -/

namespace TradingPlatform.Ingestor.ExchangeClock

open TradingPlatform.Lib TradingPlatform.Lib.Runs

inductive ClockSource
  | streamBar
  | streamHeartbeat
  | restIngestion
  deriving DecidableEq, Repr

structure ExchangeClockSnapshot where
  symbol : String
  timeframe : String
  exchangeReferenceUtc : ℤ
  lastBarPeriodEndUtc : Option ℤ
  source : ClockSource
  lastEventExchangeUtc : ℤ
  deriving DecidableEq

abbrev ExchangeClockRegistry := Dict (String × String) ExchangeClockSnapshot

def barPeriodEnd (bar : Bar ℤ ℚ) (barMinutes : Nat) : ℤ := bar.timestamp + barMinutes * minute

section Calls
variable (upper : String → String) (registry : ExchangeClockRegistry) (symbol timeframe : String)

/-- `none` where the clock is not initialized, which raises. -/
def referenceFor : Option ℤ :=
  (registry.get? (upper symbol, timeframe)).map (·.exchangeReferenceUtc)

def upsert (candidate : ℤ) (periodEnd : Option ℤ) (source : ClockSource)
    (eventExchangeUtc : ℤ) : ExchangeClockRegistry :=
  let key := (upper symbol, timeframe)
  let prior := registry.get? key
  let reference := prior.elim candidate fun snap => max snap.exchangeReferenceUtc candidate
  let resolvedPeriodEnd := periodEnd.orElse fun _ => prior.bind (·.lastBarPeriodEndUtc)
  registry.set key
    { symbol := upper symbol
      timeframe := timeframe
      exchangeReferenceUtc := reference
      lastBarPeriodEndUtc := resolvedPeriodEnd
      source := source
      lastEventExchangeUtc := eventExchangeUtc }

/-- The stream delivers one-minute bars whatever the timeframe of the leg. -/
def noteStreamBar (barTimestamp : ℤ) : ExchangeClockRegistry :=
  let periodEnd := barTimestamp + minute
  upsert upper registry symbol timeframe periodEnd (some periodEnd) .streamBar barTimestamp

def noteStreamHeartbeat (exchangeTimestamp : ℤ) : ExchangeClockRegistry :=
  upsert upper registry symbol timeframe exchangeTimestamp none .streamHeartbeat exchangeTimestamp

/-- The newest bar of a batch, the first one where several are. -/
def newest {τ : Type*} [LinearOrder τ] (bars : List (Bar τ ℚ)) : Option (Bar τ ℚ) :=
  bars.argmax (·.timestamp)

def noteRestIngestion (bars : List (Bar ℤ ℚ)) : ExchangeClockRegistry :=
  match newest bars with
  | none => registry
  | some latest =>
    let periodEnd := barPeriodEnd latest (timeframeMinutes timeframe)
    upsert upper registry symbol timeframe periodEnd (some periodEnd) .restIngestion
      latest.timestamp

end Calls

/-! ## Runs of notes -/

inductive Note
  | streamBar (barTimestamp : ℤ)
  | streamHeartbeat (exchangeTimestamp : ℤ)
  | restIngestion (bars : List (Bar ℤ ℚ))

/-- One call, at the exchange time `time`. -/
structure Noted where
  time : ℤ
  symbol : String
  timeframe : String
  note : Note

/-- The registry, and the exchange time of the last call. -/
structure Clock where
  registry : ExchangeClockRegistry
  now : ℤ

def Clock.step (upper : String → String) (clock : Clock) (noted : Noted) : Clock where
  registry :=
    match noted.note with
    | .streamBar ts => noteStreamBar upper clock.registry noted.symbol noted.timeframe ts
    | .streamHeartbeat ts =>
      noteStreamHeartbeat upper clock.registry noted.symbol noted.timeframe ts
    | .restIngestion bars =>
      noteRestIngestion upper clock.registry noted.symbol noted.timeframe bars
  now := noted.time

/-- What the call proposes as the reference. -/
def Noted.candidate (noted : Noted) : Option ℤ :=
  match noted.note with
  | .streamBar ts => some (ts + minute)
  | .streamHeartbeat ts => some ts
  | .restIngestion bars =>
    (newest bars).map (barPeriodEnd · (timeframeMinutes noted.timeframe))

/-- Time does not go back; a stream bar comes at or after its close, a heartbeat
at or after its timestamp, a batch at or after the start of its newest bar. -/
def Timely (clock : Clock) (noted : Noted) : Prop :=
  clock.now ≤ noted.time ∧
    match noted.note with
    | .streamBar ts => ts + minute ≤ noted.time
    | .streamHeartbeat ts => ts ≤ noted.time
    | .restIngestion bars => ∀ latest ∈ newest bars, latest.timestamp ≤ noted.time

instance (clock : Clock) (noted : Noted) : Decidable (Timely clock noted) := by
  unfold Timely
  cases noted.note <;> infer_instance

/-- The newest bar of a batch has closed when the batch is noted. -/
def NewestClosed (noted : Noted) : Prop :=
  match noted.note with
  | .restIngestion bars =>
    ∀ latest ∈ newest bars, barPeriodEnd latest (timeframeMinutes noted.timeframe) ≤ noted.time
  | _ => True

instance (noted : Noted) : Decidable (NewestClosed noted) := by
  unfold NewestClosed
  cases noted.note <;> infer_instance

/-- No reference is ahead of the last call. -/
def NotAhead (clock : Clock) : Prop :=
  ∀ key snap, clock.registry.get? key = some snap → snap.exchangeReferenceUtc ≤ clock.now

/-- No reference is lost or goes back in a step. -/
def NeverBack (before after : Clock) : Prop :=
  ∀ key snap, before.registry.get? key = some snap →
    ∃ snap', after.registry.get? key = some snap' ∧
      snap.exchangeReferenceUtc ≤ snap'.exchangeReferenceUtc

variable {upper : String → String}

/-- What a call does to the references: it raises its own to the candidate. -/
theorem step_get? (clock : Clock) (noted : Noted) (key : String × String) :
    ((clock.step upper noted).registry.get? key).map (·.exchangeReferenceUtc) =
      match noted.candidate with
      | none => (clock.registry.get? key).map (·.exchangeReferenceUtc)
      | some candidate =>
        if key = (upper noted.symbol, noted.timeframe) then
          some ((clock.registry.get? key).elim candidate (max ·.exchangeReferenceUtc candidate))
        else (clock.registry.get? key).map (·.exchangeReferenceUtc) := by
  have hupsert : ∀ candidate periodEnd source event,
      ((upsert upper clock.registry noted.symbol noted.timeframe candidate periodEnd source
        event).get? key).map (·.exchangeReferenceUtc) =
        if key = (upper noted.symbol, noted.timeframe) then
          some ((clock.registry.get? key).elim candidate (max ·.exchangeReferenceUtc candidate))
        else (clock.registry.get? key).map (·.exchangeReferenceUtc) := by
    intro candidate periodEnd source event
    rw [upsert, Dict.get?_set]
    by_cases hkey : key = (upper noted.symbol, noted.timeframe)
    · simp [hkey]
    · simp [hkey]
  cases hnote : noted.note with
  | streamBar ts => simp only [Clock.step, Noted.candidate, hnote, noteStreamBar, hupsert]
  | streamHeartbeat ts =>
    simp only [Clock.step, Noted.candidate, hnote, noteStreamHeartbeat, hupsert]
  | restIngestion bars =>
    cases hnewest : newest bars with
    | none => simp [Clock.step, Noted.candidate, hnote, noteRestIngestion, hnewest]
    | some latest =>
      simp only [Clock.step, Noted.candidate, hnote, noteRestIngestion, hnewest, hupsert,
        Option.map_some]

theorem step_neverBack (clock : Clock) (noted : Noted) :
    NeverBack clock (clock.step upper noted) := by
  intro key snap hsnap
  have hstep := @step_get? upper clock noted key
  rw [hsnap] at hstep
  cases hcandidate : noted.candidate with
  | none =>
    rw [hcandidate] at hstep
    obtain ⟨snap', hsnap', href⟩ := Option.map_eq_some_iff.mp hstep
    exact ⟨snap', hsnap', href.ge⟩
  | some candidate =>
    rw [hcandidate] at hstep
    by_cases hkey : key = (upper noted.symbol, noted.timeframe)
    · simp only [if_pos hkey, Option.elim_some] at hstep
      obtain ⟨snap', hsnap', href⟩ := Option.map_eq_some_iff.mp hstep
      exact ⟨snap', hsnap', (le_max_left _ _).trans href.ge⟩
    · simp only [if_neg hkey] at hstep
      obtain ⟨snap', hsnap', href⟩ := Option.map_eq_some_iff.mp hstep
      exact ⟨snap', hsnap', href.ge⟩

theorem notAhead_iff {clock : Clock} :
    NotAhead clock ↔ ∀ key reference,
      (clock.registry.get? key).map (·.exchangeReferenceUtc) = some reference →
        reference ≤ clock.now := by
  constructor
  · intro h key reference href
    obtain ⟨snap, hsnap, rfl⟩ := Option.map_eq_some_iff.mp href
    exact h key snap hsnap
  · intro h key snap hsnap
    exact h key _ (by rw [hsnap]; rfl)

/-- While no reference is ahead, no reader of the clock is told a time to come. -/
theorem referenceFor_le {clock : Clock} (h : NotAhead clock) {symbol timeframe : String}
    {reference : ℤ} (href : referenceFor upper clock.registry symbol timeframe = some reference) :
    reference ≤ clock.now :=
  notAhead_iff.mp h _ _ href

/-- One call keeps the references behind it exactly when its candidate is. -/
theorem step_notAhead_iff {clock : Clock} {noted : Noted} (hnow : clock.now ≤ noted.time)
    (h : NotAhead clock) :
    NotAhead (clock.step upper noted) ↔ ∀ candidate ∈ noted.candidate, candidate ≤ noted.time := by
  rw [notAhead_iff] at h ⊢
  have hold : ∀ key reference,
      (clock.registry.get? key).map (·.exchangeReferenceUtc) = some reference →
        reference ≤ noted.time := fun key reference href => (h key reference href).trans hnow
  simp only [step_get?]
  show (∀ key reference, _ → reference ≤ noted.time) ↔ _
  cases noted.candidate with
  | none => simpa using hold
  | some candidate =>
    constructor
    · intro hall c hc
      obtain rfl : candidate = c := Option.some.inj hc
      refine le_trans ?_ (hall (upper noted.symbol, noted.timeframe) _ (if_pos rfl))
      cases clock.registry.get? (upper noted.symbol, noted.timeframe) with
      | none => exact le_rfl
      | some snap => exact le_max_right _ _
    · intro hle key reference href
      have hcandidate := hle candidate rfl
      dsimp only at href
      by_cases hkey : key = (upper noted.symbol, noted.timeframe)
      · rw [if_pos hkey] at href
        obtain rfl := Option.some.inj href
        cases hsnap : clock.registry.get? key with
        | none => exact hcandidate
        | some snap => exact max_le (hold key _ (by rw [hsnap]; rfl)) hcandidate
      · rw [if_neg hkey] at href
        exact hold key reference href

/-- Only a batch can propose a time that has not come. -/
theorem candidate_le_iff {clock : Clock} {noted : Noted} (h : Timely clock noted) :
    (∀ candidate ∈ noted.candidate, candidate ≤ noted.time) ↔ NewestClosed noted := by
  obtain ⟨-, hnote⟩ := h
  unfold Noted.candidate NewestClosed
  cases hkind : noted.note with
  | streamBar ts =>
    rw [hkind] at hnote
    simpa using hnote
  | streamHeartbeat ts =>
    rw [hkind] at hnote
    simpa using hnote
  | restIngestion bars => simp

/-- **The clock never runs back, and it never runs ahead exactly when every
batch is noted after the close of its newest bar.** -/
theorem references_sound_iff (now : ℤ) {calls : List Noted}
    (htimely : Along (Clock.step upper) Timely ⟨.empty, now⟩ calls) :
    Along (Clock.step upper)
        (fun clock noted => NeverBack clock (clock.step upper noted) ∧
          NotAhead (clock.step upper noted))
        ⟨.empty, now⟩ calls ↔
      ∀ noted ∈ calls, NewestClosed noted := by
  have hboth : Along (Clock.step upper)
        (fun clock noted => NeverBack clock (clock.step upper noted) ∧
          NotAhead (clock.step upper noted)) ⟨.empty, now⟩ calls ↔
      Along (Clock.step upper) (fun clock noted => NotAhead (clock.step upper noted))
        ⟨.empty, now⟩ calls :=
    along_congr (I := fun _ => True) (fun _ _ _ => trivial)
      (fun clock noted _ => and_iff_right (step_neverBack clock noted)) calls trivial
  rw [hboth, ← along_forall_iff (Clock.step upper) ⟨.empty, now⟩]
  refine along_next_iff_of (I := fun _ => True) (Q := NotAhead) (fun _ _ _ _ _ => trivial) ?_ calls
    trivial ?_ htimely
  · intro clock noted _ ht h
    exact (step_notAhead_iff ht.1 h).trans (candidate_le_iff ht)
  · intro key snap hsnap
    cases hsnap

/-- A minute bar, then a batch whose only bar closed a minute ago. -/
theorem closed_batch_sound :
    Along (Clock.step id)
      (fun clock noted => NeverBack clock (clock.step id noted) ∧ NotAhead (clock.step id noted))
      ⟨.empty, 0⟩
      [⟨2 * minute, "QQQ", "15Min", .streamBar minute⟩,
        ⟨16 * minute, "QQQ", "15Min", .restIngestion [⟨0, 400, 401, 399, 400, 10, "QQQ"⟩]⟩] :=
  (references_sound_iff 0 (by decide)).mpr (by decide)

/-- A batch noted at the start of its newest bar puts the reference a quarter of
an hour ahead. -/
theorem forming_batch_ahead :
    Along (Clock.step id) Timely ⟨.empty, 0⟩
        [⟨0, "QQQ", "15Min", .restIngestion [⟨0, 400, 401, 399, 400, 10, "QQQ"⟩]⟩] ∧
      ¬ Along (Clock.step id)
        (fun clock noted => NeverBack clock (clock.step id noted) ∧ NotAhead (clock.step id noted))
        ⟨.empty, 0⟩
        [⟨0, "QQQ", "15Min", .restIngestion [⟨0, 400, 401, 399, 400, 10, "QQQ"⟩]⟩] := by
  refine ⟨by decide, fun h => ?_⟩
  have hle := h.1.2 ("QQQ", "15Min") _ rfl
  revert hle
  decide

end TradingPlatform.Ingestor.ExchangeClock
