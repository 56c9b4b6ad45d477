import TradingPlatform.Core.MarketCalendar
import TradingPlatform.Engine.ColdStartGate
import TradingPlatform.Lib.Runs
import TradingPlatform.Lib.Since
import TradingPlatform.Models

/-! # The data-quality monitors

Three checks before a signal: the bar itself, a jump that looks like a corporate action,
the age of the feed. A reading of a bar is `none` where it is no finite number. Instants
are microseconds, ages are in minutes. -/

namespace TradingPlatform.DataQuality
open TradingPlatform.Core TradingPlatform.Lib TradingPlatform.Lib.Runs
open TradingPlatform.Engine.ColdStart (barStalenessSeconds)

inductive DataQualityVerdict
  | allow
  | blockNewEntries
  | quarantineBar
  | quarantineInstrument
  deriving DecidableEq

def DataQualityVerdict.value : DataQualityVerdict → String
  | allow => "ALLOW"
  | blockNewEntries => "BLOCK_NEW_ENTRIES"
  | quarantineBar => "QUARANTINE_BAR"
  | quarantineInstrument => "QUARANTINE_INSTRUMENT"

structure DataQualityConfig where
  enabled : Bool := false
  stalenessBarAgeMultiple : ℚ := 2.5
  corporateActionJumpThreshold : ℚ := 0.25
  corporateActionMarketMoveRatio : ℚ := 0.5

structure InstrumentQualityState where
  symbol : String
  entriesBlocked : Bool := false
  quarantined : Bool := false
  reason : String := ""
  deriving DecidableEq

/-- What the detail of a result holds under a key. -/
inductive Detail
  | reading (v : Option ℚ)
  | instant (t : ℤ)
  deriving DecidableEq

structure DataQualityResult where
  verdict : DataQualityVerdict
  symbol : String
  reason : String := ""
  detail : List (String × Detail) := []
  deriving DecidableEq

abbrev Reading := Option ℚ

def badNumber (x : Reading) : Bool := x.isNone

/-- The readings that have to be positive, in the order they are looked at. -/
def prices (bar : Bar ℤ Reading) : List (String × Reading) :=
  [("open", bar.openPrice), ("high", bar.high), ("low", bar.low), ("close", bar.close)]

/-- The value of a reading that is no bad number. -/
def amount (x : Reading) : ℚ := x.getD 0

def checkBarSanity (bar : Bar ℤ Reading) (prevTimestamp : Option ℤ) : DataQualityResult :=
  match (prices bar).find? fun p => badNumber p.2 || decide (amount p.2 ≤ 0) with
  | some (name, v) => ⟨.quarantineBar, bar.symbol, "bad_" ++ name, [(name, .reading v)]⟩
  | none =>
    let top := max (amount bar.openPrice) (amount bar.close)
    let bottom := min (amount bar.openPrice) (amount bar.close)
    if badNumber bar.volume || decide (amount bar.volume < 0) then
      ⟨.quarantineBar, bar.symbol, "bad_volume", [("volume", .reading bar.volume)]⟩
    else if amount bar.high < amount bar.low then
      ⟨.quarantineBar, bar.symbol, "high_lt_low",
        [("high", .reading bar.high), ("low", .reading bar.low)]⟩
    else if amount bar.high < top ∨ bottom < amount bar.low then
      ⟨.quarantineBar, bar.symbol, "ohlc_inconsistent",
        [("open", .reading bar.openPrice), ("high", .reading bar.high),
          ("low", .reading bar.low), ("close", .reading bar.close)]⟩
    else
      match prevTimestamp with
      | some prev =>
        if bar.timestamp ≤ prev then
          ⟨.quarantineBar, bar.symbol, "non_monotonic_timestamp",
            [("prev", .instant prev), ("bar", .instant bar.timestamp)]⟩
        else { verdict := .allow, symbol := bar.symbol }
      | none => { verdict := .allow, symbol := bar.symbol }

/-- Seconds of an instant. -/
def seconds (t : ℤ) : ℚ := t / 1000000

section Checks
variable (config : DataQualityConfig) (calendar : MarketSessionCalendar) (zone : ExchangeZone)

def checkStaleness (symbol : String) (lastBarTs now : ℤ) (timeframeMinutes : ℚ)
    (assetClass : String) : DataQualityResult :=
  let thresholdMin := config.stalenessBarAgeMultiple * max timeframeMinutes 1e-9
  let reference :=
    if assetClass = "crypto" then now
    else if calendar.isWithinRth zone now then now
    else calendar.lastSessionClose zone now
  let ageMin := barStalenessSeconds (seconds lastBarTs) (max timeframeMinutes 1e-9 * 60)
    (seconds reference) / 60
  if thresholdMin < ageMin then
    ⟨.blockNewEntries, symbol, "stale_feed",
      [("age_min", .reading ageMin), ("threshold_min", .reading thresholdMin)]⟩
  else { verdict := .allow, symbol }

/-- The market's own move; none where its prices are missing or not positive. -/
def marketMove (marketPrevClose marketOpen : Option ℚ) : ℚ :=
  match marketPrevClose, marketOpen with
  | some previous, some opened =>
    if previous ≠ 0 ∧ opened ≠ 0 ∧ 0 < previous then |opened / previous - 1| else 0
  | _, _ => 0

def checkCorporateAction (symbol : String) (prevClose todayOpen : ℚ)
    (marketPrevClose marketOpen : Option ℚ) : DataQualityResult :=
  if prevClose ≤ 0 ∨ todayOpen ≤ 0 then { verdict := .allow, symbol }
  else
    let jump := |todayOpen / prevClose - 1|
    let move := marketMove marketPrevClose marketOpen
    let detail := [("jump", Detail.reading (some jump)), ("market_move", .reading (some move))]
    if jump < config.corporateActionJumpThreshold then { verdict := .allow, symbol }
    else if config.corporateActionJumpThreshold * config.corporateActionMarketMoveRatio ≤ move then
      ⟨.allow, symbol, "market_wide_gap", detail⟩
    else ⟨.quarantineInstrument, symbol, "suspected_corporate_action", detail⟩

/-- The arguments of `evaluate`. -/
structure Evaluation where
  bar : Bar ℤ Reading
  now : ℤ
  timeframeMinutes : ℚ
  prevTimestamp : Option ℤ := none
  prevClose : Option ℚ := none
  todayOpen : Option ℚ := none
  marketPrevClose : Option ℚ := none
  marketOpen : Option ℚ := none
  assetClass : String := "stock"

/-- The corporate-action check, where the two prices it needs are given. -/
def Evaluation.corporate? (e : Evaluation) : Option DataQualityResult :=
  match e.prevClose, e.todayOpen with
  | some prevClose, some todayOpen =>
    let corp := checkCorporateAction config e.bar.symbol prevClose todayOpen e.marketPrevClose
      e.marketOpen
    if corp.verdict = .quarantineInstrument then some corp else none
  | _, _ => none

/-- The states by symbol, and what the sink was told, the oldest first. -/
structure DataQualityMonitors where
  state : Dict String InstrumentQualityState
  reports : List DataQualityResult

namespace DataQualityMonitors

def new : DataQualityMonitors := ⟨.empty, []⟩

def entriesBlocked (m : DataQualityMonitors) (symbol : String) : Bool :=
  match m.state.get? symbol with
  | some st => st.entriesBlocked || st.quarantined
  | none => false

def clear (m : DataQualityMonitors) (symbol : String) : DataQualityMonitors :=
  { m with state := m.state.erase symbol }

def report (m : DataQualityMonitors) (result : DataQualityResult) : DataQualityMonitors :=
  { m with reports := m.reports ++ [result] }

def evaluate (m : DataQualityMonitors) (e : Evaluation) :
    DataQualityResult × DataQualityMonitors :=
  let symbol := e.bar.symbol
  if config.enabled = false then ({ verdict := .allow, symbol }, m)
  else
    let (st, states) := m.state.setdefault symbol { symbol }
    let m := { m with state := states }
    let sanity := checkBarSanity e.bar e.prevTimestamp
    if sanity.verdict ≠ .allow then (sanity, m.report sanity)
    else
      match e.corporate? config with
      | some corp =>
        let st := { st with quarantined := true, entriesBlocked := true, reason := corp.reason }
        (corp, { m with state := m.state.set symbol st }.report corp)
      | none =>
        let stale := checkStaleness config calendar zone symbol e.bar.timestamp e.now
          e.timeframeMinutes e.assetClass
        if stale.verdict = .blockNewEntries then
          let st := { st with entriesBlocked := true, reason := stale.reason }
          (stale, { m with state := m.state.set symbol st }.report stale)
        else if st.quarantined = false then
          let st := { st with entriesBlocked := false, reason := "" }
          ({ verdict := .allow, symbol }, { m with state := m.state.set symbol st })
        else ({ verdict := .allow, symbol }, m)

end DataQualityMonitors

inductive Op
  | evaluate (e : Evaluation)
  | clear (symbol : String)

def step (m : DataQualityMonitors) : Op → DataQualityMonitors
  | .evaluate e => (m.evaluate config calendar zone e).2
  | .clear symbol => m.clear symbol

end Checks

/-! ## What the checks find -/

/-- A bar that can be traded on, and comes after the one before it. -/
structure Sane (e : Evaluation) : Prop where
  positive : ∀ p ∈ prices e.bar, ∃ x, p.2 = some x ∧ 0 < x
  volume : ∃ v, e.bar.volume = some v ∧ 0 ≤ v
  high : max (amount e.bar.openPrice) (amount e.bar.close) ≤ amount e.bar.high
  low : amount e.bar.low ≤ min (amount e.bar.openPrice) (amount e.bar.close)
  later : ∀ prev ∈ e.prevTimestamp, prev < e.bar.timestamp

section Findings
variable (config : DataQualityConfig) (calendar : MarketSessionCalendar) (zone : ExchangeZone)

/-- The instrument opened at the threshold or more from its close, and the market did not
move with it. -/
def Jumped (e : Evaluation) : Prop :=
  ∃ prevClose ∈ e.prevClose, ∃ todayOpen ∈ e.todayOpen, 0 < prevClose ∧ 0 < todayOpen ∧
    config.corporateActionJumpThreshold ≤ |todayOpen / prevClose - 1| ∧
    marketMove e.marketPrevClose e.marketOpen <
      config.corporateActionJumpThreshold * config.corporateActionMarketMoveRatio

/-- The clock of the feed: it stands still at the last close while a stock market is shut. -/
def feedClock (e : Evaluation) : ℤ :=
  if e.assetClass = "crypto" ∨ calendar.isWithinRth zone e.now then e.now
  else calendar.lastSessionClose zone e.now

/-- The last bar closed too many timeframes ago. -/
def Late (e : Evaluation) : Prop :=
  config.stalenessBarAgeMultiple * max e.timeframeMinutes 1e-9 <
    barStalenessSeconds (seconds e.bar.timestamp) (max e.timeframeMinutes 1e-9 * 60)
      (seconds (feedClock calendar zone e)) / 60

end Findings

theorem bad_iff (x : Reading) :
    (badNumber x || decide (amount x ≤ 0)) = false ↔ ∃ v, x = some v ∧ 0 < v := by
  cases x with
  | none => simp [badNumber]
  | some v =>
    show decide (v ≤ 0) = false ↔ _
    rw [decide_eq_false_iff_not, not_le]
    simp

theorem prices_sane_iff (bar : Bar ℤ Reading) :
    ((prices bar).find? fun p => badNumber p.2 || decide (amount p.2 ≤ 0)) = none ↔
      ∀ p ∈ prices bar, ∃ x, p.2 = some x ∧ 0 < x := by
  rw [List.find?_eq_none]
  refine forall₂_congr fun p _ => ?_
  rw [Bool.not_eq_true]
  exact bad_iff p.2

theorem checkBarSanity_allow_iff (e : Evaluation) :
    (checkBarSanity e.bar e.prevTimestamp).verdict = .allow ↔ Sane e := by
  unfold checkBarSanity
  split
  case h_1 name v hbad =>
    refine iff_of_false (by simp) fun h => ?_
    rw [(prices_sane_iff e.bar).mpr h.positive] at hbad
    cases hbad
  case h_2 hnone =>
    have hpositive := (prices_sane_iff e.bar).mp hnone
    by_cases hvol : (badNumber e.bar.volume || decide (amount e.bar.volume < 0)) = true
    · rw [if_pos hvol]
      refine iff_of_false (by simp) fun h => ?_
      obtain ⟨v, hv, hnonneg⟩ := h.volume
      simp [hv, badNumber, amount, hnonneg.not_gt] at hvol
    rw [if_neg hvol]
    have hvolume : ∃ v, e.bar.volume = some v ∧ 0 ≤ v := by
      cases hv : e.bar.volume with
      | none => simp [hv, badNumber] at hvol
      | some v =>
        simp only [hv, badNumber, amount, Option.isNone_some, Option.getD_some, Bool.false_or,
          decide_eq_true_eq, not_lt] at hvol
        exact ⟨v, rfl, hvol⟩
    by_cases hrange : amount e.bar.high < amount e.bar.low
    · rw [if_pos hrange]
      refine iff_of_false (by simp) fun h => ?_
      have htop := (le_max_left _ _).trans h.high
      have hbottom := h.low.trans (min_le_left _ _)
      exact absurd hrange (hbottom.trans htop).not_gt
    rw [if_neg hrange]
    split
    case isTrue hwick =>
      refine iff_of_false (by simp) fun h => ?_
      rcases hwick with hwick | hwick
      · exact absurd hwick h.high.not_gt
      · exact absurd hwick h.low.not_gt
    case isFalse hwick =>
      rw [not_or, not_lt, not_lt] at hwick
      cases hprev : e.prevTimestamp with
      | none =>
        refine iff_of_true rfl ⟨hpositive, hvolume, hwick.1, hwick.2, ?_⟩
        simp [hprev]
      | some prev =>
        dsimp only
        split
        case isTrue hlate =>
          refine iff_of_false (by simp) fun h => ?_
          exact absurd hlate (h.later prev hprev).not_ge
        case isFalse hlate =>
          refine iff_of_true rfl ⟨hpositive, hvolume, hwick.1, hwick.2, ?_⟩
          simpa [hprev] using hlate

section Spec
variable {config : DataQualityConfig} {calendar : MarketSessionCalendar} {zone : ExchangeZone}

variable (config) in
theorem checkCorporateAction_quarantine_iff (symbol : String) (prevClose todayOpen : ℚ)
    (marketPrevClose marketOpen : Option ℚ) :
    (checkCorporateAction config symbol prevClose todayOpen marketPrevClose marketOpen).verdict =
        .quarantineInstrument ↔
      0 < prevClose ∧ 0 < todayOpen ∧
        config.corporateActionJumpThreshold ≤ |todayOpen / prevClose - 1| ∧
        marketMove marketPrevClose marketOpen <
          config.corporateActionJumpThreshold * config.corporateActionMarketMoveRatio := by
  unfold checkCorporateAction
  by_cases hpos : prevClose ≤ 0 ∨ todayOpen ≤ 0
  · rw [if_pos hpos]
    refine iff_of_false (by simp) fun h => ?_
    rcases hpos with hpos | hpos
    · exact absurd h.1 hpos.not_gt
    · exact absurd h.2.1 hpos.not_gt
  rw [if_neg hpos]
  rw [not_or, not_le, not_le] at hpos
  dsimp only
  split
  case isTrue hsmall =>
    exact iff_of_false (by simp) fun h => absurd hsmall h.2.2.1.not_gt
  case isFalse hlarge =>
    rw [not_lt] at hlarge
    split
    case isTrue hwide => exact iff_of_false (by simp) fun h => absurd hwide h.2.2.2.not_ge
    case isFalse halone => exact iff_of_true rfl ⟨hpos.1, hpos.2, hlarge, not_le.mp halone⟩

theorem corporate?_isSome_iff (e : Evaluation) :
    (e.corporate? config).isSome = true ↔ Jumped config e := by
  unfold Evaluation.corporate? Jumped
  split
  case h_1 prevClose todayOpen hprev hopen =>
    rw [hprev, hopen]
    have hiff := checkCorporateAction_quarantine_iff config e.bar.symbol prevClose todayOpen
      e.marketPrevClose e.marketOpen
    dsimp only
    split
    case isTrue hq => simpa using hiff.mp hq
    case isFalse hq => simpa using fun hp ho hj => not_lt.mp fun hm => hq (hiff.mpr ⟨hp, ho, hj, hm⟩)
  case h_2 hmissing =>
    refine iff_of_false (by simp) ?_
    rintro ⟨prevClose, hprev, todayOpen, hopen, -⟩
    exact hmissing prevClose todayOpen hprev hopen

theorem checkStaleness_block_iff (e : Evaluation) :
    (checkStaleness config calendar zone e.bar.symbol e.bar.timestamp e.now e.timeframeMinutes
        e.assetClass).verdict = .blockNewEntries ↔ Late config calendar zone e := by
  have hclock : (if e.assetClass = "crypto" then e.now
      else if calendar.isWithinRth zone e.now then e.now
      else calendar.lastSessionClose zone e.now) = feedClock calendar zone e := by
    unfold feedClock
    by_cases hcrypto : e.assetClass = "crypto" <;> simp [hcrypto]
  unfold checkStaleness Late
  rw [hclock]
  dsimp only
  split <;> simp_all

/-! ## The state of an instrument -/

/-- The state kept for a symbol, or the one it starts with. -/
def entry (m : DataQualityMonitors) (symbol : String) : InstrumentQualityState :=
  (m.state.get? symbol).getD { symbol }

theorem entriesBlocked_eq (m : DataQualityMonitors) (symbol : String) :
    m.entriesBlocked symbol = ((entry m symbol).entriesBlocked || (entry m symbol).quarantined) := by
  unfold DataQualityMonitors.entriesBlocked entry
  cases m.state.get? symbol <;> rfl

theorem entry_setdefault (m : DataQualityMonitors) (symbol s : String) :
    entry { m with state := (m.state.setdefault symbol { symbol }).2 } s = entry m s := by
  unfold entry Dict.setdefault
  cases hst : m.state.get? symbol with
  | some st => rfl
  | none =>
    dsimp only
    rw [Dict.get?_set]
    split
    case isTrue heq => rw [heq, hst, Option.getD_some, Option.getD_none]
    case isFalse => rfl

theorem entry_clear (m : DataQualityMonitors) (symbol s : String) :
    entry (m.clear symbol) s = if s = symbol then { symbol := s } else entry m s := by
  unfold entry DataQualityMonitors.clear
  rw [Dict.get?_erase]
  split <;> rfl

theorem entry_set (m : DataQualityMonitors) (symbol s : String) (st : InstrumentQualityState) :
    entry { m with state := m.state.set symbol st } s = if s = symbol then st else entry m s := by
  unfold entry
  rw [Dict.get?_set]
  split <;> rfl

theorem entry_evaluate_ne (m : DataQualityMonitors) (e : Evaluation) {s : String}
    (hs : s ≠ e.bar.symbol) : entry (m.evaluate config calendar zone e).2 s = entry m s := by
  unfold DataQualityMonitors.evaluate DataQualityMonitors.report
  have hdefault := entry_setdefault m e.bar.symbol s
  have hset := fun st => entry_set
    { m with state := (m.state.setdefault e.bar.symbol { symbol := e.bar.symbol }).2 }
    e.bar.symbol s st
  simp only [if_neg hs, hdefault] at hset
  dsimp only
  split
  · rfl
  split
  · exact hdefault
  cases e.corporate? config with
  | some corp => exact hset _
  | none =>
    dsimp only
    split
    · exact hset _
    split
    · exact hset _
    · exact hdefault

/-- What an evaluation finds, and what it does to the state of its symbol. -/
theorem entry_evaluate (m : DataQualityMonitors) (e : Evaluation) (hon : config.enabled = true) :
    let before := entry m e.bar.symbol
    let after := entry (m.evaluate config calendar zone e).2 e.bar.symbol
    (¬ Sane e ∧ after = before) ∨
      (Sane e ∧ Jumped config e ∧ after.quarantined = true) ∨
      (Sane e ∧ ¬ Jumped config e ∧ Late config calendar zone e ∧
        after.quarantined = before.quarantined ∧ after.entriesBlocked = true) ∨
      (Sane e ∧ ¬ Jumped config e ∧ ¬ Late config calendar zone e ∧
        after.quarantined = before.quarantined ∧
        (before.quarantined = false → after.entriesBlocked = false)) := by
  intro before after
  have hdefault := entry_setdefault m e.bar.symbol e.bar.symbol
  have hfirst : (m.state.setdefault e.bar.symbol { symbol := e.bar.symbol }).1 = before := by
    have hget := m.state.setdefault_get? e.bar.symbol { symbol := e.bar.symbol }
    simp only [entry, hget, Option.getD_some] at hdefault
    exact hdefault
  have hset := fun st => entry_set
    { m with state := (m.state.setdefault e.bar.symbol { symbol := e.bar.symbol }).2 }
    e.bar.symbol e.bar.symbol st
  simp only [if_true] at hset
  have hafter : after = entry (m.evaluate config calendar zone e).2 e.bar.symbol := rfl
  unfold DataQualityMonitors.evaluate DataQualityMonitors.report at hafter
  simp only [hon, Bool.true_eq_false, if_false, hfirst] at hafter
  by_cases hsane : Sane e
  case neg =>
    rw [if_pos ((checkBarSanity_allow_iff e).not.mpr hsane)] at hafter
    exact .inl ⟨hsane, hafter.trans hdefault⟩
  rw [if_neg (not_not.mpr ((checkBarSanity_allow_iff e).mpr hsane))] at hafter
  by_cases hjump : Jumped config e
  · obtain ⟨corp, hcorp⟩ := Option.isSome_iff_exists.mp ((corporate?_isSome_iff e).mpr hjump)
    rw [hcorp] at hafter
    refine .inr (.inl ⟨hsane, hjump, ?_⟩)
    rw [hafter]
    exact congrArg (·.quarantined) (hset _)
  have hcorp : e.corporate? config = none := by
    rw [← Option.not_isSome_iff_eq_none]
    exact (corporate?_isSome_iff e).not.mpr hjump
  rw [hcorp] at hafter
  dsimp only at hafter
  by_cases hlate : Late config calendar zone e
  · rw [if_pos ((checkStaleness_block_iff e).mpr hlate)] at hafter
    have hentry := hafter.trans (hset _)
    refine .inr (.inr (.inl ⟨hsane, hjump, hlate, ?_, ?_⟩))
    · rw [hentry]
    · rw [hentry]
  rw [if_neg ((checkStaleness_block_iff e).not.mpr hlate)] at hafter
  refine .inr (.inr (.inr ⟨hsane, hjump, hlate, ?_⟩))
  cases hq : before.quarantined with
  | true =>
    rw [if_neg (by simp [hq])] at hafter
    rw [hafter.trans hdefault]
    exact ⟨hq, by simp⟩
  | false =>
    rw [if_pos hq] at hafter
    have hentry := hafter.trans (hset _)
    rw [hentry]
    exact ⟨hq, fun _ => rfl⟩

end Spec

/-! ## Runs -/

section Events
variable (config : DataQualityConfig) (calendar : MarketSessionCalendar) (zone : ExchangeZone)

/-- A sane bar of this symbol is judged to be a suspected corporate action. -/
def Suspected (symbol : String) : Op → Prop
  | .evaluate e => config.enabled = true ∧ e.bar.symbol = symbol ∧ Sane e ∧ Jumped config e
  | .clear _ => False

/-- A sane bar of this symbol, with no such jump, comes late. -/
def Stale (symbol : String) : Op → Prop
  | .evaluate e => config.enabled = true ∧ e.bar.symbol = symbol ∧ Sane e ∧ ¬ Jumped config e ∧
    Late config calendar zone e
  | .clear _ => False

/-- A sane bar of this symbol, with no such jump, comes in time. -/
def Healthy (symbol : String) : Op → Prop
  | .evaluate e => config.enabled = true ∧ e.bar.symbol = symbol ∧ Sane e ∧ ¬ Jumped config e ∧
    ¬ Late config calendar zone e
  | .clear _ => False

/-- The operator clears this symbol. -/
def Cleared (symbol : String) : Op → Prop
  | .evaluate _ => False
  | .clear s => s = symbol

/-- The instrument is in quarantine after these calls. -/
def Quarantined (symbol : String) (ops : List Op) : Prop :=
  Since (fun _ op => Suspected config symbol op) (fun _ op => Cleared symbol op) ops

/-- The instrument's feed is stale after these calls. -/
def FeedStale (symbol : String) (ops : List Op) : Prop :=
  Since (fun _ op => Stale config calendar zone symbol op)
    (fun _ op => Cleared symbol op ∨ Healthy config calendar zone symbol op) ops

end Events

section Run
variable (config : DataQualityConfig) (calendar : MarketSessionCalendar) (zone : ExchangeZone)

variable {config} in
theorem quarantined_concat {symbol : String} {ops : List Op} {op : Op} :
    Quarantined config symbol (ops ++ [op]) ↔
      Suspected config symbol op ∨ (Quarantined config symbol ops ∧ ¬ Cleared symbol op) :=
  since_concat

variable {config calendar zone} in
theorem feedStale_concat {symbol : String} {ops : List Op} {op : Op} :
    FeedStale config calendar zone symbol (ops ++ [op]) ↔
      Stale config calendar zone symbol op ∨ (FeedStale config calendar zone symbol ops ∧
        ¬ (Cleared symbol op ∨ Healthy config calendar zone symbol op)) :=
  since_concat

/-- One more call on a state that shows a quarantine and a stale feed shows both again. -/
theorem entry_step (ops : List Op) (op : Op) (m : DataQualityMonitors) (symbol : String)
    (hq : (entry m symbol).quarantined = true ↔ Quarantined config symbol ops)
    (hs : (entry m symbol).quarantined = false →
      ((entry m symbol).entriesBlocked = true ↔ FeedStale config calendar zone symbol ops)) :
    let st := entry (step config calendar zone m op) symbol
    (st.quarantined = true ↔ Quarantined config symbol (ops ++ [op])) ∧
      (st.quarantined = false →
        (st.entriesBlocked = true ↔ FeedStale config calendar zone symbol (ops ++ [op]))) := by
  intro st
  have hst : st = entry (step config calendar zone m op) symbol := rfl
  rw [quarantined_concat, feedStale_concat]
  cases op with
  | clear s =>
    dsimp only [step] at hst
    rw [entry_clear] at hst
    by_cases hsym : symbol = s
    · rw [hst, if_pos hsym]
      simp [Suspected, Stale, Cleared, hsym]
    · rw [hst, if_neg hsym]
      simp only [Suspected, Stale, Cleared, Healthy, Ne.symm hsym, false_or, or_false,
        not_false_eq_true, and_true]
      exact ⟨hq, hs⟩
  | evaluate e =>
    dsimp only [step] at hst
    by_cases hsym : symbol = e.bar.symbol
    case neg =>
      rw [hst, entry_evaluate_ne m e hsym]
      simp only [Suspected, Stale, Cleared, Healthy, Ne.symm hsym, false_and, and_false, or_self,
        false_or, not_false_eq_true, and_true]
      exact ⟨hq, hs⟩
    subst hsym
    cases hon : config.enabled with
    | false =>
      have hsame : st = entry m e.bar.symbol := by
        rw [hst, DataQualityMonitors.evaluate, if_pos hon]
      rw [hsame]
      simp only [Suspected, Stale, Cleared, Healthy, hon, Bool.false_eq_true, false_and, or_self,
        false_or, not_false_eq_true, and_true]
      exact ⟨hq, hs⟩
    | true =>
      simp only [Suspected, Stale, Cleared, Healthy, hon, true_and, false_or, not_false_eq_true,
        and_true]
      rcases entry_evaluate m e hon with ⟨hbad, hsame⟩ | ⟨hsane, hjump, hset⟩ |
        ⟨hsane, hjump, hlate, hkept, hblocked⟩ | ⟨hsane, hjump, hlate, hkept, hlifted⟩
      · rw [hst, hsame]
        simpa only [hbad, false_and, false_or, not_false_eq_true, and_true] using ⟨hq, hs⟩
      · rw [hst, hset]
        simp [hsane, hjump]
      · rw [hst, hkept, hblocked]
        simpa [hjump, hsane, hlate] using hq
      · rw [hst, hkept]
        refine ⟨by simpa [hjump] using hq, fun hfree => ?_⟩
        simp [hlifted hfree, hlate, hsane, hjump]

/-- Entries of an instrument are blocked exactly when a suspected corporate action was seen
and not cleared since, or a late bar and neither a healthy one nor a clear since. -/
theorem blocks_what_it_saw (ops : List Op) (symbol : String) :
    let m := run (step config calendar zone) .new ops
    (m.entriesBlocked symbol = true ↔
      Quarantined config symbol ops ∨ FeedStale config calendar zone symbol ops) := by
  intro m
  have hshows : ((entry m symbol).quarantined = true ↔ Quarantined config symbol ops) ∧
      ((entry m symbol).quarantined = false →
        ((entry m symbol).entriesBlocked = true ↔ FeedStale config calendar zone symbol ops)) := by
    induction ops using List.reverseRecOn with
    | nil =>
      refine ⟨iff_of_false ?_ not_since_nil, fun _ => iff_of_false ?_ not_since_nil⟩
      · exact Bool.false_ne_true
      · exact Bool.false_ne_true
    | append_singleton ops op ih =>
      have hstep := entry_step config calendar zone ops op _ symbol ih.1 ih.2
      simpa only [m, run_append, run_cons, run_nil] using hstep
  obtain ⟨hq, hs⟩ := hshows
  rw [entriesBlocked_eq, Bool.or_eq_true, hq]
  by_cases hquarantine : Quarantined config symbol ops
  · simp [hquarantine]
  · rw [hs (Bool.eq_false_iff.mpr (hq.not.mpr hquarantine))]
    exact or_comm

end Run

end TradingPlatform.DataQuality
