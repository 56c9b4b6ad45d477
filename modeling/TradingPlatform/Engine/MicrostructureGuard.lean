import TradingPlatform.Lib.Dict
import Mathlib.Algebra.Order.Field.Rat
import Mathlib.Data.List.Infix

/-! # The microstructure guard

Halts, LULD bands, spread and quote freshness of a symbol, noted from its feeds
and judged by `evaluate`. Instants are in seconds. Case folding, whitespace and
the two patterns that are searched for in free text are parameters. What is kept
for the log only, such as the text that set the latch, is left out. -/

namespace TradingPlatform.Engine.Microstructure

open TradingPlatform.Lib

/-- `str.upper`, `str.strip`, `str.rstrip`, `str.split`, and the patterns: where a halt
phrase starts in an upper-case text, and the prices that follow a mention of a band. -/
structure TextEnv where
  upper : String → String
  strip : String → String
  rstrip : String → String
  split : String → List String
  haltPhraseStarts : String → List ℕ
  luldBandPrices : String → List ℚ

def haltStatusTokens : List String :=
  ["H", "HALT", "HALTED", "SUSPENDED", "PAUSED", "T1", "T2", "T5", "T12"]

def luldStatusTokens : List String :=
  ["LULD", "LIMIT_UP", "LIMIT_DOWN", "LIMITUP", "LIMITDOWN", "LU", "LD"]

def resumeStatusCodes : List String := ["ACTIVE", "RESUME", "RESUMED", "NORMAL"]

def resumePhrases : List String :=
  ["TRADING RESUMED", "RESUME TRADING", "HALT CANCELLED", "HALT LIFTED"]

def haltConditionTokens : List String := ["H", "HALT", "HALTED"]

def luldConditionTokens : List String := ["L", "LU", "LD", "LULD"]

def negationPrefixes : List String := ["NOT ", "NO ", "NEVER ", "UN", "NON-", "NON "]

/-- `conditions: str | list[str] | None`. -/
inductive Conditions
  | absent
  | text (value : String)
  | list (parts : List String)
  deriving DecidableEq

/-- `phrase in text`. -/
def containsPhrase (text phrase : String) : Bool := decide (phrase.toList <:+: text.toList)

def endsWith (text tail : String) : Bool := decide (tail.toList <:+ text.toList)

def tokenHits (tokens vocabulary : List String) : Bool :=
  tokens.any fun t => decide (t ∈ vocabulary)

structure TradingStatus where
  statusCode : String := ""
  statusMessage : String := ""
  reasonCode : String := ""
  reasonMessage : String := ""
  timestamp : ℚ
  limitUpPrice : Option ℚ := none
  limitDownPrice : Option ℚ := none
  deriving DecidableEq

structure MarketQuote where
  bidPrice : ℚ
  askPrice : ℚ
  timestamp : ℚ
  conditions : Conditions := .absent
  deriving DecidableEq

structure MarketTrade where
  price : ℚ
  timestamp : ℚ
  conditions : Conditions := .absent
  deriving DecidableEq

section Text
variable (env : TextEnv)

/-- The set of tokens, as a list. -/
def normalizeTokens (value : Conditions) : List String :=
  let rawParts := match value with
    | .absent => []
    | .text value => env.split (value.replace "," " ")
    | .list parts => parts
  (rawParts.filter fun part => env.strip part ≠ "").map fun part => env.upper (env.strip part)

def isResumeStatus (st : TradingStatus) : Bool :=
  decide (env.upper (env.strip st.statusCode) ∈ resumeStatusCodes) ||
    resumePhrases.any (containsPhrase (env.upper (st.statusMessage ++ " " ++ st.reasonMessage)))

/-- What precedes a phrase negates it: two prefixes bind to it, the others are words. -/
def negated (preceding : String) : Bool :=
  let tail := env.rstrip preceding
  negationPrefixes.any fun negation =>
    if negation = "UN" ∨ negation = "NON-" then endsWith preceding negation
    else endsWith tail (env.strip negation) && decide (tail.length < preceding.length)

def isHaltStatus (st : TradingStatus) : Bool :=
  decide (env.upper (env.strip st.statusCode) ∈ haltStatusTokens) ||
    decide (env.upper (env.strip st.reasonCode) ∈ haltStatusTokens) ||
    [st.statusMessage, st.reasonMessage].any fun text =>
      (env.haltPhraseStarts (env.upper text)).any fun start =>
        !negated env (String.ofList ((env.upper text).toList.take start))

def isLuldStatus (st : TradingStatus) : Bool :=
  let parts := [st.statusCode, st.statusMessage, st.reasonCode, st.reasonMessage]
  tokenHits (normalizeTokens env (.list parts)) luldStatusTokens ||
    luldStatusTokens.any (containsPhrase (env.upper (" ".intercalate parts)))

end Text

structure MicrostructureGuardConfig where
  maxAllowedSpreadPct : ℚ := 15 / 1000
  maxQuoteStaleSeconds : ℚ := 5
  freshBarWindowSeconds : ℚ := 120
  haltRecoveryConfirmationSeconds : ℚ := 60
  deriving DecidableEq

structure SymbolMicrostructureState where
  symbol : String
  regulatoryHalt : Bool := false
  luldActive : Bool := false
  luldUpper : Option ℚ := none
  luldLower : Option ℚ := none
  lastQuoteTimestamp : Option ℚ := none
  lastBarTimestamp : Option ℚ := none
  bidPrice : ℚ := 0
  askPrice : ℚ := 0
  lastTradePrice : ℚ := 0
  spreadPct : ℚ := 0
  haltClearCandidateSince : Option ℚ := none
  deriving DecidableEq

structure MicrostructureVerdict where
  symbol : String
  safeForEntries : Bool
  blocksEntries : Bool
  haltStatus : Bool
  luldActive : Bool
  realizedSpreadPct : ℚ
  staleQuoteDetected : Bool
  quoteAgeSeconds : Option ℚ
  reason : String
  deriving DecidableEq

/-- What the depth cache answers. -/
structure Level1DepthQuote where
  bidPrice : ℚ
  askPrice : ℚ
  spreadPct : ℚ
  timestamp : ℚ
  deriving DecidableEq

/-- The spread of a quote, as a fraction of its middle. -/
def quoteSpread (bidPrice askPrice : ℚ) : ℚ :=
  let mid := if 0 < bidPrice ∧ 0 < askPrice then (bidPrice + askPrice) / 2 else 0
  if 0 < mid then max (askPrice - bidPrice) 0 / mid else 0

namespace SymbolMicrostructureState

variable (env : TextEnv) (config : MicrostructureGuardConfig) (state : SymbolMicrostructureState)

def latchHalt : SymbolMicrostructureState :=
  { state with regulatoryHalt := true, haltClearCandidateSince := none }

def clearHalt : SymbolMicrostructureState :=
  if !state.regulatoryHalt then { state with haltClearCandidateSince := none }
  else { state with regulatoryHalt := false, haltClearCandidateSince := none }

/-- The quote in force looks tradeable, with the tokens it came with. -/
def tradeable (conditionTokens : List String) : Bool :=
  decide (0 < state.bidPrice) && decide (0 < state.askPrice) &&
    decide (state.spreadPct ≤ config.maxAllowedSpreadPct) &&
    !tokenHits conditionTokens haltConditionTokens &&
    !tokenHits conditionTokens luldConditionTokens

/-- Extends or resets the unbroken run of quotes that look tradeable. -/
def noteRecoveryEvidence (quoteTs : ℚ) (conditionTokens : List String) :
    SymbolMicrostructureState :=
  if !state.regulatoryHalt then { state with haltClearCandidateSince := none }
  else if !state.tradeable config conditionTokens then
    { state with haltClearCandidateSince := none }
  else if state.haltClearCandidateSince = none then
    { state with haltClearCandidateSince := some quoteTs }
  else state

def noteStreamBar (barTimestamp : ℚ) : SymbolMicrostructureState :=
  { state with lastBarTimestamp := some barTimestamp }

/-- The halt and LULD tokens among the conditions of a quote or a trade. -/
def noteConditions (haltTokens : List String) : SymbolMicrostructureState :=
  let state := if tokenHits haltTokens haltConditionTokens then state.latchHalt else state
  if tokenHits haltTokens luldConditionTokens then { state with luldActive := true } else state

def quoted (quote : MarketQuote) : SymbolMicrostructureState :=
  { state with
    lastQuoteTimestamp := some quote.timestamp
    bidPrice := max quote.bidPrice 0
    askPrice := max quote.askPrice 0
    spreadPct := quoteSpread quote.bidPrice quote.askPrice }

def noteQuote (quote : MarketQuote) : SymbolMicrostructureState :=
  let haltTokens := normalizeTokens env quote.conditions
  ((state.quoted quote).noteConditions haltTokens).noteRecoveryEvidence config quote.timestamp
    haltTokens

def noteTrade (trade : MarketTrade) : SymbolMicrostructureState :=
  noteConditions { state with lastTradePrice := max trade.price 0 }
    (normalizeTokens env trade.conditions)

/-- A price found in the text of a status: the lower band first, then the upper. -/
def noteBand (parsed : ℚ) : SymbolMicrostructureState :=
  if state.luldLower = none then { state with luldLower := some parsed }
  else if state.luldUpper = none then { state with luldUpper := some parsed }
  else state

def noteBands (st : TradingStatus) : SymbolMicrostructureState :=
  let limited :=
    { state with
      luldUpper := if st.limitUpPrice.any (0 < ·) then st.limitUpPrice else state.luldUpper
      luldLower := if st.limitDownPrice.any (0 < ·) then st.limitDownPrice else state.luldLower }
  let prices := env.luldBandPrices st.statusMessage ++ env.luldBandPrices st.reasonMessage
  prices.foldl noteBand limited

def noteTradingStatus (st : TradingStatus) : SymbolMicrostructureState :=
  let banded := state.noteBands env st
  let switched :=
    if isResumeStatus env st then { banded.clearHalt with luldActive := false }
    else if isHaltStatus env st then banded.latchHalt
    else banded
  if isLuldStatus env st then { switched with luldActive := true } else switched

def maybeRecoverHalt (reference : ℚ) (quoteIsStale : Bool) : SymbolMicrostructureState :=
  if !state.regulatoryHalt then state
  else if quoteIsStale || decide (state.lastQuoteTimestamp = none) then
    { state with haltClearCandidateSince := none }
  else
    match state.haltClearCandidateSince with
    | none => state
    | some since =>
      if reference - since < config.haltRecoveryConfirmationSeconds then state
      else state.clearHalt

/-- The bars are fresh and the quote is not. -/
def staleQuote (barTs quoteTs : Option ℚ) (reference : ℚ) : Bool :=
  match barTs, quoteTs with
  | some bar, some quote =>
    decide (max (reference - bar) 0 ≤ config.freshBarWindowSeconds) &&
      decide (config.maxQuoteStaleSeconds < max (reference - quote) 0)
  | _, _ => false

def evaluate (streamQuote : Option Level1DepthQuote) (reference : ℚ) :
    MicrostructureVerdict × SymbolMicrostructureState :=
  let spreadPct := streamQuote.elim state.spreadPct (·.spreadPct)
  let quoteTs := streamQuote.elim state.lastQuoteTimestamp (some ·.timestamp)
  let bidPrice := streamQuote.elim state.bidPrice (·.bidPrice)
  let askPrice := streamQuote.elim state.askPrice (·.askPrice)
  let quoteAgeSeconds := quoteTs.map fun ts => max (reference - ts) 0
  let staleQuoteDetected := staleQuote config state.lastBarTimestamp quoteTs reference
  let spreadExceeded := decide (config.maxAllowedSpreadPct < spreadPct)
  let recovered := state.maybeRecoverHalt config reference (staleQuoteDetected || spreadExceeded)
  let haltStatus := recovered.regulatoryHalt
  let referencePrice :=
    if 0 < bidPrice ∧ 0 < askPrice then (bidPrice + askPrice) / 2
    else if 0 < state.lastTradePrice then state.lastTradePrice
    else 0
  let luldBreach :=
    match state.luldUpper, state.luldLower with
    | some upper, some lower =>
      state.luldActive && decide (0 < referencePrice) &&
        (decide (upper ≤ referencePrice) || decide (referencePrice ≤ lower))
    | _, _ => false
  let luld := state.luldActive || luldBreach
  let blocksEntries := haltStatus || spreadExceeded || staleQuoteDetected || luld
  ({ symbol := state.symbol
     safeForEntries := !blocksEntries
     blocksEntries
     haltStatus
     luldActive := luld
     realizedSpreadPct := spreadPct
     staleQuoteDetected
     quoteAgeSeconds
     reason :=
       if haltStatus then "regulatory_halt"
       else if spreadExceeded then "spread_exceeded"
       else if staleQuoteDetected then "stale_quote"
       else if luld then "luld_band"
       else "" },
    recovered)

end SymbolMicrostructureState

/-! ## The guard -/

/-- A call on one symbol. -/
inductive GuardCall
  | quote (quote : MarketQuote)
  | trade (trade : MarketTrade)
  | status (st : TradingStatus)
  | bar (timestamp : ℚ)
  | evaluate (now : ℚ)
  deriving DecidableEq

structure MicrostructureGuard where
  config : MicrostructureGuardConfig := {}
  states : Dict String SymbolMicrostructureState := .empty

section Calls
variable (env : TextEnv) (config : MicrostructureGuardConfig)

/-- What a call does to the state of its symbol; no depth cache answers. -/
def SymbolMicrostructureState.call (state : SymbolMicrostructureState) :
    GuardCall → SymbolMicrostructureState
  | .quote quote => state.noteQuote env config quote
  | .trade trade => state.noteTrade env trade
  | .status st => state.noteTradingStatus env st
  | .bar timestamp => state.noteStreamBar timestamp
  | .evaluate now => (state.evaluate config none now).2

def MicrostructureGuard.state (guard : MicrostructureGuard) (symbol : String) :
    SymbolMicrostructureState :=
  (guard.states.get? (env.upper symbol)).getD { symbol := env.upper symbol }

/-- `_states.setdefault(symbol, ...)`, and the call on it. -/
def MicrostructureGuard.call (guard : MicrostructureGuard) (symbol : String) (c : GuardCall) :
    MicrostructureGuard :=
  { guard with
    states := guard.states.set (env.upper symbol)
      ((guard.state env symbol).call env guard.config c) }

/-- A call is on the state of its symbol, and on no other. -/
theorem MicrostructureGuard.state_call (guard : MicrostructureGuard) (symbol other : String)
    (c : GuardCall) :
    (guard.call env symbol c).state env other =
      if env.upper other = env.upper symbol then (guard.state env other).call env guard.config c
      else guard.state env other := by
  unfold MicrostructureGuard.call MicrostructureGuard.state
  rw [Dict.get?_set]
  split
  · rename_i h
    rw [h]
    rfl
  · rfl

end Calls

end TradingPlatform.Engine.Microstructure
