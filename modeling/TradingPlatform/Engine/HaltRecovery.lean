import TradingPlatform.Engine.MicrostructureGuard
import TradingPlatform.Lib.Runs

/-! # Recovery from a halt

Beside the state of a symbol stand the calls made on it, the latest first. The
run that recovery should rest on is read off them, and so is the quote the guard
counts from: the first of that run since an `evaluate` last found the quotes
stale. The guard counts from it to the clock, not to the newest quote. -/

namespace TradingPlatform.Engine.Microstructure

open TradingPlatform.Lib.Runs

section Past
variable (env : TextEnv) (config : MicrostructureGuardConfig)

/-- Two-sided, within the spread limit and free of halt and LULD conditions. -/
def MarketQuote.tradeable (quote : MarketQuote) : Bool :=
  decide (0 < quote.bidPrice) && decide (0 < quote.askPrice) &&
    decide (quoteSpread quote.bidPrice quote.askPrice ≤ config.maxAllowedSpreadPct) &&
    !tokenHits (normalizeTokens env quote.conditions) haltConditionTokens &&
    !tokenHits (normalizeTokens env quote.conditions) luldConditionTokens

/-- A quote, a trade or a status that says the symbol is halted. -/
def GuardCall.indicatesHalt : GuardCall → Bool
  | .quote q => tokenHits (normalizeTokens env q.conditions) haltConditionTokens
  | .trade t => tokenHits (normalizeTokens env t.conditions) haltConditionTokens
  | .status st => !isResumeStatus env st && isHaltStatus env st
  | _ => false

/-- The quotes noted since the last halt indication. -/
def quotesSinceHalt : List GuardCall → List MarketQuote
  | [] => []
  | c :: past =>
    if c.indicatesHalt env then []
    else
      match c with
      | .quote quote => quote :: quotesSinceHalt past
      | _ => quotesSinceHalt past

/-- The unbroken run of tradeable quotes they end in. -/
def unbrokenRun (past : List GuardCall) : List MarketQuote :=
  (quotesSinceHalt env past).takeWhile (·.tradeable env config)

/-- The run's first and last quote lie the confirmation window apart. -/
def Confirmed (past : List GuardCall) : Prop :=
  ∃ newest oldest, (unbrokenRun env config past).head? = some newest ∧
    (unbrokenRun env config past).getLast? = some oldest ∧
    config.haltRecoveryConfirmationSeconds ≤ newest.timestamp - oldest.timestamp

def lastQuote : List GuardCall → Option ℚ
  | [] => none
  | .quote quote :: _ => some quote.timestamp
  | _ :: past => lastQuote past

def lastBar : List GuardCall → Option ℚ
  | [] => none
  | .bar timestamp :: _ => some timestamp
  | _ :: past => lastBar past

/-- At `now` the bars are fresh and the quotes are not. -/
def staleAt (past : List GuardCall) (now : ℚ) : Bool :=
  SymbolMicrostructureState.staleQuote config (lastBar past) (lastQuote past) now

/-- The unbroken run, as far as no `evaluate` has found it stale. -/
def watchedRun : List GuardCall → List MarketQuote
  | [] => []
  | c :: past =>
    if c.indicatesHalt env then []
    else
      match c with
      | .quote quote => if quote.tradeable env config then quote :: watchedRun past else []
      | .evaluate now => if staleAt config past now then [] else watchedRun past
      | _ => watchedRun past

variable {env config}

theorem lastQuote_of_watchedRun {past : List GuardCall} (h : lastQuote past = none) :
    watchedRun env config past = [] := by
  induction past with
  | nil => rfl
  | cons c past ih =>
    unfold watchedRun
    split
    · rfl
    cases c with
    | quote quote => cases h
    | trade trade => exact ih h
    | status st => exact ih h
    | bar timestamp => exact ih h
    | evaluate now =>
      dsimp only
      split
      · rfl
      · exact ih h

end Past

/-! ## The fields recovery reads -/

structure Evidence where
  halt : Bool
  since : Option ℚ
  quoteTs : Option ℚ
  barTs : Option ℚ
  spread : ℚ

def Evidence.latched (e : Evidence) : Evidence := { e with halt := true, since := none }

def Evidence.cleared (e : Evidence) : Evidence := { e with halt := false, since := none }

def SymbolMicrostructureState.evidence (state : SymbolMicrostructureState) : Evidence where
  halt := state.regulatoryHalt
  since := state.haltClearCandidateSince
  quoteTs := state.lastQuoteTimestamp
  barTs := state.lastBarTimestamp
  spread := state.spreadPct

section Calls
open SymbolMicrostructureState
variable (env : TextEnv) (config : MicrostructureGuardConfig) (state : SymbolMicrostructureState)

@[simp] theorem evidence_clearHalt : state.clearHalt.evidence = state.evidence.cleared := by
  unfold clearHalt
  split
  · rename_i h
    have hhalt : state.regulatoryHalt = false := by simpa using h
    simp [evidence, Evidence.cleared, hhalt]
  · rfl

theorem evidence_noteConditions (tokens : List String) :
    (state.noteConditions tokens).evidence =
      if tokenHits tokens haltConditionTokens then state.evidence.latched else state.evidence := by
  unfold noteConditions
  dsimp only
  cases tokenHits tokens haltConditionTokens <;> cases tokenHits tokens luldConditionTokens <;> rfl

theorem evidence_noteTrade (trade : MarketTrade) :
    (state.noteTrade env trade).evidence =
      if (GuardCall.trade trade).indicatesHalt env then state.evidence.latched
      else state.evidence :=
  evidence_noteConditions _ _

theorem evidence_noteBands (st : TradingStatus) :
    (state.noteBands env st).evidence = state.evidence := by
  unfold noteBands
  dsimp only
  generalize env.luldBandPrices st.statusMessage ++ env.luldBandPrices st.reasonMessage = bands
  have hfold : ∀ (bands : List ℚ) (s : SymbolMicrostructureState),
      (bands.foldl noteBand s).evidence = s.evidence := by
    intro bands
    induction bands with
    | nil => exact fun s => rfl
    | cons b bands ih =>
      intro s
      rw [List.foldl_cons, ih, noteBand]
      split
      · rfl
      split <;> rfl
  exact hfold bands _

theorem evidence_noteTradingStatus (st : TradingStatus) :
    (state.noteTradingStatus env st).evidence =
      if isResumeStatus env st then state.evidence.cleared
      else if (GuardCall.status st).indicatesHalt env then state.evidence.latched
      else state.evidence := by
  have hluld : ∀ s : SymbolMicrostructureState, ∀ b : Bool,
      ({ s with luldActive := b } : SymbolMicrostructureState).evidence = s.evidence :=
    fun _ _ => rfl
  unfold noteTradingStatus
  dsimp only
  rw [apply_ite evidence, hluld, ite_self]
  by_cases hresume : isResumeStatus env st = true
  · rw [if_pos hresume, if_pos hresume, hluld, evidence_clearHalt, evidence_noteBands]
  rw [if_neg hresume, if_neg hresume]
  have hhalt : (GuardCall.status st).indicatesHalt env = isHaltStatus env st := by
    rw [GuardCall.indicatesHalt, Bool.eq_false_iff.mpr hresume, Bool.not_false, Bool.true_and]
  rw [hhalt, apply_ite evidence, ← evidence_noteBands env state st]
  rfl

theorem evidence_noteRecoveryEvidence (quoteTs : ℚ) (tokens : List String) :
    (state.noteRecoveryEvidence config quoteTs tokens).evidence =
      { state.evidence with
        since :=
          if state.regulatoryHalt && state.tradeable config tokens then
            some (state.haltClearCandidateSince.getD quoteTs)
          else none } := by
  unfold noteRecoveryEvidence
  cases hhalt : state.regulatoryHalt with
  | false => simp [evidence, hhalt]
  | true =>
    cases htrade : state.tradeable config tokens with
    | false => simp [evidence, hhalt]
    | true => cases hsince : state.haltClearCandidateSince <;> simp [evidence, hhalt, hsince]

theorem noteConditions_tradeable (tokens : List String) :
    (state.noteConditions tokens).tradeable config tokens = state.tradeable config tokens := by
  unfold noteConditions latchHalt
  dsimp only
  cases tokenHits tokens haltConditionTokens <;> cases tokenHits tokens luldConditionTokens <;> rfl

/-- A quote that says the symbol is halted is not tradeable. -/
theorem not_tradeable_of_halt {quote : MarketQuote}
    (h : (GuardCall.quote quote).indicatesHalt env = true) :
    quote.tradeable env config = false := by
  have h : tokenHits (normalizeTokens env quote.conditions) haltConditionTokens = true := h
  rw [MarketQuote.tradeable, h, Bool.not_true, Bool.and_false, Bool.false_and]

theorem evidence_noteQuote (quote : MarketQuote) :
    (state.noteQuote env config quote).evidence =
      { halt := (GuardCall.quote quote).indicatesHalt env || state.regulatoryHalt
        since :=
          if state.regulatoryHalt && quote.tradeable env config then
            some (state.haltClearCandidateSince.getD quote.timestamp)
          else none
        quoteTs := some quote.timestamp
        barTs := state.lastBarTimestamp
        spread := quoteSpread quote.bidPrice quote.askPrice } := by
  have htrade : (state.quoted quote).tradeable config (normalizeTokens env quote.conditions) =
      quote.tradeable env config := by
    have hpos : ∀ price : ℚ, decide (0 < max price 0) = decide (0 < price) :=
      fun price => decide_eq_decide.mpr (by simp)
    rw [tradeable, quoted, hpos, hpos]
    rfl
  have hnoted := evidence_noteConditions (state.quoted quote) (normalizeTokens env quote.conditions)
  have hhalt := congrArg Evidence.halt hnoted
  have hsince := congrArg Evidence.since hnoted
  rw [noteQuote, evidence_noteRecoveryEvidence, noteConditions_tradeable, htrade, hnoted]
  simp only [evidence] at hhalt hsince
  rw [hhalt, hsince]
  cases htokens : (GuardCall.quote quote).indicatesHalt env with
  | true =>
    have htokens' : tokenHits (normalizeTokens env quote.conditions) haltConditionTokens = true :=
      htokens
    rw [not_tradeable_of_halt env config htokens, htokens']
    simp [Evidence.latched, evidence, quoted]
  | false =>
    have htokens' : tokenHits (normalizeTokens env quote.conditions) haltConditionTokens = false :=
      htokens
    rw [htokens']
    simp [evidence, quoted]

theorem evidence_maybeRecoverHalt (reference : ℚ) (quoteIsStale : Bool) :
    (state.maybeRecoverHalt config reference quoteIsStale).evidence =
      if !state.regulatoryHalt then state.evidence
      else if quoteIsStale || decide (state.lastQuoteTimestamp = none) then
        { state.evidence with since := none }
      else
        match state.haltClearCandidateSince with
        | none => state.evidence
        | some since =>
          if reference - since < config.haltRecoveryConfirmationSeconds then state.evidence
          else state.evidence.cleared := by
  unfold maybeRecoverHalt
  by_cases hhalt : (!state.regulatoryHalt) = true
  · rw [if_pos hhalt, if_pos hhalt]
  rw [if_neg hhalt, if_neg hhalt]
  by_cases hstale : (quoteIsStale || decide (state.lastQuoteTimestamp = none)) = true
  · rw [if_pos hstale, if_pos hstale]
    rfl
  rw [if_neg hstale, if_neg hstale]
  cases state.haltClearCandidateSince with
  | none => rfl
  | some since =>
    dsimp only
    rw [apply_ite evidence, evidence_clearHalt]

theorem evidence_evaluate (now : ℚ) :
    (state.evaluate config none now).2.evidence =
      if !state.regulatoryHalt then state.evidence
      else if staleQuote config state.lastBarTimestamp state.lastQuoteTimestamp now ||
          decide (config.maxAllowedSpreadPct < state.spreadPct) ||
          decide (state.lastQuoteTimestamp = none) then
        { state.evidence with since := none }
      else
        match state.haltClearCandidateSince with
        | none => state.evidence
        | some since =>
          if now - since < config.haltRecoveryConfirmationSeconds then state.evidence
          else state.evidence.cleared :=
  evidence_maybeRecoverHalt config state now _

/-- What the guard holds of the calls made on the symbol. -/
structure Tracks (e : Evidence) (past : List GuardCall) : Prop where
  quoteTs : e.quoteTs = lastQuote past
  barTs : e.barTs = lastBar past
  spread : config.maxAllowedSpreadPct < e.spread → watchedRun env config past = []
  since : e.halt = true →
    e.since = (watchedRun env config past).getLast?.map (·.timestamp)

variable {env config state} {past : List GuardCall}

theorem tracks_quote (h : Tracks env config state.evidence past) (quote : MarketQuote) :
    Tracks env config (state.noteQuote env config quote).evidence (.quote quote :: past) := by
  have hrun : watchedRun env config (.quote quote :: past) =
      if quote.tradeable env config then quote :: watchedRun env config past else [] := by
    rw [watchedRun]
    split
    · rename_i hhalt
      rw [not_tradeable_of_halt env config hhalt]
      rfl
    · rfl
  rw [evidence_noteQuote]
  refine ⟨rfl, h.barTs, fun hwide => ?_, fun hhalt => ?_⟩
  · have hnot : quote.tradeable env config = false := by
      rw [MarketQuote.tradeable, decide_eq_false (not_le.mpr hwide)]
      simp
    rw [hrun, hnot]
    rfl
  · rw [hrun]
    cases htrade : quote.tradeable env config with
    | false => simp
    | true =>
      have hnew : (GuardCall.quote quote).indicatesHalt env = false := by
        by_contra hne
        rw [not_tradeable_of_halt env config (by simpa using hne)] at htrade
        cases htrade
      dsimp only at hhalt ⊢
      rw [hnew, Bool.false_or] at hhalt
      rw [hhalt, Bool.and_self, if_pos rfl, if_pos rfl, List.getLast?_cons]
      have hsince : state.haltClearCandidateSince = _ := h.since hhalt
      rw [hsince]
      cases (watchedRun env config past).getLast? <;> rfl

/-- A call that latches a halt starts the run anew. -/
theorem tracks_latched {c : GuardCall} (h : Tracks env config state.evidence past)
    (hc : c.indicatesHalt env = true) (hquote : lastQuote (c :: past) = lastQuote past)
    (hbar : lastBar (c :: past) = lastBar past) :
    Tracks env config state.evidence.latched (c :: past) := by
  have hrun : watchedRun env config (c :: past) = [] := if_pos hc
  refine ⟨h.quoteTs.trans hquote.symm, h.barTs.trans hbar.symm, fun _ => hrun, fun _ => ?_⟩
  rw [hrun]
  rfl

theorem tracks_trade (h : Tracks env config state.evidence past) (trade : MarketTrade) :
    Tracks env config (state.noteTrade env trade).evidence (.trade trade :: past) := by
  rw [evidence_noteTrade]
  split
  · rename_i hhalt
    exact tracks_latched h hhalt rfl rfl
  · rename_i hhalt
    have hrun : watchedRun env config (.trade trade :: past) = watchedRun env config past :=
      if_neg hhalt
    exact ⟨h.quoteTs, h.barTs, hrun ▸ h.spread, hrun ▸ h.since⟩

theorem tracks_status (h : Tracks env config state.evidence past) (st : TradingStatus) :
    Tracks env config (state.noteTradingStatus env st).evidence (.status st :: past) := by
  rw [evidence_noteTradingStatus]
  by_cases hhalt : (GuardCall.status st).indicatesHalt env = true
  · have hresume : isResumeStatus env st = false := by
      have hboth : (!isResumeStatus env st && isHaltStatus env st) = true := hhalt
      simpa using (Bool.and_eq_true_iff.mp hboth).1
    rw [hresume, if_neg Bool.false_ne_true, if_pos hhalt]
    exact tracks_latched h hhalt rfl rfl
  · have hrun : watchedRun env config (.status st :: past) = watchedRun env config past :=
      if_neg hhalt
    rw [if_neg hhalt]
    split
    · exact ⟨h.quoteTs, h.barTs, hrun ▸ h.spread, nofun⟩
    · exact ⟨h.quoteTs, h.barTs, hrun ▸ h.spread, hrun ▸ h.since⟩

theorem tracks_bar (h : Tracks env config state.evidence past) (timestamp : ℚ) :
    Tracks env config (state.noteStreamBar timestamp).evidence (.bar timestamp :: past) :=
  ⟨h.quoteTs, rfl, h.spread, h.since⟩

/-- The guard finds the quotes stale when the calls say so. -/
theorem staleQuote_eq (h : Tracks env config state.evidence past) (now : ℚ) :
    staleQuote config state.lastBarTimestamp state.lastQuoteTimestamp now =
      staleAt config past now := by
  have hquote : state.lastQuoteTimestamp = _ := h.quoteTs
  have hbar : state.lastBarTimestamp = _ := h.barTs
  rw [hquote, hbar, staleAt]

theorem tracks_evaluate (h : Tracks env config state.evidence past) (now : ℚ) :
    Tracks env config (state.evaluate config none now).2.evidence (.evaluate now :: past) := by
  have hrun : watchedRun env config (.evaluate now :: past) =
      if staleAt config past now then [] else watchedRun env config past := rfl
  rw [evidence_evaluate]
  -- an unset latch is left alone, and a set one keeps a candidate only with its run
  have hrest : ∀ e : Evidence, e.quoteTs = state.evidence.quoteTs →
      e.barTs = state.evidence.barTs → e.spread = state.evidence.spread →
      (e.halt = true → e.since =
        (watchedRun env config (.evaluate now :: past)).getLast?.map (·.timestamp)) →
      Tracks env config e (.evaluate now :: past) := by
    intro e hquote hbar hspread hsince
    refine ⟨hquote.trans h.quoteTs, hbar.trans h.barTs, fun hwide => ?_, hsince⟩
    rw [hrun, h.spread (hspread ▸ hwide), ite_self]
  split
  · rename_i hunset
    refine hrest _ rfl rfl rfl fun hhalt => ?_
    have hhalt : state.regulatoryHalt = true := hhalt
    rw [hhalt] at hunset
    cases hunset
  rename_i hset
  have hset : state.regulatoryHalt = true := by simpa using hset
  split
  · rename_i hunobservable
    refine hrest _ rfl rfl rfl fun _ => ?_
    rw [hrun]
    split
    · rfl
    · rename_i hfresh
      have hnil : watchedRun env config past = [] := by
        rw [Bool.or_eq_true, Bool.or_eq_true] at hunobservable
        rcases hunobservable with (hstale | hwide) | hnone
        · exact absurd ((staleQuote_eq h now).symm.trans hstale) hfresh
        · exact h.spread (of_decide_eq_true hwide)
        · exact lastQuote_of_watchedRun (h.quoteTs.symm.trans (of_decide_eq_true hnone))
      rw [hnil]
      rfl
  rename_i hobservable
  have hfresh : staleAt config past now = false := by
    rw [← staleQuote_eq h now]
    simp only [Bool.or_eq_true, not_or, Bool.not_eq_true] at hobservable
    exact hobservable.1.1
  have hsince := h.since hset
  rw [hfresh, if_neg Bool.false_ne_true] at hrun
  rw [← hrun] at hsince
  split
  · exact hrest _ rfl rfl rfl fun _ => hsince
  split
  · exact hrest _ rfl rfl rfl fun _ => hsince
  · exact hrest _ rfl rfl rfl nofun

variable (env config) in
/-- **The guard tracks the calls made on it.** -/
theorem tracks_call (h : Tracks env config state.evidence past) (c : GuardCall) :
    Tracks env config (state.call env config c).evidence (c :: past) := by
  cases c with
  | quote quote => exact tracks_quote h quote
  | trade trade => exact tracks_trade h trade
  | status st => exact tracks_status h st
  | bar timestamp => exact tracks_bar h timestamp
  | evaluate now => exact tracks_evaluate h now

/-- An `evaluate` clears the latch when the quotes are not stale and the quote it watches from
is the confirmation window old. -/
theorem evaluate_clears_iff (h : Tracks env config state.evidence past) (now : ℚ)
    (hset : state.regulatoryHalt = true) :
    (state.evaluate config none now).2.regulatoryHalt = false ↔
      staleAt config past now = false ∧ ∃ first ∈ (watchedRun env config past).getLast?,
        config.haltRecoveryConfirmationSeconds ≤ now - first.timestamp := by
  have hhalt := congrArg Evidence.halt (evidence_evaluate config state now)
  have hsince : state.haltClearCandidateSince = _ := h.since hset
  rw [hset, Bool.not_true, if_neg Bool.false_ne_true] at hhalt
  have hstays : state.evidence.halt = true := hset
  show (state.evaluate config none now).2.evidence.halt = false ↔ _
  rw [hhalt]
  cases hlast : (watchedRun env config past).getLast? with
  | none =>
    rw [hlast] at hsince
    refine iff_of_false (fun hno => ?_) fun hno => by simp at hno
    rw [hsince] at hno
    split at hno <;> exact absurd (hstays.symm.trans hno) (by decide)
  | some first =>
    rw [hlast] at hsince
    have hne : watchedRun env config past ≠ [] := by
      intro hnil
      rw [hnil] at hlast
      cases hlast
    have hnarrow : ¬ config.maxAllowedSpreadPct < state.spreadPct :=
      fun hwide => hne (h.spread hwide)
    have hquoted : state.lastQuoteTimestamp ≠ none :=
      fun hnone => hne (lastQuote_of_watchedRun (h.quoteTs.symm.trans hnone))
    have hunobservable : (staleQuote config state.lastBarTimestamp state.lastQuoteTimestamp now ||
        decide (config.maxAllowedSpreadPct < state.spreadPct) ||
        decide (state.lastQuoteTimestamp = none)) = staleAt config past now := by
      rw [staleQuote_eq h now, decide_eq_false hnarrow, decide_eq_false hquoted, Bool.or_false,
        Bool.or_false]
    rw [hunobservable, hsince]
    dsimp only [Option.map_some]
    cases staleAt config past now with
    | true => exact iff_of_false (fun hno => absurd (hstays.symm.trans hno) (by decide)) nofun
    | false =>
      rw [if_neg Bool.false_ne_true]
      by_cases helapsed : now - first.timestamp < config.haltRecoveryConfirmationSeconds
      · rw [if_pos helapsed]
        refine iff_of_false (fun hno => absurd (hstays.symm.trans hno) (by decide)) fun hno => ?_
        obtain ⟨-, first', hfirst', hconfirmed⟩ := hno
        cases hfirst'
        exact hconfirmed.not_gt helapsed
      · rw [if_neg helapsed]
        exact iff_of_true rfl ⟨rfl, first, rfl, not_lt.mp helapsed⟩

end Calls

/-! ## What clears the latch -/

section Recovery
variable (env : TextEnv) (symbol : String)

/-- The guard, and the calls made on the symbol, the latest first. -/
def guardStep (s : MicrostructureGuard × List GuardCall) (c : GuardCall) :
    MicrostructureGuard × List GuardCall :=
  (s.1.call env symbol c, c :: s.2)

def halted (s : MicrostructureGuard × List GuardCall) : Bool :=
  (s.1.state env symbol).regulatoryHalt

/-- A latch that a call clears is cleared by an `evaluate` after a confirmed run, or by a
status that says the symbol resumes. -/
def ClearsOnEvidence (s : MicrostructureGuard × List GuardCall) (c : GuardCall) : Prop :=
  halted env symbol s = true → halted env symbol (guardStep env symbol s c) = false →
    match c with
    | .evaluate _ => Confirmed env s.1.config s.2
    | .status st => isResumeStatus env st = true
    | _ => False

/-- No `evaluate` of a latched symbol, with quotes that are not stale, comes the confirmation
window after the quote that is watched from while the run itself is still shorter. -/
def NoQuietRecovery (s : MicrostructureGuard × List GuardCall) : GuardCall → Prop
  | .evaluate now =>
    halted env symbol s = true → staleAt s.1.config s.2 now = false →
      ∀ first ∈ (watchedRun env s.1.config s.2).getLast?,
        s.1.config.haltRecoveryConfirmationSeconds ≤ now - first.timestamp →
          Confirmed env s.1.config s.2
  | _ => True

variable {env symbol}

/-- What the guard's state of the symbol is, after a call on it. -/
theorem state_guardStep (s : MicrostructureGuard × List GuardCall) (c : GuardCall) :
    (guardStep env symbol s c).1.state env symbol =
      (s.1.state env symbol).call env s.1.config c := by
  rw [guardStep, MicrostructureGuard.state_call, if_pos rfl]

/-- The guard tracks the calls made on the symbol. -/
def TracksSymbol (env : TextEnv) (symbol : String) (s : MicrostructureGuard × List GuardCall) :
    Prop :=
  Tracks env s.1.config (s.1.state env symbol).evidence s.2

theorem tracksSymbol_step (s : MicrostructureGuard × List GuardCall) (c : GuardCall)
    (h : TracksSymbol env symbol s) : TracksSymbol env symbol (guardStep env symbol s c) := by
  unfold TracksSymbol
  rw [state_guardStep]
  exact tracks_call env s.1.config h c

/-- **One call** clears the latch without evidence exactly when it is such an `evaluate`. -/
theorem clearsOnEvidence_iff (s : MicrostructureGuard × List GuardCall) (c : GuardCall)
    (h : TracksSymbol env symbol s) :
    ClearsOnEvidence env symbol s c ↔ NoQuietRecovery env symbol s c := by
  unfold ClearsOnEvidence halted
  rw [state_guardStep]
  cases c with
  | quote quote =>
    refine iff_of_true (fun hset hclear => ?_) trivial
    have hhalt := congrArg Evidence.halt
      (evidence_noteQuote env s.1.config (s.1.state env symbol) quote)
    have hor := hclear.symm.trans hhalt
    rw [hset, Bool.or_true] at hor
    cases hor
  | trade trade =>
    refine iff_of_true (fun hset hclear => ?_) trivial
    have hhalt := congrArg Evidence.halt (evidence_noteTrade env (s.1.state env symbol) trade)
    rw [apply_ite Evidence.halt] at hhalt
    have hset' : (s.1.state env symbol).evidence.halt = true := hset
    rw [hset', Evidence.latched, ite_self] at hhalt
    exact Bool.false_ne_true (hclear.symm.trans hhalt)
  | status st =>
    refine iff_of_true (fun hset hclear => ?_) trivial
    by_contra hresume
    have hhalt := congrArg Evidence.halt
      (evidence_noteTradingStatus env (s.1.state env symbol) st)
    rw [if_neg hresume, apply_ite Evidence.halt] at hhalt
    have hset' : (s.1.state env symbol).evidence.halt = true := hset
    rw [hset', Evidence.latched, ite_self] at hhalt
    exact Bool.false_ne_true (hclear.symm.trans hhalt)
  | bar timestamp =>
    refine iff_of_true (fun hset hclear => ?_) trivial
    exact absurd (hset.symm.trans hclear) (by decide)
  | evaluate now =>
    unfold NoQuietRecovery halted
    refine forall_congr' fun hset => ?_
    rw [SymbolMicrostructureState.call, evaluate_clears_iff h now hset]
    simp only [and_imp, exists_imp]

/-- **A halt clears on evidence** in every run of calls on a symbol exactly when no `evaluate`
takes the time that quotes have been silent for their confirmation. -/
theorem clearsOnEvidence_run_iff (env : TextEnv) (symbol : String)
    (config : MicrostructureGuardConfig) (cs : List GuardCall) :
    Along (guardStep env symbol) (ClearsOnEvidence env symbol) ({ config }, []) cs ↔
      Along (guardStep env symbol) (NoQuietRecovery env symbol) ({ config }, []) cs :=
  along_congr tracksSymbol_step clearsOnEvidence_iff cs ⟨rfl, rfl, fun _ => rfl, nofun⟩

/-- Plain ASCII text, without the patterns. -/
def plainText : TextEnv where
  upper := id
  strip := id
  rstrip := id
  split value := [value]
  haltPhraseStarts _ := []
  luldBandPrices _ := []

def haltedStatus : TradingStatus := { statusCode := "HALTED", timestamp := 0 }

def goodQuote : MarketQuote := { bidPrice := 100, askPrice := 101, timestamp := 0 }

/-- A minute of silence after one good quote clears the halt. -/
theorem silence_clears_halt :
    ¬ Along (guardStep plainText "QQQ") (ClearsOnEvidence plainText "QQQ")
      ({ config := {} }, []) [.status haltedStatus, .quote goodQuote, .evaluate 60] := by
  intro h
  obtain ⟨newest, oldest, hnewest, holdest, hwindow⟩ :=
    h.2.2.1 (by decide +kernel) (by decide +kernel)
  have hrun : unbrokenRun plainText {} [.quote goodQuote, .status haltedStatus] = [goodQuote] := by
    decide +kernel
  have hnewest : [goodQuote].head? = some newest := (congrArg List.head? hrun).symm.trans hnewest
  have holdest : [goodQuote].getLast? = some oldest :=
    (congrArg List.getLast? hrun).symm.trans holdest
  cases hnewest
  cases holdest
  exact absurd hwindow (by decide +kernel)

end Recovery

end TradingPlatform.Engine.Microstructure
