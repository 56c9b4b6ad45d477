import TradingPlatform.Engine.HaltRecovery
import TradingPlatform.Lib.Words

/-! # Tokens in a trading status

A status tells of a limit-up or limit-down pause when a field carries one of the
tokens as a word. The search that `isLuldStatus` falls back on takes a fragment of
any other word for one. -/

namespace TradingPlatform.Engine.Microstructure

open TradingPlatform.Lib
open TradingPlatform.Lib.Runs (run Along along_congr)
open TradingPlatform.Lib.Words

/-- Upper case is taken letter by letter, and stripping leaves a part of the text. -/
structure TextEnv.Lawful (env : TextEnv) : Prop where
  upper_append : ∀ a b, env.upper (a ++ b) = env.upper a ++ env.upper b
  upper_space : env.upper " " = " "
  strip_part : ∀ s, ∃ before after, s = before ++ env.strip s ++ after

def TradingStatus.fields (st : TradingStatus) : List String :=
  [st.statusCode, st.statusMessage, st.reasonCode, st.reasonMessage]

section Text
variable (env : TextEnv) (letter : Char → Bool) (st : TradingStatus)

/-- Some field carries a token as a whole word. -/
def CarriesLuld : Prop :=
  ∃ field ∈ st.fields, ∃ token ∈ luldStatusTokens,
    IsWord letter (env.upper field).toList token.toList

/-- Some field has a token in it, if only as a fragment of a word. -/
def MentionsLuld : Prop :=
  ∃ field ∈ st.fields, ∃ token ∈ luldStatusTokens, token.toList <:+: (env.upper field).toList

instance : Decidable (CarriesLuld env letter st) :=
  inferInstanceAs (Decidable (∃ field ∈ st.fields, ∃ token ∈ luldStatusTokens,
    IsWord letter (env.upper field).toList token.toList))

variable {env letter st}

variable (h : env.Lawful)
include h

theorem upper_intercalate {parts : List String} (hne : parts ≠ []) :
    env.upper (" ".intercalate parts) = " ".intercalate (parts.map env.upper) := by
  induction parts with
  | nil => exact absurd rfl hne
  | cons part rest ih =>
    by_cases hrest : rest = []
    · simp [hrest]
    · rw [String.intercalate_cons_of_ne_nil hrest, h.upper_append, h.upper_append,
        h.upper_space, ih hrest, List.map_cons,
        String.intercalate_cons_of_ne_nil (by simpa using hrest)]

theorem upper_strip_infix (s : String) :
    (env.upper (env.strip s)).toList <:+: (env.upper s).toList := by
  obtain ⟨before, after, hs⟩ := h.strip_part s
  have hupper : env.upper s = env.upper before ++ env.upper (env.strip s) ++ env.upper after := by
    rw [← h.upper_append, ← h.upper_append, ← hs]
  rw [hupper, String.toList_append, String.toList_append]
  exact ⟨_, _, rfl⟩

theorem containsPhrase_intercalate {parts : List String} (hne : parts ≠ []) {token : String}
    (hspace : ' ' ∉ token.toList) :
    containsPhrase (env.upper (" ".intercalate parts)) token = true ↔
      ∃ part ∈ parts, token.toList <:+: (env.upper part).toList := by
  have hsep : " ".toList = [' '] := rfl
  rw [containsPhrase, decide_eq_true_iff, upper_intercalate h hne, String.toList_intercalate, hsep,
    infix_intercalate_iff hspace (by simpa using hne)]
  simp

/-- What `isLuldStatus` finds is a fragment of some field. -/
theorem isLuldStatus_iff : isLuldStatus env st = true ↔ MentionsLuld env st := by
  have hspaces : ∀ token ∈ luldStatusTokens, ' ' ∉ token.toList := by decide
  unfold isLuldStatus
  simp only [Bool.or_eq_true]
  constructor
  · rintro (hhit | hphrase)
    · obtain ⟨t, ht, hmem⟩ := List.any_eq_true.mp hhit
      simp only [normalizeTokens, List.mem_map, List.mem_filter] at ht
      obtain ⟨field, ⟨hfield, -⟩, rfl⟩ := ht
      exact ⟨field, hfield, _, of_decide_eq_true hmem, upper_strip_infix h field⟩
    · obtain ⟨token, htoken, hphrase⟩ := List.any_eq_true.mp hphrase
      obtain ⟨field, hfield, hpart⟩ :=
        (containsPhrase_intercalate h (by simp) (hspaces token htoken)).mp hphrase
      exact ⟨field, hfield, token, htoken, hpart⟩
  · rintro ⟨field, hfield, token, htoken, hpart⟩
    refine .inr (List.any_eq_true.mpr ⟨token, htoken, ?_⟩)
    exact (containsPhrase_intercalate h (by simp) (hspaces token htoken)).mpr
      ⟨field, hfield, hpart⟩

end Text

/-! ## What a status leaves -/

namespace SymbolMicrostructureState
variable (env : TextEnv) (config : MicrostructureGuardConfig) (state : SymbolMicrostructureState)

/-- The prices of a status change the bands only. -/
theorem noteBands_luldActive (st : TradingStatus) :
    (state.noteBands env st).luldActive = state.luldActive := by
  have hband : ∀ (s : SymbolMicrostructureState) (b : ℚ), (s.noteBand b).luldActive = s.luldActive := by
    intro s b
    unfold noteBand
    split
    · rfl
    split <;> rfl
  have hfold : ∀ (bands : List ℚ) (s : SymbolMicrostructureState),
      (bands.foldl noteBand s).luldActive = s.luldActive := by
    intro bands
    induction bands with
    | nil => simp
    | cons b bands ih => simp [ih, hband]
  exact hfold _ _

theorem noteTradingStatus_luldActive (st : TradingStatus) :
    (state.noteTradingStatus env st).luldActive =
      (isLuldStatus env st || (!isResumeStatus env st && state.luldActive)) := by
  unfold noteTradingStatus
  dsimp only
  cases isLuldStatus env st
  · cases isResumeStatus env st
    · cases isHaltStatus env st <;> simp [latchHalt, noteBands_luldActive]
    · simp
  · simp

theorem noteTradingStatus_regulatoryHalt (st : TradingStatus) (h : isResumeStatus env st = true) :
    (state.noteTradingStatus env st).regulatoryHalt = false := by
  have hcleared := congrArg Evidence.halt (evidence_noteTradingStatus env state st)
  simpa [h, Evidence.cleared, evidence] using hcleared

/-- The quote in force is too old or too wide for entries. -/
def unquotable (streamQuote : Option Level1DepthQuote) (now : ℚ) (e : Evidence) : Bool :=
  staleQuote config e.barTs (streamQuote.elim e.quoteTs (some ·.timestamp)) now ||
    decide (config.maxAllowedSpreadPct < streamQuote.elim e.spread (·.spreadPct))

variable (streamQuote : Option Level1DepthQuote) (now : ℚ)

/-- A breached band blocks entries while the pause is on only. -/
theorem blocksEntries_iff :
    (state.evaluate config streamQuote now).1.blocksEntries = true ↔
      (state.evaluate config streamQuote now).2.regulatoryHalt = true ∨
        unquotable config streamQuote now state.evidence = true ∨ state.luldActive = true := by
  unfold evaluate unquotable evidence
  dsimp only
  cases state.luldActive
  · cases state.luldUpper <;> cases state.luldLower <;> simp [or_assoc, or_comm, or_left_comm]
  · simp

theorem recoveredHalt_congr {state state' : SymbolMicrostructureState}
    (h : state'.evidence = state.evidence) :
    (state'.evaluate config streamQuote now).2.regulatoryHalt =
      (state.evaluate config streamQuote now).2.regulatoryHalt := by
  have hquote : state'.lastQuoteTimestamp = state.lastQuoteTimestamp :=
    congrArg Evidence.quoteTs h
  have hbar : state'.lastBarTimestamp = state.lastBarTimestamp := congrArg Evidence.barTs h
  have hspread : state'.spreadPct = state.spreadPct := congrArg Evidence.spread h
  have hhalt : state'.regulatoryHalt = state.regulatoryHalt := congrArg Evidence.halt h
  have hsince : state'.haltClearCandidateSince = state.haltClearCandidateSince :=
    congrArg Evidence.since h
  have hrecovered : ∀ stale, (state'.maybeRecoverHalt config now stale).evidence =
      (state.maybeRecoverHalt config now stale).evidence := by
    intro stale
    rw [evidence_maybeRecoverHalt, evidence_maybeRecoverHalt, h, hhalt, hquote, hsince]
  unfold evaluate
  dsimp only
  rw [hquote, hbar, hspread]
  exact congrArg Evidence.halt (hrecovered _)

theorem recoveredHalt_of_clear (h : state.regulatoryHalt = false) :
    (state.evaluate config streamQuote now).2.regulatoryHalt = false := by
  simp [evaluate, maybeRecoverHalt, h]

end SymbolMicrostructureState

/-! ## What a status is read for -/

section Reading
variable (env : TextEnv) (config : MicrostructureGuardConfig) (letter : Char → Bool)

/-- A status that resumes leaves both latches open, the pause is noted from a token, and
entries are blocked for a token or a halt only. -/
structure ReadsTokens (state : SymbolMicrostructureState) (st : TradingStatus) : Prop where
  resumed : isResumeStatus env st = true → ¬ CarriesLuld env letter st →
    (state.noteTradingStatus env st).regulatoryHalt = false ∧
      (state.noteTradingStatus env st).luldActive = false
  luld : state.luldActive = false → (state.noteTradingStatus env st).luldActive = true →
    CarriesLuld env letter st
  entries : ∀ streamQuote now,
    (state.evaluate config streamQuote now).1.blocksEntries = false →
      ((state.noteTradingStatus env st).evaluate config streamQuote now).1.blocksEntries = true →
        CarriesLuld env letter st ∨ isHaltStatus env st = true

/-- A fragment of a word comes with a token, or finds the pause already on. -/
def NoFragment (state : SymbolMicrostructureState) (st : TradingStatus) : Prop :=
  MentionsLuld env st → CarriesLuld env letter st ∨
    (state.luldActive = true ∧ isResumeStatus env st = false)

variable {env config letter} {state : SymbolMicrostructureState} {st : TradingStatus}

/-- Entries that a status blocks are blocked for the pause it notes, or for a halt. -/
theorem blocks_of_status {streamQuote : Option Level1DepthQuote} {now : ℚ}
    (hbefore : (state.evaluate config streamQuote now).1.blocksEntries = false)
    (hafter : ((state.noteTradingStatus env st).evaluate config streamQuote now).1.blocksEntries =
      true) :
    (state.luldActive = false ∧ (state.noteTradingStatus env st).luldActive = true) ∨
      isHaltStatus env st = true := by
  have hfree := (SymbolMicrostructureState.blocksEntries_iff config state streamQuote now).not.mp
    (by simpa using hbefore)
  simp only [not_or, Bool.not_eq_true] at hfree
  obtain ⟨hhalt, hquote, hluld⟩ := hfree
  by_cases hhalted : isHaltStatus env st = true
  · exact .inr hhalted
  refine .inl ⟨hluld, ?_⟩
  have hev := evidence_noteTradingStatus env state st
  simp only [GuardCall.indicatesHalt, hhalted, Bool.and_false] at hev
  rcases (SymbolMicrostructureState.blocksEntries_iff config _ streamQuote now).mp hafter with
    hstill | hquote' | hluld'
  · by_cases hresume : isResumeStatus env st = true
    · have hclear := SymbolMicrostructureState.noteTradingStatus_regulatoryHalt env state st hresume
      rw [SymbolMicrostructureState.recoveredHalt_of_clear config _ _ _ hclear] at hstill
      cases hstill
    · have hsame : (state.noteTradingStatus env st).evidence = state.evidence := by
        simpa [hresume] using hev
      rw [SymbolMicrostructureState.recoveredHalt_congr config _ _ hsame, hhalt] at hstill
      cases hstill
  · have hsame : SymbolMicrostructureState.unquotable config streamQuote now
        (state.noteTradingStatus env st).evidence =
        SymbolMicrostructureState.unquotable config streamQuote now state.evidence := by
      rw [hev]
      split <;> rfl
    rw [hsame, hquote] at hquote'
    cases hquote'
  · exact hluld'

/-- **One status** is read as tokens exactly when it has no fragment to take for one. -/
theorem readsTokens_iff (h : env.Lawful) :
    ReadsTokens env config letter state st ↔ NoFragment env letter state st := by
  have hluld := state.noteTradingStatus_luldActive env st
  constructor
  · rintro ⟨hresumed, hpause, -⟩ hmentions
    rw [(isLuldStatus_iff h).mpr hmentions, Bool.true_or] at hluld
    by_contra hnone
    obtain ⟨hcarries, hnone⟩ := not_or.mp hnone
    cases hresume : isResumeStatus env st with
    | true => simp [hluld] at hresumed; exact hcarries (hresumed hresume)
    | false =>
      cases hactive : state.luldActive with
      | true => exact hnone ⟨hactive, hresume⟩
      | false => exact hcarries (hpause hactive hluld)
  · intro hnone
    have hpause : state.luldActive = false →
        (state.noteTradingStatus env st).luldActive = true → CarriesLuld env letter st := by
      intro hactive hafter
      rw [hluld, hactive, Bool.and_false, Bool.or_false, isLuldStatus_iff h] at hafter
      simpa [hactive] using hnone hafter
    refine ⟨fun hresume hcarries => ⟨?_, ?_⟩, hpause, fun _ _ hbefore hafter => ?_⟩
    · exact state.noteTradingStatus_regulatoryHalt env st hresume
    · have hno : ¬ MentionsLuld env st := fun hmentions => by
        simpa [hcarries, hresume] using hnone hmentions
      rw [← isLuldStatus_iff h, Bool.not_eq_true] at hno
      simp [hluld, hno, hresume]
    · exact (blocks_of_status hbefore hafter).imp_left fun hset => hpause hset.1 hset.2

end Reading

/-! ## Runs of the guard -/

/-- A call on the guard; the depth cache may answer an `evaluate`. -/
inductive StreamCall
  | noted (c : GuardCall)
  | judged (streamQuote : Option Level1DepthQuote) (now : ℚ)
  deriving DecidableEq

section Runs
variable (env : TextEnv) (letter : Char → Bool)

def MicrostructureGuard.streamCall (guard : MicrostructureGuard) (e : String × StreamCall) :
    MicrostructureGuard :=
  match e.2 with
  | .noted c => guard.call env e.1 c
  | .judged streamQuote now =>
    { guard with
      states := guard.states.set (env.upper e.1)
        ((guard.state env e.1).evaluate guard.config streamQuote now).2 }

/-- What a property of the symbol's state and a status says of a call. -/
def OnStatus (P : MicrostructureGuardConfig → SymbolMicrostructureState → TradingStatus → Prop)
    (guard : MicrostructureGuard) (e : String × StreamCall) : Prop :=
  match e.2 with
  | .noted (.status st) => P guard.config (guard.state env e.1) st
  | _ => True

/-- **Statuses are read as tokens** in every run of the guard exactly when no status of it has
a fragment to take for one. -/
theorem readsTokens_run_iff (h : env.Lawful) (config : MicrostructureGuardConfig)
    (es : List (String × StreamCall)) :
    Along (MicrostructureGuard.streamCall env)
        (OnStatus env fun config => ReadsTokens env config letter) { config } es ↔
      Along (MicrostructureGuard.streamCall env)
        (OnStatus env fun _ => NoFragment env letter) { config } es := by
  refine along_congr (I := fun _ => True) (fun _ _ _ => trivial) (fun guard e _ => ?_) es trivial
  obtain ⟨symbol, _ | _⟩ := e
  · rename_i c
    cases c with
    | status st => exact readsTokens_iff h
    | _ => exact Iff.rfl
  · exact Iff.rfl

theorem plainText_lawful : plainText.Lawful where
  upper_append _ _ := rfl
  upper_space := rfl
  strip_part s := ⟨"", "", by simp [plainText]⟩

/-- The venue is back to normal, and says more about values. -/
def normalStatus : TradingStatus :=
  { statusCode := "NORMAL", statusMessage := "VALUE DATE UPDATED", timestamp := 0 }

/-- A status that resumes pauses the symbol over a fragment of `VALUE`. -/
theorem value_pauses_symbol :
    ¬ Along (MicrostructureGuard.streamCall plainText)
      (OnStatus plainText fun config => ReadsTokens plainText config Char.isAlphanum)
      {} [("QQQ", .noted (.status normalStatus))] := by
  rintro ⟨hreads, -⟩
  have hluld := (hreads.resumed (by decide +kernel) (by decide +kernel)).2
  rw [SymbolMicrostructureState.noteTradingStatus_luldActive] at hluld
  exact absurd hluld (by decide +kernel)

/-- A pause, and the resume that ends it. -/
theorem readsTokens_pause :
    Along (MicrostructureGuard.streamCall plainText)
      (OnStatus plainText fun config => ReadsTokens plainText config Char.isAlphanum) {}
      [("QQQ", .noted (.status { statusCode := "LULD", timestamp := 0 })),
        ("QQQ", .noted (.status { statusCode := "RESUMED", timestamp := 60 }))] := by
  refine (readsTokens_run_iff plainText Char.isAlphanum plainText_lawful {} _).mpr ⟨?_, ?_, trivial⟩
  · exact fun _ => .inl (by decide +kernel)
  · exact fun hmentions => absurd ((isLuldStatus_iff plainText_lawful).mpr hmentions) (by decide +kernel)

end Runs

end TradingPlatform.Engine.Microstructure
