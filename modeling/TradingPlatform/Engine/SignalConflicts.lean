import TradingPlatform.Engine.PortfolioBrain
import TradingPlatform.Lib.Pairs
import TradingPlatform.Lib.StableSort
import Mathlib.Data.List.Dedup

/-! # Signal conflicts

Legs that ask for opposing entries on one symbol, or on symbols that move
together, are decided by marginal Sharpe, pair by pair. A leg that has lost a
pair still decides its other pairs. -/

namespace TradingPlatform.Engine.Portfolio

open TradingPlatform.Lib

inductive BlockReason
  | sameSymbolOpposingEntry (symbol kept : String)
  | correlatedOpposingEntry (corr : ℚ) (kept : String)
  | singleLegCorrelatedSameDirection (kept : String)
  | spyDisabled (reason : ModeReason)
  | singleLegMode (dominant : String)
  deriving DecidableEq

/-- The reason as it is logged; `fixed3` is the format `.3f`. -/
def BlockReason.text (fixed3 : ℚ → String) : BlockReason → String
  | .sameSymbolOpposingEntry symbol kept => "same_symbol_opposing_entry:" ++ symbol ++ ":kept=" ++ kept
  | .correlatedOpposingEntry corr kept =>
    "correlated_opposing_entry:corr=" ++ fixed3 corr ++ ":kept=" ++ kept
  | .singleLegCorrelatedSameDirection kept => "single_leg_correlated_same_direction:kept=" ++ kept
  | .spyDisabled reason => "spy_disabled:" ++ reason.text
  | .singleLegMode dominant => "single_leg_mode:dominant=" ++ dominant

/-- The leg a `kept=` reason names. -/
def BlockReason.kept : BlockReason → Option String
  | .sameSymbolOpposingEntry _ kept => some kept
  | .correlatedOpposingEntry _ kept => some kept
  | .singleLegCorrelatedSameDirection kept => some kept
  | .spyDisabled _ => none
  | .singleLegMode _ => none

/-- Correlations by symbol pair: a pair listed both ways is listed with one value. -/
structure SymbolCorrelations where
  map : Dict (String × String) ℚ := .empty
  symm : ∀ a b v w, map.get? (a, b) = some v → map.get? (b, a) = some w → v = w

def SymbolCorrelations.corr (c : SymbolCorrelations) (symA symB : String) : ℚ :=
  (c.map.get? (symA, symB)).getD ((c.map.get? (symB, symA)).getD 0)

structure SignalConflictResolution where
  approvedSignals : Dict String (Option Signal)
  blockedStrategyIds : List String := []
  scaleMultipliers : Dict String ℚ
  reasons : Dict String BlockReason := .empty

abbrev Loss := String × BlockReason

def SignalConflictResolution.block (r : SignalConflictResolution) (loss : Loss) :
    SignalConflictResolution :=
  { r with
    blockedStrategyIds := r.blockedStrategyIds.insert loss.1
    approvedSignals := r.approvedSignals.set loss.1 none
    reasons := r.reasons.set loss.1 loss.2 }

/-- An item of `entries`: a leg that asks to go long or short. -/
structure Entry where
  strategyId : String
  signal : Signal
  deriving DecidableEq

def Entry.direction (e : Entry) : ℤ := signalDirection e.signal.action

def entriesOf (activeSignals : Dict String (Option Signal)) : List Entry :=
  activeSignals.items.filterMap fun p =>
    match p.2 with
    | some sig => if isEntryAction sig.action then some ⟨p.1, sig⟩ else none
    | none => none

def sharpeOf (legMetrics : Dict String LegMetrics) (strategyId : String) : ℚ :=
  ((legMetrics.get? strategyId).map (·.marginalSharpe)).getD minMarginalSharpe

def singleLeg (mode : Option PortfolioModeDecision) : Bool :=
  (mode.map (·.singleLegMode)).getD false

section Resolve
variable (upper : String → String) (legMetrics : Dict String LegMetrics)
  (correlations : SymbolCorrelations) (mode : Option PortfolioModeDecision)

def Entry.symbol (e : Entry) : String := upper e.signal.symbol

/-- `sorted(group, key=marginal_sharpe, reverse=True)`. -/
def rank (group : List Entry) : List Entry :=
  StableSort.sortBy (fun e => -sharpeOf legMetrics e.strategyId) group

/-- The legs one symbol's group loses: all but the first ranked, once the group
holds both directions. -/
def groupLosses (symbol : String) (group : List Entry) : List Loss :=
  if group.length < 2 then []
  else if (group.map (·.direction)).dedup.length = 1 then []
  else
    match rank legMetrics group with
    | [] => []
    | winner :: losers =>
      losers.map fun e => (e.strategyId, .sameSymbolOpposingEntry symbol winner.strategyId)

/-- The leg one pair loses, `a` being listed before `b`. -/
def pairLoss (a b : Entry) : Option Loss :=
  let corr := correlations.corr (a.symbol upper) (b.symbol upper)
  if a.symbol upper = b.symbol upper then none
  else if a.direction = 0 ∨ b.direction = 0 then none
  else if corr < opposingSignalCorrelationFloor then none
  else
    let (loser, winner) :=
      if sharpeOf legMetrics b.strategyId ≤ sharpeOf legMetrics a.strategyId then (b, a) else (a, b)
    if a.direction ≠ b.direction then
      some (loser.strategyId, .correlatedOpposingEntry corr winner.strategyId)
    else if singleLeg mode then
      some (loser.strategyId, .singleLegCorrelatedSameDirection winner.strategyId)
    else none

def startingResolution (activeSignals : Dict String (Option Signal)) : SignalConflictResolution where
  approvedSignals := activeSignals
  scaleMultipliers := activeSignals.mapValues fun _ _ => 1

def symbolStage (activeSignals : Dict String (Option Signal)) (r : SignalConflictResolution) :
    SignalConflictResolution :=
  (Dict.groupBy (Entry.symbol upper) (entriesOf activeSignals)).items.foldl
    (fun r group => (groupLosses legMetrics group.1 group.2).foldl .block r) r

/-- The source looks for `None` among the remaining signals, which are never replaced. -/
def pairStage (remaining : List Entry) (r : SignalConflictResolution) : SignalConflictResolution :=
  foldPairs (fun r a b => (pairLoss upper legMetrics correlations mode a b).elim r r.block) r
    remaining

def spyStage (r : SignalConflictResolution) : SignalConflictResolution :=
  match mode with
  | none => r
  | some m =>
    if m.spyLegEnabled then r
    else
      match r.approvedSignals.get? spyStrategyId with
      | some (some sig) =>
        if isEntryAction sig.action then r.block (spyStrategyId, .spyDisabled m.reason) else r
      | _ => r

/-- The dominant leg, where the mode holds the book to one. -/
def dominantLeg : Option String :=
  match mode with
  | none => none
  | some m => if m.singleLegMode then m.dominantStrategyId.filter (· ≠ "") else none

def dominantStage (r : SignalConflictResolution) : SignalConflictResolution :=
  match dominantLeg mode with
  | none => r
  | some dominant =>
    (entriesOf r.approvedSignals).foldl (fun r e =>
      if e.strategyId ≠ dominant then r.block (e.strategyId, .singleLegMode dominant) else r) r

def resolveSignalConflicts (activeSignals : Dict String (Option Signal)) :
    SignalConflictResolution :=
  let r := symbolStage upper legMetrics activeSignals (startingResolution activeSignals)
  let remaining := (entriesOf activeSignals).filter (·.strategyId ∉ r.blockedStrategyIds)
  let r := pairStage upper legMetrics correlations mode remaining r
  let r := spyStage mode r
  dominantStage mode r

end Resolve

/-! ## Blocking -/

/-- The reason a list of losses leaves a leg with: its last. -/
def lastLoss (losses : List Loss) (sid : String) : Option BlockReason :=
  (losses.reverse.find? (·.1 = sid)).map (·.2)

def lost (losses : List Loss) : List String := losses.map (·.1)

theorem mem_of_lastLoss {losses : List Loss} {sid : String} {reason : BlockReason}
    (h : lastLoss losses sid = some reason) : (sid, reason) ∈ losses := by
  obtain ⟨loss, hfind, rfl⟩ := Option.map_eq_some_iff.mp h
  have hkey : loss.1 = sid := by simpa using List.find?_some hfind
  exact hkey ▸ List.mem_reverse.mp (List.mem_of_find?_eq_some hfind)

theorem lastLoss_eq_none {losses : List Loss} {sid : String} :
    lastLoss losses sid = none ↔ sid ∉ lost losses := by
  unfold lastLoss lost
  rw [Option.map_eq_none_iff, List.find?_eq_none]
  simp only [List.mem_reverse, decide_eq_true_eq, List.mem_map, not_exists, not_and]

/-- Blocking one leg after another: each is out, the others are as before, and the
last reason stands. -/
theorem foldl_block (losses : List Loss) (r : SignalConflictResolution) :
    (∀ sid, (losses.foldl .block r).approvedSignals.get? sid =
      if sid ∈ lost losses then some none else r.approvedSignals.get? sid) ∧
    (∀ sid, sid ∈ (losses.foldl .block r).blockedStrategyIds ↔
      sid ∈ r.blockedStrategyIds ∨ sid ∈ lost losses) ∧
    (∀ sid, (losses.foldl .block r).reasons.get? sid =
      (lastLoss losses sid).or (r.reasons.get? sid)) ∧
    (losses.foldl .block r).scaleMultipliers = r.scaleMultipliers := by
  induction losses using List.reverseRecOn with
  | nil => simp [lost, lastLoss]
  | append_singleton losses loss ih =>
    obtain ⟨happroved, hblocked, hreasons, hscales⟩ := ih
    rw [List.foldl_concat]
    refine ⟨fun sid => ?_, fun sid => ?_, fun sid => ?_, hscales⟩
    · simp only [SignalConflictResolution.block, Dict.get?_set, happroved, lost, List.map_append,
        List.mem_append, List.map_singleton, List.mem_singleton]
      by_cases hsid : sid = loss.1
      · rw [if_pos hsid, if_pos (.inr hsid)]
      · rw [if_neg hsid]
        exact if_congr (or_iff_left hsid).symm rfl rfl
    · simp only [SignalConflictResolution.block, List.mem_insert_iff, hblocked, lost,
        List.map_append, List.mem_append, List.map_singleton, List.mem_singleton]
      tauto
    · simp only [SignalConflictResolution.block, Dict.get?_set, hreasons, lastLoss,
        List.reverse_append, List.reverse_singleton, List.singleton_append, List.find?_cons]
      by_cases hsid : sid = loss.1
      · simp [hsid]
      · simp [hsid, Ne.symm hsid]

theorem mem_entriesOf {signals : Dict String (Option Signal)} {e : Entry} :
    e ∈ entriesOf signals ↔
      signals.get? e.strategyId = some (some e.signal) ∧ isEntryAction e.signal.action = true := by
  unfold entriesOf
  rw [List.mem_filterMap]
  constructor
  · intro h
    obtain ⟨⟨sid, sig⟩, hmem, hsome⟩ := h
    cases sig with
    | none => cases hsome
    | some sig =>
      dsimp only at hsome
      split at hsome
      · rename_i haction
        cases hsome
        exact ⟨(Dict.get?_eq_some _).mpr hmem, haction⟩
      · cases hsome
  · intro h
    obtain ⟨hget, haction⟩ := h
    exact ⟨_, (Dict.get?_eq_some _).mp hget, by simp [haction]⟩

/-- Entries are told apart by their legs. -/
theorem entriesOf_pairwise (signals : Dict String (Option Signal)) :
    (entriesOf signals).Pairwise fun a b => a.strategyId ≠ b.strategyId := by
  unfold entriesOf
  refine List.Pairwise.filterMap _ (R := fun p q : String × Option Signal => p.1 ≠ q.1) ?_
    (List.pairwise_map.mp signals.nodup)
  rintro ⟨sid, sig⟩ ⟨sid', sig'⟩ hne e he e' he'
  cases sig with
  | none => cases he
  | some sig =>
    cases sig' with
    | none => cases he'
    | some sig' =>
      simp only [Option.ite_none_right_eq_some, Option.some.injEq] at he he'
      obtain ⟨-, rfl⟩ := he
      obtain ⟨-, rfl⟩ := he'
      exact hne

theorem entry_eq {signals : Dict String (Option Signal)} {a b : Entry} (ha : a ∈ entriesOf signals)
    (hb : b ∈ entriesOf signals) (h : a.strategyId = b.strategyId) : a = b := by
  have hsig := (mem_entriesOf.mp ha).1.symm.trans (h ▸ (mem_entriesOf.mp hb).1)
  cases a
  cases b
  cases h
  cases hsig
  rfl

/-! ## Rank -/

/-- A higher Sharpe, or the same one and an earlier place in the list. -/
def Outranks (legMetrics : Dict String LegMetrics) (listed : List Entry) (y x : Entry) : Prop :=
  sharpeOf legMetrics x.strategyId < sharpeOf legMetrics y.strategyId ∨
    sharpeOf legMetrics x.strategyId = sharpeOf legMetrics y.strategyId ∧ [y, x].Sublist listed

theorem Outranks.le {legMetrics : Dict String LegMetrics} {listed : List Entry} {x y : Entry}
    (h : Outranks legMetrics listed y x) :
    sharpeOf legMetrics x.strategyId ≤ sharpeOf legMetrics y.strategyId :=
  h.elim le_of_lt fun heq => heq.1.le

theorem Outranks.mono {legMetrics : Dict String LegMetrics} {listed listed' : List Entry}
    {x y : Entry} (h : Outranks legMetrics listed y x) (hsub : listed.Sublist listed') :
    Outranks legMetrics listed' y x :=
  h.imp_right (And.imp_right fun hlisted => hlisted.trans hsub)

theorem entriesOf_nodup (signals : Dict String (Option Signal)) : (entriesOf signals).Nodup :=
  (entriesOf_pairwise signals).imp fun hne heq => hne (congrArg Entry.strategyId heq)

theorem Outranks.asymm {legMetrics : Dict String LegMetrics} {signals : Dict String (Option Signal)}
    {x y : Entry} (h : Outranks legMetrics (entriesOf signals) y x) :
    ¬Outranks legMetrics (entriesOf signals) x y := by
  intro h'
  rcases h with hlt | ⟨heq, hlisted⟩
  · exact absurd h'.le (not_le.mpr hlt)
  · rcases h' with hlt | ⟨-, hlisted'⟩
    · exact absurd heq hlt.ne'
    · exact not_listed_both (entriesOf_nodup signals) hlisted hlisted'

/-! ## One symbol -/

def Mixed (group : List Entry) : Prop := ∃ a ∈ group, ∃ b ∈ group, a.direction ≠ b.direction

theorem dedup_length_eq_one {α : Type*} [DecidableEq α] {xs : List α} (h : xs.dedup.length = 1)
    {a b : α} (ha : a ∈ xs) (hb : b ∈ xs) : a = b := by
  obtain ⟨c, hc⟩ := List.length_eq_one_iff.mp h
  rw [← List.mem_dedup, hc, List.mem_singleton] at ha hb
  exact ha.trans hb.symm

section Symbols
variable {upper : String → String} {legMetrics : Dict String LegMetrics}

theorem groupLosses_of_not_mixed {group : List Entry} (h : ¬Mixed group) (symbol : String) :
    groupLosses legMetrics symbol group = [] := by
  unfold groupLosses
  split
  · rfl
  rename_i hlen
  rw [if_pos]
  obtain ⟨e, rest, rfl⟩ : ∃ e rest, group = e :: rest :=
    List.exists_cons_of_length_pos (by omega)
  have hall : ∀ d ∈ (e :: rest).map (·.direction), d = e.direction := by
    intro d hd
    obtain ⟨a, ha, rfl⟩ := List.mem_map.mp hd
    by_contra hne
    exact h ⟨a, ha, e, List.mem_cons_self, hne⟩
  rw [List.eq_replicate_of_mem hall, List.length_map, List.length_cons,
    List.replicate_dedup (Nat.succ_ne_zero _), List.length_singleton]

variable (legMetrics) in
/-- A group with both directions keeps the leg that outranks the others, which it loses. -/
theorem groupLosses_of_mixed {group : List Entry} (h : Mixed group)
    (hids : group.Pairwise fun a b => a.strategyId ≠ b.strategyId) (symbol : String) :
    ∃ winner ∈ group,
      (∀ e ∈ group, e ≠ winner → Outranks legMetrics group winner e) ∧
      ∀ loss, loss ∈ groupLosses legMetrics symbol group ↔
        ∃ e ∈ group, e.strategyId ≠ winner.strategyId ∧
          loss = (e.strategyId, .sameSymbolOpposingEntry symbol winner.strategyId) := by
  have hperm : (rank legMetrics group).Perm group := StableSort.sortBy_perm group
  obtain ⟨a, ha, b, hb, hab⟩ := h
  have hlen : ¬group.length < 2 := by
    intro hlt
    match group, hlt with
    | [c], _ =>
      rw [List.mem_singleton.mp ha, List.mem_singleton.mp hb] at hab
      exact hab rfl
  have hdirs : (group.map (·.direction)).dedup.length ≠ 1 := fun hone =>
    hab (dedup_length_eq_one hone (List.mem_map_of_mem ha) (List.mem_map_of_mem hb))
  unfold groupLosses
  rw [if_neg hlen, if_neg hdirs]
  cases hranking : rank legMetrics group with
  | nil => exact absurd ha ((hranking ▸ hperm).nil_eq ▸ List.not_mem_nil)
  | cons winner losers =>
    rw [hranking] at hperm
    have hranked : (winner :: losers).Pairwise fun a b => a.strategyId ≠ b.strategyId :=
      hperm.symm.pairwise hids fun hne => Ne.symm hne
    obtain ⟨hfirst, -⟩ := List.pairwise_cons.mp hranked
    refine ⟨winner, hperm.mem_iff.mp List.mem_cons_self, fun e he hne => ?_, fun loss => ?_⟩
    · exact (StableSort.sortBy_head hranking he hne).imp neg_lt_neg_iff.mp
        (And.imp_left fun heq => (neg_inj.mp heq).symm)
    · rw [List.mem_map]
      constructor
      · intro h
        obtain ⟨e, he, rfl⟩ := h
        exact ⟨e, hperm.mem_iff.mp (List.mem_cons_of_mem _ he), Ne.symm (hfirst e he), rfl⟩
      · intro h
        obtain ⟨e, he, hne, rfl⟩ := h
        refine ⟨e, (List.mem_cons.mp (hperm.mem_iff.mpr he)).resolve_left ?_, rfl⟩
        rintro rfl
        exact hne rfl

variable (upper legMetrics) in
/-- What the symbol stage takes out, group after group. -/
def symbolLosses (activeSignals : Dict String (Option Signal)) : List Loss :=
  (Dict.groupBy (Entry.symbol upper) (entriesOf activeSignals)).items.flatMap fun group =>
    groupLosses legMetrics group.1 group.2

def onSymbol (upper : String → String) (entries : List Entry) (symbol : String) : List Entry :=
  entries.filter (Entry.symbol upper · = symbol)

theorem mem_onSymbol {entries : List Entry} {symbol : String} {e : Entry} :
    e ∈ onSymbol upper entries symbol ↔ e ∈ entries ∧ e.symbol upper = symbol := by
  simp [onSymbol]

theorem symbolStage_eq (activeSignals : Dict String (Option Signal))
    (r : SignalConflictResolution) :
    symbolStage upper legMetrics activeSignals r =
      (symbolLosses upper legMetrics activeSignals).foldl .block r := by
  unfold symbolStage symbolLosses
  rw [List.foldl_flatMap]

theorem mem_symbolLosses {activeSignals : Dict String (Option Signal)} {loss : Loss} :
    loss ∈ symbolLosses upper legMetrics activeSignals ↔
      ∃ symbol, loss ∈ groupLosses legMetrics symbol
        (onSymbol upper (entriesOf activeSignals) symbol) := by
  unfold symbolLosses
  rw [List.mem_flatMap]
  constructor
  · intro h
    obtain ⟨⟨symbol, group⟩, hmem, hloss⟩ := h
    obtain ⟨rfl, -⟩ := Dict.mem_groupBy _ hmem
    exact ⟨symbol, hloss⟩
  · intro h
    obtain ⟨symbol, hloss⟩ := h
    by_cases hempty : onSymbol upper (entriesOf activeSignals) symbol = []
    · rw [hempty] at hloss
      cases hloss
    · refine ⟨(symbol, onSymbol upper (entriesOf activeSignals) symbol), ?_, hloss⟩
      refine (Dict.get?_eq_some _).mp ?_
      rw [Dict.get?_groupBy, if_neg]
      · rfl
      · exact hempty

theorem onSymbol_pairwise (activeSignals : Dict String (Option Signal)) (symbol : String) :
    (onSymbol upper (entriesOf activeSignals) symbol).Pairwise
      fun a b => a.strategyId ≠ b.strategyId :=
  (entriesOf_pairwise activeSignals).sublist List.filter_sublist

/-- A leg is lost, if at all, in the group of its own symbol. -/
theorem lost_symbolLosses {activeSignals : Dict String (Option Signal)} {e : Entry}
    (he : e ∈ entriesOf activeSignals) :
    e.strategyId ∈ lost (symbolLosses upper legMetrics activeSignals) ↔
      e.strategyId ∈ lost (groupLosses legMetrics (e.symbol upper)
        (onSymbol upper (entriesOf activeSignals) (e.symbol upper))) := by
  constructor
  · intro hlost
    obtain ⟨loss, hmem, hid⟩ := List.mem_map.mp hlost
    obtain ⟨symbol, hloss⟩ := mem_symbolLosses.mp hmem
    have hmixed : Mixed (onSymbol upper (entriesOf activeSignals) symbol) := by
      by_contra hpure
      rw [groupLosses_of_not_mixed hpure] at hloss
      cases hloss
    obtain ⟨w, -, -, hiff⟩ := groupLosses_of_mixed legMetrics hmixed
      (onSymbol_pairwise activeSignals symbol) symbol
    obtain ⟨e', he', -, heq⟩ := (hiff loss).mp hloss
    obtain ⟨hin, hsym⟩ := mem_onSymbol.mp he'
    have hsame : e' = e := entry_eq hin he (by rw [← hid, heq])
    rw [← hsame, hsym]
    exact List.mem_map.mpr ⟨loss, hloss, by rw [heq]⟩
  · intro hlost
    obtain ⟨loss, hloss, hid⟩ := List.mem_map.mp hlost
    exact List.mem_map.mpr ⟨loss, mem_symbolLosses.mpr ⟨_, hloss⟩, hid⟩

/-- The leg a mixed symbol keeps. -/
structure Pick (upper : String → String) (legMetrics : Dict String LegMetrics)
    (activeSignals : Dict String (Option Signal)) (symbol : String) (w : Entry) : Prop where
  mem : w ∈ entriesOf activeSignals
  symbol_eq : w.symbol upper = symbol
  first : ∀ y ∈ entriesOf activeSignals, y.symbol upper = symbol → y ≠ w →
    Outranks legMetrics (entriesOf activeSignals) w y
  stays : w.strategyId ∉ lost (symbolLosses upper legMetrics activeSignals)
  rest : ∀ e ∈ entriesOf activeSignals, e.symbol upper = symbol → e ≠ w →
    (e.strategyId, .sameSymbolOpposingEntry symbol w.strategyId) ∈
      symbolLosses upper legMetrics activeSignals

variable (legMetrics) in
theorem exists_pick {activeSignals : Dict String (Option Signal)} {symbol : String}
    (hmixed : Mixed (onSymbol upper (entriesOf activeSignals) symbol)) :
    ∃ w, Pick upper legMetrics activeSignals symbol w ∧
      ∀ sid reason, (sid, reason) ∈ groupLosses legMetrics symbol
          (onSymbol upper (entriesOf activeSignals) symbol) →
        reason = .sameSymbolOpposingEntry symbol w.strategyId ∧
        ∃ e ∈ entriesOf activeSignals, e.strategyId = sid ∧ e.symbol upper = symbol ∧ e ≠ w := by
  obtain ⟨w, hw, hfirst, hiff⟩ := groupLosses_of_mixed legMetrics hmixed
    (onSymbol_pairwise activeSignals symbol) symbol
  obtain ⟨hwin, rfl⟩ := mem_onSymbol.mp hw
  refine ⟨w, ⟨hwin, rfl, fun y hy hsym hne => ?_, ?_, ?_⟩, ?_⟩
  · exact (hfirst y (mem_onSymbol.mpr ⟨hy, hsym⟩) hne).mono List.filter_sublist
  · rw [lost_symbolLosses hwin]
    intro hlost
    obtain ⟨loss, hloss, hid⟩ := List.mem_map.mp hlost
    obtain ⟨e, -, hne, rfl⟩ := (hiff loss).mp hloss
    exact hne hid
  · intro e he hsym hne
    refine mem_symbolLosses.mpr ⟨_, (hiff _).mpr ⟨e, mem_onSymbol.mpr ⟨he, hsym⟩, ?_, rfl⟩⟩
    exact fun hid => hne (entry_eq he hwin hid)
  · intro sid reason hloss
    obtain ⟨e, he, hne, heq⟩ := (hiff _).mp hloss
    cases heq
    obtain ⟨hin, hsym⟩ := mem_onSymbol.mp he
    exact ⟨rfl, e, hin, rfl, hsym, fun hew => hne (hew ▸ rfl)⟩

/-- A leg is lost on its symbol to the pick, and only where the symbol is mixed. -/
theorem symbolLoss_spec {activeSignals : Dict String (Option Signal)} {sid : String}
    {reason : BlockReason} (h : (sid, reason) ∈ symbolLosses upper legMetrics activeSignals) :
    ∃ w, ∃ e ∈ entriesOf activeSignals,
      Mixed (onSymbol upper (entriesOf activeSignals) (w.symbol upper)) ∧
      Pick upper legMetrics activeSignals (w.symbol upper) w ∧
      e.strategyId = sid ∧ e.symbol upper = w.symbol upper ∧ e ≠ w ∧
      reason = .sameSymbolOpposingEntry (w.symbol upper) w.strategyId := by
  obtain ⟨symbol, hloss⟩ := mem_symbolLosses.mp h
  have hmixed : Mixed (onSymbol upper (entriesOf activeSignals) symbol) := by
    by_contra hpure
    rw [groupLosses_of_not_mixed hpure] at hloss
    cases hloss
  obtain ⟨w, hpick, hlosses⟩ := exists_pick legMetrics hmixed
  obtain ⟨hreason, e, he, hid, hsym, hne⟩ := hlosses sid reason hloss
  obtain rfl := hpick.symbol_eq
  exact ⟨w, e, he, hmixed, hpick, hid, hsym, hne, hreason⟩

/-- With no two Sharpes equal, the legs a symbol loses do not depend on the listing. -/
theorem lost_symbolLosses_iff {activeSignals : Dict String (Option Signal)}
    (hdistinct : ∀ a ∈ entriesOf activeSignals, ∀ b ∈ entriesOf activeSignals, a ≠ b →
      sharpeOf legMetrics a.strategyId ≠ sharpeOf legMetrics b.strategyId) {sid : String} :
    sid ∈ lost (symbolLosses upper legMetrics activeSignals) ↔
      ∃ e ∈ entriesOf activeSignals, e.strategyId = sid ∧
        Mixed (onSymbol upper (entriesOf activeSignals) (e.symbol upper)) ∧
        ∃ y ∈ entriesOf activeSignals, y.symbol upper = e.symbol upper ∧
          sharpeOf legMetrics e.strategyId < sharpeOf legMetrics y.strategyId := by
  constructor
  · intro hlost
    obtain ⟨⟨sid', reason⟩, hmem, rfl⟩ := List.mem_map.mp hlost
    obtain ⟨w, e, he, hmixed, hpick, hid, hsym, hne, -⟩ := symbolLoss_spec hmem
    refine ⟨e, he, hid, hsym ▸ hmixed, w, hpick.mem, hsym.symm, ?_⟩
    exact lt_of_le_of_ne (hpick.first e he hsym hne).le (hdistinct e he w hpick.mem hne)
  · intro h
    obtain ⟨e, he, rfl, hmixed, y, hy, hsym, hlt⟩ := h
    obtain ⟨w, hpick, -⟩ := exists_pick legMetrics hmixed
    refine List.mem_map.mpr ⟨_, hpick.rest e he rfl ?_, rfl⟩
    rintro rfl
    have hne : y ≠ e := fun heq => lt_irrefl _ (heq ▸ hlt)
    exact absurd (hpick.first y hy hsym hne).le (not_le.mpr hlt)

end Symbols

/-! ## One pair -/

theorem corr_comm (c : SymbolCorrelations) (symA symB : String) :
    c.corr symA symB = c.corr symB symA := by
  unfold SymbolCorrelations.corr
  cases hab : c.map.get? (symA, symB) with
  | none => cases hba : c.map.get? (symB, symA) <;> simp
  | some v =>
    cases hba : c.map.get? (symB, symA) with
    | none => simp
    | some w => simpa using c.symm symA symB v w hab hba

theorem direction_ne_zero {e : Entry} (h : isEntryAction e.signal.action = true) :
    e.direction ≠ 0 := by
  unfold Entry.direction
  cases haction : e.signal.action <;> simp [isEntryAction, signalDirection, haction] at h ⊢

section Pairs
variable (upper : String → String) (legMetrics : Dict String LegMetrics)
  (correlations : SymbolCorrelations) (mode : Option PortfolioModeDecision)

/-- Two legs on symbols that move together: they oppose each other, or the book is
held to one leg. -/
def PairConflict (x y : Entry) : Prop :=
  x.symbol upper ≠ y.symbol upper ∧
  opposingSignalCorrelationFloor ≤ correlations.corr (x.symbol upper) (y.symbol upper) ∧
  (x.direction ≠ y.direction ∨ singleLeg mode = true)

def pairLosses (remaining : List Entry) : List Loss :=
  (pairsOf remaining).filterMap fun p => pairLoss upper legMetrics correlations mode p.1 p.2

variable {upper legMetrics correlations mode}

theorem PairConflict.symm {x y : Entry} (h : PairConflict upper correlations mode x y) :
    PairConflict upper correlations mode y x :=
  ⟨Ne.symm h.1, corr_comm correlations _ _ ▸ h.2.1, h.2.2.imp_left Ne.symm⟩

theorem pairStage_eq (remaining : List Entry) (r : SignalConflictResolution) :
    pairStage upper legMetrics correlations mode remaining r =
      (pairLosses upper legMetrics correlations mode remaining).foldl .block r := by
  unfold pairStage pairLosses
  rw [foldPairs_eq, List.foldl_filterMap]
  congr
  funext r p
  cases pairLoss upper legMetrics correlations mode p.1 p.2 <;> rfl

theorem pairLoss_none {a b : Entry} (h : ¬PairConflict upper correlations mode a b) :
    pairLoss upper legMetrics correlations mode a b = none := by
  unfold pairLoss
  dsimp only
  split
  · rfl
  rename_i hsym
  split
  · rfl
  split
  · rfl
  rename_i hcorr
  have hrest : ¬(a.direction ≠ b.direction ∨ singleLeg mode = true) := fun hor =>
    h ⟨hsym, not_lt.mp hcorr, hor⟩
  rw [not_or] at hrest
  rw [if_neg hrest.1, if_neg hrest.2]

variable (legMetrics) in
/-- Of a pair in conflict the leg with the lower Sharpe loses, the later one on a tie. -/
theorem pairLoss_some {a b : Entry} (ha : isEntryAction a.signal.action = true)
    (hb : isEntryAction b.signal.action = true) (h : PairConflict upper correlations mode a b) :
    ∃ x y reason, pairLoss upper legMetrics correlations mode a b = some (x.strategyId, reason) ∧
      reason.kept = some y.strategyId ∧
      (x = b ∧ y = a ∧ sharpeOf legMetrics b.strategyId ≤ sharpeOf legMetrics a.strategyId ∨
        x = a ∧ y = b ∧ sharpeOf legMetrics a.strategyId < sharpeOf legMetrics b.strategyId) := by
  obtain ⟨hsym, hcorr, hor⟩ := h
  have hzero : ¬(a.direction = 0 ∨ b.direction = 0) :=
    not_or.mpr ⟨direction_ne_zero ha, direction_ne_zero hb⟩
  unfold pairLoss
  dsimp only
  rw [if_neg hsym, if_neg hzero, if_neg (not_lt.mpr hcorr)]
  by_cases hle : sharpeOf legMetrics b.strategyId ≤ sharpeOf legMetrics a.strategyId
  · rw [if_pos hle]
    by_cases hdir : a.direction = b.direction
    · rw [if_neg (not_not.mpr hdir), if_pos (hor.resolve_left (not_not.mpr hdir))]
      exact ⟨b, a, _, rfl, rfl, .inl ⟨rfl, rfl, hle⟩⟩
    · rw [if_pos hdir]
      exact ⟨b, a, _, rfl, rfl, .inl ⟨rfl, rfl, hle⟩⟩
  · rw [if_neg hle]
    by_cases hdir : a.direction = b.direction
    · rw [if_neg (not_not.mpr hdir), if_pos (hor.resolve_left (not_not.mpr hdir))]
      exact ⟨a, b, _, rfl, rfl, .inr ⟨rfl, rfl, not_le.mp hle⟩⟩
    · rw [if_pos hdir]
      exact ⟨a, b, _, rfl, rfl, .inr ⟨rfl, rfl, not_le.mp hle⟩⟩

section Remaining
variable {remaining : List Entry}
  (hentry : ∀ e ∈ remaining, isEntryAction e.signal.action = true)
include hentry

/-- A pair's loss is a leg that conflicts with the other and is outranked by it. -/
theorem pairLoss_spec {a b : Entry} (hmem : (a, b) ∈ pairsOf remaining) {loss : Loss}
    (hloss : pairLoss upper legMetrics correlations mode a b = some loss) :
    ∃ x y, ((a, b) = (x, y) ∨ (a, b) = (y, x)) ∧ x.strategyId = loss.1 ∧
      loss.2.kept = some y.strategyId ∧ PairConflict upper correlations mode x y ∧
      Outranks legMetrics remaining y x := by
  obtain ⟨ha, hb⟩ := mem_of_mem_pairsOf hmem
  have hconflict : PairConflict upper correlations mode a b := by
    by_contra hno
    rw [pairLoss_none hno] at hloss
    cases hloss
  obtain ⟨x, y, reason, heq, hkept, hwho⟩ :=
    pairLoss_some legMetrics (hentry a ha) (hentry b hb) hconflict
  rw [heq] at hloss
  cases hloss
  rcases hwho with ⟨rfl, rfl, hle⟩ | ⟨rfl, rfl, hlt⟩
  · refine ⟨x, y, .inr rfl, rfl, hkept, hconflict.symm, ?_⟩
    exact hle.lt_or_eq.imp_right fun heq => ⟨heq, mem_pairsOf.mp hmem⟩
  · exact ⟨x, y, .inl rfl, rfl, hkept, hconflict, .inl hlt⟩

/-- A leg that lost a pair lost it to a leg that conflicts with it and outranks it. -/
theorem pairLosses_spec {sid : String} {reason : BlockReason}
    (h : (sid, reason) ∈ pairLosses upper legMetrics correlations mode remaining) :
    ∃ x ∈ remaining, ∃ y ∈ remaining, x.strategyId = sid ∧ reason.kept = some y.strategyId ∧
      PairConflict upper correlations mode x y ∧ Outranks legMetrics remaining y x := by
  obtain ⟨⟨a, b⟩, hmem, hsome⟩ := List.mem_filterMap.mp h
  obtain ⟨ha, hb⟩ := mem_of_mem_pairsOf hmem
  obtain ⟨x, y, hpair, hid, hkept, hconflict, hrank⟩ := pairLoss_spec hentry hmem hsome
  rcases hpair with heq | heq <;> cases heq
  · exact ⟨a, ha, b, hb, hid, hkept, hconflict, hrank⟩
  · exact ⟨b, hb, a, ha, hid, hkept, hconflict, hrank⟩

variable (legMetrics) in
/-- Of two legs in conflict one is lost, and not the one with the higher Sharpe. -/
theorem pairLosses_lose {x y : Entry} (hx : x ∈ remaining) (hy : y ∈ remaining) (hne : x ≠ y)
    (h : PairConflict upper correlations mode x y) :
    x.strategyId ∈ lost (pairLosses upper legMetrics correlations mode remaining) ∨
      y.strategyId ∈ lost (pairLosses upper legMetrics correlations mode remaining) ∧
        sharpeOf legMetrics y.strategyId ≤ sharpeOf legMetrics x.strategyId := by
  have hlost : ∀ {a b : Entry} {sid : String} {reason : BlockReason},
      (a, b) ∈ pairsOf remaining →
      pairLoss upper legMetrics correlations mode a b = some (sid, reason) →
      sid ∈ lost (pairLosses upper legMetrics correlations mode remaining) :=
    fun hmem hsome => List.mem_map.mpr ⟨_, List.mem_filterMap.mpr ⟨_, hmem, hsome⟩, rfl⟩
  rcases mem_pairsOf_or hx hy hne with hmem | hmem
  · obtain ⟨l, w, reason, heq, -, ⟨rfl, rfl, hle⟩ | ⟨rfl, rfl, -⟩⟩ :=
      pairLoss_some legMetrics (hentry x hx) (hentry y hy) h
    · exact .inr ⟨hlost hmem heq, hle⟩
    · exact .inl (hlost hmem heq)
  · obtain ⟨l, w, reason, heq, -, ⟨rfl, rfl, -⟩ | ⟨rfl, rfl, hlt⟩⟩ :=
      pairLoss_some legMetrics (hentry y hy) (hentry x hx) h.symm
    · exact .inl (hlost hmem heq)
    · exact .inr ⟨hlost hmem heq, hlt.le⟩

/-- With no two Sharpes equal, the legs lost in pairs do not depend on the listing. -/
theorem lost_pairLosses_iff
    (hdistinct : ∀ a ∈ remaining, ∀ b ∈ remaining, a ≠ b →
      sharpeOf legMetrics a.strategyId ≠ sharpeOf legMetrics b.strategyId) {sid : String} :
    sid ∈ lost (pairLosses upper legMetrics correlations mode remaining) ↔
      ∃ x ∈ remaining, x.strategyId = sid ∧ ∃ y ∈ remaining,
        PairConflict upper correlations mode x y ∧
        sharpeOf legMetrics x.strategyId < sharpeOf legMetrics y.strategyId := by
  constructor
  · intro hlost
    obtain ⟨⟨sid', reason⟩, hmem, rfl⟩ := List.mem_map.mp hlost
    obtain ⟨x, hx, y, hy, hid, -, hconflict, hrank⟩ := pairLosses_spec hentry hmem
    have hxy : x ≠ y := fun hxy => hconflict.1 (congrArg (Entry.symbol upper) hxy)
    exact ⟨x, hx, hid, y, hy, hconflict, lt_of_le_of_ne hrank.le (hdistinct x hx y hy hxy)⟩
  · intro h
    obtain ⟨x, hx, rfl, y, hy, hconflict, hlt⟩ := h
    have hxy : x ≠ y := fun hxy => lt_irrefl _ (hxy ▸ hlt)
    exact (pairLosses_lose legMetrics hentry hx hy hxy hconflict).resolve_right fun hlow =>
      absurd hlow.2 (not_le.mpr hlt)

end Remaining
end Pairs

/-! ## The stages -/

namespace SignalConflictResolution

def HasEntry (r : SignalConflictResolution) (sid : String) : Prop :=
  ∃ e ∈ entriesOf r.approvedSignals, e.strategyId = sid

/-- A stage takes the entries out that meet `P`, and touches nothing else. -/
structure TakesOut (P : String → Prop) (r r' : SignalConflictResolution) : Prop where
  out : ∀ sid, P sid → r.HasEntry sid → r'.approvedSignals.get? sid = some none
  same : ∀ sid, ¬(P sid ∧ r.HasEntry sid) →
    r'.approvedSignals.get? sid = r.approvedSignals.get? sid
  blocked : ∀ sid, sid ∈ r'.blockedStrategyIds ↔
    sid ∈ r.blockedStrategyIds ∨ P sid ∧ r.HasEntry sid
  scales : r'.scaleMultipliers = r.scaleMultipliers

theorem hasEntry_iff {r : SignalConflictResolution} {sid : String} :
    r.HasEntry sid ↔
      ∃ sig, r.approvedSignals.get? sid = some (some sig) ∧ isEntryAction sig.action = true := by
  constructor
  · intro h
    obtain ⟨e, he, rfl⟩ := h
    exact ⟨e.signal, mem_entriesOf.mp he⟩
  · intro h
    obtain ⟨sig, hsig⟩ := h
    exact ⟨⟨sid, sig⟩, mem_entriesOf.mpr hsig, rfl⟩

theorem TakesOut.hasEntry_iff {P : String → Prop} {r r' : SignalConflictResolution}
    (h : TakesOut P r r') {sid : String} : r'.HasEntry sid ↔ r.HasEntry sid ∧ ¬P sid := by
  by_cases hout : P sid ∧ r.HasEntry sid
  · refine iff_of_false ?_ fun hboth => hboth.2 hout.1
    rw [SignalConflictResolution.hasEntry_iff, h.out sid hout.1 hout.2]
    intro h
    obtain ⟨sig, hsig, -⟩ := h
    cases hsig
  · rw [SignalConflictResolution.hasEntry_iff, h.same sid hout,
      ← SignalConflictResolution.hasEntry_iff]
    exact ⟨fun hin => ⟨hin, fun hp => hout ⟨hp, hin⟩⟩, And.left⟩

theorem TakesOut.trans {P Q : String → Prop} {r r' r'' : SignalConflictResolution}
    (h : TakesOut P r r') (h' : TakesOut Q r' r'') : TakesOut (fun sid => P sid ∨ Q sid) r r'' := by
  refine ⟨fun sid hor hin => ?_, fun sid hno => ?_, fun sid => ?_, h'.scales.trans h.scales⟩
  · by_cases hp : P sid
    · have hgone : ¬r'.HasEntry sid := fun hin' => (h.hasEntry_iff.mp hin').2 hp
      rw [h'.same sid fun hboth => hgone hboth.2, h.out sid hp hin]
    · exact h'.out sid (hor.resolve_left hp) (h.hasEntry_iff.mpr ⟨hin, hp⟩)
  · rw [h'.same sid fun hboth => hno ⟨.inr hboth.1, (h.hasEntry_iff.mp hboth.2).1⟩,
      h.same sid fun hboth => hno ⟨.inl hboth.1, hboth.2⟩]
  · rw [h'.blocked, h.blocked, h.hasEntry_iff]
    tauto

theorem takesOut_of_losses {P : String → Prop} {losses : List Loss} {r : SignalConflictResolution}
    (h : ∀ sid, sid ∈ lost losses ↔ P sid ∧ r.HasEntry sid) :
    TakesOut P r (losses.foldl .block r) := by
  obtain ⟨happroved, hblocked, -, hscales⟩ := foldl_block losses r
  refine ⟨fun sid hp hin => ?_, fun sid hno => ?_, fun sid => ?_, hscales⟩
  · rw [happroved, if_pos ((h sid).mpr ⟨hp, hin⟩)]
  · rw [happroved, if_neg (mt (h sid).mp hno)]
  · rw [hblocked, h]

/-- The leg a blocked leg was told was kept in its place. -/
def keptFor (r : SignalConflictResolution) (sid : String) : Option String :=
  (r.reasons.get? sid).bind BlockReason.kept

/-- Losses that name no kept leg do not change who was kept for the legs already out. -/
theorem keptFor_of_losses {losses : List Loss} {r : SignalConflictResolution}
    (hkept : ∀ loss ∈ losses, loss.2.kept = none)
    (hnew : ∀ sid ∈ lost losses, r.keptFor sid = none) (sid : String) :
    (losses.foldl .block r).keptFor sid = r.keptFor sid := by
  obtain ⟨-, -, hreasons, -⟩ := foldl_block losses r
  unfold keptFor
  rw [hreasons]
  cases hlast : lastLoss losses sid with
  | none => rfl
  | some reason =>
    have hmem := mem_of_lastLoss hlast
    have hold := hnew sid (List.mem_map.mpr ⟨_, hmem, rfl⟩)
    unfold keptFor at hold
    rw [hold, Option.some_or, Option.bind_some, hkept _ hmem]

end SignalConflictResolution

section Rules
variable (mode : Option PortfolioModeDecision)

def SpyOut (sid : String) : Prop :=
  sid = spyStrategyId ∧ ∃ m, mode = some m ∧ m.spyLegEnabled = false

def DominatedOut (sid : String) : Prop := ∃ dominant, dominantLeg mode = some dominant ∧ sid ≠ dominant

variable {mode}

variable (mode) in
/-- A rule of the mode is a list of losses that name no kept leg. -/
theorem spyStage_losses (r : SignalConflictResolution) :
    ∃ losses : List Loss, spyStage mode r = losses.foldl .block r ∧
      (∀ loss ∈ losses, loss.2.kept = none) ∧
      ∀ sid, sid ∈ lost losses ↔ SpyOut mode sid ∧ r.HasEntry sid := by
  have hskip : (∀ sid, ¬(SpyOut mode sid ∧ r.HasEntry sid)) → spyStage mode r = r →
      ∃ losses : List Loss, spyStage mode r = losses.foldl .block r ∧
        (∀ loss ∈ losses, loss.2.kept = none) ∧
        ∀ sid, sid ∈ lost losses ↔ SpyOut mode sid ∧ r.HasEntry sid := by
    intro hnone heq
    exact ⟨[], heq, fun _ h => (List.not_mem_nil h).elim,
      fun sid => iff_of_false List.not_mem_nil (hnone sid)⟩
  unfold spyStage at hskip ⊢
  cases mode with
  | none =>
    refine hskip (fun sid => ?_) rfl
    intro h
    obtain ⟨⟨-, m, hm, -⟩, -⟩ := h
    cases hm
  | some m =>
    dsimp only at hskip ⊢
    by_cases hon : m.spyLegEnabled = true
    · refine hskip (fun sid => ?_) (if_pos hon)
      intro h
      obtain ⟨⟨-, m', hm, hoff⟩, -⟩ := h
      cases hm
      rw [hon] at hoff
      cases hoff
    by_cases hin : r.HasEntry spyStrategyId
    · obtain ⟨sig, hsig, haction⟩ := SignalConflictResolution.hasEntry_iff.mp hin
      refine ⟨[(spyStrategyId, .spyDisabled m.reason)], ?_, ?_, fun sid => ?_⟩
      · rw [if_neg hon, hsig]
        exact if_pos haction
      · intro loss hloss
        rw [List.mem_singleton.mp hloss]
        rfl
      · rw [lost, List.map_singleton, List.mem_singleton]
        constructor
        · rintro rfl
          exact ⟨⟨rfl, m, rfl, Bool.not_eq_true _ ▸ hon⟩, hin⟩
        · exact fun hout => hout.1.1
    · refine hskip (fun sid => ?_) ?_
      · intro h
        obtain ⟨⟨rfl, -⟩, hin'⟩ := h
        exact hin hin'
      · rw [if_neg hon]
        split
        · rename_i sig hsig
          rw [if_neg]
          exact fun haction => hin (SignalConflictResolution.hasEntry_iff.mpr ⟨sig, hsig, haction⟩)
        · rfl

variable (mode) in
theorem dominantStage_losses (r : SignalConflictResolution) :
    ∃ losses : List Loss, dominantStage mode r = losses.foldl .block r ∧
      (∀ loss ∈ losses, loss.2.kept = none) ∧
      ∀ sid, sid ∈ lost losses ↔ DominatedOut mode sid ∧ r.HasEntry sid := by
  unfold dominantStage DominatedOut
  cases hdominant : dominantLeg mode with
  | none =>
    refine ⟨[], rfl, fun _ h => (List.not_mem_nil h).elim, fun sid => ?_⟩
    refine iff_of_false List.not_mem_nil ?_
    intro h
    obtain ⟨⟨d, hd, -⟩, -⟩ := h
    cases hd
  | some dominant =>
    refine ⟨((entriesOf r.approvedSignals).filter (·.strategyId ≠ dominant)).map
      fun e => (e.strategyId, .singleLegMode dominant), ?_, ?_, fun sid => ?_⟩
    · rw [List.foldl_map, List.foldl_filter]
      simp only [decide_eq_true_eq]
    · intro loss hloss
      obtain ⟨e, -, rfl⟩ := List.mem_map.mp hloss
      rfl
    · simp only [lost, List.map_map, List.mem_map, List.mem_filter, decide_eq_true_eq,
        Function.comp_apply, Option.some.injEq, exists_eq_left']
      constructor
      · intro h
        obtain ⟨e, ⟨he, hne⟩, rfl⟩ := h
        exact ⟨hne, e, he, rfl⟩
      · intro h
        obtain ⟨hne, e, he, rfl⟩ := h
        exact ⟨e, ⟨he, hne⟩, rfl⟩

end Rules

/-! ## The resolution -/

section Resolution
variable (upper : String → String) (legMetrics : Dict String LegMetrics)
  (correlations : SymbolCorrelations) (mode : Option PortfolioModeDecision)
  (activeSignals : Dict String (Option Signal))

/-- The entries the symbols have left. -/
def remainingOf : List Entry :=
  (entriesOf activeSignals).filter
    (·.strategyId ∉ lost (symbolLosses upper legMetrics activeSignals))

def remainingLosses : List Loss :=
  pairLosses upper legMetrics correlations mode (remainingOf upper legMetrics activeSignals)

/-- What takes an entry out: its symbol, a pair, or a rule of the mode. -/
def Out (sid : String) : Prop :=
  ((sid ∈ lost (symbolLosses upper legMetrics activeSignals) ∨
      sid ∈ lost (remainingLosses upper legMetrics correlations mode activeSignals)) ∨
    SpyOut mode sid) ∨ DominatedOut mode sid

variable {upper legMetrics correlations mode activeSignals}

theorem mem_remainingOf {e : Entry} :
    e ∈ remainingOf upper legMetrics activeSignals ↔
      e ∈ entriesOf activeSignals ∧
        e.strategyId ∉ lost (symbolLosses upper legMetrics activeSignals) := by
  simp [remainingOf]

theorem remainingOf_entry {e : Entry} (h : e ∈ remainingOf upper legMetrics activeSignals) :
    isEntryAction e.signal.action = true :=
  (mem_entriesOf.mp (mem_remainingOf.mp h).1).2

/-- A leg lost in a pair, read off the remaining entries. -/
theorem remainingLosses_spec {sid : String} {reason : BlockReason}
    (h : (sid, reason) ∈ remainingLosses upper legMetrics correlations mode activeSignals) :
    ∃ x ∈ remainingOf upper legMetrics activeSignals,
      ∃ y ∈ remainingOf upper legMetrics activeSignals,
        x.strategyId = sid ∧ reason.kept = some y.strategyId ∧
        PairConflict upper correlations mode x y ∧
        Outranks legMetrics (remainingOf upper legMetrics activeSignals) y x :=
  pairLosses_spec (fun _ => remainingOf_entry) h

theorem lost_symbol_of_lost_pair {sid : String}
    (h : sid ∈ lost (remainingLosses upper legMetrics correlations mode activeSignals)) :
    sid ∉ lost (symbolLosses upper legMetrics activeSignals) := by
  obtain ⟨⟨sid', reason⟩, hmem, rfl⟩ := List.mem_map.mp h
  obtain ⟨x, hx, -, -, rfl, -⟩ := remainingLosses_spec hmem
  exact (mem_remainingOf.mp hx).2

variable (upper legMetrics correlations mode activeSignals) in
def afterSymbols : SignalConflictResolution :=
  (symbolLosses upper legMetrics activeSignals).foldl .block (startingResolution activeSignals)

variable (upper legMetrics correlations mode activeSignals) in
def afterPairs : SignalConflictResolution :=
  (remainingLosses upper legMetrics correlations mode activeSignals).foldl .block
    (afterSymbols upper legMetrics activeSignals)

theorem afterSymbols_takesOut :
    (startingResolution activeSignals).TakesOut
      (· ∈ lost (symbolLosses upper legMetrics activeSignals))
      (afterSymbols upper legMetrics activeSignals) := by
  refine SignalConflictResolution.takesOut_of_losses fun sid => (and_iff_left_of_imp ?_).symm
  intro hlost
  obtain ⟨⟨sid', reason⟩, hmem, rfl⟩ := List.mem_map.mp hlost
  obtain ⟨-, e, he, -, -, hid, -⟩ := symbolLoss_spec hmem
  exact ⟨e, he, hid⟩

variable (upper legMetrics correlations mode activeSignals) in
theorem afterPairs_takesOut :
    (afterSymbols upper legMetrics activeSignals).TakesOut
      (· ∈ lost (remainingLosses upper legMetrics correlations mode activeSignals))
      (afterPairs upper legMetrics correlations mode activeSignals) := by
  refine SignalConflictResolution.takesOut_of_losses fun sid => (and_iff_left_of_imp ?_).symm
  intro hlost
  obtain ⟨⟨sid', reason⟩, hmem, rfl⟩ := List.mem_map.mp hlost
  obtain ⟨x, hx, -, -, rfl, -⟩ := remainingLosses_spec hmem
  obtain ⟨hin, hstays⟩ := mem_remainingOf.mp hx
  exact afterSymbols_takesOut.hasEntry_iff.mpr ⟨⟨x, hin, rfl⟩, hstays⟩

variable (upper legMetrics correlations mode activeSignals) in
theorem afterPairs_keptFor (sid : String) :
    (afterPairs upper legMetrics correlations mode activeSignals).keptFor sid =
      ((lastLoss (remainingLosses upper legMetrics correlations mode activeSignals) sid).or
        (lastLoss (symbolLosses upper legMetrics activeSignals) sid)).bind BlockReason.kept := by
  have hempty : (startingResolution activeSignals).reasons.get? sid = none := rfl
  unfold SignalConflictResolution.keptFor afterPairs afterSymbols
  rw [(foldl_block _ _).2.2.1, (foldl_block _ _).2.2.1, hempty, Option.or_none]

/-- The mode's rules meet only legs that have lost nothing before. -/
theorem afterPairs_keptFor_entry {sid : String}
    (h : (afterPairs upper legMetrics correlations mode activeSignals).HasEntry sid) :
    (afterPairs upper legMetrics correlations mode activeSignals).keptFor sid = none := by
  obtain ⟨hin, hpair⟩ := (afterPairs_takesOut _ _ _ _ _).hasEntry_iff.mp h
  obtain ⟨-, hsymbol⟩ := afterSymbols_takesOut.hasEntry_iff.mp hin
  rw [afterPairs_keptFor, lastLoss_eq_none.mpr hpair, lastLoss_eq_none.mpr hsymbol]
  rfl

theorem resolve_eq : resolveSignalConflicts upper legMetrics correlations mode activeSignals =
    dominantStage mode
      (spyStage mode (afterPairs upper legMetrics correlations mode activeSignals)) := by
  have hremaining : (entriesOf activeSignals).filter
      (·.strategyId ∉ (afterSymbols upper legMetrics activeSignals).blockedStrategyIds) =
      remainingOf upper legMetrics activeSignals := by
    refine List.filter_congr fun e he => decide_eq_decide.mpr (not_congr ?_)
    rw [afterSymbols_takesOut.blocked]
    exact ⟨fun h => (h.resolve_left List.not_mem_nil).1, fun h => .inr ⟨h, e, he, rfl⟩⟩
  unfold resolveSignalConflicts
  dsimp only
  rw [symbolStage_eq, pairStage_eq]
  exact congrArg (fun remaining => dominantStage mode (spyStage mode
    ((pairLosses upper legMetrics correlations mode remaining).foldl .block
      (afterSymbols upper legMetrics activeSignals)))) hremaining

variable (upper legMetrics correlations mode activeSignals) in
/-- The whole resolution: which entries are out, and whom the losers were told was kept. -/
theorem resolve_spec :
    (startingResolution activeSignals).TakesOut
        (Out upper legMetrics correlations mode activeSignals)
        (resolveSignalConflicts upper legMetrics correlations mode activeSignals) ∧
      ∀ sid, (resolveSignalConflicts upper legMetrics correlations mode activeSignals).keptFor sid =
        ((lastLoss (remainingLosses upper legMetrics correlations mode activeSignals) sid).or
          (lastLoss (symbolLosses upper legMetrics activeSignals) sid)).bind BlockReason.kept := by
  rw [resolve_eq]
  have hpairs := afterPairs_takesOut upper legMetrics correlations mode activeSignals
  have hkept := afterPairs_keptFor upper legMetrics correlations mode activeSignals
  have hentry : ∀ sid, (afterPairs upper legMetrics correlations mode activeSignals).HasEntry sid →
      (afterPairs upper legMetrics correlations mode activeSignals).keptFor sid = none :=
    fun _ => afterPairs_keptFor_entry
  generalize afterPairs upper legMetrics correlations mode activeSignals = r at hpairs hkept hentry ⊢
  obtain ⟨spyLosses, hspy, hspykept, hspyout⟩ := spyStage_losses mode r
  have hspystage := hspy ▸ SignalConflictResolution.takesOut_of_losses hspyout
  obtain ⟨domLosses, hdom, hdomkept, hdomout⟩ := dominantStage_losses mode (spyStage mode r)
  have hdomstage := hdom ▸ SignalConflictResolution.takesOut_of_losses hdomout
  refine ⟨((afterSymbols_takesOut.trans hpairs).trans hspystage).trans hdomstage, fun sid => ?_⟩
  have hspysame : ∀ sid, (spyStage mode r).keptFor sid = r.keptFor sid := by
    intro sid
    rw [hspy]
    exact SignalConflictResolution.keptFor_of_losses hspykept
      (fun sid hlost => hentry sid ((hspyout sid).mp hlost).2) sid
  rw [hdom, SignalConflictResolution.keptFor_of_losses hdomkept, hspysame, hkept]
  intro sid hlost
  rw [hspysame]
  exact hentry sid (hspystage.hasEntry_iff.mp ((hdomout sid).mp hlost).2).1

/-- An approved entry is an active one that nothing took out. -/
theorem mem_approved {e : Entry} :
    e ∈ entriesOf (resolveSignalConflicts upper legMetrics correlations mode
        activeSignals).approvedSignals ↔
      e ∈ entriesOf activeSignals ∧
        ¬Out upper legMetrics correlations mode activeSignals e.strategyId := by
  obtain ⟨htakes, -⟩ := resolve_spec upper legMetrics correlations mode activeSignals
  constructor
  · intro he
    have hin := htakes.hasEntry_iff.mp ⟨e, he, rfl⟩
    obtain ⟨hget, haction⟩ := mem_entriesOf.mp he
    rw [htakes.same _ fun hboth => hin.2 hboth.1] at hget
    exact ⟨mem_entriesOf.mpr ⟨hget, haction⟩, hin.2⟩
  · intro h
    obtain ⟨he, hstays⟩ := h
    obtain ⟨hget, haction⟩ := mem_entriesOf.mp he
    refine mem_entriesOf.mpr ⟨?_, haction⟩
    rw [htakes.same _ fun hboth => hstays hboth.1]
    exact hget

/-- A leg that asks for no entry is left as it is. -/
theorem resolve_keeps {sid : String} (h : ∀ e ∈ entriesOf activeSignals, e.strategyId ≠ sid) :
    (resolveSignalConflicts upper legMetrics correlations mode
        activeSignals).approvedSignals.get? sid = activeSignals.get? sid ∧
      sid ∉ (resolveSignalConflicts upper legMetrics correlations mode
        activeSignals).blockedStrategyIds := by
  obtain ⟨htakes, -⟩ := resolve_spec upper legMetrics correlations mode activeSignals
  have hnot : ¬(Out upper legMetrics correlations mode activeSignals sid ∧
      (startingResolution activeSignals).HasEntry sid) := by
    intro h
    obtain ⟨-, e, he, hid⟩ := h
    exact h e he hid
  exact ⟨htakes.same sid hnot, fun hmem =>
    ((htakes.blocked sid).mp hmem).elim List.not_mem_nil hnot⟩

/-- Conflicts block; they never scale. -/
theorem resolve_unscaled {sid : String} {m : ℚ}
    (h : (resolveSignalConflicts upper legMetrics correlations mode
      activeSignals).scaleMultipliers.get? sid = some m) : m = 1 := by
  obtain ⟨htakes, -⟩ := resolve_spec upper legMetrics correlations mode activeSignals
  rw [htakes.scales, startingResolution, Dict.get?_mapValues, Option.map_eq_some_iff] at h
  obtain ⟨-, -, rfl⟩ := h
  rfl

end Resolution

end TradingPlatform.Engine.Portfolio
