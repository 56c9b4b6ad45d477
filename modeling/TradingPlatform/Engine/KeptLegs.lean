import TradingPlatform.Engine.SignalConflicts

/-! # Whom a conflict keeps

A leg that is blocked is told which leg was kept. On a symbol that is the leg
that outranks all the others there; among the pairs a leg loses it is the last
listed. Neither need be approved in the end: the pair loop goes on with legs that
have already lost, and the rules of the mode come after it. -/

namespace TradingPlatform.Engine.Portfolio

open TradingPlatform.Lib

section Legs
variable (upper : String → String) (legMetrics : Dict String LegMetrics)
  (correlations : SymbolCorrelations) (mode : Option PortfolioModeDecision)
  (activeSignals : Dict String (Option Signal))

/-- No two entries oppose each other on a symbol, or on symbols that move together. -/
def ConflictFree (approved : Dict String (Option Signal)) : Prop :=
  ∀ a ∈ entriesOf approved, ∀ b ∈ entriesOf approved, a ≠ b →
    (a.symbol upper = b.symbol upper → a.direction = b.direction) ∧
    (a.symbol upper ≠ b.symbol upper →
      opposingSignalCorrelationFloor ≤ correlations.corr (a.symbol upper) (b.symbol upper) →
      a.direction = b.direction)

def Conflicts (x y : Entry) : Prop :=
  x.symbol upper = y.symbol upper ∧ x.direction ≠ y.direction ∨
    PairConflict upper correlations mode x y

/-- Every leg that was told another was kept conflicts with it, and that leg is approved. -/
def KeptStand (r : SignalConflictResolution) : Prop :=
  ∀ sid w, r.keptFor sid = some w →
    ∃ x ∈ entriesOf activeSignals, ∃ y ∈ entriesOf r.approvedSignals,
      x.strategyId = sid ∧ y.strategyId = w ∧ Conflicts upper correlations mode x y

/-! ## Who loses to whom -/

/-- On a symbol asked for both ways a leg loses to the one that outranks the others. -/
structure LosesSymbol (x w : Entry) : Prop where
  loser : x ∈ entriesOf activeSignals
  winner : w ∈ entriesOf activeSignals
  same : x.symbol upper = w.symbol upper
  ne : x ≠ w
  mixed : Mixed (onSymbol upper (entriesOf activeSignals) (w.symbol upper))
  first : ∀ y ∈ entriesOf activeSignals, y.symbol upper = w.symbol upper → y ≠ w →
    Outranks legMetrics (entriesOf activeSignals) w y

structure Remains (x : Entry) : Prop where
  mem : x ∈ entriesOf activeSignals
  keeps : ∀ w, ¬LosesSymbol upper legMetrics activeSignals x w

structure LosesPair (x y : Entry) : Prop where
  loser : Remains upper legMetrics activeSignals x
  winner : Remains upper legMetrics activeSignals y
  conflict : PairConflict upper correlations mode x y
  rank : Outranks legMetrics (entriesOf activeSignals) y x

/-- Of the legs that one loses a pair to, the last listed. -/
structure LosesLastTo (x y : Entry) : Prop where
  loses : LosesPair upper legMetrics correlations mode activeSignals x y
  last : ∀ z, LosesPair upper legMetrics correlations mode activeSignals x z → z ≠ y →
    [z, y].Sublist (entriesOf activeSignals)

/-- A leg that loses no pair and that no rule of the mode shuts out. -/
structure Stands (w : Entry) : Prop where
  unbeaten : ∀ y, ¬LosesPair upper legMetrics correlations mode activeSignals w y
  spy : ¬SpyOut mode w.strategyId
  dominated : ¬DominatedOut mode w.strategyId

/-- A symbol's losers all oppose the leg it keeps, and the legs kept, on a symbol or
in the last pair a leg loses, stand. -/
structure KeptLegsStand : Prop where
  opposed : ∀ x w, LosesSymbol upper legMetrics activeSignals x w → x.direction ≠ w.direction
  onSymbol : ∀ x w, LosesSymbol upper legMetrics activeSignals x w →
    Stands upper legMetrics correlations mode activeSignals w
  inPair : ∀ x y, LosesLastTo upper legMetrics correlations mode activeSignals x y →
    Stands upper legMetrics correlations mode activeSignals y

variable {upper legMetrics correlations mode activeSignals}

theorem LosesSymbol.unique {x w w' : Entry} (h : LosesSymbol upper legMetrics activeSignals x w)
    (h' : LosesSymbol upper legMetrics activeSignals x w') : w = w' := by
  by_contra hne
  have hsame := h.same.symm.trans h'.same
  exact (h.first w' h'.winner hsame.symm (Ne.symm hne)).asymm
    (h'.first w h.winner hsame hne)

theorem LosesSymbol.winner_remains {x w : Entry}
    (h : LosesSymbol upper legMetrics activeSignals x w) :
    Remains upper legMetrics activeSignals w := by
  refine ⟨h.winner, fun w' h' => ?_⟩
  exact (h.first w' h'.winner h'.same.symm (Ne.symm h'.ne)).asymm
    (h'.first w h.winner h'.same h'.ne)

/-- The losses on symbols, leg by leg. -/
theorem symbolLoss_iff {x : Entry} (hx : x ∈ entriesOf activeSignals) {reason : BlockReason} :
    (x.strategyId, reason) ∈ symbolLosses upper legMetrics activeSignals ↔
      ∃ w, LosesSymbol upper legMetrics activeSignals x w ∧
        reason = .sameSymbolOpposingEntry (w.symbol upper) w.strategyId := by
  constructor
  · intro hloss
    obtain ⟨w, e, he, hmixed, hpick, hid, hsym, hne, hreason⟩ := symbolLoss_spec hloss
    obtain rfl := entry_eq he hx hid
    exact ⟨w, ⟨he, hpick.mem, hsym, hne, hmixed, hpick.first⟩, hreason⟩
  · intro h
    obtain ⟨w, hloses, rfl⟩ := h
    obtain ⟨w', hpick, -⟩ := exists_pick legMetrics hloses.mixed
    obtain rfl : w' = w := by
      by_contra hne
      exact (hpick.first w hloses.winner rfl (Ne.symm hne)).asymm
        (hloses.first w' hpick.mem hpick.symbol_eq hne)
    exact hpick.rest x hx hloses.same hloses.ne

theorem remains_iff {x : Entry} :
    x ∈ remainingOf upper legMetrics activeSignals ↔ Remains upper legMetrics activeSignals x := by
  rw [mem_remainingOf]
  constructor
  · intro h
    obtain ⟨hx, hstays⟩ := h
    refine ⟨hx, fun w hloses => hstays ?_⟩
    exact List.mem_map.mpr ⟨_, (symbolLoss_iff hx).mpr ⟨w, hloses, rfl⟩, rfl⟩
  · intro h
    obtain ⟨hx, hkeeps⟩ := h
    refine ⟨hx, fun hlost => ?_⟩
    obtain ⟨⟨sid, reason⟩, hloss, rfl⟩ := List.mem_map.mp hlost
    obtain ⟨w, hloses, -⟩ := (symbolLoss_iff hx).mp hloss
    exact hkeeps w hloses

theorem LosesPair.ne {x y : Entry} (h : LosesPair upper legMetrics correlations mode activeSignals x y) :
    x ≠ y := fun hxy => h.conflict.1 (congrArg (Entry.symbol upper) hxy)

theorem losesPair_of_loss {sid : String} {reason : BlockReason}
    (h : (sid, reason) ∈ remainingLosses upper legMetrics correlations mode activeSignals) :
    ∃ x y, LosesPair upper legMetrics correlations mode activeSignals x y ∧ x.strategyId = sid ∧
      reason.kept = some y.strategyId := by
  obtain ⟨x, hx, y, hy, hid, hkept, hconflict, hrank⟩ := remainingLosses_spec h
  exact ⟨x, y, ⟨remains_iff.mp hx, remains_iff.mp hy, hconflict, hrank.mono List.filter_sublist⟩,
    hid, hkept⟩

theorem LosesPair.loss {x y : Entry}
    (h : LosesPair upper legMetrics correlations mode activeSignals x y) :
    ∃ reason, (x.strategyId, reason) ∈
        remainingLosses upper legMetrics correlations mode activeSignals ∧
      reason.kept = some y.strategyId := by
  have hx := remains_iff.mpr h.loser
  have hy := remains_iff.mpr h.winner
  rcases mem_pairsOf_or hx hy h.ne with hmem | hmem
  · obtain ⟨a, b, reason, hloss, hkept, ⟨rfl, rfl, hle⟩ | ⟨rfl, rfl, -⟩⟩ :=
      pairLoss_some legMetrics (remainingOf_entry hx) (remainingOf_entry hy) h.conflict
    · -- Listed first and of no lower Sharpe, the winner would be the loser.
      have hrank : Outranks legMetrics (entriesOf activeSignals) b a :=
        hle.lt_or_eq.imp_right fun heq => ⟨heq, (mem_pairsOf.mp hmem).trans List.filter_sublist⟩
      exact absurd hrank h.rank.asymm
    · exact ⟨reason, List.mem_filterMap.mpr ⟨_, hmem, hloss⟩, hkept⟩
  · obtain ⟨a, b, reason, hloss, hkept, ⟨rfl, rfl, -⟩ | ⟨rfl, rfl, hlt⟩⟩ :=
      pairLoss_some legMetrics (remainingOf_entry hy) (remainingOf_entry hx) h.conflict.symm
    · exact ⟨reason, List.mem_filterMap.mpr ⟨_, hmem, hloss⟩, hkept⟩
    · exact absurd h.rank.le (not_le.mpr hlt)

theorem lost_pair_iff {x : Entry} (hx : x ∈ entriesOf activeSignals) :
    x.strategyId ∈ lost (remainingLosses upper legMetrics correlations mode activeSignals) ↔
      ∃ y, LosesPair upper legMetrics correlations mode activeSignals x y := by
  constructor
  · intro hlost
    obtain ⟨⟨sid, reason⟩, hloss, hid⟩ := List.mem_map.mp hlost
    obtain ⟨x', y, hloses, hxid, -⟩ := losesPair_of_loss hloss
    obtain rfl := entry_eq hloses.loser.mem hx (hxid.trans hid)
    exact ⟨y, hloses⟩
  · intro h
    obtain ⟨y, hloses⟩ := h
    obtain ⟨reason, hloss, -⟩ := hloses.loss
    exact List.mem_map.mpr ⟨_, hloss, rfl⟩

/-- A leg's losses in pairs come in the order of the legs it loses to. -/
theorem remainingLosses_ordered :
    (remainingLosses upper legMetrics correlations mode activeSignals).Pairwise fun l l' =>
      ∀ y ∈ entriesOf activeSignals, ∀ z ∈ entriesOf activeSignals, l.1 = l'.1 →
        l.2.kept = some y.strategyId → l'.2.kept = some z.strategyId →
        [y, z].Sublist (entriesOf activeSignals) := by
  have hsub : (remainingOf upper legMetrics activeSignals).Sublist (entriesOf activeSignals) :=
    List.filter_sublist
  have hentry : ∀ {a b : Entry}, (a, b) ∈ pairsOf (remainingOf upper legMetrics activeSignals) →
      a ∈ entriesOf activeSignals ∧ b ∈ entriesOf activeSignals := fun hmem =>
    (mem_of_mem_pairsOf hmem).imp (hsub.subset ·) (hsub.subset ·)
  unfold remainingLosses pairLosses
  refine List.pairwise_filterMap.mpr (List.Pairwise.imp_of_mem ?_
    (pairsOf_ordered ((entriesOf_nodup activeSignals).sublist hsub)))
  rintro ⟨a, b⟩ ⟨c, d⟩ hp hq hordered l hl l' hl' y hy z hz hid hkept hkept'
  obtain ⟨x, y', hxy, hx, hky, -⟩ := pairLoss_spec (fun _ => remainingOf_entry) hp hl
  obtain ⟨x', z', hxz, hx', hkz, -⟩ := pairLoss_spec (fun _ => remainingOf_entry) hq hl'
  have hmems : x ∈ entriesOf activeSignals ∧ y' ∈ entriesOf activeSignals := by
    rcases hxy with heq | heq <;> cases heq
    · exact hentry hp
    · exact (hentry hp).symm
  have hmems' : x' ∈ entriesOf activeSignals ∧ z' ∈ entriesOf activeSignals := by
    rcases hxz with heq | heq <;> cases heq
    · exact hentry hq
    · exact (hentry hq).symm
  obtain rfl := entry_eq hmems.1 hmems'.1 (hx.trans (hid.trans hx'.symm))
  obtain rfl := entry_eq hmems.2 hy (Option.some.inj (hky.symm.trans hkept))
  obtain rfl := entry_eq hmems'.2 hz (Option.some.inj (hkz.symm.trans hkept'))
  exact (hordered x y' z' hxy hxz).trans hsub

theorem lastLoss_last {R : Loss → Loss → Prop} {losses : List Loss} (hR : losses.Pairwise R)
    {sid : String} {reason reason' : BlockReason} (h : lastLoss losses sid = some reason)
    (h' : (sid, reason') ∈ losses) : reason' = reason ∨ R (sid, reason') (sid, reason) := by
  induction losses using List.reverseRecOn with
  | nil => cases h'
  | append_singleton losses loss ih =>
    obtain ⟨hinit, -, hlast⟩ := List.pairwise_append.mp hR
    unfold lastLoss at h ih
    rw [List.reverse_concat, List.find?_cons] at h
    by_cases hkey : loss.1 = sid
    · obtain ⟨sid', reason''⟩ := loss
      subst hkey
      obtain rfl : reason'' = reason := by simpa using h
      rcases List.mem_append.mp h' with hin | hend
      · exact .inr (hlast _ hin _ (List.mem_singleton_self _))
      · exact .inl (congrArg Prod.snd (List.mem_singleton.mp hend))
    · rw [decide_eq_false hkey] at h
      rcases List.mem_append.mp h' with hin | hend
      · exact ih hinit h hin
      · exact absurd (congrArg Prod.fst (List.mem_singleton.mp hend)).symm hkey

/-- The reason a leg's pairs leave it with names the last leg it loses to. -/
theorem losesLastTo_of_lastLoss {sid : String} {reason : BlockReason}
    (h : lastLoss (remainingLosses upper legMetrics correlations mode activeSignals) sid =
      some reason) :
    ∃ x y, LosesLastTo upper legMetrics correlations mode activeSignals x y ∧ x.strategyId = sid ∧
      reason.kept = some y.strategyId := by
  obtain ⟨x, y, hloses, rfl, hkept⟩ := losesPair_of_loss (mem_of_lastLoss h)
  refine ⟨x, y, ⟨hloses, fun z hz hne => ?_⟩, rfl, hkept⟩
  obtain ⟨reason', hloss, hkept'⟩ := hz.loss
  rcases lastLoss_last remainingLosses_ordered h hloss with rfl | hordered
  · exact absurd (entry_eq hz.winner.mem hloses.winner.mem
      (Option.some.inj (hkept'.symm.trans hkept))) hne
  · exact hordered z hz.winner.mem y hloses.winner.mem rfl hkept' hkept

theorem LosesLastTo.unique {x y y' : Entry}
    (h : LosesLastTo upper legMetrics correlations mode activeSignals x y)
    (h' : LosesLastTo upper legMetrics correlations mode activeSignals x y') : y = y' := by
  by_contra hne
  exact not_listed_both (entriesOf_nodup activeSignals) (h'.last y h.loses hne)
    (h.last y' h'.loses (Ne.symm hne))

/-! ## Approved entries -/

/-- An entry is approved just when its symbol has left it and it stands. -/
theorem approved_iff {y : Entry} :
    y ∈ entriesOf (resolveSignalConflicts upper legMetrics correlations mode
        activeSignals).approvedSignals ↔
      Remains upper legMetrics activeSignals y ∧
        Stands upper legMetrics correlations mode activeSignals y := by
  rw [mem_approved, ← remains_iff, mem_remainingOf]
  unfold Out
  constructor
  · intro h
    obtain ⟨hy, hout⟩ := h
    simp only [not_or, lost_pair_iff hy, not_exists] at hout
    exact ⟨⟨hy, hout.1.1.1⟩, ⟨hout.1.1.2, hout.1.2, hout.2⟩⟩
  · intro h
    obtain ⟨⟨hy, hstays⟩, hstands⟩ := h
    refine ⟨hy, ?_⟩
    simp only [not_or, lost_pair_iff hy, not_exists]
    exact ⟨⟨⟨hstays, hstands.unbeaten⟩, hstands.spy⟩, hstands.dominated⟩

theorem approved_conflictFree :
    ConflictFree upper correlations
      (resolveSignalConflicts upper legMetrics correlations mode activeSignals).approvedSignals := by
  intro a ha b hb hne
  obtain ⟨harem, hastands⟩ := approved_iff.mp ha
  obtain ⟨hbrem, hbstands⟩ := approved_iff.mp hb
  constructor
  · intro hsym
    by_contra hdir
    have hmixed : Mixed (onSymbol upper (entriesOf activeSignals) (b.symbol upper)) :=
      ⟨a, mem_onSymbol.mpr ⟨harem.mem, hsym⟩, b, mem_onSymbol.mpr ⟨hbrem.mem, rfl⟩, hdir⟩
    obtain ⟨w, hpick, -⟩ := exists_pick legMetrics hmixed
    have hloses : ∀ x, Remains upper legMetrics activeSignals x → x.symbol upper = b.symbol upper →
        x = w := by
      intro x hx hxsym
      by_contra hxw
      obtain ⟨w', hlost, -⟩ := (symbolLoss_iff hx.mem).mp (hpick.rest x hx.mem hxsym hxw)
      exact hx.keeps w' hlost
    exact hne ((hloses a harem hsym).trans (hloses b hbrem rfl).symm)
  · intro hsym hcorr
    by_contra hdir
    have hconflict : PairConflict upper correlations mode a b := ⟨hsym, hcorr, .inl hdir⟩
    rcases pairLosses_lose legMetrics (fun _ => remainingOf_entry) (remains_iff.mpr harem)
      (remains_iff.mpr hbrem) hne hconflict with hlost | ⟨hlost, -⟩
    · obtain ⟨z, hloses⟩ := (lost_pair_iff harem.mem).mp hlost
      exact hastands.unbeaten z hloses
    · obtain ⟨z, hloses⟩ := (lost_pair_iff hbrem.mem).mp hlost
      exact hbstands.unbeaten z hloses

/-! ## What a blocked leg is told -/

theorem keptFor_symbol {x w : Entry} (h : LosesSymbol upper legMetrics activeSignals x w) :
    (resolveSignalConflicts upper legMetrics correlations mode activeSignals).keptFor
      x.strategyId = some w.strategyId := by
  have hloss := (symbolLoss_iff h.loser).mpr ⟨w, h, rfl⟩
  have hpair : x.strategyId ∉
      lost (remainingLosses upper legMetrics correlations mode activeSignals) :=
    fun hlost => lost_symbol_of_lost_pair hlost (List.mem_map.mpr ⟨_, hloss, rfl⟩)
  rw [(resolve_spec _ _ _ _ _).2, lastLoss_eq_none.mpr hpair, Option.none_or]
  cases hlast : lastLoss (symbolLosses upper legMetrics activeSignals) x.strategyId with
  | none => exact absurd (List.mem_map.mpr ⟨_, hloss, rfl⟩) (lastLoss_eq_none.mp hlast)
  | some reason =>
    obtain ⟨w', hloses, rfl⟩ := (symbolLoss_iff h.loser).mp (mem_of_lastLoss hlast)
    rw [h.unique hloses]
    rfl

theorem keptFor_pair {x y : Entry}
    (h : LosesLastTo upper legMetrics correlations mode activeSignals x y) :
    (resolveSignalConflicts upper legMetrics correlations mode activeSignals).keptFor
      x.strategyId = some y.strategyId := by
  obtain ⟨reason, hloss, -⟩ := h.loses.loss
  rw [(resolve_spec _ _ _ _ _).2]
  cases hlast : lastLoss (remainingLosses upper legMetrics correlations mode activeSignals)
    x.strategyId with
  | none => exact absurd (List.mem_map.mpr ⟨_, hloss, rfl⟩) (lastLoss_eq_none.mp hlast)
  | some reason' =>
    obtain ⟨x', y', hlast', hid, hkept⟩ := losesLastTo_of_lastLoss hlast
    obtain rfl := entry_eq hlast'.loses.loser.mem h.loses.loser.mem hid
    rw [h.unique hlast']
    exact hkept

/-- Whoever a leg is told was kept, it lost to. -/
theorem of_keptFor {sid w : String}
    (h : (resolveSignalConflicts upper legMetrics correlations mode activeSignals).keptFor sid =
      some w) :
    ∃ x y, x.strategyId = sid ∧ y.strategyId = w ∧
      (LosesSymbol upper legMetrics activeSignals x y ∨
        LosesLastTo upper legMetrics correlations mode activeSignals x y) := by
  rw [(resolve_spec _ _ _ _ _).2] at h
  cases hlast : lastLoss (remainingLosses upper legMetrics correlations mode activeSignals) sid with
  | some reason =>
    rw [hlast] at h
    obtain ⟨x, y, hloses, hid, hkept⟩ := losesLastTo_of_lastLoss hlast
    exact ⟨x, y, hid, Option.some.inj (hkept.symm.trans h), .inr hloses⟩
  | none =>
    rw [hlast, Option.none_or] at h
    obtain ⟨reason, hreason, hw⟩ := Option.bind_eq_some_iff.mp h
    obtain ⟨-, x, hx, -, -, rfl, -⟩ := symbolLoss_spec (mem_of_lastLoss hreason)
    obtain ⟨y, hloses, rfl⟩ := (symbolLoss_iff hx).mp (mem_of_lastLoss hreason)
    exact ⟨x, y, rfl, Option.some.inj hw, .inl hloses⟩

/-- The legs named as kept stand just when the condition on the entries holds. -/
theorem keptStand_iff :
    KeptStand upper correlations mode activeSignals
        (resolveSignalConflicts upper legMetrics correlations mode activeSignals) ↔
      KeptLegsStand upper legMetrics correlations mode activeSignals := by
  constructor
  · intro hstand
    -- Whoever a leg is told was kept is approved, and conflicts with it.
    have hkept : ∀ {x y : Entry}, x ∈ entriesOf activeSignals → y ∈ entriesOf activeSignals →
        (resolveSignalConflicts upper legMetrics correlations mode activeSignals).keptFor
          x.strategyId = some y.strategyId →
        Conflicts upper correlations mode x y ∧
          Stands upper legMetrics correlations mode activeSignals y := by
      intro x y hx hy h
      obtain ⟨x', hx', y', hy', hid, hyid, hconflict⟩ := hstand _ _ h
      obtain ⟨hremains, hstands⟩ := approved_iff.mp hy'
      obtain rfl := entry_eq hx' hx hid
      obtain rfl := entry_eq hremains.mem hy hyid
      exact ⟨hconflict, hstands⟩
    refine ⟨fun x w h => ?_, fun x w h => ?_, fun x y h => ?_⟩
    · rcases (hkept h.loser h.winner (keptFor_symbol h)).1 with ⟨-, hdir⟩ | hpair
      · exact hdir
      · exact absurd h.same hpair.1
    · exact (hkept h.loser h.winner (keptFor_symbol h)).2
    · exact (hkept h.loses.loser.mem h.loses.winner.mem (keptFor_pair h)).2
  · rintro ⟨hopposed, hsymbol, hpair⟩ sid w h
    obtain ⟨x, y, rfl, rfl, hloses | hloses⟩ := of_keptFor h
    · exact ⟨x, hloses.loser, y, approved_iff.mpr ⟨hloses.winner_remains, hsymbol x y hloses⟩,
        rfl, rfl, .inl ⟨hloses.same, hopposed x y hloses⟩⟩
    · exact ⟨x, hloses.loses.loser.mem, y, approved_iff.mpr
        ⟨hloses.loses.winner, hpair x y hloses⟩, rfl, rfl, .inr hloses.loses.conflict⟩

/-! ## Order -/

variable (upper legMetrics correlations mode activeSignals) in
/-- Whether an entry is out, where no two entries have one Sharpe, is a matter of
which entries there are, in any order. -/
theorem out_congr {activeSignals' : Dict String (Option Signal)}
    (hsame : ∀ sid, activeSignals'.get? sid = activeSignals.get? sid)
    (hdistinct : ∀ a ∈ entriesOf activeSignals, ∀ b ∈ entriesOf activeSignals, a ≠ b →
      sharpeOf legMetrics a.strategyId ≠ sharpeOf legMetrics b.strategyId) (sid : String) :
    Out upper legMetrics correlations mode activeSignals' sid ↔
      Out upper legMetrics correlations mode activeSignals sid := by
  have hentries : ∀ e, e ∈ entriesOf activeSignals' ↔ e ∈ entriesOf activeSignals := fun e => by
    rw [mem_entriesOf, mem_entriesOf, hsame]
  have hdistinct' : ∀ a ∈ entriesOf activeSignals', ∀ b ∈ entriesOf activeSignals', a ≠ b →
      sharpeOf legMetrics a.strategyId ≠ sharpeOf legMetrics b.strategyId := fun a ha b hb =>
    hdistinct a ((hentries a).mp ha) b ((hentries b).mp hb)
  have hmixed : ∀ symbol, Mixed (onSymbol upper (entriesOf activeSignals') symbol) ↔
      Mixed (onSymbol upper (entriesOf activeSignals) symbol) := fun symbol => by
    simp only [Mixed, mem_onSymbol, hentries]
  have hsymbol : ∀ sid, sid ∈ lost (symbolLosses upper legMetrics activeSignals') ↔
      sid ∈ lost (symbolLosses upper legMetrics activeSignals) := fun sid => by
    rw [lost_symbolLosses_iff hdistinct', lost_symbolLosses_iff hdistinct]
    simp only [hentries, hmixed]
  have hremaining : ∀ e, e ∈ remainingOf upper legMetrics activeSignals' ↔
      e ∈ remainingOf upper legMetrics activeSignals := fun e => by
    rw [mem_remainingOf, mem_remainingOf, hentries, hsymbol]
  have hpair : sid ∈ lost (remainingLosses upper legMetrics correlations mode activeSignals') ↔
      sid ∈ lost (remainingLosses upper legMetrics correlations mode activeSignals) := by
    unfold remainingLosses
    rw [lost_pairLosses_iff (fun _ => remainingOf_entry) fun a ha b hb =>
        hdistinct' a (mem_remainingOf.mp ha).1 b (mem_remainingOf.mp hb).1,
      lost_pairLosses_iff (fun _ => remainingOf_entry) fun a ha b hb =>
        hdistinct a (mem_remainingOf.mp ha).1 b (mem_remainingOf.mp hb).1]
    simp only [hremaining]
  unfold Out
  rw [hsymbol, hpair]

variable (upper legMetrics correlations mode activeSignals)

/-- Approved entries are free of conflict, and with distinct Sharpes they are the
same in any order; the legs named as kept are approved just when they stand. -/
theorem conflict_resolution :
    ConflictFree upper correlations (resolveSignalConflicts upper legMetrics correlations mode
        activeSignals).approvedSignals ∧
      (KeptStand upper correlations mode activeSignals
          (resolveSignalConflicts upper legMetrics correlations mode activeSignals) ↔
        KeptLegsStand upper legMetrics correlations mode activeSignals) ∧
      ∀ activeSignals' : Dict String (Option Signal),
        (∀ sid, activeSignals'.get? sid = activeSignals.get? sid) →
        (∀ a ∈ entriesOf activeSignals, ∀ b ∈ entriesOf activeSignals, a ≠ b →
          sharpeOf legMetrics a.strategyId ≠ sharpeOf legMetrics b.strategyId) →
        ∀ sid,
          (resolveSignalConflicts upper legMetrics correlations mode
              activeSignals').approvedSignals.get? sid =
            (resolveSignalConflicts upper legMetrics correlations mode
              activeSignals).approvedSignals.get? sid := by
  refine ⟨approved_conflictFree, keptStand_iff, fun activeSignals' hsame hdistinct sid => ?_⟩
  have hout := out_congr upper legMetrics correlations mode activeSignals hsame hdistinct sid
  have hentry : (startingResolution activeSignals').HasEntry sid ↔
      (startingResolution activeSignals).HasEntry sid := by
    rw [SignalConflictResolution.hasEntry_iff, SignalConflictResolution.hasEntry_iff]
    exact exists_congr fun sig => and_congr_left fun _ => by
      rw [show (startingResolution activeSignals').approvedSignals.get? sid = _ from hsame sid]
      rfl
  obtain ⟨htakes', -⟩ := resolve_spec upper legMetrics correlations mode activeSignals'
  obtain ⟨htakes, -⟩ := resolve_spec upper legMetrics correlations mode activeSignals
  by_cases hboth : Out upper legMetrics correlations mode activeSignals sid ∧
      (startingResolution activeSignals).HasEntry sid
  · rw [htakes.out sid hboth.1 hboth.2, htakes'.out sid (hout.mpr hboth.1) (hentry.mpr hboth.2)]
  · rw [htakes.same sid hboth, htakes'.same sid fun h => hboth ⟨hout.mp h.1, hentry.mp h.2⟩]
    exact hsame sid

end Legs

def entrySignal (symbol : String) (action : SignalAction) : Option Signal :=
  some { symbol, action, price := 100, timestamp := "2026-07-20", strategyId := symbol }

/-- QQQ moves with SPY, SPY with USO, and QQQ not with USO. -/
def chainCorrelations : SymbolCorrelations where
  map := (Dict.empty.set ("QQQ", "SPY") (9 / 10)).set ("SPY", "USO") (9 / 10)
  symm := by
    intro a b v w hab hba
    simp only [Dict.get?_set, Dict.get?_empty] at hab hba
    split_ifs at hab hba <;> cases hab <;> cases hba <;> rfl

def chainSignals : Dict String (Option Signal) :=
  ((Dict.empty.set "qqq" (entrySignal "QQQ" .long)).set "spy" (entrySignal "SPY" .short)).set "uso"
    (entrySignal "USO" .long)

def chainMetrics : Dict String LegMetrics :=
  Dict.tabulate (·.strategyId) id
    [{ strategyId := "qqq", symbol := "QQQ", realizedVol := 1, drawdownContribution := 0
       marginalSharpe := 9 / 10 },
     { strategyId := "spy", symbol := "SPY", realizedVol := 1, drawdownContribution := 0
       marginalSharpe := 5 / 10 },
     { strategyId := "uso", symbol := "USO", realizedVol := 1, drawdownContribution := 0
       marginalSharpe := 3 / 10 }]

/-- QQQ blocks SPY, and SPY, blocked, still blocks USO, which conflicts with nothing approved. -/
theorem blocked_leg_keeps_blocking :
    let r := resolveSignalConflicts id chainMetrics chainCorrelations none chainSignals
    r.keptFor "uso" = some "spy" ∧ r.approvedSignals.get? "spy" = some none ∧
      r.approvedSignals.get? "uso" = some none := by
  decide +kernel

end TradingPlatform.Engine.Portfolio
