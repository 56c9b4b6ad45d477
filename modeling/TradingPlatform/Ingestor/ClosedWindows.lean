import TradingPlatform.Ingestor.DualBuffer
import TradingPlatform.Lib.Runs

/-! # Closed bars in the signal windows

A stream bar goes to the forming slot; the bars of a window come from
refreshes. A refresh offers every window the last bars it fetched, whether they
have ended or not. -/

namespace TradingPlatform.Ingestor.DualBuffer

open TradingPlatform.Core TradingPlatform.Lib.Runs

/-! ## One window -/

namespace LegWindow

theorem upsertBar_series (w : LegWindow) (bar : Bar ℤ ℚ) :
    (w.upsertBar bar).2.series = (w.series.upsertBar bar).2 := rfl

theorem latest_eq (w : LegWindow) : w.window.latest = w.series.accepted.getLast? :=
  w.mirrors.latest

/-- A window already holds a later bar. -/
def Past (w : LegWindow) (bar : Bar ℤ ℚ) : Prop :=
  ∃ latest ∈ w.window.latest, bar.timestamp < latest.timestamp

theorem upsertBar_ignored {w : LegWindow} {bar : Bar ℤ ℚ} :
    (w.upsertBar bar).1 = .ignored ↔ w.Past bar := by
  rw [upsertBar_outcome, Series.upsertBar_ignored, Past, latest_eq]

/-- What one bar does to a window does not matter to a later one. -/
theorem past_upsertBar {w : LegWindow} {bar later : Bar ℤ ℚ}
    (h : bar.timestamp < later.timestamp) : (w.upsertBar bar).2.Past later ↔ w.Past later := by
  rw [Past, Past, latest_eq, latest_eq, upsertBar_series, Series.getLast?_upsertBar]
  split
  · rfl
  · rename_i hwritten
    rw [Series.upsertBar_ignored] at hwritten
    constructor
    · intro hp
      obtain ⟨b, hb, hlt⟩ := hp
      rw [← Option.some.inj hb] at hlt
      exact absurd (h.trans hlt) (lt_irrefl _)
    · intro hp
      obtain ⟨b, hb, hlt⟩ := hp
      exact absurd ⟨b, hb, h.trans hlt⟩ hwritten

/-- Of bars of increasing time a window ignores those it was past at the start. -/
theorem mem_upsertBars {bars : List (Bar ℤ ℚ)} (hbars : bars.Pairwise (·.timestamp < ·.timestamp)) :
    ∀ {w : LegWindow} {bar : Bar ℤ ℚ},
      (∃ outcome, (bar, outcome) ∈ (w.upsertBars bars).1 ∧ outcome ≠ .ignored) ↔
        bar ∈ bars ∧ ¬ w.Past bar := by
  induction bars with
  | nil => simp [upsertBars]
  | cons first rest ih =>
    intro w bar
    obtain ⟨hfirst, hrest⟩ := List.pairwise_cons.1 hbars
    have hcons : (w.upsertBars (first :: rest)).1 =
        (first, (w.upsertBar first).1) :: ((w.upsertBar first).2.upsertBars rest).1 := rfl
    rw [hcons]
    simp only [List.mem_cons, or_and_right, exists_or, Prod.mk.injEq]
    rw [ih hrest]
    have hhead : (∃ o, (bar = first ∧ o = (w.upsertBar first).1) ∧ o ≠ .ignored) ↔
        bar = first ∧ ¬ w.Past bar := by
      constructor
      · intro h
        obtain ⟨o, ⟨rfl, rfl⟩, ho⟩ := h
        exact ⟨rfl, fun hp => ho (upsertBar_ignored.2 hp)⟩
      · intro h
        obtain ⟨rfl, hp⟩ := h
        exact ⟨_, ⟨rfl, rfl⟩, fun ho => hp (upsertBar_ignored.1 ho)⟩
    have htail : bar ∈ rest ∧ ¬ (w.upsertBar first).2.Past bar ↔ bar ∈ rest ∧ ¬ w.Past bar :=
      and_congr_right fun hmem => not_congr (past_upsertBar (hfirst bar hmem))
    rw [hhead, htail]

/-- The bars a window takes in are those written to it. -/
theorem mem_series_upsertBars {bars : List (Bar ℤ ℚ)} :
    ∀ {w : LegWindow} {bar : Bar ℤ ℚ}, bar ∈ (w.upsertBars bars).2.series.accepted →
      bar ∈ w.series.accepted ∨
        ∃ outcome, (bar, outcome) ∈ (w.upsertBars bars).1 ∧ outcome ≠ .ignored := by
  induction bars with
  | nil => exact fun h => .inl h
  | cons first rest ih =>
    intro w bar h
    have hcons : (w.upsertBars (first :: rest)).1 =
        (first, (w.upsertBar first).1) :: ((w.upsertBar first).2.upsertBars rest).1 := rfl
    rw [hcons]
    rcases ih h with hold | ⟨o, ho, hne⟩
    · rcases Series.mem_upsertBar hold with hold | ⟨rfl, hne⟩
      · exact .inl hold
      · rw [← upsertBar_outcome] at hne
        exact .inr ⟨_, List.mem_cons_self, hne⟩
    · exact .inr ⟨o, List.mem_cons_of_mem _ ho, hne⟩

end LegWindow

/-! ## One call -/

/-- The writes of a refresh: each locked bar to each window that is not past it. -/
theorem mem_writes {s : MatrixState} {call : Call} {id : String} {bar : Bar ℤ ℚ} :
    (∃ write ∈ (step s (.refresh call)).1.writes, write.strategyId = id ∧ write.bar = bar ∧
        write.outcome ≠ .ignored) ↔
      ∃ close ∈ s.refreshClose call, ∃ leg ∈ s.legs, leg.strategyId = id ∧
        ∃ w ∈ leg.window, bar ∈ s.lockedBars close call.rest ∧ ¬ w.Past bar := by
  rw [step]
  cases s.refreshClose call with
  | none => simp [RefreshLog.empty]
  | some close =>
    simp only [Option.elim_some, Option.mem_some_iff, exists_eq_left']
    have hinc := s.lockedBars_increasing close call.rest
    unfold MatrixState.refreshShadow
    dsimp only
    by_cases hnil : s.lockedBars close call.rest = []
    · rw [if_pos hnil, hnil]
      simp [RefreshLog.empty]
    · rw [if_neg hnil]
      simp only [MatrixState.reconcileStreamingWindows, MatrixState.replaceShadow, List.mem_flatMap,
        List.mem_map]
      constructor
      · intro h
        obtain ⟨write, ⟨-, ⟨leg, hleg, rfl⟩, hwrite⟩, rfl, rfl, hne⟩ := h
        obtain ⟨w, hw, p, hp, rfl⟩ := MatrixState.mem_reconcileLeg.1 hwrite
        exact ⟨leg, hleg, rfl, w, hw, (LegWindow.mem_upsertBars hinc).1 ⟨_, hp, hne⟩⟩
      · intro h
        obtain ⟨leg, hleg, rfl, w, hw, hbar⟩ := h
        obtain ⟨o, ho, hne⟩ := (LegWindow.mem_upsertBars hinc).2 hbar
        have hwrite := MatrixState.mem_reconcileLeg.2 ⟨w, hw, _, ho, rfl⟩
        exact ⟨⟨leg.strategyId, bar, o⟩, ⟨_, ⟨leg, hleg, rfl⟩, hwrite⟩, rfl, rfl, hne⟩

/-- Every bar a call appends or updates has ended by then. -/
def WritesClosed (s : MatrixState) : Event → Prop
  | .ingestStreamBar _ => True
  | .refresh call => ∀ write ∈ (step s (.refresh call)).1.writes, write.outcome ≠ .ignored →
      write.bar.timestamp + s.period ≤ call.instant

/-- Of the last bars a call fetches, each has ended by then or every leg window is past it. -/
def BarsEnded (s : MatrixState) : Event → Prop
  | .ingestStreamBar _ => True
  | .refresh call => ∀ close ∈ s.refreshClose call, ∀ bar ∈ s.lockedBars close call.rest,
      bar.timestamp + s.period ≤ call.instant ∨
        ∀ leg ∈ s.legs, ∀ w ∈ leg.window, w.Past bar

theorem writesClosed_iff (s : MatrixState) (e : Event) : WritesClosed s e ↔ BarsEnded s e := by
  cases e with
  | ingestStreamBar bar => exact Iff.rfl
  | refresh call =>
    constructor
    · intro h close hclose bar hbar
      by_contra hnot
      rw [not_or, not_forall] at hnot
      obtain ⟨hforming, leg, hnot⟩ := hnot
      simp only [not_forall] at hnot
      obtain ⟨hleg, w, hw, hpast⟩ := hnot
      obtain ⟨write, hwrite, -, rfl, hne⟩ :=
        mem_writes.2 ⟨close, hclose, leg, hleg, rfl, w, hw, hbar, hpast⟩
      exact hforming (h write hwrite hne)
    · intro h write hwrite hne
      obtain ⟨close, hclose, leg, hleg, -, w, hw, hbar, hpast⟩ :=
        mem_writes.1 ⟨write, hwrite, rfl, rfl, hne⟩
      exact (h close hclose write.bar hbar).resolve_right fun hall => hpast (hall leg hleg w hw)

/-! ## Runs -/

/-- The bars a call appends or updates, with the time of the call. -/
def writesOf (s : MatrixState) : Event → List (ℤ × WindowWrite)
  | .ingestStreamBar _ => []
  | .refresh call =>
    ((step s (.refresh call)).1.writes.filter (·.outcome ≠ .ignored)).map fun w => (call.instant, w)

def writeLog : MatrixState → List Event → List (ℤ × WindowWrite)
  | _, [] => []
  | s, e :: es => writesOf s e ++ writeLog (next s e) es

theorem mem_writesOf {s : MatrixState} {e : Event} {p : ℤ × WindowWrite} :
    p ∈ writesOf s e ↔ ∃ call, e = .refresh call ∧ p.1 = call.instant ∧
      p.2 ∈ (step s (.refresh call)).1.writes ∧ p.2.outcome ≠ .ignored := by
  obtain ⟨t, write⟩ := p
  cases e with
  | ingestStreamBar bar => simp [writesOf]
  | refresh call =>
    simp only [writesOf, List.mem_map, List.mem_filter, decide_eq_true_eq, Prod.mk.injEq,
      Event.refresh.injEq]
    constructor
    · intro h
      obtain ⟨w, hw, rfl, rfl⟩ := h
      exact ⟨call, rfl, rfl, hw⟩
    · intro h
      obtain ⟨c, rfl, rfl, hw⟩ := h
      exact ⟨write, hw, rfl, rfl⟩

/-- After a refresh the window of each leg has taken in the locked bars. -/
theorem leg_refreshShadow {s : MatrixState} {close : ℤ} {rest : RestBars} {leg' : Leg}
    (h : leg' ∈ (s.refreshShadow close rest).2.legs) :
    ∃ leg ∈ s.legs, leg.strategyId = leg'.strategyId ∧
      leg'.window = leg.window.map fun w => (w.upsertBars (s.lockedBars close rest)).2 := by
  by_cases hnil : s.lockedBars close rest = []
  · rw [MatrixState.refreshShadow, if_pos hnil] at h
    refine ⟨leg', h, rfl, ?_⟩
    rw [hnil]
    exact Option.map_id'.symm
  · rw [MatrixState.refreshShadow, if_neg hnil] at h
    obtain ⟨reconciled, hrec, rfl⟩ := List.mem_map.1 h
    obtain ⟨pair, hpair, rfl⟩ := List.mem_map.1 hrec
    obtain ⟨leg, hleg, rfl⟩ := List.mem_map.1 hpair
    simp only [MatrixState.verifyLeg, MatrixState.reconcileLeg_leg]
    exact ⟨leg, hleg, rfl, rfl⟩

theorem accepted_setForming (w : LegWindow) (tick : Bar ℤ ℚ) :
    (w.step (.setForming tick)).series.accepted = w.series.accepted := by
  show (w.series.setForming tick).2.accepted = _
  unfold Series.setForming
  split
  · rfl
  · split <;> rfl

/-- A leg after a step: its window has taken in what was written to it and nothing else. -/
theorem leg_next {s : MatrixState} {e : Event} {leg' : Leg} (h : leg' ∈ (next s e).legs)
    {w' : LegWindow} (hw' : w' ∈ leg'.window) :
    ∃ leg ∈ s.legs, leg.strategyId = leg'.strategyId ∧ ∃ w ∈ leg.window,
      ∀ bar ∈ w'.series.accepted, bar ∈ w.series.accepted ∨
        ∃ p ∈ writesOf s e, p.2.strategyId = leg.strategyId ∧ p.2.bar = bar := by
  cases e with
  | ingestStreamBar tick =>
    obtain ⟨leg, hleg, rfl⟩ := List.mem_map.1 h
    obtain ⟨w, hw, rfl⟩ := Option.map_eq_some_iff.1 hw'
    refine ⟨leg, hleg, rfl, w, hw, fun bar hbar => .inl ?_⟩
    rwa [accepted_setForming] at hbar
  | refresh call =>
    rw [next, step] at h
    cases hclose : s.refreshClose call with
    | none =>
      rw [hclose] at h
      exact ⟨leg', h, rfl, w', hw', fun bar hbar => .inl hbar⟩
    | some close =>
      rw [hclose, Option.elim_some] at h
      obtain ⟨leg, hleg, hid, hwindow⟩ := leg_refreshShadow h
      rw [hwindow] at hw'
      obtain ⟨w, hw, rfl⟩ := Option.map_eq_some_iff.1 hw'
      refine ⟨leg, hleg, hid, w, hw, fun bar hbar => ?_⟩
      refine (LegWindow.mem_series_upsertBars hbar).imp_right fun hwritten => ?_
      have hinc := s.lockedBars_increasing close call.rest
      have hnew := (LegWindow.mem_upsertBars hinc).1 hwritten
      obtain ⟨write, hwrite, hid, hbar', hne⟩ :=
        mem_writes.2 ⟨close, hclose, leg, hleg, rfl, w, hw, hnew⟩
      exact ⟨(call.instant, write), mem_writesOf.2 ⟨call, rfl, rfl, hwrite, hne⟩, hid, hbar'⟩

/-- A bar in a leg's window after a run was there before it or is in the log. -/
theorem window_bars_written {s : MatrixState} {es : List Event} {leg' : Leg}
    (h : leg' ∈ (run next s es).legs) {w' : LegWindow} (hw' : w' ∈ leg'.window) :
    ∃ leg ∈ s.legs, leg.strategyId = leg'.strategyId ∧ ∃ w ∈ leg.window,
      ∀ bar ∈ w'.series.accepted, bar ∈ w.series.accepted ∨
        ∃ p ∈ writeLog s es, p.2.strategyId = leg.strategyId ∧ p.2.bar = bar := by
  induction es generalizing s with
  | nil => exact ⟨leg', h, rfl, w', hw', fun bar hbar => .inl hbar⟩
  | cons e es ih =>
    obtain ⟨mid, hmid, hid, v, hv, hlater⟩ := ih h
    obtain ⟨leg, hleg, hid', w, hw, hfirst⟩ := leg_next hmid hv
    refine ⟨leg, hleg, hid'.trans hid, w, hw, fun bar hbar => ?_⟩
    rw [writeLog]
    rcases hlater bar hbar with hbar | ⟨p, hp, hpid, hpbar⟩
    · refine (hfirst bar hbar).imp_right fun h => ?_
      obtain ⟨p, hp, hpid, hpbar⟩ := h
      exact ⟨p, List.mem_append_left _ hp, hpid, hpbar⟩
    · exact .inr ⟨p, List.mem_append_right _ hp, hpid.trans hid'.symm, hpbar⟩

/-- The call that gave a leg's window the values it holds for a timestamp. -/
def lastWrite (log : List (ℤ × WindowWrite)) (id : String) (timestamp : ℤ) :
    Option (ℤ × WindowWrite) :=
  (log.filter fun p => p.2.strategyId = id ∧ p.2.bar.timestamp = timestamp).getLast?

/-- A scheduled refresh that fetched bars has run at or after `t`. -/
def ScheduledSince (s : MatrixState) (es : List Event) (t : ℤ) : Prop :=
  ∃ pre call post, es = pre ++ .refresh call :: post ∧ call.caller = .scheduled ∧
    (step (run next s pre) (.refresh call)).1.refreshed.isSome ∧ t ≤ call.instant

/-- Once a scheduled refresh has run after the end of a bar, no window keeps values of it that
were fetched before. -/
def NoFormingKept (s : MatrixState) (es : List Event) : Prop :=
  ∀ leg ∈ (run next s es).legs, ∀ w ∈ leg.window, ∀ bar ∈ w.window.chronologicalBars,
    ScheduledSince s es (bar.timestamp + s.period) →
      ∀ p ∈ lastWrite (writeLog s es) leg.strategyId bar.timestamp,
        bar.timestamp + s.period ≤ p.1

theorem run_period (s : MatrixState) (es : List Event) : (run next s es).period = s.period := by
  induction es generalizing s with
  | nil => rfl
  | cons e es ih => rw [run_cons, ih, MatrixState.period, MatrixState.period, next_barMinutes]

theorem writeLog_closed {s : MatrixState} {es : List Event} (h : Along next WritesClosed s es) :
    ∀ p ∈ writeLog s es, p.2.bar.timestamp + s.period ≤ p.1 := by
  induction es generalizing s with
  | nil => simp [writeLog]
  | cons e es ih =>
    obtain ⟨he, hes⟩ := h
    intro p hp
    rcases List.mem_append.1 hp with hp | hp
    · obtain ⟨call, rfl, htime, hwrite, hne⟩ := mem_writesOf.1 hp
      rw [htime]
      exact he p.2 hwrite hne
    · have := ih hes p hp
      rwa [show (next s e).period = s.period from run_period s [e]] at this

theorem noFormingKept_of_closed {s : MatrixState} {es : List Event}
    (h : Along next WritesClosed s es) : NoFormingKept s es := by
  intro leg _ w _ bar _ _ p hp
  have hmem := List.mem_of_getLast? hp
  obtain ⟨hlog, hmatch⟩ := List.mem_filter.1 hmem
  rw [decide_eq_true_eq] at hmatch
  rw [← hmatch.2]
  exact writeLog_closed h p hlog

theorem windows_closed_iff (s : MatrixState) (es : List Event) :
    Along next WritesClosed s es ∧ (∀ pre post, es = pre ++ post → NoFormingKept s pre) ↔
      Along next BarsEnded s es := by
  have hsteps : Along next WritesClosed s es ↔ Along next BarsEnded s es :=
    along_congr (I := fun _ => True) (fun _ _ _ => trivial)
      (fun s e _ => writesClosed_iff s e) es trivial
  rw [← hsteps]
  refine and_iff_left_of_imp fun h pre post hsplit => ?_
  rw [hsplit, along_append] at h
  exact noFormingKept_of_closed h.1

/-! ## A scheduled refresh inside a bar -/

def emptyWindow : LegWindow :=
  ⟨8, .new (by decide), .empty, mirrors_new (by decide)⟩

def qqqLeg : Leg := ⟨"mean_reversion_qqq", some emptyWindow, false, .unknown⟩

/-- What the service holds forty seconds after a quarter past. -/
def openingBars : RestBars where
  bars := [0, 15].map fun m => ⟨m * minute, 10, 11, 9, 10, 100, "QQQ"⟩
  increasing := by decide

def quarterPast : ℤ := 15 * minute + 40 * second

/-- Forty seconds after a close the loop appends the bar that has just begun. -/
theorem forming_bar_appended :
    ¬ Along next WritesClosed (MatrixState.new (timeframeMinutes "15Min") [qqqLeg])
      [.refresh ⟨.scheduled, quarterPast, quarterPast, openingBars⟩] := by
  intro h
  have hwritten : (⟨15 * minute, 10, 11, 9, 10, 100, "QQQ"⟩ : Bar ℤ ℚ) ∈
      ((step (MatrixState.new (timeframeMinutes "15Min") [qqqLeg])
        (.refresh ⟨.scheduled, quarterPast, quarterPast, openingBars⟩)).1.writes.filter
          (·.outcome ≠ .ignored)).map (·.bar) := by
    decide +kernel
  obtain ⟨write, hmem, hbar⟩ := List.mem_map.1 hwritten
  obtain ⟨hwrite, hne⟩ := List.mem_filter.1 hmem
  have hclosed := h.1 write hwrite (by simpa using hne)
  rw [hbar] at hclosed
  exact absurd hclosed (by decide)

end TradingPlatform.Ingestor.DualBuffer
