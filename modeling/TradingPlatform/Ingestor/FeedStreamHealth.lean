import TradingPlatform.Lib.Dict
import TradingPlatform.Lib.Runs
import TradingPlatform.Lib.Since
import Mathlib.Algebra.Order.Ring.Rat

/-! # The feed health registry

How long each stream of bars has been down. The mode that is kept is read off the clock again
whenever it is looked at, so a call brings a reading of the clock for every stream it looks
at. The lock is left out: a call is one step. -/

namespace TradingPlatform.Ingestor.FeedStreamHealth

open TradingPlatform.Lib TradingPlatform.Lib.Runs

def feedReconnectDegradedSeconds : ℚ := 300

def knownStreamTypes : List String := ["stock", "crypto"]

inductive FeedStreamMode
  | healthy
  | reconnecting
  | degradedFeed
  deriving DecidableEq

structure FeedStreamHealthSnapshot where
  mode : FeedStreamMode
  disconnectedSeconds : ℚ
  lastBarMonotonic : Option ℚ
  deriving DecidableEq

/-- The three places of a stream's list. -/
structure StreamEntry where
  mode : FeedStreamMode := .healthy
  disconnectSince : Option ℚ := none
  lastBar : Option ℚ := none
  deriving DecidableEq

abbrev Registry := Dict String StreamEntry

/-- A reading of the clock for each stream. -/
abbrev Clocks := String → ℚ

def new : Registry :=
  Dict.tabulate id (fun _ => {}) knownStreamTypes

def refreshLocked (clock : ℚ) (entry : StreamEntry) : StreamEntry :=
  match entry.disconnectSince with
  | none => { entry with mode := .healthy }
  | some since =>
    if feedReconnectDegradedSeconds ≤ clock - since then { entry with mode := .degradedFeed }
    else { entry with mode := .reconnecting }

/-- The streams a call is about; without a name, all that are known. -/
def keysOf : Option String → List String
  | none => knownStreamTypes
  | some streamType => [streamType]

namespace Registry

def entry (r : Registry) (key : String) : StreamEntry := (r.get? key).getD {}

def noteStreamBar (r : Registry) (now : ℚ) (streamType : String) : Registry :=
  r.set streamType
    { r.entry streamType with mode := .healthy, disconnectSince := none, lastBar := some now }

/-- What `note_disconnect` and `note_reconnect_attempt` do to one stream. -/
def noteDown (now clock : ℚ) (r : Registry) (key : String) : Registry :=
  let e := r.entry key
  r.set key (refreshLocked clock
    { e with disconnectSince := some (e.disconnectSince.getD now), mode := .reconnecting })

def noteDisconnect (r : Registry) (now : ℚ) (clocks : Clocks) (streamType : Option String) :
    Registry :=
  (keysOf streamType).foldl (fun r key => noteDown now (clocks key) r key) r

def noteReconnectAttempt (r : Registry) (now : ℚ) (clocks : Clocks) (streamType : Option String) :
    Registry :=
  (keysOf streamType).foldl (fun r key => noteDown now (clocks key) r key) r

/-- A refresh of the entry of a key, where there is one. -/
def refresh (r : Registry) (clock : ℚ) (key : String) : Registry :=
  match r.get? key with
  | some e => r.set key (refreshLocked clock e)
  | none => r

/-- The loop of `mode`, which stops at a degraded stream. -/
def modeLoop (clocks : Clocks) : List String → FeedStreamMode → Registry →
    FeedStreamMode × Registry
  | [], worst, r => (worst, r)
  | key :: keys, worst, r =>
    let m := (refreshLocked (clocks key) (r.entry key)).mode
    let r := r.refresh (clocks key) key
    match m with
    | .degradedFeed => (.degradedFeed, r)
    | .reconnecting => modeLoop clocks keys .reconnecting r
    | .healthy => modeLoop clocks keys worst r

def mode (r : Registry) (clocks : Clocks) (streamType : Option String) :
    FeedStreamMode × Registry :=
  modeLoop clocks (keysOf streamType) .healthy r

def isDegradedFeed (r : Registry) (clocks : Clocks) (streamType : Option String) :
    Bool × Registry :=
  let (m, r) := r.mode clocks streamType
  (decide (m = .degradedFeed), r)

/-- One stream added to a snapshot. -/
def addToSnapshot (now : ℚ) (s : FeedStreamHealthSnapshot) (e : StreamEntry) :
    FeedStreamHealthSnapshot where
  mode :=
    match e.mode with
    | .degradedFeed => .degradedFeed
    | .reconnecting => if s.mode ≠ .degradedFeed then .reconnecting else s.mode
    | .healthy => s.mode
  disconnectedSeconds :=
    match e.disconnectSince with
    | some since => max s.disconnectedSeconds (max 0 (now - since))
    | none => s.disconnectedSeconds
  lastBarMonotonic :=
    match e.lastBar, s.lastBarMonotonic with
    | some bar, some earliest => some (min earliest bar)
    | some bar, none => some bar
    | none, earliest => earliest

def snapshot (r : Registry) (now : ℚ) (clocks : Clocks) (streamType : Option String) :
    FeedStreamHealthSnapshot × Registry :=
  (keysOf streamType).foldl
    (fun p key =>
      (addToSnapshot now p.1 (refreshLocked (clocks key) (p.2.entry key)),
        p.2.refresh (clocks key) key))
    (⟨.healthy, 0, none⟩, r)

end Registry

inductive Op
  | noteStreamBar (now : ℚ) (streamType : String)
  | noteDisconnect (now : ℚ) (clocks : Clocks) (streamType : Option String)
  | noteReconnectAttempt (now : ℚ) (clocks : Clocks) (streamType : Option String)
  | mode (clocks : Clocks) (streamType : Option String)
  | snapshot (now : ℚ) (clocks : Clocks) (streamType : Option String)

def step (r : Registry) : Op → Registry
  | .noteStreamBar now streamType => r.noteStreamBar now streamType
  | .noteDisconnect now clocks streamType => r.noteDisconnect now clocks streamType
  | .noteReconnectAttempt now clocks streamType => r.noteReconnectAttempt now clocks streamType
  | .mode clocks streamType => (r.mode clocks streamType).2
  | .snapshot now clocks streamType => (r.snapshot now clocks streamType).2

/-! ## What a call leaves of a stream -/

/-- Since when a stream is down, and its last bar: what no look at it changes. -/
def observed (r : Registry) (key : String) : Option ℚ × Option ℚ :=
  ((r.entry key).disconnectSince, (r.entry key).lastBar)

theorem refreshLocked_observed (clock : ℚ) (e : StreamEntry) :
    (refreshLocked clock e).disconnectSince = e.disconnectSince ∧
      (refreshLocked clock e).lastBar = e.lastBar := by
  unfold refreshLocked
  split
  case h_1 => exact ⟨rfl, rfl⟩
  case h_2 =>
    split
    · exact ⟨rfl, rfl⟩
    · exact ⟨rfl, rfl⟩

theorem entry_set (r : Registry) (key k : String) (e : StreamEntry) :
    Registry.entry (r.set key e) k = if k = key then e else r.entry k := by
  unfold Registry.entry
  rw [Dict.get?_set]
  split
  · rfl
  · rfl

theorem observed_refresh (r : Registry) (clock : ℚ) (key k : String) :
    observed (r.refresh clock key) k = observed r k := by
  unfold Registry.refresh
  cases hget : r.get? key with
  | none => rfl
  | some e =>
    by_cases hk : k = key
    · obtain ⟨hsince, hbar⟩ := refreshLocked_observed clock e
      have hentry : r.entry key = e := by rw [Registry.entry, hget, Option.getD_some]
      simp [observed, entry_set, hk, hsince, hbar, hentry]
    · simp [observed, entry_set, hk]

theorem observed_noteDown (now clock : ℚ) (r : Registry) (key k : String) :
    observed (r.noteDown now clock key) k =
      if k = key then (some ((r.entry k).disconnectSince.getD now), (r.entry k).lastBar)
      else observed r k := by
  unfold Registry.noteDown observed
  dsimp only
  rw [entry_set]
  by_cases hk : k = key
  · rw [if_pos hk, if_pos hk, (refreshLocked_observed _ _).1, (refreshLocked_observed _ _).2, hk]
  · rw [if_neg hk, if_neg hk]

theorem observed_noteDowns (now : ℚ) (clocks : Clocks) (keys : List String) (r : Registry)
    (k : String) :
    observed (keys.foldl (fun r key => r.noteDown now (clocks key) key) r) k =
      if k ∈ keys then (some ((r.entry k).disconnectSince.getD now), (r.entry k).lastBar)
      else observed r k := by
  induction keys generalizing r with
  | nil => simp
  | cons key keys ih =>
    have hfirst := observed_noteDown now (clocks key) r key k
    simp only [observed] at hfirst
    rw [List.foldl_cons, ih]
    by_cases hk : k = key
    · rw [if_pos hk, Prod.mk.injEq] at hfirst
      rw [if_pos (List.mem_cons.mpr (.inl hk)), hfirst.1, hfirst.2]
      split
      · rfl
      · rw [observed, hfirst.1, hfirst.2]
    · rw [if_neg hk, Prod.mk.injEq] at hfirst
      rw [hfirst.1, hfirst.2, observed, hfirst.1, hfirst.2]
      simp [hk, observed]

theorem observed_modeLoop (clocks : Clocks) (keys : List String) (worst : FeedStreamMode)
    (r : Registry) (k : String) :
    observed (Registry.modeLoop clocks keys worst r).2 k = observed r k := by
  induction keys generalizing worst r with
  | nil => rfl
  | cons key keys ih =>
    unfold Registry.modeLoop
    dsimp only
    split
    · exact observed_refresh r _ key k
    · exact (ih _ _).trans (observed_refresh r _ key k)
    · exact (ih _ _).trans (observed_refresh r _ key k)

theorem observed_snapshot (now : ℚ) (clocks : Clocks) (keys : List String)
    (p : FeedStreamHealthSnapshot × Registry) (k : String) :
    observed (keys.foldl
      (fun p key =>
        (Registry.addToSnapshot now p.1 (refreshLocked (clocks key) (p.2.entry key)),
          p.2.refresh (clocks key) key)) p).2 k = observed p.2 k := by
  induction keys generalizing p with
  | nil => rfl
  | cons key keys ih => exact (ih _).trans (observed_refresh p.2 _ key k)

/-! ## Runs -/

/-- The reading of the clock that a note writes down. -/
def Op.now : Op → ℚ
  | .noteStreamBar now _ | .noteDisconnect now _ _ | .noteReconnectAttempt now _ _ => now
  | .snapshot now _ _ => now
  | .mode _ _ => 0

/-- A bar of this stream. -/
def Bars (key : String) : Op → Prop
  | .noteStreamBar _ streamType => streamType = key
  | _ => False

/-- A disconnect of this stream, or an attempt to reconnect it. -/
def Downs (key : String) : Op → Prop
  | .noteDisconnect _ _ streamType | .noteReconnectAttempt _ _ streamType => key ∈ keysOf streamType
  | _ => False

instance (key : String) : DecidablePred (Bars key)
  | .noteStreamBar _ streamType => inferInstanceAs (Decidable (streamType = key))
  | .noteDisconnect _ _ _ | .noteReconnectAttempt _ _ _ | .mode _ _ | .snapshot _ _ _ =>
    inferInstanceAs (Decidable False)

instance (key : String) : DecidablePred (Downs key)
  | .noteDisconnect _ _ streamType | .noteReconnectAttempt _ _ streamType =>
    inferInstanceAs (Decidable (key ∈ keysOf streamType))
  | .noteStreamBar _ _ | .mode _ _ | .snapshot _ _ _ => inferInstanceAs (Decidable False)

theorem not_bars_of_downs {key : String} {op : Op} (h : Downs key op) : ¬ Bars key op := by
  cases op with
  | noteStreamBar now streamType => exact h.elim
  | _ => exact id

/-- What a call does to a stream, in three cases. -/
theorem observed_step (r : Registry) (op : Op) (key : String) :
    observed (step r op) key =
      if Bars key op then (none, some op.now)
      else if Downs key op then
        (some ((r.entry key).disconnectSince.getD op.now), (r.entry key).lastBar)
      else observed r key := by
  cases op with
  | noteStreamBar now streamType =>
    by_cases hk : key = streamType
    · simp [step, Registry.noteStreamBar, observed, entry_set, Bars, Op.now, hk]
    · simp [step, Registry.noteStreamBar, observed, entry_set, Bars, Downs, hk, Ne.symm hk]
  | noteDisconnect now clocks streamType =>
    rw [if_neg (show ¬ Bars key (.noteDisconnect now clocks streamType) from id)]
    exact (observed_noteDowns now clocks (keysOf streamType) r key).trans (if_congr Iff.rfl rfl rfl)
  | noteReconnectAttempt now clocks streamType =>
    rw [if_neg (show ¬ Bars key (.noteReconnectAttempt now clocks streamType) from id)]
    exact (observed_noteDowns now clocks (keysOf streamType) r key).trans (if_congr Iff.rfl rfl rfl)
  | mode clocks streamType =>
    simpa [step, Registry.mode, Bars, Downs] using
      observed_modeLoop clocks (keysOf streamType) .healthy r key
  | snapshot now clocks streamType =>
    simpa [step, Registry.snapshot, Bars, Downs] using
      observed_snapshot now clocks (keysOf streamType) (⟨.healthy, 0, none⟩, r) key

/-- The stream is down: a disconnect or an attempt, and no bar since. -/
def IsDown (key : String) (ops : List Op) : Prop :=
  Since (fun _ op => Downs key op) (fun _ op => Bars key op) ops

/-- It went down at `t`. -/
def DownFrom (key : String) (ops : List Op) (t : ℚ) : Prop :=
  ∃ before op, Began (fun _ op => Downs key op) (fun _ op => Bars key op) ops before op ∧ op.now = t

/-- The times of the stream's bars. -/
def barTimes (key : String) (ops : List Op) : List ℚ :=
  (ops.filter fun op => Bars key op).map Op.now

/-- What is kept of a stream is what its history says. -/
structure Shows (key : String) (ops : List Op) (r : Registry) : Prop where
  down : (observed r key).1 = none ↔ ¬ IsDown key ops
  since : ∀ t, (observed r key).1 = some t ↔ DownFrom key ops t
  lastBar : (observed r key).2 = (barTimes key ops).getLast?

theorem isDown_concat {key : String} {ops : List Op} {op : Op} :
    IsDown key (ops ++ [op]) ↔ Downs key op ∨ (IsDown key ops ∧ ¬ Bars key op) := since_concat

theorem downFrom_concat {key : String} {ops : List Op} {op : Op} {t : ℚ} :
    DownFrom key (ops ++ [op]) t ↔
      (Downs key op ∧ ¬ IsDown key ops ∧ op.now = t) ∨ (DownFrom key ops t ∧ ¬ Bars key op) := by
  constructor
  · rintro ⟨before, op', hbegan, htime⟩
    rcases began_concat.mp hbegan with ⟨rfl, rfl, hdown, hnot⟩ | ⟨hold, hno⟩
    · exact .inl ⟨hdown, hnot, htime⟩
    · exact .inr ⟨⟨before, op', hold, htime⟩, hno⟩
  · rintro (⟨hdown, hnot, htime⟩ | ⟨⟨before, op', hold, htime⟩, hno⟩)
    · exact ⟨ops, op, began_concat.mpr (.inl ⟨rfl, rfl, hdown, hnot⟩), htime⟩
    · exact ⟨before, op', began_concat.mpr (.inr ⟨hold, hno⟩), htime⟩

theorem DownFrom.isDown {key : String} {ops : List Op} {t : ℚ} (h : DownFrom key ops t) :
    IsDown key ops := by
  obtain ⟨before, op, hbegan, -⟩ := h
  exact hbegan.since

theorem Shows.next {key : String} {ops : List Op} {r : Registry} (h : Shows key ops r) (op : Op) :
    Shows key (ops ++ [op]) (step r op) := by
  have hobserved := observed_step r op key
  by_cases hbar : Bars key op
  · rw [if_pos hbar] at hobserved
    have hnot : ¬ Downs key op := fun hdown => not_bars_of_downs hdown hbar
    refine ⟨?_, fun t => ?_, ?_⟩
    · rw [hobserved, isDown_concat]
      simp [hnot, hbar]
    · rw [hobserved, downFrom_concat]
      simp [hnot, hbar]
    · rw [hobserved]
      simp [barTimes, hbar]
  rw [if_neg hbar] at hobserved
  have hbars : barTimes key (ops ++ [op]) = barTimes key ops := by simp [barTimes, hbar]
  by_cases hdown : Downs key op
  · rw [if_pos hdown] at hobserved
    refine ⟨?_, fun t => ?_, ?_⟩
    · rw [hobserved, isDown_concat]
      simp [hdown]
    · rw [hobserved, downFrom_concat]
      cases hsince : (r.entry key).disconnectSince with
      | none =>
        have hup : ¬ IsDown key ops := h.down.mp hsince
        have hnone : ¬ DownFrom key ops t := fun hfrom => hup hfrom.isDown
        simp [hdown, hup, hnone]
      | some t₀ =>
        have hwas : IsDown key ops := ((h.since t₀).mp hsince).isDown
        rw [← h.since t, observed, hsince]
        simp [hwas, hbar]
    · rw [hobserved, hbars]
      exact h.lastBar
  · rw [if_neg hdown] at hobserved
    refine ⟨?_, fun t => ?_, ?_⟩
    · rw [hobserved, h.down, isDown_concat]
      simp [hdown, hbar]
    · rw [hobserved, h.since, downFrom_concat]
      simp [hdown, hbar]
    · rw [hobserved, hbars]
      exact h.lastBar

theorem shows_run (key : String) (ops : List Op) : Shows key ops (run step new ops) := by
  induction ops using List.reverseRecOn with
  | nil =>
    have hnew : observed new key = (none, none) := by
      unfold observed Registry.entry new
      rw [Dict.get?_tabulate]
      cases (Dict.keyBy id knownStreamTypes).get? key <;> rfl
    refine ⟨iff_of_true (by rw [run_nil, hnew]) not_since_nil, fun t => ?_, by rw [run_nil, hnew]; rfl⟩
    rw [run_nil, hnew]
    refine iff_of_false (by simp) ?_
    rintro ⟨before, op, hbegan, -⟩
    exact not_began_nil hbegan
  | append_singleton ops op ih =>
    rw [run_append, run_cons, run_nil]
    exact ih.next op

/-! ## What a look shows -/

/-- The stream has been down for five minutes or more. -/
def Degraded (ops : List Op) (clocks : Clocks) (key : String) : Prop :=
  ∃ t, DownFrom key ops t ∧ feedReconnectDegradedSeconds ≤ clocks key - t

variable {key : String} {ops : List Op} {r : Registry}

/-- The mode of a refreshed entry, in the words of the history. -/
theorem Shows.mode (h : Shows key ops r) (clocks : Clocks) :
    ((refreshLocked (clocks key) (r.entry key)).mode = .degradedFeed ↔ Degraded ops clocks key) ∧
      ((refreshLocked (clocks key) (r.entry key)).mode = .healthy ↔ ¬ IsDown key ops) := by
  have hdown := h.down
  have hsince := h.since
  unfold observed at hdown hsince
  unfold refreshLocked Degraded
  cases hfrom : (r.entry key).disconnectSince with
  | none =>
    simp only [hfrom, true_iff, reduceCtorEq, false_iff] at hdown hsince
    simp [hdown, hsince]
  | some t =>
    simp only [hfrom, reduceCtorEq, false_iff, not_not, Option.some.injEq] at hdown hsince
    simp only [← hsince, exists_eq_left', hdown]
    by_cases hlong : feedReconnectDegradedSeconds ≤ clocks key - t
    · simp [hlong]
    · simp [hlong]

theorem Shows.congr (h : Shows key ops r) {r' : Registry} (hr : observed r' key = observed r key) :
    Shows key ops r' where
  down := hr ▸ h.down
  since := hr ▸ h.since
  lastBar := hr ▸ h.lastBar

theorem modeLoop_shows (clocks : Clocks) {keys : List String} {worst : FeedStreamMode}
    {r : Registry} (hshows : ∀ key ∈ keys, Shows key ops r) (hworst : worst ≠ .degradedFeed) :
    ((Registry.modeLoop clocks keys worst r).1 = .degradedFeed ↔
        ∃ key ∈ keys, Degraded ops clocks key) ∧
      ((Registry.modeLoop clocks keys worst r).1 = .healthy ↔
        worst = .healthy ∧ ∀ key ∈ keys, ¬ IsDown key ops) := by
  induction keys generalizing worst r with
  | nil => simp [Registry.modeLoop, hworst]
  | cons key keys ih =>
    obtain ⟨hdegraded, hhealthy⟩ := (hshows key List.mem_cons_self).mode clocks
    have hrest : ∀ k ∈ keys, Shows k ops (r.refresh (clocks key) key) := fun k hk =>
      (hshows k (List.mem_cons_of_mem _ hk)).congr (observed_refresh r _ key k)
    unfold Registry.modeLoop
    dsimp only
    simp only [List.mem_cons, exists_eq_or_imp, forall_eq_or_imp, ← hdegraded, ← hhealthy]
    cases hmode : (refreshLocked (clocks key) (r.entry key)).mode with
    | degradedFeed => simp
    | reconnecting => simpa using ih hrest (by simp : FeedStreamMode.reconnecting ≠ .degradedFeed)
    | healthy => simpa using ih hrest hworst

/-- A snapshot over these streams shows their histories. -/
structure SnapshotShows (keys : List String) (ops : List Op) (now : ℚ) (clocks : Clocks)
    (s : FeedStreamHealthSnapshot) : Prop where
  degraded : s.mode = .degradedFeed ↔ ∃ key ∈ keys, Degraded ops clocks key
  healthy : s.mode = .healthy ↔ ∀ key ∈ keys, ¬ IsDown key ops
  longest : ∀ key ∈ keys, ∀ t, DownFrom key ops t → now - t ≤ s.disconnectedSeconds
  attained : s.disconnectedSeconds = 0 ∨
    ∃ key ∈ keys, ∃ t, DownFrom key ops t ∧ s.disconnectedSeconds = now - t
  lastBar : s.lastBarMonotonic = (keys.filterMap fun key => (barTimes key ops).getLast?).min?

theorem min?_concat (xs : List ℚ) (x : ℚ) :
    (xs ++ [x]).min? = some (xs.min?.elim x (min · x)) := by
  cases xs with
  | nil => rfl
  | cons y ys =>
    rw [List.cons_append, List.min?_cons', List.min?_cons', List.foldl_append]
    rfl

/-- One more stream. -/
theorem SnapshotShows.add {keys : List String} {now : ℚ} {clocks : Clocks}
    {s : FeedStreamHealthSnapshot} (hs : SnapshotShows keys ops now clocks s)
    (h : Shows key ops r) :
    SnapshotShows (keys ++ [key]) ops now clocks
      (Registry.addToSnapshot now s (refreshLocked (clocks key) (r.entry key))) := by
  obtain ⟨hdegraded, hhealthy⟩ := h.mode clocks
  obtain ⟨hsince, hbar⟩ := refreshLocked_observed (clocks key) (r.entry key)
  have hkeys (p : String → Prop) : (∃ k ∈ keys ++ [key], p k) ↔ (∃ k ∈ keys, p k) ∨ p key := by
    simp [or_and_right, exists_or]
  have hall (p : String → Prop) : (∀ k ∈ keys ++ [key], p k) ↔ (∀ k ∈ keys, p k) ∧ p key := by
    simp [or_imp, forall_and]
  have hfrom : ∀ t, (r.entry key).disconnectSince = some t ↔ DownFrom key ops t := h.since
  have hlast : (r.entry key).lastBar = (barTimes key ops).getLast? := h.lastBar
  refine ⟨?_, ?_, ?_, ?_, ?_⟩
  · rw [hkeys, ← hs.degraded, ← hdegraded]
    unfold Registry.addToSnapshot
    cases hmode : (refreshLocked (clocks key) (r.entry key)).mode with
    | degradedFeed => simp
    | reconnecting => by_cases hworst : s.mode = .degradedFeed <;> simp [hworst]
    | healthy => simp
  · rw [hall, ← hs.healthy, ← hhealthy]
    unfold Registry.addToSnapshot
    cases hmode : (refreshLocked (clocks key) (r.entry key)).mode with
    | degradedFeed => simp
    | reconnecting => by_cases hworst : s.mode = .degradedFeed <;> simp [hworst]
    | healthy => simp
  · rw [hall]
    unfold Registry.addToSnapshot
    rw [hsince]
    cases hdown : (r.entry key).disconnectSince with
    | none =>
      refine ⟨hs.longest, fun t ht => ?_⟩
      rw [← hfrom, hdown] at ht
      cases ht
    | some since =>
      refine ⟨fun k hk t ht => (hs.longest k hk t ht).trans (le_max_left _ _), fun t ht => ?_⟩
      rw [← hfrom, hdown] at ht
      obtain rfl := Option.some.inj ht
      exact (le_max_right _ _).trans (le_max_right _ _)
  · rw [hkeys]
    unfold Registry.addToSnapshot
    rw [hsince]
    cases hdown : (r.entry key).disconnectSince with
    | none => exact hs.attained.imp_right .inl
    | some since =>
      have hkey : DownFrom key ops since := (hfrom since).mp hdown
      dsimp only
      rcases max_choice s.disconnectedSeconds (max 0 (now - since)) with hmax | hmax
      · rw [hmax]
        exact hs.attained.imp_right .inl
      · rcases max_choice 0 (now - since) with hzero | hlong
        · exact .inl (hmax.trans hzero)
        · exact .inr (.inr ⟨since, hkey, hmax.trans hlong⟩)
  · unfold Registry.addToSnapshot
    rw [hbar, hlast, List.filterMap_append, hs.lastBar]
    cases hnone : (barTimes key ops).getLast? with
    | none => simp [hnone]
    | some bar =>
      have hone : ([key].filterMap fun k => (barTimes k ops).getLast?) = [bar] := by simp [hnone]
      rw [hone, min?_concat]
      cases (keys.filterMap fun k => (barTimes k ops).getLast?).min? <;> rfl

theorem snapshot_shows (now : ℚ) (clocks : Clocks) {keys : List String} {r : Registry}
    (hshows : ∀ key ∈ keys, Shows key ops r) :
    SnapshotShows keys ops now clocks (keys.foldl
      (fun p key =>
        (Registry.addToSnapshot now p.1 (refreshLocked (clocks key) (p.2.entry key)),
          p.2.refresh (clocks key) key)) (⟨.healthy, 0, none⟩, r)).1 := by
  induction keys using List.reverseRecOn with
  | nil => exact ⟨by simp, by simp, by simp, .inl rfl, rfl⟩
  | append_singleton keys key ih =>
    rw [List.foldl_append]
    refine (ih fun k hk => hshows k (List.mem_append_left _ hk)).add ?_
    exact (hshows key (by simp)).congr (observed_snapshot now clocks keys (⟨.healthy, 0, none⟩, r) key)

/-- **The registry shows how long each stream has been down.** After any run of calls, looks
at it included, and whatever the clock reads: a stream is healthy exactly when it has had a
bar since it last went down, degraded exactly when it has been down for five minutes since
the first disconnect or attempt without a bar after it; a look at all streams shows the worst
of the known ones, the longest of their outages and the earliest of their last bars. -/
theorem registry_shows_history (ops : List Op) (streamType : Option String) (now : ℚ)
    (clocks : Clocks) :
    let r := run step new ops
    let keys := keysOf streamType
    ((r.mode clocks streamType).1 = .degradedFeed ↔ ∃ key ∈ keys, Degraded ops clocks key) ∧
      ((r.mode clocks streamType).1 = .healthy ↔ ∀ key ∈ keys, ¬ IsDown key ops) ∧
      ((r.isDegradedFeed clocks streamType).1 = true ↔ ∃ key ∈ keys, Degraded ops clocks key) ∧
      SnapshotShows keys ops now clocks (r.snapshot now clocks streamType).1 := by
  intro r keys
  have hshows : ∀ key ∈ keys, Shows key ops r := fun key _ => shows_run key ops
  obtain ⟨hdegraded, hhealthy⟩ :=
    modeLoop_shows clocks hshows (by simp : FeedStreamMode.healthy ≠ .degradedFeed)
  refine ⟨hdegraded, ?_, ?_, snapshot_shows now clocks hshows⟩
  · exact hhealthy.trans (and_iff_right rfl)
  · exact decide_eq_true_iff.trans hdegraded

end TradingPlatform.Ingestor.FeedStreamHealth
