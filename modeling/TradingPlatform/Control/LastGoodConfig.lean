import TradingPlatform.Control.ConfigWatcher
import TradingPlatform.Lib.Runs

/-! # The last good configuration

Beside the watcher stands what it held after its last successful fetch, with the
versions this process has written since. A fetch that fails keeps the
configuration, and leaves the maps as far as it had filled them: cleared, and
then assigned from the rows it read. -/

namespace TradingPlatform.Control.Config

open TradingPlatform.Lib TradingPlatform.Lib.Runs

/-- What a successful fetch leaves to be read. -/
structure View where
  config : AppConfig
  strategyUuids : Dict Json.Key Json
  strategyVersions : Dict Json.Key ℤ
  strategyUpdatedAt : Dict Json.Key String
  portfolioUuid : Json

def viewOf (w : Watcher) (config : AppConfig) : View where
  config
  strategyUuids := w.strategyUuids
  strategyVersions := w.strategyVersions
  strategyUpdatedAt := w.strategyUpdatedAt
  portfolioUuid := w.portfolioUuid

/-- The watcher returns the configuration of the view, and answers for every name as it does. -/
structure Shows (w : Watcher) (v : View) : Prop where
  config : w.config = some v.config
  uuids : ∀ name, w.strategyUuids.get? name = v.strategyUuids.get? name
  versions : ∀ name, w.strategyVersions.get? name = v.strategyVersions.get? name
  updatedAt : ∀ name, w.strategyUpdatedAt.get? name = v.strategyUpdatedAt.get? name
  portfolio : w.portfolioUuid = v.portfolioUuid

/-- `recordWrite` on a view. -/
def View.record (name : String) (version : ℤ) (updatedAt : Option String) (v : View) : View :=
  { v with
    strategyVersions := v.strategyVersions.set (.str name) version
    strategyUpdatedAt := updatedAt.elim v.strategyUpdatedAt (v.strategyUpdatedAt.set (.str name)) }

inductive WatchEvent
  | getLatest (now : ℚ) (base : AppConfig) (answer : RemoteAnswer)
  | requestReload
  | applied (name : String) (version : ℤ) (updatedAt : Option String)

/-! ## What the rows assign -/

namespace RowReading

/-- The row ends the loop with an exception. -/
def raises : RowReading → Bool
  | .malformed => true
  | .leg _ _ version _ strategy => version.isNone || strategy.isNone
  | _ => false

def ids : RowReading → List (Json.Key × Json)
  | .leg name id _ _ _ => [(name, id)]
  | _ => []

def versions : RowReading → List (Json.Key × ℤ)
  | .leg name _ (some version) _ _ => [(name, version)]
  | _ => []

def updates : RowReading → List (Json.Key × String)
  | .leg name _ (some _) (some updatedAt) _ => [(name, updatedAt)]
  | _ => []

def portfolios : RowReading → List Json
  | .portfolio id => [id]
  | _ => []

end RowReading

/-- The rows read: up to the first that raises, which is read too. -/
def readUpTo : List RowReading → List RowReading
  | [] => []
  | reading :: rest => if reading.raises then [reading] else reading :: readUpTo rest

/-- The last value given to a name. -/
def lastOf {ν : Type} (name : Json.Key) (assigned : List (Json.Key × ν)) : Option ν :=
  (assigned.reverse.find? (·.1 = name)).map Prod.snd

/-- The rows give every name what the watcher holds for it, and no other. -/
structure Restates (read : List RowReading) (w : Watcher) : Prop where
  uuids : ∀ name, lastOf name (read.flatMap RowReading.ids) = w.strategyUuids.get? name
  versions : ∀ name, lastOf name (read.flatMap RowReading.versions) = w.strategyVersions.get? name
  updatedAt : ∀ name, lastOf name (read.flatMap RowReading.updates) = w.strategyUpdatedAt.get? name
  portfolio : (read.flatMap RowReading.portfolios).getLast?.getD .null = w.portfolioUuid

/-- The assignments of some rows, made in turn. -/
def assign (w : Watcher) (read : List RowReading) : Watcher :=
  { w with
    strategyUuids := w.strategyUuids.setAll Prod.fst Prod.snd (read.flatMap RowReading.ids)
    strategyVersions :=
      w.strategyVersions.setAll Prod.fst Prod.snd (read.flatMap RowReading.versions)
    strategyUpdatedAt :=
      w.strategyUpdatedAt.setAll Prod.fst Prod.snd (read.flatMap RowReading.updates)
    portfolioUuid := (read.flatMap RowReading.portfolios).getLast?.getD w.portfolioUuid }

theorem fetchRow_spec (w : Watcher) (strategies : List StrategyConfig) (reading : RowReading) :
    (fetchRow w strategies reading).1 = assign w [reading] ∧
      (fetchRow w strategies reading).2.2 = reading.raises := by
  cases reading with
  | malformed => exact ⟨rfl, rfl⟩
  | portfolio id => exact ⟨rfl, rfl⟩
  | unknown => exact ⟨rfl, rfl⟩
  | leg name id version updatedAt strategy =>
    cases version with
    | none => exact ⟨rfl, rfl⟩
    | some version => cases updatedAt <;> cases strategy <;> exact ⟨rfl, rfl⟩

theorem assign_cons (w : Watcher) (reading : RowReading) (read : List RowReading) :
    assign w (reading :: read) = assign (assign w [reading]) read := by
  have hlast : ∀ xs ys : List Json, (xs ++ ys).getLast?.getD w.portfolioUuid =
      ys.getLast?.getD (xs.getLast?.getD w.portfolioUuid) := by
    intro xs ys
    rw [List.getLast?_append]
    cases ys.getLast? <;> rfl
  unfold assign
  simp only [List.flatMap_cons, List.flatMap_nil, List.append_nil, hlast]
  simp only [Dict.setAll, List.foldl_append]

/-- The loop makes the assignments of the rows it reads. -/
theorem fetchRows_fst (w : Watcher) (strategies : List StrategyConfig)
    (readings : List RowReading) :
    (fetchRows w strategies readings).1 = assign w (readUpTo readings) := by
  induction readings generalizing w strategies with
  | nil => rfl
  | cons reading rest ih =>
    obtain ⟨hassign, hraises⟩ := fetchRow_spec w strategies reading
    rw [fetchRows, readUpTo]
    cases hrow : fetchRow w strategies reading with
    | mk w' rest' =>
      obtain ⟨strategies', raised⟩ := rest'
      rw [hrow] at hassign hraises
      dsimp only at hassign hraises
      subst hraises
      rw [hassign]
      cases reading.raises with
      | true => rfl
      | false =>
        dsimp only
        rw [ih, if_neg Bool.false_ne_true, ← assign_cons]

/-- After the maps were cleared, a name has the last value it was given. -/
theorem get?_setAll_empty {ν : Type} (name : Json.Key) (assigned : List (Json.Key × ν)) :
    (Dict.empty.setAll Prod.fst Prod.snd assigned).get? name = lastOf name assigned :=
  (Dict.get?_tabulate Prod.fst Prod.snd assigned name).trans
    (congrArg (Option.map Prod.snd) (Dict.get?_keyBy Prod.fst assigned name))

/-- Rows read into cleared maps leave what is in view as it was exactly when they restate it. -/
theorem shows_assign_iff {w : Watcher} {v : View} (h : Shows w v) (read : List RowReading) :
    Shows (assign (clearMaps w) read) v ↔ Restates read w := by
  constructor
  · intro hshows
    refine ⟨fun name => ?_, fun name => ?_, fun name => ?_, ?_⟩
    · exact ((get?_setAll_empty name _).symm.trans (hshows.uuids name)).trans (h.uuids name).symm
    · exact ((get?_setAll_empty name _).symm.trans (hshows.versions name)).trans
        (h.versions name).symm
    · exact ((get?_setAll_empty name _).symm.trans (hshows.updatedAt name)).trans
        (h.updatedAt name).symm
    · exact hshows.portfolio.trans h.portfolio.symm
  · intro hrestates
    refine ⟨h.config, fun name => ?_, fun name => ?_, fun name => ?_, ?_⟩
    · exact ((get?_setAll_empty name _).trans (hrestates.uuids name)).trans (h.uuids name)
    · exact ((get?_setAll_empty name _).trans (hrestates.versions name)).trans (h.versions name)
    · exact ((get?_setAll_empty name _).trans (hrestates.updatedAt name)).trans (h.updatedAt name)
    · exact hrestates.portfolio.trans h.portfolio

/-! ## Runs -/

section Run
variable (env : Env)

/-- A `get_latest` that fetches, and whose fetch takes its error path. -/
def takesErrorPath (now : ℚ) (base : AppConfig) (answer : RemoteAnswer) (w : Watcher) : Prop :=
  due now w = true ∧ ∃ error config, (fetch env base answer w).1 = .failed error config

/-- The watcher, and what it held after its last successful fetch. -/
def watchStep (s : Watcher × Option View) : WatchEvent → Watcher × Option View
  | .getLatest now base answer =>
    (getLatest env now base answer s.1,
      if due now s.1 then
        match fetch env base answer s.1 with
        | (.fetched config, w) => some (viewOf w config)
        | _ => s.2
      else s.2)
  | .requestReload => (s.1.requestReload, s.2)
  | .applied name version updatedAt =>
    (recordWrite name version updatedAt s.1, s.2.map (View.record name version updatedAt))

/-- A failed fetch leaves the last good state whole. -/
def FailureKeepsView (s : Watcher × Option View) : WatchEvent → Prop
  | .getLatest now base answer =>
    takesErrorPath env now base answer s.1 →
      ∀ v ∈ s.2, Shows (watchStep env s (.getLatest now base answer)).1 v
  | _ => True

/-- A fetch that fails after a successful one, and has got rows, has read rows that restate
what the watcher holds. -/
def FailureRestates (s : Watcher × Option View) : WatchEvent → Prop
  | .getLatest now base answer =>
    takesErrorPath env now base answer s.1 → s.2.isSome = true →
      ∀ row rows, answer.strategies = .data (row :: rows) →
        Restates (readUpTo ((row :: rows).map (readRow env base))) s.1
  | _ => True

/-- The watcher shows what is kept beside it. -/
def InView (s : Watcher × Option View) : Prop := ∀ v ∈ s.2, Shows s.1 v

/-- The watcher after the `try` block. -/
theorem fetchRemote_snd (base : AppConfig) (answer : RemoteAnswer) (w : Watcher) :
    (fetchRemote env base answer w).2 =
      match answer.strategies with
      | .data (row :: rows) =>
        assign (clearMaps w) (readUpTo ((row :: rows).map (readRow env base)))
      | _ => w := by
  unfold fetchRemote
  cases answer.strategies with
  | raised => rfl
  | none => rfl
  | data rows =>
    cases rows with
    | nil => rfl
    | cons row rows =>
      have hfst := fetchRows_fst (clearMaps w) [] ((row :: rows).map (readRow env base))
      dsimp only
      cases hloop : fetchRows (clearMaps w) [] ((row :: rows).map (readRow env base)) with
      | mk w' out =>
        obtain ⟨strategies, raised⟩ := out
        rw [hloop] at hfst
        cases raised <;> exact hfst

theorem fetchRemote_config (base : AppConfig) (answer : RemoteAnswer) (w : Watcher) :
    (fetchRemote env base answer w).2.config = w.config := by
  rw [fetchRemote_snd]
  split <;> rfl

variable {env}

/-- Without a client the YAML file is read, and nothing is assigned to the maps. -/
theorem fetch_of_no_client {base : AppConfig} {answer : RemoteAnswer} (h : answer.client = false)
    (w : Watcher) :
    fetch env base answer w =
      ((yamlConfig env base w.runtimeParamOverrides).elim .raised .fetched,
        { w with remoteSourceRequired := false, configFetchDegraded := false }) := by
  unfold fetch
  rw [h, Bool.not_false, if_pos rfl]
  cases yamlConfig env base w.runtimeParamOverrides <;> rfl

/-- With one, an exception is answered with the configuration kept, or else the YAML file's. -/
theorem fetch_of_client {base : AppConfig} {answer : RemoteAnswer} (h : answer.client = true)
    (w : Watcher) :
    fetch env base answer w =
      match fetchRemote env base answer { w with remoteSourceRequired := true } with
      | (.ok config, w') => (.fetched config, { w' with configFetchDegraded := false })
      | (.error error, w') =>
        (.failed error (w'.config.or (yamlConfig env base w.runtimeParamOverrides)),
          { w' with configFetchDegraded := true }) := by
  unfold fetch
  rw [h, Bool.not_true, if_neg Bool.false_ne_true]
  cases fetchRemote env base answer { w with remoteSourceRequired := true } with
  | mk result w' =>
    cases result with
    | ok config => rfl
    | error error =>
      dsimp only
      cases w'.config <;> rfl

/-- A watcher with a configuration, and the error path: it keeps the configuration, and is
otherwise as the `try` block left it. -/
theorem getLatest_of_failed {now : ℚ} {base : AppConfig} {answer : RemoteAnswer} {w : Watcher}
    (h : takesErrorPath env now base answer w) {config : AppConfig}
    (hconfig : w.config = some config) :
    getLatest env now base answer w =
      { (fetchRemote env base answer { w with remoteSourceRequired := true }).2 with
        configFetchDegraded := true
        config := some config
        lastFetch := now
        reloadRequested := false } := by
  obtain ⟨hdue, error, kept, hfailed⟩ := h
  have hkept := fetchRemote_config env base answer { w with remoteSourceRequired := true }
  rw [getLatest, if_pos hdue]
  cases hclient : answer.client with
  | false =>
    rw [fetch_of_no_client hclient] at hfailed
    cases hyaml : yamlConfig env base w.runtimeParamOverrides with
    | none =>
      rw [hyaml] at hfailed
      cases hfailed
    | some config =>
      rw [hyaml] at hfailed
      cases hfailed
  | true =>
    rw [fetch_of_client hclient] at hfailed ⊢
    cases hremote : fetchRemote env base answer { w with remoteSourceRequired := true } with
    | mk result w' =>
      rw [hremote] at hfailed hkept
      replace hkept : w'.config = some config := hkept.trans hconfig
      cases result with
      | ok fetched => cases hfailed
      | error e =>
        dsimp only
        rw [hkept]
        rfl

/-- **One failure** leaves the view whole exactly when the rows it read restate it. -/
theorem shows_getLatest_iff {now : ℚ} {base : AppConfig} {answer : RemoteAnswer} {w : Watcher}
    (h : takesErrorPath env now base answer w) {v : View} (hv : Shows w v) :
    Shows (getLatest env now base answer w) v ↔
      ∀ row rows, answer.strategies = .data (row :: rows) →
        Restates (readUpTo ((row :: rows).map (readRow env base))) w := by
  rw [getLatest_of_failed h hv.config]
  have hsnd := fetchRemote_snd env base answer { w with remoteSourceRequired := true }
  have hmaps : ∀ w' : Watcher, w'.config = some v.config →
      (Shows { w' with configFetchDegraded := true, config := some v.config, lastFetch := now
                       reloadRequested := false } v ↔ Shows w' v) :=
    fun w' hw' => ⟨fun hs => ⟨hw', hs.uuids, hs.versions, hs.updatedAt, hs.portfolio⟩,
      fun hs => ⟨rfl, hs.uuids, hs.versions, hs.updatedAt, hs.portfolio⟩⟩
  have hv' : Shows { w with remoteSourceRequired := true } v :=
    ⟨hv.config, hv.uuids, hv.versions, hv.updatedAt, hv.portfolio⟩
  have hkept := fetchRemote_config env base answer { w with remoteSourceRequired := true }
  refine (hmaps _ (hkept.trans hv.config)).trans ?_
  rw [hsnd]
  cases answer.strategies with
  | raised => exact iff_of_true hv' nofun
  | none => exact iff_of_true hv' nofun
  | data rows =>
    cases rows with
    | nil => exact iff_of_true hv' nofun
    | cons row rows =>
      dsimp only
      rw [shows_assign_iff hv']
      constructor
      · intro hrestates row' rows' heq
        cases heq
        exact ⟨hrestates.uuids, hrestates.versions, hrestates.updatedAt, hrestates.portfolio⟩
      · intro hall
        have hrestates := hall row rows rfl
        exact ⟨hrestates.uuids, hrestates.versions, hrestates.updatedAt, hrestates.portfolio⟩

theorem failureKeepsView_iff (s : Watcher × Option View) (e : WatchEvent) (h : InView s) :
    FailureKeepsView env s e ↔ FailureRestates env s e := by
  cases e with
  | requestReload => exact Iff.rfl
  | applied name version updatedAt => exact Iff.rfl
  | getLatest now base answer =>
    refine forall_congr' fun herror => ?_
    cases hview : s.2 with
    | none => exact iff_of_true nofun nofun
    | some v =>
      have hiff := shows_getLatest_iff herror (h v hview)
      constructor
      · intro hall _
        exact hiff.mp (hall v rfl)
      · intro hrest v' hv'
        cases hv'
        exact hiff.mpr (hrest rfl)

/-- A fetch that raises assigns to no map: it has no client. -/
theorem shows_of_raised {base : AppConfig} {answer : RemoteAnswer} {w w' : Watcher} {v : View}
    (h : fetch env base answer w = (.raised, w')) (hv : Shows w v) : Shows w' v := by
  cases hclient : answer.client with
  | false =>
    rw [fetch_of_no_client hclient] at h
    rw [← (Prod.mk.inj h).2]
    exact ⟨hv.config, hv.uuids, hv.versions, hv.updatedAt, hv.portfolio⟩
  | true =>
    rw [fetch_of_client hclient] at h
    cases hremote : fetchRemote env base answer { w with remoteSourceRequired := true } with
    | mk result w₁ =>
      rw [hremote] at h
      cases result <;> cases h

/-- A step that does not spoil the view in a failure keeps it. -/
theorem inView_step (s : Watcher × Option View) (e : WatchEvent) (h : InView s)
    (hkeeps : FailureKeepsView env s e) : InView (watchStep env s e) := by
  cases e with
  | requestReload =>
    intro v hv
    have hs := h v hv
    exact ⟨hs.config, hs.uuids, hs.versions, hs.updatedAt, hs.portfolio⟩
  | applied name version updatedAt =>
    intro v hv
    obtain ⟨v, hview, rfl⟩ := Option.map_eq_some_iff.mp hv
    have hs := h v hview
    refine ⟨hs.config, hs.uuids, fun n => ?_, fun n => ?_, hs.portfolio⟩
    · show (s.1.strategyVersions.set _ _).get? n = (v.strategyVersions.set _ _).get? n
      rw [Dict.get?_set, Dict.get?_set, hs.versions]
    · cases updatedAt with
      | none => exact hs.updatedAt n
      | some t =>
        show (s.1.strategyUpdatedAt.set _ _).get? n = (v.strategyUpdatedAt.set _ _).get? n
        rw [Dict.get?_set, Dict.get?_set, hs.updatedAt]
  | getLatest now base answer =>
    intro v hv
    dsimp only [watchStep] at hv ⊢
    cases hdue : due now s.1 with
    | false =>
      rw [hdue, if_neg Bool.false_ne_true] at hv
      rw [getLatest, hdue, if_neg Bool.false_ne_true]
      exact h v hv
    | true =>
      rw [hdue, if_pos rfl] at hv
      cases hfetch : fetch env base answer s.1 with
      | mk outcome w =>
        rw [hfetch] at hv
        cases outcome with
        | fetched config =>
          cases hv
          rw [getLatest, hdue, if_pos rfl, hfetch]
          exact ⟨rfl, fun _ => rfl, fun _ => rfl, fun _ => rfl, rfl⟩
        | failed error config =>
          exact hkeeps ⟨hdue, error, config, congrArg Prod.fst hfetch⟩ v hv
        | raised =>
          rw [getLatest, hdue, if_pos rfl, hfetch]
          exact shows_of_raised hfetch (h v hv)

end Run

/-- Along a run of fetches, reloads and this process's own writes, every failure leaves the
last good state whole **exactly when** every fetch that fails once there is such a state has
either got no row, or read rows that restate what the watcher holds. -/
theorem failureKeepsView_run_iff (env : Env) (w : Watcher) (es : List WatchEvent) :
    Along (watchStep env) (FailureKeepsView env) (w, none) es ↔
      Along (watchStep env) (FailureRestates env) (w, none) es :=
  along_congr_while (I := InView) inView_step failureKeepsView_iff es nofun

/-- A registry with one module, and text methods that leave text as it is. -/
def plainEnv : Env where
  upper := id
  lower := id
  strip := id
  repr := fun _ => ""
  parseInt := fun _ => none
  moduleRegistry := ["momentum"]
  acceptsStrategy := fun _ => true
  acceptsConfig := fun _ => true

def plainStrategy : StrategyConfig where
  strategyId := "momentum"
  module := "momentum"
  symbol := "SPY"
  timeframe := .str "1h"
  pollIntervalSeconds := .int 60
  params := .obj []
  enabled := true
  environment := .str "paper"
  assetClass := .str "stock"

def plainConfig : AppConfig where
  environment := .str "paper"
  strategy := plainStrategy
  strategies := [plainStrategy]
  emailFrom := .null
  emailTo := .null

/-- A row of the strategies table, and one that has lost its `id`. -/
def momentumRow : List (String × Json) :=
  [("name", .str "momentum"), ("module", .str "momentum"), ("id", .str "u1"),
    ("version_id", .int 3)]

def rowWithoutId : List (String × Json) :=
  [("name", .str "momentum"), ("module", .str "momentum")]

def loadsMomentum : WatchEvent :=
  .getLatest 100 plainConfig { strategies := .data [.obj momentumRow] }

def findsNoId : WatchEvent :=
  .getLatest 200 plainConfig { strategies := .data [.obj rowWithoutId] }

/-- Version 3 is loaded; a later fetch whose only row has no `id` keeps the configuration, and
the leg has no version any more. -/
theorem failed_fetch_drops_version :
    let before := run (watchStep plainEnv) ({}, none) [loadsMomentum]
    let after := run (watchStep plainEnv) ({}, none) [loadsMomentum, findsNoId]
    before.1.strategyVersionFor "momentum" = some 3 ∧
      after.1.strategyVersionFor "momentum" = none ∧ after.1.config.isSome = true ∧
      ¬ Along (watchStep plainEnv) (FailureKeepsView plainEnv) ({}, none)
        [loadsMomentum, findsNoId] := by
  intro before after
  have hbefore : before.1.strategyVersionFor "momentum" = some 3 := by decide +kernel
  have hafter : after.1.strategyVersionFor "momentum" = none := by decide +kernel
  refine ⟨hbefore, hafter, by decide +kernel, ?_⟩
  intro h
  obtain ⟨-, hfails, -⟩ := h
  have hshows := hfails ⟨by decide +kernel, .other, before.1.config, rfl⟩ _ rfl
  have hversion : after.1.strategyVersionFor "momentum" = some 3 :=
    hshows.versions (.str "momentum")
  rw [hafter] at hversion
  cases hversion

end TradingPlatform.Control.Config
