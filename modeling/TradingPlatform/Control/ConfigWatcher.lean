import TradingPlatform.Lib.Dict
import TradingPlatform.Lib.Json

/-! # The configuration watcher

A fetch reads the strategy rows one by one and assigns to the watcher's maps as
it goes. `load_config`, the module registry and the dataclasses' own checks are
not part of the repository and are parameters; so is what Python's text methods
do. -/

namespace TradingPlatform.Control.Config

open TradingPlatform.Lib

def portfolioName : String := "portfolio"

structure StrategyConfig where
  strategyId : String
  module : String
  symbol : String
  timeframe : Json
  pollIntervalSeconds : Json
  params : Json
  enabled : Bool
  environment : Json
  assetClass : Json

structure AppConfig where
  environment : Json
  strategy : StrategyConfig
  strategies : List StrategyConfig
  emailFrom : Json
  emailTo : Json

/-- Text methods, the registry, and what `dataclasses.replace` accepts. -/
structure Env where
  upper : String → String
  lower : String → String
  strip : String → String
  repr : Json → String
  parseInt : String → Option ℤ
  moduleRegistry : List String
  acceptsStrategy : StrategyConfig → Bool
  acceptsConfig : AppConfig → Bool

section Rows
variable (env : Env)

/-- `str(row.get(key) or "").strip()`. -/
def fieldText (row : List (String × Json)) (key : String) : String :=
  env.strip (((Json.get row key .null).orElse (.str "")).text env.repr)

def resolveStrategyModule (row : List (String × Json)) : Option String :=
  let module := fieldText env row "module"
  let name := fieldText env row "name"
  let symbol := env.lower (fieldText env row "symbol")
  let candidate := "mean_reversion_" ++ symbol
  if module ∈ env.moduleRegistry then some module
  else if name ∈ env.moduleRegistry then some name
  else if module = "mean_reversion" ∧ symbol ≠ "" ∧ candidate ∈ env.moduleRegistry then
    some candidate
  else if "mean_reversion_".toList <+: name.toList ∧ name ∈ env.moduleRegistry then some name
  else none

def inferAssetClass (symbol : String) : String :=
  if '/' ∈ symbol.toList then "crypto"
  else if env.upper symbol ∈ ["BTCUSD", "ETHUSD", "BTC", "ETH"] then "crypto"
  else "stock"

/-- The strategy a row describes; `none` where the dataclass refuses it. -/
def rowToStrategy (row : List (String × Json)) (template : StrategyConfig) :
    Option StrategyConfig :=
  let symbol := ((Json.get row "symbol" .null).orElse (.str template.symbol)).text env.repr
  let module := (resolveStrategyModule env row).getD
    (((Json.get row "module" .null).orElse (.str template.module)).text env.repr)
  let strategy : StrategyConfig :=
    { strategyId := ((Json.get row "name" .null).orElse (.str template.strategyId)).text env.repr
      module
      symbol
      timeframe := Json.get row "timeframe" template.timeframe
      pollIntervalSeconds := Json.get row "poll_interval_seconds" template.pollIntervalSeconds
      params := (Json.get row "params" .null).orElse template.params
      enabled := (Json.get row "enabled" (.bool false)).truthy
      environment := Json.get row "environment" template.environment
      assetClass := (Json.get row "asset_class" .null).orElse (.str (inferAssetClass env symbol)) }
  if env.acceptsStrategy strategy then some strategy else none

def templateForRow (base : AppConfig) (row : List (String × Json)) : StrategyConfig :=
  let symbol := env.upper (((Json.get row "symbol" .null).orElse (.str "")).text env.repr)
  (base.strategies.find? fun strat => env.upper strat.symbol = symbol).getD base.strategy

/-- What the loop makes of a row: it raises at once, it is the portfolio's, its module is
unknown, or it is a leg. A leg without a version, or without a strategy, raises there. -/
inductive RowReading
  | malformed
  | portfolio (id : Json)
  | unknown
  | leg (name : Json.Key) (id : Json) (version : Option ℤ) (updatedAt : Option String)
      (strategy : Option StrategyConfig)

def readRow (base : AppConfig) : Json → RowReading
  | .obj row =>
    let name := Json.get row "name" (.str "")
    let isText (value : Json) (s : String) : Bool := match value with
      | .str t => t = s
      | _ => false
    if isText name portfolioName || isText (Json.get row "module" .null) "portfolio" then
      match row.lookup "id" with
      | none => .malformed
      | some id => .portfolio id
    else
      match resolveStrategyModule env row with
      | none => .unknown
      | some module =>
        match row.lookup "id", name.toKey with
        | some id, some key =>
          let updatedRaw := Json.get row "updated_at" .null
          let row := ("module", .str module) :: row
          .leg key id (((Json.get row "version_id" .null).orElse (.int 0)).toInt env.parseInt)
            (if updatedRaw.isNull then none else some (updatedRaw.text env.repr))
            (rowToStrategy env row (templateForRow env base row))
        | _, _ => .malformed
  | _ => .malformed

end Rows

structure Watcher where
  pollInterval : ℚ := 30
  config : Option AppConfig := none
  lastFetch : ℚ := 0
  strategyUuids : Dict Json.Key Json := .empty
  strategyVersions : Dict Json.Key ℤ := .empty
  strategyUpdatedAt : Dict Json.Key String := .empty
  portfolioUuid : Json := .null
  reloadRequested : Bool := false
  runtimeParamOverrides : Dict String Json := .empty
  remoteSourceRequired : Bool := false
  configFetchDegraded : Bool := false

namespace Watcher

def strategyUuidFor (w : Watcher) (name : String) : Option Json := w.strategyUuids.get? (.str name)

def strategyVersionFor (w : Watcher) (name : String) : Option ℤ :=
  w.strategyVersions.get? (.str name)

def strategyUpdatedAtFor (w : Watcher) (name : String) : Option String :=
  w.strategyUpdatedAt.get? (.str name)

def requestReload (w : Watcher) : Watcher := { w with reloadRequested := true }

end Watcher

/-- A query's response, `None`, or an exception. -/
inductive QueryResult
  | raised
  | none
  | data (rows : List Json)

/-- What the remote answers a fetch: whether there is a client, and the two queries. -/
structure RemoteAnswer where
  client : Bool := true
  strategies : QueryResult
  reporting : QueryResult := .data []

/-- The three texts `_fetch` raises, and any other exception. -/
inductive FetchError
  | runtime (text : String)
  | other
  deriving DecidableEq

section Fetch
variable (env : Env)

/-- `none` where the replaced parameters are refused. -/
def applyRuntimeOverrides (overrides : Dict String Json) (strategies : List StrategyConfig) :
    Option (List StrategyConfig) :=
  strategies.mapM fun strat =>
    match overrides.get? strat.strategyId with
    | none => some strat
    | some params =>
      let replaced := { strat with params }
      if env.acceptsStrategy replaced then some replaced else none

def replaceConfig (config : AppConfig) : Option AppConfig :=
  if env.acceptsConfig config then some config else none

/-- The maps are cleared before the first row. -/
def clearMaps (w : Watcher) : Watcher :=
  { w with
    strategyUuids := .empty
    strategyVersions := .empty
    strategyUpdatedAt := .empty
    portfolioUuid := .null }

/-- One pass of the loop over the rows: the watcher, the strategies so far, and whether it
raised. -/
def fetchRow (w : Watcher) (strategies : List StrategyConfig) :
    RowReading → Watcher × List StrategyConfig × Bool
  | .malformed => (w, strategies, true)
  | .portfolio id => ({ w with portfolioUuid := id }, strategies, false)
  | .unknown => (w, strategies, false)
  | .leg name id version updatedAt strategy =>
    let named := { w with strategyUuids := w.strategyUuids.set name id }
    match version with
    | none => (named, strategies, true)
    | some version =>
      let versioned :=
        { named with
          strategyVersions := named.strategyVersions.set name version
          strategyUpdatedAt :=
            updatedAt.elim named.strategyUpdatedAt (named.strategyUpdatedAt.set name) }
      match strategy with
      | none => (versioned, strategies, true)
      | some strategy => (versioned, strategies ++ [strategy], false)

def fetchRows (w : Watcher) (strategies : List StrategyConfig) :
    List RowReading → Watcher × List StrategyConfig × Bool
  | [] => (w, strategies, false)
  | reading :: rest =>
    match fetchRow w strategies reading with
    | (w', strategies', true) => (w', strategies', true)
    | (w', strategies', false) => fetchRows w' strategies' rest

/-- What follows the rows: the reporting query, the overrides and the new configuration. -/
def assemble (base : AppConfig) (overrides : Dict String Json) (reporting : QueryResult)
    (strategies : List StrategyConfig) : Except FetchError AppConfig :=
  if strategies = [] then .error (.runtime "supabase returned zero trading legs")
  else
    let row : Option Json := match reporting with
      | .raised => none
      | .none => some (.obj [])
      | .data rows => some (rows.headD (.obj []))
    match row with
    | some (.obj fields) =>
      match applyRuntimeOverrides env overrides strategies with
      | some (primary :: rest) =>
        match replaceConfig env
          { base with
            environment := primary.environment.orElse base.environment
            strategy := primary
            strategies := primary :: rest
            emailFrom := (Json.get fields "email_from" .null).orElse base.emailFrom
            emailTo := (Json.get fields "email_to" .null).orElse base.emailTo } with
        | some config => .ok config
        | none => .error .other
      | _ => .error .other
    | _ => .error .other

/-- The `try` block of `_fetch`. -/
def fetchRemote (base : AppConfig) (answer : RemoteAnswer) (w : Watcher) :
    Except FetchError AppConfig × Watcher :=
  match answer.strategies with
  | .raised => (.error .other, w)
  | .none => (.error (.runtime "supabase strategies fetch failed"), w)
  | .data [] => (.error (.runtime "supabase returned zero strategy rows"), w)
  | .data rows =>
    match fetchRows (clearMaps w) [] (rows.map (readRow env base)) with
    | (w', _, true) => (.error .other, w')
    | (w', strategies, false) =>
      (assemble env base w.runtimeParamOverrides answer.reporting strategies, w')

/-- The configuration of the YAML file; `none` where a replacement is refused. -/
def yamlConfig (base : AppConfig) (overrides : Dict String Json) : Option AppConfig :=
  if base.strategies = [] then some base
  else
    match applyRuntimeOverrides env overrides base.strategies with
    | some (primary :: rest) =>
      replaceConfig env { base with strategy := primary, strategies := primary :: rest }
    | _ => none

/-- How a fetch ends: with a new configuration, on its error path, or, in the YAML branch,
with an exception. -/
inductive FetchOutcome
  | fetched (config : AppConfig)
  | failed (error : FetchError) (config : Option AppConfig)
  | raised

def fetch (base : AppConfig) (answer : RemoteAnswer) (w : Watcher) : FetchOutcome × Watcher :=
  if !answer.client then
    let marked := { w with remoteSourceRequired := false, configFetchDegraded := false }
    match yamlConfig env base w.runtimeParamOverrides with
    | some config => (.fetched config, marked)
    | none => (.raised, marked)
  else
    match fetchRemote env base answer { w with remoteSourceRequired := true } with
    | (.ok config, w') => (.fetched config, { w' with configFetchDegraded := false })
    | (.error error, w') =>
      let degraded := { w' with configFetchDegraded := true }
      match w'.config with
      | some config => (.failed error (some config), degraded)
      | none => (.failed error (yamlConfig env base w.runtimeParamOverrides), degraded)

/-- A fetch is due. -/
def due (now : ℚ) (w : Watcher) : Bool :=
  w.config.isNone || decide (w.pollInterval < now - w.lastFetch) || w.reloadRequested

def store (now : ℚ) (config : Option AppConfig) (w : Watcher) : Watcher :=
  match config with
  | some config => { w with config := some config, lastFetch := now, reloadRequested := false }
  | none => w

/-- `get_latest`, at a reading of the monotonic clock. -/
def getLatest (now : ℚ) (base : AppConfig) (answer : RemoteAnswer) (w : Watcher) : Watcher :=
  if due now w then
    match fetch env base answer w with
    | (.fetched config, w') => store now (some config) w'
    | (.failed _ config, w') => store now config w'
    | (.raised, w') => w'
  else w

end Fetch

/-- What an applied write records: the new version, and the time if there is one. -/
def recordWrite (name : String) (version : ℤ) (updatedAt : Option String) (w : Watcher) : Watcher :=
  { w with
    strategyVersions := w.strategyVersions.set (.str name) version
    strategyUpdatedAt := updatedAt.elim w.strategyUpdatedAt (w.strategyUpdatedAt.set (.str name)) }

end TradingPlatform.Control.Config
