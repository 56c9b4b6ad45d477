import TradingPlatform.Lib.Json

/-! # Committing validated parameters

`commit_validated_strategy_parameters` on the contents of the target strategy
file, the live research file and the change log. A replacement of a file takes
effect or raises without effect; the two that restore the files after an
exception are assumed to succeed. Reading a file as text translates its line
ends. What the YAML and JSON writers and readers make of a value, and the
validation of the candidate, are parameters; the log is the records of its CSV
file, the header first. -/

namespace TradingPlatform.Engine.ParameterCommit

open TradingPlatform.Lib

abbrev Payload := List (String × Json)

structure Env where
  upper : String → String
  strip : String → String
  repr : Json → String
  /-- `dict(x)`; `none` where it raises, as everywhere here. -/
  dict : Json → Option Payload
  safeLoad : String → Option Json
  safeDump : Payload → Option String
  loads : String → Option Json
  dumps : Payload → Option String
  dumpsIndented : Json → Option String

/-- The steps at which an exception may be raised from outside. -/
inductive Step
  | readTarget
  | readStaged
  | readStagedResearch
  | readResearch
  | validate
  | readPrevious
  | writeTarget
  | writeResearch
  | writeChangeLog
  | logSystemEvent
  deriving DecidableEq

structure Request where
  targetPath : String
  /-- `target_research_path or research_path`. -/
  liveResearchPath : Option String
  changeLogPath : String
  operatorHash : String
  allowSchemaUpdate : Bool
  stagedStrategy : Option String
  /-- No path is given, or there is no file, or its contents. -/
  stagedResearch : Option (Option String)

/-- Contents of the three files; `none` where there is no file. -/
structure Files where
  target : Option String
  research : Option String
  changeLog : Option (List (List String))

structure ParameterCommitResult where
  committedAt : String
  strategyId : String
  symbol : String
  targetPath : String
  validationTargetPath : Option String
  changeLogPath : String
  operatorHash : String
  previousParams : Payload
  newParams : Payload

def universalNewlines : List Char → List Char
  | [] => []
  | '\r' :: '\n' :: rest => '\n' :: universalNewlines rest
  | '\r' :: rest => '\n' :: universalNewlines rest
  | c :: rest => c :: universalNewlines rest

/-- `Path.read_text`. -/
def readText (contents : String) : String := String.ofList (universalNewlines contents.toList)

/-- `payload[key] = value`. -/
def setField (key : String) (value : Json) : Payload → Payload
  | [] => [(key, value)]
  | (k, v) :: rest => if k = key then (k, value) :: rest else (k, v) :: setField key value rest

section Commit
variable (env : Env)

def readYamlPayload (contents : String) : Option Payload :=
  (env.safeLoad (readText contents)).map fun payload =>
    match payload with
    | .obj fields => fields
    | _ => []

def paramsOf (payload : Payload) : Option Payload :=
  env.dict ((Json.get payload "params" .null).orElse (.obj []))

def normalizeCandidatePayload (staged active : Payload) : Option Payload := do
  let inherit (key : String) (default : Json) : Json :=
    Json.get staged key (Json.get active key default)
  let params ← paramsOf env staged
  let merged := setField "module" (inherit "module" .null) active
  let merged := setField "symbol" (inherit "symbol" .null) merged
  let merged := setField "timeframe" (inherit "timeframe" .null) merged
  let merged := setField "poll_interval_seconds" (inherit "poll_interval_seconds" (.int 900)) merged
  let merged := setField "enabled" (.bool (inherit "enabled" (.bool true)).truthy) merged
  let merged := setField "environment" (inherit "environment" (.str "paper")) merged
  let merged := setField "params" (.obj params) merged
  let strategyId := (Json.get active "strategy_id" .null).orElse
    ((Json.get merged "strategy_id" .null).orElse (.str ""))
  return setField "strategy_id" (.str (strategyId.text env.repr)) merged

/-- What is known when the first file is replaced. -/
structure Prepared where
  candidate : Payload
  /-- `staged_research_payload`, where it is not `None`. -/
  stagedResearch : Option Json
  previousParams : Payload
  newParams : Payload
  previousStrategyText : String
  previousResearchText : Option String

variable (faults : Step → Bool) (req : Request)

/-- The two research payloads of a schema update; only the staged one is used later. -/
def readResearch (files : Files) : Option (Option Json) := do
  if req.allowSchemaUpdate then
    guard (!faults .readStagedResearch)
    let staged ← env.loads (readText (← req.stagedResearch.join))
    guard (!faults .readResearch)
    let _ ← env.loads (readText (← files.research))
    return if staged.isNull then none else some staged
  else return none

/-- Everything before the first replacement. -/
def prepare (files : Files) : Option Prepared := do
  guard (env.strip req.operatorHash ≠ "")
  let staged ← req.stagedStrategy
  let target ← files.target
  guard (!req.allowSchemaUpdate || req.stagedResearch.isSome && req.liveResearchPath.isSome)
  guard (!faults .readTarget)
  let active ← readYamlPayload env target
  guard (!faults .readStaged)
  let candidate ← normalizeCandidatePayload env (← readYamlPayload env staged) active
  let stagedResearch ← readResearch env faults req files
  guard (!faults .validate)
  let previousParams ← paramsOf env active
  let newParams ← paramsOf env candidate
  guard (!faults .readPrevious)
  return {
    candidate
    stagedResearch
    previousParams
    newParams
    previousStrategyText := readText target
    previousResearchText := if req.allowSchemaUpdate then files.research.map readText else none }

/-- The two replacements; `none` where one of them raises. -/
def replaceFiles (p : Prepared) (files : Files) : Option Files := do
  guard (!faults .writeTarget)
  let strategyText ← env.safeDump p.candidate
  match p.stagedResearch with
  | none => return { files with target := some strategyText }
  | some payload =>
    guard (!faults .writeResearch)
    let researchText ← env.dumpsIndented payload
    return { files with target := some strategyText, research := some researchText }

/-- The handler: both previous texts are written back. -/
def restoreFiles (p : Prepared) (files : Files) : Files :=
  { files with
    target := some p.previousStrategyText
    research := if req.allowSchemaUpdate && p.previousResearchText.isSome
      then p.previousResearchText else files.research }

def fieldnames : List String :=
  ["timestamp_utc", "symbol", "strategy_id", "operator_hash", "validation_target_path",
    "previous_params_json", "new_params_json"]

/-- A record as `DictReader` reads it and `DictWriter` writes it: it raises on a column without
a name and on a name it does not know. -/
def rewriteRecord (header record : List String) : Option (List String) :=
  if record.length > header.length ∨ ¬ header ⊆ fieldnames then none
  else
    let named := (header.zip (record ++ List.replicate header.length "")).reverse
    some (fieldnames.map fun name => (named.lookup name).getD "")

/-- The rows of the log, as they are written again. -/
def rewriteRows : Option (List (List String)) → Option (List (List String))
  | some (header :: records) => (records.filter (· ≠ [])).mapM (rewriteRecord header)
  | _ => some []

def symbolOf (p : Prepared) : String :=
  env.upper (((Json.get p.candidate "symbol" .null).orElse (.str "")).text env.repr)

def strategyIdOf (p : Prepared) : String :=
  ((Json.get p.candidate "strategy_id" .null).orElse (.str "")).text env.repr

def validationTargetPath : Option String :=
  if req.allowSchemaUpdate then req.liveResearchPath else none

def changeLogRow (committedAt : String) (p : Prepared) : Option (List String) := do
  let previous ← env.dumps p.previousParams
  let new ← env.dumps p.newParams
  return [committedAt, symbolOf env p, strategyIdOf env p, env.strip req.operatorHash,
    (validationTargetPath req).getD "", previous, new]

def writeChangeLogRow (committedAt : String) (p : Prepared) (log : Option (List (List String))) :
    Option (List (List String)) := do
  let rows ← rewriteRows log
  let row ← changeLogRow env req committedAt p
  guard (!faults .writeChangeLog)
  return fieldnames :: (rows ++ [row])

/-- What the call returns, `none` where it raises, and the files it leaves. -/
def commitValidatedStrategyParameters (committedAt : String) (files : Files) :
    Option ParameterCommitResult × Files :=
  match prepare env faults req files with
  | none => (none, files)
  | some p =>
    match replaceFiles env faults p files with
    | none =>
      -- which of the two raised makes no difference: the handler writes back both
      (none, restoreFiles req p files)
    | some written =>
      match writeChangeLogRow env faults req committedAt p written.changeLog with
      | none => (none, written)
      | some log =>
        let logged := { written with changeLog := some log }
        if faults .logSystemEvent then (none, logged)
        else
          (some {
            committedAt
            strategyId := strategyIdOf env p
            symbol := symbolOf env p
            targetPath := req.targetPath
            validationTargetPath := validationTargetPath req
            changeLogPath := req.changeLogPath
            operatorHash := env.strip req.operatorHash
            previousParams := p.previousParams
            newParams := p.newParams }, logged)

end Commit

end TradingPlatform.Engine.ParameterCommit
