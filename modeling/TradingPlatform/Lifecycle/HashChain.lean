import TradingPlatform.Engine.RiskEscalation

/-! # The config hash checks

A running configuration is compared with the hash pinned at promotion
(`assertRunningHash`) and with the newest leaf of the leg's refit chain
(`detectOutOfBandChange`). A difference asks the engine for ENTRY_GATE_HALT
and is reported; the running configuration is never adopted. The canonical
hash is a parameter, so everything here holds of any hash. -/

namespace TradingPlatform.Lifecycle

open TradingPlatform.Engine

variable {Config : Type} (canonicalConfigHash : Config → String)

structure HashMismatchReport where
  kind : String := "config_hash_mismatch"
  legId : String
  phase : String
  pinnedHash : String
  runningHash : String
  action : String := "SAFE_MODE"
  adopted : Bool := false
  deriving DecidableEq, Repr

def assertRunningHash (runningConfig : Config) (pinnedHash legId phase : String) :
    CheckOutcome Bool HashMismatchReport :=
  let runningHash := canonicalConfigHash runningConfig
  if runningHash = pinnedHash then { result := true }
  else
    { result := false
      transition := some
        { newLevel := .entryGateHalt, strategyId := some legId
          commandedBy := "config_hash_mismatch_" ++ phase }
      report := some { legId, phase, pinnedHash, runningHash } }

/-- A row of `config_hash_chain`, in insertion order in the table. -/
structure ChainEntry where
  legId : String
  epoch : Int
  parentHash : Option String
  leafHash : String
  refitEvidenceRef : Option String
  deriving DecidableEq, Repr

/-- `WHERE leg_id = ? ORDER BY id DESC LIMIT 1`. -/
def readLatestLeaf (legId : String) (chain : List ChainEntry) : Option String :=
  ((chain.filter (·.legId = legId)).getLast?).map (·.leafHash)

structure OutOfBandReport where
  kind : String := "config_chain_out_of_band"
  legId : String
  runningHash : String
  chainHead : Option String
  action : String := "SAFE_MODE"
  adopted : Bool := false
  deriving DecidableEq, Repr

def detectOutOfBandChange (legId : String) (runningConfig : Config) (chain : List ChainEntry) :
    CheckOutcome Bool OutOfBandReport :=
  let runningHash := canonicalConfigHash runningConfig
  let latest := readLatestLeaf legId chain
  if latest = some runningHash then { result := false }
  else
    { result := true
      transition := some
        { newLevel := .entryGateHalt, strategyId := some legId
          commandedBy := "config_chain_out_of_band" }
      report := some { legId, runningHash, chainHead := latest } }

/-- A mismatch asks for ENTRY_GATE_HALT; a match asks for nothing. -/
theorem assertRunningHash_transition (runningConfig : Config) (pinnedHash legId phase : String) :
    ((assertRunningHash canonicalConfigHash runningConfig pinnedHash legId phase).transition.map
      (·.newLevel)) =
    if (assertRunningHash canonicalConfigHash runningConfig pinnedHash legId phase).result then none
    else some .entryGateHalt := by
  by_cases h : canonicalConfigHash runningConfig = pinnedHash
  · simp only [assertRunningHash, if_pos h]
    rfl
  · simp only [assertRunningHash, if_neg h]
    rfl

theorem detectOutOfBandChange_transition (legId : String) (runningConfig : Config)
    (chain : List ChainEntry) :
    ((detectOutOfBandChange canonicalConfigHash legId runningConfig chain).transition.map
      (·.newLevel)) =
    if (detectOutOfBandChange canonicalConfigHash legId runningConfig chain).result
    then some .entryGateHalt else none := by
  by_cases h : readLatestLeaf legId chain = some (canonicalConfigHash runningConfig)
  · simp only [detectOutOfBandChange, if_pos h]
    rfl
  · simp only [detectOutOfBandChange, if_neg h]
    rfl

theorem assertRunningHash_signed {runningConfig : Config} {pinnedHash legId phase : String}
    {t : Transition}
    (h : (assertRunningHash canonicalConfigHash runningConfig pinnedHash legId phase).transition =
      some t) : t.commandedBy = "config_hash_mismatch_" ++ phase := by
  by_cases hmatch : canonicalConfigHash runningConfig = pinnedHash
  · simp only [assertRunningHash, if_pos hmatch] at h
    cases h
  · simp only [assertRunningHash, if_neg hmatch] at h
    cases h
    rfl

theorem detectOutOfBandChange_signed {legId : String} {runningConfig : Config}
    {chain : List ChainEntry} {t : Transition}
    (h : (detectOutOfBandChange canonicalConfigHash legId runningConfig chain).transition =
      some t) : t.commandedBy = "config_chain_out_of_band" := by
  by_cases hhead : readLatestLeaf legId chain = some (canonicalConfigHash runningConfig)
  · simp only [detectOutOfBandChange, if_pos hhead] at h
    cases h
  · simp only [detectOutOfBandChange, if_neg hhead] at h
    cases h
    rfl

end TradingPlatform.Lifecycle
