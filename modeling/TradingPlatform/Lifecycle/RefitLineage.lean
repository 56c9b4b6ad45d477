import TradingPlatform.Lifecycle.HashChain
import TradingPlatform.Lib.Runs
import Mathlib.Data.List.Chain

/-! # Who writes the chain, and who checks it

The runner takes the epoch from its caller and, for a genesis, no parent at all;
the verifier asks for one genesis and for epochs that increase. -/

namespace TradingPlatform.Lifecycle

open TradingPlatform.Lib.Runs

/-- All entries of a leg, oldest first. -/
def readChain (legId : String) (chain : List ChainEntry) : List ChainEntry :=
  chain.filter (·.legId = legId)

def appendChainEntry (entry : ChainEntry) (chain : List ChainEntry) : List ChainEntry :=
  chain ++ [entry]

/-- The loop of `verify_chain`. -/
def verifyFrom : String → Int → List ChainEntry → Bool
  | _, _, [] => true
  | prevLeaf, prevEpoch, entry :: rest =>
    if entry.parentHash ≠ some prevLeaf then false
    else if entry.epoch ≤ prevEpoch then false
    else verifyFrom entry.leafHash entry.epoch rest

def verifyChain (legId : String) (chain : List ChainEntry) : Bool :=
  match readChain legId chain with
  | [] => true
  | first :: rest =>
    if first.parentHash.isSome then false else verifyFrom first.leafHash first.epoch rest

/-- The two calls of `RefitRunner`. -/
inductive RefitCall (Config : Type)
  | promoteGenesis (legId : String) (config : Config) (epoch : Int) (evidenceRef : Option String)
  | recordRefit (legId : String) (newConfig : Config) (epoch : Int) (evidenceRef : String)
  deriving DecidableEq

namespace RefitCall

variable {Config : Type}

def legId : RefitCall Config → String
  | promoteGenesis legId _ _ _ => legId
  | recordRefit legId _ _ _ => legId

def config : RefitCall Config → Config
  | promoteGenesis _ config _ _ => config
  | recordRefit _ newConfig _ _ => newConfig

def epoch : RefitCall Config → Int
  | promoteGenesis _ _ epoch _ => epoch
  | recordRefit _ _ epoch _ => epoch

def isRefit : RefitCall Config → Bool
  | promoteGenesis .. => false
  | recordRefit .. => true

end RefitCall

section Runner
variable {Config : Type} (canonicalConfigHash : Config → String)

/-- Records the first leaf of a leg; the leaf is returned. -/
def promoteGenesis (legId : String) (config : Config) (epoch : Int) (evidenceRef : Option String)
    (chain : List ChainEntry) : String × List ChainEntry :=
  let leaf := canonicalConfigHash config
  (leaf, appendChainEntry
    { legId, epoch, parentHash := none, leafHash := leaf, refitEvidenceRef := evidenceRef } chain)

/-- Records a leaf whose parent is the head of the leg's chain. -/
def recordRefit (legId : String) (newConfig : Config) (epoch : Int) (evidenceRef : String)
    (chain : List ChainEntry) : String × List ChainEntry :=
  let parent := readLatestLeaf legId chain
  let leaf := canonicalConfigHash newConfig
  (leaf, appendChainEntry
    { legId, epoch, parentHash := parent, leafHash := leaf, refitEvidenceRef := some evidenceRef }
    chain)

def refitStep (chain : List ChainEntry) : RefitCall Config → List ChainEntry
  | .promoteGenesis legId config epoch evidenceRef =>
    (promoteGenesis canonicalConfigHash legId config epoch evidenceRef chain).2
  | .recordRefit legId newConfig epoch evidenceRef =>
    (recordRefit canonicalConfigHash legId newConfig epoch evidenceRef chain).2

end Runner

variable {Config : Type} {canonicalConfigHash : Config → String}

/-! ## What the verifier asks for -/

/-- An entry that may come after another: it names it as parent, at a later epoch. -/
def Follows (a b : ChainEntry) : Prop := b.parentHash = some a.leafHash ∧ a.epoch < b.epoch

theorem verifyFrom_iff (first : ChainEntry) (rest : List ChainEntry) :
    verifyFrom first.leafHash first.epoch rest = true ↔ (first :: rest).IsChain Follows := by
  induction rest generalizing first with
  | nil => simp [verifyFrom]
  | cons entry rest ih =>
    rw [List.isChain_cons_cons, ← ih, verifyFrom, Follows]
    by_cases hparent : entry.parentHash = some first.leafHash
    · by_cases hepoch : entry.epoch ≤ first.epoch
      · simp [hparent, hepoch]
      · simp [hparent, hepoch, not_le.mp hepoch]
    · simp [hparent]

theorem verifyChain_iff (legId : String) (chain : List ChainEntry) :
    verifyChain legId chain = true ↔
      (∀ first ∈ (readChain legId chain).head?, first.parentHash = none) ∧
        (readChain legId chain).IsChain Follows := by
  unfold verifyChain
  cases readChain legId chain with
  | nil => simp
  | cons first rest =>
    rw [← verifyFrom_iff]
    cases first.parentHash <;> simp

/-! ## What the runner writes -/

/-- The calls on one leg. -/
def callsOf (legId : String) (calls : List (RefitCall Config)) : List (RefitCall Config) :=
  calls.filter (·.legId = legId)

/-- The entry a call writes. -/
def RefitCall.entry (canonicalConfigHash : Config → String) (chain : List ChainEntry)
    (call : RefitCall Config) : ChainEntry where
  legId := call.legId
  epoch := call.epoch
  parentHash := if call.isRefit then readLatestLeaf call.legId chain else none
  leafHash := canonicalConfigHash call.config
  refitEvidenceRef :=
    match call with
    | .promoteGenesis _ _ _ evidenceRef => evidenceRef
    | .recordRefit _ _ _ evidenceRef => some evidenceRef

theorem refitStep_eq (chain : List ChainEntry) (call : RefitCall Config) :
    refitStep canonicalConfigHash chain call = chain ++ [call.entry canonicalConfigHash chain] := by
  cases call <;> rfl

theorem readChain_step (legId : String) (chain : List ChainEntry) (call : RefitCall Config) :
    readChain legId (refitStep canonicalConfigHash chain call) =
      readChain legId chain ++
        if call.legId = legId then [call.entry canonicalConfigHash chain] else [] := by
  rw [refitStep_eq, readChain, List.filter_append, ← readChain]
  congr 1
  by_cases hleg : call.legId = legId
  · rw [if_pos hleg]
    exact List.filter_cons_of_pos (decide_eq_true hleg)
  · rw [if_neg hleg]
    exact List.filter_cons_of_neg fun hsame => hleg (of_decide_eq_true hsame)

theorem callsOf_concat (legId : String) (calls : List (RefitCall Config))
    (call : RefitCall Config) :
    callsOf legId (calls ++ [call]) =
      callsOf legId calls ++ if call.legId = legId then [call] else [] := by
  rw [callsOf, List.filter_append, ← callsOf]
  congr 1
  by_cases hleg : call.legId = legId <;> simp [hleg]

section Written
variable (canonicalConfigHash) (calls : List (RefitCall Config))

/-- The chain after a run of the runner. -/
abbrev written : List ChainEntry := run (refitStep canonicalConfigHash) [] calls

/-- A leg's entries are its calls, in order. -/
theorem readChain_written (legId : String) :
    (readChain legId (written canonicalConfigHash calls)).map (fun e => (e.epoch, e.leafHash)) =
      (callsOf legId calls).map fun c => (c.epoch, canonicalConfigHash c.config) := by
  induction calls using List.reverseRecOn with
  | nil => rfl
  | append_singleton calls call ih =>
    rw [written, run_append, callsOf_concat, List.map_append, ← ih]
    show (readChain legId (refitStep canonicalConfigHash _ call)).map _ = _
    rw [readChain_step, List.map_append]
    congr 1
    split <;> rfl

/-- The head of a leg's chain is what its last call wrote. -/
theorem readLatestLeaf_written (legId : String) :
    readLatestLeaf legId (written canonicalConfigHash calls) =
      (callsOf legId calls).getLast?.map fun c => canonicalConfigHash c.config := by
  have hlast := congrArg (fun xs => xs.getLast?.map Prod.snd)
    (readChain_written canonicalConfigHash calls legId)
  rw [List.getLast?_map, List.getLast?_map, Option.map_map, Option.map_map] at hlast
  exact hlast

end Written

/-- The next call on a leg: a refit, at a later epoch. -/
def Continues (a b : RefitCall Config) : Prop := b.isRefit = true ∧ a.epoch < b.epoch

instance (a b : RefitCall Config) : Decidable (Continues a b) :=
  inferInstanceAs (Decidable (_ ∧ _))

/-- On each leg, every call but the first is a refit at a later epoch than the one before. -/
def ContinuesLineage (calls : List (RefitCall Config)) : Prop :=
  ∀ legId, (callsOf legId calls).IsChain Continues

/-- An entry written after others follows the last of them exactly when its call
continues the last call. -/
theorem follows_entry_iff {calls : List (RefitCall Config)} {call : RefitCall Config} :
    (∀ last ∈ (readChain call.legId (written canonicalConfigHash calls)).getLast?,
        Follows last (call.entry canonicalConfigHash (written canonicalConfigHash calls))) ↔
      ∀ last ∈ (callsOf call.legId calls).getLast?, Continues last call := by
  have hlast := congrArg List.getLast? (readChain_written canonicalConfigHash calls call.legId)
  have hlatest := readLatestLeaf_written canonicalConfigHash calls call.legId
  rw [List.getLast?_map, List.getLast?_map] at hlast
  cases hcalls : (callsOf call.legId calls).getLast? with
  | none =>
    rw [hcalls, Option.map_none, Option.map_eq_none_iff] at hlast
    simp [hlast]
  | some prior =>
    rw [hcalls, Option.map_some, Option.map_eq_some_iff] at hlast
    obtain ⟨last, hread, heq⟩ := hlast
    obtain ⟨hepoch, hleaf⟩ := Prod.mk.injEq .. ▸ heq
    rw [hcalls, Option.map_some] at hlatest
    rw [hread]
    simp only [Option.mem_some_iff, forall_eq']
    unfold Follows Continues RefitCall.entry
    dsimp only
    rw [hlatest, hepoch, hleaf]
    cases call.isRefit <;> simp

/-- A leg's chain verifies exactly when each call on the leg continues the one before. -/
theorem verifyChain_written (legId : String) (calls : List (RefitCall Config)) :
    verifyChain legId (written canonicalConfigHash calls) = true ↔
      (callsOf legId calls).IsChain Continues := by
  rw [verifyChain_iff]
  induction calls using List.reverseRecOn with
  | nil => simp [written, readChain, callsOf]
  | append_singleton calls call ih =>
    rw [written, run_append]
    show (∀ first ∈ (readChain legId (refitStep canonicalConfigHash _ call)).head?, _) ∧
      (readChain legId (refitStep canonicalConfigHash _ call)).IsChain Follows ↔ _
    rw [readChain_step, callsOf_concat]
    by_cases hleg : call.legId = legId
    case neg => simpa [hleg] using ih
    subst hleg
    rw [if_pos rfl, if_pos rfl, List.isChain_append, List.isChain_append, ← ih]
    simp only [List.isChain_singleton, true_and, List.head?_cons, Option.mem_some_iff, forall_eq']
    rw [follows_entry_iff]
    refine Iff.trans ?_ (and_assoc (a := _)).symm
    refine and_congr_left' ?_
    -- the first entry of a leg never has a parent
    rw [List.head?_append]
    cases hread : readChain call.legId (written canonicalConfigHash calls) with
    | nil =>
      have hnone : readLatestLeaf call.legId (written canonicalConfigHash calls) = none := by
        show (readChain _ _).getLast?.map _ = none
        rw [hread]
        rfl
      simp [RefitCall.entry, hnone]
    | cons first rest => simp

/-- Every leg's chain verifies, and a running configuration is in band exactly when
its hash is the leaf written last for the leg. -/
def ValidLineage (canonicalConfigHash : Config → String) (calls : List (RefitCall Config)) : Prop :=
  ∀ legId,
    verifyChain legId (written canonicalConfigHash calls) = true ∧
      ∀ config,
        (detectOutOfBandChange canonicalConfigHash legId config
            (written canonicalConfigHash calls)).result = false ↔
          (callsOf legId calls).getLast?.map (fun c => canonicalConfigHash c.config) =
            some (canonicalConfigHash config)

theorem detectOutOfBandChange_iff (legId : String) (config : Config) (chain : List ChainEntry) :
    (detectOutOfBandChange canonicalConfigHash legId config chain).result = false ↔
      readLatestLeaf legId chain = some (canonicalConfigHash config) := by
  unfold detectOutOfBandChange
  dsimp only
  split
  · rename_i h
    exact iff_of_true rfl h
  · rename_i h
    exact iff_of_false (by simp) h

/-- **The runner's chains are valid** exactly when, on each leg, every call after the
first is a refit at a later epoch than the call before. -/
theorem validLineage_iff (canonicalConfigHash : Config → String) (calls : List (RefitCall Config)) :
    ValidLineage canonicalConfigHash calls ↔ ContinuesLineage calls := by
  refine forall_congr' fun legId => ?_
  rw [verifyChain_written, and_iff_left]
  intro config
  rw [detectOutOfBandChange_iff, readLatestLeaf_written]

/-- A promotion, and a refit recorded at the same epoch. -/
def sameEpochCalls : List (RefitCall String) :=
  [.promoteGenesis "qqq" "a" 0 none, .recordRefit "qqq" "b" 0 "refit-1"]

theorem same_epoch_breaks_chain : ¬ ValidLineage id sameEpochCalls := by
  intro h
  exact absurd (h "qqq").1 (by decide)

end TradingPlatform.Lifecycle
