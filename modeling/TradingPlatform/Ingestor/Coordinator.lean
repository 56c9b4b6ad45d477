import TradingPlatform.Engine.ColdStartGate
import TradingPlatform.Ingestor.DualBuffer
import TradingPlatform.Lib.Runs

/-! # The coordinator and its global gate

The legs are registered in the coordinator's index, their gate states are kept
by the engine. A refresh ends in one verification for each leg of its matrix;
the lock is free between them, so these are events of their own. -/

namespace TradingPlatform.Ingestor.Coordinator

open TradingPlatform.Lib TradingPlatform.Lib.Runs TradingPlatform.Ingestor.DualBuffer
open TradingPlatform.Engine.ColdStart TradingPlatform.Engine.ColdStart.ColdStartGateEngine

/-! ## The coordinator -/

/-- Symbol and timeframe. -/
abbrev Key := String × String

structure SymbolMatrixState where
  active : MatrixRing (max activeRingCapacity lockedBlockCount)
  shadow : MatrixRing (max (lockedBlockCount + 4) lockedBlockCount)
  strategyIds : List String

/-- Asset classes, leg windows and the watchdog's times are left out. -/
structure DualBufferDataCoordinator where
  matrices : Dict Key SymbolMatrixState := .empty
  legIndex : Dict String Key := .empty
  divergentLatches : Dict String Bool := .empty
  tapeStatusByStrategy : Dict String TapeStatus := .empty
  coldStartGateCleared : Bool := false
  backgroundShadowVerificationCompleted : Bool := false
  coldStartGate : ColdStartGateEngine := {}
  legColdStartPolicies : Dict String ColdStartPolicy := .empty

/-- The clocks when a call looks at a leg, and the stream health of the leg's key. -/
structure Reading where
  now : ℚ
  wall : ℚ
  streamHealth : StreamHealthSnapshot

namespace SymbolMatrixState

def new : SymbolMatrixState := ⟨.new activeRingCapacity, .new (lockedBlockCount + 4), []⟩

/-- The matrix as its comparison sees it. -/
def rings (state : SymbolMatrixState) : MatrixState :=
  { MatrixState.new 0 [] with active := state.active, shadow := state.shadow }

end SymbolMatrixState

namespace DualBufferDataCoordinator

variable (upper : String → String) (c : DualBufferDataCoordinator)

def registerLeg (strategyId symbol timeframe : String) (policy : ColdStartPolicy) :
    DualBufferDataCoordinator :=
  let key := (upper symbol, timeframe)
  let state := (c.matrices.get? key).getD .new
  { c with
    matrices := c.matrices.set key
      { state with strategyIds := state.strategyIds.insert strategyId }
    legIndex := c.legIndex.set strategyId key
    divergentLatches := (c.divergentLatches.setdefault strategyId false).2
    tapeStatusByStrategy :=
      if !c.coldStartGateCleared || (c.tapeStatusByStrategy.get? strategyId).isNone then
        c.tapeStatusByStrategy.set strategyId .unknown
      else c.tapeStatusByStrategy
    legColdStartPolicies := c.legColdStartPolicies.set strategyId policy
    coldStartGate := c.coldStartGate.setPolicy strategyId policy }

def unregisterLeg (strategyId : String) : DualBufferDataCoordinator :=
  let popped := { c with
    legIndex := c.legIndex.erase strategyId
    divergentLatches := c.divergentLatches.erase strategyId
    tapeStatusByStrategy := c.tapeStatusByStrategy.erase strategyId
    legColdStartPolicies := c.legColdStartPolicies.erase strategyId }
  match c.legIndex.get? strategyId with
  | none => popped
  | some key =>
    match c.matrices.get? key with
    | none => popped
    | some state =>
      let strategyIds := state.strategyIds.erase strategyId
      { popped with
        matrices :=
          if strategyIds = [] then c.matrices.erase key
          else c.matrices.set key { state with strategyIds } }

def initializeColdStartState (now : ℚ) : DualBufferDataCoordinator :=
  let strategyIds := c.legIndex.items.map Prod.fst
  { c with
    tapeStatusByStrategy := c.tapeStatusByStrategy.setAll id (fun _ => .unknown) strategyIds
    divergentLatches := c.divergentLatches.setAll id (fun _ => false) strategyIds
    coldStartGateCleared := false
    backgroundShadowVerificationCompleted := false
    coldStartGate := c.coldStartGate.beginColdStart now strategyIds
      (.tabulate id (fun sid => (c.legColdStartPolicies.get? sid).getD .failSafeClose)
        strategyIds) }

/-- Whether the flag was set, and the coordinator. -/
def syncColdStartGateCleared : Bool × DualBufferDataCoordinator :=
  if !c.backgroundShadowVerificationCompleted then (false, c)
  else if c.legIndex.items = [] then (false, c)
  else if !c.coldStartGate.operationalGateCleared then (false, c)
  else (true, { c with coldStartGateCleared := true })

def anyTapeLatchActive : Bool :=
  if !c.coldStartGateCleared then true else c.divergentLatches.items.any Prod.snd

/-- What precedes the sync, and whether it comes to one. A comparison that was skipped does
not get here. -/
def applyVerdictTapeStatus (strategyId : String) (verdict : MatrixAlignmentVerdict)
    (reading : Reading) : Bool × DualBufferDataCoordinator :=
  let status := if verdict.aligned then TapeStatus.verified else .divergent
  let c' := { c with tapeStatusByStrategy := c.tapeStatusByStrategy.set strategyId status }
  match c.legIndex.get? strategyId with
  | none => (false, c')
  | some (_, timeframe) =>
    let divergent := (c.divergentLatches.get? strategyId).getD false
    (true,
      { c' with
        coldStartGate := (c.coldStartGate.evaluateVerification reading.now reading.wall strategyId
          timeframe verdict.aligned verdict.skipReason reading.streamHealth
          c.backgroundShadowVerificationCompleted divergent).2 })

/-- The same of `verify_matrix_alignment`. Without a leg it leaves all as it is. -/
def verifyMatrixAlignment (symbol timeframe : String) (strategyId : Option String)
    (reading : Reading) : Bool × DualBufferDataCoordinator :=
  match c.matrices.get? (upper symbol, timeframe), strategyId with
  | none, _ => (false, c)
  | some _, none => (false, c)
  | some state, some sid =>
    let latch := (c.divergentLatches.get? sid).getD false
    let (verdict, latched) := state.rings.verifyMatrixAlignment latch
    if verdict.skipReason.isSome then (false, c)
    else
      let latches :=
        if latched = latch then c.divergentLatches else c.divergentLatches.set sid latched
      { c with divergentLatches := latches }.applyVerdictTapeStatus sid verdict reading

/-- The verdict on a key, for the time bound. -/
def matrixAligned (key : Key) : Bool :=
  match c.matrices.get? (upper key.1, key.2) with
  | none => false
  | some state =>
    let verdict := (state.rings.verifyMatrixAlignment false).1
    verdict.aligned && verdict.skipReason.isNone

/-- `tick_cold_start_gates` up to its sync. -/
def tickColdStartGates (readinessOk : Bool) (reading : String → Reading) :
    DualBufferDataCoordinator :=
  { c with
    coldStartGate := c.legIndex.items.foldl
      (fun gate leg =>
        (gate.tickTimeBound (reading leg.1).now (reading leg.1).wall leg.1 leg.2.2
          (reading leg.1).streamHealth (c.matrixAligned upper leg.2)
          c.backgroundShadowVerificationCompleted readinessOk).2)
      c.coldStartGate }

/-- `_refresh_shadow_for_state` up to its verifications, with the bars that were fetched. -/
def refreshShadow (key : Key) (bars : List (Bar ℤ ℚ)) (fromBackground : Bool) :
    DualBufferDataCoordinator :=
  let locked := Ring.lastN lockedBlockCount bars
  match c.matrices.get? key with
  | none => c
  | some state =>
    if locked = [] then c
    else
      { c with
        matrices := c.matrices.set key
          { state with
            shadow := state.shadow.replaceBars locked
            active := state.active.upsertBars locked }
        backgroundShadowVerificationCompleted :=
          c.backgroundShadowVerificationCompleted || fromBackground }

def ingestStreamBar (bar : Bar ℤ ℚ) (timeframe : String) : DualBufferDataCoordinator :=
  let key := (upper bar.symbol, timeframe)
  let state := (c.matrices.get? key).getD .new
  { c with matrices := c.matrices.set key { state with active := state.active.upsertBar bar } }

end DualBufferDataCoordinator

/-! ## Runs -/

inductive Event
  | registerLeg (strategyId symbol timeframe : String) (policy : ColdStartPolicy)
  | unregisterLeg (strategyId : String)
  | initializeColdStartState (now : ℚ)
  | verifyMatrixAlignment (symbol timeframe : String) (strategyId : Option String)
      (reading : Reading)
  | tickColdStartGates (readinessOk : Bool) (reading : String → Reading)
  | refreshShadow (key : Key) (bars : List (Bar ℤ ℚ)) (fromBackground : Bool)
  | ingestStreamBar (bar : Bar ℤ ℚ) (timeframe : String)

section Runs
variable (upper : String → String) (c : DualBufferDataCoordinator)

/-- An event up to the sync it ends in, and whether it ends in one. -/
def act : Event → Bool × DualBufferDataCoordinator
  | .registerLeg strategyId symbol timeframe policy =>
    (false, c.registerLeg upper strategyId symbol timeframe policy)
  | .unregisterLeg strategyId => (false, c.unregisterLeg strategyId)
  | .initializeColdStartState now => (false, c.initializeColdStartState now)
  | .verifyMatrixAlignment symbol timeframe strategyId reading =>
    c.verifyMatrixAlignment upper symbol timeframe strategyId reading
  | .tickColdStartGates readinessOk reading =>
    (true, c.tickColdStartGates upper readinessOk reading)
  | .refreshShadow key bars fromBackground => (false, c.refreshShadow key bars fromBackground)
  | .ingestStreamBar bar timeframe => (false, c.ingestStreamBar upper bar timeframe)

def step (e : Event) : DualBufferDataCoordinator :=
  let (syncs, acted) := act upper c e
  if syncs then acted.syncColdStartGateCleared.2 else acted

end Runs

/-! ## What the gate says of the legs -/

/-- A sync sets the flag for the registered legs, and for no others. -/
structure SpeaksForLegs (c : DualBufferDataCoordinator) : Prop where
  registered : c.syncColdStartGateCleared.1 →
    ∀ sid ∈ c.legIndex.items.map Prod.fst, c.coldStartGate.state sid ∉ blockedStates
  verified : c.legIndex.items ≠ [] →
    (∀ sid ∈ c.legIndex.items.map Prod.fst, c.coldStartGate.state sid = .stabilizedVerified) →
    c.backgroundShadowVerificationCompleted → (∀ latch ∈ c.divergentLatches.items, ¬ latch.2) →
    ¬ c.syncColdStartGateCleared.2.anyTapeLatchActive

/-- The engine's states are those of the registered legs, as far as it matters: while no state
is blocked no leg is without one, and while the legs are verified and the gate is closed no
other state is blocked. -/
structure TracksLegs (c : DualBufferDataCoordinator) : Prop where
  seen : c.backgroundShadowVerificationCompleted → c.coldStartGate.stateByStrategy.items ≠ [] →
    (∀ entry ∈ c.coldStartGate.stateByStrategy.items, entry.2 ∉ blockedStates) →
    ∀ sid ∈ c.legIndex.items.map Prod.fst, c.coldStartGate.stateByStrategy.get? sid ≠ none
  gone : c.backgroundShadowVerificationCompleted → ¬ c.coldStartGateCleared →
    c.legIndex.items ≠ [] → (∀ latch ∈ c.divergentLatches.items, ¬ latch.2) →
    (∀ sid ∈ c.legIndex.items.map Prod.fst, c.coldStartGate.state sid = .stabilizedVerified) →
    ∀ entry ∈ c.coldStartGate.stateByStrategy.items,
      entry.1 ∉ c.legIndex.items.map Prod.fst → entry.2 ∉ blockedStates

section Sync
variable {c : DualBufferDataCoordinator}

theorem operationalGateCleared_iff {g : ColdStartGateEngine} :
    g.operationalGateCleared ↔ g.stateByStrategy.items ≠ [] ∧
      ∀ entry ∈ g.stateByStrategy.items, entry.2 ∉ blockedStates := by
  unfold operationalGateCleared
  split_ifs with hempty
  · simp [hempty]
  · simp [hempty, List.all_eq_true]

/-- When the flag is set. -/
theorem sync_fst_iff : c.syncColdStartGateCleared.1 ↔
    c.backgroundShadowVerificationCompleted ∧ c.legIndex.items ≠ [] ∧
      c.coldStartGate.operationalGateCleared := by
  unfold DualBufferDataCoordinator.syncColdStartGateCleared
  by_cases hlegs : c.legIndex.items = []
  · cases c.backgroundShadowVerificationCompleted <;> simp [hlegs]
  · cases c.backgroundShadowVerificationCompleted <;>
      cases c.coldStartGate.operationalGateCleared <;> simp [hlegs]

theorem sync_snd : c.syncColdStartGateCleared.2 =
    { c with coldStartGateCleared :=
        c.coldStartGateCleared || c.syncColdStartGateCleared.1 } := by
  unfold DualBufferDataCoordinator.syncColdStartGateCleared
  split_ifs <;> simp

theorem state_of_get? {g : ColdStartGateEngine} {sid : String} {st : ColdStartGateState}
    (h : g.stateByStrategy.get? sid = some st) : g.state sid = st := by
  rw [state, h, Option.getD_some]

/-- A leg the engine does not know is pending. -/
theorem state_of_unknown {g : ColdStartGateEngine} {sid : String}
    (h : g.stateByStrategy.get? sid = none) : g.state sid ∈ blockedStates := by
  rw [state, h, Option.getD_none]
  decide

theorem state_notMem_of_entries {g : ColdStartGateEngine} {sid : String}
    (hentries : ∀ entry ∈ g.stateByStrategy.items, entry.2 ∉ blockedStates)
    (hseen : g.stateByStrategy.get? sid ≠ none) : g.state sid ∉ blockedStates := by
  obtain ⟨st, hst⟩ := Option.ne_none_iff_exists'.mp hseen
  rw [state_of_get? hst]
  exact hentries _ (g.stateByStrategy.get?_eq_some.mp hst)

theorem entries_of_set (h : c.syncColdStartGateCleared.1) :
    c.coldStartGate.stateByStrategy.items ≠ [] ∧
      ∀ entry ∈ c.coldStartGate.stateByStrategy.items, entry.2 ∉ blockedStates :=
  operationalGateCleared_iff.mp (sync_fst_iff.mp h).2.2

theorem entries_ne_nil_of_verified (hlegs : c.legIndex.items ≠ [])
    (hverified : ∀ sid ∈ c.legIndex.items.map Prod.fst,
      c.coldStartGate.state sid = .stabilizedVerified) :
    c.coldStartGate.stateByStrategy.items ≠ [] := by
  obtain ⟨leg, hleg⟩ := List.exists_mem_of_ne_nil _ hlegs
  intro hempty
  have hunknown : c.coldStartGate.stateByStrategy.get? leg.1 = none :=
    (Dict.get?_eq_none _).mpr (by simp [hempty])
  have hpending := state_of_unknown hunknown
  rw [hverified _ (List.mem_map_of_mem hleg)] at hpending
  exact absurd hpending (by decide)

theorem TracksLegs.of_speaksForLegs (h : SpeaksForLegs c) : TracksLegs c where
  seen hbackground hnonempty hentries sid hsid hunknown := by
    have hlegs : c.legIndex.items ≠ [] := by
      rintro hempty
      rw [hempty] at hsid
      exact absurd hsid List.not_mem_nil
    have hset := sync_fst_iff.mpr
      ⟨hbackground, hlegs, operationalGateCleared_iff.mpr ⟨hnonempty, hentries⟩⟩
    exact h.registered hset sid hsid (state_of_unknown hunknown)
  gone hbackground hclosed hlegs hlatches hverified entry hentry _ := by
    have hopen := h.verified hlegs hverified hbackground hlatches
    have hset : c.syncColdStartGateCleared.1 := by
      by_contra hunset
      rw [sync_snd] at hopen
      simp [DualBufferDataCoordinator.anyTapeLatchActive, hclosed, hunset] at hopen
    exact (entries_of_set hset).2 entry hentry

theorem SpeaksForLegs.of_tracksLegs (h : TracksLegs c) : SpeaksForLegs c where
  registered hset sid hsid := by
    obtain ⟨hnonempty, hentries⟩ := entries_of_set hset
    exact state_notMem_of_entries hentries
      (h.seen (sync_fst_iff.mp hset).1 hnonempty hentries sid hsid)
  verified hlegs hverified hbackground hlatches := by
    have hquiet : c.divergentLatches.items.any Prod.snd = false := by simpa using hlatches
    rw [sync_snd]
    by_cases hclosed : c.coldStartGateCleared
    · simp [DualBufferDataCoordinator.anyTapeLatchActive, hclosed, hquiet]
    · have hentries : ∀ entry ∈ c.coldStartGate.stateByStrategy.items,
          entry.2 ∉ blockedStates := by
        intro entry hentry
        by_cases hin : entry.1 ∈ c.legIndex.items.map Prod.fst
        · have hst := state_of_get? (c.coldStartGate.stateByStrategy.get?_eq_some.mpr hentry)
          rw [← hst, hverified _ hin]
          decide
        · exact h.gone hbackground hclosed hlegs hlatches hverified entry hentry hin
      have hset := sync_fst_iff.mpr ⟨hbackground, hlegs, operationalGateCleared_iff.mpr
        ⟨entries_ne_nil_of_verified hlegs hverified, hentries⟩⟩
      simp [DualBufferDataCoordinator.anyTapeLatchActive, hset, hquiet]

/-- One sync speaks for the legs exactly where the engine tracks them. -/
theorem speaksForLegs_iff : SpeaksForLegs c ↔ TracksLegs c :=
  ⟨.of_speaksForLegs, .of_tracksLegs⟩

end Sync

/-! ## Which states a call moves -/

/-- A call of the engine that forgets no state, and leaves those of other legs. -/
structure Moves (legs : String → Prop) (g g' : ColdStartGateEngine) : Prop where
  others : ∀ sid, ¬ legs sid → g'.stateByStrategy.get? sid = g.stateByStrategy.get? sid
  keeps : ∀ sid, g.stateByStrategy.get? sid ≠ none → g'.stateByStrategy.get? sid ≠ none

namespace Moves
variable {legs : String → Prop} {g g' g'' : ColdStartGateEngine}

theorem refl (g : ColdStartGateEngine) : Moves legs g g := ⟨fun _ _ => rfl, fun _ h => h⟩

theorem trans (h : Moves legs g g') (h' : Moves legs g' g'') : Moves legs g g'' :=
  ⟨fun sid hsid => (h'.others sid hsid).trans (h.others sid hsid),
    fun sid hsid => h'.keeps sid (h.keeps sid hsid)⟩

theorem of_states (h : g'.stateByStrategy = g.stateByStrategy) : Moves legs g g' :=
  ⟨fun _ _ => by rw [h], fun _ hsid => by rwa [h]⟩

variable (g) (now wall : ℚ) {sid : String} (timeframe : String)

theorem transition (hsid : legs sid) (new : ColdStartGateState) (reason : String) (lag : Option ℚ)
    (aligned intact : Bool) :
    Moves legs g (g.transition now sid new reason lag aligned intact).2 := by
  unfold ColdStartGateEngine.transition
  dsimp only
  split
  · exact refl g
  · constructor
    · intro leg hleg
      refine Dict.get?_set_ne _ ?_ new
      rintro rfl
      exact hleg hsid
    · intro leg hleg
      rw [Dict.get?_set]
      split
      · exact Option.some_ne_none new
      · exact hleg

theorem evaluateTimeBound (hsid : legs sid) (ev : Evidence) :
    Moves legs g (g.evaluateTimeBound now sid ev).2 := by
  unfold ColdStartGateEngine.evaluateTimeBound
  dsimp only
  split_ifs <;> first | exact refl g | exact transition g now hsid ..

theorem evaluateVerification (hsid : legs sid) (aligned : Bool) (skip : Option String)
    (health : StreamHealthSnapshot) (background divergent : Bool) :
    Moves legs g (g.evaluateVerification now wall sid timeframe aligned skip health background
      divergent).2 := by
  unfold ColdStartGateEngine.evaluateVerification
  dsimp only
  split_ifs
  · exact refl g
  · exact transition g now hsid ..
  · exact refl g
  · exact evaluateTimeBound g now hsid _

theorem tickTimeBound (hsid : legs sid) (health : StreamHealthSnapshot)
    (aligned background ready : Bool) :
    Moves legs g (g.tickTimeBound now wall sid timeframe health aligned background ready).2 := by
  have hready : Moves legs g (g.setReadiness now ready) := by
    refine of_states ?_
    cases ready <;> rfl
  unfold ColdStartGateEngine.tickTimeBound
  dsimp only
  split_ifs
  · exact hready
  · exact hready.trans (evaluateTimeBound _ now hsid _)

theorem foldl {α : Type*} {call : ColdStartGateEngine → α → ColdStartGateEngine} {xs : List α}
    (h : ∀ g, ∀ x ∈ xs, Moves legs g (call g x)) : Moves legs g (xs.foldl call g) := by
  induction xs generalizing g with
  | nil => exact refl g
  | cons x xs ih =>
    exact (h g x List.mem_cons_self).trans (ih _ fun g y hy => h g y (List.mem_cons_of_mem x hy))

end Moves

/-! ## Tidy runs -/

/-- A leg is registered before the cold start, or again after it; it goes when its state is not
blocked; and legs are looked at once the cold start has begun. -/
def Tidy (c : DualBufferDataCoordinator) : Event → Prop
  | .registerLeg sid .. =>
    c.coldStartGate.stateByStrategy.items = [] ∨ c.coldStartGate.stateByStrategy.get? sid ≠ none
  | .unregisterLeg sid => ∀ st ∈ c.coldStartGate.stateByStrategy.get? sid, st ∉ blockedStates
  | .verifyMatrixAlignment .. => c.coldStartGate.stateByStrategy.items ≠ []
  | .tickColdStartGates .. => c.coldStartGate.stateByStrategy.items ≠ []
  | .initializeColdStartState _ => True
  | .refreshShadow .. => True
  | .ingestStreamBar .. => True

def Registered (c : DualBufferDataCoordinator) (sid : String) : Prop := c.legIndex.get? sid ≠ none

/-- Once the cold start has begun every registered leg has a state, and no other leg's state
is blocked. -/
structure Covered (c : DualBufferDataCoordinator) : Prop where
  seen : c.coldStartGate.stateByStrategy.items = [] ∨
    ∀ sid, Registered c sid → c.coldStartGate.stateByStrategy.get? sid ≠ none
  gone : ∀ sid, ¬ Registered c sid →
    ∀ st ∈ c.coldStartGate.stateByStrategy.get? sid, st ∉ blockedStates

section Covered
variable {c c' : DualBufferDataCoordinator}

theorem mem_keys_iff {sid : String} : sid ∈ c.legIndex.items.map Prod.fst ↔ Registered c sid := by
  rw [Registered, ne_eq, Dict.get?_eq_none, not_not]

theorem Covered.tracksLegs (h : Covered c) : TracksLegs c where
  seen _ hnonempty _ sid hsid := h.seen.resolve_left hnonempty sid (mem_keys_iff.mp hsid)
  gone _ _ _ _ _ entry hentry hout :=
    h.gone entry.1 (mt mem_keys_iff.mpr hout) entry.2 (Dict.get?_eq_some _ |>.mpr hentry)

theorem Covered.congr (h : Covered c) (hlegs : c'.legIndex = c.legIndex)
    (hstates : c'.coldStartGate.stateByStrategy = c.coldStartGate.stateByStrategy) :
    Covered c' := by
  obtain ⟨hseen, hgone⟩ := h
  unfold Registered at hseen hgone
  constructor
  · rw [hstates]
    unfold Registered
    rwa [hlegs]
  · rw [hstates]
    unfold Registered
    rwa [hlegs]

/-- Calls that move registered legs only. -/
theorem Covered.moves (h : Covered c) (hbegun : c.coldStartGate.stateByStrategy.items ≠ [])
    (hlegs : c'.legIndex = c.legIndex)
    (hmoves : Moves (Registered c) c.coldStartGate c'.coldStartGate) : Covered c' := by
  have hsame : ∀ sid, Registered c' sid ↔ Registered c sid := fun sid => by
    rw [Registered, Registered, hlegs]
  constructor
  case seen =>
    exact .inr fun sid hsid =>
      hmoves.keeps sid (h.seen.resolve_left hbegun sid ((hsame sid).mp hsid))
  case gone =>
    intro sid hsid st hst
    rw [hmoves.others sid (mt (hsame sid).mpr hsid)] at hst
    exact h.gone sid (mt (hsame sid).mpr hsid) st hst

theorem unregisterLeg_keeps (sid : String) :
    (c.unregisterLeg sid).legIndex = c.legIndex.erase sid ∧
      (c.unregisterLeg sid).coldStartGate = c.coldStartGate := by
  unfold DualBufferDataCoordinator.unregisterLeg
  dsimp only
  split
  · exact ⟨rfl, rfl⟩
  · split <;> exact ⟨rfl, rfl⟩

theorem refreshShadow_keeps (key : Key) (bars : List (Bar ℤ ℚ)) (background : Bool) :
    (c.refreshShadow key bars background).legIndex = c.legIndex ∧
      (c.refreshShadow key bars background).coldStartGate = c.coldStartGate := by
  unfold DualBufferDataCoordinator.refreshShadow
  dsimp only
  split
  · exact ⟨rfl, rfl⟩
  · split_ifs <;> exact ⟨rfl, rfl⟩

theorem applyVerdictTapeStatus_moves (sid : String) (verdict : MatrixAlignmentVerdict)
    (reading : Reading) :
    (c.applyVerdictTapeStatus sid verdict reading).2.legIndex = c.legIndex ∧
      Moves (Registered c) c.coldStartGate
        (c.applyVerdictTapeStatus sid verdict reading).2.coldStartGate := by
  unfold DualBufferDataCoordinator.applyVerdictTapeStatus
  dsimp only
  split
  · exact ⟨rfl, .refl _⟩
  · rename_i symbol timeframe hkey
    have hregistered : Registered c sid := by
      rw [Registered, hkey]
      exact Option.some_ne_none _
    exact ⟨rfl, Moves.evaluateVerification _ _ _ _ hregistered ..⟩

theorem verifyMatrixAlignment_moves (upper : String → String) (symbol timeframe : String)
    (strategyId : Option String) (reading : Reading) :
    (c.verifyMatrixAlignment upper symbol timeframe strategyId reading).2.legIndex = c.legIndex ∧
      Moves (Registered c) c.coldStartGate
        (c.verifyMatrixAlignment upper symbol timeframe strategyId reading).2.coldStartGate := by
  unfold DualBufferDataCoordinator.verifyMatrixAlignment
  split
  · exact ⟨rfl, .refl _⟩
  · exact ⟨rfl, .refl _⟩
  · dsimp only
    split_ifs
    · exact ⟨rfl, .refl _⟩
    · exact applyVerdictTapeStatus_moves ..
    · exact applyVerdictTapeStatus_moves ..

theorem Covered.registerLeg (upper : String → String) (h : Covered c) {sid : String}
    (hsid : c.coldStartGate.stateByStrategy.items = [] ∨
      c.coldStartGate.stateByStrategy.get? sid ≠ none)
    (symbol timeframe : String) (policy : ColdStartPolicy) :
    Covered (c.registerLeg upper sid symbol timeframe policy) := by
  have hlegs : ∀ leg, Registered (c.registerLeg upper sid symbol timeframe policy) leg ↔
      leg = sid ∨ Registered c leg := by
    intro leg
    simp only [Registered, DualBufferDataCoordinator.registerLeg, Dict.get?_set]
    split_ifs with hleg <;> simp [hleg]
  refine ⟨?_, fun leg hleg => h.gone leg fun hold => hleg ((hlegs leg).mpr (.inr hold))⟩
  rcases hsid with hempty | hknown
  · exact .inl hempty
  · refine h.seen.imp_right fun hseen leg hleg => ?_
    rcases (hlegs leg).mp hleg with rfl | hold
    · exact hknown
    · exact hseen leg hold

theorem Covered.unregisterLeg (h : Covered c) {sid : String}
    (hsid : ∀ st ∈ c.coldStartGate.stateByStrategy.get? sid, st ∉ blockedStates) :
    Covered (c.unregisterLeg sid) := by
  obtain ⟨hindex, hgate⟩ := unregisterLeg_keeps (c := c) sid
  have hlegs : ∀ leg, Registered (c.unregisterLeg sid) leg ↔ leg ≠ sid ∧ Registered c leg := by
    intro leg
    simp only [Registered, hindex, Dict.get?_erase]
    split_ifs with hleg <;> simp [hleg]
  refine ⟨?_, fun leg hleg => ?_⟩
  · rw [hgate]
    exact h.seen.imp_right fun hseen leg hleg => hseen leg ((hlegs leg).mp hleg).2
  · rw [hgate]
    by_cases hleg' : leg = sid
    · rw [hleg']
      exact hsid
    · exact h.gone leg fun hold => hleg ((hlegs leg).mpr ⟨hleg', hold⟩)

theorem Covered.initializeColdStartState (h : Covered c) (now : ℚ) :
    Covered (c.initializeColdStartState now) := by
  have hstates : ∀ leg,
      (c.initializeColdStartState now).coldStartGate.stateByStrategy.get? leg =
        if leg ∈ c.legIndex.items.map Prod.fst then some .pending
        else c.coldStartGate.stateByStrategy.get? leg :=
    fun leg => Dict.get?_setAll_id ..
  refine ⟨.inr fun leg hleg => ?_, fun leg hleg => ?_⟩
  · have hin : leg ∈ c.legIndex.items.map Prod.fst := mem_keys_iff.mpr hleg
    rw [hstates, if_pos hin]
    exact Option.some_ne_none _
  · have hout : leg ∉ c.legIndex.items.map Prod.fst := mt mem_keys_iff.mp hleg
    rw [hstates, if_neg hout]
    exact h.gone leg hleg

theorem Covered.act (upper : String → String) (h : Covered c) {e : Event} (htidy : Tidy c e) :
    Covered (act upper c e).2 := by
  cases e with
  | registerLeg sid symbol timeframe policy =>
    exact h.registerLeg upper htidy symbol timeframe policy
  | unregisterLeg sid => exact h.unregisterLeg htidy
  | initializeColdStartState now => exact h.initializeColdStartState now
  | verifyMatrixAlignment symbol timeframe sid reading =>
    obtain ⟨hlegs, hmoves⟩ :=
      verifyMatrixAlignment_moves (c := c) upper symbol timeframe sid reading
    exact h.moves htidy hlegs hmoves
  | tickColdStartGates ready reading =>
    refine h.moves htidy rfl (Moves.foldl _ fun g leg hleg =>
      Moves.tickTimeBound g _ _ _ ?_ ..)
    exact mem_keys_iff.mp (List.mem_map_of_mem hleg)
  | refreshShadow key bars background =>
    obtain ⟨hlegs, hgate⟩ := refreshShadow_keeps (c := c) key bars background
    exact h.congr hlegs (congrArg _ hgate)
  | ingestStreamBar bar timeframe => exact h.congr rfl rfl

theorem Covered.step (upper : String → String) (h : Covered c) {e : Event} (htidy : Tidy c e) :
    Covered (step upper c e) := by
  have hact := h.act upper htidy
  unfold Coordinator.step
  dsimp only
  split_ifs
  · rw [sync_snd]
    exact hact.congr rfl rfl
  · exact hact

end Covered

theorem covered_start : Covered {} := ⟨.inl rfl, fun _ _ _ hst => by simp at hst⟩

/-! ## The gate along a run -/

section Gate
variable (upper : String → String)

/-- In a run the gate speaks for exactly the registered legs where at every sync the engine
tracks them, as it does in a tidy run. -/
theorem gate_speaks_iff (events : List Event) :
    (Along (step upper) (fun c e => (act upper c e).1 → SpeaksForLegs (act upper c e).2) {} events ↔
      Along (step upper) (fun c e => (act upper c e).1 → TracksLegs (act upper c e).2) {} events) ∧
    (Along (step upper) Tidy {} events →
      Along (step upper) (fun c e => (act upper c e).1 → SpeaksForLegs (act upper c e).2) {}
        events) := by
  constructor
  · exact along_congr (I := fun _ => True) (fun _ _ _ => trivial)
      (fun _ _ _ => imp_congr_right fun _ => speaksForLegs_iff) events trivial
  · intro htidy
    have htracks : ∀ c e, Covered c → Tidy c e →
        (((act upper c e).1 → SpeaksForLegs (act upper c e).2) ↔ True) := fun c e hc he =>
      iff_true_intro fun _ => speaksForLegs_iff.mpr (hc.act upper he).tracksLegs
    exact (along_congr_of (fun c e hc he => hc.step upper he) htracks events covered_start
      htidy).mpr (along_true _ _)

end Gate

/-! ## Three runs -/

def fiveBars : List (Bar ℤ ℚ) :=
  [⟨0, 10, 11, 9, 10, 1, "QQQ"⟩, ⟨900000000000, 10, 11, 9, 10, 1, "QQQ"⟩,
    ⟨1800000000000, 10, 11, 9, 10, 1, "QQQ"⟩, ⟨2700000000000, 10, 11, 9, 10, 1, "QQQ"⟩,
    ⟨3600000000000, 10, 11, 9, 10, 1, "QQQ"⟩]

/-- Ten seconds after the last of the five bars has closed. -/
def freshReading : Reading := ⟨10, 4510, some 3600, some 2700, 1, 1, 5⟩

/-- The background refresh of QQQ, and the verification it ends in. -/
def refreshQqq : List Event :=
  [.refreshShadow ("QQQ", "15Min") fiveBars true,
    .verifyMatrixAlignment "QQQ" "15Min" (some "qqq") freshReading]

def register (sid symbol : String) : Event := .registerLeg sid symbol "15Min" .failSafeClose

theorem gate_speaks_iff_tidy :
    Along (step String.toUpper) (fun c e =>
        (act String.toUpper c e).1 → SpeaksForLegs (act String.toUpper c e).2) {}
      ([register "qqq" "QQQ", register "spy" "SPY", .initializeColdStartState 0] ++ refreshQqq) :=
  (gate_speaks_iff String.toUpper _).2
    ⟨.inl rfl, .inl rfl, trivial, trivial, (by decide +kernel : _ ≠ []), trivial⟩

/-- SPY comes after the cold start, or goes before it is settled. The gate opens over the one
while it is pending, and the other holds the gate closed. -/
theorem gate_misses_legs :
    ¬ Along (step String.toUpper) (fun c e =>
        (act String.toUpper c e).1 → SpeaksForLegs (act String.toUpper c e).2) {}
      ([register "qqq" "QQQ", .initializeColdStartState 0, register "spy" "SPY"] ++ refreshQqq) ∧
    ¬ Along (step String.toUpper) (fun c e =>
        (act String.toUpper c e).1 → SpeaksForLegs (act String.toUpper c e).2) {}
      ([register "qqq" "QQQ", register "spy" "SPY", .initializeColdStartState 0,
        .unregisterLeg "spy"] ++ refreshQqq) := by
  constructor
  · intro h
    obtain ⟨-, -, -, -, hsync, -⟩ := h
    have hspy := (hsync (by decide +kernel)).registered (by decide +kernel) "spy"
      (by decide +kernel)
    exact absurd hspy (by decide +kernel)
  · intro h
    obtain ⟨-, -, -, -, -, hsync, -⟩ := h
    have hopen := (hsync (by decide +kernel)).verified (by decide +kernel) (by decide +kernel)
      (by decide +kernel) (by decide +kernel)
    exact absurd hopen (by decide +kernel)

end TradingPlatform.Ingestor.Coordinator
