import TradingPlatform.Engine.RiskEscalation

/-! # The degradation manager and its vault

The manager keeps one operational mode and a recovery streak; every mutator
writes the mode through to the governance row. A restart builds a fresh
manager and hydrates it from that row: the mode survives, the streak does not.
`now` is the clock reading a call stamps its state with. -/

namespace TradingPlatform.Engine.Degradation

inductive IntegritySeverity
  | ok
  | warning
  | softBreach
  | hardBreach
  deriving DecidableEq, Repr

/-- The part of the SLO verdict the manager reads. -/
structure DataIntegrityVerdict where
  severity : IntegritySeverity
  reasons : List String := []
  deriving DecidableEq, Repr

inductive OperationalMode
  | normal
  | softDegrade
  | reconDegradedManage
  | hardCriticalDegrade
  deriving DecidableEq, Repr

namespace OperationalMode

def value : OperationalMode → String
  | normal => "NORMAL"
  | softDegrade => "SOFT_DEGRADE"
  | reconDegradedManage => "RECON_DEGRADED_MANAGE"
  | hardCriticalDegrade => "HARD_CRITICAL_DEGRADE"

/-- `OperationalMode(text)`, which raises on any other text. -/
def ofValue? (text : String) : Option OperationalMode :=
  [normal, softDegrade, reconDegradedManage, hardCriticalDegrade].find? (·.value = text)

theorem ofValue?_value (mode : OperationalMode) : ofValue? mode.value = some mode := by
  cases mode <;> rfl

theorem value_of_ofValue? {text : String} {mode : OperationalMode} (h : ofValue? text = some mode) :
    mode.value = text := by
  simpa using List.find?_some h

end OperationalMode

structure DegradationState where
  mode : OperationalMode
  blockNewEntries : Bool
  ignoreModelSignals : Bool
  forceEmergencyFlatten : Bool
  bypassStandardTimers : Bool
  allowExitTracking : Bool
  reason : String
  activatedAt : String
  deriving DecidableEq, Repr

structure PersistedGovernanceState where
  degradationMode : String
  triggerReason : String
  enteredAt : Option String
  flattenLatched : Bool
  recoveryStreak : Nat
  deriving DecidableEq, Repr

structure DegradationManager where
  mode : OperationalMode := .normal
  reason : String := ""
  activatedAt : Option String := none
  recoveryStreak : Nat := 0
  flattenLatched : Bool := false
  hydrated : Bool := false
  deriving DecidableEq, Repr

/-- What the manager pages: entering HARD, and each recovery. -/
inductive DegradationNotice
  | entered (reason : String)
  | recovered (mode : OperationalMode) (reason : String)
  deriving DecidableEq, Repr

/-- A manager over its vault, with the notices it has sent. -/
structure Governed extends DegradationManager where
  vault : Option PersistedGovernanceState := none
  notices : List DegradationNotice := []
  deriving DecidableEq, Repr

def softRecoveryStreak : Nat := 3

def hardRecoveryStreak : Nat := 6

namespace Governed

def persistState (g : Governed) : Governed :=
  { g with
    vault := some
      { degradationMode := g.mode.value
        triggerReason := g.reason
        enteredAt := g.activatedAt
        flattenLatched := g.flattenLatched
        recoveryStreak := g.recoveryStreak }
    hydrated := true }

def notice (g : Governed) (n : DegradationNotice) : Governed :=
  { g with notices := g.notices ++ [n] }

/-- `_build_state` at the manager's own mode and reason. -/
def currentState (g : Governed) (now : String) : DegradationState :=
  let activatedAt := if truthy g.activatedAt then g.activatedAt.getD "" else now
  match g.mode with
  | .softDegrade => ⟨g.mode, true, false, false, false, true, g.reason, activatedAt⟩
  | .reconDegradedManage => ⟨g.mode, true, false, false, false, true, g.reason, activatedAt⟩
  | .hardCriticalDegrade => ⟨g.mode, true, true, true, true, false, g.reason, activatedAt⟩
  | .normal => ⟨.normal, false, false, false, false, true, g.reason, g.activatedAt.getD ""⟩

def hydrateFromVault (g : Governed) : Governed :=
  if g.hydrated then g
  else
    match g.vault with
    | none => { g with hydrated := true }
    | some persisted =>
      { g with
        mode := (OperationalMode.ofValue? persisted.degradationMode).getD .normal
        reason := persisted.triggerReason
        activatedAt := persisted.enteredAt
        flattenLatched := persisted.flattenLatched
        recoveryStreak := 0
        hydrated := true }

/-- A new process: a fresh manager, hydrated from the same vault. -/
def restart (g : Governed) : Governed :=
  hydrateFromVault { vault := g.vault, notices := g.notices }

def resetToNormal (g : Governed) (reason : String) : Governed :=
  let wasDegraded := g.mode ≠ .normal
  let g' := persistState
    { g with
      mode := .normal, reason, activatedAt := none, recoveryStreak := 0, flattenLatched := false }
  if wasDegraded then g'.notice (.recovered .normal reason) else g'

def applySoftDegrade (g : Governed) (reason now : String) : Governed :=
  if g.mode = .hardCriticalDegrade then g
  else if g.mode = .softDegrade then persistState { g with reason, flattenLatched := false }
  else persistState
    { g with
      mode := .softDegrade, reason, flattenLatched := false, activatedAt := some now
      recoveryStreak := 0 }

def applyReconDegradedManage (g : Governed) (reason now : String) : Governed :=
  if g.mode = .hardCriticalDegrade then g
  else persistState
    { g with
      mode := .reconDegradedManage, reason, activatedAt := some now, recoveryStreak := 0
      flattenLatched := false }

def applyHardCriticalDegrade (g : Governed) (reason now : String) : Governed :=
  let entering := g.mode ≠ .hardCriticalDegrade
  let g' := persistState
    { g with
      mode := .hardCriticalDegrade, reason
      activatedAt := if entering then some now else g.activatedAt
      recoveryStreak := 0, flattenLatched := true }
  if entering then g'.notice (.entered reason) else g'

def downgradeHardToSoft (g : Governed) (reason now : String) : Governed :=
  (persistState
    { g with
      mode := .softDegrade, reason, activatedAt := some now, recoveryStreak := 0
      flattenLatched := false }).notice (.recovered .softDegrade reason)

/-- `"|".join(reasons) or default`. -/
def joinedReasons (verdict : DataIntegrityVerdict) (default : String) : String :=
  orDefault (String.intercalate "|" verdict.reasons) default

/-- The streak after a verdict that holds it or, when OK, adds to it. -/
def credited (g : Governed) (verdict : DataIntegrityVerdict) : Governed :=
  if verdict.severity = .ok then { g with recoveryStreak := g.recoveryStreak + 1 } else g

def evaluateFromSlo (g : Governed) (verdict : DataIntegrityVerdict) (now : String) : Governed :=
  if verdict.severity = .hardBreach then
    g.applyHardCriticalDegrade (joinedReasons verdict "hard_slo_breach") now
  else if g.mode = .hardCriticalDegrade then
    if hardRecoveryStreak ≤ (g.credited verdict).recoveryStreak then
      (g.credited verdict).downgradeHardToSoft "hard_critical_recovered_to_soft" now
    else (g.credited verdict).persistState
  else if g.mode = .softDegrade then
    if softRecoveryStreak ≤ (g.credited verdict).recoveryStreak then
      (g.credited verdict).resetToNormal "slo_recovered"
    else (g.credited verdict).persistState
  else if verdict.severity = .softBreach then
    g.applySoftDegrade (joinedReasons verdict "soft_slo_breach") now
  else if g.mode = .reconDegradedManage then g
  else persistState { g with recoveryStreak := 0 }

def consumeFlattenRequest (g : Governed) : Bool × Governed :=
  if g.flattenLatched then (true, persistState { g with flattenLatched := false })
  else (false, g)

/-! ## Modes and streaks -/

section Fields

variable (g : Governed)

@[simp] theorem credited_mode (verdict : DataIntegrityVerdict) :
    (g.credited verdict).mode = g.mode := by
  unfold credited
  split <;> rfl

theorem credited_streak (verdict : DataIntegrityVerdict) :
    (g.credited verdict).recoveryStreak =
      g.recoveryStreak + (decide (verdict.severity = .ok)).toNat := by
  unfold credited
  split
  · rename_i hok
    simp [hok]
  · rename_i hok
    simp [hok]

@[simp] theorem resetToNormal_mode (reason : String) : (g.resetToNormal reason).mode = .normal := by
  unfold resetToNormal
  dsimp only
  split <;> rfl

theorem resetToNormal_streak (reason : String) :
    (g.resetToNormal reason).recoveryStreak = 0 := by
  unfold resetToNormal
  dsimp only
  split <;> rfl

/-- Health is earned again after a restart, whatever the vault holds. -/
theorem restart_streak : g.restart.recoveryStreak = 0 := by
  unfold restart hydrateFromVault
  cases g.vault <;> rfl

/-- Entries are open in NORMAL alone. -/
theorem blockNewEntries_iff (now : String) :
    (g.currentState now).blockNewEntries = false ↔ g.mode = .normal := by
  unfold currentState
  cases hmode : g.mode <;> simp

end Fields

/-- The vault holds the manager's mode. -/
def Synced (g : Governed) : Prop :=
  ∃ persisted, g.vault = some persisted ∧ persisted.degradationMode = g.mode.value

theorem synced_persistState (g : Governed) : Synced g.persistState := ⟨_, rfl, rfl⟩

theorem Synced.notice {g : Governed} (h : Synced g) (n : DegradationNotice) :
    Synced (g.notice n) := h

theorem synced_resetToNormal (g : Governed) (reason : String) :
    Synced (g.resetToNormal reason) := by
  unfold resetToNormal
  dsimp only
  split
  · exact (synced_persistState _).notice _
  · exact synced_persistState _

theorem synced_applyHardCriticalDegrade (g : Governed) (reason now : String) :
    Synced (g.applyHardCriticalDegrade reason now) := by
  unfold applyHardCriticalDegrade
  dsimp only
  split
  · exact (synced_persistState _).notice _
  · exact synced_persistState _

theorem Synced.applySoftDegrade {g : Governed} (h : Synced g) (reason now : String) :
    Synced (g.applySoftDegrade reason now) := by
  unfold Governed.applySoftDegrade
  split
  · exact h
  split
  · exact synced_persistState _
  · exact synced_persistState _

theorem Synced.applyReconDegradedManage {g : Governed} (h : Synced g) (reason now : String) :
    Synced (g.applyReconDegradedManage reason now) := by
  unfold Governed.applyReconDegradedManage
  split
  · exact h
  · exact synced_persistState _

theorem Synced.evaluateFromSlo {g : Governed} (h : Synced g) (verdict : DataIntegrityVerdict)
    (now : String) : Synced (g.evaluateFromSlo verdict now) := by
  unfold Governed.evaluateFromSlo
  split
  · exact synced_applyHardCriticalDegrade _ _ _
  split
  · split
    · exact (synced_persistState _).notice _
    · exact synced_persistState _
  split
  · split
    · exact synced_resetToNormal _ _
    · exact synced_persistState _
  split
  · exact h.applySoftDegrade _ _
  split
  · exact h
  · exact synced_persistState _

theorem Synced.consumeFlattenRequest {g : Governed} (h : Synced g) :
    Synced g.consumeFlattenRequest.2 := by
  unfold Governed.consumeFlattenRequest
  split
  · exact synced_persistState _
  · exact h

/-- A restart keeps a synced mode. -/
theorem Synced.restart_mode {g : Governed} (h : Synced g) : g.restart.mode = g.mode := by
  obtain ⟨persisted, hvault, hmode⟩ := h
  simp [Governed.restart, hydrateFromVault, hvault, hmode, OperationalMode.ofValue?_value]

theorem Synced.restart {g : Governed} (h : Synced g) : Synced g.restart := by
  obtain ⟨persisted, hvault, hmode⟩ := id h
  refine ⟨persisted, ?_, ?_⟩
  · simp [Governed.restart, hydrateFromVault, hvault]
  · rw [h.restart_mode, hmode]

/-- A restart takes no degrade from anywhere but the vault. -/
theorem synced_restart {g : Governed} (h : g.restart.mode ≠ .normal) : Synced g.restart := by
  cases hvault : g.vault with
  | none => exact absurd (by simp [Governed.restart, hydrateFromVault, hvault]) h
  | some persisted =>
    cases hmode : OperationalMode.ofValue? persisted.degradationMode with
    | none => exact absurd (by simp [Governed.restart, hydrateFromVault, hvault, hmode]) h
    | some mode =>
      refine ⟨persisted, by simp [Governed.restart, hydrateFromVault, hvault], ?_⟩
      simp [Governed.restart, hydrateFromVault, hvault, hmode,
        OperationalMode.value_of_ofValue? hmode]

end Governed

end TradingPlatform.Engine.Degradation
