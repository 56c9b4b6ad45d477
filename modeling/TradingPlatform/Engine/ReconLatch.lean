import TradingPlatform.Engine.StagedRecovery

/-! # How long a reconciliation degrade holds

RECON_DEGRADED_MANAGE has no recovery of its own: no verdict counts towards
leaving it. But SOFT and HARD replace it and recover by streak, so a run that
passes through either can end in NORMAL with no reconciliation reset. `owed`
counts, from the events alone, the OK verdicts that are left until it does. -/

namespace TradingPlatform.Engine.Degradation.ReconLatch

open TradingPlatform.Lib.Runs Governed StagedRecovery

/-- Entries are blocked, and the manager is not NORMAL. -/
def Blocked (g : Governed) : Prop :=
  g.mode ≠ .normal ∧ ∀ now, (g.currentState now).blockNewEntries = true

theorem blocked_iff (g : Governed) : Blocked g ↔ g.mode ≠ .normal := by
  refine ⟨fun h => h.1, fun h => ⟨h, fun now => ?_⟩⟩
  have hopen := (blockNewEntries_iff g now).not.mpr h
  exact Bool.eq_true_of_not_eq_false hopen

/-- The OK verdicts left until NORMAL; `none` while the reconciliation degrade
holds. Only a SOFT or a HARD engagement starts the count, and a restart
forgets what was paid since the mode was entered. -/
def owed : Option Nat → Event → Option Nat
  | left, .evaluateFromSlo verdict _ =>
    match verdict.severity with
    | .hardBreach => some (hardRecoveryStreak + softRecoveryStreak)
    | .softBreach => some (left.getD softRecoveryStreak)
    | .warning => left
    | .ok => left.map (· - 1)
  | left, .applySoftDegrade _ _ => some (left.getD softRecoveryStreak)
  | left, .applyReconDegradedManage _ _ => left.filter (softRecoveryStreak < ·)
  | _, .applyHardCriticalDegrade _ _ => some (hardRecoveryStreak + softRecoveryStreak)
  | left, .restart =>
    left.map fun n =>
      if n ≤ softRecoveryStreak then softRecoveryStreak else hardRecoveryStreak + softRecoveryStreak
  | left, _ => left

/-- What is owed right after `apply_recon_degraded_manage`, which HARD ignores. -/
def owedAt (g : Governed) : Option Nat :=
  if g.mode = .hardCriticalDegrade then some (toNormal g) else none

/-! ## The count follows the manager -/

/-- The count is right for a manager that has not recovered. -/
def Owes (g : Governed) : Option Nat → Prop
  | none => g.mode = .reconDegradedManage
  | some n => OnLadder g ∧ toNormal g = n

theorem Owes.soft {g : Governed} (hmode : g.mode = .softDegrade) (hstreak : g.recoveryStreak = 0) :
    Owes g (some 3) :=
  ⟨⟨.inr hmode, shortStreak_of_zero hstreak⟩, by rw [toNormal_soft hmode, hstreak]⟩

theorem Owes.hard {g : Governed} (hmode : g.mode = .hardCriticalDegrade)
    (hstreak : g.recoveryStreak = 0) : Owes g (some 9) :=
  ⟨⟨.inl hmode, shortStreak_of_zero hstreak⟩, by rw [toNormal_hard hmode, hstreak]⟩

theorem Owes.not_normal {g : Governed} {left : Option Nat} (h : Owes g left) :
    g.mode ≠ .normal ∧ left ≠ some 0 := by
  cases left with
  | none =>
    have hmode : g.mode = .reconDegradedManage := h
    exact ⟨by rw [hmode]; decide, by simp⟩
  | some n =>
    obtain ⟨hladder, hn⟩ := h
    have hpos := toNormal_pos hladder
    refine ⟨?_, by simp only [ne_eq, Option.some.injEq]; omega⟩
    rcases hladder.1 with hmode | hmode <;> rw [hmode] <;> decide

theorem owed_holds {n : Nat} {e : Event} (he : holds e = true) :
    owed (some n) e = some (n - (isOk e).toNat) := by
  cases e with
  | evaluateFromSlo verdict now =>
    cases hsev : verdict.severity with
    | hardBreach => simp [holds, hsev] at he
    | _ => simp [owed, isOk, hsev]
  | applySoftDegrade reason now => simp [owed, isOk]
  | consumeFlattenRequest => simp [owed, isOk]
  | _ => cases he

/-- On the ladder such an event pays exactly its own OK, and the last one is
paid by recovering. -/
theorem paid_step {g : Governed} {e : Event} (hsynced : Synced g) (h : OnLadder g)
    (he : holds e = true) :
    ((step g e).mode = .normal ∧ toNormal g = (isOk e).toNat) ∨
      (OnLadder (step g e) ∧ toNormal (step g e) + (isOk e).toNat = toNormal g) := by
  have hreset : isReset e = false := by cases e <;> first | rfl | cases he
  have hge := ladder_step hsynced hreset
  rcases ladder_falls h he with hmode | ⟨hladder, hle⟩
  · rw [toNormal_normal hmode] at hge
    have hpos := toNormal_pos h
    have hone := Bool.toNat_le (isOk e)
    exact .inl ⟨hmode, by omega⟩
  · exact .inr ⟨hladder, by omega⟩

theorem owes_engaged {g : Governed} {e : Event} (he : engagesHard e = true) :
    Owes (step g e) (some 9) := by
  cases e with
  | evaluateFromSlo verdict now =>
    have hbreach : verdict.severity = .hardBreach := of_decide_eq_true he
    obtain ⟨hmode, hstreak⟩ := applyHard_spec g (joinedReasons verdict "hard_slo_breach") now
    rw [step, evaluate_hardBreach g verdict now hbreach]
    exact .hard hmode hstreak
  | applyHardCriticalDegrade reason now =>
    obtain ⟨hmode, hstreak⟩ := applyHard_spec g reason now
    exact .hard hmode hstreak
  | _ => cases he

theorem owed_engaged {left : Option Nat} {e : Event} (he : engagesHard e = true) :
    owed left e = some 9 := by
  cases e with
  | evaluateFromSlo verdict now =>
    have hbreach : verdict.severity = .hardBreach := of_decide_eq_true he
    simp [owed, hbreach, hardRecoveryStreak, softRecoveryStreak]
  | applyHardCriticalDegrade reason now => rfl
  | _ => cases he

/-- A verdict on the reconciliation degrade: only a breach starts the count. -/
theorem owes_evaluate_recon {g : Governed} (verdict : DataIntegrityVerdict) (now : String)
    (hmode : g.mode = .reconDegradedManage) (h : verdict.severity ≠ .hardBreach) :
    Owes (g.evaluateFromSlo verdict now) (owed none (.evaluateFromSlo verdict now)) := by
  have hhard : g.mode ≠ .hardCriticalDegrade := by rw [hmode]; decide
  have hsoft : g.mode ≠ .softDegrade := by rw [hmode]; decide
  unfold evaluateFromSlo
  rw [if_neg h, if_neg hhard, if_neg hsoft]
  split
  · rename_i hbreach
    simp only [owed, hbreach, Option.getD_none]
    rcases applySoft_spec g (joinedReasons verdict "soft_slo_breach") now with
      ⟨hmode', _⟩ | ⟨hmode', _⟩ | ⟨_, hmode', hstreak⟩
    · exact absurd hmode' hhard
    · exact absurd hmode' hsoft
    · exact .soft hmode' hstreak
  · rename_i hcalm
    cases hsev : verdict.severity with
    | hardBreach => exact absurd hsev h
    | softBreach => exact absurd hsev hcalm
    | warning =>
      simp only [owed, hsev]
      exact hmode
    | ok =>
      simp only [owed, hsev]
      exact hmode

/-- From the reconciliation degrade, every event leaves the count right. -/
theorem owes_recon {g : Governed} {e : Event} (hsynced : Synced g)
    (hmode : g.mode = .reconDegradedManage) (he : isReset e = false) :
    Owes (step g e) (owed none e) := by
  cases e with
  | evaluateFromSlo verdict now =>
    by_cases hbreach : verdict.severity = .hardBreach
    · have hengages : engagesHard (.evaluateFromSlo verdict now) = true := decide_eq_true hbreach
      rw [owed_engaged hengages]
      exact owes_engaged hengages
    · exact owes_evaluate_recon verdict now hmode hbreach
  | applySoftDegrade reason now =>
    rcases applySoft_spec g reason now with ⟨hmode', _⟩ | ⟨hmode', _⟩ | ⟨_, hmode', hstreak⟩
    · rw [hmode] at hmode'; cases hmode'
    · rw [hmode] at hmode'; cases hmode'
    · exact .soft hmode' hstreak
  | applyReconDegradedManage reason now =>
    rcases applyRecon_spec g reason now with ⟨hmode', _⟩ | ⟨_, hmode', _⟩
    · rw [hmode] at hmode'; cases hmode'
    · exact hmode'
  | applyHardCriticalDegrade reason now => exact owes_engaged rfl
  | consumeFlattenRequest => exact (consume_spec g).1.trans hmode
  | restart => exact hsynced.restart_mode.trans hmode
  | resetToNormal reason => cases he

/-- From the ladder, a restart or another reconciliation degrade leaves it right too. -/
theorem owes_restart {g : Governed} {n : Nat} (hsynced : Synced g) (h : Owes g (some n)) :
    Owes g.restart (owed (some n) .restart) := by
  obtain ⟨⟨hmode, hshort⟩, rfl⟩ := h
  have hmode' := hsynced.restart_mode
  rcases hmode with hmode | hmode
  · have hfar : ¬ toNormal g ≤ softRecoveryStreak := by
      rw [ShortStreak, hmode] at hshort
      have hshort : g.recoveryStreak < 6 := hshort
      rw [toNormal_hard hmode, softRecoveryStreak]
      omega
    simp only [owed, Option.map_some, if_neg hfar]
    exact .hard (hmode'.trans hmode) (restart_streak g)
  · have hnear : toNormal g ≤ softRecoveryStreak := by
      rw [toNormal_soft hmode, softRecoveryStreak]
      omega
    simp only [owed, Option.map_some, if_pos hnear]
    exact .soft (hmode'.trans hmode) (restart_streak g)

theorem owes_again {g : Governed} {n : Nat} (reason now : String) (h : Owes g (some n)) :
    Owes (g.applyReconDegradedManage reason now)
      (owed (some n) (.applyReconDegradedManage reason now)) := by
  obtain ⟨⟨hmode, hshort⟩, rfl⟩ := h
  rcases applyRecon_spec g reason now with ⟨hhard, hsame⟩ | ⟨hhard, hmode', _⟩
  · have hfar : softRecoveryStreak < toNormal g := by
      rw [ShortStreak, hhard] at hshort
      have hshort : g.recoveryStreak < 6 := hshort
      rw [toNormal_hard hhard, softRecoveryStreak]
      omega
    rw [hsame, owed, Option.filter_some, if_pos (decide_eq_true hfar)]
    exact ⟨⟨hmode, hshort⟩, rfl⟩
  · have hnear : ¬ softRecoveryStreak < toNormal g := by
      rw [toNormal_soft (hmode.resolve_left hhard), softRecoveryStreak]
      omega
    rw [owed, Option.filter_some, if_neg (by simpa using hnear)]
    exact hmode'

/-- **One event.** The manager recovers exactly when the count runs out. -/
theorem owes_step {g : Governed} {left : Option Nat} {e : Event} (hsynced : Synced g)
    (h : Owes g left) (he : isReset e = false) :
    Owes (step g e) (owed left e) ∨ ((step g e).mode = .normal ∧ owed left e = some 0) := by
  cases left with
  | none => exact .inl (owes_recon hsynced h he)
  | some n =>
    by_cases hhard : engagesHard e = true
    · rw [owed_engaged hhard]
      exact .inl (owes_engaged hhard)
    by_cases hholds : holds e = true
    · obtain ⟨hladder, rfl⟩ := h
      rw [owed_holds hholds]
      rcases paid_step hsynced hladder hholds with ⟨hmode, hpaid⟩ | ⟨hladder', hpaid⟩
      · exact .inr ⟨hmode, by rw [hpaid, Nat.sub_self]⟩
      · exact .inl ⟨hladder', by omega⟩
    cases e with
    | evaluateFromSlo verdict now =>
      simp only [engagesHard, holds, decide_eq_true_eq, ne_eq, not_not] at hhard hholds
      exact absurd hholds hhard
    | applyReconDegradedManage reason now => exact .inl (owes_again reason now h)
    | restart => exact .inl (owes_restart hsynced h)
    | resetToNormal reason => cases he
    | _ => first | exact absurd rfl hhard | exact absurd rfl hholds

/-! ## Runs -/

/-- What every run of a fresh manager keeps: a degrade is in the vault, and no
streak outgrows its rung. -/
def Kept (g : Governed) : Prop := (g.mode ≠ .normal → Synced g) ∧ ShortStreak g

theorem synced_of_normal {g : Governed} {e : Event} (hmode : g.mode = .normal)
    (h : (step g e).mode ≠ .normal) : Synced (step g e) := by
  have hhard : g.mode ≠ .hardCriticalDegrade := by rw [hmode]; decide
  have hsoft : g.mode ≠ .softDegrade := by rw [hmode]; decide
  have hrecon : g.mode ≠ .reconDegradedManage := by rw [hmode]; decide
  have happly : ∀ reason now, Synced (g.applySoftDegrade reason now) := by
    intro reason now
    unfold applySoftDegrade
    rw [if_neg hhard, if_neg hsoft]
    exact synced_persistState _
  cases e with
  | evaluateFromSlo verdict now =>
    rw [step]
    unfold evaluateFromSlo
    rw [if_neg hhard, if_neg hsoft, if_neg hrecon]
    split
    · exact synced_applyHardCriticalDegrade g _ now
    split
    · exact happly _ now
    · exact synced_persistState _
  | applySoftDegrade reason now => exact happly reason now
  | applyReconDegradedManage reason now =>
    rw [step]
    unfold applyReconDegradedManage
    rw [if_neg hhard]
    exact synced_persistState _
  | applyHardCriticalDegrade reason now => exact synced_applyHardCriticalDegrade g reason now
  | consumeFlattenRequest => exact absurd ((consume_spec g).1.trans hmode) h
  | restart => exact synced_restart h
  | resetToNormal reason => exact synced_resetToNormal g reason

theorem kept_step {g : Governed} (e : Event) (h : Kept g) : Kept (step g e) := by
  refine ⟨fun hmode' => ?_, shortStreak_step e h.2⟩
  by_cases hmode : g.mode = .normal
  · exact synced_of_normal hmode hmode'
  · exact synced_step e (h.1 hmode)

theorem kept_run (vault : Option PersistedGovernanceState) (es : List Event) :
    Kept (run step { vault := vault } es) :=
  run_keeps (fun _ e h => kept_step e h)
    ⟨fun hmode => absurd rfl hmode, shortStreak_of_zero rfl⟩ es

/-- The call itself: RECON and nothing owed yet, or HARD as it was. -/
theorem owes_applied {g : Governed} (reason now : String) (h : Kept g) :
    Synced (g.applyReconDegradedManage reason now) ∧
      Owes (g.applyReconDegradedManage reason now) (owedAt g) := by
  unfold owedAt
  rcases applyRecon_spec g reason now with ⟨hhard, hsame⟩ | ⟨hhard, hmode, _⟩
  · rw [hsame, if_pos hhard]
    exact ⟨h.1 (by rw [hhard]; decide), ⟨.inl hhard, h.2⟩, rfl⟩
  · rw [if_neg hhard]
    refine ⟨?_, hmode⟩
    unfold applyReconDegradedManage
    rw [if_neg hhard]
    exact synced_persistState _

/-- **The reconciliation degrade holds** through a run exactly when no count of OK
verdicts runs out in it. -/
theorem recon_holds_iff (vault : Option PersistedGovernanceState) (before es : List Event)
    (reason now : String) (hes : ∀ e ∈ es, isReset e = false) :
    Along step (fun g e => Blocked (step g e)) (run step { vault := vault } before)
        (.applyReconDegradedManage reason now :: es) ↔
      Along owed (fun left e => owed left e ≠ some 0)
        (owedAt (run step { vault := vault } before)) es := by
  obtain ⟨hsynced, howes⟩ := owes_applied reason now (kept_run vault before)
  have hstart : Blocked (step (run step { vault := vault } before)
      (.applyReconDegradedManage reason now)) := (blocked_iff _).mpr howes.not_normal.1
  rw [Along, and_iff_right hstart]
  refine along_related (P := Blocked) (Q := fun left => left ≠ some 0)
    (R := fun g left => Synced g ∧ Owes g left) (C := fun e => isReset e = false)
    (fun g left e hr he => ?_) es ⟨hsynced, howes⟩ hes
  rcases owes_step hr.1 hr.2 he with howes' | ⟨hmode, hzero⟩
  · have hout := howes'.not_normal
    exact .inl ⟨(blocked_iff _).mpr hout.1, hout.2, synced_step e hr.1, howes'⟩
  · exact .inr ⟨fun hblocked => hblocked.1 hmode, fun hleft => hleft hzero⟩

def softBreach : Event := .evaluateFromSlo { severity := .softBreach, reasons := ["feed"] } "t1"

def okVerdict : Event := .evaluateFromSlo { severity := .ok } "t2"

/-- Three OK verdicts after a soft breach reopen entries with no reset. -/
theorem soft_breach_reopens :
    ¬ Along step (fun g e => Blocked (step g e)) {}
      [.applyReconDegradedManage "pre_flight_exhausted" "t0", softBreach, okVerdict, okVerdict,
        okVerdict] := by
  intro h
  have hmode : (run step {} [.applyReconDegradedManage "pre_flight_exhausted" "t0", softBreach,
      okVerdict, okVerdict, okVerdict]).mode = .normal := by decide
  exact h.2.2.2.2.1.1 hmode

/-- Verdicts that never breach, and restarts, leave it in force. -/
theorem quiet_run_holds :
    Along step (fun g e => Blocked (step g e)) {}
      [.applyReconDegradedManage "pre_flight_exhausted" "t0", okVerdict, .restart, okVerdict,
        okVerdict, okVerdict] :=
  (recon_holds_iff none [] [okVerdict, .restart, okVerdict, okVerdict, okVerdict]
    "pre_flight_exhausted" "t0" (by decide)).mpr (by decide)

end TradingPlatform.Engine.Degradation.ReconLatch
