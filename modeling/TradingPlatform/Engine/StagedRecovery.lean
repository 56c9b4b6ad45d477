import TradingPlatform.Engine.DegradationManager
import TradingPlatform.Lib.Potential

/-! # Staged recovery from HARD_CRITICAL_DEGRADE

The way from HARD to NORMAL is a ladder of OK verdicts: `hardRecoveryStreak`
to step down to SOFT, `softRecoveryStreak` more to reach NORMAL. `toNormal` is
what is left of it. No event shortens it by more than the OK verdict it
brings, so entries stay blocked until the ladder is paid; SOFT verdicts and
re-assertions never lengthen it, so they trap nothing. -/

namespace TradingPlatform.Engine.Degradation.StagedRecovery

open TradingPlatform.Lib.Runs TradingPlatform.Lib.Potential Governed

inductive Event
  | evaluateFromSlo (verdict : DataIntegrityVerdict) (now : String)
  | applySoftDegrade (reason now : String)
  | applyReconDegradedManage (reason now : String)
  | applyHardCriticalDegrade (reason now : String)
  | consumeFlattenRequest
  | restart
  | resetToNormal (reason : String)
  deriving DecidableEq, Repr

def step (g : Governed) : Event → Governed
  | .evaluateFromSlo verdict now => g.evaluateFromSlo verdict now
  | .applySoftDegrade reason now => g.applySoftDegrade reason now
  | .applyReconDegradedManage reason now => g.applyReconDegradedManage reason now
  | .applyHardCriticalDegrade reason now => g.applyHardCriticalDegrade reason now
  | .consumeFlattenRequest => g.consumeFlattenRequest.2
  | .restart => g.restart
  | .resetToNormal reason => g.resetToNormal reason

def isOk : Event → Bool
  | .evaluateFromSlo verdict _ => verdict.severity = .ok
  | _ => false

/-- A HARD_BREACH verdict, or `apply_hard_critical_degrade`. -/
def engagesHard : Event → Bool
  | .evaluateFromSlo verdict _ => verdict.severity = .hardBreach
  | .applyHardCriticalDegrade _ _ => true
  | _ => false

def isReset : Event → Bool
  | .resetToNormal _ => true
  | _ => false

/-- Verdicts short of HARD_BREACH, soft re-assertions and flatten requests. -/
def holds : Event → Bool
  | .evaluateFromSlo verdict _ => verdict.severity ≠ .hardBreach
  | .applySoftDegrade _ _ => true
  | .consumeFlattenRequest => true
  | _ => false

/-- The OK verdicts still to come before NORMAL. -/
def toNormal (g : Governed) : Nat :=
  match g.mode with
  | .hardCriticalDegrade => hardRecoveryStreak + softRecoveryStreak - g.recoveryStreak
  | .softDegrade => softRecoveryStreak - g.recoveryStreak
  | .reconDegradedManage => softRecoveryStreak
  | .normal => 0

theorem toNormal_hard {g : Governed} (h : g.mode = .hardCriticalDegrade) :
    toNormal g = 9 - g.recoveryStreak := by
  unfold toNormal
  rw [h]
  rfl

theorem toNormal_soft {g : Governed} (h : g.mode = .softDegrade) :
    toNormal g = 3 - g.recoveryStreak := by
  unfold toNormal
  rw [h]
  rfl

theorem toNormal_recon {g : Governed} (h : g.mode = .reconDegradedManage) : toNormal g = 3 := by
  unfold toNormal
  rw [h]
  rfl

theorem toNormal_normal {g : Governed} (h : g.mode = .normal) : toNormal g = 0 := by
  unfold toNormal
  rw [h]

/-- `toNormal` reads the mode and the streak. -/
theorem toNormal_congr {g g' : Governed} (hmode : g.mode = g'.mode)
    (hstreak : g.recoveryStreak = g'.recoveryStreak) : toNormal g = toNormal g' := by
  unfold toNormal
  rw [hmode, hstreak]

theorem toNormal_le (g : Governed) : toNormal g ≤ 9 := by
  unfold toNormal hardRecoveryStreak softRecoveryStreak
  split <;> omega

theorem toNormal_le_soft {g : Governed} (h : g.mode ≠ .hardCriticalDegrade) : toNormal g ≤ 3 := by
  cases hmode : g.mode with
  | normal => rw [toNormal_normal hmode]; omega
  | softDegrade => rw [toNormal_soft hmode]; omega
  | reconDegradedManage => rw [toNormal_recon hmode]
  | hardCriticalDegrade => exact absurd hmode h

/-- Giving up the streak lengthens the ladder, if anything. -/
theorem toNormal_le_of_zero {g g' : Governed} (hmode : g'.mode = g.mode)
    (hstreak : g'.recoveryStreak = 0) : toNormal g ≤ toNormal g' := by
  unfold toNormal
  rw [hmode, hstreak]
  split <;> omega

/-! ## What one event does to the mode and the streak -/

section Steps

variable (g : Governed) (verdict : DataIntegrityVerdict) (reason now : String)

theorem applyHard_spec :
    (g.applyHardCriticalDegrade reason now).mode = .hardCriticalDegrade ∧
      (g.applyHardCriticalDegrade reason now).recoveryStreak = 0 := by
  unfold applyHardCriticalDegrade
  dsimp only
  split <;> exact ⟨rfl, rfl⟩

theorem evaluate_hardBreach (h : verdict.severity = .hardBreach) :
    g.evaluateFromSlo verdict now =
      g.applyHardCriticalDegrade (joinedReasons verdict "hard_slo_breach") now := if_pos h

/-- HARD under a verdict that is no HARD_BREACH: the streak is credited, or it
is complete and the manager steps down to SOFT. -/
theorem evaluate_hard (hmode : g.mode = .hardCriticalDegrade) (h : verdict.severity ≠ .hardBreach) :
    ((g.evaluateFromSlo verdict now).mode = .hardCriticalDegrade ∧
      (g.evaluateFromSlo verdict now).recoveryStreak =
        g.recoveryStreak + (decide (verdict.severity = .ok)).toNat ∧
      g.recoveryStreak + (decide (verdict.severity = .ok)).toNat < 6) ∨
    ((g.evaluateFromSlo verdict now).mode = .softDegrade ∧
      (g.evaluateFromSlo verdict now).recoveryStreak = 0 ∧
      6 ≤ g.recoveryStreak + (decide (verdict.severity = .ok)).toNat) := by
  have hstreak := credited_streak g verdict
  unfold evaluateFromSlo
  rw [if_neg h, if_pos hmode]
  split
  · rename_i hfull
    exact .inr ⟨rfl, rfl, hstreak ▸ hfull⟩
  · rename_i hshort
    refine .inl ⟨(credited_mode g verdict).trans hmode, hstreak, ?_⟩
    rw [← hstreak]
    exact Nat.lt_of_not_le hshort

/-- SOFT under such a verdict: the streak is credited, or it is complete and
the manager is NORMAL again. -/
theorem evaluate_soft (hmode : g.mode = .softDegrade) (h : verdict.severity ≠ .hardBreach) :
    ((g.evaluateFromSlo verdict now).mode = .softDegrade ∧
      (g.evaluateFromSlo verdict now).recoveryStreak =
        g.recoveryStreak + (decide (verdict.severity = .ok)).toNat ∧
      g.recoveryStreak + (decide (verdict.severity = .ok)).toNat < 3) ∨
    ((g.evaluateFromSlo verdict now).mode = .normal ∧
      (g.evaluateFromSlo verdict now).recoveryStreak = 0 ∧
      3 ≤ g.recoveryStreak + (decide (verdict.severity = .ok)).toNat) := by
  have hstreak := credited_streak g verdict
  have hhard : g.mode ≠ .hardCriticalDegrade := by rw [hmode]; decide
  unfold evaluateFromSlo
  rw [if_neg h, if_neg hhard, if_pos hmode]
  split
  · rename_i hfull
    exact .inr ⟨resetToNormal_mode _ _, resetToNormal_streak _ _, hstreak ▸ hfull⟩
  · rename_i hshort
    refine .inl ⟨(credited_mode g verdict).trans hmode, hstreak, ?_⟩
    rw [← hstreak]
    exact Nat.lt_of_not_le hshort

theorem applySoft_spec :
    (g.mode = .hardCriticalDegrade ∧ g.applySoftDegrade reason now = g) ∨
    (g.mode = .softDegrade ∧ (g.applySoftDegrade reason now).mode = .softDegrade ∧
      (g.applySoftDegrade reason now).recoveryStreak = g.recoveryStreak) ∨
    ((g.mode = .normal ∨ g.mode = .reconDegradedManage) ∧
      (g.applySoftDegrade reason now).mode = .softDegrade ∧
      (g.applySoftDegrade reason now).recoveryStreak = 0) := by
  unfold applySoftDegrade
  split
  · rename_i hhard
    exact .inl ⟨hhard, rfl⟩
  rename_i hhard
  split
  · rename_i hsoft
    exact .inr (.inl ⟨hsoft, hsoft, rfl⟩)
  · rename_i hsoft
    refine .inr (.inr ⟨?_, rfl, rfl⟩)
    cases hmode : g.mode with
    | normal => exact .inl rfl
    | reconDegradedManage => exact .inr rfl
    | softDegrade => exact absurd hmode hsoft
    | hardCriticalDegrade => exact absurd hmode hhard

/-- In RECON only a SOFT_BREACH moves the manager, to a fresh SOFT. -/
theorem evaluate_recon (hmode : g.mode = .reconDegradedManage)
    (h : verdict.severity ≠ .hardBreach) :
    g.evaluateFromSlo verdict now = g ∨
      ((g.evaluateFromSlo verdict now).mode = .softDegrade ∧
        (g.evaluateFromSlo verdict now).recoveryStreak = 0) := by
  have hhard : g.mode ≠ .hardCriticalDegrade := by rw [hmode]; decide
  have hsoft : g.mode ≠ .softDegrade := by rw [hmode]; decide
  unfold evaluateFromSlo
  rw [if_neg h, if_neg hhard, if_neg hsoft]
  split
  · rcases applySoft_spec g (joinedReasons verdict "soft_slo_breach") now with
      ⟨hmode', _⟩ | ⟨hmode', _⟩ | ⟨_, hfresh⟩
    · exact absurd hmode' hhard
    · exact absurd hmode' hsoft
    · exact .inr hfresh
  · exact .inl rfl

/-- From NORMAL such a verdict leads at most to a fresh SOFT. -/
theorem evaluate_normal (hmode : g.mode = .normal) (h : verdict.severity ≠ .hardBreach) :
    (g.evaluateFromSlo verdict now).recoveryStreak = 0 := by
  have hhard : g.mode ≠ .hardCriticalDegrade := by rw [hmode]; decide
  have hsoft : g.mode ≠ .softDegrade := by rw [hmode]; decide
  have hrecon : g.mode ≠ .reconDegradedManage := by rw [hmode]; decide
  unfold evaluateFromSlo
  rw [if_neg h, if_neg hhard, if_neg hsoft, if_neg hrecon]
  split
  · rcases applySoft_spec g (joinedReasons verdict "soft_slo_breach") now with
      ⟨hmode', _⟩ | ⟨hmode', _⟩ | ⟨_, _, hstreak⟩
    · exact absurd hmode' hhard
    · exact absurd hmode' hsoft
    · exact hstreak
  · rfl

theorem applyRecon_spec :
    (g.mode = .hardCriticalDegrade ∧ g.applyReconDegradedManage reason now = g) ∨
    (g.mode ≠ .hardCriticalDegrade ∧
      (g.applyReconDegradedManage reason now).mode = .reconDegradedManage ∧
      (g.applyReconDegradedManage reason now).recoveryStreak = 0) := by
  unfold applyReconDegradedManage
  split
  · rename_i hhard
    exact .inl ⟨hhard, rfl⟩
  · rename_i hhard
    exact .inr ⟨hhard, rfl, rfl⟩

theorem consume_spec :
    g.consumeFlattenRequest.2.mode = g.mode ∧
      g.consumeFlattenRequest.2.recoveryStreak = g.recoveryStreak := by
  unfold consumeFlattenRequest
  split <;> exact ⟨rfl, rfl⟩

end Steps

/-- Every event writes the mode it leaves through to the vault. -/
theorem synced_step {g : Governed} (e : Event) (h : Synced g) : Synced (step g e) := by
  cases e with
  | evaluateFromSlo verdict now => exact h.evaluateFromSlo verdict now
  | applySoftDegrade reason now => exact h.applySoftDegrade reason now
  | applyReconDegradedManage reason now => exact h.applyReconDegradedManage reason now
  | applyHardCriticalDegrade reason now => exact synced_applyHardCriticalDegrade g reason now
  | consumeFlattenRequest => exact h.consumeFlattenRequest
  | restart => exact h.restart
  | resetToNormal reason => exact synced_resetToNormal g reason

/-! ## Entries stay blocked until the ladder is paid -/

/-- After a HARD engagement the whole ladder lies ahead. -/
theorem engaged_spec {g : Governed} {e : Event} (h : engagesHard e = true) :
    toNormal (step g e) = 9 ∧ Synced (step g e) := by
  cases e with
  | evaluateFromSlo verdict now =>
    have hbreach : verdict.severity = .hardBreach := of_decide_eq_true h
    obtain ⟨hmode, hstreak⟩ := applyHard_spec g (joinedReasons verdict "hard_slo_breach") now
    rw [step, evaluate_hardBreach g verdict now hbreach, toNormal_hard hmode, hstreak]
    exact ⟨rfl, synced_applyHardCriticalDegrade g _ now⟩
  | applyHardCriticalDegrade reason now =>
    obtain ⟨hmode, hstreak⟩ := applyHard_spec g reason now
    rw [step, toNormal_hard hmode, hstreak]
    exact ⟨rfl, synced_applyHardCriticalDegrade g reason now⟩
  | _ => cases h

/-- A verdict takes at most its own OK off the ladder. -/
theorem ladder_evaluate (g : Governed) (verdict : DataIntegrityVerdict) (now : String) :
    toNormal g ≤ toNormal (g.evaluateFromSlo verdict now) +
      (decide (verdict.severity = .ok)).toNat := by
  by_cases hbreach : verdict.severity = .hardBreach
  · have hladder := (engaged_spec (g := g) (e := .evaluateFromSlo verdict now)
      (decide_eq_true hbreach)).1
    exact Nat.le_add_right_of_le (hladder.symm ▸ toNormal_le g)
  cases hmode : g.mode with
  | normal =>
    rw [toNormal_normal hmode]
    exact Nat.zero_le _
  | reconDegradedManage =>
    rcases evaluate_recon g verdict now hmode hbreach with hsame | ⟨hmode', hstreak'⟩
    · rw [hsame]
      exact Nat.le_add_right _ _
    · rw [toNormal_recon hmode, toNormal_soft hmode', hstreak']
      exact Nat.le_add_right _ _
  | softDegrade =>
    rcases evaluate_soft g verdict now hmode hbreach with
      ⟨hmode', hstreak', _⟩ | ⟨hmode', _, hfull⟩
    · rw [toNormal_soft hmode, toNormal_soft hmode', hstreak']
      omega
    · rw [toNormal_soft hmode, toNormal_normal hmode']
      omega
  | hardCriticalDegrade =>
    rcases evaluate_hard g verdict now hmode hbreach with
      ⟨hmode', hstreak', _⟩ | ⟨hmode', hstreak', hfull⟩
    · rw [toNormal_hard hmode, toNormal_hard hmode', hstreak']
      omega
    · rw [toNormal_hard hmode, toNormal_soft hmode', hstreak']
      omega

/-- Without a reset, one event takes at most its own OK verdict off the ladder. -/
theorem ladder_step {g : Governed} {e : Event} (hsynced : Synced g) (hreset : isReset e = false) :
    toNormal g ≤ toNormal (step g e) + (isOk e).toNat := by
  cases e with
  | evaluateFromSlo verdict now => exact ladder_evaluate g verdict now
  | applySoftDegrade reason now =>
    refine Nat.le_add_right_of_le ?_
    rcases applySoft_spec g reason now with
      ⟨_, hsame⟩ | ⟨hmode, hmode', hstreak'⟩ | ⟨hmode, hmode', hstreak'⟩
    · rw [step, hsame]
    · exact (toNormal_congr (hmode.trans hmode'.symm) hstreak'.symm).le
    · rw [step, toNormal_soft hmode', hstreak']
      exact toNormal_le_soft (by rcases hmode with hmode | hmode <;> simp [hmode])
  | applyReconDegradedManage reason now =>
    refine Nat.le_add_right_of_le ?_
    rcases applyRecon_spec g reason now with ⟨_, hsame⟩ | ⟨hmode, hmode', _⟩
    · rw [step, hsame]
    · rw [step, toNormal_recon hmode']
      exact toNormal_le_soft hmode
  | applyHardCriticalDegrade reason now =>
    have hladder := (engaged_spec (g := g) (e := .applyHardCriticalDegrade reason now) rfl).1
    exact Nat.le_add_right_of_le (hladder.symm ▸ toNormal_le g)
  | consumeFlattenRequest =>
    obtain ⟨hmode, hstreak⟩ := consume_spec g
    exact (toNormal_congr hmode hstreak).ge
  | restart =>
    exact Nat.le_add_right_of_le (toNormal_le_of_zero hsynced.restart_mode (restart_streak g))
  | resetToNormal reason => cases hreset

/-- **Entries open only on a paid ladder.** -/
theorem open_needs_ok {g : Governed} {e : Event} {es : List Event}
    (hengage : engagesHard e = true) (hreset : ∀ e' ∈ es, isReset e' = false) (now : String)
    (hopen : ((run step (step g e) es).currentState now).blockNewEntries = false) :
    hardRecoveryStreak + softRecoveryStreak ≤ es.countP isOk := by
  obtain ⟨hladder, hsynced⟩ := engaged_spec (g := g) hengage
  have hspent := spent_le (I := Synced) (C := fun e => isReset e = false)
    (fun _ e h _ => synced_step e h) (fun _ _ h he => ladder_step h he) es hsynced hreset
  rw [hladder, toNormal_normal ((blockNewEntries_iff _ now).mp hopen), Nat.zero_add] at hspent
  exact hspent

/-! ## Nothing traps the ladder -/

/-- The streak that leaves a mode. -/
def rung : OperationalMode → Nat
  | .hardCriticalDegrade => hardRecoveryStreak
  | .softDegrade => softRecoveryStreak
  | _ => 1

/-- What every run keeps: a streak never outgrows its rung. -/
def ShortStreak (g : Governed) : Prop := g.recoveryStreak < rung g.mode

theorem shortStreak_of_zero {g : Governed} (h : g.recoveryStreak = 0) : ShortStreak g := by
  rw [ShortStreak, h]
  cases g.mode <;> decide

theorem shortStreak_congr {g g' : Governed} (hmode : g'.mode = g.mode)
    (hstreak : g'.recoveryStreak = g.recoveryStreak) (h : ShortStreak g) : ShortStreak g' := by
  rw [ShortStreak, hmode, hstreak]
  exact h

theorem shortStreak_evaluate {g : Governed} (verdict : DataIntegrityVerdict) (now : String)
    (h : ShortStreak g) : ShortStreak (g.evaluateFromSlo verdict now) := by
  by_cases hbreach : verdict.severity = .hardBreach
  · rw [evaluate_hardBreach g verdict now hbreach]
    exact shortStreak_of_zero (applyHard_spec g _ now).2
  cases hmode : g.mode with
  | normal => exact shortStreak_of_zero (evaluate_normal g verdict now hmode hbreach)
  | reconDegradedManage =>
    rcases evaluate_recon g verdict now hmode hbreach with hsame | ⟨_, hstreak⟩
    · rw [hsame]
      exact h
    · exact shortStreak_of_zero hstreak
  | softDegrade =>
    rcases evaluate_soft g verdict now hmode hbreach with
      ⟨hmode', hstreak, hshort⟩ | ⟨_, hstreak, _⟩
    · rw [ShortStreak, hmode', hstreak]
      exact hshort
    · exact shortStreak_of_zero hstreak
  | hardCriticalDegrade =>
    rcases evaluate_hard g verdict now hmode hbreach with
      ⟨hmode', hstreak, hshort⟩ | ⟨_, hstreak, _⟩
    · rw [ShortStreak, hmode', hstreak]
      exact hshort
    · exact shortStreak_of_zero hstreak

theorem shortStreak_step {g : Governed} (e : Event) (h : ShortStreak g) :
    ShortStreak (step g e) := by
  cases e with
  | evaluateFromSlo verdict now => exact shortStreak_evaluate verdict now h
  | applySoftDegrade reason now =>
    rcases applySoft_spec g reason now with
      ⟨_, hsame⟩ | ⟨hmode, hmode', hstreak⟩ | ⟨_, _, hstreak⟩
    · rw [step, hsame]
      exact h
    · exact shortStreak_congr (hmode'.trans hmode.symm) hstreak h
    · exact shortStreak_of_zero hstreak
  | applyReconDegradedManage reason now =>
    rcases applyRecon_spec g reason now with ⟨_, hsame⟩ | ⟨_, _, hstreak⟩
    · rw [step, hsame]
      exact h
    · exact shortStreak_of_zero hstreak
  | applyHardCriticalDegrade reason now => exact shortStreak_of_zero (applyHard_spec g reason now).2
  | consumeFlattenRequest =>
    obtain ⟨hmode, hstreak⟩ := consume_spec g
    exact shortStreak_congr hmode hstreak h
  | restart => exact shortStreak_of_zero (restart_streak g)
  | resetToNormal reason => exact shortStreak_of_zero (resetToNormal_streak g reason)

/-- On the ladder, with a streak short of its rung. -/
def OnLadder (g : Governed) : Prop :=
  (g.mode = .hardCriticalDegrade ∨ g.mode = .softDegrade) ∧ ShortStreak g

theorem toNormal_pos {g : Governed} (h : OnLadder g) : 0 < toNormal g := by
  obtain ⟨hmode | hmode, hshort⟩ := h
  · rw [ShortStreak, hmode] at hshort
    rw [toNormal_hard hmode]
    have hshort : g.recoveryStreak < 6 := hshort
    omega
  · rw [ShortStreak, hmode] at hshort
    rw [toNormal_soft hmode]
    have hshort : g.recoveryStreak < 3 := hshort
    omega

/-- A verdict short of HARD_BREACH climbs down the ladder by its OK, or reaches
NORMAL. -/
theorem ladder_falls_evaluate {g : Governed} (verdict : DataIntegrityVerdict) (now : String)
    (h : OnLadder g) (hbreach : verdict.severity ≠ .hardBreach) :
    (g.evaluateFromSlo verdict now).mode = .normal ∨
      (OnLadder (g.evaluateFromSlo verdict now) ∧
        toNormal (g.evaluateFromSlo verdict now) + (decide (verdict.severity = .ok)).toNat ≤
          toNormal g) := by
  have hshort' := shortStreak_evaluate verdict now h.2
  obtain ⟨hmode | hmode, hshort⟩ := h
  · rw [ShortStreak, hmode] at hshort
    have hshort : g.recoveryStreak < 6 := hshort
    rcases evaluate_hard g verdict now hmode hbreach with
      ⟨hmode', hstreak', _⟩ | ⟨hmode', hstreak', hfull⟩
    · refine .inr ⟨⟨.inl hmode', hshort'⟩, ?_⟩
      rw [toNormal_hard hmode, toNormal_hard hmode', hstreak']
      omega
    · -- the sixth OK verdict steps down to a fresh SOFT
      refine .inr ⟨⟨.inr hmode', hshort'⟩, ?_⟩
      have hone := Bool.toNat_le (decide (verdict.severity = .ok))
      rw [toNormal_hard hmode, toNormal_soft hmode', hstreak']
      omega
  · rw [ShortStreak, hmode] at hshort
    have hshort : g.recoveryStreak < 3 := hshort
    rcases evaluate_soft g verdict now hmode hbreach with ⟨hmode', hstreak', _⟩ | ⟨hmode', _⟩
    · refine .inr ⟨⟨.inr hmode', hshort'⟩, ?_⟩
      rw [toNormal_soft hmode, toNormal_soft hmode', hstreak']
      omega
    · exact .inl hmode'

/-- From a state on the ladder, an event that is no breach, no recon degrade, no
restart reaches NORMAL or stays on the ladder, an OK verdict one step further. -/
theorem ladder_falls {g : Governed} {e : Event} (h : OnLadder g) (he : holds e = true) :
    (step g e).mode = .normal ∨
      (OnLadder (step g e) ∧ toNormal (step g e) + (isOk e).toNat ≤ toNormal g) := by
  have hshort' := shortStreak_step e h.2
  cases e with
  | evaluateFromSlo verdict now => exact ladder_falls_evaluate verdict now h (of_decide_eq_true he)
  | applySoftDegrade reason now =>
    rcases applySoft_spec g reason now with
      ⟨_, hsame⟩ | ⟨hsoft, hmode', hstreak⟩ | ⟨hoff, _⟩
    · rw [step, hsame]
      exact .inr ⟨h, le_rfl⟩
    · exact .inr ⟨⟨.inr hmode', hshort'⟩, (toNormal_congr (hmode'.trans hsoft.symm) hstreak).le⟩
    · rcases h.1 with hmode | hmode <;> simp [hmode] at hoff
  | consumeFlattenRequest =>
    obtain ⟨hsame, hstreak⟩ := consume_spec g
    refine .inr ⟨⟨?_, hshort'⟩, (toNormal_congr hsame hstreak).le⟩
    rw [step, hsame]
    exact h.1
  | _ => cases he

/-- From any state a run reaches in HARD or SOFT, enough OK verdicts pass
through NORMAL. -/
theorem ok_passes_normal {g : Governed} {es fs : List Event} (hg : ShortStreak g)
    (hmode : (run step g es).mode = .hardCriticalDegrade ∨
      (run step g es).mode = .softDegrade)
    (hholds : ∀ f ∈ fs, holds f = true)
    (hok : hardRecoveryStreak + softRecoveryStreak ≤ fs.countP isOk) :
    ∃ pre, pre <+: fs ∧ (run step (run step g es) pre).mode = .normal := by
  have hladder : OnLadder (run step g es) :=
    ⟨hmode, run_keeps (fun _ e h => shortStreak_step e h) hg es⟩
  have hfalls : ∀ g e, OnLadder g → holds e = true → (step g e).mode = .normal ∨
      (OnLadder (step g e) ∧ toNormal (step g e) + (isOk e).toNat ≤ toNormal g) :=
    fun _ _ h he => ladder_falls h he
  exact reaches_goal (J := OnLadder) (G := fun g => g.mode = .normal)
    (fun _ h => toNormal_pos h) hfalls fs
    hladder hholds ((toNormal_le _).trans hok)

/-- **Staged recovery.** After a HARD engagement `e` of a run, the last one as any
other, and with no manual reset, entries are open only once `hardRecoveryStreak +
softRecoveryStreak` OK verdicts have come, restarts included. And from every
HARD or SOFT state a run of a fresh manager reaches, that many OK verdicts pass
through NORMAL, whatever SOFT verdicts, soft re-assertions and flatten requests
come between them. -/
theorem staged_recovery :
    (∀ (g : Governed) (e : Event) (es : List Event) (now : String), engagesHard e = true →
      (∀ e' ∈ es, isReset e' = false) →
      ((run step (step g e) es).currentState now).blockNewEntries = false →
      hardRecoveryStreak + softRecoveryStreak ≤ es.countP isOk) ∧
    (∀ (vault : Option PersistedGovernanceState) (es fs : List Event),
      (run step { vault := vault } es).mode = .hardCriticalDegrade ∨
        (run step { vault := vault } es).mode = .softDegrade →
      (∀ f ∈ fs, holds f = true) → hardRecoveryStreak + softRecoveryStreak ≤ fs.countP isOk →
      ∃ pre, pre <+: fs ∧ (run step (run step { vault := vault } es) pre).mode = .normal) :=
  ⟨fun _ _ _ now hengage hreset hopen => open_needs_ok hengage hreset now hopen,
    fun _ _ _ hmode hholds hok => ok_passes_normal (shortStreak_of_zero rfl) hmode hholds hok⟩

def hardBreach : Event := .evaluateFromSlo { severity := .hardBreach, reasons := ["nbbo"] } "t0"

def nineOk : List Event := List.replicate 9 (.evaluateFromSlo { severity := .ok } "t1")

theorem nine_ok_recover :
    hardRecoveryStreak + softRecoveryStreak ≤ nineOk.countP isOk ∧
      ∃ pre, pre <+: nineOk ∧ (run step (run step {} [hardBreach]) pre).mode = .normal :=
  ⟨staged_recovery.1 {} hardBreach nineOk "t2" (by decide) (by decide) (by decide),
    staged_recovery.2 none [hardBreach] nineOk (by decide) (by decide) (by decide)⟩

end TradingPlatform.Engine.Degradation.StagedRecovery
