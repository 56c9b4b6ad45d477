import TradingPlatform.Engine.AutomaticTrips

/-! # What the watchdog lifts

A sustained fresh streak lifts an ENTRY_GATE_HALT signed by the watchdog. The
guard reads the signature of the snapshot in force, and a stale reading puts
that signature over any level, an operator's included. So the watchdog lifts
only its own halts in the runs where its name never goes over another's. -/

namespace TradingPlatform.Engine.WatchdogRecovery

open TradingPlatform.Lib.Runs TradingPlatform.Control.HeartbeatWatchdog AutomaticTrips
open TradingPlatform.Execution TradingPlatform.Lifecycle RiskEscalationSnapshot

variable {Config : Type} (env : Env Config)

/-- A level is in force. -/
def inForce (p : Platform) : Bool := p.escalation.level ≠ .nominal

def watchdogSigned (p : Platform) : Prop := p.escalation.commandedBy = "heartbeat_watchdog"

instance (p : Platform) : Decidable (watchdogSigned p) :=
  inferInstanceAs (Decidable (_ = _))

/-- The event is a check and takes the level to NOMINAL. -/
def Lifts (p : Platform) (e : Event Config) : Prop :=
  (∃ reading, e = .check reading) ∧ inForce p = true ∧ inForce (step env p e) = false

/-- If `e` lifts the level in force after the run `es`, then the watchdog
commanded every level since the last NOMINAL one. -/
def LiftsOwn (init : Platform) (es : List (Event Config)) (e : Event Config) : Prop :=
  Lifts env (run (step env) init es) e →
    ∀ q ∈ episode (step env) inForce init es, watchdogSigned q

/-- Nothing in force can be lifted, or the watchdog commanded it. -/
def MayCover (p : Platform) : Prop :=
  inForce p = false ∨ watchdogSigned p ∨ p.escalation.engineShutdownLatched = true ∨
    p.watchdog.allowDeesc = false

/-- The watchdog's name goes over a level in force only where it stood before:
a stale reading, and a transition in the watchdog's name. -/
def KeepsSigner (p : Platform) : Event Config → Prop
  | .check reading => p.watchdog.readsStale env.fromisoformat reading = true → MayCover p
  | .transition t =>
    t.newLevel ≠ .nominal → t.commandedBy = "heartbeat_watchdog" → MayCover p
  | _ => True

/-! ## One step -/

/-- The watchdog's halt as a recovery could lift it. -/
structure Liftable (p : Platform) : Prop where
  signed : watchdogSigned p
  unlatched : p.escalation.engineShutdownLatched = false
  allowed : p.watchdog.allowDeesc = true

theorem step_allowDeesc (p : Platform) (e : Event Config) :
    (step env p e).watchdog.allowDeesc = p.watchdog.allowDeesc := by
  cases e with
  | check reading =>
    obtain ⟨streak, logged, hw⟩ :=
      check_watchdog env.upper env.fromisoformat p.watchdog p.escalation reading
    exact congrArg (·.allowDeesc) hw
  | _ => rfl

theorem step_unlatched {p : Platform} {e : Event Config}
    (h : (step env p e).escalation.engineShutdownLatched = false) :
    p.escalation.engineShutdownLatched = false := by
  by_contra hlatched
  have hlatched : p.escalation.engineShutdownLatched = true := by simpa using hlatched
  have hkept : (p.escalation.obey env.upper (asks env p e)).engineShutdownLatched = true := by
    cases asks env p e with
    | none => exact hlatched
    | some t => exact transition_keeps_latch env.upper p.escalation t hlatched
  exact absurd (hkept.symm.trans h) (by decide)

theorem orDefault_eq {s d name : String} (h : orDefault s d = name) (hd : d ≠ name) : s = name := by
  unfold orDefault at h
  split at h
  · exact absurd h hd
  · exact h

/-- The other automatic callers sign in their own names. -/
theorem asks_signed {p : Platform} {e : Event Config} {t : Transition}
    (hask : asks env p e = some t)
    (hsigned : t.commandedBy = "heartbeat_watchdog") :
    (∃ reading, e = .check reading) ∨ e = .transition t := by
  cases e with
  | transition t' => exact .inr (congrArg _ (Option.some.inj hask))
  | check reading => exact .inl ⟨reading, rfl⟩
  | reconcileBoot internal broker ioc boc tol =>
    have hname := (reconcileBoot_signed env.upper internal broker ioc boc tol hask).symm.trans hsigned
    exact absurd hname (by decide)
  | detectOutOfBandChange legId config chain =>
    have hname := (detectOutOfBandChange_signed env.canonicalConfigHash hask).symm.trans hsigned
    exact absurd hname (by decide)
  | assertRunningHash config pinned legId phase =>
    have hname := (assertRunningHash_signed env.canonicalConfigHash hask).symm.trans hsigned
    have hhead := congrArg (fun s : String => s.toList.head?) hname
    simp at hhead

/-- A level in force that the watchdog has signed after the step, it had signed
before it. -/
theorem liftable_before {p : Platform} {e : Event Config}
    (hguard : KeepsSigner env p e) (hforce : inForce p = true)
    (hforce' : inForce (step env p e) = true) (h : Liftable (step env p e)) : Liftable p := by
  have hunlatched := step_unlatched env h.unlatched
  have hallowed : p.watchdog.allowDeesc = true := by
    rw [← step_allowDeesc env p e]
    exact h.allowed
  have hcover : MayCover p → Liftable p := by
    intro h
    rcases h with hno | hsigned | hlatched | hoff
    · rw [hforce] at hno; cases hno
    · exact ⟨hsigned, hunlatched, hallowed⟩
    · rw [hunlatched] at hlatched; cases hlatched
    · rw [hallowed] at hoff; cases hoff
  have hsigned := h.signed
  rw [watchdogSigned, step_escalation] at hsigned
  rw [inForce, step_escalation] at hforce'
  cases hask : asks env p e with
  | none =>
    rw [hask] at hsigned
    exact ⟨hsigned, hunlatched, hallowed⟩
  | some t =>
    rw [hask] at hsigned hforce'
    have hname : t.commandedBy = "heartbeat_watchdog" := orDefault_eq hsigned (by decide)
    rcases asks_signed env hask hname with
      ⟨reading, rfl⟩ | rfl
    · rcases check_cases env.upper env.fromisoformat p.watchdog p.escalation reading with
        ⟨htrip, _⟩ | ⟨_, hrec, _⟩ | ⟨_, hnone⟩
      · rw [check_tripped] at htrip
        exact hcover (hguard htrip)
      · rw [asks, hrec] at hask
        cases hask
        cases hforce'
      · rw [asks, hnone] at hask
        cases hask
    · exact hcover (hguard (of_decide_eq_true hforce') hname)

/-- A check that takes the level to NOMINAL found a liftable one. -/
theorem liftable_of_lifts {p : Platform} {e : Event Config} (h : Lifts env p e) :
    Liftable p := by
  obtain ⟨⟨reading, rfl⟩, hforce, hlifted⟩ := h
  rw [inForce, step_escalation] at hlifted
  rcases check_cases env.upper env.fromisoformat p.watchdog p.escalation reading with
    ⟨_, htrip, _⟩ | ⟨_, _, hallowed, hlift⟩ | ⟨_, hnone⟩
  · rw [asks, htrip] at hlifted
    cases hlifted
  · unfold liftable at hlift
    simp only [Bool.and_eq_true, decide_eq_true_eq, Bool.not_eq_true'] at hlift
    exact ⟨hlift.1.1.2, hlift.2, hallowed⟩
  · rw [asks, hnone] at hlifted
    rw [inForce] at hforce
    exact absurd (hforce.symm.trans hlifted) (by decide)

/-! ## Runs -/

/-- A watchdog set up in live lifts nothing, whatever its flag says. -/
theorem live_never_lifts {lower : String → String} {environment : String}
    (hlive : lower environment = "live") (threshold : ℚ) (component : String) (startedAt : ℚ)
    (flag : Bool) (streak : Int) (es : List (Event Config)) (e : Event Config) :
    ¬ Lifts env (run (step env)
      { watchdog := .create lower threshold component startedAt environment flag streak } es) e := by
  intro hlifts
  have hoff := run_keeps (I := fun p : Platform => p.watchdog.allowDeesc = false)
    (fun p e h => (step_allowDeesc env p e).trans h)
    (s := { watchdog := .create lower threshold component startedAt environment flag streak })
    (by simp [Watchdog.create, hlive]) es
  have hon := (liftable_of_lifts env hlifts).allowed
  rw [hoff] at hon
  cases hon

/-- **The watchdog lifts its own.** In every run where no stale reading, and no
transition in the watchdog's name, goes over a level another commanded, a check
that takes the level to NOMINAL ends an episode the watchdog commanded
throughout. -/
theorem lifts_own_of_keepsSigner (w : Watchdog) (es : List (Event Config)) (e : Event Config)
    (h : Along (step env) (KeepsSigner env) { watchdog := w } es) :
    LiftsOwn env { watchdog := w } es e := by
  intro hlifts q hq
  have hall := episode_all (W := Liftable) (fun _ _ => liftable_before env) h
    (liftable_of_lifts env hlifts)
  exact (hall q hq).signed

/-- A watchdog that asks for two fresh readings. -/
def promptWatchdog : Watchdog := { allowDeesc := true, deescStreakRequired := 2, startedAt := 0 }

/-- A reading two minutes into the process, with no beat yet. -/
def noBeat : Reading := { now := 120, marketOpen := true, latest := none }

def freshCheck : Event Unit := .check (freshReading promptWatchdog)

/-- The watchdog's own halt, and a first fresh reading. -/
def ownHalt : List (Event Unit) := [.check noBeat, freshCheck]

theorem own_halt_lifted :
    Lifts asciiEnv (run (step asciiEnv) { watchdog := promptWatchdog } ownHalt) freshCheck ∧
      LiftsOwn asciiEnv { watchdog := promptWatchdog } ownHalt freshCheck :=
  ⟨⟨⟨_, rfl⟩, by decide +kernel, by decide +kernel⟩,
    lifts_own_of_keepsSigner asciiEnv promptWatchdog ownHalt freshCheck
      ⟨fun _ => .inl rfl, fun _ => .inr (.inl (by decide +kernel)), trivial⟩⟩

/-- The watchdog of the paper soak, as it is set up by default. -/
def soakWatchdog : Watchdog := .create String.toLower 120 "soak" 0 "paper" true 10

/-- An operator's halt, a stale reading over it, and nine fresh readings. -/
def haltThenStale : List (Event Unit) :=
  .transition { newLevel := .entryGateHalt, commandedBy := "operator" } :: .check noBeat ::
    List.replicate 9 freshCheck

/-- The tenth fresh reading lifts the operator's halt. -/
theorem operator_halt_lifted :
    ¬ LiftsOwn asciiEnv { watchdog := soakWatchdog } haltThenStale freshCheck := by
  intro h
  have hunsigned := h ⟨⟨_, rfl⟩, by decide +kernel, by decide +kernel⟩
  exact absurd hunsigned (by decide +kernel)

/-! ## The guard is needed

Over a level another commanded, one stale reading is enough: fresh readings
after it lift that level, whatever the run before it was. -/

theorem liftable_inForce {p : Platform} (h : liftable p.escalation = true) :
    inForce p = true := by
  unfold liftable at h
  simp only [Bool.and_eq_true, decide_eq_true_eq] at h
  simp [inForce, h.1.1.1]

/-- A stale reading makes a halt it could lift of anything not latched. -/
theorem liftable_of_stale {p : Platform} {reading : Reading}
    (hstale : p.watchdog.readsStale env.fromisoformat reading = true)
    (hunlatched : p.escalation.engineShutdownLatched = false) :
    liftable (step env p (.check reading)).escalation = true := by
  have htripped :=
    (check_tripped env.upper env.fromisoformat p.watchdog p.escalation reading).trans hstale
  rw [step_escalation, asks,
    check_transition_of_tripped env.upper env.fromisoformat p.watchdog p.escalation reading htripped]
  simp [liftable, tripTransition, transition, orDefault, hunlatched,
    RiskEscalationLevel.commandsPortfolioLiquidation]

section Needed

variable {env} (hgate : env.upper "" ≠ "BLOCKED") {p : Platform}
  (hthreshold : 0 ≤ p.watchdog.threshold)

include hgate hthreshold

theorem step_fresh :
    step env p (.check (freshReading p.watchdog)) =
      { escalation := p.escalation.obey env.upper
          (healthyStep { p.watchdog with loggedPriorAge := true } p.escalation (some 0)).transition
        watchdog :=
          (healthyStep { p.watchdog with loggedPriorAge := true } p.escalation
            (some 0)).watchdog } := by
  have h := check_freshReading env.upper env.fromisoformat p.watchdog p.escalation hthreshold hgate
  simp only [step, asks, h]

theorem fresh_reading_lifts (hallowed : p.watchdog.allowDeesc = true)
    (hlift : liftable p.escalation = true)
    (hlong : p.watchdog.deescStreakRequired ≤ p.watchdog.freshStreak + 1) :
    Lifts env p (.check (freshReading p.watchdog)) := by
  refine ⟨⟨_, rfl⟩, liftable_inForce hlift, ?_⟩
  rw [step_fresh hgate hthreshold]
  simp [inForce, healthyStep, hallowed, hlift, hlong, recoveryTransition]

theorem fresh_reading_counts
    (hshort : ¬ p.watchdog.deescStreakRequired ≤ p.watchdog.freshStreak + 1) :
    step env p (.check (freshReading p.watchdog)) =
      { p with watchdog := { p.watchdog with
          loggedPriorAge := true, freshStreak := p.watchdog.freshStreak + 1 } } := by
  rw [step_fresh hgate hthreshold]
  simp [healthyStep, hshort]

end Needed

/-- Enough fresh readings lift a halt the watchdog signed. -/
theorem fresh_readings_lift (hgate : env.upper "" ≠ "BLOCKED") (k : Nat) {p : Platform}
    (hthreshold : 0 ≤ p.watchdog.threshold)
    (hallowed : p.watchdog.allowDeesc = true) (hlift : liftable p.escalation = true)
    (hk : p.watchdog.deescStreakRequired ≤ p.watchdog.freshStreak + 1 + k) :
    ∃ n, Along (step env) (fun p e => inForce (step env p e) = true) p
        (List.replicate n (.check (freshReading p.watchdog))) ∧
      Lifts env (run (step env) p (List.replicate n (.check (freshReading p.watchdog))))
        (.check (freshReading p.watchdog)) := by
  induction k generalizing p with
  | zero =>
    have hlong : p.watchdog.deescStreakRequired ≤ p.watchdog.freshStreak + 1 := by simpa using hk
    exact ⟨0, trivial, fresh_reading_lifts hgate hthreshold hallowed hlift hlong⟩
  | succ k ih =>
    by_cases hlong : p.watchdog.deescStreakRequired ≤ p.watchdog.freshStreak + 1
    · exact ⟨0, trivial, fresh_reading_lifts hgate hthreshold hallowed hlift hlong⟩
    · -- one more fresh reading is counted, the halt stays
      have hstep := fresh_reading_counts hgate hthreshold hlong
      obtain ⟨n, halong, hlifts⟩ := ih (p := { p with watchdog := { p.watchdog with
          loggedPriorAge := true, freshStreak := p.watchdog.freshStreak + 1 } })
        hthreshold hallowed hlift (by push_cast at hk ⊢; omega)
      refine ⟨n + 1, ⟨?_, ?_⟩, ?_⟩
      · show inForce (step env p _) = true
        rw [hstep]
        exact liftable_inForce hlift
      · rw [hstep]
        exact halong
      · rw [List.replicate_succ, run_cons, hstep]
        exact hlifts

/-- **One stale reading is enough.** Where a level another commanded is in force
and not latched, a stale reading and then fresh ones lift it. -/
theorem covered_level_lifted (hgate : env.upper "" ≠ "BLOCKED") {init : Platform}
    {es : List (Event Config)} {reading : Reading}
    (hthreshold : 0 ≤ (run (step env) init es).watchdog.threshold)
    (hstale : (run (step env) init es).watchdog.readsStale env.fromisoformat reading = true)
    (hcover : ¬ MayCover (run (step env) init es)) :
    ∃ fs e, ¬ LiftsOwn env init (es ++ .check reading :: fs) e := by
  simp only [MayCover, not_or, Bool.not_eq_false, Bool.not_eq_true] at hcover
  obtain ⟨hforce, hunsigned, hunlatched, hallowed⟩ := hcover
  have hlift := liftable_of_stale env hstale hunlatched
  obtain ⟨streak, logged, hw⟩ := check_watchdog env.upper env.fromisoformat
    (run (step env) init es).watchdog (run (step env) init es).escalation reading
  obtain ⟨q, hq⟩ : ∃ q, q = step env (run (step env) init es) (.check reading) := ⟨_, rfl⟩
  have hsame : q.watchdog = { (run (step env) init es).watchdog with
      freshStreak := streak, loggedPriorAge := logged } := by
    rw [hq]
    exact hw
  rw [← hq] at hlift
  obtain ⟨n, halong, hlifts⟩ := fresh_readings_lift env hgate
    q.watchdog.deescStreakRequired.toNat (by rw [hsame]; exact hthreshold)
    (by rw [hsame]; exact hallowed) hlift (by omega)
  refine ⟨List.replicate n (.check (freshReading q.watchdog)), .check (freshReading q.watchdog),
    fun hown => hunsigned ?_⟩
  refine hown ?_ _ (mem_episode_append hforce ⟨?_, ?_⟩)
  · rw [run_append, run_cons, ← hq]
    exact hlifts
  · show inForce (step env _ _) = true
    rw [← hq]
    exact liftable_inForce hlift
  · rw [← hq]
    exact halong

end TradingPlatform.Engine.WatchdogRecovery
