import TradingPlatform.Lib.Runs
import TradingPlatform.Lib.Since
import TradingPlatform.Lib.TrailingCount
import TradingPlatform.Models
import Mathlib.Algebra.Order.Ring.Rat
import Mathlib.Tactic.Linarith
import Mathlib.Tactic.NormNum

/-! # The capital gate and its telemetry bridge

Two alarms cut the size of what a leg may hold: a margin alert, and a storm of rejected
orders, which also blocks entries. The readings of an account are the risk manager's,
whose code is not in the repository. -/

namespace TradingPlatform.Engine.TelemetryGate
open TradingPlatform.Lib TradingPlatform.Lib.Ring TradingPlatform.Lib.Runs
open TradingPlatform.Lib.TrailingCount

def rejectStormWindowSeconds : ℚ := 120
def rejectStormThreshold : ℕ := 3
def marginAlertUtilization : ℚ := 0.85
def emergencyPositionMult : ℚ := 0.35
def emergencyBlockEntriesMult : ℚ := 0
def rejectStormPositionMult : ℚ := 0.5

/-- What the risk manager keeps of an account for the cycle. -/
structure CapitalSnapshot where
  marginUtilization : ℚ
  buyingPowerPerLeg : ℚ
  apiBudgetRemaining : ℤ

/-- The risk manager, over a state of its own. -/
structure RiskManager (ρ : Type) where
  marginUtilizationCeiling : ℚ
  apiRateLowWatermark : ℤ
  buyingPowerFragmentationFloor : ℚ
  computeMarginUtilization : Account → ℚ
  computeBuyingPowerFragmentation : Account → ℤ → ℚ
  resetCapitalConstraintCycle : ρ → Account → ℤ → ρ
  capitalSnapshot : ρ → Option CapitalSnapshot

structure CapitalGateSnapshot where
  marginUtilization : ℚ
  buyingPowerPerLeg : ℚ
  apiBudgetRemaining : ℤ
  connectivityOk : Bool
  rejectCountWindow : ℕ
  constraintActive : Bool
  emergencyActive : Bool
  positionSizeMultiplier : ℚ
  blockNewEntries : Bool
  reason : String
  deriving DecidableEq

structure EmergencyTelemetrySignal where
  emergencyActive : Bool
  positionSizeMultiplier : ℚ
  blockNewEntries : Bool
  reason : String
  snapshot : CapitalGateSnapshot
  deriving DecidableEq

/-- The keys of a broker update that are read; `none` where the key is missing. -/
structure BrokerUpdate where
  event : Option String := none
  account : Option Account := none
  connectivityOk : Option Bool := none
  marginUtilization : Option ℚ := none
  buyingPowerPerLeg : Option ℚ := none
  legCount : Option ℤ := none
  deriving DecidableEq

structure CapitalGate (ρ : Type) where
  risk : ρ
  legCount : ℤ
  connectivityOk : Bool
  rejectTimestamps : List ℚ
  emergencyActive : Bool
  emergencyReason : String
  positionSizeMultiplier : ℚ
  blockNewEntries : Bool
  lastAccount : Option Account

section Model
variable {ρ : Type} (rm : RiskManager ρ)

def CapitalGate.new (risk : ρ) (legCount : ℤ) : CapitalGate ρ where
  risk
  legCount
  connectivityOk := true
  rejectTimestamps := []
  emergencyActive := false
  emergencyReason := ""
  positionSizeMultiplier := 1
  blockNewEntries := false
  lastAccount := none

def activateEmergency (g : CapitalGate ρ) (reason : String) (positionMult : ℚ)
    (blockEntries : Bool) : CapitalGate ρ :=
  { g with
    emergencyActive := true
    emergencyReason := reason
    positionSizeMultiplier := min g.positionSizeMultiplier positionMult
    blockNewEntries := g.blockNewEntries || blockEntries }

/-- The rejects in the window, and the gate without those before it. -/
def pruneRejectWindow (g : CapitalGate ρ) (now : ℚ) : ℕ × CapitalGate ρ :=
  let kept := prune (now - rejectStormWindowSeconds) g.rejectTimestamps
  (kept.length, { g with rejectTimestamps := kept })

/-- The margin utilization an update is judged on: of its account, of the account of the
cycle, or the one it states. -/
def marginReading (lastAccount : Option Account) (u : BrokerUpdate) : ℚ :=
  match u.account.or lastAccount with
  | some account => rm.computeMarginUtilization account
  | none => u.marginUtilization.getD 0

def buyingPowerReading (g : CapitalGate ρ) (u : BrokerUpdate) : ℚ :=
  match u.account.or g.lastAccount with
  | some account => rm.computeBuyingPowerFragmentation account g.legCount
  | none =>
    match u.buyingPowerPerLeg with
    | some q => if q = 0 then 1 else q
    | none => 1

def apiRemaining (g : CapitalGate ρ) : ℤ :=
  match rm.capitalSnapshot g.risk with
  | some snapshot => snapshot.apiBudgetRemaining
  | none => 0

/-- Why the gate constrains, in the order the reasons are collected in. -/
def constraintReasons (g : CapitalGate ρ) (marginUtil bpPerLeg : ℚ) (rejectCount : ℕ) :
    List String :=
  (if g.connectivityOk then [] else ["connectivity_down"]) ++
  (if rm.marginUtilizationCeiling ≤ marginUtil then ["margin_utilization"] else []) ++
  (if marginAlertUtilization ≤ marginUtil then ["margin_alert"] else []) ++
  (if bpPerLeg < rm.buyingPowerFragmentationFloor then ["buying_power_fragmentation"] else []) ++
  (if apiRemaining rm g ≤ rm.apiRateLowWatermark then ["api_rate_limit"] else []) ++
  (if rejectStormThreshold ≤ rejectCount then ["reject_storm"] else [])

/-- The storm, the all-clear of an account sync, or the reset of a gate that has no
emergency. -/
def settle (g : CapitalGate ρ) (event : String) (marginUtil : ℚ) (rejectCount : ℕ) :
    CapitalGate ρ :=
  if rejectStormThreshold ≤ rejectCount then
    activateEmergency g "reject_storm" rejectStormPositionMult true
  else if event = "account_sync" ∧ marginUtil < marginAlertUtilization ∧
      rejectCount < rejectStormThreshold ∧ g.emergencyActive = true ∧
      g.emergencyReason ∈ ["margin_alert", "reject_storm"] then
    { g with
      emergencyActive := false, positionSizeMultiplier := 1, blockNewEntries := false
      emergencyReason := "" }
  else if event ≠ "order_reject" ∧ g.emergencyActive = false then
    { g with positionSizeMultiplier := 1, blockNewEntries := false, emergencyReason := "" }
  else g

/-- The last cut, of a gate that constrains without an emergency. -/
def constrain (g : CapitalGate ρ) (constraintActive : Bool) : CapitalGate ρ :=
  if constraintActive = true ∧ g.emergencyActive = false then
    { g with positionSizeMultiplier := min g.positionSizeMultiplier 0.75 }
  else g

/-- The gate with the update's connectivity, and alerted by its margin. -/
def judged (g : CapitalGate ρ) (u : BrokerUpdate) : CapitalGate ρ :=
  let connected := { g with connectivityOk := u.connectivityOk.getD g.connectivityOk }
  if marginAlertUtilization ≤ marginReading rm g.lastAccount u then
    activateEmergency connected "margin_alert" emergencyPositionMult false
  else connected

/-- `apply_account_telemetry`, up to what it returns. -/
def afterTelemetry (g : CapitalGate ρ) (u : BrokerUpdate) (now : ℚ) :
    CapitalGate ρ × ℕ × List String :=
  let marginUtil := marginReading rm g.lastAccount u
  let pruned := pruneRejectWindow (judged rm g u) now
  let reasons :=
    constraintReasons rm (judged rm g u) marginUtil (buyingPowerReading rm g u) pruned.1
  let settled := settle pruned.2 (u.event.getD "") marginUtil pruned.1
  (constrain settled !reasons.isEmpty, pruned.1, reasons)

def applyAccountTelemetry (g : CapitalGate ρ) (u : BrokerUpdate) (now : ℚ) :
    CapitalGateSnapshot × CapitalGate ρ :=
  let (g', rejectCount, reasons) := afterTelemetry rm g u now
  ({ marginUtilization := marginReading rm g.lastAccount u
     buyingPowerPerLeg := buyingPowerReading rm g u
     apiBudgetRemaining := apiRemaining rm g
     connectivityOk := u.connectivityOk.getD g.connectivityOk
     rejectCountWindow := rejectCount
     constraintActive := !reasons.isEmpty || g'.emergencyActive
     emergencyActive := g'.emergencyActive
     positionSizeMultiplier := g'.positionSizeMultiplier
     blockNewEntries := g'.blockNewEntries
     reason := String.intercalate "|" reasons }, g')

def resetCycle (g : CapitalGate ρ) (account : Account) (legCount : ℤ) (now : ℚ) :
    CapitalGateSnapshot × CapitalGate ρ :=
  let legs := max legCount 1
  applyAccountTelemetry rm
    { g with
      legCount := legs
      lastAccount := some account
      risk := rm.resetCapitalConstraintCycle g.risk account legs }
    { event := some "account_sync", account := some account
      connectivityOk := some g.connectivityOk } now

/-- The clock is read at the append and again at the prune. -/
def noteOrderReject (g : CapitalGate ρ) (stamp now : ℚ) : CapitalGateSnapshot × CapitalGate ρ :=
  applyAccountTelemetry rm
    { g with rejectTimestamps := appendBounded 32 g.rejectTimestamps stamp }
    { event := some "order_reject", connectivityOk := some g.connectivityOk } now

def snapshot (g : CapitalGate ρ) (now : ℚ) : CapitalGateSnapshot × CapitalGate ρ :=
  let kept := rm.capitalSnapshot g.risk
  let (rejectCount, g') := pruneRejectWindow g now
  ({ marginUtilization := (kept.map (·.marginUtilization)).getD 0
     buyingPowerPerLeg := (kept.map (·.buyingPowerPerLeg)).getD 1
     apiBudgetRemaining := (kept.map (·.apiBudgetRemaining)).getD 0
     connectivityOk := g.connectivityOk
     rejectCountWindow := rejectCount
     constraintActive := g.emergencyActive
     emergencyActive := g.emergencyActive
     positionSizeMultiplier := g.positionSizeMultiplier
     blockNewEntries := g.blockNewEntries
     reason := g.emergencyReason }, g')

def applyEmergencyToMaxPosition (g : CapitalGate ρ) (baseMaxPositionPct : ℚ) : ℚ :=
  if g.blockNewEntries then baseMaxPositionPct * emergencyBlockEntriesMult
  else baseMaxPositionPct * g.positionSizeMultiplier

/-- The three keys it sets in a leg's parameters, if it sets any. -/
def overrideStrategyParams (g : CapitalGate ρ) (maxPositionPct : Option ℚ) :
    Option (ℚ × Bool × String) :=
  if g.emergencyActive = false ∧ 1 ≤ g.positionSizeMultiplier then none
  else
    some (applyEmergencyToMaxPosition g (maxPositionPct.getD 0.95), g.emergencyActive,
      g.emergencyReason)

/-! ## The bridge -/

def ingestConnectivity (g : CapitalGate ρ) (connected : Bool) (now : ℚ) :
    CapitalGateSnapshot × CapitalGate ρ :=
  applyAccountTelemetry rm { g with connectivityOk := connected }
    { event := some "connectivity", connectivityOk := some connected } now

def ingestAccount (g : CapitalGate ρ) (account : Account) (legCount : ℤ) (now : ℚ) :
    CapitalGateSnapshot × CapitalGate ρ :=
  resetCycle rm { g with legCount := max legCount 1 } account legCount now

def toEmergencySignal (snapshot : CapitalGateSnapshot) : EmergencyTelemetrySignal where
  emergencyActive := snapshot.emergencyActive
  positionSizeMultiplier := snapshot.positionSizeMultiplier
  blockNewEntries := snapshot.blockNewEntries
  reason := snapshot.reason
  snapshot

/-- `leg_count or self.capital_gate.leg_count`. -/
def legCountOr (u : BrokerUpdate) (legCount : ℤ) : ℤ :=
  match u.legCount with
  | some n => if n = 0 then legCount else n
  | none => legCount

def feedCapitalGateTelemetry (g : CapitalGate ρ) (u : BrokerUpdate) (stamp now : ℚ) :
    EmergencyTelemetrySignal × CapitalGate ρ :=
  let (s, g') :=
    if u.event = some "order_reject" then noteOrderReject rm g stamp now
    else if u.event = some "connectivity" then
      ingestConnectivity rm g (u.connectivityOk.getD true) now
    else
      match u.account with
      | some account => ingestAccount rm g account (legCountOr u g.legCount) now
      | none => applyAccountTelemetry rm g u now
  (toEmergencySignal s, g')

/-! ## Runs -/

/-- A call on the gate or on the bridge, with the readings of the clock it takes. -/
inductive Op
  | resetCycle (account : Account) (legCount : ℤ) (now : ℚ)
  | applyAccountTelemetry (u : BrokerUpdate) (now : ℚ)
  | noteOrderReject (stamp now : ℚ)
  | ingestConnectivity (connected : Bool) (now : ℚ)
  | ingestAccount (account : Account) (legCount : ℤ) (now : ℚ)
  | feed (u : BrokerUpdate) (stamp now : ℚ)
  | snapshot (now : ℚ)

def step (g : CapitalGate ρ) : Op → CapitalGate ρ
  | .resetCycle account legCount now => (resetCycle rm g account legCount now).2
  | .applyAccountTelemetry u now => (applyAccountTelemetry rm g u now).2
  | .noteOrderReject stamp now => (noteOrderReject rm g stamp now).2
  | .ingestConnectivity connected now => (ingestConnectivity rm g connected now).2
  | .ingestAccount account legCount now => (ingestAccount rm g account legCount now).2
  | .feed u stamp now => (feedCapitalGateTelemetry rm g u stamp now).2
  | .snapshot now => (snapshot rm g now).2

end Model

/-! ## What a call observes -/

/-- What a call brings: an account to remember, a reject, the update it judges, and when. -/
structure Observation where
  account : Option Account
  reject : Option ℚ
  update : Option BrokerUpdate
  now : ℚ

def syncOf (account : Account) (now : ℚ) : Observation where
  account := some account
  reject := none
  update := some { event := some "account_sync", account := some account }
  now

def updateOf (u : BrokerUpdate) (now : ℚ) : Observation := ⟨none, none, some u, now⟩

def rejectOf (stamp now : ℚ) : Observation where
  account := none
  reject := some stamp
  update := some { event := some "order_reject" }
  now

def Op.observation : Op → Observation
  | .resetCycle account _ now => syncOf account now
  | .applyAccountTelemetry u now => updateOf u now
  | .noteOrderReject stamp now => rejectOf stamp now
  | .ingestConnectivity _ now => updateOf { event := some "connectivity" } now
  | .ingestAccount account _ now => syncOf account now
  | .feed u stamp now =>
    if u.event = some "order_reject" then rejectOf stamp now
    else if u.event = some "connectivity" then updateOf { event := some "connectivity" } now
    else
      match u.account with
      | some account => syncOf account now
      | none => updateOf u now
  | .snapshot now => ⟨none, none, none, now⟩

/-- The readings of the clock that are used. -/
def Observation.readings (o : Observation) : List ℚ := o.reject.toList ++ [o.now]

def rejectsOf (os : List Observation) : List ℚ := os.filterMap (·.reject)

def accountOf (os : List Observation) : Option Account := (os.filterMap (·.account)).getLast?

section Alarms
variable {ρ : Type} (rm : RiskManager ρ)

/-- Three rejects or more in the two minutes up to a judged update. -/
def Storm (before : List Observation) (o : Observation) : Prop :=
  o.update ≠ none ∧
    rejectStormThreshold ≤
      (rejectsOf (before ++ [o])).countP (o.now - rejectStormWindowSeconds ≤ ·)

/-- A margin utilization of 85% or more. -/
def Alert (before : List Observation) (o : Observation) : Prop :=
  ∃ u ∈ o.update, marginAlertUtilization ≤ marginReading rm (accountOf (before ++ [o])) u

/-- An account sync that finds neither. -/
def AllClear (before : List Observation) (o : Observation) : Prop :=
  (∃ u ∈ o.update, u.event = some "account_sync") ∧ ¬ Alert rm before o ∧ ¬ Storm before o

/-- The gate shows these two alarms, and nothing else. -/
structure Shows (alerted stormed : Prop) (g : CapitalGate ρ) : Prop where
  emergency : g.emergencyActive = true ↔ alerted ∨ stormed
  blocks : g.blockNewEntries = true ↔ stormed
  reason : g.emergencyActive = true → g.emergencyReason ∈ ["margin_alert", "reject_storm"]
  multiplierAlerted : alerted → g.positionSizeMultiplier = emergencyPositionMult
  multiplierStormed : ¬ alerted → stormed → g.positionSizeMultiplier = rejectStormPositionMult
  multiplierCalm : ¬ alerted → ¬ stormed →
    0.75 ≤ g.positionSizeMultiplier ∧ g.positionSizeMultiplier ≤ 1

variable {rm} {g : CapitalGate ρ} {alerted stormed : Prop} {os : List Observation}

theorem Shows.congr (h : Shows alerted stormed g) {alerted' stormed' : Prop}
    (ha : alerted' ↔ alerted) (hs : stormed' ↔ stormed) : Shows alerted' stormed' g := by
  obtain rfl : alerted' = alerted := propext ha
  obtain rfl : stormed' = stormed := propext hs
  exact h

/-- The alarms are read off four fields. -/
theorem Shows.frame (h : Shows alerted stormed g) {g' : CapitalGate ρ}
    (hactive : g'.emergencyActive = g.emergencyActive)
    (hreason : g'.emergencyReason = g.emergencyReason)
    (hmult : g'.positionSizeMultiplier = g.positionSizeMultiplier)
    (hblock : g'.blockNewEntries = g.blockNewEntries) : Shows alerted stormed g' where
  emergency := hactive ▸ h.emergency
  blocks := hblock ▸ h.blocks
  reason := by rw [hactive, hreason]; exact h.reason
  multiplierAlerted := hmult ▸ h.multiplierAlerted
  multiplierStormed := hmult ▸ h.multiplierStormed
  multiplierCalm := hmult ▸ h.multiplierCalm

/-- No multiplier is below that of a margin alert. -/
theorem Shows.least (h : Shows alerted stormed g) :
    emergencyPositionMult ≤ g.positionSizeMultiplier := by
  by_cases ha : alerted
  · exact (h.multiplierAlerted ha).ge
  · by_cases hs : stormed
    · rw [h.multiplierStormed ha hs]
      norm_num [emergencyPositionMult, rejectStormPositionMult]
    · have hcalm := (h.multiplierCalm ha hs).1
      norm_num [emergencyPositionMult] at hcalm ⊢
      linarith

theorem Shows.marginAlert (h : Shows alerted stormed g) :
    Shows True stormed (activateEmergency g "margin_alert" emergencyPositionMult false) where
  emergency := by simp [activateEmergency]
  blocks := by simpa [activateEmergency] using h.blocks
  reason _ := by simp [activateEmergency]
  multiplierAlerted _ := min_eq_right h.least
  multiplierStormed hna := absurd trivial hna
  multiplierCalm hna := absurd trivial hna

theorem Shows.rejectStorm (h : Shows alerted stormed g) :
    Shows alerted True (activateEmergency g "reject_storm" rejectStormPositionMult true) where
  emergency := by simp [activateEmergency]
  blocks := by simp [activateEmergency]
  reason _ := by simp [activateEmergency]
  multiplierAlerted ha := by
    have hmult := h.multiplierAlerted ha
    simp only [activateEmergency, hmult]
    norm_num [emergencyPositionMult, rejectStormPositionMult]
  multiplierStormed hna _ := by
    refine min_eq_right ?_
    by_cases hs : stormed
    · exact (h.multiplierStormed hna hs).ge
    · have hcalm := (h.multiplierCalm hna hs).1
      norm_num [rejectStormPositionMult] at hcalm ⊢
      linarith
  multiplierCalm _ hns := absurd trivial hns

/-- A gate whose multiplier was just reset, without an alarm. -/
theorem shows_reset (g : CapitalGate ρ) (hactive : g.emergencyActive = false)
    (hblock : g.blockNewEntries = false) (hmult : g.positionSizeMultiplier = 1) :
    Shows False False g where
  emergency := by simp [hactive]
  blocks := by simp [hblock]
  reason h := by simp [hactive] at h
  multiplierAlerted h := h.elim
  multiplierStormed _ h := h.elim
  multiplierCalm _ _ := by
    rw [hmult]
    norm_num

/-- An update that finds no storm clears the gate exactly when it is the account sync that
finds no alert either. -/
theorem Shows.settle (h : Shows alerted stormed g) (event : String) (marginUtil : ℚ)
    (rejectCount : ℕ) :
    Shows
      (alerted ∧ ¬ (event = "account_sync" ∧ marginUtil < marginAlertUtilization ∧
        rejectCount < rejectStormThreshold))
      (rejectStormThreshold ≤ rejectCount ∨
        (stormed ∧ ¬ (event = "account_sync" ∧ marginUtil < marginAlertUtilization ∧
          rejectCount < rejectStormThreshold)))
      (TelemetryGate.settle g event marginUtil rejectCount) := by
  unfold TelemetryGate.settle
  by_cases hstorm : rejectStormThreshold ≤ rejectCount
  · rw [if_pos hstorm]
    refine h.rejectStorm.congr ?_ ?_
    · simp [Nat.not_lt.mpr hstorm]
    · simp [hstorm]
  rw [if_neg hstorm]
  have hfew := Nat.not_le.mp hstorm
  by_cases hclear : event = "account_sync" ∧ marginUtil < marginAlertUtilization
  · -- the sync that finds neither alarm: the gate had one to clear, or it has none
    have hcleared : event = "account_sync" ∧ marginUtil < marginAlertUtilization ∧
        rejectCount < rejectStormThreshold := ⟨hclear.1, hclear.2, hfew⟩
    have hnone {g' : CapitalGate ρ} (hg' : Shows False False g') :
        Shows
          (alerted ∧ ¬ (event = "account_sync" ∧ marginUtil < marginAlertUtilization ∧
            rejectCount < rejectStormThreshold))
          (rejectStormThreshold ≤ rejectCount ∨
            (stormed ∧ ¬ (event = "account_sync" ∧ marginUtil < marginAlertUtilization ∧
              rejectCount < rejectStormThreshold))) g' :=
      hg'.congr (by simp [hcleared]) (by simp [hstorm, hcleared])
    by_cases hactive : g.emergencyActive = true
    · rw [if_pos ⟨hclear.1, hclear.2, hfew, hactive, h.reason hactive⟩]
      exact hnone (shows_reset _ rfl rfl rfl)
    · rw [Bool.not_eq_true] at hactive
      rw [if_neg (by simp [hactive]), if_pos (by simp [hclear.1, hactive])]
      exact hnone (shows_reset _ hactive rfl rfl)
  · have hkept : ¬ (event = "account_sync" ∧ marginUtil < marginAlertUtilization ∧
        rejectCount < rejectStormThreshold) := fun hall => hclear ⟨hall.1, hall.2.1⟩
    rw [if_neg fun hall => hclear ⟨hall.1, hall.2.1⟩]
    have hstays : Shows alerted stormed
        (if event ≠ "order_reject" ∧ g.emergencyActive = false then
          { g with positionSizeMultiplier := 1, blockNewEntries := false, emergencyReason := "" }
        else g) := by
      split
      case isTrue hreset =>
        have hquiet := h.emergency
        rw [hreset.2] at hquiet
        simp only [Bool.false_eq_true, false_iff, not_or] at hquiet
        have hfresh := shows_reset
          { g with positionSizeMultiplier := 1, blockNewEntries := false, emergencyReason := "" }
          hreset.2 rfl rfl
        exact hfresh.congr (by simp [hquiet.1]) (by simp [hquiet.2])
      case isFalse => exact h
    exact hstays.congr (by simp [hkept]) (by simp [hstorm, hkept])

theorem Shows.constrain (h : Shows alerted stormed g) (constraintActive : Bool) :
    Shows alerted stormed (TelemetryGate.constrain g constraintActive) := by
  unfold TelemetryGate.constrain
  split
  case isFalse => exact h
  case isTrue hcut =>
    have hquiet := h.emergency
    rw [hcut.2] at hquiet
    simp only [Bool.false_eq_true, false_iff, not_or] at hquiet
    refine ⟨h.emergency, h.blocks, h.reason, fun ha => absurd ha hquiet.1,
      fun _ hs => absurd hs hquiet.2, fun ha hs => ?_⟩
    obtain ⟨hlow, hhigh⟩ := h.multiplierCalm ha hs
    exact ⟨le_min hlow le_rfl, (min_le_left _ _).trans hhigh⟩

theorem judged_rejectTimestamps (g : CapitalGate ρ) (u : BrokerUpdate) :
    (judged rm g u).rejectTimestamps = g.rejectTimestamps := by
  unfold judged
  split <;> rfl

theorem Shows.judged (h : Shows alerted stormed g) (u : BrokerUpdate) {alert : Prop}
    (halert : alert ↔ marginAlertUtilization ≤ marginReading rm g.lastAccount u) :
    Shows (alert ∨ alerted) stormed (TelemetryGate.judged rm g u) := by
  have hconnected : Shows alerted stormed
      { g with connectivityOk := u.connectivityOk.getD g.connectivityOk } :=
    h.frame rfl rfl rfl rfl
  unfold TelemetryGate.judged
  split
  case isTrue hhigh => exact hconnected.marginAlert.congr (by simp [halert, hhigh]) Iff.rfl
  case isFalse hlow => exact hconnected.congr (by simp [halert, hlow]) Iff.rfl

/-- What one judged update does to the alarms, with the rejects it counts. -/
theorem Shows.afterTelemetry (h : Shows alerted stormed g) (u : BrokerUpdate) (now : ℚ)
    {alert storm : Prop}
    (halert : alert ↔ marginAlertUtilization ≤ marginReading rm g.lastAccount u)
    (hstorm : storm ↔ rejectStormThreshold ≤
      (prune (now - rejectStormWindowSeconds) g.rejectTimestamps).length) :
    Shows (alert ∨ (alerted ∧ ¬ (u.event.getD "" = "account_sync" ∧ ¬ alert ∧ ¬ storm)))
      (storm ∨ (stormed ∧ ¬ (u.event.getD "" = "account_sync" ∧ ¬ alert ∧ ¬ storm)))
      (TelemetryGate.afterTelemetry rm g u now).1 := by
  have hpruned : Shows (alert ∨ alerted) stormed
      (pruneRejectWindow (TelemetryGate.judged rm g u) now).2 :=
    (h.judged u halert).frame rfl rfl rfl rfl
  have hcount : (pruneRejectWindow (TelemetryGate.judged rm g u) now).1 =
      (prune (now - rejectStormWindowSeconds) g.rejectTimestamps).length := by
    rw [pruneRejectWindow, judged_rejectTimestamps]
  have hsettled := (hpruned.settle (u.event.getD "") (marginReading rm g.lastAccount u)
    (pruneRejectWindow (TelemetryGate.judged rm g u) now).1).constrain
      (!(TelemetryGate.afterTelemetry rm g u now).2.2.isEmpty)
  refine hsettled.congr ?_ ?_
  · rw [hcount, ← not_le, ← not_le, ← halert, ← hstorm]
    tauto
  · rw [hcount, ← not_le, ← not_le, ← halert, ← hstorm]

/-! ## What a call does -/

/-- A call's gate just before it judges the update. -/
structure Prepares (o : Observation) (g g' : CapitalGate ρ) : Prop where
  active : g'.emergencyActive = g.emergencyActive
  reason : g'.emergencyReason = g.emergencyReason
  multiplier : g'.positionSizeMultiplier = g.positionSizeMultiplier
  block : g'.blockNewEntries = g.blockNewEntries
  account : g'.lastAccount = o.account.or g.lastAccount
  rejects : g'.rejectTimestamps =
    o.reject.elim g.rejectTimestamps (appendBounded 32 g.rejectTimestamps)

/-- The call judges this update, or one that reads the same. -/
def Judges (rm : RiskManager ρ) (o : Observation) (u : BrokerUpdate) (g g' : CapitalGate ρ) :
    Prop :=
  ∃ prepared v, Prepares o g prepared ∧ v.event = u.event ∧
    (∀ last, marginReading rm last v = marginReading rm last u) ∧
    g' = (afterTelemetry rm prepared v o.now).1

theorem judges_sync (g : CapitalGate ρ) (account : Account) (legCount : ℤ) (now : ℚ) :
    Judges rm (syncOf account now) { event := some "account_sync", account := some account } g
      (resetCycle rm g account legCount now).2 := by
  refine ⟨_, _, ?_, ?_, ?_, rfl⟩
  · exact ⟨rfl, rfl, rfl, rfl, rfl, rfl⟩
  · rfl
  · exact fun _ => rfl

theorem judges_update (g : CapitalGate ρ) (u : BrokerUpdate) (now : ℚ) :
    Judges rm (updateOf u now) u g (applyAccountTelemetry rm g u now).2 :=
  ⟨g, u, ⟨rfl, rfl, rfl, rfl, rfl, rfl⟩, rfl, fun _ => rfl, rfl⟩

theorem judges_reject (g : CapitalGate ρ) (stamp now : ℚ) :
    Judges rm (rejectOf stamp now) { event := some "order_reject" } g
      (noteOrderReject rm g stamp now).2 := by
  refine ⟨_, _, ?_, ?_, ?_, rfl⟩
  · exact ⟨rfl, rfl, rfl, rfl, rfl, rfl⟩
  · rfl
  · exact fun _ => rfl

theorem judges_connectivity (g : CapitalGate ρ) (connected : Bool) (now : ℚ) :
    Judges rm (updateOf { event := some "connectivity" } now) { event := some "connectivity" } g
      (ingestConnectivity rm g connected now).2 := by
  refine ⟨_, _, ?_, ?_, ?_, rfl⟩
  · exact ⟨rfl, rfl, rfl, rfl, rfl, rfl⟩
  · rfl
  · exact fun _ => rfl

theorem judges_account (g : CapitalGate ρ) (account : Account) (legCount : ℤ) (now : ℚ) :
    Judges rm (syncOf account now) { event := some "account_sync", account := some account } g
      (ingestAccount rm g account legCount now).2 := by
  refine ⟨_, _, ?_, ?_, ?_, rfl⟩
  · exact ⟨rfl, rfl, rfl, rfl, rfl, rfl⟩
  · rfl
  · exact fun _ => rfl

variable (rm) in
/-- Every call judges an update, a plain snapshot apart. -/
theorem step_judges (g : CapitalGate ρ) (op : Op) :
    (∃ u, op.observation.update = some u ∧ Judges rm op.observation u g (step rm g op)) ∨
      (op.observation.update = none ∧ op.observation.account = none ∧
        op.observation.reject = none ∧
        step rm g op = (pruneRejectWindow g op.observation.now).2) := by
  cases op with
  | resetCycle account legCount now => exact .inl ⟨_, rfl, judges_sync g account legCount now⟩
  | applyAccountTelemetry u now => exact .inl ⟨_, rfl, judges_update g u now⟩
  | noteOrderReject stamp now => exact .inl ⟨_, rfl, judges_reject g stamp now⟩
  | ingestConnectivity connected now =>
    exact .inl ⟨_, rfl, judges_connectivity g connected now⟩
  | ingestAccount account legCount now =>
    exact .inl ⟨_, rfl, judges_account g account legCount now⟩
  | feed u stamp now =>
    refine .inl ?_
    dsimp only [step, feedCapitalGateTelemetry, Op.observation]
    by_cases hreject : u.event = some "order_reject"
    · rw [if_pos hreject, if_pos hreject]
      exact ⟨_, rfl, judges_reject g stamp now⟩
    rw [if_neg hreject, if_neg hreject]
    by_cases hconnectivity : u.event = some "connectivity"
    · rw [if_pos hconnectivity, if_pos hconnectivity]
      exact ⟨_, rfl, judges_connectivity g _ now⟩
    rw [if_neg hconnectivity, if_neg hconnectivity]
    cases u.account with
    | some account => exact ⟨_, rfl, judges_account g account _ now⟩
    | none => exact ⟨_, rfl, judges_update g u now⟩
  | snapshot now => exact .inr ⟨rfl, rfl, rfl, rfl⟩

theorem afterTelemetry_rejects (g : CapitalGate ρ) (u : BrokerUpdate) (now : ℚ) :
    (afterTelemetry rm g u now).1.rejectTimestamps =
      prune (now - rejectStormWindowSeconds) g.rejectTimestamps := by
  unfold afterTelemetry constrain settle activateEmergency
  dsimp only
  (repeat' split) <;> simp only [pruneRejectWindow, judged_rejectTimestamps]

theorem judged_lastAccount (g : CapitalGate ρ) (u : BrokerUpdate) :
    (judged rm g u).lastAccount = g.lastAccount := by
  unfold judged
  split <;> rfl

theorem afterTelemetry_lastAccount (g : CapitalGate ρ) (u : BrokerUpdate) (now : ℚ) :
    (afterTelemetry rm g u now).1.lastAccount = g.lastAccount := by
  unfold afterTelemetry constrain settle activateEmergency
  dsimp only
  (repeat' split) <;> simp only [pruneRejectWindow, judged_lastAccount]

/-! ## Runs -/

/-- The clock of the observations. -/
def readingsOf (os : List Observation) : List ℚ := os.flatMap Observation.readings

/-- The gate has kept what it needs of the history. -/
structure Kept (rm : RiskManager ρ) (os : List Observation) (g : CapitalGate ρ) : Prop where
  shows : Shows (Since (Alert rm) (AllClear rm) os) (Since Storm (AllClear rm) os) g
  account : g.lastAccount = accountOf os
  rejects : ∀ now, (∀ r ∈ readingsOf os, r ≤ now) →
    Keeps 32 (now - rejectStormWindowSeconds) (rejectsOf os) g.rejectTimestamps

theorem rejectsOf_concat (os : List Observation) (o : Observation) :
    rejectsOf (os ++ [o]) = rejectsOf os ++ o.reject.toList := by
  unfold rejectsOf
  rw [List.filterMap_append]
  cases h : o.reject <;> simp [h]

theorem accountOf_concat (os : List Observation) (o : Observation) :
    accountOf (os ++ [o]) = o.account.or (accountOf os) := by
  unfold accountOf
  rw [List.filterMap_append]
  cases h : o.account <;> simp [h]

theorem mem_readingsOf_of_mem_rejectsOf {os : List Observation} {t : ℚ} (h : t ∈ rejectsOf os) :
    t ∈ readingsOf os := by
  obtain ⟨o, ho, hreject⟩ := List.mem_filterMap.mp h
  exact List.mem_flatMap.mpr ⟨o, ho, by simp [Observation.readings, hreject]⟩

/-- The deque after a call that took a reject, or none. -/
theorem Kept.rejects_after (h : Kept rm os g) {o : Observation}
    (hbefore : ∀ r ∈ readingsOf os, ∀ r' ∈ o.readings, r ≤ r') :
    Keeps 32 (o.now - rejectStormWindowSeconds) (rejectsOf (os ++ [o]))
      (o.reject.elim g.rejectTimestamps (appendBounded 32 g.rejectTimestamps)) := by
  have hnow : o.now ∈ o.readings := by simp [Observation.readings]
  have hkeeps := h.rejects o.now fun r hr => hbefore r hr o.now hnow
  rw [rejectsOf_concat]
  cases hreject : o.reject with
  | none => simpa using hkeeps
  | some stamp =>
    have hstamp : stamp ∈ o.readings := by simp [Observation.readings, hreject]
    exact hkeeps.append fun t ht =>
      hbefore t (mem_readingsOf_of_mem_rejectsOf ht) stamp hstamp

theorem readingsOf_concat (os : List Observation) (o : Observation) :
    readingsOf (os ++ [o]) = readingsOf os ++ o.readings := by
  simp [readingsOf]

/-- The alarms after a judged update. -/
theorem Kept.shows_judged (h : Kept rm os g) {o : Observation} {u : BrokerUpdate}
    (hu : o.update = some u) {g' : CapitalGate ρ} (hjudges : Judges rm o u g g')
    (hbefore : ∀ r ∈ readingsOf os, ∀ r' ∈ o.readings, r ≤ r') :
    Shows (Since (Alert rm) (AllClear rm) (os ++ [o])) (Since Storm (AllClear rm) (os ++ [o]))
      g' := by
  obtain ⟨prepared, v, hprep, hevent, hmargin, rfl⟩ := hjudges
  have hkeeps := h.rejects_after hbefore
  rw [← hprep.rejects] at hkeeps
  have hstorm : Storm os o ↔ rejectStormThreshold ≤
      (prune (o.now - rejectStormWindowSeconds) prepared.rejectTimestamps).length := by
    have hsmall : rejectStormThreshold ≤ 32 := by simp [rejectStormThreshold]
    rw [hkeeps.le_length_prune_iff hsmall, Storm, hu]
    simp
  have halert : Alert rm os o ↔
      marginAlertUtilization ≤ marginReading rm prepared.lastAccount v := by
    rw [hmargin, hprep.account, h.account, ← accountOf_concat, Alert, hu]
    simp
  have hclear : AllClear rm os o ↔
      v.event.getD "" = "account_sync" ∧ ¬ Alert rm os o ∧ ¬ Storm os o := by
    have hsync : (∃ u ∈ o.update, u.event = some "account_sync") ↔
        u.event.getD "" = "account_sync" := by
      rw [hu]
      cases hu' : u.event <;> simp [hu']
    rw [AllClear, hevent, hsync]
  have hframe := h.shows.frame hprep.active hprep.reason hprep.multiplier hprep.block
  refine (hframe.afterTelemetry v o.now halert hstorm).congr ?_ ?_
  · rw [since_concat, hclear]
  · rw [since_concat, hclear]

theorem Kept.step (h : Kept rm os g) (op : Op)
    (hbefore : ∀ r ∈ readingsOf os, ∀ r' ∈ op.observation.readings, r ≤ r') :
    Kept rm (os ++ [op.observation]) (TelemetryGate.step rm g op) := by
  have hnow : op.observation.now ∈ op.observation.readings := by simp [Observation.readings]
  have hkeeps := h.rejects_after hbefore
  have hlater {dq : List ℚ} (hdq : Keeps 32 (op.observation.now - rejectStormWindowSeconds)
      (rejectsOf (os ++ [op.observation])) dq) (now : ℚ)
      (hpast : ∀ r ∈ readingsOf (os ++ [op.observation]), r ≤ now) :
      Keeps 32 (now - rejectStormWindowSeconds) (rejectsOf (os ++ [op.observation])) dq := by
    refine hdq.later (sub_le_sub_right (hpast _ ?_) _)
    rw [readingsOf_concat]
    exact List.mem_append_right _ hnow
  rcases step_judges rm g op with ⟨u, hu, hjudges⟩ | ⟨hu, haccount, hreject, hstep⟩
  · refine ⟨h.shows_judged hu hjudges hbefore, ?_, ?_⟩
    · obtain ⟨prepared, v, hprep, -, -, hg'⟩ := hjudges
      rw [hg', afterTelemetry_lastAccount, hprep.account, h.account, accountOf_concat]
    · obtain ⟨prepared, v, hprep, -, -, hg'⟩ := hjudges
      rw [hg', afterTelemetry_rejects, hprep.rejects]
      exact hlater hkeeps.prune
  · -- a plain snapshot only prunes
    have hnone : ¬ Alert rm os op.observation ∧ ¬ Storm os op.observation ∧
        ¬ AllClear rm os op.observation := by
      simp [Alert, Storm, AllClear, hu]
    rw [hstep]
    refine ⟨?_, ?_, ?_⟩
    · refine (h.shows.congr ?_ ?_).frame rfl rfl rfl rfl
      · rw [since_concat]
        simp [hnone]
      · rw [since_concat]
        simp [hnone]
    · rw [accountOf_concat, haccount]
      exact h.account
    · rw [hreject] at hkeeps
      exact hlater hkeeps.prune

variable (rm) in
theorem kept_run (risk : ρ) (legCount : ℤ) (ops : List Op)
    (hclock : (readingsOf (ops.map Op.observation)).Pairwise (· ≤ ·)) :
    Kept rm (ops.map Op.observation) (run (step rm) (.new risk legCount) ops) := by
  induction ops using List.reverseRecOn with
  | nil =>
    refine ⟨?_, rfl, fun now _ => keeps_nil _ _⟩
    exact (shows_reset _ rfl rfl rfl).congr (by simp [not_since_nil]) (by simp [not_since_nil])
  | append_singleton ops op ih =>
    rw [List.map_append, List.map_singleton] at hclock ⊢
    rw [readingsOf_concat, List.pairwise_append] at hclock
    rw [run_append, run_cons, run_nil]
    exact (ih hclock.1).step op hclock.2.2

end Alarms

section Gate
variable {ρ : Type} (rm : RiskManager ρ)

/-- **The capital gate shows its history.** Whatever is called on it, at whatever times in
order: it blocks entries exactly when three rejects came within two minutes and no account
sync has found all clear since, it is in an emergency exactly when that or a margin alert
has happened since, and what a leg may hold is cut accordingly, to nothing, to 35%, or to no
less than 75%. -/
theorem gate_shows_history (risk : ρ) (legCount : ℤ) (ops : List Op)
    (hclock : (readingsOf (ops.map Op.observation)).Pairwise (· ≤ ·)) :
    let os := ops.map Op.observation
    let g := run (step rm) (.new risk legCount) ops
    (g.blockNewEntries = true ↔ Since Storm (AllClear rm) os) ∧
      (g.emergencyActive = true ↔
        Since (Alert rm) (AllClear rm) os ∨ Since Storm (AllClear rm) os) ∧
      (Since Storm (AllClear rm) os → ∀ base, applyEmergencyToMaxPosition g base = 0) ∧
      (¬ Since Storm (AllClear rm) os → Since (Alert rm) (AllClear rm) os →
        ∀ base, applyEmergencyToMaxPosition g base = base * emergencyPositionMult) ∧
      (g.emergencyActive = false → ∃ m : ℚ, 0.75 ≤ m ∧ m ≤ 1 ∧
        ∀ base, applyEmergencyToMaxPosition g base = base * m) := by
  intro os g
  have hshows := (kept_run rm risk legCount ops hclock).shows
  have hopen (h : ¬ Since Storm (AllClear rm) os) (base : ℚ) :
      applyEmergencyToMaxPosition g base = base * g.positionSizeMultiplier := by
    rw [applyEmergencyToMaxPosition, if_neg (mt hshows.blocks.mp h)]
  refine ⟨hshows.blocks, hshows.emergency, fun hstorm base => ?_, fun hnone halert base => ?_,
    fun hquiet => ?_⟩
  · rw [applyEmergencyToMaxPosition, if_pos (hshows.blocks.mpr hstorm),
      emergencyBlockEntriesMult, mul_zero]
  · rw [hopen hnone, hshows.multiplierAlerted halert]
  · have hnone : ¬ (Since (Alert rm) (AllClear rm) os ∨ Since Storm (AllClear rm) os) := by
      intro halarm
      have hactive : g.emergencyActive = true := hshows.emergency.mpr halarm
      rw [hquiet] at hactive
      cases hactive
    rw [not_or] at hnone
    obtain ⟨hlow, hhigh⟩ := hshows.multiplierCalm hnone.1 hnone.2
    exact ⟨g.positionSizeMultiplier, hlow, hhigh, hopen hnone.2⟩

end Gate

/-- A risk manager that finds an account's margin in its cash share. -/
def cashRisk : RiskManager Unit where
  marginUtilizationCeiling := 0.75
  apiRateLowWatermark := -1
  buyingPowerFragmentationFloor := 0
  computeMarginUtilization account := 1 - account.cash / account.equity
  computeBuyingPowerFragmentation account legs := account.buyingPower / legs
  resetCapitalConstraintCycle _ _ _ := ()
  capitalSnapshot _ := none

/-- Three rejects within a minute, and a look at the gate. -/
def stormOps : List Op :=
  [.noteOrderReject 0 0, .noteOrderReject 30 30, .noteOrderReject 60 60, .snapshot 70]

theorem gate_shows_history_storm :
    applyEmergencyToMaxPosition (run (step cashRisk) (.new () 1) stormOps) 1000 = 0 := by
  have hclock : (readingsOf (stormOps.map Op.observation)).Pairwise (· ≤ ·) := by
    simp [stormOps, readingsOf, Op.observation, rejectOf, Observation.readings]
    norm_num
  have hstorm : Storm [rejectOf 0 0, rejectOf 30 30] (rejectOf 60 60) := by
    refine ⟨by simp [rejectOf], ?_⟩
    simp [rejectOf, rejectsOf, List.countP_cons, rejectStormWindowSeconds, rejectStormThreshold]
    norm_num
  have hsince : Since Storm (AllClear cashRisk) (stormOps.map Op.observation) := by
    refine ⟨_, _, [⟨none, none, none, 70⟩], rfl, hstorm, fun mid o rest hmid => ?_⟩
    obtain ⟨rfl, rfl, rfl⟩ : mid = [] ∧ o = ⟨none, none, none, 70⟩ ∧ rest = [] := by
      cases mid <;> simp_all
    simp [AllClear]
  exact (gate_shows_history cashRisk () 1 stormOps hclock).2.2.1 hsince 1000

end TradingPlatform.Engine.TelemetryGate
