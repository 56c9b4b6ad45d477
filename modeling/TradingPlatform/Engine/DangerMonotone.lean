import TradingPlatform.Engine.EventPosture
import Mathlib.Tactic.Linarith
import Mathlib.Tactic.NormNum

/-! # Danger and the posture

A nearer event never loosens the posture, and a graver one never should: a severity
below one scales the cap down, so the posture is looser once the event is graver. -/

namespace TradingPlatform.Engine.Regime

open TradingPlatform.Core
open TradingPlatform.Ingestor (minute second)

/-! ## The nearest event -/

/-- The event counts, and is the first of those nearest in time. -/
structure IsNearest (before : List ScheduledEvent) (event : ScheduledEvent)
    (after : List ScheduledEvent) (now : ℤ) : Prop where
  counts : event.distance now < farthest
  earlier : ∀ other ∈ before, event.distance now < other.distance now
  later : ∀ other ∈ after, event.distance now ≤ other.distance now

@[simp] theorem distance_severity (event : ScheduledEvent) (severity : ℚ) (now : ℤ) :
    ({ event with severity } : ScheduledEvent).distance now = event.distance now := rfl

section Nearest
variable {before after events : List ScheduledEvent} {event : ScheduledEvent} {now : ℤ}

@[simp] theorem nearestEvent_nil (now : ℤ) : nearestEvent [] now = (none, farthest) := rfl

theorem nearestEvent_append_singleton (events : List ScheduledEvent) (event : ScheduledEvent)
    (now : ℤ) : nearestEvent (events ++ [event]) now =
      if event.distance now < (nearestEvent events now).2 then (some event, event.distance now)
      else nearestEvent events now := by
  unfold nearestEvent
  rw [List.foldl_append]
  rfl

/-- The distance is the least of those of the events and the farthest that counts. -/
theorem le_nearest_iff {delta : ℤ} : delta ≤ (nearestEvent events now).2 ↔
    delta ≤ farthest ∧ ∀ event ∈ events, delta ≤ event.distance now := by
  induction events using List.reverseRecOn with
  | nil => simp
  | append_singleton events event ih =>
    rw [nearestEvent_append_singleton]
    simp only [List.mem_append, List.mem_singleton, or_imp, forall_and, forall_eq, ← and_assoc, ← ih]
    split
    · simp only [iff_and_self]
      omega
    · simp only [iff_self_and]
      omega

theorem IsNearest.nearestEvent (h : IsNearest before event after now) :
    nearestEvent (before ++ event :: after) now = (some event, event.distance now) := by
  have hbefore : event.distance now < (Regime.nearestEvent before now).2 :=
    le_nearest_iff.mpr ⟨h.counts, h.earlier⟩
  have hlater := h.later
  clear h
  induction after using List.reverseRecOn with
  | nil => rw [nearestEvent_append_singleton, if_pos hbefore]
  | append_singleton after next ih =>
    simp only [List.mem_append, List.mem_singleton, or_imp, forall_and, forall_eq] at hlater
    have hsplit : before ++ event :: (after ++ [next]) = (before ++ event :: after) ++ [next] := by
      simp
    rw [hsplit, nearestEvent_append_singleton, ih hlater.1, if_neg (not_lt.mpr hlater.2)]

theorem exists_isNearest {delta : ℤ} (h : nearestEvent events now = (some event, delta)) :
    ∃ before after, events = before ++ event :: after ∧ IsNearest before event after now := by
  induction events using List.reverseRecOn with
  | nil => cases h
  | append_singleton events next ih =>
    rw [nearestEvent_append_singleton] at h
    split at h
    · rename_i hnear
      cases h
      obtain ⟨hcounts, hearlier⟩ := le_nearest_iff.mp (Int.add_one_le_of_lt hnear)
      exact ⟨events, [], rfl, hcounts, hearlier, by simp⟩
    · rename_i hfar
      obtain ⟨before, after, rfl, hnearest⟩ := ih h
      rw [hnearest.nearestEvent, not_lt] at hfar
      refine ⟨before, after ++ [next], by simp, hnearest.counts, hnearest.earlier, ?_⟩
      simpa [or_imp, forall_and] using ⟨hnearest.later, hfar⟩

/-- Where nothing counts, the distance is the farthest. -/
theorem nearest_of_none (h : (nearestEvent events now).1 = none) :
    nearestEvent events now = (none, farthest) := by
  induction events using List.reverseRecOn with
  | nil => rfl
  | append_singleton events event ih =>
    rw [nearestEvent_append_singleton] at h ⊢
    split
    · simp_all
    · rw [if_neg ‹_›] at h
      exact ih h

/-- One event more is no farther. -/
theorem nearest_insert_le (before after : List ScheduledEvent) (event : ScheduledEvent) (now : ℤ) :
    (nearestEvent (before ++ event :: after) now).2 ≤ (nearestEvent (before ++ after) now).2 := by
  obtain ⟨hfar, hall⟩ := le_nearest_iff.mp
    (le_refl (nearestEvent (before ++ event :: after) now).2)
  refine le_nearest_iff.mpr ⟨hfar, fun other hother => hall other ?_⟩
  simp only [List.mem_append, List.mem_cons] at hother ⊢
  tauto

/-- A severity does not change how far the nearest event is. -/
theorem nearest_severity (before after : List ScheduledEvent) (event : ScheduledEvent)
    (severity : ℚ) (now : ℤ) :
    (nearestEvent (before ++ { event with severity } :: after) now).2 =
      (nearestEvent (before ++ event :: after) now).2 := by
  refine eq_of_forall_le_iff fun delta => ?_
  simp [le_nearest_iff, or_imp, forall_and]

end Nearest

/-! ## The posture at a distance -/

theorem posture_mono {hours hours' : ℚ} (h : hours ≤ hours') :
    (posture hours).1 ≤ (posture hours').1 ∧ (posture hours').2 ≤ (posture hours).2 := by
  unfold posture
  split_ifs <;> first | (exfalso; linarith) | norm_num

theorem posture_bounds (hours : ℚ) : 0 < (posture hours).1 ∧ (posture hours).1 ≤ 1 := by
  unfold posture
  split_ifs <;> norm_num

theorem posture_far {hours : ℚ} (h : 72 < hours) : posture hours = (1, 0) := by
  unfold posture
  split_ifs <;> first | (exfalso; linarith) | rfl

theorem posture_imminent {hours : ℚ} (h : hours ≤ 1) : posture hours = (25 / 100, 60 / 100) :=
  if_pos h

theorem hoursOf_mono {delta delta' : ℤ} (h : delta ≤ delta') : hoursOf delta ≤ hoursOf delta' := by
  have hdelta : (delta : ℚ) ≤ delta' := by exact_mod_cast h
  unfold hoursOf
  gcongr
  norm_num [hour, minute, second]

/-! ## The override -/

theorem severityScale_le_one (severity : ℚ) : max (1 / 2) (min 1 severity) ≤ 1 :=
  max_le (by norm_num) (min_le_left 1 severity)

theorem severityScale_lt_one {severity : ℚ} (h : severity < 1) :
    max (1 / 2) (min 1 severity) < 1 :=
  max_lt (by norm_num) (min_lt_of_right_lt h)

theorem severityScale_of_gravest {severity : ℚ} (h : 1 ≤ severity) :
    max (1 / 2) (min 1 severity) = 1 := by
  rw [min_eq_left h]
  norm_num

theorem posture_farthest : posture (hoursOf farthest) = (1, 0) :=
  posture_far (by norm_num [hoursOf, farthest, day, hour, minute, second])

section Override
variable (events : List ScheduledEvent) (now : ℤ)

theorem override_cases :
    (nearestEvent events now = (none, farthest) ∧ riskPostureOverride events now =
      { positionCapMultiplier := 1, entryZWidenSigma := 0, eventLabel := none, active := false }) ∨
    ∃ event delta, nearestEvent events now = (some event, delta) ∧
      (riskPostureOverride events now).positionCapMultiplier =
        (posture (hoursOf delta)).1 * max (1 / 2) (min 1 event.severity) := by
  rcases hnearest : nearestEvent events now with ⟨_ | event, delta⟩
  · have hnone := nearest_of_none (congrArg Prod.fst hnearest)
    rw [hnearest] at hnone
    exact .inl ⟨hnone, by simp [riskPostureOverride, hnearest]⟩
  · exact .inr ⟨event, delta, rfl, by simp [riskPostureOverride, hnearest]⟩

theorem cap_le_posture : (riskPostureOverride events now).positionCapMultiplier ≤
    (posture (hoursOf (nearestEvent events now).2)).1 := by
  rcases override_cases events now with ⟨hnearest, heq⟩ | ⟨event, delta, hnearest, heq⟩
  · simp [heq, hnearest, posture_farthest]
  · rw [heq, hnearest]
    exact mul_le_of_le_one_right (posture_bounds _).1.le (severityScale_le_one _)

@[simp] theorem override_zWiden : (riskPostureOverride events now).entryZWidenSigma =
    (posture (hoursOf (nearestEvent events now).2)).2 := by
  rcases override_cases events now with ⟨hnearest, heq⟩ | ⟨event, delta, hnearest, -⟩
  · simp [heq, hnearest, posture_farthest]
  · simp [riskPostureOverride, hnearest]

theorem override_active : (riskPostureOverride events now).active =
    (decide ((riskPostureOverride events now).positionCapMultiplier < 1) ||
      decide (0 < (riskPostureOverride events now).entryZWidenSigma)) := by
  rcases override_cases events now with ⟨-, heq⟩ | ⟨event, delta, hnearest, -⟩
  · simp [heq]
  · simp [riskPostureOverride, hnearest]

theorem override_tight : (riskPostureOverride events now).tight =
    decide ((riskPostureOverride events now).positionCapMultiplier ≤ 35 / 100) := by
  rw [RiskPostureOverride.tight, override_active, Bool.eq_iff_iff]
  simp only [Bool.and_eq_true, Bool.or_eq_true, decide_eq_true_eq, and_iff_right_iff_imp]
  intro hle
  exact .inl (by linarith)

theorem override_imminent : (riskPostureOverride events now).imminent =
    decide (hoursOf (nearestEvent events now).2 ≤ 1) := by
  rcases override_cases events now with ⟨hnearest, heq⟩ | ⟨event, delta, hnearest, -⟩
  · simp only [heq, hnearest, RiskPostureOverride.imminent]
    norm_num [hoursOf, farthest, day, hour, minute, second]
  · have hhours : (riskPostureOverride events now).hoursToEvent = some (hoursOf delta) := by
      simp [riskPostureOverride, hnearest]
    rw [RiskPostureOverride.imminent, override_active, hhours, override_zWiden, hnearest,
      Bool.eq_iff_iff]
    simp only [Bool.and_eq_true, Bool.or_eq_true, Option.any_some, decide_eq_true_eq,
      and_iff_right_iff_imp]
    intro himminent
    rw [posture_imminent himminent]
    norm_num

end Override

/-! ## The decision -/

@[simp] theorem withCalendar_blockEntries (draft : RiskModeDraft) (override : RiskPostureOverride) :
    (draft.withCalendar override).blockEntries = (draft.blockEntries || override.imminent) := by
  cases htight : override.tight <;> cases himminent : override.imminent <;>
    simp [RiskModeDraft.withCalendar, RiskModeDraft.off, htight, himminent]

/-- An override that is no looser gives a decision that is no looser. -/
theorem decision_tightens (stress : StressFactorReading ℚ)
    {override override' : RiskPostureOverride}
    (hcap : override'.positionCapMultiplier ≤ override.positionCapMultiplier)
    (htight : override.tight → override'.tight) (himminent : override.imminent → override'.imminent) :
    (evaluateRiskMode stress override').grossExposureCapMultiplier ≤
        (evaluateRiskMode stress override).grossExposureCapMultiplier ∧
      ((evaluateRiskMode stress override).blockNewEntries →
        (evaluateRiskMode stress override').blockNewEntries) := by
  simp only [evaluateRiskMode, withCalendar_blockEntries, Bool.or_eq_true]
  refine ⟨?_, Or.imp_right himminent⟩
  simp only [RiskModeDraft.withCalendar, RiskModeDraft.off]
  split_ifs <;> simp_all

/-! ## Monotone in danger -/

/-- More danger never loosens the posture or the decision, and an event that is far
does not tighten them. -/
structure MonotoneInDanger (events : List ScheduledEvent) (now : ℤ) : Prop where
  /-- One event more, wherever it stands. -/
  added : ∀ before event after, events = before ++ after → 0 < event.severity →
    event.severity ≤ 1 →
      (riskPostureOverride (before ++ event :: after) now).positionCapMultiplier ≤
          (riskPostureOverride events now).positionCapMultiplier ∧
        (riskPostureOverride events now).entryZWidenSigma ≤
          (riskPostureOverride (before ++ event :: after) now).entryZWidenSigma
  /-- One event graver. -/
  raised : ∀ before event after severity, events = before ++ event :: after →
    event.severity ≤ severity → severity ≤ 1 →
      (riskPostureOverride (before ++ { event with severity } :: after) now).positionCapMultiplier ≤
          (riskPostureOverride events now).positionCapMultiplier ∧
        (riskPostureOverride events now).entryZWidenSigma ≤
          (riskPostureOverride (before ++ { event with severity } :: after) now).entryZWidenSigma
  far : (∀ event ∈ events, 72 * hour < event.distance now) →
    (riskPostureOverride events now).active = false ∧
      (riskPostureOverride events now).positionCapMultiplier = 1 ∧
      (riskPostureOverride events now).entryZWidenSigma = 0
  decided : ∀ before event after stress, events = before ++ after → 0 < event.severity →
    event.severity ≤ 1 →
      (evaluateRiskMode stress
          (riskPostureOverride (before ++ event :: after) now)).grossExposureCapMultiplier ≤
        (evaluateRiskMode stress (riskPostureOverride events now)).grossExposureCapMultiplier ∧
      ((evaluateRiskMode stress (riskPostureOverride events now)).blockNewEntries →
        (evaluateRiskMode stress
          (riskPostureOverride (before ++ event :: after) now)).blockNewEntries)

/-- Whichever event is nearest, none could be graver. -/
def NearestGravest (events : List ScheduledEvent) (now : ℤ) : Prop :=
  ∀ before event after, events = before ++ event :: after → IsNearest before event after now →
    1 ≤ event.severity

section Gravest
variable {events : List ScheduledEvent} {now : ℤ}

theorem NearestGravest.cap_eq (h : NearestGravest events now) :
    (riskPostureOverride events now).positionCapMultiplier =
      (posture (hoursOf (nearestEvent events now).2)).1 := by
  rcases override_cases events now with ⟨hnearest, heq⟩ | ⟨event, delta, hnearest, heq⟩
  · simp [heq, hnearest, posture_farthest]
  · obtain ⟨before, after, hevents, hfirst⟩ := exists_isNearest hnearest
    rw [heq, hnearest, severityScale_of_gravest (h before event after hevents hfirst), mul_one]

/-- Events whose nearest is no farther tighten a posture that is not scaled. -/
theorem NearestGravest.tightens (h : NearestGravest events now) {events' : List ScheduledEvent}
    (hle : (nearestEvent events' now).2 ≤ (nearestEvent events now).2) :
    (riskPostureOverride events' now).positionCapMultiplier ≤
        (riskPostureOverride events now).positionCapMultiplier ∧
      (riskPostureOverride events now).entryZWidenSigma ≤
        (riskPostureOverride events' now).entryZWidenSigma := by
  obtain ⟨hcap, hwiden⟩ := posture_mono (hoursOf_mono hle)
  rw [h.cap_eq]
  exact ⟨(cap_le_posture events' now).trans hcap, by simpa using hwiden⟩

theorem NearestGravest.monotone (h : NearestGravest events now) : MonotoneInDanger events now where
  added := by
    rintro before event after rfl - -
    exact h.tightens (nearest_insert_le before after event now)
  raised := by
    rintro before event after severity rfl - -
    exact h.tightens (nearest_severity before after event severity now).le
  far := by
    intro hfar
    have hdelta : 72 * hour < (nearestEvent events now).2 :=
      le_nearest_iff.mpr ⟨by norm_num [farthest, day, hour, minute, second], hfar⟩
    have hhours : 72 < hoursOf (nearestEvent events now).2 := by
      have hcast : ((72 * hour : ℤ) : ℚ) < (nearestEvent events now).2 := by exact_mod_cast hdelta
      rw [hoursOf, lt_div_iff₀ (by norm_num [hour, minute, second])]
      simpa using hcast
    simp [override_active, h.cap_eq, posture_far hhours]
  decided := by
    rintro before event after stress rfl - -
    have hle := nearest_insert_le before after event now
    obtain ⟨hcap, -⟩ := h.tightens hle
    refine decision_tightens stress hcap ?_ ?_
    · simpa [override_tight] using hcap.trans
    · simpa [override_imminent] using (hoursOf_mono hle).trans

end Gravest

/-- Exactly the events whose nearest is as grave as can be meet it. -/
theorem monotoneInDanger_iff (events : List ScheduledEvent) (now : ℤ) :
    MonotoneInDanger events now ↔ NearestGravest events now := by
  refine ⟨?_, NearestGravest.monotone⟩
  rintro h before event after rfl hnearest
  by_contra hlight
  rw [not_le] at hlight
  -- Made as grave as can be, the event is still the nearest, and its cap is not scaled.
  have hraised : IsNearest before { event with severity := 1 } after now :=
    ⟨hnearest.counts, hnearest.earlier, hnearest.later⟩
  obtain ⟨hcap, -⟩ := h.raised before event after 1 rfl hlight.le le_rfl
  simp only [riskPostureOverride, hnearest.nearestEvent, hraised.nearestEvent, distance_severity,
    severityScale_of_gravest le_rfl] at hcap
  have hscale := mul_lt_mul_of_pos_left (severityScale_lt_one hlight)
    (posture_bounds (hoursOf (event.distance now))).1
  linarith

/-- With one event in four days, of a severity below one, the posture is active. -/
theorem light_event_far_ahead : ¬ MonotoneInDanger
    [{ eventType := "CPI", eventTime := 96 * hour, label := "CPI_2026_07", severity := 85 / 100 }]
    0 := by
  intro h
  obtain ⟨-, hcap, -⟩ := h.far (by simp [ScheduledEvent.distance, hour, minute, second])
  norm_num [riskPostureOverride, nearestEvent, ScheduledEvent.distance, farthest, hoursOf, posture,
    day, hour, minute, second] at hcap

/-! ## The calendar -/

section Calendar
variable (overlay : EventCalendarOverlay) (zone : ExchangeZone) (fromordinal : ℤ → Lib.Date)
  (now : ℤ)

/-- The events of the calendar have severities above zero and at most one, and those of the
FOMC are the gravest. -/
theorem scheduledEvents_severity :
    ∀ event ∈ overlay.scheduledEvents zone fromordinal now,
      0 < event.severity ∧ event.severity ≤ 1 ∧ (event.severity = 1 ↔ event.eventType = "FOMC") := by
  intro event hevent
  rw [EventCalendarOverlay.scheduledEvents, (Lib.StableSort.sortBy_perm _).mem_iff] at hevent
  simp only [List.mem_append, List.mem_map, List.mem_flatMap, Option.mem_toList,
    Option.map_eq_some_iff] at hevent
  obtain (⟨-, -, rfl⟩ | ⟨-, -, ⟨-, -, rfl⟩ | ⟨-, -, rfl⟩⟩) | ⟨-, -, rfl⟩ := hevent <;> simp <;> norm_num

/-- While an event of the FOMC is the nearest, more danger tightens the calendar's posture. -/
theorem monotone_before_fomc
    (h : ∀ before event after, overlay.scheduledEvents zone fromordinal now =
      before ++ event :: after → IsNearest before event after now → event.eventType = "FOMC") :
    MonotoneInDanger (overlay.scheduledEvents zone fromordinal now) now := by
  refine NearestGravest.monotone fun before event after hevents hnearest => ?_
  have hmem : event ∈ overlay.scheduledEvents zone fromordinal now := by simp [hevents]
  obtain ⟨-, -, hgravest⟩ := scheduledEvents_severity overlay zone fromordinal now event hmem
  exact (hgravest.mpr (h before event after hevents hnearest)).ge

end Calendar

end TradingPlatform.Engine.Regime
