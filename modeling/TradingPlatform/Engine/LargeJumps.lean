import TradingPlatform.Engine.MacroVelocity
import Mathlib.Algebra.Order.Field.Rat
import Mathlib.Data.List.DropRight

/-! # How large a jump has to be

A reading is scored among the readings it is in the window with, itself included,
so its squared score is at most the number of the others. With a threshold above
that no jump is large enough, whatever its size. -/

namespace TradingPlatform.Engine.Regime

open TradingPlatform.Lib.Outlier
open TradingPlatform.Lib.Runs

variable {K : Type*} [Field K] [LinearOrder K] [IsStrictOrderedRing K]

/-! ## What a score reaches -/

section Scores
variable {sigma x : K} {xs : List K}

/-- The variance below which a score is not divided by its deviation. -/
def tinyVariance : K := 1e-12 ^ 2

theorem tinyVariance_pos : (0 : K) < tinyVariance := by
  unfold tinyVariance
  positivity

theorem tinyVariance_lt_one : (tinyVariance : K) < 1 := by
  unfold tinyVariance
  norm_num

omit [IsStrictOrderedRing K] in
theorem newestScore_append (xs : List K) (x : K) :
    newestScore (xs ++ [x]) = some (zscoreExtension x (xs ++ [x])) := by
  simp [newestScore]

omit [IsStrictOrderedRing K] in
theorem reaches_of_nonpos (h : sigma ≤ 0) (z : K) : reaches sigma z = true := by
  simp [reaches, h]

/-- A spread that is not tiny divides the distance. -/
theorem reaches_iff (hne : xs ≠ []) (hvar : tinyVariance ≤ variance (xs ++ [x])) :
    reaches sigma (zscoreExtension x (xs ++ [x])) = true ↔
      sigma ≤ 0 ∨ sigma ^ 2 * variance (xs ++ [x]) ≤ (x - mean (xs ++ [x])) ^ 2 := by
  have hlen : ¬ (xs ++ [x]).length < 2 := by
    have hpos := List.length_pos_iff.mpr hne
    simp
    omega
  have hnot : ¬ variance (xs ++ [x]) < 1e-12 ^ 2 := not_lt.mpr hvar
  rw [reaches, zscoreExtension, if_neg hlen, if_neg hnot, Bool.or_eq_true, decide_eq_true_iff,
    decide_eq_true_iff, le_div_iff₀ (tinyVariance_pos.trans_le hvar)]

/-- **A score that is out of reach**: the threshold is at the bound or above, and the others
are too few, or not all alike, or the newest is next to where they are. -/
theorem not_reaches (hsigma : 0 < sigma) (hbound : xs.length ≤ sigma ^ 2)
    (h : xs.length < sigma ^ 2 ∨ ¬ Steady xs ∨ variance (xs ++ [x]) < tinyVariance) :
    reaches sigma (zscoreExtension x (xs ++ [x])) = false := by
  have hsq : 0 < sigma ^ 2 := by positivity
  by_cases hne : xs = []
  · simp [hne, reaches, zscoreExtension, hsigma, hsigma.ne']
  by_cases hvar : variance (xs ++ [x]) < tinyVariance
  · have hlen : ¬ (xs ++ [x]).length < 2 := by
      have hpos := List.length_pos_iff.mpr hne
      simp
      omega
    have hn : (0 : K) < xs.length := by exact_mod_cast List.length_pos_iff.mpr hne
    have hsmall : (x - mean (xs ++ [x])) ^ 2 < sigma ^ 2 := by
      have hle := sq_dev_newest_le xs x
      have hone := hvar.trans tinyVariance_lt_one
      nlinarith
    have htiny : variance (xs ++ [x]) < 1e-12 ^ 2 := hvar
    rw [reaches, zscoreExtension, if_neg hlen, if_pos htiny]
    simp [hsigma, hsmall]
  · have hvar := not_lt.mp hvar
    have hlt : (x - mean (xs ++ [x])) ^ 2 < sigma ^ 2 * variance (xs ++ [x]) := by
      refine score_lt (tinyVariance_pos.trans_le hvar) ?_
      rcases h with hlt | hvaried | htiny
      · exact .inl hlt
      · exact .inr ⟨hbound, hvaried⟩
      · exact absurd htiny (not_lt.mpr hvar)
    rw [← Bool.not_eq_true, reaches_iff hne hvar, not_or]
    exact ⟨not_le.mpr hsigma, not_le.mpr hlt⟩

/-- A value like the others is out of reach. -/
theorem variance_append_of_mem (h : Steady xs) (hx : x ∈ xs) : variance (xs ++ [x]) < tinyVariance := by
  have hexact := variance_newest_of_steady h hx x
  have hpos : (0 : K) < (xs.length + 1) ^ 2 := by positivity
  have hzero : variance (xs ++ [x]) = 0 := by
    rw [sub_self] at hexact
    simpa [hpos.ne'] using hexact
  rw [hzero]
  exact tinyVariance_pos

/-- A velocity is scored among one fewer. -/
theorem velocity_not_reaches {series : List K} {n : ℕ} (hsigma : 0 < sigma)
    (hbound : n ≤ sigma ^ 2) (hlen : series.length = n + 1) :
    ∀ z ∈ newestScore (npDiff series), reaches sigma z = false := by
  intro z hz
  have hdiff : (npDiff series).length = n := by simp [npDiff, hlen]
  obtain ⟨init, x, hsplit⟩ | hnil : (∃ init x, npDiff series = init ++ [x]) ∨ npDiff series = [] := by
    rcases List.eq_nil_or_concat (npDiff series) with hnil | ⟨init, x, h⟩
    · exact .inr hnil
    · exact .inl ⟨init, x, by simpa using h⟩
  · rw [hsplit, newestScore_append] at hz
    cases hz
    have hinit : (init.length : K) + 1 = n := by
      have hcount : init.length + 1 = n := by simpa [hsplit] using hdiff
      exact_mod_cast hcount
    exact not_reaches hsigma (by linarith) (.inl (by linarith))
  · simp [hnil, newestScore] at hz

end Scores

/-! ## What is triggered -/

section Triggers
variable {kept : List (MacroVelocityReading K)} {r : MacroVelocityReading K} {sigma : K}

/-- The triggers of a window. -/
def triggered (sigma : K) (samples : List (MacroVelocityReading K)) : List Trigger :=
  (((metricNames.flatMap (metricScores samples)).filter fun s => reaches sigma s.2).map Prod.fst) ++
    floorTriggers samples

omit [IsStrictOrderedRing K] in
/-- A level within reach triggers. -/
theorem triggered_of_level (metric : Metric)
    (h : reaches sigma (zscoreExtension (metric.value r) ((kept.map metric.value) ++
      [metric.value r])) = true) : triggered sigma (kept ++ [r]) ≠ [] := by
  have hmem : metric ∈ metricNames := by cases metric <;> decide
  have hscore : (⟨metric, .level⟩, zscoreExtension (metric.value r) ((kept.map metric.value) ++
      [metric.value r])) ∈ metricScores (kept ++ [r]) metric := by
    refine List.mem_append_left _ ?_
    simp [newestScore_append]
  refine List.append_ne_nil_of_left_ne_nil (List.ne_nil_of_mem (a := ⟨metric, .level⟩) ?_) _
  exact List.mem_map.mpr ⟨_, List.mem_filter.mpr ⟨List.mem_flatMap.mpr ⟨metric, hmem, hscore⟩, h⟩, rfl⟩

omit [IsStrictOrderedRing K] in
/-- So does a day surge at its floor. -/
theorem triggered_of_surge (h : vixDaySurgeShockPct ≤ r.vixDayPctSurge) :
    triggered sigma (kept ++ [r]) ≠ [] := by
  refine List.append_ne_nil_of_right_ne_nil _ ?_
  unfold floorTriggers
  rw [List.reverse_append, List.reverse_singleton, List.singleton_append]
  simp [h]

/-- Nothing triggers where every level is out of reach and no floor is met. -/
theorem triggered_eq_nil (hsigma : 0 < sigma) (hbound : kept.length ≤ sigma ^ 2)
    (hlevel : ∀ metric : Metric, reaches sigma (zscoreExtension (metric.value r)
      ((kept.map metric.value) ++ [metric.value r])) = false)
    (hsurge : r.vixDayPctSurge < vixDaySurgeShockPct)
    (hspike : ∀ previous ∈ kept.getLast?,
      r.avgPairwiseCorrelation - previous.avgPairwiseCorrelation < correlationSpikeVelocityShock) :
    triggered sigma (kept ++ [r]) = [] := by
  refine List.append_eq_nil_iff.mpr ⟨?_, ?_⟩
  · rw [List.map_eq_nil_iff, List.filter_eq_nil_iff]
    rintro ⟨trigger, z⟩ hz
    obtain ⟨metric, -, hz⟩ := List.mem_flatMap.mp hz
    rw [Bool.not_eq_true]
    rcases List.mem_append.mp hz with hz | hz
    · simp only [List.map_append, List.map_cons, List.map_nil, newestScore_append,
        Option.toList_some, List.mem_singleton] at hz
      cases hz
      exact hlevel metric
    · split at hz
      · obtain ⟨z', hz', heq⟩ := List.mem_map.mp hz
        cases heq
        have hlen : ((kept ++ [r]).map metric.value).length = kept.length + 1 := by simp
        exact velocity_not_reaches hsigma hbound hlen z (by simpa using hz')
      · cases hz
  · unfold floorTriggers
    rw [List.reverse_append, List.reverse_singleton, List.singleton_append]
    dsimp only
    rw [if_neg (not_le.mpr hsurge), List.nil_append]
    split
    · rfl
    · rename_i previous _ hreverse
      rw [if_neg (not_le.mpr (hspike previous ?_))]
      rw [List.getLast?_eq_head?_reverse, hreverse]
      rfl

end Triggers

/-! ## What the tracker sees -/

inductive TrackerCall (K : Type*)
  | ingest (snapshot : CrossAssetSnapshot K) (stress : StressFactorReading K) (anchorTime : Option K)
  | detect (anchorTime : Option K) (clock : K)

def MacroVelocityTracker.call (tracker : MacroVelocityTracker K) :
    TrackerCall K → MacroVelocityTracker K
  | .ingest snapshot stress anchorTime => tracker.ingest snapshot stress anchorTime
  | .detect anchorTime clock =>
    (tracker.detectVelocityShockEvent anchorTime clock).elim tracker Prod.snd

section Tracker
variable (tracker : MacroVelocityTracker K) (t : K)

/-- The readings that are still in the window at a time. -/
def MacroVelocityTracker.kept : List (MacroVelocityReading K) := tracker.inWindow t tracker.samples

/-- The next reading is seen as a shock. -/
def Sees (snapshot : CrossAssetSnapshot K) (stress : StressFactorReading K) : Prop :=
  ∃ judged ∈ (tracker.ingest snapshot stress (some t)).detectVelocityShockEvent (some t) t,
    judged.1.shockDetected = true

/-- No jump of the metric is too large to see. -/
def SeesLargeJumps (metric : Metric) : Prop :=
  ∃ B, ∀ snapshot stress, B ≤ metric.value (readingAt snapshot stress t) →
    Sees tracker t snapshot stress

/-- Every day surge in the window is the same, and at its floor or above by more than the
deviation that counts as nothing. -/
def SurgePinned : Prop :=
  Steady ((tracker.kept t).map Metric.vixDayPctSurge.value) ∧
    ∀ r ∈ tracker.kept t, vixDaySurgeShockPct ≤ r.vixDayPctSurge ∧
      ((tracker.kept t).length + 1) ^ 2 * tinyVariance ≤
        (tracker.kept t).length * (r.vixDayPctSurge - vixDaySurgeShockPct) ^ 2

/-- The window holds its own reading, and the threshold lies below the number of the others,
or at it where none of the others differ, or no day surge is harmless. -/
def WithinReach (metric : Metric) : Prop :=
  (tracker.kept t ≠ [] ∨ 0 ≤ tracker.windowHours) ∧
    (tracker.outlierSigma ≤ 0 ∨ tracker.outlierSigma ^ 2 < (tracker.kept t).length ∨
      (tracker.outlierSigma ^ 2 = (tracker.kept t).length ∧
        (Steady ((tracker.kept t).map metric.value) ∨ SurgePinned tracker t)))

omit [IsStrictOrderedRing K] in
theorem updateCoolOffProgress_same : tracker.updateCoolOffProgress.samples = tracker.samples ∧
    tracker.updateCoolOffProgress.windowHours = tracker.windowHours ∧
    tracker.updateCoolOffProgress.outlierSigma = tracker.outlierSigma ∧
    tracker.updateCoolOffProgress.minSamples = tracker.minSamples := by
  unfold MacroVelocityTracker.updateCoolOffProgress
  split
  · exact ⟨rfl, rfl, rfl, rfl⟩
  split <;> exact ⟨rfl, rfl, rfl, rfl⟩

variable {tracker t}

/-- A reading at the time stays in the window with those that are in it. -/
theorem inWindow_append {samples : List (MacroVelocityReading K)} {r : MacroVelocityReading K}
    (h : tracker.inWindow t samples ≠ [] ∨ 0 ≤ tracker.windowHours) (hr : r.timestamp = t) :
    tracker.inWindow t (samples ++ [r]) = tracker.inWindow t samples ++ [r] := by
  unfold MacroVelocityTracker.inWindow at h ⊢
  rw [List.dropWhile_append]
  split
  · rename_i hempty
    rw [List.isEmpty_iff] at hempty
    have hwindow := h.resolve_left (not_not.mpr hempty)
    have hin : ¬ r.timestamp < t - tracker.windowHours * 3600 := by
      rw [hr, not_lt]
      linarith
    simp [hempty, hin]
  · rfl

omit [IsStrictOrderedRing K] in
theorem detect_eq (hcount : ¬ ((tracker.inWindow t tracker.samples).length : ℤ) <
    tracker.minSamples) {r : MacroVelocityReading K} {kept : List (MacroVelocityReading K)}
    (hsamples : tracker.inWindow t tracker.samples = kept ++ [r]) :
    (∃ judged ∈ tracker.detectVelocityShockEvent (some t) t, judged.1.shockDetected = true) ↔
      triggered tracker.outlierSigma (kept ++ [r]) ≠ [] := by
  unfold MacroVelocityTracker.detectVelocityShockEvent MacroVelocityTracker.prune
  dsimp only [Option.getD_some]
  rw [if_neg hcount, hsamples, List.getLast?_concat, Option.map_some]
  constructor
  · rintro ⟨judged, hjudged, hshock⟩
    cases hjudged
    exact List.length_pos_iff.mp (of_decide_eq_true hshock)
  · intro hne
    exact ⟨_, rfl, decide_eq_true (List.length_pos_iff.mpr hne)⟩

omit [IsStrictOrderedRing K] in
theorem inWindow_congr {tracker' : MacroVelocityTracker K}
    (h : tracker'.windowHours = tracker.windowHours) (now : K) :
    tracker'.inWindow now = tracker.inWindow now := by
  unfold MacroVelocityTracker.inWindow
  rw [h]

omit [IsStrictOrderedRing K] in
theorem inWindow_idem (samples : List (MacroVelocityReading K)) :
    tracker.inWindow t (tracker.inWindow t samples) = tracker.inWindow t samples :=
  List.dropWhile_idempotent _ _

variable (tracker t) in
omit [IsStrictOrderedRing K] in
theorem ingest_same (snapshot : CrossAssetSnapshot K) (stress : StressFactorReading K) :
    (tracker.ingest snapshot stress (some t)).samples =
        tracker.inWindow t (tracker.samples ++ [readingAt snapshot stress t]) ∧
      (tracker.ingest snapshot stress (some t)).windowHours = tracker.windowHours ∧
      (tracker.ingest snapshot stress (some t)).outlierSigma = tracker.outlierSigma ∧
      (tracker.ingest snapshot stress (some t)).minSamples = tracker.minSamples := by
  exact updateCoolOffProgress_same (({ tracker with
    samples := tracker.samples ++ [readingAt snapshot stress t] } : MacroVelocityTracker K).prune t)

/-- **The next reading is seen** exactly when it triggers something. -/
theorem sees_iff (h : tracker.kept t ≠ [] ∨ 0 ≤ tracker.windowHours)
    (hcount : tracker.minSamples - 1 ≤ (tracker.kept t).length)
    (snapshot : CrossAssetSnapshot K) (stress : StressFactorReading K) :
    Sees tracker t snapshot stress ↔
      triggered tracker.outlierSigma (tracker.kept t ++ [readingAt snapshot stress t]) ≠ [] := by
  obtain ⟨hsamples, hwindow, hsigma, hmin⟩ := ingest_same tracker t snapshot stress
  have hin : (tracker.ingest snapshot stress (some t)).inWindow t
      (tracker.ingest snapshot stress (some t)).samples =
        tracker.kept t ++ [readingAt snapshot stress t] := by
    rw [inWindow_congr hwindow, hsamples, inWindow_idem]
    exact inWindow_append h rfl
  unfold Sees
  rw [detect_eq ?_ hin, hsigma]
  rw [hin, hmin, List.length_append, List.length_singleton]
  push_cast
  omega

/-- A window that does not hold its own reading sees nothing. -/
theorem not_sees (h : ¬ (tracker.kept t ≠ [] ∨ 0 ≤ tracker.windowHours))
    (snapshot : CrossAssetSnapshot K) (stress : StressFactorReading K) :
    ¬ Sees tracker t snapshot stress := by
  obtain ⟨hkept, hnegative⟩ := not_or.mp h
  have hkept : tracker.inWindow t tracker.samples = [] := not_not.mp hkept
  obtain ⟨hsamples, hwindow, -, -⟩ := ingest_same tracker t snapshot stress
  have hempty : tracker.inWindow t (tracker.samples ++ [readingAt snapshot stress t]) = [] := by
    have hout : t < t - tracker.windowHours * 3600 := by linarith
    unfold MacroVelocityTracker.inWindow at hkept ⊢
    rw [List.dropWhile_append, hkept]
    simp [readingAt, hout]
  rintro ⟨judged, hjudged, hshock⟩
  unfold MacroVelocityTracker.detectVelocityShockEvent MacroVelocityTracker.prune at hjudged
  dsimp only [Option.getD_some] at hjudged
  rw [inWindow_congr hwindow, hsamples, inWindow_idem, hempty] at hjudged
  split at hjudged
  · cases hjudged
    cases hshock
  · cases hjudged

/-! ## Within reach -/

/-- A day surge that is pinned to its floor leaves the next one at it, or far from the others. -/
theorem triggered_of_pinned (h : SurgePinned tracker t) (hne : tracker.kept t ≠ [])
    (hsigma : tracker.outlierSigma ^ 2 = (tracker.kept t).length) (r : MacroVelocityReading K) :
    triggered tracker.outlierSigma (tracker.kept t ++ [r]) ≠ [] := by
  obtain ⟨hsteady, hpinned⟩ := h
  by_cases hsurge : vixDaySurgeShockPct ≤ r.vixDayPctSurge
  · exact triggered_of_surge hsurge
  obtain ⟨p, hp⟩ := List.exists_mem_of_ne_nil _ hne
  obtain ⟨hfloor, hfar⟩ := hpinned p hp
  have hmem : p.vixDayPctSurge ∈ (tracker.kept t).map Metric.vixDayPctSurge.value :=
    List.mem_map.mpr ⟨p, hp, rfl⟩
  have hexact := variance_newest_of_steady hsteady hmem r.vixDayPctSurge
  rw [List.length_map] at hexact
  have hn : (0 : K) ≤ (tracker.kept t).length := Nat.cast_nonneg _
  have hwider : (p.vixDayPctSurge - vixDaySurgeShockPct) ^ 2 ≤
      (r.vixDayPctSurge - p.vixDayPctSurge) ^ 2 := by
    have hbelow := not_le.mp hsurge
    nlinarith
  have hvar : tinyVariance ≤ variance ((tracker.kept t).map Metric.vixDayPctSurge.value ++
      [r.vixDayPctSurge]) := by
    refine le_of_mul_le_mul_left (hfar.trans ?_) (by positivity : (0 : K) <
      ((tracker.kept t).length + 1) ^ 2)
    rw [hexact]
    exact mul_le_mul_of_nonneg_left hwider hn
  refine triggered_of_level .vixDayPctSurge ((reaches_iff (by simpa using hne) hvar).mpr (.inr ?_))
  have hdev := sq_dev_newest ((tracker.kept t).map Metric.vixDayPctSurge.value) r.vixDayPctSurge
  rw [deviations_mean_eq_zero_iff.mpr hsteady, mul_zero, zero_div, sub_zero, List.length_map] at hdev
  rw [hsigma]
  exact hdev.ge

/-- **Within reach** a jump that is far enough is seen. -/
theorem seesLargeJumps_of_withinReach {metric : Metric}
    (hcount : tracker.minSamples - 1 ≤ (tracker.kept t).length)
    (h : WithinReach tracker t metric) : SeesLargeJumps tracker t metric := by
  obtain ⟨hretained, hreach⟩ := h
  have hseen := fun snapshot stress => (sees_iff hretained hcount snapshot stress).mpr
  by_cases hnonpos : tracker.outlierSigma ≤ 0
  · exact ⟨0, fun snapshot stress _ => hseen snapshot stress
      (triggered_of_level metric (reaches_of_nonpos hnonpos _))⟩
  have hreach := hreach.resolve_left hnonpos
  have hne : tracker.kept t ≠ [] := by
    rintro hnil
    have hsq : 0 < tracker.outlierSigma ^ 2 := pow_pos (not_le.mp hnonpos) 2
    rw [hnil, List.length_nil, Nat.cast_zero] at hreach
    rcases hreach with hlt | ⟨heq, -⟩
    · exact lt_asymm hsq hlt
    · exact hsq.ne' heq
  -- a threshold that scores reach, or a surge that triggers whatever it is
  have hscore : tracker.outlierSigma ^ 2 < ((tracker.kept t).map metric.value).length ∨
      (tracker.outlierSigma ^ 2 = ((tracker.kept t).map metric.value).length ∧
        Steady ((tracker.kept t).map metric.value)) ∨
      (tracker.outlierSigma ^ 2 = (tracker.kept t).length ∧ SurgePinned tracker t) := by
    rw [List.length_map]
    tauto
  rw [← or_assoc] at hscore
  rcases hscore with hlow | ⟨heq, hpinned⟩
  · obtain ⟨B, hB⟩ := exists_score_ge (by simpa using hne) hlow tinyVariance
    refine ⟨B, fun snapshot stress hle => hseen snapshot stress (triggered_of_level metric ?_)⟩
    obtain ⟨hvar, hfar⟩ := hB _ hle
    exact (reaches_iff (by simpa using hne) hvar).mpr (.inr hfar)
  · exact ⟨0, fun snapshot stress _ => hseen snapshot stress (triggered_of_pinned hpinned hne heq _)⟩

/-! ## Out of reach -/

/-- Near a point below a bound there is one below both. -/
theorem exists_below {n a T : K} (hn : 0 < n) (ha : 0 ≤ a) (h : n * a ^ 2 < T) :
    ∃ e, 0 < e ∧ n * (a + e) ^ 2 < T := by
  have hgap : 0 < T - n * a ^ 2 := sub_pos.mpr h
  have hden : 0 < n * (2 * a + 1) := by positivity
  refine ⟨min 1 ((T - n * a ^ 2) / (n * (2 * a + 1)) / 2), by positivity, ?_⟩
  have hone := min_le_left 1 ((T - n * a ^ 2) / (n * (2 * a + 1)) / 2)
  have hsmall := min_le_right 1 ((T - n * a ^ 2) / (n * (2 * a + 1)) / 2)
  have hpos : 0 < min 1 ((T - n * a ^ 2) / (n * (2 * a + 1)) / 2) := by positivity
  generalize min 1 ((T - n * a ^ 2) / (n * (2 * a + 1)) / 2) = e at *
  have hscaled : n * (2 * a + 1) * e ≤ (T - n * a ^ 2) / 2 := by
    have hmul := mul_le_mul_of_nonneg_left hsmall hden.le
    rwa [div_div, mul_div_assoc', mul_comm (n * (2 * a + 1)) 2,
      mul_comm (n * (2 * a + 1)) (T - n * a ^ 2), mul_div_mul_right _ _ hden.ne'] at hmul
  nlinarith [mul_pos hn hpos, mul_le_mul_of_nonneg_left hone (mul_pos hn hpos).le]

/-- A value that the others do not make stand out: they are too few or not all alike, or it is
next to them. -/
def Harmless (sigma : K) (xs : List K) (x : K) : Prop :=
  xs.length < sigma ^ 2 ∨ ¬ Steady xs ∨ variance (xs ++ [x]) < tinyVariance

theorem harmless_of_mem {sigma x : K} {xs : List K} (hx : x ∈ xs) : Harmless sigma xs x := by
  by_cases hsteady : Steady xs
  · exact .inr (.inr (variance_append_of_mem hsteady hx))
  · exact .inr (.inl hsteady)

/-- Where the surge is not pinned, some day surge below the floor is harmless. -/
theorem exists_harmless_surge (hsigma : 0 < tracker.outlierSigma)
    (hbound : (tracker.kept t).length ≤ tracker.outlierSigma ^ 2)
    (h : tracker.outlierSigma ^ 2 = (tracker.kept t).length → ¬ SurgePinned tracker t) :
    ∃ v < vixDaySurgeShockPct, Harmless tracker.outlierSigma
      ((tracker.kept t).map Metric.vixDayPctSurge.value) v := by
  have hfloor : (0 : K) < vixDaySurgeShockPct := by norm_num [vixDaySurgeShockPct]
  rcases hbound.lt_or_eq with hlt | heq
  · exact ⟨0, hfloor, .inl (by simpa using hlt)⟩
  by_cases hsteady : Steady ((tracker.kept t).map Metric.vixDayPctSurge.value)
  swap
  · exact ⟨0, hfloor, .inr (.inl hsteady)⟩
  have hfree := (not_and.mp (h heq.symm)) hsteady
  simp only [not_forall, not_and_or, not_le] at hfree
  obtain ⟨p, hp, hlow⟩ := hfree
  have hmem : p.vixDayPctSurge ∈ (tracker.kept t).map Metric.vixDayPctSurge.value :=
    List.mem_map.mpr ⟨p, hp, rfl⟩
  by_cases hbelow : p.vixDayPctSurge < vixDaySurgeShockPct
  · exact ⟨p.vixDayPctSurge, hbelow, harmless_of_mem hmem⟩
  have hnear := hlow.resolve_left hbelow
  have hn : (0 : K) < (tracker.kept t).length := by
    rw [heq]
    positivity
  obtain ⟨e, he, hclose⟩ := exists_below hn (sub_nonneg.mpr (not_lt.mp hbelow)) hnear
  refine ⟨vixDaySurgeShockPct - e, by linarith, .inr (.inr ?_)⟩
  have hexact := variance_newest_of_steady hsteady hmem (vixDaySurgeShockPct - e)
  rw [List.length_map] at hexact
  refine lt_of_mul_lt_mul_left (a := ((tracker.kept t).length + 1 : K) ^ 2) ?_ (by positivity)
  rw [hexact]
  have hsquare : (vixDaySurgeShockPct - e - p.vixDayPctSurge) ^ 2 =
      (p.vixDayPctSurge - vixDaySurgeShockPct + e) ^ 2 := by ring
  rwa [hsquare]

/-- Every reading was taken from a snapshot. -/
def Attained (tracker : MacroVelocityTracker K) : Prop :=
  ∀ r ∈ tracker.samples, ∃ snapshot stress now, r = readingAt snapshot stress now

/-- A next reading like an earlier one, but for its day surge and what its stress reads. -/
theorem exists_reading {p : MacroVelocityReading K}
    (hp : ∃ snapshot stress now, p = readingAt snapshot stress now) (t v : K)
    (stress : StressFactorReading K) :
    ∃ snapshot, (readingAt snapshot stress t).vixDayPctSurge = v ∧
      (readingAt snapshot stress t).vixTermSpread = p.vixTermSpread := by
  obtain ⟨snapshot, -, -, rfl⟩ := hp
  refine ⟨{ snapshot with vixCloses := [1, 1 + v] }, ?_, rfl⟩
  have hprior : (1e-6 : K) < 1 := by norm_num
  show (if 1e-6 < (1 : K) then (1 + v - 1) / 1 else 0) = v
  rw [if_pos hprior]
  ring

omit [IsStrictOrderedRing K] in
/-- A reading that the next one is like: the last in the window, or any. -/
theorem exists_last_reading (h : Attained tracker) (t : K) : ∃ p : MacroVelocityReading K,
    (∃ snapshot stress now, p = readingAt snapshot stress now) ∧
      (tracker.kept t = [] ∨ (tracker.kept t).getLast? = some p) := by
  cases hkept : (tracker.kept t).getLast? with
  | none =>
    exact ⟨readingAt ⟨0, 1, 1, [], []⟩ ⟨0, 0, false, 0, 0⟩ 0, ⟨_, _, _, rfl⟩,
      .inl (List.getLast?_eq_none_iff.mp hkept)⟩
  | some p =>
    have hmem : p ∈ tracker.samples :=
      (List.dropWhile_suffix _).subset (List.mem_of_getLast? hkept)
    exact ⟨p, h p hmem, .inr rfl⟩

/-- Of a reading like the last but for a jump and the day surge, neither of which stands out,
nothing does. -/
theorem harmless_of_like {kept : List (MacroVelocityReading K)} {p r : MacroVelocityReading K}
    {sigma : K} {metric : Metric} (hsigma : 0 < sigma)
    (hlast : kept = [] ∨ kept.getLast? = some p)
    (hjump : Harmless sigma (kept.map metric.value) (metric.value r))
    (hsurge : Harmless sigma (kept.map Metric.vixDayPctSurge.value) r.vixDayPctSurge)
    (hlike : ∀ other : Metric, other ≠ metric → other ≠ .vixDayPctSurge →
      other.value r = other.value p) (other : Metric) :
    Harmless sigma (kept.map other.value) (other.value r) := by
  by_cases hother : other = metric
  · subst hother
    exact hjump
  by_cases hday : other = .vixDayPctSurge
  · subst hday
    exact hsurge
  rcases hlast with hnil | hlast
  · refine .inl ?_
    simpa [hnil] using pow_pos hsigma 2
  · rw [hlike other hother hday]
    exact harmless_of_mem (List.mem_map.mpr ⟨p, List.mem_of_getLast? hlast, rfl⟩)

/-- A stress like that of an earlier reading, but for a metric that is at the bound. -/
def jumpedStress (metric : Metric) (p : MacroVelocityReading K) (bound : K) :
    StressFactorReading K where
  vixTermStress := 0
  composite := if metric = .compositeStress then bound else p.compositeStress
  vixBackwardation := false
  creditSpreadChange := if metric = .creditSpreadChange then bound else p.creditSpreadChange
  avgPairwiseCorrelation := p.avgPairwiseCorrelation

/-- **Out of reach** every jump has a next reading that is as far and is not seen. -/
theorem withinReach_of_seesLargeJumps {metric : Metric}
    (hmetric : metric = .creditSpreadChange ∨ metric = .compositeStress)
    (hattained : Attained tracker) (hcount : tracker.minSamples - 1 ≤ (tracker.kept t).length)
    (h : SeesLargeJumps tracker t metric) : WithinReach tracker t metric := by
  obtain ⟨B, hB⟩ := h
  by_contra hout
  obtain ⟨p, hp, hlast⟩ := exists_last_reading hattained t
  have hseen : ∀ snapshot, Sees tracker t snapshot (jumpedStress metric p B) := by
    intro snapshot
    refine hB snapshot _ ?_
    rcases hmetric with rfl | rfl <;> exact le_rfl
  by_cases hretained : tracker.kept t ≠ [] ∨ 0 ≤ tracker.windowHours
  swap
  · obtain ⟨snapshot, -⟩ := exists_reading hp t 0 (jumpedStress metric p B)
    exact not_sees hretained snapshot _ (hseen snapshot)
  have hreach := not_and.mp hout hretained
  rw [not_or, not_or, not_le, not_lt, not_and, not_or] at hreach
  obtain ⟨hsigma, hbound, hexact⟩ := hreach
  obtain ⟨v, hfloor, hsurge⟩ := exists_harmless_surge hsigma hbound fun heq => (hexact heq).2
  obtain ⟨snapshot, hv, hterm⟩ := exists_reading hp t v (jumpedStress metric p B)
  have hjump : Harmless tracker.outlierSigma ((tracker.kept t).map metric.value)
      (metric.value (readingAt snapshot (jumpedStress metric p B) t)) := by
    rcases hbound.lt_or_eq with hlt | heq
    · exact .inl (by simpa using hlt)
    · exact .inr (.inl (hexact heq.symm).1)
  refine (sees_iff hretained hcount snapshot _).mp (hseen snapshot)
    (triggered_eq_nil hsigma hbound (fun other => ?_) (by rwa [hv]) fun previous hprevious => ?_)
  · refine not_reaches hsigma (by simpa using hbound)
      (harmless_of_like hsigma hlast hjump (by rwa [hv]) (fun other hother hday => ?_) other)
    cases other with
    | vixDayPctSurge => exact absurd rfl hday
    | vixTermSpread => exact hterm
    | creditSpreadChange => exact if_neg (Ne.symm hother)
    | avgPairwiseCorrelation => rfl
    | compositeStress => exact if_neg (Ne.symm hother)
  · rcases hlast with hnil | hlast
    · rw [hnil] at hprevious
      cases hprevious
    · rw [hlast] at hprevious
      cases hprevious
      have hspike : (0 : K) < correlationSpikeVelocityShock := by
        norm_num [correlationSpikeVelocityShock]
      simpa [readingAt, jumpedStress] using hspike

end Tracker

/-! ## Runs -/

section Runs

omit [IsStrictOrderedRing K] in
theorem attained_prune {tracker : MacroVelocityTracker K} (h : Attained tracker) (now : K) :
    Attained (tracker.prune now) :=
  fun r hr => h r ((List.dropWhile_suffix _).subset hr)

omit [IsStrictOrderedRing K] in
/-- A call keeps readings that were taken from snapshots. -/
theorem attained_call (tracker : MacroVelocityTracker K) (c : TrackerCall K)
    (h : Attained tracker) : Attained (tracker.call c) := by
  cases c with
  | ingest snapshot stress anchorTime =>
    intro r hr
    have hr : r ∈ (MacroVelocityTracker.ingest tracker snapshot stress anchorTime).samples := hr
    unfold MacroVelocityTracker.ingest at hr
    rw [(updateCoolOffProgress_same _).1] at hr
    have hmem := (List.dropWhile_suffix _).subset hr
    rcases List.mem_append.mp hmem with hold | hnew
    · exact h r hold
    · exact ⟨snapshot, stress, _, List.mem_singleton.mp hnew⟩
  | detect anchorTime clock =>
    unfold MacroVelocityTracker.call MacroVelocityTracker.detectVelocityShockEvent
    dsimp only
    split
    · exact attained_prune h _
    · cases (tracker.prune (anchorTime.getD
        ((tracker.samples.getLast?.map (·.timestamp)).getD clock))).samples.getLast? with
      | none => exact h
      | some latest =>
        dsimp only [Option.map_some, Option.elim_some]
        split
        · exact attained_prune h _
        · exact attained_prune h _

variable (K) in
/-- **No jump is too large to see**, in the state any run leaves a tracker in, exactly when the
threshold lies within reach of the readings that are still in the window. -/
theorem seesLargeJumps_iff (start : MacroVelocityTracker K) (hstart : start.samples = [])
    (calls : List (TrackerCall K)) (t : K) {metric : Metric}
    (hmetric : metric = .creditSpreadChange ∨ metric = .compositeStress)
    (hcount : (run MacroVelocityTracker.call start calls).minSamples - 1 ≤
      ((run MacroVelocityTracker.call start calls).kept t).length) :
    SeesLargeJumps (run MacroVelocityTracker.call start calls) t metric ↔
      WithinReach (run MacroVelocityTracker.call start calls) t metric := by
  have hattained : Attained (run MacroVelocityTracker.call start calls) :=
    run_keeps attained_call (by simp [Attained, hstart]) calls
  exact ⟨withinReach_of_seesLargeJumps hmetric hattained hcount,
    seesLargeJumps_of_withinReach hcount⟩

/-- Calm readings, a minute apart. -/
def calmReadings (n : ℕ) : List (TrackerCall ℚ) :=
  (List.range n).map fun i => .ingest { timestamp := 60 * i, vixProxy := 20, vixTermProxy := 20 }
    { vixTermStress := 0
      composite := 0
      vixBackwardation := false
      creditSpreadChange := 0
      avgPairwiseCorrelation := 0 } none

/-- Ten calm readings are enough for three sigmas. -/
theorem ten_readings_see :
    SeesLargeJumps (run MacroVelocityTracker.call defaultTracker (calmReadings 10)) 600
      .creditSpreadChange := by
  have hlen : ((run MacroVelocityTracker.call defaultTracker (calmReadings 10)).kept 600).length =
      10 := by decide +kernel
  refine (seesLargeJumps_iff ℚ defaultTracker rfl (calmReadings 10) 600 (.inl rfl) ?_).mpr ⟨?_, ?_⟩
  · rw [hlen]
    decide +kernel
  · exact .inl fun hnil => by simp [hnil] at hlen
  · rw [hlen]
    exact .inr (.inl (by decide +kernel))

/-- Five are enough samples, and leave every jump unseen. -/
theorem five_readings_blind :
    (run MacroVelocityTracker.call defaultTracker (calmReadings 5)).minSamples - 1 ≤
        ((run MacroVelocityTracker.call defaultTracker (calmReadings 5)).kept 300).length ∧
      ¬ SeesLargeJumps (run MacroVelocityTracker.call defaultTracker (calmReadings 5)) 300
        .creditSpreadChange := by
  have hlen : ((run MacroVelocityTracker.call defaultTracker (calmReadings 5)).kept 300).length =
      5 := by decide +kernel
  have hcount : (run MacroVelocityTracker.call defaultTracker (calmReadings 5)).minSamples - 1 ≤
      ((run MacroVelocityTracker.call defaultTracker (calmReadings 5)).kept 300).length := by
    rw [hlen]
    decide +kernel
  refine ⟨hcount, fun hsees => ?_⟩
  have hattained : Attained (run MacroVelocityTracker.call defaultTracker (calmReadings 5)) :=
    run_keeps attained_call (by simp [Attained, defaultTracker]) _
  obtain ⟨-, hreach⟩ := withinReach_of_seesLargeJumps (.inl rfl) hattained hcount hsees
  have hsigma : (run MacroVelocityTracker.call defaultTracker (calmReadings 5)).outlierSigma = 3 := by
    decide +kernel
  rw [hlen, hsigma] at hreach
  norm_num at hreach

end Runs

end TradingPlatform.Engine.Regime
