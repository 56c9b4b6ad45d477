import TradingPlatform.Engine.SloMonitor

/-! # The severity of a leg's data

The severity is the maximum over the signals, whatever order they are checked in.
A payload that is worse in some reading is judged at least as severely, unless its
NBBO success rate is zero: that is read as a rate that was not given. -/

namespace TradingPlatform.Engine.Slo

open TradingPlatform.Core
open TradingPlatform.Engine.ColdStart (barStalenessSeconds staleAfterSeconds)
open TradingPlatform.Ingestor (timeframeMinutes timeframeMinutes_pos minute second)

/-! ## Signals -/

/-- The severity of one signal. -/
def Signal.level (signal : Signal) : IntegritySeverity :=
  if signal.hard then .hardBreach else if signal.soft then .softBreach else .ok

/-- What a signal reports. -/
def Signal.reported (signal : Signal) : List String :=
  (if signal.soft && !(signal.exclusive && signal.hard) then [signal.softReason] else []) ++
    if signal.hard then [signal.hardReason] else []

def isCritical (reason : String) : Bool := decide ("_critical".toList <:+ reason.toList)

/-- The texts of a signal tell its tiers apart. -/
def Signal.Labelled (signal : Signal) : Prop :=
  isCritical signal.softReason = false ∧ (signal.hard = true → isCritical signal.hardReason = true)

theorem severityRank_injective : Function.Injective severityRank := by
  intro a b h
  cases a <;> cases b <;> simp_all [severityRank]

theorem severityRank_maxSeverity (a b : IntegritySeverity) :
    severityRank (maxSeverity a b) = max (severityRank a) (severityRank b) := by
  unfold maxSeverity
  split <;> omega

theorem check_eq (judged : Judged) (signal : Signal) :
    signal.check judged = (judged.1 ++ signal.reported, maxSeverity judged.2 signal.level) := by
  obtain ⟨reasons, severity⟩ := judged
  obtain ⟨soft, hard, softReason, hardReason, exclusive⟩ := signal
  cases exclusive <;> cases soft <;> cases hard <;> cases severity <;>
    simp [Signal.check, Signal.noteHard, Signal.noteSoft, Signal.reported, Signal.level,
      maxSeverity, severityRank]

theorem foldl_check (signals : List Signal) (judged : Judged) :
    signals.foldl Signal.check judged =
      (judged.1 ++ signals.flatMap Signal.reported,
        (signals.map Signal.level).foldl maxSeverity judged.2) := by
  induction signals generalizing judged with
  | nil => simp
  | cons signal signals ih => simp [ih, check_eq]

/-- A fold of maxima is at most what the start and every element are. -/
theorem rank_foldl_le_iff (levels : List IntegritySeverity) (severity : IntegritySeverity) (n : ℕ) :
    severityRank (levels.foldl maxSeverity severity) ≤ n ↔
      severityRank severity ≤ n ∧ ∀ level ∈ levels, severityRank level ≤ n := by
  induction levels generalizing severity with
  | nil => simp
  | cons level levels ih => simp [ih, severityRank_maxSeverity, and_assoc]

/-- **The order** in which signals are checked does not matter. -/
theorem severity_perm {signals signals' : List Signal} (h : signals'.Perm signals) :
    (signals'.foldl Signal.check ([], .ok)).2 = (signals.foldl Signal.check ([], .ok)).2 := by
  rw [foldl_check, foldl_check]
  refine severityRank_injective (eq_of_forall_ge_iff fun n => ?_)
  rw [rank_foldl_le_iff, rank_foldl_le_iff]
  simp [h.mem_iff]

theorem rank_level (s : Signal) :
    severityRank s.level = if s.hard then 3 else if s.soft then 2 else 0 := by
  unfold Signal.level
  rw [apply_ite severityRank, apply_ite severityRank]
  rfl

/-- The severity, from the tiers that signals are at. -/
theorem severity_eq (signals : List Signal) :
    (signals.foldl Signal.check ([], .ok)).2 =
      if ∃ s ∈ signals, s.hard = true then .hardBreach
      else if ∃ s ∈ signals, s.soft = true then .softBreach else .ok := by
  have hok : severityRank .ok = 0 := rfl
  have htop : severityRank .hardBreach = 3 := rfl
  have hmiddle : severityRank .softBreach = 2 := rfl
  rw [foldl_check]
  refine severityRank_injective (eq_of_forall_ge_iff fun n => ?_)
  rw [rank_foldl_le_iff, List.forall_mem_map, hok, and_iff_right (Nat.zero_le n)]
  split
  · rename_i hhard
    obtain ⟨s, hs, hhard⟩ := hhard
    rw [htop]
    refine ⟨fun h => by simpa [rank_level, hhard] using h s hs,
      fun h s _ => ?_⟩
    rw [rank_level]
    split_ifs <;> omega
  rename_i hhard
  have hhard : ∀ s ∈ signals, s.hard = false := by simpa using hhard
  split
  · rename_i hsoft
    obtain ⟨s, hs, hsoft⟩ := hsoft
    rw [hmiddle]
    refine ⟨fun h => by simpa [rank_level, hhard s hs, hsoft] using h s hs,
      fun h s hs => ?_⟩
    rw [rank_level, hhard s hs, if_neg Bool.false_ne_true]
    split <;> omega
  · rename_i hsoft
    have hsoft : ∀ s ∈ signals, s.soft = false := by simpa using hsoft
    refine iff_of_true (fun s hs => ?_) (Nat.zero_le n)
    simp [rank_level, hhard s hs, hsoft s hs]

/-- Where texts tell the tiers apart, a critical reason is reported by a hard tier only. -/
theorem critical_reported_iff {signals : List Signal} (h : ∀ s ∈ signals, s.Labelled) :
    (∃ reason ∈ (signals.foldl Signal.check ([], .ok)).1, isCritical reason = true) ↔
      ∃ s ∈ signals, s.hard = true := by
  simp only [foldl_check, List.nil_append, List.mem_flatMap]
  constructor
  · rintro ⟨reason, ⟨s, hs, hreported⟩, hcritical⟩
    refine ⟨s, hs, ?_⟩
    by_contra hhard
    have hsoft : reason = s.softReason := by
      simp only [Signal.reported, hhard] at hreported
      split at hreported <;> simp_all
    rw [hsoft, (h s hs).1] at hcritical
    cases hcritical
  · rintro ⟨s, hs, hhard⟩
    exact ⟨s.hardReason, ⟨s, hs, by simp [Signal.reported, hhard]⟩, (h s hs).2 hhard⟩

/-! ## Readings -/

section Readings
variable (r : Readings)

/-- A hard tier other than that of the NBBO rate. -/
def Readings.CriticalElsewhere : Prop :=
  staleAfterSeconds r.barPeriodSecs barDeliveryLatencyHardSeconds < r.freshnessSeconds ∨
    missingBarRateHard < r.missingBarRate ∨
    ingestSequenceMisalignmentHard ≤ r.misalignments ∨
    ingestArrivalLagHardFraction < r.arrivalLagFraction

/-- A tier other than those of the NBBO rate. -/
def Readings.SignalElsewhere : Prop :=
  staleAfterSeconds r.barPeriodSecs barDeliveryLatencySoftSeconds < r.freshnessSeconds ∨
    missingBarRateSoft < r.missingBarRate ∨ r.tripped = true ∨
    ingestSequenceMisalignmentSoft ≤ r.misalignments ∨
    ingestArrivalLagSoftFraction < r.arrivalLagFraction

variable {r}

theorem hard_iff : (∃ s ∈ r.signals, s.hard = true) ↔
    r.nbboSuccessRate < nbboSuccessHard ∨ r.CriticalElsewhere := by
  simp [Readings.signals, Readings.CriticalElsewhere]
  tauto

theorem soft_iff : (∃ s ∈ r.signals, s.soft = true) ↔
    r.nbboSuccessRate < nbboSuccessSoft ∨ r.SignalElsewhere := by
  simp [Readings.signals, Readings.SignalElsewhere]
  tauto

/-- The hard tier of a signal lies within its soft tier. -/
theorem soft_of_hard (r : Readings) : ∀ s ∈ r.signals, s.hard = true → s.soft = true := by
  have hstale : staleAfterSeconds r.barPeriodSecs barDeliveryLatencySoftSeconds ≤
      staleAfterSeconds r.barPeriodSecs barDeliveryLatencyHardSeconds := by
    norm_num [staleAfterSeconds, barDeliveryLatencySoftSeconds, barDeliveryLatencyHardSeconds]
  have hmissing : missingBarRateSoft ≤ missingBarRateHard := by
    norm_num [missingBarRateSoft, missingBarRateHard]
  have hnbbo : nbboSuccessHard ≤ nbboSuccessSoft := by norm_num [nbboSuccessSoft, nbboSuccessHard]
  have hmis : ingestSequenceMisalignmentSoft ≤ ingestSequenceMisalignmentHard := by decide
  have hlag : ingestArrivalLagSoftFraction ≤ ingestArrivalLagHardFraction := by
    norm_num [ingestArrivalLagSoftFraction, ingestArrivalLagHardFraction]
  simpa [Readings.signals] using ⟨hstale.trans_lt, hmissing.trans_lt, fun h => h.trans_le hnbbo,
    hmis.trans, hlag.trans_lt⟩

theorem signals_labelled (r : Readings) : ∀ s ∈ r.signals, s.Labelled := by
  have hsoft : ∀ reason ∈ ["bar_freshness_drift", "missing_bar_rate_elevated",
      "nbbo_fetch_degraded", "ingest_circuit_breaker_tripped", "sequence_misalignment",
      "ingest_arrival_lag"], isCritical reason = false := by decide
  have hhard : ∀ reason ∈ ["bar_freshness_critical", "missing_bar_rate_critical",
      "nbbo_fetch_critical", "sequence_misalignment_critical",
      "ingest_arrival_lag_critical"], isCritical reason = true := by decide
  simp only [List.forall_mem_cons] at hsoft hhard
  simp [Readings.signals, Signal.Labelled, hsoft, hhard]

end Readings

/-! ## Payloads -/

/-- The second payload differs from the first in being worse, in any of five readings. -/
structure Worse (p q : DataPayload) : Prop where
  latestBar : q.latestBarTimestamp ≤ p.latestBarTimestamp
  rate : q.nbboSuccessRate = p.nbboSuccessRate ∨
    ∃ a b, p.nbboSuccessRate = some a ∧ q.nbboSuccessRate = some b ∧ b < a
  misalignments : p.misalignments ≤ q.misalignments
  lag : p.arrivalLag ≤ q.arrivalLag
  tripped : p.tripped = true → q.tripped = true
  rest : q = { p with
    latestBarTimestamp := q.latestBarTimestamp
    nbboSuccessRate := q.nbboSuccessRate
    sequenceMisalignmentEvents := q.sequenceMisalignmentEvents
    ingestArrivalLagSeconds := q.ingestArrivalLagSeconds
    ingestCircuitBreakerTripped := q.ingestCircuitBreakerTripped }

section Payloads
variable (upper : String → String) (zone : ExchangeZone) (monitor : SLOMonitor)
  (queryRlBackfillLagHours : ℤ → ℚ)

def verdict (payload : DataPayload) : DataIntegrityVerdict :=
  (monitor.evaluateDataIntegrity upper zone queryRlBackfillLagHours payload).1

/-- The severity is the maximum over the signals in any order, it is the hardest exactly when
a critical reason is reported, and a worse payload does not lower it. -/
structure JudgesByMaximum (p q : DataPayload) : Prop where
  maximum : ∀ payload ∈ [p, q],
    (verdict upper zone monitor queryRlBackfillLagHours payload).severity =
      ((monitor.readings upper zone payload).signals.map Signal.level).foldl maxSeverity .ok
  order : ∀ payload ∈ [p, q], ∀ signals : List Signal,
    signals.Perm (monitor.readings upper zone payload).signals →
      (verdict upper zone monitor queryRlBackfillLagHours payload).severity =
        (signals.foldl Signal.check ([], .ok)).2
  critical : ∀ payload ∈ [p, q],
    (verdict upper zone monitor queryRlBackfillLagHours payload).severity = .hardBreach ↔
      ∃ reason ∈ (verdict upper zone monitor queryRlBackfillLagHours payload).reasons,
        isCritical reason = true
  monotone : severityRank (verdict upper zone monitor queryRlBackfillLagHours p).severity ≤
    severityRank (verdict upper zone monitor queryRlBackfillLagHours q).severity

/-- The rate that stands in for one that is not given. -/
def trackedRate (payload : DataPayload) : ℚ :=
  (monitor.noted upper zone payload).nbboSuccessRate upper payload.legSymbol

/-- A rate that falls to zero at a breach finds the tracked rate, or another reading, at a
tier as hard. -/
def ZeroRateHeard (p q : DataPayload) : Prop :=
  ∀ a, p.nbboSuccessRate = some a → a ≠ 0 → q.nbboSuccessRate = some 0 →
    (a < nbboSuccessHard → trackedRate upper zone monitor q < nbboSuccessHard ∨
      (monitor.readings upper zone q).CriticalElsewhere) ∧
    (a < nbboSuccessSoft → trackedRate upper zone monitor q < nbboSuccessSoft ∨
      (monitor.readings upper zone q).SignalElsewhere)

variable {upper zone monitor queryRlBackfillLagHours} {p q : DataPayload}

theorem verdict_open (h : monitor.isMarketDormant zone p.asset p.exchangeReferenceTs = false) :
    (verdict upper zone monitor queryRlBackfillLagHours p).severity =
        ((monitor.readings upper zone p).signals.foldl Signal.check ([], .ok)).2 ∧
      (verdict upper zone monitor queryRlBackfillLagHours p).reasons =
        ((monitor.readings upper zone p).signals.foldl Signal.check ([], .ok)).1 := by
  unfold verdict SLOMonitor.evaluateDataIntegrity
  rw [h, if_neg Bool.false_ne_true]
  exact ⟨rfl, rfl⟩

/-- On an open market freshness is the staleness itself. -/
theorem freshness_open (h : monitor.isMarketDormant zone p.asset p.exchangeReferenceTs = false) :
    (monitor.readings upper zone p).freshnessSeconds =
      barStalenessSeconds (p.latestBarTimestamp / second) (p.minutes * 60)
        (monitor.calendar.effectiveReferenceTime zone p.exchangeReferenceTs p.asset / second) := by
  unfold SLOMonitor.readings SLOMonitor.calendarAdjustedFreshnessLimit
  dsimp only
  by_cases hcrypto : p.asset = "crypto"
  · rw [if_pos hcrypto]
  · have hwithin : monitor.calendar.isWithinRth zone p.exchangeReferenceTs = true := by
      simpa [SLOMonitor.isMarketDormant, hcrypto] using h
    rw [if_neg hcrypto, hwithin, if_pos rfl]

variable (upper zone monitor) in
/-- What a worse payload leaves as it is. -/
theorem Worse.same (h : Worse p q) : q.exchangeReferenceTs = p.exchangeReferenceTs ∧
    q.asset = p.asset ∧ q.frame = p.frame ∧ q.minutes = p.minutes ∧
    (monitor.readings upper zone q).missingBarRate =
      (monitor.readings upper zone p).missingBarRate ∧
    trackedRate upper zone monitor q = trackedRate upper zone monitor p := by
  rw [h.rest]
  exact ⟨rfl, rfl, rfl, rfl, rfl, rfl⟩

variable (upper zone monitor) in
theorem Worse.period_eq (h : Worse p q) : (monitor.readings upper zone q).barPeriodSecs =
    (monitor.readings upper zone p).barPeriodSecs := by
  rw [h.rest]
  rfl

theorem Worse.freshness_le (h : Worse p q)
    (hopen : monitor.isMarketDormant zone p.asset p.exchangeReferenceTs = false) :
    (monitor.readings upper zone p).freshnessSeconds ≤
      (monitor.readings upper zone q).freshnessSeconds := by
  obtain ⟨href, hasset, -, hminutes, -⟩ := h.same id zone monitor
  have hsecond : (0 : ℚ) < second := by norm_num [second]
  have hlatest : (q.latestBarTimestamp : ℚ) / second ≤ p.latestBarTimestamp / second :=
    (div_le_div_iff_of_pos_right hsecond).mpr (by exact_mod_cast h.latestBar)
  rw [freshness_open hopen, freshness_open (by rw [hasset, href]; exact hopen), href, hasset,
    hminutes]
  exact max_le_max_right 0 (by linarith)

theorem Worse.lag_le (h : Worse p q) : (monitor.readings upper zone p).arrivalLagFraction ≤
    (monitor.readings upper zone q).arrivalLagFraction := by
  obtain ⟨-, -, hframe, -⟩ := h.same id zone monitor
  have hperiod : (0 : ℚ) < timeframeMinutes p.frame * 60 := by
    have hpos : (0 : ℚ) < timeframeMinutes p.frame := by
      exact_mod_cast timeframeMinutes_pos p.frame
    linarith
  unfold SLOMonitor.readings
  dsimp only
  rw [hframe, if_pos hperiod, if_pos hperiod]
  exact (div_le_div_iff_of_pos_right hperiod).mpr h.lag

theorem Worse.criticalElsewhere (h : Worse p q)
    (hopen : monitor.isMarketDormant zone p.asset p.exchangeReferenceTs = false)
    (hp : (monitor.readings upper zone p).CriticalElsewhere) :
    (monitor.readings upper zone q).CriticalElsewhere := by
  obtain ⟨-, -, -, -, hmissing, -⟩ := h.same upper zone monitor
  unfold Readings.CriticalElsewhere at hp ⊢
  rw [h.period_eq upper zone monitor, hmissing]
  exact hp.imp (fun hstale => hstale.trans_le (h.freshness_le hopen))
    (Or.imp_right (Or.imp (fun hmis => hmis.trans h.misalignments)
      fun hlag => hlag.trans_le h.lag_le))

theorem Worse.signalElsewhere (h : Worse p q)
    (hopen : monitor.isMarketDormant zone p.asset p.exchangeReferenceTs = false)
    (hp : (monitor.readings upper zone p).SignalElsewhere) :
    (monitor.readings upper zone q).SignalElsewhere := by
  obtain ⟨-, -, -, -, hmissing, -⟩ := h.same upper zone monitor
  unfold Readings.SignalElsewhere at hp ⊢
  rw [h.period_eq upper zone monitor, hmissing]
  exact hp.imp (fun hstale => hstale.trans_le (h.freshness_le hopen))
    (Or.imp_right (Or.imp h.tripped (Or.imp (fun hmis => hmis.trans h.misalignments)
      fun hlag => hlag.trans_le h.lag_le)))

/-- A severity is no lower exactly when each tier is at least as full. -/
theorem rank_severity_le_iff (r r' : Readings) :
    severityRank (r.signals.foldl Signal.check ([], .ok)).2 ≤
        severityRank (r'.signals.foldl Signal.check ([], .ok)).2 ↔
      (r.nbboSuccessRate < nbboSuccessHard ∨ r.CriticalElsewhere →
        r'.nbboSuccessRate < nbboSuccessHard ∨ r'.CriticalElsewhere) ∧
      (r.nbboSuccessRate < nbboSuccessSoft ∨ r.SignalElsewhere →
        r'.nbboSuccessRate < nbboSuccessSoft ∨ r'.SignalElsewhere) := by
  have hnested : ∀ r : Readings, (∃ s ∈ r.signals, s.hard = true) →
      ∃ s ∈ r.signals, s.soft = true := by
    rintro r ⟨s, hs, hhard⟩
    exact ⟨s, hs, soft_of_hard r s hs hhard⟩
  rw [← hard_iff, ← hard_iff, ← soft_iff, ← soft_iff, severity_eq, severity_eq]
  have hr := hnested r
  have hr' := hnested r'
  split_ifs <;> simp_all [severityRank]

/-- What a rate given in place of the tracked one does to a tier. -/
theorem rate_lt_iff (h : Worse p q) {threshold : ℚ} (hpos : 0 < threshold) {P Q : Prop}
    (hPQ : P → Q) :
    ((monitor.readings upper zone p).nbboSuccessRate < threshold ∨ P →
        (monitor.readings upper zone q).nbboSuccessRate < threshold ∨ Q) ↔
      ∀ a, p.nbboSuccessRate = some a → a ≠ 0 → q.nbboSuccessRate = some 0 →
        a < threshold → trackedRate upper zone monitor q < threshold ∨ Q := by
  have hread : ∀ payload : DataPayload, (monitor.readings upper zone payload).nbboSuccessRate =
      orDefault 0 payload.nbboSuccessRate (trackedRate upper zone monitor payload) := fun _ => rfl
  have htracked := (h.same upper zone monitor).2.2.2.2.2
  rw [hread, hread]
  rcases h.rate with hsame | ⟨a, b, ha, hb, hlt⟩
  · rw [hsame, htracked]
    refine iff_of_true (Or.imp_right hPQ) fun a ha hne hzero => ?_
    rw [ha] at hzero
    exact absurd (Option.some.inj hzero) hne
  · simp only [ha, hb, orDefault, Option.some.injEq, forall_eq']
    by_cases hb0 : b = 0
    · have ha0 : a ≠ 0 := by linarith
      simp only [hb0, ha0, if_true, if_false, ne_eq, not_false_eq_true, forall_true_left]
      exact ⟨fun h hlow => h (.inl hlow), fun h hor => hor.elim h fun hP => .inr (hPQ hP)⟩
    · simp only [hb0, if_false, false_implies, implies_true, iff_true]
      rintro (hlow | hP)
      · refine .inl ?_
        split_ifs at hlow
        · linarith
        · exact hlt.trans hlow
      · exact .inr (hPQ hP)

variable (upper zone monitor queryRlBackfillLagHours) in
/-- **A pair of payloads** of an open market is judged by the maximum exactly when a rate that
falls to zero is heard otherwise. -/
theorem judgesByMaximum_iff (h : Worse p q)
    (hopen : monitor.isMarketDormant zone p.asset p.exchangeReferenceTs = false) :
    JudgesByMaximum upper zone monitor queryRlBackfillLagHours p q ↔
      ZeroRateHeard upper zone monitor p q := by
  obtain ⟨href, hasset, -⟩ := h.same id zone monitor
  have hopen' : monitor.isMarketDormant zone q.asset q.exchangeReferenceTs = false := by
    rwa [hasset, href]
  have hverdict : ∀ payload ∈ [p, q],
      monitor.isMarketDormant zone payload.asset payload.exchangeReferenceTs = false := by
    simp [hopen, hopen']
  have hmonotone := rank_severity_le_iff (monitor.readings upper zone p)
    (monitor.readings upper zone q)
  rw [rate_lt_iff h (by norm_num [nbboSuccessHard]) (h.criticalElsewhere hopen),
    rate_lt_iff h (by norm_num [nbboSuccessSoft]) (h.signalElsewhere hopen)] at hmonotone
  constructor
  · intro hjudges a ha hne hzero
    have hle := hjudges.monotone
    rw [(verdict_open hopen).1, (verdict_open hopen').1, hmonotone] at hle
    exact ⟨hle.1 a ha hne hzero, hle.2 a ha hne hzero⟩
  · intro hheard
    refine ⟨fun payload hp => ?_, fun payload hp signals hperm => ?_, fun payload hp => ?_, ?_⟩
    · rw [(verdict_open (hverdict payload hp)).1, foldl_check]
    · rw [(verdict_open (hverdict payload hp)).1, severity_perm hperm]
    · rw [(verdict_open (hverdict payload hp)).1, (verdict_open (hverdict payload hp)).2,
        critical_reported_iff (signals_labelled _), severity_eq]
      split_ifs <;> simp_all
    · rw [(verdict_open hopen).1, (verdict_open hopen').1, hmonotone]
      exact ⟨fun a ha hne hzero => (hheard a ha hne hzero).1,
        fun a ha hne hzero => (hheard a ha hne hzero).2⟩

/-- A crypto leg whose latest bar has just closed, with a rate of fetched quotes. -/
def cryptoPayload (rate : ℚ) : DataPayload where
  exchangeReferenceTs := 15 * minute
  assetClass := some "crypto"
  latestBarTimestamp := 0
  nbboSuccessRate := some rate

theorem cryptoPayload_worse {a b : ℚ} (h : b < a) : Worse (cryptoPayload a) (cryptoPayload b) :=
  ⟨le_rfl, .inr ⟨a, b, rfl, rfl, h⟩, le_rfl, le_rfl, id, rfl⟩

theorem falling_rate_judged :
    JudgesByMaximum id easternStandard {} (fun _ => 0) (cryptoPayload (3 / 4))
      (cryptoPayload (1 / 4)) :=
  (judgesByMaximum_iff id easternStandard {} (fun _ => 0)
    (cryptoPayload_worse (by norm_num)) (by decide +kernel)).mpr
      fun a _ _ hzero => absurd (Option.some.inj hzero) (by norm_num)

/-- A leg with no quote at all is sound, where one quote in ten is critical. -/
theorem zero_rate_unheard :
    Worse (cryptoPayload (1 / 10)) (cryptoPayload 0) ∧
      ¬ JudgesByMaximum id easternStandard {} (fun _ => 0) (cryptoPayload (1 / 10))
        (cryptoPayload 0) := by
  refine ⟨cryptoPayload_worse (by norm_num), fun hjudges => ?_⟩
  exact absurd hjudges.monotone (by decide +kernel)

end Payloads

end TradingPlatform.Engine.Slo
