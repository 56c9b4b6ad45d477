import TradingPlatform.Lib.Binary64
import TradingPlatform.Lib.Moments

/-! # Champion drift

An old champion is condemned on two of three signals, read off its live trades, the
newest first: a streak of misses, a win rate below the expected one, and the tracking
error of the newest trades against the oldest ones. Numbers are doubles, and what Python
adds, subtracts or divides is rounded; means and deviations of arrays are numpy's. -/

namespace TradingPlatform.Engine.DriftEvaluator

open TradingPlatform.Lib.Binary64 (nearestValue nearestValue_nonneg)
open TradingPlatform.Lib.Moments

inductive Classification
  | stable
  | oldButStable
  | oldAndWrong
  deriving DecidableEq

inductive Directive
  | none
  | monitor
  | stagedRollback
  | forceMiniSweep
  deriving DecidableEq

def championAgeStaleDays : ℤ := 14

def minTradesForDrift : ℕ := 8

def consecutiveMissThreshold : ℕ := 4

def winRateDecayThreshold : ℚ := nearestValue (-0.15)

def trackingErrorDecayThreshold : ℚ := nearestValue (-0.20)

def backtestHitRateDefault : ℚ := 0.55

def backtestSharpeDefault : ℚ := 0.80

/-- The literal `1e-9`. -/
def leastError : ℚ := nearestValue 1e-9

/-- The entries of `params` that are read, as they are written. -/
structure ChampionParams where
  holdoutHitRate : Option ℚ
  backtestHitRate : Option ℚ
  holdoutSharpe : Option ℚ
  backtestSharpe : Option ℚ

structure DriftMetrics where
  championAgeDays : ℤ
  consecutiveMisses : ℕ
  consecutiveMissRate : ℚ
  liveWinRate : ℚ
  backtestExpectedWinRate : ℚ
  winRateDecay : ℚ
  trackingError : ℚ
  trackingErrorBaseline : ℚ
  trackingErrorDecay : ℚ
  sampleTrades : ℕ
  liveSharpe : ℚ
  backtestExpectedSharpe : ℚ
  deriving DecidableEq

/-- `np.mean` and `np.std` of an array of doubles. A sum of zeros and ones is exact, and its
mean is rounded once. -/
structure Numpy where
  mean : List ℚ → ℚ
  std : List ℚ → ℚ
  mean_flags : ∀ flags : List ℚ, (∀ flag ∈ flags, flag = 0 ∨ flag = 1) →
    mean flags = nearestValue (flags.sum / flags.length)

/-- A first value of an `or` chain; zero is false. -/
def truthy (value : Option ℚ) : Option ℚ := value.filter (nearestValue · ≠ 0)

/-- The expected win rate, before it is read as a double. -/
def ChampionParams.expectedWinRate (params : ChampionParams) : ℚ :=
  ((truthy params.holdoutHitRate).or (truthy params.backtestHitRate)).getD backtestHitRateDefault

def ChampionParams.expectedSharpe (params : ChampionParams) : ℚ :=
  ((truthy params.holdoutSharpe).or (truthy params.backtestSharpe)).getD backtestSharpeDefault

def ChampionParams.backtestExpectations (params : ChampionParams) : ℚ × ℚ :=
  (nearestValue params.expectedWinRate, nearestValue params.expectedSharpe)

def consecutiveMisses (pnls : List ℚ) : ℕ := (pnls.takeWhile (· < 0)).length

section Metrics
variable (np : Numpy)

def computeTrackingError (pnls : List ℚ) (expectedMean : ℚ) : ℚ :=
  if pnls.length < 2 then 0 else np.std (pnls.map fun pnl => nearestValue (pnl - expectedMean))

def expectedMean (pnls : List ℚ) (expectedSharpe : ℚ) : ℚ :=
  if expectedSharpe ≤ 0 then np.mean pnls
  else nearestValue (expectedSharpe * if leastError < np.std pnls then np.std pnls else 1)

/-- `pnls[-min(sample, 20) :]`. -/
def baselineWindow (pnls : List ℚ) : List ℚ := pnls.drop (pnls.length - min pnls.length 20)

def buildMetrics (championAgeDays : ℤ) (pnls : List ℚ) (params : ChampionParams) : DriftMetrics :=
  let (expectedWin, expectedSharpe) := params.backtestExpectations
  let sample := pnls.length
  if sample = 0 then
    { championAgeDays
      consecutiveMisses := 0
      consecutiveMissRate := 0
      liveWinRate := expectedWin
      backtestExpectedWinRate := expectedWin
      winRateDecay := 0
      trackingError := 0
      trackingErrorBaseline := 0
      trackingErrorDecay := 0
      sampleTrades := 0
      liveSharpe := expectedSharpe
      backtestExpectedSharpe := expectedSharpe }
  else
    let liveWinRate := np.mean (pnls.map fun pnl => if 0 < pnl then 1 else 0)
    let misses := consecutiveMisses pnls
    let expected := expectedMean np pnls expectedSharpe
    let baselineTe := computeTrackingError np (baselineWindow pnls) expected
    let recentTe :=
      if 10 ≤ pnls.length then computeTrackingError np (pnls.take 10) expected
      else computeTrackingError np pnls expected
    let teDecay :=
      if 10 ≤ pnls.length then
        nearestValue (nearestValue (recentTe - baselineTe) / max baselineTe leastError)
      else 0
    { championAgeDays
      consecutiveMisses := misses
      consecutiveMissRate := nearestValue (misses / max sample 1)
      liveWinRate
      backtestExpectedWinRate := expectedWin
      winRateDecay := nearestValue (liveWinRate - expectedWin)
      trackingError := recentTe
      trackingErrorBaseline := baselineTe
      trackingErrorDecay := teDecay
      sampleTrades := sample
      liveSharpe :=
        if leastError < np.std pnls then nearestValue (np.mean pnls / np.std pnls) else 0
      backtestExpectedSharpe := expectedSharpe }

end Metrics

def DriftMetrics.wrongSignals (metrics : DriftMetrics) : ℕ :=
  (if consecutiveMissThreshold ≤ metrics.consecutiveMisses then 1 else 0) +
    (if metrics.winRateDecay ≤ winRateDecayThreshold then 1 else 0) +
    (if metrics.trackingErrorDecay ≤ trackingErrorDecayThreshold then 1 else 0)

def DriftMetrics.classify (staleAgeDays : ℤ) (metrics : DriftMetrics) :
    Classification × Directive × String :=
  if metrics.championAgeDays < staleAgeDays then
    (.stable, .none, "champion_age_within_window")
  else if metrics.sampleTrades < minTradesForDrift then
    (.oldButStable, .monitor, "stale_age_insufficient_live_sample")
  else if 2 ≤ metrics.wrongSignals ∨
      (consecutiveMissThreshold ≤ metrics.consecutiveMisses ∧
        metrics.winRateDecay ≤ winRateDecayThreshold) then
    (.oldAndWrong,
      if staleAgeDays * 2 ≤ metrics.championAgeDays then .forceMiniSweep else .stagedRollback,
      "live_drift_breaches")
  else (.oldButStable, .monitor, "stale_age_metrics_stable")

/-! ## Deterioration -/

section Spec
variable (np : Numpy) (staleAgeDays championAgeDays : ℤ) (pnls : List ℚ) (params : ChampionParams)

/-- The newest trades all lost. -/
def Losing : Prop := ∀ pnl ∈ pnls.take consecutiveMissThreshold, pnl < 0

def winRate : ℚ := (pnls.countP (0 < ·) : ℚ) / pnls.length

/-- The win rate is 0.15 or more below the expected one. -/
def WinsTooRarely : Prop := winRate pnls ≤ params.expectedWinRate - 0.15

/-- It is so between doubles: of the two rates, of their difference, and of `-0.15`. -/
def RoundsTooRarely : Prop :=
  nearestValue (nearestValue (winRate pnls) - nearestValue params.expectedWinRate) ≤
    nearestValue (-0.15)

def recentError : ℚ :=
  computeTrackingError np (pnls.take 10)
    (expectedMean np pnls (nearestValue params.expectedSharpe))

/-- Of the oldest trades, up to twenty. -/
def baselineError : ℚ :=
  computeTrackingError np (baselineWindow pnls)
    (expectedMean np pnls (nearestValue params.expectedSharpe))

/-- The tracking error of the ten newest trades is at least 20 percent above the baseline. -/
def ErrorGrew : Prop :=
  10 ≤ pnls.length ∧ baselineError np pnls params < recentError np pnls params ∧
    1.20 * baselineError np pnls params ≤ recentError np pnls params

/-- It is at least 20 percent below, between doubles (and of a baseline next to nothing, of the
least one). -/
def ErrorShrank : Prop :=
  10 ≤ pnls.length ∧
    nearestValue (nearestValue (recentError np pnls params - baselineError np pnls params) /
      max (baselineError np pnls params) leastError) ≤ nearestValue (-0.20)

def TwoOf (p q r : Prop) : Prop := p ∧ q ∨ p ∧ r ∨ q ∧ r

def condemned : Prop :=
  ((buildMetrics np championAgeDays pnls params).classify staleAgeDays).1 = .oldAndWrong

/-- **A champion is condemned only for deterioration.** -/
structure CondemnedForDeterioration : Prop where
  verdict : condemned np staleAgeDays championAgeDays pnls params ↔
    staleAgeDays ≤ championAgeDays ∧ minTradesForDrift ≤ pnls.length ∧
      TwoOf (Losing pnls) (WinsTooRarely pnls params) (ErrorGrew np pnls params)
  shrinking : recentError np pnls params < baselineError np pnls params →
    condemned np staleAgeDays championAgeDays pnls params →
      Losing pnls ∧ WinsTooRarely pnls params

/-- Where rounding keeps the test of the win rate, the streak agrees with it or the tracking
error kept within a fifth; where it hides or makes up the 0.15, the streak and the tracking
error settle the verdict between them. -/
structure SettledAlike : Prop where
  exact : (WinsTooRarely pnls params ↔ RoundsTooRarely pnls params) →
    (Losing pnls ↔ WinsTooRarely pnls params) ∨
      ¬ ErrorGrew np pnls params ∧ ¬ ErrorShrank np pnls params
  hidden : WinsTooRarely pnls params → ¬ RoundsTooRarely pnls params →
    (Losing pnls → ErrorShrank np pnls params) ∧ (¬ Losing pnls → ¬ ErrorGrew np pnls params)
  madeUp : ¬ WinsTooRarely pnls params → RoundsTooRarely pnls params →
    (Losing pnls → ErrorGrew np pnls params) ∧ (¬ Losing pnls → ¬ ErrorShrank np pnls params)

end Spec

/-! ## The three signals -/

section Proofs
variable {np : Numpy} {staleAgeDays championAgeDays : ℤ} {pnls : List ℚ} {params : ChampionParams}

theorem le_consecutiveMisses_iff {n : ℕ} (h : n ≤ pnls.length) :
    n ≤ consecutiveMisses pnls ↔ ∀ pnl ∈ pnls.take n, pnl < 0 := by
  unfold consecutiveMisses
  induction pnls generalizing n with
  | nil => simp_all
  | cons pnl rest ih =>
    cases n with
    | zero => simp
    | succ n =>
      have hrest := ih (Nat.le_of_succ_le_succ h)
      by_cases hpnl : pnl < 0
      · simp [hpnl, hrest]
      · simp [hpnl]

theorem two_le_count_iff (p q r : Prop) [Decidable p] [Decidable q] [Decidable r] :
    2 ≤ (if p then 1 else 0) + (if q then 1 else 0) + (if r then 1 else 0) ↔ TwoOf p q r := by
  unfold TwoOf
  by_cases hp : p <;> by_cases hq : q <;> by_cases hr : r <;> simp [hp, hq, hr]

theorem classify_iff (metrics : DriftMetrics) :
    (metrics.classify staleAgeDays).1 = .oldAndWrong ↔
      staleAgeDays ≤ metrics.championAgeDays ∧ minTradesForDrift ≤ metrics.sampleTrades ∧
        TwoOf (consecutiveMissThreshold ≤ metrics.consecutiveMisses)
          (metrics.winRateDecay ≤ winRateDecayThreshold)
          (metrics.trackingErrorDecay ≤ trackingErrorDecayThreshold) := by
  have hbreached : 2 ≤ metrics.wrongSignals ∨
      (consecutiveMissThreshold ≤ metrics.consecutiveMisses ∧
        metrics.winRateDecay ≤ winRateDecayThreshold) ↔
      TwoOf (consecutiveMissThreshold ≤ metrics.consecutiveMisses)
        (metrics.winRateDecay ≤ winRateDecayThreshold)
        (metrics.trackingErrorDecay ≤ trackingErrorDecayThreshold) := by
    rw [DriftMetrics.wrongSignals, two_le_count_iff]
    exact or_iff_left_of_imp Or.inl
  rw [← hbreached, ← not_lt, ← not_lt]
  unfold DriftMetrics.classify
  split
  · rename_i hstale
    exact iff_of_false nofun fun h => h.1 hstale
  rename_i hstale
  split
  · rename_i hfew
    exact iff_of_false nofun fun h => h.2.1 hfew
  rename_i hfew
  split
  · rename_i hwrong
    exact iff_of_true rfl ⟨hstale, hfew, hwrong⟩
  · rename_i hwrong
    exact iff_of_false nofun fun h => hwrong h.2.2

theorem mean_wins (np : Numpy) (pnls : List ℚ) :
    np.mean (pnls.map fun pnl => if 0 < pnl then 1 else 0) = nearestValue (winRate pnls) := by
  have hsum : (pnls.map fun pnl => if 0 < pnl then (1 : ℚ) else 0).sum =
      (pnls.countP (0 < ·) : ℚ) := by
    induction pnls with
    | nil => simp
    | cons pnl rest ih =>
      rw [List.map_cons, List.sum_cons, ih, List.countP_cons]
      by_cases hpnl : 0 < pnl <;> simp [hpnl, add_comm]
  rw [np.mean_flags, winRate, hsum, List.length_map]
  intro flag hflag
  obtain ⟨pnl, -, rfl⟩ := List.mem_map.mp hflag
  split
  · exact Or.inr rfl
  · exact Or.inl rfl

theorem trackingErrorDecay_le_iff :
    (buildMetrics np championAgeDays pnls params).trackingErrorDecay ≤
      trackingErrorDecayThreshold ↔ ErrorShrank np pnls params := by
  have hbelow : ¬ (0 : ℚ) ≤ trackingErrorDecayThreshold := by decide +kernel
  unfold buildMetrics
  dsimp only
  split
  · rename_i hnone
    exact iff_of_false hbelow fun h => by
      have := h.1
      omega
  by_cases hten : 10 ≤ pnls.length
  · simp only [hten, if_true, ErrorShrank, true_and]
    rfl
  · simp only [hten, if_false, ErrorShrank, false_and, iff_false]
    exact hbelow

/-- A tracking error that shrank is counted, not one that grew. -/
theorem condemned_iff :
    condemned np staleAgeDays championAgeDays pnls params ↔
      staleAgeDays ≤ championAgeDays ∧ minTradesForDrift ≤ pnls.length ∧
        TwoOf (Losing pnls) (RoundsTooRarely pnls params) (ErrorShrank np pnls params) := by
  have hage : (buildMetrics np championAgeDays pnls params).championAgeDays =
      championAgeDays := by
    unfold buildMetrics
    dsimp only
    split <;> rfl
  have hsample : (buildMetrics np championAgeDays pnls params).sampleTrades = pnls.length := by
    unfold buildMetrics
    dsimp only
    split
    · rename_i h
      exact h.symm
    · rfl
  rw [condemned, classify_iff, hage, hsample, trackingErrorDecay_le_iff]
  refine and_congr_right fun _ => and_congr_right fun hmany => ?_
  have hne : pnls.length ≠ 0 := Nat.ne_of_gt (lt_of_lt_of_le (by decide) hmany)
  have hlosing : consecutiveMissThreshold ≤
      (buildMetrics np championAgeDays pnls params).consecutiveMisses ↔ Losing pnls := by
    simp only [buildMetrics, if_neg hne]
    exact le_consecutiveMisses_iff (le_trans (by decide) hmany)
  have hrare : (buildMetrics np championAgeDays pnls params).winRateDecay ≤
      winRateDecayThreshold ↔ RoundsTooRarely pnls params := by
    simp only [buildMetrics, if_neg hne, mean_wins]
    rfl
  rw [hlosing, hrare]

theorem not_shrank_of_grew (h : ErrorGrew np pnls params) : ¬ ErrorShrank np pnls params := by
  intro hshrank
  have hleast : (0 : ℚ) ≤ leastError := by decide +kernel
  have hbelow : nearestValue (-0.20) < 0 := by decide +kernel
  have hrise := nearestValue_nonneg (sub_nonneg.mpr h.2.1.le)
  have hdecay := nearestValue_nonneg (div_nonneg hrise (hleast.trans
    (le_max_right (baselineError np pnls params) leastError)))
  exact absurd (hdecay.trans hshrank.2) (not_le.mpr hbelow)

/-- Two of three signals, read in two ways whose third signals exclude each other. -/
theorem twoOf_congr_iff {losing rare rounds grew shrank : Prop} (h : grew → ¬ shrank) :
    (TwoOf losing rounds shrank ↔ TwoOf losing rare grew) ↔
      ((rare ↔ rounds) → (losing ↔ rare) ∨ ¬ grew ∧ ¬ shrank) ∧
      (rare → ¬ rounds → (losing → shrank) ∧ (¬ losing → ¬ grew)) ∧
      (¬ rare → rounds → (losing → grew) ∧ (¬ losing → ¬ shrank)) := by
  unfold TwoOf
  by_cases hlosing : losing <;> by_cases hrare : rare <;> by_cases hrounds : rounds <;>
    by_cases hgrew : grew <;> simp_all

/-- **A champion is condemned only for deterioration** exactly when the streak, the win rate
and the tracking error settle the verdict as if shortfalls were not rounded and an error that
grew were counted. -/
theorem condemnedForDeterioration_iff (np : Numpy) (staleAgeDays championAgeDays : ℤ)
    (pnls : List ℚ) (params : ChampionParams) :
    CondemnedForDeterioration np staleAgeDays championAgeDays pnls params ↔
      (staleAgeDays ≤ championAgeDays → minTradesForDrift ≤ pnls.length →
        SettledAlike np pnls params) := by
  have hsettled : SettledAlike np pnls params ↔
      (TwoOf (Losing pnls) (RoundsTooRarely pnls params) (ErrorShrank np pnls params) ↔
        TwoOf (Losing pnls) (WinsTooRarely pnls params) (ErrorGrew np pnls params)) := by
    rw [twoOf_congr_iff not_shrank_of_grew]
    exact ⟨fun h => ⟨h.exact, h.hidden, h.madeUp⟩, fun h => ⟨h.1, h.2.1, h.2.2⟩⟩
  have hverdict : (condemned np staleAgeDays championAgeDays pnls params ↔
      staleAgeDays ≤ championAgeDays ∧ minTradesForDrift ≤ pnls.length ∧
        TwoOf (Losing pnls) (WinsTooRarely pnls params) (ErrorGrew np pnls params)) ↔
      (staleAgeDays ≤ championAgeDays → minTradesForDrift ≤ pnls.length →
        SettledAlike np pnls params) := by
    rw [condemned_iff, hsettled, and_congr_right_iff]
    exact forall_congr' fun _ => and_congr_right_iff
  refine ⟨fun h => hverdict.mp h.verdict, fun h => ?_⟩
  have hiff := hverdict.mpr h
  refine ⟨hiff, fun hless hcondemned => ?_⟩
  have hnot : ¬ ErrorGrew np pnls params := fun hgrew => hless.not_gt hgrew.2.1
  obtain ⟨-, -, hboth | ⟨-, hgrew⟩ | ⟨-, hgrew⟩⟩ := hiff.mp hcondemned
  · exact hboth
  · exact absurd hgrew hnot
  · exact absurd hgrew hnot

end Proofs

/-- The square root, of the squares of rationals. -/
def ratSqrt (q : ℚ) : ℚ := Nat.sqrt q.num.toNat / Nat.sqrt q.den

/-- numpy, on arrays whose sums are exact and whose variance is the square of a rational. -/
def plainNumpy : Numpy where
  mean xs := nearestValue (xs.sum / xs.length)
  std xs := nearestValue (ratSqrt (deviations (xs.sum / xs.length) xs / xs.length))
  mean_flags _ _ := rfl

/-- A champion that lost all its trades is condemned on the streak and the win rate. -/
theorem losing_champion_judged :
    CondemnedForDeterioration plainNumpy championAgeStaleDays 20 (List.replicate 8 (-1))
      ⟨none, none, none, none⟩ := by
  have hlosing : Losing (List.replicate 8 (-1)) := by simp [Losing, consecutiveMissThreshold]
  have hrare : WinsTooRarely (List.replicate 8 (-1)) ⟨none, none, none, none⟩ := by
    unfold WinsTooRarely
    decide +kernel
  have hrounds : RoundsTooRarely (List.replicate 8 (-1)) ⟨none, none, none, none⟩ := by
    unfold RoundsTooRarely
    decide +kernel
  refine (condemnedForDeterioration_iff plainNumpy championAgeStaleDays 20 _ _).mpr fun _ _ =>
    ⟨fun _ => .inl (iff_of_true hlosing hrare), fun _ h => absurd hrounds h,
      fun h => absurd hrare h⟩

/-- Ten quiet trades, the newest five lost, after ten that swung seven times as far. -/
def calmedPnls : List ℚ :=
  List.replicate 5 (-1) ++ List.replicate 5 1 ++ List.replicate 5 (-7) ++ List.replicate 5 7

/-- Ten trades, of which the two oldest won. -/
def losingPnls : List ℚ := List.replicate 8 (-1) ++ List.replicate 2 4

/-- A tracking error that shrank condemns; and a win rate of 0.2 is not found 0.15 below 0.35. -/
theorem calmed_champion_condemned :
    ¬ CondemnedForDeterioration plainNumpy championAgeStaleDays 20 calmedPnls
        ⟨none, none, none, none⟩ ∧
      ¬ CondemnedForDeterioration plainNumpy championAgeStaleDays 20 losingPnls
        ⟨some 0.35, none, none, none⟩ := by
  constructor
  · intro h
    have hboth := h.shrinking (by decide +kernel) (by unfold condemned; decide +kernel)
    have hrare := hboth.2
    revert hrare
    unfold WinsTooRarely
    decide +kernel
  · intro h
    have hlosing : Losing losingPnls := by
      unfold Losing
      decide +kernel
    have hrare : WinsTooRarely losingPnls ⟨some 0.35, none, none, none⟩ := by
      unfold WinsTooRarely
      decide +kernel
    have hnot : ¬ condemned plainNumpy championAgeStaleDays 20 losingPnls
        ⟨some 0.35, none, none, none⟩ := by
      unfold condemned
      decide +kernel
    exact hnot (h.verdict.mpr ⟨by decide, by decide, .inl ⟨hlosing, hrare⟩⟩)

end TradingPlatform.Engine.DriftEvaluator
