import TradingPlatform.Lib.RateLimit
import TradingPlatform.Lib.Runs
import Mathlib.Algebra.Order.Ring.Rat

/-! # The write-ahead drain limiter

A bucket of tokens whose capacity switches with the backlog. A switch up fills
the bucket, whatever was taken from it just before; a backlog that swings about
the high-water mark gets a full burst at each swing. Times are rationals and the
arithmetic is exact. -/

namespace TradingPlatform.Persistence

open TradingPlatform.Lib.RateLimit TradingPlatform.Lib.Runs

def walBacklogHighWater : ℤ := 128

structure WalLeakyBucketDrainer where
  baseMaxBatches : ℤ
  burstMaxBatches : ℤ
  maxBatches : ℤ
  intervalSeconds : ℚ
  tokens : ℚ
  lastRefill : ℚ
  deriving DecidableEq

namespace WalLeakyBucketDrainer

/-- `WalLeakyBucketDrainer(...)`, with the clock read at `now`. -/
def new (maxBatchesPerInterval burstMaxBatchesPerInterval : ℤ) (intervalSeconds now : ℚ) :
    WalLeakyBucketDrainer :=
  let base := max maxBatchesPerInterval 1
  { baseMaxBatches := base
    burstMaxBatches := max burstMaxBatchesPerInterval base
    maxBatches := base
    intervalSeconds := max intervalSeconds 1
    tokens := base
    lastRefill := now }

/-- The capacity a backlog asks for. -/
def target (d : WalLeakyBucketDrainer) (depth : ℤ) : ℤ :=
  if walBacklogHighWater ≤ depth then d.burstMaxBatches else d.baseMaxBatches

def updateBacklogDepth (d : WalLeakyBucketDrainer) (depth : ℤ) : WalLeakyBucketDrainer :=
  let target := d.target depth
  if target = d.maxBatches then d
  else if d.maxBatches < target then { d with maxBatches := target, tokens := target }
  else { d with maxBatches := target, tokens := min d.tokens target }

def refillLocked (d : WalLeakyBucketDrainer) (now : ℚ) : WalLeakyBucketDrainer :=
  let elapsed := now - d.lastRefill
  if elapsed ≤ 0 then d
  else
    let refill := elapsed / d.intervalSeconds * d.maxBatches
    if refill ≤ 0 then d
    else { d with tokens := min (d.maxBatches : ℚ) (d.tokens + refill), lastRefill := now }

def acquire (d : WalLeakyBucketDrainer) (force : Bool) (now : ℚ) : Bool × WalLeakyBucketDrainer :=
  if force then (true, d)
  else
    let d := d.refillLocked now
    if 1 ≤ d.tokens then (true, { d with tokens := d.tokens - 1 }) else (false, d)

/-- The tokens there would be after a refill at `t`. -/
def credit (d : WalLeakyBucketDrainer) (t : ℚ) : ℚ :=
  min (d.maxBatches : ℚ) (d.tokens + (t - d.lastRefill) / d.intervalSeconds * d.maxBatches)

/-- Batches a second at the larger capacity. -/
def burstRate (d : WalLeakyBucketDrainer) : ℚ := d.burstMaxBatches / d.intervalSeconds

/-- The tokens lie between zero and the capacity, which is one of the two. -/
structure InRange (d : WalLeakyBucketDrainer) : Prop where
  interval : 1 ≤ d.intervalSeconds
  base : 1 ≤ d.baseMaxBatches
  burst : d.baseMaxBatches ≤ d.burstMaxBatches
  capacity : d.maxBatches = d.baseMaxBatches ∨ d.maxBatches = d.burstMaxBatches
  nonneg : 0 ≤ d.tokens
  within : d.tokens ≤ d.maxBatches

theorem inRange_new (maxBatches burst : ℤ) (interval now : ℚ) :
    (new maxBatches burst interval now).InRange where
  interval := le_max_right _ _
  base := le_max_right _ _
  burst := le_max_right _ _
  capacity := .inl rfl
  nonneg := by
    have hpos : (0 : ℤ) ≤ max maxBatches 1 := zero_le_one.trans (le_max_right maxBatches 1)
    show (0 : ℚ) ≤ (max maxBatches 1 : ℤ)
    exact_mod_cast hpos
  within := le_rfl

variable {d : WalLeakyBucketDrainer}

theorem InRange.max_pos (h : d.InRange) : 0 < d.maxBatches := by
  obtain ⟨-, hbase, hburst, hcapacity, -, -⟩ := h
  omega

theorem InRange.max_le_burst (h : d.InRange) : d.maxBatches ≤ d.burstMaxBatches := by
  obtain ⟨-, -, hburst, hcapacity, -, -⟩ := h
  omega

theorem InRange.burstRate_nonneg (h : d.InRange) : 0 ≤ d.burstRate := by
  have hburst : (0 : ℚ) ≤ d.burstMaxBatches := by
    exact_mod_cast h.max_pos.le.trans h.max_le_burst
  exact div_nonneg hburst (zero_le_one.trans h.interval)

/-- Over a time, the current capacity refills at most what the larger one does. -/
theorem InRange.refill_le (h : d.InRange) {elapsed : ℚ} (helapsed : 0 ≤ elapsed) :
    0 ≤ elapsed / d.intervalSeconds * d.maxBatches ∧
      elapsed / d.intervalSeconds * d.maxBatches ≤ d.burstRate * elapsed := by
  have hper : 0 ≤ elapsed / d.intervalSeconds :=
    div_nonneg helapsed (zero_le_one.trans h.interval)
  have hmax : (0 : ℚ) ≤ d.maxBatches := by exact_mod_cast h.max_pos.le
  have hle : (d.maxBatches : ℚ) ≤ d.burstMaxBatches := by exact_mod_cast h.max_le_burst
  refine ⟨mul_nonneg hper hmax, (mul_le_mul_of_nonneg_left hle hper).trans_eq ?_⟩
  rw [burstRate]
  ring

/-- A refill brings the tokens to the credit, and the clock to now. -/
theorem refillLocked_eq (h : d.InRange) {now : ℚ} (hnow : d.lastRefill ≤ now) :
    d.refillLocked now = { d with tokens := d.credit now, lastRefill := now } := by
  have hmax : (0 : ℚ) < d.maxBatches := by exact_mod_cast h.max_pos
  unfold refillLocked credit
  dsimp only
  split
  · rename_i helapsed
    have hsame : now = d.lastRefill := le_antisymm (by linarith) hnow
    rw [hsame, sub_self, zero_div, zero_mul, add_zero, min_eq_right h.within]
  · rename_i helapsed
    have hpos : 0 < (now - d.lastRefill) / d.intervalSeconds * d.maxBatches :=
      mul_pos (div_pos (not_le.mp helapsed) (zero_lt_one.trans_le h.interval)) hmax
    rw [if_neg (not_le.mpr hpos)]

theorem InRange.credit (h : d.InRange) {now : ℚ} (hnow : d.lastRefill ≤ now) :
    d.tokens ≤ d.credit now ∧ d.credit now ≤ d.maxBatches := by
  refine ⟨le_min h.within ?_, min_le_left _ _⟩
  exact le_add_of_nonneg_right (h.refill_le (sub_nonneg.mpr hnow)).1

/-- Whether a backlog raises the capacity. -/
def Raises (d : WalLeakyBucketDrainer) (depth : ℤ) : Prop := d.maxBatches < d.target depth

instance (d : WalLeakyBucketDrainer) (depth : ℤ) : Decidable (d.Raises depth) :=
  inferInstanceAs (Decidable (_ < _))

theorem updateBacklogDepth_of_raises {depth : ℤ} (hraises : d.Raises depth) :
    d.updateBacklogDepth depth =
      { d with maxBatches := d.target depth, tokens := d.target depth } := by
  unfold updateBacklogDepth
  dsimp only
  rw [if_neg (ne_of_gt hraises), if_pos (show d.maxBatches < d.target depth from hraises)]

/-- Without a raise, the capacity and the tokens only come down. -/
theorem updateBacklogDepth_of_not_raises (h : d.InRange) {depth : ℤ} (hraises : ¬ d.Raises depth) :
    d.updateBacklogDepth depth =
      { d with maxBatches := d.target depth, tokens := min d.tokens (d.target depth) } := by
  unfold updateBacklogDepth
  dsimp only
  split
  · rename_i hsame
    rw [hsame, min_eq_left h.within]
  · rw [if_neg (show ¬ d.maxBatches < d.target depth from hraises)]

/-- Only the larger capacity is above the current one. -/
theorem InRange.target_of_raises (h : d.InRange) {depth : ℤ} (hraises : d.Raises depth) :
    d.target depth = d.burstMaxBatches := by
  obtain ⟨-, -, hburst, hcapacity, -, -⟩ := h
  unfold Raises at hraises
  unfold target at hraises ⊢
  split
  · rfl
  · rename_i hdepth
    rw [if_neg hdepth] at hraises
    omega

theorem InRange.updateBacklogDepth (h : d.InRange) (depth : ℤ) :
    (d.updateBacklogDepth depth).InRange := by
  have htarget : d.target depth = d.baseMaxBatches ∨ d.target depth = d.burstMaxBatches := by
    unfold target
    split
    · exact .inr rfl
    · exact .inl rfl
  have hpos : (0 : ℚ) ≤ d.target depth := by
    have hbase := h.base
    have hburst := h.burst
    have hpos : 0 ≤ d.target depth := by omega
    exact_mod_cast hpos
  by_cases hraises : d.Raises depth
  · rw [updateBacklogDepth_of_raises hraises]
    exact ⟨h.interval, h.base, h.burst, htarget, hpos, le_rfl⟩
  · rw [updateBacklogDepth_of_not_raises h hraises]
    exact ⟨h.interval, h.base, h.burst, htarget, le_min h.nonneg hpos, min_le_right _ _⟩

theorem InRange.acquire (h : d.InRange) (force : Bool) {now : ℚ} (hnow : d.lastRefill ≤ now) :
    (d.acquire force now).2.InRange := by
  obtain ⟨hgrown, hwithin⟩ := h.credit hnow
  have hnonneg := h.nonneg.trans hgrown
  unfold WalLeakyBucketDrainer.acquire
  split
  · exact h
  rw [refillLocked_eq h hnow]
  dsimp only
  split
  · rename_i htoken
    exact ⟨h.interval, h.base, h.burst, h.capacity, sub_nonneg.mpr htoken,
      (sub_le_self _ zero_le_one).trans hwithin⟩
  · exact ⟨h.interval, h.base, h.burst, h.capacity, hnonneg, hwithin⟩

end WalLeakyBucketDrainer

open WalLeakyBucketDrainer

/-! ## Runs -/

inductive DrainCall
  | updateBacklogDepth (depth : ℤ)
  | acquire
  deriving DecidableEq

/-- A call and the reading of the clock it is made at. -/
structure TimedCall where
  time : ℚ
  call : DrainCall
  deriving DecidableEq

/-- The drainer, the times of the batches it let through, the latest first, and the
time of the last call. -/
structure Watched where
  drainer : WalLeakyBucketDrainer
  granted : List ℚ
  now : ℚ
  deriving DecidableEq

def Watched.acquire (w : Watched) (now : ℚ) : Watched :=
  let (ok, drainer) := w.drainer.acquire false now
  { drainer, granted := if ok then now :: w.granted else w.granted, now }

def drainStep (w : Watched) (c : TimedCall) : Watched :=
  match c.call with
  | .updateBacklogDepth depth =>
    { w with drainer := w.drainer.updateBacklogDepth depth, now := c.time }
  | .acquire => w.acquire c.time

/-- A fresh drainer, nothing let through. -/
def freshDrain (maxBatches burst : ℤ) (interval now : ℚ) : Watched :=
  { drainer := .new maxBatches burst interval now, granted := [], now }

/-- In any span of length `L` at most `burst_max_batches * (1 + L / interval_seconds)`
batches were let through. -/
def RateLimited (w : Watched) : Prop :=
  ∀ s L, 0 ≤ L →
    (countIn s L w.granted : ℚ) ≤
      w.drainer.burstMaxBatches * (1 + L / w.drainer.intervalSeconds)

/-- As many acquires at once as one likes do not break the limit. -/
def Limits (w : Watched) : Prop := ∀ k : ℕ, RateLimited ((fun w => w.acquire w.now)^[k] w)

theorem Limits.rateLimited {w : Watched} (h : Limits w) : RateLimited w := h 0

/-- A call that raises the capacity comes when all the batches let through before are
paid back at the larger rate. -/
def RaisesPaidBack (w : Watched) (c : TimedCall) : Prop :=
  ∀ depth, c.call = .updateBacklogDepth depth → w.drainer.Raises depth →
    PaidBack w.drainer.burstRate w.granted c.time

instance (w : Watched) (c : TimedCall) : Decidable (RaisesPaidBack w c) :=
  match hc : c.call with
  | .updateBacklogDepth depth =>
    decidable_of_iff
      (w.drainer.Raises depth → PaidBack w.drainer.burstRate w.granted c.time)
      ⟨fun h depth' hdepth hraises => by
        obtain rfl : depth = depth' := by rw [hc] at hdepth; injection hdepth
        exact h hraises, fun h => h depth hc⟩
  | .acquire => isTrue fun depth hdepth => by rw [hc] at hdepth; cases hdepth

theorem rateLimited_iff {w : Watched} :
    RateLimited w ↔ Conforms (w.drainer.burstMaxBatches : ℚ) w.drainer.burstRate w.granted := by
  have hbound : ∀ L : ℚ, (w.drainer.burstMaxBatches : ℚ) * (1 + L / w.drainer.intervalSeconds) =
      w.drainer.burstMaxBatches + w.drainer.burstRate * L := by
    intro L
    rw [burstRate]
    ring
  simp only [RateLimited, Conforms, hbound]

/-- Nothing is in the future, and at no time from now on has the bucket more to give
than the limit leaves. -/
structure Paced (w : Watched) : Prop where
  inRange : w.drainer.InRange
  refilled : w.drainer.lastRefill ≤ w.now
  past : ∀ t ∈ w.granted, t ≤ w.now
  affords : ∀ t, w.now ≤ t → Affords (w.drainer.burstMaxBatches : ℚ) w.drainer.burstRate
    w.granted t (w.drainer.credit t)
  conforms : Conforms (w.drainer.burstMaxBatches : ℚ) w.drainer.burstRate w.granted

/-- A bucket refilled at `now` that gives no more than the limit leaves goes on so. -/
theorem affords_credit {d : WalLeakyBucketDrainer} (h : d.InRange) {granted : List ℚ}
    (hpast : ∀ t ∈ granted, t ≤ d.lastRefill)
    (haffords : Affords (d.burstMaxBatches : ℚ) d.burstRate granted d.lastRefill d.tokens) {t : ℚ}
    (ht : d.lastRefill ≤ t) :
    Affords (d.burstMaxBatches : ℚ) d.burstRate granted t (d.credit t) := by
  refine haffords.wait h.burstRate_nonneg hpast ?_ ?_
  · exact (h.credit ht).2.trans (by exact_mod_cast h.max_le_burst)
  · exact (min_le_right _ _).trans
      (add_le_add_right (h.refill_le (sub_nonneg.mpr ht)).2 _)

theorem Paced.acquire {w : Watched} (h : Paced w) {now : ℚ} (hnow : w.now ≤ now) :
    Paced (w.acquire now) := by
  have hlast := h.refilled.trans hnow
  have hpast : ∀ t ∈ w.granted, t ≤ now := fun t ht => (h.past t ht).trans hnow
  have hinRange := h.inRange.acquire false hlast
  have haffords := h.affords now hnow
  have hnonneg := h.inRange.nonneg.trans (h.inRange.credit hlast).1
  have hrate := h.inRange.burstRate_nonneg
  unfold Watched.acquire WalLeakyBucketDrainer.acquire at *
  rw [if_neg Bool.false_ne_true, refillLocked_eq h.inRange hlast] at hinRange ⊢
  dsimp only at hinRange ⊢
  split
  · rename_i htoken
    rw [if_pos htoken] at hinRange
    have hcons : ∀ t ∈ now :: w.granted, t ≤ now := by simpa using hpast
    have hgrant : Affords (w.drainer.burstMaxBatches : ℚ) w.drainer.burstRate (now :: w.granted) now
        (w.drainer.credit now - 1) := haffords.grant
    exact ⟨hinRange, le_rfl, hcons, fun t ht => affords_credit hinRange hcons hgrant ht,
      hgrant.conforms (sub_nonneg.mpr htoken) hrate h.conforms⟩
  · rename_i htoken
    rw [if_neg htoken] at hinRange
    exact ⟨hinRange, le_rfl, hpast, fun t ht => affords_credit hinRange hpast haffords ht,
      h.conforms⟩

theorem Paced.later {w : Watched} (h : Paced w) {now : ℚ} (hnow : w.now ≤ now) :
    Paced { w with now } :=
  ⟨h.inRange, h.refilled.trans hnow, fun t ht => (h.past t ht).trans hnow,
    fun t ht => h.affords t (hnow.trans ht), h.conforms⟩

/-- An update that does not raise the capacity gives nothing away. -/
theorem Paced.updateBacklogDepth {w : Watched} (h : Paced w) {depth : ℤ}
    (hraises : ¬ w.drainer.Raises depth) :
    Paced { w with drainer := w.drainer.updateBacklogDepth depth } := by
  have hinRange := h.inRange.updateBacklogDepth depth
  rw [updateBacklogDepth_of_not_raises h.inRange hraises] at hinRange ⊢
  refine ⟨hinRange, h.refilled, h.past, fun t ht => ?_, h.conforms⟩
  -- both the tokens and the capacity are lower
  have hlower : (w.drainer.target depth : ℚ) ≤ w.drainer.maxBatches := by
    exact_mod_cast not_lt.mp hraises
  have hper : 0 ≤ (t - w.drainer.lastRefill) / w.drainer.intervalSeconds :=
    div_nonneg (sub_nonneg.mpr (h.refilled.trans ht)) (zero_le_one.trans h.inRange.interval)
  refine (h.affords t ht).mono (min_le_min hlower ?_)
  exact add_le_add (min_le_left _ _) (mul_le_mul_of_nonneg_left hlower hper)

/-- A full bucket is what the limit leaves once everything is paid back. -/
theorem Paced.raise {w : Watched} (h : Paced w) {depth : ℤ} (hraises : w.drainer.Raises depth)
    (hpaid : PaidBack w.drainer.burstRate w.granted w.now) :
    Paced { w with drainer := w.drainer.updateBacklogDepth depth } := by
  have hinRange := h.inRange.updateBacklogDepth depth
  have hrate := h.inRange.burstRate_nonneg
  have hfull : Affords (w.drainer.burstMaxBatches : ℚ) w.drainer.burstRate w.granted w.now
      w.drainer.burstMaxBatches := (affords_burst_iff hrate h.past).mpr hpaid
  rw [updateBacklogDepth_of_raises hraises, h.inRange.target_of_raises hraises] at hinRange ⊢
  refine ⟨hinRange, h.refilled, h.past, fun t ht => ?_, h.conforms⟩
  refine hfull.wait hrate h.past (min_le_left _ _) ((min_le_left _ _).trans ?_)
  exact le_add_of_nonneg_right (mul_nonneg hrate (sub_nonneg.mpr ht))

theorem paced_fresh (maxBatches burst : ℤ) (interval now : ℚ) :
    Paced (freshDrain maxBatches burst interval now) := by
  have hinRange := inRange_new maxBatches burst interval now
  have hrate := hinRange.burstRate_nonneg
  have hburst : ((new maxBatches burst interval now).maxBatches : ℚ) ≤
      (new maxBatches burst interval now).burstMaxBatches := by exact_mod_cast hinRange.max_le_burst
  have hzero : (0 : ℚ) ≤ (new maxBatches burst interval now).burstMaxBatches :=
    hinRange.nonneg.trans (hinRange.within.trans hburst)
  have hnone : ∀ bound : ℚ, ∀ t ∈ ([] : List ℚ), t ≤ bound := fun _ _ ht => nomatch ht
  refine ⟨hinRange, le_rfl, hnone _, fun t ht => ?_, fun s L hL => ?_⟩
  · refine affords_credit hinRange (hnone _) (fun s hs => ?_) ht
    show ((0 : ℕ) : ℚ) + _ ≤ _
    rw [Nat.cast_zero, zero_add]
    exact (hinRange.within.trans hburst).trans
      (le_add_of_nonneg_right (mul_nonneg hrate (sub_nonneg.mpr hs)))
  · show ((0 : ℕ) : ℚ) ≤ _
    rw [Nat.cast_zero]
    exact add_nonneg hzero (mul_nonneg hrate hL)

/-! ## Bursts -/

theorem Paced.iterate {w : Watched} (h : Paced w) (k : ℕ) :
    Paced ((fun w => w.acquire w.now)^[k] w) := by
  induction k generalizing w with
  | zero => exact h
  | succ k ih => exact ih (h.acquire le_rfl)

theorem Paced.limits {w : Watched} (h : Paced w) : Limits w :=
  fun k => rateLimited_iff.mpr (h.iterate k).conforms

/-- While the bucket has the tokens, every acquire is granted. -/
theorem granted_iterate (k : ℕ) :
    ∀ {w : Watched}, w.drainer.InRange → w.drainer.lastRefill ≤ w.now → (k : ℚ) ≤ w.drainer.tokens →
      ((fun w => w.acquire w.now)^[k] w).granted = List.replicate k w.now ++ w.granted ∧
        ((fun w => w.acquire w.now)^[k] w).drainer.burstMaxBatches = w.drainer.burstMaxBatches ∧
        ((fun w => w.acquire w.now)^[k] w).drainer.burstRate = w.drainer.burstRate := by
  induction k with
  | zero => exact fun _ _ _ => ⟨rfl, rfl, rfl⟩
  | succ k ih =>
    intro w hinRange hlast htokens
    rw [Nat.cast_succ] at htokens
    have hcredit := (hinRange.credit hlast).1
    have htoken : 1 ≤ w.drainer.credit w.now := by
      have hk : (0 : ℚ) ≤ k := k.cast_nonneg
      linarith
    have hstep : w.acquire w.now =
        { drainer := { w.drainer with tokens := w.drainer.credit w.now - 1, lastRefill := w.now }
          granted := w.now :: w.granted, now := w.now } := by
      unfold Watched.acquire WalLeakyBucketDrainer.acquire
      rw [if_neg Bool.false_ne_true, refillLocked_eq hinRange hlast]
      dsimp only
      rw [if_pos htoken]
      rfl
    have hnext : (w.acquire w.now).drainer.InRange := hinRange.acquire false hlast
    rw [Function.iterate_succ_apply]
    obtain ⟨hgranted, hburst, hrate⟩ := ih (w := w.acquire w.now) hnext
      (by rw [hstep]) (by rw [hstep]; dsimp only; linarith)
    rw [hgranted, hburst, hrate, hstep]
    refine ⟨?_, rfl, rfl⟩
    rw [List.replicate_succ', List.append_assoc]
    rfl

/-- A bucket filled before everything is paid back can be emptied past the limit. -/
theorem not_limits_of_unpaid {w : Watched} (h : Paced w) {depth : ℤ}
    (hraises : w.drainer.Raises depth)
    (hdebt : ¬ PaidBack w.drainer.burstRate w.granted w.now) :
    ¬ Limits { w with drainer := w.drainer.updateBacklogDepth depth } := by
  have hinRange := h.inRange.updateBacklogDepth depth
  rw [updateBacklogDepth_of_raises hraises, h.inRange.target_of_raises hraises] at hinRange ⊢
  intro hlimits
  have hpos : (0 : ℤ) ≤ w.drainer.burstMaxBatches :=
    h.inRange.max_pos.le.trans h.inRange.max_le_burst
  have hall : ((w.drainer.burstMaxBatches.toNat : ℕ) : ℚ) = w.drainer.burstMaxBatches := by
    exact_mod_cast Int.toNat_of_nonneg hpos
  have hburst := rateLimited_iff.mp (hlimits w.drainer.burstMaxBatches.toNat)
  obtain ⟨hgranted, hmax, hrate⟩ := granted_iterate w.drainer.burstMaxBatches.toNat
    (w := { w with drainer := { w.drainer with
      maxBatches := w.drainer.burstMaxBatches, tokens := w.drainer.burstMaxBatches } })
    hinRange h.refilled hall.le
  rw [hgranted, hmax, hrate] at hburst
  exact not_conforms_of_overdrawn h.past hdebt hall.ge hburst

/-- Along a run the limit holds after a call exactly when the call, if it raises the
capacity, comes when everything is paid back; and the bucket then stays paced. -/
theorem limits_step_iff {w : Watched} (h : Paced w) (c : TimedCall) (htime : w.now ≤ c.time) :
    (RaisesPaidBack w c → Paced (drainStep w c)) ∧
      (Limits (drainStep w c) → RaisesPaidBack w c) := by
  obtain ⟨time, call⟩ := c
  have hlater : Paced { w with now := time } := h.later htime
  cases call with
  | acquire => exact ⟨fun _ => h.acquire htime, fun _ => nofun⟩
  | updateBacklogDepth depth =>
    constructor
    · intro hpaid
      by_cases hraises : w.drainer.Raises depth
      · exact hlater.raise hraises (hpaid depth rfl hraises)
      · exact hlater.updateBacklogDepth hraises
    · rintro hlimits depth' ⟨⟩ hraises
      by_contra hdebt
      exact not_limits_of_unpaid hlater hraises hdebt hlimits

/-- Calls at times that do not fall happen in time. -/
theorem inTime_calls {calls : List TimedCall} {w : Watched}
    (h : (w.now :: calls.map TimedCall.time).Pairwise (· ≤ ·)) :
    Along drainStep (fun w c => w.now ≤ c.time) w calls := by
  induction calls generalizing w with
  | nil => trivial
  | cons c rest ih =>
    obtain ⟨hfirst, hrest⟩ := List.pairwise_cons.mp h
    refine ⟨hfirst c.time List.mem_cons_self, ih ?_⟩
    have hnow : (drainStep w c).now = c.time := by
      obtain ⟨time, call⟩ := c
      cases call <;> rfl
    rw [hnow]
    exact hrest

theorem inRange_step {w : Watched} (h : w.drainer.InRange ∧ w.drainer.lastRefill ≤ w.now)
    (c : TimedCall) (htime : w.now ≤ c.time) :
    (drainStep w c).drainer.InRange ∧ (drainStep w c).drainer.lastRefill ≤ (drainStep w c).now := by
  obtain ⟨time, call⟩ := c
  have hlast := h.2.trans htime
  cases call with
  | acquire =>
    refine ⟨h.1.acquire false hlast, ?_⟩
    show (w.drainer.acquire false time).2.lastRefill ≤ time
    unfold WalLeakyBucketDrainer.acquire
    rw [if_neg Bool.false_ne_true, refillLocked_eq h.1 hlast]
    dsimp only
    split
    · exact le_rfl
    · exact le_rfl
  | updateBacklogDepth depth =>
    refine ⟨h.1.updateBacklogDepth depth, ?_⟩
    show (w.drainer.updateBacklogDepth depth).lastRefill ≤ time
    by_cases hraises : w.drainer.Raises depth
    · rw [updateBacklogDepth_of_raises hraises]
      exact hlast
    · rw [updateBacklogDepth_of_not_raises h.1 hraises]
      exact hlast

/-- **The drain limit.** The tokens always lie between zero and the capacity. Where each
call that raises the capacity comes when everything let through is paid back, the batches
stay within the limit; and only there do they, whatever burst is tried after a call. -/
theorem drain_limited_iff (maxBatches burst : ℤ) (interval now : ℚ) (calls : List TimedCall)
    (htime : (now :: calls.map TimedCall.time).Pairwise (· ≤ ·)) :
    let w := freshDrain maxBatches burst interval now
    Along drainStep (fun w c => 0 ≤ (drainStep w c).drainer.tokens ∧
      (drainStep w c).drainer.tokens ≤ (drainStep w c).drainer.maxBatches) w calls ∧
    (Along drainStep RaisesPaidBack w calls →
      Along drainStep (fun w c => RateLimited (drainStep w c)) w calls) ∧
    (Along drainStep (fun w c => Limits (drainStep w c)) w calls ↔
      Along drainStep RaisesPaidBack w calls) := by
  intro w
  have hinTime : Along drainStep (fun w c => w.now ≤ c.time) w calls := inTime_calls htime
  have hfresh : Paced w := paced_fresh maxBatches burst interval now
  have hiff : Along drainStep (fun w c => Limits (drainStep w c)) w calls ↔
      Along drainStep RaisesPaidBack w calls := by
    refine along_congr_while_of (I := Paced) (fun w c hw hc hlimits => ?_) (fun w c hw hc => ?_)
      calls hfresh hinTime
    · have hstep := limits_step_iff hw c hc
      exact hstep.1 (hstep.2 hlimits)
    · have hstep := limits_step_iff hw c hc
      exact ⟨hstep.2, fun hpaid => (hstep.1 hpaid).limits⟩
  refine ⟨?_, fun hpaid => along_mono (fun w c h => h.rateLimited) (hiff.mpr hpaid), hiff⟩
  refine (along_congr_of (P := fun _ _ => True)
    (I := fun w => w.drainer.InRange ∧ w.drainer.lastRefill ≤ w.now)
    (fun w c hw hc => inRange_step hw c hc) (fun w c hw hc => ?_) calls
    ⟨hfresh.inRange, hfresh.refilled⟩ hinTime).mp (along_true _ _)
  have hnext := (inRange_step hw c hc).1
  exact iff_of_true trivial ⟨hnext.nonneg, hnext.within⟩

/-- Two batches at the small capacity, then a backlog and a burst. -/
def burstOnBacklog : List TimedCall :=
  ⟨0, .acquire⟩ :: ⟨0, .acquire⟩ :: ⟨0, .updateBacklogDepth 128⟩ ::
    List.replicate 8 ⟨0, .acquire⟩

/-- Ten batches at one time, where eight are allowed. -/
theorem backlog_refills_bucket :
    ¬ RateLimited (run drainStep (freshDrain 2 8 900 0) burstOnBacklog) := by
  intro h
  exact absurd (h 0 0 le_rfl) (by decide +kernel)

theorem drain_limited_burst :
    Along drainStep (fun w c => Limits (drainStep w c)) (freshDrain 2 8 900 0)
      [⟨0, .acquire⟩, ⟨900, .updateBacklogDepth 128⟩, ⟨900, .acquire⟩] :=
  (drain_limited_iff 2 8 900 0
    [⟨0, .acquire⟩, ⟨900, .updateBacklogDepth 128⟩, ⟨900, .acquire⟩] (by decide +kernel)).2.2.mpr
    (by decide +kernel)

end TradingPlatform.Persistence
