import TradingPlatform.Ingestor.DualBuffer
import TradingPlatform.Lib.Runs
import Mathlib.Tactic.Linarith
import Mathlib.Tactic.Ring

/-! # The schedule of shadow refreshes

A close is refreshed when a call made at or after it records it. The loop
computes the close it waits for by rounding up, and forced calls record what
they round to, so a close may be recorded before it comes. -/

namespace TradingPlatform.Ingestor.DualBuffer

open TradingPlatform.Lib.Runs

/-! ## The close an instant is rounded to -/

section Rounding
variable {p : Nat}

/-- The latest multiple of the period at or before an instant. -/
def boundary (period now : ℤ) : ℤ := period * (now / period)

/-- Within its first minute a period names its own start, afterwards its end. -/
theorem mostRecentBarClose_eq (hp : 0 < p) (hday : p ∣ 1440) (now : ℤ) :
    mostRecentBarClose now p =
      if now - boundary (p * minute) now < minute then boundary (p * minute) now
      else boundary (p * minute) now + p * minute := by
  have hpos : (0 : ℤ) < p := by exact_mod_cast hp
  have hdvd : (p : ℤ) ∣ dayMinutes := by
    show (p : ℤ) ∣ ((1440 : Nat) : ℤ)
    exact_mod_cast hday
  have hmin : minute = 60000000 := rfl
  -- whole minutes, and what is left of the last one
  have hq : now / minute / p = now / (p * minute) := by
    rw [Int.ediv_ediv_of_nonneg minute_pos.le, mul_comm]
  have hsplit := Int.mul_ediv_add_emod now minute
  have hlt := Int.emod_lt_of_pos now minute_pos
  have hnn := Int.emod_nonneg now minute_pos.ne'
  have hmul := Int.mul_ediv_add_emod (now / minute) p
  have hmod := Int.emod_nonneg (now / minute) hpos.ne'
  have hrest : now / minute % dayMinutes % p = now / minute % p := Int.emod_emod_of_dvd _ hdvd
  have hT := Int.mul_ediv_add_emod (now / minute % dayMinutes) p
  rw [hrest] at hT
  have hbound : boundary (p * minute) now = (p * (now / minute / p)) * minute := by
    rw [boundary, ← hq]
    ring
  have hwhole : ∀ m c : ℤ, m + c % dayMinutes + c / dayMinutes * dayMinutes = m + c := by
    intro m c
    have : dayMinutes = 1440 := rfl
    rw [this]
    omega
  unfold mostRecentBarClose
  dsimp only
  rw [hrest, hbound, hwhole]
  generalize now / minute = m at *
  generalize m % dayMinutes = midnight at *
  generalize (p : ℤ) * (m / p) = start at *
  by_cases h0 : m % p = 0
  · rw [if_pos h0, if_pos (by rw [hmin] at *; omega), sub_add_cancel]
    rw [h0, add_zero] at hmul
    rw [hmul]
  · rw [if_neg h0, if_neg (by rw [hmin] at *; omega)]
    have hend : m - midnight + (midnight / p + 1) * p = start + p := by linarith
    rw [hend]
    ring

theorem add_le_of_lt_of_dvd {period k k' : ℤ} (hk : period ∣ k) (hk' : period ∣ k') (h : k < k') :
    k + period ≤ k' := by
  have := Int.le_of_dvd (by omega) (dvd_sub hk' hk)
  omega

theorem boundary_spec {period : ℤ} (h : 0 < period) (now : ℤ) :
    period ∣ boundary period now ∧ boundary period now ≤ now ∧
      now < boundary period now + period := by
  have hsplit := Int.mul_ediv_add_emod now period
  have hlt := Int.emod_lt_of_pos now h
  have hnn := Int.emod_nonneg now h.ne'
  refine ⟨dvd_mul_right .., ?_, ?_⟩ <;> unfold boundary <;> omega

theorem boundary_eq {period k now : ℤ} (h : 0 < period) (hk : period ∣ k) (hle : k ≤ now)
    (hlt : now < k + period) : boundary period now = k := by
  obtain ⟨hb, hble, hblt⟩ := boundary_spec h now
  rcases lt_trichotomy (boundary period now) k with hlt' | heq | hgt
  · have := add_le_of_lt_of_dvd hb hk hlt'
    omega
  · exact heq
  · have := add_le_of_lt_of_dvd hk hb hgt
    omega

theorem minute_le_period (hp : 0 < p) : minute ≤ p * minute := by
  have hpos : (1 : ℤ) ≤ p := by exact_mod_cast hp
  exact le_mul_of_one_le_left minute_pos.le hpos

variable (hp : 0 < p) (hday : p ∣ 1440) {k now x : ℤ}
include hp hday

theorem close_of_first_minute (hk : (p * minute : ℤ) ∣ k) (hle : k ≤ now) (hlt : now < k + minute) :
    mostRecentBarClose now p = k := by
  have hmin := minute_le_period hp
  have hpos := minute_pos
  rw [mostRecentBarClose_eq hp hday, boundary_eq (by omega) hk hle (by omega), if_pos (by omega)]

theorem close_of_later (hk : (p * minute : ℤ) ∣ k) (hle : k + minute ≤ now)
    (hlt : now < k + p * minute) : mostRecentBarClose now p = k + p * minute := by
  have hmin := minute_le_period hp
  have hpos := minute_pos
  rw [mostRecentBarClose_eq hp hday, boundary_eq (by omega) hk (by omega) hlt, if_neg (by omega)]

/-- Every instant lies in the first minute of a period or in the rest of it. -/
theorem close_cases (now : ℤ) :
    ∃ k, (p * minute : ℤ) ∣ k ∧ k ≤ now ∧ now < k + p * minute ∧
      (now < k + minute ∧ mostRecentBarClose now p = k ∨
        k + minute ≤ now ∧ mostRecentBarClose now p = k + p * minute) := by
  have hmin := minute_le_period hp
  have hpos := minute_pos
  obtain ⟨hk, hle, hlt⟩ := boundary_spec (by omega : (0 : ℤ) < p * minute) now
  refine ⟨boundary (p * minute) now, hk, hle, hlt, ?_⟩
  rcases lt_or_ge now (boundary (p * minute) now + minute) with h | h
  · exact .inl ⟨h, close_of_first_minute hp hday hk hle h⟩
  · exact .inr ⟨h, close_of_later hp hday hk h hlt⟩

/-- An instant at or after a boundary is rounded to it within the first minute only. -/
theorem close_eq_iff (hk : (p * minute : ℤ) ∣ k) :
    mostRecentBarClose x p = k ∧ k ≤ x ↔ k ≤ x ∧ x < k + minute := by
  constructor
  · intro h
    obtain ⟨hclose, hle⟩ := h
    obtain ⟨l, hl, hlx, hxl, hx⟩ := close_cases hp hday x
    omega
  · intro h
    exact ⟨close_of_first_minute hp hday hk h.1 h.2, h.1⟩

/-- An instant before a boundary is rounded up to it once the first minute of the period is over. -/
theorem le_close_iff (hk : (p * minute : ℤ) ∣ k) (hlt : x < k) :
    k ≤ mostRecentBarClose x p ↔ k - p * minute + minute ≤ x := by
  obtain ⟨l, hl, hlx, hxl, hx⟩ := close_cases hp hday x
  have hmin := minute_le_period hp
  have hpos := minute_pos
  have hnext := add_le_of_lt_of_dvd hl hk (by omega)
  rcases eq_or_lt_of_le hnext with heq | hlt'
  · omega
  · have := add_le_of_lt_of_dvd (dvd_add hl (dvd_refl _)) hk hlt'
    omega

end Rounding

/-! ## What a run refreshes -/

structure RefreshRecord where
  caller : Caller
  now : ℤ
  close : ℤ
  deriving DecidableEq

def recordOf (s : MatrixState) : Event → List RefreshRecord
  | .ingestStreamBar _ => []
  | .refresh call =>
    (step s (.refresh call)).1.refreshed.toList.map fun close => ⟨call.caller, call.now, close⟩

/-- The refreshes of a run, in order. -/
def refreshLog : MatrixState → List Event → List RefreshRecord
  | _, [] => []
  | s, e :: es => recordOf s e ++ refreshLog (next s e) es

theorem refreshLog_append (s : MatrixState) (es fs : List Event) :
    refreshLog s (es ++ fs) = refreshLog s es ++ refreshLog (run next s es) fs := by
  induction es generalizing s with
  | nil => rfl
  | cons e es ih => rw [List.cons_append, refreshLog, ih, refreshLog, List.append_assoc, run_cons]

/-- The clock readings of the refresh calls. -/
def readings (es : List Event) : List ℤ :=
  es.filterMap fun
    | .ingestStreamBar _ => none
    | .refresh call => some call.now

/-- A refresh of a close is one made at or after it that records it. -/
def RefreshRecord.Of (r : RefreshRecord) (k : ℤ) : Prop := r.close = k ∧ k ≤ r.now

def Refreshed (log : List RefreshRecord) (k : ℤ) : Prop := ∃ r ∈ log, r.Of k

theorem run_barMinutes (s : MatrixState) (es : List Event) :
    (run next s es).barMinutes = s.barMinutes := by
  induction es generalizing s with
  | nil => rfl
  | cons e es ih => rw [run_cons, ih, next_barMinutes]

theorem mem_recordOf {s : MatrixState} {e : Event} {r : RefreshRecord} :
    r ∈ recordOf s e ↔ ∃ call, e = .refresh call ∧ r.caller = call.caller ∧ r.now = call.now ∧
      s.refreshClose call = some r.close ∧ s.lockedBars r.close call.rest ≠ [] := by
  cases e with
  | ingestStreamBar bar => simp [recordOf]
  | refresh call =>
    simp only [recordOf, List.mem_map, Option.mem_toList]
    constructor
    · intro h
      obtain ⟨close, hclose, rfl⟩ := h
      exact ⟨call, rfl, rfl, rfl, refreshed_eq_some.1 hclose⟩
    · intro h
      obtain ⟨c, hc, hcaller, hnow, hclose⟩ := h
      obtain rfl : call = c := by injection hc
      exact ⟨r.close, refreshed_eq_some.2 hclose, by rw [← hcaller, ← hnow]⟩

/-- The remembered close is the last one recorded. -/
theorem last_eq (s : MatrixState) (hs : s.lastShadowRefreshBarClose = none) (es : List Event) :
    (run next s es).lastShadowRefreshBarClose =
      (refreshLog s es).getLast?.map RefreshRecord.close := by
  induction es using List.reverseRecOn with
  | nil => exact hs
  | append_singleton es e ih =>
    rw [run_append, refreshLog_append, run_cons, run_nil, next_lastShadowRefreshBarClose, ih]
    have hlog : refreshLog (run next s es) [e] = recordOf (run next s es) e := by
      rw [refreshLog, refreshLog, List.append_nil]
    rw [hlog]
    cases e with
    | ingestStreamBar bar => simp [recordOf, step, RefreshLog.empty]
    | refresh call =>
      rw [recordOf]
      cases (step (run next s es) (.refresh call)).1.refreshed with
      | none => simp
      | some close => simp

theorem refreshClose_eq (s : MatrixState) {call : Call} {close : ℤ}
    (h : s.refreshClose call = some close) : close = mostRecentBarClose call.now s.barMinutes := by
  unfold MatrixState.refreshClose at h
  split at h
  · dsimp only at h
    split at h
    · rw [shadowRefreshDue_close] at h
      exact (Option.some.inj h).symm
    · cases h
  · exact (Option.some.inj h).symm

/-- A scheduled call goes ahead when it is due. -/
theorem refreshClose_scheduled {s : MatrixState} {call : Call} (hc : call.caller = .scheduled)
    {close : ℤ} : s.refreshClose call = some close ↔
      (shadowRefreshDue call.now s.barMinutes s.lastShadowRefreshBarClose).1 = true ∧
        mostRecentBarClose call.now s.barMinutes = close := by
  unfold MatrixState.refreshClose
  rw [hc]
  dsimp only
  rw [shadowRefreshDue_close]
  split
  · rename_i hdue
    simp [hdue]
  · rename_i hdue
    simp [hdue]

theorem record_close {s : MatrixState} {es : List Event} {r : RefreshRecord}
    (hr : r ∈ refreshLog s es) : r.close = mostRecentBarClose r.now s.barMinutes := by
  induction es generalizing s with
  | nil => simp [refreshLog] at hr
  | cons e es ih =>
    rcases List.mem_append.1 hr with hr | hr
    · obtain ⟨call, -, -, hnow, hclose, -⟩ := mem_recordOf.1 hr
      rw [hnow]
      exact refreshClose_eq s hclose
    · have := ih hr
      rwa [next_barMinutes] at this

theorem log_sublist_readings (s : MatrixState) (es : List Event) :
    ((refreshLog s es).map RefreshRecord.now).Sublist (readings es) := by
  induction es generalizing s with
  | nil => simp [refreshLog, readings]
  | cons e es ih =>
    rw [refreshLog, List.map_append]
    cases e with
    | ingestStreamBar bar => exact ih _
    | refresh call =>
      have hreadings : readings (.refresh call :: es) = [call.now] ++ readings es := rfl
      rw [hreadings]
      refine List.Sublist.append ?_ (ih _)
      rw [recordOf]
      cases (step s (.refresh call)).1.refreshed <;> simp

/-- A record comes from a call of the run, and what was recorded before it from before. -/
theorem exists_call_of_log {s : MatrixState} {es : List Event} {before after : List RefreshRecord}
    {r : RefreshRecord} (h : refreshLog s es = before ++ r :: after) :
    ∃ pre call post, es = pre ++ .refresh call :: post ∧ refreshLog s pre = before ∧
      r ∈ recordOf (run next s pre) (.refresh call) := by
  induction es generalizing s before with
  | nil => simp [refreshLog] at h
  | cons e es ih =>
    rw [refreshLog] at h
    rcases hrec : recordOf s e with _ | ⟨r', tail⟩
    · rw [hrec, List.nil_append] at h
      obtain ⟨pre, call, post, hes, hpre, hr⟩ := ih h
      refine ⟨e :: pre, call, post, by rw [hes]; rfl, ?_, hr⟩
      rw [refreshLog, hrec, List.nil_append, hpre]
    · -- one call leaves one record
      obtain rfl : tail = [] := by
        cases e with
        | ingestStreamBar bar => simp [recordOf] at hrec
        | refresh call =>
          rw [recordOf] at hrec
          cases hs : (step s (.refresh call)).1.refreshed <;> simp_all
      rw [hrec, List.singleton_append] at h
      cases before with
      | nil =>
        rw [List.nil_append, List.cons.injEq] at h
        obtain ⟨rfl, -⟩ := h
        have hmem : r' ∈ recordOf s e := by
          rw [hrec]
          exact List.mem_cons_self
        obtain ⟨call, rfl, -⟩ := mem_recordOf.1 hmem
        exact ⟨[], call, es, rfl, rfl, hmem⟩
      | cons b before =>
        rw [List.cons_append, List.cons.injEq] at h
        obtain ⟨rfl, htail⟩ := h
        obtain ⟨pre, call, post, hes, hpre, hr⟩ := ih htail
        refine ⟨e :: pre, call, post, by rw [hes]; rfl, ?_, hr⟩
        rw [refreshLog, hrec, hpre, List.singleton_append]

/-! ## Polls -/

/-- A poll is due exactly while the close it should look at has not been refreshed, and names
no close to come. -/
def PollSound (s : MatrixState) (es : List Event) (now : ℤ) : Prop :=
  let due := shadowRefreshDue now s.barMinutes (run next s es).lastShadowRefreshBarClose
  (due.1 = true ↔
    ¬ Refreshed (refreshLog s es) (boundary s.period (now - shadowPostCloseDelay))) ∧ due.2 ≤ now

/-- The last refresh so far, if any, was not made between one minute into the period before
`k` and `k` itself. -/
def NotAhead (s : MatrixState) (es : List Event) (k : ℤ) : Prop :=
  ∀ r ∈ (refreshLog s es).getLast?, ¬ (k - s.period + minute ≤ r.now ∧ r.now < k)

/-- A poll comes in the first minute of a period: after the delay with no refresh made ahead of
the boundary, before it with one made in the first minute of the previous period. -/
def PollPunctual (s : MatrixState) (es : List Event) (now : ℤ) : Prop :=
  let k := boundary s.period now
  now < k + minute ∧
    (k + shadowPostCloseDelay ≤ now → NotAhead s es k) ∧
    (now < k + shadowPostCloseDelay →
      ∃ r ∈ refreshLog s es, k - s.period ≤ r.now ∧ r.now < k - s.period + minute)

/-- No refresh so far was made after the last one. -/
theorem le_last_reading {log : List RefreshRecord}
    (hlog : (log.map RefreshRecord.now).Pairwise (· ≤ ·)) {last r : RefreshRecord}
    (hlast : last ∈ log.getLast?) (hr : r ∈ log) : r.now ≤ last.now := by
  obtain ⟨init, rfl⟩ := List.getLast?_eq_some_iff.1 hlast
  rw [List.map_append, List.map_singleton, List.pairwise_append] at hlog
  rcases List.mem_append.1 hr with hr | hr
  · exact hlog.2.2 _ (List.mem_map_of_mem hr) _ List.mem_cons_self
  · rw [List.mem_singleton.1 hr]

section Poll
variable {s : MatrixState} (hp : 0 < s.barMinutes) (hday : s.barMinutes ∣ 1440)
  (hs : s.lastShadowRefreshBarClose = none) {es : List Event} {now k : ℤ}
include hp hday

theorem refreshed_iff (hk : s.period ∣ k) :
    Refreshed (refreshLog s es) k ↔ ∃ r ∈ refreshLog s es, k ≤ r.now ∧ r.now < k + minute := by
  refine exists_congr fun r => and_congr_right fun hr => ?_
  rw [RefreshRecord.Of, record_close hr]
  exact close_eq_iff hp hday hk

/-- A refresh since the boundary is later than any ahead of it. -/
theorem notAhead_of_refreshed (hk : s.period ∣ k)
    (hlog : ((refreshLog s es).map RefreshRecord.now).Pairwise (· ≤ ·))
    (href : Refreshed (refreshLog s es) k) : NotAhead s es k := by
  intro last hlast hahead
  obtain ⟨r, hr, hkr, -⟩ := (refreshed_iff hp hday hk).1 href
  have := le_last_reading hlog hlast hr
  omega

include hs

/-- In the first minute after `k` the memory holds `k` exactly when `k` has been refreshed or a
refresh was made ahead of it. -/
theorem last_lt_iff (hk : s.period ∣ k) (hlt : now < k + minute)
    (hlog : ((refreshLog s es).map RefreshRecord.now).Pairwise (· ≤ ·))
    (hnow : ∀ r ∈ refreshLog s es, r.now ≤ now) :
    (∀ c ∈ (run next s es).lastShadowRefreshBarClose, c < k) ↔
      ¬ Refreshed (refreshLog s es) k ∧ NotAhead s es k := by
  rw [last_eq s hs, refreshed_iff hp hday hk, NotAhead]
  cases hget : (refreshLog s es).getLast? with
  | none => simp [List.getLast?_eq_none_iff.1 hget]
  | some last =>
    have hmem := List.mem_of_getLast? hget
    have hclose := record_close hmem
    have hback := hnow last hmem
    rw [Option.map_some]
    simp only [Option.mem_some_iff, forall_eq']
    rcases lt_or_ge last.now k with hbefore | hafter
    · have hnone : ¬ ∃ r ∈ refreshLog s es, k ≤ r.now ∧ r.now < k + minute := by
        intro h
        obtain ⟨r, hr, hkr, -⟩ := h
        have := le_last_reading hlog hget hr
        omega
      have hahead := le_close_iff hp hday hk hbefore
      rw [← hclose] at hahead
      rw [← not_le, hahead]
      exact ⟨fun h => ⟨hnone, fun hand => h hand.1⟩, fun h hle => h.2 ⟨hle, hbefore⟩⟩
    · have hc : last.close = k := by
        rw [hclose]
        exact close_of_first_minute hp hday hk hafter (by omega)
      constructor
      · intro h
        omega
      · intro h
        exact absurd ⟨last, hmem, hafter, by omega⟩ h.1

theorem pollSound_iff (hlog : ((refreshLog s es).map RefreshRecord.now).Pairwise (· ≤ ·))
    (hnow : ∀ r ∈ refreshLog s es, r.now ≤ now) : PollSound s es now ↔ PollPunctual s es now := by
  have hmin := minute_le_period hp
  have hdelay : 0 < shadowPostCloseDelay ∧ shadowPostCloseDelay < minute := by decide
  obtain ⟨k, hk, hle, hlt, hcases⟩ := close_cases hp hday now
  have hbound : boundary s.period now = k :=
    boundary_eq (by unfold MatrixState.period; omega) hk hle hlt
  unfold PollSound PollPunctual
  dsimp only
  rw [shadowRefreshDue_iff, shadowRefreshDue_close, hbound]
  rcases hcases with ⟨hfirst, hclose⟩ | ⟨hlater, hclose⟩
  · rw [hclose]
    rcases lt_or_ge now (k + shadowPostCloseDelay) with hearly | hdue
    · -- before the delay is over the poll answers for the previous period
      have hprev : boundary s.period (now - shadowPostCloseDelay) = k - s.period :=
        boundary_eq (by unfold MatrixState.period; omega) (dvd_sub_self_right.2 hk)
          (by unfold MatrixState.period; omega) (by omega)
      rw [hprev, refreshed_iff hp hday (dvd_sub_self_right.2 hk)]
      constructor
      · intro h
        refine ⟨hfirst, fun hd => by omega, fun _ => ?_⟩
        by_contra hnone
        have := (h.1.2 hnone).1
        omega
      · intro h
        refine ⟨⟨fun hd => by omega, fun hnone => absurd (h.2.2 hearly) hnone⟩, hle⟩
    · have hthis : boundary s.period (now - shadowPostCloseDelay) = k :=
        boundary_eq (by unfold MatrixState.period; omega) hk (by omega)
          (by unfold MatrixState.period; omega)
      rw [hthis, last_lt_iff hp hday hs hk hfirst hlog hnow]
      constructor
      · intro h
        refine ⟨hfirst, fun _ => ?_, fun hd => by omega⟩
        by_cases href : Refreshed (refreshLog s es) k
        · exact notAhead_of_refreshed hp hday hk hlog href
        · exact ((h.1.2 href).2).2
      · intro h
        exact ⟨⟨fun hd => hd.2.1, fun href => ⟨by omega, href, h.2.1 hdue⟩⟩, hle⟩
  · rw [hclose]
    refine iff_of_false (fun h => ?_) fun h => ?_
    · have := h.2
      omega
    · have := h.1
      omega

end Poll

/-! ## Closes -/

/-- The close is refreshed, and the loop does not refresh it again. -/
def RefreshedOnce (log : List RefreshRecord) (k : ℤ) : Prop :=
  Refreshed log k ∧ ∀ before r after, log = before ++ r :: after → r.caller = .scheduled →
    r.Of k → ¬ Refreshed before k

/-- Some call that fetches bars comes in the first minute after the close: a forced one, or a
poll after the delay with no refresh made ahead of the close. -/
def ClosePolled (s : MatrixState) (es : List Event) (k : ℤ) : Prop :=
  ∃ pre call post, es = pre ++ .refresh call :: post ∧ k ≤ call.now ∧ call.now < k + minute ∧
    s.lockedBars k call.rest ≠ [] ∧
    (call.caller = .scheduled → k + shadowPostCloseDelay ≤ call.now ∧ NotAhead s pre k)

/-- The readings never go back. -/
def Punctual (es : List Event) : Prop := (readings es).Pairwise (· ≤ ·)

theorem Punctual.split {s : MatrixState} {pre post : List Event} {call : Call}
    (h : Punctual (pre ++ .refresh call :: post)) :
    ((refreshLog s pre).map RefreshRecord.now).Pairwise (· ≤ ·) ∧
      ∀ r ∈ refreshLog s pre, r.now ≤ call.now := by
  have hreadings : readings (pre ++ .refresh call :: post) =
      readings pre ++ call.now :: readings post := by
    rw [readings, List.filterMap_append]
    rfl
  have hsub := log_sublist_readings s pre
  rw [Punctual, hreadings, List.pairwise_append] at h
  refine ⟨h.1.sublist hsub, fun r hr => ?_⟩
  exact h.2.2 _ (hsub.subset (List.mem_map_of_mem hr)) _ List.mem_cons_self

theorem lockedBars_run (s : MatrixState) (es : List Event) (k : ℤ) (rest : RestBars) :
    (run next s es).lockedBars k rest = s.lockedBars k rest := by
  rw [MatrixState.lockedBars, MatrixState.lockedBars, MatrixState.period, MatrixState.period,
    run_barMinutes]

section Close
variable {s : MatrixState} (hp : 0 < s.barMinutes) (hday : s.barMinutes ∣ 1440)
  (hs : s.lastShadowRefreshBarClose = none) {es : List Event} (hes : Punctual es) {k : ℤ}
  (hk : s.period ∣ k)
include hp hday hs hes hk

/-- The loop refreshes a close only where it has not been refreshed before. -/
theorem scheduled_record {before after : List RefreshRecord} {r : RefreshRecord}
    (h : refreshLog s es = before ++ r :: after) (hr : r.caller = .scheduled) (hof : r.Of k) :
    ∃ pre call post, es = pre ++ .refresh call :: post ∧ call.now = r.now ∧
      call.caller = .scheduled ∧ refreshLog s pre = before ∧ s.lockedBars k call.rest ≠ [] ∧
      k + shadowPostCloseDelay ≤ call.now ∧ ¬ Refreshed before k ∧ NotAhead s pre k := by
  obtain ⟨pre, call, post, hsplit, hpre, hrec⟩ := exists_call_of_log h
  subst hsplit
  obtain ⟨c, hc, hcaller, hnow, hclose, hbars⟩ := mem_recordOf.1 hrec
  obtain rfl : call = c := by injection hc
  rw [hr] at hcaller
  obtain ⟨hdue, hc⟩ := (refreshClose_scheduled hcaller.symm).1 hclose
  obtain ⟨hlog, hle⟩ := hes.split (s := s)
  obtain ⟨rfl, hknow⟩ := hof
  rw [run_barMinutes] at hdue hc
  rw [hnow] at hknow
  rw [shadowRefreshDue_iff, hc] at hdue
  have hfirst : call.now < r.close + minute := ((close_eq_iff hp hday hk).1 ⟨hc, hknow⟩).2
  obtain ⟨hnot, hahead⟩ := (last_lt_iff hp hday hs hk hfirst hlog hle).1 hdue.2
  rw [lockedBars_run] at hbars
  exact ⟨pre, call, post, rfl, hnow.symm, hcaller.symm, hpre, hbars, hdue.1, hpre ▸ hnot, hahead⟩

theorem refreshed_of_polled (h : ClosePolled s es k) : Refreshed (refreshLog s es) k := by
  obtain ⟨pre, call, post, rfl, hle, hlt, hbars, hpoll⟩ := h
  obtain ⟨hlog, hnow⟩ := hes.split (s := s)
  have hclose := close_of_first_minute hp hday hk hle hlt
  rw [refreshLog_append, refreshLog]
  by_cases href : Refreshed (refreshLog s pre) k
  · obtain ⟨r, hr, hof⟩ := href
    exact ⟨r, List.mem_append_left _ hr, hof⟩
  · refine ⟨⟨call.caller, call.now, k⟩, ?_, rfl, hle⟩
    refine List.mem_append_right _ (List.mem_append_left _ (mem_recordOf.2 ?_))
    refine ⟨call, rfl, rfl, rfl, ?_, by rwa [lockedBars_run]⟩
    cases hcaller : call.caller with
    | scheduled =>
      obtain ⟨hdelay, hahead⟩ := hpoll hcaller
      rw [refreshClose_scheduled hcaller, run_barMinutes, shadowRefreshDue_iff, hclose]
      have := (last_lt_iff hp hday hs hk hlt hlog hnow).2 ⟨href, hahead⟩
      exact ⟨⟨hdelay, this⟩, rfl⟩
    | forced =>
      rw [MatrixState.refreshClose, hcaller]
      dsimp only
      rw [run_barMinutes, hclose]

theorem polled_of_refreshed (h : Refreshed (refreshLog s es) k) : ClosePolled s es k := by
  obtain ⟨r, hr, hof⟩ := h
  obtain ⟨before, after, hsplit⟩ := List.append_of_mem hr
  have hclose := record_close hr
  have hfirst := (close_eq_iff hp hday hk).1 ⟨hclose.symm.trans hof.1, hof.2⟩
  cases hcaller : r.caller with
  | scheduled =>
    obtain ⟨pre, call, post, hes', hnow, -, -, hbars, hdelay, -, hahead⟩ :=
      scheduled_record hp hday hs hes hk hsplit hcaller hof
    exact ⟨pre, call, post, hes', by omega, by omega, hbars, fun _ => ⟨hdelay, hahead⟩⟩
  | forced =>
    obtain ⟨pre, call, post, hes', -, hrec⟩ := exists_call_of_log hsplit
    obtain ⟨c, hc, hcaller', hnow, -, hbars⟩ := mem_recordOf.1 hrec
    obtain rfl : call = c := by injection hc
    rw [lockedBars_run, hof.1] at hbars
    refine ⟨pre, call, post, hes', by omega, by omega, hbars, fun hsched => ?_⟩
    rw [← hcaller', hcaller] at hsched
    cases hsched

theorem refreshedOnce_iff : RefreshedOnce (refreshLog s es) k ↔ ClosePolled s es k := by
  constructor
  · intro h
    exact polled_of_refreshed hp hday hs hes hk h.1
  · intro h
    refine ⟨refreshed_of_polled hp hday hs hes hk h, fun before r after hsplit hcaller hof => ?_⟩
    obtain ⟨-, -, -, -, -, -, -, -, -, hnot, -⟩ :=
      scheduled_record hp hday hs hes hk hsplit hcaller hof
    exact hnot

end Close

/-! ## The schedule of a run -/

/-- The polls of a run, each with what comes before it. -/
def AtPolls (es : List Event) (P : List Event → ℤ → Prop) : Prop :=
  ∀ pre call post, es = pre ++ .refresh call :: post → call.caller = .scheduled → P pre call.now

theorem atPolls_nil {P : List Event → ℤ → Prop} : AtPolls [] P := by
  intro pre call post h
  simp at h

/-- The first poll comes after nothing, and every later one after the first call. -/
theorem atPolls_cons {call : Call} {es : List Event} {P : List Event → ℤ → Prop} :
    AtPolls (.refresh call :: es) P ↔
      (call.caller = .scheduled → P [] call.now) ∧
        AtPolls es fun pre now => P (.refresh call :: pre) now := by
  constructor
  · intro h
    refine ⟨h [] call es rfl, fun pre later post hsplit => ?_⟩
    exact h (.refresh call :: pre) later post (by rw [hsplit, List.cons_append])
  · rintro ⟨hfirst, hrest⟩ pre later post hsplit
    cases pre with
    | nil =>
      obtain ⟨hcall, -⟩ := List.cons.inj hsplit
      obtain rfl : call = later := by injection hcall
      exact hfirst
    | cons e pre =>
      obtain ⟨rfl, htail⟩ := List.cons.inj hsplit
      exact hrest pre later post htail

/-- Between the closes `a` and `b` the loop polls at least once in every period. -/
def PollsEachPeriod (s : MatrixState) (es : List Event) (a b : ℤ) : Prop :=
  ∀ k, s.period ∣ k → a ≤ k → k ≤ b → ∃ call : Call, .refresh call ∈ es ∧
    call.caller = .scheduled ∧ k ≤ call.now ∧ call.now < k + s.period

def EachClose (s : MatrixState) (a b : ℤ) (P : ℤ → Prop) : Prop :=
  ∀ k, s.period ∣ k → a ≤ k → k ≤ b → P k

theorem shadow_schedule_iff {s : MatrixState} (hp : 0 < s.barMinutes) (hday : s.barMinutes ∣ 1440)
    (hs : s.lastShadowRefreshBarClose = none) {es : List Event} (hes : Punctual es) (a b : ℤ) :
    AtPolls es (PollSound s) ∧
        (PollsEachPeriod s es a b → EachClose s a b (RefreshedOnce (refreshLog s es))) ↔
      AtPolls es (PollPunctual s) ∧
        (PollsEachPeriod s es a b → EachClose s a b (ClosePolled s es)) := by
  refine and_congr ?_ (imp_congr_right fun _ => ?_)
  · refine forall_congr' fun pre => forall_congr' fun call => forall_congr' fun post => ?_
    refine forall_congr' fun hsplit => forall_congr' fun _ => ?_
    subst hsplit
    obtain ⟨hlog, hnow⟩ := hes.split (s := s)
    exact pollSound_iff hp hday hs hlog hnow
  · refine forall_congr' fun k => forall_congr' fun hk => forall_congr' fun _ =>
      forall_congr' fun _ => ?_
    exact refreshedOnce_iff hp hday hs hes hk

/-! ## Polls that come late -/

/-- A service that holds the bars of three quarters of an hour. -/
def quarterBars : RestBars where
  bars := [0, 15, 30].map fun m => ⟨m * minute, 10, 11, 9, 10, 100, "QQQ"⟩
  increasing := by decide

def pollAt (now : ℤ) : Event := .refresh ⟨.scheduled, now, now, quarterBars⟩

def quarterMatrix : MatrixState := .new (timeframeMinutes "15Min") []

/-- The closes of the first half hour. -/
theorem quarter_closes {k : ℤ} (hk : quarterMatrix.period ∣ k) (hle : 0 ≤ k)
    (hge : k ≤ 30 * minute) : k = 0 ∨ k = 15 * minute ∨ k = 30 * minute := by
  obtain ⟨n, rfl⟩ := hk
  rw [show quarterMatrix.period = 15 * minute from rfl] at hle hge ⊢
  unfold minute second at *
  omega

/-- One poll in every period, forty seconds after the close. -/
def promptPolls : List Event :=
  [pollAt (40 * second), pollAt (15 * minute + 40 * second), pollAt (30 * minute + 40 * second)]

theorem prompt_polls_refresh :
    AtPolls promptPolls (PollSound quarterMatrix) ∧
      (PollsEachPeriod quarterMatrix promptPolls 0 (30 * minute) →
        EachClose quarterMatrix 0 (30 * minute)
          (RefreshedOnce (refreshLog quarterMatrix promptPolls))) := by
  have hdvd : quarterMatrix.barMinutes ∣ 1440 := timeframeMinutes_dvd "15Min"
  have hpunctual : Punctual promptPolls := by
    unfold Punctual
    decide
  refine (shadow_schedule_iff (timeframeMinutes_pos "15Min") hdvd rfl hpunctual 0
    (30 * minute)).2 ⟨?_, ?_⟩
  · refine atPolls_cons.2 ⟨fun _ => ?_, atPolls_cons.2 ⟨fun _ => ?_, atPolls_cons.2
      ⟨fun _ => ?_, atPolls_nil⟩⟩⟩
    all_goals
      unfold PollPunctual NotAhead
      decide +kernel
  · intro _ k hk hle hge
    rcases quarter_closes hk hle hge with rfl | rfl | rfl
    · refine ⟨[], _, _, rfl, by decide, by decide, by decide +kernel, fun _ => ⟨by decide, ?_⟩⟩
      unfold NotAhead
      decide +kernel
    · refine ⟨[_], _, _, rfl, by decide, by decide, by decide +kernel, fun _ => ⟨by decide, ?_⟩⟩
      unfold NotAhead
      decide +kernel
    · refine ⟨[_, _], _, _, rfl, by decide, by decide, by decide +kernel,
        fun _ => ⟨by decide, ?_⟩⟩
      unfold NotAhead
      decide +kernel

/-- One poll in every period, five minutes late each time. -/
def latePolls : List Event := [pollAt (5 * minute), pollAt (20 * minute), pollAt (35 * minute)]

theorem late_polls_skip_every_close :
    Punctual latePolls ∧ ¬ AtPolls latePolls (PollSound quarterMatrix) ∧
      PollsEachPeriod quarterMatrix latePolls 0 (30 * minute) ∧
      ¬ EachClose quarterMatrix 0 (30 * minute)
        (RefreshedOnce (refreshLog quarterMatrix latePolls)) := by
  refine ⟨?_, fun h => ?_, fun k hk hle hge => ?_, fun h => ?_⟩
  · unfold Punctual
    decide
  · have hsound := (h [] _ _ rfl rfl).2
    exact absurd hsound (by decide)
  · rcases quarter_closes hk hle hge with rfl | rfl | rfl
    · exact ⟨⟨.scheduled, 5 * minute, 5 * minute, quarterBars⟩, by simp [latePolls, pollAt], rfl,
        by decide, by decide⟩
    · exact ⟨⟨.scheduled, 20 * minute, 20 * minute, quarterBars⟩, by simp [latePolls, pollAt], rfl,
        by decide, by decide⟩
    · exact ⟨⟨.scheduled, 35 * minute, 35 * minute, quarterBars⟩, by simp [latePolls, pollAt], rfl,
        by decide, by decide⟩
  · have hlog : refreshLog quarterMatrix latePolls = [] := by decide +kernel
    obtain ⟨r, hr, -⟩ := (h 0 (dvd_zero _) le_rfl (by decide)).1
    rw [hlog] at hr
    cases hr

end TradingPlatform.Ingestor.DualBuffer
