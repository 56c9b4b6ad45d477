import TradingPlatform.Lib.Binary64
import TradingPlatform.Lib.Dict
import TradingPlatform.Lib.Runs
import Mathlib.Data.String.Basic
import Mathlib.Tactic.Linarith

/-! # The daily turnover governor

Each session date has its total, in a table and in a cache before it. The lock
that a breach engages has no date: it is down to a restart of the process. Amounts
are doubles, and sums, differences and products of them are rounded. -/

namespace TradingPlatform.Engine.Turnover

open TradingPlatform.Lib TradingPlatform.Lib.Runs
open TradingPlatform.Lib.Binary64 (nearestValue nearestValue_idem nearestValue_le
  nearestValue_mono nearestValue_nonneg nearestValue_sub_pos nearestValue_zero)

structure CapacityGovernor where
  equityTurnoverMultiplier : ℚ := 3
  currentEquity : ℚ := 0
  sessionLocked : Bool := false
  breachReason : String := ""
  sessionCache : Dict String ℚ := .empty

/-- `capacity_daily_totals`: the realized turnover of a session date and a symbol. -/
abbrev DailyTotals := Dict (String × String) ℚ

structure TurnoverLimitDecision where
  symbol : String
  sessionDate : String
  proposedNotional : ℚ
  allowedNotional : ℚ
  dailyTurnoverSoFar : ℚ
  capNotional : ℚ
  currentEquity : ℚ
  capped : Bool
  blocked : Bool
  breach : Bool
  sessionLocked : Bool
  reason : String
  deriving DecidableEq

def sessionTotalSymbol : String := "__SESSION_TOTAL__"

def sessionTotalKey (sessionDate : String) : String := sessionDate ++ ":" ++ sessionTotalSymbol

theorem sessionTotalKey_inj {a b : String} : sessionTotalKey a = sessionTotalKey b ↔ a = b := by
  refine ⟨fun h => ?_, congrArg sessionTotalKey⟩
  have hlist := congrArg String.toList h
  simp only [sessionTotalKey, String.toList_append] at hlist
  exact String.toList_inj.mp (List.append_cancel_right (List.append_cancel_right hlist))

/-! ## The governor's calls -/

section Calls
variable (upper : String → String) (db : DailyTotals) (g : CapacityGovernor)

def resolveDailyTurnoverCap (currentEquity : Option ℚ) : ℚ :=
  let equity := currentEquity.elim g.currentEquity (max · 0)
  if equity ≤ 0 then 0 else nearestValue (equity * g.equityTurnoverMultiplier)

def loadSessionTurnoverTotal (sessionDate : String) : ℚ × CapacityGovernor :=
  match g.sessionCache.get? (sessionTotalKey sessionDate) with
  | some value => (value, g)
  | none =>
    let value := (db.get? (sessionDate, sessionTotalSymbol)).getD 0
    (value, { g with sessionCache := g.sessionCache.set (sessionTotalKey sessionDate) value })

def engageSessionBreach : CapacityGovernor :=
  if g.sessionLocked then g
  else { g with sessionLocked := true, breachReason := "turnover_breach_session_lock" }

/-- What a call decides, apart from the governor it leaves. -/
def turnoverDecision (sym : String) (proposed equity cap realized : ℚ) (session : String) :
    TurnoverLimitDecision :=
  let decision (allowed : ℚ) (capped blocked breach locked : Bool) (reason : String) :
      TurnoverLimitDecision :=
    { symbol := sym, sessionDate := session, proposedNotional := proposed
      allowedNotional := allowed, dailyTurnoverSoFar := realized, capNotional := cap
      currentEquity := equity, capped, blocked, breach, sessionLocked := locked, reason }
  if g.sessionLocked then
    decision 0 true true true true
      (if g.breachReason = "" then "turnover_breach_session_lock" else g.breachReason)
  else if proposed ≤ 0 then decision 0 false true false false "non_positive_proposed_notional"
  else if cap ≤ 0 then decision 0 true true false false "equity_unavailable_for_turnover_cap"
  else if cap ≤ realized then decision 0 true true true true "daily_turnover_cap_exhausted"
  else
    let allowed := min proposed (max (nearestValue (cap - realized)) 0)
    decision allowed (allowed < proposed) (allowed ≤ 0) false false
      (if allowed < proposed then "proposed_notional_trimmed_to_remaining_cap" else "within_cap")

def enforceDailyTurnoverLimits (symbol : String) (proposedSizeNotional currentEquity : ℚ)
    (session : String) : TurnoverLimitDecision × CapacityGovernor :=
  let proposed := max proposedSizeNotional 0
  let equity := max currentEquity 0
  let g := if 0 < equity then { g with currentEquity := equity } else g
  let cap := resolveDailyTurnoverCap g (some equity)
  let (realized, g) := loadSessionTurnoverTotal db g session
  let decision := turnoverDecision g (upper symbol) proposed equity cap realized session
  (decision,
    if g.sessionLocked = false ∧ 0 < proposed ∧ 0 < cap ∧ cap ≤ realized then engageSessionBreach g
    else g)

/-- The session's total after the fill, and the table and the governor it leaves. -/
def recordRealizedTurnover (notional : ℚ) (session : String) (currentEquity : Option ℚ) :
    ℚ × DailyTotals × CapacityGovernor :=
  let amount := max notional 0
  let equity := currentEquity.elim g.currentEquity (max · 0)
  let g := { g with currentEquity := equity }
  if amount ≤ 0 then
    let (total, g) := loadSessionTurnoverTotal db g session
    (total, db, g)
  else
    let cap := resolveDailyTurnoverCap g (some equity)
    let (prior, g) := loadSessionTurnoverTotal db g session
    let cumulative := nearestValue (prior + amount)
    let g := { g with sessionCache := g.sessionCache.set (sessionTotalKey session) cumulative }
    (cumulative, db.set (session, sessionTotalSymbol) cumulative,
      if 0 < cap ∧ cap < cumulative then engageSessionBreach g else g)

end Calls

/-! ## Runs -/

/-- The table and the governor; `grant` is what the last enforce call allowed and no
fill has used, `breached` the sessions found or left in breach since the restart. -/
structure TurnoverRun where
  db : DailyTotals := .empty
  governor : CapacityGovernor := {}
  grant : Option (String × ℚ) := none
  breached : List String := []

inductive TurnoverCall
  | enforce (symbol : String) (proposed : ℚ) (session : String)
  | record (notional : ℚ) (session : String) (withEquity : Bool)
  | restart

def recordedTotal (db : DailyTotals) (session : String) : ℚ :=
  (db.get? (session, sessionTotalSymbol)).getD 0

section Runs
variable (upper : String → String) (equity : ℚ)

/-- The cap at the equity of the run. -/
def TurnoverRun.cap (s : TurnoverRun) : ℚ := resolveDailyTurnoverCap s.governor (some equity)

/-- The call finds the session at its cap, or takes it over. -/
def TurnoverCall.breaches (s : TurnoverRun) : TurnoverCall → Option String
  | .enforce _ proposed session =>
    if 0 < proposed ∧ 0 < s.cap equity ∧ s.cap equity ≤ recordedTotal s.db session then some session
    else none
  | .record notional session withEquity =>
    let cap := resolveDailyTurnoverCap s.governor (if withEquity then some equity else none)
    if 0 < notional ∧ 0 < cap ∧ cap < nearestValue (recordedTotal s.db session + notional) then
      some session
    else none
  | .restart => none

def step (s : TurnoverRun) (call : TurnoverCall) : TurnoverRun :=
  match call with
  | .enforce symbol proposed session =>
    let (decision, governor) :=
      enforceDailyTurnoverLimits upper s.db s.governor symbol proposed equity session
    { s with
      governor
      grant := some (session, decision.allowedNotional)
      breached := (call.breaches equity s).toList ++ s.breached }
  | .record notional session withEquity =>
    let (_, db, governor) := recordRealizedTurnover s.db s.governor notional session
      (if withEquity then some equity else none)
    { db, governor, grant := none, breached := (call.breaches equity s).toList ++ s.breached }
  | .restart =>
    { s with
      governor := { equityTurnoverMultiplier := s.governor.equityTurnoverMultiplier }
      breached := [] }

/-- A fill is at most what its own enforce call, the last one, allowed. -/
def WithinGrant (s : TurnoverRun) : TurnoverCall → Prop
  | .record notional session _ => ∃ allowed, s.grant = some (session, allowed) ∧ notional ≤ allowed
  | _ => True

/-- The amount of a fill is a float. -/
def FillIsDouble : TurnoverCall → Prop
  | .record notional _ _ => nearestValue notional = notional
  | _ => True

/-- A fill is at most the rest of the cap, or the rest as the subtraction rounds it does not
overshoot the cap when it is added back. -/
def RoomFits (s : TurnoverRun) : TurnoverCall → Prop
  | .record notional session _ => 0 < notional →
      notional ≤ s.cap equity - recordedTotal s.db session ∨
        nearestValue (recordedTotal s.db session +
          nearestValue (s.cap equity - recordedTotal s.db session)) ≤ s.cap equity
  | _ => True

def WithinCap (s : TurnoverRun) : Prop :=
  ∀ session total, s.db.get? (session, sessionTotalSymbol) = some total → total ≤ s.cap equity

/-- A proposal for a session below its cap is not blocked. -/
def Isolated (s : TurnoverRun) : TurnoverCall → Prop
  | .enforce symbol proposed session => 0 < proposed →
      recordedTotal s.db session < s.cap equity →
      (enforceDailyTurnoverLimits upper s.db s.governor symbol proposed equity session).1.blocked =
        false
  | _ => True

/-- A proposal for a session below its cap comes when none has been in breach since
the last restart. -/
def NoneBreached (s : TurnoverRun) : TurnoverCall → Prop
  | .enforce _ proposed session => 0 < proposed →
      recordedTotal s.db session < s.cap equity → s.breached = []
  | _ => True

end Runs

/-! ## The books -/

def CacheAgrees (db : DailyTotals) (g : CapacityGovernor) : Prop :=
  ∀ session total, g.sessionCache.get? (sessionTotalKey session) = some total →
    total = recordedTotal db session

/-- The cache agrees with the table, the totals are doubles and not negative, and the lock
is on just when some session has been in breach. -/
structure Books (s : TurnoverRun) : Prop where
  cache : CacheAgrees s.db s.governor
  nonneg : ∀ session, 0 ≤ recordedTotal s.db session
  rounded : ∀ session, nearestValue (recordedTotal s.db session) = recordedTotal s.db session
  lock : s.governor.sessionLocked = true ↔ s.breached ≠ []

section Calls
variable {db : DailyTotals} {g : CapacityGovernor}

theorem load_spec (h : CacheAgrees db g) (session : String) :
    ∃ cache, loadSessionTurnoverTotal db g session =
        (recordedTotal db session, { g with sessionCache := cache }) ∧
      CacheAgrees db { g with sessionCache := cache } := by
  unfold loadSessionTurnoverTotal
  split
  · rename_i value hvalue
    exact ⟨g.sessionCache, by rw [h session value hvalue], h⟩
  · refine ⟨_, rfl, fun session' total htotal => ?_⟩
    rw [Dict.get?_set] at htotal
    split at htotal
    · rename_i hkey
      cases htotal
      rw [sessionTotalKey_inj.mp hkey]
      rfl
    · exact h session' total htotal

@[simp] theorem engage_multiplier :
    (engageSessionBreach g).equityTurnoverMultiplier = g.equityTurnoverMultiplier := by
  unfold engageSessionBreach
  split <;> rfl

@[simp] theorem engage_cache : (engageSessionBreach g).sessionCache = g.sessionCache := by
  unfold engageSessionBreach
  split <;> rfl

@[simp] theorem engage_locked : (engageSessionBreach g).sessionLocked = true := by
  unfold engageSessionBreach
  split
  · assumption
  · rfl

theorem resolveDailyTurnoverCap_eq (equity : Option ℚ) : resolveDailyTurnoverCap g equity =
    nearestValue (max (equity.getD g.currentEquity) 0 * g.equityTurnoverMultiplier) := by
  have h (e : ℚ) : (if e ≤ 0 then 0 else nearestValue (e * g.equityTurnoverMultiplier)) =
      nearestValue (max e 0 * g.equityTurnoverMultiplier) := by
    split
    · rename_i he
      rw [max_eq_right he, zero_mul, nearestValue_zero]
    · rename_i he
      rw [max_eq_left (le_of_lt (not_le.mp he))]
  cases equity with
  | none => exact h _
  | some equity => simpa [resolveDailyTurnoverCap] using h (max equity 0)

/-- What an enforce call decides, and what of the governor it can change. -/
theorem enforce_spec (upper : String → String) (h : CacheAgrees db g) (symbol : String)
    (proposed equity : ℚ) (session : String) :
    (enforceDailyTurnoverLimits upper db g symbol proposed equity session).1 =
        turnoverDecision g (upper symbol) (max proposed 0) (max equity 0)
          (resolveDailyTurnoverCap g (some equity)) (recordedTotal db session) session ∧
      ∃ g', (enforceDailyTurnoverLimits upper db g symbol proposed equity session).2 = g' ∧
        g'.equityTurnoverMultiplier = g.equityTurnoverMultiplier ∧ CacheAgrees db g' ∧
        (g'.sessionLocked = true ↔ g.sessionLocked = true ∨
          0 < proposed ∧ 0 < resolveDailyTurnoverCap g (some equity) ∧
            resolveDailyTurnoverCap g (some equity) ≤ recordedTotal db session) := by
  set g₀ : CapacityGovernor :=
    if 0 < max equity 0 then { g with currentEquity := max equity 0 } else g with hg₀
  have hfield : g₀.equityTurnoverMultiplier = g.equityTurnoverMultiplier ∧
      g₀.sessionCache = g.sessionCache ∧ g₀.sessionLocked = g.sessionLocked ∧
      g₀.breachReason = g.breachReason := by
    rw [hg₀]
    split <;> exact ⟨rfl, rfl, rfl, rfl⟩
  obtain ⟨hmult, hcache, hlocked, hreason⟩ := hfield
  have hcap : resolveDailyTurnoverCap g₀ (some (max equity 0)) =
      resolveDailyTurnoverCap g (some equity) := by
    simp [resolveDailyTurnoverCap_eq, hmult]
  have hagrees : CacheAgrees db g₀ := fun session total => by
    rw [hcache]
    exact h session total
  obtain ⟨cache, hload, hcache'⟩ := load_spec hagrees session
  have hproposed : 0 < max proposed 0 ↔ 0 < proposed := by simp
  simp only [enforceDailyTurnoverLimits, ← hg₀, hload, hcap, hproposed]
  refine ⟨?_, _, rfl, ?_⟩
  · simp only [turnoverDecision, hlocked, hreason]
  · split
    · rename_i hbreach
      exact ⟨by simp [hmult], by simpa [CacheAgrees] using hcache',
        by simp [hbreach.2.1, hbreach.2.2.1, hbreach.2.2.2]⟩
    · rename_i hbreach
      refine ⟨hmult, hcache', ?_⟩
      simp only [hlocked]
      cases hg : g.sessionLocked
      · simpa [hlocked, hg] using hbreach
      · simp

/-- What a fill leaves: the session's total in the table, and the lock. -/
theorem record_spec (h : CacheAgrees db g) (notional : ℚ) (session : String) (equity : Option ℚ) :
    ∃ total db' g', recordRealizedTurnover db g notional session equity = (total, db', g') ∧
      db' = (if notional ≤ 0 then db else
        db.set (session, sessionTotalSymbol) (nearestValue (recordedTotal db session + notional))) ∧
      g'.equityTurnoverMultiplier = g.equityTurnoverMultiplier ∧ CacheAgrees db' g' ∧
      (g'.sessionLocked = true ↔ g.sessionLocked = true ∨
        0 < notional ∧ 0 < resolveDailyTurnoverCap g equity ∧
          resolveDailyTurnoverCap g equity <
            nearestValue (recordedTotal db session + notional)) := by
  set g₀ : CapacityGovernor :=
    { g with currentEquity := equity.elim g.currentEquity (max · 0) } with hg₀
  have hcap : resolveDailyTurnoverCap g₀ (some (equity.elim g.currentEquity (max · 0))) =
      resolveDailyTurnoverCap g equity := by
    cases equity <;> simp [resolveDailyTurnoverCap_eq, hg₀]
  obtain ⟨cache, hload, hcache⟩ := load_spec (g := g₀) h session
  by_cases hn : notional ≤ 0
  · have hamount : max notional 0 ≤ 0 := by simpa using hn
    simp only [recordRealizedTurnover, if_pos hamount, ← hg₀, hload]
    exact ⟨_, _, _, rfl, (if_pos hn).symm, rfl, hcache, by simp [hg₀, not_lt.mpr hn]⟩
  have hmax : max notional 0 = notional := max_eq_left (le_of_lt (not_le.mp hn))
  simp only [recordRealizedTurnover, ← hg₀, hload, hcap, hmax, if_neg hn]
  refine ⟨_, _, _, rfl, rfl, ?_, ?_, ?_⟩
  · split <;> simp [hg₀]
  · -- the cache and the table take the same total under the same session
    intro session' total htotal
    have hset : (cache.set (sessionTotalKey session)
        (nearestValue (recordedTotal db session + notional))).get?
          (sessionTotalKey session') = some total := by
      split at htotal <;> simpa using htotal
    rw [Dict.get?_set] at hset
    by_cases hsession : session' = session
    · subst hsession
      simpa [recordedTotal] using hset.symm
    · rw [if_neg (mt sessionTotalKey_inj.mp hsession)] at hset
      have hkey : (session', sessionTotalSymbol) ≠ (session, sessionTotalSymbol) := by
        simpa using hsession
      rw [recordedTotal, Dict.get?_set_ne _ hkey]
      exact hcache session' total hset
  · split
    · rename_i hbreach
      simp [hbreach, not_le.mp hn]
    · rename_i hbreach
      simp [hbreach, hg₀]

end Calls

section Runs
variable {upper : String → String} {equity : ℚ}

theorem step_cap (s : TurnoverRun) (hs : Books s) (call : TurnoverCall) :
    (step upper equity s call).cap equity = s.cap equity := by
  have hmult : (step upper equity s call).governor.equityTurnoverMultiplier =
      s.governor.equityTurnoverMultiplier := by
    cases call with
    | enforce symbol proposed session =>
      obtain ⟨-, _, hg, hmult, -⟩ := enforce_spec upper hs.cache symbol proposed equity session
      simp only [step, hg, hmult]
    | record notional session withEquity =>
      obtain ⟨_, _, _, hcall, -, hmult, -⟩ :=
        record_spec hs.cache notional session (if withEquity then some equity else none)
      simp only [step, hcall, hmult]
    | restart => rfl
  simp [TurnoverRun.cap, resolveDailyTurnoverCap_eq, hmult]

theorem recordedTotal_step (s : TurnoverRun) (hs : Books s) (call : TurnoverCall)
    (session' : String) : recordedTotal (step upper equity s call).db session' =
      match call with
      | .record notional session _ =>
        if session' = session then nearestValue (recordedTotal s.db session' + max notional 0)
        else recordedTotal s.db session'
      | _ => recordedTotal s.db session' := by
  cases call with
  | record notional session withEquity =>
    obtain ⟨_, _, _, hcall, hdb, -⟩ :=
      record_spec hs.cache notional session (if withEquity then some equity else none)
    simp only [step, hcall, hdb]
    by_cases hn : notional ≤ 0
    · rw [if_pos hn, max_eq_right hn, add_zero, hs.rounded, ite_self]
    · rw [if_neg hn, recordedTotal, Dict.get?_set, max_eq_left (le_of_lt (not_le.mp hn))]
      by_cases hsession : session' = session
      · simp [hsession]
      · simp [hsession, recordedTotal]
  | enforce symbol proposed session => rfl
  | restart => rfl

theorem append_breached {P : Prop} [Decidable P] (session : String) (breached : List String) :
    (if P then some session else none).toList ++ breached ≠ [] ↔ breached ≠ [] ∨ P := by
  split <;> simp_all

theorem books_step (s : TurnoverRun) (call : TurnoverCall) (hs : Books s) :
    Books (step upper equity s call) := by
  refine ⟨?_, fun session' => ?_, fun session' => ?_, ?_⟩
  · cases call with
    | enforce symbol proposed session =>
      obtain ⟨-, _, hg, -, hcache, -⟩ := enforce_spec upper hs.cache symbol proposed equity session
      simpa only [step, hg] using hcache
    | record notional session withEquity =>
      obtain ⟨_, _, _, hcall, -, -, hcache, -⟩ :=
        record_spec hs.cache notional session (if withEquity then some equity else none)
      simpa only [step, hcall] using hcache
    | restart => exact fun session total htotal => by cases htotal
  · rw [recordedTotal_step s hs]
    have hnonneg := hs.nonneg session'
    cases call with
    | record notional session withEquity =>
      dsimp only
      split
      · exact nearestValue_nonneg (add_nonneg hnonneg (le_max_right _ _))
      · exact hnonneg
    | enforce symbol proposed session => exact hnonneg
    | restart => exact hnonneg
  · rw [recordedTotal_step s hs]
    cases call with
    | record notional session withEquity =>
      dsimp only
      split
      · exact nearestValue_idem _
      · exact hs.rounded session'
    | enforce symbol proposed session => exact hs.rounded session'
    | restart => exact hs.rounded session'
  · cases call with
    | enforce symbol proposed session =>
      obtain ⟨-, _, hg, -, -, hlock⟩ := enforce_spec upper hs.cache symbol proposed equity session
      simp only [step, hg, hlock, hs.lock]
      exact (append_breached session s.breached).symm
    | record notional session withEquity =>
      obtain ⟨_, _, _, hcall, -, -, -, hlock⟩ :=
        record_spec hs.cache notional session (if withEquity then some equity else none)
      simp only [step, hcall, hlock, hs.lock]
      exact (append_breached session s.breached).symm
    | restart => simp [step]

/-! ## The bound on each session -/

theorem cap_rounded (s : TurnoverRun) : nearestValue (s.cap equity) = s.cap equity := by
  rw [TurnoverRun.cap, resolveDailyTurnoverCap_eq, nearestValue_idem]

theorem allowed_within {g : CapacityGovernor} {sym session : String}
    {proposed equity cap realized : ℚ}
    (h : 0 < (turnoverDecision g sym proposed equity cap realized session).allowedNotional) :
    realized < cap ∧ (turnoverDecision g sym proposed equity cap realized session).allowedNotional ≤
      nearestValue (cap - realized) := by
  have hgrant (hbelow : ¬ cap ≤ realized) : realized < cap ∧
      min proposed (max (nearestValue (cap - realized)) 0) ≤ nearestValue (cap - realized) := by
    have hlt := not_le.mp hbelow
    refine ⟨hlt, (min_le_right _ _).trans_eq (max_eq_left ?_)⟩
    exact nearestValue_nonneg (sub_nonneg.mpr hlt.le)
  revert h
  simp only [turnoverDecision]
  split
  · exact fun h => absurd h (lt_irrefl _)
  split
  · exact fun h => absurd h (lt_irrefl _)
  split
  · exact fun h => absurd h (lt_irrefl _)
  split
  · exact fun h => absurd h (lt_irrefl _)
  · rename_i hbelow
    exact fun _ => hgrant hbelow

/-- The totals are below the cap, and the last grant is within the rounded rest of its own. -/
structure Granted (equity : ℚ) (s : TurnoverRun) : Prop where
  books : Books s
  within : WithinCap equity s
  grant : ∀ session allowed, s.grant = some (session, allowed) → 0 < allowed →
    recordedTotal s.db session < s.cap equity ∧
      allowed ≤ nearestValue (s.cap equity - recordedTotal s.db session)

/-- A fill within its grant stays within the cap just when its total is rounded so. -/
theorem fill_within_iff {cap total allowed notional : ℚ} (hcap : nearestValue cap = cap)
    (hdouble : nearestValue notional = notional) (hle : notional ≤ allowed)
    (hallowed : allowed ≤ nearestValue (cap - total)) :
    nearestValue (total + notional) ≤ cap ↔ notional ≤ cap - total ∨
      nearestValue (total + nearestValue (cap - total)) ≤ cap := by
  constructor
  · intro hfits
    refine or_iff_not_imp_left.mpr fun hover => ?_
    -- No double lies between the rest and its rounding.
    have hrest : notional = nearestValue (cap - total) := by
      refine le_antisymm (hle.trans hallowed) ?_
      exact (nearestValue_mono (not_le.mp hover).le).trans_eq hdouble
    rwa [← hrest]
  · rintro (hexact | hback)
    · have hsum : total + notional ≤ nearestValue cap := by
        rw [hcap]
        linarith
      exact (nearestValue_le hsum).trans_eq hcap
    · exact (nearestValue_mono (add_le_add_right (hle.trans hallowed) total)).trans hback

theorem within_iff (s : TurnoverRun) (call : TurnoverCall) (hs : Granted equity s)
    (hcall : WithinGrant s call ∧ FillIsDouble call) :
    WithinCap equity (step upper equity s call) ↔ RoomFits equity s call := by
  have hcap : (step upper equity s call).cap equity = s.cap equity := step_cap s hs.books call
  cases call with
  | enforce symbol proposed session =>
    refine iff_of_true (fun session' total htotal => ?_) trivial
    rw [hcap]
    exact hs.within session' total htotal
  | restart =>
    refine iff_of_true (fun session' total htotal => ?_) trivial
    rw [hcap]
    exact hs.within session' total htotal
  | record notional session withEquity =>
    obtain ⟨⟨allowed, hgrant, hle⟩, hdouble⟩ := hcall
    obtain ⟨_, _, _, hrecord, hdb, -⟩ := record_spec hs.books.cache notional session
      (if withEquity then some equity else none)
    have hstep : (step upper equity s (.record notional session withEquity)).db =
        if notional ≤ 0 then s.db else s.db.set (session, sessionTotalSymbol)
          (nearestValue (recordedTotal s.db session + notional)) := by
      simpa only [step, hrecord] using hdb
    simp only [WithinCap, hcap, hstep, RoomFits]
    by_cases hn : notional ≤ 0
    · rw [if_pos hn]
      exact iff_of_true hs.within fun hpos => absurd hpos (not_lt.mpr hn)
    rw [if_neg hn, forall_prop_of_true (not_le.mp hn)]
    obtain ⟨-, hallowed⟩ := hs.grant session allowed hgrant (lt_of_lt_of_le (not_le.mp hn) hle)
    rw [← fill_within_iff (cap_rounded s) hdouble hle hallowed]
    constructor
    · exact fun h => h session _ (Dict.get?_set_self ..)
    · intro hfits session' total htotal
      rw [Dict.get?_set] at htotal
      split at htotal
      · obtain ⟨⟩ := htotal
        exact hfits
      · exact hs.within session' total htotal

theorem granted_step (s : TurnoverRun) (call : TurnoverCall) (hs : Granted equity s)
    (hwithin : WithinCap equity (step upper equity s call)) :
    Granted equity (step upper equity s call) := by
  refine ⟨books_step s call hs.books, hwithin, ?_⟩
  intro session' allowed hgrant hpos
  rw [step_cap s hs.books, recordedTotal_step s hs.books]
  cases call with
  | enforce symbol proposed session =>
    obtain ⟨hdecision, -⟩ := enforce_spec upper hs.books.cache symbol proposed equity session
    simp only [step, hdecision, Option.some.injEq, Prod.mk.injEq] at hgrant
    obtain ⟨rfl, rfl⟩ := hgrant
    exact allowed_within hpos
  | record notional session withEquity => simp [step] at hgrant
  | restart => exact hs.grant session' allowed hgrant hpos

/-! ## The lock between sessions -/

theorem blocked_below_cap {g : CapacityGovernor} {sym session : String}
    {proposed equity cap realized : ℚ} (hproposed : 0 < proposed) (hcap : 0 < cap)
    (hbelow : realized < cap) (hroom : 0 < nearestValue (cap - realized)) :
    (turnoverDecision g sym proposed equity cap realized session).blocked = false ↔
      g.sessionLocked = false := by
  have hallowed : 0 < min proposed (max (nearestValue (cap - realized)) 0) :=
    lt_min hproposed (lt_max_of_lt_left hroom)
  simp only [turnoverDecision, if_neg (not_le.mpr hproposed), if_neg (not_le.mpr hcap),
    if_neg (not_le.mpr hbelow)]
  cases g.sessionLocked
  · simpa using hallowed
  · simp

/-- A proposal below the cap gets through just when the lock is off, and the lock
remembers every session in breach since the restart. -/
theorem isolated_iff (s : TurnoverRun) (hs : Books s) (call : TurnoverCall) :
    Isolated upper equity s call ↔ NoneBreached equity s call := by
  cases call with
  | record notional session withEquity => exact Iff.rfl
  | restart => exact Iff.rfl
  | enforce symbol proposed session =>
    refine forall_congr' fun hproposed => forall_congr' fun hbelow => ?_
    have hcap : 0 < s.cap equity := lt_of_le_of_lt (hs.nonneg session) hbelow
    obtain ⟨hdecision, -⟩ := enforce_spec upper hs.cache symbol proposed equity session
    have hroom : 0 < nearestValue (s.cap equity - recordedTotal s.db session) := by
      rw [← cap_rounded s, ← hs.rounded session]
      refine nearestValue_sub_pos ?_
      rwa [cap_rounded s, hs.rounded session]
    rw [hdecision]
    refine (blocked_below_cap (lt_max_of_lt_left hproposed) hcap hbelow hroom).trans ?_
    rw [← Bool.not_eq_true, hs.lock, not_not]

end Runs

/-- The process starts on a new database with the given multiplier. -/
def startOf (equityTurnoverMultiplier : ℚ) : TurnoverRun :=
  { governor := { equityTurnoverMultiplier } }

theorem books_startOf (m : ℚ) : Books (startOf m) :=
  ⟨fun _ _ h => (by cases h), fun _ => le_rfl, fun _ => nearestValue_zero, (by simp [startOf])⟩

theorem granted_startOf (equity m : ℚ) : Granted equity (startOf m) :=
  ⟨books_startOf m, fun _ _ h => (by cases h), fun _ _ h => (by cases h)⟩

/-- Fills within their grants keep every session's total at its cap or below exactly when
none of them is a rounded rest of the cap that overshoots it when added back. And a proposal
for a session below its cap always gets through exactly when none comes after a breach, of
whichever session, since the last restart. -/
theorem turnover_isolated_iff (upper : String → String) (equity multiplier : ℚ)
    (calls : List TurnoverCall) (hdoubles : ∀ call ∈ calls, FillIsDouble call) :
    (Along (step upper equity) WithinGrant (startOf multiplier) calls →
        (Along (step upper equity) (fun s call => WithinCap equity (step upper equity s call))
            (startOf multiplier) calls ↔
          Along (step upper equity) (RoomFits equity) (startOf multiplier) calls)) ∧
      (Along (step upper equity) (Isolated upper equity) (startOf multiplier) calls ↔
        Along (step upper equity) (NoneBreached equity) (startOf multiplier) calls) := by
  refine ⟨fun hgrants => ?_, ?_⟩
  · exact along_congr_while_of (G := fun s call => WithinGrant s call ∧ FillIsDouble call)
      (fun s call hs _ hwithin => granted_step s call hs hwithin) within_iff calls
      (granted_startOf equity multiplier) (along_and hgrants (along_of_forall _ hdoubles))
  · exact along_congr (fun s call => books_step s call) (fun s call hs => isolated_iff s hs call)
      calls (books_startOf multiplier)

/-- The first day's turnover reaches its cap within the grants; asking once more
locks the process, and the next day's first proposal is refused. -/
def lockedNextDay : List TurnoverCall :=
  [.enforce "SPY" 100 "2026-03-02", .record 100 "2026-03-02" true, .enforce "SPY" 1 "2026-03-02",
    .enforce "SPY" 10 "2026-03-03"]

/-- The rest of a cap of 30913.44, above 6985.76, is granted as 23927.68. -/
def overshootingRest : List TurnoverCall :=
  [.enforce "SPY" (nearestValue 6985.76) "2026-03-02",
    .record (nearestValue 6985.76) "2026-03-02" true, .enforce "SPY" 30000 "2026-03-02",
    .record (nearestValue 23927.68) "2026-03-02" true]

/-- The lock outlives its day; and two doubles within their grants add up to more than
the cap. -/
theorem next_day_blocked :
    (Along (step id 100) WithinGrant (startOf 1) lockedNextDay ∧
      ¬ Along (step id 100) (Isolated id 100) (startOf 1) lockedNextDay) ∧
    Along (step id (nearestValue 10304.48)) WithinGrant (startOf 3) overshootingRest ∧
      ¬ Along (step id (nearestValue 10304.48))
        (fun s call => WithinCap (nearestValue 10304.48) (step id (nearestValue 10304.48) s call))
        (startOf 3) overshootingRest := by
  refine ⟨⟨⟨trivial, ⟨100, by decide +kernel, le_rfl⟩, trivial, trivial, trivial⟩, fun h => ?_⟩,
    ⟨trivial, ⟨nearestValue 6985.76, by decide +kernel, le_rfl⟩, trivial,
      ⟨nearestValue 23927.68, by decide +kernel, le_rfl⟩, trivial⟩, fun h => ?_⟩
  · obtain ⟨-, -, -, hlast, -⟩ := h
    exact absurd (hlast (by decide) (by decide +kernel)) (by decide +kernel)
  · obtain ⟨-, -, -, hlast, -⟩ := h
    exact absurd (hlast "2026-03-02" (nearestValue (nearestValue 6985.76 + nearestValue 23927.68))
      (by decide +kernel)) (by decide +kernel)

/-- The grants of the first day keep its total at the cap. -/
theorem first_day_within_cap :
    Along (step id 100) (fun s call => WithinCap 100 (step id 100 s call)) (startOf 1)
      lockedNextDay := by
  have hdoubles : ∀ call ∈ lockedNextDay, FillIsDouble call := by
    simp only [lockedNextDay, List.forall_mem_cons, FillIsDouble]
    exact ⟨trivial, by decide +kernel, trivial, trivial, by simp⟩
  refine ((turnover_isolated_iff id 100 1 lockedNextDay hdoubles).1
    ⟨trivial, ⟨100, by decide +kernel, le_rfl⟩, trivial, trivial, trivial⟩).mpr ?_
  exact ⟨trivial, fun _ => Or.inl (by decide +kernel), trivial, trivial, trivial⟩

end TradingPlatform.Engine.Turnover
