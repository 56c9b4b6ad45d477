import TradingPlatform.Engine.Attribution
import TradingPlatform.Lib.Moments
import TradingPlatform.Research.Resample
import Mathlib.Algebra.Order.BigOperators.Group.List
import Mathlib.Tactic.Linarith

/-! # Reconciliation of live trades with their replay

The rows of a window are added up by symbol, session and day and set against the
replay. Nothing is lost on the way: each breakdown adds up to the total. -/

namespace TradingPlatform.Engine.AttributionReconcile

open TradingPlatform.Lib TradingPlatform.Lib.Moments
open TradingPlatform.Lib.Tally (tally tallyInto)
open TradingPlatform.Persistence.LedgerReplica
open TradingPlatform.Engine.Attribution

/-! ## The report -/

structure ReplayResult where
  symbol : String
  periodPnl : ℚ
  dailyPnl : Dict String ℚ

structure SymbolBucket where
  livePnl : ℚ := 0
  replayPnl : ℚ := 0
  tradeCount : ℚ := 0
  deriving DecidableEq

namespace SymbolBucket

@[ext] theorem ext {a b : SymbolBucket} (hlive : a.livePnl = b.livePnl)
    (hreplay : a.replayPnl = b.replayPnl) (hcount : a.tradeCount = b.tradeCount) : a = b := by
  cases a
  cases b
  simp_all

instance : Zero SymbolBucket := ⟨{}⟩

instance : Add SymbolBucket :=
  ⟨fun a b => ⟨a.livePnl + b.livePnl, a.replayPnl + b.replayPnl, a.tradeCount + b.tradeCount⟩⟩

@[simp] theorem livePnl_zero : (0 : SymbolBucket).livePnl = 0 := rfl
@[simp] theorem replayPnl_zero : (0 : SymbolBucket).replayPnl = 0 := rfl
@[simp] theorem tradeCount_zero : (0 : SymbolBucket).tradeCount = 0 := rfl

@[simp] theorem livePnl_add (a b : SymbolBucket) : (a + b).livePnl = a.livePnl + b.livePnl := rfl
@[simp] theorem replayPnl_add (a b : SymbolBucket) :
    (a + b).replayPnl = a.replayPnl + b.replayPnl := rfl
@[simp] theorem tradeCount_add (a b : SymbolBucket) :
    (a + b).tradeCount = a.tradeCount + b.tradeCount := rfl

instance : AddCommMonoid SymbolBucket where
  add_assoc a b c := by ext <;> simp [add_assoc]
  zero_add a := by ext <;> simp
  add_zero a := by ext <;> simp
  add_comm a b := by ext <;> simp [add_comm]
  nsmul := nsmulRec

theorem sum_live (rows : List LiveAttributionRecord) :
    (rows.map fun row => ({ livePnl := row.pnl, tradeCount := 1 } : SymbolBucket)).sum =
      ⟨(rows.map (·.pnl)).sum, 0, rows.length⟩ := by
  induction rows with
  | nil => rfl
  | cons row rows ih =>
    rw [List.map_cons, List.sum_cons, ih]
    ext <;> simp [add_comm]

theorem sum_replay (replays : List ReplayResult) :
    (replays.map fun replay => ({ replayPnl := replay.periodPnl } : SymbolBucket)).sum =
      ⟨0, (replays.map (·.periodPnl)).sum, 0⟩ := by
  induction replays with
  | nil => rfl
  | cons replay replays ih =>
    rw [List.map_cons, List.sum_cons, ih]
    ext <;> simp

end SymbolBucket

structure ReconciliationReport where
  lookbackDays : ℤ
  liveTotalPnl : ℚ
  replayTotalPnl : ℚ
  pnlDelta : ℚ
  dailyVariance : ℚ
  varianceTolerance : ℚ
  pnlTolerance : ℚ
  breach : Bool
  perSymbol : Dict String SymbolBucket
  perSessionLive : Dict String ℚ
  perSessionReplayAlloc : Dict String ℚ

/-- `np.var(deltas, ddof=1)` of two or more. -/
def sampleVariance (deltas : List ℚ) : ℚ :=
  deviations (deltas.sum / deltas.length) deltas / (deltas.length - 1)

/-- `sorted(set(live_daily) | set(replay_daily))`. -/
def alignedDays (liveDaily replayDaily : Dict String ℚ) : List String :=
  ((liveDaily.items.map Prod.fst ++ replayDaily.items.map Prod.fst).dedup).insertionSort (· ≤ ·)

def deltaOf (liveDaily replayDaily : Dict String ℚ) (day : String) : ℚ :=
  (liveDaily.get? day).getD 0 - (replayDaily.get? day).getD 0

def alignedDailyVariance (liveDaily replayDaily : Dict String ℚ) :
    ℚ × List (String × ℚ × ℚ × ℚ) :=
  let days := alignedDays liveDaily replayDaily
  let deltas := days.map (deltaOf liveDaily replayDaily)
  let breakdown := days.map fun day =>
    (day, (liveDaily.get? day).getD 0, (replayDaily.get? day).getD 0,
      deltaOf liveDaily replayDaily day)
  if deltas.length < 2 then (0, breakdown) else (sampleVariance deltas, breakdown)

/-- `datetime.fromisoformat(...).date().isoformat()`, which raises on another text. -/
def dayOf (row : LiveAttributionRecord) : Option String :=
  (Datetime.fromisoformatUtc row.timestamp).map (·.date.isoformat)

def aggregateLiveDailyPnl (rows : List LiveAttributionRecord) : Option (Dict String ℚ) :=
  rows.foldlM (fun daily row => (dayOf row).map fun day =>
    daily.set day ((daily.get? day).getD 0 + row.pnl)) .empty

structure TrackingErrorAnalyzer where
  varianceTolerance : ℚ
  pnlTolerance : ℚ

/-- The P&L of all replays, day by day. -/
def replayDailyPnl (replayResults : List ReplayResult) : Dict String ℚ :=
  tally Prod.fst Prod.snd (replayResults.flatMap (·.dailyPnl.items))

/-- `per_symbol.setdefault(symbol, zeros)` and the additions to it. -/
def perSymbolOf (upper : String → String) (liveRows : List LiveAttributionRecord)
    (replayResults : List ReplayResult) : Dict String SymbolBucket :=
  tallyInto (·.symbol) (fun replay => { replayPnl := replay.periodPnl })
    (tally (fun row => upper row.symbol) (fun row => { livePnl := row.pnl, tradeCount := 1 })
      liveRows) replayResults

def TrackingErrorAnalyzer.analyze (a : TrackingErrorAnalyzer) (upper : String → String)
    (lookbackDays : ℤ) (liveRows : List LiveAttributionRecord)
    (replayResults : List ReplayResult) : Option ReconciliationReport := do
  let liveTotal := (liveRows.map (·.pnl)).sum
  let replayTotal := (replayResults.map (·.periodPnl)).sum
  let pnlDelta := liveTotal - replayTotal
  let liveDaily ← aggregateLiveDailyPnl liveRows
  let variance := (alignedDailyVariance liveDaily (replayDailyPnl replayResults)).1
  let perSessionLive : Dict String ℚ := tally (·.sessionType) (·.pnl) liveRows
  let sessionSum := perSessionLive.total fun _ pnl => |pnl|
  let liveSessionTotal := if sessionSum = 0 then 1 else sessionSum
  some
    { lookbackDays := lookbackDays
      liveTotalPnl := liveTotal
      replayTotalPnl := replayTotal
      pnlDelta := pnlDelta
      dailyVariance := variance
      varianceTolerance := a.varianceTolerance
      pnlTolerance := a.pnlTolerance
      breach := variance > a.varianceTolerance || |pnlDelta| > a.pnlTolerance
      perSymbol := perSymbolOf upper liveRows replayResults
      perSessionLive := perSessionLive
      perSessionReplayAlloc := perSessionLive.mapValues fun _ pnl =>
        replayTotal * (|pnl| / liveSessionTotal) }

/-! ## The days -/

theorem aggregateLiveDailyPnl_eq {rows : List LiveAttributionRecord}
    {day : LiveAttributionRecord → String} (hday : ∀ row ∈ rows, dayOf row = some (day row)) :
    aggregateLiveDailyPnl rows = some (tally day (·.pnl) rows) := by
  unfold aggregateLiveDailyPnl tally
  generalize (Dict.empty : Dict String ℚ) = daily
  induction rows generalizing daily with
  | nil => rfl
  | cons row rows ih =>
    rw [List.foldlM_cons, hday row List.mem_cons_self, Option.map_some, Option.bind_eq_bind,
      Option.bind_some, ih fun r hr => hday r (List.mem_cons_of_mem _ hr), Tally.tallyInto_cons]

/-- The values under the days of two dicts, and under those of one. -/
theorem sum_days {days : List String} (d : Dict String ℚ) (hnodup : days.Nodup)
    (hdays : ∀ day v, d.get? day = some v → day ∈ days) :
    (days.map fun day => (d.get? day).getD 0).sum = d.total fun _ v => v := by
  rw [d.sum_getD hnodup]
  exact d.total_congr fun day v hv => if_pos (hdays day v hv)

theorem mem_alignedDays {liveDaily replayDaily : Dict String ℚ} {day : String} :
    day ∈ alignedDays liveDaily replayDaily ↔
      day ∈ liveDaily.items.map Prod.fst ∨ day ∈ replayDaily.items.map Prod.fst := by
  rw [alignedDays, (List.perm_insertionSort _ _).mem_iff, List.mem_dedup, List.mem_append]

/-- The differences of the days add up to the difference of the totals. -/
theorem sum_deltas (liveDaily replayDaily : Dict String ℚ) :
    ((alignedDays liveDaily replayDaily).map (deltaOf liveDaily replayDaily)).sum =
      (liveDaily.total fun _ v => v) - replayDaily.total fun _ v => v := by
  have hnodup : (alignedDays liveDaily replayDaily).Nodup :=
    (List.perm_insertionSort _ _).nodup_iff.mpr (List.nodup_dedup _)
  have hlive := sum_days liveDaily hnodup fun day v hv =>
    mem_alignedDays.mpr (.inl (List.mem_map_of_mem (liveDaily.get?_eq_some.mp hv)))
  have hreplay := sum_days replayDaily hnodup fun day v hv =>
    mem_alignedDays.mpr (.inr (List.mem_map_of_mem (replayDaily.get?_eq_some.mp hv)))
  rw [← hlive, ← hreplay, eq_sub_iff_add_eq, ← List.sum_map_add]
  refine congrArg List.sum (List.map_congr_left fun day _ => ?_)
  rw [deltaOf, sub_add_cancel]

/-! ## What the report shows of the trades -/

section Trades
variable {h : Host}

/-- The UTC date of the first close. -/
def dayOfTrade (s : Settled h) : String := (dayOf s.row).getD ""

theorem dayOf_row (s : Settled h) : dayOf s.row = some (dayOfTrade s) := by
  obtain ⟨ts, hts, htext⟩ := s.first.utc
  obtain ⟨hutc, -⟩ := Datetime.astimezoneUtc_spec hts
  have hrow : s.row.timestamp = ts.isoformat := htext
  have hday : dayOf s.row = some ts.date.isoformat := by
    rw [dayOf, hrow, Datetime.fromisoformatUtc_isoformat hutc, Option.map_some]
  rw [dayOfTrade, hday, Option.getD_some]

/-- The P&L of the last close of each trade, added up. -/
def pnlOf (trades : List (Settled h)) : ℚ := (trades.map (·.last.trade.pnl)).sum

theorem sum_pnl {rows : List LiveAttributionRecord} {trades : List (Settled h)}
    (hperm : rows.Perm (trades.map Settled.row)) : (rows.map (·.pnl)).sum = pnlOf trades := by
  rw [(hperm.map _).sum_eq, List.map_map, pnlOf]
  exact congrArg List.sum (List.map_congr_left fun s _ => s.last.pnl)

theorem filter_row {rows : List LiveAttributionRecord} {trades : List (Settled h)}
    (hperm : rows.Perm (trades.map Settled.row)) (p : LiveAttributionRecord → Bool) :
    (rows.filter p).Perm ((trades.filter fun s => p s.row).map Settled.row) := by
  refine (hperm.filter p).trans (List.Perm.of_eq ?_)
  rw [List.filter_map]
  rfl

/-- The breakdowns of the report are those of the trades, and each adds up to the total. -/
structure Reconciles (trades : List (Settled h)) (replays : List ReplayResult)
    (report : ReconciliationReport) : Prop where
  live : report.liveTotalPnl = pnlOf trades
  symbol : ∀ sym, (report.perSymbol.get? sym).getD 0 =
    ⟨pnlOf (trades.filter fun s => h.upper s.row.symbol = sym),
      ((replays.filter (·.symbol = sym)).map (·.periodPnl)).sum,
      (trades.filter fun s => h.upper s.row.symbol = sym).length⟩
  session : ∀ session, (report.perSessionLive.get? session).getD 0 =
    pnlOf (trades.filter fun s => h.resolveTradingSession s.first.trade.timestamp = session)
  symbols : (report.perSymbol.total fun _ bucket => bucket) =
    ⟨report.liveTotalPnl, report.replayTotalPnl, trades.length⟩
  sessions : (report.perSessionLive.total fun _ pnl => pnl) = report.liveTotalPnl
  allocated : (∃ session pnl, report.perSessionLive.get? session = some pnl ∧ pnl ≠ 0) →
    (report.perSessionReplayAlloc.total fun _ pnl => pnl) = report.replayTotalPnl
  unallocated : (∀ session pnl, report.perSessionLive.get? session = some pnl → pnl = 0) →
    (report.perSessionReplayAlloc.total fun _ pnl => pnl) = 0

theorem total_alloc (d : Dict String ℚ) (replayTotal T : ℚ) :
    ((d.mapValues fun _ pnl => replayTotal * (|pnl| / T)).total fun _ pnl => pnl) =
      replayTotal * ((d.total fun _ pnl => |pnl|) / T) := by
  have hshare : (d.total fun _ pnl => |pnl| / T) = T⁻¹ * d.total fun _ pnl => |pnl| := by
    rw [← Dict.total_mul_left]
    exact d.total_congr fun _ pnl _ => div_eq_inv_mul _ _
  rw [Dict.total_mapValues, Dict.total_mul_left, hshare, div_eq_inv_mul]

theorem total_abs_eq_zero {d : Dict String ℚ} :
    (d.total fun _ pnl => |pnl|) = 0 ↔ ∀ k pnl, d.get? k = some pnl → pnl = 0 := by
  constructor
  · intro hzero k pnl hget
    have hmem : |pnl| ∈ d.items.map fun p => |p.2| :=
      List.mem_map_of_mem (f := fun p : String × ℚ => |p.2|) (d.get?_eq_some.mp hget)
    have hle := List.single_le_sum (fun x hx => ?_) _ hmem
    · exact abs_eq_zero.mp (le_antisymm (hle.trans_eq hzero) (abs_nonneg pnl))
    · obtain ⟨p, -, rfl⟩ := List.mem_map.mp hx
      exact abs_nonneg _
  · intro hzero
    have hcongr : (d.total fun _ pnl => |pnl|) = d.total fun _ _ => (0 : ℚ) :=
      d.total_congr fun k pnl hget => by rw [hzero k pnl hget, abs_zero]
    rw [hcongr, Dict.total]
    simp

variable {trades : List (Settled h)} {rows : List LiveAttributionRecord}

theorem getD_perSymbolOf (hperm : rows.Perm (trades.map Settled.row)) (replays : List ReplayResult)
    (sym : String) :
    ((perSymbolOf h.upper rows replays).get? sym).getD 0 =
      ⟨pnlOf (trades.filter fun s => h.upper s.row.symbol = sym),
        ((replays.filter (·.symbol = sym)).map (·.periodPnl)).sum,
        (trades.filter fun s => h.upper s.row.symbol = sym).length⟩ := by
  have hrows := filter_row hperm fun row => h.upper row.symbol = sym
  rw [perSymbolOf, Tally.getD_tallyInto, Tally.getD_tally, SymbolBucket.sum_live,
    SymbolBucket.sum_replay, sum_pnl hrows, hrows.length_eq, List.length_map]
  ext <;> simp

theorem total_perSymbolOf (hperm : rows.Perm (trades.map Settled.row))
    (replays : List ReplayResult) :
    ((perSymbolOf h.upper rows replays).total fun _ bucket => bucket) =
      ⟨pnlOf trades, (replays.map (·.periodPnl)).sum, trades.length⟩ := by
  rw [perSymbolOf, Tally.total_tallyInto, Tally.total_tally, SymbolBucket.sum_live,
    SymbolBucket.sum_replay, sum_pnl hperm, hperm.length_eq, List.length_map]
  ext <;> simp

theorem aggregate_trades (hperm : rows.Perm (trades.map Settled.row)) :
    aggregateLiveDailyPnl rows = some (tally (fun row => (dayOf row).getD "") (·.pnl) rows) := by
  refine aggregateLiveDailyPnl_eq fun row hrow => ?_
  obtain ⟨s, -, rfl⟩ := List.mem_map.mp (hperm.mem_iff.mp hrow)
  exact dayOf_row s

theorem analyze_reconciles (hperm : rows.Perm (trades.map Settled.row))
    (a : TrackingErrorAnalyzer) (lookbackDays : ℤ) (replays : List ReplayResult) :
    ∃ report, a.analyze h.upper lookbackDays rows replays = some report ∧
      Reconciles trades replays report := by
  rw [TrackingErrorAnalyzer.analyze, aggregate_trades hperm]
  refine ⟨_, rfl, ?_⟩
  have hlive : (rows.map (·.pnl)).sum = pnlOf trades := sum_pnl hperm
  refine ⟨hlive, getD_perSymbolOf hperm replays, fun session => ?_, ?_, ?_, ?_, ?_⟩
  · have hsession := filter_row hperm fun row => row.sessionType = session
    have hsame : (trades.filter fun s => s.row.sessionType = session) =
        trades.filter fun s => h.resolveTradingSession s.first.trade.timestamp = session := by
      refine List.filter_congr fun s _ => ?_
      rw [show s.row.sessionType = s.first.record.sessionType from rfl, s.first.sessionType]
    rw [← hsame, ← sum_pnl hsession]
    exact Tally.getD_tally _ _ _ _
  · rw [total_perSymbolOf hperm, hlive]
  · exact Tally.total_tally _ _ _
  · rintro ⟨session, pnl, hget, hne⟩
    have hpos : (tally (·.sessionType) (·.pnl) rows).total (fun _ pnl => |pnl|) ≠ 0 :=
      fun hzero => hne (total_abs_eq_zero.mp hzero session pnl hget)
    dsimp only
    rw [total_alloc, if_neg hpos, div_self hpos, mul_one]
  · intro hzero
    dsimp only
    rw [total_alloc, total_abs_eq_zero.mpr hzero, zero_div, mul_zero]

end Trades

/-! ## What no breach means -/

/-- `(δ - mean)²` is at most the sum of all of them. -/
theorem sq_le_deviations (m : ℚ) {xs : List ℚ} {x : ℚ} (hx : x ∈ xs) :
    (x - m) * (x - m) ≤ deviations m xs := by
  refine List.single_le_sum (fun y hy => ?_) _ (List.mem_map_of_mem hx)
  obtain ⟨z, -, rfl⟩ := List.mem_map.mp hy
  exact mul_self_nonneg _

theorem sq_le_variance (liveDaily replayDaily : Dict String ℚ) {day : String}
    (hday : day ∈ alignedDays liveDaily replayDaily) :
    (deltaOf liveDaily replayDaily day -
        ((alignedDays liveDaily replayDaily).map (deltaOf liveDaily replayDaily)).sum /
          (alignedDays liveDaily replayDaily).length) ^ 2 ≤
      ((alignedDays liveDaily replayDaily).length - 1) *
        (alignedDailyVariance liveDaily replayDaily).1 := by
  have hmem := List.mem_map_of_mem (f := deltaOf liveDaily replayDaily) hday
  have hpos : 0 < (alignedDays liveDaily replayDaily).length := List.length_pos_of_mem hday
  rw [alignedDailyVariance, List.length_map]
  generalize hdeltas : (alignedDays liveDaily replayDaily).map (deltaOf liveDaily replayDaily) = xs
    at *
  have hlen : xs.length = (alignedDays liveDaily replayDaily).length := by
    rw [← hdeltas, List.length_map]
  rw [← hlen] at hpos ⊢
  split_ifs with htwo
  · obtain ⟨x, rfl⟩ := List.length_eq_one_iff.mp (show xs.length = 1 by omega)
    rw [List.mem_singleton.mp hmem]
    simp
  · have hn : (0 : ℚ) < xs.length - 1 := by
      have : (2 : ℚ) ≤ xs.length := by exact_mod_cast not_lt.mp htwo
      linarith
    rw [sq, sampleVariance, mul_div_cancel₀ _ hn.ne']
    exact sq_le_deviations _ hmem

theorem variance_eq_zero {liveDaily replayDaily : Dict String ℚ}
    (hzero : ∀ day, deltaOf liveDaily replayDaily day = 0) :
    (alignedDailyVariance liveDaily replayDaily).1 = 0 := by
  have hdeltas : (alignedDays liveDaily replayDaily).map (deltaOf liveDaily replayDaily) =
      (alignedDays liveDaily replayDaily).map fun _ => 0 :=
    List.map_congr_left fun day _ => hzero day
  rw [alignedDailyVariance]
  split_ifs
  · rfl
  · simp [hdeltas, sampleVariance, deviations]

section Quiet
variable {h : Host} {trades : List (Settled h)} {rows : List LiveAttributionRecord}

/-- What the trades first closed on a day made. -/
def liveOn (trades : List (Settled h)) (day : String) : ℚ :=
  pnlOf (trades.filter fun s => dayOfTrade s = day)

/-- What the replays made on a day. -/
def replayOn (replays : List ReplayResult) (day : String) : ℚ :=
  (replays.map fun replay => (replay.dailyPnl.get? day).getD 0).sum

/-- How far live is ahead of replay on a day. -/
def gapOn (trades : List (Settled h)) (replays : List ReplayResult) (day : String) : ℚ :=
  liveOn trades day - replayOn replays day

/-- The days with a trade or a replayed P&L. -/
def activeDays (trades : List (Settled h)) (replays : List ReplayResult) : List String :=
  (trades.map dayOfTrade ++ replays.flatMap fun replay => replay.dailyPnl.items.map Prod.fst).dedup

theorem getD_replayDailyPnl (replays : List ReplayResult) (day : String) :
    ((replayDailyPnl replays).get? day).getD 0 = replayOn replays day := by
  rw [replayDailyPnl, Tally.getD_tally, replayOn]
  induction replays with
  | nil => rfl
  | cons replay replays ih =>
    rw [List.flatMap_cons, List.filter_append, List.map_append, List.sum_append, ih, List.map_cons,
      List.sum_cons]
    rw [← Tally.sum_items_at]

theorem total_replayDailyPnl (replays : List ReplayResult) :
    ((replayDailyPnl replays).total fun _ v => v) =
      (replays.map fun replay => replay.dailyPnl.total fun _ v => v).sum := by
  rw [replayDailyPnl, Tally.total_tally]
  induction replays with
  | nil => rfl
  | cons replay replays ih =>
    rw [List.flatMap_cons, List.map_append, List.sum_append, ih, List.map_cons, List.sum_cons]
    rfl

theorem getD_live (hperm : rows.Perm (trades.map Settled.row)) (day : String) :
    ((tally (fun row => (dayOf row).getD "") (·.pnl) rows).get? day).getD 0 =
      liveOn trades day := by
  rw [Tally.getD_tally, sum_pnl (filter_row hperm _)]
  rfl

theorem alignedDays_perm (hperm : rows.Perm (trades.map Settled.row))
    (replays : List ReplayResult) :
    (alignedDays (tally (fun row => (dayOf row).getD "") (·.pnl) rows)
      (replayDailyPnl replays)).Perm (activeDays trades replays) := by
  refine (List.perm_insertionSort _ _).trans ?_
  refine (List.perm_ext_iff_of_nodup (List.nodup_dedup _) (List.nodup_dedup _)).mpr fun day => ?_
  have hrows : (rows.map fun row => (dayOf row).getD "").Perm (trades.map dayOfTrade) := by
    have hmap := hperm.map fun row => (dayOf row).getD ""
    rwa [List.map_map] at hmap
  rw [List.mem_dedup, List.mem_dedup, List.mem_append, List.mem_append, tally, replayDailyPnl,
    tally, Tally.mem_keys_tallyInto, Tally.mem_keys_tallyInto, hrows.mem_iff, List.map_flatMap]
  simp [Dict.empty]

/-- A report that does not breach; the second half with the replays' days adding up to their
periods. -/
theorem analyze_quiet (hperm : rows.Perm (trades.map Settled.row)) {a : TrackingErrorAnalyzer}
    {lookbackDays : ℤ} {replays : List ReplayResult} {report : ReconciliationReport}
    (hreport : a.analyze h.upper lookbackDays rows replays = some report) :
    (report.breach = false → |report.pnlDelta| ≤ a.pnlTolerance ∧
      ∀ day ∈ activeDays trades replays,
        (gapOn trades replays day - ((activeDays trades replays).map (gapOn trades replays)).sum /
            (activeDays trades replays).length) ^ 2 ≤
          ((activeDays trades replays).length - 1) * a.varianceTolerance) ∧
      ((∀ r ∈ replays, (r.dailyPnl.total fun _ v => v) = r.periodPnl) →
        ((activeDays trades replays).map (gapOn trades replays)).sum = report.pnlDelta ∧
        (a.varianceTolerance = 0 → a.pnlTolerance = 0 →
          (report.breach = false ↔ ∀ day, liveOn trades day = replayOn replays day))) := by
  set live := tally (fun row => (dayOf row).getD "") (·.pnl) rows with hlive
  have hdays := alignedDays_perm hperm replays
  have hdelta : deltaOf live (replayDailyPnl replays) = gapOn trades replays := by
    funext day
    rw [deltaOf, getD_live hperm, getD_replayDailyPnl, gapOn]
  have hsum : ((alignedDays live (replayDailyPnl replays)).map (gapOn trades replays)).sum =
      ((activeDays trades replays).map (gapOn trades replays)).sum := (hdays.map _).sum_eq
  rw [TrackingErrorAnalyzer.analyze, aggregate_trades hperm] at hreport
  obtain rfl := Option.some.inj hreport
  have hbreach : ((decide ((alignedDailyVariance live (replayDailyPnl replays)).1 >
        a.varianceTolerance) || decide (|(rows.map (·.pnl)).sum - (replays.map (·.periodPnl)).sum| >
        a.pnlTolerance)) = false) ↔
      (alignedDailyVariance live (replayDailyPnl replays)).1 ≤ a.varianceTolerance ∧
        |(rows.map (·.pnl)).sum - (replays.map (·.periodPnl)).sum| ≤ a.pnlTolerance := by
    simp
  have htotal : (∀ r ∈ replays, (r.dailyPnl.total fun _ v => v) = r.periodPnl) →
      ((activeDays trades replays).map (gapOn trades replays)).sum =
        (rows.map (·.pnl)).sum - (replays.map (·.periodPnl)).sum := by
    intro hreplays
    have hdeltas := sum_deltas live (replayDailyPnl replays)
    rw [hdelta, hsum] at hdeltas
    rw [hdeltas, hlive, Tally.total_tally, total_replayDailyPnl, List.map_congr_left hreplays]
  dsimp only at hbreach htotal ⊢
  generalize (rows.map (·.pnl)).sum - (replays.map (·.periodPnl)).sum = pnlDelta at *
  rw [hbreach]
  have hbound : (alignedDailyVariance live (replayDailyPnl replays)).1 ≤ a.varianceTolerance →
      ∀ day ∈ activeDays trades replays,
        (gapOn trades replays day - ((activeDays trades replays).map (gapOn trades replays)).sum /
            (activeDays trades replays).length) ^ 2 ≤
          ((activeDays trades replays).length - 1) * a.varianceTolerance := by
    intro hquiet day hday
    have hsq := sq_le_variance live (replayDailyPnl replays) (hdays.mem_iff.mpr hday)
    have hpos : (1 : ℚ) ≤ (activeDays trades replays).length := by
      exact_mod_cast List.length_pos_of_mem hday
    rw [hdelta, hsum, hdays.length_eq] at hsq
    exact hsq.trans (mul_le_mul_of_nonneg_left hquiet (by linarith))
  refine ⟨fun ⟨hvariance, hpnl⟩ => ⟨hpnl, hbound hvariance⟩, fun hreplays =>
    ⟨htotal hreplays, fun hvar hpnl => ⟨?_, ?_⟩⟩⟩
  · rintro ⟨hvariance, hle⟩ day
    have hzero : pnlDelta = 0 := by
      rw [hpnl] at hle
      exact abs_eq_zero.mp (le_antisymm hle (abs_nonneg _))
    by_cases hday : day ∈ activeDays trades replays
    · have hsq := hbound hvariance day hday
      rw [htotal hreplays, hvar, mul_zero, hzero, zero_div, sub_zero] at hsq
      have heq := pow_eq_zero_iff (two_ne_zero) |>.mp (le_antisymm hsq (sq_nonneg _))
      exact sub_eq_zero.mp heq
    · rw [← hdays.mem_iff, mem_alignedDays, not_or] at hday
      have hgap : gapOn trades replays day = 0 := by
        rw [← hdelta, deltaOf, (Dict.get?_eq_none _).mpr hday.1, (Dict.get?_eq_none _).mpr hday.2]
        exact sub_self _
      exact sub_eq_zero.mp hgap
  · intro hsame
    have hgap : ∀ day, gapOn trades replays day = 0 := fun day => sub_eq_zero.mpr (hsame day)
    have hnone := htotal hreplays
    rw [List.map_congr_left fun day _ => hgap day] at hnone
    rw [variance_eq_zero fun day => (congrFun hdelta day).trans (hgap day), ← hnone, hvar, hpnl]
    simp

end Quiet

/-! ## From the ledger -/

section Ledger
variable {h : Host} {batches : List (List (Logged h))} {start stop : Datetime}
  {symbol : Option String} {rows : List LedgerRow}

/-- **Nothing is lost.** Of the trades first closed in the window, each counts once,
with the P&L of its last close, in the total and in every breakdown. -/
theorem reconciliation_conserves
    (hfetch : fetchAttributionRows h (ledgerOf batches) start stop symbol = some rows)
    (a : TrackingErrorAnalyzer) (lookbackDays : ℤ) (replays : List ReplayResult) :
    ∃ report, a.analyze h.upper lookbackDays (rows.map (·.record)) replays = some report ∧
      Reconciles ((settled batches.flatten).filter fun s => InWindow start stop symbol s) replays
        report :=
  analyze_reconciles (fetched_perm hfetch) a lookbackDays replays

/-- **A report that does not breach bounds every day.** The variance only compares
the days with each other. Where the days of every replay add up to its period, the total
is theirs, and at zero tolerances the two hold each day. Arithmetic is exact. -/
theorem quiet_report_bounds_days
    (hfetch : fetchAttributionRows h (ledgerOf batches) start stop symbol = some rows)
    {a : TrackingErrorAnalyzer} {lookbackDays : ℤ} {replays : List ReplayResult}
    {report : ReconciliationReport}
    (hreport : a.analyze h.upper lookbackDays (rows.map (·.record)) replays = some report) :
    let trades := (settled batches.flatten).filter fun s => InWindow start stop symbol s
    let days := activeDays trades replays
    let total := (days.map (gapOn trades replays)).sum
    (report.breach = false → |report.pnlDelta| ≤ a.pnlTolerance ∧ ∀ day ∈ days,
      (gapOn trades replays day - total / days.length) ^ 2 ≤
        (days.length - 1) * a.varianceTolerance) ∧
      ((∀ r ∈ replays, (r.dailyPnl.total fun _ v => v) = r.periodPnl) →
        total = report.pnlDelta ∧ (a.varianceTolerance = 0 → a.pnlTolerance = 0 →
          (report.breach = false ↔ ∀ day, liveOn trades day = replayOn replays day))) :=
  analyze_quiet (fetched_perm hfetch) hreport

end Ledger

/-! ## A trade closed twice -/

theorem reconciliation_conserves_revised :
    ∃ rows report,
      fetchAttributionRows deskHost (ledgerOf [[qqqLogged 10], [qqqLogged 12]]) newYear
        endOfJanuary none = some rows ∧
      (TrackingErrorAnalyzer.mk 1 1).analyze id 30 (rows.map (·.record)) [] = some report ∧
      report.liveTotalPnl = 12 := by
  obtain ⟨rows, hrows⟩ := january_fetches [[qqqLogged 10], [qqqLogged 12]]
  obtain ⟨report, hreport, hshows⟩ := reconciliation_conserves hrows ⟨1, 1⟩ 30 []
  refine ⟨rows, report, hrows, hreport, ?_⟩
  rw [hshows.live]
  decide +kernel

/-- A replay that made 11 on the day the trade made 12. -/
def offByOne : ReplayResult where
  symbol := "QQQ"
  periodPnl := 11
  dailyPnl := Dict.empty.set "2024-01-02" 11

theorem quiet_report_bounds_days_off_by_one :
    ∃ rows report,
      fetchAttributionRows deskHost (ledgerOf [[qqqLogged 10], [qqqLogged 12]]) newYear
        endOfJanuary none = some rows ∧
      (TrackingErrorAnalyzer.mk 0 0).analyze id 30 (rows.map (·.record)) [offByOne] =
        some report ∧ report.breach = true := by
  obtain ⟨rows, hrows⟩ := january_fetches [[qqqLogged 10], [qqqLogged 12]]
  obtain ⟨report, hreport, -⟩ := analyze_reconciles (fetched_perm hrows) ⟨0, 0⟩ 30 [offByOne]
  have hreplays : ∀ r ∈ [offByOne], (r.dailyPnl.total fun _ v => v) = r.periodPnl := by
    simp [offByOne, Dict.total, Dict.set, Dict.setItems, Dict.empty]
  obtain ⟨-, hiff⟩ := (quiet_report_bounds_days hrows hreport).2 hreplays
  refine ⟨rows, report, hrows, hreport, (Bool.eq_false_or_eq_true _).resolve_right fun hquiet => ?_⟩
  exact absurd ((hiff rfl rfl).mp hquiet "2024-01-02") (by decide +kernel)

end TradingPlatform.Engine.AttributionReconcile
