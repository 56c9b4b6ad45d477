import TradingPlatform.Engine.Attribution
import TradingPlatform.Lib.Ring
import TradingPlatform.Lib.Runs
import TradingPlatform.Models
import TradingPlatform.Research.Resample
import Mathlib.Tactic.Linarith
import Mathlib.Tactic.NormNum

/-! # The execution feedback loop

Fills and their markouts go into windows of the last twenty and into a ledger, noted
bar volumes into a track for each symbol. How urgently an order is routed depends on
the markouts, how large it may be on the volumes. -/

namespace TradingPlatform.Engine.ExecutionFeedback

open TradingPlatform.Lib TradingPlatform.Lib.Ring TradingPlatform.Lib.Runs
open TradingPlatform.Research.Resample (median)
open TradingPlatform.Engine.Attribution (ExecutionDriftDiagnostics)

def slippageFeedbackWindow : ℕ := 20
def alphaDecayUrgencyBps : ℚ := 8
def bookPressurePassiveThreshold : ℚ := 65 / 100
def bookPressureAggressiveThreshold : ℚ := 35 / 100
def minExpectedEdgeBps : ℚ := 5
def participationVolLookback : ℕ := 40
def participationVolFloorMult : ℚ := 35 / 100
def participationVolCeilingMult : ℚ := 1
def participationSizeImpactCeiling : ℚ := 1 / 2
def participationAdvNotionalFraction : ℚ := 2 / 100

/-- `float(x or default)`: an absent number and a zero are the default. -/
def numberOr (x : Option ℚ) (default : ℚ) : ℚ :=
  match x with
  | none => default
  | some v => if v = 0 then default else v

def textOr (x : Option String) (default : String) : String :=
  match x with
  | none => default
  | some s => if s = "" then default else s

def mean (xs : List ℚ) : ℚ := xs.sum / xs.length

/-- `np.clip`. -/
def clip (x lo hi : ℚ) : ℚ := min (max x lo) hi

/-! ## Fills and markouts -/

inductive SizeBucket
  | micro
  | small
  | medium
  | large
  deriving DecidableEq

def classifyOrderSizeBucket (qty : ℚ) : SizeBucket :=
  if |qty| < 50 then .micro
  else if |qty| < 200 then .small
  else if |qty| < 1000 then .medium
  else .large

structure FillData where
  tradeId : Option String := none
  timestamp : Datetime
  strategyId : Option String := none
  symbol : Option String := none
  side : Option String := none
  qty : Option ℚ := none
  expectedPrice : Option ℚ := none
  filledPrice : Option ℚ := none
  expectedSlippagePct : Option ℚ := none
  routingPosture : Option String := none
  participationCapPct : Option ℚ := none

structure FeedbackRow where
  tradeId : String
  timestamp : String
  strategyId : String
  symbol : String
  side : String
  qty : ℚ
  expectedPrice : ℚ
  filledPrice : ℚ
  expectedSlippagePct : ℚ
  realizedSlippagePct : ℚ
  slippageDeltaPct : ℚ
  sessionType : String
  sizeBucket : SizeBucket
  routingPosture : String
  participationCapPct : ℚ
  markout1m : Option ℚ := none
  markout5m : Option ℚ := none
  markout30m : Option ℚ := none
  deriving DecidableEq

structure SubsequentBar where
  timestamp : Datetime
  close : Option ℚ := none

structure MarkoutHorizonResult where
  horizonMinutes : ℕ
  markoutBps : ℚ
  referencePrice : ℚ
  driftPrice : ℚ

structure StratifiedMarkoutBreakdown where
  sessionType : String
  sizeBucket : SizeBucket
  oneMinute : MarkoutHorizonResult
  fiveMinutes : MarkoutHorizonResult
  thirtyMinutes : MarkoutHorizonResult
  implementationShortfallBps : ℚ

/-- What comes from Python and from the risk manager. -/
structure Desk where
  upper : String → String
  lower : String → String
  resolveTradingSession : Datetime → String
  realizedSlippagePct : ℚ → ℚ → Side → ℚ
  thinLiquidityParticipationMult : ℚ

section Fills
variable (desk : Desk)

def coerceSide (value : Option String) : Side :=
  let token := desk.lower (textOr value "")
  if token = "buy" ∨ token = "long" then .buy else .sell

/-- The close of the first bar nearest to the target, 0 without a bar. -/
def markoutPriceAt (target : ℤ) (bars : List (ℤ × ℚ)) : ℚ :=
  let best := bars.foldl (fun (best : Option (ℤ × ℚ)) bar =>
    match best with
    | none => some bar
    | some b => if |bar.1 - target| < |b.1 - target| then some bar else some b) none
  best.elim 0 Prod.snd

/-- The row of a fill; it raises where the time has no UTC time. -/
def rowOf (fill : FillData) : Option FeedbackRow :=
  fill.timestamp.astimezoneUtc.map fun ts =>
    let expected := numberOr fill.expectedPrice 0
    let filled := numberOr fill.filledPrice 0
    let expectedSlippage := numberOr fill.expectedSlippagePct 0
    let realized := desk.realizedSlippagePct expected filled (coerceSide desk fill.side)
    { tradeId := textOr fill.tradeId ""
      timestamp := ts.isoformat
      strategyId := textOr fill.strategyId ""
      symbol := desk.upper (textOr fill.symbol "")
      side := textOr fill.side ""
      qty := numberOr fill.qty 0
      expectedPrice := expected
      filledPrice := filled
      expectedSlippagePct := expectedSlippage
      realizedSlippagePct := realized
      slippageDeltaPct := realized - expectedSlippage
      sessionType := desk.resolveTradingSession ts
      sizeBucket := classifyOrderSizeBucket (numberOr fill.qty 0)
      routingPosture := textOr fill.routingPosture "BALANCED_IOC"
      participationCapPct := numberOr fill.participationCapPct 0 }

def horizonResult (fillMicros : ℤ) (bars : List (ℤ × ℚ)) (side : Side) (fillPrice : ℚ)
    (minutes : ℕ) : MarkoutHorizonResult :=
  let drift := markoutPriceAt (fillMicros + minutes * 60000000) bars
  let sign : ℚ := if side = .buy then 1 else -1
  { horizonMinutes := minutes
    markoutBps := if drift ≤ 0 ∨ fillPrice ≤ 0 then 0
      else (drift - fillPrice) / fillPrice * sign * 10000
    referencePrice := fillPrice
    driftPrice := drift }

/-- `calculate_post_fill_markouts` up to its writes; it raises where a time has no UTC
time. -/
def breakdownOf (fill : FillData) (subsequentBars : List SubsequentBar) :
    Option StratifiedMarkoutBreakdown := do
  let ts ← fill.timestamp.astimezoneUtc
  let bars ← subsequentBars.mapM fun bar =>
    bar.timestamp.astimezoneUtc.map fun t => (t.instant.micros, numberOr bar.close 0)
  let fillPrice := numberOr fill.filledPrice 0
  let expected := numberOr fill.expectedPrice fillPrice
  let horizon := horizonResult ts.instant.micros bars (coerceSide desk fill.side) fillPrice
  some
    { sessionType := desk.resolveTradingSession ts
      sizeBucket := classifyOrderSizeBucket (numberOr fill.qty 0)
      oneMinute := horizon 1
      fiveMinutes := horizon 5
      thirtyMinutes := horizon 30
      implementationShortfallBps :=
        if 0 < fillPrice then
          |(fillPrice - expected) / fillPrice| * 10000 - (horizon 5).markoutBps
        else 0 }

end Fills

/-! ## The loop -/

structure FeedbackLoop where
  slippageWindow : List ℚ := []
  markoutWindow : List ℚ := []
  volumeTracks : Dict String (List ℚ) := .empty
  ledger : List FeedbackRow := []

/-- `stored` says whether the database takes the write of the call; where it does not,
the call raises after the windows are changed. -/
inductive Op
  | processFill (fill : FillData) (stored : Bool)
  | markouts (fill : FillData) (bars : List SubsequentBar) (stored : Bool)
  | volume (symbol : String) (barVolume : ℚ)

def FeedbackRow.revise (row : FeedbackRow) (b : StratifiedMarkoutBreakdown) : FeedbackRow :=
  { row with
    markout1m := some b.oneMinute.markoutBps
    markout5m := some b.fiveMinutes.markoutBps
    markout30m := some b.thirtyMinutes.markoutBps }

section Loop
variable (desk : Desk)

def processFill (s : FeedbackLoop) (fill : FillData) (stored : Bool) : FeedbackLoop :=
  match rowOf desk fill with
  | none => s
  | some row =>
    { s with
      slippageWindow := appendBounded slippageFeedbackWindow s.slippageWindow
        row.realizedSlippagePct
      ledger := if stored then s.ledger ++ [row] else s.ledger }

def calculatePostFillMarkouts (s : FeedbackLoop) (fill : FillData) (bars : List SubsequentBar)
    (stored : Bool) : FeedbackLoop :=
  match breakdownOf desk fill bars with
  | none => s
  | some b =>
    let tradeId := textOr fill.tradeId ""
    { s with
      markoutWindow := appendBounded slippageFeedbackWindow s.markoutWindow
        b.fiveMinutes.markoutBps
      ledger := if stored && tradeId ≠ "" then
          s.ledger.map fun row => if row.tradeId = tradeId then row.revise b else row
        else s.ledger }

def updateVolumeTrack (s : FeedbackLoop) (symbol : String) (barVolume : ℚ) : FeedbackLoop :=
  let key := desk.upper symbol
  let track := (s.volumeTracks.get? key).getD []
  let noted := appendBounded participationVolLookback track (max barVolume 0)
  { s with volumeTracks := s.volumeTracks.set key noted }

def step (s : FeedbackLoop) : Op → FeedbackLoop
  | .processFill fill stored => processFill desk s fill stored
  | .markouts fill bars stored => calculatePostFillMarkouts desk s fill bars stored
  | .volume symbol barVolume => updateVolumeTrack desk s symbol barVolume

end Loop

/-! ## Routing -/

inductive RoutingPosture
  | passiveNbbo
  | balancedIoc
  | aggressiveTaker
  deriving DecidableEq

structure RoutingUrgencyDecision where
  posture : RoutingPosture
  aggressiveness : ℚ
  alphaDecayBps : ℚ
  expectedEdgeBps : ℚ
  bookPressure : ℚ
  reason : String

def RoutingUrgencyDecision.toExecutionDiagnostics (d : RoutingUrgencyDecision)
    (base : ExecutionDriftDiagnostics) : ExecutionDriftDiagnostics :=
  match d.posture with
  | .passiveNbbo =>
    { base with driftMultiple := max base.driftMultiple 2, elevated := true, critical := false }
  | .aggressiveTaker =>
    { base with
      driftMultiple := min base.driftMultiple (3 / 2), elevated := false, critical := false }
  | .balancedIoc => base

structure UrgencyContext where
  forceAggressiveIoc : Bool := false
  expectedEdgeBps : Option ℚ := none
  modeledSlippageBps : Option ℚ := none
  bookPressure : Option ℚ := none
  alphaDecayBps : Option ℚ := none
  depthConfidence : Option String := none

def emergencyFlattenUrgencyContext : UrgencyContext where
  expectedEdgeBps := some 100
  bookPressure := some 0
  alphaDecayBps := some alphaDecayUrgencyBps
  modeledSlippageBps := some 0

def determineEmergencyFlattenUrgency : RoutingUrgencyDecision where
  posture := .aggressiveTaker
  aggressiveness := 1
  alphaDecayBps := alphaDecayUrgencyBps
  expectedEdgeBps := 100
  bookPressure := 0
  reason := "emergency_flatten_protocol"

/-- The decay the markouts show, or what the context says while there are none. -/
def FeedbackLoop.alphaDecayBps (s : FeedbackLoop) (ctx : UrgencyContext) : ℚ :=
  if s.markoutWindow ≠ [] then max 0 (-mean s.markoutWindow)
  else max 0 (numberOr ctx.alphaDecayBps 0)

def FeedbackLoop.determineRoutingUrgency (s : FeedbackLoop) (ctx : UrgencyContext) :
    RoutingUrgencyDecision :=
  if ctx.forceAggressiveIoc then
    { posture := .balancedIoc, aggressiveness := 1, alphaDecayBps := 0
      expectedEdgeBps := numberOr ctx.expectedEdgeBps 0
      bookPressure := max 0 (min 1 (numberOr ctx.bookPressure 0))
      reason := "low_confidence_depth_defensive_ioc" }
  else
    let depthConfidence := textOr ctx.depthConfidence "high"
    let edge := numberOr ctx.expectedEdgeBps 0
    let pressure := max 0 (min 1 (numberOr ctx.bookPressure (1 / 2)))
    let decay := ctx.alphaDecayBps.getD (s.alphaDecayBps ctx)
    let urgencyScore := edge - decay - numberOr ctx.modeledSlippageBps 5
    if depthConfidence = "low" ∨ depthConfidence = "unavailable" then
      { posture := .balancedIoc, aggressiveness := 1, alphaDecayBps := decay
        expectedEdgeBps := edge, bookPressure := pressure
        reason := "thin_or_missing_depth_defensive_ioc" }
    else if alphaDecayUrgencyBps ≤ decay ∧ minExpectedEdgeBps ≤ edge ∧
        pressure ≤ bookPressureAggressiveThreshold then
      { posture := .aggressiveTaker, aggressiveness := 1, alphaDecayBps := decay
        expectedEdgeBps := edge, bookPressure := pressure, reason := "alpha_decay_with_edge" }
    else if bookPressurePassiveThreshold ≤ pressure ∨ urgencyScore < 0 then
      { posture := .passiveNbbo, aggressiveness := if 0 ≤ urgencyScore then 1 / 2 else 35 / 100
        alphaDecayBps := decay, expectedEdgeBps := edge, bookPressure := pressure
        reason := "book_pressure_or_negative_urgency" }
    else
      { posture := .balancedIoc, aggressiveness := 3 / 4, alphaDecayBps := decay
        expectedEdgeBps := edge, bookPressure := pressure, reason := "balanced_default" }

/-! ## Participation -/

structure ParticipationContext where
  symbol : Option String := none
  baseCapPct : Option ℚ := none
  orderNotional : Option ℚ := none
  thinLiquidityActive : Bool := false
  trailingVolumes : List ℚ := []
  referencePrice : Option ℚ := none

structure ParticipationCapDecision where
  participationCapPct : ℚ
  volImpactScalar : ℚ
  sizeImpactScalar : ℚ
  trailingVolume : ℚ
  referenceVolume : ℚ
  thinLiquidityActive : Bool

/-- The cap on given volumes. -/
def capOn (desk : Desk) (volumes : List ℚ) (ctx : ParticipationContext) :
    ParticipationCapDecision :=
  let baseCap := numberOr ctx.baseCapPct (95 / 100)
  let orderNotional := numberOr ctx.orderNotional 0
  let trailing := volumes.getLast?.getD 0
  let reference := if median volumes ≤ 0 then max trailing 1 else median volumes
  let volImpact := clip (trailing / reference) participationVolFloorMult
    participationVolCeilingMult
  let advNotional := reference * numberOr ctx.referencePrice 1
  let sizePressure :=
    if 0 < advNotional ∧ 0 < orderNotional then
      min participationSizeImpactCeiling
        (orderNotional / max (advNotional * participationAdvNotionalFraction) (1 / 1000000000))
    else 0
  let cap := baseCap * volImpact * (1 - sizePressure)
  let cap := if ctx.thinLiquidityActive then cap * desk.thinLiquidityParticipationMult else cap
  { participationCapPct := max 0 (min baseCap cap)
    volImpactScalar := volImpact
    sizeImpactScalar := 1 - sizePressure
    trailingVolume := trailing
    referenceVolume := reference
    thinLiquidityActive := ctx.thinLiquidityActive }

def FeedbackLoop.resolveParticipationCap (desk : Desk) (s : FeedbackLoop)
    (ctx : ParticipationContext) : ParticipationCapDecision :=
  let track := (s.volumeTracks.get? (desk.upper (textOr ctx.symbol ""))).getD []
  let volumes :=
    if ctx.trailingVolumes ≠ [] then ctx.trailingVolumes
    else if track ≠ [] then track
    else [0]
  capOn desk volumes ctx

/-! ## What a history comes to -/

section History
variable (desk : Desk)

/-- The realized slippage of a fill. -/
def realizedOf : Op → Option ℚ
  | .processFill fill _ => (rowOf desk fill).map (·.realizedSlippagePct)
  | .markouts .. => none
  | .volume .. => none

/-- The markout over five minutes. -/
def fiveMinuteOf : Op → Option ℚ
  | .processFill .. => none
  | .markouts fill bars _ => (breakdownOf desk fill bars).map (·.fiveMinutes.markoutBps)
  | .volume .. => none

/-- The volume noted under a key. -/
def volumeOf (key : String) : Op → Option ℚ
  | .processFill .. => none
  | .markouts .. => none
  | .volume symbol barVolume => if desk.upper symbol = key then some (max barVolume 0) else none

/-- The row a stored fill inserts. -/
def inserts : Op → Option FeedbackRow
  | .processFill fill stored => if stored then rowOf desk fill else none
  | .markouts .. => none
  | .volume .. => none

/-- The breakdown stored for a trade. -/
def revises (tradeId : String) : Op → Option StratifiedMarkoutBreakdown
  | .processFill .. => none
  | .markouts fill bars stored =>
    if stored && textOr fill.tradeId "" ≠ "" && textOr fill.tradeId "" = tradeId then
      breakdownOf desk fill bars
    else none
  | .volume .. => none

/-- A row with the last breakdown stored for its trade. -/
def revised (later : List Op) (row : FeedbackRow) : FeedbackRow :=
  ((later.filterMap (revises desk row.tradeId)).getLast?).elim row row.revise

/-- The rows of the fills, each revised by what came after it. -/
def rowsOf : List Op → List FeedbackRow
  | [] => []
  | op :: later => (inserts desk op).toList.map (revised desk later) ++ rowsOf later

theorem revised_concat (later : List Op) (op : Op) (row : FeedbackRow) :
    revised desk (later ++ [op]) row =
      (revises desk row.tradeId op).elim (revised desk later row) (revised desk later row).revise := by
  unfold revised
  rw [List.filterMap_append, List.getLast?_append]
  cases hop : revises desk row.tradeId op with
  | none => simp [hop]
  | some b =>
    simp only [List.filterMap_cons, hop, List.filterMap_nil, List.getLast?_singleton,
      Option.elim_some]
    cases (later.filterMap (revises desk row.tradeId)).getLast? <;> rfl

@[simp] theorem tradeId_revised (later : List Op) (row : FeedbackRow) :
    (revised desk later row).tradeId = row.tradeId := by
  unfold revised
  cases (later.filterMap (revises desk row.tradeId)).getLast? <;> rfl

/-- One more operation revises the rows there are and may insert one. -/
theorem rowsOf_concat (ops : List Op) (op : Op) :
    rowsOf desk (ops ++ [op]) =
      ((rowsOf desk ops).map fun row => (revises desk row.tradeId op).elim row row.revise) ++
        (inserts desk op).toList := by
  induction ops with
  | nil =>
    simp only [List.nil_append, rowsOf, List.map_nil, List.append_nil]
    cases inserts desk op <;> rfl
  | cons first ops ih =>
    rw [List.cons_append, rowsOf, ih, rowsOf, List.map_append, ← List.append_assoc]
    congr 2
    rw [List.map_map]
    refine List.map_congr_left fun row _ => ?_
    rw [revised_concat, Function.comp_apply, tradeId_revised]

theorem ledger_step (s : FeedbackLoop) (op : Op) :
    (step desk s op).ledger =
      (s.ledger.map fun row => (revises desk row.tradeId op).elim row row.revise) ++
        (inserts desk op).toList := by
  cases op with
  | processFill fill stored =>
    simp only [step, processFill, inserts, revises, Option.elim_none, List.map_id']
    cases rowOf desk fill <;> cases stored <;> simp
  | volume symbol barVolume =>
    simp [step, updateVolumeTrack, inserts, revises]
  | markouts fill bars stored =>
    simp only [step, calculatePostFillMarkouts, inserts, revises]
    cases breakdownOf desk fill bars with
    | none => simp
    | some b =>
      by_cases hid : textOr fill.tradeId "" = ""
      · simp [hid]
      cases stored with
      | false => simp
      | true =>
        simp only [hid, ne_eq, not_false_eq_true, decide_true, Bool.and_self, if_true,
          Bool.true_and, decide_eq_true_eq, Option.toList_none, List.append_nil]
        refine List.map_congr_left fun row _ => ?_
        by_cases hrow : row.tradeId = textOr fill.tradeId "" <;> simp [hrow, eq_comm]

theorem ledger_run (ops : List Op) : (run (step desk) {} ops).ledger = rowsOf desk ops := by
  induction ops using List.reverseRecOn with
  | nil => rfl
  | append_singleton ops op ih =>
    rw [run_append, run_cons, run_nil, ledger_step, ih, rowsOf_concat]

theorem slippageWindow_run (ops : List Op) :
    (run (step desk) {} ops).slippageWindow =
      lastN slippageFeedbackWindow (ops.filterMap (realizedOf desk)) := by
  refine run_gives FeedbackLoop.slippageWindow (realizedOf desk) (lastN slippageFeedbackWindow) rfl
    (fun s op window hs => ?_) ops
  cases op with
  | processFill fill stored =>
    cases hrow : rowOf desk fill <;>
      simp [step, processFill, realizedOf, hrow, hs, appendBounded_lastN]
  | markouts fill bars stored =>
    cases hb : breakdownOf desk fill bars <;>
      simp [step, calculatePostFillMarkouts, realizedOf, hb, hs]
  | volume symbol barVolume => simp [step, updateVolumeTrack, realizedOf, hs]

theorem markoutWindow_run (ops : List Op) :
    (run (step desk) {} ops).markoutWindow =
      lastN slippageFeedbackWindow (ops.filterMap (fiveMinuteOf desk)) := by
  refine run_gives FeedbackLoop.markoutWindow (fiveMinuteOf desk) (lastN slippageFeedbackWindow) rfl
    (fun s op window hs => ?_) ops
  cases op with
  | processFill fill stored =>
    cases hrow : rowOf desk fill <;> simp [step, processFill, fiveMinuteOf, hrow, hs]
  | markouts fill bars stored =>
    cases hb : breakdownOf desk fill bars <;>
      simp [step, calculatePostFillMarkouts, fiveMinuteOf, hb, hs, appendBounded_lastN]
  | volume symbol barVolume => simp [step, updateVolumeTrack, fiveMinuteOf, hs]

theorem volumeTrack_run (ops : List Op) (key : String) :
    ((run (step desk) {} ops).volumeTracks.get? key).getD [] =
      lastN participationVolLookback (ops.filterMap (volumeOf desk key)) := by
  refine run_gives (fun s : FeedbackLoop => (s.volumeTracks.get? key).getD [])
    (volumeOf desk key) (lastN participationVolLookback) rfl (fun s op track hs => ?_) ops
  cases op with
  | processFill fill stored =>
    cases hrow : rowOf desk fill <;> simpa [step, processFill, volumeOf, hrow] using hs
  | markouts fill bars stored =>
    cases hb : breakdownOf desk fill bars <;>
      simpa [step, calculatePostFillMarkouts, volumeOf, hb] using hs
  | volume symbol barVolume =>
    by_cases hkey : key = desk.upper symbol
    · subst hkey
      simp [step, updateVolumeTrack, volumeOf, hs, appendBounded_lastN]
    · simpa [step, updateVolumeTrack, volumeOf, Dict.get?_set, hkey, Ne.symm hkey] using hs

/-! ## What the loop answers -/

/-- The average of the last markouts, as a decay; 0 while there are none. -/
def decayShown (ops : List Op) (ctx : UrgencyContext) : ℚ :=
  let window := lastN slippageFeedbackWindow (ops.filterMap (fiveMinuteOf desk))
  ctx.alphaDecayBps.getD (if window = [] then 0 else max 0 (-mean window))

/-- The depth is trusted and no defensive order is forced. -/
def Trusted (ctx : UrgencyContext) : Prop :=
  ctx.forceAggressiveIoc = false ∧ textOr ctx.depthConfidence "high" ≠ "low" ∧
    textOr ctx.depthConfidence "high" ≠ "unavailable"

/-- The pressure that counts: a pressure of 0 is taken for an absent one. -/
def pressureRead (ctx : UrgencyContext) : ℚ :=
  max 0 (min 1 (numberOr ctx.bookPressure (1 / 2)))

/-- The decay, the edge and the pressure that call for a taker. -/
def Takes (ops : List Op) (ctx : UrgencyContext) : Prop :=
  8 ≤ decayShown desk ops ctx ∧ 5 ≤ numberOr ctx.expectedEdgeBps 0 ∧
    pressureRead ctx ≤ 35 / 100

/-- The pressure or the costs that call for passive orders. -/
def Rests (ops : List Op) (ctx : UrgencyContext) : Prop :=
  65 / 100 ≤ pressureRead ctx ∨
    numberOr ctx.expectedEdgeBps 0 <
      decayShown desk ops ctx + numberOr ctx.modeledSlippageBps 5

instance : DecidablePred Trusted := fun _ => by
  unfold Trusted
  infer_instance

instance (ops : List Op) : DecidablePred (Takes desk ops) := fun _ => by
  unfold Takes
  infer_instance

instance (ops : List Op) : DecidablePred (Rests desk ops) := fun _ => by
  unfold Rests
  infer_instance

/-- What a history leaves to be seen: the rows, the last slippages, the posture that the last
markouts give each context, and a cap by the symbol's last volumes and the context, which
thin liquidity lowers once more. -/
structure ShowsHistory (ops : List Op) (s : FeedbackLoop) : Prop where
  ledger : s.ledger = rowsOf desk ops
  slippage : s.slippageWindow = lastN slippageFeedbackWindow (ops.filterMap (realizedOf desk))
  taker : ∀ ctx, (s.determineRoutingUrgency ctx).posture = .aggressiveTaker ↔
    Trusted ctx ∧ Takes desk ops ctx
  passive : ∀ ctx, (s.determineRoutingUrgency ctx).posture = .passiveNbbo ↔
    Trusted ctx ∧ ¬ Takes desk ops ctx ∧ Rests desk ops ctx
  /-- The context of an emergency does not make a taker. -/
  emergency : (s.determineRoutingUrgency emergencyFlattenUrgencyContext).posture = .balancedIoc
  volumes : ∀ ctx, ctx.trailingVolumes = [] → s.resolveParticipationCap desk ctx =
    let noted := lastN participationVolLookback
      (ops.filterMap (volumeOf desk (desk.upper (textOr ctx.symbol ""))))
    capOn desk (if noted ≠ [] then noted else [0]) ctx
  cap : ∀ ctx, 0 ≤ numberOr ctx.baseCapPct (95 / 100) →
    0 ≤ desk.thinLiquidityParticipationMult → desk.thinLiquidityParticipationMult ≤ 1 →
    let cap := (s.resolveParticipationCap desk ctx).participationCapPct
    let base := numberOr ctx.baseCapPct (95 / 100)
    let thin := if ctx.thinLiquidityActive then desk.thinLiquidityParticipationMult else 1
    base * (175 / 1000) * thin ≤ cap ∧ cap ≤ base * thin

theorem alphaDecay_run (ops : List Op) (ctx : UrgencyContext) :
    ctx.alphaDecayBps.getD ((run (step desk) {} ops).alphaDecayBps ctx) =
      decayShown desk ops ctx := by
  rw [FeedbackLoop.alphaDecayBps, markoutWindow_run, decayShown]
  cases ctx.alphaDecayBps with
  | some decay => rfl
  | none =>
    simp only [Option.getD_none, numberOr, max_self, ne_eq, ite_not]

theorem posture_eq (ops : List Op) (ctx : UrgencyContext) :
    ((run (step desk) {} ops).determineRoutingUrgency ctx).posture =
      if ¬ Trusted ctx then .balancedIoc
      else if Takes desk ops ctx then .aggressiveTaker
      else if Rests desk ops ctx then .passiveNbbo
      else .balancedIoc := by
  rw [FeedbackLoop.determineRoutingUrgency]
  simp only [alphaDecay_run, apply_ite RoutingUrgencyDecision.posture]
  have hscore : numberOr ctx.expectedEdgeBps 0 - decayShown desk ops ctx -
      numberOr ctx.modeledSlippageBps 5 < 0 ↔
        numberOr ctx.expectedEdgeBps 0 <
          decayShown desk ops ctx + numberOr ctx.modeledSlippageBps 5 := by
    rw [sub_sub, sub_neg]
  have htakes : (alphaDecayUrgencyBps ≤ decayShown desk ops ctx ∧
      minExpectedEdgeBps ≤ numberOr ctx.expectedEdgeBps 0 ∧
        max 0 (min 1 (numberOr ctx.bookPressure (1 / 2))) ≤ bookPressureAggressiveThreshold) ↔
      Takes desk ops ctx := Iff.rfl
  have hrests : (bookPressurePassiveThreshold ≤ max 0 (min 1 (numberOr ctx.bookPressure (1 / 2))) ∨
      numberOr ctx.expectedEdgeBps 0 - decayShown desk ops ctx -
        numberOr ctx.modeledSlippageBps 5 < 0) ↔ Rests desk ops ctx := or_congr Iff.rfl hscore
  simp only [htakes, hrests]
  by_cases hforce : ctx.forceAggressiveIoc = true
  · rw [if_pos hforce, if_pos (fun h => by simp [h.1] at hforce)]
  rw [if_neg hforce]
  by_cases hdepth : textOr ctx.depthConfidence "high" = "low" ∨
      textOr ctx.depthConfidence "high" = "unavailable"
  · rw [if_pos hdepth, if_pos fun h => hdepth.elim h.2.1 h.2.2]
  · have htrusted : Trusted ctx :=
      ⟨by simpa using hforce, fun h => hdepth (.inl h), fun h => hdepth (.inr h)⟩
    rw [if_neg hdepth, if_neg (not_not.mpr htrusted)]

omit desk in
theorem clip_bounds {x lo hi : ℚ} (h : lo ≤ hi) : lo ≤ clip x lo hi ∧ clip x lo hi ≤ hi :=
  ⟨le_min (le_max_right _ _) h, min_le_right _ _⟩

omit desk in
/-- The size of an order takes at most half of the cap. -/
theorem sizeImpact_bounds (advNotional orderNotional : ℚ) {scale : ℚ} (hscale : 0 < scale) :
    let impact := 1 - if 0 < advNotional ∧ 0 < orderNotional then
      min participationSizeImpactCeiling (orderNotional / scale) else 0
    1 / 2 ≤ impact ∧ impact ≤ 1 := by
  have hceiling : participationSizeImpactCeiling = 1 / 2 := rfl
  dsimp only
  split_ifs with hboth
  · have hpos : 0 < orderNotional / scale := div_pos hboth.2 hscale
    rw [hceiling]
    have hmin : 0 ≤ min (1 / 2) (orderNotional / scale) := le_min (by norm_num) hpos.le
    have hhalf := min_le_left (1 / 2) (orderNotional / scale)
    exact ⟨by linarith, by linarith⟩
  · norm_num

theorem capOn_bounds (volumes : List ℚ) (ctx : ParticipationContext)
    (hbase : 0 ≤ numberOr ctx.baseCapPct (95 / 100))
    (hthin : 0 ≤ desk.thinLiquidityParticipationMult)
    (hthin' : desk.thinLiquidityParticipationMult ≤ 1) :
    let cap := (capOn desk volumes ctx).participationCapPct
    let base := numberOr ctx.baseCapPct (95 / 100)
    let thin := if ctx.thinLiquidityActive then desk.thinLiquidityParticipationMult else 1
    base * (175 / 1000) * thin ≤ cap ∧ cap ≤ base * thin := by
  have hcap : ∃ vol size : ℚ, (35 / 100 ≤ vol ∧ vol ≤ 1) ∧ (1 / 2 ≤ size ∧ size ≤ 1) ∧
      (capOn desk volumes ctx).participationCapPct =
        max 0 (min (numberOr ctx.baseCapPct (95 / 100))
          (if ctx.thinLiquidityActive then numberOr ctx.baseCapPct (95 / 100) * vol * size *
              desk.thinLiquidityParticipationMult
            else numberOr ctx.baseCapPct (95 / 100) * vol * size)) := by
    refine ⟨_, _, clip_bounds ?_, ?_, rfl⟩
    · norm_num [participationVolFloorMult, participationVolCeilingMult]
    · have hscale : (0 : ℚ) < 1 / 1000000000 := by norm_num
      exact sizeImpact_bounds _ _ (lt_max_of_lt_right hscale)
  obtain ⟨vol, size, ⟨hvol, hvol'⟩, ⟨hsize, hsize'⟩, hcap⟩ := hcap
  dsimp only
  rw [hcap]
  generalize numberOr ctx.baseCapPct (95 / 100) = base at *
  have hscaled : base * vol * size * (if ctx.thinLiquidityActive then
      desk.thinLiquidityParticipationMult else 1) = if ctx.thinLiquidityActive then
        base * vol * size * desk.thinLiquidityParticipationMult else base * vol * size := by
    split_ifs <;> simp
  rw [← hscaled]
  generalize hthinner : (if ctx.thinLiquidityActive = true then
    desk.thinLiquidityParticipationMult else 1) = thin
  have hpos : 0 ≤ thin ∧ thin ≤ 1 := by
    rw [← hthinner]
    split_ifs
    · exact ⟨hthin, hthin'⟩
    · norm_num
  have hvs : 175 / 1000 ≤ vol * size := by nlinarith
  have hvs' : vol * size ≤ 1 := by nlinarith
  have hlow : base * (175 / 1000) ≤ base * vol * size := by
    rw [mul_assoc]
    exact mul_le_mul_of_nonneg_left hvs hbase
  have hhigh : base * vol * size ≤ base := by
    rw [mul_assoc]
    exact mul_le_of_le_one_right hbase hvs'
  have hlow' := mul_le_mul_of_nonneg_right hlow hpos.1
  have hhigh' := mul_le_mul_of_nonneg_right hhigh hpos.1
  have hle : base * vol * size * thin ≤ base :=
    hhigh'.trans (mul_le_of_le_one_right hbase hpos.2)
  have hnonneg : 0 ≤ base * vol * size * thin := by
    refine le_trans ?_ hlow'
    exact mul_nonneg (mul_nonneg hbase (by norm_num)) hpos.1
  rw [min_eq_right hle, max_eq_right hnonneg]
  exact ⟨hlow', hhigh'⟩

end History

end TradingPlatform.Engine.ExecutionFeedback
