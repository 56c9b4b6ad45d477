import TradingPlatform.Execution.Orders
import TradingPlatform.Lib.Dict
import TradingPlatform.Lib.Runs
import Mathlib.Tactic.Linarith

/-! # The position tracker

Broker updates carry cumulative fills, and the tracker keeps a set of the ids it
has applied. The first update of an id with a fill is counted; every later one is
taken for a replay. -/

namespace TradingPlatform.Execution

open TradingPlatform.Lib TradingPlatform.Lib.Runs

structure TrackedPosition where
  symbol : String
  qty : ℚ := 0
  avgPrice : ℚ := 0
  deriving DecidableEq

structure PositionTracker where
  positions : Dict String TrackedPosition := .empty
  applied : List String := []
  deriving DecidableEq

/-- `apply(order, fill_price=...)`. -/
structure ApplyCall where
  order : BrokerOrder
  fillPrice : Option ℚ := none
  deriving DecidableEq

/-- The entry price is averaged when the fill adds to a position on its side. -/
def TrackedPosition.addFill (pos : TrackedPosition) (signed price : ℚ) : TrackedPosition :=
  { pos with
    qty := pos.qty + signed
    avgPrice :=
      if (pos.qty = 0 ∨ (0 < pos.qty ↔ 0 < signed)) ∧ 0 < |pos.qty| + |signed| then
        (|pos.qty| * pos.avgPrice + |signed| * price) / (|pos.qty| + |signed|)
      else pos.avgPrice }

section Tracker
variable (lower upper : String → String)

def BrokerOrder.signedFill (order : BrokerOrder) : ℚ :=
  if lower order.side = "buy" then order.filledQty else -order.filledQty

def unfilledStatuses : List String :=
  ["rejected", "submission_failed", "canceled", "cancelled", "new"]

namespace PositionTracker

def position (t : PositionTracker) (symbol : String) : ℚ :=
  ((t.positions.get? (upper symbol)).map (·.qty)).getD 0

def apply (t : PositionTracker) (c : ApplyCall) : ℚ × PositionTracker :=
  let order := c.order
  let status := lower order.status
  if status ∈ unfilledStatuses ∧ order.filledQty ≤ 0 then
    (if status = "new" then order.remainder else 0, t)
  else if order.clientOrderId ∈ t.applied then (order.remainder, t)
  else if order.filledQty ≤ 0 then (order.remainder, t)
  else
    let sym := upper order.symbol
    let pos := (t.positions.get? sym).getD { symbol := sym }
    let price := c.fillPrice.getD order.filledAvgPrice
    (order.remainder,
      { positions := t.positions.set sym (pos.addFill (order.signedFill lower) price)
        applied := t.applied ++ [order.clientOrderId] })

end PositionTracker

/-! ## The broker's cumulative fills -/

/-- The latest update of every id. -/
def latestUpdate (d : Dict String BrokerOrder) (c : ApplyCall) : Dict String BrokerOrder :=
  d.set c.order.clientOrderId c.order

def fillIn (symbol : String) (order : BrokerOrder) : ℚ :=
  if upper order.symbol = upper symbol then order.signedFill lower else 0

/-- What the ids of a symbol have filled, each at its latest update. -/
def brokerPosition (d : Dict String BrokerOrder) (symbol : String) : ℚ :=
  d.total fun _ order => fillIn lower upper symbol order

/-- The tracker, and beside it the latest updates it was given. -/
def trackStep (s : PositionTracker × Dict String BrokerOrder) (c : ApplyCall) :
    PositionTracker × Dict String BrokerOrder :=
  ((s.1.apply lower upper c).2, latestUpdate s.2 c)

/-- Every symbol's position is the broker's. -/
def Tracked (s : PositionTracker × Dict String BrokerOrder) : Prop :=
  ∀ symbol, s.1.position upper symbol = brokerPosition lower upper s.2 symbol

variable {lower upper}

variable (lower upper) in
/-- What an update does: nothing, unless it is the first fill of its id. -/
theorem apply_cases (t : PositionTracker) (c : ApplyCall) :
    ((c.order.filledQty ≤ 0 ∨ c.order.clientOrderId ∈ t.applied) ∧
      (t.apply lower upper c).2 = t) ∨
    (0 < c.order.filledQty ∧ c.order.clientOrderId ∉ t.applied ∧
      (t.apply lower upper c).2.applied = t.applied ++ [c.order.clientOrderId] ∧
      ∀ symbol, (t.apply lower upper c).2.position upper symbol =
        t.position upper symbol + fillIn lower upper symbol c.order) := by
  unfold PositionTracker.apply
  dsimp only
  split
  · rename_i h
    exact .inl ⟨.inl h.2, rfl⟩
  split
  · rename_i h
    exact .inl ⟨.inr h, rfl⟩
  rename_i hnew
  split
  · rename_i h
    exact .inl ⟨.inl h, rfl⟩
  rename_i hfill
  refine .inr ⟨not_le.mp hfill, hnew, rfl, fun symbol => ?_⟩
  unfold PositionTracker.position fillIn
  rw [Dict.get?_set]
  by_cases hsym : upper c.order.symbol = upper symbol
  · rw [if_pos hsym, if_pos hsym.symm, hsym]
    cases t.positions.get? (upper symbol) <;> rfl
  · rw [if_neg hsym, if_neg (Ne.symm hsym), add_zero]

/-- An id counts as applied once an update of it has reported a fill, and no
update reports a negative one. -/
structure Seen (s : PositionTracker × Dict String BrokerOrder) : Prop where
  applied : ∀ coid, coid ∈ s.1.applied ↔ ∃ prev, s.2.get? coid = some prev ∧ 0 < prev.filledQty
  nonneg : ∀ coid prev, s.2.get? coid = some prev → 0 ≤ prev.filledQty

/-- The next update of an id keeps its symbol and side and fills no less. -/
def Continues (s : PositionTracker × Dict String BrokerOrder) (c : ApplyCall) : Prop :=
  ∀ prev ∈ s.2.get? c.order.clientOrderId, prev.symbol = c.order.symbol ∧
    prev.side = c.order.side ∧ prev.filledQty ≤ c.order.filledQty

/-- The update reports what the id has already filled, if it has filled anything. -/
def Repeats (s : PositionTracker × Dict String BrokerOrder) (c : ApplyCall) : Prop :=
  0 ≤ c.order.filledQty ∧
    ∀ prev ∈ s.2.get? c.order.clientOrderId, 0 < prev.filledQty →
      c.order.filledQty = prev.filledQty

variable (lower) in
theorem signedFill_eq_zero (order : BrokerOrder) :
    order.signedFill lower = 0 ↔ order.filledQty = 0 := by
  unfold BrokerOrder.signedFill
  split
  · exact Iff.rfl
  · exact neg_eq_zero

variable (lower) in
theorem signedFill_congr {a b : BrokerOrder} (h : a.side = b.side) :
    a.signedFill lower = b.signedFill lower ↔ a.filledQty = b.filledQty := by
  unfold BrokerOrder.signedFill
  rw [h]
  split
  · exact Iff.rfl
  · exact neg_inj

/-- An update replaces what its id's previous one counted for. -/
theorem brokerPosition_latest (d : Dict String BrokerOrder) (c : ApplyCall) (symbol : String) :
    brokerPosition lower upper (latestUpdate d c) symbol =
      brokerPosition lower upper d symbol + fillIn lower upper symbol c.order -
        (d.get? c.order.clientOrderId).elim 0 (fillIn lower upper symbol) :=
  eq_sub_of_add_eq (d.total_set _ c.order.clientOrderId c.order)

theorem mem_applied (t : PositionTracker) (c : ApplyCall) (coid : String) :
    coid ∈ (t.apply lower upper c).2.applied ↔
      coid ∈ t.applied ∨ coid = c.order.clientOrderId ∧ 0 < c.order.filledQty := by
  rcases apply_cases lower upper t c with ⟨hskip, ht⟩ | ⟨hfill, -, happ, -⟩
  · rw [ht]
    refine ⟨.inl, ?_⟩
    intro h
    rcases h with h | ⟨rfl, hfill⟩
    · exact h
    · exact hskip.resolve_left (not_le.mpr hfill)
  · rw [happ, List.mem_append, List.mem_singleton]
    simp only [hfill, and_true]

theorem seen_step (s : PositionTracker × Dict String BrokerOrder) (c : ApplyCall) (h : Seen s)
    (hr : Repeats s c) : Seen (trackStep lower upper s c) := by
  constructor
  · intro coid
    show coid ∈ (s.1.apply lower upper c).2.applied ↔
      ∃ prev, (s.2.set _ _).get? coid = some prev ∧ _
    rw [mem_applied]
    by_cases hid : coid = c.order.clientOrderId
    · subst hid
      rw [Dict.get?_set_self, h.applied]
      constructor
      · intro h
        rcases h with ⟨prev, hprev, hpos⟩ | ⟨-, hfill⟩
        · exact ⟨c.order, rfl, by rw [hr.2 prev hprev hpos]; exact hpos⟩
        · exact ⟨c.order, rfl, hfill⟩
      · intro h
        obtain ⟨_, ⟨⟩, hfill⟩ := h
        exact .inr ⟨rfl, hfill⟩
    · rw [Dict.get?_set_ne _ hid, h.applied]
      simp only [hid, false_and, or_false]
  · intro coid prev hprev
    have hprev : (s.2.set c.order.clientOrderId c.order).get? coid = some prev := hprev
    rw [Dict.get?_set] at hprev
    split at hprev
    · cases hprev
      exact hr.1
    · exact h.nonneg coid prev hprev

/-- An id that is not applied has filled nothing. -/
theorem Seen.unfilled {s : PositionTracker × Dict String BrokerOrder} (h : Seen s) {coid : String}
    (hid : coid ∉ s.1.applied) : ∀ prev ∈ s.2.get? coid, prev.filledQty = 0 := by
  intro prev hprev
  refine le_antisymm (not_lt.mp fun hpos => ?_) (h.nonneg coid prev hprev)
  exact hid ((h.applied coid).mpr ⟨prev, hprev, hpos⟩)

theorem Seen.no_share {s : PositionTracker × Dict String BrokerOrder} (h : Seen s) {coid : String}
    (hid : coid ∉ s.1.applied) (symbol : String) :
    (s.2.get? coid).elim 0 (fillIn lower upper symbol) = 0 := by
  cases hprev : s.2.get? coid with
  | none => rfl
  | some prev =>
    have hzero := h.unfilled hid prev hprev
    rw [Option.elim_some, fillIn, (signedFill_eq_zero lower prev).mpr hzero, ite_self]

/-- An update of an applied id moves the broker's side only. -/
theorem tracked_step_applied (s : PositionTracker × Dict String BrokerOrder) (c : ApplyCall)
    (h : Seen s) (hc : Continues s c) (ht : Tracked lower upper s)
    (happ : c.order.clientOrderId ∈ s.1.applied) :
    Tracked lower upper (s.1, latestUpdate s.2 c) ↔ Repeats s c := by
  obtain ⟨prev, hprev, hprevpos⟩ := (h.applied _).mp happ
  obtain ⟨hsym, hside, -⟩ := hc prev hprev
  have hrep : Repeats s c ↔ c.order.filledQty = prev.filledQty := by
    constructor
    · exact fun hr => hr.2 prev hprev hprevpos
    · intro heq
      refine ⟨heq ▸ hprevpos.le, fun prev' hprev' _ => ?_⟩
      cases hprev.symm.trans hprev'
      exact heq
  unfold Tracked
  simp only [brokerPosition_latest]
  rw [hrep, hprev, ← signedFill_congr lower hside.symm]
  constructor
  · intro hall
    have hown := hall c.order.symbol
    rw [ht, Option.elim_some, fillIn, fillIn, hsym, if_pos rfl, if_pos rfl] at hown
    linarith
  · intro heq symbol
    rw [ht, Option.elim_some, fillIn, fillIn, hsym, heq]
    exact (add_sub_cancel_right _ _).symm

/-- **One update** keeps the positions right exactly when it repeats what its id
has filled. -/
theorem tracked_step (s : PositionTracker × Dict String BrokerOrder) (c : ApplyCall) (h : Seen s)
    (hc : Continues s c) (ht : Tracked lower upper s) :
    Tracked lower upper (trackStep lower upper s c) ↔ Repeats s c := by
  have hfresh : c.order.clientOrderId ∉ s.1.applied →
      (Repeats s c ↔ 0 ≤ c.order.filledQty) := by
    intro hnew
    refine and_iff_left_of_imp fun _ prev hprev hpos => ?_
    exact absurd (h.unfilled hnew prev hprev) hpos.ne'
  rcases apply_cases lower upper s.1 c with
    ⟨hskip, hstay⟩ | ⟨hfill, hnew, -, hpos⟩
  · rw [trackStep, hstay]
    by_cases happ : c.order.clientOrderId ∈ s.1.applied
    · exact tracked_step_applied s c h hc ht happ
    -- an update without a fill moves the broker's side by what it reports, if that is negative
    have hle := hskip.resolve_right happ
    unfold Tracked
    simp only [brokerPosition_latest, h.no_share happ, sub_zero]
    rw [hfresh happ]
    constructor
    · intro hall
      have hown := hall c.order.symbol
      rw [ht, fillIn, if_pos rfl, left_eq_add, signedFill_eq_zero] at hown
      exact hown.ge
    · intro hge symbol
      have hzero := (signedFill_eq_zero lower c.order).mpr (le_antisymm hle hge)
      rw [ht, fillIn, hzero, ite_self, add_zero]
  · refine iff_of_true (fun symbol => ?_) ((hfresh hnew).mpr hfill.le)
    show PositionTracker.position upper (s.1.apply lower upper c).2 symbol = _
    rw [hpos, ht, trackStep, brokerPosition_latest, h.no_share hnew, sub_zero]

/-! ## Runs -/

/-- Each id keeps one symbol and side, and its fills are cumulative. -/
structure BrokerUpdates (cs : List ApplyCall) : Prop where
  oneOrder : ∀ a ∈ cs, ∀ b ∈ cs, a.order.clientOrderId = b.order.clientOrderId →
    a.order.symbol = b.order.symbol ∧ a.order.side = b.order.side
  cumulative : cs.Pairwise fun a b => a.order.clientOrderId = b.order.clientOrderId →
    a.order.filledQty ≤ b.order.filledQty

/-- No id reports two different fills, and none a negative one. -/
def OneFill (cs : List ApplyCall) : Prop :=
  (∀ a ∈ cs, 0 ≤ a.order.filledQty) ∧
    ∀ a ∈ cs, ∀ b ∈ cs, a.order.clientOrderId = b.order.clientOrderId →
      0 < a.order.filledQty → 0 < b.order.filledQty → a.order.filledQty = b.order.filledQty

def latest (cs : List ApplyCall) : Dict String BrokerOrder := run latestUpdate .empty cs

def trackRun (lower upper : String → String) (cs : List ApplyCall) :
    PositionTracker × Dict String BrokerOrder :=
  run (trackStep lower upper) ({}, .empty) cs

theorem trackRun_snd (cs : List ApplyCall) : (trackRun lower upper cs).2 = latest cs := by
  induction cs using List.reverseRecOn with
  | nil => rfl
  | append_singleton cs c ih =>
    rw [trackRun, run_append, latest, run_append]
    show latestUpdate (trackRun lower upper cs).2 c = _
    rw [ih]
    rfl

theorem latest_concat (cs : List ApplyCall) (c : ApplyCall) :
    latest (cs ++ [c]) = latestUpdate (latest cs) c := run_append ..

theorem latest_mem {cs : List ApplyCall} {coid : String} {prev : BrokerOrder}
    (h : (latest cs).get? coid = some prev) :
    ∃ a ∈ cs, a.order = prev ∧ prev.clientOrderId = coid := by
  induction cs using List.reverseRecOn with
  | nil => cases h
  | append_singleton cs c ih =>
    rw [latest_concat, latestUpdate, Dict.get?_set] at h
    split at h
    · rename_i hid
      cases h
      exact ⟨c, List.mem_concat_self, rfl, hid.symm⟩
    · obtain ⟨a, ha, hprev⟩ := ih h
      exact ⟨a, List.mem_append_left _ ha, hprev⟩

theorem BrokerUpdates.init {cs : List ApplyCall} {c : ApplyCall} (h : BrokerUpdates (cs ++ [c])) :
    BrokerUpdates cs where
  oneOrder a ha b hb := h.oneOrder a (List.mem_append_left _ ha) b (List.mem_append_left _ hb)
  cumulative := (List.pairwise_append.mp h.cumulative).1

theorem BrokerUpdates.le_last {cs : List ApplyCall} {c : ApplyCall} (h : BrokerUpdates (cs ++ [c])) :
    ∀ a ∈ cs, a.order.clientOrderId = c.order.clientOrderId →
      a.order.filledQty ≤ c.order.filledQty :=
  fun a ha => (List.pairwise_append.mp h.cumulative).2.2 a ha c List.mem_cons_self

/-- The latest update of an id has filled the most. -/
theorem latest_ge {cs : List ApplyCall} (h : BrokerUpdates cs) :
    ∀ a ∈ cs, ∃ prev, (latest cs).get? a.order.clientOrderId = some prev ∧
      a.order.filledQty ≤ prev.filledQty := by
  induction cs using List.reverseRecOn with
  | nil => simp
  | append_singleton cs c ih =>
    intro a ha
    rw [latest_concat, latestUpdate, Dict.get?_set]
    rcases List.mem_append.mp ha with hold | hnew
    · split
      · rename_i hid
        exact ⟨c.order, rfl, h.le_last a hold hid⟩
      · exact ih h.init a hold
    · rw [List.mem_singleton.mp hnew, if_pos rfl]
      exact ⟨c.order, rfl, le_rfl⟩

theorem continues_run {cs : List ApplyCall} (h : BrokerUpdates cs) :
    Along (trackStep lower upper) Continues ({}, .empty) cs := by
  induction cs using List.reverseRecOn with
  | nil => trivial
  | append_singleton cs c ih =>
    refine along_append.mpr ⟨ih h.init, fun prev hprev => ?_, trivial⟩
    have hprev : prev ∈ (trackRun lower upper cs).2.get? c.order.clientOrderId := hprev
    rw [trackRun_snd] at hprev
    obtain ⟨a, ha, rfl, hid⟩ := latest_mem hprev
    obtain ⟨hsym, hside⟩ := h.oneOrder a (List.mem_append_left _ ha) c List.mem_concat_self hid
    exact ⟨hsym, hside, h.le_last a ha hid⟩

theorem oneFill_concat {cs : List ApplyCall} {c : ApplyCall} :
    OneFill (cs ++ [c]) ↔ OneFill cs ∧ 0 ≤ c.order.filledQty ∧
      ∀ a ∈ cs, a.order.clientOrderId = c.order.clientOrderId →
        0 < a.order.filledQty → 0 < c.order.filledQty → a.order.filledQty = c.order.filledQty := by
  simp only [OneFill, List.mem_append, List.mem_singleton]
  constructor
  · intro h
    obtain ⟨hnonneg, heq⟩ := h
    exact ⟨⟨fun a ha => hnonneg a (.inl ha), fun a ha b hb => heq a (.inl ha) b (.inl hb)⟩,
      hnonneg c (.inr rfl), fun a ha => heq a (.inl ha) c (.inr rfl)⟩
  · intro h
    obtain ⟨⟨hnonneg, heq⟩, hc, hlast⟩ := h
    refine ⟨?_, ?_⟩
    · rintro a (ha | rfl)
      · exact hnonneg a ha
      · exact hc
    · rintro a (ha | rfl) b (hb | rfl) hid hpa hpb
      · exact heq a ha b hb hid hpa hpb
      · exact hlast a ha hid hpa hpb
      · exact (hlast b hb hid.symm hpb hpa).symm
      · rfl

variable (lower upper) in
theorem repeats_run_iff {cs : List ApplyCall} (h : BrokerUpdates cs) :
    Along (trackStep lower upper) Repeats ({}, .empty) cs ↔ OneFill cs := by
  induction cs using List.reverseRecOn with
  | nil => simp [Along, OneFill]
  | append_singleton cs c ih =>
    rw [along_append, ih h.init, oneFill_concat]
    refine and_congr_right fun hone => ?_
    show Repeats (trackRun lower upper cs) c ∧ True ↔ _
    rw [and_true, Repeats, trackRun_snd]
    refine and_congr_right fun _ => ?_
    constructor
    · intro hrep a ha hid hpa _
      obtain ⟨prev, hprev, hle⟩ := latest_ge h.init a ha
      rw [hid] at hprev
      obtain ⟨b, hb, rfl, hbid⟩ := latest_mem hprev
      have hpb := hpa.trans_le hle
      rw [hrep _ hprev hpb]
      exact hone.2 a ha b hb (hid.trans hbid.symm) hpa hpb
    · intro hlast prev hprev hpos
      obtain ⟨a, ha, rfl, hid⟩ := latest_mem hprev
      exact (hlast a ha hid hpos (hpos.trans_le (h.le_last a ha hid))).symm

/-- **Tracked positions follow the broker's fills**, update after update, exactly
when no id reports two different fills. -/
theorem tracked_iff (lower upper : String → String) (cs : List ApplyCall) (h : BrokerUpdates cs) :
    Along (trackStep lower upper)
        (fun s c => Tracked lower upper (trackStep lower upper s c)) ({}, .empty) cs ↔
      OneFill cs := by
  rw [← repeats_run_iff lower upper h]
  refine along_next_iff_of (fun s c hi _ hr => seen_step s c hi hr)
    (fun s c hi hc ht => tracked_step s c hi hc ht) cs ?_ ?_ (continues_run h)
  · exact ⟨fun coid => by simp, fun coid prev hprev => nomatch hprev⟩
  · exact fun symbol => rfl

end Tracker

def partialFill : ApplyCall := ⟨⟨"c1", "QQQ", "buy", 10, "partially_filled", 4, 400, none⟩, none⟩

def completion : ApplyCall := ⟨⟨"c1", "QQQ", "buy", 10, "filled", 10, 401, none⟩, none⟩

/-- A partial fill of 4 leaves the position at 4 when the order completes at 10. -/
theorem completion_dropped :
    BrokerUpdates [partialFill, completion] ∧
      ¬ Tracked id id (trackRun id id [partialFill, completion]) := by
  refine ⟨⟨?_, ?_⟩, fun h => ?_⟩
  · decide +kernel
  · decide +kernel
  · exact absurd (h "QQQ") (by decide +kernel)

theorem replay_tracked :
    Along (trackStep id id) (fun s c => Tracked id id (trackStep id id s c)) ({}, .empty)
      [partialFill, partialFill] := by
  refine (tracked_iff id id _ ⟨?_, ?_⟩).mpr ⟨?_, ?_⟩
  all_goals decide +kernel

end TradingPlatform.Execution
