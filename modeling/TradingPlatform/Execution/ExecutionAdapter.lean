import TradingPlatform.Models
import TradingPlatform.Lib.Runs
import TradingPlatform.Lib.Tokens

/-! # The idempotent execution adapter

Calls of `submit_orders` run as coroutines that give way while the broker is
asked about an id and while a batch is sent. An id is reserved in `_seen` before
the first of these, and nothing ever takes it out. -/

namespace TradingPlatform.Execution.ExecutionAdapter

open TradingPlatform.Lib TradingPlatform.Lib.Runs

def duplicateNoopStatus : String := "duplicate_noop"

/-- The id an order carries. -/
def coid (order : Order) : String := order.clientOrderId.getD ""

/-- `assign_client_order_id(order)`, as `submit_orders` calls it: without a signal
timestamp, `uuid` is the fallback. -/
def assignClientOrderId (uuid : String) (order : Order) : Order :=
  if coid order ≠ "" then order
  else
    { order with clientOrderId := some ("mbappe-" ++ String.ofList (uuid.toList.take 32)) }

def noopResult (now : String) (order : Order) : OrderResult where
  symbol := order.symbol
  side := order.side
  qty := 0
  filledPrice := 0
  filledAt := now
  orderId := order.clientOrderId
  status := duplicateNoopStatus

/-- Where one call of `submit_orders` stands. -/
inductive SubmitOrders
  | scanning (orders toSubmit : List Order) (results : List OrderResult)
  | querying (order : Order) (orders toSubmit : List Order) (results : List OrderResult)
  | sending (toSubmit : List Order) (results : List OrderResult)
  | returned (results : List OrderResult)
  | raised (error : String)
  deriving DecidableEq

/-- The ids a call has reserved and may still bring to the broker. -/
def SubmitOrders.carried : SubmitOrders → List String
  | .scanning _ toSubmit _ => toSubmit.map coid
  | .querying order _ toSubmit _ => coid order :: toSubmit.map coid
  | .sending toSubmit _ => toSubmit.map coid
  | .returned _ | .raised _ => []

/-- `accepted` is the broker's; `noops` and `ended` record the ids answered as
duplicates, and those that ended calls were carrying. -/
structure State where
  seen : List String := []
  calls : List SubmitOrders := []
  accepted : List String := []
  noops : List String := []
  ended : List String := []
  deriving DecidableEq

/-- What the outside answers in one step of a call; `existing` is whether the
broker finds the id (a getter that is missing or raises finds nothing). -/
structure Answers where
  uuid : String := ""
  now : String := ""
  existing : Bool := false
  inner : Except String (List OrderResult) := .ok []

inductive Move
  | call (orders : List Order)
  | run (t : Nat) (answers : Answers)
  | accept (t i : Nat)
  | cancel (t : Nat) (error : String)

def State.put (s : State) (t : Nat) (c : SubmitOrders) : State :=
  { s with calls := s.calls.set t c }

/-- A call that returns or raises stops carrying its ids. -/
def State.finish (s : State) (t : Nat) (c c' : SubmitOrders) : State :=
  { s.put t c' with ended := s.ended ++ c.carried }

def State.noop (s : State) (order : Order) : State :=
  { s with noops := s.noops ++ [coid order] }

/-- The next step of a call. -/
def runCall (s : State) (t : Nat) (c : SubmitOrders) (a : Answers) : State :=
  match c with
  | .scanning [] [] results => s.put t (.returned results)
  | .scanning [] toSubmit results => s.put t (.sending toSubmit results)
  | .scanning (order :: orders) toSubmit results =>
    let order := assignClientOrderId a.uuid order
    if coid order ∈ s.seen then
      (s.put t (.scanning orders toSubmit (results ++ [noopResult a.now order]))).noop order
    else
      { s.put t (.querying order orders toSubmit results) with seen := s.seen ++ [coid order] }
  | .querying order orders toSubmit results =>
    if a.existing then
      (s.put t (.scanning orders toSubmit (results ++ [noopResult a.now order]))).noop order
    else s.put t (.scanning orders (toSubmit ++ [order]) results)
  | .sending _ results =>
    match a.inner with
    | .error error => s.finish t c (.raised error)
    | .ok submitted => s.finish t c (.returned (results ++ submitted))
  | .returned _ => s
  | .raised _ => s

/-- The broker accepts an order of the batch that a call is sending. -/
def acceptOrder (s : State) (i : Nat) : SubmitOrders → State
  | .sending toSubmit _ =>
    (toSubmit[i]?).elim s fun order => { s with accepted := s.accepted ++ [coid order] }
  | _ => s

/-- An await of the call raises. -/
def cancelCall (s : State) (t : Nat) (c : SubmitOrders) (error : String) : State :=
  match c with
  | .returned _ => s
  | .raised _ => s
  | _ => s.finish t c (.raised error)

def step (s : State) : Move → State
  | .call orders => { s with calls := s.calls ++ [.scanning orders [] []] }
  | .run t a => (s.calls[t]?).elim s fun c => runCall s t c a
  | .accept t i => (s.calls[t]?).elim s (acceptOrder s i)
  | .cancel t error => (s.calls[t]?).elim s fun c => cancelCall s t c error

/-! ## What a duplicate may be -/

/-- Some call may still bring the id to the broker. -/
def InFlight (s : State) (id : String) : Prop := ∃ c ∈ s.calls, id ∈ c.carried

instance (s : State) (id : String) : Decidable (InFlight s id) :=
  inferInstanceAs (Decidable (∃ c ∈ s.calls, id ∈ c.carried))

/-- An id answered as a duplicate has been accepted, or is in flight. -/
def NoopJustified (s : State) (mv : Move) : Prop :=
  ∀ id, (step s mv).noops = s.noops ++ [id] →
    id ∈ (step s mv).accepted ∨ InFlight (step s mv) id

/-- The order a move is about to check against `_seen`. -/
def scanned? (s : State) : Move → Option Order
  | .run t a =>
    match s.calls[t]? with
    | some (.scanning (order :: _) _ _) => some (assignClientOrderId a.uuid order)
    | _ => none
  | _ => none

/-- An order that an ended call was carrying comes again only if the broker has
accepted it. -/
def NotLost (s : State) (mv : Move) : Prop :=
  ∀ order ∈ scanned? s mv, coid order ∈ s.ended → coid order ∈ s.accepted

def SubmitOrders.queried? : SubmitOrders → Option Order
  | .querying order _ _ _ => some order
  | _ => none

/-- The broker finds an id only if it has accepted it. -/
def FindsOnlyAccepted (s : State) : Move → Prop
  | .run t a => ∀ order ∈ (s.calls[t]?).bind SubmitOrders.queried?, a.existing = true →
      coid order ∈ s.accepted
  | _ => True

/-! ## What one step can do -/

inductive Effect (s : State) (mv : Move) : State → Prop
  | idle (hscan : scanned? s mv = none) : Effect s mv s
  | spawned (orders : List Order) (hscan : scanned? s mv = none) :
      Effect s mv { s with calls := s.calls ++ [.scanning orders [] []] }
  | moved {t : Nat} {c c' : SubmitOrders} (ht : s.calls[t]? = some c)
      (hsame : ∀ id, c'.carried.count id = c.carried.count id) (hscan : scanned? s mv = none) :
      Effect s mv (s.put t c')
  | duplicate {t : Nat} {c c' : SubmitOrders} {order : Order} (ht : s.calls[t]? = some c)
      (hsame : c'.carried = c.carried) (hscan : scanned? s mv = some order)
      (hseen : coid order ∈ s.seen) : Effect s mv ((s.put t c').noop order)
  | reserved {t : Nat} {c c' : SubmitOrders} {order : Order} (ht : s.calls[t]? = some c)
      (htakes : c'.carried = coid order :: c.carried) (hscan : scanned? s mv = some order)
      (hseen : coid order ∉ s.seen) :
      Effect s mv { s.put t c' with seen := s.seen ++ [coid order] }
  | found {t : Nat} {c c' : SubmitOrders} {order : Order} (ht : s.calls[t]? = some c)
      (hdrops : c.carried = coid order :: c'.carried) (hscan : scanned? s mv = none)
      (hfound : FindsOnlyAccepted s mv → coid order ∈ s.accepted) :
      Effect s mv ((s.put t c').noop order)
  | accepted (id : String) (hscan : scanned? s mv = none) :
      Effect s mv { s with accepted := s.accepted ++ [id] }
  | finished {t : Nat} {c c' : SubmitOrders} (ht : s.calls[t]? = some c) (hdone : c'.carried = [])
      (hscan : scanned? s mv = none) : Effect s mv (s.finish t c c')

theorem effect_run (s : State) (t : Nat) (a : Answers) :
    Effect s (.run t a) (step s (.run t a)) := by
  rw [step]
  cases ht : s.calls[t]? with
  | none => exact .idle (by simp [scanned?, ht])
  | some c =>
    rw [Option.elim_some]
    cases c with
    | scanning orders toSubmit results =>
      cases orders with
      | nil =>
        have hscan : scanned? s (.run t a) = none := by simp [scanned?, ht]
        cases toSubmit with
        | nil => exact .moved ht (fun _ => rfl) hscan
        | cons order rest => exact .moved ht (fun _ => rfl) hscan
      | cons order orders =>
        have hscan : scanned? s (.run t a) = some (assignClientOrderId a.uuid order) := by
          simp [scanned?, ht]
        simp only [runCall]
        split
        · rename_i hseen
          exact .duplicate ht rfl hscan hseen
        · rename_i hseen
          exact .reserved ht rfl hscan hseen
    | querying order orders toSubmit results =>
      have hscan : scanned? s (.run t a) = none := by simp [scanned?, ht]
      simp only [runCall]
      split
      · rename_i hexisting
        exact .found ht rfl hscan fun hfinds => hfinds order (by simp [ht, SubmitOrders.queried?]) hexisting
      · refine .moved ht (fun id => ?_) hscan
        simp only [SubmitOrders.carried, List.map_append, List.map_singleton, List.count_append,
          List.count_cons, List.count_nil]
        omega
    | sending toSubmit results =>
      have hscan : scanned? s (.run t a) = none := by simp [scanned?, ht]
      simp only [runCall]
      split
      · exact .finished ht rfl hscan
      · exact .finished ht rfl hscan
    | returned results => exact .idle (by simp [scanned?, ht])
    | raised error => exact .idle (by simp [scanned?, ht])

theorem effect_step (s : State) (mv : Move) : Effect s mv (step s mv) := by
  cases mv with
  | call orders => exact .spawned orders rfl
  | run t a => exact effect_run s t a
  | accept t i =>
    rw [step]
    cases ht : s.calls[t]? with
    | none => exact .idle rfl
    | some c =>
      rw [Option.elim_some, acceptOrder.eq_def]
      split
      · rename_i toSubmit results
        cases toSubmit[i]? with
        | none => exact .idle rfl
        | some order => exact .accepted (coid order) rfl
      · exact .idle rfl
  | cancel t error =>
    rw [step]
    cases ht : s.calls[t]? with
    | none => exact .idle rfl
    | some c =>
      rw [Option.elim_some, cancelCall.eq_def]
      split
      · exact .idle rfl
      · exact .idle rfl
      · exact .finished ht rfl rfl

/-! ## The ids that are reserved -/

/-- How many times an id is carried by a call or was carried when one ended. -/
def load (s : State) (id : String) : Nat :=
  s.ended.count id + Tokens.total SubmitOrders.carried s.calls id

/-- An id is carried at most once, and only when reserved; a reserved id that is
no longer carried has been accepted. -/
structure Reserved (s : State) : Prop where
  once : ∀ id, load s id ≤ 1
  seen : ∀ id, 0 < load s id → id ∈ s.seen
  kept : ∀ id ∈ s.seen, id ∈ s.accepted ∨ 0 < load s id

theorem inFlight_iff {s : State} {id : String} :
    InFlight s id ↔ 0 < Tokens.total SubmitOrders.carried s.calls id :=
  (Tokens.total_pos SubmitOrders.carried).symm

/-- One call moves on: the load changes by what it gains and loses. -/
theorem load_set {s : State} (s' : State) {t : Nat} {c c' : SubmitOrders} (ht : s.calls[t]? = some c)
    (hcalls : s'.calls = s.calls.set t c') (hended : s'.ended = s.ended) (id : String) :
    load s' id + c.carried.count id = load s id + c'.carried.count id := by
  have htotal := Tokens.total_set SubmitOrders.carried ht c' id
  rw [load, load, hcalls, hended]
  omega

/-- A step that leaves the load and the reservations as they are. -/
theorem Reserved.same {s s' : State} (h : Reserved s) (hload : ∀ id, load s' id = load s id)
    (hseen : s'.seen = s.seen) (hacc : s.accepted ⊆ s'.accepted) : Reserved s' where
  once id := by rw [hload]; exact h.once id
  seen id hpos := by
    rw [hload] at hpos
    rw [hseen]
    exact h.seen id hpos
  kept id hid := by
    rw [hseen] at hid
    rw [hload]
    exact (h.kept id hid).imp_left (@hacc id)

/-- A step that takes on an id that was not reserved, and reserves it. -/
theorem Reserved.reserve {s s' : State} {id : String} (h : Reserved s) (hnew : id ∉ s.seen)
    (hload : ∀ other, load s' other = load s other + if id = other then 1 else 0)
    (hseen : s'.seen = s.seen ++ [id]) (hacc : s'.accepted = s.accepted) : Reserved s' where
  once other := by
    have hfree : load s id = 0 := Nat.eq_zero_of_not_pos fun hpos => hnew (h.seen id hpos)
    rw [hload]
    split
    · rename_i hid
      rw [← hid, hfree]
    · exact h.once other
  seen other hpos := by
    rw [hload] at hpos
    rw [hseen, List.mem_append, List.mem_singleton]
    by_cases hid : id = other
    · exact .inr hid.symm
    · rw [if_neg hid] at hpos
      exact .inl (h.seen other hpos)
  kept other hother := by
    rw [hseen] at hother
    rw [hload, hacc]
    rcases List.mem_append.mp hother with hold | hlast
    · exact (h.kept other hold).imp_right fun hpos => Nat.lt_of_lt_of_le hpos (Nat.le_add_right _ _)
    · rw [List.mem_singleton.mp hlast, if_pos rfl]
      exact .inr (Nat.succ_pos _)

/-- A step that lets go of an id that was accepted. -/
theorem Reserved.release {s s' : State} {id : String} (h : Reserved s) (haccepted : id ∈ s.accepted)
    (hload : ∀ other, load s' other + (if id = other then 1 else 0) = load s other)
    (hseen : s'.seen = s.seen) (hacc : s'.accepted = s.accepted) : Reserved s' where
  once other := by
    have honce := h.once other
    have hl := hload other
    omega
  seen other hpos := by
    have hl := hload other
    rw [hseen]
    exact h.seen other (by omega)
  kept other hother := by
    rw [hseen] at hother
    rw [hacc]
    by_cases hid : id = other
    · exact .inl (hid ▸ haccepted)
    · have hl := hload other
      rw [if_neg hid] at hl
      exact (h.kept other hother).imp_right fun hpos => by omega

theorem reserved_effect {s s' : State} {mv : Move} (h : Reserved s) (hfinds : FindsOnlyAccepted s mv)
    (he : Effect s mv s') : Reserved s' := by
  cases he with
  | idle hscan => exact h
  | spawned orders hscan =>
    refine h.same (fun id => ?_) rfl (List.Subset.refl _)
    rw [load, Tokens.total_append_singleton]
    rfl
  | @moved t c c' ht hsame hscan =>
    refine h.same (fun id => ?_) rfl (List.Subset.refl _)
    have hmoved := load_set (s.put t c') ht rfl rfl id
    rw [hsame] at hmoved
    exact Nat.add_right_cancel hmoved
  | @duplicate t c c' order ht hsame hscan hseen =>
    refine h.same (fun id => ?_) rfl (List.Subset.refl _)
    have hmoved := load_set ((s.put t c').noop order) ht rfl rfl id
    rw [hsame] at hmoved
    exact Nat.add_right_cancel hmoved
  | @reserved t c c' order ht htakes hscan hseen =>
    refine h.reserve hseen (fun id => ?_) rfl rfl
    have hmoved := load_set { s.put t c' with seen := s.seen ++ [coid order] } ht rfl rfl id
    rw [htakes, List.count_cons] at hmoved
    simp only [beq_iff_eq] at hmoved ⊢
    omega
  | @found t c c' order ht hdrops hscan hfound =>
    refine h.release (hfound hfinds) (fun id => ?_) rfl rfl
    have hmoved := load_set ((s.put t c').noop order) ht rfl rfl id
    rw [hdrops, List.count_cons] at hmoved
    simp only [beq_iff_eq] at hmoved
    omega
  | accepted id hscan => exact h.same (fun _ => rfl) rfl (List.subset_append_left _ _)
  | @finished t c c' ht hdone hscan =>
    refine h.same (fun id => ?_) rfl (List.Subset.refl _)
    have htotal := Tokens.total_set SubmitOrders.carried ht c' id
    rw [hdone, List.count_nil] at htotal
    show (s.ended ++ c.carried).count id +
      Tokens.total SubmitOrders.carried (s.calls.set t c') id = load s id
    rw [load, List.count_append]
    omega

/-- **One step** answers a duplicate with good reason exactly when the order it
checks was not lost. -/
theorem noopJustified_iff {s : State} {mv : Move} (h : Reserved s)
    (hfinds : FindsOnlyAccepted s mv) : NoopJustified s mv ↔ NotLost s mv := by
  have he := effect_step s mv
  unfold NoopJustified NotLost
  generalize step s mv = s' at he
  have hquiet : s'.noops = s.noops → ∀ id, s'.noops ≠ s.noops ++ [id] := by
    intro hsame id hid
    simp [hsame] at hid
  cases he with
  | idle hscan => exact iff_of_true (fun id hid => absurd hid (hquiet rfl id)) (by simp [hscan])
  | spawned orders hscan =>
    exact iff_of_true (fun id hid => absurd hid (hquiet rfl id)) (by simp [hscan])
  | moved ht hsame hscan =>
    exact iff_of_true (fun id hid => absurd hid (hquiet rfl id)) (by simp [hscan])
  | accepted id hscan =>
    exact iff_of_true (fun id hid => absurd hid (hquiet rfl id)) (by simp [hscan])
  | finished ht hdone hscan =>
    exact iff_of_true (fun id hid => absurd hid (hquiet rfl id)) (by simp [hscan])
  | reserved ht htakes hscan hseen =>
    refine iff_of_true (fun id hid => absurd hid (hquiet rfl id)) fun order' horder' hended => ?_
    cases hscan.symm.trans horder'
    refine absurd (h.seen _ ?_) hseen
    exact Nat.lt_of_lt_of_le (List.count_pos_iff.mpr hended) (Nat.le_add_right _ _)
  | found ht hdrops hscan hfound =>
    refine iff_of_true (fun id hid => .inl ?_) (by simp [hscan])
    cases (List.append_cancel_left hid : [_] = [id])
    exact hfound hfinds
  | @duplicate t c c' order ht hsame hscan hseen =>
    have hflight : InFlight ((s.put t c').noop order) (coid order) ↔ InFlight s (coid order) := by
      have htotal := Tokens.total_set SubmitOrders.carried ht c' (coid order)
      rw [hsame] at htotal
      rw [inFlight_iff, inFlight_iff, ← Nat.add_right_cancel htotal]
      rfl
    constructor
    · intro hall order' horder' hended
      cases hscan.symm.trans horder'
      refine (hall (coid order) rfl).resolve_right fun hcarried => ?_
      -- an id that an ended call was carrying is not carried by another
      rw [hflight, inFlight_iff] at hcarried
      have honce := h.once (coid order)
      have hpos := List.count_pos_iff.mpr hended
      rw [load] at honce
      omega
    · intro hlost id hid
      cases (List.append_cancel_left hid : [_] = [id])
      rw [hflight]
      rcases h.kept _ hseen with hacc | hpos
      · exact .inl hacc
      by_cases hended : coid order ∈ s.ended
      · exact .inl (hlost order hscan hended)
      · rw [load, List.count_eq_zero_of_not_mem hended, Nat.zero_add] at hpos
        exact .inr (inFlight_iff.mpr hpos)

theorem reserved_step (s : State) (mv : Move) (h : Reserved s) (hfinds : FindsOnlyAccepted s mv) :
    Reserved (step s mv) :=
  reserved_effect h hfinds (effect_step s mv)

/-- **No order is lost to the dedupe**, in every interleaving of calls, exactly
when no order comes again that an ended call was carrying and the broker has not
accepted. -/
theorem noops_justified_iff (accepted : List String) (mvs : List Move)
    (hfinds : Along step FindsOnlyAccepted { accepted } mvs) :
    Along step NoopJustified { accepted } mvs ↔ Along step NotLost { accepted } mvs := by
  refine along_congr_of reserved_step (fun s mv h hf => noopJustified_iff h hf) mvs ?_ hfinds
  refine ⟨fun id => ?_, fun id hpos => ?_, fun id hid => absurd hid List.not_mem_nil⟩
  · exact Nat.zero_le 1
  · exact absurd hpos (Nat.lt_irrefl 0)

def qqqOrder : Order := { symbol := "QQQ", side := .buy, qty := 10, clientOrderId := some "c1" }

instance (s : State) (mv : Move) : Decidable (NotLost s mv) :=
  inferInstanceAs (Decidable (∀ order ∈ scanned? s mv, _ → _))

instance (s : State) (mv : Move) : Decidable (FindsOnlyAccepted s mv) := by
  cases mv <;> dsimp only [FindsOnlyAccepted] <;> infer_instance

/-- The broker raises before it accepts anything. -/
def failedBatch : List Move :=
  [.call [qqqOrder], .run 0 {}, .run 0 {}, .run 0 {},
    .run 0 { inner := .error "connection reset" }]

/-- The retry of an order that the broker never accepted is answered as a
duplicate. -/
theorem retry_lost :
    Along step FindsOnlyAccepted {} (failedBatch ++ [.call [qqqOrder], .run 1 {}]) ∧
      (run step {} (failedBatch ++ [.call [qqqOrder], .run 1 {}])).accepted = [] ∧
      ¬ Along step NoopJustified {} (failedBatch ++ [.call [qqqOrder], .run 1 {}]) := by
  refine ⟨by decide +kernel, by decide +kernel, fun h => ?_⟩
  obtain ⟨-, -, hnoop, -⟩ := along_append.mp h
  exact absurd (hnoop "c1" (by decide +kernel)) (by decide +kernel)

/-- Two calls with one order at once: the second is answered while the first is in
flight, and again after the broker has accepted it. -/
theorem storm_justified :
    Along step NoopJustified {}
      [.call [qqqOrder], .call [qqqOrder], .run 0 {}, .run 1 {}, .run 0 {}, .run 0 {}, .accept 0 0,
        .run 0 {}, .call [qqqOrder], .run 2 {}] := by
  refine (noops_justified_iff [] _ ?_).mpr ?_
  all_goals decide +kernel

end TradingPlatform.Execution.ExecutionAdapter
