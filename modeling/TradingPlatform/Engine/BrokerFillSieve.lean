import TradingPlatform.Broker.OrderPolling
import Mathlib.Algebra.BigOperators.Group.List.Basic
import Mathlib.Algebra.Ring.Rat
import Mathlib.Tactic.Ring

/-! # The slices of the broker fill sieve

A bundle has one slice for each result of a submission. A slice takes its
requested quantity from the order its symbol and side lead to, in the submission
and again in every refresh, where the orders are made from the slices. -/

namespace TradingPlatform.Engine.BrokerFillSieve

open TradingPlatform.Broker TradingPlatform.Lib

def openOrderStatuses : List String := ["new", "accepted", "pending_new", "submitted", "open"]

structure ChildFillSlice where
  orderId : Option String
  requestedQty : ℚ
  side : Side
  filledQty : ℚ := 0
  status : String := "submitted"
  deriving DecidableEq

structure PendingFillBundle where
  strategyId : String
  symbol : String
  slices : List ChildFillSlice := []
  positionsBefore : List Position := []
  unresolvedCycles : Nat := 0
  deriving DecidableEq

/-- The slack below which a fill counts as complete. -/
def fillTolerance : ℚ := 1 / 10 ^ 9

namespace PendingFillBundle

def requestedQty (b : PendingFillBundle) : ℚ := (b.slices.map fun s => max s.requestedQty 0).sum

def filledQty (b : PendingFillBundle) : ℚ := (b.slices.map fun s => max s.filledQty 0).sum

end PendingFillBundle

section Sieve
variable (lower upper : String → String)

/-- Less has been filled than was requested. -/
def ChildFillSlice.unfilled (s : ChildFillSlice) : Bool :=
  decide (0 < s.requestedQty) && decide (s.filledQty + fillTolerance < s.requestedQty)

def PendingFillBundle.needsTracking (b : PendingFillBundle) : Bool :=
  !b.slices.isEmpty &&
    (b.slices.any (fun s => decide (lower s.status ∈ openOrderStatuses)) ||
      decide (b.filledQty + fillTolerance < b.requestedQty) ||
      b.slices.any fun s => decide (lower s.status = "partially_filled") || s.unfilled)

def bundleKey (strategyId symbol : String) : String := strategyId ++ ":" ++ upper symbol

def orderLookup (orders : List Order) : Dict String Order :=
  Dict.keyBy (fun order => orderKey order.symbol order.side) orders

def sliceOf (orders : List Order) (result : OrderResult) : ChildFillSlice :=
  let order := (orderLookup orders).get? (orderKey result.symbol result.side)
  { orderId := result.orderId
    requestedQty := (order.map (·.qty)).getD result.qty
    side := (order.map (·.side)).getD result.side
    filledQty := max result.qty 0
    status := lower (if result.status = "" then "submitted" else result.status) }

def buildSlices (orders : List Order) (results : List OrderResult) : List ChildFillSlice :=
  results.map (sliceOf lower orders)

def bundleFromSubmission (strategyId symbol : String) (orders : List Order)
    (results : List OrderResult) (positionsBefore : List Position) : PendingFillBundle where
  strategyId := strategyId
  symbol := upper symbol
  slices := buildSlices lower orders results
  positionsBefore := positionsBefore

/-- The bundle `reconcile_post_submit` builds, if there are results. -/
def reconciledBundle (broker : RefreshBroker) (strategyId symbol : String) (orders : List Order)
    (results : List OrderResult) (positionsBefore : List Position) : Option PendingFillBundle :=
  if results = [] then none
  else
    some (bundleFromSubmission lower upper strategyId symbol orders
      (broker.shortBurst orders results) positionsBefore)

namespace PendingFillBundle

def orderOf (b : PendingFillBundle) (s : ChildFillSlice) : Order where
  symbol := b.symbol
  side := s.side
  qty := s.requestedQty
  strategyId := b.strategyId

def resultOf (b : PendingFillBundle) (now : String) (s : ChildFillSlice) : OrderResult where
  symbol := b.symbol
  side := s.side
  qty := s.filledQty
  filledPrice := 0
  filledAt := now
  orderId := s.orderId
  status := s.status

/-- The orders `_advance_bundle` makes of the slices. -/
def orders (b : PendingFillBundle) : List Order := b.slices.map b.orderOf

def results (b : PendingFillBundle) (now : String) : List OrderResult := b.slices.map (b.resultOf now)

/-- The loop over `zip(orders, results)`. -/
def refreshResults (refresh : Nat → Order → OrderResult → OrderResult) (orders : List Order)
    (results : List OrderResult) : List OrderResult :=
  (orders.zip results).mapIdx fun i p =>
    if p.2.orderId.getD "" = "" then p.2 else refresh i p.1 p.2

/-- The refresh with which `_advance_bundle` begins. -/
def refreshed (b : PendingFillBundle) (round : String × RefreshBroker) : PendingFillBundle :=
  { b with
    slices := buildSlices lower b.orders
      (refreshResults round.2.refresh b.orders (b.results round.1)) }

end PendingFillBundle

/-! ## What a slice requests -/

/-- What a slice asks for. -/
def ChildFillSlice.frame (s : ChildFillSlice) : ℚ × Side := (s.requestedQty, s.side)

/-- The quantity of the last order with a symbol and side. -/
def matchedQty (orders : List Order) (symbol : String) (side : Side) : ℚ :=
  ((orderLookup orders).get? (orderKey symbol side)).elim 0 (·.qty)

/-- Each result is of one of the orders. -/
def ResultsOf (orders : List Order) (results : List OrderResult) : Prop :=
  ∀ r ∈ results, ∃ o ∈ orders, o.symbol = r.symbol ∧ o.side = r.side

instance (orders : List Order) (results : List OrderResult) : Decidable (ResultsOf orders results) :=
  inferInstanceAs (Decidable (∀ r ∈ results, ∃ o ∈ orders, _))

theorem frame_sliceOf {orders : List Order} {r : OrderResult}
    (h : ∃ o ∈ orders, o.symbol = r.symbol ∧ o.side = r.side) :
    (sliceOf lower orders r).frame = (matchedQty orders r.symbol r.side, r.side) := by
  obtain ⟨o, ho, hsymbol, hside⟩ := h
  unfold sliceOf ChildFillSlice.frame matchedQty
  cases hget : (orderLookup orders).get? (orderKey r.symbol r.side) with
  | none =>
    have hnone := (Dict.keyBy_eq_none _).mp hget o ho
    rw [hsymbol, hside] at hnone
    exact absurd rfl hnone
  | some found =>
    have hkey := (Dict.mem_of_keyBy _ hget).2
    simp only [Option.map_some, Option.getD_some, Option.elim_some, orderKey_side hkey]

/-- What the slices of a submission request depends on the symbols and sides of
its results only. -/
theorem frame_buildSlices {orders : List Order} {results : List OrderResult}
    (h : ResultsOf orders results) :
    (buildSlices lower orders results).map ChildFillSlice.frame =
      (results.map fun r => (r.symbol, r.side)).map fun k => (matchedQty orders k.1 k.2, k.2) := by
  rw [buildSlices, List.map_map, List.map_map]
  exact List.map_congr_left fun r hr => frame_sliceOf lower (h r hr)

theorem ResultsOf.congr {orders : List Order} {results results' : List OrderResult}
    (h : ResultsOf orders results)
    (hsame : results'.map (fun r => (r.symbol, r.side)) = results.map fun r => (r.symbol, r.side)) :
    ResultsOf orders results' := by
  intro r hr
  have hmem : (r.symbol, r.side) ∈ results.map fun r => (r.symbol, r.side) :=
    hsame ▸ List.mem_map_of_mem hr
  obtain ⟨r', hr', heq⟩ := List.mem_map.mp hmem
  obtain ⟨hsymbol, hside⟩ := Prod.mk.inj heq
  rw [← hsymbol, ← hside]
  exact h r' hr'

/-! ## The total -/

/-- How often a submission counts an order: once for each result with its symbol
and side, or never when a later order has the same. -/
def timesCounted (results : List OrderResult) (later : List Order) (o : Order) : Nat :=
  if later.any (fun o' => orderKey o'.symbol o'.side = orderKey o.symbol o.side) then 0
  else results.countP fun r => orderKey r.symbol r.side = orderKey o.symbol o.side

def countedQty (results : List OrderResult) : List Order → ℚ
  | [] => 0
  | o :: later => timesCounted results later o * max o.qty 0 + countedQty results later

/-- The orders counted too often and those counted too rarely make up for each other. -/
def CountedOnce (orders : List Order) (results : List OrderResult) : Prop :=
  countedQty results orders = (orders.map (·.qty)).sum

instance (orders : List Order) (results : List OrderResult) : Decidable (CountedOnce orders results) :=
  inferInstanceAs (Decidable (_ = _))

theorem sum_map_ite {α : Type*} (p : α → Bool) (c : ℚ) (xs : List α) :
    (xs.map fun x => if p x then c else 0).sum = xs.countP p * c := by
  induction xs with
  | nil => simp
  | cons x xs ih =>
    rw [List.map_cons, List.sum_cons, ih, List.countP_cons]
    cases p x
    · simp
    · simp only [if_true, Nat.cast_add, Nat.cast_one]
      ring

/-- An order in front is found only where no later order is. -/
theorem matchedQty_cons (o : Order) (later : List Order) (symbol : String) (side : Side) :
    max (matchedQty (o :: later) symbol side) 0 = max (matchedQty later symbol side) 0 +
      if orderKey symbol side = orderKey o.symbol o.side ∧
          later.any (fun o' => orderKey o'.symbol o'.side = orderKey o.symbol o.side) = false
        then max o.qty 0 else 0 := by
  unfold matchedQty orderLookup
  rw [Dict.get?_keyBy_cons]
  cases hlater : (Dict.keyBy (fun order => orderKey order.symbol order.side) later).get?
      (orderKey symbol side) with
  | some found =>
    obtain ⟨hmem, hkey⟩ := Dict.mem_of_keyBy _ hlater
    have hno : ¬ (orderKey symbol side = orderKey o.symbol o.side ∧
        later.any (fun o' => orderKey o'.symbol o'.side = orderKey o.symbol o.side) = false) := by
      intro h
      obtain ⟨hsame, hnone⟩ := h
      rw [List.any_eq_false] at hnone
      exact hnone found hmem (decide_eq_true (hkey.trans hsame))
    rw [if_neg hno, add_zero]
    rfl
  | none =>
    have hnone := (Dict.keyBy_eq_none _).mp hlater
    rw [Option.none_or, Option.elim_none, max_self, zero_add]
    by_cases hkey : orderKey o.symbol o.side = orderKey symbol side
    · have hno : later.any (fun o' => orderKey o'.symbol o'.side = orderKey o.symbol o.side) =
          false := by
        rw [List.any_eq_false]
        intro o' ho' hsame
        exact hnone o' ho' ((of_decide_eq_true hsame).trans hkey)
      rw [if_pos hkey, if_pos ⟨hkey.symm, hno⟩]
      rfl
    · rw [if_neg hkey, if_neg fun h => hkey h.1.symm]
      exact max_self 0

/-- Adding up over the results is adding up over the orders, each as often as it
is counted. -/
theorem sum_matchedQty (results : List OrderResult) (orders : List Order) :
    (results.map fun r => max (matchedQty orders r.symbol r.side) 0).sum =
      countedQty results orders := by
  induction orders with
  | nil =>
    have hzero : (fun r : OrderResult => max (matchedQty [] r.symbol r.side) 0) = fun _ => 0 := by
      funext r
      exact max_self 0
    rw [hzero]
    simp [countedQty]
  | cons o later ih =>
    rw [countedQty, ← ih]
    simp only [matchedQty_cons o later]
    rw [List.sum_map_add, add_comm]
    refine congrArg (· + _) ?_
    unfold timesCounted
    cases hlater : later.any (fun o' => orderKey o'.symbol o'.side = orderKey o.symbol o.side) with
    | true => simp
    | false =>
      have hsum := sum_map_ite
        (fun r : OrderResult => decide (orderKey r.symbol r.side = orderKey o.symbol o.side))
        (max o.qty 0) results
      simpa using hsum

theorem requestedQty_of_frames (b : PendingFillBundle) :
    b.requestedQty = ((b.slices.map ChildFillSlice.frame).map fun k => max k.1 0).sum := by
  rw [PendingFillBundle.requestedQty, List.map_map]
  rfl

/-- What `reconcile_post_submit` builds requests what its results lead to. -/
theorem frame_reconciled {broker : RefreshBroker} {strategyId symbol : String} {orders : List Order}
    {results : List OrderResult} {positionsBefore : List Position} {b : PendingFillBundle}
    (hresults : ResultsOf orders results)
    (hb : reconciledBundle lower upper broker strategyId symbol orders results positionsBefore =
      some b) :
    b.slices.map ChildFillSlice.frame =
      results.map fun r => (matchedQty orders r.symbol r.side, r.side) := by
  unfold reconciledBundle at hb
  split at hb
  · cases hb
  cases hb
  have hsame := broker.shortBurst_same orders results
  show (buildSlices lower orders (broker.shortBurst orders results)).map _ = _
  rw [frame_buildSlices lower (hresults.congr hsame), hsame, List.map_map]
  rfl

/-! ## The refreshes -/

/-- The quantity of the last slice on a side. -/
def lastQty (slices : List ChildFillSlice) (side : Side) : ℚ :=
  (slices.reverse.find? fun s => decide (s.side = side)).elim 0 (·.requestedQty)

/-- A refresh's results are about the bundle's symbol and the slices' sides. -/
theorem keys_refreshResults (b : PendingFillBundle) (now : String) (broker : RefreshBroker) :
    (PendingFillBundle.refreshResults broker.refresh b.orders (b.results now)).map
        (fun r => (r.symbol, r.side)) = b.slices.map fun s => (b.symbol, s.side) := by
  refine List.ext_getElem? fun i => ?_
  rw [PendingFillBundle.refreshResults, PendingFillBundle.orders, PendingFillBundle.results,
    List.zip_map', List.getElem?_map, List.getElem?_mapIdx, List.getElem?_map, List.getElem?_map]
  cases b.slices[i]? with
  | none => rfl
  | some s =>
    simp only [Option.map_some]
    split
    · rfl
    · obtain ⟨hsymbol, hside⟩ := broker.refresh_same i (b.orderOf s) (b.resultOf now s)
      rw [hsymbol, hside]
      rfl

theorem matchedQty_orders (b : PendingFillBundle) (side : Side) :
    matchedQty b.orders b.symbol side = lastQty b.slices side := by
  unfold matchedQty orderLookup lastQty
  rw [Dict.get?_keyBy, PendingFillBundle.orders, ← List.map_reverse, List.find?_map]
  have hpred : (fun order : Order => decide (orderKey order.symbol order.side =
      orderKey b.symbol side)) ∘ b.orderOf = fun s => decide (s.side = side) := by
    funext s
    by_cases hside : s.side = side
    · simp [PendingFillBundle.orderOf, hside]
    · have hkey : orderKey b.symbol s.side ≠ orderKey b.symbol side :=
        fun h => hside (orderKey_side h)
      simp [PendingFillBundle.orderOf, hside, hkey]
  rw [hpred]
  cases b.slices.reverse.find? fun s => decide (s.side = side) <;> rfl

/-- A refresh gives every slice the quantity of the last one on its side. -/
theorem frame_refreshed (b : PendingFillBundle) (round : String × RefreshBroker) :
    (b.refreshed lower round).slices.map ChildFillSlice.frame =
      b.slices.map fun s => (lastQty b.slices s.side, s.side) := by
  have hkeys := keys_refreshResults b round.1 round.2
  have hof : ResultsOf b.orders
      (PendingFillBundle.refreshResults round.2.refresh b.orders (b.results round.1)) := by
    intro r hr
    have hmem : (r.symbol, r.side) ∈ b.slices.map fun s => (b.symbol, s.side) :=
      hkeys ▸ List.mem_map_of_mem hr
    obtain ⟨s, hs, heq⟩ := List.mem_map.mp hmem
    obtain ⟨hsymbol, hside⟩ := Prod.mk.inj heq
    exact ⟨_, List.mem_map_of_mem hs, hsymbol, hside⟩
  show (buildSlices lower b.orders _).map _ = _
  rw [frame_buildSlices lower hof, hkeys, List.map_map]
  refine List.map_congr_left fun s _ => ?_
  simp only [Function.comp_apply, matchedQty_orders]

/-- Slices on one side request the same. -/
def SidesAgree (slices : List ChildFillSlice) : Prop :=
  ∀ s ∈ slices, ∀ s' ∈ slices, s.side = s'.side → s.requestedQty = s'.requestedQty

theorem lastQty_mem {slices : List ChildFillSlice} {s : ChildFillSlice} (hs : s ∈ slices) :
    ∃ last ∈ slices, last.side = s.side ∧ lastQty slices s.side = last.requestedQty := by
  unfold lastQty
  cases hfind : slices.reverse.find? fun s' => decide (s'.side = s.side) with
  | none =>
    have hnone := List.find?_eq_none.mp hfind s (List.mem_reverse.mpr hs)
    exact absurd (decide_eq_true rfl) hnone
  | some last =>
    refine ⟨last, List.mem_reverse.mp (List.mem_of_find?_eq_some hfind), ?_, rfl⟩
    simpa using List.find?_some hfind

/-- **One refresh** leaves what the slices request as it was exactly when slices
on one side agree. -/
theorem frame_refreshed_iff (b : PendingFillBundle) (round : String × RefreshBroker) :
    (b.refreshed lower round).slices.map ChildFillSlice.frame =
      b.slices.map ChildFillSlice.frame ↔ SidesAgree b.slices := by
  rw [frame_refreshed]
  constructor
  · intro hsame s hs s' hs' hside
    have hown : ∀ s ∈ b.slices, lastQty b.slices s.side = s.requestedQty := fun s hs =>
      congrArg Prod.fst (List.map_inj_left.mp hsame s hs)
    rw [← hown s hs, ← hown s' hs', hside]
  · intro hagree
    refine List.map_congr_left fun s hs => ?_
    obtain ⟨last, hlast, hside, hqty⟩ := lastQty_mem hs
    rw [hqty, hagree last hlast s hs hside]
    rfl

/-- Whether sides agree is a matter of what the slices request. -/
theorem sidesAgree_iff {slices : List ChildFillSlice} :
    SidesAgree slices ↔ ∀ f ∈ slices.map ChildFillSlice.frame,
      ∀ f' ∈ slices.map ChildFillSlice.frame, f.2 = f'.2 → f.1 = f'.1 := by
  simp only [List.forall_mem_map]
  exact Iff.rfl

/-- **Every sequence of refreshes** leaves what the slices request as it was
exactly when slices on one side agree. -/
theorem frame_refreshes_iff (b : PendingFillBundle) (round : String × RefreshBroker) :
    (∀ rounds : List (String × RefreshBroker),
      (rounds.foldl (PendingFillBundle.refreshed lower) b).slices.map ChildFillSlice.frame =
        b.slices.map ChildFillSlice.frame) ↔ SidesAgree b.slices := by
  constructor
  · intro hall
    exact (frame_refreshed_iff lower b round).mp (hall [round])
  · intro hagree rounds
    induction rounds generalizing b with
    | nil => rfl
    | cons round rounds ih =>
      have hone := (frame_refreshed_iff lower b round).mpr hagree
      have hagree' : SidesAgree (b.refreshed lower round).slices := by
        rw [sidesAgree_iff, hone, ← sidesAgree_iff]
        exact hagree
      rw [List.foldl_cons, ih _ hagree', hone]

end Sieve

/-- Results on one side lead to orders of one quantity. -/
def ResultsAgree (orders : List Order) (results : List OrderResult) : Prop :=
  ∀ r ∈ results, ∀ r' ∈ results, r.side = r'.side →
    matchedQty orders r.symbol r.side = matchedQty orders r'.symbol r'.side

instance (orders : List Order) (results : List OrderResult) :
    Decidable (ResultsAgree orders results) :=
  inferInstanceAs (Decidable (∀ r ∈ results, ∀ r' ∈ results, _ → _))

/-- **The sieve preserves requested quantities** of a submission, in its bundle's
total and through every refresh, exactly when its results count every order
once, up to what makes up for it, and results on one side lead to orders of one
quantity. -/
theorem requested_preserved_iff (lower upper : String → String) (broker : RefreshBroker)
    (strategyId symbol : String) (orders : List Order) (results : List OrderResult)
    (positionsBefore : List Position) (b : PendingFillBundle) (hresults : ResultsOf orders results)
    (hb : reconciledBundle lower upper broker strategyId symbol orders results positionsBefore =
      some b) :
    (b.requestedQty = (orders.map (·.qty)).sum ↔ CountedOnce orders results) ∧
      ((∀ rounds : List (String × RefreshBroker),
          (rounds.foldl (PendingFillBundle.refreshed lower) b).slices.map ChildFillSlice.frame =
            b.slices.map ChildFillSlice.frame) ↔ ResultsAgree orders results) := by
  have hframe := frame_reconciled lower upper hresults hb
  constructor
  · rw [requestedQty_of_frames, hframe, List.map_map, CountedOnce, ← sum_matchedQty]
    exact Iff.rfl
  · rw [frame_refreshes_iff lower b ("", broker), sidesAgree_iff, hframe]
    simp only [List.forall_mem_map]
    exact Iff.rfl

def nineShares : Order := { symbol := "QQQ", side := .buy, qty := 9, strategyId := "leg" }

def childFill (orderId : String) : OrderResult :=
  { symbol := "QQQ", side := .buy, qty := 3, filledPrice := 100, filledAt := "t0"
    orderId := some orderId }

/-- A broker whose polls all answer a fill of three. -/
def threesBroker : RefreshBroker :=
  alpacaBroker id (fun _ _ => ⟨100, 3, "filled"⟩) fun _ => ⟨100, 3, "filled"⟩

/-- Three child slices of one order of 9 request 27. -/
theorem children_requested_thrice :
    ∃ b, reconciledBundle id id threesBroker "leg" "QQQ" [nineShares]
        [childFill "a", childFill "b", childFill "c"] [] = some b ∧
      b.requestedQty = 27 ∧ b.requestedQty ≠ ([nineShares].map (·.qty)).sum := by
  refine ⟨_, rfl, ?_, ?_⟩
  all_goals decide +kernel

/-- Two orders a side of one quantity, as an exit and an entry in two parts. -/
def splitOrders : List Order :=
  [ { symbol := "QQQ", side := .sell, qty := 4, strategyId := "leg" },
    { symbol := "QQQ", side := .sell, qty := 4, strategyId := "leg" },
    { symbol := "QQQ", side := .buy, qty := 9, strategyId := "leg" },
    { symbol := "QQQ", side := .buy, qty := 9, strategyId := "leg" } ]

/-- One result an order, the last of which has not filled. -/
def splitResults : List OrderResult :=
  [ { childFill "a" with side := .sell, qty := 4 }, { childFill "b" with side := .sell },
    childFill "c", { childFill "d" with qty := 0, status := "new" } ]

/-- One result for each order requests what was ordered, on both sides, and goes
on doing so. -/
theorem one_result_each_preserved :
    ∃ b, reconciledBundle id id threesBroker "leg" "QQQ" splitOrders splitResults [] = some b ∧
      b.requestedQty = (splitOrders.map (·.qty)).sum ∧
      ([("t1", threesBroker), ("t2", threesBroker)].foldl
          (PendingFillBundle.refreshed id) b).slices.map ChildFillSlice.frame =
        b.slices.map ChildFillSlice.frame := by
  have h := requested_preserved_iff id id threesBroker "leg" "QQQ" splitOrders splitResults [] _
    (by decide +kernel) rfl
  exact ⟨_, rfl, h.1.mpr (by decide +kernel), h.2.mpr (by decide +kernel) _⟩

end TradingPlatform.Engine.BrokerFillSieve
