import TradingPlatform.Broker.AlpacaTactics
import TradingPlatform.Execution.ExecutionAdapter

/-! # Submitting a batch again after a restart

A fresh adapter has no ids in memory: what keeps an accepted order from being sent
again is the broker's answer about its client order id. Only the market path sends
the id along. -/

namespace TradingPlatform.Execution.RestartResubmission

open TradingPlatform.Lib TradingPlatform.Broker TradingPlatform.Broker.Alpaca
open TradingPlatform.Execution.ExecutionAdapter

/-- The broker finds an order by the client order id it was sent with. -/
def found (book : List ChildOrder) (id : String) : Bool :=
  book.any fun child => child.request.clientOrderId = some id

def rejectsDuplicates (book : List ChildOrder) (request : OrderRequest) : Bool :=
  request.clientOrderId.any (found book)

section Adapter
variable (upper lower : String → String) (now : String) (uuid : Nat → String)

/-- The loop over the orders: the answers to duplicates, and what is left to submit. -/
def scan (book : List ChildOrder) : (seen : List String) → List Order →
    List OrderResult × List Order
  | _, [] => ([], [])
  | seen, order :: orders =>
    let (results, toSubmit) := scan book (coid order :: seen) orders
    if coid order ∈ seen ∨ found book (coid order) = true then
      (noopResult now order :: results, toSubmit)
    else (results, order :: toSubmit)

/-- `submit_orders` of a fresh adapter, with no other call in flight. -/
def submitFresh (soakModeEnabled : Bool)
    (contexts : Option (Dict String ExecutionTacticContext)) (orders : List Order) (s : Session) :
    Option (List OrderResult) × Session :=
  let (results, toSubmit) :=
    scan now s.book [] (orders.mapIdx fun i order => assignClientOrderId (uuid i) order)
  if toSubmit = [] then (some results, s)
  else
    let (inner, s) := submitOrders upper lower rejectsDuplicates now soakModeEnabled contexts
      toSubmit s
    (inner.map (results ++ ·), s)

/-! ## What a batch comes to -/

variable (soakModeEnabled : Bool) (orders : List Order)

/-- The order is the first of the batch with its id. -/
def IsFirst (order : Order) : Prop :=
  ∃ before after, orders = before ++ order :: after ∧ ∀ o ∈ before, coid o ≠ coid order

/-- What the broker accepts of the batch on top of its book. -/
def acceptedOf (contexts : Option (Dict String ExecutionTacticContext)) (book : List ChildOrder)
    (answers : List SubmitAnswer) : List ChildOrder :=
  (submitFresh upper lower now uuid soakModeEnabled contexts orders
    { answers, book }).2.book.drop book.length

/-- Whatever the broker answers, and wherever the process dies: nothing that it accepts
of the batch before the restart gets a further quantity after. -/
def AcceptedOnce (contexts contexts' : Option (Dict String ExecutionTacticContext))
    (book : List ChildOrder) : Prop :=
  ∀ answers answers', ∀ earlier ∈ acceptedOf upper lower now uuid soakModeEnabled orders contexts
      book answers,
    ∀ child ∈ acceptedOf upper lower now uuid soakModeEnabled orders contexts'
        (book ++ acceptedOf upper lower now uuid soakModeEnabled orders contexts book answers)
        answers',
      coid child.order = coid earlier.order → child.request.qty ≤ 0

/-- Every order that the batch can bring to the broker goes there as a market order
before the restart. -/
def SentWithId (contexts : Option (Dict String ExecutionTacticContext)) (book : List ChildOrder) :
    Prop :=
  soakModeEnabled = true ∨ ∀ order, IsFirst orders order → 0 < order.qty →
    found book (coid order) = false → tacticOf contexts order = .market

end Adapter

section Scan
variable {now : String} {orders : List Order} {order : Order}

theorem IsFirst.mem (h : IsFirst orders order) : order ∈ orders := by
  obtain ⟨before, after, rfl, -⟩ := h
  simp

theorem isFirst_cons {o : Order} : IsFirst (o :: orders) order ↔
    order = o ∨ (IsFirst orders order ∧ coid o ≠ coid order) := by
  constructor
  · intro h
    obtain ⟨before, after, hsplit, hbefore⟩ := h
    cases before with
    | nil => exact .inl (List.cons.inj hsplit).1.symm
    | cons b before =>
      obtain ⟨rfl, rfl⟩ := List.cons.inj hsplit
      exact .inr ⟨⟨before, after, rfl, fun o ho => hbefore o (List.mem_cons_of_mem _ ho)⟩,
        hbefore o List.mem_cons_self⟩
  · intro h
    rcases h with rfl | ⟨⟨before, after, rfl, hbefore⟩, hne⟩
    · exact ⟨[], orders, rfl, by simp⟩
    · exact ⟨o :: before, after, rfl, List.forall_mem_cons.mpr ⟨hne, hbefore⟩⟩

theorem IsFirst.unique {a b : Order} (ha : IsFirst orders a) (hb : IsFirst orders b)
    (hid : coid a = coid b) : a = b := by
  induction orders with
  | nil => cases ha.mem
  | cons o orders ih =>
    rcases isFirst_cons.mp ha with rfl | ⟨ha, hne⟩
    · rcases isFirst_cons.mp hb with rfl | ⟨-, hne⟩
      · rfl
      · exact absurd hid hne
    · rcases isFirst_cons.mp hb with rfl | ⟨hb, -⟩
      · exact absurd hid.symm hne
      · exact ih ha hb

/-- What is left to submit: the first order of each id that the broker does not find. -/
theorem mem_scan {book : List ChildOrder} {seen : List String} :
    order ∈ (scan now book seen orders).2 ↔
      IsFirst orders order ∧ coid order ∉ seen ∧ found book (coid order) = false := by
  induction orders generalizing seen with
  | nil => simpa [scan] using fun h : IsFirst [] order => nomatch h.mem
  | cons o orders ih =>
    rw [scan, isFirst_cons]
    dsimp only
    by_cases hdup : coid o ∈ seen ∨ found book (coid o) = true
    · rw [if_pos hdup, ih]
      constructor
      · intro h
        obtain ⟨hfirst, hseen, hfound⟩ := h
        rw [List.mem_cons, not_or] at hseen
        exact ⟨.inr ⟨hfirst, Ne.symm hseen.1⟩, hseen.2, hfound⟩
      · intro h
        obtain ⟨rfl | ⟨hfirst, hne⟩, hseen, hfound⟩ := h
        · rcases hdup with hdup | hdup
          · exact absurd hdup hseen
          · rw [hfound] at hdup
            cases hdup
        · exact ⟨hfirst, by simp [hseen, Ne.symm hne], hfound⟩
    · rw [if_neg hdup, List.mem_cons, ih]
      obtain ⟨hnew, hunfound⟩ := not_or.mp hdup
      constructor
      · intro h
        rcases h with rfl | ⟨hfirst, hseen, hfound⟩
        · exact ⟨.inl rfl, hnew, Bool.eq_false_iff.mpr hunfound⟩
        · rw [List.mem_cons, not_or] at hseen
          exact ⟨.inr ⟨hfirst, Ne.symm hseen.1⟩, hseen.2, hfound⟩
      · intro h
        obtain ⟨rfl | ⟨hfirst, hne⟩, hseen, hfound⟩ := h
        · exact .inl rfl
        · exact .inr ⟨hfirst, by simp [hseen, Ne.symm hne], hfound⟩

end Scan

/-! ## One run of the batch -/

section Run
variable (upper lower : String → String) (now : String) (uuid : Nat → String)
  {soakModeEnabled : Bool} {orders : List Order}
  {contexts contexts' : Option (Dict String ExecutionTacticContext)} {book : List ChildOrder}

theorem clientOrderId_eq {order : Order} (h : coid order ≠ "") :
    order.clientOrderId = some (coid order) := by
  unfold coid at h ⊢
  cases hid : order.clientOrderId with
  | none => exact absurd (by rw [hid]; rfl) h
  | some id => rfl

variable (hids : ∀ order ∈ orders, coid order ≠ "")
include hids

theorem assigned_eq :
    (orders.mapIdx fun i order => assignClientOrderId (uuid i) order) = orders := by
  refine List.ext_getElem? fun i => ?_
  rw [List.getElem?_mapIdx]
  cases hget : orders[i]? with
  | none => rfl
  | some order =>
    have hid := hids order (List.mem_of_getElem? hget)
    rw [Option.map_some, assignClientOrderId, if_pos hid]

/-- What the broker accepts of a batch: first orders of ids it does not find, the id
with a market order only. -/
theorem acceptedOf_spec (answers : List SubmitAnswer) :
    ∀ child ∈ acceptedOf upper lower now uuid soakModeEnabled orders contexts book answers,
      soakModeEnabled = false ∧ IsFirst orders child.order ∧
      found book (coid child.order) = false ∧
      child.request.clientOrderId =
        (if tacticOf contexts child.order = .market then child.order.clientOrderId else none) ∧
      (0 < child.request.qty → 0 < child.order.qty) := by
  intro child hchild
  rw [acceptedOf, submitFresh] at hchild
  simp only [assigned_eq uuid hids] at hchild
  split at hchild
  · simp at hchild
  cases soakModeEnabled with
  | true => simp [submitOrders] at hchild
  | false =>
    simp only [submitOrders, Bool.false_eq_true, if_false] at hchild
    obtain ⟨children, hbook, hspec⟩ := submitSync_children upper lower rejectsDuplicates now
      contexts (scan now book [] orders).2 { answers, book }
    rw [hbook, List.drop_left] at hchild
    obtain ⟨hmem, hid, hqty⟩ := hspec child hchild
    obtain ⟨hfirst, -, hunfound⟩ := mem_scan.mp hmem
    exact ⟨rfl, hfirst, hunfound, hid, hqty⟩

/-- Any first order of an id that the broker does not find can be accepted. -/
theorem exists_accepted (contexts : Option (Dict String ExecutionTacticContext))
    (hsoak : soakModeEnabled = false) {order : Order}
    (hfirst : IsFirst orders order) (hqty : 0 < order.qty)
    (hunfound : found book (coid order) = false) :
    ∃ answers, ∃ child ∈
      acceptedOf upper lower now uuid soakModeEnabled orders contexts book answers,
      child.order = order ∧ 0 < child.request.qty := by
  have hmem : order ∈ (scan now book [] orders).2 :=
    mem_scan.mpr ⟨hfirst, List.not_mem_nil, hunfound⟩
  obtain ⟨before, after, hsplit⟩ := List.append_of_mem hmem
  obtain ⟨skip, hskip⟩ := submitSync_refused upper lower rejectsDuplicates now contexts before
  have hrejects : ∀ request : OrderRequest, request.clientOrderId = none ∨
      request.clientOrderId = order.clientOrderId → rejectsDuplicates book request = false := by
    rintro request (hnone | hid)
    · rw [rejectsDuplicates, hnone, Option.any_none]
    · rw [rejectsDuplicates, hid, clientOrderId_eq (hids order hfirst.mem), Option.any_some,
        hunfound]
  obtain ⟨request, hpos, htactic⟩ := submitTactic_accepted upper lower rejectsDuplicates now
    contexts hqty (s := { answers := [.acceptsAndRaises], book }) rfl hrejects
  refine ⟨skip ++ [.acceptsAndRaises], { order, request }, ?_, rfl, hpos⟩
  have hne : (scan now book [] orders).2 ≠ [] := List.ne_nil_of_mem hmem
  rw [acceptedOf, submitFresh]
  simp only [assigned_eq uuid hids, if_neg hne, submitOrders, hsoak, Bool.false_eq_true, if_false]
  rw [hsplit, hskip _ [.acceptsAndRaises] (order :: after) rfl, submitSync]
  generalize submitTactic upper lower rejectsDuplicates now contexts order
    { answers := [.acceptsAndRaises], book } = out at htactic ⊢
  obtain ⟨outcome, t⟩ := out
  obtain rfl : t = _ := htactic
  have hrest (u : Session) (hu : u.book = book ++ [({ order, request } : ChildOrder)]) :
      ({ order, request } : ChildOrder) ∈
        (submitSync upper lower rejectsDuplicates now contexts after u).2.book.drop
          book.length := by
    obtain ⟨children, hbook, -⟩ := submitSync_children upper lower rejectsDuplicates now
      contexts after u
    rw [hbook, hu, List.append_assoc, List.drop_left]
    simp
  cases outcome with
  | died => simp
  | returned batch => exact hrest _ rfl
  | raised => exact hrest _ rfl

/-- What was accepted of an order that is not sent with its id cannot be found by it. -/
theorem unfound_after {contexts : Option (Dict String ExecutionTacticContext)}
    {answers : List SubmitAnswer} {order : Order} (hfirst : IsFirst orders order)
    (htactic : tacticOf contexts order ≠ .market) (hunfound : found book (coid order) = false) :
    found (book ++ acceptedOf upper lower now uuid soakModeEnabled orders contexts book answers)
      (coid order) = false := by
  rw [found, List.any_append, Bool.or_eq_false_iff]
  refine ⟨hunfound, List.any_eq_false.mpr fun child hchild hid => ?_⟩
  obtain ⟨-, hchildFirst, -, hchildId, -⟩ :=
    acceptedOf_spec upper lower now uuid hids answers child hchild
  rw [of_decide_eq_true hid] at hchildId
  split at hchildId
  · rename_i hmarket
    have hsame := hchildFirst.unique hfirst (by rw [coid, ← hchildId, Option.getD_some])
    rw [hsame] at hmarket
    exact htactic hmarket
  · cases hchildId

/-- What was accepted of an order that is sent with its id is found by it. -/
theorem found_after {contexts : Option (Dict String ExecutionTacticContext)}
    {answers : List SubmitAnswer} {child : ChildOrder}
    (hchild : child ∈ acceptedOf upper lower now uuid soakModeEnabled orders contexts book answers)
    (htactic : tacticOf contexts child.order = .market) :
    found (book ++ acceptedOf upper lower now uuid soakModeEnabled orders contexts book answers)
      (coid child.order) = true := by
  obtain ⟨-, hfirst, -, hid, -⟩ := acceptedOf_spec upper lower now uuid hids answers child hchild
  rw [if_pos htactic, clientOrderId_eq (hids _ hfirst.mem)] at hid
  exact List.any_eq_true.mpr ⟨child, List.mem_append_right _ hchild, decide_eq_true hid⟩

end Run

/-- After a restart the broker accepts no further quantity of what it had accepted
exactly when everything the batch can bring to it is sent with its id. -/
theorem accepted_once_iff (upper lower : String → String) (now : String) (uuid : Nat → String)
    (soakModeEnabled : Bool) (orders : List Order) (hids : ∀ order ∈ orders, coid order ≠ "")
    (contexts contexts' : Option (Dict String ExecutionTacticContext)) (book : List ChildOrder) :
    AcceptedOnce upper lower now uuid soakModeEnabled orders contexts contexts' book ↔
      SentWithId soakModeEnabled orders contexts book := by
  constructor
  · intro honce
    by_contra hsent
    obtain ⟨hsoak, hsent⟩ := not_or.mp hsent
    simp only [not_forall] at hsent
    obtain ⟨order, hfirst, hqty, hunfound, htactic⟩ := hsent
    have hsoak := Bool.eq_false_iff.mpr hsoak
    obtain ⟨answers, earlier, hearlier, horder, -⟩ :=
      exists_accepted upper lower now uuid hids contexts hsoak hfirst hqty hunfound
    -- what was accepted of the order carries no id, so the broker does not find it
    have hunfound' : found (book ++ acceptedOf upper lower now uuid soakModeEnabled orders contexts
        book answers) (coid order) = false :=
      unfound_after upper lower now uuid hids hfirst htactic hunfound
    obtain ⟨answers', child, hchild, horder', hpos⟩ :=
      exists_accepted upper lower now uuid hids contexts' hsoak hfirst hqty hunfound'
    have hle := honce answers answers' earlier hearlier child hchild (by rw [horder, horder'])
    exact absurd hpos (not_lt.mpr hle)
  · intro hsent answers answers' earlier hearlier child hchild hid
    by_contra hqty
    obtain ⟨hsoak, hfirst, hunfound, -, -⟩ :=
      acceptedOf_spec upper lower now uuid hids answers earlier hearlier
    obtain ⟨-, hfirst', hunfound', -, hpos⟩ :=
      acceptedOf_spec upper lower now uuid hids answers' child hchild
    have hsame := hfirst'.unique hfirst hid
    rw [hsame] at hpos hunfound'
    rcases hsent with hsent | hsent
    · rw [hsoak] at hsent
      cases hsent
    have hfound := found_after upper lower now uuid hids hearlier
      (hsent _ hfirst (hpos (not_le.mp hqty)) hunfound)
    rw [hfound] at hunfound'
    cases hunfound'

/-! ## One order and a restart -/

def limitOrder : Order :=
  { symbol := "SPY", side := .buy, qty := 5, orderType := "limit", strategyId := "mr"
    clientOrderId := some "c-1" }

def calmContext : ExecutionTacticContext := { diagnostics := ⟨false, false⟩ }

def iocContexts : Dict String ExecutionTacticContext := .set .empty "mr:SPY:buy" calmContext

/-- The IOC order is accepted, the process restarts, and it is accepted again. -/
theorem ioc_accepted_twice :
    ¬ AcceptedOnce id id "now" (fun _ => "") false [limitOrder] (some iocContexts)
      (some iocContexts) [] := by
  intro honce
  let child : ChildOrder :=
    { order := limitOrder, request := childRequest id limitOrder 5 none }
  have hfirst : acceptedOf id id "now" (fun _ => "") false [limitOrder] (some iocContexts) []
      [.acceptsAndRaises] = [child] := by decide +kernel
  have hsecond : acceptedOf id id "now" (fun _ => "") false [limitOrder] (some iocContexts)
      [child] [.acceptsAndRaises] = [child] := by decide +kernel
  have hself : child ∈ [child] := List.mem_singleton_self child
  have hearlier : child ∈ acceptedOf id id "now" (fun _ => "") false [limitOrder]
      (some iocContexts) [] [.acceptsAndRaises] := hfirst ▸ hself
  have hagain : child ∈ acceptedOf id id "now" (fun _ => "") false [limitOrder]
      (some iocContexts) [child] [.acceptsAndRaises] := hsecond ▸ hself
  have hqty := honce [.acceptsAndRaises] [.acceptsAndRaises] child hearlier child
    (by rw [hfirst]; exact hagain) rfl
  exact absurd hqty (by decide +kernel)

/-- Without a context the order goes as a market order, with its id. -/
theorem market_accepted_once :
    AcceptedOnce id id "now" (fun _ => "") false [limitOrder] none (some iocContexts) [] :=
  (accepted_once_iff id id "now" (fun _ => "") false [limitOrder] (by decide) none
    (some iocContexts) []).mpr (.inr fun _ _ _ _ => rfl)

end TradingPlatform.Execution.RestartResubmission
