import TradingPlatform.Broker.OrderPolling
import Mathlib.Algebra.Order.Floor.Semiring
import Mathlib.Data.Rat.Floor

/-! # Submitting orders through tactics

An order goes to the broker as a market order, as one IOC limit order, or as a
series of passive slices. What the broker answers each child order is listed; when
the list runs out, the process has died. Limit prices and times in force are left
out, since the broker may answer anything. -/

namespace TradingPlatform.Broker.Alpaca

open TradingPlatform.Lib

def orderStatusPollAttempts : Nat := 5
def twapSlicesCount : ℚ := 3

structure ExecutionDriftDiagnostics where
  elevated : Bool
  critical : Bool
  deriving DecidableEq

structure ExecutionTacticContext where
  diagnostics : ExecutionDriftDiagnostics
  forceAggressiveIoc : Bool := false
  deriving DecidableEq

structure OrderRequest where
  symbol : String
  qty : ℚ
  side : Side
  clientOrderId : Option String := none
  deriving DecidableEq

/-- A child order the broker accepted: the order it is sent for, what the client
made of its polls, and the quantity filled at the last poll that answered. -/
structure ChildOrder where
  order : Order
  request : OrderRequest
  fill : PollAnswer := ⟨0, 0, ""⟩
  reported : ℚ := 0
  deriving DecidableEq

/-- What the broker does with a child order; a poll that raises answers `none`. -/
inductive SubmitAnswer
  | accepts (orderId : String) (polls : Nat → Option PollAnswer)
  | acceptsAndRaises
  | refuses

inductive Outcome (α : Type)
  | returned (a : α)
  | raised
  | died
  deriving DecidableEq

def Outcome.map {α β : Type} (f : α → β) : Outcome α → Outcome β
  | .returned a => .returned (f a)
  | .raised => .raised
  | .died => .died

structure Session where
  answers : List SubmitAnswer
  book : List ChildOrder := []

section Client
variable (upper lower : String → String) (rejects : List ChildOrder → OrderRequest → Bool)
  (now : String)

/-! ## Polls -/

/-- Polls until one meets `stop`, one raises, or the attempts run out; with the number
of the next poll and the last that answered. -/
def pollUntil (stop : PollAnswer → Bool) (polls : Nat → Option PollAnswer) :
    (attempts i : Nat) → (last : Option PollAnswer) → Option PollAnswer × Nat × Option PollAnswer
  | 0, i, last => (none, i, last)
  | attempts + 1, i, last =>
    match polls i with
    | none => (none, i + 1, last)
    | some a =>
      if stop a then (some a, i + 1, some a)
      else pollUntil stop polls attempts (i + 1) (some a)

def settledLate (a : PollAnswer) : Bool := 0 < a.filledPrice || settled lower a

/-- What is made of the polls, and the last of them that answered. -/
def waitForFillSync (polls : Nat → Option PollAnswer) : PollAnswer × Option PollAnswer :=
  match pollUntil (settled lower) polls shortPollAttempts 0 none with
  | (some a, _, last) => (a, last)
  | (none, i, last) =>
    match pollUntil (settledLate lower) polls orderStatusPollAttempts i last with
    | (some a, _, last) => (a, last)
    | (none, _, last) => (⟨0, 0, "submitted"⟩, last)

/-! ## One child order -/

/-- `crypto_data_symbol`. -/
def cryptoDataSymbol (symbol : String) : String :=
  if '/' ∈ symbol.toList then symbol
  else
    let letters := (upper symbol).toList
    if ['U', 'S', 'D'].isSuffixOf letters && 3 < letters.length then
      String.ofList (letters.take (letters.length - 3)) ++ "/USD"
    else symbol

def brokerSymbol (symbol : String) : String :=
  if inferAssetClass upper symbol = .crypto then cryptoDataSymbol upper symbol else symbol

def ChildOrder.credit (child : ChildOrder) : ℚ :=
  resolvedFillQty lower { child.order with qty := child.request.qty } child.fill.filledQty
    child.fill.status

/-- `submit_order`, the polls, and the result. -/
def sendChild (order : Order) (request : OrderRequest) (s : Session) :
    Outcome OrderResult × Session :=
  match s.answers with
  | [] => (.died, s)
  | answer :: answers =>
    match answer with
    | .refuses => (.raised, { s with answers })
    | .acceptsAndRaises =>
      (.raised,
        if rejects s.book request then { s with answers }
        else { s with answers, book := s.book ++ [{ order, request }] })
    | .accepts orderId polls =>
      if rejects s.book request then (.raised, { s with answers })
      else
        let (fill, last) := waitForFillSync lower polls
        let child : ChildOrder :=
          { order, request, fill, reported := (last.map (·.filledQty)).getD 0 }
        (.returned
          { symbol := order.symbol, side := order.side, qty := child.credit lower
            filledPrice := fill.filledPrice, filledAt := now, orderId := some orderId
            status := fill.status },
          { s with answers, book := s.book ++ [child] })

def childRequest (order : Order) (qty : ℚ) (clientOrderId : Option String) : OrderRequest :=
  { symbol := brokerSymbol upper order.symbol, qty, side := order.side, clientOrderId }

def submitMarketSync (order : Order) (s : Session) : Outcome OrderResult × Session :=
  sendChild lower rejects now order (childRequest upper order order.qty order.clientOrderId) s

def submitIocLimitSync (order : Order) (s : Session) : Outcome OrderResult × Session :=
  sendChild lower rejects now order (childRequest upper order order.qty none) s

/-! ## Slices -/

/-- The child quantities of the `while remaining > 0` loop, at most `fuel` of them. -/
def slices (sliceQty : ℚ) : (fuel : Nat) → (remaining : ℚ) → List ℚ
  | 0, _ => []
  | fuel + 1, remaining =>
    if 0 < remaining then
      min sliceQty remaining :: slices sliceQty fuel (remaining - min sliceQty remaining)
    else []

def sliceQty (qty : ℚ) : ℚ := max 1 (truncate (max (qty / twapSlicesCount) 1))

/-- A slice is one at least, so `qty` rounded up is fuel enough. -/
def twapSlices (qty : ℚ) : List ℚ := slices (sliceQty qty) ⌈qty⌉₊ qty

def sendSlices (order : Order) : List ℚ → Session → Outcome (List OrderResult) × Session
  | [], s => (.returned [], s)
  | qty :: qtys, s =>
    match sendChild lower rejects now order (childRequest upper order qty none) s with
    | (.returned result, s) =>
      let (outcome, s) := sendSlices order qtys s
      (outcome.map (result :: ·), s)
    | (.raised, s) => (.raised, s)
    | (.died, s) => (.died, s)

def submitPassiveTwapSync (order : Order) (s : Session) : Outcome (List OrderResult) × Session :=
  if inferAssetClass upper order.symbol = .crypto then
    let (outcome, s) := submitIocLimitSync upper lower rejects now order s
    (outcome.map ([·]), s)
  else sendSlices upper lower rejects now order (twapSlices order.qty) s

/-! ## The batch -/

inductive Tactic
  | market
  | iocLimit
  | passiveTwap
  deriving DecidableEq

def contextKey (order : Order) : String :=
  order.strategyId ++ ":" ++ order.symbol ++ ":" ++ order.side.value

def tacticOf (contexts : Option (Dict String ExecutionTacticContext)) (order : Order) : Tactic :=
  match contexts.bind (·.get? (contextKey order)) with
  | none => .market
  | some context =>
    if order.orderType = "market" then .market
    else if context.forceAggressiveIoc then .iocLimit
    else if context.diagnostics.elevated && !context.diagnostics.critical then .passiveTwap
    else .iocLimit

def submitTactic (contexts : Option (Dict String ExecutionTacticContext)) (order : Order)
    (s : Session) : Outcome (List OrderResult) × Session :=
  match tacticOf contexts order with
  | .market =>
    let (outcome, s) := submitMarketSync upper lower rejects now order s
    (outcome.map ([·]), s)
  | .iocLimit =>
    let (outcome, s) := submitIocLimitSync upper lower rejects now order s
    (outcome.map ([·]), s)
  | .passiveTwap => submitPassiveTwapSync upper lower rejects now order s

def submissionFailed (order : Order) : OrderResult where
  symbol := order.symbol
  side := order.side
  qty := 0
  filledPrice := 0
  filledAt := now
  orderId := none
  status := "submission_failed"

/-- The results of the batch, unless the process dies first. -/
def submitSync (contexts : Option (Dict String ExecutionTacticContext)) :
    List Order → Session → Option (List OrderResult) × Session
  | [], s => (some [], s)
  | order :: orders, s =>
    match submitTactic upper lower rejects now contexts order s with
    | (.died, t) => (none, t)
    | (.returned batch, t) =>
      let (results, u) := submitSync contexts orders t
      (results.map (batch ++ ·), u)
    | (.raised, t) =>
      let (results, u) := submitSync contexts orders t
      (results.map (submissionFailed now order :: ·), u)

def submitOrders (soakModeEnabled : Bool)
    (contexts : Option (Dict String ExecutionTacticContext)) (orders : List Order) (s : Session) :
    Option (List OrderResult) × Session :=
  if soakModeEnabled then
    (some (orders.mapIdx fun idx order =>
      { symbol := order.symbol, side := order.side, qty := 0, filledPrice := 0, filledAt := now
        orderId := some ("soak-sim-" ++ toString idx), status := "soak_blocked" }), s)
  else submitSync upper lower rejects now contexts orders s

end Client

/-! ## The slices of an order -/

theorem one_le_sliceQty (qty : ℚ) : 1 ≤ sliceQty qty := le_max_left _ _

theorem sum_slices {size : ℚ} (hsize : 1 ≤ size) : ∀ (fuel : Nat) (remaining : ℚ),
    remaining ≤ fuel → (slices size fuel remaining).sum = max remaining 0
  | 0, remaining, hfuel => by
    have hle : remaining ≤ 0 := by simpa using hfuel
    rw [slices, List.sum_nil, max_eq_right hle]
  | fuel + 1, remaining, hfuel => by
    rw [slices]
    by_cases hpos : 0 < remaining
    · -- the last slice takes what is left, any other at least one
      have hrest : remaining - min size remaining ≤ fuel := by
        push_cast at hfuel
        rcases min_cases size remaining with ⟨hmin, -⟩ | ⟨hmin, -⟩ <;> rw [hmin]
        · linarith
        · simp
      have hnonneg : 0 ≤ remaining - min size remaining := sub_nonneg.mpr (min_le_right _ _)
      rw [if_pos hpos, List.sum_cons, sum_slices hsize fuel _ hrest, max_eq_left hnonneg,
        max_eq_left hpos.le]
      ring
    · rw [if_neg hpos, List.sum_nil, max_eq_right (not_lt.mp hpos)]

/-- The slices make up the order. -/
theorem sum_twapSlices (qty : ℚ) : (twapSlices qty).sum = max qty 0 :=
  sum_slices (one_le_sliceQty qty) _ _ (Nat.le_ceil qty)

theorem slices_eq_nil {size remaining : ℚ} (fuel : Nat) (h : remaining ≤ 0) :
    slices size fuel remaining = [] := by
  cases fuel with
  | zero => rfl
  | succ fuel => exact if_neg (not_lt.mpr h)

theorem twapSlices_eq_nil {qty : ℚ} : twapSlices qty = [] ↔ qty ≤ 0 := by
  refine ⟨fun h => ?_, slices_eq_nil _⟩
  have hsum := sum_twapSlices qty
  rw [h, List.sum_nil] at hsum
  exact max_eq_right_iff.mp hsum.symm

theorem slices_pos {size : ℚ} (hsize : 1 ≤ size) : ∀ (fuel : Nat) (remaining : ℚ),
    ∀ qty ∈ slices size fuel remaining, 0 < qty
  | 0, _, _, h => by cases h
  | fuel + 1, remaining, qty, h => by
    rw [slices] at h
    split at h
    · rename_i hpos
      rcases List.mem_cons.mp h with rfl | h
      · exact lt_min (by linarith) hpos
      · exact slices_pos hsize fuel _ qty h
    · cases h

/-! ## What reaches the broker -/

section Spec
variable (upper lower : String → String) (rejects : List ChildOrder → OrderRequest → Bool)
  (now : String)

/-- The children an order brings to the book. -/
structure Sent (order : Order) (s t : Session) (children : List ChildOrder) : Prop where
  book : t.book = s.book ++ children
  own : ∀ child ∈ children, child.order = order

theorem Sent.nil (order : Order) (s : Session) (answers : List SubmitAnswer) :
    Sent order s { s with answers } [] :=
  ⟨(List.append_nil _).symm, by simp⟩

theorem Sent.trans {order : Order} {s t u : Session} {xs ys : List ChildOrder}
    (h : Sent order s t xs) (h' : Sent order t u ys) : Sent order s u (xs ++ ys) where
  book := by rw [h'.book, h.book, List.append_assoc]
  own child hchild := (List.mem_append.mp hchild).elim (h.own child) (h'.own child)

theorem sendChild_spec (order : Order) (request : OrderRequest) (s : Session) :
    ∃ children, Sent order s (sendChild lower rejects now order request s).2 children ∧
      ∀ child ∈ children, child.request = request := by
  unfold sendChild
  split
  · exact ⟨[], .nil order s s.answers, by simp⟩
  rename_i answer answers _
  cases answer with
  | refuses => exact ⟨[], .nil order s answers, by simp⟩
  | acceptsAndRaises =>
    dsimp only
    split
    · exact ⟨[], .nil order s answers, by simp⟩
    · exact ⟨[{ order, request }], ⟨rfl, by simp⟩, by simp⟩
  | accepts orderId polls =>
    dsimp only
    split
    · exact ⟨[], .nil order s answers, by simp⟩
    · exact ⟨[_], ⟨rfl, by simp⟩, by simp⟩

theorem sendSlices_spec (order : Order) : ∀ (qtys : List ℚ) (s : Session),
    ∃ children, Sent order s (sendSlices upper lower rejects now order qtys s).2 children ∧
      ∀ child ∈ children, child.request.clientOrderId = none ∧ child.request.qty ∈ qtys
  | [], s => ⟨[], .nil order s s.answers, by simp⟩
  | qty :: qtys, s => by
    obtain ⟨first, hsent, hrequest⟩ :=
      sendChild_spec lower rejects now order
        (childRequest upper order qty none) s
    have hfirst : ∀ child ∈ first,
        child.request.clientOrderId = none ∧ child.request.qty ∈ qty :: qtys := by
      intro child hchild
      rw [hrequest child hchild]
      exact ⟨rfl, List.mem_cons_self⟩
    rw [sendSlices]
    generalize sendChild lower rejects now order (childRequest upper order qty none) s = out
      at hsent ⊢
    obtain ⟨outcome, t⟩ := out
    cases outcome with
    | died => exact ⟨first, hsent, hfirst⟩
    | raised => exact ⟨first, hsent, hfirst⟩
    | returned result =>
      obtain ⟨rest, hsent', hrequest'⟩ := sendSlices_spec order qtys t
      refine ⟨first ++ rest, hsent.trans hsent', fun child hchild => ?_⟩
      rcases List.mem_append.mp hchild with hchild | hchild
      · exact hfirst child hchild
      · exact ⟨(hrequest' child hchild).1, List.mem_cons_of_mem _ (hrequest' child hchild).2⟩

/-- What any tactic brings to the book: the id only with a market order, a positive
quantity only for an order that has one. -/
theorem submitTactic_spec (contexts : Option (Dict String ExecutionTacticContext))
    (order : Order) (s : Session) :
    ∃ children,
      Sent order s (submitTactic upper lower rejects now contexts order s).2 children ∧
      ∀ child ∈ children,
        child.request.clientOrderId =
          (if tacticOf contexts order = .market then order.clientOrderId else none) ∧
        (0 < child.request.qty → 0 < order.qty) := by
  have hsingle (clientOrderId : Option String) :
      ∃ children, Sent order s (sendChild lower rejects now order
          (childRequest upper order order.qty clientOrderId) s).2 children ∧
        ∀ child ∈ children, child.request.clientOrderId = clientOrderId ∧
          (0 < child.request.qty → 0 < order.qty) := by
    obtain ⟨children, hsent, hrequest⟩ :=
      sendChild_spec lower rejects now order
        (childRequest upper order order.qty clientOrderId) s
    refine ⟨children, hsent, fun child hchild => ?_⟩
    rw [hrequest child hchild]
    exact ⟨rfl, id⟩
  unfold submitTactic
  cases htactic : tacticOf contexts order with
  | market =>
    simp only [if_true]
    exact hsingle order.clientOrderId
  | iocLimit =>
    simp only [reduceCtorEq, if_false]
    exact hsingle none
  | passiveTwap =>
    simp only [reduceCtorEq, if_false, submitPassiveTwapSync]
    split
    · exact hsingle none
    · obtain ⟨children, hsent, hrequest⟩ :=
        sendSlices_spec upper lower rejects now order
          (twapSlices order.qty) s
      refine ⟨children, hsent, fun child hchild => ⟨(hrequest child hchild).1, fun _ => ?_⟩⟩
      by_contra hqty
      have hmem := (hrequest child hchild).2
      rw [twapSlices_eq_nil.mpr (not_lt.mp hqty)] at hmem
      cases hmem

/-- Whatever a batch comes to, each child is of one of its orders. -/
theorem submitSync_children (contexts : Option (Dict String ExecutionTacticContext)) :
    ∀ (orders : List Order) (s : Session), ∃ children,
      (submitSync upper lower rejects now contexts orders s).2.book = s.book ++ children ∧
      ∀ child ∈ children, child.order ∈ orders ∧
        child.request.clientOrderId =
          (if tacticOf contexts child.order = .market then child.order.clientOrderId else none) ∧
        (0 < child.request.qty → 0 < child.order.qty)
  | [], s => ⟨[], (List.append_nil _).symm, by simp⟩
  | order :: orders, s => by
    obtain ⟨first, hsent, hrequest⟩ :=
      submitTactic_spec upper lower rejects now contexts order s
    have hfirst : ∀ child ∈ first, child.order ∈ order :: orders ∧
        child.request.clientOrderId =
          (if tacticOf contexts child.order = .market then child.order.clientOrderId else none) ∧
        (0 < child.request.qty → 0 < child.order.qty) := by
      intro child hchild
      rw [hsent.own child hchild]
      exact ⟨List.mem_cons_self, hrequest child hchild⟩
    rw [submitSync]
    generalize submitTactic upper lower rejects now contexts order s = out at hsent ⊢
    obtain ⟨outcome, t⟩ := out
    have hthen (u : Session) (hu : u.book = t.book) : ∃ children,
        (submitSync upper lower rejects now contexts orders u).2.book = s.book ++ children ∧
        ∀ child ∈ children, child.order ∈ order :: orders ∧
          child.request.clientOrderId =
            (if tacticOf contexts child.order = .market then child.order.clientOrderId
              else none) ∧
          (0 < child.request.qty → 0 < child.order.qty) := by
      obtain ⟨rest, hbook, hrest⟩ := submitSync_children contexts orders u
      refine ⟨first ++ rest, ?_, fun child hchild => ?_⟩
      · rw [hbook, hu, hsent.book, List.append_assoc]
      · rcases List.mem_append.mp hchild with hchild | hchild
        · exact hfirst child hchild
        · exact ⟨List.mem_cons_of_mem _ (hrest child hchild).1, (hrest child hchild).2⟩
    cases outcome with
    | died => exact ⟨first, hsent.book, hfirst⟩
    | returned batch => exact hthen _ rfl
    | raised => exact hthen _ rfl

/-- Some answers get an order, or none when it sends nothing, refused. -/
theorem submitTactic_refused (contexts : Option (Dict String ExecutionTacticContext))
    (order : Order) : ∃ skip : List SubmitAnswer, ∀ (s : Session) (rest : List SubmitAnswer),
      s.answers = skip ++ rest →
      (submitTactic upper lower rejects now contexts order s).1 ≠ .died ∧
        (submitTactic upper lower rejects now contexts order s).2 = { s with answers := rest } := by
  have hsend (request : OrderRequest) (s : Session) (rest : List SubmitAnswer)
      (hs : s.answers = [.refuses] ++ rest) :
      sendChild lower rejects now order request s = (.raised, { s with answers := rest }) := by
    simp [sendChild, hs]
  unfold submitTactic
  cases tacticOf contexts order with
  | market =>
    refine ⟨[.refuses], fun s rest hs => ?_⟩
    simp [submitMarketSync, hsend _ s rest hs, Outcome.map]
  | iocLimit =>
    refine ⟨[.refuses], fun s rest hs => ?_⟩
    simp [submitIocLimitSync, hsend _ s rest hs, Outcome.map]
  | passiveTwap =>
    by_cases hcrypto : inferAssetClass upper order.symbol = .crypto
    · refine ⟨[.refuses], fun s rest hs => ?_⟩
      simp [submitPassiveTwapSync, hcrypto, submitIocLimitSync, hsend _ s rest hs, Outcome.map]
    · cases hslices : twapSlices order.qty with
      | nil =>
        refine ⟨[], fun s rest hs => ?_⟩
        have hrest : s.answers = rest := hs
        simp [submitPassiveTwapSync, hcrypto, hslices, sendSlices, ← hrest]
      | cons qty qtys =>
        refine ⟨[.refuses], fun s rest hs => ?_⟩
        simp [submitPassiveTwapSync, hcrypto, hslices, sendSlices, hsend _ s rest hs]

theorem submitSync_refused (contexts : Option (Dict String ExecutionTacticContext)) :
    ∀ before : List Order, ∃ skip : List SubmitAnswer,
      ∀ (s : Session) (rest : List SubmitAnswer) (orders : List Order),
      s.answers = skip ++ rest →
      (submitSync upper lower rejects now contexts (before ++ orders) s).2 =
        (submitSync upper lower rejects now contexts orders { s with answers := rest }).2
  | [] => ⟨[], fun s rest orders hs => by rw [← show s.answers = rest from hs]; rfl⟩
  | order :: before => by
    obtain ⟨skip, hskip⟩ := submitTactic_refused upper lower rejects now contexts order
    obtain ⟨skips, hskips⟩ := submitSync_refused contexts before
    refine ⟨skip ++ skips, fun s rest orders hs => ?_⟩
    rw [List.append_assoc] at hs
    obtain ⟨hlives, hstays⟩ := hskip s (skips ++ rest) hs
    rw [List.cons_append, submitSync]
    generalize submitTactic upper lower rejects now contexts order s = out at hlives hstays ⊢
    obtain ⟨outcome, t⟩ := out
    obtain rfl : t = { s with answers := skips ++ rest } := hstays
    cases outcome with
    | died => exact absurd rfl hlives
    | returned batch => simpa using hskips { s with answers := skips ++ rest } rest orders rfl
    | raised => simpa using hskips { s with answers := skips ++ rest } rest orders rfl

/-- The broker can accept an order of any tactic and not get its answer through. -/
theorem submitTactic_accepted (contexts : Option (Dict String ExecutionTacticContext))
    {order : Order} (hqty : 0 < order.qty) {s : Session} (hs : s.answers = [.acceptsAndRaises])
    (hrejects : ∀ request, request.clientOrderId = none ∨
      request.clientOrderId = order.clientOrderId → rejects s.book request = false) :
    ∃ request, 0 < request.qty ∧ (submitTactic upper lower rejects now contexts order s).2 =
      { s with answers := [], book := s.book ++ [{ order, request }] } := by
  have hsend (request : OrderRequest) (h : request.clientOrderId = none ∨
      request.clientOrderId = order.clientOrderId) :
      sendChild lower rejects now order request s =
        (.raised, { s with answers := [], book := s.book ++ [{ order, request }] }) := by
    simp [sendChild, hs, hrejects request h]
  unfold submitTactic
  cases tacticOf contexts order with
  | market => exact ⟨_, hqty, congrArg Prod.snd (hsend _ (.inr rfl))⟩
  | iocLimit => exact ⟨_, hqty, congrArg Prod.snd (hsend _ (.inl rfl))⟩
  | passiveTwap =>
    by_cases hcrypto : inferAssetClass upper order.symbol = .crypto
    · simp only [submitPassiveTwapSync, hcrypto, if_true]
      exact ⟨_, hqty, congrArg Prod.snd (hsend _ (.inl rfl))⟩
    · simp only [submitPassiveTwapSync, hcrypto, if_false]
      cases hslices : twapSlices order.qty with
      | nil => exact absurd hqty (not_lt.mpr (twapSlices_eq_nil.mp hslices))
      | cons qty qtys =>
        have hpos : 0 < qty := slices_pos (one_le_sliceQty order.qty) _ _ qty
          (by rw [twapSlices] at hslices; rw [hslices]; exact List.mem_cons_self)
        rw [sendSlices, hsend _ (.inl rfl)]
        exact ⟨_, hpos, rfl⟩

end Spec

end TradingPlatform.Broker.Alpaca
