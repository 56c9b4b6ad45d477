import TradingPlatform.Broker.AlpacaTactics

/-! # Reported fills against the broker's

A child order whose polls show no fill is credited in full unless it is dead, and an
order that raises reports nothing, whatever its earlier slices filled. What the broker
answers tells both, so its answers alone say when a batch reports its fills. -/

namespace TradingPlatform.Broker.Alpaca

open TradingPlatform.Lib

/-! ## Quantities by symbol and side -/

def quantityAt (symbol : String) (side : Side) (lines : List (String × Side × ℚ)) : ℚ :=
  ((lines.filter fun line => line.1 = symbol ∧ line.2.1 = side).map (·.2.2)).sum

section Quantities
variable {symbol : String} {side : Side}

@[simp] theorem quantityAt_nil : quantityAt symbol side [] = 0 := rfl

@[simp] theorem quantityAt_append (xs ys : List (String × Side × ℚ)) :
    quantityAt symbol side (xs ++ ys) = quantityAt symbol side xs + quantityAt symbol side ys := by
  simp [quantityAt]

theorem quantityAt_cons (line : String × Side × ℚ) (lines : List (String × Side × ℚ)) :
    quantityAt symbol side (line :: lines) =
      quantityAt symbol side [line] + quantityAt symbol side lines :=
  quantityAt_append [line] lines

/-- Lines without a quantity count for nothing. -/
theorem quantityAt_zero {lines : List (String × Side × ℚ)} (h : ∀ line ∈ lines, line.2.2 = 0) :
    quantityAt symbol side lines = 0 := by
  refine List.sum_eq_zero fun q hq => ?_
  obtain ⟨line, hline, rfl⟩ := List.mem_map.mp hq
  exact h line (List.mem_of_mem_filter hline)

end Quantities

/-- A sum of zero: nothing, or amounts of both signs that cancel. -/
theorem sum_eq_zero_iff_signs {xs : List ℚ} :
    xs.sum = 0 ↔ (∀ x ∈ xs, x = 0) ∨ ((∃ x ∈ xs, 0 < x) ∧ (∃ x ∈ xs, x < 0) ∧ xs.sum = 0) := by
  constructor
  · intro hsum
    by_cases hall : ∀ x ∈ xs, x = 0
    · exact .inl hall
    push Not at hall
    obtain ⟨x, hx, hne⟩ := hall
    refine .inr ⟨?_, ?_, hsum⟩
    · by_contra hnone
      push Not at hnone
      have hlt := List.sum_lt_sum (l := xs) id (fun _ => 0) hnone ⟨x, hx, (hnone x hx).lt_of_ne hne⟩
      simp [hsum] at hlt
    · by_contra hnone
      push Not at hnone
      exact hne (List.all_zero_of_le_zero_le_of_sum_eq_zero hnone hsum hx)
  · rintro (hall | ⟨-, -, hsum⟩)
    · exact List.sum_eq_zero hall
    · exact hsum

/-! ## What the broker answers a batch -/

/-- A child order the broker accepts and answers: of which order and quantity, what its
polls answer, and whether the order comes to raise. -/
structure Placed where
  order : Order
  qty : ℚ
  polls : Nat → Option PollAnswer
  raised : Bool

def Placed.line (amount : Placed → ℚ) (p : Placed) : String × Side × ℚ :=
  (p.order.symbol, p.order.side, amount p)

/-- What a broker refuses is refused in its answers. -/
def acceptsAll (_ : List ChildOrder) (_ : OrderRequest) : Bool := false

section Answers
variable (upper lower : String → String)

/-- The quantities an order is sent in. -/
def childQtys (contexts : Option (Dict String ExecutionTacticContext)) (order : Order) : List ℚ :=
  if tacticOf contexts order = .passiveTwap ∧ inferAssetClass upper order.symbol ≠ .crypto then
    twapSlices order.qty
  else [order.qty]

/-- The child orders accepted before one raises, whether one does, and the answers left. -/
def accepted : List ℚ → List SubmitAnswer →
    List (ℚ × (Nat → Option PollAnswer)) × Bool × List SubmitAnswer
  | qty :: qtys, .accepts _ polls :: answers =>
    let (children, raised, rest) := accepted qtys answers
    ((qty, polls) :: children, raised, rest)
  | _ :: _, _ :: answers => ([], true, answers)
  | _, answers => ([], false, answers)

def placed (contexts : Option (Dict String ExecutionTacticContext)) :
    List Order → List SubmitAnswer → List Placed
  | [], _ => []
  | order :: orders, answers =>
    let (children, raised, rest) := accepted (childQtys upper contexts order) answers
    children.map (fun child => ⟨order, child.1, child.2, raised⟩) ++ placed contexts orders rest

/-- The last of a child order's polls that answers. -/
def lastPoll (polls : Nat → Option PollAnswer) : Option PollAnswer :=
  (waitForFillSync lower polls).2

def lastFill (polls : Nat → Option PollAnswer) : ℚ :=
  ((lastPoll lower polls).map (·.filledQty)).getD 0

/-- Rejected, expired or canceled at the last poll. -/
def Placed.Dead (p : Placed) : Prop :=
  ∃ a ∈ lastPoll lower p.polls, lower a.status ∈ ["rejected", "expired", "canceled", "cancelled"]

instance (p : Placed) : Decidable (p.Dead lower) :=
  decidable_of_iff (((lastPoll lower p.polls).any fun a =>
    lower a.status ∈ ["rejected", "expired", "canceled", "cancelled"]) = true) (by
      simp [Placed.Dead, Option.any_eq_true])

/-- Counts as it filled. Where the order raises, that is when no fill is polled, since its
fills are dropped. Where it returns, the last poll shows a fill or a dead order; an order
that shows neither, or answers no poll, counts in full. -/
def Placed.Faithful (p : Placed) : Prop :=
  if p.raised then lastFill lower p.polls = 0
  else if p.Dead lower then 0 ≤ lastFill lower p.polls
  else 0 < lastFill lower p.polls ∨ p.qty = lastFill lower p.polls

instance (p : Placed) : Decidable (p.Faithful lower) :=
  inferInstanceAs (Decidable (if p.raised then lastFill lower p.polls = 0
    else if p.Dead lower then 0 ≤ lastFill lower p.polls
    else 0 < lastFill lower p.polls ∨ p.qty = lastFill lower p.polls))

/-- What is credited beyond the last fill. -/
def Placed.excess (p : Placed) : ℚ :=
  if p.raised then -lastFill lower p.polls
  else if 0 < lastFill lower p.polls then 0
  else if p.Dead lower then -lastFill lower p.polls
  else p.qty - lastFill lower p.polls

theorem Placed.excess_eq_zero {p : Placed} : p.excess lower = 0 ↔ p.Faithful lower := by
  unfold Placed.excess Placed.Faithful
  split_ifs with hraised hfill hdead hdead
  · exact neg_eq_zero
  · exact iff_of_true rfl hfill.le
  · exact iff_of_true rfl (.inl hfill)
  · rw [neg_eq_zero]
    exact ⟨fun h => h.ge, fun h => le_antisymm (not_lt.mp hfill) h⟩
  · rw [sub_eq_zero, or_iff_right hfill]

def placedOn (symbol : String) (side : Side) (children : List Placed) : List Placed :=
  children.filter fun p => p.order.symbol = symbol ∧ p.order.side = side

theorem quantityAt_placed (amount : Placed → ℚ) (symbol : String) (side : Side)
    (children : List Placed) :
    quantityAt symbol side (children.map (Placed.line amount)) =
      ((placedOn symbol side children).map amount).sum := by
  rw [quantityAt, placedOn, List.filter_map, List.map_map]
  rfl

/-- Some child orders count for more than they filled and others for less, and the two
amount to the same. -/
def ExcessCancels (children : List Placed) : Prop :=
  (∃ p ∈ children, 0 < p.excess lower) ∧ (∃ p ∈ children, p.excess lower < 0) ∧
    (children.map (Placed.excess lower)).sum = 0

/-- On each symbol and side every child order counts as it filled, or those that do not
cancel. -/
def CountsFills (contexts : Option (Dict String ExecutionTacticContext)) (orders : List Order)
    (answers : List SubmitAnswer) : Prop :=
  ∀ symbol side,
    (∀ p ∈ placedOn symbol side (placed upper contexts orders answers), p.Faithful lower) ∨
      ExcessCancels lower (placedOn symbol side (placed upper contexts orders answers))

end Answers

/-! ## What a batch reports -/

section Batch
variable (upper lower : String → String) (now : String)

def resultLine (result : OrderResult) : String × Side × ℚ :=
  (result.symbol, result.side, result.qty)

def reportedLine (child : ChildOrder) : String × Side × ℚ :=
  (child.order.symbol, child.order.side, child.reported)

/-- The results of the batch add up to the fills of the broker's book. -/
def ReportsFills (results : List OrderResult) (t : Session) : Prop :=
  ∀ symbol side, quantityAt symbol side (results.map resultLine) =
    quantityAt symbol side (t.book.map reportedLine)

/-- The poll of a refresh shows a fill, or a dead order with no negative one, or at
least the whole order. -/
def RefreshCovered (poll : PollAnswer) (order : Order) : Prop :=
  0 < poll.filledQty ∨
    (if lower poll.status ∈ ["rejected", "expired", "canceled", "cancelled"] then
      0 ≤ poll.filledQty
    else order.qty ≤ poll.filledQty)

/-- No answer so far shows a fill or an end. -/
def Unsettled (last : Option PollAnswer) : Prop := ∀ a ∈ last, settled lower a = false

theorem pollUntil_spec {stop : PollAnswer → Bool}
    (hstop : ∀ a, settled lower a = true → stop a = true) (polls : Nat → Option PollAnswer) :
    ∀ (attempts i : Nat) (last : Option PollAnswer),
      Unsettled lower last →
      match pollUntil stop polls attempts i last with
      | (some a, _, last') => last' = some a
      | (none, _, last') => Unsettled lower last'
  | 0, i, last, hlast => hlast
  | attempts + 1, i, last, hlast => by
    rw [pollUntil]
    cases hpoll : polls i with
    | none => exact hlast
    | some a =>
      dsimp only
      by_cases ha : stop a = true
      · rw [if_pos ha]
      · rw [if_neg ha]
        refine pollUntil_spec hstop polls attempts (i + 1) (some a) fun b hb => ?_
        obtain rfl := Option.some.inj hb
        exact Bool.eq_false_iff.mpr fun h => ha (hstop _ h)

/-- The client goes by its last answer, or by `submitted` where that settles nothing. -/
theorem waitForFillSync_spec (polls : Nat → Option PollAnswer) :
    lastPoll lower polls = some (waitForFillSync lower polls).1 ∨
      ((waitForFillSync lower polls).1 = ⟨0, 0, "submitted"⟩ ∧
        Unsettled lower (lastPoll lower polls)) := by
  have hearly := pollUntil_spec lower (fun _ h => h) polls shortPollAttempts 0 none nofun
  unfold lastPoll waitForFillSync
  generalize pollUntil (settled lower) polls shortPollAttempts 0 none = early at hearly ⊢
  obtain ⟨answer, i, last⟩ := early
  cases answer with
  | some a => exact .inl hearly
  | none =>
    have hstop : ∀ a, settled lower a = true → settledLate lower a = true := by
      simp +contextual [settledLate]
    have hlate := pollUntil_spec lower hstop polls orderStatusPollAttempts i last hearly
    dsimp only
    generalize pollUntil (settledLate lower) polls orderStatusPollAttempts i last = late
      at hlate ⊢
    obtain ⟨answer, i', last'⟩ := late
    cases answer with
    | some a => exact .inl hlate
    | none => exact .inr ⟨rfl, hlate⟩

def Placed.credit (p : Placed) : ℚ :=
  if p.raised then 0
  else
    let fill := (waitForFillSync lower p.polls).1
    resolvedFillQty lower { p.order with qty := p.qty } fill.filledQty fill.status

theorem Placed.credit_eq (hlower : lower "submitted" = "submitted") (p : Placed) :
    p.credit lower = lastFill lower p.polls + p.excess lower := by
  unfold Placed.credit Placed.excess
  split
  · exact (add_neg_cancel _).symm
  rcases waitForFillSync_spec lower p.polls with hlast | ⟨hgiven, hlast⟩
  · have hdead : p.Dead lower ↔ lower (waitForFillSync lower p.polls).1.status ∈
        ["rejected", "expired", "canceled", "cancelled"] := by
      simp [Placed.Dead, hlast]
    simp only [lastFill, hlast, hdead, Option.map_some, Option.getD_some, resolvedFillQty]
    split_ifs <;> ring
  · have hopen : ¬ p.Dead lower := by
      rintro ⟨a, ha, hstatus⟩
      have hopen := hlast a ha
      simp only [settled, Bool.or_eq_false_iff, decide_eq_false_iff_not] at hopen
      have hended : ["rejected", "expired", "canceled", "cancelled"] ⊆ terminalOrderStatuses := by
        decide
      exact hopen.2 (hended hstatus)
    have hfill : ¬ 0 < lastFill lower p.polls := by
      unfold lastFill
      cases hpoll : lastPoll lower p.polls with
      | none => exact lt_irrefl 0
      | some a =>
        have hopen := hlast a hpoll
        simp only [settled, Bool.or_eq_false_iff, decide_eq_false_iff_not] at hopen
        exact hopen.1
    rw [hgiven, if_neg hfill, if_neg hopen, resolvedFillQty, if_neg (lt_irrefl 0), hlower,
      if_neg (by decide)]
    ring

/-- What sending an order comes to, against what its answers place. -/
structure Matches (order : Order) (s t : Session) (outcome : Outcome (List OrderResult))
    (children : List (ℚ × (Nat → Option PollAnswer))) (raised : Bool) (rest : List SubmitAnswer) :
    Prop where
  answers : t.answers = rest
  book : ∃ sent, t.book = s.book ++ sent ∧ ∀ symbol side,
    quantityAt symbol side (sent.map reportedLine) =
      quantityAt symbol side (children.map fun child =>
        (order.symbol, order.side, lastFill lower child.2))
  raises : raised = true → outcome = .raised
  returns : raised = false → ∃ batch, outcome = .returned batch ∧
    batch.map resultLine = children.map fun child =>
      (order.symbol, order.side, Placed.credit lower ⟨order, child.1, child.2, false⟩)

/-- A child order is accepted and polled, or raises and is never polled. -/
theorem sendChild_cases {order : Order} {request : OrderRequest} {s : Session}
    (hlives : (sendChild lower acceptsAll now order request s).1 ≠ .died) :
    (∃ orderId polls answers result child, s.answers = .accepts orderId polls :: answers ∧
      sendChild lower acceptsAll now order request s =
        (.returned result, { answers, book := s.book ++ [child] }) ∧
      resultLine result = (order.symbol, order.side,
        Placed.credit lower ⟨order, request.qty, polls, false⟩) ∧
      reportedLine child = (order.symbol, order.side, lastFill lower polls)) ∨
    ∃ answer answers sent, s.answers = answer :: answers ∧
      (∀ orderId polls, answer ≠ .accepts orderId polls) ∧
      sendChild lower acceptsAll now order request s =
        (.raised, { answers, book := s.book ++ sent }) ∧
      ∀ symbol side, quantityAt symbol side (sent.map reportedLine) = 0 := by
  cases hanswers : s.answers with
  | nil =>
    rw [sendChild, hanswers] at hlives
    exact absurd rfl hlives
  | cons answer answers =>
    rw [sendChild, hanswers]
    cases answer with
    | accepts orderId polls => exact .inl ⟨orderId, polls, answers, _, _, rfl, rfl, rfl, rfl⟩
    | refuses => exact .inr ⟨_, answers, [], rfl, by simp, by simp, fun _ _ => rfl⟩
    | acceptsAndRaises =>
      exact .inr ⟨_, answers, [{ order, request }], rfl, by simp, rfl,
        fun symbol side => quantityAt_zero (by simp [reportedLine])⟩

theorem accepted_raises {answer : SubmitAnswer} (qty : ℚ) (qtys : List ℚ)
    (answers : List SubmitAnswer) (hanswer : ∀ orderId polls, answer ≠ .accepts orderId polls) :
    accepted (qty :: qtys) (answer :: answers) = ([], true, answers) := by
  cases answer with
  | accepts orderId polls => exact absurd rfl (hanswer orderId polls)
  | refuses => rfl
  | acceptsAndRaises => rfl

theorem Matches.of_raised {order : Order} {s : Session} {answers : List SubmitAnswer}
    {sent : List ChildOrder}
    (hsent : ∀ symbol side, quantityAt symbol side (sent.map reportedLine) = 0) :
    Matches lower order s { answers, book := s.book ++ sent } .raised [] true answers :=
  ⟨rfl, ⟨sent, rfl, hsent⟩, fun _ => rfl, nofun⟩

/-- A child order before those of a batch. -/
theorem Matches.cons {order : Order} {s t : Session} {outcome : Outcome (List OrderResult)}
    {children : List (ℚ × (Nat → Option PollAnswer))} {raised : Bool} {rest : List SubmitAnswer}
    {answers : List SubmitAnswer} {child : ChildOrder} {result : OrderResult} {qty : ℚ}
    {polls : Nat → Option PollAnswer}
    (h : Matches lower order { answers, book := s.book ++ [child] } t outcome children raised rest)
    (hresult : resultLine result =
      (order.symbol, order.side, Placed.credit lower ⟨order, qty, polls, false⟩))
    (hchild : reportedLine child = (order.symbol, order.side, lastFill lower polls)) :
    Matches lower order s t (outcome.map (result :: ·)) ((qty, polls) :: children) raised rest where
  answers := h.answers
  book := by
    obtain ⟨sent, hbook, hsent⟩ := h.book
    refine ⟨child :: sent, by simpa using hbook, fun symbol side => ?_⟩
    rw [List.map_cons, quantityAt_cons, hchild, hsent, List.map_cons, ← quantityAt_cons]
  raises hraised := by rw [h.raises hraised, Outcome.map]
  returns hraised := by
    obtain ⟨batch, rfl, hbatch⟩ := h.returns hraised
    exact ⟨result :: batch, rfl, by rw [List.map_cons, hresult, hbatch, List.map_cons]⟩

theorem Matches.nil (order : Order) (s : Session) :
    Matches lower order s s (.returned []) [] false s.answers :=
  ⟨rfl, ⟨[], (List.append_nil _).symm, fun _ _ => rfl⟩, nofun, fun _ => ⟨[], rfl, rfl⟩⟩

theorem sendChild_matches (order : Order) (clientOrderId : Option String) {s : Session}
    (hlives : (sendChild lower acceptsAll now order
      (childRequest upper order order.qty clientOrderId) s).1.map ([·]) ≠ .died) :
    Matches lower order s
      (sendChild lower acceptsAll now order (childRequest upper order order.qty clientOrderId) s).2
      ((sendChild lower acceptsAll now order
        (childRequest upper order order.qty clientOrderId) s).1.map ([·]))
      (accepted [order.qty] s.answers).1 (accepted [order.qty] s.answers).2.1
      (accepted [order.qty] s.answers).2.2 := by
  rcases sendChild_cases lower now fun hdied => hlives (by rw [hdied, Outcome.map]) with
    ⟨orderId, polls, answers, result, child, hanswers, hsend, hresult, hchild⟩ |
    ⟨answer, answers, sent, hanswers, hanswer, hsend, hsent⟩
  · rw [hsend, hanswers]
    exact (Matches.nil lower order _).cons lower hresult hchild
  · rw [hsend, hanswers, accepted_raises _ _ _ hanswer]
    exact .of_raised lower hsent

theorem sendSlices_matches (order : Order) : ∀ (qtys : List ℚ) (s : Session),
    (sendSlices upper lower acceptsAll now order qtys s).1 ≠ .died →
    Matches lower order s (sendSlices upper lower acceptsAll now order qtys s).2
      (sendSlices upper lower acceptsAll now order qtys s).1
      (accepted qtys s.answers).1 (accepted qtys s.answers).2.1 (accepted qtys s.answers).2.2
  | [], s, _ => .nil lower order s
  | qty :: qtys, s, hlives => by
    rw [sendSlices] at hlives ⊢
    have hchild : (sendChild lower acceptsAll now order (childRequest upper order qty none) s).1 ≠
        .died := by
      intro hdied
      generalize sendChild lower acceptsAll now order (childRequest upper order qty none) s = out
        at hdied hlives
      obtain ⟨outcome, t⟩ := out
      cases hdied
      exact hlives rfl
    rcases sendChild_cases lower now hchild with
      ⟨orderId, polls, answers, result, child, hanswers, hsend, hresult, hchild⟩ |
      ⟨answer, answers, sent, hanswers, hanswer, hsend, hsent⟩
    · rw [hsend] at hlives ⊢
      rw [hanswers]
      dsimp only at hlives ⊢
      have hrest := sendSlices_matches order qtys { answers, book := s.book ++ [child] }
        fun hdied => hlives (by rw [hdied, Outcome.map])
      exact hrest.cons lower hresult hchild
    · rw [hsend, hanswers, accepted_raises _ _ _ hanswer]
      exact .of_raised lower hsent

/-- An order of any tactic, against the child orders its answers place. -/
theorem submitTactic_matches (contexts : Option (Dict String ExecutionTacticContext))
    (order : Order) {s : Session}
    (hlives : (submitTactic upper lower acceptsAll now contexts order s).1 ≠ .died) :
    Matches lower order s (submitTactic upper lower acceptsAll now contexts order s).2
      (submitTactic upper lower acceptsAll now contexts order s).1
      (accepted (childQtys upper contexts order) s.answers).1
      (accepted (childQtys upper contexts order) s.answers).2.1
      (accepted (childQtys upper contexts order) s.answers).2.2 := by
  unfold submitTactic childQtys at *
  cases htactic : tacticOf contexts order with
  | market =>
    simp only [htactic, reduceCtorEq, false_and, if_false] at hlives ⊢
    exact sendChild_matches upper lower now order order.clientOrderId hlives
  | iocLimit =>
    simp only [htactic, reduceCtorEq, false_and, if_false] at hlives ⊢
    exact sendChild_matches upper lower now order none hlives
  | passiveTwap =>
    by_cases hcrypto : inferAssetClass upper order.symbol = .crypto
    · simp only [htactic, submitPassiveTwapSync, hcrypto, ne_eq, not_true_eq_false, and_false,
        if_true, if_false] at hlives ⊢
      exact sendChild_matches upper lower now order none hlives
    · simp only [htactic, submitPassiveTwapSync, hcrypto, ne_eq, not_false_eq_true, and_true,
        if_true, if_false] at hlives ⊢
      exact sendSlices_matches upper lower now order (twapSlices order.qty) s hlives

/-- What was sent and reported in a batch, against the child orders placed. -/
structure Accounts (s t : Session) (results : List OrderResult) (children : List Placed) :
    Prop where
  book : ∃ sent, t.book = s.book ++ sent ∧ ∀ symbol side,
    quantityAt symbol side (sent.map reportedLine) =
      quantityAt symbol side (children.map (Placed.line fun p => lastFill lower p.polls))
  credits : ∀ symbol side, quantityAt symbol side (results.map resultLine) =
    quantityAt symbol side (children.map (Placed.line (Placed.credit lower)))

theorem Accounts.append {s t u : Session} {first later : List OrderResult} {xs ys : List Placed}
    (h : Accounts lower s t first xs) (h' : Accounts lower t u later ys) :
    Accounts lower s u (first ++ later) (xs ++ ys) where
  book := by
    obtain ⟨sent, hsent, hfills⟩ := h.book
    obtain ⟨sent', hsent', hfills'⟩ := h'.book
    refine ⟨sent ++ sent', by rw [hsent', hsent, List.append_assoc], fun symbol side => ?_⟩
    rw [List.map_append, List.map_append, quantityAt_append, quantityAt_append, hfills, hfills']
  credits symbol side := by
    rw [List.map_append, List.map_append, quantityAt_append, quantityAt_append, h.credits,
      h'.credits]

/-- An order's share of the batch: its own results, or that it failed. -/
theorem Matches.accounts {order : Order} {s t : Session} {outcome : Outcome (List OrderResult)}
    {children : List (ℚ × (Nat → Option PollAnswer))} {raised : Bool} {rest : List SubmitAnswer}
    (h : Matches lower order s t outcome children raised rest) : ∃ reported,
      (outcome = .returned reported ∨
        outcome = .raised ∧ reported = [submissionFailed now order]) ∧
      Accounts lower s t reported
        (children.map fun child => ⟨order, child.1, child.2, raised⟩) := by
  obtain ⟨sent, hsent, hfills⟩ := h.book
  have hbook : ∃ sent, t.book = s.book ++ sent ∧ ∀ symbol side,
      quantityAt symbol side (sent.map reportedLine) = quantityAt symbol side
        ((children.map fun child => (⟨order, child.1, child.2, raised⟩ : Placed)).map
          (Placed.line fun p => lastFill lower p.polls)) := by
    refine ⟨sent, hsent, fun symbol side => ?_⟩
    rw [hfills, List.map_map]
    rfl
  cases raised with
  | false =>
    obtain ⟨batch, hbatch, hlines⟩ := h.returns rfl
    refine ⟨batch, .inl hbatch, hbook, fun symbol side => ?_⟩
    rw [hlines, List.map_map]
    rfl
  | true =>
    refine ⟨[submissionFailed now order], .inr ⟨h.raises rfl, rfl⟩, hbook, fun symbol side => ?_⟩
    rw [quantityAt_zero (by simp [resultLine, submissionFailed]), quantityAt_zero]
    intro line hline
    obtain ⟨p, hp, rfl⟩ := List.mem_map.mp hline
    obtain ⟨child, -, rfl⟩ := List.mem_map.mp hp
    rfl

theorem submitSync_accounts (contexts : Option (Dict String ExecutionTacticContext)) :
    ∀ (orders : List Order) (s t : Session) (results : List OrderResult),
      submitSync upper lower acceptsAll now contexts orders s = (some results, t) →
      Accounts lower s t results (placed upper contexts orders s.answers)
  | [], s, t, results, h => by
    cases h
    exact ⟨⟨[], (List.append_nil _).symm, fun _ _ => rfl⟩, fun _ _ => rfl⟩
  | order :: orders, s, t, results, h => by
    have hmatches := submitTactic_matches upper lower now contexts order (s := s)
    rw [submitSync] at h
    generalize submitTactic upper lower acceptsAll now contexts order s = out at h hmatches
    obtain ⟨outcome, u⟩ := out
    have hlives : outcome ≠ .died := by
      rintro rfl
      cases h
    have hm := hmatches hlives
    obtain ⟨reported, hcase, hfirst⟩ := hm.accounts lower now
    -- either way the batch goes on with the same answers left
    have hthen : ∃ later, submitSync upper lower acceptsAll now contexts orders u =
        (some later, t) ∧ results = reported ++ later := by
      rcases hcase with rfl | ⟨rfl, rfl⟩ <;>
      · obtain ⟨hresults, ht⟩ := Prod.mk.inj h
        obtain ⟨later, hlater, rfl⟩ := Option.map_eq_some_iff.mp hresults
        exact ⟨later, Prod.ext hlater ht, rfl⟩
    obtain ⟨later, hlater, rfl⟩ := hthen
    have hrest := submitSync_accounts contexts orders u t later hlater
    rw [hm.answers] at hrest
    exact hfirst.append lower hrest

theorem submitSync_reports (hlower : lower "submitted" = "submitted")
    {contexts : Option (Dict String ExecutionTacticContext)} {orders : List Order}
    {answers : List SubmitAnswer} {results : List OrderResult} {t : Session}
    (h : submitSync upper lower acceptsAll now contexts orders { answers } = (some results, t)) :
    ReportsFills results t ↔ CountsFills upper lower contexts orders answers := by
  obtain ⟨⟨sent, hbook, hfills⟩, hcredits⟩ :=
    submitSync_accounts upper lower now contexts orders _ t results h
  obtain rfl : t.book = sent := hbook
  refine forall_congr' fun symbol => forall_congr' fun side => ?_
  rw [hfills, hcredits, quantityAt_placed, quantityAt_placed]
  generalize placedOn symbol side (placed upper contexts orders answers) = children
  calc (children.map (Placed.credit lower)).sum = (children.map fun p => lastFill lower p.polls).sum
      ↔ (children.map (Placed.excess lower)).sum = 0 := by
        rw [funext (Placed.credit_eq lower hlower), List.sum_map_add]
        exact add_eq_left
    _ ↔ _ := by
        rw [sum_eq_zero_iff_signs, List.forall_mem_map]
        simp only [List.mem_map, exists_exists_and_eq_and, Placed.excess_eq_zero, ExcessCancels]

theorem refresh_covered {order : Order} {result : OrderResult} {poll : PollAnswer}
    (h : result.orderId.getD "" ≠ "") :
    (refreshOrderResult lower poll order result).qty ≤ poll.filledQty ↔
      RefreshCovered lower poll order := by
  rw [refreshOrderResult, if_neg h, polledResult, resolvedFillQty, RefreshCovered]
  by_cases hfill : 0 < poll.filledQty
  · simp [hfill]
  · simp only [hfill, if_false, false_or]
    split_ifs <;> rfl

/-- **A batch that returns reports the broker's fills** exactly when, on each symbol and
side, the broker's answers leave no accepted child order neither filled nor dead and
raise for no order that filled, or the two cancel; and a refresh is at most the polled
fill exactly when its poll covers the order. -/
theorem fills_reported_iff (hlower : lower "submitted" = "submitted") :
    (∀ soakModeEnabled contexts orders answers results t,
      submitOrders upper lower acceptsAll now soakModeEnabled contexts orders { answers } =
        (some results, t) →
      (ReportsFills results t ↔
        (soakModeEnabled = false → CountsFills upper lower contexts orders answers))) ∧
    ∀ poll order result, result.orderId.getD "" ≠ "" →
      ((refreshOrderResult lower poll order result).qty ≤ poll.filledQty ↔
        RefreshCovered lower poll order) := by
  refine ⟨fun soakModeEnabled contexts orders answers results t h => ?_,
    fun poll order result h => refresh_covered lower h⟩
  cases soakModeEnabled with
  | false =>
    exact (submitSync_reports upper lower now hlower h).trans ⟨fun h _ => h, fun h => h rfl⟩
  | true =>
    cases h
    refine iff_of_true (fun symbol side => ?_) nofun
    refine quantityAt_zero fun line hline => ?_
    obtain ⟨result, hresult, rfl⟩ := List.mem_map.mp hline
    obtain ⟨idx, hidx, rfl⟩ := List.mem_mapIdx.mp hresult
    rfl

end Batch

/-! ## Open orders and dropped slices -/

def buyTen : Order := { symbol := "SPY", side := .buy, qty := 10 }

def stillOpen : PollAnswer := ⟨0, 0, "new"⟩

/-- A market order that is still open after eight polls. -/
def openSession : Session where
  answers := [.accepts "o-1" fun _ => some stillOpen]

/-- An order that no poll shows filled is reported as filled in full, and so is its
refresh. -/
theorem open_order_reported_filled :
    (∃ results t, submitOrders id id acceptsAll "now" false none [buyTen] openSession =
        (some results, t) ∧ ¬ ReportsFills results t) ∧
      stillOpen.filledQty <
        (refreshOrderResult id stillOpen buyTen
          ⟨"SPY", .buy, 10, 0, "now", some "o-1", "submitted"⟩).qty := by
  refine ⟨⟨_, _, rfl, fun hreports => ?_⟩, by decide +kernel⟩
  exact absurd (hreports "SPY" .buy) (by decide +kernel)

/-- The first order fills at its second poll; the second is canceled without a fill, and the
third is refused. -/
def settledAnswers : List SubmitAnswer :=
  [.accepts "o-1" fun i => if i = 0 then some stillOpen else some ⟨400, 10, "filled"⟩,
   .accepts "o-2" fun _ => some ⟨0, 0, "canceled"⟩, .refuses]

def settledOrders : List Order :=
  [buyTen, { symbol := "QQQ", side := .sell, qty := 5 }, { buyTen with qty := 3 }]

/-- Once the polls show what became of each order, the report is the broker's. -/
theorem settled_orders_reported :
    (∃ results t, submitOrders id id acceptsAll "now" false none settledOrders
        { answers := settledAnswers } = (some results, t) ∧ ReportsFills results t) ∧
      (refreshOrderResult id ⟨400, 10, "filled"⟩ buyTen
        ⟨"SPY", .buy, 10, 0, "now", some "o-1", "submitted"⟩).qty ≤ 10 := by
  obtain ⟨hbatch, hrefresh⟩ := fills_reported_iff id id "now" rfl
  refine ⟨⟨_, _, rfl, ?_⟩, (hrefresh ⟨400, 10, "filled"⟩ buyTen
    ⟨"SPY", .buy, 10, 0, "now", some "o-1", "submitted"⟩ (by decide)).mpr
      (.inl (by decide +kernel))⟩
  refine (hbatch false none settledOrders settledAnswers _ _ rfl).mpr fun _ symbol side => .inl ?_
  have hfaithful : ∀ p ∈ placed id none settledOrders settledAnswers, p.Faithful id := by
    decide +kernel
  exact fun p hp => hfaithful p (List.mem_of_mem_filter hp)

end TradingPlatform.Broker.Alpaca
