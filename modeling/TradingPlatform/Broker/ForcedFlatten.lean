import TradingPlatform.Broker.AlpacaTactics

/-! # The forced flatten of a symbol

`_force_flatten_symbol_sync` may send two child orders, each for the whole
position: an IOC limit, and a market order unless the IOC came back filled. A
child executes what the broker executes of it, whatever the polls showed. -/

namespace TradingPlatform.Broker.Alpaca

/-- What the market data client answers; an exception is no quote. -/
structure StockQuote where
  bidPrice : ℚ
  askPrice : ℚ
  bidSize : ℚ := 0
  askSize : ℚ := 0
  deriving DecidableEq

structure NbboSnapshot where
  symbol : String
  bidPrice : ℚ
  askPrice : ℚ
  bidSize : ℚ := 0
  askSize : ℚ := 0
  source : String := "rest"
  deriving DecidableEq

def NbboSnapshot.midPrice (nbbo : NbboSnapshot) : ℚ :=
  if 0 < nbbo.bidPrice ∧ 0 < nbbo.askPrice then (nbbo.bidPrice + nbbo.askPrice) / 2
  else max (max nbbo.bidPrice nbbo.askPrice) 0

section Flatten
variable (upper lower strip : String → String) (now : String) (quote : Option StockQuote)

def getNbboSnapshotSync (symbol : String) : Option NbboSnapshot :=
  if inferAssetClass upper symbol ≠ .stock then none
  else
    quote.bind fun quote =>
      if quote.bidPrice ≤ 0 ∧ quote.askPrice ≤ 0 then none
      else
        some
          { symbol, bidPrice := quote.bidPrice, askPrice := quote.askPrice
            bidSize := quote.bidSize, askSize := quote.askSize }

/-- The flatten's orders carry no client order id, so the broker never knows them. -/
def noDuplicates : List ChildOrder → OrderRequest → Bool := fun _ _ => false

def flattenOrder (symbol positionSide : String) (qty : ℚ) : Order where
  symbol := symbol
  side := if lower (strip positionSide) = "long" then .sell else .buy
  qty := qty
  orderType := "market"
  strategyId := "forced_liquidation_recovery"

def flattenMarket (order : Order) (s : Session) : Outcome (Option OrderResult) × Session :=
  let (outcome, s) := submitMarketSync upper lower noDuplicates now order s
  (outcome.map some, s)

def forceFlattenSymbolSync (symbol positionSide : String) (positionQty : ℚ) (s : Session) :
    Outcome (Option OrderResult) × Session :=
  if positionQty ≤ 0 then (.returned none, s)
  else
    let order := flattenOrder lower strip symbol positionSide positionQty
    if inferAssetClass upper symbol = .stock then
      match getNbboSnapshotSync upper quote symbol with
      | none => flattenMarket upper lower now order s
      | some nbbo =>
        if 0 < nbbo.midPrice then
          match submitIocLimitSync upper lower noDuplicates now order s with
          | (.returned iocResult, s) =>
            if iocResult.status ∈ ["filled", "partially_filled"] ∧ 0 < iocResult.filledPrice then
              (.returned (some iocResult), s)
            else flattenMarket upper lower now order s
          | (.raised, s) => (.raised, s)
          | (.died, s) => (.died, s)
        else flattenMarket upper lower now order s
    else flattenMarket upper lower now order s

/-! ## What the children execute -/

/-- `executed i` is what the broker executes of the `i`-th child, at most its quantity. -/
def Executes (executed : Nat → ℚ) (t : Session) : Prop :=
  ∀ i child, t.book[i]? = some child → 0 ≤ executed i ∧ executed i ≤ child.request.qty

def totalExecuted (executed : Nat → ℚ) (t : Session) : ℚ :=
  ((List.range t.book.length).map executed).sum

/-- At most one child, for the whole quantity. -/
structure OneChild (qty : ℚ) (book : List ChildOrder) : Prop where
  length : book.length ≤ 1
  whole : ∀ child ∈ book, child.request.qty = qty

theorem OneChild.nil (qty : ℚ) : OneChild qty [] := ⟨by simp, by simp⟩

theorem OneChild.singleton {qty : ℚ} {child : ChildOrder} (h : child.request.qty = qty) :
    OneChild qty [child] :=
  ⟨by simp, by simpa using h⟩

/-- An IOC child goes out: a stock, with a price in the quote. -/
def IocSent (symbol : String) : Prop :=
  inferAssetClass upper symbol = .stock ∧
    ∃ nbbo, getNbboSnapshotSync upper quote symbol = some nbbo ∧ 0 < nbbo.midPrice

/-- No market order follows this answer to the IOC child: the submission raised, or the
polls settled on a fill status with a price. -/
def HoldsBack : SubmitAnswer → Prop
  | .accepts _ polls =>
    (waitForFillSync lower polls).1.status ∈ ["filled", "partially_filled"] ∧
      0 < (waitForFillSync lower polls).1.filledPrice
  | .acceptsAndRaises => True
  | .refuses => True

/-- The market order adds at most one child, for the order's quantity. -/
theorem flattenMarket_book (order : Order) (s : Session) :
    ∃ children, (flattenMarket upper lower now order s).2.book = s.book ++ children ∧
      OneChild order.qty children := by
  unfold flattenMarket submitMarketSync sendChild
  cases s.answers with
  | nil => exact ⟨[], by simp, .nil _⟩
  | cons answer answers =>
    cases answer with
    | refuses => exact ⟨[], by simp, .nil _⟩
    | acceptsAndRaises => exact ⟨[_], rfl, .singleton rfl⟩
    | accepts orderId polls => exact ⟨[_], rfl, .singleton rfl⟩

/-- The IOC child of an accepted order, and what the client reports of it. -/
theorem submitIocLimitSync_accepts (order : Order) (orderId : String)
    (polls : Nat → Option PollAnswer) (rest : List SubmitAnswer) :
    ∃ result child,
      submitIocLimitSync upper lower noDuplicates now order
          { answers := .accepts orderId polls :: rest } =
        (.returned result, { answers := rest, book := [child] }) ∧
      result.status = (waitForFillSync lower polls).1.status ∧
      result.filledPrice = (waitForFillSync lower polls).1.filledPrice ∧
      child.request.qty = order.qty :=
  ⟨_, _, rfl, rfl, rfl, rfl⟩

theorem flattenMarket_accepts (order : Order) (orderId : String)
    (polls : Nat → Option PollAnswer) (child : ChildOrder) :
    ∃ market, market.request.qty = order.qty ∧
      (flattenMarket upper lower now order
        { answers := [.accepts orderId polls], book := [child] }).2.book = [child, market] :=
  ⟨_, rfl, rfl⟩

variable {upper lower strip now quote}

/-- Without an IOC child the flatten is the market order. -/
theorem forceFlattenSymbolSync_of_not_iocSent {symbol : String} (positionSide : String)
    {positionQty : ℚ} (hqty : 0 < positionQty) (h : ¬ IocSent upper quote symbol) (s : Session) :
    forceFlattenSymbolSync upper lower strip now quote symbol positionSide positionQty s =
      flattenMarket upper lower now (flattenOrder lower strip symbol positionSide positionQty)
        s := by
  unfold forceFlattenSymbolSync
  rw [if_neg (not_le.mpr hqty)]
  dsimp only
  split
  · rename_i hstock
    cases hnbbo : getNbboSnapshotSync upper quote symbol with
    | none => rfl
    | some nbbo => exact if_neg fun hmid => h ⟨hstock, nbbo, hnbbo, hmid⟩
  · rfl

/-- With one, what follows is the answer's to decide. -/
theorem forceFlattenSymbolSync_of_iocSent {symbol : String} (positionSide : String)
    {positionQty : ℚ} (hqty : 0 < positionQty) (h : IocSent upper quote symbol) (s : Session) :
    forceFlattenSymbolSync upper lower strip now quote symbol positionSide positionQty s =
      match submitIocLimitSync upper lower noDuplicates now
          (flattenOrder lower strip symbol positionSide positionQty) s with
      | (.returned iocResult, s) =>
        if iocResult.status ∈ ["filled", "partially_filled"] ∧ 0 < iocResult.filledPrice then
          (.returned (some iocResult), s)
        else
          flattenMarket upper lower now
            (flattenOrder lower strip symbol positionSide positionQty) s
      | (.raised, s) => (.raised, s)
      | (.died, s) => (.died, s) := by
  obtain ⟨hstock, nbbo, hnbbo, hmid⟩ := h
  unfold forceFlattenSymbolSync
  rw [if_neg (not_le.mpr hqty), if_pos hstock, hnbbo]
  exact if_pos hmid

/-- An answer that holds the market order back leaves the one child at most. -/
theorem oneChild_of_holdsBack {symbol : String} (positionSide : String) {positionQty : ℚ}
    (hqty : 0 < positionQty) (h : IocSent upper quote symbol) {first : SubmitAnswer}
    (hfirst : HoldsBack lower first) (rest : List SubmitAnswer) :
    OneChild positionQty (forceFlattenSymbolSync upper lower strip now quote symbol positionSide
      positionQty { answers := first :: rest }).2.book := by
  rw [forceFlattenSymbolSync_of_iocSent positionSide hqty h]
  cases first with
  | refuses => exact .nil _
  | acceptsAndRaises => exact .singleton rfl
  | accepts orderId polls =>
    obtain ⟨result, child, hsent, hstatus, hprice, hchild⟩ :=
      submitIocLimitSync_accepts upper lower now
        (flattenOrder lower strip symbol positionSide positionQty) orderId polls rest
    rw [hsent]
    dsimp only
    rw [if_pos (by rw [hstatus, hprice]; exact hfirst)]
    exact .singleton hchild

variable (strip now) in
/-- Any other answer is followed by the market order for the whole position. -/
theorem book_of_not_holdsBack {symbol : String} (positionSide : String) {positionQty : ℚ}
    (hqty : 0 < positionQty) (h : IocSent upper quote symbol) {orderId : String}
    {polls : Nat → Option PollAnswer} (hfirst : ¬ HoldsBack lower (.accepts orderId polls))
    (rest : List SubmitAnswer) :
    ∃ child, child.request.qty = positionQty ∧
      (forceFlattenSymbolSync upper lower strip now quote symbol positionSide positionQty
          { answers := .accepts orderId polls :: rest }).2.book =
        (flattenMarket upper lower now (flattenOrder lower strip symbol positionSide positionQty)
          { answers := rest, book := [child] }).2.book := by
  rw [forceFlattenSymbolSync_of_iocSent positionSide hqty h]
  obtain ⟨result, child, hsent, hstatus, hprice, hchild⟩ :=
    submitIocLimitSync_accepts upper lower now
      (flattenOrder lower strip symbol positionSide positionQty) orderId polls rest
  refine ⟨child, hchild, ?_⟩
  rw [hsent]
  dsimp only
  rw [if_neg (by rw [hstatus, hprice]; exact hfirst)]

theorem totalExecuted_oneChild {t : Session} {positionQty : ℚ} (hqty : 0 < positionQty)
    (h : OneChild positionQty t.book) {executed : Nat → ℚ} (hexec : Executes executed t) :
    totalExecuted executed t ≤ positionQty := by
  unfold totalExecuted
  cases hbook : t.book with
  | nil => simpa using hqty.le
  | cons child book =>
    obtain ⟨hlen, hchild⟩ := h
    rw [hbook] at hlen hchild
    obtain rfl : book = [] := List.length_eq_zero_iff.mp (by simpa using hlen)
    have hle := (hexec 0 child (by simp [hbook])).2
    rw [hchild child List.mem_cons_self] at hle
    simpa using hle

theorem totalExecuted_two {t : Session} {a b : ChildOrder} (h : t.book = [a, b])
    {executed : Nat → ℚ} : totalExecuted executed t = executed 0 + executed 1 := by
  simp [totalExecuted, h, List.range_succ]

/-! ## When a forced flatten never reverses the position -/

/-- Whatever the broker does with a market order, the children execute no more than the
position, given its answer to the first child and what it executes of it. -/
def NeverReverses (upper lower strip : String → String) (now : String)
    (quote : Option StockQuote) (symbol positionSide : String) (positionQty : ℚ)
    (first : SubmitAnswer) (filled : ℚ) : Prop :=
  ∀ (rest : List SubmitAnswer) (executed : Nat → ℚ), executed 0 = filled →
    Executes executed (forceFlattenSymbolSync upper lower strip now quote symbol positionSide
      positionQty { answers := first :: rest }).2 →
    totalExecuted executed (forceFlattenSymbolSync upper lower strip now quote symbol
      positionSide positionQty { answers := first :: rest }).2 ≤ positionQty

/-- Behind an IOC child that does not hold it back, a market order fills for the whole
position, so that the child must have executed nothing. -/
theorem NeverReverses.unfilled {symbol positionSide : String} {positionQty : ℚ}
    (hqty : 0 < positionQty) (hioc : IocSent upper quote symbol) {orderId : String}
    {polls : Nat → Option PollAnswer} (hhold : ¬ HoldsBack lower (.accepts orderId polls))
    {filled : ℚ} (hfilled : 0 ≤ filled) (hle : filled ≤ positionQty)
    (h : NeverReverses upper lower strip now quote symbol positionSide positionQty
      (.accepts orderId polls) filled) : filled = 0 := by
  obtain ⟨child, hchild, hbook⟩ :=
    book_of_not_holdsBack strip now positionSide hqty hioc hhold [.accepts orderId polls]
  obtain ⟨market, hmarket, hboth⟩ := flattenMarket_accepts upper lower now
    (flattenOrder lower strip symbol positionSide positionQty) orderId polls child
  rw [hboth] at hbook
  have hexec : Executes (fun i => if i = 0 then filled else positionQty)
      (forceFlattenSymbolSync upper lower strip now quote symbol positionSide positionQty
        { answers := .accepts orderId polls :: [.accepts orderId polls] }).2 := by
    intro i c hc
    rw [hbook] at hc
    match i with
    | 0 =>
      obtain rfl : child = c := by simpa using hc
      exact ⟨hfilled, hle.trans hchild.ge⟩
    | 1 =>
      obtain rfl : market = c := by simpa using hc
      exact ⟨hqty.le, hmarket.ge⟩
    | i + 2 => simp at hc
  have htotal := h _ _ rfl hexec
  rw [totalExecuted_two hbook] at htotal
  exact le_antisymm (by simpa using htotal) hfilled

variable (strip now) in
/-- An IOC child that executes nothing leaves the position to one market order. -/
theorem neverReverses_of_unfilled {symbol : String} (positionSide : String) {positionQty : ℚ}
    (hqty : 0 < positionQty) (hioc : IocSent upper quote symbol) {orderId : String}
    {polls : Nat → Option PollAnswer} (hhold : ¬ HoldsBack lower (.accepts orderId polls)) :
    NeverReverses upper lower strip now quote symbol positionSide positionQty
      (.accepts orderId polls) 0 := by
  intro rest executed hzero hexec
  obtain ⟨child, hchild, hbook⟩ := book_of_not_holdsBack strip now positionSide hqty hioc hhold rest
  obtain ⟨children, hchildren, hone⟩ := flattenMarket_book upper lower now
    (flattenOrder lower strip symbol positionSide positionQty) { answers := rest, book := [child] }
  rw [hchildren] at hbook
  match children, hone, hbook with
  | [], _, hbook =>
    exact totalExecuted_oneChild hqty (by rw [hbook]; exact .singleton hchild) hexec
  | [market], hone, hbook =>
    have hmarket := (hexec 1 market (by rw [hbook]; rfl)).2
    rw [hone.whole market List.mem_cons_self] at hmarket
    rw [totalExecuted_two hbook, hzero, zero_add]
    exact hmarket
  | _ :: _ :: _, hone, _ => exact absurd hone.length (by simp)

/-- The flatten never reverses a position exactly when it sends no IOC child, the answer to the
IOC child holds the market order back, or the IOC child executes nothing. -/
theorem neverReverses_iff (upper lower strip : String → String) (now : String)
    (quote : Option StockQuote) (symbol positionSide : String) {positionQty : ℚ}
    (hqty : 0 < positionQty) (first : SubmitAnswer) {filled : ℚ} (hfilled : 0 ≤ filled)
    (hle : filled ≤ positionQty) :
    NeverReverses upper lower strip now quote symbol positionSide positionQty first filled ↔
      (IocSent upper quote symbol → HoldsBack lower first ∨ filled = 0) := by
  by_cases hioc : IocSent upper quote symbol
  swap
  · refine iff_of_true (fun rest executed _ hexec => ?_) fun h => absurd h hioc
    have hbook := flattenMarket_book upper lower now
      (flattenOrder lower strip symbol positionSide positionQty) { answers := first :: rest }
    rw [forceFlattenSymbolSync_of_not_iocSent positionSide hqty hioc] at hexec ⊢
    obtain ⟨children, hchildren, hone⟩ := hbook
    exact totalExecuted_oneChild hqty (by rw [hchildren]; exact hone) hexec
  by_cases hhold : HoldsBack lower first
  · refine iff_of_true (fun rest executed _ hexec => ?_) fun _ => Or.inl hhold
    exact totalExecuted_oneChild hqty (oneChild_of_holdsBack positionSide hqty hioc hhold rest)
      hexec
  cases first with
  | refuses => exact absurd trivial hhold
  | acceptsAndRaises => exact absurd trivial hhold
  | accepts orderId polls =>
    constructor
    · exact fun h _ => Or.inr (h.unfilled hqty hioc hhold hfilled hle)
    · intro h
      rw [(h hioc).resolve_left hhold]
      exact neverReverses_of_unfilled strip now positionSide hqty hioc hhold

end Flatten

/-- An IOC child that fills the whole position is the only one. -/
theorem neverReverses_filled_ioc :
    NeverReverses id id id "now" (some { bidPrice := 100, askPrice := 101 }) "SPY" "long" 10
      (.accepts "ioc" fun _ => some ⟨100, 10, "filled"⟩) 10 :=
  (neverReverses_iff id id id "now" (some { bidPrice := 100, askPrice := 101 }) "SPY" "long"
    (by norm_num) (.accepts "ioc" fun _ => some ⟨100, 10, "filled"⟩) (by norm_num)
      (by norm_num)).mpr fun _ => Or.inl ⟨by decide +kernel, by decide +kernel⟩

/-- The market order of a session that fills it for ten shares. -/
def tenSold : List SubmitAnswer := [.accepts "market" fun _ => some ⟨100, 10, "filled"⟩]

/-- Ten shares long. The IOC child fills four and is canceled; the market order then sells
ten more, so that the position ends four shares short. -/
theorem not_neverReverses_partial_ioc :
    ¬ NeverReverses id id id "now" (some { bidPrice := 100, askPrice := 101 }) "SPY" "long" 10
      (.accepts "ioc" fun _ => some ⟨100, 4, "canceled"⟩) 4 := by
  intro h
  have hbook : (forceFlattenSymbolSync id id id "now" (some { bidPrice := 100, askPrice := 101 })
      "SPY" "long" 10
      { answers := (.accepts "ioc" fun _ => some ⟨100, 4, "canceled"⟩) :: tenSold }).2.book.map
        (fun child => (child.request.side, child.request.qty, child.reported)) =
      [(.sell, 10, 4), (.sell, 10, 10)] := by decide +kernel
  have htotal := h tenSold (fun i => if i = 0 then 4 else 10) rfl fun i child hchild => by
    have hrow := congrArg (fun rows => rows[i]?.map fun row => row.2.1) hbook
    rw [List.getElem?_map, hchild] at hrow
    match i with
    | 0 =>
      have hqty : child.request.qty = 10 := by simpa using hrow
      norm_num [hqty]
    | 1 =>
      have hqty : child.request.qty = 10 := by simpa using hrow
      norm_num [hqty]
    | i + 2 => simp at hrow
  exact absurd htotal (by decide +kernel)

end TradingPlatform.Broker.Alpaca
