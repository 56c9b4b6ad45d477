import TradingPlatform.Engine.FlattenProtocol

/-! # What a portfolio flatten accounts for

The cascade against a broker whose every call may succeed, return `None` or
raise. The loops go on past an exception; the flatten loop passes over a position
without a positive quantity, and over a flatten that returns `None`, without a
word in either list. -/

namespace TradingPlatform.Engine.FlattenAccounting

open TradingPlatform.Lib FlattenProtocol

/-- An attribute that is missing or `None` is `none`. -/
structure FoundPosition where
  symbol : String
  qty? : Option ℚ
  side? : Option String
  deriving DecidableEq

/-- `float(getattr(position, "qty", 0.0) or 0.0)`. -/
def FoundPosition.qty (p : FoundPosition) : ℚ := p.qty?.getD 0

/-- `str(getattr(position, "side", "flat") or "flat")`. -/
def FoundPosition.side (p : FoundPosition) : String :=
  match p.side? with
  | none => "flat"
  | some side => if side = "" then "flat" else side

inductive Outcome (α : Type)
  | returned (a : α)
  | none
  | raised (error : String)
  deriving DecidableEq

/-- How the calls turn out; a flatten by the place of its position in the list. -/
structure Outcomes where
  cancelOpenOrdersForSymbol : String → Outcome ℤ
  awaitOpenOrdersCleared : String → Outcome (Bool × ℤ)
  forceCancelAllOrdersForSymbol : String → Outcome ℤ
  /-- The wait after a forced cancel. -/
  awaitAgain : String → Outcome (Bool × ℤ)
  forceFlattenSymbolPosition : ℕ → Outcome Unit
  closeAllPositions : Outcome Unit

inductive BrokerCall
  | cancelOpenOrders (symbol : String)
  | awaitCleared (symbol : String)
  | forceCancelAll (symbol : String)
  | forceFlatten (symbol side : String) (qty : ℚ)
  | closeAllPositions
  deriving DecidableEq

structure Protocol where
  portfolioFlattening : Bool := false
  pendingOrders : Dict String (Option String) := .empty
  calls : List BrokerCall := []
  deriving DecidableEq

structure FlattenReport extends FlattenResult where
  failedErrors : Option (Dict String String) := none
  deriving DecidableEq

def FlattenReport.partialFailure (r : FlattenReport) : Bool := 0 < r.symbolsFailed.length

/-- What the flatten loop has done so far. -/
structure Progress where
  calls : List BrokerCall
  flattened : List String := []
  failed : List String := []
  failedErrors : Dict String String := .empty

section Cascade
variable (upper : String → String) (o : Outcomes)

/-- The answer is logged, an exception as well. -/
def cancelCalls (symbol : String) : List BrokerCall :=
  match o.cancelOpenOrdersForSymbol symbol with
  | .returned _ | .none | .raised _ => [.cancelOpenOrders symbol]

/-- To take `None` apart raises inside the `try`. -/
def awaitCalls (symbol : String) : List BrokerCall :=
  match o.awaitOpenOrdersCleared symbol with
  | .returned (true, _) | .none | .raised _ => [.awaitCleared symbol]
  | .returned (false, _) =>
    match o.forceCancelAllOrdersForSymbol symbol with
    | .raised _ => [.awaitCleared symbol, .forceCancelAll symbol]
    | .returned _ | .none =>
      match o.awaitAgain symbol with
      | .returned _ | .none | .raised _ =>
        [.awaitCleared symbol, .forceCancelAll symbol, .awaitCleared symbol]

def flattenStep (l : Progress) (entry : FoundPosition × ℕ) : Progress :=
  let symbol := upper entry.1.symbol
  if entry.1.qty ≤ 0 then l
  else
    let l := { l with calls := l.calls ++ [.forceFlatten symbol entry.1.side entry.1.qty] }
    match o.forceFlattenSymbolPosition entry.2 with
    | .returned _ => { l with flattened := l.flattened ++ [symbol] }
    | .none => l
    | .raised error =>
      { l with
        failed := l.failed ++ [symbol]
        failedErrors := l.failedErrors.set symbol error }

/-- `sorted({str(p.symbol).upper() for p in positions})`. -/
def symbolsOf (positions : List FoundPosition) : List String :=
  StableSort.sortBy id (positions.map fun p => upper p.symbol).dedup

/-- `positions` is what `get_positions` returns. -/
def executePortfolioFlatten (positions : List FoundPosition) (reason : String) (s : Protocol) :
    Except String FlattenReport × Protocol :=
  if s.portfolioFlattening then
    (.ok { executed := false, skipped := true, reason := "portfolio_flatten_already_active" }, s)
  else
    let symbols := symbolsOf upper positions
    let calls := s.calls ++ symbols.flatMap (cancelCalls o) ++ symbols.flatMap (awaitCalls o)
    let s := { s with pendingOrders := .empty }
    if positions ≠ [] then
      let l := positions.zipIdx.foldl (flattenStep upper o) { calls }
      (.ok
        { executed := true, skipped := false, reason, symbolsFlattened := l.flattened
          symbolsFailed := l.failed, positionCount := positions.length
          failedErrors := if l.failedErrors.items = [] then none else some l.failedErrors },
        { s with calls := l.calls })
    else
      let s := { s with calls := calls ++ [.closeAllPositions] }
      match o.closeAllPositions with
      | .raised error => (.error error, s)
      | .returned _ | .none => (.ok { executed := true, skipped := false, reason }, s)

end Cascade

/-! ## The flatten loop -/

/-- A position and its place in the list. -/
abbrev Entry := FoundPosition × ℕ

def BrokerCall.isFlatten : BrokerCall → Bool
  | .forceFlatten .. => true
  | _ => false

section Loop
variable {upper : String → String} {o : Outcomes}

def attempt (upper : String → String) (e : Entry) : BrokerCall :=
  .forceFlatten (upper e.1.symbol) e.1.side e.1.qty

/-- The flatten of the entry does not return `None`. -/
def Answered (o : Outcomes) (e : Entry) : Prop :=
  0 < e.1.qty ∧ o.forceFlattenSymbolPosition e.2 ≠ .none

def Raises (o : Outcomes) (e : Entry) : Prop :=
  0 < e.1.qty ∧ ∃ error, o.forceFlattenSymbolPosition e.2 = .raised error

def Flattened (o : Outcomes) (e : Entry) : Prop :=
  0 < e.1.qty ∧ o.forceFlattenSymbolPosition e.2 = .returned ()

theorem answered_iff (o : Outcomes) (e : Entry) : Answered o e ↔ Flattened o e ∨ Raises o e := by
  unfold Answered Flattened Raises
  rw [← and_or_left]
  refine and_congr_right fun _ => ?_
  cases o.forceFlattenSymbolPosition e.2 <;> simp

theorem flattenStep_spec (l : Progress) (e : Entry) :
    (flattenStep upper o l e).calls =
        l.calls ++ (if 0 < e.1.qty then [attempt upper e] else []) ∧
      (∀ symbol, symbol ∈ (flattenStep upper o l e).flattened ↔
        symbol ∈ l.flattened ∨ upper e.1.symbol = symbol ∧ Flattened o e) ∧
      ∀ symbol, symbol ∈ (flattenStep upper o l e).failed ↔
        symbol ∈ l.failed ∨ upper e.1.symbol = symbol ∧ Raises o e := by
  unfold flattenStep Flattened Raises
  by_cases hqty : 0 < e.1.qty
  case neg => simp [hqty, not_lt.mp hqty]
  cases hflatten : o.forceFlattenSymbolPosition e.2 with
  | returned u => simp [hqty, not_le.mpr hqty, attempt, eq_comm]
  | none => simp [hqty, not_le.mpr hqty, attempt]
  | raised error => simp [hqty, not_le.mpr hqty, attempt, eq_comm]

/-- Each entry of positive quantity is attempted, whatever became of those before it. -/
theorem calls_flattenLoop (entries : List Entry) (l : Progress) :
    (entries.foldl (flattenStep upper o) l).calls =
      l.calls ++ (entries.filter (0 < ·.1.qty)).map (attempt upper) := by
  induction entries generalizing l with
  | nil => exact (List.append_nil _).symm
  | cons e rest ih =>
    rw [List.foldl_cons, ih, (flattenStep_spec l e).1, List.filter_cons, List.append_assoc]
    by_cases hqty : 0 < e.1.qty
    · simp [hqty]
    · simp [hqty]

theorem mem_flattened (entries : List Entry) (l : Progress) (symbol : String) :
    symbol ∈ (entries.foldl (flattenStep upper o) l).flattened ↔
      symbol ∈ l.flattened ∨ ∃ e ∈ entries, upper e.1.symbol = symbol ∧ Flattened o e := by
  induction entries generalizing l with
  | nil => simp
  | cons e rest ih =>
    rw [List.foldl_cons, ih, (flattenStep_spec l e).2.1, or_assoc, List.exists_mem_cons_iff]

theorem mem_failed (entries : List Entry) (l : Progress) (symbol : String) :
    symbol ∈ (entries.foldl (flattenStep upper o) l).failed ↔
      symbol ∈ l.failed ∨ ∃ e ∈ entries, upper e.1.symbol = symbol ∧ Raises o e := by
  induction entries generalizing l with
  | nil => simp
  | cons e rest ih =>
    rw [List.foldl_cons, ih, (flattenStep_spec l e).2.2, or_assoc, List.exists_mem_cons_iff]

end Loop

/-! ## The account of a flatten -/

section Account
variable (upper : String → String) (o : Outcomes) (positions : List FoundPosition) (reason : String)
  (s : Protocol)

/-- A failure stops no other attempt; every open position is in one of the two lists, and
without a failure every one was flattened. -/
structure Accounts : Prop where
  attempts : ∀ o', (executePortfolioFlatten upper o positions reason s).2.calls.filter
      BrokerCall.isFlatten =
    (executePortfolioFlatten upper o' positions reason s).2.calls.filter BrokerCall.isFlatten
  returns : positions ≠ [] → ∃ r, (executePortfolioFlatten upper o positions reason s).1 = .ok r
  recorded : ∀ r, (executePortfolioFlatten upper o positions reason s).1 = .ok r →
    ∀ p ∈ positions, p.qty ≠ 0 →
      upper p.symbol ∈ r.symbolsFlattened ∨ upper p.symbol ∈ r.symbolsFailed
  complete : ∀ r, (executePortfolioFlatten upper o positions reason s).1 = .ok r →
    r.partialFailure = false → ∀ e ∈ positions.zipIdx, e.1.qty ≠ 0 → Flattened o e

/-- Every open position has a long one of its symbol whose flatten answers; and each one
is such a position itself, unless some flatten raises. -/
structure Answers : Prop where
  symbols : ∀ p ∈ positions, p.qty ≠ 0 →
    ∃ e ∈ positions.zipIdx, upper e.1.symbol = upper p.symbol ∧ Answered o e
  each : (∃ e ∈ positions.zipIdx, Raises o e) ∨
    ∀ e ∈ positions.zipIdx, e.1.qty ≠ 0 → Answered o e

end Account

variable {upper : String → String} {o : Outcomes} {positions : List FoundPosition} {reason : String}
  {s : Protocol}

/-- No call before the flatten loop is a flatten. -/
theorem filter_isFlatten_cancels (o : Outcomes) (symbols : List String) :
    (symbols.flatMap (cancelCalls o) ++ symbols.flatMap (awaitCalls o)).filter
      BrokerCall.isFlatten = [] := by
  have hcancel : ∀ symbol, (cancelCalls o symbol).filter BrokerCall.isFlatten = [] := by
    intro symbol
    unfold cancelCalls
    split <;> rfl
  have hawait : ∀ symbol, (awaitCalls o symbol).filter BrokerCall.isFlatten = [] := by
    intro symbol
    unfold awaitCalls
    cases o.awaitOpenOrdersCleared symbol with
    | none => rfl
    | raised error => rfl
    | returned answer =>
      obtain ⟨cleared, remaining⟩ := answer
      cases cleared with
      | true => rfl
      | false =>
        cases o.forceCancelAllOrdersForSymbol symbol <;> cases o.awaitAgain symbol <;> rfl
  rw [List.filter_append, List.filter_flatMap, List.filter_flatMap]
  simp [hcancel, hawait]

theorem isFlatten_attempts (entries : List Entry) :
    (entries.map (attempt upper)).filter BrokerCall.isFlatten = entries.map (attempt upper) := by
  refine List.filter_eq_self.mpr fun call hcall => ?_
  obtain ⟨e, -, rfl⟩ := List.mem_map.mp hcall
  rfl

theorem execute_of_positions (upper : String → String) (o : Outcomes) (reason : String)
    (hidle : s.portfolioFlattening = false) (hne : positions ≠ []) :
    ∃ r, (executePortfolioFlatten upper o positions reason s).1 = .ok r ∧
      (executePortfolioFlatten upper o positions reason s).2.calls.filter BrokerCall.isFlatten =
        s.calls.filter BrokerCall.isFlatten ++
          (positions.zipIdx.filter (0 < ·.1.qty)).map (attempt upper) ∧
      (∀ symbol, symbol ∈ r.symbolsFlattened ↔
        ∃ e ∈ positions.zipIdx, upper e.1.symbol = symbol ∧ Flattened o e) ∧
      ∀ symbol, symbol ∈ r.symbolsFailed ↔
        ∃ e ∈ positions.zipIdx, upper e.1.symbol = symbol ∧ Raises o e := by
  unfold executePortfolioFlatten
  rw [hidle, if_neg Bool.false_ne_true]
  dsimp only
  rw [if_pos hne]
  refine ⟨_, rfl, ?_, fun symbol => ?_, fun symbol => ?_⟩
  · dsimp only
    rw [calls_flattenLoop, List.filter_append, isFlatten_attempts, List.append_assoc,
      List.filter_append, filter_isFlatten_cancels, List.append_nil]
  · rw [mem_flattened]
    simp
  · rw [mem_failed]
    simp

theorem attempts_nil (hidle : s.portfolioFlattening = false) :
    (executePortfolioFlatten upper o [] reason s).2.calls.filter BrokerCall.isFlatten =
      s.calls.filter BrokerCall.isFlatten := by
  have hcalls : (executePortfolioFlatten upper o [] reason s).2.calls =
      s.calls ++ (symbolsOf upper []).flatMap (cancelCalls o) ++
        (symbolsOf upper []).flatMap (awaitCalls o) ++ [.closeAllPositions] := by
    unfold executePortfolioFlatten
    rw [hidle, if_neg Bool.false_ne_true]
    cases o.closeAllPositions <;> rfl
  rw [hcalls, List.filter_append, List.append_assoc s.calls, List.filter_append,
    filter_isFlatten_cancels, List.append_nil]
  exact List.append_nil _

theorem partialFailure_eq_false {r : FlattenReport} :
    r.partialFailure = false ↔ ∀ symbol, symbol ∉ r.symbolsFailed := by
  rw [← List.eq_nil_iff_forall_not_mem, FlattenReport.partialFailure, decide_eq_false_iff_not,
    not_lt, Nat.le_zero, List.length_eq_zero_iff]

/-- **Every position is accounted for** exactly when each open position has a flatten
that answers. -/
theorem accounts_iff (upper : String → String) (o : Outcomes) (positions : List FoundPosition)
    (reason : String) (s : Protocol) (hidle : s.portfolioFlattening = false) :
    Accounts upper o positions reason s ↔ Answers upper o positions := by
  by_cases hne : positions = []
  case pos =>
    subst hne
    have hattempts : ∀ o', (executePortfolioFlatten upper o [] reason s).2.calls.filter
          BrokerCall.isFlatten =
        (executePortfolioFlatten upper o' [] reason s).2.calls.filter BrokerCall.isFlatten :=
      fun o' => (attempts_nil hidle).trans (attempts_nil hidle).symm
    exact iff_of_true ⟨hattempts, fun h => absurd rfl h, nofun, nofun⟩ ⟨nofun, .inr nofun⟩
  obtain ⟨r, hr, -, hflattened, hfailed⟩ :=
    execute_of_positions upper o reason hidle hne
  have hfailure : r.partialFailure = false ↔ ¬ ∃ e ∈ positions.zipIdx, Raises o e := by
    rw [partialFailure_eq_false]
    constructor
    · rintro h ⟨e, he, hraises⟩
      exact h _ ((hfailed _).mpr ⟨e, he, rfl, hraises⟩)
    · intro h symbol hsymbol
      obtain ⟨e, he, -, hraises⟩ := (hfailed _).mp hsymbol
      exact h ⟨e, he, hraises⟩
  have hrecorded : ∀ symbol, (symbol ∈ r.symbolsFlattened ∨ symbol ∈ r.symbolsFailed) ↔
      ∃ e ∈ positions.zipIdx, upper e.1.symbol = symbol ∧ Answered o e := by
    intro symbol
    simp only [hflattened, hfailed, answered_iff, and_or_left, exists_or]
  constructor
  · intro h
    refine ⟨fun p hp hqty => (hrecorded _).mp (h.recorded r hr p hp hqty), ?_⟩
    by_cases hraises : ∃ e ∈ positions.zipIdx, Raises o e
    · exact .inl hraises
    · refine .inr fun e he hqty => (answered_iff o e).mpr (.inl ?_)
      exact h.complete r hr (hfailure.mpr hraises) e he hqty
  · intro h
    refine ⟨fun o' => ?_, fun _ => ⟨r, hr⟩, fun r' hr' p hp hqty => ?_,
      fun r' hr' hnone e he hqty => ?_⟩
    · obtain ⟨-, -, hcalls, -⟩ := execute_of_positions upper o reason hidle hne
      obtain ⟨-, -, hcalls', -⟩ := execute_of_positions upper o' reason hidle hne
      rw [hcalls, hcalls']
    · obtain rfl : r' = r := Except.ok.inj (hr'.symm.trans hr)
      exact (hrecorded _).mpr (h.symbols p hp hqty)
    · obtain rfl : r' = r := Except.ok.inj (hr'.symm.trans hr)
      have hraises := hfailure.mp hnone
      have hanswered := (h.each.resolve_left hraises) e he hqty
      exact ((answered_iff o e).mp hanswered).resolve_right fun hr => hraises ⟨e, he, hr⟩

/-- Where no two positions share a symbol, each open one has to be such a position. -/
theorem answers_iff_of_distinct (o : Outcomes)
    (hdistinct : (positions.map (upper ·.symbol)).Nodup) :
    Answers upper o positions ↔ ∀ e ∈ positions.zipIdx, e.1.qty ≠ 0 → Answered o e := by
  constructor
  · intro h e he hqty
    obtain ⟨e', he', hsymbol, hanswered⟩ := h.symbols e.1 (List.fst_mem_of_mem_zipIdx he) hqty
    have hi := List.mem_zipIdx_iff_getElem?.mp he
    have hi' := List.mem_zipIdx_iff_getElem?.mp he'
    have hplace : e'.2 = e.2 := by
      have hlt : e'.2 < (positions.map (upper ·.symbol)).length := by
        rw [List.length_map]
        exact (List.getElem?_eq_some_iff.mp hi').1
      refine (List.getElem?_inj hlt hdistinct).mp ?_
      rw [List.getElem?_map, List.getElem?_map, hi, hi', Option.map_some, Option.map_some, hsymbol]
    have hposition : e'.1 = e.1 := Option.some.inj (hi'.symm.trans (hplace ▸ hi))
    rwa [Prod.ext hposition hplace] at hanswered
  · intro h
    refine ⟨fun p hp hqty => ?_, .inr h⟩
    obtain ⟨i, hi⟩ := List.getElem?_of_mem hp
    have he : (p, i) ∈ positions.zipIdx := List.mem_zipIdx_iff_getElem?.mpr hi
    exact ⟨(p, i), he, rfl, h _ he hqty⟩

/-! ## The exchange as one such broker -/

section Exchange
variable {v : Venue}

def foundPosition (p : BrokerPosition) : FoundPosition where
  symbol := p.symbol
  qty? := some p.qty
  side? := some (match p.side with
    | .long => "long"
    | .short => "short")

/-- How the venue's flatten of an open position turns out. -/
def venueFlatten (upper : String → String) (v : Venue) (p : BrokerPosition) : Outcome Unit :=
  if v.soakMode then .none
  else if v.flattenRaises (upper p.symbol) then .raised ""
  else .returned ()

theorem venue_flattenStep {upper : String → String} {o : Outcomes} {p : BrokerPosition} {k : ℕ}
    (hp : o.forceFlattenSymbolPosition k = venueFlatten upper v p) {l : FlattenLoop}
    {l' : Progress} (hdone : l'.flattened = l.flattened) (hfailed : l'.failed = l.failed) :
    (flattenStep upper o l' (foundPosition p, k)).flattened =
        (FlattenProtocol.flattenStep upper v l p).flattened ∧
      (flattenStep upper o l' (foundPosition p, k)).failed =
        (FlattenProtocol.flattenStep upper v l p).failed := by
  have hqty : (foundPosition p).qty = p.qty := rfl
  have hsymbol : (foundPosition p).symbol = p.symbol := rfl
  unfold flattenStep FlattenProtocol.flattenStep forceFlattenSymbolPosition
  dsimp only
  rw [hqty, hsymbol, hp, venueFlatten]
  by_cases hclosed : p.qty ≤ 0
  · rw [if_pos hclosed, if_pos hclosed]
    exact ⟨hdone, hfailed⟩
  rw [if_neg hclosed, if_neg hclosed, if_neg hclosed]
  cases v.soakMode with
  | true => exact ⟨hdone, hfailed⟩
  | false =>
    cases v.flattenRaises (upper p.symbol) with
    | true => exact ⟨hdone, congrArg (· ++ [upper p.symbol]) hfailed⟩
    | false => exact ⟨congrArg (· ++ [upper p.symbol]) hdone, hfailed⟩

theorem venue_flattenLoop {upper : String → String} {o : Outcomes} (entries : List BrokerPosition)
    (k : ℕ) (hflatten : ∀ i p, entries[i]? = some p →
      o.forceFlattenSymbolPosition (k + i) = venueFlatten upper v p)
    (l : FlattenLoop) (l' : Progress) (hdone : l'.flattened = l.flattened)
    (hfailed : l'.failed = l.failed) :
    (((entries.map foundPosition).zipIdx k).foldl (flattenStep upper o) l').flattened =
        (entries.foldl (FlattenProtocol.flattenStep upper v) l).flattened ∧
      (((entries.map foundPosition).zipIdx k).foldl (flattenStep upper o) l').failed =
        (entries.foldl (FlattenProtocol.flattenStep upper v) l).failed := by
  induction entries generalizing k l l' with
  | nil => exact ⟨hdone, hfailed⟩
  | cons p rest ih =>
    have hrest : ∀ i q, rest[i]? = some q →
        o.forceFlattenSymbolPosition (k + 1 + i) = venueFlatten upper v q := by
      intro i q hq
      rw [Nat.add_assoc, Nat.add_comm 1]
      exact hflatten (i + 1) q hq
    have hp : o.forceFlattenSymbolPosition k = venueFlatten upper v p := hflatten 0 p rfl
    rw [List.map_cons, List.zipIdx_cons, List.foldl_cons, List.foldl_cons]
    obtain ⟨hdone, hfailed⟩ := venue_flattenStep hp hdone hfailed
    exact ih (k + 1) hrest _ _ hdone hfailed

/-- The flatten of the exchange model lists what this one does, its flattens turning out
as the venue's. -/
theorem exchange_report {upper : String → String} {o : Outcomes} {desk : Desk}
    (hflatten : ∀ i p, desk.exchange.getPositions[i]? = some p →
      o.forceFlattenSymbolPosition i = venueFlatten upper v p)
    (hidle : desk.portfolioFlattening = false) (hs : s.portfolioFlattening = false)
    (hne : desk.exchange.getPositions ≠ []) (reason : String) :
    ∃ r report, (FlattenProtocol.executePortfolioFlatten upper v reason desk).1 = some r ∧
      (executePortfolioFlatten upper o (desk.exchange.getPositions.map foundPosition) reason s).1 =
        .ok report ∧ report.toFlattenResult = r := by
  have hne' : desk.exchange.getPositions.map foundPosition ≠ [] := mt List.map_eq_nil_iff.mp hne
  unfold FlattenProtocol.executePortfolioFlatten executePortfolioFlatten
  rw [hidle, hs, if_neg Bool.false_ne_true, if_neg Bool.false_ne_true]
  dsimp only
  rw [if_pos hne, if_pos hne']
  refine ⟨_, _, rfl, rfl, ?_⟩
  obtain ⟨hdone, hfailed⟩ := venue_flattenLoop (o := o)
    desk.exchange.getPositions 0 (fun i p hp => (Nat.zero_add i).symm ▸ hflatten i p hp)
    { exchange := _ } { calls := _ } rfl rfl
  rw [hdone, hfailed, List.length_map]

end Exchange

/-- Long 10 QQQ, whose flatten returns `None`. -/
def oneLong : List FoundPosition := [{ symbol := "QQQ", qty? := some 10, side? := some "long" }]

def answering (flatten : Outcome Unit) : Outcomes where
  cancelOpenOrdersForSymbol _ := .returned 0
  awaitOpenOrdersCleared _ := .returned (true, 0)
  forceCancelAllOrdersForSymbol _ := .returned 0
  awaitAgain _ := .returned (true, 0)
  forceFlattenSymbolPosition _ := flatten
  closeAllPositions := .returned ()

theorem none_is_unaccounted :
    ¬ Accounts id (answering .none) oneLong "halt" {} := by
  intro h
  exact absurd (h.complete _ rfl (by decide +kernel) _ List.mem_cons_self (by decide +kernel)).2
    (by decide +kernel)

theorem raise_is_accounted : Accounts id (answering (.raised "timeout")) oneLong "halt" {} :=
  (accounts_iff id (answering (.raised "timeout")) oneLong "halt" {} rfl).mpr
    { symbols := by
        intro p hp _
        obtain rfl := List.mem_singleton.mp hp
        exact ⟨_, List.mem_cons_self, rfl, by decide +kernel, by decide⟩
      each := .inl ⟨_, List.mem_cons_self, by decide +kernel, "timeout", rfl⟩ }

end TradingPlatform.Engine.FlattenAccounting
