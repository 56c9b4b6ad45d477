import TradingPlatform.Broker.Simulated

/-! # The margin of short positions

A short is afforded from cash, which the proceeds of the shorts before it have
already raised. At one price, without slippage and fees, the equity never moves;
the shorts can outgrow it. -/

namespace TradingPlatform.Broker.Simulated

open TradingPlatform.Lib TradingPlatform.Lib.Runs

namespace SimulatedBroker

/-- The account's equity with every position marked at a price. -/
def equityAt (b : SimulatedBroker) (price : ℚ) : ℚ := (b.markEquity price).equity

/-- A total over the signed positions. -/
def weigh (g : ℚ → ℚ) (b : SimulatedBroker) : ℚ :=
  b.positions.total fun _ pos => g pos.signedQty

/-- The shares held short, over all symbols. -/
def shortShares (b : SimulatedBroker) : ℚ := b.weigh fun q => max (-q) 0

/-- The initial margin of `shares` short shares is within the equity. -/
def Carries (price shares : ℚ) (b : SimulatedBroker) : Prop :=
  shortMarginInitial * (price * shares) ≤ b.equityAt price

instance (price shares : ℚ) (b : SimulatedBroker) : Decidable (Carries price shares b) :=
  inferInstanceAs (Decidable (_ ≤ _))

/-- The margin rule for all that is held short. -/
def MarginHeld (price : ℚ) (b : SimulatedBroker) : Prop := Carries price b.shortShares b

/-- A sell that opens or adds to a short. -/
def OpensShort (b : SimulatedBroker) (order : Order) : Prop :=
  order.side = .sell ∧ (b.positions.get? order.symbol).map (·.side) ≠ some .long

instance (b : SimulatedBroker) (order : Order) : Decidable (OpensShort b order) :=
  inferInstanceAs (Decidable (_ ∧ _))

/-- An order that opens or adds to a short asks for no more shares than the equity
can still carry, or the cash is the margin of no more. -/
def WithinMargin (price : ℚ) (b : SimulatedBroker) (order : Order) : Prop :=
  OpensShort b order →
    Carries price (b.shortShares + truncate order.qty) b ∨
      Carries price (b.shortShares + truncate (b.cash / (price * shortMarginInitial))) b

instance (price : ℚ) (b : SimulatedBroker) (order : Order) :
    Decidable (WithinMargin price b order) :=
  inferInstanceAs (Decidable (_ → _))

/-! ## One order -/

theorem equityAt_eq (b : SimulatedBroker) (price : ℚ) :
    b.equityAt price = b.cash + price * b.weigh id := by
  rw [weigh, ← Dict.total_mul_left]
  rfl

/-- An order moves the position in its own symbol only. -/
theorem openPosition_other {b : SimulatedBroker} {side : PositionSide} {symbol s : String}
    (hs : s ≠ symbol) (affordable : ℤ) (qty price : ℚ) :
    (b.openPosition side affordable symbol qty price).2.positions.get? s = b.positions.get? s := by
  unfold openPosition
  dsimp only
  split
  · rfl
  split
  · rfl
  · exact b.positions.get?_set_ne hs _

theorem closePosition_other {b : SimulatedBroker} {side : PositionSide} {symbol s : String}
    (hs : s ≠ symbol) (qty price : ℚ) :
    (b.closePosition side symbol qty price).2.positions.get? s = b.positions.get? s := by
  unfold closePosition
  cases b.positions.get? symbol with
  | none => rfl
  | some pos =>
    dsimp only
    split
    · rfl
    split
    · rfl
    dsimp only
    split
    · rw [Dict.get?_erase, if_neg hs]
    · exact b.positions.get?_set_ne hs _

theorem route_other {b : SimulatedBroker} {order : Order} {s : String} (hs : s ≠ order.symbol)
    (price : ℚ) : (b.route order price).2.positions.get? s = b.positions.get? s := by
  unfold route
  cases order.side with
  | buy =>
    dsimp only
    split
    · exact closePosition_other hs _ _
    · exact openPosition_other hs _ _ _
  | sell =>
    dsimp only
    split
    · exact closePosition_other hs _ _
    · exact openPosition_other hs _ _ _

/-- A total over positions moves with the one position an order moves. -/
theorem weigh_route {g : ℚ → ℚ} (hg : g 0 = 0) (b : SimulatedBroker) (order : Order) (price : ℚ) :
    (b.route order price).2.weigh g + g (b.signedPosition order.symbol) =
      b.weigh g + g ((b.route order price).2.signedPosition order.symbol) := by
  have hshare : ∀ b : SimulatedBroker,
      b.positions.share (fun _ pos => g pos.signedQty) order.symbol =
        g (b.signedPosition order.symbol) := by
    intro b
    unfold Dict.share signedPosition
    cases b.positions.get? order.symbol with
    | none => exact hg.symm
    | some pos => rfl
  have hrest : ((b.route order price).2.positions.erase order.symbol).total
      (fun _ pos => g pos.signedQty) =
        (b.positions.erase order.symbol).total fun _ pos => g pos.signedQty := by
    refine Dict.total_eq_of_get? (fun s => ?_) _
    rw [Dict.get?_erase, Dict.get?_erase]
    split
    · rfl
    · rename_i hs
      exact route_other hs price
  have hbefore := b.positions.total_erase (fun _ pos => g pos.signedQty) order.symbol
  have hafter := (b.route order price).2.positions.total_erase (fun _ pos => g pos.signedQty)
    order.symbol
  rw [hshare] at hbefore hafter
  unfold weigh
  linarith

/-- At the price of the trade the equity stays where it was. -/
theorem equityAt_route {b : SimulatedBroker} (hheld : WellHeld b) (order : Order) (price : ℚ) :
    (b.route order price).2.equityAt price = b.equityAt price := by
  obtain ⟨-, htrade⟩ := route_trade hheld order price
  have hweigh := weigh_route (g := id) rfl b order price
  have hposition := htrade.position order.symbol
  rw [if_pos rfl] at hposition
  rw [equityAt_eq, equityAt_eq, htrade.cash]
  simp only [id] at hweigh
  have hholdings : (b.route order price).2.weigh id =
      b.weigh id + order.side.sign * (b.route order price).1 := by linarith
  rw [hholdings]
  ring

/-- A close fills no more than what is held. -/
theorem closePosition_fill_le {b : SimulatedBroker} (hheld : WellHeld b) {symbol : String}
    {pos : Position} (hpos : b.positions.get? symbol = some pos) (side : PositionSide)
    (qty price : ℚ) : (b.closePosition side symbol qty price).1 ≤ pos.qty := by
  obtain ⟨hqty, n, hn⟩ := hheld symbol pos hpos
  have hwhole : truncate pos.qty = n := by rw [hn, truncate_intCast]
  unfold closePosition
  rw [hpos]
  dsimp only
  rw [hwhole]
  split
  · exact hqty.le
  split
  · exact hqty.le
  · have hle : ((min (truncate qty) n : ℤ) : ℚ) ≤ n := by
      exact_mod_cast min_le_right (truncate qty) n
    exact hle.trans_eq hn.symm

/-- What an opened position fills: nothing, or what is asked and afforded. -/
theorem openPosition_fill {b : SimulatedBroker} {side : PositionSide} {affordable : ℤ}
    {symbol : String} {qty price : ℚ} (hprice : 0 < price) :
    (b.openPosition side affordable symbol qty price).1 =
      max ((min (truncate qty) affordable : ℤ) : ℚ) 0 := by
  unfold openPosition
  rw [if_neg (not_le.mpr hprice)]
  dsimp only
  split
  · rename_i hle
    have hle : ((min (truncate qty) affordable : ℤ) : ℚ) ≤ 0 := by exact_mod_cast hle
    exact (max_eq_right hle).symm
  · rename_i hlt
    have hnonneg : (0 : ℚ) ≤ (min (truncate qty) affordable : ℤ) := by
      exact_mod_cast (not_le.mp hlt).le
    exact (max_eq_left hnonneg).symm

/-- The side held bounds the signed position. -/
theorem signedPosition_nonneg {b : SimulatedBroker} (hheld : WellHeld b) {symbol : String}
    (h : (b.positions.get? symbol).map (·.side) ≠ some .short) : 0 ≤ b.signedPosition symbol := by
  unfold signedPosition
  cases hpos : b.positions.get? symbol with
  | none => exact le_rfl
  | some pos =>
    obtain ⟨hqty, -⟩ := hheld symbol pos hpos
    cases hside : pos.side with
    | long => simpa [Position.signedQty, hside, PositionSide.sign] using hqty.le
    | short => simp [hpos, hside] at h

theorem signedPosition_nonpos {b : SimulatedBroker} (hheld : WellHeld b) {symbol : String}
    (h : (b.positions.get? symbol).map (·.side) ≠ some .long) : b.signedPosition symbol ≤ 0 := by
  unfold signedPosition
  cases hpos : b.positions.get? symbol with
  | none => exact le_rfl
  | some pos =>
    obtain ⟨hqty, -⟩ := hheld symbol pos hpos
    cases hside : pos.side with
    | short => simpa [Position.signedQty, hside, PositionSide.sign] using hqty.le
    | long => simp [hpos, hside] at h

/-- The shorts move with the one position an order moves. -/
theorem shortShares_route {b : SimulatedBroker} (hheld : WellHeld b) (order : Order) (price : ℚ) :
    (b.route order price).2.shortShares + max (-b.signedPosition order.symbol) 0 =
      b.shortShares + max
        (-(b.signedPosition order.symbol + order.side.sign * (b.route order price).1)) 0 := by
  obtain ⟨-, htrade⟩ := route_trade hheld order price
  have hposition := htrade.position order.symbol
  rw [if_pos rfl] at hposition
  rw [← hposition]
  exact weigh_route (g := fun q => max (-q) 0) (by simp) b order price

/-- A sell that is not against a long adds to the shorts what is asked and afforded. -/
theorem shortShares_of_opens {b : SimulatedBroker} (hheld : WellHeld b) {order : Order}
    (hopens : OpensShort b order) {price : ℚ} (hprice : 0 < price) :
    (b.route order price).2.shortShares = b.shortShares +
      max ((min (truncate order.qty) (truncate (b.cash / (price * shortMarginInitial))) : ℤ) : ℚ)
        0 := by
  obtain ⟨hside, hlong⟩ := hopens
  have hshort := shortShares_route hheld order price
  have hmargin : 0 < price * shortMarginInitial := by
    rw [shortMarginInitial]
    linarith
  have hfill : (b.route order price).1 =
      max ((min (truncate order.qty) (truncate (b.cash / (price * shortMarginInitial))) : ℤ) : ℚ)
        0 := by
    simp only [route, hside, hlong, if_false, openShort]
    rw [if_pos hmargin, openPosition_fill hprice]
  have hle := signedPosition_nonpos hheld hlong
  have hnonneg := (route_trade hheld order price).1
  rw [hside, Side.sign, max_eq_left (by linarith), max_eq_left (by linarith)] at hshort
  rw [← hfill]
  linarith

/-- No other order does: a buy covers or goes long, and a sell closes a long. -/
theorem shortShares_le_of_not_opens {b : SimulatedBroker} (hheld : WellHeld b) {order : Order}
    (hopens : ¬ OpensShort b order) (price : ℚ) :
    (b.route order price).2.shortShares ≤ b.shortShares := by
  have hnonneg := (route_trade hheld order price).1
  have hshort := shortShares_route hheld order price
  suffices hle :
      max (-(b.signedPosition order.symbol + order.side.sign * (b.route order price).1)) 0 ≤
        max (-b.signedPosition order.symbol) 0 by linarith
  cases hside : order.side with
  | buy =>
    refine max_le_max ?_ le_rfl
    rw [Side.sign]
    linarith
  | sell =>
    obtain ⟨pos, hpos, hlong⟩ := Option.map_eq_some_iff.mp (not_not.mp fun h => hopens ⟨hside, h⟩)
    have hqty : b.signedPosition order.symbol = pos.qty := by
      simp [signedPosition, hpos, Position.signedQty, hlong, PositionSide.sign]
    have hroute : b.route order price = b.closePosition .long order.symbol order.qty price := by
      simp only [route, hside, hpos, Option.map_some, hlong, if_true, closeLong]
    -- no more is closed than is held
    have hle := closePosition_fill_le hheld hpos .long order.qty price
    rw [← hroute, ← hqty] at hle
    refine max_le ?_ (le_max_right _ _)
    rw [Side.sign]
    exact le_max_of_le_right (by linarith)

/-- An order keeps the margin rule exactly when it is within the margin. -/
theorem marginHeld_route_iff {b : SimulatedBroker} (hheld : WellHeld b) (order : Order) {price : ℚ}
    (hprice : 0 < price) (hrule : MarginHeld price b) :
    MarginHeld price (b.route order price).2 ↔ WithinMargin price b order := by
  have hequity := equityAt_route hheld order price
  have hscale : ∀ {shares shares' : ℚ}, shares ≤ shares' → Carries price shares' b →
      Carries price shares b := by
    intro shares shares' hle hcarries
    refine le_trans ?_ hcarries
    refine mul_le_mul_of_nonneg_left (mul_le_mul_of_nonneg_left hle hprice.le) ?_
    rw [shortMarginInitial]
    norm_num
  unfold MarginHeld WithinMargin
  rw [Carries, hequity, ← Carries]
  by_cases hopens : OpensShort b order
  · rw [shortShares_of_opens hheld hopens hprice, forall_prop_of_true hopens]
    generalize truncate order.qty = asked
    generalize truncate (b.cash / (price * shortMarginInitial)) = affordable
    constructor
    · intro hkept
      have hfill : Carries price (b.shortShares + (min asked affordable : ℤ)) b :=
        hscale (add_le_add_right (le_max_left _ 0) _) hkept
      rcases min_choice asked affordable with hmin | hmin
      · rw [hmin] at hfill
        exact .inl hfill
      · rw [hmin] at hfill
        exact .inr hfill
    · intro hwithin
      rcases max_choice ((min asked affordable : ℤ) : ℚ) 0 with hmax | hmax
      · rw [hmax]
        rcases hwithin with hasked | hafforded
        · exact hscale (add_le_add_right (by exact_mod_cast min_le_left asked affordable) _) hasked
        · exact hscale (add_le_add_right (by exact_mod_cast min_le_right asked affordable) _)
            hafforded
      · rw [hmax, add_zero]
        exact hrule
  · exact iff_of_true (hscale (shortShares_le_of_not_opens hheld hopens price) hrule)
      fun h => absurd h hopens

end SimulatedBroker

open SimulatedBroker

/-! ## Calls at one price -/

/-- Whole positions, and a broker that charges neither slippage nor fees. -/
structure Frictionless (b : SimulatedBroker) : Prop where
  held : WellHeld b
  slippage : b.slippagePct = 0
  fee : b.takerFeePct = 0

theorem route_costs (b : SimulatedBroker) (order : Order) (price : ℚ) :
    (b.route order price).2.slippagePct = b.slippagePct ∧
      (b.route order price).2.takerFeePct = b.takerFeePct := by
  unfold route openLong openShort closeLong closeShort openPosition closePosition
  dsimp only
  repeat' first | exact ⟨rfl, rfl⟩ | split

theorem Frictionless.fillPrice {b : SimulatedBroker} (h : Frictionless b) (side : Side)
    (price : ℚ) : b.fillPrice side price = price := by
  cases side <;> simp [SimulatedBroker.fillPrice, h.slippage, h.fee]

/-- Filling an order touches, besides the log, what routing it touches. -/
theorem submitOrder_eq {b : SimulatedBroker} (h : Frictionless b) (now : String) (price : ℚ)
    (order : Order) :
    ∃ fills, submitOrder now price b order = { (b.route order price).2 with fills } := by
  unfold submitOrder
  rw [h.fillPrice]
  dsimp only
  split
  · exact ⟨_, rfl⟩
  · exact ⟨_, rfl⟩

theorem Frictionless.submitOrder {b : SimulatedBroker} (h : Frictionless b) (now : String)
    (price : ℚ) (order : Order) : Frictionless (submitOrder now price b order) := by
  obtain ⟨fills, heq⟩ := submitOrder_eq h now price order
  obtain ⟨hslippage, hfee⟩ := route_costs b order price
  have hheld := (route_trade h.held order price).2.held
  rw [heq]
  exact ⟨hheld, hslippage.trans h.slippage, hfee.trans h.fee⟩

theorem marginHeld_submitOrder_iff {b : SimulatedBroker} (h : Frictionless b) (now : String)
    {price : ℚ} (hprice : 0 < price) (order : Order) (hrule : MarginHeld price b) :
    MarginHeld price (submitOrder now price b order) ↔ WithinMargin price b order := by
  obtain ⟨fills, heq⟩ := submitOrder_eq h now price order
  rw [heq]
  exact marginHeld_route_iff h.held order hprice hrule

/-- One call of `submit_orders`: its orders, and its time. -/
abbrev Call := List Order × String

def callStep (price : ℚ) (b : SimulatedBroker) (call : Call) : SimulatedBroker :=
  (b.submitOrders call.1 price call.2).2

/-- Every order of every call meets `P` at the broker that fills it. -/
def AlongFills (price : ℚ) (P : String → SimulatedBroker → Order → Prop) (b : SimulatedBroker)
    (calls : List Call) : Prop :=
  Along (callStep price)
    (fun b call => Along (submitOrder call.2 price) (P call.2) b call.1) b calls

instance (price : ℚ) (P : String → SimulatedBroker → Order → Prop)
    [∀ now b order, Decidable (P now b order)] (b : SimulatedBroker) (calls : List Call) :
    Decidable (AlongFills price P b calls) :=
  inferInstanceAs (Decidable (Along ..))

/-- The margin rule stands once the order is filled. -/
def FillHoldsMargin (price : ℚ) (now : String) (b : SimulatedBroker) (order : Order) : Prop :=
  MarginHeld price (submitOrder now price b order)

instance (price : ℚ) (now : String) (b : SimulatedBroker) (order : Order) :
    Decidable (FillHoldsMargin price now b order) :=
  inferInstanceAs (Decidable (_ ≤ _))

/-- Two shorts, each within the margin on the cash of its time. -/
def twoShorts : List Call :=
  [([{ symbol := "QQQ", side := .sell, qty := 20 }, { symbol := "SPY", side := .sell, qty := 20 }],
    "t0")]

end TradingPlatform.Broker.Simulated
