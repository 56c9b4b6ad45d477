import TradingPlatform.Engine.PreFlightReconciliation
import Mathlib.Data.Int.ConditionallyCompleteOrder
import Mathlib.Data.List.Infix

/-! # The fill that opened a position

`findPositionEntryFillTs` walks back from today's quantity. Over a complete
history it meets the inventories the position went through, last first and
rounded, and stops before the fill that opened the block of fills on the position's
side, unless the rounding carries an inventory across the tolerance. A shorter
history shows the same inventories up to where it begins. -/

namespace TradingPlatform.Engine.PreFlight

open TradingPlatform.Lib TradingPlatform.Lib.StableSort
open TradingPlatform.Lib.Binary64 (nearestValue)

section Walk

variable (t : Texts)

/-- What a fill adds to the inventory, and a run of fills. -/
def signedQty (fill : BrokerFillSnapshot) : ℚ :=
  let normalized := t.lower (t.strip fill.side)
  if normalized = "buy" then fill.filledQty
  else if normalized = "sell" then -fill.filledQty
  else 0

def netFills (fills : List BrokerFillSnapshot) : ℚ := (fills.map (signedQty t)).sum

@[simp] theorem netFills_nil : netFills t [] = 0 := rfl

@[simp] theorem netFills_cons (fill : BrokerFillSnapshot) (fills : List BrokerFillSnapshot) :
    netFills t (fill :: fills) = signedQty t fill + netFills t fills :=
  rfl

@[simp] theorem netFills_append (xs ys : List BrokerFillSnapshot) :
    netFills t (xs ++ ys) = netFills t xs + netFills t ys := by
  simp [netFills]

/-- An inventory that is flat within the tolerance, or on the other side. -/
def OutsideBlock (side : PositionSide) (qtyTolerance net : ℚ) : Prop :=
  |net| ≤ qtyTolerance ∨ side.sign * net < -qtyTolerance

variable {side : PositionSide} {qtyTolerance : ℚ}

theorem not_outsideBlock (h0 : 0 ≤ qtyTolerance) {net : ℚ} :
    ¬ OutsideBlock side qtyTolerance net ↔ qtyTolerance < side.sign * net := by
  rw [OutsideBlock, not_or, not_le, not_lt, lt_abs]
  cases side with
  | long =>
    simp only [PositionSide.sign, one_mul]
    constructor
    · rintro ⟨h | h, hle⟩ <;> linarith
    · intro h
      exact ⟨Or.inl h, by linarith⟩
  | short =>
    simp only [PositionSide.sign, neg_mul, one_mul]
    constructor
    · rintro ⟨h | h, hle⟩ <;> linarith
    · intro h
      exact ⟨Or.inr h, by linarith⟩

/-- From an inventory of the block, the walk stops just when it leaves the block. -/
theorem crossed_iff_outsideBlock (h0 : 0 ≤ qtyTolerance) {priorNet net : ℚ}
    (hprior : ¬ OutsideBlock side qtyTolerance priorNet) :
    inventoryCrossedZeroBoundary priorNet net qtyTolerance = true ↔
      OutsideBlock side qtyTolerance net := by
  have hin := (not_outsideBlock h0).mp hprior
  have hbeyond : qtyTolerance < |priorNet| := not_le.mp (not_or.mp hprior).1
  unfold inventoryCrossedZeroBoundary OutsideBlock
  by_cases hflat : |net| ≤ qtyTolerance
  · simp [hflat, hbeyond]
  cases side with
  | long =>
    simp only [PositionSide.sign, one_mul] at hin ⊢
    have hnot : ¬ priorNet < -qtyTolerance := by linarith
    simp [hflat, hin, hnot]
  | short =>
    simp only [PositionSide.sign, neg_mul, one_mul] at hin ⊢
    have hbelow : priorNet < -qtyTolerance := by linarith
    have hnot : ¬ qtyTolerance < priorNet := by linarith
    simp [hflat, hbelow, hnot]

/-- The inventory that the walk back from `target` has reached before some fills. -/
def walkedBack (target : ℚ) : List BrokerFillSnapshot → ℚ
  | [] => target
  | fill :: later =>
    nearestValue (walkedBack target later - signedFillInventoryDelta t fill.side fill.filledQty)

/-- While the inventories stay in the block the walk goes on. -/
theorem walkFills_block (h0 : 0 ≤ qtyTolerance) {target : ℚ} {fills : List BrokerFillSnapshot}
    (earlier : List BrokerFillSnapshot)
    (hblock : ∀ p q, fills = p ++ q → ¬ OutsideBlock side qtyTolerance (walkedBack t target q)) :
    walkFills t qtyTolerance target (fills.reverse ++ earlier) =
      walkFills t qtyTolerance (walkedBack t target fills) earlier := by
  induction fills generalizing earlier with
  | nil => rfl
  | cons fill later ih =>
    have hlater := hblock [fill] later rfl
    have hnet := hblock [] (fill :: later) rfl
    rw [List.reverse_cons, List.append_assoc, List.singleton_append,
      ih (fill :: earlier) fun p q hpq => hblock (fill :: p) q (by rw [hpq, List.cons_append]),
      walkFills]
    exact if_neg (mt (crossed_iff_outsideBlock h0 hlater).mp hnet)

/-- The fill before which the inventory that is walked back first is out of the block. -/
def WalkOpens (side : PositionSide) (qtyTolerance target : ℚ) (fills : List BrokerFillSnapshot)
    (opening : BrokerFillSnapshot) : Prop :=
  ∃ before after, fills = before ++ opening :: after ∧
    OutsideBlock side qtyTolerance (walkedBack t target (opening :: after)) ∧
    ∀ p q, after = p ++ q → ¬ OutsideBlock side qtyTolerance (walkedBack t target q)

/-- The walk stops at that fill. -/
theorem WalkOpens.walkFills (h0 : 0 ≤ qtyTolerance) {target : ℚ}
    {fills : List BrokerFillSnapshot} {opening : BrokerFillSnapshot}
    (h : WalkOpens t side qtyTolerance target fills opening) :
    walkFills t qtyTolerance target fills.reverse = some opening.filledAt := by
  obtain ⟨before, after, rfl, hout, hblock⟩ := h
  rw [List.reverse_append, List.reverse_cons, List.append_assoc, List.singleton_append,
    walkFills_block t h0 (opening :: before.reverse) hblock, PreFlight.walkFills]
  exact if_pos ((crossed_iff_outsideBlock h0 (hblock [] after rfl)).mpr hout)

/-- The walk stays in the block, or there is a fill before which it first is out of it. -/
theorem walkOpens_or {target : ℚ} (htarget : ¬ OutsideBlock side qtyTolerance target)
    (fills : List BrokerFillSnapshot) :
    (∀ p q, fills = p ++ q → ¬ OutsideBlock side qtyTolerance (walkedBack t target q)) ∨
      ∃ opening, WalkOpens t side qtyTolerance target fills opening := by
  induction fills with
  | nil =>
    refine Or.inl fun p q hpq => ?_
    rw [(List.append_eq_nil_iff.mp hpq.symm).2]
    exact htarget
  | cons fill later ih =>
    rcases ih with hstays | ⟨opening, before, after, rfl, hopens⟩
    · by_cases hout : OutsideBlock side qtyTolerance (walkedBack t target (fill :: later))
      · exact Or.inr ⟨fill, [], later, rfl, hout, hstays⟩
      · refine Or.inl fun p q hpq => ?_
        rcases List.cons_eq_append_iff.mp hpq with ⟨-, rfl⟩ | ⟨p, -, hq⟩
        · exact hout
        · exact hstays p q hq
    · exact Or.inr ⟨opening, fill :: before, after, rfl, hopens⟩

/-- The walk finds a time just where it leaves the block. -/
theorem walkFills_eq_some_iff (h0 : 0 ≤ qtyTolerance) {target : ℚ}
    (htarget : ¬ OutsideBlock side qtyTolerance target) {fills : List BrokerFillSnapshot}
    {filledAt : ℤ} :
    walkFills t qtyTolerance target fills.reverse = some filledAt ↔
      ∃ opening, WalkOpens t side qtyTolerance target fills opening ∧
        opening.filledAt = filledAt := by
  rcases walkOpens_or t htarget fills with hstays | ⟨opening, hopens⟩
  · have hnone := walkFills_block t h0 [] hstays
    rw [List.append_nil] at hnone
    rw [hnone]
    refine iff_of_false nofun ?_
    rintro ⟨opening, hopens, -⟩
    rw [← List.append_nil fills.reverse, walkFills_block t h0 [] hstays] at *
    obtain ⟨before, after, hfills, hout, -⟩ := hopens
    exact hstays before (opening :: after) hfills hout
  · rw [hopens.walkFills t h0]
    constructor
    · intro h
      exact ⟨opening, hopens, Option.some.inj h⟩
    · rintro ⟨opening', hopens', rfl⟩
      rw [← hopens.walkFills t h0, hopens'.walkFills t h0]

/-- What the walk finds it also finds with earlier fills to go on to. -/
theorem walkFills_append {running : ℚ} {fills earlier : List BrokerFillSnapshot} {filledAt : ℤ}
    (h : walkFills t qtyTolerance running fills = some filledAt) :
    walkFills t qtyTolerance running (fills ++ earlier) = some filledAt := by
  induction fills generalizing running with
  | nil => cases h
  | cons fill fills ih =>
    rw [List.cons_append, walkFills]
    rw [walkFills] at h
    split at h
    · rename_i hcrossed
      rw [if_pos hcrossed]
      exact h
    · rename_i hcrossed
      rw [if_neg hcrossed]
      exact ih h

/-- The quantities of a history and its inventories are doubles. -/
structure InDoubles (history : List BrokerFillSnapshot) : Prop where
  quantities : ∀ fill ∈ history, nearestValue fill.filledQty = fill.filledQty
  inventories : ∀ p, p <+: history → nearestValue (netFills t p) = netFills t p

variable {t} in
/-- In doubles the walk meets the inventories as they were. -/
theorem InDoubles.walkedBack_eq {history : List BrokerFillSnapshot} (h : InDoubles t history)
    {p q : List BrokerFillSnapshot} (hpq : history = p ++ q) :
    walkedBack t (netFills t history) q = netFills t p := by
  induction q generalizing p with
  | nil => rw [walkedBack, hpq, List.append_nil]
  | cons fill later ih =>
    have hread : signedFillInventoryDelta t fill.side fill.filledQty = signedQty t fill := by
      rw [signedFillInventoryDelta, signedQty, h.quantities fill (by simp [hpq])]
    have hlater : walkedBack t (netFills t history) later = netFills t (p ++ [fill]) :=
      ih (by rw [hpq, List.append_assoc, List.singleton_append])
    rw [walkedBack, hread, hlater, netFills_append, netFills_cons, netFills_nil, add_zero,
      add_sub_cancel_right]
    exact h.inventories p ⟨fill :: later, hpq.symm⟩

end Walk

theorem sign_mul_sign (side : PositionSide) : side.sign * side.sign = 1 := by
  cases side <;> norm_num [PositionSide.sign]

theorem nearestValue_sign_mul (side : PositionSide) (x : ℚ) :
    nearestValue (side.sign * x) = side.sign * nearestValue x := by
  cases side with
  | long => simp [PositionSide.sign]
  | short => simp [PositionSide.sign, Binary64.nearestValue_neg]

section History

variable (t : Texts) (symbol : String) (side : PositionSide) (qty qtyTolerance : ℚ)

/-- Above the tolerance, and above it as a double. -/
def Beyond (qtyTolerance x : ℚ) : Prop := qtyTolerance < x ∧ qtyTolerance < nearestValue x

instance (qtyTolerance x : ℚ) : Decidable (Beyond qtyTolerance x) :=
  inferInstanceAs (Decidable (_ ∧ _))

/-- The complete fill history of a symbol, oldest first, behind a position of `qty`. -/
structure CompleteHistory (history : List BrokerFillSnapshot) : Prop where
  symbol : ∀ fill ∈ history, t.upper (t.strip fill.symbol) = t.upper (t.strip symbol)
  quantity : ∀ fill ∈ history, Beyond qtyTolerance fill.filledQty
  chronological : history.Pairwise fun a b => a.filledAt < b.filledAt
  position : netFills t history = side.sign * qty
  beyond : Beyond qtyTolerance qty

/-- The last fill before which the inventory was flat or on the other side. -/
def OpensBlock (history : List BrokerFillSnapshot) (opening : BrokerFillSnapshot) : Prop :=
  ∃ before after, history = before ++ opening :: after ∧
    OutsideBlock side qtyTolerance (netFills t before) ∧
    ∀ p later q, after = p ++ later :: q →
      ¬ OutsideBlock side qtyTolerance (netFills t (before ++ opening :: p))

variable {t symbol side qty qtyTolerance} {history : List BrokerFillSnapshot}

/-- A history that ends in the block has a fill that opened it. -/
theorem exists_opensBlock (h0 : 0 ≤ qtyTolerance)
    (hend : ¬ OutsideBlock side qtyTolerance (netFills t history)) :
    ∃ opening, OpensBlock t side qtyTolerance history opening := by
  induction history using List.reverseRecOn with
  | nil => exact absurd (Or.inl (by simpa using h0)) hend
  | append_singleton history fill ih =>
    by_cases hout : OutsideBlock side qtyTolerance (netFills t history)
    · refine ⟨fill, history, [], rfl, hout, fun p later q h => ?_⟩
      simp at h
    · obtain ⟨opening, before, after, rfl, hbefore, hblock⟩ := ih hout
      refine ⟨opening, before, after ++ [fill], by simp, hbefore, fun p later q h => ?_⟩
      rcases List.eq_nil_or_concat q with rfl | ⟨q, last, rfl⟩
      · obtain rfl := List.append_inj_left' h rfl
        exact hout
      · rw [List.concat_eq_append, ← List.cons_append, ← List.append_assoc] at h
        exact hblock p later q (List.append_inj_left' h rfl)

theorem opensBlock_mem {opening : BrokerFillSnapshot}
    (h : OpensBlock t side qtyTolerance history opening) : opening ∈ history := by
  obtain ⟨before, after, rfl, -⟩ := h
  simp

theorem walkOpens_mem {target : ℚ} {opening : BrokerFillSnapshot}
    (h : WalkOpens t side qtyTolerance target history opening) : opening ∈ history := by
  obtain ⟨before, after, rfl, -⟩ := h
  simp

theorem opensBlock_unique {first second : BrokerFillSnapshot}
    (h : OpensBlock t side qtyTolerance history first)
    (h' : OpensBlock t side qtyTolerance history second) : first = second := by
  obtain ⟨before, after, hhistory, hout, hblock⟩ := h
  obtain ⟨before', after', hhistory', hout', hblock'⟩ := h'
  rcases List.append_eq_append_iff.mp (hhistory.symm.trans hhistory') with
    ⟨held, rfl, hheld⟩ | ⟨held, rfl, hheld⟩
  · cases held with
    | nil => exact (List.cons.inj hheld).1
    | cons fill p =>
      obtain ⟨rfl, hafter⟩ := List.cons.inj hheld
      exact absurd hout' (hblock p second after' hafter)
  · cases held with
    | nil => exact (List.cons.inj hheld).1.symm
    | cons fill p =>
      obtain ⟨rfl, hafter⟩ := List.cons.inj hheld
      exact absurd hout (hblock' p first after hafter)

theorem chronological_distinct
    (hchrono : history.Pairwise fun a b => a.filledAt < b.filledAt) :
    Distinct (fun fill : BrokerFillSnapshot => fill.filledAt) history :=
  hchrono.imp fun h => h.ne

/-- Whatever order the fills come in, the walk meets them newest first. -/
theorem sortBy_newest
    (hchrono : history.Pairwise fun a b => a.filledAt < b.filledAt)
    {fills : List BrokerFillSnapshot} (hperm : fills.Perm history) :
    sortBy (fun fill => -fill.filledAt) fills = history.reverse := by
  have hdistinct := chronological_distinct hchrono
  have hsorted : Sorted (fun fill : BrokerFillSnapshot => -fill.filledAt)
      (sortBy (fun fill => -fill.filledAt) fills) := sortBy_sorted fills
  have hrev : history.reverse.Pairwise fun a b => -a.filledAt ≤ -b.filledAt := by
    rw [List.pairwise_reverse]
    exact hchrono.imp fun h => by omega
  have hall : (sortBy (fun fill => -fill.filledAt) fills).Perm history.reverse :=
    ((sortBy_perm fills).trans hperm).trans history.reverse_perm.symm
  refine List.Perm.eq_of_pairwise (fun a b ha hb hab hba => ?_) hsorted hrev hall
  have hsame : a.filledAt = b.filledAt :=
    le_antisymm (neg_le_neg_iff.mp hba) (neg_le_neg_iff.mp hab)
  exact hdistinct.eq (by simpa using hall.subset ha) (by simpa using hb) hsame

theorem CompleteHistory.not_outside (h : CompleteHistory t symbol side qty qtyTolerance history)
    (h0 : 0 ≤ qtyTolerance) : ¬ OutsideBlock side qtyTolerance (netFills t history) := by
  rw [not_outsideBlock h0, h.position, ← mul_assoc, sign_mul_sign, one_mul]
  exact h.beyond.1

/-- The walk starts in the block. -/
theorem CompleteHistory.target_not_outside
    (h : CompleteHistory t symbol side qty qtyTolerance history) (h0 : 0 ≤ qtyTolerance) :
    ¬ OutsideBlock side qtyTolerance (side.sign * nearestValue qty) := by
  rw [not_outsideBlock h0, ← mul_assoc, sign_mul_sign, one_mul]
  exact h.beyond.2

/-- Over fills of the symbol the search is the walk back over them. -/
theorem findPositionEntryFillTs_eq_walk (hbeyond : Beyond qtyTolerance qty)
    {recent fills : List BrokerFillSnapshot}
    (hsymbol : ∀ fill ∈ recent, t.upper (t.strip fill.symbol) = t.upper (t.strip symbol))
    (hquantity : ∀ fill ∈ recent, Beyond qtyTolerance fill.filledQty)
    (hchrono : recent.Pairwise fun a b => a.filledAt < b.filledAt) (hperm : fills.Perm recent) :
    findPositionEntryFillTs t fills symbol qty side qtyTolerance =
      walkFills t qtyTolerance (side.sign * nearestValue qty) recent.reverse := by
  have hkept : (fills.filter fun fill =>
      t.upper (t.strip fill.symbol) = t.upper (t.strip symbol) &&
        qtyTolerance < nearestValue fill.filledQty) = fills := by
    refine List.filter_eq_self.mpr fun fill hfill => ?_
    have hmem := hperm.subset hfill
    simp [hsymbol fill hmem, (hquantity fill hmem).2]
  rw [findPositionEntryFillTs, signedPositionInventoryTarget]
  simp only [if_neg (not_le.mpr hbeyond.2)]
  simp only [hkept]
  rw [sortBy_newest hchrono hperm]

theorem CompleteHistory.find_eq_walk (h : CompleteHistory t symbol side qty qtyTolerance history)
    {recent fills : List BrokerFillSnapshot} (hrecent : recent <:+ history)
    (hperm : fills.Perm recent) :
    findPositionEntryFillTs t fills symbol qty side qtyTolerance =
      walkFills t qtyTolerance (side.sign * nearestValue qty) recent.reverse :=
  findPositionEntryFillTs_eq_walk h.beyond (fun fill hfill => h.symbol fill (hrecent.subset hfill))
    (fun fill hfill => h.quantity fill (hrecent.subset hfill))
    (h.chronological.sublist hrecent.sublist) hperm

/-- A fill that opens the block as it is walked is found in every suffix that holds it, and in
none that does not. -/
theorem WalkOpens.find_suffix (h0 : 0 ≤ qtyTolerance)
    (h : CompleteHistory t symbol side qty qtyTolerance history) {opening : BrokerFillSnapshot}
    (hopens : WalkOpens t side qtyTolerance (side.sign * nearestValue qty) history opening)
    {recent fills : List BrokerFillSnapshot} (hrecent : recent <:+ history)
    (hperm : fills.Perm recent) :
    findPositionEntryFillTs t fills symbol qty side qtyTolerance =
      if opening ∈ recent then some opening.filledAt else none := by
  rw [h.find_eq_walk hrecent hperm]
  obtain ⟨before, after, hhistory, hout, hblock⟩ := hopens
  obtain ⟨dropped, hdropped⟩ := hrecent
  rw [hhistory] at hdropped
  rcases List.append_eq_append_iff.mp hdropped with ⟨held, -, hheld⟩ | ⟨held, -, hheld⟩
  · have hmem : opening ∈ recent := hheld ▸ List.mem_append_right _ List.mem_cons_self
    rw [if_pos hmem]
    exact WalkOpens.walkFills t h0 ⟨held, after, hheld, hout, hblock⟩
  · cases held with
    | nil =>
      have hall : opening :: after = recent := hheld
      rw [← hall, if_pos List.mem_cons_self]
      exact WalkOpens.walkFills t h0 ⟨[], after, rfl, hout, hblock⟩
    | cons first held =>
      obtain ⟨rfl, htail⟩ := List.cons.inj hheld
      have hafter : after = held ++ recent := htail
      have hnot : opening ∉ recent := by
        intro hmem
        have hpair := h.chronological
        rw [hhistory] at hpair
        have hlt := (List.pairwise_cons.mp (List.pairwise_append.mp hpair).2.1).1 opening
          (by rw [hafter]; exact List.mem_append_right _ hmem)
        exact absurd hlt (lt_irrefl _)
      rw [if_neg hnot, ← List.append_nil recent.reverse, walkFills_block t h0 [] fun p q hpq =>
        hblock (held ++ p) q (by rw [hafter, hpq, List.append_assoc])]
      rfl

/-- In doubles the fill that opens the block opens it as walked. -/
theorem OpensBlock.walkOpens (h0 : 0 ≤ qtyTolerance)
    (h : CompleteHistory t symbol side qty qtyTolerance history) (hdoubles : InDoubles t history)
    {opening : BrokerFillSnapshot} (hopens : OpensBlock t side qtyTolerance history opening) :
    WalkOpens t side qtyTolerance (side.sign * nearestValue qty) history opening := by
  have htarget : side.sign * nearestValue qty = netFills t history := by
    have hnet := hdoubles.inventories history (List.prefix_refl _)
    rw [← nearestValue_sign_mul, ← h.position, hnet]
  obtain ⟨before, after, hhistory, hbefore, hblock⟩ := hopens
  refine ⟨before, after, hhistory, ?_, fun p q hpq => ?_⟩
  · rw [htarget, hdoubles.walkedBack_eq hhistory]
    exact hbefore
  · have hsplit : history = (before ++ opening :: p) ++ q := by
      rw [hhistory, hpq, List.append_assoc, List.cons_append]
    rw [htarget, hdoubles.walkedBack_eq hsplit]
    cases q with
    | nil =>
      rw [List.append_nil] at hpq
      rw [← hpq, ← hhistory]
      exact h.not_outside h0
    | cons later q => exact hblock p later q hpq

/-! ## Expanding lookbacks -/

/-- The broker's answers: the fills since a cutoff, in any order. -/
def FillsSince (symbolFills : String → ℤ → List BrokerFillSnapshot) (symbol : String)
    (cutoff : ℤ → ℤ) (history : List BrokerFillSnapshot) : Prop :=
  ∀ days, (symbolFills symbol days).Perm
    (history.filter fun fill => cutoff days ≤ fill.filledAt)

/-- The fills since a cutoff end the history. -/
theorem filter_since_suffix
    (hchrono : history.Pairwise fun a b => a.filledAt < b.filledAt) (since : ℤ) :
    history.filter (fun fill => since ≤ fill.filledAt) <:+ history := by
  induction history with
  | nil => exact List.suffix_refl _
  | cons fill history ih =>
    obtain ⟨hlater, hrest⟩ := List.pairwise_cons.mp hchrono
    by_cases hin : since ≤ fill.filledAt
    · have hall : ∀ later ∈ fill :: history, since ≤ later.filledAt := by
        intro later hmem
        rcases List.mem_cons.mp hmem with rfl | hmem
        · exact hin
        · exact hin.trans (hlater later hmem).le
      have hself : (fill :: history).filter (fun fill => since ≤ fill.filledAt) = fill :: history :=
        List.filter_eq_self.mpr fun later hmem => by simpa using hall later hmem
      exact hself.symm ▸ List.suffix_refl (fill :: history)
    · rw [List.filter_cons_of_neg (by simpa using hin)]
      exact (ih hrest).trans (List.suffix_cons fill history)

/-- Lookbacks that each find the one answer or none give the answer if one of them does. -/
theorem findSome?_const {α β : Type*} {f : α → Option β} (answer : β) {xs : List α} {x : α}
    (hx : x ∈ xs) (hall : ∀ y ∈ xs, f y = some answer ∨ f y = none)
    (hlast : f x = none → ∀ y ∈ xs, f y = none) : xs.findSome? f = f x := by
  cases hfound : xs.findSome? f with
  | none => exact (List.findSome?_eq_none_iff.mp hfound x hx).symm
  | some b =>
    obtain ⟨y, hy, hfy⟩ := List.exists_of_findSome?_eq_some hfound
    rcases hall y hy with hanswer | hnone
    · rcases hall x hx with hx' | hx'
      · rw [hx', ← hfy, hanswer]
      · rw [hlast hx' y hy] at hfy
        cases hfy
    · rw [hnone] at hfy
      cases hfy

/-- The expanding lookbacks find what the longest of them finds: a shorter one finds the same
or nothing. -/
theorem resolvePositionEntryFillTs_longest
    (h : CompleteHistory t symbol side qty qtyTolerance history)
    {symbolFills : String → ℤ → List BrokerFillSnapshot} {cutoff : ℤ → ℤ}
    (hcutoff : Antitone cutoff) (hfills : FillsSince symbolFills symbol cutoff history)
    (initialLookbackDays : ℤ) {longest : ℤ} (hmem : longest ∈ lookbackDays initialLookbackDays)
    (hlongest : ∀ days ∈ lookbackDays initialLookbackDays, days ≤ longest) :
    resolvePositionEntryFillTs t symbolFills symbol qty side qtyTolerance initialLookbackDays =
      findPositionEntryFillTs t (symbolFills symbol longest) symbol qty side qtyTolerance := by
  have hfind := fun days =>
    h.find_eq_walk (filter_since_suffix h.chronological (cutoff days)) (hfills days)
  have hsame : ∀ days ∈ lookbackDays initialLookbackDays, ∀ filledAt,
      findPositionEntryFillTs t (symbolFills symbol days) symbol qty side qtyTolerance =
        some filledAt →
      findPositionEntryFillTs t (symbolFills symbol longest) symbol qty side qtyTolerance =
        some filledAt := by
    intro days hdays filledAt hfound
    rw [hfind] at hfound ⊢
    have hshorter : history.filter (fun fill => cutoff days ≤ fill.filledAt) =
        (history.filter fun fill => cutoff longest ≤ fill.filledAt).filter
          fun fill => cutoff days ≤ fill.filledAt := by
      rw [List.filter_filter]
      refine List.filter_congr fun fill _ => ?_
      have hle := hcutoff (hlongest days hdays)
      rw [Bool.eq_iff_iff]
      simp only [Bool.and_eq_true, decide_eq_true_eq]
      exact ⟨fun hin => ⟨hin, hle.trans hin⟩, fun hin => hin.1⟩
    obtain ⟨earlier, hearlier⟩ := filter_since_suffix
      (h.chronological.sublist List.filter_sublist) (cutoff days)
    rw [hshorter] at hfound
    rw [← hearlier, List.reverse_append]
    exact walkFills_append t hfound
  cases hlast : findPositionEntryFillTs t (symbolFills symbol longest) symbol qty side
      qtyTolerance with
  | none =>
    refine List.findSome?_eq_none_iff.mpr fun days hdays => ?_
    refine Option.eq_none_iff_forall_ne_some.mpr fun filledAt hfound => ?_
    rw [hsame days hdays filledAt hfound] at hlast
    cases hlast
  | some filledAt =>
    rw [← hlast]
    refine findSome?_const filledAt hmem (fun days hdays => ?_) fun hnone => ?_
    · cases hfound : findPositionEntryFillTs t (symbolFills symbol days) symbol qty side
          qtyTolerance with
      | none => exact Or.inr rfl
      | some found =>
        rw [hsame days hdays found hfound] at hlast
        exact Or.inl hlast
    · rw [hlast] at hnone
      cases hnone

/-- The search over any suffix of the history, its fills in any order, returns the time of the
fill that opened the current block if the suffix holds it, and nothing otherwise. -/
def Reconstructs (t : Texts) (symbol : String) (side : PositionSide) (qty qtyTolerance : ℚ)
    (history : List BrokerFillSnapshot) : Prop :=
  ∃ opening, OpensBlock t side qtyTolerance history opening ∧
    ∀ recent, recent <:+ history → ∀ fills : List BrokerFillSnapshot, fills.Perm recent →
      findPositionEntryFillTs t fills symbol qty side qtyTolerance =
        if opening ∈ recent then some opening.filledAt else none

/-- The opening fill is found exactly when the inventories that are walked back, each rounded,
leave the block before it, as they do where the history is one of doubles. The expanding
lookbacks find what one lookup over the longest of them finds in any case. -/
theorem entry_reconstruction_iff (t : Texts) (symbol : String) (side : PositionSide)
    (qty qtyTolerance : ℚ) (h0 : 0 ≤ qtyTolerance) (history : List BrokerFillSnapshot)
    (h : CompleteHistory t symbol side qty qtyTolerance history) :
    (Reconstructs t symbol side qty qtyTolerance history ↔
      ∀ opening, OpensBlock t side qtyTolerance history opening →
        WalkOpens t side qtyTolerance (side.sign * nearestValue qty) history opening) ∧
    (InDoubles t history → Reconstructs t symbol side qty qtyTolerance history) ∧
    ∀ (symbolFills : String → ℤ → List BrokerFillSnapshot) (cutoff : ℤ → ℤ), Antitone cutoff →
      FillsSince symbolFills symbol cutoff history →
      ∀ initialLookbackDays, ∀ longest ∈ lookbackDays initialLookbackDays,
        (∀ days ∈ lookbackDays initialLookbackDays, days ≤ longest) →
        resolvePositionEntryFillTs t symbolFills symbol qty side qtyTolerance
            initialLookbackDays =
          findPositionEntryFillTs t (symbolFills symbol longest) symbol qty side qtyTolerance := by
  have hwalked : (∀ opening, OpensBlock t side qtyTolerance history opening →
      WalkOpens t side qtyTolerance (side.sign * nearestValue qty) history opening) →
      Reconstructs t symbol side qty qtyTolerance history := by
    intro hwalk
    obtain ⟨opening, hopens⟩ := exists_opensBlock h0 (h.not_outside h0)
    exact ⟨opening, hopens, fun recent hrecent fills hperm =>
      (hwalk opening hopens).find_suffix h0 h hrecent hperm⟩
  refine ⟨⟨?_, hwalked⟩, fun hdoubles => ?_, ?_⟩
  · rintro ⟨opening, hopens, hfind⟩ opening' hopens'
    have hall := hfind history (List.suffix_refl _) history (List.Perm.refl _)
    rw [if_pos (opensBlock_mem hopens), h.find_eq_walk (List.suffix_refl _) (List.Perm.refl _),
      walkFills_eq_some_iff t h0 (h.target_not_outside h0)] at hall
    obtain ⟨found, hfound, htime⟩ := hall
    have hdistinct := chronological_distinct h.chronological
    rw [opensBlock_unique hopens' hopens,
      ← hdistinct.eq (walkOpens_mem hfound) (opensBlock_mem hopens) htime]
    exact hfound
  · exact hwalked fun opening hopens => hopens.walkOpens h0 h hdoubles
  · intro symbolFills cutoff hcutoff hfills initialLookbackDays longest hmem hlongest
    exact resolvePositionEntryFillTs_longest h hcutoff hfills initialLookbackDays hmem hlongest

end History

/-- Bought, sold through zero, then sold again: a short whose block opened with the second
fill. -/
def flippedFills : List BrokerFillSnapshot :=
  [⟨"SPY", "buy", 5, 0⟩, ⟨"SPY", "sell", 8, 10⟩, ⟨"SPY", "buy", 1, 20⟩, ⟨"SPY", "sell", 2, 30⟩]

theorem entry_reconstruction_flipped :
    Reconstructs plainTexts "SPY" .short 4 qtyToleranceDefault flippedFills ∧
    resolvePositionEntryFillTs plainTexts
        (fun _ days => flippedFills.filter fun fill => 100 - days ≤ fill.filledAt) "SPY" 4 .short
        qtyToleranceDefault 75 =
      some 10 := by
  have hcomplete : CompleteHistory plainTexts "SPY" .short 4 qtyToleranceDefault flippedFills :=
    { symbol := by decide
      quantity := by decide +kernel
      chronological := by decide
      position := by decide +kernel
      beyond := by decide +kernel }
  have hinventories : ∀ p ∈ flippedFills.inits,
      nearestValue (netFills plainTexts p) = netFills plainTexts p := by decide +kernel
  have hdoubles : InDoubles plainTexts flippedFills :=
    ⟨by decide +kernel, fun p hp => hinventories p ((List.mem_inits p flippedFills).mpr hp)⟩
  have h0 : 0 ≤ qtyToleranceDefault := by decide +kernel
  have hexact := entry_reconstruction_iff plainTexts "SPY" .short 4 qtyToleranceDefault h0
    flippedFills hcomplete
  refine ⟨hexact.2.1 hdoubles, ?_⟩
  rw [hexact.2.2 (fun _ days => flippedFills.filter fun fill => 100 - days ≤ fill.filledAt)
    (fun days => 100 - days) (fun _ _ hle => sub_le_sub_left hle 100) (fun _ => List.Perm.refl _)
    75 90 (by decide) (by decide)]
  decide +kernel

/-- A quantity just below the tolerance; two hundred and it are rounded up, beyond it. -/
def crumb : ℚ := 112589990673 / 2 ^ 50

/-- A crumb is left of the first two fills; the third opened the block. -/
def crumbFills : List BrokerFillSnapshot :=
  [⟨"SPY", "buy", 3 * crumb, 0⟩, ⟨"SPY", "sell", 2 * crumb, 10⟩, ⟨"SPY", "buy", 200, 20⟩,
    ⟨"SPY", "sell", 199, 30⟩]

/-- Every quantity is a double and so is the position, and yet the walk goes past the fill
that opened the block. -/
theorem entry_reconstruction_crumb :
    (∀ fill ∈ crumbFills, nearestValue fill.filledQty = fill.filledQty) ∧
      CompleteHistory plainTexts "SPY" .long (1 + crumb) qtyToleranceDefault crumbFills ∧
      ¬ Reconstructs plainTexts "SPY" .long (1 + crumb) qtyToleranceDefault crumbFills := by
  refine ⟨by decide +kernel, { symbol := by decide
                               quantity := by decide +kernel
                               chronological := by decide
                               position := by decide +kernel
                               beyond := by decide +kernel }, ?_⟩
  rintro ⟨opening, hopens, hfind⟩
  have hthird : OpensBlock plainTexts .long qtyToleranceDefault crumbFills
      ⟨"SPY", "buy", 200, 20⟩ := by
    refine ⟨crumbFills.take 2, crumbFills.drop 3, rfl, Or.inl (by decide +kernel), ?_⟩
    intro p later q hafter
    cases p with
    | nil =>
      rw [not_outsideBlock (by decide +kernel)]
      decide +kernel
    | cons fill p => simp [crumbFills] at hafter
  have hall := hfind crumbFills (List.suffix_refl _) crumbFills (List.Perm.refl _)
  rw [if_pos (opensBlock_mem hopens), opensBlock_unique hopens hthird] at hall
  exact absurd hall (by decide +kernel)

end TradingPlatform.Engine.PreFlight
