import TradingPlatform.Models
import TradingPlatform.Lib.Dict
import TradingPlatform.Lib.Runs
import Mathlib.Tactic.Linarith

/-! # The reserved capital ledger

Each strategy's reservation stands in a dictionary, beside a cached total that
every operation adjusts under a `max _ 0`. The total stays the sum of the
reservations, so no clamp ever bites; what the snapshot still covers is another
matter, since a sync replaces it while reservations stand. -/

namespace TradingPlatform.Engine.ReservedCapital

open TradingPlatform.Lib TradingPlatform.Lib.Runs

structure ReservedCapitalLedger where
  snapshot : Option Account := none
  reservedTotal : ℚ := 0
  reservedByStrategy : Dict String ℚ := .empty
  deriving DecidableEq

namespace ReservedCapitalLedger

def beginCycle (_l : ReservedCapitalLedger) (account : Account) : ReservedCapitalLedger :=
  { snapshot := some account }

def availableBuyingPower (l : ReservedCapitalLedger) : ℚ :=
  match l.snapshot with
  | none => 0
  | some snapshot => max (snapshot.buyingPower - l.reservedTotal) 0

def availableAccount (l : ReservedCapitalLedger) : Account :=
  match l.snapshot with
  | none => ⟨0, 0, 0⟩
  | some snapshot =>
    ⟨snapshot.equity, max (snapshot.cash - l.reservedTotal) 0, l.availableBuyingPower⟩

/-- `self._reserved_by_strategy.get(strategy_id, 0.0)`. -/
def reservedFor (l : ReservedCapitalLedger) (strategyId : String) : ℚ :=
  (l.reservedByStrategy.get? strategyId).getD 0

def executionAccountFor (l : ReservedCapitalLedger) (strategyId : String) : Account :=
  match l.snapshot with
  | none => l.availableAccount
  | some snapshot =>
    let otherReserved := max (l.reservedTotal - l.reservedFor strategyId) 0
    ⟨snapshot.equity, max (snapshot.cash - otherReserved) 0,
      max (snapshot.buyingPower - otherReserved) 0⟩

def reserve (l : ReservedCapitalLedger) (strategyId : String) (amount : ℚ) :
    ℚ × ReservedCapitalLedger :=
  match l.snapshot with
  | none => (0, l)
  | some _ =>
    let l' := { l with reservedTotal := max (l.reservedTotal - l.reservedFor strategyId) 0 }
    let available := l'.availableBuyingPower
    let reserved := min (max amount 0) available
    (reserved,
      { l' with
        reservedByStrategy := l'.reservedByStrategy.set strategyId reserved
        reservedTotal := l'.reservedTotal + reserved })

def release (l : ReservedCapitalLedger) (strategyId : String) : ℚ × ReservedCapitalLedger :=
  let released := l.reservedFor strategyId
  (released,
    { l with
      reservedByStrategy := l.reservedByStrategy.erase strategyId
      reservedTotal := max (l.reservedTotal - released) 0 })

def releaseAll (l : ReservedCapitalLedger) : ReservedCapitalLedger :=
  { l with reservedTotal := 0, reservedByStrategy := .empty }

def syncFromBroker (l : ReservedCapitalLedger) (account : Account) (strategyId : Option String) :
    ReservedCapitalLedger :=
  let l' := { l with snapshot := some account }
  match strategyId with
  | some strategyId => (l'.release strategyId).2
  | none => { l' with reservedTotal := 0, reservedByStrategy := .empty }

end ReservedCapitalLedger

open ReservedCapitalLedger

inductive Op
  | beginCycle (account : Account)
  | reserve (strategyId : String) (amount : ℚ)
  | release (strategyId : String)
  | releaseAll
  | syncFromBroker (account : Account) (strategyId : Option String)
  deriving DecidableEq

def step (l : ReservedCapitalLedger) : Op → ReservedCapitalLedger
  | .beginCycle account => l.beginCycle account
  | .reserve strategyId amount => (l.reserve strategyId amount).2
  | .release strategyId => (l.release strategyId).2
  | .releaseAll => l.releaseAll
  | .syncFromBroker account strategyId => l.syncFromBroker account strategyId

/-! ## The total is the sum -/

/-- What the reservations add up to. -/
def reservations (l : ReservedCapitalLedger) : ℚ := l.reservedByStrategy.total fun _ amount => amount

/-- The total is the sum of the reservations, none is negative, and nothing is
reserved before a cycle has begun. -/
structure Exact (l : ReservedCapitalLedger) : Prop where
  total : l.reservedTotal = reservations l
  nonneg : ∀ strategyId, 0 ≤ l.reservedFor strategyId
  idle : l.snapshot = none → l.reservedTotal = 0

theorem share_eq (l : ReservedCapitalLedger) (strategyId : String) :
    (l.reservedByStrategy.share (fun _ amount => amount) strategyId : ℚ) =
      l.reservedFor strategyId := by
  unfold Dict.share reservedFor
  cases l.reservedByStrategy.get? strategyId <;> rfl

/-- The others hold what is left of the total. -/
theorem reservations_erase (l : ReservedCapitalLedger) (strategyId : String) :
    (l.reservedByStrategy.erase strategyId).total (fun _ amount => amount) =
      reservations l - l.reservedFor strategyId := by
  have h := l.reservedByStrategy.total_erase (fun _ amount => amount) strategyId
  rw [share_eq] at h
  exact eq_sub_of_add_eq h

theorem Exact.own_le {l : ReservedCapitalLedger} (h : Exact l) (strategyId : String) :
    l.reservedFor strategyId ≤ l.reservedTotal := by
  have hothers : (0 : ℚ) ≤ (l.reservedByStrategy.erase strategyId).total fun _ amount => amount := by
    refine Dict.total_nonneg _ fun k v hv => ?_
    rw [Dict.get?_erase] at hv
    split at hv
    · cases hv
    · have hnonneg := h.nonneg k
      rwa [reservedFor, hv] at hnonneg
  rw [reservations_erase] at hothers
  rw [h.total]
  exact sub_nonneg.mp hothers

/-- Giving back what a strategy holds never meets the clamp. -/
theorem Exact.give_back {l : ReservedCapitalLedger} (h : Exact l) (strategyId : String) :
    max (l.reservedTotal - l.reservedFor strategyId) 0 =
      l.reservedTotal - l.reservedFor strategyId :=
  max_eq_left (sub_nonneg.mpr (h.own_le strategyId))

theorem exact_fresh (snapshot : Option Account) : Exact { snapshot := snapshot } :=
  ⟨rfl, fun _ => le_rfl, fun _ => rfl⟩

theorem Exact.release {l : ReservedCapitalLedger} (h : Exact l) (strategyId : String) :
    Exact (l.release strategyId).2 := by
  refine ⟨?_, fun k => ?_, fun hidle => ?_⟩
  · show max _ _ = _
    rw [h.give_back, h.total]
    exact (reservations_erase l strategyId).symm
  · show 0 ≤ ((l.reservedByStrategy.erase strategyId).get? k).getD 0
    rw [Dict.get?_erase]
    split
    · exact le_rfl
    · exact h.nonneg k
  · have hzero := h.idle hidle
    have hown := h.own_le strategyId
    have hnonneg := h.nonneg strategyId
    show max (l.reservedTotal - l.reservedFor strategyId) 0 = 0
    rw [max_eq_right]
    linarith

/-- What a reservation grants, and what it does to the total. -/
theorem Exact.reserve_spec {l : ReservedCapitalLedger} (h : Exact l) (strategyId : String)
    (amount : ℚ) {snapshot : Account} (hs : l.snapshot = some snapshot) :
    ∃ granted, (l.reserve strategyId amount).1 = granted ∧ 0 ≤ granted ∧
      granted ≤ max (snapshot.buyingPower - (l.reservedTotal - l.reservedFor strategyId)) 0 ∧
      (l.reserve strategyId amount).2 =
        { l with
          reservedByStrategy := l.reservedByStrategy.set strategyId granted
          reservedTotal := l.reservedTotal - l.reservedFor strategyId + granted } := by
  unfold ReservedCapitalLedger.reserve availableBuyingPower
  simp only [hs, h.give_back]
  exact ⟨_, rfl, le_min (le_max_right _ _) (le_max_right _ _), min_le_right _ _, rfl⟩

theorem Exact.reserve {l : ReservedCapitalLedger} (h : Exact l) (strategyId : String) (amount : ℚ) :
    Exact (l.reserve strategyId amount).2 := by
  cases hs : l.snapshot with
  | none =>
    have hsame : (l.reserve strategyId amount).2 = l := by
      unfold ReservedCapitalLedger.reserve
      simp only [hs]
    exact hsame.symm ▸ h
  | some snapshot =>
    obtain ⟨granted, -, hnonneg, -, hl⟩ := h.reserve_spec strategyId amount hs
    rw [hl]
    refine ⟨?_, fun k => ?_, fun hidle => absurd (hs.symm.trans hidle) (by simp)⟩
    · have htotal := l.reservedByStrategy.total_set (fun _ amount => amount) strategyId granted
      rw [share_eq] at htotal
      show l.reservedTotal - _ + granted = (l.reservedByStrategy.set strategyId granted).total _
      rw [h.total, reservations]
      linarith
    · show 0 ≤ ((l.reservedByStrategy.set strategyId granted).get? k).getD 0
      rw [Dict.get?_set]
      split
      · exact hnonneg
      · exact h.nonneg k

theorem exact_step (l : ReservedCapitalLedger) (op : Op) (h : Exact l) : Exact (step l op) := by
  cases op with
  | beginCycle account => exact exact_fresh (some account)
  | reserve strategyId amount => exact h.reserve strategyId amount
  | release strategyId => exact h.release strategyId
  | releaseAll => exact exact_fresh l.snapshot
  | syncFromBroker account strategyId =>
    cases strategyId with
    | none => exact exact_fresh (some account)
    | some strategyId =>
      have hsynced : Exact { l with snapshot := some account } :=
        ⟨h.total, h.nonneg, fun hidle => nomatch hidle⟩
      exact hsynced.release strategyId

/-! ## What the snapshot covers -/

/-- `reserved_total` is within the snapshot's buying power, taken as zero when
negative or missing. -/
def WithinSnapshot (l : ReservedCapitalLedger) : Prop :=
  l.reservedTotal ≤ max ((l.snapshot.map (·.buyingPower)).getD 0) 0

instance (l : ReservedCapitalLedger) : Decidable (WithinSnapshot l) :=
  inferInstanceAs (Decidable (_ ≤ _))

/-- A sync made for one strategy reports what the others still hold. -/
def SyncCovers (l : ReservedCapitalLedger) : Op → Prop
  | .syncFromBroker account (some strategyId) =>
    l.reservedTotal - l.reservedFor strategyId ≤ max account.buyingPower 0
  | _ => True

instance (l : ReservedCapitalLedger) (op : Op) : Decidable (SyncCovers l op) := by
  cases op with
  | syncFromBroker account strategyId =>
    cases strategyId <;> dsimp only [SyncCovers] <;> infer_instance
  | _ => exact inferInstanceAs (Decidable True)

theorem withinSnapshot_reserve {l : ReservedCapitalLedger} (h : Exact l) (hw : WithinSnapshot l)
    (strategyId : String) (amount : ℚ) : WithinSnapshot (l.reserve strategyId amount).2 := by
  cases hs : l.snapshot with
  | none =>
    have hsame : (l.reserve strategyId amount).2 = l := by
      unfold ReservedCapitalLedger.reserve
      simp only [hs]
    exact hsame.symm ▸ hw
  | some snapshot =>
    obtain ⟨granted, -, hnonneg, hle, hl⟩ := h.reserve_spec strategyId amount hs
    have hown := h.nonneg strategyId
    rw [WithinSnapshot, hs] at hw
    rw [hl, WithinSnapshot, hs]
    show l.reservedTotal - l.reservedFor strategyId + granted ≤ max snapshot.buyingPower 0
    have hw : l.reservedTotal ≤ max snapshot.buyingPower 0 := hw
    rcases le_total (l.reservedTotal - l.reservedFor strategyId) snapshot.buyingPower with hfree | hfull
    · rw [max_eq_left (sub_nonneg.mpr hfree)] at hle
      exact le_max_of_le_left (by linarith)
    · -- nothing is available, so nothing is granted
      rw [max_eq_right (sub_nonpos.mpr hfull)] at hle
      linarith

theorem withinSnapshot_release {l : ReservedCapitalLedger} (h : Exact l) (strategyId : String) :
    WithinSnapshot (l.release strategyId).2 ↔
      l.reservedTotal - l.reservedFor strategyId ≤
        max ((l.snapshot.map (·.buyingPower)).getD 0) 0 := by
  show max _ _ ≤ max _ _ ↔ _
  rw [h.give_back]
  exact Iff.rfl

/-- **One operation** keeps the total within the snapshot exactly when a sync
covers what stays reserved. -/
theorem withinSnapshot_step {l : ReservedCapitalLedger} (op : Op) (h : Exact l)
    (hw : WithinSnapshot l) : WithinSnapshot (step l op) ↔ SyncCovers l op := by
  have hempty : ∀ snapshot, WithinSnapshot { snapshot := snapshot } := fun _ => le_max_right _ _
  cases op with
  | beginCycle account => exact iff_of_true (hempty _) trivial
  | reserve strategyId amount => exact iff_of_true (withinSnapshot_reserve h hw strategyId amount) trivial
  | release strategyId =>
    refine iff_of_true ((withinSnapshot_release h strategyId).mpr ?_) trivial
    have hown := h.nonneg strategyId
    exact (sub_le_self _ hown).trans hw
  | releaseAll => exact iff_of_true (hempty _) trivial
  | syncFromBroker account strategyId =>
    cases strategyId with
    | none => exact iff_of_true (hempty _) trivial
    | some strategyId =>
      have hsynced : Exact { l with snapshot := some account } :=
        ⟨h.total, h.nonneg, fun hidle => nomatch hidle⟩
      exact withinSnapshot_release hsynced strategyId

/-- What a reservation returns is within what the strategy could spend with its
own prior reservation given back. -/
theorem Exact.reserve_le {l : ReservedCapitalLedger} (h : Exact l) (strategyId : String)
    (amount : ℚ) :
    (l.reserve strategyId amount).1 ≤ (l.executionAccountFor strategyId).buyingPower := by
  cases hs : l.snapshot with
  | none =>
    unfold ReservedCapitalLedger.reserve executionAccountFor availableAccount
    simp only [hs, le_refl]
  | some snapshot =>
    obtain ⟨granted, hg, -, hle, -⟩ := h.reserve_spec strategyId amount hs
    rw [hg]
    unfold executionAccountFor
    simp only [hs, h.give_back]
    exact hle

/-- **Reserved capital is exact**, in every state a run reaches: the total is the
sum of the reservations, none is negative, and a reservation returns at most
what is available with the strategy's own given back. The total stays within
the snapshot exactly while every sync made for one strategy covers what the
others hold. -/
theorem reserved_capital_exact (ops : List Op) :
    (run step {} ops).reservedTotal = reservations (run step {} ops) ∧
    (∀ strategyId, 0 ≤ (run step {} ops).reservedFor strategyId) ∧
    (∀ strategyId amount, ((run step {} ops).reserve strategyId amount).1 ≤
      ((run step {} ops).executionAccountFor strategyId).buyingPower) ∧
    (Along step (fun l op => WithinSnapshot (step l op)) {} ops ↔ Along step SyncCovers {} ops) := by
  have hexact : Exact (run step {} ops) := run_keeps exact_step (exact_fresh none) ops
  refine ⟨hexact.total, hexact.nonneg, hexact.reserve_le, ?_⟩
  exact along_next_iff exact_step (fun _ op h hw => withinSnapshot_step op h hw) ops
    (exact_fresh none) (le_max_right _ _)

/-- A sync for one strategy to a smaller account leaves the other's reservation
above the snapshot. -/
theorem sync_overcommits :
    ¬ WithinSnapshot (run step {}
      [.beginCycle ⟨100, 100, 100⟩, .reserve "spy" 60, .syncFromBroker ⟨100, 10, 10⟩ (some "qqq")]) := by
  decide +kernel

end TradingPlatform.Engine.ReservedCapital
