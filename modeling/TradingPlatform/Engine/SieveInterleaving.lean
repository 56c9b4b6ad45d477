import TradingPlatform.Engine.BrokerFillSieve
import TradingPlatform.Lib.Runs

/-! # The pending map under interleaving

The sieve's coroutines give way at their awaits and write the map back
afterwards. A bundle is an object that a map entry and several coroutines may
share, so bundles are named by their place in a list. Awaits between which a
coroutine touches neither map nor bundle are one: the refreshes of one loop, and
the calls under `_apply_broker_authority`. A call that raises ends its coroutine,
which is then not resumed. -/

namespace TradingPlatform.Engine.BrokerFillSieve.Interleaving

open TradingPlatform.Lib TradingPlatform.Lib.Runs

def incompleteCycleCancelThreshold : Nat := 3

/-- `partial_fill_residual_abandoned`. -/
structure ResidualAbandoned where
  strategyId : String
  symbol : String
  requestedQty : ℚ
  filledQty : ℚ
  residualQty : ℚ
  entryScaleFactor : ℚ
  unresolvedCycles : Nat
  deriving DecidableEq

/-- What lets a slice leave the map; only the second is the code's own event. -/
inductive Event
  | observedFilled (ref index : Nat)
  | abandoned (ref : Nat) (residual : ResidualAbandoned)
  | legGone (ref : Nat)
  deriving DecidableEq

def Event.Releases (ref index : Nat) : Event → Prop
  | .observedFilled r i => r = ref ∧ i = index
  | .abandoned r residual => r = ref ∧ incompleteCycleCancelThreshold ≤ residual.unresolvedCycles
  | .legGone r => r = ref

instance (ref index : Nat) (ev : Event) : Decidable (ev.Releases ref index) := by
  cases ev <;> dsimp only [Event.Releases] <;> infer_instance

/-- A slice, by its bundle and its place there, with a key it is due under. -/
structure DueSlice where
  key : String
  ref : Nat
  index : Nat
  deriving DecidableEq

/-- One submission handed to the sieve, by `reconcile_post_submit` or, with `ioc`,
by `register_ioc_residual`. -/
structure Submission where
  ioc : Bool
  strategyId : String
  symbol : String
  orders : List Order
  positionsBefore : List Position := []

/-- A coroutine, by the await it stands at; an advance has the rest of its
snapshot to go. -/
inductive Task
  | bursting (sub : Submission)
  | applying (sub : Submission) (refreshed : List OrderResult)
  | advancing (todo : List (String × Nat))
  | refreshing (ref : Nat) (orders : List Order) (results : List OrderResult)
      (todo : List (String × Nat))
  | authorizing (ref : Nat) (todo : List (String × Nat))
  | cancelling (ref : Nat) (todo : List (String × Nat))
  | done

/-- `owed` records the slices of every submission, and those that an advance puts
back, perhaps under another key. -/
structure Sieve where
  pending : Dict String Nat := .empty
  bundles : List PendingFillBundle := []
  tasks : List Task := []
  history : List Event := []
  owed : List DueSlice := []

/-- What the outside answers in one step. -/
structure Answers where
  refreshed : List OrderResult := []
  refresh : Nat → Order → OrderResult → OrderResult := fun _ _ result => result
  legPresent : Bool := true
  now : String := ""

inductive Move
  | submit (sub : Submission) (results : List OrderResult) (residualQty : ℚ)
  | advance
  | run (t : Nat) (answers : Answers)

/-- The slices of a fresh bundle that are not short. -/
def observe (ref : Nat) (b : PendingFillBundle) : List Event :=
  (b.slices.zipIdx.filter fun p => !p.1.unfilled).map fun p => .observedFilled ref p.2

def dueSlices (key : String) (ref : Nat) (b : PendingFillBundle) : List DueSlice :=
  (List.range b.slices.length).map fun index => ⟨key, ref, index⟩

def residualOf (b : PendingFillBundle) : ResidualAbandoned where
  strategyId := b.strategyId
  symbol := b.symbol
  requestedQty := b.requestedQty
  filledQty := b.filledQty
  residualQty := max (b.requestedQty - b.filledQty) 0
  entryScaleFactor := if 0 < b.requestedQty then b.filledQty / b.requestedQty else 0
  unresolvedCycles := b.unresolvedCycles

namespace Sieve

def put (s : Sieve) (t : Nat) (task : Task) : Sieve := { s with tasks := s.tasks.set t task }

def store (s : Sieve) (key : String) (ref : Nat) : Sieve :=
  { s with pending := s.pending.set key ref }

def owe (s : Sieve) (due : List DueSlice) : Sieve := { s with owed := s.owed ++ due }

def pop (s : Sieve) (key : String) : Sieve := { s with pending := s.pending.erase key }

def log (s : Sieve) (events : List Event) : Sieve := { s with history := s.history ++ events }

def alter (s : Sieve) (ref : Nat) (b : PendingFillBundle) : Sieve :=
  { s with bundles := s.bundles.set ref b }

end Sieve

section Steps
variable (lower upper : String → String)

/-- The end of a submission: the bundle is built, and stored or not needed. -/
def finishSubmission (s : Sieve) (sub : Submission) (refreshed : List OrderResult) : Sieve :=
  let b := bundleFromSubmission lower upper sub.strategyId sub.symbol sub.orders refreshed
    sub.positionsBefore
  let key := bundleKey upper sub.strategyId sub.symbol
  let ref := s.bundles.length
  let s := ({ s with bundles := s.bundles ++ [b] }.log (observe ref b)).owe
    (dueSlices key ref b)
  if sub.ioc || b.needsTracking lower then s.store key ref
  else s.pop key

/-- The end of `_advance_bundle`, once the slices are fresh. -/
def settleBundle (s : Sieve) (t ref : Nat) (todo : List (String × Nat)) (b : PendingFillBundle) :
    Sieve :=
  let key := bundleKey upper b.strategyId b.symbol
  if b.needsTracking lower then
    let b := { b with unresolvedCycles := b.unresolvedCycles + 1 }
    if incompleteCycleCancelThreshold ≤ b.unresolvedCycles then
      (s.alter ref b).put t (.cancelling ref todo)
    else (((s.alter ref b).store key ref).owe (dueSlices key ref b)).put t (.advancing todo)
  else (s.pop key).put t (.advancing todo)

def runTask (s : Sieve) (t : Nat) (task : Task) (a : Answers) : Sieve :=
  match task with
  | .bursting sub => s.put t (.applying sub a.refreshed)
  | .applying sub refreshed => (finishSubmission lower upper s sub refreshed).put t .done
  | .advancing [] => s.put t .done
  | .advancing ((key, ref) :: todo) =>
    (s.bundles[ref]?).elim s fun b =>
      if a.legPresent then s.put t (.refreshing ref b.orders (b.results a.now) todo)
      else ((s.log [.legGone ref]).pop key).put t (.advancing todo)
  | .refreshing ref orders results todo =>
    (s.bundles[ref]?).elim s fun b =>
      let b := { b with
        slices := buildSlices lower orders
          (PendingFillBundle.refreshResults a.refresh orders results) }
      ((s.alter ref b).log (observe ref b)).put t (.authorizing ref todo)
  | .authorizing ref todo =>
    (s.bundles[ref]?).elim s fun b => settleBundle lower upper s t ref todo b
  | .cancelling ref todo =>
    (s.bundles[ref]?).elim s fun b =>
      ((s.log [.abandoned ref (residualOf b)]).pop (bundleKey upper b.strategyId b.symbol)).put t
        (.advancing todo)
  | .done => s

def step (s : Sieve) : Move → Sieve
  | .submit sub results residualQty =>
    if results = [] ∨ (sub.ioc = true ∧ residualQty ≤ fillTolerance) then s
    else { s with tasks := s.tasks ++ [.bursting sub] }
  | .advance => { s with tasks := s.tasks ++ [.advancing s.pending.items] }
  | .run t a => (s.tasks[t]?).elim s fun task => runTask lower upper s t task a

/-! ## What should stay in the map -/

def Released (s : Sieve) (ref index : Nat) : Prop := ∃ ev ∈ s.history, ev.Releases ref index

instance (s : Sieve) (ref index : Nat) : Decidable (Released s ref index) :=
  inferInstanceAs (Decidable (∃ ev ∈ s.history, _))

/-- Every slice is in the map under its key, or has been observed filled, or was
abandoned with an event after enough cycles, or lost its leg. -/
def Tracked (s : Sieve) : Prop :=
  ∀ p ∈ s.owed, s.pending.get? p.key = some p.ref ∨ Released s p.ref p.index

instance (s : Sieve) : Decidable (Tracked s) := inferInstanceAs (Decidable (∀ p ∈ s.owed, _))

/-- The key a move stores or pops, and the bundle it does so for. -/
def writeOf? (s : Sieve) : Move → Option (String × Nat)
  | .run t a =>
    match s.tasks[t]? with
    | some (.applying sub _) => some (bundleKey upper sub.strategyId sub.symbol, s.bundles.length)
    | some (.advancing ((key, ref) :: _)) =>
      if a.legPresent then none else (s.bundles[ref]?).map fun _ => (key, ref)
    | some (.authorizing ref _) =>
      (s.bundles[ref]?).bind fun b =>
        if b.needsTracking lower ∧ incompleteCycleCancelThreshold ≤ b.unresolvedCycles + 1 then none
        else some (bundleKey upper b.strategyId b.symbol, ref)
    | some (.cancelling ref _) =>
      (s.bundles[ref]?).map fun b => (bundleKey upper b.strategyId b.symbol, ref)
    | _ => none
  | _ => none

/-- A write finds under its key no slice but those of its own bundle and released
ones. -/
def WritesFree (s : Sieve) (mv : Move) : Prop :=
  ∀ w ∈ writeOf? lower upper s mv, ∀ p ∈ s.owed, p.key = w.1 → s.pending.get? w.1 = some p.ref →
    p.ref = w.2 ∨ Released s p.ref p.index

/-! ## What one move can do to the map -/

/-- The history grows by events that release slices of `ref` only. -/
def GrowsFor (ref : Nat) (s s' : Sieve) : Prop :=
  ∃ new, s'.history = s.history ++ new ∧ ∀ ev ∈ new, ∀ e i, ev.Releases e i → e = ref

/-- The slices owed grow by some of `ref` under `key`. -/
def OwesFor (key : String) (ref : Nat) (s s' : Sieve) : Prop :=
  ∃ new, s'.owed = s.owed ++ new ∧ ∀ p ∈ new, p.key = key ∧ p.ref = ref

inductive Effect (s : Sieve) (mv : Move) (s' : Sieve) : Prop
  | quiet (hwrite : writeOf? lower upper s mv = none) (hpending : s'.pending = s.pending)
      (howed : s'.owed = s.owed) (hgrows : s.history ⊆ s'.history)
  | stored (key : String) (ref : Nat) (hwrite : writeOf? lower upper s mv = some (key, ref))
      (hpending : s'.pending = s.pending.set key ref) (howed : OwesFor key ref s s')
      (hgrows : GrowsFor ref s s')
  | popped (key : String) (ref : Nat) (hwrite : writeOf? lower upper s mv = some (key, ref))
      (hpending : s'.pending = s.pending.erase key) (howed : OwesFor key ref s s')
      (hgrows : GrowsFor ref s s')
      (hreleased : ∀ p ∈ s'.owed, p.ref = ref → Released s' p.ref p.index)

variable {lower upper} {s s' : Sieve} {mv : Move}

theorem Released.mono {ref index : Nat} (h : Released s ref index)
    (hgrows : s.history ⊆ s'.history) : Released s' ref index := by
  obtain ⟨ev, hev, hrel⟩ := h
  exact ⟨ev, hgrows hev, hrel⟩

theorem GrowsFor.subset {ref : Nat} (h : GrowsFor ref s s') : s.history ⊆ s'.history := by
  obtain ⟨new, hnew, -⟩ := h
  rw [hnew]
  exact List.subset_append_left _ _

theorem GrowsFor.old {ref e i : Nat} (h : GrowsFor ref s s') (hrel : Released s' e i)
    (hne : e ≠ ref) : Released s e i := by
  obtain ⟨new, hnew, honly⟩ := h
  obtain ⟨ev, hev, hrel⟩ := hrel
  rw [hnew] at hev
  rcases List.mem_append.mp hev with hold | hlate
  · exact ⟨ev, hold, hrel⟩
  · exact absurd (honly ev hlate e i hrel) hne

theorem OwesFor.old {key : String} {ref : Nat} (h : OwesFor key ref s s') {p : DueSlice}
    (hp : p ∈ s.owed) : p ∈ s'.owed := by
  obtain ⟨new, hnew, -⟩ := h
  rw [hnew]
  exact List.mem_append_left _ hp

theorem OwesFor.cases {key : String} {ref : Nat} (h : OwesFor key ref s s') {p : DueSlice}
    (hp : p ∈ s'.owed) : p ∈ s.owed ∨ (p.key = key ∧ p.ref = ref) := by
  obtain ⟨new, hnew, honly⟩ := h
  rw [hnew, List.mem_append] at hp
  exact hp.imp_right (honly p)

/-- Beside a free write, a tracked slice is released, of the written bundle, or under
another key. -/
theorem Tracked.beside (ht : Tracked s) {key : String} {ref : Nat}
    (hfree : ∀ p ∈ s.owed, p.key = key → s.pending.get? key = some p.ref →
      p.ref = ref ∨ Released s p.ref p.index) {p : DueSlice} (hp : p ∈ s.owed) :
    Released s p.ref p.index ∨ (p.key = key ∧ p.ref = ref) ∨
      (p.key ≠ key ∧ s.pending.get? p.key = some p.ref) := by
  rcases ht p hp with hget | hrel
  · by_cases hkey : p.key = key
    · rw [hkey] at hget
      rcases hfree p hp hkey hget with hown | hrel
      · exact .inr (.inl ⟨hkey, hown⟩)
      · exact .inl hrel
    · exact .inr (.inr ⟨hkey, hget⟩)
  · exact .inl hrel

/-- **One move** keeps every slice tracked exactly when what it writes over is its
own or released. -/
theorem tracked_effect (ht : Tracked s) (he : Effect lower upper s mv s') :
    Tracked s' ↔ WritesFree lower upper s mv := by
  unfold WritesFree
  cases he with
  | quiet hwrite hpending howed hgrows =>
    refine iff_of_true (fun p hp => ?_) (by simp [hwrite])
    rw [howed] at hp
    rw [hpending]
    exact (ht p hp).imp_right fun hrel => hrel.mono hgrows
  | stored key ref hwrite hpending howed hgrows =>
    rw [hwrite]
    constructor
    · rintro ht' _ ⟨⟩ p hp hkey hget
      by_cases hown : p.ref = ref
      · exact .inl hown
      rcases ht' p (howed.old hp) with hkept | hrel
      · rw [hpending, hkey, Dict.get?_set_self] at hkept
        exact absurd (Option.some.inj hkept).symm hown
      · exact .inr (hgrows.old hrel hown)
    · intro hfree p hp
      rw [hpending, Dict.get?_set]
      rcases howed.cases hp with hold | ⟨hkey, hown⟩
      · rcases ht.beside (hfree _ rfl) hold with hrel | ⟨hkey, hown⟩ | ⟨hkey, hget⟩
        · exact .inr (hrel.mono hgrows.subset)
        · exact .inl (by rw [if_pos hkey, hown])
        · exact .inl (by rw [if_neg hkey, hget])
      · exact .inl (by rw [if_pos hkey, hown])
  | popped key ref hwrite hpending howed hgrows hreleased =>
    rw [hwrite]
    constructor
    · rintro ht' _ ⟨⟩ p hp hkey hget
      by_cases hown : p.ref = ref
      · exact .inl hown
      rcases ht' p (howed.old hp) with hkept | hrel
      · rw [hpending, hkey, Dict.get?_erase, if_pos rfl] at hkept
        cases hkept
      · exact .inr (hgrows.old hrel hown)
    · intro hfree p hp
      by_cases hown : p.ref = ref
      · exact .inr (hreleased p hp hown)
      rcases howed.cases hp with hold | ⟨-, hsame⟩
      · rcases ht.beside (hfree _ rfl) hold with hrel | ⟨-, hsame⟩ | ⟨hkey, hget⟩
        · exact .inr (hrel.mono hgrows.subset)
        · exact absurd hsame hown
        · exact .inl (by rw [hpending, Dict.get?_erase, if_neg hkey, hget])
      · exact absurd hsame hown

/-! ## The bundles -/

/-- What a coroutine at an await knows of its bundle. -/
def TaskOk (bundles : List PendingFillBundle) : Task → Prop
  | .refreshing ref orders results _ =>
    ∃ b, bundles[ref]? = some b ∧ orders.length = b.slices.length ∧
      results.length = b.slices.length
  | .cancelling ref _ =>
    ∃ b, bundles[ref]? = some b ∧ incompleteCycleCancelThreshold ≤ b.unresolvedCycles
  | _ => True

/-- A slice that is not short has been seen so, and bundles never lose a slice
that is owed. -/
structure HeapOk (s : Sieve) : Prop where
  seen : ∀ ref b, s.bundles[ref]? = some b → observe ref b ⊆ s.history
  sized : ∀ p ∈ s.owed, ∃ b, s.bundles[p.ref]? = some b ∧ p.index < b.slices.length
  tasks : ∀ task ∈ s.tasks, TaskOk s.bundles task

/-- Bundles keep their place and their number of slices, and count up. -/
def Kept (bs bs' : List PendingFillBundle) : Prop :=
  ∀ (ref : Nat) (b : PendingFillBundle), bs[ref]? = some b → ∃ b', bs'[ref]? = some b' ∧
    b'.slices.length = b.slices.length ∧ b.unresolvedCycles ≤ b'.unresolvedCycles

theorem TaskOk.kept {bs bs' : List PendingFillBundle} {task : Task} (h : TaskOk bs task)
    (hkept : Kept bs bs') : TaskOk bs' task := by
  cases task with
  | refreshing ref orders results todo =>
    obtain ⟨b, hb, horders, hresults⟩ := h
    obtain ⟨b', hb', hlen, -⟩ := hkept ref b hb
    exact ⟨b', hb', horders.trans hlen.symm, hresults.trans hlen.symm⟩
  | cancelling ref todo =>
    obtain ⟨b, hb, hcycles⟩ := h
    obtain ⟨b', hb', -, hle⟩ := hkept ref b hb
    exact ⟨b', hb', hcycles.trans hle⟩
  | _ => trivial

theorem kept_set {bs : List PendingFillBundle} {ref : Nat} {b b' : PendingFillBundle}
    (hget : bs[ref]? = some b) (hlen : b'.slices.length = b.slices.length)
    (hcycles : b.unresolvedCycles ≤ b'.unresolvedCycles) : Kept bs (bs.set ref b') := by
  intro r c hc
  rw [List.getElem?_set]
  by_cases hr : ref = r
  · subst hr
    obtain rfl : b = c := Option.some.inj (hget.symm.trans hc)
    have hlt := (List.getElem?_eq_some_iff.mp hget).1
    exact ⟨b', by rw [if_pos rfl, if_pos hlt], hlen, hcycles⟩
  · exact ⟨c, by rw [if_neg hr, hc], rfl, le_refl _⟩

theorem kept_append (bs new : List PendingFillBundle) : Kept bs (bs ++ new) := by
  intro r c hc
  have hlt := (List.getElem?_eq_some_iff.mp hc).1
  exact ⟨c, by rw [List.getElem?_append_left hlt, hc], rfl, le_refl _⟩

theorem mem_observe {ref i : Nat} {b : PendingFillBundle} {sl : ChildFillSlice}
    (hget : b.slices[i]? = some sl) (hfull : sl.unfilled = false) :
    Event.observedFilled ref i ∈ observe ref b := by
  refine List.mem_map.mpr ⟨(sl, i), List.mem_filter.mpr ⟨?_, by simp [hfull]⟩, rfl⟩
  exact List.mem_zipIdx_iff_getElem?.mpr hget

theorem releases_observe {ref e i : Nat} {b : PendingFillBundle} :
    ∀ ev ∈ observe ref b, ev.Releases e i → e = ref := by
  intro ev hev hrel
  obtain ⟨p, -, rfl⟩ := List.mem_map.mp hev
  exact hrel.1.symm

theorem mem_dueSlices {key : String} {ref : Nat} {b : PendingFillBundle} {p : DueSlice}
    (hp : p ∈ dueSlices key ref b) : p.key = key ∧ p.ref = ref ∧ p.index < b.slices.length := by
  obtain ⟨i, hi, rfl⟩ := List.mem_map.mp hp
  exact ⟨rfl, rfl, List.mem_range.mp hi⟩

theorem unfilled_of_not_needsTracking {b : PendingFillBundle} {sl : ChildFillSlice}
    (h : b.needsTracking lower = false) (hsl : sl ∈ b.slices) : sl.unfilled = false := by
  have hsome : b.slices.isEmpty = false := by
    rw [List.isEmpty_eq_false_iff]
    exact List.ne_nil_of_mem hsl
  simp only [PendingFillBundle.needsTracking, hsome, Bool.not_false, Bool.true_and,
    Bool.or_eq_false_iff, List.any_eq_false, Bool.not_eq_true] at h
  exact (h.2 sl hsl).2

namespace HeapOk

/-- Nothing of a bundle that needs no tracking is unreleased. -/
theorem released (h : HeapOk s) {ref : Nat} {b : PendingFillBundle}
    (hget : s.bundles[ref]? = some b) (hdone : b.needsTracking lower = false) :
    ∀ p ∈ s.owed, p.ref = ref → Released s p.ref p.index := by
  rintro p hp rfl
  obtain ⟨c, hc, hlt⟩ := h.sized p hp
  obtain rfl : b = c := Option.some.inj (hget.symm.trans hc)
  have hsl := List.getElem?_eq_getElem hlt
  have hfull := unfilled_of_not_needsTracking hdone (List.getElem_mem hlt)
  exact ⟨_, h.seen p.ref b hget (mem_observe hsl hfull), rfl, rfl⟩

theorem put (h : HeapOk s) {t : Nat} {task : Task} (htask : TaskOk s.bundles task) :
    HeapOk (s.put t task) where
  seen := h.seen
  sized := h.sized
  tasks := by
    intro u hu
    rcases List.mem_or_eq_of_mem_set hu with hold | rfl
    · exact h.tasks u hold
    · exact htask

theorem spawn (h : HeapOk s) {task : Task} (htask : TaskOk s.bundles task) :
    HeapOk { s with tasks := s.tasks ++ [task] } where
  seen := h.seen
  sized := h.sized
  tasks := by
    intro u hu
    rcases List.mem_append.mp hu with hold | hnew
    · exact h.tasks u hold
    · exact List.mem_singleton.mp hnew ▸ htask

theorem store (h : HeapOk s) (key : String) (ref : Nat) : HeapOk (s.store key ref) :=
  ⟨h.seen, h.sized, h.tasks⟩

theorem pop (h : HeapOk s) (key : String) : HeapOk (s.pop key) := ⟨h.seen, h.sized, h.tasks⟩

theorem log (h : HeapOk s) (events : List Event) : HeapOk (s.log events) where
  seen := fun ref b hb => List.Subset.trans (h.seen ref b hb) (List.subset_append_left _ _)
  sized := h.sized
  tasks := h.tasks

theorem owe (h : HeapOk s) {key : String} {ref : Nat} {b : PendingFillBundle}
    (hget : s.bundles[ref]? = some b) : HeapOk (s.owe (dueSlices key ref b)) where
  seen := h.seen
  sized := by
    intro p hp
    rcases List.mem_append.mp hp with hold | hnew
    · exact h.sized p hold
    · obtain ⟨-, href, hlt⟩ := mem_dueSlices hnew
      exact ⟨b, by rw [href]; exact hget, hlt⟩
  tasks := h.tasks

/-- New bundles, if they have been observed. -/
theorem rebundle (h : HeapOk s) {bundles : List PendingFillBundle} (hkept : Kept s.bundles bundles)
    (hseen : ∀ ref b, bundles[ref]? = some b → observe ref b ⊆ s.history) :
    HeapOk { s with bundles := bundles } where
  seen := hseen
  sized := by
    intro p hp
    obtain ⟨b, hb, hlt⟩ := h.sized p hp
    obtain ⟨b', hb', hlen, -⟩ := hkept p.ref b hb
    exact ⟨b', hb', by rw [hlen]; exact hlt⟩
  tasks := fun task htask => (h.tasks task htask).kept hkept

theorem alter (h : HeapOk s) {ref : Nat} {b b' : PendingFillBundle}
    (hget : s.bundles[ref]? = some b) (hlen : b'.slices.length = b.slices.length)
    (hcycles : b.unresolvedCycles ≤ b'.unresolvedCycles) (hseen : observe ref b' ⊆ s.history) :
    HeapOk (s.alter ref b') := by
  refine h.rebundle (kept_set hget hlen hcycles) fun r c hc => ?_
  rw [List.getElem?_set] at hc
  split at hc
  · rename_i hr
    split at hc
    · cases hc
      rw [← hr]
      exact hseen
    · cases hc
  · exact h.seen r c hc

theorem append (h : HeapOk s) {b : PendingFillBundle}
    (hseen : observe s.bundles.length b ⊆ s.history) :
    HeapOk { s with bundles := s.bundles ++ [b] } := by
  refine h.rebundle (kept_append _ _) fun r c hc => ?_
  rw [List.getElem?_append] at hc
  split at hc
  · exact h.seen r c hc
  · rename_i hr
    rw [List.getElem?_singleton] at hc
    split at hc
    · cases hc
      have hlen : r = s.bundles.length := by omega
      rw [hlen]
      exact hseen
    · cases hc

end HeapOk

/-! ## Every move -/

theorem heapOk_finish (h : HeapOk s) (sub : Submission) (refreshed : List OrderResult) :
    HeapOk (finishSubmission lower upper s sub refreshed) := by
  let b := bundleFromSubmission lower upper sub.strategyId sub.symbol sub.orders refreshed
    sub.positionsBefore
  let key := bundleKey upper sub.strategyId sub.symbol
  have hbuilt : HeapOk { s.log (observe s.bundles.length b) with bundles := s.bundles ++ [b] } :=
    (h.log _).append (List.subset_append_right _ _)
  have hget : (s.bundles ++ [b])[s.bundles.length]? = some b := List.getElem?_concat_length
  have howed : HeapOk ({ s.log (observe s.bundles.length b) with bundles := s.bundles ++ [b] }.owe
      (dueSlices key s.bundles.length b)) := hbuilt.owe hget
  unfold finishSubmission
  dsimp only
  split
  · exact howed.store key _
  · exact howed.pop key

theorem heapOk_settle (h : HeapOk s) (t : Nat) {ref : Nat} (todo : List (String × Nat))
    {b : PendingFillBundle} (hget : s.bundles[ref]? = some b) :
    HeapOk (settleBundle lower upper s t ref todo b) := by
  let counted := { b with unresolvedCycles := b.unresolvedCycles + 1 }
  have hheap : HeapOk (s.alter ref counted) :=
    h.alter hget rfl (Nat.le_succ _) (h.seen ref b hget)
  have hlt := (List.getElem?_eq_some_iff.mp hget).1
  have hnow : (s.alter ref counted).bundles[ref]? = some counted := List.getElem?_set_self hlt
  unfold settleBundle
  dsimp only
  split
  · split
    · rename_i hcycles
      exact hheap.put ⟨counted, hnow, hcycles⟩
    · exact ((hheap.store _ ref).owe hnow).put trivial
  · exact (h.pop _).put trivial

theorem length_refreshed (refresh : Nat → Order → OrderResult → OrderResult) {n : Nat}
    {orders : List Order} {results : List OrderResult} (horders : orders.length = n)
    (hresults : results.length = n) :
    (buildSlices lower orders (PendingFillBundle.refreshResults refresh orders results)).length =
      n := by
  simp [buildSlices, PendingFillBundle.refreshResults, horders, hresults]

theorem heapOk_runTask (h : HeapOk s) {t : Nat} {task : Task} (htask : task ∈ s.tasks)
    (a : Answers) : HeapOk (runTask lower upper s t task a) := by
  cases task with
  | bursting sub => exact h.put trivial
  | applying sub refreshed => exact (heapOk_finish h sub refreshed).put trivial
  | advancing todo =>
    cases todo with
    | nil => exact h.put trivial
    | cons entry todo =>
      obtain ⟨key, ref⟩ := entry
      simp only [runTask]
      cases hget : s.bundles[ref]? with
      | none => exact h
      | some b =>
        simp only [Option.elim_some]
        split
        · exact h.put ⟨b, hget, List.length_map _, List.length_map _⟩
        · exact ((h.log _).pop key).put trivial
  | refreshing ref orders results todo =>
    obtain ⟨b, hget, horders, hresults⟩ := h.tasks _ htask
    let b' := { b with
      slices := buildSlices lower orders
        (PendingFillBundle.refreshResults a.refresh orders results) }
    have hlen : b'.slices.length = b.slices.length := length_refreshed a.refresh horders hresults
    have hheap : HeapOk ((s.log (observe ref b')).alter ref b') :=
      (h.log _).alter hget hlen (le_refl _) (List.subset_append_right _ _)
    simp only [runTask, hget, Option.elim_some]
    exact hheap.put trivial
  | authorizing ref todo =>
    simp only [runTask]
    cases hget : s.bundles[ref]? with
    | none => exact h
    | some b => exact heapOk_settle h t todo hget
  | cancelling ref todo =>
    simp only [runTask]
    cases hget : s.bundles[ref]? with
    | none => exact h
    | some b => exact ((h.log _).pop _).put trivial
  | done => exact h

theorem heapOk_step (h : HeapOk s) (mv : Move) : HeapOk (step lower upper s mv) := by
  cases mv with
  | submit sub results residualQty =>
    simp only [step]
    split
    · exact h
    · exact h.spawn trivial
  | advance => exact h.spawn trivial
  | run t a =>
    simp only [step]
    cases htask : s.tasks[t]? with
    | none => exact h
    | some task => exact heapOk_runTask h (List.mem_of_getElem? htask) a

theorem GrowsFor.same (ref : Nat) (hhistory : s'.history = s.history) : GrowsFor ref s s' :=
  ⟨[], by rw [hhistory, List.append_nil], fun _ hev => absurd hev List.not_mem_nil⟩

theorem OwesFor.same (key : String) (ref : Nat) (howed : s'.owed = s.owed) :
    OwesFor key ref s s' :=
  ⟨[], by rw [howed, List.append_nil], fun _ hp => absurd hp List.not_mem_nil⟩

theorem OwesFor.due {key : String} {ref : Nat} {b : PendingFillBundle}
    (howed : s'.owed = s.owed ++ dueSlices key ref b) : OwesFor key ref s s' :=
  ⟨_, howed, fun _ hp => ⟨(mem_dueSlices hp).1, (mem_dueSlices hp).2.1⟩⟩

theorem effect_finish (h : HeapOk s) (t : Nat) (sub : Submission) (refreshed : List OrderResult)
    (hwrite : writeOf? lower upper s mv =
      some (bundleKey upper sub.strategyId sub.symbol, s.bundles.length)) :
    Effect lower upper s mv ((finishSubmission lower upper s sub refreshed).put t .done) := by
  let b := bundleFromSubmission lower upper sub.strategyId sub.symbol sub.orders refreshed
    sub.positionsBefore
  have hheap : HeapOk ((finishSubmission lower upper s sub refreshed).put t .done) :=
    (heapOk_finish h sub refreshed).put trivial
  have hget : (s.bundles ++ [b])[s.bundles.length]? = some b := List.getElem?_concat_length
  by_cases hneeds : (sub.ioc || b.needsTracking lower) = true
  · rw [finishSubmission, if_pos hneeds]
    exact .stored _ _ hwrite rfl (.due rfl) ⟨_, rfl, fun ev hev _ _ => releases_observe ev hev⟩
  · have hdone : b.needsTracking lower = false := by
      rw [Bool.not_eq_true, Bool.or_eq_false_iff] at hneeds
      exact hneeds.2
    rw [finishSubmission, if_neg hneeds] at hheap ⊢
    exact .popped _ _ hwrite rfl (.due rfl) ⟨_, rfl, fun ev hev _ _ => releases_observe ev hev⟩
      (hheap.released hget hdone)

theorem effect_settle (h : HeapOk s) (t : Nat) {ref : Nat} (todo : List (String × Nat))
    {b : PendingFillBundle} (hget : s.bundles[ref]? = some b)
    (hwrite : writeOf? lower upper s mv =
      if b.needsTracking lower ∧ incompleteCycleCancelThreshold ≤ b.unresolvedCycles + 1 then none
      else some (bundleKey upper b.strategyId b.symbol, ref)) :
    Effect lower upper s mv (settleBundle lower upper s t ref todo b) := by
  unfold settleBundle
  by_cases hneeds : b.needsTracking lower = true
  · by_cases hcycles : incompleteCycleCancelThreshold ≤ b.unresolvedCycles + 1
    · rw [if_pos ⟨hneeds, hcycles⟩] at hwrite
      rw [if_pos hneeds, if_pos hcycles]
      exact .quiet hwrite rfl rfl (List.Subset.refl _)
    · rw [if_neg fun hboth => hcycles hboth.2] at hwrite
      rw [if_pos hneeds, if_neg hcycles]
      exact .stored _ _ hwrite rfl (.due rfl) (.same ref rfl)
  · rw [if_neg fun hboth => hneeds hboth.1] at hwrite
    rw [if_neg hneeds]
    have hdone : b.needsTracking lower = false := Bool.not_eq_true _ ▸ hneeds
    exact .popped _ _ hwrite rfl (.same _ _ rfl) (.same ref rfl) (h.released hget hdone)

/-- What a coroutine does to the map when it is resumed. -/
theorem effect_run (h : HeapOk s) {t : Nat} {task : Task} (htask : s.tasks[t]? = some task)
    (a : Answers) : Effect lower upper s (.run t a) (runTask lower upper s t task a) := by
  have hok := h.tasks task (List.mem_of_getElem? htask)
  cases task with
  | bursting sub =>
    exact .quiet (by simp only [writeOf?, htask]) rfl rfl (List.Subset.refl _)
  | applying sub refreshed =>
    exact effect_finish h t sub refreshed (by simp only [writeOf?, htask])
  | advancing todo =>
    cases todo with
    | nil => exact .quiet (by simp only [writeOf?, htask]) rfl rfl (List.Subset.refl _)
    | cons entry todo =>
      obtain ⟨key, ref⟩ := entry
      simp only [runTask]
      cases hget : s.bundles[ref]? with
      | none =>
        exact .quiet (by simp [writeOf?, htask, hget]) rfl rfl (List.Subset.refl _)
      | some b =>
        simp only [Option.elim_some]
        cases hleg : a.legPresent with
        | true => exact .quiet (by simp [writeOf?, htask, hleg]) rfl rfl (List.Subset.refl _)
        | false =>
          have hwrite : writeOf? lower upper s (.run t a) = some (key, ref) := by
            simp [writeOf?, htask, hget, hleg]
          refine .popped key ref hwrite rfl (.same key ref rfl) ⟨_, rfl, ?_⟩ ?_
          · intro ev hev e i hrel
            rw [List.mem_singleton.mp hev] at hrel
            exact hrel.symm
          · rintro p hp rfl
            exact ⟨_, List.mem_append_right _ List.mem_cons_self, rfl⟩
  | refreshing ref orders results todo =>
    obtain ⟨b, hget, -, -⟩ := hok
    simp only [runTask, hget, Option.elim_some]
    exact .quiet (by simp only [writeOf?, htask]) rfl rfl (List.subset_append_left _ _)
  | authorizing ref todo =>
    simp only [runTask]
    cases hget : s.bundles[ref]? with
    | none => exact .quiet (by simp [writeOf?, htask, hget]) rfl rfl (List.Subset.refl _)
    | some b => exact effect_settle h t todo hget (by simp only [writeOf?, htask, hget, Option.bind_some])
  | cancelling ref todo =>
    obtain ⟨b, hget, hcycles⟩ := hok
    have hwrite : writeOf? lower upper s (.run t a) =
        some (bundleKey upper b.strategyId b.symbol, ref) := by
      simp [writeOf?, htask, hget]
    simp only [runTask, hget, Option.elim_some]
    refine .popped _ ref hwrite rfl (.same _ ref rfl) ⟨_, rfl, ?_⟩ ?_
    · intro ev hev e i hrel
      rw [List.mem_singleton.mp hev] at hrel
      exact hrel.1.symm
    · rintro p hp rfl
      exact ⟨_, List.mem_append_right _ List.mem_cons_self, rfl, hcycles⟩
  | done => exact .quiet (by simp only [writeOf?, htask]) rfl rfl (List.Subset.refl _)

theorem effect_step (h : HeapOk s) (mv : Move) :
    Effect lower upper s mv (step lower upper s mv) := by
  cases mv with
  | submit sub results residualQty =>
    simp only [step]
    split
    · exact .quiet rfl rfl rfl (List.Subset.refl _)
    · exact .quiet rfl rfl rfl (List.Subset.refl _)
  | advance => exact .quiet rfl rfl rfl (List.Subset.refl _)
  | run t a =>
    simp only [step]
    cases htask : s.tasks[t]? with
    | none => exact .quiet (by simp only [writeOf?, htask]) rfl rfl (List.Subset.refl _)
    | some task => exact effect_run h htask a

end Steps

theorem heapOk_init : HeapOk {} where
  seen := fun _ _ hb => absurd hb (by simp)
  sized := fun _ hp => absurd hp List.not_mem_nil
  tasks := fun _ htask => absurd htask List.not_mem_nil

/-- **No slice is lost** in a run of submissions and advances, interleaved at will,
exactly when no store or pop ever meets a live slice of another bundle. -/
theorem unresolved_tracked_iff (lower upper : String → String) (moves : List Move) :
    Along (step lower upper) (fun s mv => Tracked (step lower upper s mv)) {} moves ↔
      Along (step lower upper) (WritesFree lower upper) {} moves := by
  have hstart : Tracked {} := fun _ hp => absurd hp List.not_mem_nil
  exact along_next_iff (fun _ mv h => heapOk_step h mv)
    (fun _ mv h ht => tracked_effect ht (effect_step h mv)) moves heapOk_init hstart

def buyOf (qty : ℚ) : Submission where
  ioc := false
  strategyId := "leg"
  symbol := "QQQ"
  orders := [{ symbol := "QQQ", side := .buy, qty := qty, strategyId := "leg" }]

def fillOf (qty : ℚ) (status : String) : OrderResult :=
  { symbol := "QQQ", side := .buy, qty := qty, filledPrice := 100, filledAt := "t0"
    orderId := some "o", status := status }

/-- Four of ten are filled, and the leg's bundle waits for the other six; the next
submission, all filled, pops it. -/
def secondSubmission : List Move :=
  [.submit (buyOf 10) [fillOf 4 "partially_filled"] 0,
    .run 0 { refreshed := [fillOf 4 "partially_filled"] }, .run 0 {},
    .submit (buyOf 5) [fillOf 5 "filled"] 0, .run 1 { refreshed := [fillOf 5 "filled"] }, .run 1 {}]

theorem second_submission_drops :
    ¬ Along (step id id) (fun s mv => Tracked (step id id s mv)) {} secondSubmission := by
  decide +kernel

end TradingPlatform.Engine.BrokerFillSieve.Interleaving
