import Mathlib.Init

/-! # Computations that raise

A computation runs over a state that survives a raise, as objects do. `Ends x s Q R`
is its weakest precondition at `s`: `Q` of what it returns, `R` of what it raises.
Each rule is an equivalence, so that what a program is found to need is exact. -/

namespace TradingPlatform.Lib

/-- A computation over the state `σ` that may raise an `ε`. -/
abbrev Raising (σ ε : Type) : Type → Type := ExceptT ε (StateM σ)

namespace Raising

variable {σ ε α β : Type}

def exec (x : Raising σ ε α) (s : σ) : Except ε α × σ := x.run.run s

/-- What the body raises goes to the handler, if it `catches` it. -/
def attempt (catches : ε → Bool) (body : Raising σ ε α) (handler : ε → Raising σ ε α) :
    Raising σ ε α :=
  ExceptT.mk fun s =>
    match body.exec s with
    | (.ok a, s') => (.ok a, s')
    | (.error e, s') => if catches e then (handler e).exec s' else (.error e, s')

/-- The body and, whatever came of it, the last steps. -/
def ensuring (body : Raising σ ε α) (last : Raising σ ε Unit) : Raising σ ε α :=
  ExceptT.mk fun s =>
    match body.exec s with
    | (result, s') =>
      match last.exec s' with
      | (.ok _, s'') => (result, s'')
      | (.error e, s'') => (.error e, s'')

/-- What becomes of the computation from the state `s`. -/
def Ends (x : Raising σ ε α) (s : σ) (Q : α → σ → Prop) (R : ε → σ → Prop) : Prop :=
  match x.exec s with
  | (.ok a, s') => Q a s'
  | (.error e, s') => R e s'

@[simp] theorem exec_ofExcept (result : Except ε α) (s : σ) :
    exec (MonadExcept.ofExcept result : Raising σ ε α) s = (result, s) := by
  cases result <;> rfl

theorem exec_bind (x : Raising σ ε α) (f : α → Raising σ ε β) (s : σ) :
    (x >>= f).exec s = match x.exec s with
      | (.ok a, s') => (f a).exec s'
      | (.error e, s') => (.error e, s') := by
  unfold exec
  rw [ExceptT.run_bind, StateT.run_bind]
  rcases x.run.run s with ⟨_ | _, _⟩ <;> rfl

/-- From `s` the computation comes to this result, in a state of which `K` holds. -/
def Yields (x : Raising σ ε α) (s : σ) (result : Except ε α) (K : σ → Prop) : Prop :=
  ∃ s', x.exec s = (result, s') ∧ K s'

theorem Yields.mono {x : Raising σ ε α} {s : σ} {result : Except ε α} {K L : σ → Prop}
    (h : x.Yields s result K) (hkl : ∀ s', K s' → L s') : x.Yields s result L := by
  obtain ⟨s', hexec, hk⟩ := h
  exact ⟨s', hexec, hkl s' hk⟩

theorem yields_ofExcept {result : Except ε α} {s : σ} {K : σ → Prop} (h : K s) :
    (MonadExcept.ofExcept result : Raising σ ε α).Yields s result K :=
  ⟨s, exec_ofExcept result s, h⟩

theorem yields_modify {f : σ → σ} {s : σ} {K : σ → Prop} (h : K (f s)) :
    (modify f : Raising σ ε PUnit).Yields s (.ok ⟨⟩) K :=
  ⟨f s, rfl, h⟩

/-- The rest of a block, once its first part returns. -/
theorem Yields.bind_ok {x : Raising σ ε α} {f : α → Raising σ ε β} {s : σ} {a : α}
    {result : Except ε β} {K L : σ → Prop} (h : x.Yields s (.ok a) K)
    (hf : ∀ s', K s' → (f a).Yields s' result L) : (x >>= f).Yields s result L := by
  obtain ⟨s', hexec, hk⟩ := h
  obtain ⟨s'', hexec', hl⟩ := hf s' hk
  refine ⟨s'', ?_, hl⟩
  rw [exec_bind, hexec]
  exact hexec'

theorem Yields.bind_error {x : Raising σ ε α} {f : α → Raising σ ε β} {s : σ} {e : ε}
    {K : σ → Prop} (h : x.Yields s (.error e) K) : (x >>= f).Yields s (.error e) K := by
  obtain ⟨s', hexec, hk⟩ := h
  exact ⟨s', by rw [exec_bind, hexec], hk⟩

section Rules
variable {s : σ} {Q : α → σ → Prop} {R : ε → σ → Prop}

/-- What is known of the last state settles what becomes of the computation. -/
theorem Yields.ends_ok {x : Raising σ ε α} {a : α} {K : σ → Prop} {P : Prop}
    (h : x.Yields s (.ok a) K) (hp : ∀ s', K s' → (Q a s' ↔ P)) : x.Ends s Q R ↔ P := by
  obtain ⟨s', hexec, hk⟩ := h
  unfold Ends
  rw [hexec]
  exact hp s' hk

theorem Yields.ends_error {x : Raising σ ε α} {e : ε} {K : σ → Prop} {P : Prop}
    (h : x.Yields s (.error e) K) (hp : ∀ s', K s' → (R e s' ↔ P)) : x.Ends s Q R ↔ P := by
  obtain ⟨s', hexec, hk⟩ := h
  unfold Ends
  rw [hexec]
  exact hp s' hk

@[simp] theorem ends_throw (e : ε) : Ends (throw e : Raising σ ε α) s Q R ↔ R e s := Iff.rfl

@[simp] theorem ends_get {Q : σ → σ → Prop} : Ends (get : Raising σ ε σ) s Q R ↔ Q s s := Iff.rfl

@[simp] theorem ends_modify (f : σ → σ) {Q : PUnit → σ → Prop} :
    Ends (modify f : Raising σ ε PUnit) s Q R ↔ Q ⟨⟩ (f s) := Iff.rfl

@[simp] theorem ends_bind {x : Raising σ ε α} {f : α → Raising σ ε β} {Q : β → σ → Prop} :
    (x >>= f).Ends s Q R ↔ x.Ends s (fun a s' => (f a).Ends s' Q R) R := by
  unfold Ends
  rw [exec_bind]
  rcases x.exec s with ⟨_ | _, _⟩ <;> rfl

@[simp] theorem ends_ofExcept (result : Except ε α) :
    Ends (MonadExcept.ofExcept result : Raising σ ε α) s Q R ↔
      match result with
      | .ok a => Q a s
      | .error e => R e s := by
  cases result <;> rfl

@[simp] theorem ends_attempt {catches : ε → Bool} {body : Raising σ ε α}
    {handler : ε → Raising σ ε α} :
    (attempt catches body handler).Ends s Q R ↔
      body.Ends s Q fun e s' => if catches e then (handler e).Ends s' Q R else R e s' := by
  have hattempt : (attempt catches body handler).exec s = match body.exec s with
      | (.ok a, s') => (.ok a, s')
      | (.error e, s') => if catches e then (handler e).exec s' else (.error e, s') := rfl
  unfold Ends
  rw [hattempt]
  rcases body.exec s with ⟨e | _, _⟩
  · cases h : catches e <;> simp [h]
  · rfl

@[simp] theorem ends_ensuring {body : Raising σ ε α} {last : Raising σ ε Unit} :
    (ensuring body last).Ends s Q R ↔
      body.Ends s (fun a s' => last.Ends s' (fun _ => Q a) R)
        fun e s' => last.Ends s' (fun _ => R e) R := by
  have hensuring : (ensuring body last).exec s = match body.exec s with
      | (result, s') => match last.exec s' with
        | (.ok _, s'') => (result, s'')
        | (.error e, s'') => (.error e, s'') := rfl
  unfold Ends
  rw [hensuring]
  rcases body.exec s with ⟨_ | _, s'⟩ <;> dsimp only <;>
    rcases last.exec s' with ⟨_ | _, _⟩ <;> rfl

end Rules

end Raising

end TradingPlatform.Lib
