import TradingPlatform.Lib.Prog
import TradingPlatform.Lib.Runs

/-! # Interleaved programs over one shared state

Any number of threads, each running a program, take turns at single calls; a
scheduler chooses the thread and the environment's input. A thread that dies
is one the scheduler never picks again. Every move is recorded: a call is
logged with its answer and, when it was the thread's last, with the value the
program returned. -/

namespace TradingPlatform.Lib.Interleave

open Runs

variable {Op Call : Type} {Resp : Call → Type} {α σ ι : Type}

structure Thread (Op Call : Type) (Resp : Call → Type) (α : Type) where
  op : Op
  rest : Prog Call Resp α

inductive Move (Op ι : Type)
  | spawn (op : Op)
  | step (t : Nat) (i : ι)

inductive Event (Op Call : Type) (Resp : Call → Type) (α : Type)
  | spawned (op : Op)
  | called (op : Op) (c : Call) (r : Resp c) (returned : Option α)
  | idle

/-- The value of a program that has nothing left to call. -/
def result? : Prog Call Resp α → Option α
  | .ret a => some a
  | .call _ _ => none

@[simp] theorem result?_ret (a : α) : result? (.ret a : Prog Call Resp α) = some a := rfl

@[simp] theorem result?_call (c : Call) (k : Resp c → Prog Call Resp α) :
    result? (.call c k) = none := rfl

structure Config (σ Op Call : Type) (Resp : Call → Type) (α : Type) where
  shared : σ
  threads : List (Thread Op Call Resp α)
  log : List (Event Op Call Resp α)

def Config.init (s : σ) : Config σ Op Call Resp α := ⟨s, [], []⟩

variable (prog : Op → Prog Call Resp α) (answer : ι → (c : Call) → σ → Resp c × σ)

/-- One move of the scheduler. -/
def move (cfg : Config σ Op Call Resp α) : Move Op ι → Config σ Op Call Resp α
  | .spawn op => ⟨cfg.shared, cfg.threads ++ [⟨op, prog op⟩], cfg.log ++ [.spawned op]⟩
  | .step t i =>
    match cfg.threads[t]? with
    | some ⟨op, .call c k⟩ =>
      ⟨(answer i c cfg.shared).2, cfg.threads.set t ⟨op, k (answer i c cfg.shared).1⟩,
        cfg.log ++ [.called op c (answer i c cfg.shared).1 (result? (k (answer i c cfg.shared).1))]⟩
    | _ => ⟨cfg.shared, cfg.threads, cfg.log ++ [.idle]⟩

/-- The call a move is about to perform, with the environment's input to it. -/
def nextCall (cfg : Config σ Op Call Resp α) : Move Op ι → Option (ι × Call)
  | .spawn _ => none
  | .step t i =>
    match cfg.threads[t]? with
    | some ⟨_, .call c _⟩ => some (i, c)
    | _ => none

/-- `P` holds of the call a move performs, at the state it is performed in. -/
def OnCall (P : ι → Call → σ → Prop) (cfg : Config σ Op Call Resp α) (mv : Move Op ι) : Prop :=
  ∀ x ∈ nextCall cfg mv, P x.1 x.2 cfg.shared

instance (P : ι → Call → σ → Prop) [∀ i c s, Decidable (P i c s)]
    (cfg : Config σ Op Call Resp α) (mv : Move Op ι) : Decidable (OnCall P cfg mv) :=
  inferInstanceAs (Decidable (∀ x ∈ nextCall cfg mv, P x.1 x.2 cfg.shared))

/-- What one move can do: start a thread, perform one call of one thread, or
nothing but log that it was idle. -/
theorem move_cases (cfg : Config σ Op Call Resp α) (mv : Move Op ι) :
    (∃ op, mv = .spawn op ∧ move prog answer cfg mv =
      ⟨cfg.shared, cfg.threads ++ [⟨op, prog op⟩], cfg.log ++ [.spawned op]⟩) ∨
    (∃ t i op c k, mv = .step t i ∧ cfg.threads[t]? = some ⟨op, .call c k⟩ ∧
      move prog answer cfg mv = ⟨(answer i c cfg.shared).2,
        cfg.threads.set t ⟨op, k (answer i c cfg.shared).1⟩,
        cfg.log ++ [.called op c (answer i c cfg.shared).1
          (result? (k (answer i c cfg.shared).1))]⟩) ∨
    move prog answer cfg mv = ⟨cfg.shared, cfg.threads, cfg.log ++ [.idle]⟩ := by
  cases mv with
  | spawn op => exact .inl ⟨op, rfl, rfl⟩
  | step t i =>
    cases ht : cfg.threads[t]? with
    | none => exact .inr (.inr (by simp [move, ht]))
    | some th =>
      obtain ⟨op, rest⟩ := th
      cases rest with
      | ret a => exact .inr (.inr (by simp [move, ht]))
      | call c k => exact .inr (.inl ⟨t, i, op, c, k, rfl, ht, by simp [move, ht]⟩)

/-- A scheduled thread performs the call it is at, or there is none. -/
theorem step_cases (cfg : Config σ Op Call Resp α) (t : Nat) (i : ι) :
    (nextCall cfg (.step t i) = none ∧
      move prog answer cfg (.step t i) = ⟨cfg.shared, cfg.threads, cfg.log ++ [.idle]⟩) ∨
    ∃ op c k, cfg.threads[t]? = some ⟨op, .call c k⟩ ∧ nextCall cfg (.step t i) = some (i, c) ∧
      move prog answer cfg (.step t i) = ⟨(answer i c cfg.shared).2,
        cfg.threads.set t ⟨op, k (answer i c cfg.shared).1⟩,
        cfg.log ++ [.called op c (answer i c cfg.shared).1
          (result? (k (answer i c cfg.shared).1))]⟩ := by
  cases ht : cfg.threads[t]? with
  | none => exact .inl ⟨by simp [nextCall, ht], by simp [move, ht]⟩
  | some th =>
    obtain ⟨op, rest⟩ := th
    cases rest with
    | ret a => exact .inl ⟨by simp [nextCall, ht], by simp [move, ht]⟩
    | call c k => exact .inr ⟨op, c, k, rfl, by simp [nextCall, ht], by simp [move, ht]⟩

/-- A thread is still there when another moves. -/
theorem mem_set_thread {ths : List (Thread Op Call Resp α)} {t : Nat}
    {old th : Thread Op Call Resp α} (hold : ths[t]? = some old) (hth : th ∈ ths)
    (new : Thread Op Call Resp α) : th = old ∨ th ∈ ths.set t new := by
  obtain ⟨n, hn⟩ := List.mem_iff_getElem?.mp hth
  by_cases hnt : t = n
  · subst hnt
    exact .inl (Option.some.inj (hn.symm.trans hold))
  · right
    refine List.mem_iff_getElem?.mpr ⟨n, ?_⟩
    rw [List.getElem?_set_ne hnt, hn]

theorem onCall_step {P : ι → Call → σ → Prop} {cfg : Config σ Op Call Resp α} {t : Nat} {i : ι}
    {op : Op} {c : Call} {k : Resp c → Prog Call Resp α}
    (ht : cfg.threads[t]? = some ⟨op, .call c k⟩) (h : OnCall P cfg (.step t i)) :
    P i c cfg.shared := by
  exact h (i, c) (by simp [nextCall, ht])

/-- Count of threads in a class, when one thread moves on. -/
theorem countP_set_thread {ths : List (Thread Op Call Resp α)} {t : Nat}
    {th : Thread Op Call Resp α} (p : Thread Op Call Resp α → Bool) (h : ths[t]? = some th)
    (new : Thread Op Call Resp α) :
    (ths.set t new).countP p + (p th).toNat = ths.countP p + (p new).toNat := by
  induction ths generalizing t with
  | nil => cases h
  | cons x rest ih =>
    cases t with
    | zero =>
      cases h
      simp only [List.set_cons_zero, List.countP_cons]
      cases p new <;> cases p th <;> simp
    | succ t =>
      have htail := ih h
      simp only [List.set_cons_succ, List.countP_cons]
      omega

/-- A property of programs that holds of every operation's program and of
whatever a call may be answered holds of every thread, move after move. -/
theorem move_threads {T : Op → Prog Call Resp α → Prop} (hstart : ∀ op, T op (prog op))
    (hcont : ∀ op c k r, T op (.call c k) → T op (k r)) {cfg : Config σ Op Call Resp α}
    (h : ∀ th ∈ cfg.threads, T th.op th.rest) (mv : Move Op ι) :
    ∀ th ∈ (move prog answer cfg mv).threads, T th.op th.rest := by
  rcases move_cases prog answer cfg mv with ⟨op, _, he⟩ | ⟨t, i, op, c, k, _, ht, he⟩ | he
  · intro th hth
    rw [he] at hth
    rcases List.mem_append.mp hth with hold | hnew
    · exact h th hold
    · rw [List.mem_singleton.mp hnew]
      exact hstart op
  · intro th hth
    rw [he] at hth
    rcases List.mem_or_eq_of_mem_set hth with hold | hnew
    · exact h th hold
    · rw [hnew]
      exact hcont op c k _ (h _ (List.mem_of_getElem? ht))
  · rw [he]
    exact h

/-! ## Relying on the other threads

`R` bounds what the calls of all threads can do to the shared state. A program
is safe at a state when each call it comes to meets `Pre`, however far the
state has moved along `R` since the call before. -/

section Rely
variable (R : σ → σ → Prop) (Pre : ι → (c : Call) → σ → Prop)

def Safe : Prog Call Resp α → σ → Prop
  | .ret _, _ => True
  | .call c k, s => ∀ s', R s s' → ∀ i,
      Pre i c s' ∧ Safe (k (answer i c s').1) (answer i c s').2

variable {R Pre answer}

theorem Safe.mono (htrans : ∀ a b c, R a b → R b c → R a c) {p : Prog Call Resp α} {s s' : σ}
    (h : Safe answer R Pre p s) (hs : R s s') : Safe answer R Pre p s' := by
  cases p with
  | ret a => trivial
  | call c k =>
    intro s'' hs'' i
    exact h s'' (htrans s s' s'' hs hs'') i

theorem Safe.next (hrefl : ∀ s, R s s) {c : Call} {k : Resp c → Prog Call Resp α} {s : σ}
    (h : Safe answer R Pre (.call c k) s) (i : ι) :
    Pre i c s ∧ Safe answer R Pre (k (answer i c s).1) (answer i c s).2 := h s (hrefl s) i

/-- Threads that start out safe stay safe, whoever moves. -/
theorem move_safe (hrefl : ∀ s, R s s) (htrans : ∀ a b c, R a b → R b c → R a c)
    (hanswer : ∀ i c s, R s (answer i c s).2)
    (hstart : ∀ op s, Safe answer R Pre (prog op) s) {cfg : Config σ Op Call Resp α}
    (h : ∀ th ∈ cfg.threads, Safe answer R Pre th.rest cfg.shared) (mv : Move Op ι) :
    ∀ th ∈ (move prog answer cfg mv).threads,
      Safe answer R Pre th.rest (move prog answer cfg mv).shared := by
  rcases move_cases prog answer cfg mv with ⟨op, _, he⟩ | ⟨t, i, op, c, k, _, ht, he⟩ | he
  · intro th hth
    rw [he] at hth ⊢
    rcases List.mem_append.mp hth with hold | hnew
    · exact h th hold
    · rw [List.mem_singleton.mp hnew]
      exact hstart op _
  · intro th hth
    rw [he] at hth ⊢
    rcases List.mem_or_eq_of_mem_set hth with hold | hnew
    · exact (h th hold).mono htrans (hanswer i c _)
    · rw [hnew]
      exact ((h _ (List.mem_of_getElem? ht)).next hrefl i).2
  · rw [he]
    exact h

end Rely

end TradingPlatform.Lib.Interleave
