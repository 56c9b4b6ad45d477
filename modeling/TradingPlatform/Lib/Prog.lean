import Mathlib.Data.List.Basic

/-! # Programs that issue calls

A program is a tree of calls and continuations: it performs one atomic call at
a time and goes on from the answer. What a call does to the shared state, and
what it answers, is a parameter that also reads one input of the environment
(which fault strikes it). `exec` runs a program alone, consuming one input a
call; `AllCalls` bounds the calls a program can ever make. -/

namespace TradingPlatform.Lib

/-- A program over calls `Call` answered in `Resp`, returning an `α`. -/
inductive Prog (Call : Type) (Resp : Call → Type) (α : Type) : Type
  | ret (a : α)
  | call (c : Call) (k : Resp c → Prog Call Resp α)

namespace Prog

variable {Call : Type} {Resp : Call → Type} {α β σ ι : Type}

def bind : Prog Call Resp α → (α → Prog Call Resp β) → Prog Call Resp β
  | .ret a, f => f a
  | .call c k, f => .call c fun r => (k r).bind f

instance : Monad (Prog Call Resp) where
  pure := .ret
  bind := bind

/-- One call and nothing else. -/
def perform (c : Call) : Prog Call Resp (Resp c) := .call c .ret

@[simp] theorem pure_eq (a : α) : (pure a : Prog Call Resp α) = .ret a := rfl

@[simp] theorem ret_bind (a : α) (f : α → Prog Call Resp β) : (.ret a >>= f) = f a := rfl

@[simp] theorem call_bind (c : Call) (k : Resp c → Prog Call Resp α)
    (f : α → Prog Call Resp β) : (.call c k >>= f) = .call c fun r => k r >>= f := rfl

@[simp] theorem perform_bind (c : Call) (f : Resp c → Prog Call Resp β) :
    (perform c >>= f) = .call c f := rfl

@[simp] theorem map_eq (f : α → β) (p : Prog Call Resp α) :
    (f <$> p) = p >>= fun a => .ret (f a) := rfl

section Exec

variable [Inhabited ι] (answer : ι → (c : Call) → σ → Resp c × σ)

/-- Run a program alone. Each call consumes one input; when they run out, the
default input serves. The inputs left over are returned. -/
def exec : List ι → Prog Call Resp α → σ → α × σ × List ι
  | is, .ret a, s => (a, s, is)
  | is, .call c k, s =>
    exec is.tail (k (answer (is.headD default) c s).1) (answer (is.headD default) c s).2

@[simp] theorem exec_ret (is : List ι) (a : α) (s : σ) :
    exec answer is (.ret a : Prog Call Resp α) s = (a, s, is) := rfl

@[simp] theorem exec_call (is : List ι) (c : Call) (k : Resp c → Prog Call Resp α) (s : σ) :
    exec answer is (.call c k) s =
      exec answer is.tail (k (answer (is.headD default) c s).1)
        (answer (is.headD default) c s).2 := rfl

theorem exec_bind (f : α → Prog Call Resp β) :
    ∀ (p : Prog Call Resp α) (is : List ι) (s : σ),
      exec answer is (p >>= f) s =
        exec answer (exec answer is p s).2.2 (f (exec answer is p s).1)
          (exec answer is p s).2.1
  | .ret _, _, _ => rfl
  | .call _ k, _, _ => exec_bind f (k _) _ _

theorem exec_map (f : α → β) (p : Prog Call Resp α) (is : List ι) (s : σ) :
    exec answer is (f <$> p) s = (f (exec answer is p s).1, (exec answer is p s).2) := by
  rw [map_eq, exec_bind]
  rfl

end Exec

/-- Every call the program can make, whatever it is answered, is in `P`. -/
def AllCalls (P : Call → Prop) : Prog Call Resp α → Prop
  | .ret _ => True
  | .call c k => P c ∧ ∀ r, AllCalls P (k r)

@[simp] theorem allCalls_ret (P : Call → Prop) (a : α) :
    AllCalls P (.ret a : Prog Call Resp α) := trivial

@[simp] theorem allCalls_call (P : Call → Prop) (c : Call) (k : Resp c → Prog Call Resp α) :
    AllCalls P (.call c k) ↔ P c ∧ ∀ r, AllCalls P (k r) := Iff.rfl

theorem AllCalls.bind {P : Call → Prop} {f : α → Prog Call Resp β} :
    ∀ {p : Prog Call Resp α}, AllCalls P p → (∀ a, AllCalls P (f a)) → AllCalls P (p >>= f)
  | .ret a, _, hf => hf a
  | .call _ _, ⟨hc, hk⟩, hf => ⟨hc, fun r => (hk r).bind hf⟩

theorem AllCalls.mono {P Q : Call → Prop} (h : ∀ c, P c → Q c) :
    ∀ {p : Prog Call Resp α}, AllCalls P p → AllCalls Q p
  | .ret _, _ => trivial
  | .call c _, ⟨hc, hk⟩ => ⟨h c hc, fun r => (hk r).mono h⟩

/-- An invariant that every call in `P` keeps survives a program of such calls. -/
theorem AllCalls.exec_keeps [Inhabited ι] (answer : ι → (c : Call) → σ → Resp c × σ)
    {P : Call → Prop} {I : σ → Prop}
    (hcall : ∀ i c s, P c → I s → I (answer i c s).2) :
    ∀ {p : Prog Call Resp α}, AllCalls P p → ∀ (is : List ι) (s : σ), I s →
      I (Prog.exec answer is p s).2.1
  | .ret _, _, _, _, hi => hi
  | .call c _, ⟨hc, hk⟩, is, s, hi =>
    (hk _).exec_keeps answer hcall _ _ (hcall (is.headD default) c s hc hi)

/-! ## What a program ensures -/

section Ensures
variable (answer : ι → (c : Call) → σ → Resp c × σ)

/-- Whatever the inputs, the program ends in `Q`. -/
def Ensures (Q : α → σ → Prop) : Prog Call Resp α → σ → Prop
  | .ret a, s => Q a s
  | .call c k, s => ∀ i, Ensures Q (k (answer i c s).1) (answer i c s).2

@[simp] theorem ensures_ret (Q : α → σ → Prop) (a : α) (s : σ) :
    Ensures answer Q (.ret a : Prog Call Resp α) s ↔ Q a s := Iff.rfl

@[simp] theorem ensures_call (Q : α → σ → Prop) (c : Call) (k : Resp c → Prog Call Resp α) (s : σ) :
    Ensures answer Q (.call c k) s ↔
      ∀ i, Ensures answer Q (k (answer i c s).1) (answer i c s).2 := Iff.rfl

variable {answer}

theorem Ensures.mono {P Q : α → σ → Prop} (h : ∀ a s, P a s → Q a s) :
    ∀ {p : Prog Call Resp α} {s : σ}, Ensures answer P p s → Ensures answer Q p s
  | .ret a, s, hp => h a s hp
  | .call _ _, _, hp => fun i => (hp i).mono h

theorem Ensures.bind {P : α → σ → Prop} {Q : β → σ → Prop} {f : α → Prog Call Resp β}
    (hf : ∀ a s, P a s → Ensures answer Q (f a) s) :
    ∀ {p : Prog Call Resp α} {s : σ}, Ensures answer P p s → Ensures answer Q (p >>= f) s
  | .ret a, s, hp => hf a s hp
  | .call _ _, _, hp => fun i => (hp i).bind hf

theorem Ensures.exec [Inhabited ι] {Q : α → σ → Prop} :
    ∀ {p : Prog Call Resp α} {s : σ}, Ensures answer Q p s → ∀ is : List ι,
      Q (Prog.exec answer is p s).1 (Prog.exec answer is p s).2.1
  | .ret _, _, hp, _ => hp
  | .call _ _, _, hp, is => (hp (is.headD default)).exec is.tail

end Ensures

end Prog

end TradingPlatform.Lib
