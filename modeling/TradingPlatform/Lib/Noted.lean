import TradingPlatform.Lib.Interleave

/-! # Programs that take notes

Notes are taken of the answers a program gets, and each call carries the notes
taken before it. `NotesHold` is the weakest precondition over such runs: what it
bounds are the calls with their notes, and the value returned with the last. -/

namespace TradingPlatform.Lib.Prog

variable {Call : Type} {Resp : Call → Type} {α β Γ : Type}
  (note : Γ → (c : Call) → Resp c → Γ)

/-- The program whose calls carry the notes. -/
def noted : Γ → Prog Call Resp α → Prog (Γ × Call) (fun c => Resp c.2) α
  | _, .ret a => .ret a
  | g, .call c k => .call (g, c) fun r => noted (note g c r) (k r)

/-- Every call is in `P` with the notes it carries, and every value returned in `Q`. -/
def NotesHold (P : Γ → Call → Prop) (Q : Γ → α → Prop) : Γ → Prog Call Resp α → Prop
  | g, .ret a => Q g a
  | g, .call c k => P g c ∧ ∀ r, NotesHold P Q (note g c r) (k r)

variable {note} {P : Γ → Call → Prop}

theorem NotesHold.bind {Q : Γ → α → Prop} {R : Γ → β → Prop} {f : α → Prog Call Resp β} :
    ∀ {p : Prog Call Resp α} {g : Γ}, NotesHold note P Q g p →
      (∀ g a, Q g a → NotesHold note P R g (f a)) → NotesHold note P R g (p >>= f)
  | .ret a, g, h, hf => hf g a h
  | .call _ _, _, ⟨hc, hk⟩, hf => ⟨hc, fun r => (hk r).bind hf⟩

theorem NotesHold.mono {Q R : Γ → α → Prop} (h : ∀ g a, Q g a → R g a) :
    ∀ {p : Prog Call Resp α} {g : Γ}, NotesHold note P Q g p → NotesHold note P R g p
  | .ret a, g, hq => h g a hq
  | .call _ _, _, ⟨hc, hk⟩ => ⟨hc, fun r => (hk r).mono h⟩

/-- The calls of the noted program are those bounded. -/
theorem NotesHold.allCalls {Q : Γ → α → Prop} :
    ∀ {p : Prog Call Resp α} {g : Γ}, NotesHold note P Q g p →
      AllCalls (fun c : Γ × Call => P c.1 c.2) (noted note g p)
  | .ret _, _, _ => trivial
  | .call _ _, _, ⟨hc, hk⟩ => ⟨hc, fun r => (hk r).allCalls⟩

end TradingPlatform.Lib.Prog

namespace TradingPlatform.Lib.Interleave

variable {Op Call : Type} {Resp : Call → Type} {α σ ι : Type}
  {prog : Op → Prog Call Resp α} {answer : ι → (c : Call) → σ → Resp c × σ}

/-- Threads whose calls are all in `P` make, move after move, calls in `P` only. -/
theorem move_allCalls {P : Call → Prop} (hstart : ∀ op, (prog op).AllCalls P)
    {cfg : Config σ Op Call Resp α} (h : ∀ th ∈ cfg.threads, th.rest.AllCalls P)
    (mv : Move Op ι) : ∀ th ∈ (move prog answer cfg mv).threads, th.rest.AllCalls P :=
  move_threads (T := fun _ p => p.AllCalls P) prog answer hstart
    (fun _ _ _ r hcall => hcall.2 r) h mv

theorem nextCall_mem_allCalls {P : Call → Prop} {cfg : Config σ Op Call Resp α}
    (h : ∀ th ∈ cfg.threads, th.rest.AllCalls P) {mv : Move Op ι} {x : ι × Call}
    (hx : nextCall cfg mv = some x) : P x.2 := by
  cases mv with
  | spawn op => cases hx
  | step t i =>
    dsimp only [nextCall] at hx
    cases ht : cfg.threads[t]? with
    | none =>
      rw [ht] at hx
      cases hx
    | some th =>
      obtain ⟨op, rest⟩ := th
      have hrest := h _ (List.mem_of_getElem? ht)
      rw [ht] at hx
      cases rest with
      | ret a => cases hx
      | call c k =>
        cases hx
        exact hrest.1

end TradingPlatform.Lib.Interleave
