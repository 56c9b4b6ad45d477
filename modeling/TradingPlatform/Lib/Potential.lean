import Mathlib.Data.List.Count
import TradingPlatform.Lib.Runs

/-! # Potentials along runs

Some events of a run are good. A potential that no step lowers by more than
its good events bounds from below how many good events a run has seen. A
potential that every good event lowers, and no event raises, bounds from above
how many good events a run can see before it reaches its goal. -/

namespace TradingPlatform.Lib.Potential

open TradingPlatform.Lib.Runs

variable {σ ε : Type*} {step : σ → ε → σ} {pot : σ → Nat} {good : ε → Bool}

/-- What the potential has fallen by was paid for by good events. -/
theorem spent_le {I : σ → Prop} {C : ε → Prop} (hkeep : ∀ s e, I s → C e → I (step s e))
    (hstep : ∀ s e, I s → C e → pot s ≤ pot (step s e) + (good e).toNat) :
    ∀ (es : List ε) {s : σ}, I s → (∀ e ∈ es, C e) →
      pot s ≤ pot (run step s es) + es.countP good
  | [], _, _, _ => Nat.le_add_right _ _
  | e :: es, s, hi, hC => by
    have hhead := hstep s e hi (hC e List.mem_cons_self)
    have htail := spent_le hkeep hstep es (hkeep s e hi (hC e List.mem_cons_self))
      fun e' he' => hC e' (List.mem_cons_of_mem e he')
    have hcount : (e :: es).countP good = es.countP good + (good e).toNat := by
      rw [List.countP_cons]
      cases good e <;> rfl
    rw [run_cons, hcount]
    omega

/-- Enough good events take the run to its goal. -/
theorem reaches_goal {J : σ → Prop} {C : ε → Prop} {G : σ → Prop}
    (hpos : ∀ s, J s → 0 < pot s)
    (hstep : ∀ s e, J s → C e →
      G (step s e) ∨ (J (step s e) ∧ pot (step s e) + (good e).toNat ≤ pot s)) :
    ∀ (es : List ε) {s : σ}, J s → (∀ e ∈ es, C e) → pot s ≤ es.countP good →
      ∃ pre, pre <+: es ∧ G (run step s pre)
  | [], s, hj, _, hpot => absurd (hpos s hj) (by simpa using hpot)
  | e :: es, s, hj, hC, hpot => by
    rcases hstep s e hj (hC e List.mem_cons_self) with hgoal | ⟨hj', hfall⟩
    · exact ⟨[e], ⟨es, rfl⟩, hgoal⟩
    · have hcount : (e :: es).countP good = es.countP good + (good e).toNat := by
        rw [List.countP_cons]
        cases good e <;> rfl
      obtain ⟨pre, ⟨rest, hpre⟩, hgoal⟩ := reaches_goal hpos hstep es hj'
        (fun e' he' => hC e' (List.mem_cons_of_mem e he')) (by omega)
      exact ⟨e :: pre, ⟨rest, congrArg (e :: ·) hpre⟩, hgoal⟩

end TradingPlatform.Lib.Potential
