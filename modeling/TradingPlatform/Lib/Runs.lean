import Mathlib.Data.List.Infix
import Mathlib.Data.List.Induction

/-! # Runs of a deterministic transition system

A run feeds a list of events to a step function. `Along P` says that every
step of the run meets `P` at the state it is taken in; it is how a guard on
steps, and a property of every state a run passes through, are both stated.
Invariants of runs come from one step lemma each (`run_invariant`). -/

namespace TradingPlatform.Lib.Runs

variable {σ ε : Type*} (step : σ → ε → σ)

/-- The state after a list of events. -/
def run (s : σ) (es : List ε) : σ := es.foldl step s

@[simp] theorem run_nil (s : σ) : run step s [] = s := rfl

@[simp] theorem run_cons (s : σ) (e : ε) (es : List ε) :
    run step s (e :: es) = run step (step s e) es := rfl

@[simp] theorem run_append (s : σ) (es fs : List ε) :
    run step s (es ++ fs) = run step (run step s es) fs := List.foldl_append ..

/-- Every step of the run from `s` meets `P` at the state it is taken in. -/
def Along (P : σ → ε → Prop) : σ → List ε → Prop
  | _, [] => True
  | s, e :: es => P s e ∧ Along P (step s e) es

instance Along.decidable (P : σ → ε → Prop) [∀ s e, Decidable (P s e)] :
    ∀ s es, Decidable (Along step P s es)
  | _, [] => inferInstanceAs (Decidable True)
  | s, e :: es =>
    have := Along.decidable P (step s e) es
    inferInstanceAs (Decidable (P s e ∧ Along step P (step s e) es))

variable {step}

theorem along_append {P : σ → ε → Prop} {s : σ} {es fs : List ε} :
    Along step P s (es ++ fs) ↔ Along step P s es ∧ Along step P (run step s es) fs := by
  induction es generalizing s with
  | nil => simp [Along]
  | cons e es ih => simp [Along, ih, and_assoc]

/-- An invariant that every guarded step keeps holds at the end of a run. -/
theorem run_invariant {P : σ → ε → Prop} {I : σ → Prop}
    (hstep : ∀ s e, I s → P s e → I (step s e)) :
    ∀ (es : List ε) {s : σ}, I s → Along step P s es → I (run step s es)
  | [], _, hi, _ => hi
  | e :: es, s, hi, ⟨he, hes⟩ => run_invariant hstep es (hstep s e hi he) hes

/-- The same without a guard. -/
theorem run_keeps {I : σ → Prop} (hstep : ∀ s e, I s → I (step s e)) {s : σ} (hi : I s)
    (es : List ε) : I (run step s es) := by
  induction es generalizing s with
  | nil => exact hi
  | cons e es ih => exact ih (hstep s e hi)

/-- Along a run whose steps meet `G`, two step properties that agree wherever the
invariant holds agree, also when the invariant survives only the steps that meet them. -/
theorem along_congr_while_of {G P Q : σ → ε → Prop} {I : σ → Prop}
    (hkeep : ∀ s e, I s → G s e → P s e → I (step s e))
    (h : ∀ s e, I s → G s e → (P s e ↔ Q s e)) :
    ∀ (es : List ε) {s : σ}, I s → Along step G s es → (Along step P s es ↔ Along step Q s es)
  | [], _, _, _ => Iff.rfl
  | e :: es, s, hi, ⟨hg, hgs⟩ => by
    have hhead := h s e hi hg
    constructor
    · intro h
      obtain ⟨hp, hes⟩ := h
      exact ⟨hhead.mp hp, (along_congr_while_of hkeep h es (hkeep s e hi hg hp) hgs).mp hes⟩
    · intro h
      obtain ⟨hq, hes⟩ := h
      have hp := hhead.mpr hq
      exact ⟨hp, (along_congr_while_of hkeep h es (hkeep s e hi hg hp) hgs).mpr hes⟩

/-- The same where every step keeps the invariant. -/
theorem along_congr_of {G P Q : σ → ε → Prop} {I : σ → Prop}
    (hkeep : ∀ s e, I s → G s e → I (step s e)) (h : ∀ s e, I s → G s e → (P s e ↔ Q s e))
    (es : List ε) {s : σ} (hi : I s) (hgs : Along step G s es) :
    Along step P s es ↔ Along step Q s es :=
  along_congr_while_of (fun s e hi hg _ => hkeep s e hi hg) h es hi hgs

theorem along_true (s : σ) (es : List ε) : Along step (fun _ _ => True) s es := by
  induction es generalizing s with
  | nil => trivial
  | cons e es ih => exact ⟨trivial, ih (step s e)⟩

theorem along_mono {P Q : σ → ε → Prop} (h : ∀ s e, P s e → Q s e) :
    ∀ {s : σ} {es : List ε}, Along step P s es → Along step Q s es
  | _, [], _ => trivial
  | s, e :: _, ⟨he, hes⟩ => ⟨h s e he, along_mono h hes⟩

theorem along_and {P Q : σ → ε → Prop} :
    ∀ {s : σ} {es : List ε}, Along step P s es → Along step Q s es →
      Along step (fun s e => P s e ∧ Q s e) s es
  | _, [], _, _ => trivial
  | _, _ :: _, ⟨hp, hps⟩, ⟨hq, hqs⟩ => ⟨⟨hp, hq⟩, along_and hps hqs⟩

theorem along_of_forall {C : ε → Prop} (s : σ) {es : List ε} (h : ∀ e ∈ es, C e) :
    Along step (fun _ e => C e) s es := by
  induction es generalizing s with
  | nil => trivial
  | cons e es ih =>
    exact ⟨h e List.mem_cons_self, ih (step s e) fun e' he' => h e' (List.mem_cons_of_mem _ he')⟩

variable (step) in
/-- A property of the events alone. -/
theorem along_forall_iff {C : ε → Prop} (s : σ) {es : List ε} :
    Along step (fun _ e => C e) s es ↔ ∀ e ∈ es, C e := by
  refine ⟨fun h => ?_, along_of_forall s⟩
  induction es generalizing s with
  | nil => simp
  | cons e es ih => exact List.forall_mem_cons.mpr ⟨h.1, ih (step s e) h.2⟩

/-- The same where every step is allowed. -/
theorem along_congr {P Q : σ → ε → Prop} {I : σ → Prop}
    (hkeep : ∀ s e, I s → I (step s e)) (h : ∀ s e, I s → (P s e ↔ Q s e)) (es : List ε) {s : σ}
    (hi : I s) : Along step P s es ↔ Along step Q s es :=
  along_congr_of (fun s e hi _ => hkeep s e hi) (fun s e hi _ => h s e hi) es hi
    (along_true s es)

/-- The same where every step is allowed. -/
theorem along_congr_while {P Q : σ → ε → Prop} {I : σ → Prop}
    (hkeep : ∀ s e, I s → P s e → I (step s e)) (h : ∀ s e, I s → (P s e ↔ Q s e)) (es : List ε)
    {s : σ} (hi : I s) : Along step P s es ↔ Along step Q s es :=
  along_congr_while_of (fun s e hi _ => hkeep s e hi) (fun s e hi _ => h s e hi) es hi
    (along_true s es)

/-- Along a run whose steps meet `G`, a property that one step keeps exactly
when it meets its guard holds all along exactly when the whole run meets the
guard. The invariant need only survive steps that meet both. -/
theorem along_next_iff_of {G P : σ → ε → Prop} {I Q : σ → Prop}
    (hkeep : ∀ s e, I s → G s e → P s e → I (step s e))
    (h : ∀ s e, I s → G s e → Q s → (Q (step s e) ↔ P s e)) :
    ∀ (es : List ε) {s : σ}, I s → Q s → Along step G s es →
      (Along step (fun s e => Q (step s e)) s es ↔ Along step P s es)
  | [], _, _, _, _ => Iff.rfl
  | e :: es, s, hi, hq, ⟨hg, hgs⟩ => by
    have hhead := h s e hi hg hq
    constructor
    · intro h
      obtain ⟨hq', hes⟩ := h
      have hp := hhead.mp hq'
      exact ⟨hp, (along_next_iff_of hkeep h es (hkeep s e hi hg hp) hq' hgs).mp hes⟩
    · intro h
      obtain ⟨hp, hes⟩ := h
      have hq' := hhead.mpr hp
      exact ⟨hq', (along_next_iff_of hkeep h es (hkeep s e hi hg hp) hq' hgs).mpr hes⟩

/-- The same where every step is allowed. -/
theorem along_next_iff {P : σ → ε → Prop} {I Q : σ → Prop}
    (hkeep : ∀ s e, I s → I (step s e)) (h : ∀ s e, I s → Q s → (Q (step s e) ↔ P s e))
    (es : List ε) {s : σ} (hi : I s) (hq : Q s) :
    Along step (fun s e => Q (step s e)) s es ↔ Along step P s es :=
  along_next_iff_of (fun s e hi _ _ => hkeep s e hi) (fun s e hi _ hq => h s e hi hq) es hi hq
    (along_true s es)

/-- A property that is lost for good holds all along exactly when it holds at the end. -/
theorem along_iff_end {G : σ → ε → Prop} {I Q : σ → Prop}
    (hkeep : ∀ s e, I s → G s e → I (step s e))
    (hlost : ∀ s e, I s → G s e → ¬ Q s → ¬ Q (step s e)) :
    ∀ (es : List ε) {s : σ}, I s → Q s → Along step G s es →
      (Along step (fun s e => Q (step s e)) s es ↔ Q (run step s es))
  | [], _, _, hq, _ => iff_of_true trivial hq
  | e :: es, s, hi, hq, ⟨hg, hgs⟩ => by
    have hi' := hkeep s e hi hg
    by_cases hq' : Q (step s e)
    · have ih := along_iff_end hkeep hlost es hi' hq' hgs
      exact ⟨fun h => ih.mp h.2, fun h => ⟨hq', ih.mpr h⟩⟩
    · have hend := run_invariant (P := G) (I := fun s => I s ∧ ¬ Q s)
        (fun s e hs he => ⟨hkeep s e hs.1 he, hlost s e hs.1 he hs.2⟩) es ⟨hi', hq'⟩ hgs
      exact iff_of_false (fun h => hq' h.1) hend.2

/-- Two machines fed the same events, related until one of two observations fails:
both observations fail at the same event, if at all. -/
theorem along_related {σ' : Type*} {step' : σ' → ε → σ'} {P : σ → Prop} {Q : σ' → Prop}
    {R : σ → σ' → Prop} {C : ε → Prop}
    (h : ∀ s t e, R s t → C e →
      (P (step s e) ∧ Q (step' t e) ∧ R (step s e) (step' t e)) ∨
        (¬ P (step s e) ∧ ¬ Q (step' t e))) :
    ∀ (es : List ε) {s : σ} {t : σ'}, R s t → (∀ e ∈ es, C e) →
      (Along step (fun s e => P (step s e)) s es ↔ Along step' (fun t e => Q (step' t e)) t es)
  | [], _, _, _, _ => Iff.rfl
  | e :: es, s, t, hr, hc => by
    rcases h s t e hr (hc e List.mem_cons_self) with ⟨hp, hq, hr'⟩ | ⟨hp, hq⟩
    · have ih := along_related h es hr' fun e' he' => hc e' (List.mem_cons_of_mem _ he')
      exact and_congr (iff_of_true hp hq) ih
    · exact iff_of_false (fun hal => hp hal.1) (fun hal => hq hal.1)

/-! ## What a run puts out -/

/-- The outputs of a machine whose steps put one out each. -/
def outputs {ω : Type*} (step : σ → ε → σ × ω) : σ → List ε → List ω
  | _, [] => []
  | s, e :: es => (step s e).2 :: outputs step (step s e).1 es

@[simp] theorem length_outputs {ω : Type*} (step : σ → ε → σ × ω) (s : σ) (es : List ε) :
    (outputs step s es).length = es.length := by
  induction es generalizing s with
  | nil => rfl
  | cons e es ih => simp [outputs, ih]

/-- What a step puts out, from the state that the steps before it lead to. -/
theorem getElem?_outputs {ω : Type*} (step : σ → ε → σ × ω) (s : σ) (es : List ε) (i : ℕ) :
    (outputs step s es)[i]? =
      es[i]?.map fun e => (step (run (fun s e => (step s e).1) s (es.take i)) e).2 := by
  induction es generalizing s i with
  | nil => simp [outputs]
  | cons e es ih =>
    cases i with
    | zero => simp [outputs]
    | succ i => simp [outputs, ih]

/-- A machine that stays where it is puts out the same all the time. -/
theorem outputs_of_stays {ω : Type*} {step : σ → ε → σ × ω} {s : σ} {o : ω} {es : List ε}
    (h : ∀ e ∈ es, step s e = (s, o)) : outputs step s es = List.replicate es.length o := by
  induction es with
  | nil => rfl
  | cons e es ih =>
    rw [outputs, h e List.mem_cons_self, ih fun e' he' => h e' (List.mem_cons_of_mem _ he')]
    rfl

/-- Two machines fed the same events put out the same while their states stay related. -/
theorem outputs_related {σ' ω : Type*} {step : σ → ε → σ × ω} {step' : σ' → ε → σ' × ω}
    {R : List ε → σ → σ' → Prop} {es : List ε}
    (h : ∀ pre e rest s t, es = pre ++ e :: rest → R pre s t →
      R (pre ++ [e]) (step s e).1 (step' t e).1 ∧ (step s e).2 = (step' t e).2)
    {s : σ} {t : σ'} (hstart : R [] s t) : outputs step s es = outputs step' t es := by
  have hgo : ∀ pre rest s t, es = pre ++ rest → R pre s t →
      outputs step s rest = outputs step' t rest := by
    intro pre rest
    induction rest generalizing pre with
    | nil => exact fun _ _ _ _ => rfl
    | cons e rest ih =>
      intro s t hsplit hr
      obtain ⟨hnext, hout⟩ := h pre e rest s t hsplit hr
      rw [outputs, outputs, hout, ih (pre ++ [e]) _ _ (by simpa using hsplit) hnext]
  exact hgo [] es s t rfl hstart

/-! ## What a run has seen -/

/-- What one more event adds to what the events give. -/
theorem filterMap_concat {β : Type*} (f : ε → Option β) (es : List ε) (e : ε) :
    (es ++ [e]).filterMap f = es.filterMap f ++ (f e).toList := by
  rw [List.filterMap_append]
  cases hf : f e <;> simp [hf]

/-- A part of the state that is a function of what the events give, if each step
keeps it one. -/
theorem run_gives {β γ : Type*} (get : σ → γ) (f : ε → Option β) (of : List β → γ) {s : σ}
    (hstart : get s = of [])
    (hstep : ∀ t e bs, get t = of bs → get (step t e) = of (bs ++ (f e).toList)) (es : List ε) :
    get (run step s es) = of (es.filterMap f) := by
  induction es using List.reverseRecOn with
  | nil => exact hstart
  | append_singleton es e ih =>
    rw [run_append, run_cons, run_nil, filterMap_concat]
    exact hstep _ e _ ih

/-! ## Looking back -/

variable (step) in
/-- The states a run has passed through, the latest first. -/
def trail (s : σ) (es : List ε) : List σ := (es.inits.map (run step s)).reverse

variable (step) in
/-- The latest states of a run, back to the last one that fails `p`. -/
def episode (p : σ → Bool) (s : σ) (es : List ε) : List σ := (trail step s es).takeWhile p

theorem trail_concat (s : σ) (es : List ε) (e : ε) :
    trail step s (es ++ [e]) = run step s (es ++ [e]) :: trail step s es := by
  simp [trail, List.inits_append]

theorem episode_concat_of_pos {p : σ → Bool} {s : σ} {es : List ε} {e : ε}
    (h : p (run step s (es ++ [e])) = true) :
    episode step p s (es ++ [e]) = run step s (es ++ [e]) :: episode step p s es := by
  rw [episode, trail_concat, List.takeWhile_cons_of_pos h, episode]

theorem episode_of_neg {p : σ → Bool} {s : σ} (es : List ε)
    (h : ¬ p (run step s es) = true) : episode step p s es = [] := by
  induction es using List.reverseRecOn with
  | nil => exact List.takeWhile_cons_of_neg h
  | append_singleton es e _ => rw [episode, trail_concat, List.takeWhile_cons_of_neg h]

theorem mem_episode_append {p : σ → Bool} {s : σ} {es fs : List ε}
    (hp : p (run step s es) = true)
    (h : Along step (fun s e => p (step s e) = true) (run step s es) fs) :
    run step s es ∈ episode step p s (es ++ fs) := by
  induction fs using List.reverseRecOn with
  | nil =>
    rw [List.append_nil]
    cases es using List.reverseRecOn with
    | nil =>
      have hs : p s = true := hp
      show s ∈ List.takeWhile p [s]
      rw [List.takeWhile_cons_of_pos hs]
      exact List.mem_cons_self
    | append_singleton es e =>
      rw [episode_concat_of_pos hp]
      exact List.mem_cons_self
  | append_singleton fs e ih =>
    obtain ⟨hfs, he, -⟩ := along_append.mp h
    rw [← List.append_assoc, episode_concat_of_pos (by simpa using he)]
    exact List.mem_cons_of_mem _ (ih hfs)

/-- A property that no guarded step inside an episode can gain has held
throughout the episode whenever it holds now. -/
theorem episode_all {p : σ → Bool} {C : σ → ε → Prop} {W : σ → Prop}
    (hstep : ∀ s e, C s e → p s = true → p (step s e) = true → W (step s e) → W s)
    {s : σ} {es : List ε} (hC : Along step C s es) (hW : W (run step s es)) :
    ∀ q ∈ episode step p s es, W q := by
  induction es using List.reverseRecOn with
  | nil =>
    intro q hq
    obtain rfl : q = s := by simpa [trail] using (List.takeWhile_subset p) hq
    exact hW
  | append_singleton es e ih =>
    obtain ⟨hes, he, -⟩ := along_append.mp hC
    have hrun : run step s (es ++ [e]) = step (run step s es) e := by simp
    by_cases hp : p (run step s (es ++ [e])) = true
    · rw [episode_concat_of_pos hp]
      intro q hq
      rcases List.mem_cons.mp hq with rfl | hq
      · exact hW
      by_cases hprev : p (run step s es) = true
      · rw [hrun] at hp hW
        exact ih hes (hstep _ e he hprev hp hW) q hq
      · rw [episode_of_neg es hprev] at hq
        cases hq
    · intro q hq
      rw [episode_of_neg _ hp] at hq
      cases hq

end TradingPlatform.Lib.Runs
