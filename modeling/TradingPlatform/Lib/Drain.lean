import Mathlib.Logic.Function.Iterate
import Mathlib.Data.List.Sort

/-! # A queue served through a window

A server sees the first `n` elements of a queue, takes those that meet `p` and
leaves the others in their places. Elements that are never taken hold their
places for ever, so an element is reached exactly when fewer than `n` of them
stand ahead of it. -/

namespace TradingPlatform.Lib.Drain

variable {α : Type*} (p : α → Bool) (n : Nat)

/-- What one look at the window takes. -/
def served (q : List α) : List α := (q.take n).filter p

/-- What it leaves. -/
def remaining (q : List α) : List α := (q.take n).filter (fun a => !p a) ++ q.drop n

/-- Fewer than `n` of the elements ahead of each element to take stay. -/
def Unblocked (q : List α) : Prop :=
  ∀ front e back, q = front ++ e :: back → p e = true → front.countP (fun a => !p a) < n

variable {p n}

theorem mem_remaining_or_served {q : List α} {e : α} (h : e ∈ q) :
    e ∈ remaining p n q ∨ e ∈ served p n q := by
  unfold remaining served
  rw [← List.take_append_drop n q] at h
  rcases List.mem_append.mp h with ht | hd
  · cases hp : p e with
    | true => exact .inr (List.mem_filter.mpr ⟨ht, hp⟩)
    | false => exact .inl (List.mem_append_left _ (List.mem_filter.mpr ⟨ht, by simp [hp]⟩))
  · exact .inl (List.mem_append_right _ hd)

theorem remaining_sublist (q : List α) : (remaining p n q).Sublist q := by
  have h := List.filter_sublist (p := fun a => !p a) (l := q.take n)
  have happ := h.append (List.Sublist.refl (q.drop n))
  rwa [List.take_append_drop] at happ

/-- An element with fewer than `n` ahead of it is in the window. -/
theorem served_of_front {front back : List α} {e : α} (hlen : front.length < n)
    (he : p e = true) : e ∈ served p n (front ++ e :: back) := by
  refine List.mem_filter.mpr ⟨?_, he⟩
  rw [List.take_append, List.take_of_length_le hlen.le]
  refine List.mem_append_right _ ?_
  obtain ⟨d, hd⟩ := Nat.exists_eq_add_of_lt hlen
  rw [show n - front.length = d + 1 by omega, List.take_succ_cons]
  exact List.mem_cons_self

theorem Unblocked.served_ne_nil {q : List α} (h : Unblocked p n q) (hex : ∃ e ∈ q, p e = true) :
    served p n q ≠ [] := by
  obtain ⟨e, he⟩ := Option.isSome_iff_exists.mp (List.find?_isSome.mpr hex)
  obtain ⟨hp, front, back, hq, hfront⟩ := List.find?_eq_some_iff_append.mp he
  have hall : front.countP (fun a => !p a) = front.length := List.countP_eq_length.mpr hfront
  have hlen := h front e back hq hp
  rw [hall] at hlen
  rw [hq]
  exact List.ne_nil_of_mem (served_of_front hlen hp)

theorem Unblocked.remaining {q : List α} (h : Unblocked p n q) :
    Unblocked p n (remaining p n q) := by
  intro front e back hq he
  unfold Drain.remaining at hq
  rcases List.append_eq_append_iff.mp hq with ⟨mid, hfront, hdrop⟩ | ⟨mid, hkeep, hrest⟩
  · -- `e` stands beyond the window
    have hsplit : q = (q.take n ++ mid) ++ e :: back := by
      rw [List.append_assoc, ← hdrop, List.take_append_drop]
    have hlt := h _ e back hsplit he
    rw [hfront, List.countP_append, List.countP_filter]
    rw [List.countP_append] at hlt
    simpa using hlt
  · cases mid with
    | nil =>
      have hsplit : q = q.take n ++ e :: back := by
        conv_lhs => rw [← List.take_append_drop n q]
        rw [show q.drop n = e :: back by simpa using hrest.symm]
      have hlt := h _ e back hsplit he
      rw [show front = (q.take n).filter fun a => !p a by simpa using hkeep.symm,
        List.countP_filter]
      simpa using hlt
    | cons x rest =>
      -- what the window keeps does not meet `p`
      have hx : e = x := by simpa using congrArg List.head? hrest
      have hmem : e ∈ (q.take n).filter fun a => !p a := by
        rw [hkeep, hx]
        exact List.mem_append_right _ List.mem_cons_self
      have hno := (List.mem_filter.mp hmem).2
      simp [he] at hno

theorem countP_remaining (q : List α) :
    (remaining p n q).countP p + (served p n q).length = q.countP p := by
  have hkept : ((q.take n).filter fun a => !p a).countP p = 0 := by
    refine List.countP_eq_zero.mpr fun a ha => ?_
    simpa using (List.mem_filter.mp ha).2
  unfold remaining served
  rw [List.countP_append, hkept, ← List.countP_eq_length_filter]
  conv_rhs => rw [← List.take_append_drop n q, List.countP_append]
  omega

/-- Every element to take is taken within as many looks as there are of them. -/
theorem Unblocked.drains {q : List α} (h : Unblocked p n q) :
    ∃ k, ∀ e ∈ q, p e = true → ∃ j < k, e ∈ served p n ((Drain.remaining p n)^[j] q) := by
  induction hc : q.countP p using Nat.strong_induction_on generalizing q with
  | _ c ih =>
    by_cases hex : ∃ e ∈ q, p e = true
    · have hserved := List.length_pos_iff.mpr (h.served_ne_nil hex)
      have hcount := countP_remaining (p := p) (n := n) q
      obtain ⟨k, hk⟩ := ih ((Drain.remaining p n q).countP p) (by omega) h.remaining rfl
      refine ⟨k + 1, fun e he hp => ?_⟩
      rcases mem_remaining_or_served (p := p) (n := n) he with hrem | hnow
      · obtain ⟨j, hj, hlater⟩ := hk e hrem hp
        exact ⟨j + 1, by omega, hlater⟩
      · exact ⟨0, by omega, hnow⟩
    · exact ⟨0, fun e he hp => absurd ⟨e, he, hp⟩ hex⟩

/-- `n` elements that stay stand ahead of `e`. -/
def BlockedAt (p : α → Bool) (n : Nat) (e : α) (q : List α) : Prop :=
  ∃ front back, q = front ++ e :: back ∧ n ≤ front.countP fun a => !p a

theorem BlockedAt.not_served {e : α} {q : List α} (h : BlockedAt p n e q) (hnd : q.Nodup) :
    e ∉ served p n q := by
  obtain ⟨front, back, hq, hcount⟩ := h
  intro he
  have hlen : n ≤ front.length := hcount.trans List.countP_le_length
  have htake := (List.mem_filter.mp he).1
  rw [hq, List.take_append_of_le_length hlen] at htake
  rw [hq] at hnd
  exact (List.nodup_append.mp hnd).2.2 e (List.mem_of_mem_take htake) e List.mem_cons_self rfl

theorem BlockedAt.remaining {e : α} {q : List α} (h : BlockedAt p n e q) :
    BlockedAt p n e (Drain.remaining p n q) := by
  obtain ⟨front, back, hq, hcount⟩ := h
  have hlen : n ≤ front.length := hcount.trans List.countP_le_length
  refine ⟨(front.take n).filter (fun a => !p a) ++ front.drop n, back, ?_, ?_⟩
  · unfold Drain.remaining
    rw [hq, List.take_append_of_le_length hlen, List.drop_append_of_le_length hlen,
      List.append_assoc]
  · rw [List.countP_append, List.countP_filter]
    have hsplit : front.countP (fun a => !p a) =
        (front.take n).countP (fun a => !p a) + (front.drop n).countP fun a => !p a := by
      rw [← List.countP_append, List.take_append_drop]
    simpa using hsplit ▸ hcount

theorem BlockedAt.remaining_iterate {e : α} {q : List α} (h : BlockedAt p n e q) (k : Nat) :
    BlockedAt p n e ((Drain.remaining p n)^[k] q) := by
  induction k with
  | zero => exact h
  | succ k ih =>
    rw [Function.iterate_succ_apply']
    exact ih.remaining

theorem BlockedAt.never_served {e : α} {q : List α} (h : BlockedAt p n e q) (hnd : q.Nodup) (k : Nat) :
    e ∉ served p n ((Drain.remaining p n)^[k] q) := by
  have hsub : ((Drain.remaining p n)^[k] q).Sublist q := by
    clear h hnd
    induction k generalizing q with
    | zero => exact List.Sublist.refl q
    | succ k ih => exact ih.trans (remaining_sublist q)
  exact (h.remaining_iterate k).not_served (hnd.sublist hsub)

/-- **Who is served.** One look takes something and repeated looks take
everything to take, exactly when no element to take is blocked. -/
theorem drains_iff {q : List α} (hnd : q.Nodup) :
    (((∃ e ∈ q, p e = true) → served p n q ≠ []) ∧
      ∃ k, ∀ e ∈ q, p e = true → ∃ j < k, e ∈ served p n ((remaining p n)^[j] q)) ↔
      Unblocked p n q := by
  constructor
  · intro ⟨_, k, hk⟩ front e back hq he
    by_contra hlt
    have hblocked : BlockedAt p n e q := ⟨front, back, hq, not_lt.mp hlt⟩
    obtain ⟨j, _, hserved⟩ := hk e (by rw [hq]; simp) he
    exact hblocked.never_served hnd j hserved
  · intro h
    exact ⟨h.served_ne_nil, h.drains⟩

end TradingPlatform.Lib.Drain
