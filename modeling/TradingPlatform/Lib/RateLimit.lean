import Mathlib.Algebra.Order.Field.Basic
import Mathlib.Data.List.Count
import Mathlib.Tactic.Linarith
import Mathlib.Tactic.Ring

/-! # A burst and a rate

Times at which something was granted conform to a burst and a rate when no span
of length `L` holds more than `burst + rate * L` of them. `Affords` says what is
left to grant: a credit that, with all granted since any earlier time, stays
within what the burst and the rate allow since then. -/

namespace TradingPlatform.Lib.RateLimit

variable {K : Type*} [Field K] [LinearOrder K] [IsStrictOrderedRing K]

def countSince (s : K) (times : List K) : Nat := times.countP fun t => s ≤ t

/-- How many of the times lie in the span of length `L` from `s`. -/
def countIn (s L : K) (times : List K) : Nat := times.countP fun t => s ≤ t ∧ t ≤ s + L

def Conforms (burst rate : K) (times : List K) : Prop :=
  ∀ s L, 0 ≤ L → (countIn s L times : K) ≤ burst + rate * L

/-- At `now` a further `credit` may be granted. -/
def Affords (burst rate : K) (times : List K) (now credit : K) : Prop :=
  ∀ s, s ≤ now → (countSince s times : K) + credit ≤ burst + rate * (now - s)

/-- What was granted since any earlier grant, that one included, is no more than the
rate gives in the time since. -/
def PaidBack (rate : K) (times : List K) (now : K) : Prop :=
  ∀ s ∈ times, (countSince s times : K) ≤ rate * (now - s)

variable {burst rate now credit : K} {times : List K}

instance (rate : K) (times : List K) (now : K) : Decidable (PaidBack rate times now) :=
  inferInstanceAs (Decidable (∀ s ∈ times, _))

omit [Field K] [IsStrictOrderedRing K] in
theorem countSince_eq_zero {s : K} (h : ∀ t ∈ times, t < s) : countSince s times = 0 :=
  List.countP_eq_zero.mpr fun t ht => by simpa using h t ht

omit [IsStrictOrderedRing K] in
theorem countIn_le_countSince (s L : K) (times : List K) : countIn s L times ≤ countSince s times :=
  List.countP_mono_left fun t _ h => by
    simp only [decide_eq_true_eq] at h ⊢
    exact h.1

theorem Affords.mono (h : Affords burst rate times now credit) {credit' : K}
    (hle : credit' ≤ credit) : Affords burst rate times now credit' :=
  fun s hs => (add_le_add_right hle _).trans (h s hs)

/-- Credit grows at the rate, up to the burst. -/
theorem Affords.wait (h : Affords burst rate times now credit) (hrate : 0 ≤ rate)
    (hpast : ∀ t ∈ times, t ≤ now) {later credit' : K}
    (hburst : credit' ≤ burst) (hgrown : credit' ≤ credit + rate * (later - now)) :
    Affords burst rate times later credit' := by
  intro s hs
  rcases le_or_gt s now with hsnow | hsnow
  · calc (countSince s times : K) + credit'
      _ ≤ countSince s times + (credit + rate * (later - now)) := add_le_add_right hgrown _
      _ = (countSince s times + credit) + rate * (later - now) := (add_assoc ..).symm
      _ ≤ burst + rate * (now - s) + rate * (later - now) := add_le_add_left (h s hsnow) _
      _ = burst + rate * (later - s) := by ring
  · -- nothing was granted since `s`
    rw [countSince_eq_zero fun t ht => (hpast t ht).trans_lt hsnow, Nat.cast_zero, zero_add]
    exact hburst.trans (le_add_of_nonneg_right (mul_nonneg hrate (sub_nonneg.mpr hs)))

omit [IsStrictOrderedRing K] in
/-- A grant takes one off the credit. -/
theorem Affords.grant (h : Affords burst rate times now credit) :
    Affords burst rate (now :: times) now (credit - 1) := by
  intro s hs
  have hcount : countSince s (now :: times) = countSince s times + 1 :=
    List.countP_cons_of_pos (decide_eq_true hs)
  rw [hcount, Nat.cast_succ, add_add_sub_cancel]
  exact h s hs

/-- Grants that conform still do with one more that was afforded. -/
theorem Affords.conforms (h : Affords burst rate (now :: times) now credit) (hcredit : 0 ≤ credit)
    (hrate : 0 ≤ rate) (hconf : Conforms burst rate times) :
    Conforms burst rate (now :: times) := by
  intro s L hL
  by_cases hin : s ≤ now ∧ now ≤ s + L
  · calc (countIn s L (now :: times) : K)
      _ ≤ countSince s (now :: times) := by exact_mod_cast countIn_le_countSince s L _
      _ ≤ countSince s (now :: times) + credit := le_add_of_nonneg_right hcredit
      _ ≤ burst + rate * (now - s) := h s hin.1
      _ ≤ burst + rate * L :=
        add_le_add_right (mul_le_mul_of_nonneg_left (sub_le_iff_le_add'.mpr hin.2) hrate) _
  · have hcount : countIn s L (now :: times) = countIn s L times :=
      List.countP_cons_of_neg (by simpa using hin)
    rw [hcount]
    exact hconf s L hL

/-- The whole burst is there exactly when everything granted is paid back. -/
theorem affords_burst_iff (hrate : 0 ≤ rate) (hpast : ∀ t ∈ times, t ≤ now) :
    Affords burst rate times now burst ↔ PaidBack rate times now := by
  constructor
  · intro h s hs
    have hle := h s (hpast s hs)
    rwa [add_comm, add_le_add_iff_left] at hle
  · intro h s hs
    rw [add_comm, add_le_add_iff_left]
    -- the earliest grant since `s` has as many since it, and less time
    by_cases hany : ∃ t ∈ times, s ≤ t
    · obtain ⟨t, ht, hst, hfirst⟩ : ∃ t ∈ times, s ≤ t ∧ ∀ u ∈ times, s ≤ u → t ≤ u := by
        obtain ⟨t, ht⟩ := hany
        have hne : (times.filter (s ≤ ·)) ≠ [] :=
          List.ne_nil_of_mem (List.mem_filter.mpr ⟨ht.1, decide_eq_true ht.2⟩)
        obtain ⟨t, hmin⟩ := Option.isSome_iff_exists.mp
          (List.isSome_min?_iff.mpr hne)
        obtain ⟨hmem, hle⟩ := List.min?_eq_some_iff.mp hmin
        obtain ⟨hin, hst⟩ := List.mem_filter.mp hmem
        exact ⟨t, hin, of_decide_eq_true hst, fun u hu hsu =>
          hle u (List.mem_filter.mpr ⟨hu, decide_eq_true hsu⟩)⟩
      have hsame : countSince s times = countSince t times :=
        List.countP_congr fun u hu => by
          simp only [decide_eq_true_eq]
          exact ⟨hfirst u hu, hst.trans⟩
      rw [hsame]
      exact (h t ht).trans (mul_le_mul_of_nonneg_left (sub_le_sub_left hst _) hrate)
    · have hnone : ∀ t ∈ times, t < s := fun t ht => not_le.mp fun hst => hany ⟨t, ht, hst⟩
      rw [countSince_eq_zero hnone, Nat.cast_zero]
      exact mul_nonneg hrate (sub_nonneg.mpr hs)

/-- A burst granted at once, before everything is paid back, does not conform. -/
theorem not_conforms_of_overdrawn (hpast : ∀ t ∈ times, t ≤ now)
    (hdebt : ¬ PaidBack rate times now) {k : Nat} (hk : burst ≤ k) :
    ¬ Conforms burst rate (List.replicate k now ++ times) := by
  intro hconf
  refine hdebt fun s hs => ?_
  have hsnow := hpast s hs
  have hle := hconf s (now - s) (sub_nonneg.mpr hsnow)
  have hcount : countIn s (now - s) (List.replicate k now ++ times) = k + countSince s times := by
    unfold countIn countSince
    rw [List.countP_append, add_sub_cancel]
    congr 1
    · rw [List.countP_replicate, if_pos (by simpa using hsnow)]
    · refine List.countP_congr fun t ht => ?_
      simp [hpast t ht]
  rw [hcount, Nat.cast_add] at hle
  linarith

end TradingPlatform.Lib.RateLimit
