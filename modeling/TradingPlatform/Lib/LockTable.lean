import TradingPlatform.Lib.Dict

/-! # One lock a key

A table hands out a lock for each key and makes one at the first request. What
a thread has of it is its grip: nothing, a lock it will ask for, or a lock it
holds. `Excludes` is the invariant that lets at most one thread hold the lock of
a key; each operation keeps it. -/

namespace TradingPlatform.Lib

structure LockTable (κ : Type*) where
  locks : Dict κ Nat := .empty
  fresh : Nat := 0
  held : List Nat := []

inductive Grip (κ : Type*)
  | none
  | wants (key : κ) (lock : Nat)
  | holds (key : κ) (lock : Nat)
  deriving DecidableEq

namespace LockTable

variable {κ : Type*} [DecidableEq κ]

/-- The lock of a key. A new one is made whether or not the key has one already. -/
def lockFor (lt : LockTable κ) (key : κ) : Nat × LockTable κ :=
  ((lt.locks.setdefault key lt.fresh).1,
    { lt with locks := (lt.locks.setdefault key lt.fresh).2, fresh := lt.fresh + 1 })

/-- `none` while the lock is held. -/
def acquire (lt : LockTable κ) (lock : Nat) : Option (LockTable κ) :=
  if lock ∈ lt.held then .none else some { lt with held := lock :: lt.held }

def release (lt : LockTable κ) (lock : Nat) : LockTable κ :=
  { lt with held := lt.held.filter (· ≠ lock) }

/-- No lock has two holders. -/
def Alone (grips : List (Grip κ)) : Prop :=
  ∀ (i j : Nat) (key key' : κ) (lock : Nat), grips[i]? = some (Grip.holds key lock) →
    grips[j]? = some (Grip.holds key' lock) → i = j

/-- Every thread's lock is the table's for its key, and it is held alone. -/
structure Excludes (lt : LockTable κ) (grips : List (Grip κ)) : Prop where
  wants : ∀ key lock, Grip.wants key lock ∈ grips → lt.locks.get? key = some lock
  holds : ∀ key lock, Grip.holds key lock ∈ grips → lt.locks.get? key = some lock ∧ lock ∈ lt.held
  alone : Alone grips

variable {lt : LockTable κ} {grips : List (Grip κ)} {t : Nat} {key : κ} {lock : Nat}

/-- Two threads that hold the lock of one key are one thread. -/
theorem Excludes.one_holder (h : lt.Excludes grips) {i j lock' : Nat}
    (hi : grips[i]? = some (.holds key lock)) (hj : grips[j]? = some (.holds key lock')) : i = j := by
  have hlock := (h.holds key lock (List.mem_of_getElem? hi)).1
  have hlock' := (h.holds key lock' (List.mem_of_getElem? hj)).1
  cases hlock.symm.trans hlock'
  exact h.alone i j key key lock hi hj

theorem excludes_idle (lt : LockTable κ) (h : ∀ g ∈ grips, g = .none) : lt.Excludes grips where
  wants _ _ hg := nomatch h _ hg
  holds _ _ hg := nomatch h _ hg
  alone _ _ _ _ _ hi := nomatch h _ (List.mem_of_getElem? hi)

theorem Excludes.spawn (h : lt.Excludes grips) : lt.Excludes (grips ++ [.none]) where
  wants key lock hg := h.wants key lock (by simpa using hg)
  holds key lock hg := h.holds key lock (by simpa using hg)
  alone i j key key' lock hi hj := by
    have hold : ∀ (k : Nat) (key : κ), (grips ++ [Grip.none])[k]? = some (Grip.holds key lock) →
        grips[k]? = some (Grip.holds key lock) := by
      intro k key hk
      rw [List.getElem?_append] at hk
      split at hk
      · exact hk
      · simp [List.getElem?_singleton] at hk
    exact h.alone i j key key' lock (hold i key hi) (hold j key' hj)

omit [DecidableEq κ] in
/-- A thread that takes a grip other than a lock leaves the holders as they are. -/
theorem Alone.set (h : Alone grips) {g : Grip κ} (hg : ∀ key lock, g ≠ Grip.holds key lock) :
    Alone (grips.set t g) := by
  have hold : ∀ (k : Nat) (key : κ) (lock : Nat), (grips.set t g)[k]? = some (Grip.holds key lock) →
      grips[k]? = some (Grip.holds key lock) := by
    intro k key lock hk
    rw [List.getElem?_set] at hk
    split at hk
    · split at hk
      · exact absurd (Option.some.inj hk) (hg key lock)
      · cases hk
    · exact hk
  intro i j key key' lock hi hj
  exact h i j key key' lock (hold i key lock hi) (hold j key' lock hj)

theorem Excludes.lockFor (h : lt.Excludes grips) (key : κ) :
    (lt.lockFor key).2.Excludes (grips.set t (.wants key (lt.lockFor key).1)) where
  wants key' lock' hg := by
    rcases List.mem_or_eq_of_mem_set hg with hold | hnew
    · exact lt.locks.setdefault_keeps (h.wants key' lock' hold) lt.fresh
    · cases hnew
      exact lt.locks.setdefault_get? key lt.fresh
  holds key' lock' hg := by
    rcases List.mem_or_eq_of_mem_set hg with hold | hnew
    · obtain ⟨hlock, hheld⟩ := h.holds key' lock' hold
      exact ⟨lt.locks.setdefault_keeps hlock lt.fresh, hheld⟩
    · cases hnew
  alone := h.alone.set fun _ _ => nofun

theorem Excludes.acquire (h : lt.Excludes grips) (ht : grips[t]? = some (.wants key lock))
    {lt' : LockTable κ} (ha : lt.acquire lock = some lt') :
    lt'.Excludes (grips.set t (.holds key lock)) := by
  unfold LockTable.acquire at ha
  split at ha
  · cases ha
  rename_i hfree
  cases ha
  have hother : ∀ (k : Nat) (key' : κ), grips[k]? ≠ some (Grip.holds key' lock) := fun k key' hk =>
    hfree (h.holds key' lock (List.mem_of_getElem? hk)).2
  refine ⟨fun key' lock' hg => ?_, fun key' lock' hg => ?_, fun i j key' key'' lock' hi hj => ?_⟩
  · rcases List.mem_or_eq_of_mem_set hg with hold | hnew
    · exact h.wants key' lock' hold
    · cases hnew
  · rcases List.mem_or_eq_of_mem_set hg with hold | hnew
    · obtain ⟨hlock, hheld⟩ := h.holds key' lock' hold
      exact ⟨hlock, List.mem_cons_of_mem _ hheld⟩
    · cases hnew
      exact ⟨h.wants key lock (List.mem_of_getElem? ht), List.mem_cons_self⟩
  · have htlt : t < grips.length := (List.getElem?_eq_some_iff.mp ht).1
    rw [List.getElem?_set, if_pos htlt] at hi hj
    split at hi <;> split at hj
    · rename_i hti htj
      exact hti.symm.trans htj
    · cases hi
      exact absurd hj (hother j _)
    · cases hj
      exact absurd hi (hother i _)
    · exact h.alone i j key' key'' lock' hi hj

theorem Excludes.release (h : lt.Excludes grips) (ht : grips[t]? = some (.holds key lock)) :
    (lt.release lock).Excludes (grips.set t .none) where
  wants key' lock' hg := by
    rcases List.mem_or_eq_of_mem_set hg with hold | hnew
    · exact h.wants key' lock' hold
    · cases hnew
  holds key' lock' hg := by
    obtain ⟨j, hj⟩ := List.mem_iff_getElem?.mp hg
    rw [List.getElem?_set] at hj
    split at hj
    · split at hj <;> cases hj
    · rename_i hne
      obtain ⟨hlock, hheld⟩ := h.holds key' lock' (List.mem_of_getElem? hj)
      refine ⟨hlock, List.mem_filter.mpr ⟨hheld, decide_eq_true ?_⟩⟩
      rintro rfl
      exact hne (h.alone t j key key' lock' ht hj)
  alone := h.alone.set fun _ _ => nofun

end LockTable

end TradingPlatform.Lib
