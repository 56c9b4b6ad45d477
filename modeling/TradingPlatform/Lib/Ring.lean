import Mathlib.Data.List.Basic
import Mathlib.Data.List.Destutter
import Mathlib.Data.List.Induction
import Mathlib.Data.Vector.Basic

/-! # Rings over fixed arrays

A cursor says which cell of a fixed array is written next and how many cells
count. Read in order, the array is a list; writing at the cursor appends to it
and drops the oldest element once the array is full. Several arrays may share
one cursor. -/

namespace TradingPlatform.Lib.Ring

variable {α β : Type*}

/-- `deque(maxlen=n)` after an append. -/
def appendBounded (n : Nat) (xs : List α) (x : α) : List α :=
  (xs ++ [x]).drop (xs.length + 1 - n)

/-- The last `n` elements. -/
def lastN (n : Nat) (xs : List α) : List α := xs.drop (xs.length - n)

theorem map_appendBounded (f : α → β) (n : Nat) (xs : List α) (x : α) :
    (appendBounded n xs x).map f = appendBounded n (xs.map f) (f x) := by
  simp [appendBounded]

theorem map_lastN (f : α → β) (n : Nat) (xs : List α) :
    (lastN n xs).map f = lastN n (xs.map f) := by
  simp [lastN]

theorem length_lastN (n : Nat) (xs : List α) : (lastN n xs).length = min xs.length n := by
  simp only [lastN, List.length_drop]
  omega

/-- Appending to the last `n` elements keeps the last `n` of what was appended to. -/
theorem appendBounded_lastN (n : Nat) (xs : List α) (x : α) :
    appendBounded n (lastN n xs) x = lastN n (xs ++ [x]) := by
  have hsplit : lastN n xs ++ [x] = (xs ++ [x]).drop (xs.length - n) := by
    rw [lastN, List.drop_append_of_le_length (by omega)]
  rw [appendBounded, hsplit, length_lastN, List.drop_drop]
  rw [lastN, List.length_append, List.length_singleton]
  congr 1
  omega

/-- The last element is never cut off. -/
theorem lastN_concat {n : Nat} (hn : 0 < n) (ys : List α) (y : α) :
    lastN n (ys ++ [y]) = ys.drop (ys.length + 1 - n) ++ [y] := by
  rw [lastN, List.length_append, List.length_singleton, List.drop_append_of_le_length (by omega)]

theorem getLast?_lastN {n : Nat} (hn : 0 < n) (xs : List α) :
    (lastN n xs).getLast? = xs.getLast? := by
  rcases List.eq_nil_or_concat' xs with rfl | ⟨ys, y, rfl⟩
  · simp [lastN]
  · rw [lastN_concat hn, List.getLast?_concat, List.getLast?_concat]

/-- Revising the last element commutes with the cut. -/
theorem dropLast_lastN {n : Nat} (hn : 0 < n) (xs : List α) (x : α) :
    (lastN n xs).dropLast ++ [x] = lastN n (xs.dropLast ++ [x]) := by
  rcases List.eq_nil_or_concat' xs with rfl | ⟨ys, y, rfl⟩
  · have hone : 1 - n = 0 := by omega
    simp [lastN, hone]
  · rw [List.dropLast_concat, lastN_concat hn, lastN_concat hn, List.dropLast_concat]

/-! ## Values written in a row -/

section Destutter
variable [DecidableEq α]

theorem destutter'_concat (a b : α) (l : List α) :
    (l ++ [b]).destutter' (· ≠ ·) a =
      if (a :: l).getLast? = some b then l.destutter' (· ≠ ·) a
      else l.destutter' (· ≠ ·) a ++ [b] := by
  induction l generalizing a with
  | nil =>
    by_cases h : a = b
    · simp [h]
    · simp [h]
  | cons c l ih =>
    rw [List.cons_append, List.getLast?_cons_cons]
    by_cases h : a = c
    · rw [List.destutter'_cons_neg _ (not_not.mpr h), List.destutter'_cons_neg _ (not_not.mpr h),
        ih, h]
    · rw [List.destutter'_cons_pos _ h, List.destutter'_cons_pos _ h, ih]
      split_ifs <;> rfl

theorem destutter_concat (l : List α) (b : α) :
    (l ++ [b]).destutter (· ≠ ·) =
      if l.getLast? = some b then l.destutter (· ≠ ·) else l.destutter (· ≠ ·) ++ [b] := by
  cases l with
  | nil => simp
  | cons a l => exact destutter'_concat a b l

theorem getLast?_destutter (l : List α) : (l.destutter (· ≠ ·)).getLast? = l.getLast? := by
  induction l using List.reverseRecOn with
  | nil => simp
  | append_singleton l b ih =>
    rw [destutter_concat, List.getLast?_concat]
    split_ifs with hlast
    · rw [ih, hlast]
    · rw [List.getLast?_concat]

end Destutter

/-! ## Cursors -/

/-- Where the next write goes, and how many cells hold a value. -/
structure Cursor (n : Nat) where
  head : Nat
  count : Nat
  head_lt : head < n
  count_le : count ≤ n
  aligned : count < n → head = count

namespace Cursor

variable {n : Nat}

def start (hn : 0 < n) : Cursor n := ⟨0, 0, hn, Nat.zero_le n, fun _ => rfl⟩

theorem pos (c : Cursor n) : 0 < n := Nat.zero_lt_of_lt c.head_lt

/-- The cursor after a write. -/
def advance (c : Cursor n) : Cursor n where
  head := (c.head + 1) % n
  count := min (c.count + 1) n
  head_lt := Nat.mod_lt _ c.pos
  count_le := Nat.min_le_right ..
  aligned := by
    intro h
    have hlt : c.count + 1 < n := by omega
    rw [c.aligned (by omega), Nat.mod_eq_of_lt hlt, Nat.min_eq_left hlt.le]

/-- The cell written last. -/
def latest (c : Cursor n) : Nat := (c.head + n - 1) % n

theorem latest_lt (c : Cursor n) : c.latest < n := Nat.mod_lt _ c.pos

theorem latest_eq (c : Cursor n) : c.latest = if c.head = 0 then n - 1 else c.head - 1 := by
  have hlt := c.head_lt
  unfold latest
  split
  · rename_i h0
    rw [h0, Nat.zero_add, Nat.mod_eq_of_lt (by omega)]
  · rename_i h0
    have hshift : c.head + n - 1 = c.head - 1 + n := by omega
    rw [hshift, Nat.add_mod_right, Nat.mod_eq_of_lt (by omega)]

/-- The cells that count, oldest first. -/
def ordered (c : Cursor n) (buf : Vector α n) : List α :=
  if c.count < n then buf.toList.take c.count
  else buf.toList.drop c.head ++ buf.toList.take c.head

/-- The array with the cells that count mapped. -/
def mapActive (c : Cursor n) (f : α → α) (buf : Vector α n) : Vector α n :=
  if c.count < n then buf.mapIdx fun i x => if i < c.count then f x else x
  else buf.map f

theorem ordered_length (c : Cursor n) (buf : Vector α n) : (c.ordered buf).length = c.count := by
  have hle := c.count_le
  have hlt := c.head_lt
  unfold ordered
  split
  · rw [List.length_take, Vector.length_toList]
    omega
  · rw [List.length_append, List.length_drop, List.length_take, Vector.length_toList]
    omega

theorem ordered_eq_nil {c : Cursor n} (h : c.count = 0) (buf : Vector α n) : c.ordered buf = [] := by
  refine List.eq_nil_of_length_eq_zero ?_
  rw [ordered_length, h]

theorem take_set_succ {xs : List α} {i : Nat} (hi : i < xs.length) (x : α) :
    (xs.set i x).take (i + 1) = xs.take i ++ [x] := by
  rw [List.take_add_one, List.take_set_of_le le_rfl, List.getElem?_set_self hi]
  rfl

/-- Once a write fills the array, the next cell starts the order, wrapped or not. -/
theorem ordered_advance_full (c : Cursor n) (hfull : n ≤ c.count + 1) (buf : Vector α n) :
    c.advance.ordered buf = buf.toList.drop (c.head + 1) ++ buf.toList.take (c.head + 1) := by
  have hlt := c.head_lt
  have hcount : ¬ c.advance.count < n := by
    show ¬ min (c.count + 1) n < n
    omega
  rw [ordered, if_neg hcount]
  show buf.toList.drop ((c.head + 1) % n) ++ buf.toList.take ((c.head + 1) % n) = _
  rcases Nat.lt_or_ge (c.head + 1) n with hin | hwrap
  · rw [Nat.mod_eq_of_lt hin]
  · have hn : c.head + 1 = n := by omega
    have hlen : buf.toList.length ≤ n := Vector.length_toList.le
    rw [hn, Nat.mod_self, List.drop_zero, List.take_zero, List.append_nil,
      List.drop_of_length_le hlen, List.take_of_length_le hlen, List.nil_append]

/-- **Writing appends.** -/
theorem ordered_push (c : Cursor n) (buf : Vector α n) (x : α) :
    c.advance.ordered (buf.set c.head x c.head_lt) = appendBounded n (c.ordered buf) x := by
  have hlen : c.head < buf.toList.length := by
    rw [Vector.length_toList]
    exact c.head_lt
  rw [appendBounded, ordered_length]
  rcases Nat.lt_or_ge (c.count + 1) n with hroom | hfull
  · -- the array is not full after the write
    have hhead : c.head = c.count := c.aligned (by omega)
    have hcount : c.advance.count = c.count + 1 := Nat.min_eq_left hroom.le
    have hnone : c.count + 1 - n = 0 := by omega
    rw [ordered, hcount, if_pos hroom, ordered, if_pos (by omega), hnone, List.drop_zero,
      Vector.toList_set, ← hhead]
    exact take_set_succ hlen x
  · rw [ordered_advance_full c hfull, Vector.toList_set, List.drop_set_of_lt (Nat.lt_succ_self _),
      take_set_succ hlen]
    rcases Nat.lt_or_ge c.count n with hlast | hn
    · -- the write fills the last cell
      have hhead : c.head = c.count := c.aligned hlast
      have hnone : c.count + 1 - n = 0 := by omega
      have hall : buf.toList.length ≤ c.head + 1 := by
        rw [Vector.length_toList]
        omega
      rw [List.drop_of_length_le hall, List.nil_append, ordered, if_pos hlast, hnone,
        List.drop_zero, hhead]
    · -- the array was full: the write replaces the oldest element
      have hone : c.count + 1 - n = 1 := by
        have hle := c.count_le
        omega
      rw [ordered, if_neg (by omega), hone, List.append_assoc,
        List.drop_eq_getElem_cons hlen, List.cons_append, List.drop_one, List.tail_cons]

/-- **Rewriting the latest cell** revises the last element. -/
theorem ordered_rewrite (c : Cursor n) (hc : 0 < c.count) (buf : Vector α n) (x : α) :
    c.ordered (buf.set c.latest x c.latest_lt) = (c.ordered buf).dropLast ++ [x] := by
  have hlt := c.head_lt
  have hlen : buf.toList.length = n := Vector.length_toList
  have hrevise : ∀ i, 0 < i → i ≤ n →
      (buf.toList.set (i - 1) x).take i = (buf.toList.take i).dropLast ++ [x] := by
    intro i hi hin
    obtain ⟨j, rfl⟩ : ∃ j, i = j + 1 := ⟨i - 1, by omega⟩
    have htake : (buf.toList.take (j + 1)).dropLast = buf.toList.take j := by
      rw [List.dropLast_eq_take, List.length_take, List.take_take]
      congr 1
      omega
    rw [Nat.add_sub_cancel, take_set_succ (by omega), htake]
  rw [ordered, ordered, Vector.toList_set, latest_eq]
  rcases Nat.lt_or_ge c.count n with hroom | hfull
  · have hhead : c.head = c.count := c.aligned hroom
    have hwrap : ¬ c.head = 0 := by omega
    rw [if_pos hroom, if_pos hroom, if_neg hwrap, hhead]
    exact hrevise c.count hc c.count_le
  · have hfull : ¬ c.count < n := by omega
    rw [if_neg hfull, if_neg hfull]
    by_cases h0 : c.head = 0
    · have hall := hrevise n c.pos le_rfl
      rw [List.take_of_length_le (by rw [List.length_set, hlen]), List.take_of_length_le hlen.le]
        at hall
      rw [if_pos h0, h0, List.drop_zero, List.take_zero, List.append_nil, List.drop_zero,
        List.take_zero, List.append_nil, hall]
    · have hne : buf.toList.take c.head ≠ [] := by
        rw [← List.length_pos_iff, List.length_take, hlen]
        omega
      rw [if_neg h0, List.drop_set_of_lt (by omega), hrevise c.head (by omega) hlt.le,
        List.dropLast_append_of_ne_nil hne, List.append_assoc]

/-- A full array is read from the head on, around its end. -/
theorem ordered_getElem?_of_full (c : Cursor n) (hfull : c.count = n) (buf : Vector α n) {i : Nat}
    (hi : i < n) : (c.ordered buf)[i]? = buf.toList[(c.head + i) % n]? := by
  have hlt := c.head_lt
  have hlen : buf.toList.length = n := Vector.length_toList
  have hdrop : (buf.toList.drop c.head).length = n - c.head := by rw [List.length_drop, hlen]
  rw [ordered, if_neg (by omega)]
  rcases Nat.lt_or_ge i (n - c.head) with hin | hwrap
  · rw [List.getElem?_append_left (by omega), List.getElem?_drop, Nat.mod_eq_of_lt (by omega)]
  · have hmod : (c.head + i) % n = i - (n - c.head) := by
      rw [Nat.mod_eq_sub_mod (by omega), Nat.mod_eq_of_lt (by omega)]
      omega
    rw [List.getElem?_append_right (by omega), hdrop, List.getElem?_take_of_lt (by omega), hmod]

theorem ordered_mapActive (c : Cursor n) (f : α → α) (buf : Vector α n) :
    c.ordered (c.mapActive f buf) = (c.ordered buf).map f := by
  unfold ordered mapActive
  split
  · refine List.ext_getElem? fun i => ?_
    by_cases hi : i < c.count
    · simp [hi]
    · simp [hi]
  · simp [Vector.toList_map, List.map_drop, List.map_take]

end Cursor

end TradingPlatform.Lib.Ring
