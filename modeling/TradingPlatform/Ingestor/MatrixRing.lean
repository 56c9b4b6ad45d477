import TradingPlatform.Models
import TradingPlatform.Lib.Ring
import Mathlib.Algebra.Order.Ring.Rat
import Mathlib.Data.List.Sort

/-! # The matrix rings

Five arrays under one cursor, kept as one array of rows. Only the row written
last is ever revised; any other bar takes the next cell. -/

namespace TradingPlatform.Ingestor

open TradingPlatform.Lib.Ring

structure MatrixRow where
  timestamp : ℤ
  high : ℚ
  low : ℚ
  close : ℚ
  volume : ℚ
  deriving DecidableEq

instance : Inhabited MatrixRow := ⟨⟨0, 0, 0, 0, 0⟩⟩

def MatrixRow.ofBar (bar : Bar ℤ ℚ) : MatrixRow :=
  ⟨bar.timestamp, bar.high, bar.low, bar.close, bar.volume⟩

def lockedBlockCount : Nat := 5

structure MatrixRing (n : Nat) where
  cursor : Cursor n
  rows : Vector MatrixRow n

namespace MatrixRing

variable {n : Nat}

/-- `cap = max(capacity, LOCKED_BLOCK_COUNT)`. -/
def new (capacity : Nat) : MatrixRing (max capacity lockedBlockCount) where
  cursor := .start (by unfold lockedBlockCount; omega)
  rows := .replicate _ default

def clear (r : MatrixRing n) : MatrixRing n := { r with cursor := .start r.cursor.pos }

def upsertBar (r : MatrixRing n) (bar : Bar ℤ ℚ) : MatrixRing n :=
  if 0 < r.cursor.count ∧
      (r.rows.get ⟨r.cursor.latest, r.cursor.latest_lt⟩).timestamp = bar.timestamp then
    { r with rows := r.rows.set r.cursor.latest (.ofBar bar) r.cursor.latest_lt }
  else
    { cursor := r.cursor.advance
      rows := r.rows.set r.cursor.head (.ofBar bar) r.cursor.head_lt }

def upsertBars (r : MatrixRing n) (bars : List (Bar ℤ ℚ)) : MatrixRing n := bars.foldl upsertBar r

def replaceBars (r : MatrixRing n) (bars : List (Bar ℤ ℚ)) : MatrixRing n := r.clear.upsertBars bars

def byTimestamp (a b : MatrixRow) : Prop := a.timestamp ≤ b.timestamp

instance : DecidableRel byTimestamp := fun a b =>
  inferInstanceAs (Decidable (a.timestamp ≤ b.timestamp))

/-- Only a full ring is sorted by timestamp. -/
def tail (r : MatrixRing n) (k : Nat) : List MatrixRow :=
  let take := min k r.cursor.count
  let start := r.cursor.count - take
  if r.cursor.count < n then (r.rows.toList.take r.cursor.count).drop start
  else
    let positions := (List.range take).map fun i => (r.cursor.head + (start + i)) % n
    (positions.map fun p => r.rows.toList.getD p default).insertionSort byTimestamp

/-! ## The ring as a list -/

/-- The rows that count, oldest first. -/
def toList (r : MatrixRing n) : List MatrixRow := r.cursor.ordered r.rows

theorem length_toList (r : MatrixRing n) : r.toList.length = r.cursor.count :=
  Cursor.ordered_length ..

theorem toList_clear (r : MatrixRing n) : r.clear.toList = [] := Cursor.ordered_eq_nil rfl _

theorem getLast?_toList (r : MatrixRing n) (h : 0 < r.cursor.count) :
    r.toList.getLast? = some (r.rows.get ⟨r.cursor.latest, r.cursor.latest_lt⟩) := by
  have hrewrite := r.cursor.ordered_rewrite h r.rows
    (r.rows.get ⟨r.cursor.latest, r.cursor.latest_lt⟩)
  have hself : r.rows.set r.cursor.latest (r.rows.get ⟨r.cursor.latest, r.cursor.latest_lt⟩)
      r.cursor.latest_lt = r.rows := Vector.set_getElem_self ..
  rw [hself] at hrewrite
  rw [toList, hrewrite, List.getLast?_concat]

/-- An upsert on the rows in order. -/
def upsertRow (n : Nat) (rows : List MatrixRow) (row : MatrixRow) : List MatrixRow :=
  if rows.getLast?.map (·.timestamp) = some row.timestamp then rows.dropLast ++ [row]
  else appendBounded n rows row

theorem toList_upsertBar (r : MatrixRing n) (bar : Bar ℤ ℚ) :
    (r.upsertBar bar).toList = upsertRow n r.toList (.ofBar bar) := by
  unfold upsertBar upsertRow
  by_cases hcount : 0 < r.cursor.count
  · rw [r.getLast?_toList hcount, Option.map_some]
    by_cases hts : (r.rows.get ⟨r.cursor.latest, r.cursor.latest_lt⟩).timestamp = bar.timestamp
    · rw [if_pos ⟨hcount, hts⟩, if_pos (by rw [hts]; rfl)]
      exact r.cursor.ordered_rewrite hcount r.rows _
    · rw [if_neg (fun h => hts h.2), if_neg (by simpa [MatrixRow.ofBar] using hts)]
      exact r.cursor.ordered_push r.rows _
  · have hnil : r.toList = [] := Cursor.ordered_eq_nil (by omega) _
    rw [if_neg (fun h => hcount h.1), hnil, if_neg (by simp), ← hnil]
    exact r.cursor.ordered_push r.rows _

theorem toList_upsertBars (r : MatrixRing n) (bars : List (Bar ℤ ℚ)) :
    (r.upsertBars bars).toList = (bars.map MatrixRow.ofBar).foldl (upsertRow n) r.toList := by
  induction bars generalizing r with
  | nil => rfl
  | cons bar bars ih =>
    have hstep : r.upsertBars (bar :: bars) = (r.upsertBar bar).upsertBars bars := rfl
    rw [hstep, ih, toList_upsertBar]
    rfl

/-- Bars of increasing time that fit the ring end up last, in their order. -/
theorem foldl_upsertRow {new : List MatrixRow} (hnew : new.Pairwise (·.timestamp < ·.timestamp))
    (hfit : new.length ≤ n) (rows : List MatrixRow) :
    ∃ old, new.foldl (upsertRow n) rows = old ++ new ∧ old.length ≤ rows.length := by
  induction new using List.reverseRecOn with
  | nil => exact ⟨rows, by simp⟩
  | append_singleton new row ih =>
    obtain ⟨hinit, -, hlast⟩ := List.pairwise_append.1 hnew
    rw [List.length_append, List.length_singleton] at hfit
    obtain ⟨old, hold, hlen⟩ := ih hinit (by omega)
    rw [List.foldl_concat, hold, upsertRow]
    rcases List.eq_nil_or_concat' new with rfl | ⟨init, prev, rfl⟩
    · rw [List.append_nil]
      split
      · exact ⟨old.dropLast, by simp, by rw [List.length_dropLast]; omega⟩
      · refine ⟨old.drop (old.length + 1 - n), ?_, by rw [List.length_drop]; omega⟩
        rw [appendBounded, List.drop_append_of_le_length (by omega), List.nil_append]
    · -- the row before it is not of its time
      have hprev : prev.timestamp < row.timestamp :=
        hlast prev (by simp) row List.mem_cons_self
      rw [← List.append_assoc old, List.getLast?_concat, Option.map_some,
        if_neg (fun h => hprev.ne (Option.some.inj h)), appendBounded]
      rw [List.append_assoc old, List.length_append, List.append_assoc old]
      refine ⟨old.drop (old.length + (init ++ [prev]).length + 1 - n), ?_, ?_⟩
      · rw [List.drop_append_of_le_length (by omega)]
      · rw [List.length_drop]
        omega

theorem exists_toList_upsertBars (r : MatrixRing n) {bars : List (Bar ℤ ℚ)}
    (hbars : bars.Pairwise (·.timestamp < ·.timestamp)) (hfit : bars.length ≤ n) :
    ∃ old, (r.upsertBars bars).toList = old ++ bars.map MatrixRow.ofBar ∧
      old.length ≤ r.toList.length := by
  rw [toList_upsertBars]
  refine foldl_upsertRow ?_ (by rwa [List.length_map]) r.toList
  exact List.pairwise_map.2 hbars

theorem toList_replaceBars (r : MatrixRing n) {bars : List (Bar ℤ ℚ)}
    (hbars : bars.Pairwise (·.timestamp < ·.timestamp)) (hfit : bars.length ≤ n) :
    (r.replaceBars bars).toList = bars.map MatrixRow.ofBar := by
  obtain ⟨old, hold, hlen⟩ := r.clear.exists_toList_upsertBars hbars hfit
  rw [toList_clear, List.length_nil, Nat.le_zero, List.length_eq_zero_iff] at hlen
  rw [replaceBars, hold, hlen, List.nil_append]

theorem tail_eq (r : MatrixRing n) (k : Nat) :
    r.tail k = if r.cursor.count < n then lastN k r.toList
      else (lastN k r.toList).insertionSort byTimestamp := by
  have hlen := r.length_toList
  have hle := r.cursor.count_le
  have hstart : r.cursor.count - min k r.cursor.count = r.toList.length - k := by omega
  unfold tail
  dsimp only
  split
  · rename_i hroom
    rw [hstart, lastN, toList, Cursor.ordered, if_pos hroom]
  · have hfull : r.cursor.count = n := by omega
    have hrows : (((List.range (min k r.cursor.count)).map fun i =>
        (r.cursor.head + (r.cursor.count - min k r.cursor.count + i)) % n).map
          fun p => r.rows.toList.getD p default) = lastN k r.toList := by
      refine List.ext_getElem ?_ fun i hi _ => ?_
      · rw [List.length_map, List.length_map, List.length_range, length_lastN, hlen, Nat.min_comm]
      · have hlast := hi
        rw [List.length_map, List.length_map, List.length_range] at hlast
        have hin : r.toList.length - k + i < r.toList.length := by omega
        have hcell := r.cursor.ordered_getElem?_of_full hfull r.rows
          (by omega : r.cursor.count - min k r.cursor.count + i < n)
        simp only [lastN, List.getElem_map, List.getElem_range, List.getElem_drop]
        rw [List.getD_eq_getElem?_getD, ← hcell, hstart, ← toList, List.getElem?_eq_getElem hin,
          Option.getD_some]
    rw [hrows]

theorem tail_perm (r : MatrixRing n) (k : Nat) : (r.tail k).Perm (lastN k r.toList) := by
  rw [tail_eq]
  split
  · exact .refl _
  · exact List.perm_insertionSort byTimestamp _

/-- Rows that are in order already are read as they stand. -/
theorem tail_eq_lastN (r : MatrixRing n) {k : Nat} (h : (lastN k r.toList).Pairwise byTimestamp) :
    r.tail k = lastN k r.toList := by
  rw [tail_eq]
  split
  · rfl
  · exact h.insertionSort_eq

end MatrixRing

end TradingPlatform.Ingestor
