import TradingPlatform.Ingestor.MatrixRing
import TradingPlatform.Lib.Runs

/-! # The matrix ring as a map of recent bars

Beside the ring runs the map it stands for: for each time the row of its last
upsert since the last clear, with the offsets applied since. -/

namespace TradingPlatform.Ingestor

open TradingPlatform.Lib.Ring TradingPlatform.Lib.Runs

/-! ## The operations -/

def MatrixRow.shift (offset : ℚ) (row : MatrixRow) : MatrixRow :=
  { row with high := row.high + offset, low := row.low + offset, close := row.close + offset }

/-- Whether the rows were shifted, and the ring. -/
def MatrixRing.applyPriceOffset {n : Nat} (r : MatrixRing n) (offset : ℚ) : Bool × MatrixRing n :=
  if offset ≤ 0 ∨ r.cursor.count = 0 then (false, r)
  else (true, { r with rows := r.cursor.mapActive (·.shift offset) r.rows })

inductive RingOp where
  | upsertBar (bar : Bar ℤ ℚ)
  | replaceBars (bars : List (Bar ℤ ℚ))
  | applyPriceOffset (offset : ℚ)
  | clear

/-- A ring, and the last upsert of each time. -/
structure Recent (n : Nat) where
  ring : MatrixRing n
  last : ℤ → Option MatrixRow

def recordRow (last : ℤ → Option MatrixRow) (row : MatrixRow) : ℤ → Option MatrixRow :=
  Function.update last row.timestamp (some row)

namespace Recent

variable {n : Nat}

def start (capacity : Nat) : Recent (max capacity lockedBlockCount) :=
  ⟨.new capacity, fun _ => none⟩

def step (s : Recent n) : RingOp → Recent n
  | .upsertBar bar => ⟨s.ring.upsertBar bar, recordRow s.last (.ofBar bar)⟩
  | .replaceBars bars =>
    ⟨s.ring.replaceBars bars, (bars.map MatrixRow.ofBar).foldl recordRow fun _ => none⟩
  | .applyPriceOffset offset =>
    ⟨(s.ring.applyPriceOffset offset).2,
      if 0 < offset then fun t => (s.last t).map (·.shift offset) else s.last⟩
  | .clear => ⟨s.ring.clear, fun _ => none⟩

/-- The tail is the part of the map with the greatest times held, in order. -/
structure TimeOrdered (s : Recent n) (k : Nat) : Prop where
  length : (s.ring.tail k).length = min k s.ring.cursor.count
  increasing : (s.ring.tail k).Pairwise (·.timestamp < ·.timestamp)
  values : ∀ row ∈ s.ring.tail k, s.last row.timestamp = some row
  greatest : ∀ row ∈ s.ring.toList, (∀ kept ∈ s.ring.tail k, kept.timestamp ≠ row.timestamp) →
    ∀ kept ∈ s.ring.tail k, row.timestamp < kept.timestamp

/-- An upsert is not older than the row written last. Of the bars of a replacement, the times
that stay, each run of equal ones counted once, increase. -/
def InOrder (s : Recent n) : RingOp → Prop
  | .upsertBar bar => ∀ row ∈ s.ring.toList.getLast?, row.timestamp ≤ bar.timestamp
  | .replaceBars bars =>
    (lastN n ((bars.map (·.timestamp)).destutter (· ≠ ·))).Pairwise (· < ·)
  | .applyPriceOffset _ => True
  | .clear => True

/-! ## The last upsert -/

/-- The last row of a time is its last upsert. -/
def Latest (rows : List MatrixRow) (last : ℤ → Option MatrixRow) : Prop :=
  ∀ row rest, row :: rest <:+ rows → (∀ x ∈ rest, x.timestamp ≠ row.timestamp) →
    last row.timestamp = some row

theorem appendBounded_eq (hn : 0 < n) (rows : List MatrixRow) (row : MatrixRow) :
    appendBounded n rows row = rows.drop (rows.length + 1 - n) ++ [row] :=
  List.drop_append_of_le_length (by omega)

/-- An upsert leaves a part of the older rows, and no other row of its time that was last. -/
theorem upsertRow_cases (hn : 0 < n) (rows : List MatrixRow) (row : MatrixRow) :
    (∃ init old, rows = init ++ [old] ∧ old.timestamp = row.timestamp ∧
      MatrixRing.upsertRow n rows row = init ++ [row]) ∨
    ((∀ old ∈ rows.getLast?, old.timestamp ≠ row.timestamp) ∧
      MatrixRing.upsertRow n rows row = rows.drop (rows.length + 1 - n) ++ [row]) := by
  unfold MatrixRing.upsertRow
  rcases List.eq_nil_or_concat' rows with rfl | ⟨init, old, rfl⟩
  · exact .inr ⟨by simp, by simp [appendBounded_eq hn]⟩
  · rw [List.getLast?_concat, Option.map_some, List.dropLast_concat]
    by_cases hts : old.timestamp = row.timestamp
    · exact .inl ⟨init, old, rfl, hts, if_pos (congrArg some hts)⟩
    · refine .inr ⟨by simpa using hts, ?_⟩
      rw [if_neg fun h => hts (Option.some.inj h), appendBounded_eq hn]

theorem Latest.concat {init : List MatrixRow} {last : ℤ → Option MatrixRow} {row : MatrixRow}
    (h : ∀ old rest, old :: rest <:+ init → (∀ x ∈ rest, x.timestamp ≠ old.timestamp) →
      old.timestamp ≠ row.timestamp → last old.timestamp = some old) :
    Latest (init ++ [row]) (recordRow last row) := by
  intro old rest hsuffix hrest
  rcases List.eq_nil_or_concat' rest with rfl | ⟨rest, x, rfl⟩
  · obtain rfl : old = row := by
      have hlast := hsuffix.getLast (List.cons_ne_nil old [])
      simpa using hlast
    exact Function.update_self ..
  · obtain ⟨before, hbefore⟩ := hsuffix
    rw [← List.cons_append, ← List.append_assoc] at hbefore
    obtain ⟨hinit, hx⟩ := List.append_inj' hbefore rfl
    obtain rfl : x = row := List.singleton_inj.mp hx
    have hne : old.timestamp ≠ x.timestamp :=
      Ne.symm (hrest x (List.mem_append_right _ (List.mem_singleton_self x)))
    rw [recordRow, Function.update_of_ne hne]
    exact h old rest ⟨before, hinit⟩ (fun y hy => hrest y (List.mem_append_left _ hy)) hne

theorem Latest.upsertRow {rows : List MatrixRow} {last : ℤ → Option MatrixRow} (hn : 0 < n)
    (h : Latest rows last) (row : MatrixRow) :
    Latest (MatrixRing.upsertRow n rows row) (recordRow last row) := by
  rcases upsertRow_cases hn rows row with ⟨init, old, rfl, hts, heq⟩ | ⟨-, heq⟩
  · rw [heq]
    refine .concat fun x rest hsuffix hrest hne => ?_
    -- the row that is replaced does not have the time of an older one
    refine h x (rest ++ [old]) ?_ fun y hy => ?_
    · obtain ⟨before, rfl⟩ := hsuffix
      exact ⟨before, by simp⟩
    · rcases List.mem_append.mp hy with hy | hy
      · exact hrest y hy
      · rw [List.mem_singleton.mp hy, hts]
        exact hne.symm
  · rw [heq]
    exact .concat fun x rest hsuffix hrest _ =>
      h x rest (hsuffix.trans (List.drop_suffix _ rows)) hrest

theorem Latest.foldl (hn : 0 < n) (new : List MatrixRow) {rows : List MatrixRow}
    {last : ℤ → Option MatrixRow} (h : Latest rows last) :
    Latest (new.foldl (MatrixRing.upsertRow n) rows) (new.foldl recordRow last) := by
  induction new generalizing rows last with
  | nil => exact h
  | cons row new ih => exact ih (h.upsertRow hn row)

theorem Latest.shift {rows : List MatrixRow} {last : ℤ → Option MatrixRow} (h : Latest rows last)
    (offset : ℚ) :
    Latest (rows.map (·.shift offset)) fun t => (last t).map (·.shift offset) := by
  intro row rest hsuffix hrest
  obtain ⟨kept, hkept, hmap⟩ := List.suffix_map_iff.mp hsuffix
  obtain ⟨old, older, rfl, rfl, rfl⟩ := List.map_eq_cons_iff.mp hmap.symm
  have hold := h old older hkept fun x hx =>
    hrest (x.shift offset) (List.mem_map.mpr ⟨x, hx, rfl⟩)
  show (last old.timestamp).map _ = _
  rw [hold, Option.map_some]

theorem toList_applyPriceOffset (r : MatrixRing n) (offset : ℚ) :
    (r.applyPriceOffset offset).2.toList =
      if 0 < offset then r.toList.map (·.shift offset) else r.toList := by
  unfold MatrixRing.applyPriceOffset
  by_cases hoffset : 0 < offset
  · by_cases hcount : r.cursor.count = 0
    · rw [if_pos (.inr hcount), if_pos hoffset, MatrixRing.toList, Cursor.ordered_eq_nil hcount]
      rfl
    · rw [if_neg (by simp [hoffset, hcount]), if_pos hoffset]
      exact r.cursor.ordered_mapActive _ _
  · rw [if_pos (.inl (not_lt.mp hoffset)), if_neg hoffset]

theorem latest_step {s : Recent n} (h : Latest s.ring.toList s.last) (op : RingOp) :
    Latest (s.step op).ring.toList (s.step op).last := by
  cases op with
  | upsertBar bar =>
    simp only [step, MatrixRing.toList_upsertBar]
    exact h.upsertRow s.ring.cursor.pos _
  | replaceBars bars =>
    simp only [step, MatrixRing.replaceBars, MatrixRing.toList_upsertBars, MatrixRing.toList_clear]
    refine Latest.foldl s.ring.cursor.pos _ fun row rest hsuffix _ => ?_
    exact absurd (List.suffix_nil.mp hsuffix) (List.cons_ne_nil row rest)
  | applyPriceOffset offset =>
    simp only [step, toList_applyPriceOffset]
    split_ifs
    · exact h.shift offset
    · exact h
  | clear =>
    simp only [step, MatrixRing.toList_clear]
    intro row rest hsuffix
    exact absurd (List.suffix_nil.mp hsuffix) (List.cons_ne_nil row rest)

/-! ## The order of the rows -/

def Increasing (rows : List MatrixRow) : Prop := rows.Pairwise (·.timestamp < ·.timestamp)

theorem lastN_of_suffix {rows part : List MatrixRow} (h : part <:+ rows) :
    lastN part.length rows = part := (List.suffix_iff_eq_drop.mp h).symm

theorem timeOrdered_of_increasing {s : Recent n} (hlatest : Latest s.ring.toList s.last)
    (h : Increasing s.ring.toList) (k : Nat) : s.TimeOrdered k := by
  have hsplit : s.ring.toList =
      s.ring.toList.take (s.ring.toList.length - k) ++ lastN k s.ring.toList :=
    (List.take_append_drop _ _).symm
  have hincreasing : Increasing (lastN k s.ring.toList) := h.sublist (List.drop_sublist _ _)
  have htail : s.ring.tail k = lastN k s.ring.toList :=
    s.ring.tail_eq_lastN (hincreasing.imp le_of_lt)
  constructor
  case length => rw [htail, length_lastN, s.ring.length_toList, Nat.min_comm]
  case increasing =>
    rw [htail]
    exact hincreasing
  case values =>
    intro row hrow
    rw [htail] at hrow
    obtain ⟨before, after, hrows⟩ := List.append_of_mem hrow
    refine hlatest row after ?_ fun x hx => ?_
    · exact List.IsSuffix.trans ⟨before, hrows.symm⟩ (List.drop_suffix _ _)
    · rw [hrows] at hincreasing
      have hlater := (List.pairwise_append.mp hincreasing).2.1
      exact (List.rel_of_pairwise_cons hlater hx).ne'
  case greatest =>
    intro row hrow hout kept hkept
    rw [htail] at hout hkept
    rw [Increasing, hsplit, List.pairwise_append] at h
    rw [hsplit] at hrow
    refine h.2.2 row ((List.mem_append.mp hrow).resolve_right fun hin => ?_) kept hkept
    exact hout row hin rfl

theorem increasing_of_timeOrdered {s : Recent n} (h : ∀ k, s.TimeOrdered k) :
    ∀ part, part <:+ s.ring.toList → Increasing part
  | [], _ => List.Pairwise.nil
  | row :: part, hsuffix => by
    have hpart : part <:+ s.ring.toList := (List.suffix_cons row part).trans hsuffix
    have htail := s.ring.tail_perm part.length
    have hlonger := s.ring.tail_perm (row :: part).length
    rw [lastN_of_suffix hpart] at htail
    rw [lastN_of_suffix hsuffix] at hlonger
    have hdistinct : ((row :: part).map (·.timestamp)).Nodup := by
      refine (hlonger.map _).nodup_iff.mp ?_
      exact List.pairwise_map.mpr ((h _).increasing.imp ne_of_lt)
    have hrow : ∀ x ∈ part, x.timestamp ≠ row.timestamp := fun x hx heq =>
      (List.nodup_cons.mp hdistinct).1 (List.mem_map.mpr ⟨x, hx, heq⟩)
    refine List.Pairwise.cons (fun x hx => ?_) (increasing_of_timeOrdered h part hpart)
    exact (h part.length).greatest row (hsuffix.subset List.mem_cons_self)
      (fun kept hkept => hrow kept (htail.mem_iff.mp hkept)) x (htail.mem_iff.mpr hx)

/-- Every tail is in order exactly where the rows are written in order. -/
theorem timeOrdered_iff_increasing {s : Recent n} (hlatest : Latest s.ring.toList s.last) :
    (∀ k, s.TimeOrdered k) ↔ Increasing s.ring.toList :=
  ⟨fun h => increasing_of_timeOrdered h _ (List.suffix_refl _),
    fun h => timeOrdered_of_increasing hlatest h⟩

/-! ## Which operations keep it -/

theorem increasing_concat {init : List MatrixRow} {row : MatrixRow} :
    Increasing (init ++ [row]) ↔
      Increasing init ∧ ∀ old ∈ init, old.timestamp < row.timestamp := by
  simp [Increasing, List.pairwise_append]

/-- The newest of increasing rows has the greatest time. -/
theorem Increasing.le_of_getLast? {rows : List MatrixRow} (h : Increasing rows) {t : ℤ}
    (hlast : ∀ row ∈ rows.getLast?, row.timestamp ≤ t) : ∀ row ∈ rows, row.timestamp ≤ t := by
  intro row hrow
  rcases List.eq_nil_or_concat' rows with rfl | ⟨init, old, rfl⟩
  · exact absurd hrow List.not_mem_nil
  · have hold : old.timestamp ≤ t := hlast old (List.getLast?_concat ..)
    rcases List.mem_append.mp hrow with hin | hin
    · exact ((increasing_concat.mp h).2 row hin).le.trans hold
    · rwa [List.mem_singleton.mp hin]

theorem increasing_upsertRow_iff (hn : 1 < n) {rows : List MatrixRow} (hfit : rows.length ≤ n)
    (h : Increasing rows) (row : MatrixRow) :
    Increasing (MatrixRing.upsertRow n rows row) ↔
      ∀ old ∈ rows.getLast?, old.timestamp ≤ row.timestamp := by
  rcases upsertRow_cases (Nat.zero_lt_of_lt hn) rows row with
    ⟨init, old, rfl, hts, heq⟩ | ⟨hne, heq⟩
  · rw [heq, List.getLast?_concat, increasing_concat]
    rw [increasing_concat, hts] at h
    exact iff_of_true h (by simp [hts])
  · rw [heq, increasing_concat]
    constructor
    · rintro ⟨-, hlt⟩ old hold
      -- the ring has room for two, so the row written last is still there
      rcases List.eq_nil_or_concat' rows with rfl | ⟨init, x, rfl⟩
      · exact absurd hold (by simp)
      · obtain rfl : x = old := by simpa using hold
        refine (hlt x ?_).le
        rw [List.length_append, List.length_singleton] at hfit ⊢
        rw [List.drop_append_of_le_length (by omega)]
        exact List.mem_append_right _ (List.mem_singleton_self x)
    · intro hlast
      refine ⟨h.sublist (List.drop_sublist _ _), fun old hold => ?_⟩
      have hin : old ∈ rows := List.mem_of_mem_drop hold
      obtain ⟨x, hx⟩ : ∃ x, rows.getLast? = some x :=
        ⟨_, List.getLast?_eq_some_getLast (List.ne_nil_of_mem hin)⟩
      have hle : old.timestamp ≤ x.timestamp :=
        h.le_of_getLast? (fun y hy => by rw [Option.some.inj (hx.symm.trans hy)]) old hin
      exact hle.trans_lt ((hlast x hx).lt_of_ne (hne x hx))

theorem map_upsertRow (row : MatrixRow) (rows : List MatrixRow) :
    (MatrixRing.upsertRow n rows row).map (·.timestamp) =
      if (rows.map (·.timestamp)).getLast? = some row.timestamp then rows.map (·.timestamp)
      else appendBounded n (rows.map (·.timestamp)) row.timestamp := by
  unfold MatrixRing.upsertRow
  rw [List.getLast?_map]
  split_ifs with hlast
  · rcases List.eq_nil_or_concat' rows with rfl | ⟨init, old, rfl⟩
    · exact absurd hlast (by simp)
    · rw [List.getLast?_concat, Option.map_some, Option.some.injEq] at hlast
      simp [hlast]
  · exact map_appendBounded ..

/-- A new ring keeps the last times, each run of equal ones counted once. -/
theorem map_foldl_upsertRow (hn : 0 < n) (new : List MatrixRow) :
    (new.foldl (MatrixRing.upsertRow n) []).map (·.timestamp) =
      lastN n ((new.map (·.timestamp)).destutter (· ≠ ·)) := by
  induction new using List.reverseRecOn with
  | nil => simp [lastN]
  | append_singleton new row ih =>
    rw [List.foldl_concat, map_upsertRow, ih, getLast?_lastN hn, getLast?_destutter,
      List.map_append, List.map_singleton, destutter_concat]
    split_ifs
    · rfl
    · exact appendBounded_lastN n _ _

theorem increasing_step_iff (hn : 1 < n) {s : Recent n} (h : Increasing s.ring.toList)
    (op : RingOp) : Increasing (s.step op).ring.toList ↔ s.InOrder op := by
  cases op with
  | upsertBar bar =>
    simp only [step, MatrixRing.toList_upsertBar]
    exact increasing_upsertRow_iff hn (s.ring.length_toList ▸ s.ring.cursor.count_le) h _
  | replaceBars bars =>
    simp only [step, InOrder, MatrixRing.replaceBars, MatrixRing.toList_upsertBars,
      MatrixRing.toList_clear]
    have htimes := map_foldl_upsertRow (Nat.zero_lt_of_lt hn) (bars.map MatrixRow.ofBar)
    rw [List.map_map] at htimes
    rw [Increasing, ← List.pairwise_map (R := (· < ·)), htimes]
    rfl
  | applyPriceOffset offset =>
    simp only [step, InOrder, toList_applyPriceOffset, iff_true]
    split_ifs
    · exact List.pairwise_map.mpr h
    · exact h
  | clear =>
    simp only [step, InOrder, MatrixRing.toList_clear, iff_true]
    exact List.Pairwise.nil

/-! ## Runs -/

/-- The tails are in order all along a run exactly where the bars come in order. -/
theorem timeOrdered_iff (capacity : Nat) (ops : List RingOp) :
    Along step (fun s op => ∀ k, (s.step op).TimeOrdered k) (start capacity) ops ↔
      Along step InOrder (start capacity) ops := by
  have hn : 1 < max capacity lockedBlockCount :=
    lt_max_of_lt_right (by decide : 1 < lockedBlockCount)
  have hempty : (start capacity).ring.toList = [] := Cursor.ordered_eq_nil rfl _
  have hlatest : Latest (start capacity).ring.toList (start capacity).last := by
    rw [hempty]
    intro row rest hsuffix
    exact absurd (List.suffix_nil.mp hsuffix) (List.cons_ne_nil row rest)
  have hincreasing : Increasing (start capacity).ring.toList := by
    rw [hempty]
    exact List.Pairwise.nil
  calc Along step (fun s op => ∀ k, (s.step op).TimeOrdered k) (start capacity) ops
      ↔ Along step (fun s op => Increasing (s.step op).ring.toList) (start capacity) ops :=
        along_congr (I := fun s : Recent _ => Latest s.ring.toList s.last)
          (fun s op h => latest_step h op)
          (fun s op h => timeOrdered_iff_increasing (latest_step h op)) ops hlatest
    _ ↔ Along step InOrder (start capacity) ops :=
        along_next_iff (I := fun s : Recent _ => Latest s.ring.toList s.last)
          (Q := fun s => Increasing s.ring.toList) (fun s op h => latest_step h op)
          (fun s op _ h => increasing_step_iff hn h op) ops hlatest hincreasing

/-- A bar that comes a minute late is read as the newest. -/
theorem lateBar_not_timeOrdered :
    ¬ Along step (fun s op => ∀ k, (s.step op).TimeOrdered k) (start 32)
      [.upsertBar ⟨120000000000, 10, 11, 9, 10, 1, "SPY"⟩,
        .upsertBar ⟨60000000000, 10, 11, 9, 10, 1, "SPY"⟩] := by
  intro h
  obtain ⟨-, hsecond, -⟩ := h
  exact absurd (hsecond 2).increasing (by decide +kernel)

end Recent

end TradingPlatform.Ingestor
