import TradingPlatform.Lib.Like

/-! # Clearing one leg's staged orders

The keys to clear are picked by a LIKE pattern that starts with the leg's ids as
they are, and the ids are not escaped. -/

namespace TradingPlatform.Persistence.PendingOrders

open TradingPlatform.Lib

structure PendingOrder where
  orderKey : String
  strategyId : String
  symbol : String
  side : String
  brokerOrderId : Option String
  submittedAt : String
  deriving DecidableEq

/-- `pending_order_stage`; `order_key` is its primary key. -/
structure PendingOrderStage where
  rows : List PendingOrder
  unique : (rows.map (·.orderKey)).Nodup
  deriving DecidableEq

/-- The rows that `DELETE ... WHERE` leaves. -/
def PendingOrderStage.delete (stage : PendingOrderStage) (p : PendingOrder → Bool) :
    PendingOrderStage where
  rows := stage.rows.filter fun row => !p row
  unique := stage.unique.sublist (List.filter_sublist.map _)

section Clear
variable (upper : String → String) (likePatternLimit : ℕ)

def prefixOf (strategyId symbol : String) : String := strategyId ++ ":" ++ upper symbol ++ ":"

def patternOf (strategyId symbol : String) : String := prefixOf upper strategyId symbol ++ "%"

def PendingOrder.matches (pattern : String) (row : PendingOrder) : Bool :=
  like pattern.toList row.orderKey.toList

/-- The deleted rows' number and the stage after. A pattern of more bytes than SQLite's
limit raises at the first row it is tried on. -/
def clearPrefix (strategyId symbol : String) (stage : PendingOrderStage) :
    Except String (ℕ × PendingOrderStage) :=
  let pattern := patternOf upper strategyId symbol
  if stage.rows ≠ [] ∧ likePatternLimit < pattern.utf8ByteSize then
    .error "LIKE or GLOB pattern too complex"
  else .ok (stage.rows.countP (·.matches pattern), stage.delete (·.matches pattern))

/-- Exactly the rows of the prefix are gone. -/
def ClearsOnlyLeg (strategyId symbol : String) (stage : PendingOrderStage) : Prop :=
  ∃ after, clearPrefix upper likePatternLimit strategyId symbol stage =
      .ok (stage.rows.countP fun row =>
        (prefixOf upper strategyId symbol).toList <+: row.orderKey.toList, after) ∧
    after.rows = stage.rows.filter fun row =>
      ¬ (prefixOf upper strategyId symbol).toList <+: row.orderKey.toList

/-- The pattern is short enough, and every stored key that it resembles starts with the prefix. -/
structure ResemblesOnlyLeg (strategyId symbol : String) (stage : PendingOrderStage) : Prop where
  short : stage.rows ≠ [] → (patternOf upper strategyId symbol).utf8ByteSize ≤ likePatternLimit
  only : ∀ row ∈ stage.rows,
    Resembles (untilNul (patternOf upper strategyId symbol).toList)
        (untilNul row.orderKey.toList) →
      (prefixOf upper strategyId symbol).toList <+: row.orderKey.toList

end Clear

variable {upper : String → String} {likePatternLimit : ℕ} {strategyId symbol : String}
  {stage : PendingOrderStage}

theorem toList_patternOf :
    (patternOf upper strategyId symbol).toList =
      (prefixOf upper strategyId symbol).toList ++ ['%'] := String.toList_append

/-- The leg's own rows are always matched. -/
theorem matches_of_starts {row : PendingOrder}
    (h : (prefixOf upper strategyId symbol).toList <+: row.orderKey.toList) :
    row.matches (patternOf upper strategyId symbol) = true := by
  obtain ⟨rest, hrest⟩ := h
  rw [PendingOrder.matches, like_iff, toList_patternOf, ← hrest]
  by_cases hnul : '\x00' ∈ (prefixOf upper strategyId symbol).toList
  · rw [untilNul_append_of_mem hnul, untilNul_append_of_mem hnul]
    exact .refl _
  · rw [untilNul_append_of_notMem hnul, untilNul_append_of_notMem hnul]
    exact Resembles.append_percent_iff.mpr ⟨_, List.prefix_append _ _, .refl _⟩

theorem clearPrefix_eq_ok {n : ℕ} {after : PendingOrderStage} :
    clearPrefix upper likePatternLimit strategyId symbol stage = .ok (n, after) ↔
      (stage.rows ≠ [] →
        (patternOf upper strategyId symbol).utf8ByteSize ≤ likePatternLimit) ∧
      n = stage.rows.countP (·.matches (patternOf upper strategyId symbol)) ∧
      after = stage.delete (·.matches (patternOf upper strategyId symbol)) := by
  unfold clearPrefix
  dsimp only
  split
  next h => exact iff_of_false nofun fun hok => absurd h.2 (not_lt.mpr (hok.1 h.1))
  next h =>
    rw [not_and, not_lt] at h
    rw [Except.ok.injEq, Prod.mk.injEq, eq_comm, @eq_comm _ _ after]
    exact ⟨fun hok => ⟨h, hok⟩, fun hok => hok.2⟩

theorem ClearsOnlyLeg.resembles
    (h : ClearsOnlyLeg upper likePatternLimit strategyId symbol stage) :
    ResemblesOnlyLeg upper likePatternLimit strategyId symbol stage := by
  obtain ⟨after, hclear, hrows⟩ := h
  obtain ⟨hshort, -, rfl⟩ := clearPrefix_eq_ok.mp hclear
  refine ⟨hshort, fun row hrow hresembles => ?_⟩
  by_contra hstarts
  have hkept : row ∈ (stage.delete (·.matches (patternOf upper strategyId symbol))).rows := by
    rw [hrows]
    exact List.mem_filter.mpr ⟨hrow, decide_eq_true hstarts⟩
  have hmatches : row.matches (patternOf upper strategyId symbol) = true :=
    like_iff.mpr hresembles
  have hunmatched := (List.mem_filter.mp hkept).2
  dsimp only at hunmatched
  rw [hmatches] at hunmatched
  cases hunmatched

theorem ResemblesOnlyLeg.clears
    (h : ResemblesOnlyLeg upper likePatternLimit strategyId symbol stage) :
    ClearsOnlyLeg upper likePatternLimit strategyId symbol stage := by
  obtain ⟨hshort, honly⟩ := h
  have hmatches : ∀ row ∈ stage.rows, row.matches (patternOf upper strategyId symbol) = true ↔
      (prefixOf upper strategyId symbol).toList <+: row.orderKey.toList :=
    fun row hrow => ⟨fun h => honly row hrow (like_iff.mp h), matches_of_starts⟩
  refine ⟨stage.delete (·.matches (patternOf upper strategyId symbol)),
    clearPrefix_eq_ok.mpr ⟨hshort, ?_, rfl⟩, ?_⟩
  · refine List.countP_congr fun row hrow => ?_
    rw [decide_eq_true_iff]
    exact (hmatches row hrow).symm
  · refine List.filter_congr fun row hrow => ?_
    by_cases hstarts : (prefixOf upper strategyId symbol).toList <+: row.orderKey.toList
    · simp [hstarts, (hmatches row hrow).mpr hstarts]
    · simp [hstarts, Bool.eq_false_iff.mpr (mt (hmatches row hrow).mp hstarts)]

/-- **Only the leg's rows are cleared** exactly when the pattern is short enough and every
stored key that it resembles starts with the prefix. -/
theorem clearsOnlyLeg_iff (upper : String → String) (likePatternLimit : ℕ)
    (strategyId symbol : String) (stage : PendingOrderStage) :
    ClearsOnlyLeg upper likePatternLimit strategyId symbol stage ↔
      ResemblesOnlyLeg upper likePatternLimit strategyId symbol stage :=
  ⟨ClearsOnlyLeg.resembles, ResemblesOnlyLeg.clears⟩

/-- A stage with one order. -/
def staged (orderKey : String) : PendingOrderStage where
  rows := [{ orderKey, strategyId := "", symbol := "", side := "buy", brokerOrderId := none
             submittedAt := "" }]
  unique := by simp

/-- A key that is not the leg's, yet resembles its pattern. -/
theorem exists_foreign {c : Char} (hc : c ∈ (prefixOf upper strategyId symbol).toList)
    (hplain : ¬ PlainChar c) :
    ∃ key, Resembles (untilNul (patternOf upper strategyId symbol).toList) (untilNul key) ∧
      ¬ (prefixOf upper strategyId symbol).toList <+: key := by
  rw [toList_patternOf]
  generalize (prefixOf upper strategyId symbol).toList = leg at *
  by_cases hnul : '\x00' ∈ leg
  · refine ⟨untilNul leg, ?_, fun hstarts => ?_⟩
    · rw [untilNul_append_of_mem hnul, untilNul_eq_self (nul_notMem_untilNul leg)]
      exact .refl _
    · exact nul_notMem_untilNul leg (hstarts.subset hnul)
  · obtain ⟨d, hne, hd, hcd⟩ := Resembles.exists_other hplain fun h => hnul (h ▸ hc)
    obtain ⟨front, rest, rfl⟩ := List.append_of_mem hc
    have hkey : '\x00' ∉ front ++ d :: rest := by
      simp only [List.mem_append, List.mem_cons, not_or] at hnul ⊢
      exact ⟨hnul.1, hd.symm, hnul.2.2⟩
    refine ⟨front ++ d :: rest, ?_, fun hstarts => ?_⟩
    · rw [untilNul_append_of_notMem hnul, untilNul_eq_self hkey]
      have hresembles : Resembles (front ++ c :: rest) (front ++ d :: rest) :=
        (Resembles.refl front).append (hcd.append (.refl rest))
      exact Resembles.append_percent_iff.mpr ⟨_, List.prefix_rfl, hresembles⟩
    · have hsame := hstarts.eq_of_length (by simp)
      exact hne (List.cons.inj (List.append_cancel_left hsame)).1.symm

/-- **Ids that are safe whatever is staged** have no wildcard, no ASCII letter and no NUL,
and a pattern that is short enough. -/
theorem clearsOnlyLeg_always_iff (upper : String → String) (likePatternLimit : ℕ)
    (strategyId symbol : String) :
    (∀ stage, ClearsOnlyLeg upper likePatternLimit strategyId symbol stage) ↔
      (patternOf upper strategyId symbol).utf8ByteSize ≤ likePatternLimit ∧
        ∀ c ∈ (prefixOf upper strategyId symbol).toList, PlainChar c := by
  constructor
  · intro h
    refine ⟨(h (staged "")).resembles.short (List.cons_ne_nil _ _), fun c hc => ?_⟩
    by_contra hplain
    obtain ⟨key, hresembles, hforeign⟩ := exists_foreign hc hplain
    have honly := (h (staged (String.ofList key))).resembles.only _ List.mem_cons_self
    simp only [String.toList_ofList] at honly
    exact hforeign (honly hresembles)
  · rintro ⟨hshort, hplain⟩ stage
    refine ResemblesOnlyLeg.clears ⟨fun _ => hshort, fun row hrow hresembles => ?_⟩
    have hnul : '\x00' ∉ (prefixOf upper strategyId symbol).toList :=
      fun hnul => (hplain _ hnul).2.2.1 rfl
    rw [toList_patternOf, untilNul_append_of_notMem hnul] at hresembles
    obtain ⟨start, hstart, hstarts⟩ := Resembles.append_percent_iff.mp hresembles
    rw [← hstarts.eq_of_plain hplain]
    exact hstart.trans (untilNul_start _)

/-- The underscore of one leg's id stands for the letter of another's. -/
theorem underscore_clears_other_leg :
    ¬ ClearsOnlyLeg id 50000 "mr_qqq" "QQQ" (staged "mrxqqq:QQQ:o1") := by
  rintro ⟨after, hclear, -⟩
  have hdeleted : (clearPrefix id 50000 "mr_qqq" "QQQ" (staged "mrxqqq:QQQ:o1")).map Prod.fst =
      .ok 1 := by decide +kernel
  rw [hclear] at hdeleted
  have hcount : (staged "mrxqqq:QQQ:o1").rows.countP (fun row =>
      (prefixOf id "mr_qqq" "QQQ").toList <+: row.orderKey.toList) = 1 := Except.ok.inj hdeleted
  exact absurd hcount (by decide +kernel)

end TradingPlatform.Persistence.PendingOrders
