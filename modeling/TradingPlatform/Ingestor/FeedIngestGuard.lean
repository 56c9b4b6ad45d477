import TradingPlatform.Lib.Dict
import TradingPlatform.Lib.Runs
import Mathlib.Algebra.GroupWithZero.Nat

/-! # The feed sequence guard

A bar passes when its time and its number come after those of the last bar of its key
that passed. The number is the vendor's sequence id or, of a bar without one, its time in
milliseconds. Beside the guard stands the log of what became of each bar, the latest
first; which bars are misordered is read off the log. Instants are microseconds. -/

namespace TradingPlatform.Ingestor.FeedIngestGuard

open TradingPlatform.Lib TradingPlatform.Lib.Runs

structure FeedBar where
  symbol : String
  timeframe : String
  timestamp : ℤ
  vendorSequenceId : Option ℤ := none
  deriving DecidableEq

/-- `int(normalized_ts.timestamp() * 1000.0)`. -/
def milliseconds (timestamp : ℤ) : ℤ := timestamp.tdiv 1000

def FeedBar.sequenceId (bar : FeedBar) : ℤ :=
  bar.vendorSequenceId.getD (milliseconds bar.timestamp)

structure BarAcceptance where
  accepted : Bool
  reason : String
  deriving DecidableEq

structure FeedSequenceGuard where
  lastTs : Dict (String × String) ℤ := .empty
  lastSeq : Dict (String × String) ℤ := .empty
  misalignmentEvents : Dict (String × String) ℕ := .empty

def FeedSequenceGuard.reject (guard : FeedSequenceGuard) (key : String × String)
    (reason : String) : BarAcceptance × FeedSequenceGuard :=
  ({ accepted := false, reason },
    { guard with
      misalignmentEvents := guard.misalignmentEvents.set key
        ((guard.misalignmentEvents.get? key).getD 0 + 1) })

section Guard
variable (upper : String → String) (guard : FeedSequenceGuard)

def FeedBar.key (bar : FeedBar) : String × String := (upper bar.symbol, bar.timeframe)

def FeedSequenceGuard.evaluate (bar : FeedBar) : BarAcceptance × FeedSequenceGuard :=
  let key := bar.key upper
  if (guard.lastTs.get? key).any (bar.timestamp ≤ ·) then
    guard.reject key "out_of_order_or_duplicate_timestamp"
  else if (guard.lastSeq.get? key).any (bar.sequenceId ≤ ·) then
    guard.reject key "sequence_misalignment"
  else
    ({ accepted := true, reason := "accepted" },
      { guard with
        lastTs := guard.lastTs.set key bar.timestamp
        lastSeq := guard.lastSeq.set key bar.sequenceId })

/-- Of one key, or of all of them. -/
def FeedSequenceGuard.misalignmentCount : Option String → Option String → ℕ
  | some symbol, some timeframe =>
    (guard.misalignmentEvents.get? (upper symbol, timeframe)).getD 0
  | _, _ => (guard.misalignmentEvents.items.map Prod.snd).sum

end Guard

/-! ## The log of a feed -/

abbrev Log := List (FeedBar × BarAcceptance)

structure Feed where
  guard : FeedSequenceGuard := {}
  log : Log := []

section Feeds
variable (upper : String → String)

def Feed.step (feed : Feed) (bar : FeedBar) : Feed :=
  let (acceptance, guard) := feed.guard.evaluate upper bar
  ⟨guard, (bar, acceptance) :: feed.log⟩

/-- The bars of a key that passed, the latest first. -/
def passed (key : String × String) (log : Log) : List FeedBar :=
  (log.filter fun entry => entry.2.accepted && decide (entry.1.key upper = key)).map Prod.fst

def lastVendorId (key : String × String) (log : Log) : Option ℤ :=
  (passed upper key log).findSome? FeedBar.vendorSequenceId

def rejected (key : String × String) (log : Log) : ℕ :=
  log.countP fun entry => !entry.2.accepted && decide (entry.1.key upper = key)

/-- The bar's time is later than that of the last bar of its key that passed, and its
vendor id, if it has one, greater than the last of its key. -/
def InOrder (log : Log) (bar : FeedBar) : Prop :=
  (∀ prior ∈ (passed upper (bar.key upper) log).head?, prior.timestamp < bar.timestamp) ∧
    ∀ id ∈ bar.vendorSequenceId, ∀ prior ∈ lastVendorId upper (bar.key upper) log, prior < id

/-- The numbers of two bars in order are in order too. Those of two bars with ids are. -/
def NumbersAgree (prior bar : FeedBar) : Prop :=
  match prior.vendorSequenceId, bar.vendorSequenceId with
  | some _, some _ => True
  | none, none => milliseconds prior.timestamp ≠ milliseconds bar.timestamp
  | none, some id => milliseconds prior.timestamp < id
  | some id, none => id < milliseconds bar.timestamp

/-- The times of a key's bars increase, and so do the vendor ids among them. -/
def Increasing (key : String × String) (bars : List FeedBar) : Prop :=
  let own := bars.filter fun bar => bar.key upper = key
  (own.map FeedBar.timestamp).Pairwise (· < ·) ∧
    (own.filterMap FeedBar.vendorSequenceId).Pairwise (· < ·)

/-- **The guard rejects exactly the misordered bars.** -/
structure RejectsMisordered (bars : List FeedBar) : Prop where
  accepts : Along (Feed.step upper)
    (fun feed bar => (feed.guard.evaluate upper bar).1.accepted = true ↔
      InOrder upper feed.log bar) {} bars
  keeps : ∀ key, Increasing upper key bars →
    ∀ entry ∈ (run (Feed.step upper) {} bars).log, entry.1.key upper = key →
      entry.2.accepted = true
  counts : ∀ symbol timeframe,
    (run (Feed.step upper) {} bars).guard.misalignmentCount upper (some symbol) (some timeframe) =
      rejected upper (upper symbol, timeframe) (run (Feed.step upper) {} bars).log

end Feeds

/-! ## What the guard remembers -/

section Proofs
variable {upper : String → String} {feed : Feed} {bar : FeedBar}

theorem passed_cons (key : String × String) (entry : FeedBar × BarAcceptance) (log : Log) :
    passed upper key (entry :: log) =
      if entry.2.accepted && decide (entry.1.key upper = key) then
        entry.1 :: passed upper key log
      else passed upper key log := by
  simp only [passed, List.filter_cons]
  split <;> simp

theorem mem_passed {key : String × String} {log : Log} {b : FeedBar}
    (h : b ∈ passed upper key log) : ∃ entry ∈ log, entry.1 = b ∧ b.key upper = key := by
  obtain ⟨entry, hentry, rfl⟩ := List.mem_map.mp h
  simp only [List.mem_filter, Bool.and_eq_true, decide_eq_true_eq] at hentry
  exact ⟨entry, hentry.1, rfl, hentry.2.2⟩

/-- The guard's tables against the log; no id that passed exceeds the last number. -/
structure Remembers (upper : String → String) (feed : Feed) : Prop where
  lastTs : ∀ key, feed.guard.lastTs.get? key =
    (passed upper key feed.log).head?.map FeedBar.timestamp
  lastSeq : ∀ key, feed.guard.lastSeq.get? key =
    (passed upper key feed.log).head?.map FeedBar.sequenceId
  vendorId : ∀ key, ∀ id ∈ lastVendorId upper key feed.log,
    ∀ last ∈ (passed upper key feed.log).head?, id ≤ last.sequenceId
  misaligned : ∀ key, (feed.guard.misalignmentEvents.get? key).getD 0 =
    rejected upper key feed.log

/-- A bar passes when its time and its number come after those of the last that passed. -/
theorem accepted_iff (h : Remembers upper feed) :
    (feed.guard.evaluate upper bar).1.accepted = true ↔
      ∀ prior ∈ (passed upper (bar.key upper) feed.log).head?,
        prior.timestamp < bar.timestamp ∧ prior.sequenceId < bar.sequenceId := by
  simp only [FeedSequenceGuard.evaluate, h.lastTs, h.lastSeq]
  cases hlast : (passed upper (bar.key upper) feed.log).head? with
  | none => simp
  | some prior =>
    simp only [Option.map_some, Option.any_some, decide_eq_true_eq, Option.mem_some_iff,
      forall_eq']
    split_ifs with hts hseq
    · simp [FeedSequenceGuard.reject, hts.not_gt]
    · simp [FeedSequenceGuard.reject, hseq.not_gt]
    · simp [not_le.mp hts, not_le.mp hseq]

theorem evaluate_of_accepted (h : (feed.guard.evaluate upper bar).1.accepted = true) :
    (feed.guard.evaluate upper bar).2 =
      { feed.guard with
        lastTs := feed.guard.lastTs.set (bar.key upper) bar.timestamp
        lastSeq := feed.guard.lastSeq.set (bar.key upper) bar.sequenceId } := by
  unfold FeedSequenceGuard.evaluate at h ⊢
  simp only at h ⊢
  split_ifs at h ⊢ with hts hseq
  · cases h
  · cases h
  · rfl

theorem evaluate_of_rejected (h : (feed.guard.evaluate upper bar).1.accepted = false) :
    (feed.guard.evaluate upper bar).2 =
      { feed.guard with
        misalignmentEvents := feed.guard.misalignmentEvents.set (bar.key upper)
          ((feed.guard.misalignmentEvents.get? (bar.key upper)).getD 0 + 1) } := by
  unfold FeedSequenceGuard.evaluate at h ⊢
  simp only at h ⊢
  split_ifs at h ⊢ with hts hseq
  · rfl
  · rfl

theorem passed_step (key : String × String) : passed upper key (feed.step upper bar).log =
    if (feed.guard.evaluate upper bar).1.accepted && decide (bar.key upper = key) then
      bar :: passed upper key feed.log
    else passed upper key feed.log :=
  passed_cons key _ _

/-- No id that passed, nor its own, exceeds the number of a bar that passes. -/
theorem vendorId_le_sequenceId (h : Remembers upper feed)
    (hacc : (feed.guard.evaluate upper bar).1.accepted = true) {id : ℤ}
    (hid : (bar :: passed upper (bar.key upper) feed.log).findSome? FeedBar.vendorSequenceId =
      some id) : id ≤ bar.sequenceId := by
  have hnew := (accepted_iff h).mp hacc
  cases hown : bar.vendorSequenceId with
  | some own =>
    obtain rfl : own = id := by simpa [hown] using hid
    simp [FeedBar.sequenceId, hown]
  | none =>
    -- an older id is below the number of the bar before, and that below this one's
    rw [List.findSome?_cons, hown] at hid
    cases hhead : (passed upper (bar.key upper) feed.log).head? with
    | none =>
      rw [List.head?_eq_none_iff] at hhead
      simp [hhead] at hid
    | some prior => exact (h.vendorId _ id hid prior hhead).trans (hnew prior hhead).2.le

theorem remembers_accepted (h : Remembers upper feed)
    (hacc : (feed.guard.evaluate upper bar).1.accepted = true) :
    Remembers upper (feed.step upper bar) := by
  have hlog : (feed.step upper bar).log =
      (bar, (feed.guard.evaluate upper bar).1) :: feed.log := rfl
  have hguard : (feed.step upper bar).guard = _ := evaluate_of_accepted hacc
  refine ⟨fun key => ?_, fun key => ?_, fun key id hid last hlast => ?_, fun key => ?_⟩
  · rw [hguard, passed_step, hacc]
    by_cases hkey : bar.key upper = key
    · simp [hkey]
    · simp [hkey, Dict.get?_set_ne _ (Ne.symm hkey), h.lastTs]
  · rw [hguard, passed_step, hacc]
    by_cases hkey : bar.key upper = key
    · simp [hkey]
    · simp [hkey, Dict.get?_set_ne _ (Ne.symm hkey), h.lastSeq]
  · rw [lastVendorId, passed_step, hacc, Bool.true_and] at hid
    rw [passed_step, hacc, Bool.true_and] at hlast
    by_cases hkey : bar.key upper = key
    · subst hkey
      rw [if_pos (by simp)] at hid hlast
      obtain rfl : bar = last := by simpa using hlast
      exact vendorId_le_sequenceId h hacc hid
    · rw [if_neg (by simpa using hkey)] at hid hlast
      exact h.vendorId key id hid last hlast
  · rw [hguard, hlog, rejected, List.countP_cons, hacc]
    exact h.misaligned key

theorem remembers_rejected (h : Remembers upper feed)
    (hacc : (feed.guard.evaluate upper bar).1.accepted = false) :
    Remembers upper (feed.step upper bar) := by
  have hlog : (feed.step upper bar).log =
      (bar, (feed.guard.evaluate upper bar).1) :: feed.log := rfl
  have hguard : (feed.step upper bar).guard = _ := evaluate_of_rejected hacc
  have hpassed : ∀ key, passed upper key (feed.step upper bar).log =
      passed upper key feed.log := by simp [passed_step, hacc]
  refine ⟨fun key => ?_, fun key => ?_, fun key => ?_, fun key => ?_⟩
  · rw [hguard, hpassed, h.lastTs]
  · rw [hguard, hpassed, h.lastSeq]
  · rw [lastVendorId, hpassed]
    exact h.vendorId key
  · rw [hguard, hlog, rejected, List.countP_cons, hacc]
    by_cases hkey : bar.key upper = key
    · simp [hkey, h.misaligned, rejected]
    · simp [hkey, Dict.get?_set_ne _ (Ne.symm hkey), h.misaligned, rejected]

/-- **One bar** leaves the tables true to the log. -/
theorem remembers_step (feed : Feed) (bar : FeedBar) (h : Remembers upper feed) :
    Remembers upper (feed.step upper bar) := by
  cases hacc : (feed.guard.evaluate upper bar).1.accepted with
  | true => exact remembers_accepted h hacc
  | false => exact remembers_rejected h hacc

theorem remembers_new : Remembers upper {} :=
  ⟨fun _ => rfl, fun _ => rfl, fun _ _ hid => (by cases hid), fun _ => rfl⟩

/-! ## Misordered bars -/

theorem milliseconds_mono {s t : ℤ} (h : s ≤ t) : milliseconds s ≤ milliseconds t :=
  Int.tdiv_le_tdiv (by decide) h

/-- **One bar**: a bar in order passes exactly when its number is of the kind of the last
one, or comes after it all the same. -/
theorem accepted_iff_inOrder (feed : Feed) (bar : FeedBar) (h : Remembers upper feed) :
    ((feed.guard.evaluate upper bar).1.accepted = true ↔ InOrder upper feed.log bar) ↔
      (InOrder upper feed.log bar →
        ∀ prior ∈ (passed upper (bar.key upper) feed.log).head?, NumbersAgree prior bar) := by
  rw [accepted_iff h]
  have hsound : (∀ prior ∈ (passed upper (bar.key upper) feed.log).head?,
      prior.timestamp < bar.timestamp ∧ prior.sequenceId < bar.sequenceId) →
        InOrder upper feed.log bar := by
    intro hall
    refine ⟨fun prior hprior => (hall prior hprior).1, fun id hid old hold => ?_⟩
    cases hhead : (passed upper (bar.key upper) feed.log).head? with
    | none =>
      rw [List.head?_eq_none_iff] at hhead
      simp [lastVendorId, hhead] at hold
    | some prior =>
      have hseq : bar.sequenceId = id := by simp [FeedBar.sequenceId, Option.mem_def.mp hid]
      have hlast := (hall prior hhead).2
      have hle := h.vendorId _ old hold prior hhead
      omega
  have hconverse : ((∀ prior ∈ (passed upper (bar.key upper) feed.log).head?,
      prior.timestamp < bar.timestamp ∧ prior.sequenceId < bar.sequenceId) ↔
        InOrder upper feed.log bar) ↔ (InOrder upper feed.log bar →
          ∀ prior ∈ (passed upper (bar.key upper) feed.log).head?,
            prior.timestamp < bar.timestamp ∧ prior.sequenceId < bar.sequenceId) :=
    ⟨fun h => h.mpr, fun h => ⟨hsound, h⟩⟩
  rw [hconverse]
  refine forall_congr' fun horder => forall₂_congr fun prior hprior => ?_
  have hts := horder.1 prior hprior
  rw [and_iff_right hts]
  unfold NumbersAgree FeedBar.sequenceId
  cases hold : prior.vendorSequenceId with
  | none =>
    cases hown : bar.vendorSequenceId with
    | none =>
      have hle := milliseconds_mono hts.le
      simp only [Option.getD_none]
      omega
    | some id => simp
  | some old =>
    cases hown : bar.vendorSequenceId with
    | none => simp
    | some id =>
      have hlast : lastVendorId upper (bar.key upper) feed.log = some old := by
        rw [lastVendorId, List.findSome?_eq_some_iff]
        obtain ⟨rest, hrest⟩ := List.head?_eq_some_iff.mp hprior
        exact ⟨[], prior, rest, by simpa using hrest, hold, by simp⟩
      simp [horder.2 id hown old hlast]

variable (upper) in
theorem log_run (bars : List FeedBar) :
    (run (Feed.step upper) {} bars).log.map Prod.fst = bars.reverse := by
  induction bars using List.reverseRecOn with
  | nil => rfl
  | append_singleton bars bar ih =>
    rw [run_append, List.reverse_append]
    exact congrArg (bar :: ·) ih

theorem mem_of_passed {key : String × String} {bars : List FeedBar} {b : FeedBar}
    (h : b ∈ passed upper key (run (Feed.step upper) {} bars).log) :
    b ∈ bars.filter fun bar => bar.key upper = key := by
  obtain ⟨entry, hentry, rfl, hkey⟩ := mem_passed h
  have hmem : entry.1 ∈ bars := by
    rw [← List.mem_reverse, ← log_run upper]
    exact List.mem_map_of_mem hentry
  simpa using ⟨hmem, hkey⟩

/-- Where exactly the bars in order pass, a feed that increases loses none. -/
theorem keeps_of_accepts {key : String × String} {bars : List FeedBar}
    (h : Along (Feed.step upper) (fun feed bar =>
      (feed.guard.evaluate upper bar).1.accepted = true ↔ InOrder upper feed.log bar) {} bars)
    (hinc : Increasing upper key bars) :
    ∀ entry ∈ (run (Feed.step upper) {} bars).log, entry.1.key upper = key →
      entry.2.accepted = true := by
  induction bars using List.reverseRecOn with
  | nil => simp
  | append_singleton bars bar ih =>
    obtain ⟨hbars, hbar, -⟩ := along_append.mp h
    rw [run_append]
    intro entry hentry hkey
    unfold Increasing at hinc
    simp only [List.filter_append, List.map_append, List.filterMap_append,
      List.pairwise_append] at hinc
    rcases List.mem_cons.mp hentry with rfl | hentry
    · -- every bar of the key before is earlier, and has a lower id if it has any
      have hown : bar ∈ [bar].filter fun bar => bar.key upper = key := by simpa using hkey
      obtain rfl : bar.key upper = key := hkey
      refine hbar.mpr ⟨fun prior hprior => ?_, fun id hid old hold => ?_⟩
      · exact hinc.1.2.2 _ (List.mem_map_of_mem (mem_of_passed (List.mem_of_mem_head? hprior)))
          _ (List.mem_map_of_mem hown)
      · obtain ⟨prior, hprior, hprior'⟩ := List.exists_of_findSome?_eq_some hold
        exact hinc.2.2.2 _ (List.mem_filterMap.mpr ⟨prior, mem_of_passed hprior, hprior'⟩)
          _ (List.mem_filterMap.mpr ⟨bar, hown, hid⟩)
    · exact ih hbars ⟨hinc.1.1, hinc.2.1⟩ entry hentry hkey

/-- **The guard rejects exactly the misordered bars** of a stream exactly when the number
of each bar in order agrees with that of the last bar of its key that passed. -/
theorem rejectsMisordered_iff (upper : String → String) (bars : List FeedBar) :
    RejectsMisordered upper bars ↔
      Along (Feed.step upper) (fun feed bar => InOrder upper feed.log bar →
        ∀ prior ∈ (passed upper (bar.key upper) feed.log).head?, NumbersAgree prior bar)
        {} bars := by
  have hremembers : Remembers upper {} := remembers_new
  have haccepts := along_congr remembers_step accepted_iff_inOrder bars hremembers
  refine ⟨fun h => haccepts.mp h.accepts, fun h => ?_⟩
  have hrun : Remembers upper (run (Feed.step upper) {} bars) :=
    run_keeps remembers_step remembers_new bars
  exact ⟨haccepts.mpr h, fun _ => keeps_of_accepts (haccepts.mpr h),
    fun symbol timeframe => hrun.misaligned (upper symbol, timeframe)⟩

/-- A bar without an id, then the first one with an id, a second later. -/
def mixedFeed : List FeedBar :=
  [⟨"QQQ", "15Min", 1785000000000000, none⟩, ⟨"QQQ", "15Min", 1785000001000000, some 42⟩]

theorem mixed_feed_loses_bar : ¬ RejectsMisordered id mixedFeed := by
  intro h
  have hincreasing : Increasing id ("QQQ", "15Min") mixedFeed := ⟨by decide, by decide⟩
  have hkept := h.keeps ("QQQ", "15Min") hincreasing
    (⟨"QQQ", "15Min", 1785000001000000, some 42⟩, ⟨false, "sequence_misalignment"⟩)
    (by decide) rfl
  cases hkept

end Proofs

end TradingPlatform.Ingestor.FeedIngestGuard
