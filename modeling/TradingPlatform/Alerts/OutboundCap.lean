import TradingPlatform.Lib.Interleave
import Mathlib.Algebra.Order.Ring.Int

/-! # The outbound cap of the push channel

Processes share one database of sends. A call reads the clock, counts the
sends of its lane and records its own in separate statements; an INSERT and
the commit that ends its transaction are one step, for no reader sees the row
between them. Times are microseconds: the texts compared in the statements are
of one zone and sort as the instants do. -/

namespace TradingPlatform.Alerts

open TradingPlatform.Lib TradingPlatform.Lib.Runs TradingPlatform.Lib.Interleave

inductive Lane
  | routine
  | priority
  deriving DecidableEq, Repr

def Lane.value : Lane → String
  | .routine => "routine"
  | .priority => "priority"

/-- The two windows sends are counted in. -/
inductive Span
  | hour
  | day
  deriving DecidableEq, Repr

def Span.length : Span → ℤ
  | .hour => 3600000000
  | .day => 86400000000

/-- A row of `alert_channel_sends`. -/
structure Send where
  sentUtc : ℤ
  kind : String
  lane : Lane
  deriving DecidableEq

/-- Of an incident (all are of kind 429) only the time is kept. -/
structure ChannelDb where
  sends : List Send
  incidents : List ℤ

structure OutboundCap where
  maxRoutinePerHour : Nat := 8
  maxRoutinePerDay : Nat := 50
  priorityPerHour : Nat := 4
  backoff : ℤ := 3600000000

def priorityKinds : List String := ["daily_liveness"]

def prioritySeverities : List String := ["urgent", "critical", "high"]

def isPriority (lower : String → String) (kind severity : String) : Bool :=
  kind ∈ priorityKinds || lower severity ∈ prioritySeverities

/-- What a COUNT answers, and how many rows the table had: the statement does
not return the latter, it only says later which rows the count has seen. -/
structure Counted where
  count : Nat
  rows : Nat

inductive Call
  | clock
  | lastIncident
  | countSince (since : ℤ) (lane : Lane)
  | insertSend (send : Send) (seen : Span → Nat)
  | insertIncident (time : ℤ)

abbrev Call.Resp : Call → Type
  | .clock => ℤ
  | .lastIncident => Option ℤ
  | .countSince _ _ => Counted
  | .insertSend _ _ => Unit
  | .insertIncident _ => Unit

def countSince (sends : List Send) (since : ℤ) (lane : Lane) : Nat :=
  sends.countP fun s => since ≤ s.sentUtc ∧ s.lane = lane

/-- One statement; the clock answers what the environment says. -/
def answer (now : ℤ) : (c : Call) → ChannelDb → c.Resp × ChannelDb
  | .clock, db => (now, db)
  | .lastIncident, db => (db.incidents.max?, db)
  | .countSince since lane, db => (⟨countSince db.sends since lane, db.sends.length⟩, db)
  | .insertSend send _, db => ((), { db with sends := db.sends ++ [send] })
  | .insertIncident time, db => ((), { db with incidents := db.incidents ++ [time] })

inductive Outcome
  | decided (allowed : Bool) (reason : String)
  | noted
  deriving DecidableEq

abbrev CapProg := Prog Call Call.Resp Outcome

def OutboundCap.record (send : Send) (seen : Span → Nat) : CapProg :=
  .call (.insertSend send seen) fun _ => .ret (.decided true send.lane.value)

def OutboundCap.allow (cap : OutboundCap) (lower : String → String) (kind severity : String) :
    CapProg :=
  .call .clock fun now : ℤ =>
  .call .lastIncident fun last429 : Option ℤ =>
    if !isPriority lower kind severity && last429.any (now - · < cap.backoff) then
      .ret (.decided false "channel_backoff_after_429")
    else if isPriority lower kind severity then
      .call (.countSince (now - Span.hour.length) .priority) fun inHour : Counted =>
        if cap.priorityPerHour ≤ inHour.count then .ret (.decided false "priority_hourly_cap")
        else record ⟨now, kind, .priority⟩ fun _ => inHour.rows
    else
      .call (.countSince (now - Span.hour.length) .routine) fun inHour : Counted =>
        if cap.maxRoutinePerHour ≤ inHour.count then .ret (.decided false "routine_hourly_cap")
        else
          .call (.countSince (now - Span.day.length) .routine) fun inDay : Counted =>
            if cap.maxRoutinePerDay ≤ inDay.count then .ret (.decided false "routine_daily_cap")
            else
              record ⟨now, kind, .routine⟩ fun
                | .hour => inHour.rows
                | .day => inDay.rows

def note429 : CapProg := .call .clock fun now : ℤ => .call (.insertIncident now) fun _ => .ret .noted

inductive Op
  | allow (kind severity : String)
  | note429

def Op.prog (cap : OutboundCap) (lower : String → String) : Op → CapProg
  | .allow kind severity => cap.allow lower kind severity
  | .note429 => Alerts.note429

abbrev Processes := Config ChannelDb Op Call Call.Resp Outcome

/-- One turn of the scheduler: a new call, or one statement of a running one. -/
def turn (cap : OutboundCap) (lower : String → String) : Processes → Move Op ℤ → Processes :=
  move (Op.prog cap lower) answer

/-! ## The caps -/

structure Rule where
  lane : Lane
  span : Span
  limit : Nat
  deriving DecidableEq

def OutboundCap.rules (cap : OutboundCap) : List Rule :=
  [⟨.routine, .hour, cap.maxRoutinePerHour⟩, ⟨.routine, .day, cap.maxRoutinePerDay⟩,
    ⟨.priority, .hour, cap.priorityPerHour⟩]

theorem mem_rules {cap : OutboundCap} {rule : Rule} (h : rule ∈ cap.rules) :
    rule = ⟨.routine, .hour, cap.maxRoutinePerHour⟩ ∨
      rule = ⟨.routine, .day, cap.maxRoutinePerDay⟩ ∨
      rule = ⟨.priority, .hour, cap.priorityPerHour⟩ := by
  simpa [OutboundCap.rules] using h

/-- The sends of the rule's lane in the window that ends at `stop`. -/
def Rule.inTrailing (rule : Rule) (sends : List Send) (stop : ℤ) : Nat :=
  sends.countP fun s =>
    s.lane = rule.lane ∧ stop - rule.span.length ≤ s.sentUtc ∧ s.sentUtc ≤ stop

def Rule.Kept (rule : Rule) (sends : List Send) : Prop :=
  ∀ stop, rule.inTrailing sends stop ≤ rule.limit

/-- The send of a call that was allowed. -/
def allowedSend? : Event Op Call Call.Resp Outcome → Option Send
  | .called _ (.insertSend send _) _ (some (.decided true _)) => some send
  | _ => none

def allowedSends (log : List (Event Op Call Call.Resp Outcome)) : List Send :=
  log.filterMap allowedSend?

/-- No trailing window holds more allowed sends than its cap. -/
def HardCap (cap : OutboundCap) (cfg : Processes) : Prop :=
  ∀ rule ∈ cap.rules, rule.Kept (allowedSends cfg.log)

/-- Where other calls of the lane have recorded sends since this call's count,
each trailing window that holds one of these and the call's own still has room. -/
def RoomLeft (cap : OutboundCap) (_ : ℤ) (c : Call) (db : ChannelDb) : Prop :=
  match c with
  | .insertSend send seen =>
    ∀ rule ∈ cap.rules, rule.lane = send.lane → ∀ stop,
      stop - rule.span.length ≤ send.sentUtc → send.sentUtc ≤ stop →
        0 < rule.inTrailing (db.sends.drop (seen rule.span)) stop →
          rule.inTrailing db.sends stop < rule.limit
  | _ => True

/-! ## What the counts have checked -/

/-- Each count that the insert goes by has seen a beginning of the table, and
found room in it. -/
def Checked (cap : OutboundCap) (_ : ℤ) (c : Call) (db : ChannelDb) : Prop :=
  match c with
  | .insertSend send seen =>
    ∀ rule ∈ cap.rules, rule.lane = send.lane →
      countSince (db.sends.take (seen rule.span)) (send.sentUtc - rule.span.length) rule.lane <
        rule.limit
  | _ => True

def Grows (db db' : ChannelDb) : Prop := db.sends <+: db'.sends

theorem grows_refl (db : ChannelDb) : Grows db db := List.prefix_rfl

theorem grows_trans (a b c : ChannelDb) (hab : Grows a b) (hbc : Grows b c) : Grows a c :=
  List.IsPrefix.trans hab hbc

theorem answer_grows (now : ℤ) (c : Call) (db : ChannelDb) : Grows db (answer now c db).2 := by
  cases c with
  | insertSend send seen => exact List.prefix_append ..
  | _ => exact grows_refl db

theorem countSince_seen {old new : ChannelDb} (h : Grows old new) (since : ℤ) (lane : Lane) :
    countSince (new.sends.take old.sends.length) since lane = countSince old.sends since lane := by
  rw [← List.prefix_iff_eq_take.mp h]

theorem allow_safe (cap : OutboundCap) (lower : String → String) (kind severity : String)
    (db : ChannelDb) : Safe answer Grows (Checked cap) (cap.allow lower kind severity) db := by
  intro db₁ _ now
  refine ⟨trivial, ?_⟩
  intro db₂ _ _
  refine ⟨trivial, ?_⟩
  dsimp only
  split_ifs
  · trivial
  · intro db₃ _ _
    refine ⟨trivial, ?_⟩
    dsimp only
    split_ifs with hfull
    · trivial
    · intro db₄ h₄ _
      refine ⟨?_, trivial⟩
      intro rule hrule hlane
      rcases mem_rules hrule with rfl | rfl | rfl
      · cases hlane
      · cases hlane
      · exact (countSince_seen h₄ _ _).trans_lt (not_le.mp hfull)
  · intro db₃ _ _
    refine ⟨trivial, ?_⟩
    dsimp only
    split_ifs with hhour
    · trivial
    · intro db₄ h₄ _
      refine ⟨trivial, ?_⟩
      dsimp only
      split_ifs with hday
      · trivial
      · intro db₅ h₅ _
        refine ⟨?_, trivial⟩
        intro rule hrule hlane
        rcases mem_rules hrule with rfl | rfl | rfl
        · exact (countSince_seen (grows_trans _ _ _ h₄ h₅) _ _).trans_lt (not_le.mp hhour)
        · exact (countSince_seen h₅ _ _).trans_lt (not_le.mp hday)
        · cases hlane

theorem prog_safe (cap : OutboundCap) (lower : String → String) (op : Op) (db : ChannelDb) :
    Safe answer Grows (Checked cap) (op.prog cap lower) db := by
  cases op with
  | allow kind severity => exact allow_safe cap lower kind severity db
  | note429 =>
    intro db₁ _ now
    refine ⟨trivial, ?_⟩
    intro db₂ _ _
    exact ⟨trivial, trivial⟩

/-! ## One insert -/

theorem inTrailing_append (rule : Rule) (xs ys : List Send) (stop : ℤ) :
    rule.inTrailing (xs ++ ys) stop = rule.inTrailing xs stop + rule.inTrailing ys stop :=
  List.countP_append

/-- A window that ends at or after a send's time begins at or after its count's. -/
theorem inTrailing_le_countSince (rule : Rule) (sends : List Send) {time stop : ℤ}
    (h : time ≤ stop) :
    rule.inTrailing sends stop ≤ countSince sends (time - rule.span.length) rule.lane := by
  refine List.countP_mono_left fun s _ hs => ?_
  simp only [decide_eq_true_eq] at hs ⊢
  exact ⟨by omega, hs.1⟩

/-- The insert of a checked call keeps a cap exactly when the sends its count
has not seen left room. -/
theorem kept_insert_iff {rule : Rule} {send : Send} {seen : Nat} {sends : List Send}
    (hlane : rule.lane = send.lane)
    (hchecked : countSince (sends.take seen) (send.sentUtc - rule.span.length) rule.lane <
      rule.limit)
    (hkept : rule.Kept sends) :
    rule.Kept (sends ++ [send]) ↔
      ∀ stop, stop - rule.span.length ≤ send.sentUtc → send.sentUtc ≤ stop →
        0 < rule.inTrailing (sends.drop seen) stop → rule.inTrailing sends stop < rule.limit := by
  have hadd : ∀ stop, rule.inTrailing (sends ++ [send]) stop =
      rule.inTrailing sends stop +
        if stop - rule.span.length ≤ send.sentUtc ∧ send.sentUtc ≤ stop then 1 else 0 := by
    intro stop
    rw [inTrailing_append]
    simp [Rule.inTrailing, hlane, List.countP_singleton]
  constructor
  · intro h stop hstart hstop _
    have hle := h stop
    rw [hadd, if_pos ⟨hstart, hstop⟩] at hle
    omega
  · intro hroom stop
    rw [hadd]
    split_ifs with hin
    · rcases Nat.eq_zero_or_pos (rule.inTrailing (sends.drop seen) stop) with hnone | hsome
      · -- every send of the window was there when the call counted
        have hsplit := inTrailing_append rule (sends.take seen) (sends.drop seen) stop
        rw [List.take_append_drop, hnone] at hsplit
        have hle := inTrailing_le_countSince rule (sends.take seen) hin.2
        omega
      · exact hroom stop hin.1 hin.2 hsome
    · exact hkept stop

/-- A send of the other lane changes no count. -/
theorem kept_other {rule : Rule} {send : Send} {sends : List Send} (hlane : rule.lane ≠ send.lane) :
    rule.Kept (sends ++ [send]) ↔ rule.Kept sends := by
  have hsame : ∀ stop, rule.inTrailing (sends ++ [send]) stop = rule.inTrailing sends stop := by
    intro stop
    rw [inTrailing_append]
    simp [Rule.inTrailing, Ne.symm hlane]
  simp only [Rule.Kept, hsame]

/-- One statement keeps the caps of the table exactly when it leaves room. -/
theorem answer_kept_iff (cap : OutboundCap) (now : ℤ) {c : Call} {db : ChannelDb}
    (hchecked : Checked cap now c db) (hkept : ∀ rule ∈ cap.rules, rule.Kept db.sends) :
    (∀ rule ∈ cap.rules, rule.Kept (answer now c db).2.sends) ↔ RoomLeft cap now c db := by
  cases c with
  | insertSend send seen =>
    refine forall₂_congr fun rule hrule => ?_
    show rule.Kept (db.sends ++ [send]) ↔ _
    by_cases hlane : rule.lane = send.lane
    · rw [kept_insert_iff hlane (hchecked rule hrule hlane) (hkept rule hrule)]
      simp [hlane]
    · rw [kept_other hlane]
      simp [hlane, hkept rule hrule]
  | _ => exact iff_of_true hkept trivial

/-! ## Runs -/

/-- What a call may end with: the insert of a send allows it, nothing else allows. -/
def EndsWith : Call → CapProg → Prop
  | .insertSend send _, p => p = .ret (.decided true send.lane.value)
  | _, p => ∀ reason, p ≠ .ret (.decided true reason)

def Records : CapProg → Prop
  | .ret _ => True
  | .call c k => ∀ r, EndsWith c (k r) ∧ Records (k r)

theorem record_records (send : Send) (seen : Span → Nat) :
    Records (OutboundCap.record send seen) := fun _ => ⟨rfl, trivial⟩

theorem prog_records (cap : OutboundCap) (lower : String → String) (op : Op) :
    Records (op.prog cap lower) := by
  cases op with
  | note429 =>
    intro now
    refine ⟨fun _ h => (by cases h), ?_⟩
    intro r
    exact ⟨fun _ h => (by cases h), trivial⟩
  | allow kind severity =>
    intro now
    refine ⟨fun _ h => (by cases h), ?_⟩
    intro last429
    dsimp only
    split_ifs
    · exact ⟨fun _ h => (by cases h), trivial⟩
    · refine ⟨fun _ h => (by cases h), ?_⟩
      intro inHour
      dsimp only
      split_ifs
      · exact ⟨fun _ h => (by cases h), trivial⟩
      · exact ⟨fun _ h => (by cases h), record_records _ _⟩
    · refine ⟨fun _ h => (by cases h), ?_⟩
      intro inHour
      dsimp only
      split_ifs
      · exact ⟨fun _ h => (by cases h), trivial⟩
      · refine ⟨fun _ h => (by cases h), ?_⟩
        intro inDay
        dsimp only
        split_ifs
        · exact ⟨fun _ h => (by cases h), trivial⟩
        · exact ⟨fun _ h => (by cases h), record_records _ _⟩

/-- A call that was allowed has a send. -/
def HasSend (e : Event Op Call Call.Resp Outcome) : Prop :=
  ∀ op c r reason, e = .called op c r (some (.decided true reason)) → (allowedSend? e).isSome

/-- Every thread is safe and records what it allows; the table holds the sends
that were allowed. -/
structure Sound (cap : OutboundCap) (cfg : Processes) : Prop where
  safe : ∀ th ∈ cfg.threads, Safe answer Grows (Checked cap) th.rest cfg.shared
  records : ∀ th ∈ cfg.threads, Records th.rest
  recorded : cfg.shared.sends = allowedSends cfg.log
  logged : ∀ e ∈ cfg.log, HasSend e

variable {cap : OutboundCap} {lower : String → String}

/-- The log gains the send of an insert and no other. -/
theorem answer_recorded (op : Op) {now : ℤ} {c : Call} {k : c.Resp → CapProg} {db : ChannelDb}
    (h : Records (.call c k)) :
    (answer now c db).2.sends = db.sends ++
      (allowedSend? (.called op c (answer now c db).1 (result? (k (answer now c db).1)))).toList := by
  cases c with
  | insertSend send seen =>
    have hend : k () = .ret (.decided true send.lane.value) := (h ()).1
    simp [answer, hend, allowedSend?]
  | _ => simp [answer, allowedSend?]

theorem called_hasSend {op : Op} {c : Call} {k : c.Resp → CapProg} (h : Records (.call c k))
    (r : c.Resp) : HasSend (.called op c r (result? (k r))) := by
  intro op' c' r' reason he
  cases hk : k r with
  | call c'' k'' =>
    rw [hk] at he
    cases he
  | ret a =>
    rw [hk] at he
    cases he
    have hend := (h r).1
    cases c with
    | insertSend send seen => rfl
    | _ => exact absurd hk (hend reason)

theorem turn_sound {cfg : Processes} (h : Sound cap cfg) (mv : Move Op ℤ) :
    Sound cap (turn cap lower cfg mv) where
  safe := move_safe _ grows_refl grows_trans answer_grows (prog_safe cap lower) h.safe mv
  records := move_threads (T := fun _ p => Records p) _ _ (prog_records cap lower)
    (fun _ _ _ r hr => (hr r).2) h.records mv
  recorded := by
    have hold := h.recorded
    unfold turn
    rcases move_cases (Op.prog cap lower) answer cfg mv with
      ⟨op, _, he⟩ | ⟨t, now, op, c, k, _, ht, he⟩ | he
    · rw [he]
      simp [allowedSends, hold, allowedSend?]
    · rw [he]
      have hrec := h.records _ (List.mem_of_getElem? ht)
      show (answer now c cfg.shared).2.sends = _
      rw [answer_recorded op hrec, hold, allowedSends, allowedSends, List.filterMap_append]
      simp only [List.filterMap_cons, List.filterMap_nil]
      split
      · rename_i hnone
        rw [hnone]
        rfl
      · rename_i hsome
        rw [hsome]
        rfl
    · rw [he]
      simp [allowedSends, hold, allowedSend?]
  logged := by
    have hold := h.logged
    unfold turn
    rcases move_cases (Op.prog cap lower) answer cfg mv with
      ⟨op, _, he⟩ | ⟨t, now, op, c, k, _, ht, he⟩ | he
    · rw [he]
      refine List.forall_mem_append.mpr ⟨hold, List.forall_mem_singleton.mpr ?_⟩
      intro op' c' r' reason heq
      cases heq
    · rw [he]
      have hrec := h.records _ (List.mem_of_getElem? ht)
      exact List.forall_mem_append.mpr ⟨hold, List.forall_mem_singleton.mpr (called_hasSend hrec _)⟩
    · rw [he]
      refine List.forall_mem_append.mpr ⟨hold, List.forall_mem_singleton.mpr ?_⟩
      intro op' c' r' reason heq
      cases heq

theorem turn_hardCap_iff {cfg : Processes} (h : Sound cap cfg) (hcap : HardCap cap cfg)
    (mv : Move Op ℤ) : HardCap cap (turn cap lower cfg mv) ↔ OnCall (RoomLeft cap) cfg mv := by
  have hnext : Sound cap (turn cap lower cfg mv) := turn_sound h mv
  unfold HardCap at hcap ⊢
  rw [← h.recorded] at hcap
  rw [← hnext.recorded]
  cases mv with
  | spawn op => exact iff_of_true hcap (fun x hx => by cases hx)
  | step t now =>
    rcases step_cases (Op.prog cap lower) answer cfg t now with ⟨hnone, he⟩ | ⟨op, c, k, ht, hcall, he⟩
    · unfold turn
      rw [he]
      exact iff_of_true hcap (fun x hx => by rw [hnone] at hx; cases hx)
    · have hchecked := ((h.safe _ (List.mem_of_getElem? ht)).next grows_refl now).1
      unfold turn
      rw [he]
      refine (answer_kept_iff cap now hchecked hcap).trans ⟨fun hroom x hx => ?_, fun hroom => ?_⟩
      · rw [hcall] at hx
        obtain rfl := Option.some.inj hx
        exact hroom
      · exact hroom (now, c) hcall

theorem init_sound (incidents : List ℤ) : Sound cap (.init ⟨[], incidents⟩) where
  safe th hth := by cases hth
  records th hth := by cases hth
  recorded := rfl
  logged e he := by cases he

/-- However the processes interleave, the table is the log of the allowed sends. -/
theorem run_sound (incidents : List ℤ) (moves : List (Move Op ℤ)) :
    Sound cap (run (turn cap lower) (.init ⟨[], incidents⟩) moves) :=
  run_keeps (I := Sound cap) (fun _ mv h => turn_sound h mv) (init_sound incidents) moves

/-- **The caps hold exactly while no insert overtakes a count into a full window.** -/
theorem hard_cap_iff (incidents : List ℤ) (moves : List (Move Op ℤ)) :
    Along (turn cap lower) (fun cfg mv => HardCap cap (turn cap lower cfg mv))
        (.init ⟨[], incidents⟩) moves ↔
      Along (turn cap lower) (OnCall (RoomLeft cap)) (.init ⟨[], incidents⟩) moves := by
  refine along_next_iff (I := Sound cap) (fun _ mv h => turn_sound h mv)
    (fun _ mv h hcap => turn_hardCap_iff h hcap mv) moves (init_sound incidents) ?_
  intro rule _ stop
  exact Nat.zero_le _

/-- Five urgent alerts count before the first of them is recorded. -/
def fiveAtOnce : List (Move Op ℤ) :=
  List.replicate 5 (.spawn (.allow "degrade" "urgent")) ++
    (List.replicate 4 ((List.range 5).map (.step · 0))).flatten

theorem fifth_priority_send_allowed :
    ¬ HardCap {} (run (turn {} id) (.init ⟨[], []⟩) fiveAtOnce) := by
  intro h
  have hle := h ⟨.priority, .hour, 4⟩ (by decide) 0
  revert hle
  decide

end TradingPlatform.Alerts
