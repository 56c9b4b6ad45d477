import TradingPlatform.Control.QueueSpec
import TradingPlatform.Lib.Runs

/-! # Terminal statuses: absorbing in SQLite, not on Supabase

SQLite guards every update with the status it expects, so a completed or
failed row keeps its status there under every operation. The Supabase side of
a terminal mark has no such guard, and the mirror upserts the local row over
whatever Supabase holds. `TerminalSafe` is the exact condition under which an
operation leaves every terminal row as it was. -/

namespace TradingPlatform.Control.TerminalStatus

open TradingPlatform.Lib TradingPlatform.Lib.Prog TradingPlatform.Lib.Runs

/-- Every terminal status on either bus is still there. -/
def KeepsTerminal (b b' : Bus) : Prop :=
  ∀ id st, st.terminal = true →
    (b.remoteStatus id = some st → b'.remoteStatus id = some st) ∧
    (b.localStatus id = some st → b'.localStatus id = some st)

theorem KeepsTerminal.refl (b : Bus) : KeepsTerminal b b := fun _ _ _ => ⟨id, id⟩

theorem KeepsTerminal.trans {a b c : Bus} (h : KeepsTerminal a b) (h' : KeepsTerminal b c) :
    KeepsTerminal a c := fun id st hst =>
  ⟨fun hr => (h' id st hst).1 ((h id st hst).1 hr), fun hl => (h' id st hst).2 ((h id st hst).2 hl)⟩

/-- A mark whose update reaches Supabase finds no other terminal status there. -/
def MarkSafe (f : Fault) (id : String) (st : ControlCommandStatus) (b : Bus) : Prop :=
  f.reaches = true → ∀ old, b.remoteStatus id = some old → old.terminal = true → old = st

/-- Each row the mirror upserts in turn either is not written, or meets no
terminal Supabase row whose status differs from its own. -/
def MirrorSafe : List Fault → List LocalRow → Bus → Prop
  | _, [], _ => True
  | fs, r :: rest, b =>
    ((fs.headD default).reaches = true → (b.supabase.upsert r.toCommandRow).isSome = true →
      ∀ old, b.remoteStatus r.commandId = some old → old.terminal = true → r.status = old) ∧
    MirrorSafe fs.tail rest (after (fs.headD default) (.upsertRemote r.toCommandRow) b)

/-- When an operation leaves every terminal row alone. -/
def TerminalSafe (fs : List Fault) : BusOp → Bus → Prop
  | .markCompleted client id _, b => client = true → MarkSafe (fs.headD default) id .completed b
  | .markFailed client id _ _, b => client = true → MarkSafe (fs.headD default) id .failed b
  | .mirror client limit, b => client = true → MirrorSafe fs.tail (b.sqlite.history (cap limit)) b
  | _, _ => True

/-! ## Operations that overwrite nothing -/

theorem keeps_of_allCalls {α : Type} {p : BusProg α} (hp : AllCalls (fun c => ¬ Overwrites c) p)
    (fs : List Fault) (b : Bus) : KeepsTerminal b (runAlone fs p b).2 := by
  intro id st hst
  refine ⟨fun hr => ?_, fun hl => local_terminal_runAlone hl hst fs p⟩
  exact hp.exec_keeps answer (I := fun s => s.remoteStatus id = some st)
    (fun f c s hc hs => remote_terminal_after hs hst hc) fs b hr

/-- Only a terminal mark and the mirror overwrite a Supabase status. -/
theorem issues_mild {op : BusOp} (hm : ∀ client id now, op ≠ .markCompleted client id now)
    (hf : ∀ client id msg now, op ≠ .markFailed client id msg now)
    (hu : ∀ client limit, op ≠ .mirror client limit) {c : BusCall} (h : Issues op c) :
    ¬ Overwrites c := by
  intro hc
  cases op with
  | markCompleted client id now => exact hm client id now rfl
  | markFailed client id msg now => exact hf client id msg now rfl
  | mirror client limit => exact hu client limit rfl
  | _ => cases c <;> first | exact hc | exact h

/-! ## Terminal marks -/

theorem mark_keeps_iff (client : Bool) (id msg : String) (st : ControlCommandStatus)
    (err : Option String) (fs : List Fault) (b : Bus) :
    KeepsTerminal b (runAlone fs (markTerminal client id st err msg) b).2 ↔
      (client = true → MarkSafe (fs.headD default) id st b) := by
  constructor
  · intro h hc hf old hold hterm
    have hkept := (h id old hterm).1 hold
    rw [markTerminal_remoteStatus, if_pos ⟨hc, hf, rfl⟩, hold] at hkept
    exact (Option.some.inj hkept).symm
  · intro h id' old hterm
    refine ⟨fun hold => ?_, fun hl => local_terminal_runAlone hl hterm fs _⟩
    rw [markTerminal_remoteStatus]
    split
    · rename_i hcond
      obtain ⟨hc, hf, rfl⟩ := hcond
      rw [hold, h hc hf old hold hterm]
      rfl
    · exact hold

/-! ## The mirror -/

theorem runAlone_mirrorRows_cons (r : LocalRow) (rest : List LocalRow) (fs : List Fault) (b : Bus) :
    (runAlone fs (mirrorRows (r :: rest)) b).2 =
      (runAlone fs.tail (mirrorRows rest)
        (after (fs.headD default) (.upsertRemote r.toCommandRow) b)).2 := by
  rw [mirrorRows]
  simp only [perform_bind, pure_eq, runAlone_call]
  split
  · rw [runAlone_bind_ret]
  · rfl

/-- An upsert that lands gives the command the row's status; nothing else moves. -/
theorem remoteStatus_upsert (f : Fault) (row : CommandRow) (b : Bus) (id : String) :
    (after f (.upsertRemote row) b).remoteStatus id =
      if f.reaches = true ∧ (b.supabase.upsert row).isSome = true ∧ row.commandId = id then
        some row.status
      else b.remoteStatus id := by
  simp only [Bus.remoteStatus, after, BusCall.onSupabase]
  by_cases hf : f.reaches = true
  · simp only [hf, if_true, true_and]
    cases hu : b.supabase.upsert row with
    | none => simp
    | some t =>
      rw [Option.getD_some, Table.find_upsert hu]
      by_cases he : row.commandId = id
      · simp [he, remoteSchema]
      · simp [he, remoteSchema]
  · simp [hf]

theorem mirrorRows_absent {id : String} {rows : List LocalRow}
    (h : ∀ r ∈ rows, r.commandId ≠ id) (fs : List Fault) (b : Bus) :
    (runAlone fs (mirrorRows rows) b).2.remoteStatus id = b.remoteStatus id := by
  induction rows generalizing fs b with
  | nil => rfl
  | cons r rest ih =>
    rw [runAlone_mirrorRows_cons, ih (fun x hx => h x (List.mem_cons_of_mem _ hx)),
      remoteStatus_upsert, if_neg]
    intro hcond
    exact h r List.mem_cons_self hcond.2.2

theorem mirrorRows_keeps {rows : List LocalRow} (fs : List Fault) (b : Bus)
    (h : MirrorSafe fs rows b) : KeepsTerminal b (runAlone fs (mirrorRows rows) b).2 := by
  induction rows generalizing fs b with
  | nil => exact .refl b
  | cons r rest ih =>
    obtain ⟨hr, hrest⟩ := h
    rw [runAlone_mirrorRows_cons]
    refine KeepsTerminal.trans ?_ (ih _ _ hrest)
    intro id st hst
    refine ⟨fun hold => ?_, fun hl => local_terminal_after hl hst _ _⟩
    rw [remoteStatus_upsert]
    split
    · rename_i hcond
      obtain ⟨hf, hu, rfl⟩ := hcond
      have hsame := hr hf hu st hold hst
      rw [← hsame]
    · exact hold

theorem mirrorRows_safe {rows : List LocalRow}
    (hnd : rows.Pairwise fun x y => x.commandId ≠ y.commandId) (fs : List Fault) (b : Bus)
    (h : KeepsTerminal b (runAlone fs (mirrorRows rows) b).2) : MirrorSafe fs rows b := by
  induction rows generalizing fs b with
  | nil => trivial
  | cons r rest ih =>
    obtain ⟨hr, hrest⟩ := List.pairwise_cons.mp hnd
    rw [runAlone_mirrorRows_cons] at h
    -- the rest of the pass never returns to this row's command
    have habsent : ∀ b', (runAlone fs.tail (mirrorRows rest) b').2.remoteStatus r.commandId =
        b'.remoteStatus r.commandId := mirrorRows_absent (fun x hx => (hr x hx).symm) fs.tail
    refine ⟨fun hf hu old hold hterm => ?_, ih hrest _ _ ?_⟩
    · have hkept := (h r.commandId old hterm).1 hold
      rw [habsent, remoteStatus_upsert, if_pos ⟨hf, hu, rfl⟩] at hkept
      exact Option.some.inj hkept
    · intro id st hst
      refine ⟨fun hold => ?_, fun hl => local_terminal_runAlone hl hst _ _⟩
      by_cases he : r.commandId = id
      · rw [← he] at hold ⊢
        rw [habsent]
        exact hold
      · rw [remoteStatus_upsert, if_neg fun hcond => he hcond.2.2] at hold
        exact (h id st hst).1 hold

theorem history_apart (t : LocalTable) (limit : Nat) :
    (t.history limit).Pairwise fun x y => x.commandId ≠ y.commandId := by
  have hrows : t.rows.Pairwise fun x y => x.commandId ≠ y.commandId := t.apart.imp fun h => h.1
  have hsort : (t.rows.insertionSort fun a b => b.createdAt ≤ a.createdAt).Pairwise
      fun x y => x.commandId ≠ y.commandId :=
    (List.perm_insertionSort _ t.rows).symm.pairwise hrows fun h => h.symm
  exact hsort.sublist (List.take_sublist _ _)

theorem mirror_keeps_iff (client : Bool) (limit : Int) (fs : List Fault) (b : Bus) :
    KeepsTerminal b (runAlone fs (mirrorLocalCommandsToSupabase client limit) b).2 ↔
      (client = true → MirrorSafe fs.tail (b.sqlite.history (cap limit)) b) := by
  unfold mirrorLocalCommandsToSupabase
  cases client with
  | false => simp [KeepsTerminal.refl]
  | true =>
    have hb : after (fs.headD default) (.selectLocalHistory (cap limit)) b = b := by
      simp [after, BusCall.onSupabase, BusCall.onSqlite]
    simp only [if_true, perform_bind, runAlone_call, respond, hb, true_implies]
    exact ⟨mirrorRows_safe (history_apart _ _) _ _, mirrorRows_keeps _ _⟩

/-! ## Every operation -/

theorem keeps_iff_safe (fs : List Fault) (op : BusOp) (b : Bus) :
    KeepsTerminal b (op.perform fs b).2 ↔ TerminalSafe fs op b := by
  cases op with
  | markCompleted client id now =>
    have h := mark_keeps_iff client id now .completed none fs b
    show KeepsTerminal b (runAlone fs (BusReply.marked <$> markCommandCompleted client id now) b).2 ↔ _
    rw [map_eq, runAlone_bind_ret]
    exact h
  | markFailed client id msg now =>
    have h := mark_keeps_iff client id now .failed
      (some (String.ofList (msg.toList.take 2000))) fs b
    show KeepsTerminal b (runAlone fs (BusReply.marked <$> markCommandFailed client id msg now) b).2 ↔ _
    rw [map_eq, runAlone_bind_ret]
    exact h
  | mirror client limit =>
    have h := mirror_keeps_iff client limit fs b
    show KeepsTerminal b
      (runAlone fs (BusReply.counted <$> mirrorLocalCommandsToSupabase client limit) b).2 ↔ _
    rw [map_eq, runAlone_bind_ret]
    exact h
  | _ =>
    refine iff_of_true (keeps_of_allCalls ((prog_issues _).mono fun c hc => ?_) fs b) trivial
    exact issues_mild (by intros; simp) (by intros; simp) (by intros; simp) hc

/-- **When terminal statuses are absorbing.** Along any run from any tables, each
operation keeps every terminal row of both buses exactly when each is safe; and
a run of safe operations keeps every terminal row to its end. -/
theorem terminal_absorbing_iff (b : Bus) (es : List QueueEvent) :
    (Along queueStep (fun s e => KeepsTerminal s (queueStep s e)) b es ↔
      Along queueStep (fun s e => TerminalSafe e.faults e.op s) b es) ∧
    (Along queueStep (fun s e => TerminalSafe e.faults e.op s) b es →
      KeepsTerminal b (run queueStep b es)) := by
  constructor
  · exact along_congr (I := fun _ => True) (fun _ _ _ => trivial)
      (fun s e _ => keeps_iff_safe e.faults e.op s) es trivial
  · intro hes
    exact run_invariant (I := fun s => KeepsTerminal b s)
      (fun s e hs he => hs.trans ((keeps_iff_safe e.faults e.op s).mpr he)) es (.refl b) hes

/-- A command on Supabase, claimed and completed there. -/
def completedRun : List QueueEvent :=
  [{ op := .enqueue true { commandType := .reloadConfig, commandId := "c1", now := "2026-01-01" } },
    { op := .tryClaim true "c1" "2026-01-02" }, { op := .markCompleted true "c1" "2026-01-03" }]

/-- A late failure mark turns a completed Supabase row into a failed one. -/
theorem completed_turns_failed :
    ¬ ∀ (es : List QueueEvent) (fs : List Fault) (op : BusOp),
      KeepsTerminal (run queueStep .empty es) (op.perform fs (run queueStep .empty es)).2 := by
  intro h
  have hkeep := (h completedRun [] (.markFailed true "c1" "late" "2026-01-04") "c1" .completed
    rfl).1 (by decide)
  revert hkeep
  decide

end TradingPlatform.Control.TerminalStatus
