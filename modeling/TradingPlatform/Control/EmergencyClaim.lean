import TradingPlatform.Control.FetchSpec
import TradingPlatform.Lib.Drain
import TradingPlatform.Lib.Runs

/-! # Emergency claims: who is starved

An emergency poll cuts the merged queue to its limit before it looks for
emergencies. Commands it never claims keep their places, so an emergency
command is reached exactly when fewer of them than the limit stand ahead of
it. -/

namespace TradingPlatform.Control.EmergencyClaim

open TradingPlatform.Lib TradingPlatform.Lib.Prog TradingPlatform.Lib.StableSort
open TradingPlatform.Lib.Drain TradingPlatform.Lib.Runs

/-- The pending commands of both buses in the order of a fetch, uncut. -/
def queue (client : Bool) (b : Bus) : List ControlCommand :=
  sortBy timeOf (union idOf (remoteQueue client b) b.pendingLocal)

/-- An emergency command whose claim would win. -/
def claimable (client : Bool) (b : Bus) (c : ControlCommand) : Bool :=
  c.commandType.emergency && b.offers client c.commandId

/-- A command has one creation time, on whichever bus it is read. -/
def OneTime (b : Bus) : Prop :=
  ∀ r ∈ b.supabase.rows, ∀ s ∈ b.sqlite.rows, r.commandId = s.commandId → r.createdAt = s.createdAt

instance (b : Bus) : Decidable (OneTime b) :=
  inferInstanceAs (Decidable (∀ r ∈ b.supabase.rows, ∀ s ∈ b.sqlite.rows, _ → _))

/-! ## Creation times across the buses -/

/-- Every command was created when `τ` says, on whichever bus it is. -/
def TimedBy (τ : String → String) (b : Bus) : Prop :=
  b.supabase.All (fun id r => r.createdAt = τ id) ∧ b.sqlite.All fun id r => r.createdAt = τ id

theorem TimedBy.oneTime {τ : String → String} {b : Bus} (h : TimedBy τ b) : OneTime b := by
  intro r hr s hs hid
  have hremote : r.createdAt = τ r.commandId := h.1 _ r (b.supabase.find_eq_some.mpr ⟨hr, rfl⟩)
  have hlocal : s.createdAt = τ s.commandId := h.2 _ s (b.sqlite.find_eq_some.mpr ⟨hs, rfl⟩)
  rw [hremote, hlocal, hid]

/-- The rows a statement would add were created when `τ` says. -/
def CallTimedBy (τ : String → String) : BusCall → Prop
  | .insertRemote row | .upsertRemote row => row.createdAt = τ row.commandId
  | .insertLocal row => row.createdAt = τ row.commandId
  | _ => True

theorem timedBy_after {τ : String → String} {f : Fault} {c : BusCall} {b : Bus}
    (hc : CallTimedBy τ c) (h : TimedBy τ b) : TimedBy τ (after f c b) := by
  obtain ⟨hr, hl⟩ := h
  constructor
  · show (if f.reaches then c.onSupabase b.supabase else b.supabase).All _
    split
    · cases c with
      | insertRemote row => exact hr.insert hc
      | upsertRemote row => exact hr.upsert hc
      | claimRemote id now => exact hr.updateWhere fun _ _ h => h
      | markRemote id st now err => exact hr.updateWhere fun _ _ h => h
      | _ => exact hr
    · exact hr
  · show (c.onSqlite f b.sqlite).All _
    cases c with
    | insertLocal row => exact hl.insert hc
    | driveLocal id now =>
      simp only [BusCall.onSqlite]
      split
      · exact hl.updateWhere fun _ _ h => h
      · exact hl
    | claimLocal id now => exact hl.updateWhere fun _ _ h => h
    | markLocal id st now err => exact hl.updateWhere fun _ _ h => h
    | failProcessing id now err => exact hl.updateWhere fun _ _ h => h
    | requeueLocal id n => exact hl.updateWhere fun _ _ h => h
    | expireLocal now => exact hl.updateWhere fun _ _ h => h
    | _ => exact hl

/-- An enqueue uses an id no bus holds. -/
def FreshId (b : Bus) (e : QueueEvent) : Prop :=
  match e.op with
  | .enqueue _ q | .enqueueLocal q =>
    b.remoteStatus q.commandId = none ∧ b.localStatus q.commandId = none
  | _ => True

/-- An id no bus holds takes any time. -/
theorem TimedBy.fresh {τ : String → String} {b : Bus} {id : String} (h : TimedBy τ b)
    (hr : b.remoteStatus id = none) (hl : b.localStatus id = none) (now : String) :
    TimedBy (fun id' => if id' = id then now else τ id') b := by
  constructor
  · intro id' r hfind
    have hne : id' ≠ id := by
      intro he
      simp [Bus.remoteStatus, ← he, hfind] at hr
    simpa [hne] using h.1 id' r hfind
  · intro id' r hfind
    have hne : id' ≠ id := by
      intro he
      simp [Bus.localStatus, ← he, hfind] at hl
    simpa [hne] using h.2 id' r hfind

/-- The mirror upserts rows it has read from SQLite. -/
theorem TimedBy.mirror {τ : String → String} {b : Bus} (h : TimedBy τ b) (client : Bool)
    (limit : Int) (fs : List Fault) : TimedBy τ (queueStep b ⟨fs, .mirror client limit⟩) := by
  cases client with
  | false => exact h
  | true =>
    have hrows : AllCalls (CallTimedBy τ) (mirrorRows (b.sqlite.history (cap limit))) := by
      refine mirrorRows_issues _ fun r hr => ?_
      have hmem : r ∈ b.sqlite.rows :=
        (List.perm_insertionSort _ b.sqlite.rows).mem_iff.mp (List.mem_of_mem_take hr)
      exact h.2 _ r (b.sqlite.find_eq_some.mpr ⟨hmem, rfl⟩)
    have hbus : queueStep b ⟨fs, .mirror true limit⟩ =
        (runAlone fs.tail (mirrorRows (b.sqlite.history (cap limit))) b).2 := by
      show (runAlone fs (BusReply.counted <$> mirrorLocalCommandsToSupabase true limit) b).2 = _
      rw [map_eq, runAlone_bind_ret]
      show (runAlone fs.tail _ (after _ (.selectLocalHistory (cap limit)) b)).2 = _
      rw [after_select (fun _ => rfl) (fun _ _ => rfl)]
      rfl
    rw [hbus]
    exact hrows.exec_keeps answer (fun _ _ _ hc hs => timedBy_after hc hs) fs.tail b h

theorem timedBy_step {b : Bus} {e : QueueEvent} (h : ∃ τ, TimedBy τ b) (hfresh : FreshId b e) :
    ∃ τ, TimedBy τ (queueStep b e) := by
  obtain ⟨τ, ht⟩ := h
  obtain ⟨fs, op⟩ := e
  have hrun : ∀ τ', TimedBy τ' b → AllCalls (CallTimedBy τ') op.prog →
      ∃ τ, TimedBy τ (queueStep b ⟨fs, op⟩) := fun τ' hb hall =>
    ⟨τ', hall.exec_keeps answer (fun _ _ _ hc hs => timedBy_after hc hs) fs b hb⟩
  cases op with
  | enqueue client q =>
    refine hrun _ (ht.fresh hfresh.1 hfresh.2 q.now) ((prog_issues _).mono fun c hc => ?_)
    cases c with
    | insertRemote row =>
      have hrow : row = q.command.toCommandRow := hc
      subst hrow
      exact (if_pos rfl).symm
    | insertLocal row =>
      have hrow : row = { q.fallback.command with attempts := 0 } := hc
      subst hrow
      exact (if_pos rfl).symm
    | upsertRemote row => exact hc.elim
    | _ => trivial
  | enqueueLocal q =>
    refine hrun _ (ht.fresh hfresh.1 hfresh.2 q.now) ((prog_issues _).mono fun c hc => ?_)
    cases c with
    | insertLocal row =>
      have hrow : row = { q.command with attempts := 0 } := hc
      subst hrow
      exact (if_pos rfl).symm
    | insertRemote row => exact hc.elim
    | upsertRemote row => exact hc.elim
    | _ => trivial
  | mirror client limit => exact ⟨τ, ht.mirror client limit fs⟩
  | _ =>
    refine hrun τ ht ((prog_issues _).mono fun c hc => ?_)
    cases c <;> trivial

/-- **One creation time.** In every run from the empty tables whose enqueues use
fresh ids, a command has the same creation time on both buses. -/
theorem oneTime_run (es : List QueueEvent) (h : Along queueStep FreshId .empty es) :
    OneTime (run queueStep .empty es) := by
  have hempty : ∃ τ, TimedBy τ .empty :=
    ⟨fun _ => "", And.intro (fun _ _ hr => by cases hr) fun _ _ hr => by cases hr⟩
  have hinv := run_invariant (I := fun b => ∃ τ, TimedBy τ b)
    (fun b e hb he => timedBy_step hb he) es hempty h
  obtain ⟨τ, ht⟩ := hinv
  exact ht.oneTime

/-! ## What a winning claim takes from the queues -/

/-- One poll with every call answered: the commands it claims and the bus. -/
def poll (client : Bool) (limit : Int) (now : String) (b : Bus) : List ControlCommand × Bus :=
  runAlone [] (fetchAndClaimEmergencyCommands client limit now) b

/-- The bus after `k` polls at the times of `clock`. -/
def afterPolls (client : Bool) (limit : Int) (clock : Nat → String) (b : Bus) : Nat → Bus
  | 0 => b
  | k + 1 => (poll client limit (clock k) (afterPolls client limit clock b k)).2

/-- The queue without the commands of `won`. -/
abbrev without (won cs : List ControlCommand) : List ControlCommand := unseen idOf won cs

theorem pendingRemote_claimed (b : Bus) (id now : String) :
    (after .answered (.claimRemote id now) b).pendingRemote =
      b.pendingRemote.filter fun c => !decide (id = idOf c) := by
  show ((b.supabase.updateWhere _ _).rows.filter _).map rowToCommand = _
  rw [Table.filter_updateWhere _ fun r _ => by simp [claimRemoteSet], Bus.pendingRemote,
    List.filter_map, List.filter_filter]
  congr 1
  refine List.filter_congr fun r _ => ?_
  simp only [remoteIs, remoteSchema, Function.comp, rowToCommand, idOf]
  by_cases hid : r.commandId = id
  · by_cases hp : r.status = .pending <;> simp [hid, hp]
  · simp [hid, Ne.symm hid]

theorem pendingLocal_claimed (b : Bus) (id now : String) :
    (after .answered (.claimLocal id now) b).pendingLocal =
      b.pendingLocal.filter fun c => !decide (id = idOf c) := by
  show ((b.sqlite.updateWhere _ _).rows.filter _).map sqliteRowToCommand = _
  rw [Table.filter_updateWhere _ fun r _ => by simp [claimLocalSet], Bus.pendingLocal,
    List.filter_map, List.filter_filter]
  congr 1
  refine List.filter_congr fun r _ => ?_
  simp only [localIs, localSchema, Function.comp, sqliteRowToCommand, idOf]
  by_cases hid : r.commandId = id
  · by_cases hp : r.status = .pending <;> simp [hid, hp]
  · simp [hid, Ne.symm hid]

/-- A drive is the local compare-and-set without the answer. -/
theorem after_drive (b : Bus) (id now : String) :
    after .answered (.driveLocal id now) b = after .answered (.claimLocal id now) b := rfl

/-- A bus that holds no pending row of an id has it in no queue. -/
theorem filter_absent {cs : List ControlCommand} {id : String} (h : ∀ c ∈ cs, idOf c ≠ id) :
    (cs.filter fun c => !decide (id = idOf c)) = cs := by
  refine List.filter_eq_self.mpr fun c hc => ?_
  have hne : id ≠ idOf c := (h c hc).symm
  simp [hne]

/-- **A winning claim** takes the command out of both queues. -/
theorem claimedBus_queues {client : Bool} {b : Bus} {id : String} (now : String)
    (h : b.offers client id = true) :
    remoteQueue client (claimedBus client id now b) =
      (remoteQueue client b).filter (fun c => !decide (id = idOf c)) ∧
    (claimedBus client id now b).pendingLocal =
      b.pendingLocal.filter fun c => !decide (id = idOf c) := by
  cases client with
  | false => exact ⟨rfl, pendingLocal_claimed b id now⟩
  | true =>
    cases hr : b.remoteStatus id with
    | some st =>
      have hbus : claimedBus true id now b =
          after .answered (.claimLocal id now) (after .answered (.claimRemote id now) b) := by
        simp only [claimedBus, hr, after_drive]
      rw [hbus]
      constructor
      · show Bus.pendingRemote (after .answered (.claimRemote id now) b) = _
        exact pendingRemote_claimed b id now
      · exact pendingLocal_claimed (after .answered (.claimRemote id now) b) id now
    | none =>
      have hbus : claimedBus true id now b = after .answered (.claimLocal id now) b := by
        simp only [claimedBus, hr]
      rw [hbus]
      refine ⟨(filter_absent fun c hc he => ?_).symm, pendingLocal_claimed b id now⟩
      -- Supabase has no row of the command at all
      obtain ⟨r, hrow, rfl⟩ := List.mem_map.mp hc
      have hfind : b.supabase.find id = some r :=
        b.supabase.find_eq_some.mpr ⟨(List.mem_filter.mp hrow).1, he⟩
      simp [Bus.remoteStatus, hfind] at hr

/-- And leaves what is on offer under other ids. -/
theorem claimedBus_offers {client : Bool} {b : Bus} {id id' : String} (now : String)
    (h : id ≠ id') : (claimedBus client id now b).offers client id' = b.offers client id' := by
  have hlocal : ∀ b' : Bus, (after .answered (.claimLocal id now) b').localStatus id' =
      b'.localStatus id' := by
    intro b'
    show ((b'.sqlite.updateWhere (localIs id .pending) _).find id').map _ = _
    rw [find_guarded_ne h]
    rfl
  have hremote : (after .answered (.claimRemote id now) b).remoteStatus id' = b.remoteStatus id' := by
    have hstep := remoteStep_after .answered (.claimRemote id now) b id'
    generalize (after .answered (.claimRemote id now) b).remoteStatus id' = s' at hstep
    cases hstep with
    | kept => rfl
    | claimed => exact absurd rfl h
  have hsame : (claimedBus client id now b).remoteStatus id' = b.remoteStatus id' ∧
      (claimedBus client id now b).localStatus id' = b.localStatus id' := by
    unfold claimedBus
    split
    · rw [after_drive]
      exact ⟨hremote, hlocal _⟩
    · exact ⟨rfl, hlocal b⟩
  unfold Bus.offers
  rw [hsame.1, hsame.2]

/-! ## One poll -/

theorem without_cons (won : ControlCommand) (rest cs : List ControlCommand) :
    without (won :: rest) cs = without rest (cs.filter fun c => !decide (idOf won = idOf c)) :=
  unseen_cons won rest cs

@[simp] theorem without_nil (cs : List ControlCommand) : without [] cs = cs := by simp [unseen]

/-- What a claim loop wins and leaves: it wins the claimable ones among the
commands it was handed, and takes them out of both queues. -/
theorem claimEmergencies_answered (client : Bool) (now : String) {cs : List ControlCommand}
    (hdist : Distinct idOf cs) (b : Bus) :
    (runAlone [] (claimEmergencies client now cs) b).1 =
      (cs.filter (claimable client b)).map (·.claimedAt now) ∧
    remoteQueue client (runAlone [] (claimEmergencies client now cs) b).2 =
      without (cs.filter (claimable client b)) (remoteQueue client b) ∧
    (runAlone [] (claimEmergencies client now cs) b).2.pendingLocal =
      without (cs.filter (claimable client b)) b.pendingLocal ∧
    ∀ id, (∀ c ∈ cs.filter (claimable client b), idOf c ≠ id) →
      (runAlone [] (claimEmergencies client now cs) b).2.offers client id = b.offers client id := by
  induction cs generalizing b with
  | nil => simp [claimEmergencies]
  | cons c rest ih =>
    obtain ⟨hc, hrest⟩ := List.pairwise_cons.mp hdist
    rw [claimEmergencies]
    by_cases hem : c.commandType.emergency = true
    · simp only [hem, Bool.not_true, Bool.false_eq_true, if_false]
      rw [runAlone_bind, faultsLeft_nil, tryClaim_answered]
      cases hoff : b.offers client c.commandId with
      | false =>
        have hskip : (c :: rest).filter (claimable client b) = rest.filter (claimable client b) := by
          rw [List.filter_cons_of_neg]
          simp [claimable, hoff]
        simp only [Bool.false_eq_true, if_false, hskip]
        exact ih hrest b
      | true =>
        have htake : (c :: rest).filter (claimable client b) =
            c :: rest.filter (claimable client b) := by
          rw [List.filter_cons_of_pos]
          simp [claimable, hem, hoff]
        simp only [if_true, pure_eq, runAlone_bind_ret, htake]
        -- later commands are claimable after this claim iff they were before
        have hlater : rest.filter (claimable client (claimedBus client c.commandId now b)) =
            rest.filter (claimable client b) := by
          refine List.filter_congr fun d hd => ?_
          unfold claimable
          rw [claimedBus_offers now (hc d hd)]
        obtain ⟨hremote, hlocal⟩ := claimedBus_queues now hoff
        obtain ⟨hw, hr, hl, ho⟩ := ih hrest (claimedBus client c.commandId now b)
        rw [hlater] at hw hr hl ho
        refine ⟨by rw [hw, List.map_cons], ?_, ?_, fun id hid => ?_⟩
        · rw [hr, hremote, without_cons]
        · rw [hl, hlocal, without_cons]
        · rw [ho id fun d hd => hid d (List.mem_cons_of_mem _ hd)]
          exact claimedBus_offers now (hid c List.mem_cons_self)
    · have hskip : (c :: rest).filter (claimable client b) = rest.filter (claimable client b) := by
        rw [List.filter_cons_of_neg]
        simp [claimable, hem]
      simp only [hem, Bool.not_false, if_true, hskip]
      exact ih hrest b

theorem queue_distinct (client : Bool) (b : Bus) : Distinct idOf (queue client b) := by
  refine Distinct.sortBy (Distinct.union ?_ (pendingLocal_distinct b))
  unfold remoteQueue
  split
  · exact pendingRemote_distinct b
  · exact .nil

theorem cap_cap (limit : Int) : cap (cap limit) = cap limit := by
  unfold cap
  omega

/-- The two queues agree on creation times. -/
theorem OneTime.agree {b : Bus} (h : OneTime b) (client : Bool) :
    Agree timeOf idOf (remoteQueue client b) b.pendingLocal := by
  intro x hx y hy hid
  unfold remoteQueue at hx
  split at hx
  · obtain ⟨r, hr, rfl⟩ := List.mem_map.mp hx
    obtain ⟨s, hs, rfl⟩ := List.mem_map.mp hy
    exact h r (List.mem_of_mem_filter hr) s (List.mem_of_mem_filter hs) hid
  · cases hx

/-- What a poll fetches: the head of the queue. -/
theorem fetch_queue {client : Bool} {b : Bus}
    (h : Agree timeOf idOf (remoteQueue client b) b.pendingLocal) (limit : Int) :
    runAlone [] (fetchPendingCommands client (cap limit)) b = ((queue client b).take (cap limit), b) := by
  rw [fetch_answered, cap_cap, window_eq_take (pendingLocal_distinct b) h]
  rfl

/-- Dropping claimed commands from both sources drops them from the queue. -/
theorem queue_without {client : Bool} {b b' : Bus} {won : List ControlCommand}
    (hr : remoteQueue client b' = without won (remoteQueue client b))
    (hl : b'.pendingLocal = without won b.pendingLocal) :
    queue client b' = without won (queue client b) := by
  have hunion := union_filter idOf
    (fun i => !won.any fun m => decide (idOf m = i)) (remoteQueue client b) b.pendingLocal
  unfold queue
  rw [hr, hl]
  show sortBy timeOf (union idOf ((remoteQueue client b).filter _) (b.pendingLocal.filter _)) = _
  rw [hunion, sortBy_filter]
  rfl

/-- The claimed commands of a window are what the window loses. -/
theorem without_served {p : ControlCommand → Bool} {n : Nat} {q : List ControlCommand}
    (hdist : Distinct idOf q) : without (served p n q) q = remaining p n q := by
  have hsplit := hdist
  rw [← List.take_append_drop n q] at hsplit
  obtain ⟨htake, _, hcross⟩ := List.pairwise_append.mp hsplit
  unfold without unseen remaining
  conv_lhs => rw [← List.take_append_drop n q]
  rw [List.filter_append]
  congr 1
  · rw [List.take_append_drop]
    refine List.filter_congr fun c hc => ?_
    cases hp : p c with
    | true =>
      have hmem : c ∈ served p n q := List.mem_filter.mpr ⟨hc, hp⟩
      have hany : (served p n q).any (fun m => decide (idOf m = idOf c)) = true :=
        List.any_eq_true.mpr ⟨c, hmem, by simp⟩
      simp [hany]
    | false =>
      have hany : (served p n q).any (fun m => decide (idOf m = idOf c)) = false := by
        refine List.any_eq_false.mpr fun m hm => ?_
        obtain ⟨hmt, hmp⟩ := List.mem_filter.mp hm
        intro hid
        have hsame : m = c := Distinct.eq htake hmt hc (by simpa using hid)
        rw [hsame, hp] at hmp
        cases hmp
      simp [hany]
  · rw [List.take_append_drop]
    refine List.filter_eq_self.mpr fun c hc => ?_
    have hany : (served p n q).any (fun m => decide (idOf m = idOf c)) = false := by
      refine List.any_eq_false.mpr fun m hm => ?_
      have hne := hcross m (List.mem_of_mem_filter hm) c hc
      simpa using hne
    simp [hany]

/-- **One poll**: it claims what is claimable in the head of the queue, the
rest of the queue stays, and so does what is on offer in it. -/
theorem poll_effect (client : Bool) (limit : Int) (now : String) {b : Bus}
    (h : Agree timeOf idOf (remoteQueue client b) b.pendingLocal) :
    (poll client limit now b).1 =
      (served (claimable client b) (cap limit) (queue client b)).map (·.claimedAt now) ∧
    queue client (poll client limit now b).2 =
      remaining (claimable client b) (cap limit) (queue client b) ∧
    (∀ c ∈ queue client (poll client limit now b).2,
      claimable client (poll client limit now b).2 c = claimable client b c) ∧
    Agree timeOf idOf (remoteQueue client (poll client limit now b).2)
      (poll client limit now b).2.pendingLocal := by
  have hdist : Distinct idOf ((queue client b).take (cap limit)) :=
    (queue_distinct client b).sublist (List.take_sublist _ _)
  obtain ⟨hwon, hremote, hlocal, hoffers⟩ := claimEmergencies_answered client now hdist b
  have hpoll : poll client limit now b =
      runAlone [] (claimEmergencies client now ((queue client b).take (cap limit))) b := by
    show runAlone [] (fetchAndClaimEmergencyCommands client limit now) b = _
    unfold fetchAndClaimEmergencyCommands
    rw [runAlone_bind, faultsLeft_nil, fetch_queue h]
  rw [hpoll]
  have hqueue := queue_without hremote hlocal
  rw [show (((queue client b).take (cap limit)).filter (claimable client b)) =
    served (claimable client b) (cap limit) (queue client b) from rfl] at hwon hremote hlocal hqueue
  refine ⟨hwon, ?_, fun c hc => ?_, ?_⟩
  · rw [hqueue, without_served (queue_distinct client b)]
  · rw [hqueue] at hc
    unfold claimable
    rw [hoffers (idOf c) (mem_unseen.mp hc).2]
  · rw [hremote, hlocal]
    intro x hx y hy
    exact h x (mem_unseen.mp hx).1 y (mem_unseen.mp hy).1

/-! ## Repeated polls -/

theorem served_congr {p p' : ControlCommand → Bool} {n : Nat} {q : List ControlCommand}
    (h : ∀ c ∈ q, p' c = p c) : served p' n q = served p n q :=
  List.filter_congr fun c hc => h c (List.mem_of_mem_take hc)

theorem remaining_congr {p p' : ControlCommand → Bool} {n : Nat} {q : List ControlCommand}
    (h : ∀ c ∈ q, p' c = p c) : remaining p' n q = remaining p n q := by
  unfold remaining
  congr 1
  refine List.filter_congr fun c hc => ?_
  rw [h c (List.mem_of_mem_take hc)]

/-- After `k` polls the queue is what the window has left `k` times. -/
theorem afterPolls_queue (client : Bool) (limit : Int) (clock : Nat → String) {b : Bus}
    (h : Agree timeOf idOf (remoteQueue client b) b.pendingLocal) (k : Nat) :
    queue client (afterPolls client limit clock b k) =
      (remaining (claimable client b) (cap limit))^[k] (queue client b) ∧
    (∀ c ∈ queue client (afterPolls client limit clock b k),
      claimable client (afterPolls client limit clock b k) c = claimable client b c) ∧
    Agree timeOf idOf (remoteQueue client (afterPolls client limit clock b k))
      (afterPolls client limit clock b k).pendingLocal := by
  induction k with
  | zero => exact ⟨rfl, fun _ _ => rfl, h⟩
  | succ k ih =>
    obtain ⟨hqueue, hclaim, hagree⟩ := ih
    obtain ⟨_, hq, hc, ha⟩ := poll_effect client limit (clock k) hagree
    refine ⟨?_, fun c hmem => ?_, ha⟩
    · rw [Function.iterate_succ_apply', ← hqueue, ← remaining_congr hclaim]
      exact hq
    · rw [show claimable client (afterPolls client limit clock b (k + 1)) c = _ from hc c hmem]
      refine hclaim c ?_
      have hsub := remaining_sublist (p := claimable client (afterPolls client limit clock b k))
        (n := cap limit) (queue client (afterPolls client limit clock b k))
      rw [← hq] at hsub
      exact hsub.subset hmem

/-- The ids poll number `k` claims. -/
def claimedAtPoll (client : Bool) (limit : Int) (clock : Nat → String) (b : Bus) (k : Nat) :
    List String :=
  (poll client limit (clock k) (afterPolls client limit clock b k)).1.map idOf

/-- A poll with something to claim claims something, and repeated polls claim
every claimable emergency command of the queue. -/
def NeverStarved (client : Bool) (limit : Int) (b : Bus) : Prop :=
  (∀ now, (∃ c ∈ queue client b, claimable client b c = true) → (poll client limit now b).1 ≠ []) ∧
  ∀ clock, ∃ k, ∀ c ∈ queue client b, claimable client b c = true →
    ∃ j < k, c.commandId ∈ claimedAtPoll client limit clock b j

theorem mem_claimedAtPoll {client : Bool} {limit : Int} {clock : Nat → String} {b : Bus}
    (h : Agree timeOf idOf (remoteQueue client b) b.pendingLocal) {c : ControlCommand}
    (hc : c ∈ queue client b) (k : Nat) :
    c.commandId ∈ claimedAtPoll client limit clock b k ↔
      c ∈ served (claimable client b) (cap limit)
        ((remaining (claimable client b) (cap limit))^[k] (queue client b)) := by
  obtain ⟨hqueue, hclaim, hagree⟩ := afterPolls_queue client limit clock h k
  obtain ⟨hwon, -, -, -⟩ := poll_effect client limit (clock k) hagree
  unfold claimedAtPoll
  rw [hwon, served_congr hclaim, hqueue, List.map_map]
  constructor
  · intro hmem
    obtain ⟨d, hd, hid⟩ := List.mem_map.mp hmem
    have hsub : ∀ m q, ((remaining (claimable client b) (cap limit))^[m] q).Sublist q := by
      intro m
      induction m with
      | zero => exact fun q => .refl q
      | succ m ih => exact fun q => (ih _).trans (remaining_sublist q)
    have hdq := (hsub k _).subset (List.mem_of_mem_take (List.mem_of_mem_filter hd))
    rw [← (queue_distinct client b).eq hdq hc hid]
    exact hd
  · intro hmem
    exact List.mem_map.mpr ⟨c, hmem, rfl⟩

/-- **Who is starved.** With a command's creation time the same on both buses
and every call answered, no emergency command is starved exactly when, ahead
of each claimable one, fewer commands than the limit are never claimed. -/
theorem never_starved_iff (client : Bool) (limit : Int) (b : Bus) (h : OneTime b) :
    NeverStarved client limit b ↔
      Unblocked (claimable client b) (cap limit) (queue client b) := by
  have hagree := h.agree client
  have hnd : (queue client b).Nodup := 
    List.Pairwise.imp (fun hne he => hne (congrArg idOf he)) (queue_distinct client b)
  rw [← drains_iff hnd]
  unfold NeverStarved
  constructor
  · intro ⟨hone, hall⟩
    refine ⟨fun hex hnil => ?_, ?_⟩
    · refine hone "" hex ?_
      rw [(poll_effect client limit "" hagree).1, hnil]
      rfl
    · obtain ⟨k, hk⟩ := hall fun _ => ""
      refine ⟨k, fun c hc hp => ?_⟩
      obtain ⟨j, hj, hmem⟩ := hk c hc hp
      exact ⟨j, hj, (mem_claimedAtPoll hagree hc j).mp hmem⟩
  · intro ⟨hone, k, hk⟩
    refine ⟨fun now hex => ?_, fun clock => ⟨k, fun c hc hp => ?_⟩⟩
    · rw [(poll_effect client limit now hagree).1]
      intro hnil
      exact hone hex (List.map_eq_nil_iff.mp hnil)
    · obtain ⟨j, hj, hmem⟩ := hk c hc hp
      exact ⟨j, hj, (mem_claimedAtPoll hagree hc j).mpr hmem⟩

/-- One command staged locally. -/
def staged (type : ControlCommandType) (id now : String) (b : Bus) : Bus :=
  (BusOp.perform [] (.enqueueLocal { commandType := type, commandId := id, now := now }) b).2

/-- A ping that is older than the flatten. -/
def pingFirst : Bus :=
  staged .ping "c0" "2026-01-01" (staged .flattenAndHalt "c1" "2026-01-02" .empty)

/-- A ping and a younger flatten, both mirrored to Supabase, and a kill switch that is
there alone. -/
def mirroredBus : Bus :=
  let killSwitch : CommandRequest :=
    { commandType := .engageKillSwitch, commandId := "c2", now := "2026-01-03" }
  let mirrored := (BusOp.perform [] (.mirror true 10) pingFirst).2
  (BusOp.perform [] (.enqueue true killSwitch) mirrored).2

/-- With a limit of two the ping ahead keeps neither the flatten nor the kill switch waiting. -/
theorem flatten_never_starved : NeverStarved true 2 mirroredBus := by
  refine (never_starved_iff true 2 mirroredBus (by decide)).mpr ?_
  intro front e back hq _
  have hping : (queue true mirroredBus).countP (fun c => !claimable true mirroredBus c) = 1 := by
    decide
  have hfront : front.Sublist (queue true mirroredBus) := by
    rw [hq]
    exact List.sublist_append_left _ _
  have hle := hfront.countP_le (p := fun c => !claimable true mirroredBus c)
  rw [hping] at hle
  exact hle.trans_lt (by decide)

/-- A poll with limit 1 sees the ping only and claims nothing. -/
theorem ping_starves_flatten :
    ¬ ∀ (client : Bool) (limit : Int) (b : Bus), 1 ≤ limit → OneTime b →
      NeverStarved client limit b := by
  intro h
  have hstarved := (h true 1 pingFirst (by decide) (by decide)).1 "t1" (by decide)
  revert hstarved
  decide

end TradingPlatform.Control.EmergencyClaim
