import TradingPlatform.Control.QueueSpec
import TradingPlatform.Lib.StableSort

/-! # What a fetch and a claim answer when every call does

The merge of the two pending queries keeps the Supabase version of a command
both buses hold, sorts by creation time and cuts to the limit. -/

namespace TradingPlatform.Control

open TradingPlatform.Lib TradingPlatform.Lib.Prog TradingPlatform.Lib.StableSort

/-! ## The merge -/

abbrev idOf (c : ControlCommand) : String := c.commandId

abbrev timeOf (c : ControlCommand) : String := c.createdAt

/-- The pending commands of each bus, in table order. -/
def Bus.pendingRemote (b : Bus) : List ControlCommand :=
  (b.supabase.rows.filter fun r => decide (r.status = .pending)).map rowToCommand

def Bus.pendingLocal (b : Bus) : List ControlCommand :=
  (b.sqlite.rows.filter fun r => decide (r.status = .pending)).map sqliteRowToCommand

theorem foldl_appendUnseen {ys : List ControlCommand} (h : Distinct idOf ys)
    (xs : List ControlCommand) : ys.foldl appendUnseen xs = union idOf xs ys := by
  induction ys generalizing xs with
  | nil => simp [union, unseen]
  | cons y rest ih =>
    obtain ⟨hy, hrest⟩ := List.pairwise_cons.mp h
    rw [List.foldl_cons, ih hrest]
    unfold appendUnseen union unseen
    split
    · rename_i hin
      simp [hin]
    · rename_i hnew
      have hsame : rest.filter (fun c => !(xs ++ [y]).any fun m => decide (idOf m = idOf c)) =
          rest.filter (fun c => !xs.any fun m => decide (idOf m = idOf c)) := by
        refine List.filter_congr fun c hc => ?_
        have hne : idOf y ≠ idOf c := hy c hc
        simp [List.any_append, hne]
      rw [hsame, List.filter_cons, if_pos (by simpa using hnew), List.append_assoc]
      rfl

theorem pendingRemote_distinct (b : Bus) : Distinct idOf b.pendingRemote := by
  refine List.pairwise_map.mpr ?_
  exact (b.supabase.apart.imp fun h => h.1).sublist List.filter_sublist

theorem pendingLocal_distinct (b : Bus) : Distinct idOf b.pendingLocal := by
  refine List.pairwise_map.mpr ?_
  exact (b.sqlite.apart.imp fun h => h.1).sublist List.filter_sublist

theorem pending_remote_map (b : Bus) (n : Nat) :
    (b.supabase.pending n).map rowToCommand = (sortBy timeOf b.pendingRemote).take n := by
  unfold RemoteTable.pending sortBy Bus.pendingRemote
  rw [List.map_take, List.map_insertionSort (s := fun a b => timeOf a ≤ timeOf b) _ rowToCommand]
  intro x _ y _
  exact Iff.rfl

theorem pending_local_map (b : Bus) (n : Nat) :
    (b.sqlite.pending n).map sqliteRowToCommand = (sortBy timeOf b.pendingLocal).take n := by
  unfold LocalTable.pending sortBy Bus.pendingLocal
  rw [List.map_take,
    List.map_insertionSort (s := fun a b => timeOf a ≤ timeOf b) _ sqliteRowToCommand]
  intro x _ y _
  exact Iff.rfl

/-- What a fetch returns: the window of both capped queries. -/
theorem mergePending_window (b : Bus) (n : Nat) :
    mergePending n (b.supabase.pending n) (b.sqlite.pending n) =
      window timeOf idOf n b.pendingRemote b.pendingLocal := by
  have hr : Distinct idOf ((sortBy timeOf b.pendingRemote).take n) :=
    (pendingRemote_distinct b).sortBy.sublist (List.take_sublist _ _)
  have hl : Distinct idOf ((sortBy timeOf b.pendingLocal).take n) :=
    (pendingLocal_distinct b).sortBy.sublist (List.take_sublist _ _)
  have hnil : union idOf [] ((sortBy timeOf b.pendingRemote).take n) =
      (sortBy timeOf b.pendingRemote).take n := by
    simp [union, unseen]
  unfold mergePending window
  rw [pending_remote_map, pending_local_map, List.foldl_append, foldl_appendUnseen hr,
    foldl_appendUnseen hl, hnil]
  rfl

/-- The Supabase side of the queue, when it is configured. -/
def remoteQueue (client : Bool) (b : Bus) : List ControlCommand :=
  if client then b.pendingRemote else []

/-- **Fetch**, with every call answered: the window of both queues, or of the
local one alone; the bus is unchanged. -/
theorem fetch_answered (client : Bool) (limit : Int) (b : Bus) :
    runAlone [] (fetchPendingCommands client limit) b =
      (window timeOf idOf (cap limit) (remoteQueue client b) b.pendingLocal, b) := by
  unfold fetchPendingCommands remoteQueue
  cases client with
  | true =>
    simp only [if_true, perform_bind, pure_eq, runAlone_call, respond, Fault.deliver,
      List.headD_nil, List.tail_nil]
    rw [after_select (fun _ => rfl) (fun _ _ => rfl), after_select (fun _ => rfl) (fun _ _ => rfl)]
    simp only [show (default : Fault) = .answered from rfl, if_true, runAlone_ret,
      mergePending_window]
  | false =>
    simp only [Bool.false_eq_true, if_false, perform_bind, pure_eq, runAlone_call, runAlone_ret,
      respond]
    rw [after_select (fun _ => rfl) (fun _ _ => rfl)]
    have hnone : RemoteTable.pending Table.empty (cap limit) = [] := by
      simp [RemoteTable.pending, Table.empty]
    have h := mergePending_window ⟨.empty, b.sqlite⟩ (cap limit)
    rw [hnone] at h
    refine Prod.ext ?_ rfl
    exact h

/-! ## Claim -/

/-- A claim would win: Supabase decides for the commands it holds, SQLite for
the others. -/
def Bus.offers (client : Bool) (b : Bus) (id : String) : Bool :=
  match client, b.remoteStatus id with
  | true, some st => decide (st = .pending)
  | _, _ => decide (b.localStatus id = some .pending)

/-- An update that matches no row changes nothing. -/
theorem after_claimRemote_lost {f : Fault} {b : Bus} {id : String} (now : String)
    (h : b.remoteStatus id ≠ some .pending) : after f (.claimRemote id now) b = b := by
  have hnone : b.supabase.updateWhere (remoteIs id .pending) (claimRemoteSet now) = b.supabase := by
    refine Table.updateWhere_none _ fun r hr => ?_
    by_contra hp
    simp only [remoteIs, Bool.not_eq_false, Bool.and_eq_true, decide_eq_true_eq] at hp
    have hfind : b.supabase.find id = some r := b.supabase.find_eq_some.mpr ⟨hr, hp.1⟩
    exact h (by simp [Bus.remoteStatus, hfind, hp.2])
  simp only [after, BusCall.onSupabase, BusCall.onSqlite, hnone, ite_self]

theorem after_claimLocal_lost {f : Fault} {b : Bus} {id : String} (now : String)
    (h : b.localStatus id ≠ some .pending) : after f (.claimLocal id now) b = b := by
  have hnone : b.sqlite.updateWhere (localIs id .pending) (claimLocalSet now) = b.sqlite := by
    refine Table.updateWhere_none _ fun r hr => ?_
    by_contra hp
    simp only [localIs, Bool.not_eq_false, Bool.and_eq_true, decide_eq_true_eq] at hp
    have hfind : b.sqlite.find id = some r := b.sqlite.find_eq_some.mpr ⟨hr, hp.1⟩
    exact h (by simp [Bus.localStatus, hfind, hp.2])
  simp only [after, BusCall.onSupabase, BusCall.onSqlite, hnone, ite_self]

/-- The bus after a winning claim. -/
def claimedBus (client : Bool) (id now : String) (b : Bus) : Bus :=
  match client, b.remoteStatus id with
  | true, some _ => after .answered (.driveLocal id now) (after .answered (.claimRemote id now) b)
  | _, _ => after .answered (.claimLocal id now) b

/-- The local half, with every call answered. -/
theorem claimLocalCopy_answered (id now : String) (b : Bus) :
    runAlone [] (claimLocalCopy id now) b =
      (decide (b.localStatus id = some .pending),
        if decide (b.localStatus id = some .pending) = true then
          after .answered (.claimLocal id now) b else b) := by
  rw [claimLocal_runAlone]
  refine Prod.ext rfl ?_
  show after .answered (.claimLocal id now) b = _
  split
  · rfl
  · rename_i h
    exact after_claimLocal_lost now (by simpa using h)

/-- **Claim**, with every call answered: it wins exactly what is on offer, and
losing changes nothing. -/
theorem tryClaim_answered (client : Bool) (id now : String) (b : Bus) :
    runAlone [] (tryClaimCommand client id now) b =
      (b.offers client id, if b.offers client id then claimedBus client id now b else b) := by
  unfold tryClaimCommand
  cases client with
  | false => exact claimLocalCopy_answered id now b
  | true =>
    simp only [if_true, perform_bind, runAlone_call, List.headD_nil, List.tail_nil, respond,
      Fault.deliver, show (default : Fault) = .answered from rfl, remoteIs_filter]
    cases hr : b.supabase.find id with
    | none =>
      have hs : b.remoteStatus id = none := by simp [Bus.remoteStatus, hr]
      have hsame := after_claimRemote_lost (f := .answered) (b := b) now
        (show b.remoteStatus id ≠ some .pending by simp [hs])
      simp only [Option.filter_none, Option.toList_none, List.map_nil, claimUnlessOwned,
        perform_bind, runAlone_call, respond, hsame, Fault.deliver, List.headD_nil, List.tail_nil,
        show (default : Fault) = .answered from rfl, if_true, hr]
      rw [after_select (fun _ => rfl) (fun _ _ => rfl)]
      simpa [Bus.offers, claimedBus, hs] using claimLocalCopy_answered id now b
    | some r =>
      have hs : b.remoteStatus id = some r.status := by simp [Bus.remoteStatus, hr]
      by_cases hp : r.status = .pending
      · have hf : (some r).filter (fun r => decide (r.status = .pending)) = some r := by
          simp [Option.filter, hp]
        simp only [hf, Option.toList_some, List.map_cons, List.map_nil, driveMirror, perform_bind,
          pure_eq, runAlone_call, runAlone_ret]
        simp [Bus.offers, claimedBus, hs, hp]
        rfl
      · have hf : (some r).filter (fun r => decide (r.status = .pending)) = none := by
          simp [Option.filter, hp]
        have hsame := after_claimRemote_lost (f := .answered) (b := b) now
          (show b.remoteStatus id ≠ some .pending by simp [hs, hp])
        simp only [hf, Option.toList_none, List.map_nil, claimUnlessOwned, perform_bind, pure_eq,
          runAlone_call, respond, hsame, Fault.deliver, List.headD_nil, List.tail_nil,
          show (default : Fault) = .answered from rfl, if_true, hr, Option.toList_some, runAlone_ret]
        rw [after_select (fun _ => rfl) (fun _ _ => rfl)]
        simp [Bus.offers, hs, hp]

end TradingPlatform.Control
