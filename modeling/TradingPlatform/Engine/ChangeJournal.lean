import Mathlib.Algebra.Order.Ring.Rat
import TradingPlatform.Lib.JsonText

/-! # The immutable change journal

An entry is signed over the objects as they were given, their keys sorted before
they are written. It is verified, once fetched, over what the stored text is read
back as, whose keys are texts and are sorted as texts. -/

namespace TradingPlatform.Engine.ChangeJournal

open TradingPlatform.Lib

/-- The keys that `json.dumps` accepts. -/
inductive JsonKey (φ : Type)
  | none
  | bool (b : Bool)
  | int (n : ℤ)
  | float (x : φ)
  | str (s : String)
  deriving DecidableEq

/-- A document as Python holds it, with floats `φ`. -/
abbrev PyDoc (φ : Type) := Doc (JsonKey φ) φ

/-- The items of a dict. -/
abbrev PyDict (φ : Type) := List (JsonKey φ × PyDoc φ)

namespace JsonKey

variable {φ : Type}

/-- A number as a whole number: `True` is one. -/
def toInt? : JsonKey φ → Option ℤ
  | .bool b => some (if b then 1 else 0)
  | .int n => some n
  | _ => .none

def isStr : JsonKey φ → Bool
  | .str _ => true
  | _ => false

def isNumber : JsonKey φ → Bool
  | .bool _ | .int _ | .float _ => true
  | _ => false

/-- `sorted` has no order for other mixtures, and asks for none between fewer than two. -/
def sortable (keys : List (JsonKey φ)) : Bool :=
  keys.length ≤ 1 || keys.all isStr || keys.all isNumber

variable (floatLe : JsonKey φ → JsonKey φ → Bool) (floatRepr : φ → String)

/-- The order of the keys; `floatLe` compares where there is a float. -/
def le : JsonKey φ → JsonKey φ → Bool
  | .str s, .str t => s ≤ t
  | a, b =>
    match a.toInt?, b.toInt? with
    | some m, some n => m ≤ n
    | _, _ => floatLe a b

/-- How the key is written. -/
def text : JsonKey φ → String
  | .none => "null"
  | .bool b => if b then "true" else "false"
  | .int n => toString n
  | .float x => floatRepr x
  | .str s => s

end JsonKey

structure ChangeJournalEntry (φ : Type) where
  journalId : ℕ
  timestamp : String
  eventType : String
  triggeredBy : String
  scopeKey : String
  previousState : PyDict φ
  requestedState : PyDict φ
  rationaleHash : String
  payloadSignature : String
  metadata : PyDict φ

/-- A row of `immutable_change_journal`; the states are stored as JSON text. -/
structure JournalRow (φ : Type) where
  journalId : ℕ
  timestamp : String
  eventType : String
  triggeredBy : String
  scopeKey : String
  previousStateJson : List (Token φ)
  requestedStateJson : List (Token φ)
  rationaleHash : String
  payloadSignature : String
  metadataJson : List (Token φ)

/-- The arguments of `append`. -/
structure AppendCall (φ : Type) where
  eventType : String
  triggeredBy : String
  previousState : PyDict φ
  requestedState : PyDict φ
  rationale : String
  scopeKey : String := "GLOBAL"
  metadata : PyDict φ := []

/-- What runs outside the journal: the order and the text of floats, the hash of a
rationale, and the HMAC of a text under the signing key. -/
structure Env (φ : Type) where
  floatLe : JsonKey φ → JsonKey φ → Bool
  floatRepr : φ → String
  hashRationale : String → String
  hmac : List (Token φ) → String

namespace Env

variable {φ : Type} (env : Env φ)

abbrev keyLe : JsonKey φ → JsonKey φ → Bool := JsonKey.le env.floatLe

abbrev keyText : JsonKey φ → String := JsonKey.text env.floatRepr

/-- `json.dumps(d, sort_keys=True, separators=(",", ":"))`; `none` is the `TypeError` of
keys that have no order. -/
def dumpsSorted (d : PyDoc φ) : Option (List (Token φ)) :=
  if d.dicts.all fun fields => JsonKey.sortable (fields.map Prod.fst) then
    some (Doc.tokens id (d.canon env.keyLe env.keyText))
  else none

def dumps (d : PyDict φ) : List (Token φ) := Doc.tokens env.keyText (.obj d)

/-- `json.loads` of the text of a dict. -/
def loads (ts : List (Token φ)) : Except String (PyDict φ) :=
  match Doc.loadsWith JsonKey.str Doc.dictOf ts with
  | some (.obj fields) => .ok fields
  | _ => .error "JSONDecodeError"

def payload (timestamp eventType triggeredBy scopeKey : String)
    (previousState requestedState : PyDict φ) (rationaleHash : String) : List (String × PyDoc φ) :=
  [("timestamp", .str timestamp), ("event_type", .str eventType),
    ("triggered_by", .str triggeredBy), ("scope_key", .str scopeKey),
    ("previous_state", .obj previousState), ("requested_state", .obj requestedState),
    ("rationale_hash", .str rationaleHash)]

/-- The document that is signed. -/
def payloadDoc (timestamp eventType triggeredBy scopeKey : String)
    (previousState requestedState : PyDict φ) (rationaleHash : String) : PyDoc φ :=
  .obj ((payload timestamp eventType triggeredBy scopeKey previousState requestedState
    rationaleHash).map fun kd => (.str kd.1, kd.2))

def signJournalPayload (timestamp eventType triggeredBy scopeKey : String)
    (previousState requestedState : PyDict φ) (rationaleHash : String) : Option String :=
  (env.dumpsSorted (payloadDoc timestamp eventType triggeredBy scopeKey previousState
    requestedState rationaleHash)).map env.hmac

/-- `none` when signing raises. -/
def verifyJournalSignature (entry : ChangeJournalEntry φ) : Option Bool :=
  (env.signJournalPayload entry.timestamp entry.eventType entry.triggeredBy entry.scopeKey
    entry.previousState entry.requestedState entry.rationaleHash).map
      (· == entry.payloadSignature)

/-- The journal only grows: triggers refuse an update or a delete. -/
def append (now : String) (call : AppendCall φ) (journal : List (JournalRow φ)) :
    Except String (ChangeJournalEntry φ) × List (JournalRow φ) :=
  let rationaleHash := env.hashRationale call.rationale
  match env.signJournalPayload now call.eventType call.triggeredBy call.scopeKey
    call.previousState call.requestedState rationaleHash with
  | none => (.error "TypeError", journal)
  | some signature =>
    let row : JournalRow φ :=
      { journalId := journal.length + 1, timestamp := now, eventType := call.eventType
        triggeredBy := call.triggeredBy, scopeKey := call.scopeKey
        previousStateJson := env.dumps call.previousState
        requestedStateJson := env.dumps call.requestedState
        rationaleHash, payloadSignature := signature
        metadataJson := env.dumps call.metadata }
    let entry : ChangeJournalEntry φ :=
      { journalId := journal.length + 1, timestamp := now, eventType := call.eventType
        triggeredBy := call.triggeredBy, scopeKey := call.scopeKey
        previousState := call.previousState, requestedState := call.requestedState
        rationaleHash, payloadSignature := signature, metadata := call.metadata }
    if env.verifyJournalSignature entry = some true then (.ok entry, journal ++ [row])
    else (.error "journal signature verification failed after insert", journal ++ [row])

def rowToJournalEntry (row : JournalRow φ) : Except String (ChangeJournalEntry φ) := do
  let previousState ← loads row.previousStateJson
  let requestedState ← loads row.requestedStateJson
  let metadata ← loads row.metadataJson
  .ok
    { journalId := row.journalId, timestamp := row.timestamp, eventType := row.eventType
      triggeredBy := row.triggeredBy
      scopeKey := if row.scopeKey = "" then "GLOBAL" else row.scopeKey
      previousState, requestedState, rationaleHash := row.rationaleHash
      payloadSignature := row.payloadSignature, metadata }

def fetchEntry (journal : List (JournalRow φ)) (journalId : ℕ) :
    Except String (Option (ChangeJournalEntry φ)) :=
  match journal.find? (·.journalId = journalId) with
  | none => .ok none
  | some row => (rowToJournalEntry row).map some

/-- A clause for a text that is given and not empty. -/
def clause (wanted : Option String) (value : String) : Bool :=
  match wanted with
  | none => true
  | some wanted => wanted = "" || value = wanted

/-- The newest first; a negative limit is none. -/
def recentRows (journal : List (JournalRow φ)) (limit : ℤ) (eventType scopeKey : Option String) :
    List (JournalRow φ) :=
  let rows := (journal.filter fun row =>
    clause eventType row.eventType && clause scopeKey row.scopeKey).reverse
  if limit < 0 then rows else rows.take limit.toNat

def fetchRecent (journal : List (JournalRow φ)) (limit : ℤ) (eventType scopeKey : Option String) :
    Except String (List (ChangeJournalEntry φ)) :=
  (recentRows journal limit eventType scopeKey).mapM rowToJournalEntry

/-! ## Entries that are read back -/

/-- The journal after the appends, each at its time. -/
def appendAll (calls : List (String × AppendCall φ)) : List (JournalRow φ) :=
  calls.foldl (fun journal c => (env.append c.1 c.2 journal).2) []

/-- What is read back verifies. -/
def Verifies (result : Except String (ChangeJournalEntry φ)) : Prop :=
  ∃ entry, result = .ok entry ∧ env.verifyJournalSignature entry = some true

/-- Every entry verifies when it is fetched, alone or among the recent ones. -/
structure RoundTrips (journal : List (JournalRow φ)) : Prop where
  entry : ∀ row ∈ journal, ∃ entry, fetchEntry journal row.journalId = .ok (some entry) ∧
    env.verifyJournalSignature entry = some true
  recent : ∀ limit eventType scopeKey,
    ∃ entries, fetchRecent journal limit eventType scopeKey = .ok entries ∧
      ∀ entry ∈ entries, env.verifyJournalSignature entry = some true

theorem mapM_of_forall {α β : Type} {f : α → Except String β} {P : β → Prop} {xs : List α}
    (h : ∀ x ∈ xs, ∃ y, f x = .ok y ∧ P y) : ∃ ys, xs.mapM f = .ok ys ∧ ∀ y ∈ ys, P y := by
  induction xs with
  | nil => exact ⟨[], rfl, nofun⟩
  | cons x xs ih =>
    obtain ⟨y, hy, hpy⟩ := h x List.mem_cons_self
    obtain ⟨ys, hys, hpys⟩ := ih fun x hx => h x (List.mem_cons_of_mem _ hx)
    refine ⟨y :: ys, ?_, List.forall_mem_cons.mpr ⟨hpy, hpys⟩⟩
    rw [List.mapM_cons, hy, hys]
    rfl

theorem forall_of_mapM {α β : Type} {f : α → Except String β} {P : β → Prop} {xs : List α}
    {ys : List β} (h : xs.mapM f = .ok ys) (hp : ∀ y ∈ ys, P y) :
    ∀ x ∈ xs, ∃ y, f x = .ok y ∧ P y := by
  induction xs generalizing ys with
  | nil => exact nofun
  | cons x xs ih =>
    rw [List.mapM_cons] at h
    cases hx : f x with
    | error e => rw [hx] at h; cases h
    | ok y =>
      cases hxs : xs.mapM f with
      | error e => rw [hx, hxs] at h; cases h
      | ok rest =>
        rw [hx, hxs] at h
        obtain rfl : y :: rest = ys := Except.ok.inj h
        obtain ⟨hy, hrest⟩ := List.forall_mem_cons.mp hp
        exact List.forall_mem_cons.mpr ⟨⟨y, hx, hy⟩, ih hxs hrest⟩

theorem recentRows_all (journal : List (JournalRow φ)) :
    recentRows journal (-1) none none = journal.reverse := by
  simp [recentRows, clause]

theorem mem_of_mem_recentRows {journal : List (JournalRow φ)} {limit : ℤ}
    {eventType scopeKey : Option String} {row : JournalRow φ}
    (h : row ∈ recentRows journal limit eventType scopeKey) : row ∈ journal := by
  unfold recentRows at h
  split at h
  · exact List.mem_of_mem_filter (List.mem_reverse.mp h)
  · exact List.mem_of_mem_filter (List.mem_reverse.mp (List.mem_of_mem_take h))

/-- The rows decide. -/
theorem roundTrips_iff {journal : List (JournalRow φ)} :
    env.RoundTrips journal ↔ ∀ row ∈ journal, env.Verifies (rowToJournalEntry row) := by
  constructor
  · intro h row hrow
    obtain ⟨entries, hentries, hverify⟩ := h.recent (-1) none none
    rw [fetchRecent, recentRows_all] at hentries
    exact forall_of_mapM hentries hverify row (List.mem_reverse.mpr hrow)
  · intro h
    refine ⟨fun row hrow => ?_, fun limit eventType scopeKey => ?_⟩
    · cases hfind : journal.find? (·.journalId = row.journalId) with
      | none =>
        have hnone := List.find?_eq_none.mp hfind row hrow
        exact absurd (decide_eq_true rfl) hnone
      | some found =>
        obtain ⟨entry, hentry, hverify⟩ := h found (List.mem_of_find?_eq_some hfind)
        refine ⟨entry, ?_, hverify⟩
        rw [fetchEntry, hfind]
        exact congrArg (Except.map some) hentry
    · exact mapM_of_forall fun row hrow => h row (mem_of_mem_recentRows hrow)

/-! ## What the stored text is read back as -/

/-- What the text of a document is read back as. -/
def readBack (d : PyDoc φ) : PyDoc φ := d.read JsonKey.str Doc.dictOf env.keyText

def restored (d : PyDict φ) : PyDict φ :=
  (Doc.dictOf (Doc.readFields JsonKey.str Doc.dictOf env.keyText d)).map
    fun kd => (.str kd.1, kd.2)

theorem readBack_obj (d : PyDict φ) : env.readBack (.obj d) = .obj (env.restored d) := rfl

theorem loads_dumps (d : PyDict φ) : loads (env.dumps d) = .ok (env.restored d) := by
  rw [loads, dumps, Doc.loadsWith_tokens, ← readBack, readBack_obj]

theorem keyText_str (s : String) : env.keyText (.str s) = s := rfl

theorem keyLe_str (s t : String) : env.keyLe (.str s) (.str t) = decide (s ≤ t) := rfl

theorem canon_readBack_iff (d : PyDoc φ) :
    (env.readBack d).canon env.keyLe env.keyText = d.canon env.keyLe env.keyText ↔
      d.Ordered env.keyLe env.keyText :=
  Doc.canon_read_iff env.keyText_str env.keyLe_str d

/-- Text keys are sorted without ado. -/
theorem dumpsSorted_readBack (d : PyDoc φ) :
    env.dumpsSorted (env.readBack d) =
      some (Doc.tokens id ((env.readBack d).canon env.keyLe env.keyText)) := by
  rw [dumpsSorted, if_pos]
  refine List.all_eq_true.mpr fun fields hfields => ?_
  have hkeys : (fields.map Prod.fst).all JsonKey.isStr = true := by
    refine List.all_eq_true.mpr fun key hkey => ?_
    obtain ⟨kd, hkd, rfl⟩ := List.mem_map.mp hkey
    obtain ⟨s, hs⟩ := Doc.key_of_read d fields hfields kd hkd
    rw [hs]
    rfl
  rw [JsonKey.sortable, hkeys, Bool.or_true, Bool.true_or]

section Payload
variable (timestamp eventType triggeredBy scopeKey : String)
  (previousState requestedState : PyDict φ) (rationaleHash : String)

theorem nodup_payload :
    ((payload timestamp eventType triggeredBy scopeKey previousState requestedState
      rationaleHash).map Prod.fst).Nodup := by
  show ["timestamp", "event_type", "triggered_by", "scope_key", "previous_state",
    "requested_state", "rationale_hash"].Nodup
  decide

/-- The payload of what is read back is the payload, read back. -/
theorem payloadDoc_restored :
    payloadDoc timestamp eventType triggeredBy scopeKey (env.restored previousState)
        (env.restored requestedState) rationaleHash =
      env.readBack (payloadDoc timestamp eventType triggeredBy scopeKey previousState
        requestedState rationaleHash) := by
  have hdict := Doc.dictOf_eq_self (nodup_payload timestamp eventType triggeredBy scopeKey
    (env.restored previousState) (env.restored requestedState) rationaleHash)
  exact congrArg (fun fields => Doc.obj (List.map (fun kd => (JsonKey.str kd.1, kd.2)) fields))
    hdict.symm

theorem ordered_payloadDoc :
    (payloadDoc timestamp eventType triggeredBy scopeKey previousState requestedState
        rationaleHash).Ordered env.keyLe env.keyText ↔
      Doc.Ordered env.keyLe env.keyText (.obj previousState) ∧
        Doc.Ordered env.keyLe env.keyText (.obj requestedState) := by
  have htop := Doc.pairwise_sortFields_key env.keyText_str env.keyLe_str
    (nodup_payload timestamp eventType triggeredBy scopeKey previousState requestedState
      rationaleHash)
  have hstr : ∀ s, (Doc.str s : PyDoc φ).Ordered env.keyLe env.keyText := fun s => nofun
  rw [payloadDoc, Doc.ordered_obj, and_iff_right htop]
  simp [payload, hstr]

end Payload

/-! ## One append -/

section Call
variable (now : String) (call : AppendCall φ)

/-- The document that the call signs, for one scope. -/
def docOf (scopeKey : String) : PyDoc φ :=
  payloadDoc now call.eventType call.triggeredBy scopeKey call.previousState call.requestedState
    (env.hashRationale call.rationale)

/-- The text that an accepted call signs. -/
def signedText : List (Token φ) :=
  Doc.tokens id ((env.docOf now call call.scopeKey).canon env.keyLe env.keyText)

def fetchedScope (scopeKey : String) : String := if scopeKey = "" then "GLOBAL" else scopeKey

/-- The text that the fetched entry is verified on. -/
def fetchedText : List (Token φ) :=
  Doc.tokens id
    ((env.readBack (env.docOf now call (fetchedScope call.scopeKey))).canon env.keyLe env.keyText)

/-- Every dict of the call has keys that can be sorted. -/
def Accepted : Prop :=
  ((env.docOf now call call.scopeKey).dicts.all fun fields =>
    JsonKey.sortable (fields.map Prod.fst)) = true

def rowOf (journalId : ℕ) : JournalRow φ where
  journalId := journalId
  timestamp := now
  eventType := call.eventType
  triggeredBy := call.triggeredBy
  scopeKey := call.scopeKey
  previousStateJson := env.dumps call.previousState
  requestedStateJson := env.dumps call.requestedState
  rationaleHash := env.hashRationale call.rationale
  payloadSignature := env.hmac (env.signedText now call)
  metadataJson := env.dumps call.metadata

/-- The entry in memory, over the objects of the call. -/
def entryOf (journalId : ℕ) : ChangeJournalEntry φ where
  journalId := journalId
  timestamp := now
  eventType := call.eventType
  triggeredBy := call.triggeredBy
  scopeKey := call.scopeKey
  previousState := call.previousState
  requestedState := call.requestedState
  rationaleHash := env.hashRationale call.rationale
  payloadSignature := env.hmac (env.signedText now call)
  metadata := call.metadata

theorem sign_of_accepted (h : env.Accepted now call) :
    env.signJournalPayload now call.eventType call.triggeredBy call.scopeKey call.previousState
      call.requestedState (env.hashRationale call.rationale) =
        some (env.hmac (env.signedText now call)) := by
  have hdumps : env.dumpsSorted (env.docOf now call call.scopeKey) =
      some (env.signedText now call) := if_pos h
  exact congrArg (Option.map env.hmac) hdumps

theorem sign_of_not_accepted (h : ¬ env.Accepted now call) :
    env.signJournalPayload now call.eventType call.triggeredBy call.scopeKey call.previousState
      call.requestedState (env.hashRationale call.rationale) = none := by
  have hdumps : env.dumpsSorted (env.docOf now call call.scopeKey) = none := if_neg h
  exact congrArg (Option.map env.hmac) hdumps

theorem verify_entryOf (h : env.Accepted now call) (journalId : ℕ) :
    env.verifyJournalSignature (env.entryOf now call journalId) = some true := by
  have hsign := congrArg (Option.map (· == env.hmac (env.signedText now call)))
    (env.sign_of_accepted now call h)
  rw [Option.map_some, beq_self_eq_true] at hsign
  exact hsign

/-- What can be sorted is accepted: the check after the insert never fails. -/
theorem append_of_accepted (h : env.Accepted now call) (journal : List (JournalRow φ)) :
    (∃ entry, (env.append now call journal).1 = .ok entry) ∧
      (env.append now call journal).2 =
        journal ++ [env.rowOf now call (journal.length + 1)] := by
  unfold append
  dsimp only
  rw [env.sign_of_accepted now call h]
  dsimp only
  split
  next => exact ⟨⟨_, rfl⟩, rfl⟩
  next hfails => exact absurd (env.verify_entryOf now call h (journal.length + 1)) hfails

theorem append_of_not_accepted (h : ¬ env.Accepted now call) (journal : List (JournalRow φ)) :
    env.append now call journal = (.error "TypeError", journal) := by
  unfold append
  dsimp only
  rw [env.sign_of_not_accepted now call h]

theorem rowToJournalEntry_rowOf (journalId : ℕ) :
    rowToJournalEntry (env.rowOf now call journalId) =
      .ok
        { journalId, timestamp := now, eventType := call.eventType
          triggeredBy := call.triggeredBy, scopeKey := fetchedScope call.scopeKey
          previousState := env.restored call.previousState
          requestedState := env.restored call.requestedState
          rationaleHash := env.hashRationale call.rationale
          payloadSignature := env.hmac (env.signedText now call)
          metadata := env.restored call.metadata } := by
  unfold rowToJournalEntry rowOf
  dsimp only
  rw [loads_dumps, loads_dumps, loads_dumps]
  rfl

end Call

/-- The keys of the states are in order, and the scope is not empty. -/
structure Restorable (call : AppendCall φ) : Prop where
  scopeKey : call.scopeKey ≠ ""
  previousState : Doc.Ordered env.keyLe env.keyText (.obj call.previousState)
  requestedState : Doc.Ordered env.keyLe env.keyText (.obj call.requestedState)

/-- The scope a signed document names. -/
theorem scope_of_canon {now : String} {call : AppendCall φ}
    {previousState requestedState : PyDict φ} {scopeKey scopeKey' : String}
    (h : (payloadDoc now call.eventType call.triggeredBy scopeKey previousState requestedState
        (env.hashRationale call.rationale)).canon env.keyLe env.keyText =
      (env.docOf now call scopeKey').canon env.keyLe env.keyText) : scopeKey = scopeKey' := by
  unfold docOf payloadDoc at h
  rw [Doc.canon_obj, Doc.canon_obj, Doc.obj.injEq] at h
  have hmem : ("scope_key", (Doc.str scopeKey : Doc String φ)) ∈ (Doc.sortFields env.keyLe
      ((payload now call.eventType call.triggeredBy scopeKey previousState requestedState
        (env.hashRationale call.rationale)).map fun kd => (JsonKey.str kd.1, kd.2))).map
          fun kd => (env.keyText kd.1, kd.2.canon env.keyLe env.keyText) :=
    List.mem_map.mpr ⟨(.str "scope_key", .str scopeKey),
      Doc.mem_sortFields.mpr (by simp [payload]), rfl⟩
  rw [h] at hmem
  obtain ⟨kd, hkd, heq⟩ := List.mem_map.mp hmem
  have hkd := Doc.mem_sortFields.mp hkd
  obtain ⟨hkey, hvalue⟩ := Prod.mk.inj heq
  simp only [payload, List.map_cons, List.map_nil, List.mem_cons, List.not_mem_nil,
    or_false] at hkd
  rcases hkd with rfl | rfl | rfl | rfl | rfl | rfl | rfl
  case inr.inr.inr.inl => exact (Doc.str.inj hvalue).symm
  all_goals exact absurd hkey (by simp [JsonKey.text])

/-- The text survives the round trip. -/
theorem fetchedText_eq_iff (now : String) (call : AppendCall φ) :
    env.fetchedText now call = env.signedText now call ↔ env.Restorable call := by
  unfold fetchedText signedText
  constructor
  · intro h
    have hcanon := Doc.tokens_injective h
    by_cases hscope : call.scopeKey = ""
    · rw [fetchedScope, if_pos hscope, docOf, ← payloadDoc_restored] at hcanon
      have hglobal := env.scope_of_canon hcanon
      rw [hscope] at hglobal
      exact absurd hglobal (by decide)
    · rw [fetchedScope, if_neg hscope, canon_readBack_iff] at hcanon
      obtain ⟨hprevious, hrequested⟩ := (env.ordered_payloadDoc ..).mp hcanon
      exact ⟨hscope, hprevious, hrequested⟩
  · rintro ⟨hscope, hprevious, hrequested⟩
    refine congrArg (Doc.tokens id) ?_
    rw [fetchedScope, if_neg hscope, canon_readBack_iff]
    exact (env.ordered_payloadDoc ..).mpr ⟨hprevious, hrequested⟩

theorem verifies_rowOf_iff (now : String) (call : AppendCall φ) (journalId : ℕ)
    (hhmac : env.hmac (env.fetchedText now call) = env.hmac (env.signedText now call) →
      env.fetchedText now call = env.signedText now call) :
    env.Verifies (rowToJournalEntry (env.rowOf now call journalId)) ↔ env.Restorable call := by
  have hverify : env.Verifies (rowToJournalEntry (env.rowOf now call journalId)) ↔
      env.hmac (env.fetchedText now call) = env.hmac (env.signedText now call) := by
    rw [rowToJournalEntry_rowOf]
    unfold Verifies verifyJournalSignature signJournalPayload
    simp only [Except.ok.injEq, exists_eq_left', payloadDoc_restored, dumpsSorted_readBack,
      Option.map_some, Option.some.injEq, beq_iff_eq]
    rfl
  rw [hverify, ← fetchedText_eq_iff]
  exact ⟨hhmac, congrArg env.hmac⟩

/-! ## The journal -/

/-- The rows are those of the accepted calls. -/
theorem mem_appendAll (calls : List (String × AppendCall φ)) :
    (∀ row ∈ env.appendAll calls, ∃ c ∈ calls, env.Accepted c.1 c.2 ∧
        ∃ journalId, row = env.rowOf c.1 c.2 journalId) ∧
      ∀ c ∈ calls, env.Accepted c.1 c.2 →
        ∃ journalId, env.rowOf c.1 c.2 journalId ∈ env.appendAll calls := by
  induction calls using List.reverseRecOn with
  | nil => exact ⟨nofun, nofun⟩
  | append_singleton calls c ih =>
    obtain ⟨hrows, hcalls⟩ := ih
    have hstep : env.appendAll (calls ++ [c]) = (env.append c.1 c.2 (env.appendAll calls)).2 :=
      List.foldl_concat ..
    rw [hstep]
    by_cases haccepted : env.Accepted c.1 c.2
    case pos =>
      rw [(env.append_of_accepted c.1 c.2 haccepted _).2]
      constructor
      · intro row hrow
        rcases List.mem_append.mp hrow with hrow | hrow
        · obtain ⟨c', hc', hrow⟩ := hrows row hrow
          exact ⟨c', List.mem_append_left _ hc', hrow⟩
        · exact ⟨c, List.mem_concat_self, haccepted, _, List.mem_singleton.mp hrow⟩
      · intro c' hc' haccepted'
        rcases List.mem_append.mp hc' with hc' | hc'
        · obtain ⟨journalId, hrow⟩ := hcalls c' hc' haccepted'
          exact ⟨journalId, List.mem_append_left _ hrow⟩
        · obtain rfl := List.mem_singleton.mp hc'
          exact ⟨_, List.mem_concat_self⟩
    case neg =>
      rw [env.append_of_not_accepted c.1 c.2 haccepted]
      constructor
      · intro row hrow
        obtain ⟨c', hc', hrow⟩ := hrows row hrow
        exact ⟨c', List.mem_append_left _ hc', hrow⟩
      · intro c' hc' haccepted'
        rcases List.mem_append.mp hc' with hc' | hc'
        · exact hcalls c' hc' haccepted'
        · obtain rfl := List.mem_singleton.mp hc'
          exact absurd haccepted' haccepted

/-- **Every entry verifies when it is fetched** exactly when each accepted call names a
scope and, in every dict of its states, has the texts of the sorted keys in order. -/
theorem roundTrips_appendAll_iff (env : Env φ) (calls : List (String × AppendCall φ))
    (hhmac : ∀ c ∈ calls,
      env.hmac (env.fetchedText c.1 c.2) = env.hmac (env.signedText c.1 c.2) →
        env.fetchedText c.1 c.2 = env.signedText c.1 c.2) :
    env.RoundTrips (env.appendAll calls) ↔
      ∀ c ∈ calls, env.Accepted c.1 c.2 → env.Restorable c.2 := by
  rw [roundTrips_iff]
  obtain ⟨hrows, hcalls⟩ := env.mem_appendAll calls
  constructor
  · intro h c hc haccepted
    obtain ⟨journalId, hrow⟩ := hcalls c hc haccepted
    exact (env.verifies_rowOf_iff c.1 c.2 journalId (hhmac c hc)).mp (h _ hrow)
  · intro h row hrow
    obtain ⟨c, hc, haccepted, journalId, rfl⟩ := hrows row hrow
    exact (env.verifies_rowOf_iff c.1 c.2 journalId (hhmac c hc)).mpr (h c hc haccepted)

end Env

/-! ## A parameter update keyed by numbers -/

def updateHead : List (Token ℚ) :=
  [.lbrace, .str "event_type", .colon, .str "PARAMETER_UPDATE", .comma,
    .str "previous_state", .colon, .lbrace, .rbrace, .comma,
    .str "rationale_hash", .colon,
    .str "71eb4fc726a3976df962b7605cb73afa2b25072a46e5a9c5ebe8c9ebbbbb511a", .comma,
    .str "requested_state", .colon]

def updateTail : List (Token ℚ) :=
  [.comma, .str "scope_key", .colon, .str "GLOBAL", .comma,
    .str "timestamp", .colon, .str "2024-01-02T15:00:00+00:00", .comma,
    .str "triggered_by", .colon, .str "HUMAN_OPERATOR", .rbrace]

/-- The signed text of the updates below, with this text of the requested state. -/
def updateText (requested : List (Token ℚ)) : List (Token ℚ) :=
  updateHead ++ requested ++ updateTail

/-- The digests of three of these texts under the development key. -/
def updateHmac (text : List (Token ℚ)) : String :=
  if text = updateText [.lbrace, .str "2", .colon, .int 1, .comma, .str "10", .colon, .int 2,
      .rbrace] then
    "96763a14cf296c139b4605634d4047411edfa692fa35f2dec7210a373611b043"
  else if text = updateText [.lbrace, .str "10", .colon, .int 2, .comma, .str "2", .colon, .int 1,
      .rbrace] then
    "5ef1f2c9e03f6b12cd1bc14d2868cd3aef6b4f6e360704733c78dbe94e6e5bff"
  else if text = updateText [.lbrace, .str "a", .colon, .int 1, .rbrace] then
    "b1d9092a95fb69a579cc88127d3cb083951a6c16123cc58c563ac7102503d7a7"
  else ""

def updateEnv : Env ℚ where
  floatLe _ _ := false
  floatRepr _ := ""
  hashRationale _ := "71eb4fc726a3976df962b7605cb73afa2b25072a46e5a9c5ebe8c9ebbbbb511a"
  hmac := updateHmac

def updateOf (requestedState : PyDict ℚ) : String × AppendCall ℚ :=
  ("2024-01-02T15:00:00+00:00",
    { eventType := "PARAMETER_UPDATE", triggeredBy := "HUMAN_OPERATOR", previousState := []
      requestedState, rationale := "retune" })

/-- As numbers 2 stands before 10, as texts after it. -/
theorem number_keys_unverified :
    ¬ updateEnv.RoundTrips
      (updateEnv.appendAll [updateOf [(.int 2, .int 1), (.int 10, .int 2)]]) := by
  intro h
  have hverdict : some false ∈
      (updateEnv.appendAll [updateOf [(.int 2, .int 1), (.int 10, .int 2)]]).map fun row =>
        (Env.rowToJournalEntry row).toOption.bind updateEnv.verifyJournalSignature := by
    decide +kernel
  obtain ⟨row, hrow, hfalse⟩ := List.mem_map.mp hverdict
  obtain ⟨entry, hentry, htrue⟩ := updateEnv.roundTrips_iff.mp h row hrow
  rw [hentry] at hfalse
  exact absurd (hfalse.symm.trans htrue) (by decide)

/-- A text key is read back as it was. -/
theorem text_key_verified :
    updateEnv.RoundTrips (updateEnv.appendAll [updateOf [(.str "a", .int 1)]]) := by
  refine (Env.roundTrips_appendAll_iff updateEnv _ ?_).mpr ?_
  · intro c hc _
    obtain rfl := List.mem_singleton.mp hc
    decide +kernel
  · intro c hc _
    obtain rfl := List.mem_singleton.mp hc
    exact ⟨by decide, by decide, by decide⟩

end TradingPlatform.Engine.ChangeJournal
