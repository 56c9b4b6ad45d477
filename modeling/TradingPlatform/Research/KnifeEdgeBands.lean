import TradingPlatform.Lib.Binary64
import TradingPlatform.Lib.Dict
import Mathlib.Data.List.MinMax
import Mathlib.Data.List.Sort
import Mathlib.Algebra.Order.Ring.Rat
import Mathlib.Tactic.Linarith

/-! # Knife-edge bands

A band artifact holds three tables. A look-up rounds its query to a key of the
artifact's own domain, so two artifacts may answer one query under two keys,
while the ratchet compares the tables key by key. -/

namespace TradingPlatform.Research.KnifeEdge

open TradingPlatform.Lib TradingPlatform.Lib.Binary64

/-! ## The artifact -/

def dsrBandFloor : Double := .round (5 / 1000)
def pboBandFloor : Double := .round (1 / 100)
def dsrEstimatorBandFloor : Double := .round (5 / 1000)

abbrev BandTable := Dict String Double

structure DsrBand where
  nTrials : List ℤ
  table : BandTable

structure PboBand where
  nSlices : List ℤ
  nConfigs : List ℤ
  table : BandTable
  conservativeMax : Double

/-- A number of a grid, with the text it has inside a key. -/
structure GridNode where
  value : Double
  text : String
  deriving DecidableEq

structure EstimatorBand where
  seriesKind : List String
  nObs : List ℤ
  zeroFracByKind : Dict String (List GridNode)
  g3 : List GridNode
  g4 : List GridNode
  table : BandTable
  conservativeMax : Double
  floor : Option Double

structure Payload where
  dsrBand : DsrBand
  pboBand : PboBand
  dsrEstimatorBand : Option EstimatorBand

/-! ## The ratchet -/

inductive Family where
  | dsr
  | pbo
  | estimator
  deriving DecidableEq

def Family.table (p : Payload) : Family → BandTable
  | .dsr => p.dsrBand.table
  | .pbo => p.pboBand.table
  | .estimator => p.dsrEstimatorBand.elim .empty EstimatorBand.table

/-- A narrowed key, with the two values its message names. -/
structure Violation where
  fam : Family
  key : String
  old : Double
  new : Double
  deriving DecidableEq

def checkRatchet (old new : Payload) (tol : Double) : List Violation :=
  [Family.dsr, .pbo, .estimator].flatMap fun fam =>
    (fam.table old).items.filterMap fun (key, ov) =>
      ((fam.table new).get? key).bind fun nv =>
        if nv < ov - tol then some ⟨fam, key, ov, nv⟩ else none

theorem mem_families (fam : Family) : fam ∈ [Family.dsr, .pbo, .estimator] := by
  cases fam <;> simp

/-- What an empty list of violations says: of the keys both tables hold, and of no others. -/
theorem checkRatchet_eq_nil {old new : Payload} {tol : Double} :
    checkRatchet old new tol = [] ↔
      ∀ fam : Family, ∀ key ov nv, (fam.table old).get? key = some ov →
        (fam.table new).get? key = some nv → ov - tol ≤ nv := by
  simp only [checkRatchet, List.flatMap_eq_nil_iff, List.filterMap_eq_nil_iff, Prod.forall]
  constructor
  · intro h fam key ov nv hov hnv
    have hk := h fam (mem_families fam) key ov ((Dict.get?_eq_some _).1 hov)
    rw [hnv, Option.bind_some] at hk
    by_contra hlt
    rw [if_pos (not_le.1 hlt)] at hk
    exact absurd hk (by simp)
  · intro h fam _ key ov hmem
    rw [Option.bind_eq_none_iff]
    intro nv hnv
    rw [if_neg (not_lt.2 (h fam key ov nv ((Dict.get?_eq_some _).2 hmem) hnv))]

/-! ## Rounding a query to the domain -/

def bucketUp (value : ℤ) (buckets : List ℤ) : Option ℤ :=
  (buckets.insertionSort (· ≤ ·)).find? (value ≤ ·)

theorem bucketUp_eq_some {value b : ℤ} {buckets : List ℤ} :
    bucketUp value buckets = some b ↔
      b ∈ buckets ∧ value ≤ b ∧ ∀ c ∈ buckets, value ≤ c → b ≤ c := by
  have hsorted := List.pairwise_insertionSort (· ≤ ·) buckets
  have hmem : ∀ c, c ∈ buckets.insertionSort (· ≤ ·) ↔ c ∈ buckets := fun c =>
    List.mem_insertionSort (· ≤ ·)
  unfold bucketUp
  generalize buckets.insertionSort (· ≤ ·) = sorted at hsorted hmem
  simp only [← hmem]
  clear hmem
  induction sorted with
  | nil => simp
  | cons a rest ih =>
    obtain ⟨ha, hrest⟩ := List.pairwise_cons.1 hsorted
    by_cases hv : value ≤ a
    · rw [List.find?_cons_of_pos (by simpa using hv), Option.some.injEq]
      constructor
      · intro h
        subst h
        exact ⟨List.mem_cons_self, hv, fun c hc _ => (List.mem_cons.1 hc).elim (·.ge) (ha c)⟩
      · intro h
        obtain ⟨hb, -, hmin⟩ := h
        refine le_antisymm ?_ (hmin a List.mem_cons_self hv)
        exact (List.mem_cons.1 hb).elim (·.ge) (ha b)
    · rw [List.find?_cons_of_neg (by simpa using hv)]
      refine (ih hrest).trans ?_
      constructor
      · intro h
        obtain ⟨hb, hvb, hmin⟩ := h
        refine ⟨List.mem_cons_of_mem _ hb, hvb, fun c hc hvc => ?_⟩
        rcases List.mem_cons.1 hc with rfl | hc'
        · exact absurd hvc hv
        · exact hmin c hc' hvc
      · intro h
        obtain ⟨hb, hvb, hmin⟩ := h
        refine ⟨?_, hvb, fun c hc => hmin c (List.mem_cons_of_mem _ hc)⟩
        rcases List.mem_cons.1 hb with rfl | hb'
        · exact absurd hvb hv
        · exact hb'

/-- The first bucket above a value. -/
def NextAbove (buckets : List ℤ) (value b : ℤ) : Prop :=
  b ∈ buckets ∧ value < b ∧ ∀ c ∈ buckets, value < c → b ≤ c

/-- Two domains with one bucket in common; or `b'` was added below `b`, or `b` dropped
below `b'`, with no other bucket of the domain that lacks it in between. -/
def BucketsMeet (buckets buckets' : List ℤ) (b b' : ℤ) : Prop :=
  (b = b' ∧ b ∈ buckets ∧ b ∈ buckets') ∨
    (b' ∈ buckets' ∧ b' ∉ buckets ∧ NextAbove buckets b' b) ∨
    (b ∈ buckets ∧ b ∉ buckets' ∧ NextAbove buckets' b b')

theorem bucketUp_of_mem {b : ℤ} {buckets : List ℤ} (h : b ∈ buckets) :
    bucketUp b buckets = some b :=
  bucketUp_eq_some.2 ⟨h, le_rfl, fun _ _ => id⟩

theorem bucketUp_of_notMem {v b : ℤ} {buckets : List ℤ} (hv : v ∉ buckets) :
    bucketUp v buckets = some b ↔ NextAbove buckets v b := by
  have hlt : ∀ c ∈ buckets, (v ≤ c ↔ v < c) := fun c hc =>
    ⟨fun hle => hle.lt_of_ne fun heq => hv (heq ▸ hc), le_of_lt⟩
  rw [bucketUp_eq_some, NextAbove]
  constructor
  · intro h
    obtain ⟨hb, hle, hmin⟩ := h
    exact ⟨hb, (hlt b hb).1 hle, fun c hc hvc => hmin c hc hvc.le⟩
  · intro h
    obtain ⟨hb, hvb, hmin⟩ := h
    exact ⟨hb, hvb.le, fun c hc hle => hmin c hc ((hlt c hc).1 hle)⟩

/-- Every value up to a bucket that the value below rounds to rounds to it too. -/
theorem bucketUp_between {v w b : ℤ} {buckets : List ℤ} (h : bucketUp v buckets = some b)
    (hvw : v ≤ w) (hwb : w ≤ b) : bucketUp w buckets = some b := by
  obtain ⟨hb, -, hmin⟩ := bucketUp_eq_some.1 h
  exact bucketUp_eq_some.2 ⟨hb, hwb, fun c hc hwc => hmin c hc (hvw.trans hwc)⟩

/-- Buckets meet exactly where some query is rounded to both. -/
theorem bucketsMeet_iff {buckets buckets' : List ℤ} {b b' : ℤ} :
    BucketsMeet buckets buckets' b b' ↔
      ∃ v, bucketUp v buckets = some b ∧ bucketUp v buckets' = some b' := by
  constructor
  · rintro (⟨rfl, hb, hb'⟩ | ⟨hb', hadded, hnext⟩ | ⟨hb, hdropped, hnext⟩)
    · exact ⟨b, bucketUp_of_mem hb, bucketUp_of_mem hb'⟩
    · exact ⟨b', (bucketUp_of_notMem hadded).2 hnext, bucketUp_of_mem hb'⟩
    · exact ⟨b, bucketUp_of_mem hb, (bucketUp_of_notMem hdropped).2 hnext⟩
  · rintro ⟨v, h, h'⟩
    obtain ⟨hb, hvb, -⟩ := bucketUp_eq_some.1 h
    obtain ⟨hb', hvb', -⟩ := bucketUp_eq_some.1 h'
    -- the lower of the two buckets is rounded as the query is
    rcases le_total b b' with hle | hle
    · have hlower := bucketUp_between h' hvb hle
      by_cases hkept : b ∈ buckets'
      · obtain rfl := Option.some.inj ((bucketUp_of_mem hkept).symm.trans hlower)
        exact .inl ⟨rfl, hb, hkept⟩
      · exact .inr (.inr ⟨hb, hkept, (bucketUp_of_notMem hkept).1 hlower⟩)
    · have hlower := bucketUp_between h hvb' hle
      by_cases hkept : b' ∈ buckets
      · obtain rfl := Option.some.inj ((bucketUp_of_mem hkept).symm.trans hlower)
        exact .inl ⟨rfl, hkept, hb'⟩
      · exact .inr (.inl ⟨hb', hkept, (bucketUp_of_notMem hkept).1 hlower⟩)

/-- The first of the nearest nodes; an empty grid has none. -/
def nearestGrid (value : Double) (grid : List GridNode) : Option GridNode :=
  grid.argmin fun g => |(g.value - value).val|

/-! ## The look-ups -/

inductive BandError where
  | domain (message : String)
  | keyError (key : String)
  | emptySequence
  deriving DecidableEq

inductive BandSource where
  | measured
  | floorFallback
  | conservativeMax
  deriving DecidableEq

structure Band where
  band : Double
  bandSource : BandSource
  key : Option String
  deriving DecidableEq

/-- `max(domain)` inside the message of a query above a domain. -/
def aboveDomain (name fam : String) (value : ℤ) (buckets : List ℤ) : BandError :=
  match buckets.max? with
  | none => .emptySequence
  | some top => .domain (name ++ "=" ++ toString value ++ " exceeds " ++ fam ++ " domain max " ++
      toString top ++ "; regenerate.")

def dsrBandFor (nTrials : ℤ) : Option Payload → Except BandError Band
  | none => .ok ⟨dsrBandFloor, .floorFallback, none⟩
  | some payload =>
    let d := payload.dsrBand
    match bucketUp nTrials d.nTrials with
    | none => .error (aboveDomain "n_trials" "dsr_band" nTrials d.nTrials)
    | some nt =>
      match d.table.get? (toString nt) with
      | none => .error (.keyError (toString nt))
      | some v => .ok ⟨max v dsrBandFloor, .measured, none⟩

def pboKey (ns nc : ℤ) : String := toString ns ++ "," ++ toString nc

def pboBandFor (nSlices nConfigs : ℤ) : Option Payload → Except BandError Band
  | none => .ok ⟨pboBandFloor, .floorFallback, none⟩
  | some payload =>
    let d := payload.pboBand
    match bucketUp nSlices d.nSlices, bucketUp nConfigs d.nConfigs with
    | some ns, some nc =>
      .ok ⟨max ((d.table.get? (pboKey ns nc)).getD d.conservativeMax) pboBandFloor, .measured, none⟩
    | _, _ => .error (.domain ("(n_slices=" ++ toString nSlices ++ ", n_configs=" ++
        toString nConfigs ++ ") exceeds pbo_band domain; regenerate."))

def estimatorKey (kind : String) (no : ℤ) (zf g3 g4 : GridNode) : String :=
  kind ++ "," ++ toString no ++ "," ++ zf.text ++ "," ++ g3.text ++ "," ++ g4.text

/-- The series kind a table is read under. -/
def EstimatorBand.kindFor (d : EstimatorBand) (seriesKind : String) : String :=
  if seriesKind ∈ d.seriesKind then seriesKind else "per_event"

def EstimatorBand.zeroFracGrid (d : EstimatorBand) (kind : String) : List GridNode :=
  (d.zeroFracByKind.get? kind).getD [⟨0, "0.0"⟩]

def dsrEstimatorBandFor (seriesKind : String) (nObs : ℤ) (zeroFrac g3 g4 : Double) :
    Option Payload → Except BandError Band
  | none => .ok ⟨dsrEstimatorBandFloor, .floorFallback, none⟩
  | some payload =>
    match payload.dsrEstimatorBand with
    | none => .ok ⟨dsrEstimatorBandFloor, .floorFallback, none⟩
    | some d =>
      let kind := d.kindFor seriesKind
      match bucketUp nObs d.nObs with
      | none => .error (aboveDomain "n_obs" "dsr_estimator_band" nObs d.nObs)
      | some no =>
        match nearestGrid zeroFrac (d.zeroFracGrid kind), nearestGrid g3 d.g3,
          nearestGrid g4 d.g4 with
        | some zf, some gg3, some gg4 =>
          let key := estimatorKey kind no zf gg3 gg4
          let band := (d.table.get? key).getD d.conservativeMax
          .ok ⟨max band (d.floor.getD dsrEstimatorBandFloor),
            if (d.table.get? key).isSome then .measured else .conservativeMax, some key⟩
        | _, _, _ => .error .emptySequence

/-- A query of any family. -/
inductive Query where
  | dsr (nTrials : ℤ)
  | pbo (nSlices nConfigs : ℤ)
  | estimator (seriesKind : String) (nObs : ℤ) (zeroFrac g3 g4 : Double)

def Query.bandFor : Query → Option Payload → Except BandError Band
  | .dsr n => dsrBandFor n
  | .pbo ns nc => pboBandFor ns nc
  | .estimator kind no zf g3 g4 => dsrEstimatorBandFor kind no zf g3 g4

/-! ## What answers a query -/

/-- The key a query is rounded to; a query above the domain has none. -/
def Query.key : Query → Payload → Option String
  | .dsr n, p => (bucketUp n p.dsrBand.nTrials).map toString
  | .pbo ns nc, p =>
    (bucketUp ns p.pboBand.nSlices).bind fun a => (bucketUp nc p.pboBand.nConfigs).map (pboKey a)
  | .estimator kind no zf g3 g4, p =>
    p.dsrEstimatorBand.bind fun d => (bucketUp no d.nObs).bind fun b =>
      (nearestGrid zf (d.zeroFracGrid (d.kindFor kind))).bind fun z =>
        (nearestGrid g3 d.g3).bind fun a =>
          (nearestGrid g4 d.g4).map (estimatorKey (d.kindFor kind) b z a)

def Query.family : Query → Family
  | .dsr _ => .dsr
  | .pbo _ _ => .pbo
  | .estimator _ _ _ _ _ => .estimator

/-- The floor under the bands of a family. -/
def Family.floor (p : Payload) : Family → Double
  | .dsr => dsrBandFloor
  | .pbo => pboBandFloor
  | .estimator => (p.dsrEstimatorBand.bind EstimatorBand.floor).getD dsrEstimatorBandFloor

/-- The number of the artifact that answers a key: the table's entry, the conservative
maximum where the family has one, and the floor where the whole family is missing. -/
def Family.entry (p : Payload) (key : Option String) : Family → Option Double
  | .dsr => key.bind p.dsrBand.table.get?
  | .pbo => key.map fun k => (p.pboBand.table.get? k).getD p.pboBand.conservativeMax
  | .estimator =>
    p.dsrEstimatorBand.elim (some dsrEstimatorBandFloor) fun d =>
      key.map fun k => (d.table.get? k).getD d.conservativeMax

def Query.entry (q : Query) (p : Payload) : Option Double := q.family.entry p (q.key p)

def Query.floor (q : Query) (p : Payload) : Double := q.family.floor p

/-- A look-up succeeds exactly where an entry answers it, with that entry over the floor. -/
theorem Query.band_eq (q : Query) (p : Payload) :
    (q.bandFor (some p)).toOption.map Band.band = (q.entry p).map fun e => max e (q.floor p) := by
  cases q with
  | dsr n =>
    simp only [Query.bandFor, dsrBandFor, Query.entry, Query.family, Family.entry, Query.key,
      Query.floor, Family.floor]
    cases bucketUp n p.dsrBand.nTrials with
    | none => rfl
    | some nt =>
      simp only [Option.map_some, Option.bind_some]
      cases p.dsrBand.table.get? (toString nt) <;> rfl
  | pbo ns nc =>
    simp only [Query.bandFor, pboBandFor, Query.entry, Query.family, Family.entry, Query.key,
      Query.floor, Family.floor]
    cases bucketUp ns p.pboBand.nSlices with
    | none => rfl
    | some a => cases bucketUp nc p.pboBand.nConfigs <;> rfl
  | estimator kind no zf g3 g4 =>
    simp only [Query.bandFor, dsrEstimatorBandFor, Query.entry, Query.family, Family.entry,
      Query.key, Query.floor, Family.floor]
    cases p.dsrEstimatorBand with
    | none => simp [Except.toOption]
    | some d =>
      simp only [Option.bind_some, Option.elim_some]
      cases bucketUp no d.nObs with
      | none => rfl
      | some b =>
        cases nearestGrid zf (d.zeroFracGrid (d.kindFor kind)) with
        | none => rfl
        | some z =>
          cases nearestGrid g3 d.g3 with
          | none => rfl
          | some a => cases nearestGrid g4 d.g4 <;> rfl

/-! ## Cells that meet -/

/-- Two kinds listed by both; or one was added or dropped, and the other is what stands
in for a kind that is not listed. -/
def KindsMeet (kinds kinds' : List String) (κ κ' : String) : Prop :=
  (κ = κ' ∧ (κ ∈ kinds ∧ κ ∈ kinds' ∨ κ = "per_event")) ∨
    (κ' ∈ kinds' ∧ κ' ∉ kinds ∧ κ = "per_event") ∨
    (κ ∈ kinds ∧ κ ∉ kinds' ∧ κ' = "per_event")

/-- Some value is nearest to both nodes. -/
def NodesMeet (grid grid' : List GridNode) (g g' : GridNode) : Prop :=
  ∃ v, nearestGrid v grid = some g ∧ nearestGrid v grid' = some g'

/-- A cell of each artifact whose buckets, kinds and nodes meet. -/
inductive KeysMeet (old new : Payload) : Family → String → String → Prop
  | dsr {b b' : ℤ} (hb : BucketsMeet old.dsrBand.nTrials new.dsrBand.nTrials b b') :
    KeysMeet old new .dsr (toString b) (toString b')
  | pbo {s s' c c' : ℤ} (hs : BucketsMeet old.pboBand.nSlices new.pboBand.nSlices s s')
    (hc : BucketsMeet old.pboBand.nConfigs new.pboBand.nConfigs c c') :
    KeysMeet old new .pbo (pboKey s c) (pboKey s' c')
  | estimator {d d' : EstimatorBand} (hd : old.dsrEstimatorBand = some d)
    (hd' : new.dsrEstimatorBand = some d') {κ κ' : String} {b b' : ℤ} {z z' a a' g g' : GridNode}
    (hkind : KindsMeet d.seriesKind d'.seriesKind κ κ') (hobs : BucketsMeet d.nObs d'.nObs b b')
    (hz : NodesMeet (d.zeroFracGrid κ) (d'.zeroFracGrid κ') z z')
    (ha : NodesMeet d.g3 d'.g3 a a') (hg : NodesMeet d.g4 d'.g4 g g') :
    KeysMeet old new .estimator (estimatorKey κ b z a g) (estimatorKey κ' b' z' a' g')

theorem kindsMeet_iff {d d' : EstimatorBand} {κ κ' : String} :
    KindsMeet d.seriesKind d'.seriesKind κ κ' ↔ ∃ k, d.kindFor k = κ ∧ d'.kindFor k = κ' := by
  unfold KindsMeet EstimatorBand.kindFor
  constructor
  · rintro (⟨rfl, ⟨hold, hnew⟩ | rfl⟩ | ⟨hnew, hadded, rfl⟩ | ⟨hold, hdropped, rfl⟩)
    · exact ⟨κ, if_pos hold, if_pos hnew⟩
    · exact ⟨"per_event", ite_self _, ite_self _⟩
    · exact ⟨κ', if_neg hadded, if_pos hnew⟩
    · exact ⟨κ, if_pos hold, if_neg hdropped⟩
  · rintro ⟨k, rfl, rfl⟩
    by_cases hold : k ∈ d.seriesKind <;> by_cases hnew : k ∈ d'.seriesKind <;>
      simp [hold, hnew]

/-- Cells meet exactly where some query is rounded to both. -/
theorem keysMeet_iff {old new : Payload} {fam : Family} {key key' : String} :
    KeysMeet old new fam key key' ↔
      ∃ q : Query, q.family = fam ∧ q.key old = some key ∧ q.key new = some key' := by
  constructor
  · rintro (hb | ⟨hs, hc⟩ | ⟨hd, hd', hkind, hobs, ⟨zf, hz, hz'⟩, ⟨g3, ha, ha'⟩, ⟨g4, hg, hg'⟩⟩)
    · obtain ⟨n, hn, hn'⟩ := bucketsMeet_iff.1 hb
      exact ⟨.dsr n, rfl, by rw [Query.key, hn, Option.map_some],
        by rw [Query.key, hn', Option.map_some]⟩
    · obtain ⟨ns, hns, hns'⟩ := bucketsMeet_iff.1 hs
      obtain ⟨nc, hnc, hnc'⟩ := bucketsMeet_iff.1 hc
      exact ⟨.pbo ns nc, rfl, by simp [Query.key, hns, hnc], by simp [Query.key, hns', hnc']⟩
    · obtain ⟨k, rfl, rfl⟩ := kindsMeet_iff.1 hkind
      obtain ⟨no, hno, hno'⟩ := bucketsMeet_iff.1 hobs
      exact ⟨.estimator k no zf g3 g4, rfl, by simp [Query.key, hd, hno, hz, ha, hg],
        by simp [Query.key, hd', hno', hz', ha', hg']⟩
  · rintro ⟨q, rfl, hold, hnew⟩
    cases q with
    | dsr n =>
      obtain ⟨b, hb, rfl⟩ := Option.map_eq_some_iff.1 hold
      obtain ⟨b', hb', rfl⟩ := Option.map_eq_some_iff.1 hnew
      exact .dsr (bucketsMeet_iff.2 ⟨n, hb, hb'⟩)
    | pbo ns nc =>
      simp only [Query.key, Option.bind_eq_some_iff, Option.map_eq_some_iff] at hold hnew
      obtain ⟨s, hs, c, hc, rfl⟩ := hold
      obtain ⟨s', hs', c', hc', rfl⟩ := hnew
      exact .pbo (bucketsMeet_iff.2 ⟨ns, hs, hs'⟩) (bucketsMeet_iff.2 ⟨nc, hc, hc'⟩)
    | estimator kind no zf g3 g4 =>
      simp only [Query.key, Option.bind_eq_some_iff, Option.map_eq_some_iff] at hold hnew
      obtain ⟨d, hd, b, hb, z, hz, a, ha, g, hg, rfl⟩ := hold
      obtain ⟨d', hd', b', hb', z', hz', a', ha', g', hg', rfl⟩ := hnew
      exact .estimator hd hd' (kindsMeet_iff.2 ⟨kind, rfl, rfl⟩) (bucketsMeet_iff.2 ⟨no, hb, hb'⟩)
        ⟨zf, hz, hz'⟩ ⟨g3, ha, ha'⟩ ⟨g4, hg, hg'⟩

/-! ## The ratchet over whole artifacts -/

theorem Query.band_iff {q : Query} {p : Payload} {b : Double} :
    (∃ r, q.bandFor (some p) = .ok r ∧ r.band = b) ↔
      ∃ e, q.entry p = some e ∧ max e (q.floor p) = b := by
  have h := q.band_eq p
  constructor
  · intro hr
    obtain ⟨r, hr, hb⟩ := hr
    rw [hr, Except.toOption, Option.map_some, hb] at h
    exact Option.map_eq_some_iff.1 h.symm
  · intro he
    obtain ⟨e, he, hb⟩ := he
    rw [he, Option.map_some, hb] at h
    cases hr : q.bandFor (some p) with
    | error err => simp [hr, Except.toOption] at h
    | ok r =>
      rw [hr, Except.toOption, Option.map_some] at h
      exact ⟨r, rfl, Option.some.inj h⟩

/-- Under equal floors only the entries matter. -/
theorem max_sub_le_iff {e e' f tol : Double} (htol : 0 ≤ tol) :
    max e f - tol ≤ max e' f ↔ e - tol ≤ max e' f := by
  constructor
  · intro h
    exact (Double.sub_mono (le_max_left e f) tol).trans h
  · intro h
    rcases le_total e f with hle | hle
    · rw [max_eq_right hle]
      exact (f.sub_le_of_nonneg htol).trans (le_max_right e' f)
    · rwa [max_eq_left hle]

/-- The bands of `new` are at least those of `old`, up to the tolerance. -/
def Widens (old new : Payload) (tol : Double) : Prop :=
  ∀ (q : Query) (b b' : Band), q.bandFor (some old) = .ok b → q.bandFor (some new) = .ok b' →
    b.band - tol ≤ b'.band

/-- What a table holds under a key, or the conservative maximum where its family has one. -/
def Family.cell (p : Payload) (key : String) : Family → Option Double
  | .dsr => p.dsrBand.table.get? key
  | .pbo => some ((p.pboBand.table.get? key).getD p.pboBand.conservativeMax)
  | .estimator => p.dsrEstimatorBand.map fun d => (d.table.get? key).getD d.conservativeMax

/-- One key that both tables hold: what the ratchet compares. -/
def Family.Kept (old new : Payload) (key key' : String) (fam : Family) : Prop :=
  key = key' ∧ ((fam.table old).get? key).isSome ∧ ((fam.table new).get? key).isSome

/-- Of two cells that meet and the ratchet does not compare, the new one (or the floor) is
at least the old one, up to the tolerance; and no cell of a dropped estimator family
was above the floor. -/
def CellsCovered (old new : Payload) (tol : Double) : Prop :=
  (∀ fam : Family, ∀ key key', KeysMeet old new fam key key' → ¬ fam.Kept old new key key' →
    ∀ ov nv, fam.cell old key = some ov → fam.cell new key' = some nv →
      ov - tol ≤ max nv (fam.floor new)) ∧
  (new.dsrEstimatorBand = none → ∀ key, KeysMeet old old .estimator key key →
    ∀ ov, Family.estimator.cell old key = some ov → ov - tol ≤ dsrEstimatorBandFloor)

theorem Family.Kept.le {old new : Payload} {tol : Double} {fam : Family} {key key' : String} {ov nv : Double}
    (h : fam.Kept old new key key') (hratchet : checkRatchet old new tol = [])
    (hov : fam.cell old key = some ov) (hnv : fam.cell new key' = some nv) : ov - tol ≤ nv := by
  obtain ⟨rfl, hold, hnew⟩ := h
  obtain ⟨v, hv⟩ := Option.isSome_iff_exists.1 hold
  obtain ⟨v', hv'⟩ := Option.isSome_iff_exists.1 hnew
  have hcell : ∀ (p : Payload) (v : Double), (fam.table p).get? key = some v →
      fam.cell p key = some v := by
    intro p v hv
    cases fam with
    | dsr => exact hv
    | pbo => exact congrArg (fun o => some (Option.getD o _)) hv
    | estimator =>
      cases hd : p.dsrEstimatorBand with
      | none => simp [Family.table, hd] at hv
      | some d =>
        have hk : d.table.get? key = some v := by simpa [Family.table, hd] using hv
        simp [Family.cell, hd, hk]
  rw [hcell old v hv] at hov
  rw [hcell new v' hv'] at hnv
  obtain rfl := Option.some.inj hov
  obtain rfl := Option.some.inj hnv
  exact checkRatchet_eq_nil.1 hratchet fam key v v' hv hv'

/-- An artifact answers a query from the cell it is rounded to, or from the floor of a
family it lacks. -/
theorem Query.entry_eq_some {q : Query} {p : Payload} {e : Double} :
    q.entry p = some e ↔ (∃ key, q.key p = some key ∧ q.family.cell p key = some e) ∨
      (q.family = .estimator ∧ p.dsrEstimatorBand = none ∧ e = dsrEstimatorBandFloor) := by
  cases q with
  | dsr n => simp [Query.entry, Query.family, Family.entry, Family.cell, Option.bind_eq_some_iff]
  | pbo ns nc => simp [Query.entry, Query.family, Family.entry, Family.cell]
  | estimator kind no zf g3 g4 =>
    cases hd : p.dsrEstimatorBand with
    | none => simp [Query.entry, Query.family, Family.entry, Family.cell, hd, eq_comm]
    | some d => simp [Query.entry, Query.family, Family.entry, Family.cell, hd]

theorem widens_iff_entries {old new : Payload} {tol : Double} (htol : 0 ≤ tol)
    (hfloor : Family.estimator.floor old = Family.estimator.floor new) :
    Widens old new tol ↔ ∀ (q : Query) (e e' : Double), q.entry old = some e → q.entry new = some e' →
      e - tol ≤ max e' (q.floor new) := by
  have hfloors : ∀ q : Query, q.floor old = q.floor new := by
    intro q
    cases q with
    | dsr _ | pbo _ _ => rfl
    | estimator _ _ _ _ _ => exact hfloor
  constructor
  · intro h q e e' he he'
    obtain ⟨r, hr, hb⟩ := Query.band_iff.2 ⟨e, he, rfl⟩
    obtain ⟨r', hr', hb'⟩ := Query.band_iff.2 ⟨e', he', rfl⟩
    have hle := h q r r' hr hr'
    rw [hb, hb', hfloors q] at hle
    exact (max_sub_le_iff htol).1 hle
  · intro h q b b' hb hb'
    obtain ⟨e, he, heb⟩ := Query.band_iff.1 ⟨b, hb, rfl⟩
    obtain ⟨e', he', heb'⟩ := Query.band_iff.1 ⟨b', hb', rfl⟩
    rw [← heb, ← heb', hfloors q, max_sub_le_iff htol]
    exact h q e e' he he'

/-- Past the ratchet the look-ups widen exactly when the cells it does not compare are
covered: those that meet because a bucket, a kind, a node or a key was added or dropped. -/
theorem ratchet_widens_iff {old new : Payload} {tol : Double} (htol : 0 ≤ tol)
    (hfloor : Family.estimator.floor old = Family.estimator.floor new)
    (hratchet : checkRatchet old new tol = []) :
    Widens old new tol ↔ CellsCovered old new tol := by
  rw [widens_iff_entries htol hfloor]
  constructor
  · intro h
    constructor
    · intro fam key key' hmeet _ ov nv hov hnv
      obtain ⟨q, rfl, hkey, hkey'⟩ := keysMeet_iff.1 hmeet
      exact h q ov nv (Query.entry_eq_some.2 (.inl ⟨key, hkey, hov⟩))
        (Query.entry_eq_some.2 (.inl ⟨key', hkey', hnv⟩))
    · intro hmissing key hmeet ov hov
      obtain ⟨q, hq, hkey, -⟩ := keysMeet_iff.1 hmeet
      have hle := h q ov dsrEstimatorBandFloor
        (Query.entry_eq_some.2 (.inl ⟨key, hkey, by rw [hq]; exact hov⟩))
        (Query.entry_eq_some.2 (.inr ⟨hq, hmissing, rfl⟩))
      rw [Query.floor, hq, Family.floor, hmissing] at hle
      exact hle.trans (max_self _).le
  · intro hcovered q e e' he he'
    obtain ⟨hcells, hdropped⟩ := hcovered
    rcases Query.entry_eq_some.1 he with ⟨key, hkey, hov⟩ | ⟨hq, hmissing, rfl⟩
    · rcases Query.entry_eq_some.1 he' with ⟨key', hkey', hnv⟩ | ⟨hq, hmissing, rfl⟩
      · by_cases hkept : q.family.Kept old new key key'
        · exact (hkept.le hratchet hov hnv).trans (le_max_left _ _)
        · exact hcells q.family key key' (keysMeet_iff.2 ⟨q, rfl, hkey, hkey'⟩) hkept e e' hov hnv
      · rw [hq] at hov
        exact (hdropped hmissing key (keysMeet_iff.2 ⟨q, hq, hkey, hkey⟩) e hov).trans
          (le_max_left _ _)
    · -- the family was missing: its floor has been the band, and the floors are equal
      have hold : Family.estimator.floor new = dsrEstimatorBandFloor := by
        rw [← hfloor, Family.floor, hmissing]
        rfl
      rw [Query.floor, hq, hold]
      exact (Double.sub_le_of_nonneg _ htol).trans (le_max_right _ _)

/-! ## A bucket added between two others -/

/-- Non-empty domains, and a table entry for every key of the DSR and PBO domains. -/
def Payload.WellFormed (p : Payload) : Prop :=
  p.dsrBand.nTrials ≠ [] ∧
  (∀ n ∈ p.dsrBand.nTrials, (p.dsrBand.table.get? (toString n)).isSome) ∧
  p.pboBand.nSlices ≠ [] ∧ p.pboBand.nConfigs ≠ [] ∧
  (∀ ns ∈ p.pboBand.nSlices, ∀ nc ∈ p.pboBand.nConfigs,
    (p.pboBand.table.get? (pboKey ns nc)).isSome) ∧
  ∀ d ∈ p.dsrEstimatorBand, d.seriesKind ≠ [] ∧ d.nObs ≠ [] ∧ d.g3 ≠ [] ∧ d.g4 ≠ []

/-- An artifact with the given DSR band and one entry in each other table. -/
def bandsWith (dsrBand : DsrBand) : Payload where
  dsrBand := dsrBand
  pboBand := ⟨[6], [12], Dict.empty.set "6,12" (.round (3 / 100)), .round (3 / 100)⟩
  dsrEstimatorBand := some {
    seriesKind := ["per_event"]
    nObs := [50]
    zeroFracByKind := Dict.empty.set "per_event" [⟨0, "0.0"⟩]
    g3 := [⟨0, "0.0"⟩]
    g4 := [⟨.round 3, "3.0"⟩]
    table := Dict.empty.set "per_event,50,0.0,0.0,3.0" (.round (2 / 100))
    conservativeMax := .round (2 / 100)
    floor := some dsrEstimatorBandFloor }

def twoBuckets : DsrBand :=
  ⟨[10, 100], (Dict.empty.set "10" (.round (1 / 100))).set "100" (.round (5 / 100))⟩

def threeBuckets : DsrBand :=
  ⟨[10, 50, 100], ((Dict.empty.set "10" (.round (1 / 100))).set "50" (.round (6 / 1000))).set "100"
    (.round (5 / 100))⟩

/-- The bucket of ten dropped, and one of fifty added with a wide band. -/
def movedBucket : DsrBand :=
  ⟨[50, 100], (Dict.empty.set "50" (.round (6 / 100))).set "100" (.round (5 / 100))⟩

def ratchetTol : Double := .round (1 / 1000000000)

/-- Twenty trials were answered by the bucket of a hundred; the new bucket of fifty narrows
them, and the ratchet is silent. -/
theorem added_bucket_narrows :
    (bandsWith twoBuckets).WellFormed ∧ (bandsWith threeBuckets).WellFormed ∧
      Family.estimator.floor (bandsWith twoBuckets) =
        Family.estimator.floor (bandsWith threeBuckets) ∧
      checkRatchet (bandsWith twoBuckets) (bandsWith threeBuckets) ratchetTol = [] ∧
      ¬ Widens (bandsWith twoBuckets) (bandsWith threeBuckets) ratchetTol := by
  refine ⟨?_, ?_, rfl, ?_, ?_⟩
  · unfold Payload.WellFormed
    decide +kernel
  · unfold Payload.WellFormed
    decide +kernel
  · decide +kernel
  · intro h
    have hold : (Query.dsr 20).bandFor (some (bandsWith twoBuckets)) =
        .ok ⟨.round (5 / 100), .measured, none⟩ := by decide +kernel
    have hnew : (Query.dsr 20).bandFor (some (bandsWith threeBuckets)) =
        .ok ⟨.round (6 / 1000), .measured, none⟩ := by decide +kernel
    exact absurd (h _ _ _ hold hnew) (by decide +kernel)

theorem BucketsMeet.mem {buckets buckets' : List ℤ} {b b' : ℤ}
    (h : BucketsMeet buckets buckets' b b') : b ∈ buckets ∧ b' ∈ buckets' := by
  obtain ⟨v, hv, hv'⟩ := bucketsMeet_iff.1 h
  exact ⟨(bucketUp_eq_some.1 hv).1, (bucketUp_eq_some.1 hv').1⟩

/-- Ten trials move up to the bucket of fifty, and twenty down to it; both widen. -/
theorem moved_bucket_widens : Widens (bandsWith twoBuckets) (bandsWith movedBucket) ratchetTol := by
  have htol : 0 ≤ ratchetTol := by decide +kernel
  have hratchet : checkRatchet (bandsWith twoBuckets) (bandsWith movedBucket) ratchetTol = [] := by
    decide +kernel
  have hfloor : Family.estimator.floor (bandsWith twoBuckets) =
      Family.estimator.floor (bandsWith movedBucket) := rfl
  refine (ratchet_widens_iff htol hfloor hratchet).2 ⟨?_, nofun⟩
  intro fam key key' hmeet _ ov nv hov hnv
  -- the other tables are the same, each with one value for all its cells
  have hsame : ∀ fam : Family, fam ≠ .dsr → ∃ v, ∀ d key, fam.cell (bandsWith d) key = some v := by
    intro fam hfam
    cases fam with
    | dsr => exact absurd rfl hfam
    | pbo =>
      refine ⟨.round (3 / 100), fun d key => ?_⟩
      simp only [Family.cell, bandsWith, Dict.get?_set]
      split <;> rfl
    | estimator =>
      refine ⟨.round (2 / 100), fun d key => ?_⟩
      simp only [Family.cell, bandsWith, Dict.get?_set, Option.map_some]
      split <;> rfl
  have hequal : fam ≠ .dsr → ov = nv := by
    intro hfam
    obtain ⟨v, hv⟩ := hsame fam hfam
    rw [hv] at hov hnv
    exact Option.some.inj (hov.symm.trans hnv)
  suffices hle : ov ≤ nv from (ov.sub_le_of_nonneg htol).trans (hle.trans (le_max_left nv _))
  cases hmeet with
  | dsr hb =>
    obtain ⟨hmem, hmem'⟩ := hb.mem
    have hold : ∀ b ∈ twoBuckets.nTrials,
        ((twoBuckets.table.get? (toString b)).all (· ≤ .round (5 / 100))) = true := by
      decide +kernel
    have hnew : ∀ b ∈ movedBucket.nTrials,
        ((movedBucket.table.get? (toString b)).all (.round (5 / 100) ≤ ·)) = true := by
      decide +kernel
    have hle := hold _ hmem
    have hge := hnew _ hmem'
    rw [show twoBuckets.table.get? _ = some ov from hov] at hle
    rw [show movedBucket.table.get? _ = some nv from hnv] at hge
    exact (of_decide_eq_true hle).trans (of_decide_eq_true hge)
  | pbo _ _ | estimator _ _ _ _ _ _ _ =>
    exact (hequal (by decide)).le

end TradingPlatform.Research.KnifeEdge
