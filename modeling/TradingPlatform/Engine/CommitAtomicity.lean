import TradingPlatform.Engine.ParameterCommit

/-! # All or nothing

The handler covers the two replacements only. What raises after them leaves the
new files in place, and what the handler writes back is text that was read. -/

namespace TradingPlatform.Engine.ParameterCommit

open TradingPlatform.Lib

variable (env : Env) (faults : Step → Bool) (req : Request) (committedAt : String)

/-- A call that raises leaves the three files as they were; one that changes the target adds one
row to the log, with the parameters before and after. -/
structure AllOrNothing (files : Files) : Prop where
  unchanged : (commitValidatedStrategyParameters env faults req committedAt files).1 = none →
    (commitValidatedStrategyParameters env faults req committedAt files).2 = files
  audited :
    (commitValidatedStrategyParameters env faults req committedAt files).2.target ≠ files.target →
      ∃ p rows row, prepare env faults req files = some p ∧
        rewriteRows files.changeLog = some rows ∧ changeLogRow env req committedAt p = some row ∧
        (commitValidatedStrategyParameters env faults req committedAt files).2.changeLog =
          some (fieldnames :: (rows ++ [row]))

/-- Nothing is lost by reading the files as text. -/
def ReadsBack (files : Files) : Prop :=
  files.target.map readText = files.target ∧
    (req.allowSchemaUpdate = true → files.research.map readText = files.research)

/-- Where a replacement raises, the contents to be written back read as they are; where the log
cannot be written, the replacements have changed nothing; and where it is written, the system
event is too. -/
structure Covered (files : Files) (p : Prepared) : Prop where
  replaces : replaceFiles env faults p files = none → ReadsBack req files
  logs : ∀ written, replaceFiles env faults p files = some written →
    writeChangeLogRow env faults req committedAt p files.changeLog = none → written = files
  reports : ∀ log, (replaceFiles env faults p files).isSome = true →
    writeChangeLogRow env faults req committedAt p files.changeLog = some log →
    faults .logSystemEvent = false

variable {env faults req committedAt} {files : Files} {p : Prepared}

theorem readResearch_research {staged : Option Json}
    (h : readResearch env faults req files = some staged) (hallow : req.allowSchemaUpdate = true) :
    files.research.isSome = true := by
  rw [readResearch, if_pos hallow] at h
  simp only [Option.bind_eq_bind, Option.bind_eq_some_iff] at h
  obtain ⟨-, -, -, -, -, -, -, -, live, hlive, -⟩ := h
  rw [hlive]
  rfl

/-- The texts to be written back are those of the files. -/
theorem prepare_previous (h : prepare env faults req files = some p) :
    files.target.map readText = some p.previousStrategyText ∧
      p.previousResearchText =
        (if req.allowSchemaUpdate = true then files.research.map readText else none) ∧
      (req.allowSchemaUpdate = true → files.research.isSome = true) := by
  simp only [prepare, Option.bind_eq_bind, Option.bind_eq_some_iff, Option.pure_def,
    Option.some.injEq] at h
  obtain ⟨-, -, staged, -, target, htarget, -, -, -, -, active, -, -, -, payload, -, candidate, -,
    stagedResearch, hresearch, -, -, previous, -, new, -, -, -, rfl⟩ := h
  refine ⟨?_, rfl, readResearch_research hresearch⟩
  rw [htarget]
  rfl

theorem replaceFiles_changeLog {written : Files}
    (h : replaceFiles env faults p files = some written) : written.changeLog = files.changeLog := by
  simp only [replaceFiles, Option.bind_eq_bind, Option.bind_eq_some_iff] at h
  obtain ⟨-, -, strategyText, -, h⟩ := h
  cases hstaged : p.stagedResearch with
  | none =>
    rw [hstaged] at h
    cases h
    rfl
  | some payload =>
    rw [hstaged] at h
    simp only [Option.bind_eq_some_iff, Option.pure_def, Option.some.injEq] at h
    obtain ⟨-, -, researchText, -, rfl⟩ := h
    rfl

/-- What the handler leaves is the files read as text. -/
theorem restoreFiles_eq_iff (h : prepare env faults req files = some p) :
    restoreFiles req p files = files ↔ ReadsBack req files := by
  obtain ⟨target, research, changeLog⟩ := files
  obtain ⟨htarget, hresearch, hthere⟩ := prepare_previous h
  unfold restoreFiles ReadsBack
  rw [htarget, hresearch, Files.mk.injEq]
  cases hallow : req.allowSchemaUpdate with
  | false => simp
  | true =>
    rw [hallow] at hthere
    obtain ⟨text, htext⟩ := Option.isSome_iff_exists.mp (hthere rfl)
    replace htext : research = some text := htext
    simp [htext]

theorem rewriteRecord_length {header record out : List String}
    (h : rewriteRecord header record = some out) : out.length = fieldnames.length := by
  unfold rewriteRecord at h
  split at h
  · cases h
  · cases h
    exact List.length_map _

theorem rewriteRows_spec {header : List String} {records rows : List (List String)}
    (h : records.mapM (rewriteRecord header) = some rows) :
    rows.length = records.length ∧ ∀ row ∈ rows, row ≠ [] := by
  induction records generalizing rows with
  | nil =>
    cases h
    exact ⟨rfl, nofun⟩
  | cons record records ih =>
    rw [List.mapM_cons] at h
    simp only [Option.bind_eq_bind, Option.bind_eq_some_iff, Option.pure_def,
      Option.some.injEq] at h
    obtain ⟨out, hout, rest, hrest, rfl⟩ := h
    obtain ⟨hlength, hrows⟩ := ih hrest
    refine ⟨congrArg (· + 1) hlength, ?_⟩
    intro row hrow
    rcases List.mem_cons.mp hrow with hrow | hrow
    · rw [hrow]
      exact List.ne_nil_of_length_pos (by rw [rewriteRecord_length hout]; decide)
    · exact hrows row hrow

/-- The log is written with the rows it had and one more. -/
theorem writeChangeLogRow_eq {log : List (List String)}
    (h : writeChangeLogRow env faults req committedAt p files.changeLog = some log) :
    ∃ rows row, rewriteRows files.changeLog = some rows ∧
      changeLogRow env req committedAt p = some row ∧ log = fieldnames :: (rows ++ [row]) := by
  simp only [writeChangeLogRow, Option.bind_eq_bind, Option.bind_eq_some_iff, Option.pure_def,
    Option.some.injEq] at h
  obtain ⟨rows, hrows, row, hrow, -, -, hlog⟩ := h
  exact ⟨rows, row, hrows, hrow, hlog.symm⟩

/-- A log that was written is not the log before. -/
theorem writeChangeLogRow_ne {log : List (List String)}
    (h : writeChangeLogRow env faults req committedAt p files.changeLog = some log) :
    files.changeLog ≠ some log := by
  obtain ⟨rows, row, hrows, hrow, rfl⟩ := writeChangeLogRow_eq h
  intro hsame
  rw [hsame] at hrows
  obtain ⟨hlength, hnonempty⟩ := rewriteRows_spec hrows
  have hrow' : row ≠ [] := by
    simp only [changeLogRow, Option.bind_eq_bind, Option.bind_eq_some_iff, Option.pure_def,
      Option.some.injEq] at hrow
    obtain ⟨-, -, -, -, rfl⟩ := hrow
    exact List.cons_ne_nil _ _
  have hkept : (rows ++ [row]).filter (· ≠ []) = rows ++ [row] := by
    refine List.filter_eq_self.mpr fun record hrecord => ?_
    rcases List.mem_append.mp hrecord with hrecord | hrecord
    · exact decide_eq_true (hnonempty record hrecord)
    · rw [List.mem_singleton.mp hrecord]
      exact decide_eq_true hrow'
  rw [hkept, List.length_append, List.length_singleton] at hlength
  omega

/-- A call that raises is all or nothing when it leaves the files as they were. -/
theorem allOrNothing_of_raised {after : Files}
    (h : commitValidatedStrategyParameters env faults req committedAt files = (none, after)) :
    AllOrNothing env faults req committedAt files ↔ after = files := by
  constructor
  · intro hall
    have hunchanged := hall.unchanged (congrArg Prod.fst h)
    rw [h] at hunchanged
    exact hunchanged
  · intro hsame
    rw [hsame] at h
    exact ⟨fun _ => congrArg Prod.snd h,
      fun hchanged => absurd (congrArg (fun out => out.2.target) h) hchanged⟩

theorem allOrNothing_of_unreplaced (hprepare : prepare env faults req files = some p)
    (hreplace : replaceFiles env faults p files = none) :
    AllOrNothing env faults req committedAt files ↔
      Covered env faults req committedAt files p := by
  have hcommit : commitValidatedStrategyParameters env faults req committedAt files =
      (none, restoreFiles req p files) := by
    simp only [commitValidatedStrategyParameters, hprepare, hreplace]
  rw [allOrNothing_of_raised hcommit, restoreFiles_eq_iff hprepare]
  constructor
  · intro hback
    refine ⟨fun _ => hback, fun written hwritten => ?_, fun _ hsome => ?_⟩
    · rw [hreplace] at hwritten
      cases hwritten
    · rw [hreplace] at hsome
      cases hsome
  · intro hcovered
    exact hcovered.replaces hreplace

theorem allOrNothing_of_unlogged {written : Files}
    (hprepare : prepare env faults req files = some p)
    (hreplace : replaceFiles env faults p files = some written)
    (hlog : writeChangeLogRow env faults req committedAt p files.changeLog = none) :
    AllOrNothing env faults req committedAt files ↔
      Covered env faults req committedAt files p := by
  have hsamelog := replaceFiles_changeLog hreplace
  have hcommit : commitValidatedStrategyParameters env faults req committedAt files =
      (none, written) := by
    simp only [commitValidatedStrategyParameters, hprepare, hreplace, hsamelog, hlog]
  rw [allOrNothing_of_raised hcommit]
  constructor
  · intro hsame
    refine ⟨fun hnone => ?_, fun w hw _ => ?_, fun log _ hsome => ?_⟩
    · rw [hreplace] at hnone
      cases hnone
    · rw [hreplace] at hw
      cases hw
      exact hsame
    · rw [hlog] at hsome
      cases hsome
  · intro hcovered
    exact hcovered.logs written hreplace hlog

/-- Once the log is written only the event can raise, and then nothing is undone. -/
theorem allOrNothing_of_logged {written : Files} {log : List (List String)}
    (hprepare : prepare env faults req files = some p)
    (hreplace : replaceFiles env faults p files = some written)
    (hlog : writeChangeLogRow env faults req committedAt p files.changeLog = some log) :
    AllOrNothing env faults req committedAt files ↔
      Covered env faults req committedAt files p := by
  have hsamelog := replaceFiles_changeLog hreplace
  cases hevent : faults .logSystemEvent with
  | true =>
    have hcommit : commitValidatedStrategyParameters env faults req committedAt files =
        (none, { written with changeLog := some log }) := by
      simp only [commitValidatedStrategyParameters, hprepare, hreplace, hsamelog, hlog, hevent,
        if_pos]
    rw [allOrNothing_of_raised hcommit]
    refine iff_of_false (fun hsame => ?_) fun hcovered => ?_
    · exact writeChangeLogRow_ne hlog (congrArg Files.changeLog hsame).symm
    · have hreports := hcovered.reports log (by rw [hreplace]; rfl) hlog
      rw [hevent] at hreports
      cases hreports
  | false =>
    obtain ⟨result, hcommit⟩ : ∃ result,
        commitValidatedStrategyParameters env faults req committedAt files =
          (some result, { written with changeLog := some log }) := by
      simp only [commitValidatedStrategyParameters, hprepare, hreplace, hsamelog, hlog, hevent]
      exact ⟨_, rfl⟩
    obtain ⟨rows, row, hrows, hrow, rfl⟩ := writeChangeLogRow_eq hlog
    refine iff_of_true ⟨fun hraised => ?_, fun _ => ?_⟩ ⟨fun hnone => ?_, fun w _ hnone => ?_,
      fun _ _ _ => hevent⟩
    · rw [hcommit] at hraised
      cases hraised
    · rw [hcommit]
      exact ⟨p, rows, row, hprepare, hrows, hrow, rfl⟩
    · rw [hreplace] at hnone
      cases hnone
    · rw [hlog] at hnone
      cases hnone

/-- A call that has come to the replacements: one case for each place where it can raise. -/
theorem allOrNothing_iff_covered (hprepare : prepare env faults req files = some p) :
    AllOrNothing env faults req committedAt files ↔
      Covered env faults req committedAt files p := by
  cases hreplace : replaceFiles env faults p files with
  | none => exact allOrNothing_of_unreplaced hprepare hreplace
  | some written =>
    cases hlog : writeChangeLogRow env faults req committedAt p files.changeLog with
    | none => exact allOrNothing_of_unlogged hprepare hreplace hlog
    | some log => exact allOrNothing_of_logged hprepare hreplace hlog

/-- A call is all or nothing **exactly when**, if it comes to the replacements, whatever raises
from there on is covered: the texts restored are the contents, the log fails only after
replacements that changed nothing, and nothing raises after the log. -/
theorem allOrNothing_iff (env : Env) (faults : Step → Bool) (req : Request) (committedAt : String)
    (files : Files) :
    AllOrNothing env faults req committedAt files ↔
      ∀ p, prepare env faults req files = some p → Covered env faults req committedAt files p := by
  cases hprepare : prepare env faults req files with
  | none =>
    have hcommit : commitValidatedStrategyParameters env faults req committedAt files =
        (none, files) := by
      rw [commitValidatedStrategyParameters, hprepare]
    exact iff_of_true ((allOrNothing_of_raised hcommit).mpr rfl) nofun
  | some p =>
    rw [allOrNothing_iff_covered hprepare]
    constructor
    · intro hcovered p' hp'
      cases hp'
      exact hcovered
    · intro hall
      exact hall p rfl

/-- Readers that know two strategy files, and writers of one text each. -/
def sampleEnv : Env where
  upper := id
  strip := id
  repr := fun _ => ""
  dict := fun
    | .obj fields => some fields
    | _ => none
  safeLoad := fun text =>
    some (.obj [("symbol", .str "SPY"), ("params", .obj [("window", .int text.length)])])
  safeDump := fun _ => some "window: 3"
  loads := fun _ => none
  dumps := fun _ => some "\x7b\x7d"
  dumpsIndented := fun _ => none

def sampleRequest : Request where
  targetPath := "spy.yaml"
  liveResearchPath := none
  changeLogPath := "parameter_change_log.csv"
  operatorHash := "op"
  allowSchemaUpdate := false
  stagedStrategy := some "new"
  stagedResearch := none

/-- The log cannot be written: the call raises, and the new parameters stay. -/
theorem unlogged_commit_stays :
    let files : Files := ⟨some "window: 20", none, none⟩
    let faults : Step → Bool := fun step => decide (step = .writeChangeLog)
    let out := commitValidatedStrategyParameters sampleEnv faults sampleRequest "now" files
    out.1.isNone = true ∧ out.2.target = some "window: 3" ∧ out.2.changeLog = none ∧
      ¬ AllOrNothing sampleEnv faults sampleRequest "now" files := by
  intro files faults out
  have hraised : out.1.isNone = true := rfl
  have htarget : out.2.target = some "window: 3" := rfl
  refine ⟨hraised, htarget, rfl, ?_⟩
  intro hall
  have hsame := congrArg Files.target (hall.unchanged (Option.isNone_iff_eq_none.mp hraised))
  rw [htarget] at hsame
  exact absurd hsame (by decide)

end TradingPlatform.Engine.ParameterCommit
