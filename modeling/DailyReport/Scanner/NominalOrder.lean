import DailyReport.Scanner.Discovered
import DailyReport.Scanner.Rendering

/-!
# One nominal order

The admission plans sort the discovered files by their absolute paths, the decisions by their
paths relative to the work directory.  Both use the same key, whose priority matches directory
names anywhere in the path.

* `plan_sequence`, `decided_sequence` : what the plans and the decisions sort;
* `nominal_order_iff` : **both follow one order exactly when the directories above the work
  directory do not change the priority of a file** and its separators do not change a tie.
-/

namespace DailyReport

open Lib

/-! ### The sequences -/

/-- Identities and priorities in the order of a plan. -/
def planSequence (plans : List ClassifiedPlan) : List (Text × ℕ) :=
  plans.map fun plan => (plan.fileIdentity, plan.priority)

def admissionSequence (decisions : List AdmissionDecision) : List (Text × ℕ) :=
  decisions.map fun decision => (decision.fileIdentity, decision.priority)

/-- Identities and priorities in the order of the decisions. -/
def decidedSequence (decided : List DecidedFile) : List (Text × ℕ) :=
  decided.map fun item => (item.evidence.fileIdentity, item.decision.priority)

def renderedSequence (decisions : List BudgetedDecision) : List (Text × ℕ) :=
  decisions.map fun record => (record.fileIdentity, record.decision.priority)

/-- Stage B keeps the order of stage A. -/
theorem admission_sequence (settings : NormalizedScannerSettings) (model : ContextBudgetModel)
    (classifications : Classifications) (plans : List ClassifiedPlan)
    (retainedChars remainingExtractions : ℕ) :
    admissionSequence (ContentAdmissionPlan.buildWithRemaining plans settings model
        classifications retainedChars remainingExtractions) = planSequence plans := by
  have horigin : (admitAll settings model classifications ⟨retainedChars, remainingExtractions⟩
      plans).map AdmissionDecision.origin = plans.map ClassifiedPlan.origin :=
    admitAll_origin settings _ plans
  have h := congrArg (List.map fun origin : Text × Text × Text × ℕ => (origin.1, origin.2.2.2))
    horigin
  rw [List.map_map, List.map_map] at h
  exact h

theorem append_lt_append_iff (a b c : Text) : a ++ b < a ++ c ↔ b < c := by
  induction a with
  | nil => rfl
  | cons x a ih =>
    rw [List.cons_append, List.cons_append, List.cons_lt_cons_iff]
    simpa using ih

/-! ### The sorts -/

section

variable [UnicodeCase]

/-- The key of a discovered file in the plans. -/
def planKey (file : DiscoveredFileOut) : NominalKey := (planCandidate file).key

/-- The key that a plan entry has by its origin. -/
def originKey (origin : Text × Text × Text × ℕ) : NominalKey :=
  NominalKey.new origin.2.1 origin.2.2.1 origin.1

variable {files : List DiscoveredFileOut}

theorem planKey_inj (hnodup : (files.map DiscoveredFileOut.fileIdentity).Nodup) :
    ∀ a ∈ files, ∀ b ∈ files, planKey a = planKey b → a = b := fun _ ha _ hb h =>
  List.inj_on_of_nodup_map hnodup ha hb (NominalKey.new_injective h)

/-- **Stage A sorts the files by their plan keys.** -/
theorem plan_sequence (hnodup : (files.map DiscoveredFileOut.fileIdentity).Nodup)
    (settings : NormalizedScannerSettings) (pageBudget candidateBudget : ℕ)
    (allowPartialPages : Bool) :
    planSequence (ClassificationPlan.buildWithRemaining (files.map planCandidate) settings
        pageBudget candidateBudget allowPartialPages) =
      (sortByKey planKey files).map fun file => (file.fileIdentity, (planKey file).priority) := by
  set plans := ClassificationPlan.buildWithRemaining (files.map planCandidate) settings pageBudget
    candidateBudget allowPartialPages with hplans
  have hperm : (plans.map ClassifiedPlan.origin).Perm
      (files.map fun file => (planCandidate file).origin) := by
    have := ClassificationPlan.perm_candidates settings allowPartialPages
      (files.map planCandidate) pageBudget candidateBudget
    rwa [List.map_map] at this
  -- the plan is the sort of its origins, and its origins are those of the files
  have hsorted : plans.map ClassifiedPlan.origin =
      sortByKey originKey (plans.map ClassifiedPlan.origin) := by
    refine (sortByKey_of_sorted ?_).symm
    rw [List.pairwise_map]
    exact sortByKey_sorted ClassifiedPlan.key _
  have hinj : ∀ a ∈ plans.map ClassifiedPlan.origin, ∀ b ∈ plans.map ClassifiedPlan.origin,
      originKey a = originKey b → a = b := by
    intro a ha b hb h
    obtain ⟨file, hfile, rfl⟩ := List.mem_map.1 (hperm.subset ha)
    obtain ⟨file', hfile', rfl⟩ := List.mem_map.1 (hperm.subset hb)
    have heq : planKey file = planKey file' := h
    rw [planKey_inj hnodup file hfile file' hfile' heq]
  rw [sortByKey_eq_of_perm hperm hinj, sortByKey_map] at hsorted
  have hsequence : planSequence plans =
      (plans.map ClassifiedPlan.origin).map fun origin => (origin.1, origin.2.2.2) := by
    rw [List.map_map]
    rfl
  rw [hsequence, hsorted, List.map_map]
  rfl

/-- The key of the evidence about a discovered file. -/
def evidenceKey (evidence : DiscoveredFileOut → ContextFileEvidence) (file : DiscoveredFileOut) :
    NominalKey :=
  (evidence file).key

/-- **The decisions sort the files by their evidence keys.** -/
theorem decided_sequence (evidence : DiscoveredFileOut → ContextFileEvidence)
    {profile : ContextProfile} {decided : List DecidedFile}
    (h : decideFiles (files.map evidence) profile = .ok decided) :
    decidedSequence decided = (sortByKey (evidenceKey evidence) files).map fun file =>
      ((evidence file).fileIdentity, (evidenceKey evidence file).priority) := by
  obtain ⟨rfl, -⟩ := decideFiles_eq_ok.1 h
  rw [sortByKey_map, decidedSequence, List.map_map, List.map_map]
  rfl

/-- The text is rendered in the order of the decisions. -/
theorem rendered_sequence {evidence : List ContextFileEvidence} {profile : ContextProfile}
    {reportMode : ReportMode} {decided : List DecidedFile} {out : ContextBuildOutput}
    (hdecided : decideFiles evidence profile = .ok decided)
    (hout : buildContext evidence profile reportMode = .ok out) :
    renderedSequence out.decisions = decidedSequence decided := by
  obtain ⟨_, hd, h⟩ := bind_eq_ok.1 hout
  rw [hdecided, Except.ok.injEq] at hd
  subst hd
  obtain ⟨inputChars, -, h⟩ := bind_eq_ok.1 h
  obtain ⟨⟨state, content⟩, hrender, h⟩ := bind_eq_ok.1 h
  have hrun := (renderDecided_eq_ok hrender).1
  simp only [pure, Except.pure, Except.ok.injEq] at h
  have hdecisions : out.decisions = decided.map (stepDecision profile) := by
    rw [← h]; exact hrun.decisions
  rw [hdecisions, renderedSequence, List.map_map]
  refine List.map_congr_left fun item _ => ?_
  simp only [Function.comp_apply, stepDecision]
  split
  · rfl
  · rfl
  · unfold renderFileSection
    split_ifs <;> rfl

/-- A decided file as a candidate for a detail slot. -/
def detailCandidate (item : DecidedFile) : OmittedCandidate :=
  ⟨item.evidence.fileIdentity, item.evidence.relativePath, item.evidence.extension⟩

/-- The detail slots of the omitted summary are selected in the order of the decisions. -/
theorem detailSlots_sublist {evidence : List ContextFileEvidence} {profile : ContextProfile}
    {decided : List DecidedFile} (h : decideFiles evidence profile = .ok decided) :
    ((omittedPlan decided profile).detailSlots.map OmittedCandidate.fileIdentity).Sublist
      ((decidedSequence decided).map Prod.fst) := by
  obtain ⟨hdecided, -⟩ := decideFiles_eq_ok.1 h
  have hsorted : (decided.map detailCandidate).Pairwise fun a b => a.key ≤ b.key := by
    rw [hdecided, List.map_map, List.pairwise_map]
    exact sortByKey_sorted ContextFileEvidence.key evidence
  have hslots : (omittedPlan decided profile).detailSlots.Sublist (decided.map detailCandidate) := by
    have : (omittedPlan decided profile).detailSlots.Sublist
        (sortByKey OmittedCandidate.key (decided.map detailCandidate)) := takeWithin_sublist _ _
    rwa [sortByKey_of_sorted hsorted] at this
  have hidentity : (decidedSequence decided).map Prod.fst =
      (decided.map detailCandidate).map OmittedCandidate.fileIdentity := by
    rw [decidedSequence, List.map_map, List.map_map]
    rfl
  rw [hidentity]
  exact hslots.map _

/-! ### Ties -/

/-- What breaks a tie between files of the same priority. -/
def tieKey (path fileIdentity : Text) : Text ×ₗ Text ×ₗ Text :=
  toLex (toLowercase path, toLex (path, fileIdentity))

/-- A common directory in front of two paths does not matter to a tie. -/
theorem tieKey_directoryPrefix (p : Platform) (base a b identityA identityB : Text) :
    tieKey (directoryPrefix p base ++ a) identityA ≤ tieKey (directoryPrefix p base ++ b) identityB ↔
      tieKey a identityA ≤ tieKey b identityB := by
  obtain ⟨front, s, hfront, hs⟩ : ∃ front s, directoryPrefix p base = front ++ [s] ∧
      IsSeparator s := by
    have hsep : ∀ s, p.isSeparator s = true → IsSeparator s := by
      intro s hs
      cases p <;> simp [Platform.isSeparator] at hs <;> unfold IsSeparator <;> tauto
    unfold directoryPrefix
    by_cases hend : base.getLast?.any p.isSeparator = true
    · rw [if_pos hend]
      obtain ⟨front, s, rfl⟩ := (List.eq_nil_or_concat base).resolve_left
        (by rintro rfl; cases hend)
      exact ⟨front, s, List.concat_eq_append, hsep s (by simpa using hend)⟩
    · rw [if_neg hend]
      exact ⟨base, p.separator, rfl, hsep _ p.isSeparator_separator⟩
  have hlower : ∀ t, toLowercase (directoryPrefix p base ++ t) =
      (toLowercase front ++ [s]) ++ toLowercase t := by
    intro t
    rw [hfront, List.append_assoc, List.singleton_append, toLowercase_separator hs,
      List.append_assoc, List.singleton_append]
  simp only [tieKey, hlower, Prod.Lex.toLex_le_toLex, append_lt_append_iff,
    List.append_cancel_left_eq]

/-! ### One order -/

/-- The relative path of a file found under these names. -/
def relativeText (p : Platform) (names : List Text) : Text :=
  replaceChar '/' '\\' (joinWith [p.separator] names)

/-- Files found below the work directory, each once, and the evidence about them. -/
structure DiscoveredRun (p : Platform) (workDir : Text) (files : List DiscoveredFileOut)
    (names : DiscoveredFileOut → List Text)
    (evidence : DiscoveredFileOut → ContextFileEvidence) : Prop where
  walked : ∀ file ∈ files, Walked p workDir file (names file)
  nodup : (files.map DiscoveredFileOut.fileIdentity).Nodup
  identity : ∀ file ∈ files, (evidence file).fileIdentity = file.fileIdentity
  extension : ∀ file ∈ files, (evidence file).extension = file.extension
  relative : ∀ file ∈ files,
    relativeContractPath p workDir file.path = .ok (evidence file).relativePath

/-- The plans, the decisions and the text put the files in one order with one priority each. -/
structure OneNominalOrder (plans : List ClassifiedPlan) (admissions : List AdmissionDecision)
    (evidence : List ContextFileEvidence) (profile : ContextProfile) (reportMode : ReportMode)
    (decided : List DecidedFile) : Prop where
  stageA : planSequence plans = decidedSequence decided
  stageB : admissionSequence admissions = decidedSequence decided
  rendered : ∀ out, buildContext evidence profile reportMode = .ok out →
    renderedSequence out.decisions = decidedSequence decided
  details : ((omittedPlan decided profile).detailSlots.map OmittedCandidate.fileIdentity).Sublist
    ((decidedSequence decided).map Prod.fst)

/-- The directories above the work directory do not change the directory row of a file. -/
def RowsAgree (p : Platform) (files : List DiscoveredFileOut)
    (names : DiscoveredFileOut → List Text) : Prop :=
  ∀ file ∈ files, directoryRow (normalizeLower file.path) =
    directoryRow (normalizeLower (relativeText p (names file)))

/-- The spelling of the separators does not change a tie. -/
def TiesAgree (p : Platform) (files : List DiscoveredFileOut)
    (names : DiscoveredFileOut → List Text) : Prop :=
  ∀ a ∈ files, ∀ b ∈ files, (planKey a).priority = (planKey b).priority →
    (tieKey (joinWith [p.separator] (names a)) a.fileIdentity ≤
        tieKey (joinWith [p.separator] (names b)) b.fileIdentity ↔
      tieKey (relativeText p (names a)) a.fileIdentity ≤
        tieKey (relativeText p (names b)) b.fileIdentity)

section

variable {p : Platform} {workDir : Text} {names : DiscoveredFileOut → List Text}
  {evidence : DiscoveredFileOut → ContextFileEvidence}

theorem planKey_le_iff (a b : DiscoveredFileOut) : planKey a ≤ planKey b ↔
    (planKey a).priority < (planKey b).priority ∨ (planKey a).priority = (planKey b).priority ∧
      tieKey a.path a.fileIdentity ≤ tieKey b.path b.fileIdentity :=
  NominalKey.le_iff

namespace DiscoveredRun

variable (run : DiscoveredRun p workDir files names evidence)

include run

theorem evidenceKey_eq {file : DiscoveredFileOut} (hfile : file ∈ files) :
    evidenceKey evidence file =
      NominalKey.new (relativeText p (names file)) file.extension file.fileIdentity := by
  rw [evidenceKey, ContextFileEvidence.key, run.identity file hfile, run.extension file hfile,
    relativeContractPath_walked (run.walked file hfile) (run.relative file hfile)]
  rfl

/-- A file has one priority exactly when its directory row is one. -/
theorem priority_eq_iff {file : DiscoveredFileOut} (hfile : file ∈ files) :
    (planKey file).priority = (evidenceKey evidence file).priority ↔
      directoryRow (normalizeLower file.path) =
        directoryRow (normalizeLower (relativeText p (names file))) := by
  rw [run.evidenceKey_eq hfile]
  exact priorityFor_eq_iff

theorem evidenceKey_inj : ∀ a ∈ files, ∀ b ∈ files,
    evidenceKey evidence a = evidenceKey evidence b → a = b := by
  intro a ha b hb h
  rw [run.evidenceKey_eq ha, run.evidenceKey_eq hb] at h
  exact List.inj_on_of_nodup_map run.nodup ha hb (NominalKey.new_injective h)

/-- With equal priorities both keys compare two files alike exactly when their ties agree. -/
theorem le_iff_le (hrows : RowsAgree p files names) {a b : DiscoveredFileOut} (ha : a ∈ files)
    (hb : b ∈ files) :
    (planKey a ≤ planKey b ↔ evidenceKey evidence a ≤ evidenceKey evidence b) ↔
      ((planKey a).priority = (planKey b).priority →
        (tieKey (joinWith [p.separator] (names a)) a.fileIdentity ≤
            tieKey (joinWith [p.separator] (names b)) b.fileIdentity ↔
          tieKey (relativeText p (names a)) a.fileIdentity ≤
            tieKey (relativeText p (names b)) b.fileIdentity)) := by
  have hprioA := (run.priority_eq_iff ha).2 (hrows a ha)
  have hprioB := (run.priority_eq_iff hb).2 (hrows b hb)
  have hevidence : evidenceKey evidence a ≤ evidenceKey evidence b ↔
      (planKey a).priority < (planKey b).priority ∨ (planKey a).priority = (planKey b).priority ∧
        tieKey (relativeText p (names a)) a.fileIdentity ≤
          tieKey (relativeText p (names b)) b.fileIdentity := by
    rw [hprioA, hprioB, run.evidenceKey_eq ha, run.evidenceKey_eq hb]
    exact NominalKey.le_iff
  rw [planKey_le_iff, hevidence, (run.walked a ha).path, (run.walked b hb).path,
    tieKey_directoryPrefix]
  by_cases hprio : (planKey a).priority = (planKey b).priority
  · simp [hprio]
  · simp [hprio]

end DiscoveredRun

/-- **The plans and the decisions follow one order exactly when** the directories above the work
directory do not change the priority of a file and its separators do not change a tie. -/
theorem nominal_order_iff (run : DiscoveredRun p workDir files names evidence)
    {profile : ContextProfile} (reportMode : ReportMode) {decided : List DecidedFile}
    (hdecided : decideFiles (files.map evidence) profile = .ok decided)
    (settings : NormalizedScannerSettings) (pageBudget candidateBudget : ℕ)
    (allowPartialPages : Bool) (model : ContextBudgetModel) (classifications : Classifications)
    (retainedChars remainingExtractions : ℕ) :
    OneNominalOrder
        (ClassificationPlan.buildWithRemaining (files.map planCandidate) settings pageBudget
          candidateBudget allowPartialPages)
        (ContentAdmissionPlan.buildWithRemaining
          (ClassificationPlan.buildWithRemaining (files.map planCandidate) settings pageBudget
            candidateBudget allowPartialPages)
          settings model classifications retainedChars remainingExtractions)
        (files.map evidence) profile reportMode decided ↔
      RowsAgree p files names ∧ TiesAgree p files names := by
  have hplan := plan_sequence run.nodup settings pageBudget candidateBudget allowPartialPages
  have hdec : decidedSequence decided = (sortByKey (evidenceKey evidence) files).map fun file =>
      (file.fileIdentity, (evidenceKey evidence file).priority) := by
    rw [decided_sequence evidence hdecided]
    refine List.map_congr_left fun file hfile => ?_
    rw [run.identity file (mem_sortByKey.1 hfile)]
  have hid : ∀ a ∈ files, ∀ b ∈ files, a.fileIdentity = b.fileIdentity → a = b :=
    fun _ ha _ hb h => List.inj_on_of_nodup_map run.nodup ha hb h
  have hmain : planSequence (ClassificationPlan.buildWithRemaining (files.map planCandidate)
      settings pageBudget candidateBudget allowPartialPages) = decidedSequence decided ↔
      RowsAgree p files names ∧ TiesAgree p files names := by
    rw [hplan, hdec, sortByKey_map_eq_iff hid,
      sortByKey_eq_iff (planKey_inj run.nodup) run.evidenceKey_inj]
    have hrows : (∀ file ∈ files, (planKey file).priority = (evidenceKey evidence file).priority) ↔
        RowsAgree p files names :=
      forall₂_congr fun file hfile => run.priority_eq_iff hfile
    rw [hrows, and_comm]
    refine and_congr_right fun h => ?_
    exact forall₂_congr fun a ha => forall₂_congr fun b hb => run.le_iff_le h ha hb
  rw [← hmain]
  constructor
  · exact OneNominalOrder.stageA
  · intro h
    refine ⟨h, ?_, fun out hout => rendered_sequence hdecided hout, detailSlots_sublist hdecided⟩
    rw [admission_sequence]
    exact h

end

/-- On Windows the names below the work directory have no other separators. -/
theorem tiesAgree_windows {workDir : Text} {names : DiscoveredFileOut → List Text}
    {evidence : DiscoveredFileOut → ContextFileEvidence}
    (run : DiscoveredRun .windows workDir files names evidence) :
    TiesAgree .windows files names := by
  have hsame : ∀ file ∈ files, relativeText .windows (names file) =
      joinWith [Platform.windows.separator] (names file) := by
    intro file hfile
    refine replaceChar_self fun hmem => ?_
    rcases mem_joinWith hmem with hsep | ⟨name, hname, hc⟩
    · simp [Platform.separator] at hsep
    · have := ((run.walked file hfile).isName name hname).noSep '/' hc
      simp [Platform.isSeparator] at this
  intro a ha b hb _
  rw [hsame a ha, hsame b hb]

end

/-! ### A work directory that changes the order -/

/-- A file of one name in the work directory. -/
def loggedFile (name extension : Text) : DiscoveredFileOut where
  fileIdentity := lit "bootstrap:c:\\logs\\w\\" ++ name ++ extension
  path := lit "C:\\logs\\w\\" ++ name ++ extension
  extension := extension
  modifiedAt := lit "2026-01-01T00:00:00.000000"
  sizeBytes := 1
  sourceVersion := lit "mtime_ns=1:size=1"
  sourceGuardKind := some (lit "windows_file_id_change_time_v1")
  sourceGuardSha256 := some (List.replicate 64 'a')

/-- A note and a PDF in the work directory. -/
def loggedFiles : List DiscoveredFileOut :=
  [loggedFile (lit "a") (lit ".md"), loggedFile (lit "b") (lit ".pdf")]

/-- The name of a file in the work directory. -/
def loggedName (file : DiscoveredFileOut) : Text := file.path.drop 10

/-- Evidence of a file that the work deadline stopped. -/
def loggedEvidence (file : DiscoveredFileOut) : ContextFileEvidence where
  fileIdentity := file.fileIdentity
  absolutePath := file.path
  relativePath := loggedName file
  extension := file.extension
  sizeBytes := some file.sizeBytes
  content := []
  evidenceAudit := none
  parserBackend := lit "not_parsed"
  workerLane := .notParsed
  cacheStatus := .miss
  parseStatus := .notParsed
  truncated := false
  error := none
  reason := some (lit "runtime_deadline_exhausted")

theorem discoveredRun_logged : DiscoveredRun .windows (lit "C:\\logs\\w") loggedFiles
    (fun file => [loggedName file]) loggedEvidence where
  walked := by
    have hproper : ∀ file ∈ loggedFiles, properComponent (loggedName file) = true ∧
        ((loggedName file).all fun c => !Platform.windows.isSeparator c) = true := by
      decide +kernel
    have hname : ∀ file ∈ loggedFiles, properComponent (loggedName file) = true ∧
        ∀ c ∈ loggedName file, Platform.windows.isSeparator c = false := by
      intro file hfile
      obtain ⟨hcomponent, hall⟩ := hproper file hfile
      refine ⟨hcomponent, fun c hc => ?_⟩
      simpa using List.all_eq_true.1 hall c hc
    intro file hfile
    refine ⟨fun name hmem => ?_, ?_, ?_⟩
    · rw [List.mem_singleton.1 hmem]
      exact ⟨(hname file hfile).1, (hname file hfile).2⟩
    · revert file
      decide +kernel
    · revert file
      decide +kernel
  nodup := by decide +kernel
  identity := fun _ _ => rfl
  extension := fun _ _ => rfl
  relative := by decide +kernel

theorem loggedEvidence_validate :
    ∀ e ∈ loggedFiles.map loggedEvidence, e.validate = .ok () := by decide +kernel

/-- The decisions about the two files. -/
def loggedDecided : List DecidedFile :=
  (sortByKey (@ContextFileEvidence.key asciiCase) (loggedFiles.map loggedEvidence)).map fun e =>
    @decideFile asciiCase e dailyDefaultSettings.context

theorem decideFiles_logged : @decideFiles asciiCase (loggedFiles.map loggedEvidence)
    dailyDefaultSettings.context = .ok loggedDecided :=
  (@decideFiles_eq_ok asciiCase _ _ _).2 ⟨rfl, loggedEvidence_validate⟩

theorem nominal_order_iff_logged : @OneNominalOrder asciiCase
    (@ClassificationPlan.buildWithRemaining asciiCase (loggedFiles.map planCandidate)
      dailyDefaultSettings 80 96 false)
    (ContentAdmissionPlan.buildWithRemaining
      (@ClassificationPlan.buildWithRemaining asciiCase (loggedFiles.map planCandidate)
        dailyDefaultSettings 80 96 false)
      dailyDefaultSettings ⟨500000, 100000, 13000, 12000⟩ ∅ 0 8)
    (loggedFiles.map loggedEvidence) dailyDefaultSettings.context .daily loggedDecided ↔
      @RowsAgree asciiCase .windows loggedFiles (fun file => [loggedName file]) ∧
        @TiesAgree asciiCase .windows loggedFiles (fun file => [loggedName file]) :=
  @nominal_order_iff asciiCase _ _ _ _ _ discoveredRun_logged _ .daily _ decideFiles_logged
    dailyDefaultSettings 80 96 false ⟨500000, 100000, 13000, 12000⟩ ∅ 0 8

/-- **A work directory that changes the order**: its directory `logs` gives both files one
priority in the plans, so the note comes first, and the decisions put the PDF first. -/
theorem nominal_order_logged :
    DiscoveredRun .windows (lit "C:\\logs\\w") loggedFiles (fun file => [loggedName file])
        loggedEvidence ∧
      planSequence (@ClassificationPlan.buildWithRemaining asciiCase
        (loggedFiles.map planCandidate) dailyDefaultSettings 80 96 false) =
        [(lit "bootstrap:c:\\logs\\w\\a.md", 60), (lit "bootstrap:c:\\logs\\w\\b.pdf", 60)] ∧
      decidedSequence loggedDecided =
        [(lit "bootstrap:c:\\logs\\w\\b.pdf", 20), (lit "bootstrap:c:\\logs\\w\\a.md", 30)] := by
  refine ⟨discoveredRun_logged, ?_, ?_⟩
  · rw [@plan_sequence asciiCase _ discoveredRun_logged.nodup]
    decide +kernel
  · decide +kernel

end DailyReport
