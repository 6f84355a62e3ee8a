import DailyReport.Scanner.RenderBudget
import DailyReport.Scheduler.Finished

/-!
# The two projections agree

The evidence and the row of a file are two case analyses of the same state.  They differ in one
branch only, an admitted file without a parse result; in a finished run such a file is a PDF without
text or was never classified (`Coherent.unparsed`), and there the branches agree too.

* `projections_agree` : **the evidence and the rows of a finished run say the same about every
  file**, and the counts of the rendered context are those of the rows.
-/

namespace DailyReport

open Lib

/-- What a projection says about the outcome of a file. -/
structure FileOutcome where
  fileIdentity : Text
  relativePath : Text
  parseStatus : ParseStatus
  errorCode : Option ErrorCode
  truncated : Bool
  parserBackend : Text
  workerLane : AuditWorkerLane
  deriving DecidableEq

def ContextFileEvidence.outcome (e : ContextFileEvidence) : FileOutcome where
  fileIdentity := e.fileIdentity
  relativePath := e.relativePath
  parseStatus := e.parseStatus
  errorCode := e.error.map Diagnostic.errorCode
  truncated := e.truncated
  parserBackend := e.parserBackend
  workerLane := e.workerLane

def FileResultRecord.outcome (row : FileResultRecord) : FileOutcome where
  fileIdentity := row.fileIdentity
  relativePath := row.relativePath
  parseStatus := row.parseStatus
  errorCode := row.error.map Diagnostic.errorCode
  truncated := row.truncated
  parserBackend := row.parserBackend
  workerLane := row.workerLane

/-! ### One file -/

section OneFile

variable {digests : Digests} {input : ScheduledRunInput} {file : DiscoveredFileOut}
  {relativePath : Text} {action : PlanAction} {classifications : Classifications}
  {audits : ClassificationAudits} {runtime : Finset Text} {outputs : ParseOutputs}

/-- An admitted file that was neither stopped nor parsed has no text to parse. -/
def NoTextWhereUnparsed (file : DiscoveredFileOut) (action : PlanAction)
    (classifications : Classifications) (runtime : Finset Text) (outputs : ParseOutputs) : Prop :=
  action.isAdmit = true → stoppedAtRuntime runtime outputs file.fileIdentity = false →
    outputs.results.lookup file.fileIdentity = none →
    ((classifications.lookup file.fileIdentity).map PdfClassificationResult.status).getD
      .noTextInParseWindow = .noTextInParseWindow

theorem admitted_outcome (haction : action.isAdmit = true)
    (h : NoTextWhereUnparsed file action classifications runtime outputs) :
    (admittedEvidence file relativePath classifications runtime outputs).outcome =
      let disposition := admittedDisposition digests file runtime outputs
      ⟨file.fileIdentity, relativePath, disposition.parseStatus,
        disposition.error.map Diagnostic.errorCode, disposition.truncated,
        disposition.parserBackend, disposition.workerLane⟩ := by
  unfold admittedEvidence admittedDisposition
  cases hstopped : stoppedAtRuntime runtime outputs file.fileIdentity with
  | true => rfl
  | false =>
    cases hresult : outputs.results.lookup file.fileIdentity with
    | some result => rfl
    | none =>
      rw [if_pos (h haction hstopped hresult)]
      rfl

/-- **The projections of one file agree** where an unparsed file has no text. -/
theorem file_outcome (h : NoTextWhereUnparsed file action classifications runtime outputs) :
    (fileEvidence file relativePath action classifications runtime outputs).outcome =
      (fileResult digests input file relativePath action classifications audits runtime
        outputs).outcome := by
  simp only [fileResult, FileResultRecord.outcome]
  unfold fileEvidence fileDisposition
  cases hchanged : changedResult outputs file.fileIdentity with
  | some result => rfl
  | none =>
    cases action with
    | notParsed reason => rfl
    | reject reason => rfl
    | classifierFailed status => rfl
    | admitRoute route => exact admitted_outcome rfl h

end OneFile

/-! ### Counting rows -/

/-- The number of rows with a parse status. -/
def countRows (status : ParseStatus) (rows : List FileResultRecord) : ℕ :=
  rows.countP fun row => decide (row.parseStatus = status)

/-- The counts of a context are those of the rows. -/
structure CountsAgree (context : ContextBuildOutput) (rows : List FileResultRecord) : Prop where
  source : context.sourceFileCount = rows.length
  success : context.successCount = countRows .success rows
  timeout : context.timeoutCount = countRows .timeout rows
  error : context.errorFileCount = countRows .error rows
  omitted : context.omittedFileCount = countRows .notParsed rows

/-- The parse statuses of equal outcomes. -/
theorem countP_outcomes {evidence : List ContextFileEvidence} {rows : List FileResultRecord}
    (h : evidence.map ContextFileEvidence.outcome = rows.map FileResultRecord.outcome)
    (status : ParseStatus) :
    (evidence.countP fun e => decide (e.parseStatus = status)) = countRows status rows := by
  have := congrArg (List.countP fun o : FileOutcome => decide (o.parseStatus = status)) h
  rw [List.countP_map, List.countP_map] at this
  exact this

/-- Every row has one of the four statuses. -/
theorem countRows_sum (rows : List FileResultRecord) :
    countRows .success rows + countRows .timeout rows + countRows .error rows +
      countRows .notParsed rows = rows.length := by
  unfold countRows
  induction rows with
  | nil => rfl
  | cons row rows ih =>
    rw [List.length_cons, ← ih]
    simp only [List.countP_cons]
    cases row.parseStatus <;> simp <;> omega

/-! ### Files of a finished run -/

variable {σ : Type} {run : RunContext σ}

/-- A decision whose file was neither stopped nor parsed. -/
theorem ParseFate.unparsed {classifications : Classifications} {runtime : Finset Text}
    {decision : AdmissionDecision} {view : ParseView} {route : RouteKind} {file : DiscoveredFileOut}
    (h : ParseFate run classifications runtime decision view)
    (hroute : decision.action = .admitRoute route)
    (hfile : run.input.snapshot.lookup decision.fileIdentity = some file)
    (hruntime : decision.fileIdentity ∉ runtime) (hresult : view.result = none)
    (hstopped : view.stopped = false) :
    isMetadataOnly classifications decision.fileIdentity route = true ∨
      expectedGuard file = none := by
  cases h with
  | notAdmitted h => rw [hroute] at h; cases h
  | unknown h => rw [hfile] at h; cases h
  | stoppedBefore h => exact absurd h hruntime
  | metadataOnly h hmetadata =>
    rw [hroute] at h
    cases h
    exact .inl hmetadata
  | stopped => cases hstopped
  | unguarded _ h hguard =>
    have := h.found
    rw [hfile] at this
    cases this
    exact .inr hguard
  | changed | cached | changedAfter | parsed => cases hresult

theorem planFile_eq_ok {input : ScheduledRunInput} {plan : ClassifiedPlan}
    {found : DiscoveredFileOut × Text} (h : planFile input plan = .ok found) :
    input.snapshot.lookup plan.fileIdentity = some found.1 := by
  unfold planFile at h
  split at h
  · cases h
  · split at h
    · cases h
    · cases h
      assumption

variable {state final : RefillState}

/-! ### All files -/

/-- The evidence of a state. -/
def RefillState.evidence (input : ScheduledRunInput) (state : RefillState) :
    Except SchedulerFailure (List ContextFileEvidence) :=
  buildEvidence input state.classified state.admission state.classifications state.runtime
    state.outputs

/-- The rows of a state. -/
def RefillState.fileResults (digests : Digests) (input : ScheduledRunInput) (state : RefillState) :
    Except SchedulerFailure (List FileResultRecord) :=
  buildFileResults digests input state.classified state.admission state.classifications
    state.audits state.runtime state.outputs

/-- There is one row for each plan. -/
theorem map_fileIdentity_fileResults {digests : Digests} {input : ScheduledRunInput}
    {rows : List FileResultRecord} (h : final.fileResults digests input = .ok rows) :
    rows.map FileResultRecord.fileIdentity = final.classified.map ClassifiedPlan.fileIdentity := by
  have hrows := mapM_eq_ok.1 h
  clear h
  generalize final.classified = plans at hrows
  induction hrows with
  | nil => rfl
  | cons hrow _ ih =>
    obtain ⟨found, hfound, hpure⟩ := bind_eq_ok.1 hrow
    cases hpure
    rw [List.map_cons, List.map_cons, ih]
    exact congrArg (· :: _) (ScheduledRunInput.fileIdentity_of_lookup (planFile_eq_ok hfound))

section Finished

variable [UnicodeCase]

/-- **An admitted file without a parse result has no text**, or was never classified. -/
theorem Coherent.unparsed (h : Coherent run state) {plan : ClassifiedPlan}
    (hplan : plan ∈ state.classified) {file : DiscoveredFileOut}
    (hfile : run.input.snapshot.lookup plan.fileIdentity = some file)
    (haction : (effectiveAction state.admission plan).isAdmit = true)
    (hrunning : plan.fileIdentity ∉ state.runtime)
    (hstopped : (state.outputs.view plan.fileIdentity).stopped = false)
    (hresult : (state.outputs.view plan.fileIdentity).result = none) :
    (state.classificationView plan.fileIdentity).status = none ∨
      (state.classificationView plan.fileIdentity).status = some .noTextInParseWindow := by
  cases h.standing plan hplan with
  | waiting reason hact => rw [hact] at haction; cases haction
  | rejected reason hact => rw [hact] at haction; cases haction
  | failed status hact => rw [hact] at haction; cases haction
  | stopped _ hruntime => exact absurd hruntime hrunning
  | admitted decision route hdecision hidentity hroute hact _ hadmitted htext hfate =>
    rw [← hidentity] at hfile hrunning
    rcases hfate.unparsed hroute hfile hrunning hresult hstopped with hmetadata | hguard
    · right
      rw [hidentity] at hmetadata
      exact of_decide_eq_true (Bool.and_eq_true_iff.1 hmetadata).2
    · left
      have hrecorded := h.recorded plan hplan
      obtain ⟨other, hother, hfrom⟩ := h.plans plan hplan
      by_cases hpdf : route = .pdf
      · -- a PDF with a text result has a guard
        obtain ⟨guarded, guard, hfound, hguarded⟩ := hrecorded.guarded (htext hpdf)
        rw [← hidentity, hfile] at hfound
        cases hfound
        rw [hguard] at hguarded
        cases hguarded
      · have hroute := hfrom.route route hadmitted
        rcases hrecorded.prior (hroute.2.trans (decide_eq_false hpdf)) with hview |
          ⟨⟨pdf, hfound, hpdfRoute⟩, -⟩
        · rw [hview]
          rfl
        · rw [hother] at hfound
          cases hfound
          rw [hroute.1] at hpdfRoute
          cases hpdfRoute
          exact absurd rfl hpdf

/-- An unparsed file of a finished run has no text. -/
theorem Marked.noTextWhereUnparsed (hmarked : Marked run state final) (h : Coherent run state)
    {plan : ClassifiedPlan} (hplan : plan ∈ final.classified) {file : DiscoveredFileOut}
    (hfile : run.input.snapshot.lookup plan.fileIdentity = some file) :
    NoTextWhereUnparsed file (effectiveAction final.admission plan) final.classifications
      final.runtime final.outputs := by
  intro haction hstopped hresult
  have hidentity := ScheduledRunInput.fileIdentity_of_lookup hfile
  rw [hidentity] at hstopped hresult ⊢
  rw [hmarked.admission] at haction
  rw [hmarked.classified] at hplan
  -- a marked file has a result, so this one is as the coherent run left it
  have hview : final.outputs.view plan.fileIdentity = state.outputs.view plan.fileIdentity := by
    rcases hmarked.view plan.fileIdentity with hview | ⟨changed, -, -, hview⟩
    · exact hview
    · have := congrArg ParseView.result hview
      rw [show (final.outputs.view plan.fileIdentity).result = none from hresult] at this
      cases hold : (state.outputs.view plan.fileIdentity).result <;>
        simp [ParseView.marked, hold] at this
  obtain ⟨hrunning, hunstopped⟩ := by
    simpa [stoppedAtRuntime] using hstopped
  rw [hmarked.runtime] at hrunning
  have hstatus := h.unparsed hplan hfile haction hrunning
    (hview ▸ decide_eq_false hunstopped) (hview ▸ hresult)
  rw [hmarked.classifications]
  change (state.classificationView plan.fileIdentity).status.getD _ = _
  rcases hstatus with hs | hs <;> rw [hs] <;> rfl

/-- **The projections of a finished run agree**, and fail together. -/
theorem Marked.outcomes (hmarked : Marked run state final) (h : Coherent run state) :
    (final.evidence run.input).map (List.map ContextFileEvidence.outcome) =
      (final.fileResults run.digests run.input).map (List.map FileResultRecord.outcome) := by
  unfold RefillState.evidence RefillState.fileResults buildEvidence buildFileResults
  rw [map_mapM, map_mapM]
  refine mapM_congr fun plan hplan => ?_
  cases hfile : planFile run.input plan with
  | error e => rfl
  | ok found =>
    exact congrArg Except.ok
      (file_outcome (hmarked.noTextWhereUnparsed h hplan (planFile_eq_ok hfile)))

theorem countsAgree_of_outcomes {evidence : List ContextFileEvidence}
    {rows : List FileResultRecord} {profile : ContextProfile} {reportMode : ReportMode}
    {context : ContextBuildOutput} (hcontext : buildContext evidence profile reportMode = .ok context)
    (h : evidence.map ContextFileEvidence.outcome = rows.map FileResultRecord.outcome) :
    CountsAgree context rows := by
  unfold buildContext at hcontext
  obtain ⟨decided, hdecided, hrest⟩ := bind_eq_ok.1 hcontext
  obtain ⟨_, -, hrest⟩ := bind_eq_ok.1 hrest
  obtain ⟨⟨_, _⟩, -, hpure⟩ := bind_eq_ok.1 hrest
  simp only [pure, Except.pure, Except.ok.injEq] at hpure
  obtain ⟨hsorted, -⟩ := decideFiles_eq_ok.1 hdecided
  have hstatus : ∀ status, countStatus decided status = countRows status rows := by
    intro status
    rw [← countP_outcomes h status, countStatus, hsorted, List.countP_map]
    exact (sortByKey_perm _ _).countP_eq _
  have hlength : decided.length = rows.length := by
    have := congrArg List.length h
    rw [List.length_map, List.length_map] at this
    rw [hsorted, List.length_map, (sortByKey_perm _ _).length_eq, this]
  have hsum := countRows_sum rows
  subst hpure
  refine ⟨hlength, hstatus _, hstatus _, hstatus _, ?_⟩
  simp only [hstatus, hlength]
  omega

/-- **The two projections agree.**  In every finished run of distinct files, the evidence and the
rows say the same about every discovered file, and a context rendered from the evidence counts what
the rows count. -/
theorem projections_agree {ports : Ports σ} {digests : Digests} {input : ScheduledRunInput}
    (hcontext : runContext ports digests input = .ok run) (hinput : input.Distinct) {s s' : σ}
    {outcome : PassesOutcome} (hpasses : runPasses run s = .ok (outcome, s')) :
    (outcome.state.evidence input).map (List.map ContextFileEvidence.outcome) =
        (outcome.state.fileResults digests input).map (List.map FileResultRecord.outcome) ∧
      ∀ evidence rows, outcome.state.evidence input = .ok evidence →
        outcome.state.fileResults digests input = .ok rows →
        (rows.map FileResultRecord.fileIdentity).Perm
            (input.discovery.map DiscoveredFileOut.fileIdentity) ∧
          ∀ context, buildContext evidence input.profile.context input.profile.reportMode =
            .ok context → CountsAgree context rows := by
  obtain ⟨-, rfl, rfl, hconcurrency⟩ := runContext_eq_ok hcontext
  obtain ⟨state, hcoherent, hmarked⟩ := runPasses_spec hinput hconcurrency hpasses
  have houtcomes := hmarked.outcomes hcoherent
  refine ⟨houtcomes, fun evidence rows hevidence hrows => ⟨?_, fun context hrendered => ?_⟩⟩
  · rw [map_fileIdentity_fileResults hrows, hmarked.classified]
    have := hcoherent.perm.map Prod.fst
    rw [List.map_map, List.map_map] at this
    exact this
  · rw [hevidence, hrows] at houtcomes
    exact countsAgree_of_outcomes hrendered (Except.ok.inj houtcomes)

end Finished

/-! ### A run over one note -/

/-- A digest. -/
def zeroDigest : Text := List.replicate 64 '0'

/-- A digest function with one value. -/
def constantDigests : Digests where
  sha256Hex _ := zeroDigest
  classifierDomainHash _ _ _ := zeroDigest
  planSha256 _ := zeroDigest
  isSha256Hex_sha256Hex _ := by decide +kernel
  isSha256Hex_classifier _ _ _ := by decide +kernel
  isSha256Hex_plan _ := by decide +kernel

/-- A note of the work directory. -/
def noteFile : DiscoveredFileOut where
  fileIdentity := lit "n"
  path := lit "C:\\w\\n.md"
  extension := lit ".md"
  modifiedAt := []
  sizeBytes := 1
  sourceVersion := lit "1"
  sourceGuardKind := some (lit "content_sha256_v1")
  sourceGuardSha256 := some zeroDigest

/-- Its parse. -/
def noteResult (file : DiscoveredFileOut) : ParseResult where
  fileIdentity := file.fileIdentity
  content := lit "x"
  evidenceAudit := none
  parserBackend := lit "light_text_v2"
  workerLane := lit "rust_core"
  truncated := false
  contentSha256 := zeroDigest
  parseStatus := .success
  error := none
  warnings := []
  failureClass := []
  fallbackBackend := []
  fallbackReasonCode := []
  parseTransport := .notApplicable
  parseAttemptCount := 1
  primaryDurationMs := 1
  fallbackDurationMs := 0
  parseDurationMs := 1

/-- Ports that answer at once, with a parser that succeeds. -/
def quietPorts : Ports Unit where
  nowMs := pure 0
  nextRequestId := pure []
  verify _ _ := pure true
  isTainted _ := pure false
  classifyPdf _ _ :=
    pure ⟨.error ⟨.parserFailed, [], false, .parse, none, none⟩, .notApplicable, 0, 0⟩
  parse request := pure (noteResult request.file)
  lookupParse _ _ _ := pure (.ok ⟨zeroDigest, .miss .newFile⟩)
  lookupClassification _ _ _ _ := pure (.ok (.miss .newFile))
  writeParse _ _ := pure (.ok ())
  writeClassification _ _ := pure (.ok ())
  touchAccess _ _ _ := pure (.ok ())

/-- A run over the note, without refill. -/
def noteInput : ScheduledRunInput where
  platform := .windows
  workDir := lit "C:\\w"
  discovery := [noteFile]
  discoveryIssues := []
  profile := { dailyDefaultSettings with admissionPolicyVersion := budgetAdmissionV2 }
  workers := ⟨none, none, none, none, none, none, none⟩
  engineVersion := []
  engineBuild := []
  contextProfileHash := zeroDigest
  rejectedProfileHash := zeroDigest
  workDeadlineMs := 10
  absoluteDeadlineMs := 20
  existedBefore := ∅

def noteRun : RunContext Unit where
  ports := quietPorts
  digests := constantDigests
  input := noteInput
  classifierHash := zeroDigest
  classifierBuild := zeroDigest
  concurrency := 4

theorem noteProfile_validate : noteInput.profile.validate = .ok () := by decide +kernel

theorem runContext_note :
    @runContext _ asciiCase quietPorts constantDigests noteInput = .ok noteRun := by
  have hhash : classifierProfileHash constantDigests noteInput.profile = .ok zeroDigest := by
    unfold classifierProfileHash
    rw [noteProfile_validate]
    rfl
  have hbuild : @resolveClassifierBuild asciiCase noteInput = .ok zeroDigest := by decide +kernel
  unfold runContext
  rw [hhash, hbuild]
  rfl

theorem runPasses_note : (@runPasses _ asciiCase noteRun ()).toOption.isSome = true := by
  decide +kernel

theorem projections_agree_note : ∃ outcome s',
    @runPasses _ asciiCase noteRun () = .ok (outcome, s') ∧
      (outcome.state.evidence noteInput).map (List.map ContextFileEvidence.outcome) =
        (outcome.state.fileResults constantDigests noteInput).map
          (List.map FileResultRecord.outcome) := by
  cases hpasses : @runPasses _ asciiCase noteRun () with
  | error e =>
    have := runPasses_note
    rw [hpasses] at this
    cases this
  | ok result =>
    exact ⟨result.1, result.2, rfl,
      (@projections_agree _ _ asciiCase _ _ _ runContext_note
        (show (noteInput.discovery.map DiscoveredFileOut.fileIdentity).Nodup by decide +kernel) _ _ _
        hpasses).1⟩

end DailyReport
