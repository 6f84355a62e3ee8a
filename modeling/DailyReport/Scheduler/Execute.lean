import DailyReport.Contract.Envelope
import DailyReport.Scheduler.Deadline
import DailyReport.Scheduler.Projections
import DailyReport.Scheduler.Warnings

/-!
# The outcome of a run

`execute` runs the passes, renders the context, writes the rows and decides how the run ended.  The
intent is derived from the failures of single files, from the deadline and from the warnings, which
are collected on the way and bounded at the end.

* `execute_coherent` : **the intent and the diagnostics of every outcome fit together**, and
  bounding the warnings does not change that.
-/

namespace DailyReport

open Lib

/-- How a run is meant to end. -/
inductive TerminalIntent
  | success
  | partialSuccess
  | error
  deriving DecidableEq, Repr

/-- The context that a run hands over. -/
structure ContextRunRecord where
  contextProfileHash : Text
  status : TerminalIntent
  finalContext : Text
  contextSha256 : Text
  summary : ContextCounts
  decisions : List BudgetedDecision
  deriving DecidableEq

structure BudgetedScanOutcome where
  terminalIntent : TerminalIntent
  fileResults : List FileResultRecord
  parseCacheReceipts : List CacheWriteRecord
  classificationCacheReceipts : List ClassificationCacheWriteRecord
  classifications : Classifications
  diagnostics : List RunDiagnosticRecord
  context : Option ContextRunRecord
  refillAudit : Option RefillAudit

/-! ### Diagnostics -/

/-- A path that does not depend on the current directory. -/
def isAbsolutePath (p : Platform) (path : Text) : Bool :=
  match p with
  | .unix => isRooted p (splitPrefix p path)
  | .windows => isRooted p (splitPrefix p path) && (splitPrefix p path).1.isSome

/-- The warning about an entry that discovery could not read. -/
def discoveryIssueWarning (platform : Platform) (issue : DiscoveryIssue) : Diagnostic where
  errorCode := .discoveryEntryUnreadable
  message := issue.message.take 4096
  retryable := true
  stage := .discovery
  filePath := issue.path.filter (isAbsolutePath platform)
  backend := none

/-- The error of a run that its deadline stopped before anything was included. -/
def deadlineError : Diagnostic :=
  { deadlineWarning with message := lit "work deadline exhausted before any included context" }

/-- A failure of a file, or a file that the deadline stopped. -/
def hasFailure (rendered : ContextBuildOutput) (runtimeClassification : Finset Text)
    (outputs : ParseOutputs) (deadlineExhausted : Bool) : Bool :=
  decide (rendered.errorFileCount > 0) || decide (rendered.timeoutCount > 0) ||
    decide runtimeClassification.Nonempty || decide outputs.runtimeNotParsed.Nonempty ||
    deadlineExhausted

/-- The errors of the rows, which become warnings of the run. -/
def fileErrors (fileResults : List FileResultRecord) : List Diagnostic :=
  fileResults.filterMap FileResultRecord.error

/-- The intent of a run, and its own diagnostics: the deadline, the errors of its files, and the
error that an empty context is explained by. -/
def terminalState (rendered : ContextBuildOutput) (fileResults : List FileResultRecord)
    (runtimeClassification : Finset Text) (outputs : ParseOutputs) (deadlineExhausted : Bool) :
    TerminalIntent × List RunDiagnosticRecord :=
  let failed := hasFailure rendered runtimeClassification outputs deadlineExhausted
  let errors := if failed then fileErrors fileResults else []
  let intent : TerminalIntent :=
    if !failed then .success
    else if rendered.includedFileCount = 0 then .error
    else .partialSuccess
  let warnings := (if deadlineExhausted then [deadlineWarning] else []) ++ errors
  let error : List RunDiagnosticRecord :=
    if intent = .error then
      match errors.head? with
      | some primary => [⟨.error, primary⟩]
      | none => if deadlineExhausted then [⟨.error, deadlineError⟩] else []
    else []
  (intent, warnings.map .warning ++ error)

/-- The warnings of a run before its terminal state: the entries that discovery could not read and
the writes of the classification cache. -/
def earlyWarnings (input : ScheduledRunInput) (passes : PassesOutcome) : List Diagnostic :=
  input.discoveryIssues.map (discoveryIssueWarning input.platform) ++ passes.classificationWarnings

/-! ### Outcomes -/

/-- The outcome of a run with too many files, before anything was prepared. -/
def sourceLimitOutcome (input : ScheduledRunInput) : BudgetedScanOutcome where
  terminalIntent := .error
  fileResults := []
  parseCacheReceipts := []
  classificationCacheReceipts := []
  classifications := ∅
  diagnostics := [⟨.error, {
    errorCode := .sourceFileLimitExceeded
    message := lit "discovery observed " ++ decimal input.discovery.length ++
      lit " source files, exceeding the engine ceiling of " ++ decimal maxSourceFilesPerRun
    retryable := false
    stage := .discovery
    filePath := none
    backend := none }⟩]
  context := none
  refillAudit := none

/-- The outcome of a run whose budget model does not hold. -/
def internalErrorOutcome (passes : PassesOutcome) (diagnostics : List RunDiagnosticRecord)
    (errorCode : ErrorCode) (message : Text) : BudgetedScanOutcome where
  terminalIntent := .error
  fileResults := []
  parseCacheReceipts := passes.state.outputs.parseCacheReceipts
  classificationCacheReceipts := passes.state.outputs.classificationCacheReceipts
  classifications := ∅
  diagnostics := projectWarnings diagnostics ++
    [⟨.error, ⟨errorCode, message.take 4096, false, .context, none, none⟩⟩]
  context := none
  refillAudit := passes.refillAudit

/-- The diagnostics of a run before they are bounded. -/
def runDiagnostics (input : ScheduledRunInput) (passes : PassesOutcome)
    (own : List RunDiagnosticRecord) : List RunDiagnosticRecord :=
  (earlyWarnings input passes ++ passes.state.outputs.cacheWriteWarnings ++
    passes.state.outputs.parseWarnings).map .warning ++ own

/-- A run with a warning is not a full success. -/
def adjustIntent (intent : TerminalIntent) (diagnostics : List RunDiagnosticRecord) :
    TerminalIntent :=
  if intent = .success ∧ (diagnostics.any fun record => !record.isError) = true then .partialSuccess
  else intent

/-- The context that is handed over, unless the run failed or there is none. -/
def contextRecord (digests : Digests) (input : ScheduledRunInput) (intent : TerminalIntent)
    (rendered : ContextBuildOutput) : Option ContextRunRecord :=
  if intent = .error ∨ rendered.content = [] then none
  else some {
    contextProfileHash := input.contextProfileHash
    status := intent
    finalContext := rendered.content
    contextSha256 := digests.sha256Hex rendered.content
    summary := {
      sourceFileCount := rendered.sourceFileCount
      successCount := rendered.successCount
      timeoutCount := rendered.timeoutCount
      includedFileCount := rendered.includedFileCount
      omittedFileCount := rendered.omittedFileCount
      errorFileCount := rendered.errorFileCount
      inputChars := rendered.inputChars
      outputChars := rendered.outputChars }
    decisions := rendered.decisions }

/-- The outcome of a run with rows and a rendered context. -/
def finishedOutcome (digests : Digests) (input : ScheduledRunInput) (passes : PassesOutcome)
    (rendered : ContextBuildOutput) (rows : List FileResultRecord) : BudgetedScanOutcome :=
  let terminal := terminalState rendered rows passes.state.runtime passes.state.outputs
    passes.state.stageDeadlineExhausted
  let diagnostics := projectWarnings (runDiagnostics input passes terminal.2)
  let intent := adjustIntent terminal.1 diagnostics
  { terminalIntent := intent
    fileResults := rows
    parseCacheReceipts := passes.state.outputs.parseCacheReceipts
    classificationCacheReceipts := passes.state.outputs.classificationCacheReceipts
    classifications := passes.state.classifications
    diagnostics := diagnostics
    context := contextRecord digests input intent rendered
    refillAudit := passes.refillAudit }

variable {σ : Type} [UnicodeCase]

/-- Render the context, write the rows, and decide how the run ended. -/
def finishRun (digests : Digests) (input : ScheduledRunInput) (passes : PassesOutcome) :
    Except SchedulerFailure BudgetedScanOutcome := do
  let early := (earlyWarnings input passes).map RunDiagnosticRecord.warning
  let evidence ← passes.state.evidence input
  match buildContext evidence input.profile.context input.profile.reportMode with
  | .error message => .ok (internalErrorOutcome passes early .budgetModelMismatch message)
  | .ok rendered =>
    match enforceRenderedWithinReserved rendered passes.state.admission with
    | .error failure =>
      .ok (internalErrorOutcome passes early failure.diagnostic.errorCode failure.diagnostic.message)
    | .ok () => do
      let rows ← passes.state.fileResults digests input
      return finishedOutcome digests input passes rendered rows

/-- A whole run. -/
def execute (ports : Ports σ) (digests : Digests) (input : ScheduledRunInput) :
    Scheduled σ BudgetedScanOutcome :=
  if input.discovery.length > maxSourceFilesPerRun then pure (sourceLimitOutcome input)
  else do
    let run ← Exec.ofExcept (runContext ports digests input)
    let passes ← runPasses run
    Exec.ofExcept (finishRun digests input passes)

/-! ### Coherence -/

omit [UnicodeCase]

/-- An intent with the diagnostics, the rows and the context that belong to it. -/
structure TerminallyCoherent (intent : TerminalIntent) (diagnostics : List RunDiagnosticRecord)
    (rows : List FileResultRecord) (context : Option ContextRunRecord) : Prop where
  error : intent = .error → diagnostics.countP RunDiagnosticRecord.isError = 1
  success : intent = .success → diagnostics = [] ∧
    ∀ row ∈ rows, row.parseStatus ≠ .error ∧ row.parseStatus ≠ .timeout
  partialSuccess : intent = .partialSuccess →
    (∃ record ∈ diagnostics, record.severity = .warning) ∧
      ∃ record, context = some record ∧ record.finalContext ≠ []

section Projection

variable {diagnostics : List RunDiagnosticRecord}

theorem isError_eq_false {record : RunDiagnosticRecord} :
    record.isError = false ↔ record.severity = .warning := by
  cases record with
  | mk severity diagnostic => cases severity <;> simp [RunDiagnosticRecord.isError]

theorem countP_isError_of_warnings {warnings : List RunDiagnosticRecord}
    (h : ∀ record ∈ warnings, record.isError = false) :
    warnings.countP RunDiagnosticRecord.isError = 0 := by
  rw [List.countP_eq_zero]
  intro record hrecord
  simp [h record hrecord]

/-- The projection is a list of warnings, bounded and empty only if there was none, and then the
errors as they were. -/
theorem projectWarnings_shape (diagnostics : List RunDiagnosticRecord) : ∃ kept,
    projectWarnings diagnostics = kept ++ diagnostics.filter RunDiagnosticRecord.isError ∧
      (∀ record ∈ kept, record.isError = false) ∧ kept.length ≤ 257 ∧
      (kept = [] ↔ ∀ record ∈ diagnostics, record.isError = true) := by
  have hwarning : ∀ record ∈ diagnostics.filter fun record => !record.isError,
      record.isError = false := by
    intro record hrecord
    simpa using (List.mem_filter.1 hrecord).2
  have hnil : (diagnostics.filter fun record => !record.isError) = [] ↔
      ∀ record ∈ diagnostics, record.isError = true := by
    simp [List.filter_eq_nil_iff]
  simp only [projectWarnings]
  split_ifs with hshort
  · exact ⟨_, rfl, hwarning, hshort.trans (by decide), hnil⟩
  · refine ⟨_, rfl, ?_, ?_, ?_⟩
    · intro record hrecord
      rcases List.mem_append.1 hrecord with hrecord | hrecord
      · exact hwarning record (List.mem_of_mem_take hrecord)
      · rw [List.mem_singleton.1 hrecord]
        rfl
    · simp only [List.length_append, List.length_take, List.length_singleton]
      omega
    · rw [← hnil]
      refine iff_of_false (by simp) fun hempty => hshort ?_
      rw [hempty]
      exact Nat.zero_le _

theorem countP_isError_projectWarnings (diagnostics : List RunDiagnosticRecord) :
    (projectWarnings diagnostics).countP RunDiagnosticRecord.isError =
      diagnostics.countP RunDiagnosticRecord.isError := by
  obtain ⟨kept, heq, hkept, -, -⟩ := projectWarnings_shape diagnostics
  rw [heq, List.countP_append, countP_isError_of_warnings hkept, List.countP_filter, zero_add]
  simp

theorem exists_warning_projectWarnings :
    (∃ record ∈ projectWarnings diagnostics, record.severity = .warning) ↔
      ∃ record ∈ diagnostics, record.severity = .warning := by
  obtain ⟨kept, heq, hkept, -, hnil⟩ := projectWarnings_shape diagnostics
  have hall : kept = [] ↔ ¬ ∃ record ∈ diagnostics, record.severity = .warning := by
    rw [hnil]
    simp only [← isError_eq_false, not_exists, not_and, Bool.not_eq_false]
  rw [heq, ← not_iff_not, ← hall]
  constructor
  · intro hnone
    refine List.eq_nil_iff_forall_not_mem.2 fun record hrecord => hnone ?_
    exact ⟨record, List.mem_append_left _ hrecord, isError_eq_false.1 (hkept record hrecord)⟩
  · rintro rfl ⟨record, hrecord, hwarning⟩
    rw [List.nil_append] at hrecord
    have herror := (List.mem_filter.1 hrecord).2
    rw [isError_eq_false.2 hwarning] at herror
    cases herror

theorem projectWarnings_eq_nil_iff : projectWarnings diagnostics = [] ↔ diagnostics = [] := by
  obtain ⟨kept, heq, -, -, hnil⟩ := projectWarnings_shape diagnostics
  rw [heq, List.append_eq_nil_iff, hnil, List.filter_eq_nil_iff]
  constructor
  · rintro ⟨herror, hnone⟩
    exact List.eq_nil_iff_forall_not_mem.2 fun record hrecord =>
      hnone record hrecord (herror record hrecord)
  · rintro rfl
    simp

/-- **Bounding the warnings keeps the classification.** -/
theorem terminallyCoherent_projectWarnings (intent : TerminalIntent)
    (diagnostics : List RunDiagnosticRecord) (rows : List FileResultRecord)
    (context : Option ContextRunRecord) :
    TerminallyCoherent intent (projectWarnings diagnostics) rows context ↔
      TerminallyCoherent intent diagnostics rows context := by
  constructor
  · intro h
    refine ⟨fun hi => ?_, fun hi => ?_, fun hi => ?_⟩
    · rw [← countP_isError_projectWarnings]
      exact h.error hi
    · rw [← projectWarnings_eq_nil_iff]
      exact h.success hi
    · rw [← exists_warning_projectWarnings]
      exact h.partialSuccess hi
  · intro h
    refine ⟨fun hi => ?_, fun hi => ?_, fun hi => ?_⟩
    · rw [countP_isError_projectWarnings]
      exact h.error hi
    · rw [projectWarnings_eq_nil_iff]
      exact h.success hi
    · rw [exists_warning_projectWarnings]
      exact h.partialSuccess hi

end Projection

/-! ### The terminal state -/

section Terminal

variable {rendered : ContextBuildOutput} {rows : List FileResultRecord} {runtime : Finset Text}
  {outputs : ParseOutputs} {deadline : Bool}

/-- A failure shows: the deadline is reported, or a row has an error. -/
def FailureShown (rendered : ContextBuildOutput) (rows : List FileResultRecord)
    (runtime : Finset Text) (outputs : ParseOutputs) (deadline : Bool) : Prop :=
  hasFailure rendered runtime outputs deadline = true → deadline = true ∨ fileErrors rows ≠ []

theorem terminalState_success (h : (terminalState rendered rows runtime outputs deadline).1 =
    .success) : hasFailure rendered runtime outputs deadline = false := by
  simp only [terminalState] at h
  split_ifs at h with hfailed
  simpa using hfailed

/-- A run without failures has no diagnostics of its own. -/
theorem terminalState_own_nil (h : hasFailure rendered runtime outputs deadline = false) :
    (terminalState rendered rows runtime outputs deadline).2 = [] := by
  have hdeadline : deadline = false := by
    simp only [hasFailure, Bool.or_eq_false_iff] at h
    exact h.2
  subst hdeadline
  simp [terminalState, h]

/-- A failed run carries the one error that explains it. -/
theorem terminalState_error (hshown : FailureShown rendered rows runtime outputs deadline)
    (h : (terminalState rendered rows runtime outputs deadline).1 = .error) :
    (terminalState rendered rows runtime outputs deadline).2.countP
      RunDiagnosticRecord.isError = 1 := by
  have hfailed : hasFailure rendered runtime outputs deadline = true := by
    by_contra hnone
    simp [terminalState, Bool.not_eq_true _ ▸ hnone] at h
  have hwarnings : ∀ ds : List Diagnostic,
      (ds.map RunDiagnosticRecord.warning).countP RunDiagnosticRecord.isError = 0 := by
    intro ds
    refine countP_isError_of_warnings fun record hrecord => ?_
    obtain ⟨d, -, rfl⟩ := List.mem_map.1 hrecord
    rfl
  simp only [terminalState] at h ⊢
  rw [List.countP_append, hwarnings, zero_add, if_pos h, if_pos hfailed]
  cases herrors : fileErrors rows with
  | cons primary rest => rfl
  | nil =>
    rcases hshown hfailed with rfl | hne
    · rfl
    · exact absurd herrors hne

/-- A run that failed in part has a warning that says so. -/
theorem terminalState_partial (hshown : FailureShown rendered rows runtime outputs deadline)
    (h : (terminalState rendered rows runtime outputs deadline).1 = .partialSuccess) :
    ∃ record ∈ (terminalState rendered rows runtime outputs deadline).2,
      record.severity = .warning := by
  have hfailed : hasFailure rendered runtime outputs deadline = true := by
    by_contra hnone
    simp [terminalState, Bool.not_eq_true _ ▸ hnone] at h
  simp only [terminalState, if_pos hfailed]
  rcases hshown hfailed with rfl | hne
  · exact ⟨.warning deadlineWarning, by simp, rfl⟩
  · obtain ⟨d, hd⟩ := List.exists_mem_of_ne_nil _ hne
    refine ⟨.warning d, List.mem_append_left _ (List.mem_map_of_mem ?_), rfl⟩
    exact List.mem_append_right _ hd

/-- A run without failures has no failed row. -/
theorem rows_of_no_failure (hcounts : CountsAgree rendered rows)
    (h : hasFailure rendered runtime outputs deadline = false) :
    ∀ row ∈ rows, row.parseStatus ≠ .error ∧ row.parseStatus ≠ .timeout := by
  simp only [hasFailure, Bool.or_eq_false_iff, decide_eq_false_iff_not, not_lt,
    Nat.le_zero] at h
  obtain ⟨⟨⟨⟨herror, htimeout⟩, -⟩, -⟩, -⟩ := h
  rw [hcounts.error, countRows, List.countP_eq_zero] at herror
  rw [hcounts.timeout, countRows, List.countP_eq_zero] at htimeout
  exact fun row hrow => ⟨by simpa using herror row hrow, by simpa using htimeout row hrow⟩

end Terminal

/-! ### Every outcome -/

section Outcomes

variable {run : RunContext σ} {digests : Digests} {input : ScheduledRunInput}
  {passes : PassesOutcome} {outcome : BudgetedScanOutcome}

theorem internalErrorOutcome_coherent (warnings : List Diagnostic) (errorCode : ErrorCode)
    (message : Text) :
    let outcome := internalErrorOutcome passes (warnings.map .warning) errorCode message
    TerminallyCoherent outcome.terminalIntent outcome.diagnostics outcome.fileResults
      outcome.context := by
  refine ⟨fun _ => ?_, nofun, nofun⟩
  simp only [internalErrorOutcome]
  rw [List.countP_append, countP_isError_projectWarnings, countP_isError_of_warnings]
  · rfl
  · intro record hrecord
    obtain ⟨d, -, rfl⟩ := List.mem_map.1 hrecord
    rfl

/-- An outcome with rows is coherent where the failures show. -/
theorem finishedOutcome_coherent {rendered : ContextBuildOutput} {rows : List FileResultRecord}
    (hshown : FailureShown rendered rows passes.state.runtime passes.state.outputs
      passes.state.stageDeadlineExhausted)
    (hcounts : CountsAgree rendered rows) (hcontent : rendered.content ≠ []) :
    let outcome := finishedOutcome digests input passes rendered rows
    TerminallyCoherent outcome.terminalIntent outcome.diagnostics outcome.fileResults
      outcome.context := by
  simp only [finishedOutcome]
  set terminal := terminalState rendered rows passes.state.runtime passes.state.outputs
    passes.state.stageDeadlineExhausted with hterminal
  set diagnostics := projectWarnings (runDiagnostics input passes terminal.2) with hdiagnostics
  have hwarnings : ∀ record ∈ (earlyWarnings input passes ++
      passes.state.outputs.cacheWriteWarnings ++ passes.state.outputs.parseWarnings).map
        RunDiagnosticRecord.warning, record.isError = false := by
    intro record hrecord
    obtain ⟨d, -, rfl⟩ := List.mem_map.1 hrecord
    rfl
  refine ⟨fun hintent => ?_, fun hintent => ?_, fun hintent => ?_⟩
  · -- only the terminal state ends a run as an error
    have hterm : terminal.1 = .error := by
      unfold adjustIntent at hintent
      split_ifs at hintent
      exact hintent
    rw [hdiagnostics, countP_isError_projectWarnings, runDiagnostics, List.countP_append,
      countP_isError_of_warnings hwarnings, zero_add]
    exact terminalState_error hshown hterm
  · unfold adjustIntent at hintent
    split_ifs at hintent with hadjusted
    have hfailure := terminalState_success hintent
    refine ⟨?_, rows_of_no_failure hcounts hfailure⟩
    have hnone : ∀ record ∈ diagnostics, record.isError = true := by
      simpa [hintent] using hadjusted
    rw [hdiagnostics, projectWarnings_eq_nil_iff, runDiagnostics, terminalState_own_nil hfailure,
      List.append_nil]
    refine List.eq_nil_iff_forall_not_mem.2 fun record hrecord => ?_
    have hsome : ∃ record ∈ diagnostics, record.severity = .warning := by
      rw [hdiagnostics, exists_warning_projectWarnings]
      exact ⟨record, List.mem_append_left _ hrecord, isError_eq_false.1 (hwarnings record hrecord)⟩
    obtain ⟨kept, hkept, hwarning⟩ := hsome
    rw [← isError_eq_false, hnone kept hkept] at hwarning
    cases hwarning
  · refine ⟨?_, ?_⟩
    · unfold adjustIntent at hintent
      split_ifs at hintent with hadjusted
      · obtain ⟨record, hrecord, hkind⟩ := List.any_eq_true.1 hadjusted.2
        exact ⟨record, hrecord, isError_eq_false.1 (by simpa using hkind)⟩
      · rw [hdiagnostics, exists_warning_projectWarnings]
        obtain ⟨record, hrecord, hwarning⟩ := terminalState_partial hshown hintent
        exact ⟨record, List.mem_append_right _ hrecord, hwarning⟩
    · rw [hintent, contextRecord, if_neg (by simpa using hcontent)]
      exact ⟨_, rfl, hcontent⟩

variable [UnicodeCase]

/-- A failed file of the rendered context shows in its row. -/
theorem fileErrors_ne_nil {evidence : List ContextFileEvidence} {rendered : ContextBuildOutput}
    {rows : List FileResultRecord} {profile : ContextProfile} {reportMode : ReportMode}
    (hrendered : buildContext evidence profile reportMode = .ok rendered)
    (houtcomes : evidence.map ContextFileEvidence.outcome = rows.map FileResultRecord.outcome)
    (hfailed : rendered.errorFileCount > 0 ∨ rendered.timeoutCount > 0) : fileErrors rows ≠ [] := by
  have hcounts := countsAgree_of_outcomes hrendered houtcomes
  rw [hcounts.error, hcounts.timeout, countRows, countRows, gt_iff_lt, gt_iff_lt,
    List.countP_pos_iff, List.countP_pos_iff] at hfailed
  obtain ⟨row, hrow, hstatus⟩ : ∃ row ∈ rows,
      row.parseStatus = .error ∨ row.parseStatus = .timeout := by
    rcases hfailed with ⟨row, hrow, hs⟩ | ⟨row, hrow, hs⟩
    · exact ⟨row, hrow, .inl (of_decide_eq_true hs)⟩
    · exact ⟨row, hrow, .inr (of_decide_eq_true hs)⟩
  -- the evidence of the row was validated, so it has a diagnostic
  obtain ⟨e, he, heq⟩ : ∃ e ∈ evidence, e.outcome = row.outcome := by
    have hmem : row.outcome ∈ evidence.map ContextFileEvidence.outcome :=
      houtcomes ▸ List.mem_map_of_mem hrow
    simpa using hmem
  have hvalid : e.Valid := by
    unfold buildContext at hrendered
    obtain ⟨decided, hdecided, -⟩ := bind_eq_ok.1 hrendered
    exact ContextFileEvidence.valid_of_validate ((decideFiles_eq_ok.1 hdecided).2 e he)
  have hparse : e.parseStatus = row.parseStatus := congrArg FileOutcome.parseStatus heq
  have hcode : e.error.map Diagnostic.errorCode = row.error.map Diagnostic.errorCode :=
    congrArg FileOutcome.errorCode heq
  have hsome := hvalid.error_isSome (hparse ▸ hstatus)
  rw [← Option.isSome_map (f := Diagnostic.errorCode), hcode, Option.isSome_map] at hsome
  obtain ⟨d, hd⟩ := Option.isSome_iff_exists.1 hsome
  exact List.ne_nil_of_mem (List.mem_filterMap.2 ⟨row, hrow, hd⟩)

/-- The run's own context is never empty. -/
theorem content_ne_nil {evidence : List ContextFileEvidence} {rendered : ContextBuildOutput}
    {profile : ContextProfile} {reportMode : ReportMode}
    (h : buildContext evidence profile reportMode = .ok rendered) : rendered.content ≠ [] := by
  unfold buildContext at h
  obtain ⟨decided, -, h⟩ := bind_eq_ok.1 h
  obtain ⟨inputChars, -, h⟩ := bind_eq_ok.1 h
  obtain ⟨⟨state, content⟩, hrender, h⟩ := bind_eq_ok.1 h
  simp only [pure, Except.pure, Except.ok.injEq] at h
  subst h
  unfold renderDecided at hrender
  obtain ⟨looped, -, hrender⟩ := bind_eq_ok.1 hrender
  obtain ⟨sections, -, hrender⟩ := bind_eq_ok.1 hrender
  dsimp only at hrender
  split_ifs at hrender with hlong hempty
  simp only [pure, Except.pure, Except.ok.injEq, Prod.mk.injEq] at hrender
  rw [← hrender.2]
  exact hempty

theorem finishRun_coherent {state : RefillState} (hcoherent : Coherent run state)
    (hmarked : Marked run state passes.state) (hflagged : passes.state.Flagged)
    (h : finishRun run.digests run.input passes = .ok outcome) :
    TerminallyCoherent outcome.terminalIntent outcome.diagnostics outcome.fileResults
      outcome.context := by
  unfold finishRun at h
  obtain ⟨evidence, hevidence, h⟩ := bind_eq_ok.1 h
  split at h
  · cases h
    exact internalErrorOutcome_coherent _ _ _
  · rename_i rendered hrendered
    split at h
    · cases h
      exact internalErrorOutcome_coherent _ _ _
    · obtain ⟨rows, hrows, h⟩ := bind_eq_ok.1 h
      cases h
      have houtcomes := hmarked.outcomes hcoherent
      rw [hevidence, hrows] at houtcomes
      have houtcomes := Except.ok.inj houtcomes
      refine finishedOutcome_coherent (fun hfailed => ?_) (countsAgree_of_outcomes hrendered houtcomes)
        (content_ne_nil hrendered)
      simp only [hasFailure, Bool.or_eq_true, decide_eq_true_eq] at hfailed
      rcases hfailed with (((herror | htimeout) | hruntime) | hruntime) | hdeadline
      · exact .inr (fileErrors_ne_nil hrendered houtcomes (.inl herror))
      · exact .inr (fileErrors_ne_nil hrendered houtcomes (.inr htimeout))
      · exact .inl (hflagged (.inl hruntime))
      · exact .inl (hflagged (.inr hruntime))
      · exact .inl hdeadline

/-- **The intent and the diagnostics of every outcome fit together**: an error comes with exactly
one error, a success without warnings and without failed files, a partial success with a warning and
a context.  Bounding the warnings keeps each of these, for any diagnostics. -/
theorem execute_coherent {ports : Ports σ} {digests : Digests} {input : ScheduledRunInput}
    (hinput : input.Distinct) {s s' : σ}
    (h : execute ports digests input s = .ok (outcome, s')) :
    TerminallyCoherent outcome.terminalIntent outcome.diagnostics outcome.fileResults
        outcome.context ∧
      ∀ intent diagnostics rows context,
        (TerminallyCoherent intent (projectWarnings diagnostics) rows context ↔
            TerminallyCoherent intent diagnostics rows context) ∧
          ((projectWarnings diagnostics).countP fun record => !record.isError) ≤ 257 := by
  refine ⟨?_, fun intent diagnostics rows context =>
    ⟨terminallyCoherent_projectWarnings intent diagnostics rows context, ?_⟩⟩
  · unfold execute at h
    split_ifs at h with hmany
    · obtain ⟨rfl, -⟩ := Exec.pure_eq_ok.1 h
      exact ⟨fun _ => rfl, nofun, nofun⟩
    · obtain ⟨run, t, hrun, h⟩ := Exec.bind_eq_ok.1 h
      obtain ⟨passes, t', hpasses, h⟩ := Exec.bind_eq_ok.1 h
      have hcontext : runContext ports digests input = .ok run :=
        Ensures.ofExcept (Q := fun a => runContext ports digests input = .ok a) (fun _ h => h) hrun
      have hfinish : finishRun digests input passes = .ok outcome :=
        Ensures.ofExcept (Q := fun a => finishRun digests input passes = .ok a) (fun _ h => h) h
      obtain ⟨-, rfl, rfl, hconcurrency⟩ := runContext_eq_ok hcontext
      obtain ⟨state, hcoherent, hmarked⟩ := runPasses_spec hinput hconcurrency hpasses
      exact finishRun_coherent hcoherent hmarked (runPasses_flagged hpasses) hfinish
  · obtain ⟨kept, heq, hkept, hlen, -⟩ := projectWarnings_shape diagnostics
    have hzero : ((diagnostics.filter RunDiagnosticRecord.isError).countP
        fun record => !record.isError) = 0 := by
      rw [List.countP_eq_zero]
      intro record hrecord
      simp [(List.mem_filter.1 hrecord).2]
    rw [heq, List.countP_append, hzero, add_zero]
    exact (List.countP_le_length).trans hlen

end Outcomes

/-! ### The run over one note -/

theorem execute_note :
    (@execute _ asciiCase quietPorts constantDigests noteInput ()).toOption.isSome = true := by
  decide +kernel

/-- The run over the note is coherent. -/
theorem execute_coherent_note : ∃ outcome s',
    @execute _ asciiCase quietPorts constantDigests noteInput () = .ok (outcome, s') ∧
      TerminallyCoherent outcome.terminalIntent outcome.diagnostics outcome.fileResults
        outcome.context := by
  cases hrun : @execute _ asciiCase quietPorts constantDigests noteInput () with
  | error e =>
    have := execute_note
    rw [hrun] at this
    cases this
  | ok result =>
    exact ⟨result.1, result.2, rfl, (@execute_coherent _ _ asciiCase _ _ _
      (show (noteInput.discovery.map DiscoveredFileOut.fileIdentity).Nodup by decide +kernel) _ _
      hrun).1⟩

end DailyReport
