import DailyReport.Scanner.Budget
import DailyReport.Scanner.Decision

/-!
# The context renderer

`buildContext` renders the decided files into one markdown text: the fixed sections, one section
for each included file, the omitted summary and the parse issues.  Every section that is added has
to leave room for the footer; the omitted summary has its own reservation, which its detail rows,
its aggregate rows and its catch-all row share.
-/

namespace DailyReport

open Lib

/-- The blank line between sections. -/
def sectionSeparator : Text := lit "\n\n"

def joinSections (sections : List Text) : Text :=
  trimEnd (joinWith sectionSeparator (sections.map trimEnd)) ++ lit "\n"

def parseFooter : Text := lit "## 解析问题\n- 未发现解析问题。"

/-- A decision with the identity of its file. -/
structure BudgetedDecision where
  fileIdentity : Text
  decision : ContextDecision
  deriving DecidableEq

structure ContextBuildOutput where
  content : Text
  sourceFileCount : ℕ
  successCount : ℕ
  timeoutCount : ℕ
  includedFileCount : ℕ
  omittedFileCount : ℕ
  errorFileCount : ℕ
  inputChars : ℕ
  outputChars : ℕ
  metadataOnlyCount : ℕ
  compressedFileCount : ℕ
  truncatedFileCount : ℕ
  decisions : List BudgetedDecision
  renderedByIdentity : AList fun _ : Text => ℕ

/-! ### The fixed sections -/

def reportModeText : ReportMode → Text
  | .daily => lit "daily"
  | .weekly => lit "weekly"
  | .monthly => lit "monthly"

def contextTitle : Text := lit "# 文件证据上下文"

def evidenceTitle : Text := lit "## 文件证据"

def renderRunSummary (reportMode : ReportMode) (profile : ContextProfile) (sourceFileCount : ℕ)
    (successText failureText : Text) : Text :=
  lit "## 本轮摘要\n- 报告模式: " ++ reportModeText reportMode ++
    lit "\n- 压缩 profile: " ++ profile.profileName ++
    lit "\n- 扫描文件数: " ++ decimal sourceFileCount ++
    lit "\n- 成功解析数: " ++ successText ++
    lit "\n- 失败解析数: " ++ failureText ++
    lit "\n- 全局上下文预算: " ++ decimal profile.globalMaxChars ++
    lit "\n- 单文件正文预算: " ++ decimal profile.perFileMaxChars ++
    lit "\n- 压缩策略: " ++ profile.compressionPolicyVersion

def renderNotice (profile : ContextProfile) : Text :=
  lit "## 重要提示\n- 以下内容来自本地 scanner 输出；Rust context core 不重新读取文件、不调用 LLM。" ++
    lit "\n- 正文块受单文件预算 " ++ decimal profile.perFileMaxChars ++
    lit " 字符限制；超出全局上下文预算的文件由确定性准入计划省略，并在省略摘要中汇总。"

/-- The fixed sections with the counts of the run written as given. -/
def contextSections (profile : ContextProfile) (reportMode : ReportMode) (sourceFileCount : ℕ)
    (successText failureText : Text) : List Text :=
  [contextTitle, renderRunSummary reportMode profile sourceFileCount successText failureText,
   renderNotice profile, evidenceTitle]

/-- The fixed sections as the budget model prices them, with counts of the largest width. -/
def fixedContextSections (profile : ContextProfile) (reportMode : ReportMode)
    (sourceFileCount : ℕ) : List Text :=
  contextSections profile reportMode sourceFileCount (List.replicate maxU64Digits '9')
    (List.replicate maxU64Digits '9')

/-! ### Shortening a body -/

def omittedMarkerReserve : ℕ := 64

def headRatioPerMille : ℕ := 400

def omittedMarker (pre : Text) (omitted : ℕ) : Text :=
  lit "…（已省略" ++ pre ++ lit "约 " ++ decimal omitted ++ lit " 字符）…"

/-- The position after the last line break before `position`, or `position`. -/
def newlineBoundaryAtOrBefore (content : Text) (position : ℕ) : ℕ :=
  match (content.take position).reverse.findIdx? (· == '\n') with
  | some back => min position content.length - back
  | none => position

/-- The position after the first line break from `position` on, or `position`. -/
def newlineBoundaryAtOrAfter (content : Text) (position : ℕ) : ℕ :=
  match (content.drop position).findIdx? (· == '\n') with
  | some index => position + index + 1
  | none => position

def takeHeadAndTail (content : Text) (limit : ℕ) : Text :=
  if limit < omittedMarkerReserve then content.take limit
  else
    let total := countChars content
    let available := max (limit - omittedMarkerReserve) 1
    let headBudget := available * headRatioPerMille / 1000
    let tailBudget := available - headBudget
    let head := content.take (newlineBoundaryAtOrBefore content headBudget)
    let tail := content.drop (newlineBoundaryAtOrAfter content (total - tailBudget))
    head ++ omittedMarker (lit "中部") (total - countChars head - countChars tail) ++ tail

def takeLogTail (content : Text) (limit : ℕ) : Text :=
  if limit < omittedMarkerReserve then content.take limit
  else
    let total := countChars content
    let available := max (limit - omittedMarkerReserve) 1
    let tail := content.drop (total - available)
    omittedMarker (lit "头部") (total - countChars tail) ++ tail

/-! ### File sections -/

/-- The body of a file and whether it was shortened to the per-file budget. -/
def shortenBody (evidence : ContextFileEvidence) (limit : ℕ) : Text :=
  if evidence.extension = lit ".log" then takeLogTail evidence.content limit
  else takeHeadAndTail evidence.content limit

def truncatedNote : Text := lit "\n- 内容已按单文件预算或解析预算截断"

def renderMetadataSection (evidence : ContextFileEvidence) (decision : ContextDecision) : Text :=
  lit "### " ++ decision.relativePath ++ lit "\n- action: metadata_only\n- reason: " ++
    decision.reason ++ lit "\n- parser_backend: " ++ evidence.parserBackend ++
    lit "\n- worker_lane: " ++ evidence.workerLane.wireName ++ lit "\n- file_type: " ++
    evidence.extension ++ lit "\n- size_bytes: " ++ decimal (evidence.sizeBytes.getD 0) ++
    lit "\n- input_chars: ~" ++ decimal decision.inputChars ++
    lit "\n- body: omitted_by_metadata_only_policy"

def renderBodySection (evidence : ContextFileEvidence) (decision : ContextDecision)
    (body : Text) : Text :=
  lit "### " ++ decision.relativePath ++ lit "\n- action: " ++ decision.action.wireName ++
    lit "\n- reason: " ++ decision.reason ++ lit "\n- parser_backend: " ++
    evidence.parserBackend ++ lit "\n- worker_lane: " ++ evidence.workerLane.wireName ++
    lit "\n- input_chars: " ++ decimal decision.inputChars ++ lit "\n- output_chars: " ++
    decimal decision.outputChars ++ (if decision.truncated then truncatedNote else []) ++
    lit "\n```text\n" ++ body ++ lit "\n```"

/-- The section of an included file, with the decision it updates. -/
def renderFileSection (evidence : ContextFileEvidence) (decision : ContextDecision)
    (profile : ContextProfile) : Text × ContextDecision :=
  if decision.action = .metadataOnly then
    (renderMetadataSection evidence { decision with outputChars := 0 },
      { decision with outputChars := 0 })
  else if countChars evidence.content > profile.perFileMaxChars then
    let body := shortenBody evidence profile.perFileMaxChars
    let decision :=
      { decision with action := .compress, truncated := true, outputChars := countChars body }
    (renderBodySection evidence decision body, decision)
  else
    let decision := { decision with outputChars := countChars evidence.content }
    (renderBodySection evidence decision evidence.content, decision)

/-! ### Appending sections -/

def canAppendWithFooter (sections : List Text) (candidate : Text) (globalBudget : ℕ) : Bool :=
  decide (countChars (joinSections (sections ++ [candidate, parseFooter])) ≤ globalBudget)

def appendIfFits (sections : List Text) (candidate : Text) (globalBudget : ℕ) : List Text :=
  if countChars (joinSections (sections ++ [candidate])) ≤ globalBudget then
    sections ++ [candidate]
  else sections

/-! ### The omitted summary -/

structure OmittedRow where
  relativePath : Text
  extension : Text
  reason : Text
  inputChars : ℕ
  inDetailSlot : Bool
  deriving DecidableEq

def OmittedRow.detailLine (row : OmittedRow) : Text :=
  lit "- " ++ row.relativePath ++ lit " | action=omit | reason=" ++ row.reason ++
    lit " | input_chars=~" ++ decimal row.inputChars

/-- Append the detail rows, each of which has to fit the reservation. -/
def appendDetailRows (reservation : ℕ) : ℕ → List OmittedRow → Except Text (List Text × ℕ)
  | used, [] => .ok ([], used)
  | used, row :: rows =>
    if used + (countChars row.detailLine + 1) ≤ reservation then do
      let (lines, used) ← appendDetailRows reservation (used + (countChars row.detailLine + 1)) rows
      return (row.detailLine :: lines, used)
    else
      .error (budgetModelMismatch (lit "pre-selected omitted detail exceeds its reservation"))

/-- The rows of one reason and extension. -/
structure OmittedGroup where
  reason : Text
  extension : Text
  count : ℕ
  deriving DecidableEq

/-- The groups in `(reason, extension)` order. -/
def omittedGroups (omitted : List OmittedRow) : List OmittedGroup :=
  let keys := omitted.map fun row => (row.reason, row.extension)
  (sortByKey (fun key : Text × Text => toLex key) keys.dedup).map fun key =>
    ⟨key.1, key.2, keys.count key⟩

def OmittedGroup.line (group : OmittedGroup) : Text :=
  lit "- " ++ group.reason ++ lit " | " ++ group.extension ++ lit " | action=omit | count=" ++
    decimal group.count

/-- Characters a group adds to the summary. -/
def OmittedGroup.cost (group : OmittedGroup) : ℕ := countChars group.line + 1

/-- The first lines of the summary. -/
def omittedSummaryHeader (omitted : List OmittedRow) : List Text :=
  [lit "## 省略文件摘要", lit "- 省略文件数: " ++ decimal omitted.length]

/-- The catch-all row of the groups that found no room. -/
def catchAllRow (reservation used : ℕ) (skipped : List OmittedGroup) : Except Text (List Text) :=
  let otherCount := (skipped.map OmittedGroup.count).sum
  if otherCount > 0 then
    if used + (countChars (omittedCatchAll (decimal otherCount)) + 1) ≤ reservation then
      .ok [omittedCatchAll (decimal otherCount)]
    else
      .error (budgetModelMismatch (lit "mandatory omitted catch-all exceeds its reservation"))
  else .ok []

/-- The lines of the omitted summary. -/
def omittedSummaryLines (omitted : List OmittedRow) (reservation : ℕ) :
    Except Text (List Text) := do
  let header := omittedSummaryHeader omitted
  let (details, used) ← appendDetailRows reservation
    (countChars (joinWith (lit "\n") header) + sectionSeparatorChars)
    (omitted.filter OmittedRow.inDetailSlot)
  let fill := fillWithin OmittedGroup.cost reservation used (omittedGroups omitted)
  let other ← catchAllRow reservation fill.used fill.skipped
  return header ++ details ++ fill.taken.map OmittedGroup.line ++ other

def appendOmittedSummary (sections : List Text) (omitted : List OmittedRow) (reservation : ℕ)
    (globalBudget : ℕ) : Except Text (List Text) :=
  if omitted = [] then .ok sections
  else do
    let lines ← omittedSummaryLines omitted reservation
    let summary := joinWith (lit "\n") lines
    if countChars summary > reservation then
      .error (budgetModelMismatch (lit "omitted summary exceeds its reservation"))
    else if canAppendWithFooter sections summary globalBudget = false then
      .error (budgetModelMismatch (lit "omitted summary exceeds the global context budget"))
    else .ok (sections ++ [summary])

/-! ### The parse issues -/

def issueSection (issues : List Text) : Text :=
  if issues = [] then parseFooter else lit "## 解析问题\n" ++ joinWith (lit "\n") issues

def appendParseIssues (sections : List Text) (issues : List Text) (globalBudget : ℕ) :
    List Text :=
  appendIfFits sections (issueSection issues) globalBudget

/-! ### The loop over the decided files -/

structure RenderState where
  sections : List Text
  decisions : List BudgetedDecision
  renderedByIdentity : AList fun _ : Text => ℕ
  parseIssues : List Text
  omittedFiles : List OmittedRow
  includedFileCount : ℕ
  metadataOnlyCount : ℕ
  compressedFileCount : ℕ

/-- The error code of a failed file as the context shows it. -/
def issueCode (evidence : ContextFileEvidence) : Text :=
  match evidence.error with
  | some error => error.errorCode.wireName
  | none => lit "UNKNOWN_ERROR"

/-- The line of a failed file. -/
def issueLine (item : DecidedFile) : Text :=
  lit "- " ++ item.decision.relativePath ++ lit " | reason=" ++ item.decision.reason ++
    lit " | error=" ++ issueCode item.evidence

def omittedRow (plan : OmittedSummaryPlan) (item : DecidedFile) : OmittedRow where
  relativePath := item.decision.relativePath
  extension := item.evidence.extension
  reason := item.decision.reason
  inputChars := item.decision.inputChars
  inDetailSlot := plan.detailSlots.any fun slot => slot.fileIdentity == item.evidence.fileIdentity

/-- Render one decided file. -/
def renderStep (plan : OmittedSummaryPlan) (profile : ContextProfile) (state : RenderState)
    (item : DecidedFile) : Except Text RenderState :=
  match item.decision.action with
  | .omit =>
    .ok { state with
      omittedFiles := state.omittedFiles ++ [omittedRow plan item]
      decisions := state.decisions ++
        [⟨item.evidence.fileIdentity, { item.decision with outputChars := 0 }⟩] }
  | .error =>
    let rendered := countChars (issueLine item) + 1
    .ok { state with
      parseIssues := state.parseIssues ++ [issueLine item]
      renderedByIdentity := state.renderedByIdentity.insert item.evidence.fileIdentity rendered
      decisions := state.decisions ++
        [⟨item.evidence.fileIdentity, { item.decision with outputChars := rendered }⟩] }
  | _ =>
    let section' := renderFileSection item.evidence item.decision profile
    if canAppendWithFooter state.sections section'.1 profile.globalMaxChars then
      .ok { state with
        sections := state.sections ++ [section'.1]
        includedFileCount := state.includedFileCount + 1
        metadataOnlyCount := state.metadataOnlyCount +
          (if section'.2.action = .metadataOnly then 1 else 0)
        compressedFileCount := state.compressedFileCount +
          (if section'.2.action = .compress then 1 else 0)
        renderedByIdentity :=
          state.renderedByIdentity.insert item.evidence.fileIdentity (countChars section'.1)
        decisions := state.decisions ++ [⟨item.evidence.fileIdentity, section'.2⟩] }
    else
      .error (budgetModelMismatch (lit "admitted file section exceeds the global context budget"))

/-- The section of a context without included files. -/
def noEvidence : Text := lit "无文件证据"

/-- Sum of the input characters, unless it overflows. -/
def totalInputChars (decided : List DecidedFile) : Except Text ℕ :=
  decided.foldlM (fun total item =>
    match checkedAdd total item.decision.inputChars with
    | some total => .ok total
    | none => .error (lit "context input characters overflow")) 0

/-- Number of decided files with a parse status. -/
def countStatus (decided : List DecidedFile) (status : ParseStatus) : ℕ :=
  decided.countP fun item => item.evidence.parseStatus = status

section

variable [UnicodeCase]

/-- The detail slots selected for the decided files. -/
def omittedPlan (decided : List DecidedFile) (profile : ContextProfile) : OmittedSummaryPlan :=
  OmittedSummaryPlan.build
    (decided.map fun item =>
      ⟨item.evidence.fileIdentity, item.evidence.relativePath, item.evidence.extension⟩)
    profile.globalMaxChars

/-- The state before the first decided file. -/
def initialRenderState (decided : List DecidedFile) (profile : ContextProfile)
    (reportMode : ReportMode) : RenderState where
  sections := contextSections profile reportMode decided.length
    (decimal (countStatus decided .success))
    (decimal (saturatingAdd (countStatus decided .timeout) (countStatus decided .error)))
  decisions := []
  renderedByIdentity := ∅
  parseIssues := []
  omittedFiles := []
  includedFileCount := 0
  metadataOnlyCount := 0
  compressedFileCount := 0

/-- Render the decided files, then the omitted summary and the parse issues. -/
def renderDecided (decided : List DecidedFile) (profile : ContextProfile)
    (reportMode : ReportMode) : Except Text (RenderState × Text) := do
  let plan := omittedPlan decided profile
  let state ← decided.foldlM (renderStep plan profile)
    (initialRenderState decided profile reportMode)
  let sections :=
    if state.includedFileCount = 0 then
      appendIfFits state.sections noEvidence profile.globalMaxChars
    else state.sections
  let sections ← appendOmittedSummary sections state.omittedFiles plan.reservation
    profile.globalMaxChars
  let content := joinSections
    (appendParseIssues sections state.parseIssues profile.globalMaxChars)
  if countChars content > profile.globalMaxChars then
    .error (budgetModelMismatch (lit "rendered context exceeds the global budget"))
  else if content = [] then .error (lit "context budget produced an empty result")
  else return (state, content)

def buildContext (evidence : List ContextFileEvidence) (profile : ContextProfile)
    (reportMode : ReportMode) : Except Text ContextBuildOutput := do
  let decided ← decideFiles evidence profile
  let inputChars ← totalInputChars decided
  let (state, content) ← renderDecided decided profile reportMode
  return {
    content := content
    sourceFileCount := decided.length
    successCount := countStatus decided .success
    timeoutCount := countStatus decided .timeout
    includedFileCount := state.includedFileCount
    omittedFileCount := decided.length - countStatus decided .success -
      countStatus decided .timeout - countStatus decided .error
    errorFileCount := countStatus decided .error
    inputChars := inputChars
    outputChars := countChars content
    metadataOnlyCount := state.metadataOnlyCount
    compressedFileCount := state.compressedFileCount
    truncatedFileCount := state.decisions.countP fun record => record.decision.truncated
    decisions := state.decisions
    renderedByIdentity := state.renderedByIdentity }

end

end DailyReport
