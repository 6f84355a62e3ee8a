import DailyReport.Personal.Compaction
import DailyReport.Personal.Prepare

/-!
# Finishing a personal report

`finish` makes the report of a frozen input: it generates the summary, records what is missing as
gaps, and leaves items out while the rendered report is too large.

* `fitReport_keeps` : the loop leaves out what is no next step;
* `finish_keepsNextSteps` : **a report that is published has items of the draft with every next step,
  or no items and a gap with the code of the error for which there is no summary**.
-/

namespace DailyReport.Personal

open Lib Reports

/-! ### Reports -/

structure PersonalReport where
  context : RunContext
  rootAlias : Text
  quality : Text
  sources : List ReportSource
  items : List PersonalItem
  evidence : List (Text × List EvidenceRef)
  selection : SelectionSummary
  gaps : List CoverageGap
  userNotes : Text
  /-- The text of the attachment with the evidence. -/
  evidenceAttachment : Option Text

/-- `SelectionSummary::partial`. -/
def SelectionSummary.isPartial (summary : SelectionSummary) : Bool :=
  summary.incompleteInventory ||
    [lit "budget", lit "read_failed", lit "comparison_unavailable", lit "no_usable_text"].any
      fun key => (summary.omissions.lookup key).any fun n => decide (0 < n)

def Selection.userNotes (selection : Selection) : Text :=
  ((selection.materials.find? Material.isUser).map Material.text).getD []

def PersonalReport.fromSelection (context : RunContext) (rootAlias : Text) (selection : Selection) :
    PersonalReport where
  context := context
  rootAlias := rootAlias
  quality :=
    if selection.materials = [] ∧ selection.gaps = [] ∧ selection.summary.isPartial = false then
      lit "no_changes"
    else lit "partial"
  sources := Personal.sources selection
  items := []
  evidence := (selection.materials.filter fun m => decide (m.source.sourceKind = lit "file")).map
    fun m => (m.source.sourceId, m.evidence)
  selection := selection.summary
  gaps := selection.gaps
  userNotes := selection.userNotes
  evidenceAttachment := none

/-- Keep the sources of the items, and the user. -/
def PersonalReport.retainCited (report : PersonalReport) : PersonalReport :=
  let ids := report.items.flatMap PersonalItem.sourceIds
  { report with
    sources := report.sources.filter fun s => decide (s.sourceId ∈ ids ∨ s.sourceId = userInput)
    evidence := report.evidence.filter fun entry => decide (entry.1 ∈ ids) }

def PersonalReport.withGap (report : PersonalReport) (code : Text) (stage message : String) :
    PersonalReport :=
  { report with gaps := report.gaps ++ [.new code stage none message] }

/-! ### Rendering -/

/-- The template engine, with the checks of a report that come before it. -/
class Rendering where
  attachment : Text → PersonalReport → Except ReportError (Option Text)
  body : Text → PersonalReport → Except ReportError Text

def PersonalReport.outputBytes (report : PersonalReport) (markdown : Text) : ℕ :=
  byteLength markdown + byteLength (report.evidenceAttachment.getD [])

def reduced : Text := lit "PERSONAL_OUTPUT_REDUCED"

def reportTooLarge (message : String) : ReportError := reportError "PERSONAL_REPORT_TOO_LARGE" message

/-- The items of a report that is too large, without one of them. -/
def reduceReportItems (selection : Selection) (guarded : Bool) (items : List PersonalItem) :
    Except ReportError (List PersonalItem) :=
  if items.length ≤ 1 then
    .error (reportTooLarge "完整事项及其依据超过报告上限，未发布不完整摘要")
  else if guarded then
    match omitLowestPriority items selection with
    | none => .error (reportTooLarge "下一步计划及其完整依据超过报告上限，未删除计划或截断依据")
    | some items => .ok items
  else .ok items.dropLast

theorem reduceReportItems_length {selection : Selection} {guarded : Bool}
    {items items' : List PersonalItem}
    (h : reduceReportItems selection guarded items = .ok items') : items'.length < items.length := by
  unfold reduceReportItems at h
  split_ifs at h with hshort hguarded
  · split at h
    · cases h
    · rename_i rest homit
      cases h
      have hlength := omitLowestPriority_length homit
      omega
  · cases h
    rw [List.length_dropLast]
    omega

/-- A report without one of its items. -/
def PersonalReport.reduce (report : PersonalReport) (items : List PersonalItem) : PersonalReport :=
  let smaller := { report with items := items, quality := lit "partial" }
  let noted :=
    if smaller.gaps.any fun gap => decide (gap.code = reduced) then smaller
    else smaller.withGap reduced "publish" "部分完整事项及依据因报告大小限制未展开。"
  noted.retainCited

theorem PersonalReport.reduce_items (report : PersonalReport) (items : List PersonalItem) :
    (report.reduce items).items = items := by
  unfold reduce
  simp only
  split_ifs <;> rfl

theorem PersonalReport.mem_gaps_reduce {report : PersonalReport} {items : List PersonalItem}
    {gap : CoverageGap} (h : gap ∈ report.gaps) : gap ∈ (report.reduce items).gaps := by
  unfold reduce
  simp only
  split_ifs
  · exact h
  · exact List.mem_append_left _ h

section Finishing

section Rendered

variable [Rendering]

/-- The attachment of a report, and its body if both are within the limit. -/
def renderWithin (template : Text) (report : PersonalReport) :
    Except ReportError (Option Text × Option Text) := do
  let attachment ← Rendering.attachment template { report with evidenceAttachment := none }
  let attached := { report with evidenceAttachment := attachment }
  if attached.outputBytes [] ≤ maxReportBytes then
    let body ← Rendering.body template attached
    .ok (attachment, if attached.outputBytes body ≤ maxReportBytes then some body else none)
  else .ok (attachment, none)

/-- Leave items out until the rendered report is within the limit. -/
def fitReport (template : Text) (selection : Selection) (guarded : Bool) (report : PersonalReport) :
    Except ReportError (PersonalReport × Text) :=
  match renderWithin template report with
  | .error e => .error e
  | .ok (attachment, some body) => .ok ({ report with evidenceAttachment := attachment }, body)
  | .ok (attachment, none) =>
    match _hreduced : reduceReportItems selection guarded report.items with
    | .error e => .error e
    | .ok items => fitReport template selection guarded
        (PersonalReport.reduce { report with evidenceAttachment := attachment } items)
termination_by report.items.length
decreasing_by
  rw [PersonalReport.reduce_items]
  exact reduceReportItems_length _hreduced

theorem fitReport_of_within {template : Text} {selection : Selection} {guarded : Bool}
    {report : PersonalReport} {attachment : Option Text} {body : Text}
    (h : renderWithin template report = .ok (attachment, some body)) :
    fitReport template selection guarded report =
      .ok ({ report with evidenceAttachment := attachment }, body) := by
  rw [fitReport, h]

/-- **The loop leaves out what is no next step.** -/
theorem fitReport_keeps {template markdown : Text} {selection : Selection}
    {draft : List PersonalItem} {report report' : PersonalReport}
    (hkeeps : KeepsNextSteps draft report.items)
    (h : fitReport template selection true report = .ok (report', markdown)) :
    KeepsNextSteps draft report'.items := by
  fun_induction fitReport template selection true report with
  | case1 => cases h
  | case2 report attachment body hrender =>
    cases h
    exact hkeeps
  | case3 => cases h
  | case4 report attachment hrender items hreduced ih =>
    refine ih ?_ h
    rw [PersonalReport.reduce_items]
    unfold reduceReportItems at hreduced
    rw [if_pos rfl] at hreduced
    split_ifs at hreduced
    split at hreduced
    · cases hreduced
    · cases hreduced
      exact hkeeps.leaveOut (by assumption)

/-- A report without items keeps its gaps. -/
theorem fitReport_empty {template markdown : Text} {selection : Selection} {guarded : Bool}
    {report report' : PersonalReport} (hitems : report.items = [])
    (h : fitReport template selection guarded report = .ok (report', markdown)) :
    report'.items = [] ∧ report'.gaps = report.gaps := by
  rw [fitReport] at h
  split at h
  · cases h
  · cases h
    exact ⟨hitems, rfl⟩
  · split at h
    · cases h
    · rename_i hreduced
      have hshorter := reduceReportItems_length hreduced
      rw [hitems] at hshorter
      cases hshorter

end Rendered

/-! ### The operation -/

theorem isCompaction_of_protects {version : Option ℕ} (h : protects version = true) :
    isCompaction version = false := by
  rcases of_decide_eq_true h with rfl | rfl <;> rfl

/-- The frozen input of a report. -/
structure PersonalInput where
  context : RunContext
  selection : Selection
  plan : Option PlannedStep
  template : Text

/-- What the operation meets. -/
structure Surroundings where
  llm : Llm
  rootAlias : Text
  /-- The checks of the frozen input. -/
  opening : Except ReportError Unit
  /-- The replies to the plan. -/
  first : List Reply
  /-- The replies to its compaction. -/
  second : List Reply
  /-- The current report of the date is of another run and has items. -/
  published : Bool
  /-- The deadline, and what comes after the report is made. -/
  closing : Except ReportError Unit

/-- The report with a summary. -/
def PersonalReport.withSummary (report : PersonalReport) (output : PersonalOutput) : PersonalReport :=
  let report := { report with items := output.items }
  let report := match output.compactionError with
    | none => report
    | some code =>
      report.withGap code "model" "摘要精简未完成，已按完整事项保底减量并保留下一步计划。"
  let report := if 0 < output.omitted then
      report.withGap reduced "model" "部分完整事项因篇幅限制未展开。"
    else report
  { report with
    quality := if report.gaps = [] ∧ report.selection.isPartial = false then lit "complete"
      else lit "partial" }

theorem PersonalReport.withSummary_items (report : PersonalReport) (output : PersonalOutput) :
    (report.withSummary output).items = output.items := by
  unfold withSummary
  simp only
  split_ifs <;> cases output.compactionError <;> rfl

/-- The report without a summary. -/
def PersonalReport.withoutSummary (report : PersonalReport) (e : ReportError) : PersonalReport :=
  { report with quality := lit "partial" }.withGap e.code "model"
    "模型未形成有效总结，用户原文及材料范围已保留。"

/-- A report without items is not complete. -/
def PersonalReport.noteMissing (report : PersonalReport) (selection : Selection) : PersonalReport :=
  if report.items = [] ∧ selection.materials ≠ [] then
    { report with quality := lit "partial" }.withGap (lit "PERSONAL_SUMMARY_UNAVAILABLE") "model"
      "尚无可用事项总结，不能据此确认工作成果。"
  else report

theorem PersonalReport.noteMissing_items (report : PersonalReport) (selection : Selection) :
    (report.noteMissing selection).items = report.items := by
  unfold noteMissing
  split_ifs <;> rfl

theorem PersonalReport.mem_gaps_noteMissing {report : PersonalReport} {selection : Selection}
    {gap : CoverageGap} (h : gap ∈ report.gaps) : gap ∈ (report.noteMissing selection).gaps := by
  unfold noteMissing
  split_ifs
  · exact List.mem_append_left _ h
  · exact h

section Operation

variable [Rendering] {s : Surroundings} {input : PersonalInput}

/-- The rest of the operation: the report that is published. -/
def publishReport (s : Surroundings) (input : PersonalInput) (report : PersonalReport) :
    Except ReportError PersonalReport := do
  let report := (report.noteMissing input.selection).retainCited
  ensure (¬ (report.items = [] ∧ s.published = true))
    (reportError "PERSONAL_RECOVERY_INCOMPLETE" "恢复未形成有效总结，保留已发布的有效内容")
  let fitted ← fitReport input.template input.selection
    (input.plan.any fun plan => protects plan.target.summaryPromptVersion) report
  s.closing
  .ok fitted.1

/-- What is published of a report. -/
theorem publishReport_fits {report published : PersonalReport}
    (h : publishReport s input report = .ok published) :
    ∃ markdown start, fitReport input.template input.selection
      (input.plan.any fun plan => protects plan.target.summaryPromptVersion) start =
        .ok (published, markdown) ∧
      start.items = report.items ∧ ∀ gap ∈ report.gaps, gap ∈ start.gaps := by
  obtain ⟨_, -, h⟩ := bind_eq_ok.1 h
  obtain ⟨⟨fitted, markdown⟩, hfit, h⟩ := bind_eq_ok.1 h
  obtain ⟨_, -, h⟩ := bind_eq_ok.1 h
  cases h
  exact ⟨markdown, _, hfit, PersonalReport.noteMissing_items report input.selection,
    fun gap hgap => PersonalReport.mem_gaps_noteMissing hgap⟩

/-- Without a summary nothing is published but a gap with the code of the error. -/
theorem publishReport_withoutSummary {e : ReportError} {report published : PersonalReport}
    (hitems : report.items = [])
    (h : publishReport s input (report.withoutSummary e) = .ok published) :
    published.items = [] ∧ ∃ gap ∈ published.gaps, gap.code = e.code := by
  obtain ⟨markdown, start, hfit, hstart, hgaps⟩ := publishReport_fits h
  obtain ⟨hempty, hkept⟩ := fitReport_empty (hstart.trans hitems) hfit
  refine ⟨hempty, .new e.code "model" none "模型未形成有效总结，用户原文及材料范围已保留。", ?_, rfl⟩
  rw [hkept]
  exact hgaps _ (List.mem_append_right _ List.mem_cons_self)

variable [Sha256] [UtcTimes] [PromptTexts] [PlanTexts]

/-- The report with what the model makes of the plan. -/
def summarize (s : Surroundings) (input : PersonalInput) : Option PersonalReport :=
  let report := PersonalReport.fromSelection input.context s.rootAlias input.selection
  match input.plan with
  | none => some report
  | some plan =>
    match generate s.llm plan s.first s.second with
    | none => none
    | some (.ok output) => some (report.withSummary output)
    | some (.error e) => some (report.withoutSummary e)

/-- The operation.  It comes to nothing where a reply makes the reader stop the process. -/
def finish (s : Surroundings) (input : PersonalInput) : Option (Except ReportError PersonalReport) :=
  match s.opening with
  | .error e => some (.error e)
  | .ok () => (summarize s input).map (publishReport s input)

/-! ### What is published -/

variable {plan : PlannedStep}

/-- The operation where the model gives no summary. -/
theorem finish_of_error {e : ReportError} (hopening : s.opening = .ok ())
    (hplan : input.plan = some plan)
    (hgenerate : generate s.llm plan s.first s.second = some (.error e)) :
    finish s input = some (publishReport s input
      ((PersonalReport.fromSelection input.context s.rootAlias input.selection).withoutSummary e)) := by
  unfold finish
  simp only [hopening, summarize, hplan, hgenerate]
  rfl

/-- **A report that is published has items of the draft, in their order and perhaps reworded, with
every next step; or there is no summary, and it has no items and a gap with the code of the error.**
The operation comes to an end, whatever the replies, if the reader can look into the responses to the
compaction. -/
theorem finish_keepsNextSteps (hplan : input.plan = some plan)
    (hprotects : protects plan.target.summaryPromptVersion = true) (hreadable : Readable s.second) :
    ∃ result, finish s input = some result ∧ ∀ report, result = .ok report →
      (∃ draft output, execute s.llm plan s.first = some (.ok draft) ∧
        generate s.llm plan s.first s.second = some (.ok output) ∧
        KeepsNextSteps draft.items report.items) ∨
      ∃ e, generate s.llm plan s.first s.second = some (.error e) ∧ report.items = [] ∧
        ∃ gap ∈ report.gaps, gap.code = e.code := by
  have hany : (input.plan.any fun plan => protects plan.target.summaryPromptVersion) = true := by
    rw [hplan]
    exact hprotects
  unfold finish
  cases s.opening with
  | error e => exact ⟨_, rfl, nofun⟩
  | ok _ =>
    simp only [summarize, hplan]
    have hfirst : execute s.llm plan s.first ≠ none := execute_ne_none fun hcompaction => by
      rw [isCompaction_of_protects hprotects] at hcompaction
      cases hcompaction
    cases hexecute : execute s.llm plan s.first with
    | none => exact absurd hexecute hfirst
    | some executed =>
      cases executed with
      | error e =>
        have hgenerate : generate s.llm plan s.first s.second = some (.error e) := by
          rw [generate, hexecute]
        rw [hgenerate]
        exact ⟨_, rfl, fun report hreport => .inr ⟨e, rfl, publishReport_withoutSummary rfl hreport⟩⟩
      | ok draft =>
        have hgenerate : generate s.llm plan s.first s.second = shorten s.llm plan draft s.second := by
          rw [generate, hexecute]
        obtain ⟨result, hresult, hkeeps⟩ := @shorten_keeps _ _ _ _ s.llm plan draft _ hreadable
        rw [hgenerate, hresult]
        cases result with
        | error e => exact ⟨_, rfl, fun report hreport => .inr ⟨e, rfl, publishReport_withoutSummary rfl hreport⟩⟩
        | ok output =>
          refine ⟨_, rfl, fun report hreport => .inl ⟨draft, output, rfl, rfl, ?_⟩⟩
          obtain ⟨markdown, start, hfit, hstart, -⟩ := publishReport_fits hreport
          rw [hany] at hfit
          refine fitReport_keeps ?_ hfit
          rw [hstart, PersonalReport.withSummary_items]
          exact hkeeps output rfl

end Operation

/-! ### A draft of next steps -/

section Steps

local instance stepsSha256 : Sha256 := noteSha256
local instance stepsTimes : UtcTimes := zuluTimes
local instance stepsPrompts : PromptTexts := shortPrompts
local instance stepsPlans : PlanTexts := ⟨fun _ => lit "plan"⟩

/-- Reports with a short body and no attachment. -/
local instance shortReports : Rendering where
  attachment _ _ := .ok none
  body _ _ := .ok ['#']

def stepsLlm : Llm := { noteLlm with maxRequestUtf8Bytes := 100000 }

/-- A next step of 802 characters. -/
def longStep : PersonalItem where
  title := lit "下周"
  text := List.replicate 800 'x'
  kind := .nextStep
  statementKind := .userStatement
  sourceIds := [userInput]

def stepsResponse : Json :=
  .obj [(lit "items", .arr (List.replicate 2 (.obj
    [(lit "kind", .str (lit "next_step")), (lit "source_ids", .arr [.str userInput]),
      (lit "statement_kind", .str (lit "user_statement")), (lit "text", .str longStep.text),
      (lit "title", .str longStep.title)])))]

/-- The plan of the note.  The digest above is the only one that is known. -/
def stepsPlan : PlannedStep :=
  { draftStep noteContext noteSelection 6 with
    request := some
      { model := noteLlm.modelId
        system := lit "summary" ++ '\n' :: (schema false).print
        user := (sourcesInput (draftStep noteContext noteSelection 6).target).print
        temperature := noteLlm.temperature
        maxTokens := 1000
        extraThinking := none
        topThinking := none } }

def stepsInput : PersonalInput := ⟨noteContext, noteSelection, some stepsPlan, []⟩

/-- The draft is answered, and no time is left for its compaction. -/
def stepsSurroundings : Surroundings where
  llm := stepsLlm
  rootAlias := lit "work"
  opening := .ok ()
  first := [.answered (.ok stepsResponse)]
  second := []
  published := false
  closing := .ok ()

def stepsDraft : PersonalOutput := ⟨[longStep, longStep], 0, none⟩

theorem execute_steps :
    execute stepsSurroundings.llm stepsPlan stepsSurroundings.first = some (.ok stepsDraft) := by
  have hidentity : stepsPlan.validateIdentity stepsSurroundings.llm = .ok () := by decide +kernel
  have hresponse : validateResponse stepsPlan stepsResponse = some (.ok stepsDraft) := by
    decide +kernel
  rw [execute, hidentity]
  change runReplies _ _ _ [.answered (.ok stepsResponse)] = _
  rw [runReplies, readContent, hresponse]

/-- The operation ends where no time is left for a compaction. -/
theorem finish_steps_ends : ∃ result, finish stepsSurroundings stepsInput = some result :=
  have hreadable : Readable stepsSurroundings.second := List.forall_mem_nil _
  (@finish_keepsNextSteps _ stepsSurroundings stepsInput _ _ _ _ stepsPlan rfl rfl hreadable).imp
    fun _ h => h.1

/-- Every report is short enough. -/
theorem publishReport_steps (report : PersonalReport) :
    ∃ published, publishReport stepsSurroundings stepsInput report = .ok published := by
  have hwithin (r : PersonalReport) : renderWithin [] r = .ok (none, some ['#']) := rfl
  simp only [publishReport]
  refine ⟨_, bind_eq_ok.2 ⟨(), ensure_eq_ok.2 ?_, bind_eq_ok.2 ⟨_, fitReport_of_within (hwithin _), rfl⟩⟩⟩
  simp [stepsSurroundings]

/-- **Without the compaction a report is published that has none of the next steps.** -/
theorem steps_dropped : ¬ ∀ (s : Surroundings) (input : PersonalInput) (plan : PlannedStep)
    (draft : PersonalOutput) (report : PersonalReport), input.plan = some plan →
      protects plan.target.summaryPromptVersion = true →
      execute s.llm plan s.first = some (.ok draft) → finish s input = some (.ok report) →
      KeepsNextSteps draft.items report.items := by
  intro h
  have hlarge : maxSummaryCharsExtended < bodyChars stepsDraft.items := by decide +kernel
  have hsteps : ∀ item ∈ stepsDraft.items, item.isNextStep = true := by decide
  obtain ⟨e, hcompaction⟩ := @compaction_nil _ _ _ _ stepsSurroundings.llm stepsPlan
    stepsDraft.items
  have hgenerate : generate stepsSurroundings.llm stepsPlan stepsSurroundings.first
      stepsSurroundings.second = some (.error e) := by
    rw [generate, execute_steps]
    exact shorten_nextSteps rfl hsteps hlarge rfl hcompaction
  have hfinish := @finish_of_error _ stepsSurroundings stepsInput _ _ _ _ stepsPlan e rfl rfl hgenerate
  have hnoItems : (PersonalReport.fromSelection stepsInput.context stepsSurroundings.rootAlias
      stepsInput.selection).items = [] := rfl
  obtain ⟨report, hreport⟩ := publishReport_steps ((PersonalReport.fromSelection stepsInput.context
    stepsSurroundings.rootAlias stepsInput.selection).withoutSummary e)
  have hempty := (publishReport_withoutSummary hnoItems hreport).1
  rw [hreport] at hfinish
  obtain ⟨kept, -, hrewords, hsame⟩ := h stepsSurroundings stepsInput stepsPlan stepsDraft report rfl rfl
    execute_steps hfinish
  rw [hempty, List.forall₂_nil_right_iff] at hrewords
  rw [hrewords] at hsame
  cases hsame

end Steps

end Finishing

end DailyReport.Personal
