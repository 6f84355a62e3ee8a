import DailyReport.Scanner.Rendering

/-!
# The parse issues of a rendered context

A failed file is recorded in the decisions with the characters of its line, but the section that
lists these lines is appended last and only if it still fits.

* `errors_rendered_iff` : **the failed files are in the text exactly when their section fits**
  beside everything rendered before it;
* `buildContext_lost` : a text that silently leaves its only failed file out.
-/

namespace DailyReport

open Lib

/-- The line of a failed file, from its decision. -/
def decisionLine (decision : ContextDecision) : Text :=
  lit "- " ++ decision.relativePath ++ lit " | reason=" ++ decision.reason ++ lit " | error=" ++
    decision.errorCode

namespace ContextBuildOutput

variable (out : ContextBuildOutput)

/-- The lines of the failed files of an output. -/
def errorLines : List Text :=
  (out.decisions.filter fun record => record.decision.action = .error).map fun record =>
    decisionLine record.decision

/-- The line of a record stands in the closing section of the text, which lists all failures. -/
def ErrorRendered (record : BudgetedDecision) : Prop :=
  decisionLine record.decision ∈ out.errorLines ∧
    (issueSection out.errorLines ++ lit "\n") <:+ out.content

/-- Every failed file has its line in the text. -/
def ErrorsRendered : Prop :=
  ∀ record ∈ out.decisions, record.decision.action = .error → out.ErrorRendered record

end ContextBuildOutput

/-! ### The lines are those of the decided files -/

section

variable {profile : ContextProfile}

/-- Recording a decision keeps whether it is an error. -/
theorem stepDecision_action_error {item : DecidedFile} :
    (stepDecision profile item).decision.action = .error ↔ item.decision.action = .error := by
  unfold stepDecision
  split
  next h => simp [h]
  next h => simp [h]
  next homit herror =>
    have : item.decision.action ≠ .error := herror
    simp only [this, iff_false, renderFileSection]
    split_ifs <;> simp [this]

theorem decisionLine_stepDecision {item : DecidedFile} (h : item.decision.action = .error) :
    decisionLine (stepDecision profile item).decision = decisionLine item.decision := by
  unfold stepDecision
  simp [h, decisionLine]

variable [UnicodeCase]

/-- A decision is an error exactly when the parse failed. -/
theorem decideFile_action_error {e : ContextFileEvidence} :
    (decideFile e profile).decision.action = .error ↔
      e.parseStatus = .error ∨ e.parseStatus = .timeout := by
  simp only [decideFile, decideAction]
  split
  next h => simp [h]
  next h => simp [h]
  next h => simp [h]
  next h => split_ifs <;> simp [h]

theorem issueLine_eq {e : ContextFileEvidence} (hvalid : e.Valid)
    (haction : (decideFile e profile).decision.action = .error) :
    issueLine (decideFile e profile) = decisionLine (decideFile e profile).decision := by
  have hstatus := decideFile_action_error.1 haction
  obtain ⟨error, herror⟩ := Option.isSome_iff_exists.1 (hvalid.error_isSome hstatus)
  have hcode : issueCode e = decideErrorCode e := by
    rcases hstatus with h | h <;> simp [issueCode, decideErrorCode, herror, h]
  simp only [issueLine, decisionLine, decideFile, hcode]

/-- The lines of the failures among the recorded decisions are the issues of the run. -/
theorem errorLines_eq {evidence : List ContextFileEvidence}
    (hvalid : ∀ e ∈ evidence, e.Valid) :
    ((((evidence.map fun e => decideFile e profile).map (stepDecision profile)).filter
      fun record => record.decision.action = .error).map fun record =>
        decisionLine record.decision) =
      errorLines (evidence.map fun e => decideFile e profile) := by
  induction evidence with
  | nil => rfl
  | cons e evidence ih =>
    have hrest := ih fun e he => hvalid e (List.mem_cons_of_mem _ he)
    simp only [errorLines, List.map_cons, List.flatMap_cons] at hrest ⊢
    by_cases haction : (decideFile e profile).decision.action = .error
    · have hrecord : (stepDecision profile (decideFile e profile)).decision.action = .error :=
        stepDecision_action_error.2 haction
      rw [List.filter_cons_of_pos (by simpa using hrecord), List.map_cons, hrest,
        decisionLine_stepDecision haction, ← issueLine_eq (hvalid e (by simp)) haction]
      simp [stepIssues, haction]
    · have hrecord : ¬ (stepDecision profile (decideFile e profile)).decision.action = .error :=
        fun h => haction (stepDecision_action_error.1 h)
      rw [List.filter_cons_of_neg (by simpa using hrecord), hrest]
      simp [stepIssues, haction]

end

/-! ### Where the text ends -/

/-- The text ends in a visible character that is no capital letter. -/
def PlainEnd (t : Text) : Prop :=
  ∃ c, t.getLast? = some c ∧ isWhitespace c = false ∧ c.isUpper = false

theorem PlainEnd.tidy {t : Text} (h : PlainEnd t) : Tidy t := by
  obtain ⟨c, hc, hws, -⟩ := h
  exact ⟨c, hc, hws⟩

theorem PlainEnd.append {t : Text} (h : PlainEnd t) (s : Text) : PlainEnd (s ++ t) := by
  obtain ⟨c, hc, hend⟩ := h
  refine ⟨c, ?_, hend⟩
  rw [List.getLast?_append, hc]
  rfl

theorem plainEnd_decimal (n : ℕ) : PlainEnd (decimal n) := by
  have hlast := List.getLast?_eq_some_getLast (decimal_ne_nil n)
  have hdigit := isDigit_of_mem_decimal (List.getLast_mem (decimal_ne_nil n))
  exact ⟨_, hlast, isWhitespace_of_isDigit hdigit, isUpper_of_isDigit hdigit⟩

theorem plainEnd_rendered (profile : ContextProfile) (item : DecidedFile) :
    PlainEnd (item.rendered profile) := by
  have hbody : ∀ e d b, PlainEnd (renderBodySection e d b) := by
    intro e d b
    refine PlainEnd.append ⟨'`', ?_, by decide, by decide⟩ _
    simp [lit_eq]
  unfold DecidedFile.rendered renderFileSection
  split_ifs
  · refine PlainEnd.append ⟨'y', ?_, by decide, by decide⟩ _
    simp [lit_eq]
  · exact hbody _ _ _
  · exact hbody _ _ _

theorem plainEnd_evidenceTitle : PlainEnd evidenceTitle :=
  ⟨'据', by simp [evidenceTitle, lit_eq], by decide, by decide⟩

theorem plainEnd_noEvidence : PlainEnd noEvidence :=
  ⟨'据', by simp [noEvidence, lit_eq], by decide, by decide⟩

/-- The sections end with a plain one. -/
def EndsPlain (sections : List Text) : Prop :=
  ∃ front last, sections = front ++ [last] ∧ PlainEnd last

theorem EndsPlain.append {sections added : List Text} (h : EndsPlain sections)
    (hadded : ∀ t ∈ added, PlainEnd t) : EndsPlain (sections ++ added) := by
  rcases List.eq_nil_or_concat added with rfl | ⟨front, last, rfl⟩
  · simpa using h
  · exact ⟨sections ++ front, last, by simp, hadded last (by simp)⟩

theorem EndsPlain.join {lines : List Text} (h : EndsPlain lines) (sep : Text) :
    PlainEnd (joinWith sep lines) := by
  obtain ⟨front, last, rfl, hlast⟩ := h
  obtain ⟨c, hc, hend⟩ := hlast
  refine ⟨c, ?_, hend⟩
  rw [getLast?_joinWith_concat _ _ _ (by rintro rfl; simp at hc), hc]

theorem plainEnd_summary {omitted : List OmittedRow} {reservation : ℕ} {lines : List Text}
    (h : omittedSummaryLines omitted reservation = .ok lines) :
    PlainEnd (joinWith (lit "\n") lines) := by
  obtain ⟨other, hother, rfl⟩ := omittedSummaryLines_eq_ok h
  have hheader : EndsPlain (omittedSummaryHeader omitted) :=
    ⟨[lit "## 省略文件摘要"], _, rfl, (plainEnd_decimal _).append _⟩
  refine EndsPlain.join (((hheader.append ?_).append ?_).append ?_) _
  · rintro t ht
    obtain ⟨row, -, rfl⟩ := List.mem_map.1 ht
    exact (plainEnd_decimal _).append _
  · rintro t ht
    obtain ⟨group, -, rfl⟩ := List.mem_map.1 ht
    exact (plainEnd_decimal _).append _
  · intro t ht
    rcases catchAllRow_eq_ok hother with rfl | ⟨count, rfl, -⟩
    · simp at ht
    · rw [List.mem_singleton.1 ht]
      exact (plainEnd_decimal _).append _

section

variable {decided : List DecidedFile}

theorem plain_of_suffix {body issues : Text} {c : Char} (hissues : issues.getLast? = some c)
    (hsuffix : (issues ++ lit "\n") <:+ body ++ lit "\n") : body.getLast? = some c := by
  obtain ⟨t, ht⟩ := hsuffix
  rw [← List.append_assoc] at ht
  have hbody := List.append_cancel_right ht
  rw [← hbody, List.getLast?_append, hissues]
  rfl

/-- The issue section of failed files ends in a capital letter. -/
theorem issueSection_getLast? (hne : errorLines decided ≠ []) :
    ∃ c, (issueSection (errorLines decided)).getLast? = some c ∧ c.isUpper = true := by
  obtain ⟨front, last, hlines⟩ : ∃ front last, errorLines decided = front ++ [last] :=
    (List.eq_nil_or_concat (errorLines decided)).resolve_left hne |>.imp
      fun _ h => h.imp fun _ h => by simpa using h
  have hmem : last ∈ errorLines decided := by simp [hlines]
  obtain ⟨item, -, hitem⟩ := List.mem_flatMap.1 hmem
  unfold stepIssues at hitem
  split_ifs at hitem
  · have hcode : ∃ c, (issueCode item.evidence).getLast? = some c ∧ c.isUpper = true := by
      unfold issueCode
      cases item.evidence.error with
      | some error => exact error.errorCode.getLast?_wireName
      | none => exact ⟨'R', by simp [lit_eq], by decide⟩
    obtain ⟨c, hc, hupper⟩ := hcode
    have hlast : last.getLast? = some c := by
      rw [List.mem_singleton.1 hitem, issueLine, List.getLast?_append, hc]
      rfl
    refine ⟨c, ?_, hupper⟩
    rw [issueSection, if_neg hne, List.getLast?_append, hlines,
      getLast?_joinWith_concat _ _ _ (by rintro rfl; simp at hlast), hlast]
    rfl
  · simp at hitem

variable [UnicodeCase] {profile : ContextProfile} {reportMode : ReportMode}

/-- **The body of a context ends plainly**, whatever was rendered last. -/
theorem bodySections_endsPlain {body : List Text}
    (h : bodySections decided profile reportMode = .ok body) : EndsPlain body := by
  have hincluded : EndsPlain (includedSections decided profile reportMode) := by
    have hfixed : EndsPlain (initialRenderState decided profile reportMode).sections :=
      ⟨[contextTitle, _, _], evidenceTitle, rfl, plainEnd_evidenceTitle⟩
    refine hfixed.append fun t ht => ?_
    obtain ⟨item, -, hitem⟩ := List.mem_flatMap.1 ht
    unfold stepSections at hitem
    split_ifs at hitem
    · rw [List.mem_singleton.1 hitem]
      exact plainEnd_rendered profile item
    · simp at hitem
  have hevidence : EndsPlain (evidenceSections decided profile reportMode) := by
    unfold evidenceSections appendIfFits
    split_ifs
    · exact hincluded.append fun t ht => by
        rw [List.mem_singleton.1 ht]
        exact plainEnd_noEvidence
    · exact hincluded
    · exact hincluded
  unfold bodySections appendOmittedSummary at h
  split_ifs at h
  · simp only [Except.ok.injEq] at h
    rwa [← h]
  · obtain ⟨lines, hlines, h⟩ := bind_eq_ok.1 h
    simp only at h
    split_ifs at h
    simp only [Except.ok.injEq] at h
    rw [← h]
    exact hevidence.append fun t ht => by
      rw [List.mem_singleton.1 ht]
      exact plainEnd_summary hlines

/-- The issue section fits beside a body. -/
def IssuesFit (decided : List DecidedFile) (profile : ContextProfile) (body : List Text) : Prop :=
  sectionsCost (body.map trimEnd) + (issueSection (errorLines decided)).length + 1 ≤
    profile.globalMaxChars

/-- The text ends with its issue section exactly when that fits. -/
theorem suffix_iff {body : List Text} (hne : errorLines decided ≠ [])
    (hbody : bodySections decided profile reportMode = .ok body) :
    (issueSection (errorLines decided) ++ lit "\n") <:+
        joinSections (appendParseIssues body (errorLines decided) profile.globalMaxChars) ↔
      IssuesFit decided profile body := by
  obtain ⟨c, hc, hupper⟩ := issueSection_getLast? hne
  have htidy : Tidy (issueSection (errorLines decided)) :=
    ⟨c, hc, isWhitespace_of_isUpper hupper⟩
  have hlen := length_joinSections body htidy
  unfold appendParseIssues appendIfFits IssuesFit
  rw [countChars, hlen]
  by_cases hfits : sectionsCost (body.map trimEnd) + (issueSection (errorLines decided)).length +
      1 ≤ profile.globalMaxChars
  · rw [if_pos hfits, joinSections_concat body htidy]
    refine iff_of_true ?_ hfits
    obtain ⟨t, ht⟩ := suffix_joinWith_concat sectionSeparator (issueSection (errorLines decided))
      (body.map trimEnd)
    exact ⟨t, by rw [← List.append_assoc, ht]⟩
  · rw [if_neg hfits]
    refine iff_of_false (fun hsuffix => ?_) hfits
    obtain ⟨front, last, rfl, hlast⟩ := bodySections_endsPlain hbody
    rw [joinSections_concat front hlast.tidy] at hsuffix
    have hend := plain_of_suffix hc hsuffix
    obtain ⟨d, hd, -, hlower⟩ := hlast
    rw [getLast?_joinWith_concat _ _ _ (by rintro rfl; simp at hd), hd, Option.some.injEq] at hend
    rw [hend, hupper] at hlower
    cases hlower

/-- **The failed files are in the text exactly when their section fits** beside everything that
was rendered before it. -/
theorem errors_rendered_iff {evidence : List ContextFileEvidence} {out : ContextBuildOutput}
    (hdecided : decideFiles evidence profile = .ok decided)
    (hout : buildContext evidence profile reportMode = .ok out) :
    out.ErrorsRendered ↔
      errorLines decided = [] ∨ ∃ body, bodySections decided profile reportMode = .ok body ∧
        IssuesFit decided profile body := by
  obtain ⟨_, hd, h⟩ := bind_eq_ok.1 hout
  rw [hdecided, Except.ok.injEq] at hd
  subst hd
  obtain ⟨inputChars, -, h⟩ := bind_eq_ok.1 h
  obtain ⟨⟨state, content⟩, hrender, h⟩ := bind_eq_ok.1 h
  obtain ⟨hrun, body, hbody, hcontent, -⟩ := renderDecided_eq_ok hrender
  simp only [pure, Except.pure, Except.ok.injEq] at h
  have hdecisions : out.decisions = decided.map (stepDecision profile) := by
    rw [← h]; exact hrun.decisions
  have hlines : out.errorLines = errorLines decided := by
    obtain ⟨hsorted, hvalid⟩ := decideFiles_eq_ok.1 hdecided
    rw [ContextBuildOutput.errorLines, hdecisions, hsorted]
    exact errorLines_eq fun e he =>
      ContextFileEvidence.valid_of_validate (hvalid e (mem_sortByKey.1 he))
  have hout' : out.content =
      joinSections (appendParseIssues body (errorLines decided) profile.globalMaxChars) := by
    rw [← h]; exact hcontent
  by_cases hne : errorLines decided = []
  · refine iff_of_true (fun record hrecord herror => ?_) (Or.inl hne)
    have hmem : decisionLine record.decision ∈ out.errorLines :=
      List.mem_map_of_mem (List.mem_filter.2 ⟨hrecord, by simpa using herror⟩)
    rw [hlines, hne] at hmem
    cases hmem
  · have hsuffix := suffix_iff hne hbody
    constructor
    · intro hrendered
      obtain ⟨line, hline⟩ := List.exists_mem_of_ne_nil _ hne
      rw [← hlines] at hline
      obtain ⟨record, hrecord, -⟩ := List.mem_map.1 hline
      obtain ⟨hrecord, herror⟩ := List.mem_filter.1 hrecord
      have := (hrendered record hrecord (by simpa using herror)).2
      rw [hlines, hout'] at this
      exact Or.inr ⟨body, hbody, hsuffix.1 this⟩
    · rintro (hnil | ⟨body', hbody', hfits⟩)
      · exact absurd hnil hne
      · rw [hbody, Except.ok.injEq] at hbody'
        subst hbody'
        intro record hrecord herror
        refine ⟨List.mem_map_of_mem (List.mem_filter.2 ⟨hrecord, by simpa using herror⟩), ?_⟩
        rw [hlines, hout']
        exact hsuffix.2 hfits

end

/-! ### A text that loses its only failed file -/

/-- A small budget with the frozen policies. -/
def tightProfile : ContextProfile where
  profileName := lit "daily_balanced_v1"
  globalMaxChars := 310
  perFileMaxChars := 100
  smallFileMaxBytes := 65536
  mediumFileMaxBytes := 1048576
  largeFileMaxBytes := 10485760
  priorityPolicyVersion := lit "budget_nominal_v2"
  compressionPolicyVersion := lit "markdown_context_v2"

/-- The relative path of the failed file: four hundred characters and the extension. -/
def lostPath : Text := List.replicate 400 'Q' ++ lit ".md"

/-- A file whose parse failed. -/
def lostFile : ContextFileEvidence where
  fileIdentity := lit "bootstrap:q"
  absolutePath := lit "C:\\w\\" ++ lostPath
  relativePath := lostPath
  extension := lit ".md"
  sizeBytes := some 1
  content := []
  evidenceAudit := none
  parserBackend := lit "light_text_v2"
  workerLane := .rustCore
  cacheStatus := .miss
  parseStatus := .error
  truncated := false
  error := some ⟨.parserFailed, lit "parse failed", false, .parse,
    some (lit "C:\\w\\" ++ lostPath), none⟩
  reason := none

theorem lostFile_validate : lostFile.validate = .ok () := by decide +kernel

theorem tightProfile_validate : tightProfile.validate = .ok () := by decide +kernel

section

variable [UnicodeCase]

/-- The decided list of the failed file. -/
def lostDecided : List DecidedFile := [decideFile lostFile tightProfile]

theorem decideFiles_lost : decideFiles [lostFile] tightProfile = .ok lostDecided :=
  decideFiles_eq_ok.2 ⟨rfl, by simpa using lostFile_validate⟩

theorem errorLines_lost : errorLines lostDecided ≠ [] := by
  simp [errorLines, lostDecided, stepIssues, decideFile, decideAction, lostFile]

theorem includedSections_lost : includedSections lostDecided tightProfile .daily =
    contextSections tightProfile .daily 1 (decimal 0) (decimal 1) := by
  simp [includedSections, lostDecided, stepSections, DecidedFile.included, decideFile,
    decideAction, lostFile, initialRenderState, countStatus]
  rfl

theorem includedSections_lost_cost :
    sectionsCost (includedSections lostDecided tightProfile .daily) = 287 := by
  have h0 : decimal 0 = ['0'] := by decide
  have h1 : decimal 1 = ['1'] := by decide
  have h310 : decimal 310 = ['3', '1', '0'] := by decide
  have h100 : decimal 100 = ['1', '0', '0'] := by decide
  rw [includedSections_lost, contextSections]
  simp only [sectionsCost_cons, sectionsCost_nil, contextTitle, renderRunSummary, renderNotice,
    evidenceTitle, reportModeText, tightProfile, List.length_append, h0, h1, h310, h100]
  simp [lit_eq]

/-- The body of the context: the fixed sections, then the notice that nothing is included. -/
def lostBody : List Text := evidenceSections lostDecided tightProfile .daily

theorem bodySections_lost : bodySections lostDecided tightProfile .daily = .ok lostBody := by
  have homitted : omittedRows lostDecided tightProfile = [] := by
    simp [omittedRows, lostDecided, stepOmitted, decideFile, decideAction, lostFile]
  rw [bodySections, homitted, appendOmittedSummary, if_pos rfl]
  rfl

theorem joinSections_lostBody_length : (joinSections lostBody).length ≤ 310 := by
  have hne : includedSections lostDecided tightProfile .daily ≠ [] := by
    simp [includedSections_lost, contextSections]
  have hlen := length_joinSections_le hne
  rw [includedSections_lost_cost] at hlen
  unfold lostBody evidenceSections appendIfFits
  split_ifs with hcount hfits
  · exact hfits
  · omega
  · omega

/-- The issue section of the failed file alone is longer than the budget. -/
theorem issueSection_lost_length : 310 < (issueSection (errorLines lostDecided)).length := by
  have hlines : errorLines lostDecided = [issueLine (decideFile lostFile tightProfile)] := by
    simp [errorLines, lostDecided, stepIssues, decideFile, decideAction, lostFile]
  rw [hlines, issueSection, if_neg (by simp), joinWith_singleton]
  simp only [issueLine, decideFile, lostFile, lostPath, List.length_append, List.length_replicate]
  omega

theorem lostBody_plain : ∀ t ∈ lostBody, 'Q' ∉ t := by
  have hfixed : ∀ t ∈ includedSections lostDecided tightProfile .daily, 'Q' ∉ t := by
    have h0 : decimal 0 = ['0'] := by decide
    have h1 : decimal 1 = ['1'] := by decide
    have h310 : decimal 310 = ['3', '1', '0'] := by decide
    have h100 : decimal 100 = ['1', '0', '0'] := by decide
    rw [includedSections_lost, contextSections]
    simp only [List.forall_mem_cons, contextTitle, renderRunSummary, renderNotice, evidenceTitle,
      reportModeText, tightProfile, List.mem_append, h0, h1, h310, h100]
    simp [lit_eq]
  unfold lostBody evidenceSections appendIfFits
  split_ifs
  · intro t ht
    rcases List.mem_append.1 ht with ht | ht
    · exact hfixed t ht
    · rw [List.mem_singleton.1 ht]
      simp [noEvidence, lit_eq]
  · exact hfixed
  · exact hfixed

/-- The rendering succeeds, records the failure, and the text is the body alone. -/
theorem exists_buildContext_lost :
    ∃ out, buildContext [lostFile] tightProfile .daily = .ok out ∧
      out.decisions = [stepDecision tightProfile (decideFile lostFile tightProfile)] ∧
      out.content = joinSections lostBody := by
  have hroom : sectionsCost (includedSections lostDecided tightProfile .daily) +
      parseFooter.length + 1 ≤ tightProfile.globalMaxChars := by
    rw [includedSections_lost_cost]
    simp [parseFooter, tightProfile, lit_eq]
  obtain ⟨state, content, hrender⟩ :=
    renderDecided_ok hroom bodySections_lost joinSections_lostBody_length
  obtain ⟨hrun, body, hbody, hcontent, -⟩ := renderDecided_eq_ok hrender
  rw [bodySections_lost, Except.ok.injEq] at hbody
  subst hbody
  refine ⟨_, bind_eq_ok.2 ⟨lostDecided, decideFiles_lost,
    bind_eq_ok.2 ⟨1, rfl, bind_eq_ok.2 ⟨(state, content), hrender, rfl⟩⟩⟩, hrun.decisions, ?_⟩
  -- the issue section does not fit
  obtain ⟨c, hc, hupper⟩ := issueSection_getLast? errorLines_lost
  have hlen := length_joinSections lostBody ⟨c, hc, isWhitespace_of_isUpper hupper⟩
  have hlong := issueSection_lost_length
  rw [hcontent, appendParseIssues, appendIfFits, if_neg]
  simp only [countChars, hlen, tightProfile]
  omega

end

theorem errors_rendered_lost : ∃ out,
    @buildContext asciiCase [lostFile] tightProfile .daily = .ok out ∧
      (out.ErrorsRendered ↔ errorLines (@lostDecided asciiCase) = [] ∨
        ∃ body, @bodySections asciiCase (@lostDecided asciiCase) tightProfile .daily = .ok body ∧
          IssuesFit (@lostDecided asciiCase) tightProfile body) := by
  obtain ⟨out, hout, -⟩ := @exists_buildContext_lost asciiCase
  exact ⟨out, hout, @errors_rendered_iff _ asciiCase _ _ _ _ (@decideFiles_lost asciiCase) hout⟩

/-- **A text that loses its only failed file**: the rendering succeeds and records the failure with
the characters of its line, and the line is nowhere in the text. -/
theorem buildContext_lost : ∃ out,
    @buildContext asciiCase [lostFile] tightProfile .daily = .ok out ∧
      ∃ record ∈ out.decisions, record.decision.action = .error ∧
        ¬ decisionLine record.decision <:+: out.content := by
  obtain ⟨out, hout, hdecisions, hcontent⟩ := @exists_buildContext_lost asciiCase
  have haction : (@decideFile asciiCase lostFile tightProfile).decision.action = .error :=
    (@decideFile_action_error _ asciiCase _).2 (Or.inl rfl)
  refine ⟨out, hout, _, by rw [hdecisions]; exact List.mem_singleton.2 rfl,
    stepDecision_action_error.2 haction, fun hinfix => ?_⟩
  have hpath : 'Q' ∈ (@decideFile asciiCase lostFile tightProfile).decision.relativePath :=
    List.mem_append_left _ (List.mem_replicate.2 ⟨by decide, rfl⟩)
  have hmem : 'Q' ∈ out.content := by
    refine hinfix.subset ?_
    rw [decisionLine_stepDecision haction]
    simp only [decisionLine, List.mem_append, hpath, true_or, or_true]
  rw [hcontent] at hmem
  rcases mem_joinSections hmem with hnl | ⟨t, ht, hc⟩
  · cases hnl
  · exact @lostBody_plain asciiCase t ht hc

end DailyReport
