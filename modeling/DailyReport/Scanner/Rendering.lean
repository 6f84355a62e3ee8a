import DailyReport.Scanner.Compressor

/-!
# What a rendering run does

The renderer walks over the decided files once.  One step appends what its file asks for
(`renderStep_eq_ok`), so a whole run is a function of the decided files: its sections are the
sections of the included files, its issues the lines of the failed files and its omitted rows
those of the omitted files (`foldlM_renderStep_eq_ok`).

* `length_joinSections` : the length of joined sections, which `length_joinSections_le` bounds by
  their cost in the budget model.
-/

namespace DailyReport

open Lib

/-! ### Joined sections -/

/-- A text that ends in something visible. -/
def Tidy (t : Text) : Prop := ∃ c, t.getLast? = some c ∧ isWhitespace c = false

theorem Tidy.ne_nil {t : Text} (h : Tidy t) : t ≠ [] := by
  rintro rfl
  obtain ⟨c, hc, -⟩ := h
  simp at hc

theorem Tidy.trimEnd_eq {t : Text} (h : Tidy t) : trimEnd t = t := by
  obtain ⟨c, hc, hws⟩ := h
  exact trimEnd_eq_self hc hws

theorem Tidy.append {t : Text} (h : Tidy t) (s : Text) : Tidy (s ++ t) := by
  obtain ⟨c, hc, hws⟩ := h
  refine ⟨c, ?_, hws⟩
  rw [List.getLast?_append, hc]
  rfl

/-- Joined sections end with the last one, when it is tidy. -/
theorem joinSections_concat (sections : List Text) {last : Text} (hlast : Tidy last) :
    joinSections (sections ++ [last]) =
      joinWith sectionSeparator (sections.map trimEnd ++ [last]) ++ lit "\n" := by
  unfold joinSections
  rw [List.map_append, List.map_singleton, hlast.trimEnd_eq]
  congr 1
  obtain ⟨c, hc, hws⟩ := hlast
  refine trimEnd_eq_self (c := c) ?_ hws
  rw [getLast?_joinWith_concat _ _ _ (by rintro rfl; simp at hc), hc]

theorem length_newline : (lit "\n").length = 1 := by simp [lit_eq]

theorem length_sectionSeparator : sectionSeparator.length = 2 := by
  simp [sectionSeparator, lit_eq]

/-- **The length of joined sections** whose last one is tidy. -/
theorem length_joinSections (sections : List Text) {last : Text} (hlast : Tidy last) :
    (joinSections (sections ++ [last])).length =
      sectionsCost (sections.map trimEnd) + last.length + 1 := by
  rw [joinSections_concat sections hlast, List.length_append, length_joinWith,
    length_sectionSeparator, length_newline]
  simp only [totalLength_append, totalLength_cons, totalLength_nil, List.length_append,
    List.length_map, List.length_singleton, Nat.add_sub_cancel, sectionsCost,
    sectionSeparatorChars]
  omega

theorem sectionsCost_cons (t : Text) (sections : List Text) :
    sectionsCost (t :: sections) = t.length + 2 + sectionsCost sections := by
  simp only [sectionsCost, totalLength_cons, List.length_cons, sectionSeparatorChars]
  omega

theorem sectionsCost_append (s t : List Text) :
    sectionsCost (s ++ t) = sectionsCost s + sectionsCost t := by
  simp only [sectionsCost, totalLength_append, List.length_append, sectionSeparatorChars]
  omega

@[simp] theorem sectionsCost_nil : sectionsCost [] = 0 := rfl

theorem sectionsCost_singleton (t : Text) : sectionsCost [t] = t.length + 2 := by
  rw [sectionsCost_cons, sectionsCost_nil]

theorem sectionsCost_map_trimEnd_le (sections : List Text) :
    sectionsCost (sections.map trimEnd) ≤ sectionsCost sections := by
  induction sections with
  | nil => simp
  | cons t sections ih =>
    rw [List.map_cons, sectionsCost_cons, sectionsCost_cons]
    have := length_trimEnd_le t
    omega

/-- **Joined sections are shorter than their cost**: the last separator is not there, the final
line break is. -/
theorem length_joinSections_le {sections : List Text} (h : sections ≠ []) :
    (joinSections sections).length + 1 ≤ sectionsCost sections := by
  have htrim := length_trimEnd_le (joinWith sectionSeparator (sections.map trimEnd))
  have hcost := sectionsCost_map_trimEnd_le sections
  have hlen : 0 < sections.length := List.length_pos_iff.2 h
  rw [length_joinWith, length_sectionSeparator, List.length_map] at htrim
  rw [sectionsCost, List.length_map] at hcost
  simp only [joinSections, List.length_append, length_newline, sectionSeparatorChars] at hcost ⊢
  omega

theorem joinSections_ne_nil (sections : List Text) : joinSections sections ≠ [] := by
  simp [joinSections, lit_eq]

theorem mem_joinWith {c : Char} {sep : Text} {pieces : List Text} (h : c ∈ joinWith sep pieces) :
    c ∈ sep ∨ ∃ t ∈ pieces, c ∈ t := by
  induction pieces with
  | nil => simp at h
  | cons t pieces ih =>
    by_cases hnil : pieces = []
    · exact Or.inr ⟨t, by simp, by simpa [hnil] using h⟩
    · rw [joinWith_cons _ _ hnil] at h
      rcases List.mem_append.1 h with h | h
      · rcases List.mem_append.1 h with h | h
        · exact Or.inr ⟨t, by simp, h⟩
        · exact Or.inl h
      · rcases ih h with hsep | ⟨u, hu, hc⟩
        · exact Or.inl hsep
        · exact Or.inr ⟨u, List.mem_cons_of_mem _ hu, hc⟩

/-- A character of joined sections is a line break or stands in one of them. -/
theorem mem_joinSections {c : Char} {sections : List Text} (h : c ∈ joinSections sections) :
    c = '\n' ∨ ∃ t ∈ sections, c ∈ t := by
  have htrim : ∀ {t : Text}, c ∈ trimEnd t → c ∈ t := fun h =>
    (List.rdropWhile_prefix isWhitespace _).subset h
  rcases List.mem_append.1 h with h | h
  · rcases mem_joinWith (htrim h) with hsep | ⟨t, ht, hc⟩
    · left
      simpa [sectionSeparator, lit_eq] using hsep
    · obtain ⟨s, hs, rfl⟩ := List.mem_map.1 ht
      exact Or.inr ⟨s, hs, htrim hc⟩
  · left
    simpa [lit_eq] using h

/-! ### One step -/

/-- The file gets a section of its own. -/
def DecidedFile.included (item : DecidedFile) : Bool :=
  match item.decision.action with
  | .omit | .error => false
  | _ => true

/-- The section of an included file. -/
def DecidedFile.rendered (profile : ContextProfile) (item : DecidedFile) : Text :=
  (renderFileSection item.evidence item.decision profile).1

/-- What a step appends to the sections. -/
def stepSections (profile : ContextProfile) (item : DecidedFile) : List Text :=
  if item.included then [item.rendered profile] else []

/-- What a step appends to the issues. -/
def stepIssues (item : DecidedFile) : List Text :=
  if item.decision.action = .error then [issueLine item] else []

/-- What a step appends to the omitted rows. -/
def stepOmitted (plan : OmittedSummaryPlan) (item : DecidedFile) : List OmittedRow :=
  if item.decision.action = .omit then [omittedRow plan item] else []

/-- The decision that a step records. -/
def stepDecision (profile : ContextProfile) (item : DecidedFile) : BudgetedDecision :=
  match item.decision.action with
  | .omit => ⟨item.evidence.fileIdentity, { item.decision with outputChars := 0 }⟩
  | .error => ⟨item.evidence.fileIdentity,
      { item.decision with outputChars := countChars (issueLine item) + 1 }⟩
  | _ => ⟨item.evidence.fileIdentity, (renderFileSection item.evidence item.decision profile).2⟩

/-- What a run over the items has added to a state. -/
structure Renders (plan : OmittedSummaryPlan) (profile : ContextProfile)
    (state state' : RenderState) (items : List DecidedFile) : Prop where
  sections : state'.sections = state.sections ++ items.flatMap (stepSections profile)
  issues : state'.parseIssues = state.parseIssues ++ items.flatMap stepIssues
  omitted : state'.omittedFiles = state.omittedFiles ++ items.flatMap (stepOmitted plan)
  decisions : state'.decisions = state.decisions ++ items.map (stepDecision profile)
  included : state'.includedFileCount =
    state.includedFileCount + items.countP DecidedFile.included

variable {plan : OmittedSummaryPlan} {profile : ContextProfile}

/-- **One step succeeds exactly when an included file leaves room for the footer**, and then it
adds what the file asks for. -/
theorem renderStep_ok {state : RenderState} {item : DecidedFile}
    (h : item.included = true →
      canAppendWithFooter state.sections (item.rendered profile) profile.globalMaxChars = true) :
    ∃ state', renderStep plan profile state item = .ok state' := by
  cases haction : item.decision.action <;>
    simp_all [renderStep, DecidedFile.included, DecidedFile.rendered]

theorem renderStep_renders {state state' : RenderState} {item : DecidedFile}
    (h : renderStep plan profile state item = .ok state') :
    Renders plan profile state state' [item] := by
  unfold renderStep at h
  split at h
  next haction =>
    simp only [Except.ok.injEq] at h
    subst h
    constructor <;> simp [stepSections, stepIssues, stepOmitted, stepDecision,
      DecidedFile.included, haction]
  next haction =>
    simp only [Except.ok.injEq] at h
    subst h
    constructor <;> simp [stepSections, stepIssues, stepOmitted, stepDecision,
      DecidedFile.included, haction]
  next homit herror =>
    replace homit : item.decision.action ≠ .omit := homit
    replace herror : item.decision.action ≠ .error := herror
    -- keep, compress and metadata-only files get a section
    have hinc : item.included = true := by
      unfold DecidedFile.included
      split <;> simp_all
    have hdecision : stepDecision profile item = ⟨item.evidence.fileIdentity,
        (renderFileSection item.evidence item.decision profile).2⟩ := by
      unfold stepDecision
      split <;> simp_all
    by_cases hroom : canAppendWithFooter state.sections (item.rendered profile)
        profile.globalMaxChars = true
    · rw [DecidedFile.rendered] at hroom
      simp only [hroom, if_true, Except.ok.injEq] at h
      subst h
      constructor <;> simp [stepSections, stepIssues, stepOmitted, DecidedFile.rendered, hinc,
        hdecision, homit, herror]
    · rw [DecidedFile.rendered] at hroom
      simp [hroom] at h

theorem Renders.trans {s₁ s₂ s₃ : RenderState} {items items' : List DecidedFile}
    (h : Renders plan profile s₁ s₂ items) (h' : Renders plan profile s₂ s₃ items') :
    Renders plan profile s₁ s₃ (items ++ items') where
  sections := by rw [h'.sections, h.sections, List.flatMap_append, List.append_assoc]
  issues := by rw [h'.issues, h.issues, List.flatMap_append, List.append_assoc]
  omitted := by rw [h'.omitted, h.omitted, List.flatMap_append, List.append_assoc]
  decisions := by rw [h'.decisions, h.decisions, List.map_append, List.append_assoc]
  included := by rw [h'.included, h.included, List.countP_append, Nat.add_assoc]

theorem Renders.refl (state : RenderState) : Renders plan profile state state [] := by
  constructor <;> simp

/-! ### The whole run -/

/-- **A successful run has added what its files ask for.** -/
theorem foldlM_renderStep_renders {items : List DecidedFile} {state state' : RenderState}
    (h : items.foldlM (renderStep plan profile) state = .ok state') :
    Renders plan profile state state' items := by
  induction items generalizing state with
  | nil =>
    simp only [List.foldlM_nil, pure, Except.pure, Except.ok.injEq] at h
    subst h
    exact Renders.refl state
  | cons item items ih =>
    rw [List.foldlM_cons] at h
    obtain ⟨s, hs, hrest⟩ := bind_eq_ok.1 h
    exact (renderStep_renders hs).trans (ih hrest)

/-- A run succeeds when all its sections together leave room for the footer. -/
theorem foldlM_renderStep_ok {items : List DecidedFile} {state : RenderState}
    (h : sectionsCost (state.sections ++ items.flatMap (stepSections profile)) +
      parseFooter.length + 1 ≤ profile.globalMaxChars) :
    ∃ state', items.foldlM (renderStep plan profile) state = .ok state' := by
  induction items generalizing state with
  | nil => exact ⟨state, rfl⟩
  | cons item items ih =>
    have hroom : item.included = true →
        canAppendWithFooter state.sections (item.rendered profile) profile.globalMaxChars =
          true := by
      intro hinc
      have hne : state.sections ++ [item.rendered profile, parseFooter] ≠ [] := by simp
      have hle := length_joinSections_le hne
      rw [canAppendWithFooter, decide_eq_true_iff, countChars]
      simp only [List.flatMap_cons, stepSections, hinc, if_true, sectionsCost_append,
        sectionsCost_cons, sectionsCost_nil] at h hle
      omega
    obtain ⟨s, hs⟩ : ∃ s, renderStep plan profile state item = .ok s := renderStep_ok hroom
    have hsections := (renderStep_renders hs).sections
    have hrest : sectionsCost (s.sections ++ items.flatMap (stepSections profile)) +
        parseFooter.length + 1 ≤ profile.globalMaxChars := by
      rw [hsections]
      simpa [List.append_assoc] using h
    obtain ⟨s', hs'⟩ := ih hrest
    exact ⟨s', by rw [List.foldlM_cons]; exact bind_eq_ok.2 ⟨s, hs, hs'⟩⟩

/-! ### The omitted summary -/

/-- Characters a detail row adds to the summary. -/
def OmittedRow.cost (row : OmittedRow) : ℕ := countChars row.detailLine + 1

theorem appendDetailRows_eq_ok {reservation used : ℕ} {rows : List OmittedRow}
    {result : List Text × ℕ} (h : appendDetailRows reservation used rows = .ok result) :
    result = (rows.map OmittedRow.detailLine, used + totalCost OmittedRow.cost rows) := by
  induction rows generalizing used result with
  | nil =>
    simp only [appendDetailRows, Except.ok.injEq] at h
    simp [← h]
  | cons row rows ih =>
    unfold appendDetailRows at h
    split_ifs at h
    obtain ⟨rest, hrest, h⟩ := bind_eq_ok.1 h
    simp only [pure, Except.pure, Except.ok.injEq] at h
    simp only [ih hrest] at h
    rw [← h, totalCost_cons, OmittedRow.cost, Nat.add_assoc]
    rfl

theorem appendDetailRows_ok {reservation used : ℕ} {rows : List OmittedRow}
    (h : used + totalCost OmittedRow.cost rows ≤ reservation) :
    appendDetailRows reservation used rows =
      .ok (rows.map OmittedRow.detailLine, used + totalCost OmittedRow.cost rows) := by
  induction rows generalizing used with
  | nil => rfl
  | cons row rows ih =>
    rw [totalCost_cons] at h
    have hrow : used + (countChars row.detailLine + 1) ≤ reservation := by
      unfold OmittedRow.cost at h
      omega
    have hrest : used + (countChars row.detailLine + 1) + totalCost OmittedRow.cost rows ≤
        reservation := by
      unfold OmittedRow.cost at h ⊢
      omega
    rw [appendDetailRows, if_pos hrow, ih hrest, totalCost_cons, Nat.add_assoc]
    rfl

/-- What is used before the aggregate rows: the header and the detail rows. -/
def detailUse (omitted : List OmittedRow) : ℕ :=
  countChars (joinWith (lit "\n") (omittedSummaryHeader omitted)) + sectionSeparatorChars +
    totalCost OmittedRow.cost (omitted.filter OmittedRow.inDetailSlot)

/-- The aggregate rows that fit, and those that do not. -/
def aggregateFill (omitted : List OmittedRow) (reservation : ℕ) : Fill OmittedGroup :=
  fillWithin OmittedGroup.cost reservation (detailUse omitted) (omittedGroups omitted)

/-- **The lines of a summary** that could be written. -/
theorem omittedSummaryLines_eq_ok {omitted : List OmittedRow} {reservation : ℕ}
    {lines : List Text} (h : omittedSummaryLines omitted reservation = .ok lines) :
    ∃ other, catchAllRow reservation (aggregateFill omitted reservation).used
        (aggregateFill omitted reservation).skipped = .ok other ∧
      lines = omittedSummaryHeader omitted ++
        (omitted.filter OmittedRow.inDetailSlot).map OmittedRow.detailLine ++
        (aggregateFill omitted reservation).taken.map OmittedGroup.line ++ other := by
  unfold omittedSummaryLines at h
  obtain ⟨details, hdetails, h⟩ := bind_eq_ok.1 h
  have hd := appendDetailRows_eq_ok hdetails
  subst hd
  obtain ⟨other, hother, h⟩ := bind_eq_ok.1 h
  simp only [pure, Except.pure, Except.ok.injEq] at h
  exact ⟨other, hother, h.symm⟩

theorem omittedSummaryLines_ok {omitted : List OmittedRow} {reservation : ℕ}
    (hdetails : detailUse omitted ≤ reservation) {other : List Text}
    (hother : catchAllRow reservation (aggregateFill omitted reservation).used
        (aggregateFill omitted reservation).skipped = .ok other) :
    omittedSummaryLines omitted reservation =
      .ok (omittedSummaryHeader omitted ++
        (omitted.filter OmittedRow.inDetailSlot).map OmittedRow.detailLine ++
        (aggregateFill omitted reservation).taken.map OmittedGroup.line ++ other) := by
  unfold omittedSummaryLines
  refine bind_eq_ok.2 ⟨_, appendDetailRows_ok hdetails, ?_⟩
  exact bind_eq_ok.2 ⟨other, hother, rfl⟩

/-- A catch-all row is there exactly when some group found no room. -/
theorem catchAllRow_eq_ok {reservation used : ℕ} {skipped : List OmittedGroup}
    {other : List Text} (h : catchAllRow reservation used skipped = .ok other) :
    other = [] ∨ ∃ count, other = [omittedCatchAll (decimal count)] ∧
      used + (countChars (omittedCatchAll (decimal count)) + 1) ≤ reservation := by
  unfold catchAllRow at h
  simp only at h
  split_ifs at h with hcount hfits
  · simp only [Except.ok.injEq] at h
    exact Or.inr ⟨_, h.symm, hfits⟩
  · simp only [Except.ok.injEq] at h
    exact Or.inl h.symm

/-! ### The sections before the parse issues -/

section

variable [UnicodeCase] (decided : List DecidedFile) (profile : ContextProfile)
  (reportMode : ReportMode)

/-- The fixed sections of a run and the sections of its included files. -/
def includedSections : List Text :=
  (initialRenderState decided profile reportMode).sections ++
    decided.flatMap (stepSections profile)

/-- The sections before the omitted summary: a run without included files says so, if it fits. -/
def evidenceSections : List Text :=
  if decided.countP DecidedFile.included = 0 then
    appendIfFits (includedSections decided profile reportMode) noEvidence profile.globalMaxChars
  else includedSections decided profile reportMode

/-- The rows of the omitted files. -/
def omittedRows : List OmittedRow := decided.flatMap (stepOmitted (omittedPlan decided profile))

/-- The sections before the parse issues. -/
def bodySections : Except Text (List Text) :=
  appendOmittedSummary (evidenceSections decided profile reportMode) (omittedRows decided profile)
    (omittedPlan decided profile).reservation profile.globalMaxChars

/-- The lines of the failed files, in nominal order. -/
def errorLines : List Text := decided.flatMap stepIssues

variable {decided profile reportMode}

/-- **A successful rendering** is its body with the parse issues appended where they fit. -/
theorem renderDecided_eq_ok {state : RenderState} {content : Text}
    (h : renderDecided decided profile reportMode = .ok (state, content)) :
    Renders (omittedPlan decided profile) profile (initialRenderState decided profile reportMode)
        state decided ∧
      ∃ body, bodySections decided profile reportMode = .ok body ∧
        content = joinSections
          (appendParseIssues body (errorLines decided) profile.globalMaxChars) ∧
        content.length ≤ profile.globalMaxChars := by
  unfold renderDecided at h
  obtain ⟨s, hs, h⟩ := bind_eq_ok.1 h
  obtain ⟨body, hbody, h⟩ := bind_eq_ok.1 h
  have hrun := foldlM_renderStep_renders hs
  have hissues : s.parseIssues = errorLines decided := by
    rw [hrun.issues]; rfl
  have homitted : s.omittedFiles = omittedRows decided profile := by
    rw [hrun.omitted]; rfl
  have hincluded : s.includedFileCount = decided.countP DecidedFile.included := by
    rw [hrun.included]; simp [initialRenderState]
  have hsections : s.sections = includedSections decided profile reportMode := hrun.sections
  simp only at h
  split_ifs at h with hover hempty
  simp only [pure, Except.pure, Except.ok.injEq, Prod.mk.injEq] at h
  obtain ⟨rfl, rfl⟩ := h
  rw [hissues] at hover ⊢
  rw [hincluded, hsections, homitted] at hbody
  exact ⟨hrun, body, hbody, rfl, Nat.le_of_not_lt hover⟩

/-- **A rendering succeeds** when its sections leave room for the footer, its omitted summary can
be written, and the body stays within the budget. -/
theorem renderDecided_ok {body : List Text}
    (hroom : sectionsCost (includedSections decided profile reportMode) + parseFooter.length + 1 ≤
      profile.globalMaxChars)
    (hbody : bodySections decided profile reportMode = .ok body)
    (hlen : (joinSections body).length ≤ profile.globalMaxChars) :
    ∃ state content, renderDecided decided profile reportMode = .ok (state, content) := by
  obtain ⟨s, hs⟩ : ∃ s, decided.foldlM (renderStep (omittedPlan decided profile) profile)
      (initialRenderState decided profile reportMode) = .ok s := foldlM_renderStep_ok hroom
  have hrun := foldlM_renderStep_renders hs
  have homitted : s.omittedFiles = omittedRows decided profile := by
    rw [hrun.omitted]; rfl
  have hincluded : s.includedFileCount = decided.countP DecidedFile.included := by
    rw [hrun.included]; simp [initialRenderState]
  have hsections : s.sections = includedSections decided profile reportMode := hrun.sections
  have hcontent : (joinSections
      (appendParseIssues body s.parseIssues profile.globalMaxChars)).length ≤
        profile.globalMaxChars := by
    unfold appendParseIssues appendIfFits countChars
    split_ifs with hfits
    · exact hfits
    · exact hlen
  refine ⟨s, joinSections (appendParseIssues body s.parseIssues profile.globalMaxChars), ?_⟩
  unfold renderDecided
  refine bind_eq_ok.2 ⟨s, hs, bind_eq_ok.2 ⟨body, ?_, ?_⟩⟩
  · rw [hincluded, hsections, homitted]
    exact hbody
  · rw [if_neg (by rw [countChars]; omega), if_neg (joinSections_ne_nil _)]
    rfl

end

end DailyReport
