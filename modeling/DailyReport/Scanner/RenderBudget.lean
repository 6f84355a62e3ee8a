import DailyReport.Scanner.Rendering
import Mathlib.Data.List.Dedup

/-!
# The reservations cover the rendering

The admission prices every file at the worst case of its section (`length_rendered_le`), so the
text of an admitted run fits the budget, with one exception: the omitted summary has a fixed
reservation of its own, which its aggregate rows may use up before the catch-all row is written.

* `buildContext_ok_iff` : **an admitted run is rendered exactly when the catch-all row of its
  omitted summary finds room**;
* `buildContext_catchAll_lost` : an admitted run that fails.
-/

namespace DailyReport

open Lib

/-! ### Shortened bodies -/

theorem length_omittedMarker_le {pre : Text} {omitted : ℕ} (hpre : pre.length ≤ 2)
    (homitted : omitted ≤ u64Max) : (omittedMarker pre omitted).length ≤ 34 := by
  have hdigits := length_decimal_le_twenty homitted
  have hopen : (lit "…（已省略").length = 5 := by simp [lit_eq]
  have habout : (lit "约 ").length = 2 := by simp [lit_eq]
  have hclose : (lit " 字符）…").length = 5 := by simp [lit_eq]
  simp only [omittedMarker, List.length_append, hopen, habout, hclose]
  omega

theorem newlineBoundaryAtOrBefore_le (content : Text) (position : ℕ) :
    newlineBoundaryAtOrBefore content position ≤ position := by
  unfold newlineBoundaryAtOrBefore
  split <;> omega

theorem le_newlineBoundaryAtOrAfter (content : Text) (position : ℕ) :
    position ≤ newlineBoundaryAtOrAfter content position := by
  unfold newlineBoundaryAtOrAfter
  split <;> omega

/-- The marker has its own reserve within the limit. -/
theorem length_takeHeadAndTail_le {content : Text} (limit : ℕ)
    (hcontent : content.length ≤ u64Max) : (takeHeadAndTail content limit).length ≤ limit := by
  unfold takeHeadAndTail
  split_ifs with hsmall
  · simp
  · simp only [omittedMarkerReserve, Nat.not_lt] at hsmall ⊢
    set available := max (limit - 64) 1
    set headBudget := available * headRatioPerMille / 1000 with hhead
    have hbudget : headBudget ≤ available := by
      rw [hhead, headRatioPerMille]
      omega
    have hbefore := newlineBoundaryAtOrBefore_le content headBudget
    have hafter := le_newlineBoundaryAtOrAfter content
      (countChars content - (available - headBudget))
    simp only [List.length_append, countChars] at hafter ⊢
    have hmarker : ∀ omitted, omitted ≤ content.length →
        (omittedMarker (lit "中部") omitted).length ≤ 34 := fun omitted h =>
      length_omittedMarker_le (by simp [lit_eq]) (h.trans hcontent)
    refine le_trans (Nat.add_le_add_right (Nat.add_le_add_left (hmarker _ (by omega)) _) _) ?_
    simp only [List.length_take, List.length_drop]
    omega

theorem length_takeLogTail_le {content : Text} (limit : ℕ) (hcontent : content.length ≤ u64Max) :
    (takeLogTail content limit).length ≤ limit := by
  unfold takeLogTail
  split_ifs with hsmall
  · simp
  · simp only [omittedMarkerReserve, Nat.not_lt, countChars] at hsmall ⊢
    have hmarker : ∀ omitted, omitted ≤ content.length →
        (omittedMarker (lit "头部") omitted).length ≤ 34 := fun omitted h =>
      length_omittedMarker_le (by simp [lit_eq]) (h.trans hcontent)
    rw [List.length_append]
    refine le_trans (Nat.add_le_add_right (hmarker _ (by omega)) _) ?_
    simp only [List.length_drop]
    omega

/-- **A shortened body stays within the limit.** -/
theorem length_shortenBody_le {e : ContextFileEvidence} (limit : ℕ)
    (hcontent : e.content.length ≤ u64Max) : (shortenBody e limit).length ≤ limit := by
  unfold shortenBody
  split_ifs
  · exact length_takeLogTail_le limit hcontent
  · exact length_takeHeadAndTail_le limit hcontent

/-! ### Rendered sections -/

/-- What the budget model assumes about the section of an admitted file. -/
structure Priced (e : ContextFileEvidence) (hint : RouteHint) : Prop where
  path : e.relativePath.length ≤ hint.relativePath.length
  content : e.content.length ≤ hint.maxExcerptChars
  backend : e.parserBackend.length ≤ maxSectionTextChars

section

variable {e : ContextFileEvidence} {hint : RouteHint} {model : ContextBudgetModel}

theorem successSectionMax_le_reservedDelta {bodyChars : ℕ}
    (hperFile : bodyChars ≤ model.perFileMaxChars) (hexcerpt : bodyChars ≤ hint.maxExcerptChars) :
    successSectionMax hint.relativePath.length bodyChars ≤ model.reservedDelta hint := by
  have hbody : bodyChars ≤ min model.perFileMaxChars hint.maxExcerptChars := le_min hperFile hexcerpt
  refine le_trans ?_ ((le_max_left _ _).trans (le_max_left _ _))
  unfold successSectionMax countChars
  omega

theorem metadataSectionMax_le_reservedDelta :
    metadataSectionMax hint.relativePath.length ≤ model.reservedDelta hint :=
  (le_max_right _ _).trans (le_max_left _ _)

theorem length_wireName_le_max (action : ContextAction) : action.wireName.length ≤ 64 :=
  action.length_wireName_le.trans (by omega)

theorem length_renderBodySection_le (decision : ContextDecision) (body : Text)
    (hpath : decision.relativePath.length ≤ hint.relativePath.length)
    (haction : decision.action.wireName.length ≤ 64) (hreason : decision.reason.length ≤ 64)
    (hbackend : e.parserBackend.length ≤ 64) (hinput : decision.inputChars ≤ u64Max)
    (houtput : decision.outputChars ≤ u64Max) :
    (renderBodySection e decision body).length + 2 ≤
      successSectionMax hint.relativePath.length body.length := by
  have hin := length_decimal_le_twenty hinput
  have hout := length_decimal_le_twenty houtput
  have hlane := e.workerLane.length_wireName_le
  have hnote : (if decision.truncated then truncatedNote else []).length ≤ 20 := by
    split_ifs <;> simp [truncatedNote, lit_eq]
  simp only [renderBodySection, successSectionMax, headingChars, keyValueLine, countChars,
    List.length_append, maxSectionTextChars, maxSectionReasonChars, maxU64Digits,
    sectionSeparatorChars]
  simp only [lit_eq, String.reduceToList, List.length_cons, List.length_nil, Nat.reduceAdd]
  omega

theorem length_renderMetadataSection_le (decision : ContextDecision)
    (hpath : decision.relativePath.length ≤ hint.relativePath.length)
    (hreason : decision.reason.length ≤ 64) (hbackend : e.parserBackend.length ≤ 64)
    (hextension : e.extension.length ≤ 32) (hsize : e.sizeBytes.getD 0 ≤ u64Max)
    (hinput : decision.inputChars ≤ u64Max) :
    (renderMetadataSection e decision).length + 2 ≤
      metadataSectionMax hint.relativePath.length := by
  have hsize := length_decimal_le_twenty hsize
  have hin := length_decimal_le_twenty hinput
  have hlane := e.workerLane.length_wireName_le
  simp only [renderMetadataSection, metadataSectionMax, headingChars, keyValueLine, countChars,
    List.length_append, maxSectionTextChars, maxSectionReasonChars, maxU64Digits,
    maxExtensionChars, sectionSeparatorChars]
  simp only [lit_eq, String.reduceToList, List.length_cons, List.length_nil, Nat.reduceAdd]
  omega

variable {profile : ContextProfile}

/-- The section of a decision stays below the price of its file. -/
theorem length_renderFileSection_le {decision : ContextDecision} (hpriced : Priced e hint)
    (hmodel : model.perFileMaxChars = profile.perFileMaxChars)
    (hpath : decision.relativePath.length ≤ hint.relativePath.length)
    (hreason : decision.reason.length ≤ 64) (hinput : decision.inputChars ≤ u64Max)
    (hextension : e.extension.length ≤ 32)
    (hsize : decision.action = .metadataOnly → e.sizeBytes.getD 0 ≤ u64Max)
    (hcontent : decision.action ≠ .metadataOnly → e.content.length ≤ u64Max) :
    (renderFileSection e decision profile).1.length + 2 ≤
      model.reservedDelta hint := by
  have hbackend : e.parserBackend.length ≤ 64 := hpriced.backend
  have hexcerpt := hpriced.content
  unfold renderFileSection
  by_cases hmeta : decision.action = .metadataOnly
  · rw [if_pos hmeta]
    refine le_trans ?_ metadataSectionMax_le_reservedDelta
    exact length_renderMetadataSection_le _ hpath hreason hbackend hextension (hsize hmeta) hinput
  · rw [if_neg hmeta]
    -- the body of a section is no longer than the file's content and than its own limit
    by_cases hlong : countChars e.content > profile.perFileMaxChars
    · have hbody := length_shortenBody_le profile.perFileMaxChars (hcontent hmeta)
      have hlong' : profile.perFileMaxChars < e.content.length := hlong
      have houtput := hbody.trans (hlong'.le.trans (hcontent hmeta))
      rw [if_pos hlong]
      refine le_trans ?_ (successSectionMax_le_reservedDelta (hbody.trans hmodel.ge) (by omega))
      exact length_renderBodySection_le _ _ hpath (length_wireName_le_max _) hreason hbackend
        hinput houtput
    · have hshort : e.content.length ≤ profile.perFileMaxChars := Nat.le_of_not_lt hlong
      rw [if_neg hlong]
      refine le_trans ?_ (successSectionMax_le_reservedDelta (hshort.trans hmodel.ge) hexcerpt)
      exact length_renderBodySection_le _ _ hpath (length_wireName_le_max _) hreason hbackend
        hinput (hcontent hmeta)

theorem length_compressionReason_le (extension : Text) :
    (compressionReason extension).length ≤ 64 := by
  unfold compressionReason
  split_ifs <;> simp [lit_eq]

/-- The reasons of the included files are the policy's own. -/
theorem length_decideAction_reason_le (hsuccess : e.parseStatus = .success) :
    (decideAction e profile).2.length ≤ 64 := by
  simp only [decideAction, hsuccess]
  split_ifs
  · simp [lit_eq]
  · simp [lit_eq]
  · simp [lit_eq]
  · exact length_compressionReason_le _

theorem decideAction_of_success (profile : ContextProfile) (hsuccess : e.parseStatus = .success) :
    (decideAction e profile).1 = .keep ∨ (decideAction e profile).1 = .compress ∨
      (decideAction e profile).1 = .metadataOnly := by
  simp only [decideAction, hsuccess]
  split_ifs <;> simp

variable [UnicodeCase]

/-- The included files are the parsed ones. -/
theorem decideFile_included (profile : ContextProfile) (e : ContextFileEvidence) :
    (decideFile e profile).included = true ↔ e.parseStatus = .success := by
  by_cases hsuccess : e.parseStatus = .success
  · refine iff_of_true ?_ hsuccess
    rcases decideAction_of_success profile hsuccess with h | h | h <;>
      simp [DecidedFile.included, decideFile, h]
  · refine iff_of_false ?_ hsuccess
    cases hstatus : e.parseStatus <;>
      simp_all [DecidedFile.included, decideFile, decideAction]

/-- **A rendered section stays below its price.** -/
theorem length_rendered_le (hvalid : e.Valid) (hsuccess : e.parseStatus = .success)
    (hpriced : Priced e hint) (hmodel : model.perFileMaxChars = profile.perFileMaxChars)
    (hinput : (decideFile e profile).decision.inputChars ≤ u64Max) :
    ((decideFile e profile).rendered profile).length + 2 ≤
      model.reservedDelta hint := by
  refine length_renderFileSection_le hpriced hmodel hpriced.path
    (length_decideAction_reason_le hsuccess) hinput ?_ ?_ ?_
  · have := hvalid.extension
    simp only [isExtension, countChars, Bool.and_eq_true] at this
    exact of_decide_eq_true this.1.1.2
  · intro hmeta
    replace hmeta : (decideAction e profile).1 = .metadataOnly := hmeta
    simpa [decideFile, hmeta] using hinput
  · intro hmeta
    replace hmeta : (decideAction e profile).1 ≠ .metadataOnly := hmeta
    rcases (decideAction_of_success profile hsuccess).imp_right fun h => h.resolve_right hmeta with h | h
    · simpa [decideFile, h, countChars] using hinput
    · simpa [decideFile, h, countChars] using hinput

end

/-! ### The omitted summary -/

/-- The skipped groups of a summary leave room for the row that counts their files. -/
def CatchAllFits (omitted : List OmittedRow) (reservation : ℕ) : Prop :=
  (aggregateFill omitted reservation).skipped = [] ∨
    (aggregateFill omitted reservation).used +
      (omittedCatchAll (decimal ((aggregateFill omitted reservation).skipped.map
        OmittedGroup.count).sum)).length + 1 ≤ reservation

section

variable {omitted : List OmittedRow} {reservation : ℕ}

theorem omittedGroups_ne_nil (h : omitted ≠ []) : omittedGroups omitted ≠ [] := by
  obtain ⟨row, hrow⟩ := List.exists_mem_of_ne_nil _ h
  have hkey : (row.reason, row.extension) ∈ (omitted.map fun row => (row.reason, row.extension)) :=
    List.mem_map.2 ⟨row, hrow, rfl⟩
  exact List.ne_nil_of_mem
    (List.mem_map.2 ⟨_, mem_sortByKey.2 (List.mem_dedup.2 hkey), rfl⟩)

/-- A group has a file. -/
theorem OmittedGroup.count_pos {group : OmittedGroup} (h : group ∈ omittedGroups omitted) :
    0 < group.count := by
  obtain ⟨key, hkey, rfl⟩ := List.mem_map.1 h
  exact List.count_pos_iff.2 (List.mem_dedup.1 (mem_sortByKey.1 hkey))

theorem mem_omittedGroups_of_skipped {group : OmittedGroup}
    (h : group ∈ (aggregateFill omitted reservation).skipped) : group ∈ omittedGroups omitted :=
  (fillWithin_perm _ _).subset (List.mem_append_right _ h)

/-- **The catch-all row is the only one that may find no room.** -/
theorem catchAllRow_ok_iff :
    (∃ other, catchAllRow reservation (aggregateFill omitted reservation).used
      (aggregateFill omitted reservation).skipped = .ok other) ↔
      CatchAllFits omitted reservation := by
  unfold catchAllRow CatchAllFits countChars
  by_cases hnil : (aggregateFill omitted reservation).skipped = []
  · simp [hnil]
  · obtain ⟨group, hgroup⟩ := List.exists_mem_of_ne_nil _ hnil
    have hpos : 0 < ((aggregateFill omitted reservation).skipped.map OmittedGroup.count).sum :=
      lt_of_lt_of_le (OmittedGroup.count_pos (mem_omittedGroups_of_skipped hgroup))
        (List.le_sum_of_mem (List.mem_map_of_mem hgroup))
    simp only [hnil, false_or, if_pos hpos, Nat.add_assoc]
    split_ifs with hfits
    · simp [hfits]
    · simp [hfits]

/-- What is used before the catch-all row stays within the reservation. -/
theorem used_aggregateFill_le (hne : omitted ≠ []) (hfits : CatchAllFits omitted reservation) :
    (aggregateFill omitted reservation).used ≤ reservation := by
  rcases hfits with hnil | hfits
  · refine used_fillWithin_le_of_taken fun htaken => omittedGroups_ne_nil hne ?_
    have hperm : ((aggregateFill omitted reservation).taken ++
        (aggregateFill omitted reservation).skipped).Perm (omittedGroups omitted) :=
      fillWithin_perm _ _
    have htaken' : (aggregateFill omitted reservation).taken = [] := htaken
    simpa [htaken', hnil] using hperm
  · omega

/-- Lines under a header cost one line break each. -/
theorem length_joinWith_header {header : List Text} (hne : header ≠ []) (lines : List Text) :
    (joinWith (lit "\n") (header ++ lines)).length =
      (joinWith (lit "\n") header).length + totalCost (fun line => line.length + 1) lines := by
  have hpos := List.length_pos_iff.2 hne
  have hlines : totalCost (fun line : Text => line.length + 1) lines =
      totalLength lines + lines.length := by
    induction lines with
    | nil => rfl
    | cons line lines ih =>
      rw [totalCost_cons, totalLength_cons, List.length_cons, ih]
      omega
  simp only [length_joinWith, length_newline, totalLength_append, List.length_append, hlines]
  omega

/-- **A summary whose catch-all row finds room** fits the reservation. -/
theorem omittedSummary_ok (hne : omitted ≠ []) (hfits : CatchAllFits omitted reservation) :
    ∃ lines, omittedSummaryLines omitted reservation = .ok lines ∧
      (joinWith (lit "\n") lines).length + 2 ≤ reservation := by
  obtain ⟨other, hother⟩ := catchAllRow_ok_iff.2 hfits
  have hused := used_aggregateFill_le hne hfits
  have hfill : (aggregateFill omitted reservation).used = detailUse omitted +
      totalCost OmittedGroup.cost (aggregateFill omitted reservation).taken := used_fillWithin _ _
  refine ⟨_, omittedSummaryLines_ok (by omega) hother, ?_⟩
  have hrest : (aggregateFill omitted reservation).used +
      totalCost (fun line : Text => line.length + 1) other ≤ reservation := by
    rcases catchAllRow_eq_ok hother with rfl | ⟨count, rfl, hcount⟩
    · simpa using hused
    · simpa [countChars] using hcount
  have hheader : omittedSummaryHeader omitted ≠ [] := by simp [omittedSummaryHeader]
  have hdetails : totalCost (fun line : Text => line.length + 1)
      ((omitted.filter OmittedRow.inDetailSlot).map OmittedRow.detailLine) =
      totalCost OmittedRow.cost (omitted.filter OmittedRow.inDetailSlot) := totalCost_map _ _
  have htaken : totalCost (fun line : Text => line.length + 1)
      ((aggregateFill omitted reservation).taken.map OmittedGroup.line) =
      totalCost OmittedGroup.cost (aggregateFill omitted reservation).taken := totalCost_map _ _
  rw [List.append_assoc, List.append_assoc, length_joinWith_header hheader]
  simp only [totalCost_append, hdetails, htaken]
  simp only [detailUse, countChars, sectionSeparatorChars] at hfill
  omega

end

/-! ### Admitted runs -/

theorem sectionsCost_contextSections (profile : ContextProfile) (reportMode : ReportMode)
    (sourceFileCount : ℕ) (successText failureText : Text) :
    sectionsCost (contextSections profile reportMode sourceFileCount successText failureText) =
      sectionsCost (contextSections profile reportMode sourceFileCount [] []) +
        successText.length + failureText.length := by
  simp only [contextSections, sectionsCost_cons, renderRunSummary, List.length_append,
    List.length_nil]
  omega

/-- The fixed sections of a run are priced with counts of twenty digits each. -/
theorem sectionsCost_fixedContextSections (profile : ContextProfile) (reportMode : ReportMode)
    (sourceFileCount : ℕ) (successText failureText : Text) :
    sectionsCost (contextSections profile reportMode sourceFileCount successText failureText) +
        40 =
      sectionsCost (fixedContextSections profile reportMode sourceFileCount) +
        successText.length + failureText.length := by
  unfold fixedContextSections
  rw [sectionsCost_contextSections, sectionsCost_contextSections _ _ _ (List.replicate _ _)]
  simp only [List.length_replicate, maxU64Digits]
  omega

theorem countStatus_le_length (decided : List DecidedFile) (status : ParseStatus) :
    countStatus decided status ≤ decided.length :=
  List.countP_le_length

/-- Within the ceiling of source files the counts of a run have at most seven digits. -/
theorem length_decimal_counts_le (decided : List DecidedFile)
    (h : decided.length ≤ maxSourceFilesPerRun) :
    (decimal (countStatus decided .success)).length +
      (decimal (saturatingAdd (countStatus decided .timeout)
        (countStatus decided .error))).length ≤ 14 := by
  unfold maxSourceFilesPerRun at h
  have hsuccess := countStatus_le_length decided .success
  have htimeout := countStatus_le_length decided .timeout
  have herror := countStatus_le_length decided .error
  have hsum : saturatingAdd (countStatus decided .timeout) (countStatus decided .error) ≤
      countStatus decided .timeout + countStatus decided .error := min_le_left _ _
  have h1 : (decimal (countStatus decided .success)).length ≤ 7 :=
    (length_decimal_le_iff (by omega)).2 (by omega)
  have h2 : (decimal (saturatingAdd (countStatus decided .timeout)
      (countStatus decided .error))).length ≤ 7 := (length_decimal_le_iff (by omega)).2 (by omega)
  omega

theorem totalInputChars_ok {decided : List DecidedFile}
    (h : totalCost (fun item : DecidedFile => item.decision.inputChars) decided ≤ u64Max) :
    ∃ n, totalInputChars decided = .ok n := by
  rw [← Nat.zero_add (totalCost _ decided)] at h
  unfold totalInputChars
  -- the induction is about every start of the sum
  generalize 0 = start at h ⊢
  induction decided generalizing start with
  | nil => exact ⟨start, rfl⟩
  | cons item decided ih =>
    rw [totalCost_cons] at h
    have hadd : checkedAdd start item.decision.inputChars =
        some (start + item.decision.inputChars) := by
      unfold checkedAdd
      rw [if_pos (by omega)]
    obtain ⟨n, hn⟩ := ih (start + item.decision.inputChars) (by omega)
    exact ⟨n, by rw [List.foldlM_cons, hadd]; exact hn⟩

theorem appendIfFits_noEvidence_cost (sections : List Text) (globalBudget : ℕ) :
    sectionsCost sections ≤ sectionsCost (appendIfFits sections noEvidence globalBudget) ∧
      sectionsCost (appendIfFits sections noEvidence globalBudget) ≤ sectionsCost sections + 7 := by
  have hlen : noEvidence.length = 5 := by simp [noEvidence, lit_eq]
  unfold appendIfFits
  split_ifs
  · rw [sectionsCost_append, sectionsCost_singleton, hlen]
    omega
  · omega

theorem included_le_evidenceSections (decided : List DecidedFile) (profile : ContextProfile)
    (reportMode : ReportMode) :
    sectionsCost (includedSections decided profile reportMode) ≤
      sectionsCost (evidenceSections decided profile reportMode) := by
  unfold evidenceSections
  split_ifs
  · exact (appendIfFits_noEvidence_cost _ _).1
  · exact le_rfl

section

variable [UnicodeCase]

/-- Characters that a file adds to the input of the context. -/
def inputCharsOf (profile : ContextProfile) (e : ContextFileEvidence) : ℕ :=
  (decideFile e profile).decision.inputChars

/-- The admitted files of a run are its parsed ones. -/
def parsedFiles (evidence : List ContextFileEvidence) : List ContextFileEvidence :=
  evidence.filter fun e => e.parseStatus = .success

/-- A run whose files were admitted by the budget model: its evidence is valid and within the
engine's ceiling, and the prices of its parsed files fit beside the fixed sections.  The model may
have priced `extra` sections besides those of the context. -/
structure AdmittedRun (evidence : List ContextFileEvidence) (profile : ContextProfile)
    (reportMode : ReportMode) (model : ContextBudgetModel)
    (hint : ContextFileEvidence → RouteHint) (extra : List Text) : Prop where
  valid : ∀ e ∈ evidence, e.validate = .ok ()
  count : evidence.length ≤ maxSourceFilesPerRun
  input : totalCost (inputCharsOf profile) evidence ≤ u64Max
  built : ContextBudgetModel.new profile
    (fixedContextSections profile reportMode evidence.length ++ extra) = .ok model
  priced : ∀ e ∈ parsedFiles evidence, Priced e (hint e)
  admitted : model.baseChars +
    totalCost (fun e => model.reservedDelta (hint e)) (parsedFiles evidence) ≤
      model.globalMaxChars

variable {profile : ContextProfile} {reportMode : ReportMode} {model : ContextBudgetModel}
  {hint : ContextFileEvidence → RouteHint} {evidence : List ContextFileEvidence}
  {extra : List Text}

/-- The decided files of valid evidence, in nominal order. -/
def decidedOf (profile : ContextProfile) (evidence : List ContextFileEvidence) :
    List DecidedFile :=
  (sortByKey ContextFileEvidence.key evidence).map fun e => decideFile e profile

theorem length_decidedOf : (decidedOf profile evidence).length = evidence.length := by
  simp [decidedOf, length_sortByKey]

theorem parsedFiles_perm : (parsedFiles (sortByKey ContextFileEvidence.key evidence)).Perm
    (parsedFiles evidence) :=
  (sortByKey_perm _ _).filter _

/-- **The sections of the included files stay below their prices.** -/
theorem sectionsCost_included_le (hint : ContextFileEvidence → RouteHint)
    (evidence : List ContextFileEvidence) (hvalid : ∀ e ∈ evidence, e.validate = .ok ())
    (hinput : ∀ e ∈ evidence, inputCharsOf profile e ≤ u64Max)
    (hpriced : ∀ e ∈ parsedFiles evidence, Priced e (hint e))
    (hmodel : model.perFileMaxChars = profile.perFileMaxChars) :
    sectionsCost ((evidence.map fun e => decideFile e profile).flatMap
        (stepSections profile)) ≤
      totalCost (fun e => model.reservedDelta (hint e)) (parsedFiles evidence) := by
  induction evidence with
  | nil => simp [parsedFiles]
  | cons e evidence ih =>
    have hrest := ih (fun e he => hvalid e (List.mem_cons_of_mem _ he))
      (fun e he => hinput e (List.mem_cons_of_mem _ he))
      (fun e' he' => hpriced e' (List.mem_filter.2
        ⟨List.mem_cons_of_mem _ (List.mem_filter.1 he').1, (List.mem_filter.1 he').2⟩))
    rw [List.map_cons, List.flatMap_cons, sectionsCost_append]
    by_cases hsuccess : e.parseStatus = .success
    · have hcons : parsedFiles (e :: evidence) = e :: parsedFiles evidence :=
        List.filter_cons_of_pos (by simpa using hsuccess)
      have hlen := length_rendered_le
        (ContextFileEvidence.valid_of_validate (hvalid e (by simp))) hsuccess
        (hpriced e (by simp [hcons])) hmodel (hinput e (by simp))
      rw [hcons, stepSections, if_pos ((decideFile_included profile e).2 hsuccess), sectionsCost_singleton,
        totalCost_cons]
      omega
    · have hcons : parsedFiles (e :: evidence) = parsedFiles evidence :=
        List.filter_cons_of_neg (by simpa using hsuccess)
      have hnot : ¬ (decideFile e profile).included = true :=
        fun h => hsuccess ((decideFile_included profile e).1 h)
      rw [hcons, stepSections, if_neg hnot, sectionsCost_nil, Nat.zero_add]
      exact hrest

namespace AdmittedRun

/-- **An admitted run leaves room** for the omitted summary and for the footer. -/
theorem room (run : AdmittedRun evidence profile reportMode model hint extra) :
    sectionsCost (evidenceSections (decidedOf profile evidence) profile reportMode) +
        omittedSummaryReservation profile.globalMaxChars + parseFooter.length + 1 ≤
      profile.globalMaxChars := by
  obtain ⟨hglobal, hperFile, hbase, -⟩ := ContextBudgetModel.new_ok run.built
  rw [sectionsCost_append] at hbase
  have hfooter : parseFooter.length = 18 := by simp [parseFooter, lit_eq]
  have hincluded := sectionsCost_included_le hint (sortByKey ContextFileEvidence.key evidence)
    (fun e he => run.valid e (mem_sortByKey.1 he))
    (fun e he => (cost_le_totalCost (mem_sortByKey.1 he)).trans run.input)
    (fun e he => run.priced e (parsedFiles_perm.subset he)) hperFile
  rw [totalCost_perm parsedFiles_perm] at hincluded
  change sectionsCost ((decidedOf profile evidence).flatMap (stepSections profile)) ≤ _
    at hincluded
  -- the counts of the run are shorter than their prices, which pays for the footer
  have hcounts := length_decimal_counts_le (decidedOf profile evidence)
    (length_decidedOf.trans_le run.count)
  have hfixed := sectionsCost_fixedContextSections profile reportMode evidence.length
    (decimal (countStatus (decidedOf profile evidence) .success))
    (decimal (saturatingAdd (countStatus (decidedOf profile evidence) .timeout)
      (countStatus (decidedOf profile evidence) .error)))
  have hevidence : sectionsCost (evidenceSections (decidedOf profile evidence) profile
      reportMode) ≤ sectionsCost (includedSections (decidedOf profile evidence) profile
        reportMode) + 7 := by
    unfold evidenceSections
    split_ifs
    · exact (appendIfFits_noEvidence_cost _ _).2
    · exact Nat.le_add_right _ _
  have hadmitted := run.admitted
  have hsections : includedSections (decidedOf profile evidence) profile reportMode =
      contextSections profile reportMode evidence.length
        (decimal (countStatus (decidedOf profile evidence) .success))
        (decimal (saturatingAdd (countStatus (decidedOf profile evidence) .timeout)
          (countStatus (decidedOf profile evidence) .error))) ++
      (decidedOf profile evidence).flatMap (stepSections profile) := by
    simp only [includedSections, initialRenderState, length_decidedOf]
  rw [hsections, sectionsCost_append] at hevidence
  omega

/-- The text before the footer of an admitted run. -/
theorem body_ok (run : AdmittedRun evidence profile reportMode model hint extra)
    (hfits : CatchAllFits (omittedRows (decidedOf profile evidence) profile)
      (omittedSummaryReservation profile.globalMaxChars)) :
    ∃ body, bodySections (decidedOf profile evidence) profile reportMode = .ok body ∧
      (joinSections body).length ≤ profile.globalMaxChars := by
  have hroom := run.room
  have hevidence : evidenceSections (decidedOf profile evidence) profile reportMode ≠ [] := by
    have := included_le_evidenceSections (decidedOf profile evidence) profile reportMode
    intro hnil
    rw [hnil, includedSections, sectionsCost_append, initialRenderState, contextSections,
      sectionsCost_cons] at this
    simp at this
  unfold bodySections appendOmittedSummary
  by_cases hnil : omittedRows (decidedOf profile evidence) profile = []
  · rw [if_pos hnil]
    have hlen := length_joinSections_le hevidence
    exact ⟨_, rfl, by omega⟩
  · rw [if_neg hnil]
    obtain ⟨lines, hlines, hsummary⟩ := omittedSummary_ok hnil hfits
    have hfooter : parseFooter.length = 18 := by simp [parseFooter, lit_eq]
    have hlen := length_joinSections_le
      (List.append_ne_nil_of_left_ne_nil hevidence [joinWith (lit "\n") lines])
    have happend : canAppendWithFooter (evidenceSections (decidedOf profile evidence) profile
        reportMode) (joinWith (lit "\n") lines) profile.globalMaxChars = true := by
      have hlen' := length_joinSections_le
        (List.append_ne_nil_of_left_ne_nil hevidence [joinWith (lit "\n") lines, parseFooter])
      rw [canAppendWithFooter, decide_eq_true_iff, countChars]
      rw [sectionsCost_append, sectionsCost_cons, sectionsCost_singleton] at hlen'
      omega
    rw [sectionsCost_append, sectionsCost_singleton] at hlen
    have hover : ¬ countChars (joinWith (lit "\n") lines) >
        (omittedPlan (decidedOf profile evidence) profile).reservation := by
      simp only [countChars, omittedPlan, OmittedSummaryPlan.build]
      omega
    refine ⟨evidenceSections (decidedOf profile evidence) profile reportMode ++
      [joinWith (lit "\n") lines], bind_eq_ok.2 ⟨lines, hlines, ?_⟩, by omega⟩
    simp only [if_neg hover, happend, Bool.true_eq_false, if_false]

end AdmittedRun

/-- A rendered run has found room for the catch-all row. -/
theorem catchAllFits_of_buildContext {out : ContextBuildOutput}
    (h : buildContext evidence profile reportMode = .ok out) :
    CatchAllFits (omittedRows (decidedOf profile evidence) profile)
      (omittedSummaryReservation profile.globalMaxChars) := by
  obtain ⟨decided, hd, h⟩ := bind_eq_ok.1 h
  obtain ⟨rfl, -⟩ := decideFiles_eq_ok.1 hd
  obtain ⟨inputChars, -, h⟩ := bind_eq_ok.1 h
  obtain ⟨⟨state, content⟩, hrender, -⟩ := bind_eq_ok.1 h
  obtain ⟨-, body, hbody, -⟩ := renderDecided_eq_ok hrender
  change bodySections (decidedOf profile evidence) profile reportMode = .ok body at hbody
  unfold bodySections appendOmittedSummary at hbody
  by_cases hnil : omittedRows (decidedOf profile evidence) profile = []
  · rw [hnil]
    exact Or.inl rfl
  · rw [if_neg hnil] at hbody
    obtain ⟨lines, hlines, -⟩ := bind_eq_ok.1 hbody
    obtain ⟨other, hother, -⟩ := omittedSummaryLines_eq_ok hlines
    exact catchAllRow_ok_iff.1 ⟨other, hother⟩

/-- An admitted run is rendered when the catch-all row of its omitted summary finds room. -/
theorem AdmittedRun.exists_buildContext
    (run : AdmittedRun evidence profile reportMode model hint extra)
    (hfits : CatchAllFits (omittedRows (decidedOf profile evidence) profile)
      (omittedSummaryReservation profile.globalMaxChars)) :
    ∃ out, buildContext evidence profile reportMode = .ok out := by
  have hdecided : decideFiles evidence profile = .ok (decidedOf profile evidence) :=
    decideFiles_eq_ok.2 ⟨rfl, run.valid⟩
  have hinput : totalCost (fun item : DecidedFile => item.decision.inputChars)
      (decidedOf profile evidence) ≤ u64Max := by
    rw [decidedOf, totalCost_map, totalCost_perm (sortByKey_perm _ _)]
    exact run.input
  obtain ⟨n, hn⟩ := totalInputChars_ok hinput
  obtain ⟨body, hbody, hlen⟩ := run.body_ok hfits
  have hroom := run.room
  have hincluded := included_le_evidenceSections (decidedOf profile evidence) profile reportMode
  obtain ⟨state, content, hrender⟩ := renderDecided_ok (by omega) hbody hlen
  exact ⟨_, bind_eq_ok.2 ⟨_, hdecided, bind_eq_ok.2 ⟨n, hn,
    bind_eq_ok.2 ⟨(state, content), hrender, rfl⟩⟩⟩⟩

/-- **An admitted run is rendered exactly when the catch-all row of its omitted summary finds
room.** -/
theorem buildContext_ok_iff (run : AdmittedRun evidence profile reportMode model hint extra) :
    (∃ out, buildContext evidence profile reportMode = .ok out) ↔
      CatchAllFits (omittedRows (decidedOf profile evidence) profile)
        (omittedSummaryReservation profile.globalMaxChars) := by
  constructor
  · rintro ⟨out, hout⟩
    exact catchAllFits_of_buildContext hout
  · exact run.exists_buildContext

end

/-! ### An admitted run that fails -/

/-- A budget with the frozen policies whose omitted summary has 82 characters. -/
def narrowProfile : ContextProfile where
  profileName := lit "daily_balanced_v1"
  globalMaxChars := 410
  perFileMaxChars := 100
  smallFileMaxBytes := 65536
  mediumFileMaxBytes := 1048576
  largeFileMaxBytes := 10485760
  priorityPolicyVersion := lit "budget_nominal_v2"
  compressionPolicyVersion := lit "markdown_context_v2"

/-- A file that the size policy left out. -/
def leftOutFile (name extension : Text) : ContextFileEvidence where
  fileIdentity := lit "bootstrap:" ++ name
  absolutePath := lit "C:\\w\\" ++ name ++ extension
  relativePath := name ++ extension
  extension := extension
  sizeBytes := some 1
  content := []
  evidenceAudit := none
  parserBackend := lit "light_text_v2"
  workerLane := .rustCore
  cacheStatus := .miss
  parseStatus := .notParsed
  truncated := false
  error := none
  reason := some (lit "file_size_policy")

/-- Two files of different extensions: the row of the first leaves no room for a catch-all row. -/
def leftOutFiles : List ContextFileEvidence :=
  [leftOutFile (lit "a") (lit ".md"), leftOutFile (lit "b") (lit ".txt")]

theorem narrowProfile_validate : narrowProfile.validate = .ok () := by decide +kernel

theorem leftOutFiles_validate : ∀ e ∈ leftOutFiles, e.validate = .ok () := by decide +kernel

/-- The budget model of the run. -/
def narrowModel : ContextBudgetModel where
  globalMaxChars := 410
  perFileMaxChars := 100
  baseChars := 407
  omittedSummaryReservation := 82

theorem narrowModel_new : ContextBudgetModel.new narrowProfile
    (fixedContextSections narrowProfile .daily 2 ++ []) = .ok narrowModel := by
  have h2 : decimal 2 = ['2'] := by decide
  have h410 : decimal 410 = ['4', '1', '0'] := by decide
  have h100 : decimal 100 = ['1', '0', '0'] := by decide
  have hcost : sectionsCost (fixedContextSections narrowProfile .daily 2) = 325 := by
    rw [fixedContextSections, contextSections]
    simp only [sectionsCost_cons, sectionsCost_nil, contextTitle, renderRunSummary, renderNotice,
      evidenceTitle, reportModeText, narrowProfile, List.length_append, List.length_replicate,
      maxU64Digits, h2, h410, h100]
    simp [lit_eq]
  rw [List.append_nil, ContextBudgetModel.new, hcost]
  decide

theorem admittedRun_leftOut [UnicodeCase] (hint : ContextFileEvidence → RouteHint) :
    AdmittedRun leftOutFiles narrowProfile .daily narrowModel hint [] where
  valid := leftOutFiles_validate
  count := by decide
  input := by
    simp [inputCharsOf, decideFile, decideAction, leftOutFiles, leftOutFile, u64Max]
  built := narrowModel_new
  priced := fun e he => absurd he (by simp [parsedFiles, leftOutFiles, leftOutFile])
  admitted := by simp [parsedFiles, leftOutFiles, leftOutFile, narrowModel]

/-- The rows of the two files: no detail row fits the small reservation. -/
def leftOutRows : List OmittedRow :=
  [⟨lit "a.md", lit ".md", lit "file_size_policy", 1, false⟩,
   ⟨lit "b.txt", lit ".txt", lit "file_size_policy", 1, false⟩]

theorem omittedRows_leftOut :
    @omittedRows asciiCase (@decidedOf asciiCase narrowProfile leftOutFiles) narrowProfile =
      leftOutRows := by
  decide +kernel

theorem aggregateFill_leftOut : (aggregateFill leftOutRows 82).used = 71 ∧
    (aggregateFill leftOutRows 82).skipped = [⟨lit "file_size_policy", lit ".txt", 1⟩] := by
  decide +kernel

theorem buildContext_ok_iff_leftOut :
    (∃ out, @buildContext asciiCase leftOutFiles narrowProfile .daily = .ok out) ↔
      CatchAllFits (@omittedRows asciiCase (@decidedOf asciiCase narrowProfile leftOutFiles)
        narrowProfile) (omittedSummaryReservation narrowProfile.globalMaxChars) :=
  @buildContext_ok_iff asciiCase _ _ _ _ _ _
    (@admittedRun_leftOut asciiCase fun e => ⟨e.relativePath, e.extension, e.parserBackend, [], 0⟩)

/-- **An admitted run that fails**: the files are valid, nothing is admitted beyond the budget,
and the mandatory catch-all row finds no room. -/
theorem buildContext_catchAll_lost :
    (∀ hint, @AdmittedRun asciiCase leftOutFiles narrowProfile .daily narrowModel hint []) ∧
      ¬ ∃ out, @buildContext asciiCase leftOutFiles narrowProfile .daily = .ok out := by
  refine ⟨@admittedRun_leftOut asciiCase, ?_⟩
  rintro ⟨out, hout⟩
  have hfits := @catchAllFits_of_buildContext asciiCase _ _ _ _ hout
  rw [omittedRows_leftOut] at hfits
  obtain ⟨hused, hskipped⟩ := aggregateFill_leftOut
  rcases hfits with hnil | hfits
  · have hnil' : (aggregateFill leftOutRows 82).skipped = [] := hnil
    rw [hskipped] at hnil'
    cases hnil'
  · change (aggregateFill leftOutRows 82).used + (omittedCatchAll (decimal
      ((aggregateFill leftOutRows 82).skipped.map OmittedGroup.count).sum)).length + 1 ≤ 82
      at hfits
    rw [hused, hskipped] at hfits
    revert hfits
    decide +kernel

end DailyReport
