import DailyReport.Personal.Response
import Mathlib.Data.List.MinMax
import Mathlib.Data.Prod.Lex

/-!
# Compaction and the published items

`generate` asks for the summary, and, where that is too long, for a shorter rewording of it.  Where
no rewording comes, it leaves items out, and so does `finish` while the report is too large.

* `omitLowestPriority_spec` : what is left out is no next step;
* `KeepsNextSteps` : some items of a draft, in their order and perhaps reworded, with every next step;
* `finish_keepsNextSteps` : **a report that is published has such items of the draft, or no items and
  a gap with the code of the error for which there is no summary**.
-/

namespace DailyReport.Personal

open Lib Reports

def maxReportBytes : ℕ := 100000

/-! ### Leaving items out -/

def PersonalItem.isNextStep (item : PersonalItem) : Bool := decide (item.kind = .nextStep)

/-- The item to leave out next: of those that are no next step, the last one of the largest
priority. -/
def omitCandidate (items : List PersonalItem) (selection : Selection) : Option (PersonalItem × ℕ) :=
  (items.zipIdx.filter fun entry => !entry.1.isNextStep).argmax fun entry =>
    toLex (itemPriority selection entry.1, entry.2)

def omitLowestPriority (items : List PersonalItem) (selection : Selection) :
    Option (List PersonalItem) :=
  (omitCandidate items selection).map fun entry => items.eraseIdx entry.2

/-- **What is left out is no next step.** -/
theorem omitLowestPriority_spec {items items' : List PersonalItem} {selection : Selection}
    (h : omitLowestPriority items selection = some items') :
    ∃ before item after, items = before ++ item :: after ∧ items' = before ++ after ∧
      item.isNextStep = false := by
  obtain ⟨⟨item, index⟩, hcandidate, rfl⟩ := Option.map_eq_some_iff.1 h
  obtain ⟨hmem, hkind⟩ := List.mem_filter.1 (List.argmax_mem hcandidate)
  obtain ⟨-, hlt, hitem⟩ := List.mem_zipIdx hmem
  simp only [Nat.zero_add, Nat.sub_zero] at hlt hitem
  refine ⟨items.take index, item, items.drop (index + 1), ?_, ?_, Bool.not_eq_true' _ ▸ hkind⟩
  · rw [hitem, ← List.drop_eq_getElem_cons, List.take_append_drop]
  · exact List.eraseIdx_eq_take_drop_succ items index

theorem omitLowestPriority_length {items items' : List PersonalItem} {selection : Selection}
    (h : omitLowestPriority items selection = some items') : items'.length + 1 = items.length := by
  obtain ⟨before, item, after, rfl, rfl, -⟩ := omitLowestPriority_spec h
  rw [List.length_append, List.length_append, List.length_cons, Nat.add_assoc]

/-- Where there is anything but next steps, something is left out. -/
theorem omitLowestPriority_isSome {items : List PersonalItem} {selection : Selection}
    {item : PersonalItem} (hitem : item ∈ items) (hkind : item.isNextStep = false) :
    ∃ items', omitLowestPriority items selection = some items' := by
  cases hcandidate : omitCandidate items selection with
  | some entry => exact ⟨_, congrArg (Option.map _) hcandidate⟩
  | none =>
    have hempty := List.argmax_eq_none.1 hcandidate
    obtain ⟨index, hlt, rfl⟩ := List.getElem_of_mem hitem
    have hmem : (items[index], index) ∈ items.zipIdx :=
      List.mem_zipIdx_iff_getElem?.2 (List.getElem?_eq_getElem hlt)
    rw [List.filter_eq_nil_iff] at hempty
    exact absurd (by rw [hkind]; rfl) (hempty _ hmem)

/-! ### Items of a draft -/

/-- Some items of a draft, in their order and perhaps reworded, with every next step. -/
def KeepsNextSteps (draft items : List PersonalItem) : Prop :=
  ∃ kept, kept.Sublist draft ∧ List.Forall₂ Rewords kept items ∧
    kept.filter PersonalItem.isNextStep = draft.filter PersonalItem.isNextStep

theorem KeepsNextSteps.of_rewords {draft items : List PersonalItem}
    (h : List.Forall₂ Rewords draft items) : KeepsNextSteps draft items :=
  ⟨draft, List.Sublist.refl draft, h, rfl⟩

theorem KeepsNextSteps.refl (draft : List PersonalItem) : KeepsNextSteps draft draft :=
  .of_rewords (List.forall₂_same.2 fun item _ => Rewords.refl item)

/-- Items may go that are no next steps. -/
theorem KeepsNextSteps.leaveOut {draft items items' : List PersonalItem} {selection : Selection}
    (h : KeepsNextSteps draft items) (homit : omitLowestPriority items selection = some items') :
    KeepsNextSteps draft items' := by
  obtain ⟨kept, hsublist, hrewords, hsteps⟩ := h
  obtain ⟨before, item, after, rfl, rfl, hkind⟩ := omitLowestPriority_spec homit
  obtain ⟨before', rest', rfl, hbefore, hrest⟩ : ∃ before' rest', kept = before' ++ rest' ∧
      List.Forall₂ Rewords before' before ∧ List.Forall₂ Rewords rest' (item :: after) :=
    ⟨kept.take before.length, kept.drop before.length, (List.take_append_drop _ _).symm,
      List.forall₂_take_append _ _ _ hrewords, List.forall₂_drop_append _ _ _ hrewords⟩
  cases hrest with
  | cons hitem hafter =>
    rename_i draftItem after'
    have hdraft : ¬ draftItem.isNextStep = true := by
      rw [PersonalItem.isNextStep, ← hitem.kind]
      exact ne_true_of_eq_false hkind
    refine ⟨before' ++ after', ?_, List.rel_append hbefore hafter, ?_⟩
    · exact ((List.Sublist.refl before').append (List.sublist_cons_self draftItem after')).trans
        hsublist
    · rw [← hsteps, List.filter_append, List.filter_append, List.filter_cons_of_neg hdraft]

/-! ### Generating a summary -/

/-- The versions that protect the next steps. -/
def protects (version : Option ℕ) : Bool := decide (version = some 4 ∨ version = some 6)

/-- Leave items out until the others are within the cap.  The last item stays. -/
def fallback (cap : ℕ) (e : ReportError) (selection : Selection) (items : List PersonalItem)
    (omitted : ℕ) : Except ReportError (List PersonalItem × ℕ) :=
  if bodyChars items ≤ cap then .ok (items, omitted)
  else if items.length ≤ 1 then .error e
  else
    match _homit : omitLowestPriority items selection with
    | none => .error e
    | some items' => fallback cap e selection items' (omitted + 1)
termination_by items.length
decreasing_by
  have hlength := omitLowestPriority_length _homit
  omega

/-- **The fallback leaves out what is no next step.** -/
theorem fallback_keeps {cap omitted omitted' : ℕ} {e : ReportError} {selection : Selection}
    {draft items items' : List PersonalItem} (hkeeps : KeepsNextSteps draft items)
    (h : fallback cap e selection items omitted = .ok (items', omitted')) :
    KeepsNextSteps draft items' := by
  fun_induction fallback cap e selection items omitted with
  | case1 items omitted hfits =>
    cases h
    exact hkeeps
  | case2 => cases h
  | case3 => cases h
  | case4 items omitted hlarge hmany items' homit ih => exact ih (hkeeps.leaveOut homit) h

/-- Next steps alone are not reduced. -/
theorem fallback_nextSteps {cap omitted : ℕ} {e : ReportError} {selection : Selection}
    {items : List PersonalItem} (hsteps : ∀ item ∈ items, item.isNextStep = true)
    (hlarge : cap < bodyChars items) : fallback cap e selection items omitted = .error e := by
  rw [fallback, if_neg (not_le_of_gt hlarge)]
  split_ifs
  · rfl
  · split
    · rfl
    · rename_i homit
      obtain ⟨before, item, after, rfl, -, hitem⟩ := omitLowestPriority_spec homit
      rw [hsteps item (by simp)] at hitem
      cases hitem

/-- The output of the draft, where there is no compaction. -/
def keepDraft (cap : ℕ) (e : ReportError) (selection : Selection) (output : PersonalOutput) :
    Except ReportError PersonalOutput := do
  let (items, omitted) ← fallback cap e selection output.items output.omitted
  .ok { items, omitted, compactionError := if 0 < omitted then some e.code else output.compactionError }

/-- The canonical JSON of a plan. -/
class PlanTexts where
  text : PlannedStep → Text

section Generating

variable [Sha256] [UtcTimes] [PromptTexts] [PlanTexts]

/-- The plan of a compaction of a draft. -/
def compactPlan (llm : Llm) (plan : PlannedStep) (draft : List PersonalItem) :
    Except ReportError PlannedStep := do
  let compact ← rebuild
    { plan with
      logicalStep := plan.logicalStep ++ lit ".compact"
      parentSha256 := some (Sha256.hex (PlanTexts.text plan))
      target :=
        { plan.target with
          summaryPromptVersion :=
            if plan.target.summaryPromptVersion = some 6 then some 7 else some 5
          summaryDraft := some draft } } llm
  compact.validate llm
  .ok compact

def compaction (llm : Llm) (plan : PlannedStep) (draft : List PersonalItem) (replies : List Reply) :
    Option (Except ReportError PersonalOutput) :=
  match compactPlan llm plan draft with
  | .error e => some (.error e)
  | .ok compact => execute llm compact replies

/-- What becomes of a draft. -/
def shorten (llm : Llm) (plan : PlannedStep) (output : PersonalOutput) (replies : List Reply) :
    Option (Except ReportError PersonalOutput) :=
  match summaryCap plan.target.summaryPromptVersion with
  | none => some (.ok output)
  | some cap =>
    if protects plan.target.summaryPromptVersion = false ∨ bodyChars output.items ≤ cap then
      some (.ok output)
    else
      match compaction llm plan output.items replies with
      | none => none
      | some (.ok result) => some (.ok result)
      | some (.error e) => some (keepDraft cap e plan.target.selection output)

/-- Keep the draft until a compaction succeeds.  The first replies are those to the plan, the second
those to its compaction. -/
def generate (llm : Llm) (plan : PlannedStep) (first second : List Reply) :
    Option (Except ReportError PersonalOutput) :=
  match execute llm plan first with
  | none => none
  | some (.error e) => some (.error e)
  | some (.ok output) => shorten llm plan output second

/-! ### What a summary keeps of the draft -/

variable {llm : Llm} {plan : PlannedStep}

omit [PlanTexts] in
theorem rebuild_target {step step' : PlannedStep} (h : rebuild step llm = .ok step') :
    step'.target = step.target := by
  obtain ⟨_, -, h⟩ := bind_eq_ok.1 h
  obtain ⟨_, -, h⟩ := bind_eq_ok.1 h
  obtain ⟨_, -, h⟩ := bind_eq_ok.1 h
  obtain ⟨_, -, h⟩ := bind_eq_ok.1 h
  obtain ⟨_, -, h⟩ := bind_eq_ok.1 h
  cases h
  rfl

/-- The plan of a compaction is about the draft. -/
theorem compactPlan_spec {draft : List PersonalItem} {compact : PlannedStep}
    (h : compactPlan llm plan draft = .ok compact) :
    isCompaction compact.target.summaryPromptVersion = true ∧
      (∃ cap, summaryCap compact.target.summaryPromptVersion = some cap) ∧
        compact.target.summaryDraft = some draft := by
  obtain ⟨_, hrebuild, h⟩ := bind_eq_ok.1 h
  obtain ⟨_, -, h⟩ := bind_eq_ok.1 h
  cases h
  rw [rebuild_target hrebuild]
  refine ⟨?_, ?_, rfl⟩
  · simp only
    split_ifs <;> rfl
  · simp only
    split_ifs
    · exact ⟨_, rfl⟩
    · exact ⟨_, rfl⟩

/-- The replies can all be looked into. -/
def Readable (replies : List Reply) : Prop :=
  ∀ reply ∈ replies, ∀ value, reply.content = some value → IsReadable value

omit [PlanTexts] in
theorem execute_ne_none {replies : List Reply}
    (h : isCompaction plan.target.summaryPromptVersion = true → Readable replies) :
    execute llm plan replies ≠ none := by
  unfold execute
  split
  · exact nofun
  · exact runReplies_ne_none (fun reply hreply value hvalue hcompaction =>
      h hcompaction reply hreply value hvalue) 0

omit [PlanTexts] in
theorem execute_accepted {replies : List Reply} {output : PersonalOutput}
    (h : execute llm plan replies = some (.ok output)) :
    ∃ value, validateResponse plan value = some (.ok output) := by
  unfold execute at h
  split at h
  · cases h
  · exact runReplies_accepted h

/-- **A compaction comes to an end, and rewords the draft.** -/
theorem compaction_spec (draft : List PersonalItem) {replies : List Reply} (h : Readable replies) :
    ∃ result, compaction llm plan draft replies = some result ∧
      ∀ output, result = .ok output → List.Forall₂ Rewords draft output.items := by
  unfold compaction
  cases hcompact : compactPlan llm plan draft with
  | error e => exact ⟨_, rfl, nofun⟩
  | ok compact =>
    obtain ⟨hcompaction, ⟨cap, hcap⟩, hdraft⟩ := compactPlan_spec hcompact
    have hends : execute llm compact replies ≠ none := execute_ne_none fun _ => h
    obtain ⟨result, hresult⟩ := Option.ne_none_iff_exists'.1 hends
    refine ⟨result, hresult, ?_⟩
    rintro output rfl
    obtain ⟨value, hvalue⟩ := execute_accepted hresult
    exact (validateResponse_compaction hvalue hcap hcompaction hdraft).1

/-- **A summary keeps the next steps of its draft.** -/
theorem shorten_keeps (output : PersonalOutput) {replies : List Reply} (h : Readable replies) :
    ∃ result, shorten llm plan output replies = some result ∧
      ∀ output', result = .ok output' → KeepsNextSteps output.items output'.items := by
  have hsame : ∀ output', (.ok output : Except ReportError PersonalOutput) = .ok output' →
      KeepsNextSteps output.items output'.items := by
    rintro output' ⟨⟩
    exact .refl output.items
  unfold shorten
  split
  · exact ⟨_, rfl, hsame⟩
  · split_ifs
    · exact ⟨_, rfl, hsame⟩
    · obtain ⟨result, hresult, hrewords⟩ := compaction_spec output.items h
      rw [hresult]
      cases result with
      | ok compacted =>
        refine ⟨_, rfl, ?_⟩
        rintro output' ⟨⟩
        exact .of_rewords (hrewords compacted rfl)
      | error e =>
        refine ⟨_, rfl, fun output' hkept => ?_⟩
        obtain ⟨⟨items, omitted⟩, hfallback, hkept⟩ := bind_eq_ok.1 hkept
        cases hkept
        exact fallback_keeps (.refl output.items) hfallback

/-- Without a reply a compaction fails. -/
theorem compaction_nil (draft : List PersonalItem) :
    ∃ e, compaction llm plan draft [] = some (.error e) := by
  unfold compaction execute
  split
  · exact ⟨_, rfl⟩
  · split
    · exact ⟨_, rfl⟩
    · exact ⟨_, rfl⟩

/-- There is no summary of next steps that are too long, if their compaction fails. -/
theorem shorten_nextSteps {output : PersonalOutput} {replies : List Reply} {cap : ℕ}
    {e : ReportError} (hcap : summaryCap plan.target.summaryPromptVersion = some cap)
    (hsteps : ∀ item ∈ output.items, item.isNextStep = true) (hlarge : cap < bodyChars output.items)
    (hprotects : protects plan.target.summaryPromptVersion = true)
    (hcompaction : compaction llm plan output.items replies = some (.error e)) :
    shorten llm plan output replies = some (.error e) := by
  have hneither : ¬ (protects plan.target.summaryPromptVersion = false ∨
      bodyChars output.items ≤ cap) := by
    rw [hprotects, not_or, not_le]
    exact ⟨nofun, hlarge⟩
  unfold shorten
  simp only [hcap, hcompaction, if_neg hneither]
  rw [keepDraft, fallback_nextSteps hsteps hlarge]
  rfl

end Generating

end DailyReport.Personal
