import DailyReport.Personal.Plan
import Mathlib.Logic.Relation

/-!
# Fitting a selection to the request

`prepareVersion` plans the summary of a selection.  While the request is too large, it removes the
last material that is not the statement of the user and plans again.

* `shrink_spec` : what a removal does;
* `prepareVersion_fits` : **whatever the selection and the limits, every round has a valid selection
  with all statements of the user, and the request of the result is within the limit**.
-/

namespace DailyReport.Personal

open Lib Reports

/-! ### Removals -/

/-- The index of the last item with a property. -/
def rposition {α : Type} (p : α → Bool) (items : List α) : Option ℕ :=
  (items.reverse.findIdx? p).map fun index => items.length - 1 - index

/-- The last item with a property splits the list. -/
theorem rposition_eq_some {α : Type} {p : α → Bool} {items : List α} {index : ℕ}
    (h : rposition p items = some index) :
    ∃ before item after, items = before ++ item :: after ∧ before.length = index ∧ p item = true := by
  obtain ⟨back, hback, rfl⟩ := Option.map_eq_some_iff.1 h
  obtain ⟨hlt, hitem, -⟩ := List.findIdx?_eq_some_iff_getElem.1 hback
  rw [List.length_reverse] at hlt
  rw [List.getElem_reverse] at hitem
  refine ⟨items.take (items.length - 1 - back), items[items.length - 1 - back],
    items.drop (items.length - 1 - back + 1), ?_, ?_, hitem⟩
  · rw [← List.drop_eq_getElem_cons, List.take_append_drop]
  · rw [List.length_take]
    omega

theorem rposition_isSome {α : Type} {p : α → Bool} {items : List α} {item : α} (hitem : item ∈ items)
    (hp : p item = true) : ∃ index, rposition p items = some index := by
  cases hfind : items.reverse.findIdx? p with
  | some index => exact ⟨_, congrArg (Option.map _) hfind⟩
  | none =>
    have hnone := List.findIdx?_eq_none_iff.1 hfind item (List.mem_reverse.2 hitem)
    rw [hp] at hnone
    cases hnone

/-- The statement of the user. -/
def Material.isUser (material : Material) : Bool := decide (material.source.sourceId = userInput)

/-- The number of the files that some materials are of. -/
def countFiles (materials : List Material) : ℕ :=
  (materials.filterMap fun material => material.source.relativePath).dedup.length

/-- Leave a material out. -/
def Selection.leaveOut (selection : Selection) (index : ℕ) : Selection :=
  match selection.materials[index]? with
  | none => selection
  | some material =>
    let materials := selection.materials.eraseIdx index
    let summary := { selection.summary with
      selectedChars := selection.summary.selectedChars - countChars material.text }
    let summary := summary.omit (lit "budget") (material.source.relativePath.getD [])
    { selection with
      materials := materials
      summary := { summary with selectedFiles := countFiles materials } }

/-- Leave the last material out that is not the statement of the user. -/
def Selection.shrink (selection : Selection) : Option Selection :=
  (rposition (fun material => !material.isUser) selection.materials).map selection.leaveOut

/-- What a removal does: one material less, whose characters are counted no more. -/
structure Removal (selection selection' : Selection) (material : Material) : Prop where
  /-- The other materials are the same, in their order. -/
  split : ∃ before after, selection.materials = before ++ material :: after ∧
    selection'.materials = before ++ after
  notUser : material.source.sourceId ≠ userInput
  counted : selection'.summary.selectedChars =
    selection.summary.selectedChars - countChars material.text
  files : selection'.summary.selectedFiles = countFiles selection'.materials
  omitted : selection.summary.omittedPaths.length ≤ maxOmittedPaths →
    selection'.summary.omittedPaths.length ≤ maxOmittedPaths

theorem shrink_spec {selection selection' : Selection} (h : selection.shrink = some selection') :
    ∃ material, Removal selection selection' material := by
  obtain ⟨index, hindex, rfl⟩ := Option.map_eq_some_iff.1 h
  obtain ⟨before, material, after, hsplit, rfl, huser⟩ := rposition_eq_some hindex
  have hget : selection.materials[before.length]? = some material := by
    rw [hsplit, List.getElem?_append_right le_rfl, Nat.sub_self]
    rfl
  have herase : selection.materials.eraseIdx before.length = before ++ after := by
    rw [hsplit, List.eraseIdx_append_of_length_le le_rfl, Nat.sub_self]
    rfl
  rw [Selection.leaveOut, hget]
  refine ⟨material, ⟨before, after, hsplit, herase⟩, ?_, rfl, rfl, fun homitted =>
    SelectionSummary.omit_omittedPaths homitted (lit "budget")
      (material.source.relativePath.getD [])⟩
  intro heq
  rw [Material.isUser, decide_eq_true heq] at huser
  cases huser

namespace Removal

variable {selection selection' : Selection} {material : Material}

theorem sublist (h : Removal selection selection' material) :
    selection'.materials.Sublist selection.materials := by
  obtain ⟨before, after, hbefore, hafter⟩ := h.split
  rw [hbefore, hafter]
  exact (List.Sublist.refl before).append (List.sublist_cons_self material after)

theorem length (h : Removal selection selection' material) :
    selection'.materials.length + 1 = selection.materials.length := by
  obtain ⟨before, after, hbefore, hafter⟩ := h.split
  rw [hbefore, hafter, List.length_append, List.length_append, List.length_cons, Nat.add_assoc]

/-- The statement of the user stays. -/
theorem users (h : Removal selection selection' material) :
    selection'.materials.filter Material.isUser = selection.materials.filter Material.isUser := by
  obtain ⟨before, after, hbefore, hafter⟩ := h.split
  have huser : ¬ material.isUser = true := by
    rw [Material.isUser, decide_eq_true_eq]
    exact h.notUser
  rw [hbefore, hafter, List.filter_append, List.filter_append, List.filter_cons_of_neg huser]

theorem total (h : Removal selection selection' material) :
    countChars material.text + totalChars selection'.materials = totalChars selection.materials := by
  obtain ⟨before, after, hbefore, hafter⟩ := h.split
  rw [hbefore, hafter, totalChars, totalChars, totalCost_append, totalCost_append, totalCost_cons]
  omega

variable [Sha256] [UtcTimes]

/-- A count that is right covers the material that is removed. -/
theorem covered (h : Removal selection selection' material) (hvalid : selection.Valid) :
    countChars material.text ≤ selection.summary.selectedChars := by
  have htotal := h.total
  have hcounted := hvalid.counted
  omega

/-- **A removal keeps a selection valid.** -/
theorem valid (h : Removal selection selection' material) (hvalid : selection.Valid) :
    selection'.Valid := by
  refine hvalid.sublist h.sublist ?_ (h.omitted hvalid.omitted)
  have htotal := h.total
  have hcounted := hvalid.counted
  rw [h.counted, ← hcounted, ← htotal, Nat.add_sub_cancel_left]

end Removal

/-! ### The loop -/

/-- What a round of the loop comes to. -/
inductive Round
  | done (result : Except ReportError PlannedStep)
  | again (selection : Selection)

/-- The step that is to be rebuilt. -/
def draftStep (context : RunContext) (selection : Selection) (promptVersion : ℕ) : PlannedStep where
  version := 6
  kind := .personalSummary
  logicalStep := lit "personal_summary"
  revision := 0
  parentSha256 := none
  promptSha256 := []
  schemaSha256 := []
  target :=
    { date := context.targetDate
      windowStartUtc := context.windowStartUtc
      windowEndUtc := context.windowEndUtc
      selection := selection
      summaryPromptVersion := some promptVersion
      summaryLimits := some (summaryLimit promptVersion, maxSummaryItems)
      summaryDraft := none }
  entries := []
  facts := []
  sourceMap := sourceMap selection
  request := none

section Preparing

section Fitting

variable [Sha256] [UtcTimes] [PromptTexts] {llm : Llm} {context : RunContext} {promptVersion : ℕ}

/-- The plan of a round, before its request is checked. -/
def planOf (llm : Llm) (context : RunContext) (promptVersion : ℕ) (selection : Selection) :
    Except ReportError PlannedStep := do
  selection.validate
  rebuild (draftStep context selection promptVersion) llm

def prepareRound (llm : Llm) (context : RunContext) (promptVersion : ℕ) (selection : Selection) :
    Round :=
  match planOf llm context promptVersion selection with
  | .error e => .done (.error e)
  | .ok step =>
    match step.validate llm with
    | .ok () => .done (.ok step)
    | .error e =>
      if e.code = lit "MODEL_REQUEST_TOO_LARGE" then
        match selection.shrink with
        | none => .done (.error e)
        | some selection' => .again selection'
      else .done (.error e)

/-- A round that is not the last one removes a material. -/
theorem prepareRound_again {selection selection' : Selection}
    (h : prepareRound llm context promptVersion selection = .again selection') :
    selection.shrink = some selection' := by
  unfold prepareRound at h
  split at h
  · cases h
  · split at h
    · cases h
    · split_ifs at h
      split at h
      · cases h
      · cases h
        assumption

/-- A round ends with a plan only if that is checked. -/
theorem prepareRound_ok {selection : Selection} {step : PlannedStep}
    (h : prepareRound llm context promptVersion selection = .done (.ok step)) :
    planOf llm context promptVersion selection = .ok step ∧ step.validate llm = .ok () := by
  unfold prepareRound at h
  split at h
  · cases h
  · split at h
    · cases h
      exact ⟨by assumption, by assumption⟩
    · split_ifs at h
      · split at h
        · cases h
        · cases h
      · cases h

/-- The result, and the selection that is left. -/
def prepareVersion (llm : Llm) (context : RunContext) (promptVersion : ℕ) (selection : Selection) :
    Except ReportError PlannedStep × Selection :=
  match _hround : prepareRound llm context promptVersion selection with
  | .done result => (result, selection)
  | .again selection' => prepareVersion llm context promptVersion selection'
termination_by selection.materials.length
decreasing_by
  obtain ⟨material, hremoval⟩ := shrink_spec (prepareRound_again _hround)
  have hlength := hremoval.length
  omega

/-- A selection that the loop comes to. -/
def Comes (llm : Llm) (context : RunContext) (promptVersion : ℕ) : Selection → Selection → Prop :=
  Relation.ReflTransGen fun selection selection' =>
    prepareRound llm context promptVersion selection = .again selection'

/-- What the rounds of the loop keep of the selection it starts with. -/
structure Keeps (start selection : Selection) : Prop where
  valid : selection.Valid
  sublist : selection.materials.Sublist start.materials
  users : selection.materials.filter Material.isUser = start.materials.filter Material.isUser

theorem Comes.keeps {start selection : Selection} (hvalid : start.Valid)
    (h : Comes llm context promptVersion start selection) : Keeps start selection := by
  induction h with
  | refl => exact ⟨hvalid, List.Sublist.refl _, rfl⟩
  | tail _ hround ih =>
    obtain ⟨material, hremoval⟩ := shrink_spec (prepareRound_again hround)
    exact ⟨hremoval.valid ih.valid, hremoval.sublist.trans ih.sublist, hremoval.users.trans ih.users⟩

/-- The loop ends in a round of a selection that it comes to. -/
theorem prepareVersion_comes (selection : Selection) :
    Comes llm context promptVersion selection (prepareVersion llm context promptVersion selection).2 ∧
      prepareRound llm context promptVersion (prepareVersion llm context promptVersion selection).2 =
        .done (prepareVersion llm context promptVersion selection).1 := by
  fun_induction prepareVersion llm context promptVersion selection with
  | case1 selection result hround => exact ⟨.refl, hround⟩
  | case2 selection selection' hround ih => exact ⟨.head hround ih.1, ih.2⟩

/-- **Fitting a selection to the request ends and stays consistent.**  In every round the selection is
valid (so the count of its characters is their sum), has all statements of the user, and, if it is
made smaller, counts the characters of what is removed.  The result is an error, or the plan of the
selection that is left, with a request within the limit. -/
theorem prepareVersion_fits (llm : Llm) (context : RunContext) (promptVersion : ℕ)
    (start : Selection) (hvalid : start.validate = .ok ()) :
    (∀ selection, Comes llm context promptVersion start selection →
      selection.validate = .ok () ∧
        totalChars selection.materials = selection.summary.selectedChars ∧
        selection.materials.filter Material.isUser = start.materials.filter Material.isUser ∧
        ∀ selection', prepareRound llm context promptVersion selection = .again selection' →
          ∃ material, Removal selection selection' material ∧
            countChars material.text ≤ selection.summary.selectedChars) ∧
      Comes llm context promptVersion start (prepareVersion llm context promptVersion start).2 ∧
      ∀ step, (prepareVersion llm context promptVersion start).1 = .ok step →
        planOf llm context promptVersion (prepareVersion llm context promptVersion start).2 = .ok step ∧
          WithinLimit llm step := by
  refine ⟨fun selection hcomes => ?_, (prepareVersion_comes start).1, fun step hstep => ?_⟩
  · have hkeeps := hcomes.keeps (validate_eq_ok_iff.1 hvalid)
    refine ⟨validate_eq_ok_iff.2 hkeeps.valid, hkeeps.valid.counted, hkeeps.users, ?_⟩
    intro selection' hround
    obtain ⟨material, hremoval⟩ := shrink_spec (prepareRound_again hround)
    exact ⟨material, hremoval, hremoval.covered hkeeps.valid⟩
  · have hlast : prepareRound llm context promptVersion
        (prepareVersion llm context promptVersion start).2 = .done _ := (prepareVersion_comes start).2
    rw [hstep] at hlast
    obtain ⟨hplan, hchecked⟩ := prepareRound_ok hlast
    obtain ⟨_, -, hcapacity⟩ := bind_eq_ok.1 hchecked
    exact ⟨hplan, checkCapacity_eq_ok_iff.1 hcapacity⟩

end Fitting

/-! A note of the user, and a model with a small window. -/

def noteDigest : Text := lit "edb465624291e4053c6c5ea4b7eb320dec773e10a57d26b95dcf0564f8e310f8"

local instance noteSha256 : Sha256 := ⟨fun text => if text = lit "note" then noteDigest else []⟩

/-- Times that end in a `Z`. -/
local instance zuluTimes : UtcTimes := ⟨fun text => (lit "Z").isSuffixOf text⟩

local instance shortPrompts : PromptTexts := ⟨fun _ => lit "summary"⟩

def noteSource : ReportSource where
  sourceId := userInput
  sourceKind := lit "user_statement"
  relativePath := none
  modifiedAtUtc := none
  observedAtUtc := lit "2026-10-15T01:00:00Z"
  contentSha256 := some noteDigest
  excerptSha256 := noteDigest
  excerptChars := 4
  modelChars := 0
  parseStatus := lit "success"
  coverageLimits := .obj []

def noteSelection : Selection where
  materials := [⟨noteSource, lit "note", [], 0⟩]
  summary := ⟨0, 0, 0, 4, false, [], []⟩
  gaps := []

def noteContext : RunContext where
  runId := lit "run"
  scopeId := lit "personal_work"
  targetDate := lit "2026-10-15"
  timezone := lit "Asia/Shanghai"
  windowStartUtc := 0
  windowEndUtc := 86400000000
  startedAt := 0
  configFingerprint := []

def noteLlm : Llm where
  modelId := lit "model"
  temperature := lit "0.2"
  maxTokens := 1000
  thinkingMode := none
  thinkingParameterLocation := none
  maxRequestUtf8Bytes := 100
  contextWindowTokens := some 8000
  verifiedMaxOutputTokens := some 1000
  invalidResponseRetries := 1

/-- The request of the note is too large, but the note is not removed. -/
theorem prepareVersion_fits_note :
    (prepareVersion noteLlm noteContext 6 noteSelection).2.materials.filter Material.isUser =
      noteSelection.materials :=
  have hfits := prepareVersion_fits noteLlm noteContext 6 noteSelection (by decide +kernel)
  (hfits.1 _ hfits.2.1).2.2.1.trans (by decide +kernel)

end Preparing

end DailyReport.Personal
