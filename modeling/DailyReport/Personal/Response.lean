import DailyReport.Personal.Plan

/-!
# Responses of the model

`validateResponse` reads the items of a response and checks them against the plan.  A plan of a
version that shortens a draft accepts a rewording of it, item by item.  An execution of a plan
(`execute`) goes through the replies of the model until one is accepted.

* `runReplies_accepted` : what an execution returns was read from one of its replies;
* `runReplies_ne_none` : an execution comes to an end, unless a reply makes the reader stop the process;
* `validateResponse_compaction` : **an accepted compaction rewords the draft**.
-/

namespace DailyReport.Personal

open Lib Reports

def maxItems : ℕ := 10

structure PersonalOutput where
  items : List PersonalItem
  omitted : ℕ
  compactionError : Option Text
  deriving DecidableEq

/-! ### Reading items -/

def ItemKind.all : List ItemKind := [.progress, .attention, .nextStep]

def StatementKind.all : List StatementKind := [.observed, .userStatement, .uncertain, .suggestion]

/-- A list of texts. -/
def readTexts (v : Json) : Option (List Text) := v.asArr.bind fun values => values.mapM Json.asStr

/-- An item without unknown fields. -/
def PersonalItem.read (v : Json) : Option PersonalItem := do
  if v.size ≠ 5 then none
  let title ← (v.get (lit "title")).bind Json.asStr
  let text ← (v.get (lit "text")).bind Json.asStr
  let kind ← (v.get (lit "kind")).bind Json.asStr
  let kind ← ItemKind.all.find? fun k => decide (k.wireName = kind)
  let statementKind ← (v.get (lit "statement_kind")).bind Json.asStr
  let statementKind ← StatementKind.all.find? fun k => decide (k.wireName = statementKind)
  let sourceIds ← (v.get (lit "source_ids")).bind readTexts
  some ⟨title, text, kind, statementKind, sourceIds⟩

/-- The fields of an object. -/
def fields : Json → Option (List (Text × Json))
  | .obj fields => some fields
  | _ => none

/-- Take the number off an item, which is to be the given one. -/
def takeNumber (number : ℕ) (item : Json) : Option Json :=
  match fields item, item.get (lit "item_id") with
  | some entries, some (.num found) =>
    if found = number then
      some (.obj (entries.filter fun entry => decide (entry.1 ≠ lit "item_id")))
    else none
  | _, _ => none

/-- The items of a response, as JSON values.  The outer `none` is where the reader stops the process:
it looks the items up in a value that is neither an object nor `null`. -/
def responseItems (compaction : Bool) (value : Json) : Option (Option (List Json)) :=
  if compaction then
    match value with
    | .obj _ => some (((value.get (lit "items")).bind Json.asArr).bind fun items =>
        (items.mapIdx fun index item => takeNumber (index + 1) item).mapM id)
    | .null => some none
    | _ => none
  else some ((value.get (lit "items")).bind Json.asArr)

/-- The version of a response is 5, also where it is missing, and there is no field but this and the
items. -/
def hasResponseForm (value : Json) : Bool :=
  match value.get (lit "schema_version") with
  | some version => decide (version.asU64 = some 5 ∧ value.size = 2)
  | none => decide (value.size = 1)

/-! ### Checks -/

/-- Source certainty bounds the claim of an item. -/
def boundClaim (sources : List ReportSource) (item : PersonalItem) : PersonalItem :=
  if item.statementKind = .observed ∧
      item.sourceIds.any (fun id => sources.any fun source =>
        source.unverified && decide (source.sourceId = id)) then
    { item with statementKind := .uncertain }
  else item

/-- An item says what another one says, in other words. -/
structure Rewords (draft item : PersonalItem) : Prop where
  kind : item.kind = draft.kind
  statementKind : item.statementKind = draft.statementKind
  sourceIds : ∀ id, id ∈ item.sourceIds ↔ id ∈ draft.sourceIds

theorem Rewords.refl (item : PersonalItem) : Rewords item item := ⟨rfl, rfl, fun _ => Iff.rfl⟩

/-- The comparison of two items. -/
def rewords (draft item : PersonalItem) : Bool :=
  decide (item.kind = draft.kind ∧ item.statementKind = draft.statementKind) &&
    item.sourceIds.all (· ∈ draft.sourceIds) && draft.sourceIds.all (· ∈ item.sourceIds)

theorem rewords_iff {draft item : PersonalItem} : rewords draft item = true ↔ Rewords draft item := by
  simp only [rewords, Bool.and_eq_true, List.all_eq_true, decide_eq_true_eq]
  constructor
  · rintro ⟨⟨⟨hkind, hstatement⟩, hforth⟩, hback⟩
    exact ⟨hkind, hstatement, fun id => ⟨hforth id, hback id⟩⟩
  · intro h
    exact ⟨⟨⟨h.kind, h.statementKind⟩, fun id => (h.sourceIds id).1⟩, fun id => (h.sourceIds id).2⟩

/-- The priority of a source, if it is one of the selection. -/
def priorityOf (selection : Selection) (id : Text) : Option ℕ :=
  (selection.materials.reverse.find? fun m => decide (m.source.sourceId = id)).map Material.priority

/-- The priority of an item is that of its first source. -/
def itemPriority (selection : Selection) (item : PersonalItem) : ℕ :=
  (item.sourceIds.filterMap (priorityOf selection)).min?.getD 255

/-- Leave items out at the end until the others fit. -/
def fitItems (limits : ℕ × ℕ) (items : List PersonalItem) : List PersonalItem :=
  if items.length ≤ limits.2 ∧ bodyChars items ≤ limits.1 then items
  else if items = [] then []
  else fitItems limits items.dropLast
termination_by items.length
decreasing_by
  rw [List.length_dropLast]
  exact Nat.sub_one_lt (by rwa [Ne, List.length_eq_zero_iff])

/-- The items of a historical response, reduced to what fits. -/
def reduceItems (target : Target) (items : List PersonalItem) : Except ReportError PersonalOutput :=
  let sorted := sortByKey (itemPriority target.selection) items
  match target.summaryLimits with
  | none =>
    let kept := fitItems (maxBodyChars, maxItems) sorted
    .ok ⟨kept, items.length - kept.length, none⟩
  | some limits => do
    ensure (limits = (maxSummaryChars, maxSummaryItems)) responseInvalid
    if items.length ≤ maxSummaryItems ∧ bodyChars items ≤ maxSummaryChars then .ok ⟨items, 0, none⟩
    else do
      let kept := fitItems (maxSummaryChars, maxSummaryItems) sorted
      ensure (kept ≠ []) responseInvalid
      .ok ⟨kept, items.length - kept.length, none⟩

/-- The items of a compaction go with those of the draft. -/
def checkCompaction (target : Target) (cap : ℕ) (items : List PersonalItem) :
    Except ReportError Unit := do
  let draft ← target.draft
  ensure (¬ (cap < bodyChars items ∨ items.length ≠ draft.length ∨
      ¬ (List.zipWith rewords draft items).all id)) responseInvalid

/-- What becomes of the items of a response. -/
def acceptItems (target : Target) (items : List PersonalItem) : Except ReportError PersonalOutput :=
  match summaryCap target.summaryPromptVersion with
  | none => reduceItems target items
  | some cap => do
    ensure (target.summaryLimits = some (cap, maxSummaryItems) ∧ items.length ≤ maxSummaryItems)
      responseInvalid
    if isCompaction target.summaryPromptVersion then checkCompaction target cap items
    .ok ⟨items, 0, none⟩

/-- The outer `none` is where the reader stops the process. -/
def validateResponse (step : PlannedStep) (value : Json) :
    Option (Except ReportError PersonalOutput) :=
  if step.kind ≠ .personalSummary ∨ step.version ≠ 6 then some (.error responseInvalid)
  else
    (responseItems (isCompaction step.target.summaryPromptVersion) value).map fun items =>
      match items.bind fun items => items.mapM PersonalItem.read with
      | none => .error responseInvalid
      | some items => do
        ensure (hasResponseForm value = true ∧ items ≠ []) responseInvalid
        let items := items.map (boundClaim (sources step.target.selection))
        match validateItems items (sources step.target.selection) with
        | .error _ => .error responseInvalid
        | .ok () => acceptItems step.target items

/-! ### Executions -/

/-- What an attempt comes to. -/
inductive Reply
  /-- There is no further attempt, or it fails before a response is read. -/
  | failed (e : ReportError)
  /-- The content of a response, unless the response has none. -/
  | answered (content : Except ReportError Json)
  /-- The content of an accepted response to the same request, which is replayed. -/
  | replayed (content : Except ReportError Json)

/-- Read the content of a response. -/
def readContent (step : PlannedStep) (content : Except ReportError Json) :
    Option (Except ReportError PersonalOutput) :=
  match content with
  | .error e => some (.error e)
  | .ok value => validateResponse step value

/-- The time of the run is used up. -/
def deadlineExceeded : ReportError := reportError "MODEL_RUN_DEADLINE_EXCEEDED" "本次运行时间已用完"

/-- Go through the replies.  An invalid response is asked for again a few times. -/
def runReplies (llm : Llm) (step : PlannedStep) :
    ℕ → List Reply → Option (Except ReportError PersonalOutput)
  | _, [] => some (.error deadlineExceeded)
  | _, .failed e :: _ => some (.error e)
  | _, .replayed content :: _ => readContent step content
  | invalidRetries, .answered content :: rest =>
    match readContent step content with
    | none => none
    | some (.ok output) => some (.ok output)
    | some (.error e) =>
      if e.code = lit "MODEL_RESPONSE_INVALID" ∧ invalidRetries < llm.invalidResponseRetries then
        runReplies llm step (invalidRetries + 1) rest
      else some (.error e)

section Executions

variable [Sha256] [UtcTimes] [PromptTexts]

def execute (llm : Llm) (root : PlannedStep) (replies : List Reply) :
    Option (Except ReportError PersonalOutput) :=
  match root.validateIdentity llm with
  | .error e => some (.error e)
  | .ok () => runReplies llm root 0 replies

end Executions

/-! ### What an execution returns -/

/-- The content of a reply. -/
def Reply.content : Reply → Option Json
  | .answered (.ok value) | .replayed (.ok value) => some value
  | .failed _ | .answered (.error _) | .replayed (.error _) => none

/-- The content is one that the reader of compactions can look into. -/
def IsReadable : Json → Prop
  | .obj _ | .null => True
  | .bool _ | .num _ | .str _ | .arr _ => False

theorem validateResponse_ne_none {step : PlannedStep} {value : Json}
    (h : isCompaction step.target.summaryPromptVersion = true → IsReadable value) :
    validateResponse step value ≠ none := by
  have hitems : responseItems (isCompaction step.target.summaryPromptVersion) value ≠ none := by
    unfold responseItems
    split_ifs with hcompaction
    · have hreadable := h hcompaction
      cases value with
      | obj fields => exact Option.some_ne_none _
      | null => exact Option.some_ne_none _
      | bool _ => cases hreadable
      | num _ => cases hreadable
      | str _ => cases hreadable
      | arr _ => cases hreadable
    · exact Option.some_ne_none _
  rw [validateResponse]
  split_ifs with hkind
  · exact Option.some_ne_none _
  · rwa [Ne, Option.map_eq_none_iff]

theorem readContent_ne_none {step : PlannedStep} {content : Except ReportError Json}
    (h : ∀ value, content = .ok value → isCompaction step.target.summaryPromptVersion = true →
      IsReadable value) : readContent step content ≠ none := by
  cases content with
  | error e => exact nofun
  | ok value => exact validateResponse_ne_none (h value rfl)

/-- **An execution comes to an end**, unless a reply makes the reader stop the process. -/
theorem runReplies_ne_none {llm : Llm} {step : PlannedStep} {replies : List Reply}
    (h : ∀ reply ∈ replies, ∀ value, reply.content = some value →
      isCompaction step.target.summaryPromptVersion = true → IsReadable value) (retries : ℕ) :
    runReplies llm step retries replies ≠ none := by
  induction replies generalizing retries with
  | nil => exact nofun
  | cons reply rest ih =>
    obtain ⟨hreply, hrest⟩ := List.forall_mem_cons.1 h
    cases reply with
    | failed e => exact nofun
    | replayed content =>
      exact readContent_ne_none fun value hvalue => hreply value (by rw [hvalue]; rfl)
    | answered content =>
      have hread : readContent step content ≠ none :=
        readContent_ne_none fun value hvalue => hreply value (by rw [hvalue]; rfl)
      rw [runReplies]
      cases hresult : readContent step content with
      | none => exact absurd hresult hread
      | some result =>
        cases result with
        | ok output => exact nofun
        | error e =>
          simp only
          split_ifs
          · exact ih hrest (retries + 1)
          · exact nofun

/-- What an execution returns was read from one of its replies. -/
theorem runReplies_accepted {llm : Llm} {step : PlannedStep} {replies : List Reply} {retries : ℕ}
    {output : PersonalOutput} (h : runReplies llm step retries replies = some (.ok output)) :
    ∃ value, validateResponse step value = some (.ok output) := by
  have hread {content : Except ReportError Json}
      (hcontent : readContent step content = some (.ok output)) :
      ∃ value, validateResponse step value = some (.ok output) := by
    cases content with
    | error e => cases hcontent
    | ok value => exact ⟨value, hcontent⟩
  induction replies generalizing retries with
  | nil => cases h
  | cons reply rest ih =>
    cases reply with
    | failed e => cases h
    | replayed content => exact hread h
    | answered content =>
      rw [runReplies] at h
      cases hresult : readContent step content with
      | none => rw [hresult] at h; cases h
      | some result =>
        rw [hresult] at h
        cases result with
        | ok accepted => exact hread (hresult.trans h)
        | error e =>
          simp only at h
          split_ifs at h
          · exact ih h
          · cases h

/-- What an accepted response is made of. -/
theorem validateResponse_eq_ok {step : PlannedStep} {value : Json} {output : PersonalOutput}
    (h : validateResponse step value = some (.ok output)) :
    ∃ items, acceptItems step.target items = .ok output := by
  rw [validateResponse] at h
  split_ifs at h
  · cases h
  · obtain ⟨read, -, h⟩ := Option.map_eq_some_iff.1 h
    split at h
    · cases h
    · obtain ⟨-, -, h⟩ := bind_eq_ok.1 h
      simp only at h
      split at h
      · cases h
      · exact ⟨_, h⟩

/-- **An accepted compaction rewords the draft**, and is within the cap. -/
theorem validateResponse_compaction {step : PlannedStep} {value : Json} {output : PersonalOutput}
    {draft : List PersonalItem} {cap : ℕ} (h : validateResponse step value = some (.ok output))
    (hcap : summaryCap step.target.summaryPromptVersion = some cap)
    (hcompaction : isCompaction step.target.summaryPromptVersion = true)
    (hdraft : step.target.summaryDraft = some draft) :
    List.Forall₂ Rewords draft output.items ∧ bodyChars output.items ≤ cap := by
  obtain ⟨items, haccept⟩ := validateResponse_eq_ok h
  rw [acceptItems, hcap] at haccept
  obtain ⟨_, -, haccept⟩ := bind_eq_ok.1 haccept
  rw [if_pos hcompaction] at haccept
  obtain ⟨_, hcheck, haccept⟩ := bind_eq_ok.1 haccept
  cases haccept
  rw [checkCompaction, Target.draft, hdraft] at hcheck
  have hall := ensure_eq_ok.1 hcheck
  rw [not_or, not_or, not_not, not_not, not_lt] at hall
  obtain ⟨hbody, hlength, hrewords⟩ := hall
  refine ⟨List.forall₂_iff_zip.2 ⟨hlength.symm, fun {a b} hab => rewords_iff.1 ?_⟩, hbody⟩
  have hmem : rewords a b ∈ List.zipWith rewords draft items := by
    rw [← List.map_uncurry_zip_eq_zipWith]
    exact List.mem_map_of_mem hab
  exact List.all_eq_true.1 hrewords _ hmem

end DailyReport.Personal
