import DailyReport.Lib.Sort
import DailyReport.Personal.Items

/-!
# The plan of a summary request

A planned step freezes what a summary is made of and the request that it is made with.  `rebuild`
derives the prompt, the schema and the request from the target of a step, and `PlannedStep.validate`
checks that they are the derived ones and that the request is within the capacity of the model.
-/

namespace DailyReport.Personal

open Lib Reports

/-! ### Settings and plans -/

structure Llm where
  modelId : Text
  /-- The numeral of the temperature. -/
  temperature : Text
  maxTokens : ℕ
  thinkingMode : Option Text
  thinkingParameterLocation : Option Text
  maxRequestUtf8Bytes : ℕ
  contextWindowTokens : Option ℕ
  verifiedMaxOutputTokens : Option ℕ
  invalidResponseRetries : ℕ

inductive StepKind
  | personalSummary
  | weekly
  | monthly
  deriving DecidableEq, Repr

/-- What a summary is to be about. -/
structure Target where
  date : Text
  windowStartUtc : ℤ
  windowEndUtc : ℤ
  selection : Selection
  summaryPromptVersion : Option ℕ
  /-- The largest number of characters, and of items. -/
  summaryLimits : Option (ℕ × ℕ)
  summaryDraft : Option (List PersonalItem)

/-- A request, with the message of the user as canonical JSON. -/
structure Request where
  model : Text
  system : Text
  user : Text
  temperature : Text
  maxTokens : ℕ
  /-- The mode of thinking, as an extra part of the body or at its top level. -/
  extraThinking : Option Text
  topThinking : Option Text
  deriving DecidableEq

structure PlannedStep where
  version : ℕ
  kind : StepKind
  logicalStep : Text
  revision : ℕ
  parentSha256 : Option Text
  promptSha256 : Text
  schemaSha256 : Text
  target : Target
  entries : List Json
  facts : List Json
  sourceMap : List (Text × ReportSource)
  request : Option Request

/-! ### Requests -/

/-- A JSON object of fields that are written already. -/
def objectText (fields : List (Text × Text)) : Text :=
  '{' :: joinWith [','] (fields.map fun field => Json.printStr field.1 ++ ':' :: field.2) ++ ['}']

def messageText (role content : Text) : Text :=
  objectText [(lit "content", Json.printStr content), (lit "role", Json.printStr role)]

def thinkingText (mode : Text) : Text := objectText [(lit "type", Json.printStr mode)]

/-- The canonical JSON of a request. -/
def Request.text (request : Request) : Text :=
  objectText
    ((request.extraThinking.map fun mode =>
        (lit "extra_body", objectText [(lit "thinking", thinkingText mode)])).toList ++
      [(lit "max_tokens", decimal request.maxTokens),
        (lit "messages", '[' :: messageText (lit "system") request.system ++
          ',' :: messageText (lit "user") request.user ++ [']']),
        (lit "model", Json.printStr request.model),
        (lit "response_format", objectText [(lit "type", Json.printStr (lit "json_object"))]),
        (lit "temperature", request.temperature)] ++
      (request.topThinking.map fun mode => (lit "thinking", thinkingText mode)).toList)

def payload (llm : Llm) (system : Text) (user : Json) (maxTokens : ℕ) : Except ReportError Request :=
  let plain : Request := ⟨llm.modelId, system, user.print, llm.temperature, maxTokens, none, none⟩
  match llm.thinkingMode with
  | none => .ok plain
  | some mode =>
    match llm.thinkingParameterLocation with
    | none => .ok { plain with topThinking := some mode }
    | some location =>
      if location = lit "extra_body" then .ok { plain with extraThinking := some mode }
      else if location = lit "top_level" then .ok { plain with topThinking := some mode }
      else .error (reportError "MODEL_CAPABILITY_UNVERIFIED" "思考参数位置未确认")

/-- The largest request for an output of so many tokens. -/
def requestLimit (llm : Llm) (output : ℕ) : Except ReportError ℕ :=
  match llm.contextWindowTokens with
  | none => .error (reportError "MODEL_CAPABILITY_UNVERIFIED" "模型上下文容量尚未确认")
  | some context =>
    match llm.verifiedMaxOutputTokens with
    | none => .error (reportError "MODEL_CAPABILITY_UNVERIFIED" "模型输出容量尚未确认")
    | some maximum => do
      ensure (¬ (maximum < output ∨ output = 0))
        (reportError "MODEL_OUTPUT_LIMIT_INVALID" "模型输出上限无效")
      .ok (min llm.maxRequestUtf8Bytes (context - 1024 - output))

/-- The bytes of a request.  A step without one has the JSON value `null`. -/
def PlannedStep.byteCount (step : PlannedStep) : ℕ :=
  match step.request with
  | none => 4
  | some request => byteLength request.text

def requestTooLarge : ReportError := reportError "MODEL_REQUEST_TOO_LARGE" "冻结模型请求超过容量"

def PlannedStep.checkCapacity (step : PlannedStep) (llm : Llm) : Except ReportError Unit := do
  let limit ← requestLimit llm ((step.request.map Request.maxTokens).getD 0)
  ensure (step.byteCount ≤ limit) requestTooLarge

/-! ### Prompts -/

inductive Prompt
  | legacy
  | plain
  | scan
  | scanCompact
  | compact
  | scanExtended
  | compactExtended
  deriving DecidableEq, Repr

/-- The templates of the prompts. -/
class PromptTexts where
  text : Prompt → Text

def Prompt.ofVersion : Option ℕ → Except ReportError Prompt
  | none => .ok .legacy
  | some 2 => .ok .plain
  | some 3 => .ok .scan
  | some 4 => .ok .scanCompact
  | some 5 => .ok .compact
  | some 6 => .ok .scanExtended
  | some 7 => .ok .compactExtended
  | some _ => .error (reportError "MODEL_PLAN_INVALID" "个人日报提示词版本无效")

/-- The versions that make a draft shorter. -/
def isCompaction (version : Option ℕ) : Bool := decide (version = some 5 ∨ version = some 7)

/-- The characters of a summary in a version that limits them. -/
def summaryCap : Option ℕ → Option ℕ
  | some 4 | some 5 => some maxSummaryChars
  | some 6 | some 7 => some maxSummaryCharsExtended
  | _ => none

def summaryLimit (promptVersion : ℕ) : ℕ :=
  if 6 ≤ promptVersion then maxSummaryCharsExtended else maxSummaryChars

/-- The form of a response. -/
def schema (identified : Bool) : Json :=
  .obj
    [(lit "items", .arr [.obj ((if identified then [(lit "item_id", .num 1)] else []) ++
        [(lit "kind", .str (lit "progress|attention|next_step")),
          (lit "source_ids", .arr [.str (lit "输入来源编号")]),
          (lit "statement_kind", .str (lit "observed|user_statement|uncertain|suggestion")),
          (lit "text", .str (lit "事项正文")), (lit "title", .str (lit "简短标题"))])]),
      (lit "schema_version", .num 5)]

def rangeJson (range : SourceRange) : Json :=
  .obj
    [(lit "column_end", Json.ofNullable .num range.columnEnd),
      (lit "column_start", Json.ofNullable .num range.columnStart), (lit "end", .num range.stop),
      (lit "label", Json.ofNullable .str range.label), (lit "start", .num range.start),
      (lit "unit", .str range.unit.wireName)]

def partJson (r : EvidenceRef) : Json :=
  .obj
    [(lit "end", .num r.inputEnd), (lit "ranges", .arr (r.ranges.map rangeJson)),
      (lit "side", .str r.side), (lit "start", .num r.inputStart)]

/-- A material, as the model sees it. -/
def materialJson (material : Material) : Json :=
  .obj
    [(lit "parts", .arr (material.evidence.map partJson)),
      (lit "path", Json.ofNullable .str material.source.relativePath),
      (lit "source_id", .str material.source.sourceId),
      (lit "source_kind", .str material.source.sourceKind), (lit "text", .str material.text),
      (lit "text_unverified", .bool material.source.unverified)]

/-- An item of a draft, with its number. -/
def itemJson (number : ℕ) (item : PersonalItem) : Json :=
  .obj
    [(lit "item_id", .num number), (lit "kind", .str item.kind.wireName),
      (lit "source_ids", .arr (item.sourceIds.map .str)),
      (lit "statement_kind", .str item.statementKind.wireName), (lit "text", .str item.text),
      (lit "title", .str item.title)]

/-! ### The derived parts of a plan -/

/-- The sources of some materials by their identities. -/
def sourceMap (selection : Selection) : List (Text × ReportSource) :=
  sortByKey Prod.fst (selection.materials.map fun m => (m.source.sourceId, m.source))

def sources (selection : Selection) : List ReportSource := selection.materials.map Material.source

/-- `contracts::invalid`. -/
def responseInvalid : ReportError :=
  reportError "MODEL_RESPONSE_INVALID" "模型响应结构、内容范围或引用无效"

/-- A part of the target that is not there. -/
def jsonInvalid : ReportError := reportError "JSON_INVALID" "invalid type: null, expected a sequence"

/-- The draft that a compaction is about. -/
def Target.draft (target : Target) : Except ReportError (List PersonalItem) :=
  match target.summaryDraft with
  | none => .error jsonInvalid
  | some draft => .ok draft

/-- What the model is given to shorten. -/
def compactInput (target : Target) : Except ReportError Json := do
  let draft ← target.draft
  validateItems draft (sources target.selection)
  ensure (draft ≠ [] ∧ draft.length ≤ maxSummaryItems) responseInvalid
  .ok (.obj
    [(lit "date", .str target.date), (lit "draft_chars", .num (bodyChars draft)),
      (lit "draft_items", .arr (draft.mapIdx fun index item => itemJson (index + 1) item)),
      (lit "max_chars", .num ((summaryCap target.summaryPromptVersion).getD maxSummaryChars)),
      (lit "target_chars", .num 560)])

/-- What the model is given to summarise. -/
def sourcesInput (target : Target) : Json :=
  .obj
    [(lit "date", .str target.date), (lit "sources", .arr (target.selection.materials.map materialJson))]

def requestInput (target : Target) : Except ReportError Json :=
  if isCompaction target.summaryPromptVersion then compactInput target else .ok (sourcesInput target)

def planMismatched (message : String) : ReportError :=
  reportError "MODEL_PLAN_IDENTITY_MISMATCH" message

section Plans

variable [Sha256] [UtcTimes] [PromptTexts]

def rebuild (step : PlannedStep) (llm : Llm) : Except ReportError PlannedStep := do
  let version := step.target.summaryPromptVersion
  step.target.selection.validate
  ensure (step.sourceMap = sourceMap step.target.selection ∧ step.entries.isEmpty = true ∧
      step.facts.isEmpty = true)
    (planMismatched "个人日报来源与冻结材料不一致")
  let prompt ← Prompt.ofVersion version
  let schemaText := (schema (isCompaction version)).print
  let input ← requestInput step.target
  let request ← payload llm (PromptTexts.text prompt ++ '\n' :: schemaText) input
    (min llm.maxTokens (llm.verifiedMaxOutputTokens.getD llm.maxTokens))
  .ok { step with
    promptSha256 := Sha256.hex (PromptTexts.text prompt)
    schemaSha256 := Sha256.hex schemaText
    request := some request }

def PlannedStep.validateIdentity (step : PlannedStep) (llm : Llm) : Except ReportError Unit := do
  ensure (step.version = 6 ∧ step.kind = .personalSummary ∧ step.revision ≤ 1 ∧
      step.logicalStep ≠ [] ∧ byteLength step.logicalStep ≤ 128)
    (reportError "MODEL_PLAN_INVALID" "模型计划版本或步骤无效")
  let expected ← rebuild step llm
  ensure (expected.promptSha256 = step.promptSha256 ∧ expected.schemaSha256 = step.schemaSha256 ∧
      expected.request = step.request ∧ expected.entries = step.entries)
    (planMismatched "模型计划与提示词、配置或输入不一致")

def PlannedStep.validate (step : PlannedStep) (llm : Llm) : Except ReportError Unit := do
  step.validateIdentity llm
  step.checkCapacity llm

end Plans

/-! ### Capacity -/

/-- A request that is within the limit of the model. -/
def WithinLimit (llm : Llm) (step : PlannedStep) : Prop :=
  ∃ limit, requestLimit llm ((step.request.map Request.maxTokens).getD 0) = .ok limit ∧
    step.byteCount ≤ limit

theorem checkCapacity_eq_ok_iff {llm : Llm} {step : PlannedStep} :
    step.checkCapacity llm = .ok () ↔ WithinLimit llm step := by
  rw [PlannedStep.checkCapacity, bind_eq_ok]
  exact exists_congr fun limit => and_congr_right fun _ => ensure_eq_ok

end DailyReport.Personal
