import DailyReport.Contract.ContentAudit
import DailyReport.Lib.Except
import DailyReport.Lib.Greedy
import DailyReport.Lib.Json
import DailyReport.Reports.Tables

/-!
# The selected materials of a personal report

A selection holds the materials that a summary may use, each with its source and the evidence of its
text, and a summary of what was left out.  `Selection.validate` checks it.

* `validate_eq_ok_iff` : what the check stands for;
* `Selection.Valid.sublist` : fewer materials of a valid selection are valid, with their own count.
-/

namespace DailyReport.Personal

open Lib Reports

def maxInputChars : ℕ := 20000

def maxUserChars : ℕ := 2000

/-- So many omitted paths are named. -/
def maxOmittedPaths : ℕ := 10

def userInput : Text := lit "user_input"

/-- `invalid` of the personal reports. -/
def personalInvalid (message : String) : ReportError := reportError "PERSONAL_REPORT_INVALID" message

instance : DecidableEq Json := fun v w => decidable_of_iff (v.print = w.print) Json.print_injective.eq_iff

/-! ### Sources -/

structure ReportSource where
  sourceId : Text
  sourceKind : Text
  relativePath : Option Text
  modifiedAtUtc : Option Text
  observedAtUtc : Text
  contentSha256 : Option Text
  excerptSha256 : Text
  excerptChars : ℕ
  modelChars : ℕ
  parseStatus : Text
  coverageLimits : Json
  deriving DecidableEq

/-- `coverage_limits[group][field]`. -/
def ReportSource.limit (source : ReportSource) (group field : String) : Option Json :=
  (source.coverageLimits.get (lit group)).bind fun limits => limits.get (lit field)

def ReportSource.usable (source : ReportSource) : Bool :=
  decide (source.parseStatus = lit "success") && decide (0 < source.excerptChars) &&
    source.contentSha256.isSome &&
    ((source.limit "evidence_audit" "primary_status").bind Json.asStr).all
      (· == lit "usable_excerpt")

/-- The text is not confirmed. -/
def ReportSource.unverified (source : ReportSource) : Bool :=
  decide (source.limit "evidence_audit" "text_unverified" = some (.bool true)) ||
    decide (source.limit "ocr" "text_unverified" = some (.bool true))

/-- A digest, as it is written. -/
def isSha256 (t : Text) : Bool := decide (t.length = 64) && t.all isLowerHex

/-- A path below a root. -/
def isRelative (t : Text) : Bool :=
  !t.isEmpty && !t.head?.any (fun c => c == '/' || c == '\\') && !t.contains ':' &&
    (t.splitOnP fun c => c == '/' || c == '\\').all fun part =>
      decide (part ≠ lit ".." ∧ part ≠ lit ".")

/-- The formats of the date library. -/
class UtcTimes where
  /-- A time in the format of RFC 3339 with an offset of zero. -/
  isUtc : Text → Bool

section Sources

variable [UtcTimes]

/-- `valid_id`. -/
def ReportSource.hasValidId (source : ReportSource) : Bool :=
  decide (source.sourceId = userInput) ||
    ((lit "src_").isPrefixOf source.sourceId && isSha256 (source.sourceId.drop 4))

/-- The kind of a source goes with its identity and its path. -/
def ReportSource.hasValidKind (source : ReportSource) : Bool :=
  if source.sourceKind = lit "file" then
    decide (source.sourceId ≠ userInput) && source.relativePath.any isRelative
  else if source.sourceKind = lit "user_statement" then
    decide (source.sourceId = userInput) && source.relativePath.isNone
  else false

def ReportSource.validate (source : ReportSource) : Except ReportError Unit :=
  ensure (source.hasValidId = true ∧
      source.parseStatus ∈
        [lit "success", lit "error", lit "timeout", lit "not_parsed"] ∧
      isSha256 source.excerptSha256 = true ∧ source.contentSha256.all isSha256 = true ∧
      source.modelChars ≤ source.excerptChars ∧ UtcTimes.isUtc source.observedAtUtc = true ∧
      source.modifiedAtUtc.all UtcTimes.isUtc = true ∧ source.hasValidKind = true)
    (reportError "REPORT_SOURCE_INVALID" "报告来源身份、范围或时间无效")

end Sources

/-! ### Evidence -/

structure EvidenceRef where
  sourceId : Text
  versionId : Text
  extractionId : Text
  unitId : Text
  side : Text
  rawSha256 : Text
  unitSha256 : Text
  quote : Text
  quoteSha256 : Text
  unitCharStart : ℕ
  inputStart : ℕ
  inputEnd : ℕ
  ranges : List SourceRange
  deriving DecidableEq

/-- The quotes of some evidence, as the text of a material. -/
def evidenceText (refs : List EvidenceRef) : Text :=
  joinWith (lit "\n\n") (refs.map EvidenceRef.quote)

section Evidence

variable [Sha256]

/-- One reference, whose quote is to be at an offset of the text. -/
def checkEvidence (source : ReportSource) (offset : ℕ) (r : EvidenceRef) : Except ReportError ℕ := do
  ensure (r.sourceId = source.sourceId ∧
      r.side ∈ [lit "before", lit "after", lit "current"] ∧
      isSha256 r.rawSha256 = true ∧ isSha256 r.unitSha256 = true ∧ r.quote ≠ [] ∧
      Sha256.hex r.quote = r.quoteSha256 ∧ r.unitSha256 = r.quoteSha256 ∧ r.unitCharStart = 0 ∧
      (r.side ∈ [lit "after", lit "current"] → source.contentSha256 = some r.rawSha256) ∧
      r.inputStart = offset ∧ r.inputEnd = offset + countChars r.quote ∧
      (∀ range ∈ r.ranges, range.validate = .ok ()) ∧
      r.versionId ≠ [] ∧ r.extractionId ≠ [] ∧ r.unitId ≠ [])
    (personalInvalid "原文引用的位置或指纹不一致")
  .ok (r.inputEnd + 2)

def validateEvidence (source : ReportSource) (refs : List EvidenceRef) (text : Text) :
    Except ReportError Unit := do
  if source.sourceKind = lit "user_statement" then
    ensure (refs = [] ∧ source.contentSha256 = some (Sha256.hex text))
      (personalInvalid "用户原文或来源不一致")
  else
    ensure (refs ≠ [] ∧ evidenceText refs = text) (personalInvalid "来源缺少独立依据")
    let _ ← refs.foldlM (checkEvidence source) 0

end Evidence

/-! ### Selections -/

structure Material where
  source : ReportSource
  text : Text
  evidence : List EvidenceRef
  priority : ℕ
  deriving DecidableEq

structure SelectionSummary where
  observedFiles : ℕ
  inspectedFiles : ℕ
  selectedFiles : ℕ
  selectedChars : ℕ
  incompleteInventory : Bool
  /-- How often each reason was given. -/
  omissions : List (Text × ℕ)
  omittedPaths : List Text
  deriving DecidableEq

/-- One more for the key of a count. -/
def countOne (key : Text) : List (Text × ℕ) → List (Text × ℕ)
  | [] => [(key, 1)]
  | entry :: rest =>
    if entry.1 = key then (key, entry.2 + 1) :: rest else entry :: countOne key rest

def SelectionSummary.omit (summary : SelectionSummary) (reason path : Text) : SelectionSummary :=
  { summary with
    omissions := countOne reason summary.omissions
    omittedPaths :=
      if summary.omittedPaths.length < maxOmittedPaths ∧ path ∉ summary.omittedPaths then
        summary.omittedPaths ++ [path]
      else summary.omittedPaths }

theorem SelectionSummary.omit_selectedChars (summary : SelectionSummary) (reason path : Text) :
    (summary.omit reason path).selectedChars = summary.selectedChars := rfl

theorem SelectionSummary.omit_omittedPaths {summary : SelectionSummary}
    (h : summary.omittedPaths.length ≤ maxOmittedPaths) (reason path : Text) :
    (summary.omit reason path).omittedPaths.length ≤ maxOmittedPaths := by
  simp only [SelectionSummary.omit]
  split_ifs with hroom
  · rw [List.length_append, List.length_singleton]
    exact hroom.1
  · exact h

structure CoverageGap where
  code : Text
  message : Text
  sourceId : Option Text
  relativePath : Option Text
  stage : Text
  deriving DecidableEq

/-- `CoverageGap::new`. -/
def CoverageGap.new (code : Text) (stage : String) (source : Option Text) (message : String) :
    CoverageGap :=
  ⟨code, lit message, source, none, lit stage⟩

structure Selection where
  materials : List Material
  summary : SelectionSummary
  gaps : List CoverageGap
  deriving DecidableEq

/-- The characters of some materials. -/
def totalChars (materials : List Material) : ℕ :=
  totalCost (fun material => countChars material.text) materials

theorem totalChars_sublist {materials materials' : List Material}
    (h : materials'.Sublist materials) : totalChars materials' ≤ totalChars materials :=
  totalCost_sublist h

section Selections

variable [Sha256] [UtcTimes]

/-- One round of the loop of `Selection::validate`, behind the identities and the characters that it
has seen. -/
def checkMaterial (seen : List Text × ℕ) (material : Material) :
    Except ReportError (List Text × ℕ) := do
  material.source.validate
  ensure (material.source.sourceId ∉ seen.1 ∧
      countChars material.text = material.source.excerptChars ∧
      Sha256.hex material.text = material.source.excerptSha256)
    (personalInvalid "选入材料身份或正文不一致")
  validateEvidence material.source material.evidence material.text
  ensure (material.source.sourceKind = lit "user_statement" →
      countChars material.text ≤ maxUserChars)
    (reportError "USER_INPUT_TOO_LARGE" "单日补充最多 2,000 字")
  .ok (material.source.sourceId :: seen.1, seen.2 + countChars material.text)

def Selection.validate (selection : Selection) : Except ReportError Unit := do
  let seen ← selection.materials.foldlM checkMaterial ([], 0)
  ensure (seen.2 ≤ maxInputChars ∧ seen.2 = selection.summary.selectedChars ∧
      selection.summary.omittedPaths.length ≤ maxOmittedPaths)
    (personalInvalid "选入材料超过范围或字符统计不一致")

/-- A material that the check accepts, by itself. -/
structure Material.Valid (material : Material) : Prop where
  source : material.source.validate = .ok ()
  chars : countChars material.text = material.source.excerptChars
  digest : Sha256.hex material.text = material.source.excerptSha256
  evidence : validateEvidence material.source material.evidence material.text = .ok ()
  bounded : material.source.sourceKind = lit "user_statement" →
    countChars material.text ≤ maxUserChars

/-- The materials are valid and have identities of their own, and the summary counts them. -/
structure Selection.Valid (selection : Selection) : Prop where
  materials : ∀ material ∈ selection.materials, material.Valid
  ids : (selection.materials.map fun material => material.source.sourceId).Nodup
  bounded : totalChars selection.materials ≤ maxInputChars
  counted : totalChars selection.materials = selection.summary.selectedChars
  omitted : selection.summary.omittedPaths.length ≤ maxOmittedPaths

theorem checkMaterial_eq_ok_iff {seen seen' : List Text × ℕ} {material : Material} :
    checkMaterial seen material = .ok seen' ↔
      (material.Valid ∧ material.source.sourceId ∉ seen.1) ∧
        seen' = (material.source.sourceId :: seen.1, seen.2 + countChars material.text) := by
  constructor
  · intro h
    obtain ⟨_, hsource, h⟩ := bind_eq_ok.1 h
    obtain ⟨_, hidentity, h⟩ := bind_eq_ok.1 h
    obtain ⟨_, hevidence, h⟩ := bind_eq_ok.1 h
    obtain ⟨_, hbounded, h⟩ := bind_eq_ok.1 h
    obtain ⟨hnew, hchars, hdigest⟩ := ensure_eq_ok.1 hidentity
    exact ⟨⟨⟨hsource, hchars, hdigest, hevidence, ensure_eq_ok.1 hbounded⟩, hnew⟩,
      (Except.ok.inj h).symm⟩
  · rintro ⟨⟨hvalid, hnew⟩, rfl⟩
    exact bind_eq_ok.2 ⟨(), hvalid.source, bind_eq_ok.2 ⟨(),
      ensure_eq_ok.2 ⟨hnew, hvalid.chars, hvalid.digest⟩, bind_eq_ok.2 ⟨(), hvalid.evidence,
        bind_eq_ok.2 ⟨(), ensure_eq_ok.2 hvalid.bounded, rfl⟩⟩⟩⟩

/-- The loop over the materials. -/
theorem foldlM_checkMaterial {materials : List Material} {seen seen' : List Text × ℕ}
    (hseen : seen.1.Nodup) :
    materials.foldlM checkMaterial seen = .ok seen' ↔
      ((∀ material ∈ materials, material.Valid) ∧
        ((materials.map fun material => material.source.sourceId).reverse ++ seen.1).Nodup) ∧
        seen' = ((materials.map fun material => material.source.sourceId).reverse ++ seen.1,
          seen.2 + totalChars materials) := by
  induction materials generalizing seen with
  | nil =>
    rw [List.foldlM_nil]
    constructor
    · intro h
      cases h
      exact ⟨⟨nofun, hseen⟩, rfl⟩
    · rintro ⟨-, rfl⟩
      rfl
  | cons material materials ih =>
    simp only [foldlM_cons_eq_ok, checkMaterial_eq_ok_iff, List.map_cons, List.reverse_cons,
      List.append_assoc, List.singleton_append, List.forall_mem_cons]
    have hcount : seen.2 + countChars material.text + totalChars materials =
        seen.2 + totalChars (material :: materials) := by
      rw [totalChars, totalChars, totalCost_cons, Nat.add_assoc]
    constructor
    · rintro ⟨_, ⟨⟨hvalid, hnew⟩, rfl⟩, hrest⟩
      obtain ⟨⟨hmaterials, hnodup⟩, rfl⟩ := (ih (List.nodup_cons.2 ⟨hnew, hseen⟩)).1 hrest
      exact ⟨⟨⟨hvalid, hmaterials⟩, hnodup⟩, by rw [hcount]⟩
    · rintro ⟨⟨⟨hvalid, hmaterials⟩, hnodup⟩, rfl⟩
      have hcons := (List.nodup_append.1 hnodup).2.1
      refine ⟨_, ⟨⟨hvalid, (List.nodup_cons.1 hcons).1⟩, rfl⟩, (ih hcons).2 ⟨⟨hmaterials, hnodup⟩, ?_⟩⟩
      rw [hcount]

/-- **What the check of a selection stands for.** -/
theorem validate_eq_ok_iff {selection : Selection} : selection.validate = .ok () ↔ selection.Valid := by
  have hnil : (([], 0) : List Text × ℕ).1.Nodup := List.nodup_nil
  rw [Selection.validate, bind_eq_ok]
  simp only [foldlM_checkMaterial hnil, List.append_nil, List.nodup_reverse, Nat.zero_add,
    ensure_eq_ok]
  constructor
  · rintro ⟨_, ⟨⟨hmaterials, hnodup⟩, rfl⟩, hbounded, hcounted, homitted⟩
    exact ⟨hmaterials, hnodup, hbounded, hcounted, homitted⟩
  · intro h
    exact ⟨_, ⟨⟨h.materials, h.ids⟩, rfl⟩, h.bounded, h.counted, h.omitted⟩

/-- **Fewer materials of a valid selection are valid, if the summary counts them.** -/
theorem Selection.Valid.sublist {selection selection' : Selection} (h : selection.Valid)
    (hsublist : selection'.materials.Sublist selection.materials)
    (hcounted : totalChars selection'.materials = selection'.summary.selectedChars)
    (homitted : selection'.summary.omittedPaths.length ≤ maxOmittedPaths) : selection'.Valid where
  materials material hmaterial := h.materials material (hsublist.subset hmaterial)
  ids := (hsublist.map _).nodup h.ids
  bounded := (totalChars_sublist hsublist).trans h.bounded
  counted := hcounted
  omitted := homitted

end Selections

end DailyReport.Personal
