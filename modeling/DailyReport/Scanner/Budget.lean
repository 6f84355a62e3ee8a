import DailyReport.Lib.Greedy
import DailyReport.Contract.Profile
import DailyReport.Scanner.Nominal

/-!
# The context budget model

The budget model owns the semantic character budget: it prices the fixed sections and the omitted
summary once (`ContextBudgetModel.new`), and every admitted file at the worst case of its section
(`ContextBudgetModel.reservedDelta`).  The omitted summary gets its detail slots ahead of the
admission (`OmittedSummaryPlan.build`).

* `ContextBudgetModel.new_ok` : a model that could be built has its base within the budget;
* `OmittedSummaryPlan.cost_detailSlots_le` : the selected slots fit their reservation.
-/

namespace DailyReport

open Lib

def omittedSummaryReservationCap : ℕ := 12000

def omittedReservationFractionPercent : ℕ := 20

/-- The largest 64-bit value has twenty digits. -/
def maxU64Digits : ℕ := 20

def maxSectionReasonChars : ℕ := 64

def maxSectionTextChars : ℕ := 64

def maxExtensionChars : ℕ := 32

/-- Sections are joined with a blank line. -/
def sectionSeparatorChars : ℕ := 2

def maxOmittedReasonChars : ℕ := 64

/-- The reservation of the omitted summary: a fifth of the budget, capped. -/
def omittedSummaryReservation (globalMaxChars : ℕ) : ℕ :=
  min (globalMaxChars * omittedReservationFractionPercent / 100) omittedSummaryReservationCap

/-- Worst case of one omitted detail row. -/
def maxOmittedRowChars (relativePath : Text) : ℕ :=
  countChars (lit "- ") + countChars relativePath + countChars (lit " | action=omit | reason=") +
    maxOmittedReasonChars + countChars (lit " | input_chars=") + maxU64Digits + 1

inductive BudgetError
  | contextFixedSectionsOverBudget
  | budgetModelMismatch
  deriving DecidableEq, Repr

def BudgetError.errorCode : BudgetError → Text
  | .contextFixedSectionsOverBudget => lit "CONTEXT_FIXED_SECTIONS_OVER_BUDGET"
  | .budgetModelMismatch => lit "BUDGET_MODEL_MISMATCH"

def BudgetError.message : BudgetError → Text
  | .contextFixedSectionsOverBudget =>
    lit "fixed context sections exceed the global character budget"
  | .budgetModelMismatch => lit "rendered context exceeded the reserved budget delta"

/-- The error text of a broken budget invariant. -/
def budgetModelMismatch (context : Text) : Text :=
  lit "BUDGET_MODEL_MISMATCH" ++ lit ": " ++ context

/-! ### Routes -/

/-- A parser route. -/
inductive RouteKind
  | lightText
  | rustOffice
  | rustXlsx
  | pdf
  | rustXls
  | rustLegacyOffice
  deriving DecidableEq, Repr

def RouteKind.backend : RouteKind → Text
  | .lightText => lit "light_text_v2"
  | .rustOffice => lit "rust_office_oxide_v2"
  | .rustXlsx => lit "rust_xlsx_bounded_v2"
  | .pdf => lit "rust_pdfium_v3"
  | .rustXls => lit "rust_xls_calamine_v3"
  | .rustLegacyOffice => lit "rust_legacy_office_v3"

def RouteKind.workerLane : RouteKind → Text
  | .lightText => lit "rust_core"
  | .rustOffice | .rustXlsx | .rustXls | .rustLegacyOffice => lit "rust_office_process_v3"
  | .pdf => lit "rust_pdf_process_v3"

/-- Maximum content a route produces under the normalized parser limits. -/
def RouteKind.maxExcerptChars (route : RouteKind) (profile : NormalizedScannerSettings) : ℕ :=
  match route with
  | .lightText => min profile.parse.text.maxChars profile.parse.text.excerptMaxChars
  | .rustOffice | .rustXlsx | .rustXls | .rustLegacyOffice =>
    profile.parse.office.documentExcerptMaxChars
  | .pdf => profile.parse.pdf.excerptMaxChars

/-- What the model knows about a file when it prices its section. -/
structure RouteHint where
  relativePath : Text
  extension : Text
  backend : Text
  workerLane : Text
  maxExcerptChars : ℕ
  deriving DecidableEq

/-! ### The omitted summary plan -/

/-- A candidate for a detail slot of the omitted summary, and the key of a selected slot. -/
structure OmittedCandidate where
  fileIdentity : Text
  relativePath : Text
  extension : Text
  deriving DecidableEq

structure OmittedSummaryPlan where
  reservation : ℕ
  detailSlots : List OmittedCandidate
  deriving DecidableEq

/-- The header of the omitted summary with a count. -/
def omittedHeader (count : Text) : Text :=
  lit "## 省略文件摘要" ++ lit "\n" ++ lit "- 省略文件数: " ++ count

/-- The catch-all row of the omitted summary with a count. -/
def omittedCatchAll (count : Text) : Text := lit "- 其他 | action=omit | count=" ++ count

/-- Cost of the header, of the catch-all row and of the separator. -/
def omittedSummaryFixedChars : ℕ :=
  countChars (omittedHeader (List.replicate maxU64Digits '9') ++ lit "\n") +
    countChars (omittedCatchAll (List.replicate maxU64Digits '9') ++ lit "\n") +
    sectionSeparatorChars

section Plan

variable [UnicodeCase]

/-- The nominal key of a candidate. -/
def OmittedCandidate.key (file : OmittedCandidate) : NominalKey :=
  NominalKey.new file.relativePath file.extension file.fileIdentity

/-- Select the detail slots by nominal rank; the first row that does not fit ends the list. -/
def OmittedSummaryPlan.build (files : List OmittedCandidate) (globalMaxChars : ℕ) :
    OmittedSummaryPlan where
  reservation := omittedSummaryReservation globalMaxChars
  detailSlots :=
    takeWithin (fun file => maxOmittedRowChars file.relativePath + 1)
      (omittedSummaryReservation globalMaxChars) omittedSummaryFixedChars
      (sortByKey OmittedCandidate.key files)

end Plan

/-! ### The model -/

structure ContextBudgetModel where
  globalMaxChars : ℕ
  perFileMaxChars : ℕ
  baseChars : ℕ
  omittedSummaryReservation : ℕ
  deriving DecidableEq

/-- Exact cost of sections with their separators. -/
def sectionsCost (sections : List Text) : ℕ :=
  totalLength sections + sections.length * sectionSeparatorChars

def ContextBudgetModel.new (profile : ContextProfile) (fixedSections : List Text) :
    Except BudgetError ContextBudgetModel :=
  let omitted := DailyReport.omittedSummaryReservation profile.globalMaxChars
  match checkedAdd (sectionsCost fixedSections) omitted with
  | none => .error .budgetModelMismatch
  | some base =>
    if base > profile.globalMaxChars then .error .contextFixedSectionsOverBudget
    else .ok ⟨profile.globalMaxChars, profile.perFileMaxChars, base, omitted⟩

def keyValueLine (pre : Text) (valueChars : ℕ) : ℕ := countChars pre + valueChars + 1

def headingChars (pathChars : ℕ) : ℕ := pathChars + countChars (lit "### ") + 1

/-- Worst case of a section with a body. -/
def successSectionMax (pathChars bodyChars : ℕ) : ℕ :=
  headingChars pathChars + keyValueLine (lit "- action: ") maxSectionTextChars +
    keyValueLine (lit "- reason: ") maxSectionReasonChars +
    keyValueLine (lit "- parser_backend: ") maxSectionTextChars +
    keyValueLine (lit "- worker_lane: ") maxSectionTextChars +
    keyValueLine (lit "- input_chars: ") (maxU64Digits + 1) +
    keyValueLine (lit "- output_chars: ") maxU64Digits +
    countChars (lit "\n- 内容已按单文件预算或解析预算截断\n") +
    countChars (lit "```text\n") + bodyChars + countChars (lit "\n```\n") + sectionSeparatorChars

/-- Worst case of a metadata-only section. -/
def metadataSectionMax (pathChars : ℕ) : ℕ :=
  headingChars pathChars + keyValueLine (lit "- action: ") (countChars (lit "metadata_only")) +
    keyValueLine (lit "- reason: ") maxSectionReasonChars +
    keyValueLine (lit "- parser_backend: ") maxSectionTextChars +
    keyValueLine (lit "- worker_lane: ") maxSectionTextChars +
    keyValueLine (lit "- file_type: ") maxExtensionChars +
    keyValueLine (lit "- size_bytes: ") maxU64Digits +
    keyValueLine (lit "- input_chars: ") (maxU64Digits + 1) +
    countChars (lit "- body: omitted_by_metadata_only_policy\n") + sectionSeparatorChars

/-- Worst case of an error line. -/
def boundedErrorSectionMax (pathChars : ℕ) : ℕ :=
  countChars (lit "- ") + pathChars + countChars (lit " | reason=") + maxSectionReasonChars +
    countChars (lit " | error=") + maxSectionTextChars + 1 + sectionSeparatorChars

namespace ContextBudgetModel

/-- Worst-case reserved characters of a file. -/
def reservedDelta (model : ContextBudgetModel) (route : RouteHint) : ℕ :=
  let pathChars := countChars route.relativePath
  let bodyMax := min model.perFileMaxChars route.maxExcerptChars
  max (max (successSectionMax pathChars bodyMax) (metadataSectionMax pathChars))
    (boundedErrorSectionMax pathChars)

/-- The semantic admission check. -/
def admits (model : ContextBudgetModel) (running delta : ℕ) : Bool :=
  decide (saturatingAdd (saturatingAdd model.baseChars running) delta ≤ model.globalMaxChars)

def checkRenderedWithinReserved (rendered reserved : ℕ) : Except BudgetError Unit :=
  if rendered ≤ reserved then .ok () else .error .budgetModelMismatch

end ContextBudgetModel

/-! ### What the model guarantees -/

/-- **A model that could be built has its base within the budget.** -/
theorem ContextBudgetModel.new_ok {profile : ContextProfile} {fixed : List Text}
    {model : ContextBudgetModel} (h : ContextBudgetModel.new profile fixed = .ok model) :
    model.globalMaxChars = profile.globalMaxChars ∧
      model.perFileMaxChars = profile.perFileMaxChars ∧
      model.baseChars =
        sectionsCost fixed + DailyReport.omittedSummaryReservation profile.globalMaxChars ∧
      model.baseChars ≤ model.globalMaxChars := by
  simp only [ContextBudgetModel.new] at h
  cases hadd : checkedAdd (sectionsCost fixed)
      (DailyReport.omittedSummaryReservation profile.globalMaxChars) with
  | none => simp [hadd] at h
  | some base =>
    have hbase := checkedAdd_eq_some hadd
    simp only [hadd] at h
    split_ifs at h with hover
    simp only [Except.ok.injEq] at h
    subst h
    exact ⟨rfl, rfl, hbase, Nat.le_of_not_lt hover⟩

/-- The admission check without the saturation. -/
theorem ContextBudgetModel.admits_iff {model : ContextBudgetModel} {running delta : ℕ}
    (hglobal : model.globalMaxChars < u64Max) :
    model.admits running delta = true ↔
      model.baseChars + running + delta ≤ model.globalMaxChars := by
  unfold ContextBudgetModel.admits saturatingAdd
  rw [decide_eq_true_iff]
  omega

theorem omittedSummaryReservation_le (globalMaxChars : ℕ) :
    omittedSummaryReservation globalMaxChars ≤ 12000 := by
  unfold omittedSummaryReservation omittedSummaryReservationCap
  exact min_le_right _ _

end DailyReport
