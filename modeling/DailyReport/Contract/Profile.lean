import DailyReport.Contract.Checks
import Mathlib.Data.List.AList

/-!
# The normalized scanner settings

`NormalizedScannerSettings` is the settings record the engine runs with, after the request has
been normalized; `NormalizedScannerSettings.validate` is the check every request passes.
-/

namespace DailyReport

open Lib

/-- The frozen version of the ordering policy. -/
def priorityPolicyVersion : Text := lit "budget_nominal_v2"

/-- The frozen version of the compression policy. -/
def compressionPolicyVersion : Text := lit "markdown_context_v2"

/-- The hard ceiling of source files: discovery beyond it ends the run. -/
def maxSourceFilesPerRun : ℕ := 1000000

inductive ReportMode
  | daily
  | weekly
  | monthly
  deriving DecidableEq, Repr

structure DiscoveryProfile where
  allowedExtensions : List Text
  ignoredPatterns : List Text
  excludedDirs : List Text
  followSymlinks : Bool
  cloudFilesPolicy : Text
  deriving DecidableEq

def DiscoveryProfile.validate (p : DiscoveryProfile) : Checked := do
  requireConst p.cloudFilesPolicy (lit "local_only") (lit "cloud_files_policy")
  validateExtensions p.allowedExtensions (lit "allowed_extensions") true
  validateStrings p.ignoredPatterns (lit "ignored_patterns") true
  validateStrings p.excludedDirs (lit "excluded_dirs") true

structure ExecutionProfile where
  maxWorkers : ℕ
  maxFileSizeBytes : ℕ
  discoveryTimeoutMs : ℕ
  fileTimeoutMs : ℕ
  fileTimeoutByExtensionMs : AList fun _ : Text => ℕ

def ExecutionProfile.validate (p : ExecutionProfile) : Checked := do
  requireRange p.maxWorkers 1 64 (lit "max_workers")
  requireRange p.maxFileSizeBytes 1 4294967296 (lit "max_file_size_bytes")
  requireRange p.discoveryTimeoutMs 1000 3600000 (lit "discovery_timeout_ms")
  requireRange p.fileTimeoutMs 1000 3600000 (lit "file_timeout_ms")
  if p.fileTimeoutByExtensionMs.entries.length > 256 then
    .error (lit "file_timeout_by_extension_ms has too many entries")
  p.fileTimeoutByExtensionMs.entries.forM fun entry => do
    requireExtension entry.1 (lit "file_timeout_by_extension_ms key")
    requireRange entry.2 1000 3600000 (lit "file_timeout_by_extension_ms value")

structure TextParseProfile where
  csvEncodings : List Text
  backend : Text
  readHeadBytes : ℕ
  readTailBytes : ℕ
  maxChars : ℕ
  excerptMaxChars : ℕ
  deriving DecidableEq

/-- The encodings a profile may list. -/
def csvEncodingAllowlist : List Text :=
  [lit "utf-8", lit "utf-8-sig", lit "gb18030"]

def validateCsvEncodings (encodings : List Text) : Checked :=
  if encodings = [] ∨ encodings.length > 3 ∨ ¬ encodings.Nodup ∨
      encodings.any (fun value => !csvEncodingAllowlist.contains value) then
    .error
      (lit "csv_encodings must be a unique explicit allowlist of utf-8, utf-8-sig, gb18030")
  else .ok ()

def TextParseProfile.validate (p : TextParseProfile) : Checked := do
  requireConst p.backend (lit "light_text_v2") (lit "text.backend")
  validateCsvEncodings p.csvEncodings
  requireRange p.readHeadBytes 1 67108864 (lit "read_head_bytes")
  requireRange p.readTailBytes 1 67108864 (lit "read_tail_bytes")
  requireRange p.maxChars 1 10000000 (lit "text.max_chars")
  requireRange p.excerptMaxChars 1 10000000 (lit "text.excerpt_max_chars")

structure OfficeParseProfile where
  primaryBackend : Text
  legacyExtensionsEnabled : Bool
  excelMaxSheets : ℕ
  excelMaxRows : ℕ
  excelMaxColumns : ℕ
  docxMaxParagraphs : ℕ
  docxMaxTables : ℕ
  docxTableMaxRows : ℕ
  docxTableMaxCols : ℕ
  pptxMaxSlides : ℕ
  pptxIncludeNotes : Bool
  documentExcerptMaxChars : ℕ
  deriving DecidableEq

def OfficeParseProfile.validate (p : OfficeParseProfile) : Checked := do
  requireNonEmpty p.primaryBackend 1024 (lit "primary_backend")
  requireRange p.excelMaxSheets 1 1024 (lit "excel_max_sheets")
  requireRange p.excelMaxRows 1 1048576 (lit "excel_max_rows")
  requireRange p.excelMaxColumns 1 16384 (lit "excel_max_columns")
  requireRange p.docxMaxParagraphs 1 1000000 (lit "docx_max_paragraphs")
  requireRange p.docxMaxTables 1 100000 (lit "docx_max_tables")
  requireRange p.docxTableMaxRows 1 1048576 (lit "docx_table_max_rows")
  requireRange p.docxTableMaxCols 1 16384 (lit "docx_table_max_cols")
  requireRange p.pptxMaxSlides 1 100000 (lit "pptx_max_slides")
  requireRange p.documentExcerptMaxChars 1 10000000 (lit "document_excerpt_max_chars")

structure PdfParseProfile where
  selectionPolicyVersion : Text
  backend : Text
  maxPages : ℕ
  excerptMaxChars : ℕ
  deriving DecidableEq

/-- The PDF text-presence policies, used for selection and for classification. -/
def pdfTextPresencePolicies : List Text :=
  [lit "pdf_text_presence_v1", lit "pdf_text_presence_v2"]

def PdfParseProfile.validate (p : PdfParseProfile) : Checked := do
  if !pdfTextPresencePolicies.contains p.selectionPolicyVersion then
    .error (lit "unsupported PDF selection policy")
  requireNonEmpty p.backend 1024 (lit "pdf.backend")
  requireRange p.maxPages 1 10000 (lit "pdf.max_pages")
  requireRange p.excerptMaxChars 1 10000000 (lit "pdf.excerpt_max_chars")

structure ParseProfile where
  cachePayloadVersion : ℕ
  excerptPolicyVersion : Text
  excerptPriorityPaths : List Text
  aggregateMaxChars : ℕ
  text : TextParseProfile
  office : OfficeParseProfile
  pdf : PdfParseProfile
  deriving DecidableEq

/-- The supported excerpt policies. -/
def excerptPolicies : List Text :=
  [lit "fair_semantic_v1", lit "fair_semantic_v2", lit "fair_semantic_v3",
   lit "fair_semantic_v4", lit "fair_semantic_v5", lit "fair_semantic_v6",
   lit "fair_semantic_v7", lit "fair_semantic_v8", lit "fair_semantic_v9"]

def validateExcerptPriorityPaths (paths : List Text) : Checked := do
  if paths.length > 4096 then
    .error (lit "excerpt_priority_paths contains too many items")
  paths.forM fun path => requireRelativePath path (lit "excerpt_priority_paths")

def ParseProfile.validate (p : ParseProfile) : Checked := do
  if p.cachePayloadVersion ≠ 1 ∨ !excerptPolicies.contains p.excerptPolicyVersion then
    .error (lit "parse evidence policies are unsupported")
  validateExcerptPriorityPaths p.excerptPriorityPaths
  requireSortedUnique p.excerptPriorityPaths (lit "excerpt_priority_paths")
  requireRange p.aggregateMaxChars 1 10000000 (lit "aggregate_max_chars")
  p.text.validate
  p.office.validate
  p.pdf.validate

structure ContextProfile where
  profileName : Text
  globalMaxChars : ℕ
  perFileMaxChars : ℕ
  smallFileMaxBytes : ℕ
  mediumFileMaxBytes : ℕ
  largeFileMaxBytes : ℕ
  priorityPolicyVersion : Text
  compressionPolicyVersion : Text
  deriving DecidableEq

def ContextProfile.validate (p : ContextProfile) : Checked := do
  requireRange p.globalMaxChars 1 10000000 (lit "global_max_chars")
  requireRange p.perFileMaxChars 1 10000000 (lit "per_file_max_chars")
  if p.smallFileMaxBytes ≠ 65536 ∨ p.mediumFileMaxBytes ≠ 1048576 ∨
      p.largeFileMaxBytes ≠ 10485760 ∨ p.globalMaxChars < p.perFileMaxChars then
    .error (lit "context thresholds or budgets violate v2")
  requireConst p.priorityPolicyVersion DailyReport.priorityPolicyVersion
    (lit "priority_policy_version")
  requireConst p.compressionPolicyVersion DailyReport.compressionPolicyVersion
    (lit "compression_policy_version")

structure NormalizedScannerSettings where
  reportMode : ReportMode
  discovery : DiscoveryProfile
  execution : ExecutionProfile
  parse : ParseProfile
  context : ContextProfile
  admissionPolicyVersion : Text
  classifierPolicyVersion : Text
  maxCandidateFiles : ℕ
  maxPdfTextExtractions : ℕ
  maxTotalPdfClassificationPages : ℕ
  pdfClassificationTimeoutMs : ℕ
  totalDeadlineMs : ℕ
  workerMaxRequests : ℕ
  workerIdleTtlMs : ℕ
  workerRssLimitBytes : ℕ

/-- The context profile name of a report mode. -/
def ReportMode.profileName : ReportMode → Text
  | .daily => lit "daily_balanced_v1"
  | .weekly => lit "weekly_balanced_v1"
  | .monthly => lit "monthly_balanced_v1"

/-- The policy that never refills. -/
def budgetAdmissionV2 : Text := lit "budget_admission_v2"

/-- The policy with up to two refill rounds. -/
def budgetRefillV3 : Text := lit "budget_refill_v3"

def NormalizedScannerSettings.validate (s : NormalizedScannerSettings) : Checked := do
  s.discovery.validate
  s.execution.validate
  s.parse.validate
  s.context.validate
  if (s.context.profileName, s.context.globalMaxChars, s.context.perFileMaxChars) ≠
      (s.reportMode.profileName, 500000, 100000) then
    .error (lit "report mode and normalized context profile do not match")
  if !(s.admissionPolicyVersion == budgetAdmissionV2 ||
      s.admissionPolicyVersion == budgetRefillV3) then
    .error (lit "unsupported admission_policy_version")
  if !pdfTextPresencePolicies.contains s.classifierPolicyVersion then
    .error (lit "unsupported classifier policy")
  requireRange s.maxCandidateFiles 1 1000000 (lit "max_candidate_files")
  requireRange s.maxPdfTextExtractions 0 100000 (lit "max_pdf_text_extractions")
  requireRange s.maxTotalPdfClassificationPages 0 10000000
    (lit "max_total_pdf_classification_pages")
  requireRange s.pdfClassificationTimeoutMs 100 60000 (lit "pdf_classification_timeout_ms")
  requireRange s.totalDeadlineMs 5000 3600000 (lit "total_deadline_ms")
  requireRange s.workerMaxRequests 1 10000 (lit "worker_max_requests")
  requireRange s.workerIdleTtlMs 1000 600000 (lit "worker_idle_ttl_ms")
  requireRange s.workerRssLimitBytes 67108864 8589934592 (lit "worker_rss_limit_bytes")

/-- The settings of a daily report whose request configures nothing. -/
def dailyDefaultSettings : NormalizedScannerSettings where
  reportMode := .daily
  discovery :=
    { allowedExtensions := [lit ".csv", lit ".docx", lit ".json", lit ".log", lit ".md", lit ".pdf",
        lit ".pptx", lit ".txt", lit ".xls", lit ".xlsx"]
      ignoredPatterns := [lit "*.tmp", lit "~$*"]
      excludedDirs := []
      followSymlinks := false
      cloudFilesPolicy := lit "local_only" }
  execution :=
    { maxWorkers := 4
      maxFileSizeBytes := 52428800
      discoveryTimeoutMs := 30000
      fileTimeoutMs := 30000
      fileTimeoutByExtensionMs := ((∅ : AList fun _ : Text => ℕ).insert (lit ".xlsx") 60000
        |>.insert (lit ".xls") 60000 |>.insert (lit ".pdf") 45000) }
  parse :=
    { cachePayloadVersion := 1
      excerptPolicyVersion := lit "fair_semantic_v9"
      excerptPriorityPaths := []
      aggregateMaxChars := 500000
      text :=
        { csvEncodings := [lit "utf-8", lit "utf-8-sig"]
          backend := lit "light_text_v2"
          readHeadBytes := 262144
          readTailBytes := 262144
          maxChars := 6000
          excerptMaxChars := 6000 }
      office :=
        { primaryBackend := lit "rust_office_oxide_v2"
          legacyExtensionsEnabled := false
          excelMaxSheets := 5
          excelMaxRows := 50
          excelMaxColumns := 20
          docxMaxParagraphs := 200
          docxMaxTables := 20
          docxTableMaxRows := 50
          docxTableMaxCols := 12
          pptxMaxSlides := 50
          pptxIncludeNotes := true
          documentExcerptMaxChars := 6000 }
      pdf :=
        { selectionPolicyVersion := lit "pdf_text_presence_v2"
          backend := lit "rust_pdfium_v3"
          maxPages := 5
          excerptMaxChars := 6000 } }
  context :=
    { profileName := lit "daily_balanced_v1"
      globalMaxChars := 500000
      perFileMaxChars := 100000
      smallFileMaxBytes := 65536
      mediumFileMaxBytes := 1048576
      largeFileMaxBytes := 10485760
      priorityPolicyVersion := priorityPolicyVersion
      compressionPolicyVersion := compressionPolicyVersion }
  admissionPolicyVersion := budgetRefillV3
  classifierPolicyVersion := lit "pdf_text_presence_v2"
  maxCandidateFiles := 96
  maxPdfTextExtractions := 8
  maxTotalPdfClassificationPages := 80
  pdfClassificationTimeoutMs := 2000
  totalDeadlineMs := 10000
  workerMaxRequests := 128
  workerIdleTtlMs := 30000
  workerRssLimitBytes := 536870912

/-- The default settings pass their own check. -/
theorem dailyDefaultSettings_validate : dailyDefaultSettings.validate = .ok () := by
  decide +kernel

end DailyReport
