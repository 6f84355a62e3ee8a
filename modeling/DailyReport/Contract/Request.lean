import DailyReport.Contract.Envelope
import DailyReport.Contract.Profile

/-!
# Build requests

`BuildContextRequest` is what a client asks: a directory, a period, optionally a UTC window, the raw
scanner settings and the paths of the store and of the workers.  `BuildContextRequest.validate` is
the check every request passes before a run is begun.
-/

namespace DailyReport

open Lib

inductive CompressionProfile
  | dailyBalancedV1
  | weeklyBalancedV1
  | monthlyBalancedV1
  deriving DecidableEq, Repr

structure AdapterPaths where
  officeWorkerPath : Text
  pdfWorkerPath : Text
  deriving DecidableEq

def AdapterPaths.validate (p : AdapterPaths) : Checked := do
  requireAbsolutePath p.officeWorkerPath (lit "office_worker_path")
  requireAbsolutePath p.pdfWorkerPath (lit "pdf_worker_path")

/-! ### Raw settings -/

/-- The raw settings of a request.  Every leaf is optional; `none` asks for the default. -/
structure ScannerSettings where
  allowedExtensions : Option (List Text) := none
  ignoredPatterns : Option (List Text) := none
  excludedDirs : Option (List Text) := none
  followSymlinks : Option Bool := none
  cloudFilesPolicy : Option Text := none
  maxWorkers : Option ℕ := none
  maxFileSizeMb : Option ℕ := none
  discoveryTimeoutSeconds : Option ℕ := none
  fileTimeoutSeconds : Option ℕ := none
  fileTimeoutByExtension : Option (AList fun _ : Text => ℕ) := none
  totalMaxChars : Option ℕ := none
  excerptPriorityPaths : Option (List Text) := none
  legacyOfficeEnabled : Option Bool := none
  pptxIncludeNotes : Option Bool := none
  directTextMaxBytes : Option ℕ := none
  directTextReadBytes : Option ℕ := none
  logTailReadBytes : Option ℕ := none
  textExcerptMaxChars : Option ℕ := none
  excelMaxRows : Option ℕ := none
  pdfMaxPages : Option ℕ := none
  textMaxChars : Option ℕ := none
  csvEncodings : Option (List Text) := none
  excelMaxSheets : Option ℕ := none
  excelMaxColumns : Option ℕ := none
  docxMaxParagraphs : Option ℕ := none
  docxMaxTables : Option ℕ := none
  docxTableMaxRows : Option ℕ := none
  docxTableMaxCols : Option ℕ := none
  pptxMaxSlides : Option ℕ := none
  documentExcerptMaxChars : Option ℕ := none
  summaryExcelMaxRows : Option ℕ := none
  summaryPdfMaxPages : Option ℕ := none
  summaryTextMaxChars : Option ℕ := none
  summaryExcelMaxSheets : Option ℕ := none
  summaryExcelMaxColumns : Option ℕ := none
  summaryDocxMaxParagraphs : Option ℕ := none
  summaryDocxMaxTables : Option ℕ := none
  summaryDocxTableMaxRows : Option ℕ := none
  summaryDocxTableMaxCols : Option ℕ := none
  summaryPptxMaxSlides : Option ℕ := none
  summaryDocumentExcerptMaxChars : Option ℕ := none
  maxCandidateFiles : Option ℕ := none
  maxPdfTextExtractions : Option ℕ := none
  maxTotalPdfClassificationPages : Option ℕ := none
  pdfClassificationTimeoutMs : Option ℕ := none
  totalDeadlineMs : Option ℕ := none
  workerMaxRequests : Option ℕ := none
  workerIdleTtlMs : Option ℕ := none
  workerRssLimitBytes : Option ℕ := none

/-- A leaf passes its check where it is given. -/
def checkLeaf {α : Type} (check : α → Checked) : Option α → Checked
  | some value => check value
  | none => .ok ()

/-- The named leaves are in one range. -/
def checkRanges (leaves : List (String × Option ℕ)) (min max : ℕ) : Checked :=
  leaves.forM fun (field, value) =>
    checkLeaf (fun value => requireRange value min max (lit field)) value

def validateTimeouts (timeouts : AList fun _ : Text => ℕ) : Checked := do
  if timeouts.entries.length > 256 then
    .error (lit "file_timeout_by_extension has too many entries")
  timeouts.entries.forM fun entry => do
    requireExtension entry.1 (lit "file_timeout_by_extension key")
    requireRange entry.2 1 3600 (lit "file_timeout_by_extension value")

def ScannerSettings.validate (s : ScannerSettings) : Checked := do
  checkLeaf validateExcerptPriorityPaths s.excerptPriorityPaths
  checkLeaf validateCsvEncodings s.csvEncodings
  checkLeaf (fun values => validateExtensions values (lit "allowed_extensions") false)
    s.allowedExtensions
  checkLeaf (fun values => validateStrings values (lit "ignored_patterns") false) s.ignoredPatterns
  checkLeaf (fun values => validateStrings values (lit "excluded_dirs") false) s.excludedDirs
  checkLeaf (fun policy => requireConst policy (lit "local_only") (lit "cloud_files_policy"))
    s.cloudFilesPolicy
  checkRanges [("max_workers", s.maxWorkers)] 1 64
  checkRanges [("max_file_size_mb", s.maxFileSizeMb)] 1 4096
  checkRanges [("discovery_timeout_seconds", s.discoveryTimeoutSeconds),
    ("file_timeout_seconds", s.fileTimeoutSeconds)] 1 3600
  checkLeaf validateTimeouts s.fileTimeoutByExtension
  checkRanges [("total_max_chars", s.totalMaxChars)] 1 10000000
  checkRanges [("direct_text_max_bytes", s.directTextMaxBytes),
    ("direct_text_read_bytes", s.directTextReadBytes),
    ("log_tail_read_bytes", s.logTailReadBytes)] 1 67108864
  checkRanges [("text_excerpt_max_chars", s.textExcerptMaxChars),
    ("text_max_chars", s.textMaxChars),
    ("document_excerpt_max_chars", s.documentExcerptMaxChars),
    ("summary_text_max_chars", s.summaryTextMaxChars),
    ("summary_document_excerpt_max_chars", s.summaryDocumentExcerptMaxChars)] 1 10000000
  checkRanges [("pdf_max_pages", s.pdfMaxPages), ("summary_pdf_max_pages", s.summaryPdfMaxPages)]
    1 10000
  checkRanges [("excel_max_sheets", s.excelMaxSheets),
    ("summary_excel_max_sheets", s.summaryExcelMaxSheets)] 1 1024
  checkRanges [("excel_max_rows", s.excelMaxRows), ("docx_table_max_rows", s.docxTableMaxRows),
    ("summary_excel_max_rows", s.summaryExcelMaxRows),
    ("summary_docx_table_max_rows", s.summaryDocxTableMaxRows)] 1 1048576
  checkRanges [("excel_max_columns", s.excelMaxColumns), ("docx_table_max_cols", s.docxTableMaxCols),
    ("summary_excel_max_columns", s.summaryExcelMaxColumns),
    ("summary_docx_table_max_cols", s.summaryDocxTableMaxCols)] 1 16384
  checkRanges [("docx_max_paragraphs", s.docxMaxParagraphs),
    ("summary_docx_max_paragraphs", s.summaryDocxMaxParagraphs)] 1 1000000
  checkRanges [("docx_max_tables", s.docxMaxTables), ("pptx_max_slides", s.pptxMaxSlides),
    ("summary_docx_max_tables", s.summaryDocxMaxTables),
    ("summary_pptx_max_slides", s.summaryPptxMaxSlides)] 1 100000
  checkRanges [("max_candidate_files", s.maxCandidateFiles)] 1 1000000
  checkRanges [("max_pdf_text_extractions", s.maxPdfTextExtractions)] 0 100000
  checkRanges [("max_total_pdf_classification_pages", s.maxTotalPdfClassificationPages)] 0 10000000
  checkRanges [("pdf_classification_timeout_ms", s.pdfClassificationTimeoutMs)] 100 60000
  checkRanges [("total_deadline_ms", s.totalDeadlineMs)] 5000 3600000
  checkRanges [("worker_max_requests", s.workerMaxRequests)] 1 10000
  checkRanges [("worker_idle_ttl_ms", s.workerIdleTtlMs)] 1000 600000
  checkRanges [("worker_rss_limit_bytes", s.workerRssLimitBytes)] 67108864 8589934592

/-! ### Dates and windows -/

/-- The number that a run of digits writes. -/
def numeral (digits : Text) : ℕ := Nat.ofDigitChars 10 digits 0

/-- The days of a month, none for a month that does not exist. -/
def maxDay (year month : ℕ) : ℕ :=
  if month ∈ [1, 3, 5, 7, 8, 10, 12] then 31
  else if month ∈ [4, 6, 9, 11] then 30
  else if month = 2 then
    if year % 4 = 0 ∧ (year % 100 ≠ 0 ∨ year % 400 = 0) then 29 else 28
  else 0

/-- The year, month and day of `YYYY-MM-DD` at the front of a text. -/
def calendarDate (value : Text) : ℕ × ℕ × ℕ :=
  (numeral (value.take 4), numeral ((value.drop 5).take 2), numeral ((value.drop 8).take 2))

/-- The day is a day of its month. -/
def isCalendarDate (date : ℕ × ℕ × ℕ) : Bool :=
  decide (1 ≤ date.2.2 ∧ date.2.2 ≤ maxDay date.1 date.2.1)

def dateChar (index : ℕ) (c : Char) : Bool :=
  if index = 4 ∨ index = 7 then c == '-' else c.isDigit

def requireDate (value field : Text) : Checked :=
  if byteLength value ≠ 10 ∨ (value.zipIdx.all fun p => dateChar p.2 p.1) = false then
    .error (field ++ lit " must use YYYY-MM-DD")
  else if isCalendarDate (calendarDate value) then .ok ()
  else .error (field ++ lit " must be a valid calendar date")

/-- `strip_suffix`. -/
def stripSuffixText (suffix value : Text) : Option Text :=
  if suffix.isSuffixOf value then some (value.take (value.length - suffix.length)) else none

/-- A timestamp without its UTC designator. -/
def windowBody (value : Text) : Option Text :=
  (stripSuffixText (lit "Z") value).or (stripSuffixText (lit "+00:00") value)

/-- The characters of `YYYY-MM-DDTHH:MM:SS`. -/
def windowChar (index : ℕ) (c : Char) : Bool :=
  if index = 10 then c == 'T'
  else if index = 13 ∨ index = 16 then c == ':'
  else dateChar index c

/-- The strict shape: whole seconds, or one to six digits after a point. -/
def windowShape (body : Text) : Bool :=
  decide (19 ≤ body.length) && (body.take 19).zipIdx.all (fun p => windowChar p.2 p.1) &&
    decide (body.take 4 ≠ lit "0000") && decide ((body.drop 17).take 2 < lit "60") &&
    (decide (body.length = 19) ||
      decide (21 ≤ body.length ∧ body.length ≤ 26) && body[19]? == some '.' &&
        (body.drop 20).all Char.isDigit)

/-- The microseconds that a fraction of up to six digits writes. -/
def windowMicros (fraction : Text) : ℕ := numeral (fraction ++ .replicate (6 - fraction.length) '0')

/-- An instant, as a number with the order of the calendar fields it is written with. -/
def windowInstant (body : Text) : ℕ :=
  let (year, month, day) := calendarDate body
  let hour := numeral ((body.drop 11).take 2)
  let minute := numeral ((body.drop 14).take 2)
  let second := numeral ((body.drop 17).take 2)
  (((((year * 13 + month) * 32 + day) * 24 + hour) * 60 + minute) * 60 + second) * 1000000 +
    windowMicros (body.drop 20)

/-- `parse` of a window boundary: the shape first, then what the date library checks. -/
def parseWindow (value : Text) : Except Text ℕ :=
  match (windowBody value).filter windowShape with
  | none => .error (lit "scan window must use RFC 3339 UTC timestamps")
  | some body =>
    if isCalendarDate (calendarDate body) ∧ numeral ((body.drop 11).take 2) < 24 ∧
        numeral ((body.drop 14).take 2) < 60 then .ok (windowInstant body)
    else .error (lit "scan window timestamp is invalid")

def validateScanWindow : Option Text → Option Text → Checked
  | none, none => .ok ()
  | some start, some stop => do
    let start ← parseWindow start
    let stop ← parseWindow stop
    if start ≥ stop then .error (lit "scan window must have positive duration")
  | _, _ => .error (lit "UTC window boundaries must be supplied together")

/-! ### Requests -/

structure BuildContextRequest where
  contract : Text
  protocolVersion : ℕ
  requestId : Text
  workDir : Text
  startDate : Text
  endDate : Text
  windowStartUtc : Option Text
  windowEndUtc : Option Text
  reportMode : ReportMode
  compressionProfile : Option CompressionProfile
  scanDbPath : Text
  scannerSettings : ScannerSettings
  adapters : AdapterPaths

/-- A compression profile that is given is the one of the report mode. -/
def compressionMatches : ReportMode → Option CompressionProfile → Bool
  | _, none => true
  | .daily, some .dailyBalancedV1 => true
  | .weekly, some .weeklyBalancedV1 => true
  | .monthly, some .monthlyBalancedV1 => true
  | _, _ => false

def BuildContextRequest.validate (r : BuildContextRequest) : Checked := do
  requireConst r.contract (lit "ai_daily_context") (lit "contract")
  requireRange r.protocolVersion 1 1 (lit "protocol_version")
  requireRequestId r.requestId
  requireAbsolutePath r.workDir (lit "work_dir")
  requireDate r.startDate (lit "start_date")
  requireDate r.endDate (lit "end_date")
  validateScanWindow r.windowStartUtc r.windowEndUtc
  if r.startDate > r.endDate then .error (lit "start_date must not be after end_date")
  if !compressionMatches r.reportMode r.compressionProfile then
    .error (lit "compression profile does not match report mode")
  requireAbsolutePath r.scanDbPath (lit "scan_db_path")
  r.scannerSettings.validate
  r.adapters.validate

/-- Windows are compared as instants: half a second is before a whole one, and the hour is checked. -/
example : (validateScanWindow (some (lit "2026-10-19T16:00:00.5Z"))
      (some (lit "2026-10-19T16:00:01+00:00")) = .ok ()) ∧
    validateScanWindow (some (lit "2026-10-19T24:00:00Z")) (some (lit "2026-10-20T16:00:00Z")) =
      .error (lit "scan window timestamp is invalid") := by
  decide +kernel

end DailyReport
