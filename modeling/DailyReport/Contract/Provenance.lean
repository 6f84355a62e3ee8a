import DailyReport.Contract.Profile
import DailyReport.Contract.Records

/-!
# Provenance of a classified and parsed file

The records that say where a result comes from, with the checks the engine makes before it stores
them: the pages a classifier looked at (`PdfPageAudit`), the audit of one classification
(`PdfClassificationAuditV1`), the frozen matrix of backends, lanes and cache states
(`validateV2ParseProvenance`), the audit of a file (`FileAudit`) and the audit of the refill rounds
(`RefillAudit`).
-/

namespace DailyReport

open Lib

/-! ### Pages of a PDF -/

structure PdfPageObservation where
  page : ℕ
  hasText : Bool
  hasImage : Option Bool
  deriving DecidableEq

structure PdfPageAudit where
  policyVersion : Text
  checkedPages : List ℕ
  observations : Option (List PdfPageObservation)
  deriving DecidableEq

/-- Add a page to the sample, once. -/
def pushPage (pages : List ℕ) (page : ℕ) : List ℕ :=
  if page ∈ pages then pages else pages ++ [page]

/-- The pages a policy samples: all of a short document, else the first two, the last and pages
spread in between. -/
def pdfSamplePages (pageCount maxPages : ℕ) (policy : Text) : List ℕ :=
  let count := min pageCount maxPages
  if count = 0 then []
  else if policy = lit "pdf_text_presence_v1" then List.range' 1 count
  else
    let first := List.range' 1 (min count 2)
    let pages := if first.length < count then pushPage first pageCount else first
    let remaining := count - pages.length
    let pages := (List.range' 1 remaining).foldl
      (fun pages i => pushPage pages (1 + (pageCount - 1) * i / (remaining + 1))) pages
    (List.range' 1 pageCount).foldl
      (fun pages page => if pages.length = count then pages else pushPage pages page) pages

def PdfPageAudit.validate (a : PdfPageAudit) : Checked := do
  if !pdfTextPresencePolicies.contains a.policyVersion ∨ a.checkedPages.length > 10000 ∨
      0 ∈ a.checkedPages ∨ ¬ a.checkedPages.Nodup then
    .error (lit "invalid PDF page audit")
  if a.observations.any fun items => decide (items.map PdfPageObservation.page ≠ a.checkedPages) then
    .error (lit "PDF observations do not match checked pages")

/-! ### The audit of a classification -/

structure PdfClassificationAuditV1 where
  pageAudit : Option PdfPageAudit
  status : PdfClassificationStatus
  pageCount : Option ℕ
  classificationCacheStatus : ClassificationCacheStatus
  classificationCacheMissReason : Text
  resultExaminedPages : Option ℕ
  runInspectedPages : Option ℕ
  nominalChargedPages : ℕ
  durationMs : ℕ
  transport : ClassificationTransport
  attemptCount : ℕ
  classifierBuild : Text
  classifierProfileHash : Text
  deriving DecidableEq

namespace PdfClassificationAuditV1

/-- Only the last page a text classification looked at has text. -/
def observationsViolate (status : PdfClassificationStatus)
    (observations : List PdfPageObservation) : Bool :=
  observations.zipIdx.any fun (page, index) =>
    page.hasText !=
      (decide (status = .textInParseWindow) && decide (index + 1 = observations.length))

/-- The observed pages agree with the counts, the policy and the status. -/
def validatePages (a : PdfClassificationAuditV1) : Checked :=
  match a.pageAudit with
  | none => .ok ()
  | some audit => do
    audit.validate
    if a.resultExaminedPages ≠ some audit.checkedPages.length ∨
        a.pageCount.all (fun count => audit.checkedPages.any fun page => decide (page > count)) then
      .error (lit "PDF observed pages violate page provenance")
    if (pdfSamplePages (a.pageCount.getD 0) a.nominalChargedPages audit.policyVersion).take
        audit.checkedPages.length ≠ audit.checkedPages then
      .error (lit "PDF observed pages violate the selected policy")
    if audit.observations.any (observationsViolate a.status) then
      .error (lit "PDF text observations violate its status")

def missReasonAllowed (reason : Text) : Bool :=
  [lit "new_file", lit "source_version_changed", lit "classifier_identity_changed",
    lit "entry_absent_or_evicted"].contains reason

/-- A miss, and only a miss, has one of the frozen reasons. -/
def validateMissReason (a : PdfClassificationAuditV1) : Checked :=
  if a.classificationCacheStatus = .miss then
    if missReasonAllowed a.classificationCacheMissReason then .ok ()
    else .error (lit "classification cache miss reason is not in the v2 allowlist")
  else if a.classificationCacheMissReason = [] then .ok ()
  else .error (lit "non-miss classification cache must have an empty miss reason")

/-- Nothing was run for this result. -/
def zeroExecution (a : PdfClassificationAuditV1) (transport : ClassificationTransport) : Checked :=
  if a.runInspectedPages ≠ some 0 ∨ a.durationMs ≠ 0 ∨ a.transport ≠ transport ∨
      a.attemptCount ≠ 0 then
    .error (lit "non-executing classification provenance has nonzero execution fields")
  else .ok ()

/-- A classifier was started. -/
def Executed (a : PdfClassificationAuditV1) : Prop :=
  (a.transport = .session ∨ a.transport = .oneShot) ∧ a.attemptCount ≠ 0

instance (a : PdfClassificationAuditV1) : Decidable a.Executed :=
  inferInstanceAs (Decidable (_ ∧ _))

/-- The cache state of a text or no-text result agrees with its execution. -/
def validateCached (a : PdfClassificationAuditV1) : Checked :=
  match a.classificationCacheStatus with
  | .fresh => a.zeroExecution .notApplicable
  | .snapshot => a.zeroExecution .snapshot
  | .miss =>
    if a.Executed then .ok ()
    else .error
      (lit "executed classification miss requires session/one_shot and 1..3 attempts")
  | .notEligible => .error (lit "text/no-text classification cannot be not_eligible")

/-- A text or no-text result has examined pages inside its window. -/
def validateWindow (a : PdfClassificationAuditV1) : Checked :=
  match a.pageCount, a.resultExaminedPages with
  | none, _ => .error (lit "text/no-text classification requires page provenance")
  | some _, none => .error (lit "text/no-text classification requires examined-page provenance")
  | some pageCount, some resultPages =>
    if pageCount = 0 then
      .error (lit "text/no-text classification page_count must be positive")
    else if a.nominalChargedPages = 0 then
      .error (lit "classified PDF requires a positive nominal page charge")
    else if a.status = .textInParseWindow ∧
        ¬ (1 ≤ resultPages ∧ resultPages ≤ min pageCount a.nominalChargedPages) then
      .error (lit "text classification pages must fit the parse window")
    else if a.status = .noTextInParseWindow ∧
        resultPages ≠ min pageCount a.nominalChargedPages then
      .error (lit "no-text classification must examine the complete window")
    else a.validateCached

/-- A failed classification was executed, and looked at no more than its charge. -/
def validateFailure (a : PdfClassificationAuditV1) : Checked :=
  if a.classificationCacheStatus ≠ .miss ∨ ¬ a.Executed ∨ a.nominalChargedPages = 0 then
    .error (lit "unknown/error classification requires an executed miss with a nominal charge")
  else if a.resultExaminedPages.any fun pages => decide (pages > a.nominalChargedPages) then
    .error (lit "typed failure result pages exceed the nominal page charge")
  else if a.resultExaminedPages.any fun pages =>
      a.pageCount.any fun count => decide (pages > min count a.nominalChargedPages) then
    .error (lit "typed failure result pages exceed the parse window")
  else .ok ()

/-- The shape of a PDF the budget kept from the classifier. -/
def validateExcluded (a : PdfClassificationAuditV1) : Checked :=
  if a.pageCount.isSome ∨ a.resultExaminedPages ≠ some 0 ∨ a.nominalChargedPages ≠ 0 ∨
      a.classificationCacheStatus ≠ .notEligible then
    .error
      (lit "not_classified_by_budget must carry the frozen not_eligible zero-page shape")
  else a.zeroExecution .notApplicable

def validateStatus (a : PdfClassificationAuditV1) : Checked :=
  match a.status with
  | .textInParseWindow | .noTextInParseWindow => a.validateWindow
  | .unknown | .error => a.validateFailure
  | .notClassifiedByBudget => a.validateExcluded

/-- The pages the run looked at fit its attempts and cover its result. -/
def validateRunPages (a : PdfClassificationAuditV1) : Checked :=
  match a.runInspectedPages with
  | none => .ok ()
  | some runPages =>
    if a.attemptCount * a.nominalChargedPages > u64Max then
      .error (lit "classification attempt page budget overflows u64")
    else if runPages > a.attemptCount * a.nominalChargedPages then
      .error (lit "run inspected pages exceed the started attempt page budget")
    else if a.classificationCacheStatus = .miss ∧
        a.resultExaminedPages.any (fun pages => decide (runPages < pages)) then
      .error (lit "observable run pages cannot be smaller than result pages")
    else .ok ()

def validate (a : PdfClassificationAuditV1) : Checked := do
  a.validatePages
  requireSha256Hex a.classifierBuild (lit "classifier_build")
  requireSha256Hex a.classifierProfileHash (lit "classifier_profile_hash")
  requireRange a.attemptCount 0 3 (lit "attempt_count")
  a.validateMissReason
  a.validateStatus
  a.validateRunPages

end PdfClassificationAuditV1

/-! ### The parse provenance matrix -/

/-- A backend and a lane that ran no parser and show metadata. -/
def isMetadataRoute (backend : Text) (lane : AuditWorkerLane) : Bool :=
  backend == lit "pdf_metadata_v2" && decide (lane = .rustCore)

/-- A backend and a lane that ran no parser. -/
def isNotParsedRoute (backend : Text) (lane : AuditWorkerLane) : Bool :=
  backend == lit "not_parsed" && decide (lane = .notParsed)

/-- A backend and a lane of a body parser. -/
def isBodyParserRoute (backend : Text) (lane : AuditWorkerLane) : Bool :=
  (backend == lit "light_text_v2" && decide (lane = .rustCore)) ||
    (backend == lit "rust_office_oxide_v2" && decide (lane = .rustOfficeProcessV3)) ||
    (backend == lit "rust_xlsx_bounded_v2" && decide (lane = .rustOfficeProcessV3)) ||
    (backend == lit "rust_pdfium_v3" && decide (lane = .rustPdfProcessV3)) ||
    (backend == lit "rust_xls_calamine_v3" && decide (lane = .rustOfficeProcessV3)) ||
    (backend == lit "rust_legacy_office_v3" && decide (lane = .rustOfficeProcessV3))

/-- What a classification says about the parse of its file. -/
def validateClassifiedParse (parseStatus : ParseStatus) (metadata notParsed : Bool)
    (parseCacheStatus : ParseCacheStatus) :
    Option PdfClassificationStatus → Checked
  | some .noTextInParseWindow =>
    if (parseStatus = .success ∧ metadata) ∨ (parseStatus = .notParsed ∧ notParsed) then .ok ()
    else .error
      (lit "no-text classification requires metadata-only success or budget-omitted provenance")
  | some .unknown =>
    if (parseStatus = .error ∨ parseStatus = .timeout) ∧ notParsed ∧
        parseCacheStatus = .notApplicable then .ok ()
    else .error (lit "classifier failure must map to not_parsed provenance and Error/Timeout")
  | some .error =>
    if parseStatus = .error ∧ notParsed ∧ parseCacheStatus = .notApplicable then .ok ()
    else .error (lit "classifier failure must map to not_parsed provenance and Error/Timeout")
  | some .notClassifiedByBudget =>
    if parseStatus = .notParsed ∧ notParsed then .ok ()
    else .error (lit "classification budget exclusion must map to not_parsed provenance")
  | some .textInParseWindow | none => .ok ()

/-- What the cache state says about the parse of its file. -/
def validateCachedParse (parseStatus : ParseStatus) (metadata notParsed bodyParser : Bool) :
    ParseCacheStatus → Checked
  | .fresh | .miss =>
    if bodyParser then .ok ()
    else .error (lit "fresh/miss parse provenance requires a body parser")
  | .snapshot =>
    if (parseStatus = .success ∧ (bodyParser ∨ metadata)) ∨
        (parseStatus = .notParsed ∧ notParsed) then .ok ()
    else .error (lit "snapshot parse status does not match its semantic provenance")
  | .notApplicable =>
    if parseStatus = .success ∧ !metadata then
      .error (lit "not_applicable Success requires pdf_metadata_v2/rust_core")
    else if parseStatus ≠ .success ∧ !notParsed then
      .error (lit "not_applicable NotParsed/Error/Timeout requires not_parsed provenance")
    else .ok ()

/-- The frozen matrix of parser routes, cache states and classifications. -/
def validateV2ParseProvenance (parseStatus : ParseStatus) (parserBackend : Text)
    (workerLane : AuditWorkerLane) (parseCacheStatus : ParseCacheStatus)
    (classificationStatus : Option PdfClassificationStatus) : Checked := do
  let metadata := isMetadataRoute parserBackend workerLane
  let notParsed := isNotParsedRoute parserBackend workerLane
  let bodyParser := isBodyParserRoute parserBackend workerLane
  if !(metadata || notParsed || bodyParser) then
    .error (lit "parser backend and worker lane are not a frozen v2 route")
  validateClassifiedParse parseStatus metadata notParsed parseCacheStatus classificationStatus
  if metadata ∧ classificationStatus ≠ some .noTextInParseWindow then
    .error (lit "pdf_metadata_v2 is only valid for no-text classification provenance")
  validateCachedParse parseStatus metadata notParsed bodyParser parseCacheStatus

/-! ### The audit of a file -/

structure FileAudit where
  relativePath : Text
  fileIdentity : Text
  sourceVersion : Text
  parseStatus : ParseStatus
  parserBackend : Text
  workerLane : AuditWorkerLane
  cacheStatus : CacheStatus
  cacheMissReason : CacheMissReason
  truncated : Bool
  contentSha256 : Text
  parseDurationMs : ℕ
  failureClass : Text
  fallbackBackend : Text
  fallbackReasonCode : Text
  deriving DecidableEq

def FileAudit.validate (a : FileAudit) : Checked := do
  requireRelativePath a.relativePath (lit "file relative_path")
  requireNonEmpty a.fileIdentity 4096 (lit "file_identity")
  requireSourceVersion a.sourceVersion (lit "source_version")
  requireNonEmpty a.parserBackend 4096 (lit "parser_backend")
  if !isSha256Hex a.contentSha256 then
    .error (lit "content_sha256 must be lowercase SHA-256")
  [(lit "failure_class", a.failureClass), (lit "fallback_backend", a.fallbackBackend),
    (lit "fallback_reason_code", a.fallbackReasonCode)].forM fun field =>
      if countChars field.2 ≤ 1024 then .ok () else .error (field.1 ++ lit " is too long")

/-! ### The audit of the refill rounds -/

structure RefillRoundAudit where
  round : ℕ
  plannedSourceCount : ℕ
  planSha256 : Text
  candidateSlotsUsed : ℕ
  classificationPagesHeld : ℕ
  extractionSlotsUsed : ℕ
  reservedChars : ℕ
  refundedChars : ℕ
  refundedClassificationPages : ℕ
  deriving DecidableEq

structure RefillAudit where
  policyVersion : Text
  stopReason : Text
  maxRounds : ℕ
  candidateCap : ℕ
  classificationPageCap : ℕ
  extractionCap : ℕ
  contextCharCap : ℕ
  candidateSlotsUsed : ℕ
  classificationPagesHeld : ℕ
  extractionSlotsUsed : ℕ
  refundedChars : ℕ
  refundedClassificationPages : ℕ
  rounds : List RefillRoundAudit
  deriving DecidableEq

namespace RefillAudit

/-- The reasons a refill may stop for. -/
def stopReasons : List Text :=
  [lit "complete", lit "quota_exhausted", lit "no_progress", lit "deadline", lit "round_limit"]

/-- An ASCII hexadecimal digit. -/
def isHexDigit (c : Char) : Bool :=
  c.isDigit || (decide ('a' ≤ c) && decide (c ≤ 'f')) || (decide ('A' ≤ c) && decide (c ≤ 'F'))

/-- The consumption after a round is within the caps of the run. -/
def RoundWithin (a : RefillAudit) (r : RefillRoundAudit) : Prop :=
  r.candidateSlotsUsed ≤ a.candidateCap ∧ r.classificationPagesHeld ≤ a.classificationPageCap ∧
    r.extractionSlotsUsed ≤ a.extractionCap ∧ r.reservedChars ≤ a.contextCharCap

instance (a : RefillAudit) (r : RefillRoundAudit) : Decidable (a.RoundWithin r) :=
  inferInstanceAs (Decidable (_ ∧ _))

/-- The round is the one at its index, planned something and has a digest. -/
def RoundWellFormed (r : RefillRoundAudit) (index : ℕ) : Prop :=
  r.round = index + 1 ∧ r.plannedSourceCount ≠ 0 ∧ r.planSha256.length = 64 ∧
    r.planSha256.all isHexDigit = true

instance (r : RefillRoundAudit) (index : ℕ) : Decidable (RoundWellFormed r index) :=
  inferInstanceAs (Decidable (_ ∧ _))

def validate (a : RefillAudit) : Checked := do
  requireConst a.policyVersion (lit "budget_refill_v3") (lit "refill.policy_version")
  if !stopReasons.contains a.stopReason then .error (lit "invalid refill stop reason")
  if a.maxRounds ≠ 2 ∨ a.rounds.length > 2 then
    .error (lit "refill may freeze at most two supplemental rounds")
  if a.candidateSlotsUsed > a.candidateCap ∨ a.classificationPagesHeld > a.classificationPageCap ∨
      a.extractionSlotsUsed > a.extractionCap then
    .error (lit "refill consumption exceeds the original run quota")
  a.rounds.zipIdx.forM fun (round, index) =>
    if RoundWellFormed round index ∧ a.RoundWithin round then .ok ()
    else .error (lit "invalid frozen refill round")

end RefillAudit

end DailyReport
