import DailyReport.Lib.Except
import DailyReport.Contract.ContentAudit
import DailyReport.Contract.Profile
import DailyReport.Contract.Records
import DailyReport.Scanner.Nominal

/-!
# Context decisions

`decideFiles` turns the evidence of the discovered files into context decisions and puts them in
nominal order.  A decision's action is a function of the evidence alone (`decideAction`): errors
and timeouts become error lines, files that were not parsed are omitted, and a success is kept,
compressed or shown by its metadata.

* `decideFiles_eq_ok` : **a successful decision** has validated all the evidence and sorted it.
-/

namespace DailyReport

open Lib

/-- The evidence about one file, before any budgeting. -/
structure ContextFileEvidence where
  fileIdentity : Text
  absolutePath : Text
  relativePath : Text
  extension : Text
  sizeBytes : Option ℕ
  content : Text
  evidenceAudit : Option ParsedContentAudit
  parserBackend : Text
  workerLane : AuditWorkerLane
  cacheStatus : CacheStatus
  parseStatus : ParseStatus
  truncated : Bool
  error : Option Diagnostic
  reason : Option Text
  deriving DecidableEq

def isExtension (value : Text) : Bool :=
  decide (2 ≤ countChars value) && decide (countChars value ≤ 32) && ['.'].isPrefixOf value &&
    (value.drop 1).all extensionChar

def isAbsoluteContractPath (value : Text) : Bool :=
  isAbsolute value && !value.contains (Char.ofNat 0) && decide (countChars value ≤ 32767)

namespace ContextFileEvidence

/-- The decision whose own checks stand in for those of the evidence. -/
def probe (e : ContextFileEvidence) : ContextDecision where
  relativePath := e.relativePath
  action := .keep
  reason := lit "validation_probe"
  priority := 0
  inputChars := countChars e.content
  outputChars := 0
  truncated := e.truncated
  errorCode := []

/-- The status of the evidence agrees with its error and its reason. -/
def validateStatus (e : ContextFileEvidence) : Checked :=
  match e.parseStatus with
  | .success =>
    if e.error.isSome then .error (lit "successful context evidence cannot carry an error")
    else .ok ()
  | .error | .timeout =>
    if e.error.isNone then .error (lit "failed context evidence requires a diagnostic")
    else .ok ()
  | .notParsed =>
    if e.error.isSome then
      .error (lit "not-parsed evidence cannot carry a per-file diagnostic")
    else if e.reason.isNone then .error (lit "not-parsed evidence requires a budget reason")
    else .ok ()

/-- The diagnostic of the evidence is about its own file. -/
def validateError (e : ContextFileEvidence) : Checked :=
  match e.error with
  | none => .ok ()
  | some error => do
    error.validate
    if error.filePath = some e.absolutePath then .ok ()
    else .error (lit "context diagnostic path does not match its evidence")

/-- The audit of the evidence describes its content. -/
def validateAudit (e : ContextFileEvidence) : Checked :=
  match e.evidenceAudit with
  | some audit => audit.validate e.content
  | none => .ok ()

/-- The identity, the path, the extension and the backend of the evidence are well formed. -/
def validateFields (e : ContextFileEvidence) : Checked :=
  if e.fileIdentity = [] ∨ countChars e.fileIdentity > 4096 ∨
      isAbsoluteContractPath e.absolutePath = false ∨ isExtension e.extension = false ∨
      e.parserBackend = [] ∨ countChars e.parserBackend > 1024 then
    .error (lit "context file evidence is invalid")
  else .ok ()

def validate (e : ContextFileEvidence) : Checked := do
  e.validateAudit
  e.probe.validate
  e.validateFields
  e.validateStatus
  e.validateError

/-- What valid evidence satisfies. -/
structure Valid (e : ContextFileEvidence) : Prop where
  probe : e.probe.validate = .ok ()
  identity : e.fileIdentity ≠ []
  extension : isExtension e.extension = true
  backend : e.parserBackend ≠ []
  status : e.validateStatus = .ok ()
  error : e.validateError = .ok ()

theorem valid_of_validate {e : ContextFileEvidence} (h : e.validate = .ok ()) : e.Valid := by
  unfold validate at h
  obtain ⟨_, -, h⟩ := bind_eq_ok.1 h
  obtain ⟨_, hprobe, h⟩ := bind_eq_ok.1 h
  obtain ⟨_, hfields, h⟩ := bind_eq_ok.1 h
  obtain ⟨_, hstatus, herror⟩ := bind_eq_ok.1 h
  unfold validateFields at hfields
  split_ifs at hfields with hbounds
  simp only [not_or, Bool.not_eq_false] at hbounds
  obtain ⟨hidentity, -, -, hextension, hbackend, -⟩ := hbounds
  exact ⟨hprobe, hidentity, hextension, hbackend, hstatus, herror⟩

/-- Valid evidence of a failure has a diagnostic. -/
theorem Valid.error_isSome {e : ContextFileEvidence} (h : e.Valid)
    (hstatus : e.parseStatus = .error ∨ e.parseStatus = .timeout) : e.error.isSome = true := by
  have := h.status
  rcases hstatus with hs | hs <;>
  · simp only [validateStatus, hs] at this
    split_ifs at this with hnone
    simpa [Option.isSome_iff_ne_none] using hnone

end ContextFileEvidence

/-- The evidence of a file with its decision. -/
structure DecidedFile where
  evidence : ContextFileEvidence
  decision : ContextDecision
  deriving DecidableEq

def compressionReason (extension : Text) : Text :=
  if extension = lit ".log" then lit "large_log_tail"
  else if officeOrPdfExtensions.contains extension then lit "large_document_summary"
  else lit "medium_text_compress"

/-- The action of the evidence and its reason.  Evidence that was not parsed has a reason: its
validation says so. -/
def decideAction (e : ContextFileEvidence) (profile : ContextProfile) : ContextAction × Text :=
  match e.parseStatus with
  | .error | .timeout => (.error, e.reason.getD (lit "parse_error"))
  | .notParsed => (.omit, e.reason.getD [])
  | .success =>
    if e.parserBackend = lit "pdf_metadata_v2" ∧
        e.reason = some (lit "pdf_no_text_in_parse_window") then
      (.metadataOnly, lit "pdf_no_text_in_parse_window")
    else if e.sizeBytes.getD 0 > profile.largeFileMaxBytes then
      (.metadataOnly, lit "file_size_policy")
    else if countChars e.content ≤ profile.perFileMaxChars ∧ e.truncated = false then
      (.keep, lit "small_file_keep")
    else (.compress, compressionReason e.extension)

/-- The error code of a decision. -/
def decideErrorCode (e : ContextFileEvidence) : Text :=
  match e.parseStatus with
  | .error | .timeout =>
    match e.error with
    | some error => error.errorCode.wireName
    | none => []
  | _ => []

section

variable [UnicodeCase]

/-- The nominal key of the evidence. -/
def ContextFileEvidence.key (e : ContextFileEvidence) : NominalKey :=
  NominalKey.new e.relativePath e.extension e.fileIdentity

/-- The decision about one file. -/
def decideFile (e : ContextFileEvidence) (profile : ContextProfile) : DecidedFile where
  evidence := e
  decision :=
    { relativePath := e.relativePath
      action := (decideAction e profile).1
      reason := (decideAction e profile).2
      priority := e.key.priority
      inputChars :=
        match (decideAction e profile).1 with
        | .keep | .compress => countChars e.content
        | _ => e.sizeBytes.getD 0
      outputChars := 0
      truncated := e.truncated
      errorCode := decideErrorCode e }

def decideFiles (evidence : List ContextFileEvidence) (profile : ContextProfile) :
    Except Text (List DecidedFile) := do
  let decided ← evidence.mapM fun e => do
    e.validate
    return decideFile e profile
  return sortByKey (fun d : DecidedFile => d.evidence.key) decided

/-! ### What a successful decision says -/

/-- **A successful decision** has validated all the evidence and put it in nominal order. -/
theorem decideFiles_eq_ok {evidence : List ContextFileEvidence} {profile : ContextProfile}
    {decided : List DecidedFile} :
    decideFiles evidence profile = .ok decided ↔
      decided = (sortByKey ContextFileEvidence.key evidence).map (fun e => decideFile e profile) ∧
        ∀ e ∈ evidence, e.validate = .ok () := by
  unfold decideFiles
  rw [bind_eq_ok]
  constructor
  · rintro ⟨l, hl, hd⟩
    obtain ⟨rfl, hall⟩ := mapM_check_eq_ok.1 hl
    simp only [pure, Except.pure, Except.ok.injEq] at hd
    subst hd
    exact ⟨sortByKey_map _ _ _, hall⟩
  · rintro ⟨rfl, hall⟩
    refine ⟨_, mapM_check_eq_ok.2 ⟨rfl, hall⟩, ?_⟩
    exact congrArg Except.ok (sortByKey_map _ _ _)

end

end DailyReport
