import DailyReport.Contract.Wire
import DailyReport.Lib.Sort

/-!
# Context artifacts

An artifact is the stored form of a context: the text with its digest, the counts, and, where it may
serve as a snapshot, one file row and one decision row for every source file.  `ArtifactDraft.new`
checks what makes a draft well formed, and a `NewArtifact` is a draft that carries it.
-/

namespace DailyReport

open Lib

/-- The hexadecimal SHA-256 digest of a text. -/
class Sha256 where
  hex : Text → Text

/-- The wire name of a parse status. -/
def ParseStatus.wireName : ParseStatus → Text
  | .success => lit "success"
  | .error => lit "error"
  | .timeout => lit "timeout"
  | .notParsed => lit "not_parsed"

def ParseStatus.all : List ParseStatus := [.success, .error, .timeout, .notParsed]

/-- The wire name of a classification status. -/
def PdfClassificationStatus.wireName : PdfClassificationStatus → Text
  | .textInParseWindow => lit "text_in_parse_window"
  | .noTextInParseWindow => lit "no_text_in_parse_window"
  | .notClassifiedByBudget => lit "not_classified_by_budget"
  | .unknown => lit "unknown"
  | .error => lit "error"

def PdfClassificationStatus.all : List PdfClassificationStatus :=
  [.textInParseWindow, .noTextInParseWindow, .notClassifiedByBudget, .unknown, .error]

def ContextAction.all : List ContextAction := [.keep, .compress, .metadataOnly, .omit, .error]

@[simp] theorem ParseStatus.parse_wireName (s : ParseStatus) :
    parseContractEnum ParseStatus.all ParseStatus.wireName s.wireName = some s :=
  parseContractEnum_wireName (by decide +kernel) (by cases s <;> decide)

@[simp] theorem PdfClassificationStatus.parse_wireName (s : PdfClassificationStatus) :
    parseContractEnum PdfClassificationStatus.all PdfClassificationStatus.wireName s.wireName =
      some s :=
  parseContractEnum_wireName (by decide +kernel) (by cases s <;> decide)

@[simp] theorem ContextAction.parse_wireName (a : ContextAction) :
    parseContractEnum ContextAction.all ContextAction.wireName a.wireName = some a :=
  parseContractEnum_wireName (by decide +kernel) (by cases a <;> decide)

/-! ### The summary of an artifact -/

/-- The counts of a context with the characters reserved and rendered. -/
structure SemanticSummary extends ContextCounts where
  reservedChars : ℕ
  renderedChars : ℕ
  deriving DecidableEq

/-- The classified files are among the source files. -/
def SemanticSummary.validateCounts (s : SemanticSummary) : Checked :=
  match (checkedAdd s.successCount s.timeoutCount).bind fun total =>
      checkedAdd total s.errorFileCount with
  | none => .error (lit "semantic summary counts overflow")
  | some classified =>
    if classified ≤ s.sourceFileCount then .ok ()
    else .error (lit "semantic summary counts exceed source_file_count")

def SemanticSummary.json (s : SemanticSummary) : Json :=
  .obj [(lit "source_file_count", .num s.sourceFileCount), (lit "success_count", .num s.successCount),
    (lit "timeout_count", .num s.timeoutCount), (lit "included_file_count", .num s.includedFileCount),
    (lit "omitted_file_count", .num s.omittedFileCount),
    (lit "error_file_count", .num s.errorFileCount), (lit "input_chars", .num s.inputChars),
    (lit "output_chars", .num s.outputChars), (lit "reserved_chars", .num s.reservedChars),
    (lit "rendered_chars", .num s.renderedChars)]

def SemanticSummary.ofJson (v : Json) : Option SemanticSummary := do
  let sourceFileCount ← (← v.get (lit "source_file_count")).asU64
  let successCount ← (← v.get (lit "success_count")).asU64
  let timeoutCount ← (← v.get (lit "timeout_count")).asU64
  let includedFileCount ← (← v.get (lit "included_file_count")).asU64
  let omittedFileCount ← (← v.get (lit "omitted_file_count")).asU64
  let errorFileCount ← (← v.get (lit "error_file_count")).asU64
  let inputChars ← (← v.get (lit "input_chars")).asU64
  let outputChars ← (← v.get (lit "output_chars")).asU64
  let reservedChars ← (← v.get (lit "reserved_chars")).asU64
  let renderedChars ← (← v.get (lit "rendered_chars")).asU64
  guard (v.size = 10)
  some { sourceFileCount, successCount, timeoutCount, includedFileCount, omittedFileCount,
         errorFileCount, inputChars, outputChars, reservedChars, renderedChars }

/-- Every number of the summary is an unsigned 64-bit integer. -/
structure SemanticSummary.Fits (s : SemanticSummary) : Prop where
  sourceFileCount : s.sourceFileCount ≤ u64Max
  successCount : s.successCount ≤ u64Max
  timeoutCount : s.timeoutCount ≤ u64Max
  includedFileCount : s.includedFileCount ≤ u64Max
  omittedFileCount : s.omittedFileCount ≤ u64Max
  errorFileCount : s.errorFileCount ≤ u64Max
  inputChars : s.inputChars ≤ u64Max
  outputChars : s.outputChars ≤ u64Max
  reservedChars : s.reservedChars ≤ u64Max
  renderedChars : s.renderedChars ≤ u64Max

theorem SemanticSummary.ofJson_json {s : SemanticSummary} (h : s.Fits) :
    SemanticSummary.ofJson s.json = some s := by
  simp [SemanticSummary.ofJson, SemanticSummary.json, Json.get, Json.size, lit_eq, guard,
    h.sourceFileCount, h.successCount, h.timeoutCount, h.includedFileCount, h.omittedFileCount,
    h.errorFileCount, h.inputChars, h.outputChars, h.reservedChars, h.renderedChars]

/-! ### The rows of an artifact -/

/-- What an artifact keeps of a classification: nothing that depends on the run. -/
structure PdfClassificationProvenanceV1 where
  status : PdfClassificationStatus
  pageCount : Option ℕ
  resultExaminedPages : Option ℕ
  nominalChargedPages : ℕ
  classifierBuild : Text
  classifierProfileHash : Text
  deriving DecidableEq

structure ArtifactFileRow where
  fileIdentity : Text
  relativePath : Text
  legacySourceVersion : Text
  sourceGuardKind : Option Text
  sourceGuardSha256 : Option Text
  parseProfileHash : Text
  parseStatus : ParseStatus
  parserBackend : Text
  workerLane : Text
  truncated : Bool
  contentSha256 : Text
  classifier : Option PdfClassificationProvenanceV1
  deriving DecidableEq

structure ArtifactDecisionRow where
  fileIdentity : Text
  relativePath : Text
  action : ContextAction
  reason : Text
  priority : ℕ
  inputChars : ℕ
  outputChars : ℕ
  truncated : Bool
  errorCode : Text
  deriving DecidableEq

/-- The digest of a snapshot key and its canonical text; a hit compares the text. -/
structure SnapshotKeyParts where
  sha256 : Text
  canonicalJson : Text
  deriving DecidableEq

/-- An eligible artifact has one file row and one decision row for every source file, an ineligible
one has none. -/
def checkArtifactRows (eligible : Bool) (summary : SemanticSummary)
    (fileRows : List ArtifactFileRow) (decisionRows : List ArtifactDecisionRow) : Checked :=
  if eligible then
    if fileRows.length ≠ summary.sourceFileCount ∨ decisionRows.length ≠ summary.sourceFileCount then
      .error (lit "eligible artifact requires one file and decision row per source file " ++
        lit "(source_file_count=" ++ decimal summary.sourceFileCount ++ lit ", file_rows=" ++
        decimal fileRows.length ++ lit ", decision_rows=" ++ decimal decisionRows.length ++ lit ")")
    else if sortByKey id (fileRows.map ArtifactFileRow.fileIdentity) ≠
        sortByKey id (decisionRows.map ArtifactDecisionRow.fileIdentity) then
      .error (lit "eligible artifact file rows and decision rows must be 1:1 per file")
    else .ok ()
  else if fileRows ≠ [] ∨ decisionRows ≠ [] then
    .error (lit "ineligible artifact must carry no file or decision rows")
  else .ok ()

structure ArtifactDraft where
  snapshotEligible : Bool
  finalContext : Text
  contextSha256 : Text
  semanticSummary : SemanticSummary
  fileRows : List ArtifactFileRow
  decisionRows : List ArtifactDecisionRow
  deriving DecidableEq

variable [Sha256]

/-- What the constructor of a draft makes sure of. -/
structure ArtifactDraft.WellFormed (d : ArtifactDraft) : Prop where
  hash : d.contextSha256 = Sha256.hex d.finalContext
  fits : d.semanticSummary.Fits
  counts : d.semanticSummary.validateCounts = .ok ()
  files_sorted : d.fileRows.Pairwise fun a b => a.fileIdentity ≤ b.fileIdentity
  decisions_sorted : d.decisionRows.Pairwise fun a b => a.fileIdentity ≤ b.fileIdentity
  rows_of_ineligible : d.snapshotEligible = false → d.fileRows = [] ∧ d.decisionRows = []

/-- A draft that its constructor built. -/
abbrev NewArtifact := {d : ArtifactDraft // d.WellFormed}

/-- Check the counts and the rows, then sort the rows by identity. -/
def ArtifactDraft.new (eligible : Bool) (finalContext : Text) (summary : SemanticSummary)
    (hfits : summary.Fits) (fileRows : List ArtifactFileRow)
    (decisionRows : List ArtifactDecisionRow) : Except Text NewArtifact :=
  match hcounts : summary.validateCounts with
  | .error message => .error message
  | .ok () =>
    match hrows : checkArtifactRows eligible summary fileRows decisionRows with
    | .error message => .error message
    | .ok () => .ok
      { val :=
          { snapshotEligible := eligible
            finalContext
            contextSha256 := Sha256.hex finalContext
            semanticSummary := summary
            fileRows := sortByKey ArtifactFileRow.fileIdentity fileRows
            decisionRows := sortByKey ArtifactDecisionRow.fileIdentity decisionRows }
        property :=
          { hash := rfl
            fits := hfits
            counts := hcounts
            files_sorted := sortByKey_sorted _ _
            decisions_sorted := sortByKey_sorted _ _
            rows_of_ineligible := by
              intro hineligible
              change eligible = false at hineligible
              simp only [checkArtifactRows, hineligible, Bool.false_eq_true, if_false] at hrows
              split_ifs at hrows with hne
              obtain ⟨rfl, rfl⟩ : fileRows = [] ∧ decisionRows = [] := by tauto
              exact ⟨rfl, rfl⟩ } }

end DailyReport
