import DailyReport.Contract.Profile
import DailyReport.Lib.Lowercase
import DailyReport.TextParser.Csv
import DailyReport.TextParser.JsonPreview
import DailyReport.TextParser.Segments

/-!
# The parser of light texts

`parseLightText` reads a window of the file and shows it by its type: a text or a log by its lines,
a CSV file by its first records, a JSON file as it is.
-/

namespace DailyReport.TextParser

open Lib

def textFileTypes : List Text := [lit ".txt", lit ".md", lit ".csv", lit ".json", lit ".log"]

/-- A content with its audit. -/
structure AuditedContent where
  content : Text
  truncated : Bool
  warning : Option LightTextWarning
  audit : ParsedContentAudit

/-- A builder that has noted what has been read. -/
def readBuilder (raw : RawExcerpt) (maxChars : ℕ) (format : Text) : AuditTextBuilder :=
  (byteRanges raw).foldl .read (.new maxChars format)

/-- Finish a content; the audit names the encoding. -/
def finishContent (raw : RawExcerpt) (builder : AuditTextBuilder)
    (warning : Option LightTextWarning) (leftOut : Bool) : AuditedContent :=
  let (content, audit, bounded) := builder.finish
  ⟨content, raw.truncated || bounded || leftOut, warning,
    { audit with encoding := some raw.encoding }⟩

/-! ### Texts and logs -/

/-- The lines in front of a text. -/
def textHeading (raw : RawExcerpt) (tail : Bool) (warning : Option LightTextWarning) : Push :=
  let title := if tail then lit "Log tail preview" else lit "Text preview"
  ⟨joinWith ['\n'] ([title, lit "excerpt_source: " ++ raw.source,
      lit "read_window_truncated: " ++ showBool raw.truncated] ++
      (warning.map fun warning => lit "warning: " ++ warning.code).toList),
    .heading, []⟩

/-- What is pushed of a text, and whether lines have been left out before. -/
def textBody (raw : RawExcerpt) (maxChars : ℕ) (tail : Bool) : List Push × Bool :=
  let segments := segmentsFrom (!raw.truncated || tail) (startsTable raw.text) [] raw.text
  let pieces := textPieces tail 0 segments
  if tail then
    let (selected, bounded) := selectLatest (maxChars - 64) pieces.reverse
    (selected.map fun piece => ⟨piece.text, .text, piece.ranges⟩, bounded)
  else (textPushes 0 pieces, false)

def auditedText (raw : RawExcerpt) (maxChars : ℕ) (tail : Bool)
    (warning : Option LightTextWarning) : AuditedContent :=
  let (pushes, selectionBounded) := textBody raw maxChars tail
  let builder := (readBuilder raw maxChars (lit "text")).pushAll
    (textHeading raw tail warning :: pushes)
  finishContent raw builder warning selectionBounded

/-! ### Records -/

/-- The range of a record. -/
def csvRange (index : ℕ) : SourceRange := ⟨.csvRecord, index + 1, index + 2, none, none, none⟩

/-- What is pushed of a record. -/
def csvPush (index : ℕ) (row : List Text) : Push :=
  if index = 0 then ⟨lit "header: " ++ formatCsvRow row, .tableHeader, [csvRange index]⟩
  else ⟨lit "row " ++ decimal index ++ lit ": " ++ formatCsvRow row, .tableRow, [csvRange index]⟩

/-- The turn of one record: every record is noted, and the first ones are shown. -/
def csvStep (builder : AuditTextBuilder) (record : List Text × ℕ) : AuditTextBuilder :=
  let builder := builder.read (csvRange record.2)
  if record.2 > 3 then builder else (builder.push (csvPush record.2 record.1)).1

def csvHeading (raw : RawExcerpt) : Push :=
  ⟨joinWith ['\n'] (metadataLines (lit "CSV preview") raw.source raw.truncated), .heading, []⟩

def auditedCsv (raw : RawExcerpt) (maxChars : ℕ) : AuditedContent :=
  match parseCsv (csvInput raw) with
  | none => auditedText raw maxChars false (some .csvPreviewFallback)
  | some rows =>
    let builder := ((readBuilder raw maxChars (lit "csv")).push (csvHeading raw)).1
    finishContent raw (rows.zipIdx.foldl csvStep builder) none (decide (rows.length > 4))

/-! ### JSON -/

def auditedJson (libraries : ParserLibraries) (raw : RawExcerpt) (maxChars : ℕ) :
    AuditedContent :=
  let (content, truncated, warning) := buildJsonContent libraries raw maxChars
  ⟨content, truncated, warning,
    { archive := false
      version := 1
      readRanges := some (byteRanges raw)
      contentUnits := none
      usableChars := some (if trim raw.text = [] then 0 else countChars content)
      encoding := none
      detectedFormat := none }⟩

/-! ### The parser -/

structure ParsedLightText where
  content : Text
  evidenceAudit : ParsedContentAudit
  parserBackend : Text
  truncated : Bool
  warnings : List LightTextWarning

/-- Read the window of the file that its type shows. -/
def readExcerpt (libraries : ParserLibraries) (file : SourceFile) (normalizedType : Text)
    (profile : TextParseProfile) (fileSize : ℕ) : Except LightTextError RawExcerpt :=
  if normalizedType = lit ".log" then readTail file fileSize profile.readTailBytes
  else readHead libraries file fileSize profile.readHeadBytes
    (if normalizedType = lit ".csv" then some profile.csvEncodings else none)

/-- Show a window by the type of its file. -/
def auditedContent (libraries : ParserLibraries) (normalizedType : Text) (raw : RawExcerpt)
    (maxOutputChars : ℕ) : AuditedContent :=
  if normalizedType = lit ".json" then auditedJson libraries raw maxOutputChars
  else if normalizedType = lit ".csv" then auditedCsv raw maxOutputChars
  else auditedText raw maxOutputChars (decide (normalizedType = lit ".log")) none

def maxOutputChars (profile : TextParseProfile) : ℕ := min profile.maxChars profile.excerptMaxChars

variable [UnicodeCase]

/-- The window that is shown, if the file is one that the parser reads. -/
def lightTextWindow (libraries : ParserLibraries) (file : SourceFile) (fileType : Text)
    (profile : TextParseProfile) (maxFileSizeBytes : UInt64) : Except LightTextError RawExcerpt :=
  match profile.validate with
  | .error _ => .error .invalidProfile
  | .ok () =>
    if toLowercase fileType ∉ textFileTypes then .error .unsupportedExtension
    else if !file.opens then .error .readFailed
    else match file.metadata with
      | none => .error .metadataFailed
      | some length =>
        if length > maxFileSizeBytes then .error .fileTooLarge
        else readExcerpt libraries file (toLowercase fileType) profile length.toNat

def parseLightText (libraries : ParserLibraries) (file : SourceFile) (fileType : Text)
    (profile : TextParseProfile) (maxFileSizeBytes : UInt64) :
    Except LightTextError ParsedLightText :=
  (lightTextWindow libraries file fileType profile maxFileSizeBytes).map fun raw =>
    let shown := auditedContent libraries (toLowercase fileType) raw (maxOutputChars profile)
    ⟨shown.content, shown.audit, profile.backend, shown.truncated, shown.warning.toList⟩

end DailyReport.TextParser
