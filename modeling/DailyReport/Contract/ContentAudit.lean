import DailyReport.Contract.Checks

/-!
# The content audit of a parser

Bounded original positions and logical text units of a parsed text.  `ParsedContentAudit.validate`
checks an audit against its content: the units are in order, inside the text and bounded, and the
serialized audit stays inside the metadata byte budget (`jsonBytes` is the size of that encoding).
-/

namespace DailyReport

open Lib

inductive SourceRangeUnit
  | pdfPage
  | sheetRow
  | paragraph
  | tableRow
  | slide
  | textChar
  | csvRecord
  | byte
  deriving DecidableEq, Repr

/-- The wire name of a range unit. -/
def SourceRangeUnit.wireName : SourceRangeUnit → Text
  | .pdfPage => lit "pdf_page"
  | .sheetRow => lit "sheet_row"
  | .paragraph => lit "paragraph"
  | .tableRow => lit "table_row"
  | .slide => lit "slide"
  | .textChar => lit "text_char"
  | .csvRecord => lit "csv_record"
  | .byte => lit "byte"

/-- A half-open range of the source. -/
structure SourceRange where
  unit : SourceRangeUnit
  start : ℕ
  stop : ℕ
  label : Option Text
  columnStart : Option ℕ
  columnEnd : Option ℕ
  deriving DecidableEq

def SourceRange.validate (r : SourceRange) : Checked := do
  if r.start ≥ r.stop ∨ (r.unit ≠ .textChar ∧ r.unit ≠ .byte ∧ r.start = 0) ∨
      r.label.any (fun label => decide (countChars label > 512)) then
    .error (lit "source range is invalid")
  match r.columnStart, r.columnEnd with
  | none, none => .ok ()
  | some start, some stop =>
    if 0 < start ∧ start < stop ∧ (r.unit = .sheetRow ∨ r.unit = .tableRow) then .ok ()
    else .error (lit "source column range is invalid")
  | _, _ => .error (lit "source column range is invalid")

inductive ContentUnitKind
  | heading
  | paragraph
  | tableHeader
  | tableRow
  | unit
  | total
  | slide
  | text
  | placeholder
  deriving DecidableEq, Repr

/-- The wire name of a content unit kind. -/
def ContentUnitKind.wireName : ContentUnitKind → Text
  | .heading => lit "heading"
  | .paragraph => lit "paragraph"
  | .tableHeader => lit "table_header"
  | .tableRow => lit "table_row"
  | .unit => lit "unit"
  | .total => lit "total"
  | .slide => lit "slide"
  | .text => lit "text"
  | .placeholder => lit "placeholder"

/-- One logical unit of the parsed text. -/
structure ContentUnit where
  unitId : Text
  kind : ContentUnitKind
  textStart : ℕ
  textEnd : ℕ
  ranges : List SourceRange
  deriving DecidableEq

/-- What a parser reports about the text it returns.  Of an archive artifact only its presence
matters here. -/
structure ParsedContentAudit where
  archive : Bool
  version : ℕ
  readRanges : Option (List SourceRange)
  contentUnits : Option (List ContentUnit)
  usableChars : Option ℕ
  encoding : Option Text
  detectedFormat : Option Text
  deriving DecidableEq

/-! ### The size of the serialized audit -/

/-- Bytes of a character inside a JSON string. -/
def jsonCharBytes (c : Char) : ℕ :=
  if c = '"' ∨ c = '\\' ∨ c.toNat = 8 ∨ c.toNat = 9 ∨ c.toNat = 10 ∨ c.toNat = 12 ∨ c.toNat = 13
  then 2
  else if c.toNat < 32 then 6
  else c.utf8Size

/-- Bytes of a JSON string. -/
def jsonStringBytes (t : Text) : ℕ := 2 + (t.map jsonCharBytes).sum

/-- Bytes of a JSON number. -/
def jsonNumberBytes (n : ℕ) : ℕ := (decimal n).length

/-- Bytes of a nullable value. -/
def jsonOptionBytes {α : Type} (f : α → ℕ) : Option α → ℕ
  | none => 4
  | some a => f a

/-- Bytes of an array. -/
def jsonListBytes {α : Type} (f : α → ℕ) (l : List α) : ℕ :=
  2 + (l.map f).sum + (l.length - 1)

/-- Bytes of an object with the given keys and value sizes. -/
def jsonObjectBytes (fields : List (Text × ℕ)) : ℕ :=
  2 + (fields.map fun field => jsonStringBytes field.1 + 1 + field.2).sum + (fields.length - 1)

def SourceRange.jsonBytes (r : SourceRange) : ℕ :=
  jsonObjectBytes
    [(lit "unit", jsonStringBytes r.unit.wireName), (lit "start", jsonNumberBytes r.start),
     (lit "end", jsonNumberBytes r.stop), (lit "label", jsonOptionBytes jsonStringBytes r.label),
     (lit "column_start", jsonOptionBytes jsonNumberBytes r.columnStart),
     (lit "column_end", jsonOptionBytes jsonNumberBytes r.columnEnd)]

def ContentUnit.jsonBytes (u : ContentUnit) : ℕ :=
  jsonObjectBytes
    [(lit "unit_id", jsonStringBytes u.unitId), (lit "kind", jsonStringBytes u.kind.wireName),
     (lit "text_start", jsonNumberBytes u.textStart), (lit "text_end", jsonNumberBytes u.textEnd),
     (lit "ranges", jsonListBytes SourceRange.jsonBytes u.ranges)]

/-- Bytes of an audit without an archive, which is then left out of the encoding. -/
def ParsedContentAudit.jsonBytes (a : ParsedContentAudit) : ℕ :=
  jsonObjectBytes
    [(lit "version", jsonNumberBytes a.version),
     (lit "read_ranges", jsonOptionBytes (jsonListBytes SourceRange.jsonBytes) a.readRanges),
     (lit "content_units", jsonOptionBytes (jsonListBytes ContentUnit.jsonBytes) a.contentUnits),
     (lit "usable_chars", jsonOptionBytes jsonNumberBytes a.usableChars),
     (lit "encoding", jsonOptionBytes jsonStringBytes a.encoding),
     (lit "detected_format", jsonOptionBytes jsonStringBytes a.detectedFormat)]

/-! ### Validation -/

/-- The encodings an audit may name. -/
def auditEncodings : List Text := [lit "utf-8", lit "utf-8-sig", lit "gb18030"]

/-- The formats an audit may name. -/
def auditFormats : List Text :=
  [lit "xls", lit "xlsx", lit "doc", lit "docx", lit "ppt", lit "pptx", lit "pdf", lit "text",
   lit "csv"]

/-- Check the content units in order, given the identities and the end of the units before. -/
def validateContentUnits (textChars : ℕ) : List Text → ℕ → List ContentUnit → Checked
  | _, _, [] => .ok ()
  | identities, previousEnd, unit :: units => do
    if unit.unitId = [] ∨ countChars unit.unitId > 128 ∨ unit.unitId ∈ identities ∨
        unit.textStart ≥ unit.textEnd ∨ unit.textEnd > textChars ∨ unit.ranges.length > 128 ∨
        unit.textStart < previousEnd then
      .error (lit "parser content unit is invalid")
    unit.ranges.forM SourceRange.validate
    validateContentUnits textChars (unit.unitId :: identities) unit.textEnd units

def ParsedContentAudit.validate (a : ParsedContentAudit) (content : Text) : Checked := do
  if a.archive then .error (lit "archive artifacts require the archive operation")
  let textChars := countChars content
  if a.version ≠ 1 ∨ a.usableChars.any (fun chars => decide (chars > textChars)) ∨
      a.readRanges.any (fun ranges => decide (ranges.length > 10000)) ∨
      a.contentUnits.any (fun units => decide (units.length > 10000)) ∨
      a.encoding.any (fun encoding => !auditEncodings.contains encoding) ∨
      a.detectedFormat.any (fun format => !auditFormats.contains format) then
    .error (lit "parser audit fields are invalid")
  (a.readRanges.getD []).forM SourceRange.validate
  validateContentUnits textChars [] 0 (a.contentUnits.getD [])
  if a.jsonBytes > 256 * 1024 then
    .error (lit "parser audit exceeds metadata byte budget")

end DailyReport
