import DailyReport.Archive.Diff
import DailyReport.Contract.AuditJson
import DailyReport.Lib.ByteSlice
import DailyReport.Lib.LittleEndian

/-!
# Writing an archive artifact

The texts of a record are written piece by piece to a body, with a line for each piece to a list of
units and the place of that line to an index.  Nothing is written when the limit would be exceeded.
A place of the text that no slice may begin at and a loop that goes on for too long give no result
(`none`).
-/

namespace DailyReport.Archive

open Lib

/-- A line of the list of units. -/
structure UnitLine extends ArchiveUnit where
  unitId : Text
  textStart : ℕ
  textEnd : ℕ

def UnitLine.json (unit : UnitLine) : Json :=
  .obj [(lit "unit_id", .str unit.unitId), (lit "kind", .str unit.kind.wireName),
    (lit "byte_start", .num unit.byteStart), (lit "byte_end", .num unit.byteEnd),
    (lit "text_start", .num unit.textStart), (lit "text_end", .num unit.textEnd),
    (lit "sha256", .str unit.sha256), (lit "ranges", .arr (unit.ranges.map SourceRange.json))]

/-- The bytes of a line. -/
def UnitLine.line (unit : UnitLine) : Bytes := encodeUtf8 (unit.json.print ++ ['\n'])

structure ArchiveWriter where
  body : Bytes
  units : Bytes
  index : Bytes
  maxBytes : ℕ
  bytes : ℕ
  unitBytes : ℕ
  count : ℕ
  chars : ℕ
  usable : ℕ
  truncated : Bool
  gaps : List Text
  headers : List (Text × ℕ)

def ArchiveWriter.new (maxBytes : ℕ) : ArchiveWriter :=
  ⟨[], [], [], maxBytes, 0, 0, 0, 0, 0, false, [], []⟩

/-- The identity of a unit. -/
def unitIdOf (n : ℕ) : Text := 'u' :: decimal n

/-- What a unit adds to the usable characters. -/
def usableChars (kind : ContentUnitKind) (chars : ℕ) : ℕ :=
  if kind ∈ [ContentUnitKind.heading, .tableHeader, .unit, .placeholder] then 0 else chars

/-- The first header of each table. -/
def addHeader (headers : List (Text × ℕ)) (kind : ContentUnitKind) (ranges : List SourceRange)
    (count : ℕ) : List (Text × ℕ) :=
  if kind = .tableHeader then
    let label := (ranges.head?.bind SourceRange.label).getD (lit "table")
    if (headers.lookup label).isSome then headers else headers ++ [(label, count)]
  else headers

section

variable (digest : Bytes → Text)

/-- The line break between two pieces. -/
def ArchiveWriter.separator (w : ArchiveWriter) : Text := if w.count > 0 then ['\n'] else []

/-- The unit that comes next. -/
def ArchiveWriter.nextUnit (w : ArchiveWriter) (text : Text) (kind : ContentUnitKind)
    (ranges : List SourceRange) : UnitLine where
  kind := kind
  byteStart := w.bytes + w.separator.length
  byteEnd := w.bytes + w.separator.length + byteSize text
  sha256 := digest (encodeUtf8 text)
  ranges := ranges
  unitId := unitIdOf (w.count + 1)
  textStart := w.chars + w.separator.length
  textEnd := w.chars + w.separator.length + text.length

/-- Write a unit, if it fits below the limit. -/
def ArchiveWriter.writeUnit (w : ArchiveWriter) (text : Text) (kind : ContentUnitKind)
    (ranges : List SourceRange) : Option ArchiveWriter :=
  let unit := w.nextUnit digest text kind ranges
  if w.bytes + w.unitBytes + (w.count + 1) * 8 + w.separator.length + byteSize text +
      unit.line.length > w.maxBytes then none
  else some { w with
    body := w.body ++ encodeUtf8 w.separator ++ encodeUtf8 text
    units := w.units ++ unit.line
    index := w.index ++ leBytes 8 w.unitBytes
    bytes := unit.byteEnd
    unitBytes := w.unitBytes + unit.line.length
    count := w.count + 1
    chars := unit.textEnd
    usable := w.usable + usableChars kind text.length
    headers := addHeader w.headers kind ranges (w.count + 1) }

/-- The largest place up to `n` that a slice may end at. -/
def charBoundary (t : Text) : ℕ → ℕ
  | 0 => 0
  | n + 1 => if (splitAtByte t (n + 1)).isSome then n + 1 else charBoundary t n

def maxPieceBytes : ℕ := 256 * 1024

/-- The loop that writes a text in pieces. -/
def pushLoop (kind : ContentUnitKind) (ranges : List SourceRange) :
    ℕ → ArchiveWriter → Text → Option (ArchiveWriter × Bool)
  | _, w, [] => some (w, true)
  | 0, _, _ :: _ => none
  | fuel + 1, w, c :: rest =>
    (splitAtByte (c :: rest) (charBoundary (c :: rest)
        (min (byteSize (c :: rest)) maxPieceBytes))).bind fun (part, rest) =>
      match w.writeUnit digest part kind ranges with
      | some w => pushLoop kind ranges fuel w rest
      | none => some ({ w with truncated := true }, false)

/-- Write a text.  The result says whether all of it was written. -/
def ArchiveWriter.push (w : ArchiveWriter) (text : Text) (kind : ContentUnitKind)
    (ranges : List SourceRange) : Option (ArchiveWriter × Bool) :=
  if w.truncated then some (w, false)
  else pushLoop digest kind ranges (trim text).length w (trim text)

def ArchiveWriter.gap (w : ArchiveWriter) (code : Text) : ArchiveWriter :=
  if code ∈ w.gaps then w else { w with gaps := w.gaps ++ [code] }

/-- The manifest of an artifact.  What its caller fills in but for the digest of the source is left
out. -/
structure ArchiveArtifact where
  version : ℕ
  tableHeaders : List (Text × ℕ)
  bodySha256 : Text
  unitsSha256 : Text
  indexSha256 : Text
  bodyBytes : ℕ
  unitsBytes : ℕ
  units : ℕ
  chars : ℕ
  usableChars : ℕ
  truncated : Bool
  gaps : List Text
  error : Option Text
  rawSha256 : Text

def ArchiveWriter.finish (w : ArchiveWriter) : ArchiveArtifact where
  version := 1
  tableHeaders := w.headers
  bodySha256 := digest w.body
  unitsSha256 := digest w.units
  indexSha256 := digest w.index
  bodyBytes := w.bytes
  unitsBytes := w.unitBytes
  units := w.count
  chars := w.chars
  usableChars := w.usable
  truncated := w.truncated
  gaps := if w.truncated then w.gaps ++ [lit "ARCHIVE_OUTPUT_LIMIT"] else w.gaps
  error := none
  rawSha256 := []

/-- What is pushed. -/
structure Pushed where
  text : Text
  kind : ContentUnitKind
  ranges : List SourceRange

/-- Push one text after the other. -/
def ArchiveWriter.pushAll (w : ArchiveWriter) (pushes : List Pushed) : Option ArchiveWriter :=
  pushes.foldlM (fun w p => (w.push digest p.text p.kind p.ranges).map Prod.fst) w

end

end DailyReport.Archive
