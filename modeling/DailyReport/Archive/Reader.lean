import DailyReport.Archive.Writer
import DailyReport.Lib.StandsAt
import DailyReport.ParseCache.Payload

/-!
# Reading an archive artifact

A unit is found by its entry in the index and its text by the places of its line.  The index, the
list of units and the body are only compared with their manifest as whole files.
-/

namespace DailyReport.Archive

open Lib

/-- The files of an artifact. -/
structure ArchiveFiles where
  body : Bytes
  units : Bytes
  index : Bytes

def ArchiveWriter.files (w : ArchiveWriter) : ArchiveFiles := ⟨w.body, w.units, w.index⟩

/-- What reads a line of the list of units.  The line break behind a value is white space. -/
structure LineReader extends ParseCache.JsonReader where
  read_line : ∀ v, read (v.print ++ ['\n']) = some v

def UnitLine.ofJson (v : Json) : Option UnitLine := do
  guard (onlyFields [lit "unit_id", lit "kind", lit "byte_start", lit "byte_end", lit "text_start",
    lit "text_end", lit "sha256", lit "ranges"] v)
  let unitId ← (← v.get (lit "unit_id")).asStr
  let kindName ← (← v.get (lit "kind")).asStr
  let kind ← parseContractEnum ContentUnitKind.all ContentUnitKind.wireName kindName
  let byteStart ← (← v.get (lit "byte_start")).asU64
  let byteEnd ← (← v.get (lit "byte_end")).asU64
  let textStart ← (← v.get (lit "text_start")).asU64
  let textEnd ← (← v.get (lit "text_end")).asU64
  let sha256 ← (← v.get (lit "sha256")).asStr
  let items ← (← v.get (lit "ranges")).asArr
  let ranges ← items.mapM SourceRange.ofJson
  some { kind, byteStart, byteEnd, sha256, ranges, unitId, textStart, textEnd }

/-- The numbers of a line are unsigned 64-bit numbers. -/
structure UnitLine.Fits (unit : UnitLine) : Prop where
  byteStart : unit.byteStart ≤ u64Max
  byteEnd : unit.byteEnd ≤ u64Max
  textStart : unit.textStart ≤ u64Max
  textEnd : unit.textEnd ≤ u64Max
  ranges : ∀ range ∈ unit.ranges, range.Fits

theorem UnitLine.ofJson_json {unit : UnitLine} (h : unit.Fits) :
    UnitLine.ofJson unit.json = some unit := by
  have hranges := mapM_map_eq_some fun range hmem => SourceRange.ofJson_json (h.ranges range hmem)
  simp [UnitLine.ofJson, UnitLine.json, onlyFields, Json.get, Json.asStr, Json.asArr, lit_eq,
    Json.asU64_num h.byteStart, Json.asU64_num h.byteEnd, Json.asU64_num h.textStart,
    Json.asU64_num h.textEnd, hranges, guard]

/-! ### Reading the files -/

/-- Read a number of bytes from a place. -/
def readExact (file : Bytes) (start size : ℕ) : Except Text Bytes :=
  let read := (file.drop start).take size
  if read.length = size then .ok read else .error (lit "IO_FAILED")

def maxReadBytes : ℕ := 1024 * 1024

/-- Read a line, with its line break, up to a limit. -/
def readLine (file : Bytes) (start : ℕ) : Except Text Text :=
  let read := decodeUtf8 (takeLine (asciiByte '\n') ((file.drop start).take maxReadBytes))
  if read.stop = .complete then .ok read.text else .error (lit "IO_FAILED")

def ArchiveFiles.unit (reader : LineReader) (files : ArchiveFiles) (id : ℕ) :
    Except Text UnitLine :=
  if id = 0 then .error (lit "ARCHIVE_UNIT_INVALID")
  else do
    let place ← readExact files.index ((id - 1) * 8) 8
    let line ← readLine files.units (ofLeBytes place)
    match (reader.read line).bind UnitLine.ofJson with
    | none => .error (lit "JSON_INVALID")
    | some unit =>
      if unit.unitId ≠ unitIdOf id then .error (lit "ARCHIVE_UNIT_INVALID") else .ok unit

section

variable (digest : Bytes → Text)

def ArchiveFiles.text (files : ArchiveFiles) (unit : ArchiveUnit) : Except Text Text :=
  match (checkedSub unit.byteEnd unit.byteStart).filter fun size => decide (size ≤ maxReadBytes) with
  | none => .error (lit "ARCHIVE_UNIT_INVALID")
  | some size => do
    let bytes ← readExact files.body unit.byteStart size
    if digest bytes ≠ unit.sha256 then .error (lit "ARCHIVE_QUOTE_CORRUPT")
    else
      let read := decodeUtf8 bytes
      if read.stop = .complete then .ok read.text else .error (lit "ARCHIVE_TEXT_INVALID")

/-- The files are those of the manifest. -/
def ArchiveFiles.verifyArtifact (files : ArchiveFiles) (artifact : ArchiveArtifact)
    (hash : Text) : Except Text Unit :=
  if artifact.version ≠ 1 ∨ artifact.rawSha256 ≠ hash ∨ artifact.error.isSome then
    .error (lit "ARCHIVE_EXTRACTION_INVALID")
  else if digest files.body ≠ artifact.bodySha256 ∨ digest files.units ≠ artifact.unitsSha256 ∨
      digest files.index ≠ artifact.indexSha256 then
    .error (lit "ARCHIVE_EXTRACTION_CORRUPT")
  else if files.body.length ≠ artifact.bodyBytes ∨ files.units.length ≠ artifact.unitsBytes ∨
      files.index.length ≠ artifact.units * 8 then
    .error (lit "ARCHIVE_EXTRACTION_INVALID")
  else .ok ()

end

/-! ### What is read -/

variable {part file : Bytes} {start : ℕ}

theorem readExact_of_standsAt (h : StandsAt part start file) :
    readExact file start part.length = .ok part := by
  unfold readExact
  rw [h.take_drop]
  exact if_pos rfl

/-- A value is read from its line when it is not longer than the limit. -/
theorem LineReader.read_readLine (reader : LineReader) {v : Json}
    (h : StandsAt (encodeUtf8 (v.print ++ ['\n'])) start file)
    (hsize : (encodeUtf8 v.print).length ≤ maxReadBytes) :
    ∃ line, readLine file start = .ok line ∧ reader.read line = some v := by
  obtain ⟨back, hback⟩ := h.drop
  have hbytes : file.drop start = encodeUtf8 v.print ++ asciiByte '\n' :: back := by
    rw [hback, encodeUtf8_append, List.append_assoc]
    rfl
  rcases takeLine_take (Json.newline_not_mem_encode v) hsize back with hline | hline
  · refine ⟨v.print, ?_, reader.read_print v⟩
    simp only [readLine, hbytes, hline, decodeUtf8_encodeUtf8, if_true]
  · refine ⟨v.print ++ ['\n'], ?_, reader.read_line v⟩
    have hend : encodeUtf8 v.print ++ [asciiByte '\n'] = encodeUtf8 (v.print ++ ['\n']) := by
      rw [encodeUtf8_append]
      rfl
    simp only [readLine, hbytes, hline, hend, decodeUtf8_encodeUtf8, if_true]

/-- A text is read from its place. -/
theorem ArchiveFiles.text_eq {digest : Bytes → Text} {files : ArchiveFiles} {unit : ArchiveUnit}
    {text : Text} (h : StandsAt (encodeUtf8 text) unit.byteStart files.body)
    (hend : unit.byteEnd = unit.byteStart + (encodeUtf8 text).length)
    (hsha : unit.sha256 = digest (encodeUtf8 text))
    (hsize : (encodeUtf8 text).length ≤ maxReadBytes) : files.text digest unit = .ok text := by
  have hsub : checkedSub unit.byteEnd unit.byteStart = some (encodeUtf8 text).length := by
    rw [checkedSub, if_pos (by omega), hend, Nat.add_sub_cancel_left]
  unfold ArchiveFiles.text
  rw [hsub, Option.filter_some, if_pos (decide_eq_true hsize)]
  simp only [readExact_of_standsAt h, hsha]
  simp [bind, Except.bind, decodeUtf8_encodeUtf8]

end DailyReport.Archive
