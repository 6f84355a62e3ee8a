import DailyReport.TextParser.Csv

/-!
# Splitting a file for the archive

`parse_archive_text` cuts a decoded file into records and hands each of them to the archive writer:
the lines of a text, and the records of a CSV file.  In a CSV file every quote turns the splitter
around, and a line end counts if the quotes so far are even.  What is handed over does not depend
on the writer; one that is full takes no more.
-/

namespace DailyReport.TextParser

open Lib

/-- What is handed to the writer. -/
inductive ArchivePiece
  /-- A record with its number and its first character. -/
  | record (text : Text) (row offset : ℕ)
  /-- The beginning of a record that is too large. -/
  | fragment (text : Text) (row : ℕ)

/-- Where the splitter stands. -/
structure ArchiveScan where
  record : Text
  quoted : Bool
  row : ℕ
  offset : ℕ
  pieces : List ArchivePiece

def ArchiveScan.start : ArchiveScan := ⟨[], false, 1, 0, []⟩

/-- Bytes of a text. -/
def utf8Size (t : Text) : ℕ := (t.map Char.utf8Size).sum

def archiveLineBytes : ℕ := 256 * 1024

def archiveRecordBytes : ℕ := 8 * 1024 * 1024

/-- A record is complete. -/
def ArchiveScan.endRecord (s : ArchiveScan) : ArchiveScan :=
  { s with
    record := []
    row := s.row + 1
    offset := s.offset + countChars s.record
    pieces := s.pieces ++ [.record s.record s.row s.offset] }

/-- A record is too large. -/
def ArchiveScan.cutRecord (s : ArchiveScan) : ArchiveScan :=
  { s with record := [], pieces := s.pieces ++ [.fragment s.record s.row] }

/-- The turn of one character. -/
def archiveTurn (csv : Bool) (s : ArchiveScan) (c : Char) : ArchiveScan :=
  let s : ArchiveScan :=
    { s with record := s.record ++ [c], quoted := if csv ∧ c = '"' then !s.quoted else s.quoted }
  let s := if (c = '\n' ∧ (!csv ∨ !s.quoted)) ∨ (!csv ∧ utf8Size s.record ≥ archiveLineBytes) then
    s.endRecord else s
  if csv ∧ utf8Size s.record ≥ archiveRecordBytes then s.cutRecord else s

/-- Where the splitter stands behind some characters. -/
def archiveScan (csv : Bool) (text : Text) : ArchiveScan := text.foldl (archiveTurn csv) .start

/-- Replace every occurrence of one character by a text. -/
def replaceWith (old : Char) (new : Text) (t : Text) : Text :=
  t.flatMap fun c => if c = old then new else [c]

/-- A cell as it stands in a row. -/
def escapeArchiveCell (v : Text) : Text :=
  replaceWith '\n' (lit "<br>") (replaceWith '\r' []
    (replaceWith '|' (lit "\\|") (replaceWith '\\' (lit "\\\\") v)))

/-- A row of escaped cells. -/
def tableLine (escaped : List Text) : Text :=
  lit "| " ++ joinWith (lit " | ") escaped ++ lit " |"

/-- A unit for the writer. -/
structure ArchivePush where
  text : Text
  kind : ContentUnitKind
  ranges : List SourceRange

/-- The units of a piece, and a gap if its record is no CSV. -/
def archiveTextRecord (csv : Bool) : ArchivePiece → List ArchivePush × Option Text
  | .fragment text row =>
    ([⟨text, .text, [⟨.csvRecord, row, row + 1, some (lit "raw_csv_fragment"), none, none⟩]⟩],
      some (lit "CSV_RECORD_COARSE"))
  | .record text row offset =>
    if csv then
      let range : SourceRange := ⟨.csvRecord, row, row + 1, none, none, none⟩
      match parseCsvWithLimit text archiveRecordBytes with
      | some rows =>
        (rows.map fun cells => ⟨tableLine (cells.map escapeArchiveCell),
          if row = 1 then .tableHeader else .tableRow, [range]⟩, none)
      | none => ([⟨text, .text, [range]⟩], some (lit "CSV_RECORD_INVALID"))
    else if text = [] then ([], none)
    else
      ([⟨text, if (trimStart text).head? = some '#' then .heading else .text,
        [⟨.textChar, offset, offset + countChars text, none, none, none⟩]⟩], none)

end DailyReport.TextParser
