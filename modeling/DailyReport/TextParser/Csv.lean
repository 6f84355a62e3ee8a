import DailyReport.TextParser.Excerpt

/-!
# The records of a CSV file

`parseCsv` splits a text into records of fields.  A field may be quoted, and then contain
separators, line ends and doubled quotes.  Of a cut window only the complete records are read
(`completeRecords`).
-/

namespace DailyReport.TextParser

open Lib

def legacyCsvFieldSizeLimit : ℕ := 131072

/-- What has been read of a CSV text. -/
structure CsvState where
  rows : List (List Text)
  row : List Text
  field : Text
  inQuotes : Bool
  afterQuote : Bool
  fieldStarted : Bool
  fieldChars : ℕ

def CsvState.start : CsvState := ⟨[], [], [], false, false, false, 0⟩

def pushCsvFieldChar (limit : ℕ) (s : CsvState) (value : Char) : Option CsvState :=
  if s.fieldChars + 1 > limit then none
  else some { s with field := s.field ++ [value], fieldChars := s.fieldChars + 1 }

/-- A field ends. -/
def CsvState.endField (s : CsvState) : CsvState :=
  { s with
    row := s.row ++ [s.field]
    field := []
    afterQuote := false
    fieldStarted := false
    fieldChars := 0 }

/-- A record ends. -/
def CsvState.endRow (s : CsvState) : CsvState :=
  { s.endField with rows := s.rows ++ [s.endField.row], row := [] }

/-- Read on in a CSV text; `skip` if its first character has been read along with the one before. -/
def parseCsvFrom (limit : ℕ) : CsvState → Bool → Text → Option (List (List Text))
  | s, _, [] =>
    if s.inQuotes then none
    else if s.fieldStarted || s.afterQuote || !s.field.isEmpty || !s.row.isEmpty then
      some (s.rows ++ [s.row ++ [s.field]])
    else some s.rows
  | s, true, _ :: rest => parseCsvFrom limit s false rest
  | s, false, c :: rest =>
    if s.inQuotes then
      if c = '"' then
        if rest.head? = some '"' then
          (pushCsvFieldChar limit s '"').bind fun s => parseCsvFrom limit s true rest
        else parseCsvFrom limit { s with inQuotes := false, afterQuote := true } false rest
      else (pushCsvFieldChar limit s c).bind fun s => parseCsvFrom limit s false rest
    else if c = '"' ∧ !s.fieldStarted then
      parseCsvFrom limit { s with inQuotes := true, fieldStarted := true } false rest
    else if c = ',' then parseCsvFrom limit s.endField false rest
    else if c = '\n' then parseCsvFrom limit s.endRow false rest
    else if c = '\r' then
      if rest.head? = some '\n' then parseCsvFrom limit s.endRow true rest else none
    else if s.afterQuote then none
    else
      (pushCsvFieldChar limit s c).bind fun s =>
        parseCsvFrom limit { s with fieldStarted := true } false rest

def parseCsv (input : Text) : Option (List (List Text)) :=
  parseCsvFrom legacyCsvFieldSizeLimit .start false input

def parseCsvWithLimit (input : Text) (limit : ℕ) : Option (List (List Text)) :=
  parseCsvFrom limit .start false input

example : parseCsv "a,\"b\"\"\n\"\nc".toList =
    some [["a".toList, "b\"\n".toList], ["c".toList]] := by decide

/-- The text up to the last line end outside of quotes; `pending` has been read since the one
before, and `skip` is as for `parseCsvFrom`. -/
def completeRecords : Bool → Bool → Text → Text → Text
  | _, _, _, [] => []
  | inQuotes, true, pending, c :: rest => completeRecords inQuotes false (pending ++ [c]) rest
  | inQuotes, false, pending, c :: rest =>
    if c = '"' then
      if inQuotes ∧ rest.head? = some '"' then
        completeRecords inQuotes true (pending ++ [c]) rest
      else completeRecords (!inQuotes) false (pending ++ [c]) rest
    else if c = '\n' ∧ !inQuotes then
      pending ++ [c] ++ completeRecords inQuotes false [] rest
    else completeRecords inQuotes false (pending ++ [c]) rest

def formatCsvRow (row : List Text) : Text := joinWith (lit " | ") (row.map trim)

/-- The text whose records are read. -/
def csvInput (raw : RawExcerpt) : Text :=
  let input := if raw.truncated then completeRecords false false [] raw.text else raw.text
  input.dropWhile fun c => c == '\uFEFF'

end DailyReport.TextParser
