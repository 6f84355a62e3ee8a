import DailyReport.Lib.Grouping
import DailyReport.OfficeParser.Preview

/-!
# Rows derived from the rows of a sheet

Besides the rows of a sheet a preview has rows that are derived from them: the numeric rows that
name nobody, with the label of each number, the approval bands of a company with the row below them,
and summaries of the rows that have been read.  A label is the nearest header cell above.
-/

namespace DailyReport.OfficeParser

open Lib

/-! ### Numbers -/

def isHeader (row : XlsxRow) : Bool := decide (row.kind = .tableHeader)

/-- The cell of a column, if it is not empty. -/
def filledCell (row : XlsxRow) (column : ℕ) : Option Text :=
  row.cells[column]?.filter fun cell => !cell.isEmpty

def columnName (column : ℕ) : Text := lit "列" ++ decimal (column + 1)

def labelValue (label value : Text) : Text := label ++ lit " = " ++ value ++ lit "；"

/-- The limit of a derived row. -/
def maxDerivedChars : ℕ := 480

def XlsxRow.number (row : XlsxRow) : ℕ := row.ranges.head?.elim 0 SourceRange.start

/-- The cells of the first row.  A summary has at least one row. -/
def firstCells (data : List XlsxRow) : List Text := data.head?.elim [] XlsxRow.cells

/-- The label of a column in the header of a summary. -/
def summaryLabel (header : XlsxRow) (column : ℕ) : Text :=
  (filledCell header column).getD (columnName column)

/-- All rows have this value in the column. -/
def isCommon (data : List XlsxRow) (column : ℕ) (value : Text) : Bool :=
  data.all fun row => decide (row.cells[column]? = some value)

def countText (n : ℕ) : Text :=
  lit "读取窗口统计：本表头对应的已读数据行 " ++ decimal n ++ lit " 条。"

def eachRowText (label : Text) (values : List Text) : Text :=
  lit "逐行 " ++ label ++ lit " = " ++ joinWith (lit "、") values ++ lit "；"

/-- The columns in which not all rows have the same value. -/
def differing (data : List XlsxRow) : List ℕ :=
  ((firstCells data).zipIdx.filter fun cell => !isCommon data cell.2 cell.1).map Prod.snd

/-- Write a field behind a text, if it fits. -/
def appendField (text field : Text) : Text :=
  if countChars text + countChars field ≤ maxDerivedChars then text ++ field else text

/-- The values of the only column in which the rows differ. -/
def eachRow (header : XlsxRow) (data : List XlsxRow) (text : Text) : Text :=
  match differing data with
  | [column] =>
    appendField text
      (eachRowText (summaryLabel header column) (data.filterMap fun row => row.cells[column]?))
  | _ => text

def windowOnly : Text := lit "统计仅指本次读取范围。"

def amountText (label value period : Text) (periods : List Text) : Text :=
  label ++ lit " = " ++ value ++ lit "（对应" ++ period ++ lit " = " ++
    joinWith (lit "、") periods ++ lit "）；"

end DailyReport.OfficeParser
