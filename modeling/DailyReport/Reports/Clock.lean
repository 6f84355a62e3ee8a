import DailyReport.Contract.Request
import DailyReport.Lib.Calendar
import DailyReport.Reports.Tables

/-!
# The formats of the date library

`utcClock` computes the formats that the store uses.  The properties of the store do not depend on
it; its runs on concrete inputs do.
-/

namespace DailyReport.Reports

open Lib

/-- `to_rfc3339_opts(SecondsFormat::Micros, false)`. -/
def microsTimestamp (micros : ℤ) : Text :=
  dateTime 'T' micros ++ '.' :: padded 6 (subsecond micros) ++ lit "+00:00"

/-- `to_rfc3339`: as many digits of the second as it needs, in groups of three. -/
def autoTimestamp (micros : ℤ) : Text :=
  let sub := subsecond micros
  dateTime 'T' micros ++
    (if sub = 0 then [] else if sub % 1000 = 0 then '.' :: padded 3 (sub / 1000)
      else '.' :: padded 6 sub) ++
    lit "+00:00"

/-- The instant of a UTC timestamp, as `parse_from_rfc3339` reads the ones of the store. -/
def parseTimestamp (value : Text) : Option ℤ :=
  ((windowBody value).filter windowShape).map fun body =>
    let (year, month, day) := calendarDate body
    let hour := numeral ((body.drop 11).take 2)
    let minute := numeral ((body.drop 14).take 2)
    let second := numeral ((body.drop 17).take 2)
    (civilDays year month day * daySeconds + ((hour * 60 + minute) * 60 + second : ℕ)) * secondMicros +
      windowMicros (body.drop 20)

/-- `utc_window`: from midnight to midnight of Shanghai, which is eight hours ahead. -/
def shanghaiWindow (date : Text) : Except ReportError (ℤ × ℤ) :=
  if isCalendarDate (calendarDate date) then
    let (year, month, day) := calendarDate date
    let midnight := (civilDays year month day * daySeconds - 8 * 3600) * secondMicros
    .ok (midnight, midnight + daySeconds * secondMicros)
  else .error (reportError "DATE_INVALID" "日期超出范围")

@[reducible] def utcClock : Chrono where
  timestamp := microsTimestamp
  rfc3339 := autoTimestamp
  parse := parseTimestamp
  utcWindow := shanghaiWindow

/-- An instant is read back from its timestamp; the cutoff of an instant has no fraction. -/
example : parseTimestamp (microsTimestamp 1792022400250000) = some 1792022400250000 ∧
    autoTimestamp 1792022400000000 = lit "2026-10-15T00:00:00+00:00" ∧
    shanghaiWindow (lit "2026-10-15") = .ok (1791993600000000, 1792080000000000) := by
  decide +kernel

end DailyReport.Reports
