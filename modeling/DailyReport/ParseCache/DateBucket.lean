import DailyReport.Lib.Calendar
import DailyReport.Lib.Gregorian
import Mathlib.Data.List.Lex

/-!
# The date buckets of the caches

The rows of a cache carry the day of their last access, which is computed from milliseconds since
1970 in 64-bit arithmetic.  An operation that would overflow gives no result (`none`).

* `dateBucketForMs_eq` : **the bucket is the date of the calendar**;
* `bucketText_lt_iff` : with years of four digits the order of the texts is that of the dates.
-/

namespace DailyReport.ParseCache

open Lib

/-! ### The computation -/

/-- A number of 64 bits with a sign. -/
def i64 (n : ℤ) : Option ℤ := if -2 ^ 63 ≤ n ∧ n < 2 ^ 63 then some n else none

/-- A number in at least `width` characters, with zeros in front of its digits. -/
def zeroPadded (width : ℕ) (n : ℤ) : Text :=
  if n < 0 then '-' :: (decimal n.natAbs).leftpad (width - 1) '0'
  else (decimal n.natAbs).leftpad width '0'

/-- `YYYY-MM-DD`. -/
def bucketText (year month day : ℤ) : Text :=
  zeroPadded 4 year ++ '-' :: (zeroPadded 2 month ++ '-' :: zeroPadded 2 day)

def daysFrom0To1970 : ℤ := 719468

/-- What is divided by the days of an era. -/
def eraNumerator (z : ℤ) : Option ℤ := if 0 ≤ z then some z else i64 (z - 146096)

/-- The era of a day since 0000-03-01, and the day of that era. -/
def eraOf (z : ℤ) : Option (ℤ × ℤ) := do
  let numerator ← eraNumerator z
  let era := numerator.tdiv 146097
  let start ← i64 (era * 146097)
  let doe ← i64 (z - start)
  pure (era, doe)

/-- The year of a day of an era. -/
def yearOfEra (doe : ℤ) : Option ℤ := do
  let short ← i64 (doe - doe.tdiv 1460)
  let long ← i64 (short + doe.tdiv 36524)
  let even ← i64 (long - doe.tdiv 146096)
  pure (even.tdiv 365)

/-- The day of its year that a day of an era is. -/
def dayOfYear (doe yoe : ℤ) : Option ℤ := do
  let plain ← i64 (365 * yoe)
  let leaps ← i64 (plain + yoe.tdiv 4)
  let start ← i64 (leaps - yoe.tdiv 100)
  i64 (doe - start)

/-- The month from March and the day of that month. -/
def monthDay (doy : ℤ) : Option (ℤ × ℤ) := do
  let fives ← i64 (5 * doy)
  let fifths ← i64 (fives + 2)
  let mp := fifths.tdiv 153
  let monthFives ← i64 (153 * mp)
  let monthFifths ← i64 (monthFives + 2)
  let before ← i64 (doy - monthFifths.tdiv 5)
  let day ← i64 (before + 1)
  pure (mp, day)

/-- The month of the calendar. -/
def civilMonth (mp : ℤ) : Option ℤ := if mp < 10 then i64 (mp + 3) else i64 (mp - 9)

/-- The year of the calendar. -/
def civilYear (year month : ℤ) : Option ℤ := if month ≤ 2 then i64 (year + 1) else some year

/-- `date_bucket_for_ms`.  The quotients of the milliseconds are those of `div_euclid`. -/
def dateBucketForMs (ms : ℤ) : Option Text := do
  let days := ms / 1000 / 86400
  let z ← i64 (days + daysFrom0To1970)
  let (era, doe) ← eraOf z
  let yoe ← yearOfEra doe
  let years ← i64 (era * 400)
  let year ← i64 (yoe + years)
  let doy ← dayOfYear doe yoe
  let (mp, day) ← monthDay doy
  let month ← civilMonth mp
  let year ← civilYear year month
  pure (bucketText year month day)

/-! ### The date -/

theorem i64_eq {n : ℤ} (h : -2 ^ 63 ≤ n ∧ n < 2 ^ 63) : i64 n = some n := if_pos h

/-- The quotient of a negative number is rounded down by hand. -/
theorem tdiv_era (z : ℤ) : (if 0 ≤ z then z else z - 146096).tdiv 146097 = z / 146097 := by
  split_ifs with h
  · exact Int.tdiv_eq_ediv_of_nonneg h
  · have hsign : Int.sign 146097 = 1 := rfl
    rw [Int.tdiv_eq_ediv, hsign]
    split_ifs <;> omega

/-- A date of the calendar from a year that starts in March. -/
theorem exists_civil {century quad year rest doe : ℤ} (h : EraDay doe century quad year rest)
    (era : ℤ) : ∃ date : CivilDay, date.dayNumber = era * 146097 + doe - 719468 ∧
      (date.year, date.month) =
        marchCivil (100 * century + 4 * quad + year + era * 400) ((5 * rest + 2) / 153) ∧
      date.day = rest - marchMonth ((5 * rest + 2) / 153) + 1 := by
  have hstart := h.marchStart_eq era
  have hdays' := h.days
  have hmonth : 0 ≤ (5 * rest + 2) / 153 ∧ (5 * rest + 2) / 153 ≤ 11 := by omega
  have hdays := dayNumber_march (100 * century + 4 * quad + year + era * 400) hmonth
  generalize hmp : (5 * rest + 2) / 153 = mp at hmonth hdays ⊢
  have hmem : 1 ≤ (marchCivil (100 * century + 4 * quad + year + era * 400) mp).2 ∧
      (marchCivil (100 * century + 4 * quad + year + era * 400) mp).2 ≤ 12 := by
    unfold marchCivil
    split_ifs <;> simp only <;> omega
  have hday : 1 ≤ rest - marchMonth mp + 1 ∧ rest - marchMonth mp + 1 ≤
      monthLength (marchCivil (100 * century + 4 * quad + year + era * 400) mp).1
        (marchCivil (100 * century + 4 * quad + year + era * 400) mp).2 := by
    refine marchMonth_day hdays' hmp ?_
    rintro rfl
    exact h.isLeap era
  refine ⟨⟨_, _, _, hmem, hday⟩, ?_, rfl, rfl⟩
  rw [CivilDay.dayNumber]
  dsimp only
  omega

theorem bind_of_some {α β : Type} {x : Option α} {a : α} (h : x = some a) (f : α → Option β) :
    (x >>= f) = f a := by
  rw [h]
  rfl

theorem i64_bind {n : ℤ} {α : Type} (f : ℤ → Option α) (h : -2 ^ 63 ≤ n ∧ n < 2 ^ 63) :
    (i64 n >>= f) = f n := bind_of_some (i64_eq h) f

theorem eraOf_eq {z : ℤ} (h : -2 ^ 40 ≤ z ∧ z ≤ 2 ^ 40) :
    eraOf z = some (z / 146097, z % 146097) := by
  have hnumerator : eraNumerator z = some (if 0 ≤ z then z else z - 146096) := by
    unfold eraNumerator
    split_ifs
    · rfl
    · exact i64_eq (by omega)
  unfold eraOf
  rw [bind_of_some hnumerator]
  dsimp only
  rw [tdiv_era, i64_bind _ (by omega), i64_bind _ (by omega)]
  have hrest : z - z / 146097 * 146097 = z % 146097 := by omega
  rw [hrest]
  rfl

theorem yearOfEra_eq {doe : ℤ} (h : 0 ≤ doe ∧ doe < 146097) :
    yearOfEra doe = some ((doe - doe / 1460 + doe / 36524 - doe / 146096) / 365) := by
  have hquotient : ∀ b, doe.tdiv b = doe / b := fun b => Int.tdiv_eq_ediv_of_nonneg h.1
  unfold yearOfEra
  rw [hquotient, hquotient, hquotient, i64_bind _ (by omega), i64_bind _ (by omega),
    i64_bind _ (by omega), Int.tdiv_eq_ediv_of_nonneg (by omega)]
  rfl

theorem dayOfYear_eq {doe yoe : ℤ} (h : 0 ≤ doe ∧ doe < 146097) (hyear : 0 ≤ yoe ∧ yoe < 400) :
    dayOfYear doe yoe = some (doe - (365 * yoe + yoe / 4 - yoe / 100)) := by
  have hquotient : ∀ b, yoe.tdiv b = yoe / b := fun b => Int.tdiv_eq_ediv_of_nonneg hyear.1
  unfold dayOfYear
  rw [hquotient, hquotient, i64_bind _ (by omega), i64_bind _ (by omega), i64_bind _ (by omega),
    i64_eq (by omega)]

theorem monthDay_eq {doy : ℤ} (h : 0 ≤ doy ∧ doy ≤ 365) :
    monthDay doy = some ((5 * doy + 2) / 153, doy - marchMonth ((5 * doy + 2) / 153) + 1) := by
  unfold monthDay
  rw [i64_bind _ (by omega), i64_bind _ (by omega)]
  dsimp only
  rw [@Int.tdiv_eq_ediv_of_nonneg (5 * doy + 2) 153 (by omega)]
  generalize hmp : (5 * doy + 2) / 153 = mp
  have hmonth : 0 ≤ mp ∧ mp ≤ 11 := by omega
  rw [i64_bind _ (by omega), i64_bind _ (by omega),
    @Int.tdiv_eq_ediv_of_nonneg (153 * mp + 2) 5 (by omega), i64_bind _ (by omega),
    i64_bind _ (by omega)]
  rfl

theorem civilMonth_eq {mp : ℤ} (year : ℤ) (h : 0 ≤ mp ∧ mp ≤ 11) :
    civilMonth mp = some ((marchCivil year mp).2 : ℤ) := by
  unfold civilMonth marchCivil
  split_ifs
  · rw [i64_eq (by omega), Int.toNat_of_nonneg (by omega)]
  · rw [i64_eq (by omega), Int.toNat_of_nonneg (by omega)]

theorem civilYear_eq {year mp : ℤ} (hyear : -2 ^ 40 ≤ year ∧ year ≤ 2 ^ 40)
    (h : 0 ≤ mp ∧ mp ≤ 11) :
    civilYear year (marchCivil year mp).2 = some (marchCivil year mp).1 := by
  unfold civilYear marchCivil
  split_ifs with hbefore hjanuary hjanuary
  · dsimp only at hjanuary
    omega
  · rfl
  · exact i64_eq (by omega)
  · dsimp only at hjanuary
    omega

/-- **The bucket is the date of the calendar**, and nothing overflows. -/
theorem dateBucketForMs_eq {ms : ℤ} (h : -2 ^ 63 ≤ ms ∧ ms < 2 ^ 63) :
    ∃ date : CivilDay, date.dayNumber = ms / 86400000 ∧
      dateBucketForMs ms = some (bucketText date.year date.month date.day) := by
  have hdays : ms / 1000 / 86400 = ms / 86400000 := by omega
  have hbound : -2 ^ 38 ≤ ms / 86400000 ∧ ms / 86400000 ≤ 2 ^ 38 := by omega
  generalize ms / 86400000 = d at hdays hbound ⊢
  have hz : -2 ^ 40 ≤ d + daysFrom0To1970 ∧ d + daysFrom0To1970 ≤ 2 ^ 40 := by
    unfold daysFrom0To1970
    omega
  have hera : -2 ^ 30 ≤ (d + daysFrom0To1970) / 146097 ∧
      (d + daysFrom0To1970) / 146097 ≤ 2 ^ 30 := by omega
  have hdoe : 0 ≤ (d + daysFrom0To1970) % 146097 ∧ (d + daysFrom0To1970) % 146097 < 146097 := by
    omega
  have hdivmod : (d + daysFrom0To1970) / 146097 * 146097 + (d + daysFrom0To1970) % 146097 -
      719468 = d := by
    unfold daysFrom0To1970
    omega
  have hsplit := eraOf_eq hz
  generalize (d + daysFrom0To1970) / 146097 = era at hera hdivmod hsplit
  generalize (d + daysFrom0To1970) % 146097 = doe at hdoe hdivmod hsplit
  obtain ⟨century, quad, t, rest, hday⟩ := exists_eraDay hdoe
  obtain ⟨date, hnumber, hcivil, hlast⟩ := exists_civil hday era
  refine ⟨date, hnumber.trans hdivmod, ?_⟩
  have hyoe := yearOfEra_eq hdoe
  rw [hday.year_eq] at hyoe
  have hdoy := dayOfYear_eq hdoe hday.year_mem
  rw [hday.rest_eq] at hdoy
  have hyoeBound := hday.year_mem
  have hrest := hday.days
  generalize 100 * century + 4 * quad + t = yoe at hcivil hyoe hdoy hyoeBound
  have hmp : 0 ≤ (5 * rest + 2) / 153 ∧ (5 * rest + 2) / 153 ≤ 11 := by omega
  have hmonth := @civilMonth_eq ((5 * rest + 2) / 153) (yoe + era * 400) hmp
  have hyear := @civilYear_eq (yoe + era * 400) ((5 * rest + 2) / 153) (by omega) hmp
  rw [← hcivil] at hmonth hyear
  have hyears : -2 ^ 63 ≤ era * 400 ∧ era * 400 < 2 ^ 63 := by omega
  have hsum : -2 ^ 63 ≤ yoe + era * 400 ∧ yoe + era * 400 < 2 ^ 63 := by omega
  have hstart : -2 ^ 63 ≤ d + daysFrom0To1970 ∧ d + daysFrom0To1970 < 2 ^ 63 := by omega
  unfold dateBucketForMs
  simp only [hdays]
  rw [i64_bind _ hstart, bind_of_some hsplit]
  dsimp only
  rw [bind_of_some hyoe, i64_bind _ hyears, i64_bind _ hsum, bind_of_some hdoy,
    bind_of_some (monthDay_eq hrest)]
  dsimp only
  rw [bind_of_some hmonth, bind_of_some hyear, ← hlast]
  rfl

/-! ### The order of the buckets -/

theorem zeroPadded_eq {width : ℕ} {n : ℤ} (hwidth : 0 < width) (h : 0 ≤ n ∧ n < 10 ^ width) :
    zeroPadded width n = padded width n.toNat := by
  have hnat : n.natAbs = n.toNat := by omega
  have hlt : n.toNat < 10 ^ width := by
    have hcast : ((10 ^ width : ℕ) : ℤ) = 10 ^ width := by norm_num
    omega
  rw [zeroPadded, if_neg (not_lt.2 h.1), hnat, leftpad_decimal hwidth hlt]

/-- **With years of four digits the order of the texts is that of the dates.** -/
theorem bucketText_lt_iff {date date' : CivilDay} (h : 0 ≤ date.year ∧ date.year ≤ 9999)
    (h' : 0 ≤ date'.year ∧ date'.year ≤ 9999) :
    bucketText date.year date.month date.day < bucketText date'.year date'.month date'.day ↔
      date.dayNumber < date'.dayNumber := by
  have hlength : ∀ year month, monthLength year month ≤ 31 := by
    intro year month
    unfold monthLength
    split_ifs <;> decide
  have htwo : ∀ d : CivilDay, zeroPadded 2 d.month = padded 2 d.month ∧
      zeroPadded 2 d.day = padded 2 d.day.toNat ∧ d.month < 10 ^ 2 ∧ d.day.toNat < 10 ^ 2 := by
    intro d
    have hmonth := d.month_mem
    have hday := d.day_mem
    have hdays := hlength d.year d.month
    refine ⟨?_, zeroPadded_eq (by decide) (by omega), by omega, by omega⟩
    rw [zeroPadded_eq (by decide) (by omega), Int.toNat_natCast]
  obtain ⟨hm, hd, hmonth, hday⟩ := htwo date
  obtain ⟨hm', hd', hmonth', hday'⟩ := htwo date'
  have hpos := date.day_mem.1
  have hpos' := date'.day_mem.1
  have hdaylt := padded_append_lt_iff hday hday' [] []
  rw [List.append_nil, List.append_nil] at hdaylt
  rw [bucketText, bucketText, hm, hd, hm', hd', @zeroPadded_eq 4 date.year (by decide) (by omega),
    @zeroPadded_eq 4 date'.year (by decide) (by omega),
    padded_append_lt_iff (by omega) (by omega), List.cons_lt_cons_self,
    padded_append_lt_iff hmonth hmonth', List.cons_lt_cons_self, hdaylt,
    CivilDay.dayNumber_lt_iff, CivilDay.Before]
  simp only [List.not_lt_nil, and_false, or_false]
  omega

/-- The buckets are the dates of the calendar. -/
structure DateBuckets : Prop where
  /-- The bucket of an instant is its date. -/
  date : ∀ ms : Int64, ∃ date : CivilDay, date.dayNumber = ms.toInt / 86400000 ∧
    dateBucketForMs ms.toInt = some (bucketText date.year date.month date.day)
  /-- From the year 0 to the year 9999 the order of the buckets is the order of the days. -/
  order : ∀ (ms ms' : Int64) (date date' : CivilDay),
    date.dayNumber = ms.toInt / 86400000 → date'.dayNumber = ms'.toInt / 86400000 →
    0 ≤ date.year ∧ date.year ≤ 9999 → 0 ≤ date'.year ∧ date'.year ≤ 9999 →
    ∀ bucket ∈ dateBucketForMs ms.toInt, ∀ bucket' ∈ dateBucketForMs ms'.toInt,
      (bucket < bucket' ↔ ms.toInt / 86400000 < ms'.toInt / 86400000)

/-- A day has one date. -/
theorem date_eq_of_dayNumber {date date' : CivilDay} (h : date.dayNumber = date'.dayNumber) :
    date.year = date'.year ∧ date.month = date'.month ∧ date.day = date'.day := by
  have hnot : ¬ date.Before date' := fun hlt => absurd (CivilDay.dayNumber_lt hlt) (by omega)
  have hnot' : ¬ date'.Before date := fun hlt => absurd (CivilDay.dayNumber_lt hlt) (by omega)
  unfold CivilDay.Before at hnot hnot'
  omega

/-- **The date buckets are calendar dates**, whatever the milliseconds are. -/
theorem date_buckets : DateBuckets where
  date ms := dateBucketForMs_eq ⟨ms.le_toInt, ms.toInt_lt⟩
  order ms ms' date date' hdate hdate' hyear hyear' bucket hbucket bucket' hbucket' := by
    obtain ⟨d, hnumber, htext⟩ := dateBucketForMs_eq ⟨ms.le_toInt, ms.toInt_lt⟩
    obtain ⟨d', hnumber', htext'⟩ := dateBucketForMs_eq ⟨ms'.le_toInt, ms'.toInt_lt⟩
    obtain ⟨hy, -, -⟩ := date_eq_of_dayNumber (hnumber.trans hdate.symm)
    obtain ⟨hy', -, -⟩ := date_eq_of_dayNumber (hnumber'.trans hdate'.symm)
    rw [htext, Option.mem_some_iff] at hbucket
    rw [htext', Option.mem_some_iff] at hbucket'
    rw [← hbucket, ← hbucket', bucketText_lt_iff (hy ▸ hyear) (hy' ▸ hyear'), hnumber, hnumber']

/-- The instant before the year 0 is in a negative year. -/
example : dateBucketForMs 1577923199999 = some (lit "2020-01-01") ∧
    dateBucketForMs (-62167219200001) = some (lit "-001-12-31") := by
  decide +kernel

end DailyReport.ParseCache
