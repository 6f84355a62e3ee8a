import Mathlib.Algebra.BigOperators.Intervals
import Mathlib.Algebra.Order.BigOperators.Group.Finset
import Mathlib.Algebra.Order.Group.Int
import Mathlib.Tactic.IntervalCases

/-!
# The proleptic Gregorian calendar

Dates with their months and days in the calendar, for all years.  Day numbers count from
1970-01-01: `dayNumber_epoch` and `dayNumber_next` say that they follow the calendar day by day.

* `dayNumber_lt_iff` : **later dates have larger numbers**;
* `dayNumber_march` : a day number from a year that starts in March;
* `eraYear_eq`, `exists_march` : **the year of a day in an era of 400 years**.
-/

namespace Lib

/-- Years by four are leap years, but of the centuries only those by four hundred. -/
def isLeap (year : ℤ) : Bool :=
  decide (year % 4 = 0) && (decide (year % 100 ≠ 0) || decide (year % 400 = 0))

def monthLength (year : ℤ) (month : ℕ) : ℤ :=
  if month = 2 then if isLeap year then 29 else 28
  else if month = 4 ∨ month = 6 ∨ month = 9 ∨ month = 11 then 30
  else 31

/-- A date of the calendar. -/
structure CivilDay where
  year : ℤ
  month : ℕ
  day : ℤ
  month_mem : 1 ≤ month ∧ month ≤ 12
  day_mem : 1 ≤ day ∧ day ≤ monthLength year month

theorem monthLength_pos (year : ℤ) (month : ℕ) : 1 ≤ monthLength year month := by
  unfold monthLength
  split_ifs <;> decide

namespace CivilDay

/-- The first day of the count. -/
def epoch : CivilDay := ⟨1970, 1, 1, by decide, by decide⟩

/-- The day after a date. -/
def next (d : CivilDay) : CivilDay :=
  if hday : d.day + 1 ≤ monthLength d.year d.month then
    ⟨d.year, d.month, d.day + 1, d.month_mem, by have := d.day_mem; omega, hday⟩
  else if hmonth : d.month + 1 ≤ 12 then
    ⟨d.year, d.month + 1, 1, ⟨Nat.le_add_left _ _, hmonth⟩, le_rfl, monthLength_pos _ _⟩
  else ⟨d.year + 1, 1, 1, by decide, le_rfl, monthLength_pos _ _⟩

end CivilDay

/-! ### Day numbers -/

/-- The number of the first day of a year. -/
def yearStart (year : ℤ) : ℤ :=
  365 * year + (year - 1) / 4 - (year - 1) / 100 + (year - 1) / 400 - 719527

/-- The days of a year before a month. -/
def monthStart (year : ℤ) (month : ℕ) : ℤ := ∑ m ∈ Finset.Ico 1 month, monthLength year m

def CivilDay.dayNumber (d : CivilDay) : ℤ :=
  yearStart d.year + monthStart d.year d.month + (d.day - 1)

theorem dayNumber_epoch : CivilDay.epoch.dayNumber = 0 := by decide

theorem monthStart_succ {year : ℤ} {month : ℕ} (h : 1 ≤ month) :
    monthStart year (month + 1) = monthStart year month + monthLength year month :=
  Finset.sum_Ico_succ_top h _

/-- The days of a year. -/
theorem monthStart_thirteen (year : ℤ) :
    monthStart year 13 = 365 + if isLeap year then 1 else 0 := by
  have hmonths : monthStart year 13 = 337 + monthLength year 2 := by
    simp only [monthStart, Finset.sum_Ico_eq_sum_range, Finset.sum_range_succ,
      Finset.sum_range_zero]
    simp [monthLength]
    omega
  rw [hmonths, monthLength, if_pos rfl]
  split_ifs <;> rfl

theorem yearStart_succ (year : ℤ) :
    yearStart (year + 1) = yearStart year + monthStart year 13 := by
  rw [monthStart_thirteen]
  unfold yearStart isLeap
  simp only [Bool.and_eq_true, Bool.or_eq_true, decide_eq_true_eq]
  split_ifs <;> omega

/-- **The numbers follow the calendar day by day.** -/
theorem dayNumber_next (d : CivilDay) : d.next.dayNumber = d.dayNumber + 1 := by
  have hday := d.day_mem
  have hmonth := d.month_mem
  unfold CivilDay.next
  split_ifs with hstays hlater
  · simp only [CivilDay.dayNumber]
    omega
  · have hstart := @monthStart_succ d.year d.month hmonth.1
    simp only [CivilDay.dayNumber, hstart]
    omega
  · have hdecember : d.month = 12 := by omega
    have hstart : monthStart d.year 13 = monthStart d.year 12 + monthLength d.year 12 :=
      monthStart_succ (by decide)
    rw [hdecember] at hday hstays
    have hjanuary : monthStart (d.year + 1) 1 = 0 := rfl
    simp only [CivilDay.dayNumber, hjanuary, hdecember, yearStart_succ]
    omega

/-! ### The order of dates -/

theorem monthStart_mono {year : ℤ} {month month' : ℕ} (h : month ≤ month') :
    monthStart year month ≤ monthStart year month' := by
  refine Finset.sum_le_sum_of_subset_of_nonneg (Finset.Ico_subset_Ico_right h) fun m _ _ => ?_
  exact Int.le_trans (by decide) (monthLength_pos year m)

theorem yearStart_mono {year year' : ℤ} (h : year ≤ year') : yearStart year ≤ yearStart year' := by
  unfold yearStart
  omega

namespace CivilDay

/-- A date lies in its year. -/
theorem dayNumber_year (d : CivilDay) :
    yearStart d.year ≤ d.dayNumber ∧ d.dayNumber < yearStart (d.year + 1) := by
  have hday := d.day_mem
  have hmonth := d.month_mem
  have hstart := @monthStart_succ d.year d.month hmonth.1
  have hend := @monthStart_mono d.year _ _ (show d.month + 1 ≤ 13 by omega)
  have hbegin := @monthStart_mono d.year _ _ hmonth.1
  have hjanuary : monthStart d.year 1 = 0 := rfl
  rw [yearStart_succ, dayNumber]
  omega

/-- The order of the calendar. -/
def Before (d d' : CivilDay) : Prop :=
  d.year < d'.year ∨ d.year = d'.year ∧ (d.month < d'.month ∨ d.month = d'.month ∧ d.day < d'.day)

theorem dayNumber_lt {d d' : CivilDay} (h : d.Before d') : d.dayNumber < d'.dayNumber := by
  rcases h with hyear | ⟨hyear, hmonth | ⟨hmonth, hday⟩⟩
  · have hstart := yearStart_mono (show d.year + 1 ≤ d'.year by omega)
    have hin := d.dayNumber_year
    have hin' := d'.dayNumber_year
    omega
  · have hday := d.day_mem
    have hday' := d'.day_mem
    have hstart := @monthStart_succ d.year d.month d.month_mem.1
    have hlater := @monthStart_mono d.year _ _ (show d.month + 1 ≤ d'.month from hmonth)
    rw [dayNumber, dayNumber, ← hyear]
    omega
  · rw [dayNumber, dayNumber, hyear, hmonth]
    omega

/-- **Later dates have larger numbers.** -/
theorem dayNumber_lt_iff {d d' : CivilDay} : d.dayNumber < d'.dayNumber ↔ d.Before d' := by
  refine ⟨fun h => ?_, dayNumber_lt⟩
  by_contra hnot
  have hcases : d'.Before d ∨ d.year = d'.year ∧ d.month = d'.month ∧ d.day = d'.day := by
    unfold Before at hnot ⊢
    omega
  rcases hcases with hafter | ⟨hyear, hmonth, hday⟩
  · exact (dayNumber_lt hafter).asymm h
  · rw [dayNumber, dayNumber, hyear, hmonth, hday] at h
    exact h.false

end CivilDay

/-! ### Years that start in March -/

/-- The day of a year that starts in March at which its months start, the first being March. -/
def marchMonth (month : ℤ) : ℤ := (153 * month + 2) / 5

/-- The number of the first day of March of a year. -/
def marchStart (year : ℤ) : ℤ := 365 * year + year / 4 - year / 100 + year / 400 - 719468

/-- The month of the calendar and the year that a month of a year from March belongs to. -/
def marchCivil (year month : ℤ) : ℤ × ℕ :=
  if month < 10 then (year, (month + 3).toNat) else (year + 1, (month - 9).toNat)

/-- **The days before a month, from a year that starts in March.** -/
theorem dayNumber_march (year : ℤ) {month : ℤ} (h : 0 ≤ month ∧ month ≤ 11) :
    yearStart (marchCivil year month).1 +
      monthStart (marchCivil year month).1 (marchCivil year month).2 =
      marchStart year + marchMonth month := by
  obtain ⟨hlow, hhigh⟩ := h
  have hfebruary : ∀ y, yearStart y + monthLength y 2 + 31 = marchStart y := by
    intro y
    unfold yearStart marchStart monthLength isLeap
    simp only [Bool.and_eq_true, Bool.or_eq_true, decide_eq_true_eq]
    split_ifs <;> omega
  have hmarch := hfebruary year
  have hyear : yearStart (year + 1) = marchStart year + 306 := by
    unfold yearStart marchStart
    omega
  interval_cases month <;>
    simp only [marchCivil, marchMonth, monthStart] <;>
    simp [Finset.sum_Ico_eq_sum_range, Finset.sum_range_succ, monthLength] at hmarch ⊢ <;>
    omega

/-- The month of a day of a year that starts in March. -/
theorem marchMonth_day {year month rest : ℤ} (hrest : 0 ≤ rest ∧ rest ≤ 365)
    (hmonth : (5 * rest + 2) / 153 = month) (hleap : rest = 365 → isLeap (year + 1) = true) :
    1 ≤ rest - marchMonth month + 1 ∧ rest - marchMonth month + 1 ≤
      monthLength (marchCivil year month).1 (marchCivil year month).2 := by
  have hrange : 0 ≤ month ∧ month ≤ 11 := by omega
  obtain ⟨hlow, hhigh⟩ := hrange
  by_cases hlast : month = 11
  · subst hlast
    have hcivil : marchCivil year 11 = (year + 1, 2) := rfl
    have hstart : marchMonth 11 = 337 := rfl
    rw [hcivil, hstart, monthLength, if_pos rfl]
    split_ifs with hyear
    · omega
    · have hnot : rest ≠ 365 := fun h => hyear (hleap h)
      omega
  · interval_cases month <;> simp [marchCivil, marchMonth, monthLength] at hlast ⊢ <;> omega

/-! ### Eras of four hundred years -/

/-- A day of an era, by its century, its four years, its year and the day of that year. -/
structure EraDay (day century quad year rest : ℤ) : Prop where
  sum : day = 36524 * century + 1461 * quad + 365 * year + rest
  centuries : 0 ≤ century ∧ century ≤ 3
  quads : 0 ≤ quad ∧ quad ≤ 24
  years : 0 ≤ year ∧ year ≤ 3
  days : 0 ≤ rest ∧ rest ≤ 365
  leap : rest = 365 → year = 3 ∧ (quad < 24 ∨ century = 3)

/-- Every day of an era is in one of its years. -/
theorem exists_eraDay {day : ℤ} (h : 0 ≤ day ∧ day < 146097) :
    ∃ century quad year rest, EraDay day century quad year rest := by
  obtain ⟨hlow, hhigh⟩ := h
  obtain ⟨century, r, hcentury, hc, hr, hlast⟩ : ∃ century r, day = 36524 * century + r ∧
      (0 ≤ century ∧ century ≤ 3) ∧ (0 ≤ r ∧ r ≤ 36524) ∧ (r = 36524 → century = 3) := by
    refine ⟨min 3 (day / 36524), day - 36524 * min 3 (day / 36524), ?_⟩
    omega
  obtain ⟨quad, s, hquad, hq, hs⟩ : ∃ quad s, r = 1461 * quad + s ∧ (0 ≤ quad ∧ quad ≤ 24) ∧
      (0 ≤ s ∧ s ≤ 1460) := by
    refine ⟨r / 1461, r % 1461, ?_⟩
    omega
  refine ⟨century, quad, min 3 (s / 365), s - 365 * min 3 (s / 365), ?_⟩
  constructor <;> omega

/-- **The year of a day of an era.** -/
theorem EraDay.year_eq {day century quad year rest : ℤ} (h : EraDay day century quad year rest) :
    (day - day / 1460 + day / 36524 - day / 146096) / 365 = 100 * century + 4 * quad + year := by
  obtain ⟨hsum, hcentury, hquad, hyear, hrest, hleap⟩ := h
  have hcase : day / 36524 = century ∧ day / 146096 = 0 ∨ day = 146096 := by omega
  rcases hcase with ⟨hcenturies, hera⟩ | hlast
  · have hfour : day / 1460 = 25 * century + quad +
        (24 * century + quad + 365 * year + rest) / 1460 := by omega
    have hcarry : (24 * century + quad + 365 * year + rest) / 1460 = 0 ∨
        (24 * century + quad + 365 * year + rest) / 1460 = 1 := by omega
    rw [hcenturies, hera, hfour]
    rcases hcarry with hcarry | hcarry
    · rw [hcarry]
      omega
    · rw [hcarry]
      omega
  · rw [hlast]
    omega

theorem EraDay.year_mem {day century quad year rest : ℤ} (h : EraDay day century quad year rest) :
    0 ≤ 100 * century + 4 * quad + year ∧ 100 * century + 4 * quad + year < 400 := by
  obtain ⟨-, hcentury, hquad, hyear, -, -⟩ := h
  omega

/-- The day of a year that a day of an era is. -/
theorem EraDay.rest_eq {day century quad year rest : ℤ} (h : EraDay day century quad year rest) :
    day - (365 * (100 * century + 4 * quad + year) + (100 * century + 4 * quad + year) / 4 -
      (100 * century + 4 * quad + year) / 100) = rest := by
  obtain ⟨hsum, -, hquad, hyear, -, -⟩ := h
  have hfour : (100 * century + 4 * quad + year) / 4 = 25 * century + quad := by omega
  have hhundred : (100 * century + 4 * quad + year) / 100 = century := by omega
  rw [hfour, hhundred]
  omega

/-- A year of 366 days that starts in March ends in a leap year. -/
theorem EraDay.isLeap {day century quad year : ℤ} (h : EraDay day century quad year 365) (era : ℤ) :
    isLeap (100 * century + 4 * quad + year + era * 400 + 1) = true := by
  obtain ⟨-, hcentury, hquad, -, -, hleap⟩ := h
  obtain ⟨rfl, hlast⟩ := hleap rfl
  unfold Lib.isLeap
  simp only [Bool.and_eq_true, Bool.or_eq_true, decide_eq_true_eq]
  omega

/-- The first day of a year of an era. -/
theorem EraDay.marchStart_eq {day century quad year rest : ℤ}
    (h : EraDay day century quad year rest) (era : ℤ) :
    marchStart (100 * century + 4 * quad + year + era * 400) + rest =
      era * 146097 + day - 719468 := by
  obtain ⟨hsum, hcentury, hquad, hyear, -, -⟩ := h
  unfold marchStart
  have hfour : (100 * century + 4 * quad + year + era * 400) / 4 =
      25 * century + quad + era * 100 := by omega
  have hhundred : (100 * century + 4 * quad + year + era * 400) / 100 = century + era * 4 := by omega
  have hera : (100 * century + 4 * quad + year + era * 400) / 400 = era := by omega
  rw [hfour, hhundred, hera]
  omega

end Lib
