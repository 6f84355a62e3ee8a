import DailyReport.Lib.Text

/-!
# Civil dates and times

An instant is a number of microseconds since 1970.  `civilDate` and `civilDays` go between the days
of that count and the dates of the Gregorian calendar; an instant is written with the fields of its
date and time (`dateTime`).
-/

namespace Lib

/-- A number in `width` decimal digits. -/
def padded : ℕ → ℕ → Text
  | 0, _ => []
  | width + 1, n => padded width (n / 10) ++ [Nat.digitChar (n % 10)]

@[simp] theorem padded_length (width n : ℕ) : (padded width n).length = width := by
  induction width generalizing n with
  | zero => rfl
  | succ width ih => simp [padded, ih]

theorem padded_zero (width : ℕ) : padded width 0 = List.replicate width '0' := by
  induction width with
  | zero => rfl
  | succ width ih => rw [padded, Nat.zero_div, ih, List.replicate_succ']; rfl

/-- With zeros in front of them the digits of a number are as many as are asked for. -/
theorem leftpad_decimal {width n : ℕ} (hwidth : 0 < width) (h : n < 10 ^ width) :
    (decimal n).leftpad width '0' = padded width n := by
  induction width generalizing n with
  | zero => exact absurd hwidth (lt_irrefl 0)
  | succ width ih =>
    by_cases hdigit : n < 10
    · have hone : decimal n = [Nat.digitChar n] := Nat.toDigits_of_lt_base hdigit
      rw [hone, List.leftpad, padded, Nat.div_eq_of_lt hdigit, Nat.mod_eq_of_lt hdigit, padded_zero]
      rfl
    · have hmore : decimal n = decimal (n / 10) ++ [Nat.digitChar (n % 10)] :=
        Nat.toDigits_of_base_le (by decide) (Nat.le_of_not_lt hdigit)
      have hpos : 0 < width := by
        by_contra hzero
        obtain rfl : width = 0 := Nat.eq_zero_of_not_pos hzero
        exact hdigit h
      rw [Nat.pow_succ'] at h
      have hrest := ih hpos (Nat.div_lt_of_lt_mul h)
      rw [hmore, padded, ← hrest, List.leftpad, List.leftpad, List.length_append,
        List.length_singleton, Nat.add_sub_add_right, List.append_assoc]

theorem digitChar_lt_iff {a b : ℕ} (ha : a < 10) (hb : b < 10) :
    Nat.digitChar a < Nat.digitChar b ↔ a < b := by
  have hall : ∀ a < 10, ∀ b < 10, Nat.digitChar a < Nat.digitChar b ↔ a < b := by decide
  exact hall a ha b hb

/-- **Numbers of the same width are ordered as their texts.** -/
theorem padded_append_lt_iff {width a b : ℕ} (ha : a < 10 ^ width) (hb : b < 10 ^ width)
    (s t : Text) : padded width a ++ s < padded width b ++ t ↔ a < b ∨ a = b ∧ s < t := by
  induction width generalizing a b s t with
  | zero =>
    rw [Nat.pow_zero, Nat.lt_one_iff] at ha hb
    subst ha hb
    simp [padded]
  | succ width ih =>
    rw [Nat.pow_succ'] at ha hb
    have hdigits := digitChar_lt_iff (Nat.mod_lt a (by decide : 0 < 10))
      (Nat.mod_lt b (by decide : 0 < 10))
    have hsame : Nat.digitChar (a % 10) = Nat.digitChar (b % 10) ↔ a % 10 = b % 10 := by
      have hback := digitChar_lt_iff (Nat.mod_lt b (by decide : 0 < 10))
        (Nat.mod_lt a (by decide : 0 < 10))
      constructor
      · intro heq
        rw [heq] at hdigits hback
        have hnot := mt hdigits.2 (lt_irrefl _)
        have hnot' := mt hback.2 (lt_irrefl _)
        omega
      · intro heq
        rw [heq]
    rw [padded, padded, List.append_assoc, List.append_assoc,
      ih (Nat.div_lt_of_lt_mul ha) (Nat.div_lt_of_lt_mul hb), List.singleton_append,
      List.singleton_append, List.cons_lt_cons_iff, hdigits, hsame]
    constructor
    · rintro (hlt | ⟨heq, hlt | ⟨hmod, hlt⟩⟩)
      · exact .inl (by omega)
      · exact .inl (by omega)
      · exact .inr ⟨by omega, hlt⟩
    · rintro (hlt | ⟨rfl, hlt⟩)
      · omega
      · exact .inr ⟨rfl, .inr ⟨rfl, hlt⟩⟩

/-- The year, month and day of a day. -/
def civilDate (days : ℤ) : ℕ × ℕ × ℕ :=
  let z := (days + 719468).toNat
  -- the years of an era of 400 years start in March
  let era := z / 146097
  let dayOfEra := z % 146097
  let year := (dayOfEra - dayOfEra / 1460 + dayOfEra / 36524 - dayOfEra / 146096) / 365
  let dayOfYear := dayOfEra - (365 * year + year / 4 - year / 100)
  let month := (5 * dayOfYear + 2) / 153
  let day := dayOfYear - (153 * month + 2) / 5 + 1
  let january := if month < 10 then month + 3 else month - 9
  (year + era * 400 + (if january ≤ 2 then 1 else 0), january, day)

/-- The day of a year, month and day. -/
def civilDays (year month day : ℕ) : ℤ :=
  let year := if month ≤ 2 then year - 1 else year
  let era := year / 400
  let yearOfEra := year % 400
  let dayOfYear := (153 * (if 2 < month then month - 3 else month + 9) + 2) / 5 + day - 1
  let dayOfEra := yearOfEra * 365 + yearOfEra / 4 - yearOfEra / 100 + dayOfYear
  (era * 146097 + dayOfEra : ℤ) - 719468

def secondMicros : ℤ := 1000000

def daySeconds : ℤ := 86400

/-- `YYYY-MM-DD`. -/
def dateText (days : ℤ) : Text :=
  let (year, month, day) := civilDate days
  padded 4 year ++ '-' :: padded 2 month ++ '-' :: padded 2 day

/-- `HH:MM:SS`. -/
def timeText (seconds : ℕ) : Text :=
  padded 2 (seconds / 3600) ++ ':' :: padded 2 (seconds / 60 % 60) ++ ':' :: padded 2 (seconds % 60)

/-- The date and the time of an instant, with a separator. -/
def dateTime (separator : Char) (micros : ℤ) : Text :=
  let seconds := micros / secondMicros
  dateText (seconds / daySeconds) ++ separator :: timeText (seconds % daySeconds).toNat

/-- The microseconds of an instant in its second. -/
def subsecond (micros : ℤ) : ℕ := (micros % secondMicros).toNat

/-- Days and dates go together. -/
example : civilDate 20741 = (2026, 10, 15) ∧ civilDays 2026 10 15 = 20741 ∧
    civilDate (civilDays 2024 2 29) = (2024, 2, 29) ∧ civilDate (-1) = (1969, 12, 31) := by
  decide

end Lib
