import DailyReport.Lib.Text

/-!
# Checked machine arithmetic

The operations on unsigned 64-bit integers that a program may not be allowed to do: `checkedSub`,
`checkedMul` and `checkedDiv` fail where the machine would overflow or divide by zero, and compute
the operation elsewhere (`checkedSub_of_le`, `checkedMul_of_le`, `checkedDiv_of_pos`).
-/

namespace Lib

/-- Checked subtraction of unsigned integers. -/
def checkedSub (a b : ℕ) : Option ℕ := if b ≤ a then some (a - b) else none

/-- Checked multiplication of unsigned 64-bit integers. -/
def checkedMul (a b : ℕ) : Option ℕ := if a * b ≤ u64Max then some (a * b) else none

/-- Checked division of unsigned integers. -/
def checkedDiv (a b : ℕ) : Option ℕ := if b = 0 then none else some (a / b)

variable {a b : ℕ}

theorem checkedAdd_of_le (h : a + b ≤ u64Max) : checkedAdd a b = some (a + b) := if_pos h

theorem checkedSub_of_le (h : b ≤ a) : checkedSub a b = some (a - b) := if_pos h

theorem checkedMul_of_le (h : a * b ≤ u64Max) : checkedMul a b = some (a * b) := if_pos h

theorem checkedDiv_of_pos (h : 0 < b) : checkedDiv a b = some (a / b) := if_neg h.ne'

end Lib
