import DailyReport.OfficeParser.Summaries

/-!
# What derived rows say

The text of a derived row is a sequence of statements about a group of rows.  A statement holds when
the values that it names are those of the rows of the group, in a column with the label that it
names; the label of a column at a row is the nearest header cell above it that is not empty.

* `Truthful` : a derived row makes statements that hold and cites exactly the rows of its group.
-/

namespace DailyReport.OfficeParser

open Lib

/-- No header row between two rows says something about a column. -/
def NoLabel (rows : List XlsxRow) (start stop column : ℕ) : Prop :=
  ∀ k row, start ≤ k → k < stop → rows[k]? = some row → isHeader row = true →
    filledCell row column = none

/-- The label of a column at a row. -/
inductive IsLabel (rows : List XlsxRow) (i column : ℕ) : Text → Prop
  | header {j : ℕ} {row : XlsxRow} {label : Text} (hj : j < i) (hrow : rows[j]? = some row)
    (hheader : isHeader row = true) (hcell : filledCell row column = some label)
    (hnearest : NoLabel rows (j + 1) i column) : IsLabel rows i column label
  | number (hnone : NoLabel rows 0 i column) : IsLabel rows i column (columnName column)

/-- A row has a value in a column with a label. -/
structure Shows (rows : List XlsxRow) (column : ℕ) (label : Text) (row : XlsxRow) (value : Text) :
    Prop where
  cell : row.cells[column]? = some value
  labelled : ∃ i, rows[i]? = some row ∧ IsLabel rows i column label

/-! ### Statements -/

/-- The words between statements. -/
def fixedTexts : List Text :=
  [lit "读取窗口统计：", lit "这些行的共同值：", windowOnly, lit "所属公司 = ", lit "；送审合同类型 = ",
    lit "；金额档 = ", lit "、", lit "；仅对应原表这两行。", lit "审批流 = ", lit "；"]

inductive Statement
  | fixed (text : Text)
  | count (n : ℕ)
  | rowNumber (n : ℕ)
  | shown (label value : Text)
  | common (label value : Text)
  | eachRow (label : Text) (values : List Text)
  | amount (label value period : Text) (periods : List Text)
  | cell (value : Text)

def Statement.write : Statement → Text
  | .fixed text => text
  | .count n => countText n
  | .rowNumber n => lit "原表数值行（第 " ++ decimal n ++ lit " 行，未标姓名）："
  | .shown label value | .common label value => labelValue label value
  | .eachRow label values => eachRowText label values
  | .amount label value period periods => amountText label value period periods
  | .cell value => value

/-- A statement about a group of rows. -/
def Statement.Holds (rows group : List XlsxRow) : Statement → Prop
  | .fixed text => text ∈ fixedTexts
  | .count n => n = group.length
  | .rowNumber n => ∀ row ∈ group, row.number = n
  | .shown label value => ∃ row ∈ group, ∃ column, Shows rows column label row value
  | .common label value => ∃ column, ∀ row ∈ group, Shows rows column label row value
  | .eachRow label values => ∃ column, List.Forall₂ (Shows rows column label) group values
  | .amount label value period periods => ∃ members column periodColumn,
      members ≠ [] ∧ members.Subperm group ∧
      (∀ row ∈ members, Shows rows column label row value) ∧
        List.Forall₂ (Shows rows periodColumn period) members periods
  | .cell value => ∃ row ∈ group, value ∈ row.cells

/-- The statements hold, and the text is what they write. -/
def Says (rows group : List XlsxRow) (text : Text) : Prop :=
  ∃ statements : List Statement, text = statements.flatMap Statement.write ∧
    ∀ statement ∈ statements, statement.Holds rows group

section

variable {rows : List XlsxRow} {i j column : ℕ} {label : Text}

theorem NoLabel.mono {start start' stop : ℕ} (h : NoLabel rows start stop column)
    (hle : start ≤ start') : NoLabel rows start' stop column :=
  fun k row hk hlt => h k row (hle.trans hk) hlt

/-- A label stays the label below rows that say nothing about its column. -/
theorem IsLabel.below (h : IsLabel rows i column label) (hle : i ≤ j)
    (hnone : NoLabel rows i j column) : IsLabel rows j column label := by
  have hjoin : ∀ {start}, NoLabel rows start i column → NoLabel rows start j column :=
    fun hbefore k row hk hlt => by
      by_cases hki : k < i
      · exact hbefore k row hk hki
      · exact hnone k row (Nat.le_of_not_lt hki) hlt
  cases h with
  | header hj hrow hheader hcell hnearest =>
    exact .header (hj.trans_le hle) hrow hheader hcell (hjoin hnearest)
  | number hbefore => exact .number (hjoin hbefore)

end

end DailyReport.OfficeParser
