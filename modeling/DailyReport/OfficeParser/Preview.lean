import DailyReport.Contract.AuditBuilder
import DailyReport.Lib.Sharing
import DailyReport.Lib.Sort
import Mathlib.Algebra.BigOperators.Group.Finset.Basic
import Mathlib.Data.Prod.Lex

/-!
# The preview of a workbook

All rows of the sheets are priced before they are written.  In a first pass every sheet gets its rows
up to the first useful one, then the sheets take turns: each gets its next useful row, totals before
others, with the structural rows above it.  What has been selected is pushed sheet by sheet, and the
answers of the builder are not looked at.  Previews for an archive, which push every row, are left
out.
-/

namespace DailyReport.OfficeParser

open Lib

/-! ### Rows -/

/-- A row of a sheet as it is written. -/
structure XlsxRow where
  text : Text
  kind : ContentUnitKind
  ranges : List SourceRange
  separator : Option Text
  cells : List Text

namespace XlsxRow

/-- What a row costs, with the line end of each of its lines. -/
def chars (row : XlsxRow) : ℕ :=
  countChars row.text + 1 + row.separator.elim 0 fun separator => countChars separator + 1

def useful (row : XlsxRow) : Bool := decide (row.kind = .tableRow ∨ row.kind = .total)

/-- The row defines the columns or the unit of the rows below it. -/
def structural (row : XlsxRow) : Bool :=
  decide (row.kind = .tableHeader ∨ row.kind = .heading ∨ row.kind = .unit)

theorem not_useful {row : XlsxRow} (h : row.structural = true) : row.useful = false := by
  obtain ⟨text, kind, ranges, separator, cells⟩ := row
  cases kind <;> first | rfl | cases h

/-- What is useful counts as usable. -/
theorem usable_of_useful {row : XlsxRow} (h : row.useful = true) : row.kind.usable = true := by
  rcases of_decide_eq_true h with hkind | hkind
  · rw [hkind]
    rfl
  · rw [hkind]
    rfl

end XlsxRow

/-- A sheet that is to be written: its heading and its rows. -/
structure PreparedSheet where
  heading : Text
  rows : List XlsxRow

namespace PreparedSheet

variable (sheet : PreparedSheet)

def useful (row : ℕ) : Bool := sheet.rows[row]?.any XlsxRow.useful

def structural (row : ℕ) : Bool := sheet.rows[row]?.any XlsxRow.structural

def chars (row : ℕ) : ℕ := sheet.rows[row]?.elim 0 XlsxRow.chars

def isTotal (row : ℕ) : Bool := sheet.rows[row]?.any fun row => decide (row.kind = .total)

/-- The cost of the heading. -/
def headingCost : ℕ := countChars sheet.heading + 1

/-- The first useful row. -/
def firstUseful : Option ℕ := sheet.rows.findIdx? XlsxRow.useful

/-- The cost of a sheet up to a row. -/
def firstCost (first : ℕ) : ℕ :=
  sheet.headingCost + ((sheet.rows.take (first + 1)).map XlsxRow.chars).sum

end PreparedSheet

/-! ### Selection -/

/-- A sheet with what is selected of it, and the useful rows whose turn has not come. -/
structure SheetShare where
  sheet : PreparedSheet
  selected : Finset ℕ
  order : List ℕ

namespace SheetShare

def initial (sheet : PreparedSheet) : SheetShare := ⟨sheet, ∅, []⟩

/-- The rows up to the first useful one are selected, if they fit. -/
def takeFirst (remaining : ℕ) (share : SheetShare) : ℕ × SheetShare :=
  match share.sheet.firstUseful with
  | none => (remaining, share)
  | some first =>
    if share.sheet.firstCost first ≤ remaining then
      (remaining - share.sheet.firstCost first, { share with selected := Finset.range (first + 1) })
    else (remaining, share)

/-- The useful rows that are not selected come in order, totals before others. -/
def withOrder (share : SheetShare) : SheetShare :=
  { share with
    order := sortByKey (fun row => toLex (!share.sheet.isTotal row, row))
      ((List.range share.sheet.rows.length).filter fun row =>
        share.sheet.useful row && decide (row ∉ share.selected)) }

/-- A row and the structural rows above it, without those that are selected. -/
def required (share : SheetShare) (row : ℕ) : List ℕ :=
  (List.range (row + 1)).filter fun candidate =>
    (decide (candidate = row) || share.sheet.structural candidate) &&
      decide (candidate ∉ share.selected)

def nextCost (share : SheetShare) (row : ℕ) : ℕ :=
  ((share.required row).map share.sheet.chars).sum +
    if share.selected = ∅ then share.sheet.headingCost else 0

/-- The next useful row is selected with what it requires, if that fits. -/
def takeNext (remaining : ℕ) (share : SheetShare) : ℕ × SheetShare :=
  match share.order with
  | [] => (remaining, share)
  | row :: order =>
    if share.nextCost row ≤ remaining then
      (remaining - share.nextCost row,
        { share with order := order, selected := share.selected ∪ (share.required row).toFinset })
    else (remaining, { share with order := order })

theorem length_order_takeNext (remaining : ℕ) (share : SheetShare) :
    (takeNext remaining share).2.order = share.order.tail := by
  unfold takeNext
  cases horder : share.order with
  | nil => exact horder
  | cons row order =>
    simp only [List.tail_cons]
    split_ifs <;> rfl

/-- The sheets take turns as long as one of them has a row whose turn has not come. -/
def turns : Taking SheetShare where
  take := takeNext
  wants share := decide (share.order ≠ [])
  size share := share.order.length
  size_le remaining share := by
    rw [length_order_takeNext, List.length_tail]
    exact Nat.sub_le _ _
  size_lt remaining share h := by
    rw [length_order_takeNext, List.length_tail]
    exact Nat.sub_one_lt fun hnil => of_decide_eq_true h (List.length_eq_zero_iff.1 hnil)

end SheetShare

/-- What remains after the first pass, and what has been selected in it. -/
def firstPass (remaining : ℕ) (prepared : List PreparedSheet) : ℕ × List SheetShare :=
  pass SheetShare.takeFirst remaining (prepared.map SheetShare.initial)

/-- What is selected of the sheets. -/
def select (remaining : ℕ) (prepared : List PreparedSheet) : List SheetShare :=
  (passes SheetShare.turns (firstPass remaining prepared).1
    ((firstPass remaining prepared).2.map SheetShare.withOrder)).2

/-! ### Writing -/

/-- What is written of a workbook. -/
inductive PreviewPiece
  | heading (sheet : ℕ)
  | row (sheet row : ℕ)
  | separator (sheet row : ℕ)
  deriving DecidableEq

/-- A row, with its separator. -/
def XlsxRow.pieces (row : XlsxRow) (sheet index : ℕ) : List (PreviewPiece × Push) :=
  (.row sheet index, ⟨row.text, row.kind, row.ranges⟩) ::
    row.separator.toList.map fun separator =>
      (.separator sheet index, ⟨separator, .tableHeader, row.ranges⟩)

/-- What is selected of a sheet, in the order of its rows. -/
def SheetShare.pieces (share : SheetShare) (sheet : ℕ) : List (PreviewPiece × Push) :=
  if share.selected = ∅ then []
  else (.heading sheet, ⟨share.sheet.heading, .heading, []⟩) ::
    (share.sheet.rows.zipIdx.filter fun row => decide (row.2 ∈ share.selected)).flatMap fun row =>
      row.1.pieces sheet row.2

/-- What is selected of the sheets, one behind the other. -/
def piecesFrom (sheet : ℕ) : List SheetShare → List (PreviewPiece × Push)
  | [] => []
  | share :: shares => share.pieces sheet ++ piecesFrom (sheet + 1) shares

def previewTitle : Text := lit "# XLSX preview"

/-- The builder with the title and the ranges that have been read. -/
def previewBuilder (maxChars : ℕ) (reads : List SourceRange) : AuditTextBuilder :=
  reads.foldl AuditTextBuilder.read
    ((AuditTextBuilder.new maxChars (lit "xlsx")).push ⟨previewTitle, .heading, []⟩).1

/-- What is selected for a preview. -/
def previewShares (maxChars : ℕ) (prepared : List PreparedSheet) : List SheetShare :=
  select (maxChars - countChars previewTitle) prepared

/-- Some row is not selected. -/
def selectionTruncated (shares : List SheetShare) : Bool :=
  shares.any fun share => decide (share.selected.card ≠ share.sheet.rows.length)

/-- The content of a preview, whether something is left out of it, and its audit. -/
def renderXlsxMarkdown (maxChars : ℕ) (reads : List SourceRange) (prepared : List PreparedSheet) :
    Text × Bool × ParsedContentAudit :=
  let pieces := piecesFrom 0 (previewShares maxChars prepared)
  let (content, audit, truncated) :=
    ((previewBuilder maxChars reads).pushAll (pieces.map Prod.snd)).finish
  (content, truncated || selectionTruncated (previewShares maxChars prepared), audit)

end DailyReport.OfficeParser
