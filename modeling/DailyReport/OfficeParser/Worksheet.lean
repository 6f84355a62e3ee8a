import DailyReport.Lib.SparseRow
import DailyReport.OfficeParser.SharedStrings

/-!
# Worksheets

`visitSheetRows` reads a worksheet event by event.  A row takes its number from its reference, or
counts on from the row before it; a cell takes its column in the same way.  A row that is not blank
is kept, or given to a sink, where its end is read.

The reader computes with unsigned 64-bit numbers, which wrap around.

* `columnIndexFromCellRef_eq` : **a column is computed modulo the range of the machine**.
-/

namespace DailyReport.OfficeParser

open Lib

/-! ### Numbers and references -/

/-- The number that a text of digits stands for, however large. -/
def parseUnsigned (t : Text) : Option ℕ :=
  let digits := if t.head? = some '+' then t.tail else t
  if digits ≠ [] ∧ digits.all Char.isDigit = true then
    some (digits.foldl (fun n c => n * 10 + (c.toNat - '0'.toNat)) 0)
  else none

/-- The number of the machine that a text stands for. -/
def parseU64 (t : Text) : Option ℕ := (parseUnsigned t).filter fun n => decide (n ≤ u64Max)

/-- Arithmetic of the machine. -/
def wrap (n : ℕ) : ℕ := n % (u64Max + 1)

theorem wrap_eq_self {n : ℕ} : wrap n = n ↔ n ≤ u64Max := by
  unfold wrap u64Max
  omega

theorem wrap_le (n : ℕ) : wrap n ≤ n := Nat.mod_le _ _

theorem wrap_le_max (n : ℕ) : wrap n ≤ u64Max := Nat.le_of_lt_succ (Nat.mod_lt _ (Nat.succ_pos _))

/-- A letter of a column, in either case. -/
def isColumnLetter (c : Char) : Bool := c.toUpper.isUpper

/-- The place of a letter in the alphabet. -/
def letterIndex (c : Char) : ℕ := c.toUpper.toNat - 'A'.toNat + 1

/-- The loop over the characters of a cell reference. -/
def columnLoop : Text → ℕ → Bool → Option ℕ
  | [], value, sawLetter => if sawLetter then some value else none
  | c :: rest, value, sawLetter =>
    if isColumnLetter c then columnLoop rest (wrap (value * 26 + letterIndex c)) true
    else if sawLetter then some value
    else columnLoop rest value sawLetter

def columnIndexFromCellRef (cellRef : Text) : Option ℕ := columnLoop cellRef 0 false

/-- The letters of a cell reference. -/
def columnLetters (cellRef : Text) : Text :=
  (cellRef.dropWhile fun c => !isColumnLetter c).takeWhile isColumnLetter

/-- The column that letters stand for. -/
def columnOf (letters : Text) : ℕ := letters.foldl (fun value c => value * 26 + letterIndex c) 0

/-- The column that a reference names, however large. -/
def exactColumn (cellRef : Text) : Option ℕ :=
  if columnLetters cellRef = [] then none else some (columnOf (columnLetters cellRef))

/-- What stands behind the first occurrence of a pattern. -/
def afterFirst (pattern : Text) : Text → Option Text
  | [] => if pattern = [] then some [] else none
  | c :: rest =>
    if pattern.isPrefixOf (c :: rest) then some ((c :: rest).drop pattern.length)
    else afterFirst pattern rest

/-- The column and the number of a cell in a range. -/
def rangeReference (value : Text) : Option (Text × ℕ) :=
  if value.takeWhile Char.isAlpha = [] then none
  else (parseU64 (value.dropWhile Char.isAlpha)).map fun n => (value.takeWhile Char.isAlpha, n)

/-- The last range of some arguments goes down one column and ends above the row. -/
def isRangeAbove (row : ℕ) (arguments : Text) : Bool :=
  let range := (arguments.reverse.takeWhile (· ≠ ',')).reverse
  if ':' ∈ range then
    match rangeReference (range.takeWhile (· ≠ ':')),
      rangeReference (range.dropWhile (· ≠ ':')).tail with
    | some (firstCol, first), some (lastCol, last) =>
      decide (firstCol = lastCol ∧ 0 < first ∧ first < last ∧ last < row)
    | _, _ => false
  else false

/-- A formula that adds up the cells above it. -/
def verticalSumFormula (formula : Text) (row : ℕ) : Bool :=
  let normalized := (formula.filter fun c => c ≠ ' ' ∧ c ≠ '$').map Char.toUpper
  match (afterFirst (lit "SUM(") normalized).or (afterFirst (lit "SUBTOTAL(") normalized) with
  | none => false
  | some rest => if ')' ∈ rest then isRangeAbove row (rest.takeWhile (· ≠ ')')) else false

/-! ### Elements -/

/-- The elements that the reader knows. -/
inductive SheetTag
  | row | c | v | t | f
  deriving DecidableEq

def SheetTag.name : SheetTag → Text
  | row => lit "row"
  | c => lit "c"
  | v => lit "v"
  | t => lit "t"
  | f => lit "f"

/-- The element that a name stands for, in any namespace. -/
def tagOf (name : Text) : Option SheetTag :=
  if localName name = lit "row" then some .row
  else if localName name = lit "c" then some .c
  else if localName name = lit "v" then some .v
  else if localName name = lit "t" then some .t
  else if localName name = lit "f" then some .f
  else none

@[simp] theorem tagOf_qualify (ns : Text) (tag : SheetTag) :
    tagOf (qualify ns tag.name) = some tag := by
  have hcolon : ':' ∉ tag.name := by cases tag <;> simp [SheetTag.name, lit_eq]
  unfold tagOf
  rw [localName_qualify hcolon]
  cases tag <;> simp [SheetTag.name, lit_eq]

theorem tagOf_unknown {name : Text} (hcolon : ':' ∉ name) (h : ∀ tag : SheetTag, name ≠ tag.name) :
    tagOf (qualify ns name) = none := by
  unfold tagOf
  rw [localName_qualify hcolon]
  have hrow : name ≠ lit "row" := h .row
  have hc : name ≠ lit "c" := h .c
  have hv : name ≠ lit "v" := h .v
  have ht : name ≠ lit "t" := h .t
  have hf : name ≠ lit "f" := h .f
  rw [if_neg hrow, if_neg hc, if_neg hv, if_neg ht, if_neg hf]

/-- The elements of inline strings. -/
theorem tagOf_inline (ns : Text) :
    tagOf (qualify ns (lit "is")) = none ∧ tagOf (qualify ns (lit "r")) = none ∧
    tagOf (qualify ns (lit "rPr")) = none ∧ tagOf (qualify ns (lit "rPh")) = none := by
  refine ⟨tagOf_unknown ?_ ?_, tagOf_unknown ?_ ?_, tagOf_unknown ?_ ?_, tagOf_unknown ?_ ?_⟩
  all_goals first | simp [lit_eq]; done | (intro tag; cases tag <;> simp [SheetTag.name, lit_eq])

/-! ### State -/

structure CellBuilder where
  capture : Bool
  columnIndex : ℕ
  cellType : Text
  text : Text
  formula : Text
  inValue : Bool
  inText : Bool
  inFormula : Bool

structure XlsxBudget where
  maxRows : ℕ
  maxColumns : ℕ

/-- A row with its number. -/
abbrev GivenRow := ℕ × List PreviewCell

/-- A sink is given rows one by one and answers whether it takes more. -/
abbrev RowSink := List GivenRow → Except Text Bool

structure SheetState where
  /-- The rows that were kept, or that the sink was given. -/
  given : List GivenRow
  readRows : List ℕ
  readCount : ℕ
  currentRowNumber : ℕ
  currentRow : Option (List (Option PreviewCell))
  currentCell : Option CellBuilder
  sharedStringIndexes : Finset ℕ
  totalRows : Finset ℕ
  formulaRows : Finset ℕ
  truncated : Bool

namespace SheetState

def initial : SheetState := ⟨[], [], 0, 0, none, none, ∅, ∅, ∅, false⟩

end SheetState

/-! ### Cells -/

/-- The value of a cell, if it has one. -/
def finishCell (cell : CellBuilder) : Option (ℕ × PreviewCell) :=
  if trim cell.text = [] then none
  else if cell.cellType = lit "s" then
    match parseU64 (trim cell.text) with
    | some index => some (cell.columnIndex, .sharedString index)
    | none => some (cell.columnIndex, .text (trim cell.text))
  else some (cell.columnIndex, .text (trim cell.text))

/-- The shared string that a cell names. -/
def sharedIndex : Option (ℕ × PreviewCell) → Finset ℕ
  | some (_, .sharedString index) => {index}
  | _ => ∅

/-- With a sink, a cell with a formula has it as its value. -/
def withFormula (archival : Bool) (cell : CellBuilder) : Option (ℕ × PreviewCell) :=
  if archival = true ∧ cell.formula ≠ [] then
    some (cell.columnIndex,
      .formula cell.formula (((finishCell cell).map Prod.snd).getD (.text [])))
  else finishCell cell

def placeCell (row : List (Option PreviewCell)) : Option (ℕ × PreviewCell) → List (Option PreviewCell)
  | none => row
  | some (columnIndex, previewCell) => place row (max columnIndex 1 - 1) previewCell

def trimPreviewRow (row : List (Option PreviewCell)) : Option (List PreviewCell) :=
  if dense (.text []) row = [] then none else some (dense (.text []) row)

/-- The next column: one more than there are values, and the first one outside of rows. -/
def nextColumn (row : Option (List (Option PreviewCell))) : ℕ :=
  row.elim 1 fun row => row.countP Option.isSome + 1

/-- The column of a cell, by its reference or by the values before it. -/
def columnIndex (row : Option (List (Option PreviewCell))) (r : Option Text) : ℕ :=
  (r.bind columnIndexFromCellRef).getD (nextColumn row)

/-- The number of a row, by its reference or by the row before it. -/
def rowNumber (current : ℕ) (r : Option Text) : ℕ :=
  ((r.bind parseU64).filter fun n => decide (0 < n)).getD (wrap (current + 1))

/-- The attributes of a formula that are kept with it. -/
def formulaKeys : List Text := [lit "t", lit "si", lit "ref"]

/-- The marks for the attributes of a formula. -/
def formulaMarks (attributes : List XmlAttribute) : List Text → Except Text Text
  | [] => .ok []
  | key :: keys => do
    let value ← attrValue attributes key
    let rest ← formulaMarks attributes keys
    .ok ((value.elim [] fun value => lit "[" ++ key ++ lit "=" ++ value ++ lit "]") ++ rest)

namespace CellBuilder

def start (maxColumns column : ℕ) (cellType : Option Text) : CellBuilder :=
  ⟨decide (column ≤ maxColumns), column, cellType.getD [], [], [], false, false, false⟩

def appendText (cell : CellBuilder) (text : Text) : CellBuilder :=
  { cell with text := cell.text ++ text }

def appendFormula (cell : CellBuilder) (text : Text) : CellBuilder :=
  { cell with formula := cell.formula ++ text }

theorem appendText_nil (cell : CellBuilder) : cell.appendText [] = cell := by
  rw [appendText, List.append_nil]

theorem appendFormula_nil (cell : CellBuilder) : cell.appendFormula [] = cell := by
  rw [appendFormula, List.append_nil]

/-- No element is open whose text is read. -/
structure Closed (cell : CellBuilder) : Prop where
  inValue : cell.inValue = false
  inText : cell.inText = false
  inFormula : cell.inFormula = false

/-- What is read of a text is added, if the cell is captured. -/
def read (cell : CellBuilder) (text : Text) : CellBuilder :=
  cell.appendText (if cell.capture then text else [])

theorem read_nil (cell : CellBuilder) : cell.read [] = cell := by
  rw [read, ite_self, appendText_nil]

theorem Closed.read {cell : CellBuilder} (h : cell.Closed) (text : Text) : (cell.read text).Closed :=
  ⟨h.inValue, h.inText, h.inFormula⟩

end CellBuilder

/-- The value of a cell with some text and some formula. -/
def previewOf (archival : Bool) (cellType : Option Text) (text formula : Text) :
    Option PreviewCell :=
  (withFormula archival
    { CellBuilder.start 0 0 cellType with text := text, formula := formula }).map Prod.snd

namespace SheetState

variable (s : SheetState)

def startRow (archival : Bool) (number : ℕ) : SheetState :=
  { s with
    currentRowNumber := number
    readCount := s.readCount + 1
    readRows := if archival then s.readRows else s.readRows ++ [number]
    currentRow := some [] }

/-- The row that ends is kept, or given to the sink. -/
def give (sink : Option RowSink) (cells : List PreviewCell) : Except Text (SheetState × Bool) :=
  match sink with
  | none => .ok ({ s with
      currentRow := none, given := s.given ++ [(s.currentRowNumber, cells)] }, true)
  | some sink => (sink (s.given ++ [(s.currentRowNumber, cells)])).map fun more =>
      ({ s with
        currentRow := none
        given := s.given ++ [(s.currentRowNumber, cells)]
        truncated := s.truncated || !more }, more)

def endRow (sink : Option RowSink) : Except Text (SheetState × Bool) :=
  match s.currentRow with
  | none => .ok (s, true)
  | some row =>
    match trimPreviewRow row with
    | none => .ok ({ s with currentRow := none }, true)
    | some cells => s.give sink cells

def startCell (maxColumns : ℕ) (r cellType : Option Text) : SheetState :=
  { s with
    currentCell := some (CellBuilder.start maxColumns (columnIndex s.currentRow r) cellType)
    truncated := s.truncated || decide (maxColumns < columnIndex s.currentRow r) }

/-- An empty cell leaves nothing but the mark that its column is out of the budget. -/
def emptyCell (maxColumns : ℕ) (r : Option Text) : SheetState :=
  { s with truncated := s.truncated || decide (maxColumns < columnIndex s.currentRow r) }

/-- The cell that ends is put into its row. -/
def keepCell (archival : Bool) (cell : CellBuilder) (row : List (Option PreviewCell)) : SheetState :=
  { s with
    currentCell := none
    currentRow := some (placeCell row (withFormula archival cell))
    sharedStringIndexes := s.sharedStringIndexes ∪ sharedIndex (finishCell cell)
    formulaRows :=
      if archival = false ∧ cell.formula ≠ [] then insert s.currentRowNumber s.formulaRows
      else s.formulaRows
    totalRows :=
      if archival = false ∧ verticalSumFormula cell.formula s.currentRowNumber = true then
        insert s.currentRowNumber s.totalRows
      else s.totalRows }

def endCell (archival : Bool) : SheetState :=
  match s.currentCell, s.currentRow with
  | some cell, some row =>
    if cell.capture then s.keepCell archival cell row else { s with currentCell := none }
  | _, _ => { s with currentCell := none }

def mapCell (f : CellBuilder → CellBuilder) : SheetState :=
  { s with currentCell := s.currentCell.map f }

/-- Go on with what was done to the current cell, if there is one. -/
def onCell (f : CellBuilder → Except Text CellBuilder) :
    Except Text (SheetState × Bool) :=
  match s.currentCell with
  | none => .ok (s, true)
  | some cell => (f cell).map fun cell => ({ s with currentCell := some cell }, true)

def withCell (cell : CellBuilder) : SheetState := { s with currentCell := some cell }

variable {s}

theorem mapCell_withCell (f : CellBuilder → CellBuilder) (cell : CellBuilder) :
    (s.withCell cell).mapCell f = s.withCell (f cell) := rfl

theorem onCell_none {f : CellBuilder → Except Text CellBuilder} (h : s.currentCell = none) :
    s.onCell f = .ok (s, true) := by
  rw [onCell, h]

theorem onCell_withCell {f : CellBuilder → Except Text CellBuilder} {cell cell' : CellBuilder}
    (h : f cell = .ok cell') : (s.withCell cell).onCell f = .ok (s.withCell cell', true) := by
  unfold onCell withCell
  simp only [h]
  rfl

end SheetState

/-! ### Sinks -/

/-- Rows are given one by one, as long as they are taken. -/
def offer (sink : Option RowSink) (given : List GivenRow) :
    List GivenRow → Except Text (List GivenRow)
  | [] => .ok given
  | row :: rows =>
    match sink with
    | none => offer none (given ++ [row]) rows
    | some f => do
      let more ← f (given ++ [row])
      if more then offer (some f) (given ++ [row]) rows else .ok (given ++ [row])

section Reader

variable [XmlEscapes]

/-- A piece of text inside a cell. -/
def cellText (cell : CellBuilder) (raw : Text) : Except Text CellBuilder :=
  if cell.capture = true ∧ (cell.inValue = true ∨ cell.inText = true) then
    (unescapeText raw).map cell.appendText
  else if cell.capture = true ∧ cell.inFormula = true then
    (unescapeText raw).map cell.appendFormula
  else .ok cell

/-- A reference inside a cell. -/
def cellReference (cell : CellBuilder) (name : Text) : Except Text CellBuilder :=
  if cell.capture = true ∧ (cell.inValue = true ∨ cell.inText = true) then
    (unescapeGeneralRef name).map cell.appendText
  else .ok cell

/-- A formula starts inside a cell. -/
def startFormula (archival : Bool) (attributes : List XmlAttribute) (cell : CellBuilder) :
    Except Text CellBuilder :=
  if archival then
    (formulaMarks attributes formulaKeys).map fun marks =>
      { cell with inFormula := true, formula := cell.formula ++ marks }
  else .ok { cell with inFormula := true }

/-- An empty formula inside a cell, as it stands for one that is shared. -/
def emptyFormula (attributes : List XmlAttribute) (cell : CellBuilder) : Except Text CellBuilder :=
  (formulaMarks attributes formulaKeys).map fun marks =>
    cell.appendFormula (lit "[formula]" ++ marks)

variable (budget : XlsxBudget) (sink : Option RowSink)

/-- The start of an element. -/
def startElement (s : SheetState) (name : Text) (attributes : List XmlAttribute) :
    Except Text (SheetState × Bool) :=
  match tagOf name with
  | some .row =>
    if budget.maxRows ≤ s.readCount then .ok ({ s with truncated := true }, false)
    else (attrValue attributes (lit "r")).map fun r =>
      (s.startRow sink.isSome (rowNumber s.currentRowNumber r), true)
  | some .c => do
    let r ← attrValue attributes (lit "r")
    let cellType ← attrValue attributes (lit "t")
    .ok (s.startCell budget.maxColumns r cellType, true)
  | some .v => .ok (s.mapCell fun cell => { cell with inValue := true }, true)
  | some .t => .ok (s.mapCell fun cell => { cell with inText := true }, true)
  | some .f => s.onCell (startFormula sink.isSome attributes)
  | none => .ok (s, true)

/-- The end of an element. -/
def stopElement (s : SheetState) (name : Text) : Except Text (SheetState × Bool) :=
  match tagOf name with
  | some .row => s.endRow sink
  | some .c => .ok (s.endCell sink.isSome, true)
  | some .v => .ok (s.mapCell fun cell => { cell with inValue := false }, true)
  | some .t => .ok (s.mapCell fun cell => { cell with inText := false }, true)
  | some .f => .ok (s.mapCell fun cell => { cell with inFormula := false }, true)
  | none => .ok (s, true)

/-- An empty element.  An empty row is not seen. -/
def emptyElement (s : SheetState) (name : Text) (attributes : List XmlAttribute) :
    Except Text (SheetState × Bool) :=
  match tagOf name with
  | some .c =>
    if s.currentRow.isSome then
      (attrValue attributes (lit "r")).map fun r => (s.emptyCell budget.maxColumns r, true)
    else .ok (s, true)
  | some .f => if sink.isSome then s.onCell (emptyFormula attributes) else .ok (s, true)
  | some .row | some .v | some .t | none => .ok (s, true)

/-- One event, with the flag that the loop goes on. -/
def sheetStep (s : SheetState) : XmlEvent → Except Text (SheetState × Bool)
  | .start name attributes => startElement budget sink s name attributes
  | .stop name => stopElement sink s name
  | .empty name attributes => emptyElement budget sink s name attributes
  | .text raw => s.onCell fun cell => cellText cell raw
  | .generalRef name => s.onCell fun cell => cellReference cell name
  | .other => .ok (s, true)

/-- The loop over the events, to the end of the part. -/
def readSheet (path : Text) :
    List (Except Text XmlEvent) → SheetState → Except Text SheetState
  | [], s => .ok s
  | .error e :: _, _ => .error (lit "worksheet " ++ path ++ lit " XML error: " ++ e)
  | .ok event :: rest, s => do
    let (s, more) ← sheetStep budget sink s event
    if more then readSheet path rest s else .ok s

end Reader

end DailyReport.OfficeParser
