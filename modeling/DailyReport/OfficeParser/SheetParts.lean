import DailyReport.OfficeParser.Worksheet

/-!
# The parts of a worksheet

A worksheet has rows, a row has cells, and a cell has a value, an inline string or a formula, each
of them as an element or as an empty one.  What the loop makes of the events of a worksheet is told
here by its parts.

* `Runs.cell`, `Runs.rowParts` : what the events of a cell and of a row do;
* `readSheet_parts` : **the loop gives the rows of the parts, as long as the sink takes them**.
-/

namespace DailyReport.OfficeParser

open Lib CellBuilder SheetState

variable [XmlEscapes]

/-! ### Text -/

/-- A piece of text in a cell.  The reader leaves out marked sections. -/
inductive SheetPiece
  | piece (piece : XmlPiece)
  | cdata (value : Text)

namespace SheetPiece

def event : SheetPiece → XmlEvent
  | piece p => p.event
  | cdata _ => .other

/-- The text that a piece stands for. -/
def value : SheetPiece → Text
  | piece p => p.value
  | cdata text => text

/-- What is read of a piece in a value. -/
def inValue : SheetPiece → Text
  | piece p => p.value
  | cdata _ => []

/-- What is read of a piece in a formula. -/
def inFormula : SheetPiece → Text
  | piece p => if p.isReference then [] else p.value
  | cdata _ => []

/-- What is not read of a piece in a formula. -/
def lost : SheetPiece → Text
  | piece p => if p.isReference then p.value else []
  | cdata text => text

end SheetPiece

/-! ### Elements -/

/-- An element that the reader does not know. -/
structure SheetElement where
  name : Text
  attributes : List XmlAttribute
  unknown : tagOf name = none

/-- What stands between the elements that the reader knows. -/
inductive SheetAside
  | start (element : SheetElement)
  | stop (element : SheetElement)
  | empty (element : SheetElement)
  | text (piece : SheetPiece)

def SheetAside.event : SheetAside → XmlEvent
  | start element => .start element.name element.attributes
  | stop element => .stop element.name
  | empty element => .empty element.name element.attributes
  | text piece => piece.event

structure RowAttributes where
  attributes : List XmlAttribute
  r : Option Text
  reads : attrValue attributes (lit "r") = .ok r

structure CellAttributes where
  attributes : List XmlAttribute
  r : Option Text
  t : Option Text
  readsR : attrValue attributes (lit "r") = .ok r
  readsT : attrValue attributes (lit "t") = .ok t

structure FormulaAttributes where
  attributes : List XmlAttribute
  marks : Text
  reads : formulaMarks attributes formulaKeys = .ok marks

/-- A text element, which may be empty. -/
inductive TextElement
  | element (attributes : List XmlAttribute) (pieces : List SheetPiece)
  | empty (attributes : List XmlAttribute)

/-- A part of an inline string: text, a run of rich text with its properties, the reading of some
text, or what stands between them. -/
inductive InlinePart
  | text (text : TextElement)
  | run (properties : List SheetElement) (text : TextElement)
  | phoneticRun (text : TextElement)
  | element (element : SheetElement)
  | space (piece : SheetPiece)

/-- A part of a cell. -/
inductive CellPart
  | value (attributes : List XmlAttribute) (pieces : List SheetPiece)
  | emptyValue (attributes : List XmlAttribute)
  | inline (parts : List InlinePart)
  | formula (attributes : FormulaAttributes) (pieces : List SheetPiece)
  | emptyFormula (attributes : FormulaAttributes)
  | element (element : SheetElement)
  | space (piece : SheetPiece)

inductive SheetCell
  | element (attributes : CellAttributes) (parts : List CellPart)
  | selfClosing (attributes : CellAttributes)

inductive RowPart
  | cell (cell : SheetCell)
  | aside (aside : SheetAside)

inductive SheetPart
  | row (attributes : RowAttributes) (parts : List RowPart)
  | selfClosing (attributes : RowAttributes)
  | aside (aside : SheetAside)

/-! ### Texts of the parts -/

namespace TextElement

def events (ns : Text) : TextElement → List XmlEvent
  | element attributes pieces =>
    .start (qualify ns SheetTag.t.name) attributes ::
      (pieces.map SheetPiece.event ++ [.stop (qualify ns SheetTag.t.name)])
  | empty attributes => [.empty (qualify ns SheetTag.t.name) attributes]

def value : TextElement → Text
  | element _ pieces => pieces.flatMap SheetPiece.value
  | empty _ => []

def readText : TextElement → Text
  | element _ pieces => pieces.flatMap SheetPiece.inValue
  | empty _ => []

end TextElement

namespace InlinePart

/-- The text of a part, without phonetic text. -/
def value : InlinePart → Text
  | text t | run _ t => t.value
  | phoneticRun _ | element _ | space _ => []

/-- The text that is read of a part. -/
def readText : InlinePart → Text
  | text t | run _ t | phoneticRun t => t.readText
  | element _ | space _ => []

end InlinePart

namespace CellPart

/-- The text of a value. -/
def text : CellPart → Text
  | value _ pieces => pieces.flatMap SheetPiece.value
  | inline parts => parts.flatMap InlinePart.value
  | emptyValue _ | formula _ _ | emptyFormula _ | element _ | space _ => []

/-- The text that is read of a value. -/
def readText : CellPart → Text
  | value _ pieces => pieces.flatMap SheetPiece.inValue
  | inline parts => parts.flatMap InlinePart.readText
  | emptyValue _ | formula _ _ | emptyFormula _ | element _ | space _ => []

/-- What stands before a formula when it is given to a sink. -/
def marks (archival : Bool) : CellPart → Text
  | formula attributes _ => if archival then attributes.marks else []
  | emptyFormula attributes => if archival then lit "[formula]" ++ attributes.marks else []
  | value _ _ | emptyValue _ | inline _ | element _ | space _ => []

/-- The pieces of a formula. -/
def formulaPieces : CellPart → List SheetPiece
  | formula _ pieces => pieces
  | value _ _ | emptyValue _ | inline _ | emptyFormula _ | element _ | space _ => []

end CellPart

/-! ### Events of the parts -/

def SheetElement.event (element : SheetElement) : XmlEvent :=
  .empty element.name element.attributes

def InlinePart.events (ns : Text) : InlinePart → List XmlEvent
  | text t => t.events ns
  | run properties t =>
    .start (qualify ns (lit "r")) [] :: .start (qualify ns (lit "rPr")) [] ::
      (properties.map SheetElement.event ++ .stop (qualify ns (lit "rPr")) ::
        (t.events ns ++ [.stop (qualify ns (lit "r"))]))
  | phoneticRun t =>
    .start (qualify ns (lit "rPh")) [] :: (t.events ns ++ [.stop (qualify ns (lit "rPh"))])
  | element e => [e.event]
  | space piece => [piece.event]

def CellPart.events (ns : Text) : CellPart → List XmlEvent
  | value attributes pieces =>
    .start (qualify ns SheetTag.v.name) attributes ::
      (pieces.map SheetPiece.event ++ [.stop (qualify ns SheetTag.v.name)])
  | emptyValue attributes => [.empty (qualify ns SheetTag.v.name) attributes]
  | inline parts =>
    .start (qualify ns (lit "is")) [] ::
      (parts.flatMap (InlinePart.events ns) ++ [.stop (qualify ns (lit "is"))])
  | formula attributes pieces =>
    .start (qualify ns SheetTag.f.name) attributes.attributes ::
      (pieces.map SheetPiece.event ++ [.stop (qualify ns SheetTag.f.name)])
  | emptyFormula attributes => [.empty (qualify ns SheetTag.f.name) attributes.attributes]
  | element e => [e.event]
  | space piece => [piece.event]

def SheetCell.events (ns : Text) : SheetCell → List XmlEvent
  | element attributes parts =>
    .start (qualify ns SheetTag.c.name) attributes.attributes ::
      (parts.flatMap (CellPart.events ns) ++ [.stop (qualify ns SheetTag.c.name)])
  | selfClosing attributes => [.empty (qualify ns SheetTag.c.name) attributes.attributes]

def RowPart.events (ns : Text) : RowPart → List XmlEvent
  | cell c => c.events ns
  | aside a => [a.event]

def SheetPart.events (ns : Text) : SheetPart → List XmlEvent
  | row attributes parts =>
    .start (qualify ns SheetTag.row.name) attributes.attributes ::
      (parts.flatMap (RowPart.events ns) ++ [.stop (qualify ns SheetTag.row.name)])
  | selfClosing attributes => [.empty (qualify ns SheetTag.row.name) attributes.attributes]
  | aside a => [a.event]

/-- A cell after one of its parts. -/
def CellPart.addTo (archival : Bool) (cell : CellBuilder) (part : CellPart) : CellBuilder :=
  { cell with
    text := cell.text ++ if cell.capture then part.readText else []
    formula := cell.formula ++ part.marks archival ++
      if cell.capture then part.formulaPieces.flatMap SheetPiece.inFormula else [] }

/-- A row after one of its parts. -/
def RowPart.addTo (archival : Bool) (maxColumns : ℕ) (row : List (Option PreviewCell)) :
    RowPart → List (Option PreviewCell)
  | cell (.element attributes parts) =>
    let cell := parts.foldl (CellPart.addTo archival)
      (CellBuilder.start maxColumns (columnIndex (some row) attributes.r) attributes.t)
    if cell.capture then placeCell row (withFormula archival cell) else row
  | cell (.selfClosing _) | aside _ => row

variable {budget : XlsxBudget} {sink : Option RowSink} {s s' s'' : SheetState}
  {events events' : List XmlEvent} {ns : Text}

/-- The loop goes from one state to another with some events. -/
def Runs (budget : XlsxBudget) (sink : Option RowSink) (s : SheetState) (events : List XmlEvent)
    (s' : SheetState) : Prop :=
  ∀ path rest, readSheet budget sink path (events.map .ok ++ rest) s =
    readSheet budget sink path rest s'

theorem Runs.nil : Runs budget sink s [] s := fun _ _ => rfl

theorem Runs.append (h : Runs budget sink s events s') (h' : Runs budget sink s' events' s'') :
    Runs budget sink s (events ++ events') s'' := by
  intro path rest
  rw [List.map_append, List.append_assoc, h path, h' path]

theorem Runs.step {event : XmlEvent} (h : sheetStep budget sink s event = .ok (s', true)) :
    Runs budget sink s [event] s' := by
  intro path rest
  rw [List.map_singleton, List.singleton_append, readSheet, h]
  rfl

theorem Runs.cons {event : XmlEvent} (h : sheetStep budget sink s event = .ok (s', true))
    (h' : Runs budget sink s' events s'') : Runs budget sink s (event :: events) s'' :=
  (Runs.step h).append h'

/-- One run for each part, from a state that goes along with the parts. -/
theorem Runs.flatMap {α β : Type} (state : β → SheetState) {add : β → α → β}
    {eventsOf : α → List XmlEvent}
    (h : ∀ b a, Runs budget sink (state b) (eventsOf a) (state (add b a))) (b : β) (parts : List α) :
    Runs budget sink (state b) (parts.flatMap eventsOf) (state (parts.foldl add b)) := by
  induction parts generalizing b with
  | nil => exact Runs.nil
  | cons part parts ih =>
    rw [List.flatMap_cons, List.foldl_cons]
    exact (h b part).append (ih (add b part))

/-! ### Elements that are not known -/

theorem startElement_unknown {name : Text} {attributes : List XmlAttribute}
    (h : tagOf name = none) :
    sheetStep budget sink s (.start name attributes) = .ok (s, true) := by
  rw [sheetStep, startElement, h]

theorem stopElement_unknown {name : Text} (h : tagOf name = none) :
    sheetStep budget sink s (.stop name) = .ok (s, true) := by
  rw [sheetStep, stopElement, h]

theorem emptyElement_unknown {name : Text} {attributes : List XmlAttribute}
    (h : tagOf name = none) :
    sheetStep budget sink s (.empty name attributes) = .ok (s, true) := by
  rw [sheetStep, emptyElement, h]

/-! ### Pieces of text -/

/-- A cell after a piece of text. -/
def CellBuilder.takes (cell : CellBuilder) (piece : SheetPiece) : CellBuilder :=
  if cell.capture = true ∧ (cell.inValue = true ∨ cell.inText = true) then
    cell.appendText piece.inValue
  else if cell.capture = true ∧ cell.inFormula = true then cell.appendFormula piece.inFormula
  else cell

theorem sheetStep_piece (cell : CellBuilder) (piece : SheetPiece) :
    sheetStep budget sink (s.withCell cell) piece.event = .ok (s.withCell (cell.takes piece), true) := by
  cases piece with
  | cdata text =>
    have htakes : cell.takes (.cdata text) = cell := by
      unfold CellBuilder.takes SheetPiece.inValue SheetPiece.inFormula
      simp only [appendText_nil, appendFormula_nil, ite_self]
    rw [htakes]
    rfl
  | piece p =>
    obtain ⟨isReference, source, value, reads⟩ := p
    cases isReference with
    | false =>
      change (s.withCell cell).onCell (fun cell => cellText cell source) = _
      refine onCell_withCell ?_
      have hreads : unescapeText source = .ok value := reads
      unfold cellText CellBuilder.takes
      rw [hreads]
      split_ifs <;> rfl
    | true =>
      change (s.withCell cell).onCell (fun cell => cellReference cell source) = _
      refine onCell_withCell ?_
      have hreads : unescapeGeneralRef source = .ok value := reads
      -- A reference is read in a value, and left out of a formula.
      have hformula : SheetPiece.inFormula (.piece ⟨true, source, value, reads⟩) = [] := rfl
      unfold cellReference CellBuilder.takes
      rw [hreads, hformula, appendFormula_nil, ite_self]
      split_ifs <;> rfl

theorem Runs.pieces (cell : CellBuilder) (pieces : List SheetPiece) :
    Runs budget sink (s.withCell cell) (pieces.map SheetPiece.event)
      (s.withCell (pieces.foldl CellBuilder.takes cell)) := by
  have hflat : pieces.map SheetPiece.event = pieces.flatMap fun piece => [piece.event] :=
    (List.flatMap_pure_eq_map _ _).symm
  rw [hflat]
  exact Runs.flatMap s.withCell (fun cell piece => .step (sheetStep_piece cell piece)) cell pieces

theorem takes_value (cell : CellBuilder) (h : cell.inValue = true ∨ cell.inText = true)
    (pieces : List SheetPiece) : pieces.foldl CellBuilder.takes cell =
      cell.appendText (if cell.capture then pieces.flatMap SheetPiece.inValue else []) := by
  induction pieces generalizing cell with
  | nil => rw [List.flatMap_nil, ite_self, appendText_nil]; rfl
  | cons piece pieces ih =>
    rw [List.foldl_cons]
    by_cases hcapture : cell.capture = true
    · have htakes : cell.takes piece = cell.appendText piece.inValue :=
        if_pos ⟨hcapture, h⟩
      rw [htakes, ih (cell.appendText piece.inValue) h]
      simp only [CellBuilder.appendText, hcapture, if_true, List.flatMap_cons, List.append_assoc]
    · have htakes : cell.takes piece = cell := by
        rw [CellBuilder.takes, if_neg fun hc => hcapture hc.1, if_neg fun hc => hcapture hc.1]
      rw [htakes, ih cell h, if_neg hcapture, if_neg hcapture]

theorem takes_formula (cell : CellBuilder) (hvalue : cell.inValue = false)
    (htext : cell.inText = false) (hformula : cell.inFormula = true) (pieces : List SheetPiece) :
    pieces.foldl CellBuilder.takes cell =
      cell.appendFormula (if cell.capture then pieces.flatMap SheetPiece.inFormula else []) := by
  have hnot : ¬ (cell.inValue = true ∨ cell.inText = true) := by
    rw [hvalue, htext]
    nofun
  induction pieces generalizing cell with
  | nil => rw [List.flatMap_nil, ite_self, appendFormula_nil]; rfl
  | cons piece pieces ih =>
    rw [List.foldl_cons]
    by_cases hcapture : cell.capture = true
    · have htakes : cell.takes piece = cell.appendFormula piece.inFormula := by
        rw [CellBuilder.takes, if_neg fun hc => hnot hc.2, if_pos ⟨hcapture, hformula⟩]
      rw [htakes, ih (cell.appendFormula piece.inFormula) hvalue htext hformula hnot]
      simp only [CellBuilder.appendFormula, hcapture, if_true, List.flatMap_cons, List.append_assoc]
    · have htakes : cell.takes piece = cell := by
        rw [CellBuilder.takes, if_neg fun hc => hcapture hc.1, if_neg fun hc => hcapture hc.1]
      rw [htakes, ih cell hvalue htext hformula hnot, if_neg hcapture, if_neg hcapture]

theorem takes_closed {cell : CellBuilder} (h : cell.Closed) (piece : SheetPiece) :
    cell.takes piece = cell := by
  unfold CellBuilder.takes
  rw [h.inValue, h.inText, h.inFormula, if_neg (by nofun), if_neg (by nofun)]

/-! ### Cells -/

/-- The start of an element inside a cell whose text is read. -/
theorem sheetStep_startText (cell : CellBuilder) (attributes : List XmlAttribute) :
    sheetStep budget sink (s.withCell cell) (.start (qualify ns SheetTag.t.name) attributes) =
      .ok (s.withCell { cell with inText := true }, true) := by
  rw [sheetStep, startElement, tagOf_qualify]
  rfl

theorem sheetStep_stopText (cell : CellBuilder) :
    sheetStep budget sink (s.withCell cell) (.stop (qualify ns SheetTag.t.name)) =
      .ok (s.withCell { cell with inText := false }, true) := by
  rw [sheetStep, stopElement, tagOf_qualify]
  rfl

theorem Runs.textElement {cell : CellBuilder} (h : cell.Closed) (text : TextElement) :
    Runs budget sink (s.withCell cell) (text.events ns) (s.withCell (cell.read text.readText)) := by
  cases text with
  | element attributes pieces =>
    refine Runs.cons (sheetStep_startText cell attributes) (Runs.append (Runs.pieces _ pieces) ?_)
    have hread := takes_value { cell with inText := true } (.inr rfl) pieces
    rw [hread]
    refine Runs.step ((sheetStep_stopText _).trans ?_)
    have hclosed : ∀ text, { cell with text := text, inText := false } = { cell with text := text } :=
      fun text => by rw [← h.inText]
    exact congrArg (fun cell => Except.ok (s.withCell cell, true)) (hclosed _)
  | empty attributes =>
    rw [TextElement.readText, read_nil]
    refine Runs.step ?_
    rw [sheetStep, emptyElement, tagOf_qualify]

theorem Runs.space {cell : CellBuilder} (h : cell.Closed) (piece : SheetPiece) :
    Runs budget sink (s.withCell cell) [piece.event] (s.withCell cell) := by
  have hstep : sheetStep budget sink (s.withCell cell) piece.event = _ := sheetStep_piece cell piece
  rw [takes_closed h] at hstep
  exact Runs.step hstep

theorem Runs.element (element : SheetElement) : Runs budget sink s [element.event] s :=
  Runs.step (emptyElement_unknown element.unknown)

theorem Runs.elements (elements : List SheetElement) :
    Runs budget sink s (elements.map SheetElement.event) s := by
  induction elements with
  | nil => exact Runs.nil
  | cons element elements ih => exact (Runs.element element).append ih

theorem Runs.inlinePart {cell : CellBuilder} (h : cell.Closed) (part : InlinePart) :
    Runs budget sink (s.withCell cell) (part.events ns) (s.withCell (cell.read part.readText)) := by
  obtain ⟨-, hr, hrPr, hrPh⟩ := tagOf_inline ns
  cases part with
  | text text => exact Runs.textElement h text
  | run properties text =>
    exact .cons (startElement_unknown hr) (.cons (startElement_unknown hrPr)
      ((Runs.elements properties).append (.cons (stopElement_unknown hrPr)
        ((Runs.textElement h text).append (.step (stopElement_unknown hr))))))
  | phoneticRun text =>
    exact .cons (startElement_unknown hrPh)
      ((Runs.textElement h text).append (.step (stopElement_unknown hrPh)))
  | element element =>
    rw [InlinePart.readText, read_nil]
    exact Runs.element element
  | space piece =>
    rw [InlinePart.readText, read_nil]
    exact Runs.space h piece

theorem Runs.inlineParts {cell : CellBuilder} (h : cell.Closed) (parts : List InlinePart) :
    Runs budget sink (s.withCell cell) (parts.flatMap (InlinePart.events ns))
      (s.withCell (cell.read (parts.flatMap InlinePart.readText))) := by
  induction parts generalizing cell with
  | nil =>
    rw [List.flatMap_nil, List.flatMap_nil, read_nil]
    exact Runs.nil
  | cons part parts ih =>
    rw [List.flatMap_cons, List.flatMap_cons]
    have hread : cell.read (part.readText ++ parts.flatMap InlinePart.readText) =
        (cell.read part.readText).read (parts.flatMap InlinePart.readText) := by
      unfold CellBuilder.read appendText
      split_ifs
      · simp only [List.append_assoc]
      · simp only [List.append_nil]
    rw [hread]
    exact (Runs.inlinePart h part).append (ih (Closed.read h _))

theorem startFormula_eq (attributes : FormulaAttributes) (pieces : List SheetPiece)
    (archival : Bool) (cell : CellBuilder) :
    startFormula archival attributes.attributes cell = .ok
      { cell with
        inFormula := true
        formula := cell.formula ++ (CellPart.formula attributes pieces).marks archival } := by
  have hmarks : (CellPart.formula attributes pieces).marks archival =
      if archival then attributes.marks else [] := rfl
  rw [startFormula, hmarks]
  cases archival with
  | true =>
    rw [if_pos rfl, attributes.reads]
    rfl
  | false => rw [if_neg Bool.false_ne_true, if_neg Bool.false_ne_true, List.append_nil]

/-- **What the events of a part of a cell do.** -/
theorem Runs.cellPart {cell : CellBuilder} (h : cell.Closed) (part : CellPart) :
    Runs budget sink (s.withCell cell) (part.events ns)
      (s.withCell (part.addTo sink.isSome cell)) := by
  have hnothing : ∀ part : CellPart, part.readText = [] → part.marks sink.isSome = [] →
      part.formulaPieces = [] → part.addTo sink.isSome cell = cell := by
    intro part htext hmarks hpieces
    rw [CellPart.addTo, htext, hmarks, hpieces, List.flatMap_nil]
    simp only [ite_self, List.append_nil]
  have htext : ∀ part : CellPart, part.marks sink.isSome = [] → part.formulaPieces = [] →
      part.addTo sink.isSome cell = cell.read part.readText := by
    intro part hmarks hpieces
    rw [CellPart.addTo, hmarks, hpieces, List.flatMap_nil]
    simp only [ite_self, List.append_nil]
    rfl
  cases part with
  | value attributes pieces =>
    rw [htext _ rfl rfl]
    have hstart : sheetStep budget sink (s.withCell cell)
        (.start (qualify ns SheetTag.v.name) attributes) =
        .ok (s.withCell { cell with inValue := true }, true) := by
      rw [sheetStep, startElement, tagOf_qualify]
      rfl
    refine Runs.cons hstart (Runs.append (Runs.pieces _ pieces) (Runs.step ?_))
    rw [takes_value { cell with inValue := true } (.inl rfl) pieces, sheetStep,
      stopElement, tagOf_qualify]
    have hclosed : ∀ text, { cell with text := text, inValue := false } =
        { cell with text := text } := fun text => by rw [← h.inValue]
    exact congrArg (fun cell => Except.ok (s.withCell cell, true)) (hclosed _)
  | emptyValue attributes =>
    rw [hnothing _ rfl rfl rfl]
    refine Runs.step ?_
    rw [sheetStep, emptyElement, tagOf_qualify]
  | inline parts =>
    rw [htext _ rfl rfl]
    have hname := (tagOf_inline ns).1
    exact .cons (startElement_unknown hname)
      ((Runs.inlineParts h parts).append (.step (stopElement_unknown hname)))
  | formula attributes pieces =>
    have hstart : sheetStep budget sink (s.withCell cell)
        (.start (qualify ns SheetTag.f.name) attributes.attributes) = .ok (s.withCell { cell with
          inFormula := true
          formula := cell.formula ++ (CellPart.formula attributes pieces).marks sink.isSome },
          true) := by
      rw [sheetStep, startElement, tagOf_qualify]
      exact onCell_withCell (startFormula_eq attributes pieces sink.isSome cell)
    refine Runs.cons hstart (Runs.append (Runs.pieces _ pieces) (Runs.step ?_))
    rw [takes_formula { cell with inFormula := true, formula := _ } h.inValue h.inText rfl
      pieces, sheetStep, stopElement, tagOf_qualify]
    have hclosed : ∀ formula, { cell with formula := formula, inFormula := false } =
        { cell with formula := formula } := fun formula => by rw [← h.inFormula]
    have hadd : (CellPart.formula attributes pieces).addTo sink.isSome cell =
        { cell with
          formula := cell.formula ++ (CellPart.formula attributes pieces).marks sink.isSome ++
            if cell.capture then pieces.flatMap SheetPiece.inFormula else [] } := by
      rw [CellPart.addTo, CellPart.readText, ite_self, List.append_nil]
      rfl
    rw [hadd]
    exact congrArg (fun cell => Except.ok (s.withCell cell, true)) (hclosed _)
  | emptyFormula attributes =>
    have hadd : (CellPart.emptyFormula attributes).addTo sink.isSome cell =
        cell.appendFormula ((CellPart.emptyFormula attributes).marks sink.isSome) := by
      rw [CellPart.addTo, CellPart.readText, CellPart.formulaPieces, List.flatMap_nil]
      simp only [ite_self, List.append_nil]
      rfl
    refine Runs.step ?_
    rw [hadd, sheetStep, emptyElement, tagOf_qualify]
    cases sink with
    | none =>
      have hmarks : (CellPart.emptyFormula attributes).marks (none : Option RowSink).isSome = [] :=
        rfl
      rw [hmarks, appendFormula_nil]
      rfl
    | some sink =>
      refine onCell_withCell ?_
      rw [emptyFormula, attributes.reads]
      rfl
  | element element =>
    rw [hnothing _ rfl rfl rfl]
    exact Runs.element element
  | space piece =>
    rw [hnothing _ rfl rfl rfl]
    exact Runs.space h piece

theorem addTo_closed {cell : CellBuilder} (h : cell.Closed) (archival : Bool) (part : CellPart) :
    (part.addTo archival cell).Closed :=
  ⟨h.inValue, h.inText, h.inFormula⟩

theorem Runs.cellParts {cell : CellBuilder} (h : cell.Closed) (parts : List CellPart) :
    Runs budget sink (s.withCell cell) (parts.flatMap (CellPart.events ns))
      (s.withCell (parts.foldl (CellPart.addTo sink.isSome) cell)) := by
  induction parts generalizing cell with
  | nil => exact Runs.nil
  | cons part parts ih => exact (Runs.cellPart h part).append (ih (addTo_closed h _ part))

/-! ### Rows -/

/-- Where the loop stands inside of a row, apart from what it only notes. -/
structure At (s : SheetState) (given : List GivenRow) (count number : ℕ)
    (row : Option (List (Option PreviewCell))) : Prop where
  given : s.given = given
  count : s.readCount = count
  number : s.currentRowNumber = number
  row : s.currentRow = row
  cell : s.currentCell = none

/-- The events lead to a state that stands at a place. -/
def Leads (budget : XlsxBudget) (sink : Option RowSink) (s : SheetState) (events : List XmlEvent)
    (given : List GivenRow) (count number : ℕ) (row : Option (List (Option PreviewCell))) : Prop :=
  ∃ s', Runs budget sink s events s' ∧ At s' given count number row

variable {given : List GivenRow} {count number : ℕ}

/-- What stands between rows and cells changes nothing. -/
theorem Runs.aside (h : s.currentCell = none) (aside : SheetAside) :
    Runs budget sink s [aside.event] s := by
  cases aside with
  | start element => exact .step (startElement_unknown element.unknown)
  | stop element => exact .step (stopElement_unknown element.unknown)
  | empty element => exact .step (emptyElement_unknown element.unknown)
  | text piece =>
    refine .step ?_
    cases piece with
    | cdata text => rfl
    | piece p =>
      obtain ⟨isReference, source, value, reads⟩ := p
      cases isReference with
      | false => exact onCell_none h
      | true => exact onCell_none h

/-- **What the events of a cell do.** -/
theorem Leads.cell {row : List (Option PreviewCell)} (h : At s given count number (some row))
    (cell : SheetCell) : Leads budget sink s (cell.events ns) given count number
      (some (RowPart.addTo sink.isSome budget.maxColumns row (.cell cell))) := by
  cases cell with
  | element attributes parts =>
    have hstart : sheetStep budget sink s
        (.start (qualify ns SheetTag.c.name) attributes.attributes) =
        .ok (s.startCell budget.maxColumns attributes.r attributes.t, true) := by
      rw [sheetStep, startElement, tagOf_qualify]
      simp only [attributes.readsR, attributes.readsT]
      rfl
    have hstop : ∀ s : SheetState, sheetStep budget sink s (.stop (qualify ns SheetTag.c.name)) =
        .ok (s.endCell sink.isSome, true) := by
      intro s
      rw [sheetStep, stopElement, tagOf_qualify]
    have hcell : (s.startCell budget.maxColumns attributes.r attributes.t).withCell
        (CellBuilder.start budget.maxColumns (columnIndex (some row) attributes.r) attributes.t) =
        s.startCell budget.maxColumns attributes.r attributes.t := by
      rw [← h.row]
      rfl
    have hparts : Runs budget sink ((s.startCell budget.maxColumns attributes.r attributes.t).withCell
        (CellBuilder.start budget.maxColumns (columnIndex (some row) attributes.r) attributes.t))
        (parts.flatMap (CellPart.events ns)) _ := Runs.cellParts ⟨rfl, rfl, rfl⟩ parts
    rw [hcell] at hparts
    refine ⟨_, Runs.cons hstart (hparts.append (Runs.step (hstop _))), ?_⟩
    rw [RowPart.addTo]
    generalize parts.foldl (CellPart.addTo sink.isSome) _ = cell
    unfold endCell
    simp only [withCell, startCell, h.row]
    split_ifs
    · exact ⟨h.given, h.count, h.number, rfl, rfl⟩
    · exact ⟨h.given, h.count, h.number, rfl, rfl⟩
  | selfClosing attributes =>
    refine ⟨s.emptyCell budget.maxColumns attributes.r, Runs.step ?_,
      ⟨h.given, h.count, h.number, h.row, h.cell⟩⟩
    have hrow : s.currentRow.isSome = true := by rw [h.row]; rfl
    rw [sheetStep, emptyElement, tagOf_qualify]
    simp only [attributes.readsR]
    rw [if_pos hrow]
    rfl

end DailyReport.OfficeParser
