import DailyReport.Lib.Except
import DailyReport.Lib.Text

/-!
# The events of an XML reader

A reader reports a document as a sequence of events: an element starts and ends, or is empty, and
its text comes in pieces, where a reference to a character is a piece of its own.  What a piece
stands for is a parameter (`XmlEscapes`).

* `localName_qualify` : a name is found behind its namespace;
* `attrValue_cons_of_ne` : an attribute is found behind others.
-/

namespace Lib

/-- An attribute as the reader finds it.  It may be malformed, and so may be its value. -/
abbrev XmlAttribute := Except Text (Text × Except Text Text)

inductive XmlEvent
  | start (name : Text) (attributes : List XmlAttribute)
  | stop (name : Text)
  | empty (name : Text) (attributes : List XmlAttribute)
  | text (raw : Text)
  | generalRef (name : Text)
  | other

/-! ### Names -/

/-- A name without its namespace. -/
def localName (name : Text) : Text := (name.reverse.takeWhile (· ≠ ':')).reverse

/-- A name in a namespace, where there is one. -/
def qualify (namespaceName name : Text) : Text :=
  if namespaceName = [] then name else namespaceName ++ ':' :: name

@[simp] theorem localName_qualify {namespaceName name : Text} (h : ':' ∉ name) :
    localName (qualify namespaceName name) = name := by
  have hall : ∀ c ∈ name.reverse, decide (c ≠ ':') = true := by
    intro c hc
    refine decide_eq_true fun heq => h ?_
    rw [← heq]
    exact List.mem_reverse.1 hc
  unfold localName qualify
  split_ifs
  · rw [List.takeWhile_eq_self_iff.2 hall, List.reverse_reverse]
  · rw [List.reverse_append, List.reverse_cons, List.append_assoc, List.takeWhile_append_of_pos hall,
      List.singleton_append, List.takeWhile_cons_of_neg (by decide), List.append_nil,
      List.reverse_reverse]

/-! ### Attributes -/

/-- The value of the first attribute of a name. -/
def attrValue (attributes : List XmlAttribute) (name : Text) : Except Text (Option Text) :=
  match attributes with
  | [] => .ok none
  | .error e :: _ => .error e
  | .ok (key, value) :: rest =>
    if localName key = name then value.map some else attrValue rest name

theorem attrValue_cons_of_ne {key name : Text} {value : Except Text Text}
    {rest : List XmlAttribute} (h : localName key ≠ name) :
    attrValue (.ok (key, value) :: rest) name = attrValue rest name := by
  rw [attrValue, if_neg h]

/-! ### Text -/

/-- What the escapes of a text stand for. -/
class XmlEscapes where
  /-- A raw text without its escapes, or the first of them that is malformed. -/
  unescape : Text → Except Text Text

variable [XmlEscapes]

/-- The text that a raw text stands for. -/
def unescapeText (raw : Text) : Except Text Text := XmlEscapes.unescape raw

/-- The text that a reference stands for. -/
def unescapeGeneralRef (name : Text) : Except Text Text :=
  XmlEscapes.unescape ('&' :: name ++ [';'])

/-- A piece of text that can be read: raw text, or a reference. -/
structure XmlPiece where
  isReference : Bool
  source : Text
  value : Text
  reads : (if isReference then unescapeGeneralRef source else unescapeText source) = .ok value

namespace XmlPiece

def event (piece : XmlPiece) : XmlEvent :=
  if piece.isReference then .generalRef piece.source else .text piece.source

/-- The text that some pieces stand for. -/
def valueOf (pieces : List XmlPiece) : Text := (pieces.map value).flatten

end XmlPiece

end Lib
