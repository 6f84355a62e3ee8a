import DailyReport.Scanner.Decision

/-!
# The pieces of a parsed text

The content units of a parsed text are cut into pieces: a long text is split behind its lines and
sentences, everything else stays whole, and a sentence that is still too long is left out
(`pieces`).

* `splitUnit_text` : the pieces of a split text are the text;
* `mem_pieces` : **every piece stands in the content**, is not empty and has the kind of its unit.
-/

namespace DailyReport.Excerpts

open Lib

/-- Characters of a round, and of the longest text that is not split. -/
def roundTarget : ℕ := 512

/-- Characters of the first excerpt. -/
def firstTarget : ℕ := 256

/-- A part of a parsed text that is taken or left as a whole. -/
structure Piece where
  text : Text
  kind : ContentUnitKind
  ranges : List SourceRange
  deriving DecidableEq

/-- The kind carries content of its own. -/
def useful : ContentUnitKind → Bool
  | .heading | .tableHeader | .unit | .placeholder => false
  | _ => true

/-- The kind is a row, which is never split. -/
def isRow : ContentUnitKind → Bool
  | .tableRow | .total => true
  | _ => false

/-- A line or a sentence ends with the character. -/
def endsSentence (c : Char) : Bool :=
  c == '\n' || c == '。' || c == '！' || c == '？'

/-- A range of the unit's own text, cut down to the characters of one of its pieces. -/
def pieceRange (unit : ContentUnit) (charFrom charTo : ℕ) (range : SourceRange) : SourceRange :=
  if range.unit = .textChar ∧ range.stop - range.start = unit.textEnd - unit.textStart then
    { range with start := range.start + charFrom, stop := range.start + charTo }
  else range

/-- Split the text of a unit behind its lines and sentences.  `current` has been read since
character `charFrom`, where the piece begins; the rest at the end keeps the ranges of the unit. -/
def splitUnit (unit : ContentUnit) : ℕ → Text → Text → List Piece
  | _, current, [] => if current = [] then [] else [⟨current, unit.kind, unit.ranges⟩]
  | charFrom, current, c :: rest =>
    if endsSentence c then
      ⟨current ++ [c], unit.kind,
        unit.ranges.map (pieceRange unit charFrom (charFrom + (current ++ [c]).length))⟩ ::
        splitUnit unit (charFrom + (current ++ [c]).length) [] rest
    else splitUnit unit charFrom (current ++ [c]) rest

/-- The text of a unit. -/
def unitText (content : Text) (unit : ContentUnit) : Text :=
  (content.drop unit.textStart).take (unit.textEnd - unit.textStart)

/-- The text of the unit is split. -/
def splits (content : Text) (unit : ContentUnit) : Bool :=
  decide (countChars (unitText content unit) > roundTarget) && useful unit.kind &&
    !isRow unit.kind

/-- The pieces of one unit; a unit that is empty or leaves the content has none. -/
def unitPieces (content : Text) (unit : ContentUnit) : List Piece :=
  if unit.textEnd > content.length ∨ unit.textStart ≥ unit.textEnd then []
  else if splits content unit then splitUnit unit 0 [] (unitText content unit)
  else [⟨unitText content unit, unit.kind, unit.ranges⟩]

/-- The units of the content; a content without units is one text. -/
def contentUnits (item : ContextFileEvidence) : List ContentUnit :=
  match item.evidenceAudit.bind ParsedContentAudit.contentUnits with
  | some units => units
  | none =>
    if item.content = [] then []
    else [⟨lit "unknown", .text, 0, item.content.length, []⟩]

/-- The piece is short enough, or of a kind that may be longer. -/
def Piece.kept (piece : Piece) : Bool :=
  decide (countChars piece.text ≤ roundTarget) || !useful piece.kind || isRow piece.kind

/-- All pieces that the units of the content are split into. -/
def contentPieces (item : ContextFileEvidence) : List Piece :=
  (contentUnits item).flatMap (unitPieces item.content)

def pieces (item : ContextFileEvidence) : List Piece :=
  if item.evidenceAudit.any (fun audit => audit.usableChars == some 0) then []
  else (contentPieces item).filter Piece.kept

/-! ### Splitting -/

/-- **The pieces of a split text are the text.** -/
theorem splitUnit_text (unit : ContentUnit) (charFrom : ℕ) (current rest : Text) :
    ((splitUnit unit charFrom current rest).map Piece.text).flatten = current ++ rest := by
  induction rest generalizing charFrom current with
  | nil =>
    by_cases h : current = []
    · simp [splitUnit, h]
    · simp [splitUnit, h]
  | cons c rest ih =>
    unfold splitUnit
    split_ifs
    · simp [ih]
    · simp [ih]

/-- What every piece of a split text has. -/
theorem mem_splitUnit {unit : ContentUnit} {charFrom : ℕ} {current rest : Text} {piece : Piece}
    (h : piece ∈ splitUnit unit charFrom current rest) :
    piece.kind = unit.kind ∧ piece.text ≠ [] ∧ piece.text <:+: current ++ rest ∧
      ∃ f : SourceRange → SourceRange, piece.ranges = unit.ranges.map f ∧
        ∀ range, f range = range ∨ ∃ charFrom charTo, charFrom < charTo ∧
          f range = pieceRange unit charFrom charTo range := by
  induction rest generalizing charFrom current with
  | nil =>
    by_cases hnil : current = []
    · simp [splitUnit, hnil] at h
    · simp only [splitUnit, hnil, if_false, List.mem_singleton] at h
      subst h
      exact ⟨rfl, hnil, by simp, id, by simp, fun range => Or.inl rfl⟩
  | cons c rest ih =>
    unfold splitUnit at h
    split_ifs at h with hend
    · rcases List.mem_cons.1 h with rfl | h
      · refine ⟨rfl, by simp, ⟨[], rest, by simp⟩, _, rfl, fun range => Or.inr ⟨_, _, ?_, rfl⟩⟩
        simp
      · obtain ⟨hkind, hne, hinfix, hranges⟩ := ih h
        refine ⟨hkind, hne, hinfix.trans ?_, hranges⟩
        exact ⟨current ++ [c], [], by simp⟩
    · obtain ⟨hkind, hne, hinfix, hranges⟩ := ih h
      exact ⟨hkind, hne, by simpa using hinfix, hranges⟩

theorem isInfix_unitText (content : Text) (unit : ContentUnit) : unitText content unit <:+: content :=
  (List.take_prefix _ _).isInfix.trans (List.drop_suffix _ _).isInfix

theorem length_unitText {content : Text} {unit : ContentUnit}
    (hend : unit.textEnd ≤ content.length) (hstart : unit.textStart < unit.textEnd) :
    (unitText content unit).length = unit.textEnd - unit.textStart := by
  rw [unitText, List.length_take, List.length_drop]
  omega

/-- **What every piece of a unit has**: a text of the content, and the kind and the ranges of the
unit, some of them cut down. -/
theorem mem_unitPieces {content : Text} {unit : ContentUnit} {piece : Piece}
    (h : piece ∈ unitPieces content unit) :
    piece.kind = unit.kind ∧ piece.text ≠ [] ∧ piece.text <:+: content ∧
      ∃ f : SourceRange → SourceRange, piece.ranges = unit.ranges.map f ∧
        ∀ range, f range = range ∨ ∃ charFrom charTo, charFrom < charTo ∧
          f range = pieceRange unit charFrom charTo range := by
  unfold unitPieces at h
  split_ifs at h with hout hsplit
  · cases h
  · obtain ⟨hkind, hne, hinfix, hranges⟩ := mem_splitUnit h
    exact ⟨hkind, hne, hinfix.trans (isInfix_unitText content unit), hranges⟩
  · rw [not_or, Nat.not_lt, Nat.not_le] at hout
    obtain rfl := List.mem_singleton.1 h
    have hlen := length_unitText hout.1 hout.2
    refine ⟨rfl, ?_, isInfix_unitText content unit, id, by simp, fun range => Or.inl rfl⟩
    intro hnil
    replace hnil : unitText content unit = [] := hnil
    rw [hnil, List.length_nil] at hlen
    omega

/-- Every piece comes from a unit of the content. -/
theorem mem_pieces {item : ContextFileEvidence} {piece : Piece} (h : piece ∈ pieces item) :
    ∃ unit ∈ contentUnits item, piece ∈ unitPieces item.content unit := by
  unfold pieces at h
  split_ifs at h
  · cases h
  · exact List.mem_flatMap.1 (List.mem_filter.1 h).1

theorem text_ne_nil {item : ContextFileEvidence} {piece : Piece} (h : piece ∈ pieces item) :
    piece.text ≠ [] := by
  obtain ⟨unit, -, hunit⟩ := mem_pieces h
  exact (mem_unitPieces hunit).2.1

end DailyReport.Excerpts
