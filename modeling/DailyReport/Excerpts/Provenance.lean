import DailyReport.Excerpts.Pieces

/-!
# Where the pieces of a split text stand in the source

A piece of a split text carries the ranges of its unit, and a range of the unit's own text is cut
down to the piece.  The text behind the last boundary is the exception: it keeps the ranges of the
whole unit.

* `mem_splitUnit_cases` : a piece that ends with a boundary has its own ranges, and only the last
  one has those of the unit;
* `pieces_located_iff` : **every piece is located exactly when the last one is no exception**: the
  text ends with a boundary, or what follows the last one is left out or has a range of its own;
* `rest_not_located` : a note of two sentences whose last word is given as the whole note.
-/

namespace DailyReport.Excerpts

open Lib

/-- The range stands for exactly this text of the source. -/
structure Locates (source : Text) (range : SourceRange) (text : Text) : Prop where
  unit : range.unit = .textChar
  order : range.start ≤ range.stop
  inside : range.stop ≤ source.length
  text : (source.drop range.start).take (range.stop - range.start) = text

/-- What follows the last boundary of a text. -/
def lastPart (t : Text) : Text := t.rtakeWhile fun c => !endsSentence c

/-- The pieces of a unit that are short enough to be used. -/
def keptPieces (content : Text) (unit : ContentUnit) : List Piece :=
  (unitPieces content unit).filter Piece.kept

/-! ### The ranges of a split text -/

section Split

variable {unit : ContentUnit} {charFrom : ℕ} {current rest : Text}

theorem lastPart_of_ends {c : Char} (hc : endsSentence c = true) (front rest : Text) :
    lastPart (front ++ c :: rest) = lastPart rest := by
  have hstop : ∀ l : Text, (l ++ c :: front.reverse).takeWhile (fun c => !endsSentence c) =
      l.takeWhile fun c => !endsSentence c := by
    intro l
    induction l with
    | nil => simp [hc]
    | cons a l ih => simp only [List.cons_append, List.takeWhile_cons, ih]
  simp only [lastPart, List.rtakeWhile, List.reverse_append, List.reverse_cons,
    List.append_assoc, List.singleton_append, hstop]

theorem lastPart_eq_self (h : ∀ c ∈ current, endsSentence c = false) :
    lastPart current = current := by
  rw [lastPart, List.rtakeWhile_eq_self_iff]
  intro c hc
  simp [h c hc]

/-- A piece that is cut out of the text behind character `charFrom` with ranges of its own. -/
structure CutOut (unit : ContentUnit) (charFrom : ℕ) (text : Text) (piece : Piece) : Prop where
  cut : ∃ start, piece.ranges = unit.ranges.map
      (pieceRange unit (charFrom + start) (charFrom + start + piece.text.length)) ∧
    start + piece.text.length ≤ text.length ∧
    (text.drop start).take piece.text.length = piece.text

/-- **A piece of a split text has its own ranges, or it is what follows the last boundary.** -/
theorem mem_splitUnit_cases (h : ∀ c ∈ current, endsSentence c = false) {piece : Piece}
    (hpiece : piece ∈ splitUnit unit charFrom current rest) :
    CutOut unit charFrom (current ++ rest) piece ∨
      (lastPart (current ++ rest) ≠ [] ∧
        piece = ⟨lastPart (current ++ rest), unit.kind, unit.ranges⟩) := by
  induction rest generalizing charFrom current with
  | nil =>
    by_cases hnil : current = []
    · simp [splitUnit, hnil] at hpiece
    · simp only [splitUnit, hnil, if_false, List.mem_singleton] at hpiece
      refine Or.inr ?_
      rw [List.append_nil, lastPart_eq_self h]
      exact ⟨hnil, hpiece⟩
  | cons c rest ih =>
    unfold splitUnit at hpiece
    split_ifs at hpiece with hend
    · rcases List.mem_cons.1 hpiece with rfl | hpiece
      · refine Or.inl ⟨0, by simp, by simp, ?_⟩
        rw [List.drop_zero, List.append_cons current c rest, List.take_left]
      · rw [lastPart_of_ends hend]
        refine (ih (by simp) hpiece).imp ?_ fun hlast => by simpa using hlast
        rintro ⟨start, hranges, hinside, htext⟩
        have hstart : (current ++ c :: rest).drop ((current ++ [c]).length + start) =
            rest.drop start := by
          rw [← List.drop_drop, List.append_cons current c rest, List.drop_left]
        refine ⟨(current ++ [c]).length + start, ?_, ?_, ?_⟩
        · rw [hranges]
          simp only [Nat.add_assoc]
        · simp only [List.nil_append] at hinside
          simp only [List.length_append, List.length_cons, List.length_nil]
          omega
        · rw [hstart]
          simpa using htext
    · have hcurrent : ∀ a ∈ current ++ [c], endsSentence a = false := by
        intro a ha
        rcases List.mem_append.1 ha with ha | ha
        · exact h a ha
        · rw [List.mem_singleton.1 ha]
          simpa using hend
      simpa using ih hcurrent hpiece

/-- What follows the last boundary is a piece. -/
theorem lastPart_mem_splitUnit (h : ∀ c ∈ current, endsSentence c = false)
    (hlast : lastPart (current ++ rest) ≠ []) :
    ⟨lastPart (current ++ rest), unit.kind, unit.ranges⟩ ∈ splitUnit unit charFrom current rest := by
  induction rest generalizing charFrom current with
  | nil =>
    rw [List.append_nil, lastPart_eq_self h] at hlast ⊢
    simp [splitUnit, hlast]
  | cons c rest ih =>
    unfold splitUnit
    split_ifs with hend
    · rw [lastPart_of_ends hend] at hlast ⊢
      exact List.mem_cons_of_mem _ (ih (by simp) hlast)
    · have hcurrent : ∀ a ∈ current ++ [c], endsSentence a = false := by
        intro a ha
        rcases List.mem_append.1 ha with ha | ha
        · exact h a ha
        · rw [List.mem_singleton.1 ha]
          simpa using hend
      have happend : current ++ c :: rest = (current ++ [c]) ++ rest := by simp
      rw [happend] at hlast ⊢
      exact ih hcurrent hlast

end Split

/-! ### What the ranges locate -/

/-- The text of the unit was taken from a range of its length. -/
structure TakenFrom (source content : Text) (unit : ContentUnit) (range : SourceRange) : Prop where
  inside : unit.textEnd ≤ content.length
  order : unit.textStart < unit.textEnd
  mem : range ∈ unit.ranges
  length : range.stop - range.start = unit.textEnd - unit.textStart
  locates : Locates source range (unitText content unit)

variable {source content : Text} {unit : ContentUnit} {range : SourceRange}

/-- A piece with ranges of its own is located by the range that the unit was taken from. -/
theorem TakenFrom.locates_cut (h : TakenFrom source content unit range) {piece : Piece}
    (hpiece : CutOut unit 0 (unitText content unit) piece) :
    ∃ r ∈ piece.ranges, Locates source r piece.text := by
  obtain ⟨start, hranges, hinside, htext⟩ := hpiece.cut
  have hlen := length_unitText h.inside h.order
  have hstop := h.locates.inside
  have horder := h.locates.order
  have hlength := h.length
  refine ⟨_, hranges ▸ List.mem_map_of_mem h.mem, ?_⟩
  rw [pieceRange, if_pos ⟨h.locates.unit, h.length⟩]
  refine ⟨h.locates.unit, ?_, ?_, ?_⟩
  · simp only
    omega
  · simp only
    omega
  · rw [← h.locates.text, List.drop_take, List.take_take, List.drop_drop, min_eq_left (by omega)]
      at htext
    simp only [Nat.zero_add]
    rw [show range.start + (start + piece.text.length) - (range.start + start) =
      piece.text.length by omega]
    exact htext

/-- **Every piece is located** exactly when the unit is not split, or its text ends with a boundary,
or what follows the last boundary is too long to be used or has a range of its own. -/
theorem pieces_located_iff (h : TakenFrom source content unit range) :
    (∀ piece ∈ keptPieces content unit, ∃ r ∈ piece.ranges, Locates source r piece.text) ↔
      splits content unit = false ∨ lastPart (unitText content unit) = [] ∨
        roundTarget < countChars (lastPart (unitText content unit)) ∨
        ∃ r ∈ unit.ranges, Locates source r (lastPart (unitText content unit)) := by
  have hin : ¬ (unit.textEnd > content.length ∨ unit.textStart ≥ unit.textEnd) := by
    have hinside := h.inside
    have horder := h.order
    omega
  have hnil : ∀ c ∈ ([] : Text), endsSentence c = false := by simp
  cases hsplits : splits content unit with
  | false =>
    refine iff_of_true ?_ (Or.inl rfl)
    intro piece hpiece
    have hpiece := (List.mem_filter.1 hpiece).1
    rw [unitPieces, if_neg hin, hsplits] at hpiece
    obtain rfl := List.mem_singleton.1 hpiece
    exact ⟨range, h.mem, h.locates⟩
  | true =>
    have hpieces : unitPieces content unit = splitUnit unit 0 [] (unitText content unit) := by
      rw [unitPieces, if_neg hin, if_pos hsplits]
    have hkind : useful unit.kind = true ∧ isRow unit.kind = false := by
      simp only [splits, Bool.and_eq_true, Bool.not_eq_true'] at hsplits
      exact ⟨hsplits.1.2, hsplits.2⟩
    constructor
    · intro hall
      by_cases hlast : lastPart (unitText content unit) = []
      · exact Or.inr (Or.inl hlast)
      · by_cases hlong : roundTarget < countChars (lastPart (unitText content unit))
        · exact Or.inr (Or.inr (Or.inl hlong))
        · refine Or.inr (Or.inr (Or.inr ?_))
          refine hall ⟨lastPart (unitText content unit), unit.kind, unit.ranges⟩ ?_
          refine List.mem_filter.2 ⟨?_, by simp [Piece.kept, Nat.le_of_not_lt hlong]⟩
          rw [hpieces]
          exact lastPart_mem_splitUnit hnil hlast
    · intro hcond piece hpiece
      obtain ⟨hpiece, hkept⟩ := List.mem_filter.1 hpiece
      rw [hpieces] at hpiece
      rcases mem_splitUnit_cases hnil hpiece with hcut | ⟨hlast, rfl⟩
      · exact h.locates_cut hcut
      · simp only [List.nil_append] at hlast hkept ⊢
        rcases hcond with hfalse | hempty | hlong | hrange
        · cases hfalse
        · exact absurd hempty hlast
        · simp [Piece.kept, hkind, Nat.not_le.2 hlong] at hkept
        · exact hrange

/-! ### A note whose last word has no boundary -/

/-- Characters of the note. -/
def noteLength : ℕ := 514

/-- A long sentence and one more word. -/
def longNote : Text := List.replicate 512 'x' ++ ['。', 'y']

/-- The range of the whole note. -/
def noteRange : SourceRange := ⟨.textChar, 0, noteLength, none, none, none⟩

def noteUnit : ContentUnit := ⟨lit "u1", .text, 0, noteLength, [noteRange]⟩

theorem takenFrom_note : TakenFrom longNote longNote noteUnit noteRange where
  inside := by decide +kernel
  order := by decide
  mem := by simp [noteUnit]
  length := rfl
  locates := ⟨rfl, by decide, by decide +kernel, by decide +kernel⟩

/-- **The last word of the note is located by the whole note.** -/
theorem rest_not_located : ¬ ∀ (source content : Text) (unit : ContentUnit) (range : SourceRange),
    TakenFrom source content unit range →
      ∀ piece ∈ keptPieces content unit, ∃ r ∈ piece.ranges, Locates source r piece.text := by
  intro h
  obtain ⟨r, hr, hlocates⟩ := h longNote longNote noteUnit noteRange takenFrom_note
    ⟨['y'], .text, [noteRange]⟩ (by decide +kernel)
  obtain rfl := List.mem_singleton.1 hr
  have htext := congrArg List.length hlocates.text
  revert htext
  decide +kernel

theorem pieces_located_iff_note :
    (∀ piece ∈ keptPieces longNote noteUnit, ∃ r ∈ piece.ranges, Locates longNote r piece.text) ↔
      splits longNote noteUnit = false ∨ lastPart (unitText longNote noteUnit) = [] ∨
        roundTarget < countChars (lastPart (unitText longNote noteUnit)) ∨
        ∃ r ∈ noteUnit.ranges, Locates longNote r (lastPart (unitText longNote noteUnit)) :=
  pieces_located_iff takenFrom_note

end DailyReport.Excerpts
