import DailyReport.TextParser.Excerpt

/-!
# The units of a text

A text is cut behind its lines and sentences into pieces, which know the characters they come from.
Of a log the latest lines are selected.  In any other text a Markdown table becomes groups of rows,
each of which repeats the header of the table.

* `mem_textPieces` : a piece has at most one range, which is valid;
* `mem_textPushes` : **a pushed unit has the ranges of pieces that have not been skipped**.
-/

namespace DailyReport.TextParser

open Lib

/-- A line of a table begins here. -/
def startsTable (text : Text) : Bool := (trimStart text).head? == some '|'

/-- A segment ends behind the character, in front of the rest. -/
def endsSegment (tableLine : Bool) (c : Char) (rest : Text) : Bool :=
  c == '\n' || !tableLine && (c == '。' || c == '！' || c == '？' ||
    c == '.' && rest.head?.any isWhitespace)

/-- The segments of a text; `current` has been read since the last one.  What is left at the end is
a segment if the text is complete. -/
def segmentsFrom (complete : Bool) : Bool → Text → Text → List Text
  | _, current, [] => if current ≠ [] ∧ complete then [current] else []
  | tableLine, current, c :: rest =>
    if endsSegment tableLine c rest then
      (current ++ [c]) :: segmentsFrom complete (startsTable rest) [] rest
    else segmentsFrom complete tableLine (current ++ [c]) rest

/-- A trimmed segment with its range. -/
structure TextPiece where
  text : Text
  ranges : List SourceRange
  deriving DecidableEq

/-- The pieces of some segments from a character on. -/
def textPieces (tail : Bool) : ℕ → List Text → List TextPiece
  | _, [] => []
  | previousChars, text :: segments =>
    let trimmed := trim text
    let leading := (text.takeWhile isWhitespace).length
    let ranges : List SourceRange :=
      if !tail ∧ trimmed ≠ [] then
        [⟨.textChar, previousChars + leading, previousChars + leading + countChars trimmed, none,
          none, none⟩]
      else []
    ⟨trimmed, ranges⟩ :: textPieces tail (previousChars + text.length) segments

/-! ### The latest lines -/

/-- Select lines that fit, the latest ones first; the lines are given from the last one on, and
returned in their order.  The flag says whether one did not fit. -/
def selectLatest : ℕ → List TextPiece → List TextPiece × Bool
  | _, [] => ([], false)
  | remaining, piece :: pieces =>
    let size := countChars piece.text + 1
    if size ≤ remaining then
      let (selected, bounded) := selectLatest (remaining - size) pieces
      (selected ++ [piece], bounded)
    else ((selectLatest remaining pieces).1, true)

/-! ### Tables -/

def isTableLine (piece : TextPiece) : Bool :=
  piece.text.head? == some '|' && piece.text.getLast? == some '|'

def markdownSeparator (text : Text) : Bool :=
  text.head? == some '|' && text.getLast? == some '|' &&
    ((trimMatches '|' text).splitOnP fun c => c == '|').all fun cell =>
      let value := trim cell
      decide (3 ≤ value.countP fun c => c == '-') &&
        value.all fun c => c == '-' || c == ':' || c == ' '

/-- The rows of a table in groups: one row at least, and more while the group stays short. -/
def rowGroups (headerChars : ℕ) : ℕ → List TextPiece → List TextPiece → List (List TextPiece)
  | _, group, [] => if group = [] then [] else [group]
  | size, group, row :: rows =>
    let cost := countChars row.text + 1
    if group ≠ [] ∧ size + cost > 512 then
      group :: rowGroups headerChars (headerChars + cost) [row] rows
    else rowGroups headerChars (size + cost) (group ++ [row]) rows

/-- A group with the header of its table. -/
def tablePush (header separator : TextPiece) (group : List TextPiece) : Push :=
  ⟨joinWith ['\n'] ((header :: separator :: group).map TextPiece.text), .tableRow,
    (header :: separator :: group).flatMap TextPiece.ranges⟩

def tablePushes (header separator : TextPiece) (rows : List TextPiece) : List Push :=
  let headerChars := countChars header.text + 1 + (countChars separator.text + 1)
  (rowGroups headerChars headerChars [] rows).map (tablePush header separator)

def textPush (piece : TextPiece) : Push :=
  ⟨piece.text, if piece.text.head? = some '#' then .heading else .text, piece.ranges⟩

/-- The rows of the table that begins with `piece`. -/
def tableRows (piece : TextPiece) (rest : List TextPiece) : List TextPiece :=
  if isTableLine piece ∧ rest.head?.any (fun separator => markdownSeparator separator.text) then
    (rest.drop 1).takeWhile isTableLine
  else []

/-- The pushes of some pieces, of which `skip` belong to a table that has been pushed. -/
def textPushes : ℕ → List TextPiece → List Push
  | _, [] => []
  | skip + 1, _ :: pieces => textPushes skip pieces
  | 0, piece :: pieces =>
    match pieces.head?, tableRows piece pieces with
    | some separator, row :: rows =>
      tablePushes piece separator (row :: rows) ++ textPushes (1 + (row :: rows).length) pieces
    | _, _ => textPush piece :: textPushes 0 pieces

/-! ### The ranges of the pieces -/

/-- A piece has no range, or one of characters. -/
theorem mem_textPieces {tail : Bool} {previousChars : ℕ} {segments : List Text} {piece : TextPiece}
    (h : piece ∈ textPieces tail previousChars segments) :
    piece.ranges.length ≤ 1 ∧ (∀ range ∈ piece.ranges, ValidRange range) ∧
      (tail = true → piece.ranges = []) := by
  induction segments generalizing previousChars with
  | nil => cases h
  | cons text segments ih =>
    rcases List.mem_cons.1 h with rfl | h
    · dsimp only
      split_ifs with hrange
      · refine ⟨le_rfl, ?_, fun htail => absurd htail (by simpa using hrange.1)⟩
        intro range hmem
        rw [List.mem_singleton] at hmem
        subst hmem
        have hpos := List.length_pos_iff.2 hrange.2
        refine ⟨?_, Or.inl rfl, by simp, Or.inl ⟨rfl, rfl⟩⟩
        simp only [countChars]
        omega
      · exact ⟨Nat.zero_le _, by simp, fun _ => rfl⟩
    · exact ih h

/-- The rows of the groups are those of the table. -/
theorem mem_rowGroups {headerChars size : ℕ} {group rows : List TextPiece} {g : List TextPiece}
    (h : g ∈ rowGroups headerChars size group rows) : ∀ row ∈ g, row ∈ group ∨ row ∈ rows := by
  induction rows generalizing size group with
  | nil =>
    unfold rowGroups at h
    split_ifs at h
    · cases h
    · rw [List.mem_singleton] at h
      subst h
      exact fun row hrow => Or.inl hrow
  | cons row rows ih =>
    unfold rowGroups at h
    dsimp only at h
    split_ifs at h
    · rcases List.mem_cons.1 h with rfl | h
      · exact fun row hrow => Or.inl hrow
      · intro r hr
        rcases ih h r hr with hr | hr
        · exact Or.inr (List.mem_cons.2 (Or.inl (List.mem_singleton.1 hr)))
        · exact Or.inr (List.mem_cons_of_mem _ hr)
    · intro r hr
      rcases ih h r hr with hr | hr
      · rcases List.mem_append.1 hr with hr | hr
        · exact Or.inl hr
        · exact Or.inr (List.mem_cons.2 (Or.inl (List.mem_singleton.1 hr)))
      · exact Or.inr (List.mem_cons_of_mem _ hr)

/-- The table that begins with a line. -/
theorem tableRows_eq_cons {piece separator row : TextPiece} {pieces rows : List TextPiece}
    (hseparator : pieces.head? = some separator) (hrows : tableRows piece pieces = row :: rows) :
    isTableLine piece = true ∧ markdownSeparator separator.text = true ∧
      (∀ q ∈ row :: rows, isTableLine q = true) ∧
      pieces = separator :: (row :: rows) ++ pieces.drop (1 + (row :: rows).length) := by
  obtain ⟨rest, rfl⟩ := List.head?_eq_some_iff.1 hseparator
  unfold tableRows at hrows
  split_ifs at hrows with htable
  rw [List.drop_one, List.tail_cons] at hrows
  refine ⟨htable.1, by simpa using htable.2, fun q hq => ?_, ?_⟩
  · rw [← hrows] at hq
    exact List.mem_takeWhile_imp hq
  · have hsplit := List.takeWhile_append_dropWhile (p := isTableLine) (l := rest)
    rw [hrows] at hsplit
    rw [Nat.add_comm, List.drop_succ_cons, ← hsplit, List.drop_left]
    rfl

/-- **A pushed unit has the ranges of pieces that have not been skipped.** -/
theorem mem_textPushes {skip : ℕ} {pieces : List TextPiece} {p : Push}
    (h : p ∈ textPushes skip pieces) :
    ∀ range ∈ p.ranges, ∃ piece ∈ pieces.drop skip, range ∈ piece.ranges := by
  induction pieces generalizing skip with
  | nil =>
    unfold textPushes at h
    cases h
  | cons piece pieces ih =>
    cases skip with
    | succ skip => exact ih h
    | zero =>
      have hlater {skip : ℕ} (h : p ∈ textPushes skip pieces) :
          ∀ range ∈ p.ranges, ∃ q ∈ piece :: pieces, range ∈ q.ranges := by
        intro range hrange
        obtain ⟨q, hq, hmem⟩ := ih h range hrange
        exact ⟨q, List.mem_cons_of_mem _ (List.mem_of_mem_drop hq), hmem⟩
      rw [List.drop_zero]
      unfold textPushes at h
      split at h
      next separator row rows hseparator hrows =>
        rcases List.mem_append.1 h with h | h
        · -- the header, the separator and the rows of a group
          obtain ⟨group, hgroup, rfl⟩ := List.mem_map.1 h
          intro range hrange
          obtain ⟨q, hq, hmem⟩ := List.mem_flatMap.1 hrange
          refine ⟨q, ?_, hmem⟩
          obtain ⟨-, -, -, hpieces⟩ := tableRows_eq_cons hseparator hrows
          rcases List.mem_cons.1 hq with rfl | hq
          · exact List.mem_cons_self
          rw [hpieces]
          refine List.mem_cons_of_mem _ (List.mem_append_left _ ?_)
          rcases List.mem_cons.1 hq with rfl | hq
          · exact List.mem_cons_self
          · exact List.mem_cons_of_mem _
              ((mem_rowGroups hgroup q hq).resolve_left List.not_mem_nil)
        · exact hlater h
      next =>
        rcases List.mem_cons.1 h with rfl | h
        · exact fun range hrange => ⟨piece, List.mem_cons_self, hrange⟩
        · exact hlater h

/-- Selected lines are lines. -/
theorem mem_selectLatest {remaining : ℕ} {pieces : List TextPiece} {piece : TextPiece}
    (h : piece ∈ (selectLatest remaining pieces).1) : piece ∈ pieces := by
  induction pieces generalizing remaining with
  | nil => cases h
  | cons q pieces ih =>
    unfold selectLatest at h
    dsimp only at h
    split_ifs at h
    · rcases List.mem_append.1 h with h | h
      · exact List.mem_cons_of_mem _ (ih h)
      · exact List.mem_cons.2 (Or.inl (List.mem_singleton.1 h))
    · exact List.mem_cons_of_mem _ (ih h)

end DailyReport.TextParser
