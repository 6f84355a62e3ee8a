import DailyReport.Lib.ByteSlice
import Mathlib.Data.List.MinMax
import Mathlib.Data.Nat.Dist

/-!
# The paragraphs of a report

A long text is split behind the ends of sentences, nearest to the places that would make its
paragraphs equally long.  Everything that can go wrong on the way does so here: a subtraction below
zero, an index outside of the cuts, a window without a cut and a slice that begins or ends inside a
character give no result (`none`).

* `Standing.step` : a part leaves as many cuts as there are parts to come;
* `splitParagraphs_partition` : **the paragraphs are a partition of the text into sentences**.
-/

namespace DailyReport.Reports

open Lib

/-! ### Splitting -/

/-- The character ends a sentence. -/
def endsSentence (c : Char) : Bool := decide (c = '。' ∨ c = '；')

/-- Places behind the ends of sentences, with the number of characters before them.  The end of the
text, which has `size` bytes, is not among them. -/
def cutsFrom (size : ℕ) : ℕ → ℕ → Text → List (ℕ × ℕ)
  | _, _, [] => []
  | byte, index, c :: rest =>
    if endsSentence c ∧ byte + c.utf8Size < size then
      (byte + c.utf8Size, index + 1) :: cutsFrom size (byte + c.utf8Size) (index + 1) rest
    else cutsFrom size (byte + c.utf8Size) (index + 1) rest

def cutsOf (text : Text) : List (ℕ × ℕ) := cutsFrom (byteSize text) 0 0 text

/-- How many paragraphs a text gets. -/
def paragraphCount (text : Text) : ℕ :=
  min (min ((text.length + 239) / 240) 3) ((cutsOf text).length + 1)

/-- The paragraphs so far, where the next one starts, and the first cut that it may end at. -/
structure Splitting where
  start : ℕ
  nextCut : ℕ
  paragraphs : List Text

/-- One part: the cut that is nearest to the target is selected. -/
def splitPart (text : Text) (count : ℕ) (s : Splitting) (part : ℕ) : Option Splitting := do
  let target := text.length * part / count
  let later ← checkedSub count part
  let lastCut ← checkedSub (cutsOf text).length later
  let window ← (List.range' s.nextCut (lastCut + 1 - s.nextCut)).mapM fun index =>
    (cutsOf text)[index]?.map fun cut => (index, cut)
  let selected ← window.argmin fun entry => Nat.dist entry.2.2 target
  let piece ← sliceBytes text s.start selected.2.1
  pure ⟨selected.2.1, selected.1 + 1, s.paragraphs ++ [piece]⟩

def splitParagraphs (text : Text) : Option (List Text) :=
  if text.length ≤ 240 then some [text]
  else do
    let s ← (List.range' 1 (paragraphCount text - 1)).foldlM (splitPart text (paragraphCount text))
      ⟨0, 0, []⟩
    let last ← sliceBytes text s.start (byteSize text)
    pure (s.paragraphs ++ [last])

/-! ### The cuts -/

/-- A place behind the end of a sentence, before the end of the text. -/
def IsCut (text : Text) (place : ℕ) : Prop :=
  ∃ a c b, text = a ++ c :: b ∧ b ≠ [] ∧ endsSentence c = true ∧ place = byteSize (a ++ [c])

theorem mem_cutsFrom {a b : Text} {index : ℕ} {cut : ℕ × ℕ}
    (h : cut ∈ cutsFrom (byteSize (a ++ b)) (byteSize a) index b) :
    IsCut (a ++ b) cut.1 ∧ byteSize a < cut.1 := by
  induction b generalizing a index with
  | nil => cases h
  | cons c b ih =>
    have hplace : byteSize (a ++ [c]) = byteSize a + c.utf8Size := by simp
    have hsplit : a ++ c :: b = a ++ [c] ++ b := by simp
    have hpos := c.utf8Size_pos
    rw [cutsFrom, ← hplace, hsplit] at h
    have hrest : cut ∈ cutsFrom (byteSize (a ++ [c] ++ b)) (byteSize (a ++ [c])) (index + 1) b →
        IsCut (a ++ c :: b) cut.1 ∧ byteSize a < cut.1 := by
      intro hlater
      obtain ⟨hcut, hlt⟩ := ih hlater
      rw [hsplit]
      exact ⟨hcut, by omega⟩
    split_ifs at h with hends
    · rcases List.mem_cons.1 h with rfl | hlater
      · refine ⟨⟨a, c, b, rfl, ?_, hends.1, rfl⟩, by dsimp only; omega⟩
        -- behind the last character nothing is cut
        rintro rfl
        rw [List.append_nil] at hends
        exact hends.2.false
      · exact hrest hlater
    · exact hrest h

theorem cutsFrom_ascend {a b : Text} {index : ℕ} :
    (cutsFrom (byteSize (a ++ b)) (byteSize a) index b).Pairwise fun cut cut' => cut.1 < cut'.1 := by
  induction b generalizing a index with
  | nil => exact .nil
  | cons c b ih =>
    have hplace : byteSize (a ++ [c]) = byteSize a + c.utf8Size := by simp
    have hsplit : a ++ c :: b = a ++ [c] ++ b := by simp
    rw [cutsFrom, ← hplace, hsplit]
    split_ifs
    · exact List.pairwise_cons.2 ⟨fun cut hcut => (mem_cutsFrom hcut).2, ih⟩
    · exact ih

variable {text : Text}

theorem isCut_of_mem {cut : ℕ × ℕ} (h : cut ∈ cutsOf text) : IsCut text cut.1 :=
  (mem_cutsFrom (a := []) h).1

theorem cutsOf_ascend (text : Text) : (cutsOf text).Pairwise fun cut cut' => cut.1 < cut'.1 :=
  cutsFrom_ascend (a := [])

/-! ### One part -/

/-- A paragraph that ends with a sentence. -/
def Ended (piece : Text) : Prop := ∃ front c, piece = front ++ [c] ∧ endsSentence c = true

/-- The paragraphs before a part, with as many cuts left as there are parts to come. -/
structure Standing (text : Text) (count part : ℕ) (s : Splitting) : Prop where
  split : ∃ rest, text = s.paragraphs.flatten ++ rest ∧ rest ≠ []
  start : s.start = byteSize s.paragraphs.flatten
  ahead : ∀ cut ∈ (cutsOf text).drop s.nextCut, s.start < cut.1
  room : s.nextCut + (count - part) ≤ (cutsOf text).length
  number : s.paragraphs.length + 1 = part
  ended : ∀ piece ∈ s.paragraphs, Ended piece

theorem mapM_some {α β : Type} {f : α → Option β} {g : α → β} {l : List α}
    (h : ∀ a ∈ l, f a = some (g a)) : l.mapM f = some (l.map g) := by
  induction l with
  | nil => rfl
  | cons a l ih =>
    obtain ⟨ha, hl⟩ := List.forall_mem_cons.1 h
    rw [List.mapM_cons, ha, ih hl]
    rfl

/-- **A part selects a cut of its window, which is not empty.** -/
theorem exists_selected {count part : ℕ} {s : Splitting} (h : Standing text count part s)
    (hpart : part < count) (target : ℕ) : ∃ lastCut window index cut,
      checkedSub (cutsOf text).length (count - part) = some lastCut ∧
      (List.range' s.nextCut (lastCut + 1 - s.nextCut)).mapM (fun index =>
        (cutsOf text)[index]?.map fun cut => (index, cut)) = some window ∧
      window.argmin (fun entry => Nat.dist entry.2.2 target) = some (index, cut) ∧
      s.nextCut ≤ index ∧ index + (count - part) ≤ (cutsOf text).length ∧
      (cutsOf text)[index]? = some cut := by
  have hroom := h.room
  let lastCut := (cutsOf text).length - (count - part)
  have hlast : lastCut + (count - part) = (cutsOf text).length := Nat.sub_add_cancel (by omega)
  let indices := List.range' s.nextCut (lastCut + 1 - s.nextCut)
  have hindex : ∀ index ∈ indices, s.nextCut ≤ index ∧ index ≤ lastCut ∧
      index < (cutsOf text).length := by
    intro index hmem
    rw [List.mem_range'_1] at hmem
    omega
  have hwindow : indices.mapM (fun index => (cutsOf text)[index]?.map fun cut => (index, cut)) =
      some (indices.map fun index => (index, (cutsOf text).getD index (0, 0))) := by
    refine mapM_some fun index hmem => ?_
    rw [List.getD_eq_getElem?_getD, List.getElem?_eq_getElem (hindex index hmem).2.2]
    rfl
  have hne : indices.map (fun index => (index, (cutsOf text).getD index (0, 0))) ≠ [] := by
    intro hnil
    have hlength := congrArg List.length hnil
    rw [List.length_map, List.length_range', List.length_nil] at hlength
    omega
  cases hselected : (indices.map fun index => (index, (cutsOf text).getD index (0, 0))).argmin
      fun entry => Nat.dist entry.2.2 target with
  | none => exact absurd (List.argmin_eq_none.1 hselected) hne
  | some entry =>
    obtain ⟨index, hmem, rfl⟩ := List.mem_map.1 (List.argmin_mem hselected)
    obtain ⟨hfrom, hto, hlt⟩ := hindex index hmem
    refine ⟨lastCut, _, index, _, if_pos (by omega), hwindow, hselected, hfrom, by omega, ?_⟩
    rw [List.getD_eq_getElem?_getD, List.getElem?_eq_getElem hlt]
    rfl

/-- The text up to a cut behind the start of a paragraph is that paragraph. -/
theorem exists_piece {front rest : Text} {place : ℕ} (htext : text = front ++ rest)
    (hcut : IsCut text place) (hlt : byteSize front < place) :
    ∃ piece later, rest = piece ++ later ∧ later ≠ [] ∧ place = byteSize (front ++ piece) ∧
      Ended piece := by
  obtain ⟨a, c, b, hsplit, hb, hends, rfl⟩ := hcut
  have hsame : front ++ rest = (a ++ [c]) ++ b := by
    rw [← htext, hsplit, List.append_assoc, List.singleton_append]
  obtain ⟨piece, hpiece⟩ := prefix_of_byteSize_le hsame hlt.le
  have hrest : rest = piece ++ b := by
    rw [← hpiece, List.append_assoc] at hsame
    exact List.append_cancel_left hsame
  refine ⟨piece, b, hrest, hb, by rw [hpiece], ?_⟩
  -- the paragraph has the character before the cut
  rcases piece.eq_nil_or_concat with rfl | ⟨piece', d, rfl⟩
  · rw [List.append_nil] at hpiece
    exact absurd hlt (by rw [hpiece]; exact lt_irrefl _)
  · rw [List.concat_eq_append, ← List.append_assoc] at hpiece
    obtain ⟨-, hlast⟩ := List.append_inj' hpiece rfl
    cases hlast
    exact ⟨piece', c, List.concat_eq_append .., hends⟩

/-- **A part leaves as many cuts as there are parts to come.** -/
theorem Standing.step {count part : ℕ} {s : Splitting} (h : Standing text count part s)
    (hpart : part < count) :
    ∃ s', splitPart text count s part = some s' ∧ Standing text count (part + 1) s' := by
  obtain ⟨lastCut, window, index, cut, hlast, hwindow, hselected, hfrom, hroom, hcut⟩ :=
    exists_selected h hpart (text.length * part / count)
  obtain ⟨rest, htext, -⟩ := h.split
  have hahead : s.start < cut.1 :=
    h.ahead cut (List.mem_of_getElem? (i := index - s.nextCut) (by
      rw [List.getElem?_drop, Nat.add_sub_cancel' hfrom]
      exact hcut))
  rw [h.start] at hahead
  obtain ⟨piece, later, rfl, hlater, hplace, hended⟩ :=
    exists_piece htext (isCut_of_mem (List.mem_of_getElem? hcut)) hahead
  have hslice : sliceBytes text s.start cut.1 = some piece := by
    rw [h.start, hplace, htext]
    exact sliceBytes_append ..
  have hflatten : (s.paragraphs ++ [piece]).flatten = s.paragraphs.flatten ++ piece := by simp
  refine ⟨⟨cut.1, index + 1, s.paragraphs ++ [piece]⟩, ?_, ?_⟩
  · have hsub : checkedSub count part = some (count - part) := if_pos hpart.le
    unfold splitPart
    simp only [hsub, hlast, hwindow, hselected, hslice, Option.bind_eq_bind, Option.bind_some]
    rfl
  · refine ⟨⟨later, ?_, hlater⟩, ?_, fun next hnext => ?_, ?_, ?_, ?_⟩
    · rw [hflatten, htext, List.append_assoc]
    · rw [hflatten, ← hplace]
    · obtain ⟨k, hk⟩ := List.getElem?_of_mem hnext
      rw [List.getElem?_drop] at hk
      obtain ⟨hlt, hget⟩ := List.getElem?_eq_some_iff.1 hcut
      obtain ⟨hlt', hget'⟩ := List.getElem?_eq_some_iff.1 hk
      have hascend := List.pairwise_iff_getElem.1 (cutsOf_ascend text) index (index + 1 + k) hlt hlt'
        (by omega)
      rwa [hget, hget'] at hascend
    · dsimp only
      omega
    · have hnumber := h.number
      rw [List.length_append, List.length_singleton]
      omega
    · intro p hp
      rcases List.mem_append.1 hp with hp | hp
      · exact h.ended p hp
      · rw [List.mem_singleton.1 hp]
        exact hended

/-- The parts from one on. -/
theorem Standing.parts {count n part : ℕ} {s : Splitting} (h : Standing text count part s)
    (hcount : part + n = count) : ∃ s', (List.range' part n).foldlM (splitPart text count) s =
      some s' ∧ Standing text count count s' := by
  induction n generalizing part s with
  | zero =>
    subst hcount
    exact ⟨s, rfl, h⟩
  | succ n ih =>
    obtain ⟨s', hstep, hnext⟩ := h.step (by omega)
    obtain ⟨s'', hrest, hdone⟩ := ih hnext (by omega)
    refine ⟨s'', ?_, hdone⟩
    rw [List.range'_succ, List.foldlM_cons, hstep]
    exact hrest

/-- A partition of a text: at most three pieces, each of which but the last ends with a sentence. -/
structure IsPartition (text : Text) (pieces : List Text) : Prop where
  number : 1 ≤ pieces.length ∧ pieces.length ≤ 3
  whole : pieces.flatten = text
  ended : ∀ piece ∈ pieces.dropLast, Ended piece
  nonempty : text ≠ [] → ∀ piece ∈ pieces, piece ≠ []

theorem Ended.ne_nil {piece : Text} (h : Ended piece) : piece ≠ [] := by
  obtain ⟨front, c, rfl, -⟩ := h
  exact List.append_ne_nil_of_right_ne_nil _ (List.cons_ne_nil c [])

/-- **The paragraphs are a partition of the text.**  Nothing goes wrong on the way. -/
theorem splitParagraphs_partition (text : Text) :
    ∃ pieces, splitParagraphs text = some pieces ∧ IsPartition text pieces := by
  unfold splitParagraphs
  split_ifs with hshort
  · exact ⟨[text], rfl, ⟨le_rfl, (by decide : 1 ≤ 3)⟩, List.append_nil text, nofun, fun hne piece hpiece =>
      List.mem_singleton.1 hpiece ▸ hne⟩
  · have hne : text ≠ [] := by
      rintro rfl
      exact hshort (Nat.zero_le _)
    have hpos : 1 ≤ paragraphCount text := by
      unfold paragraphCount
      omega
    have hstart : Standing text (paragraphCount text) 1 ⟨0, 0, []⟩ := by
      refine ⟨⟨text, rfl, hne⟩, rfl, fun cut hcut => ?_, ?_, rfl, nofun⟩
      · exact (mem_cutsFrom (a := []) hcut).2
      · dsimp only [paragraphCount]
        omega
    obtain ⟨s, hparts, hdone⟩ := hstart.parts (n := paragraphCount text - 1) (by omega)
    obtain ⟨rest, htext, hrest⟩ := hdone.split
    have hslice : sliceBytes text s.start (byteSize text) = some rest := by
      have hall := sliceBytes_append s.paragraphs.flatten rest []
      rwa [List.append_nil, ← htext, ← hdone.start] at hall
    have hnumber := hdone.number
    have hcount : paragraphCount text ≤ 3 := (Nat.min_le_left _ _).trans (Nat.min_le_right _ _)
    refine ⟨s.paragraphs ++ [rest], ?_, ⟨?_, ?_⟩, ?_, fun piece hpiece => ?_,
      fun _ piece hpiece => ?_⟩
    · simp only [hparts, hslice, Option.bind_eq_bind, Option.bind_some]
      rfl
    · rw [List.length_append, List.length_singleton]
      exact Nat.le_add_left _ _
    · rw [List.length_append, List.length_singleton]
      omega
    · rw [List.flatten_append, List.flatten_singleton, ← htext]
    · rw [List.dropLast_concat] at hpiece
      exact hdone.ended piece hpiece
    · rcases List.mem_append.1 hpiece with hpiece | hpiece
      · exact (hdone.ended piece hpiece).ne_nil
      · rw [List.mem_singleton.1 hpiece]
        exact hrest

end DailyReport.Reports
