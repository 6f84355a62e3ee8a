import DailyReport.Excerpts.Allocate

/-!
# What an excerpt is made of

An excerpt is its pieces, line by line, and its audit has one unit for each piece: the unit has the
kind and the ranges of the piece, and its offsets select the piece in the text.

* `Assembled.add` : what appending a piece keeps;
* `assembly_spec` : **the units of an excerpt select exactly its pieces**, its length is the
  characters that its share has paid for, and its usable characters are those of its useful pieces.
-/

namespace DailyReport.Excerpts

open Lib

/-- The unit selects the piece in the text. -/
structure Selects (text : Text) (unit : ContentUnit) (piece : Piece) : Prop where
  kind : unit.kind = piece.kind
  ranges : unit.ranges = piece.ranges
  length : unit.textStart + countChars piece.text = unit.textEnd
  inside : unit.textEnd ≤ countChars text
  text : unitText text unit = piece.text

/-- A unit selects the same piece in a longer text. -/
theorem Selects.append {text : Text} {unit : ContentUnit} {piece : Piece}
    (h : Selects text unit piece) (more : Text) : Selects (text ++ more) unit piece where
  kind := h.kind
  ranges := h.ranges
  length := h.length
  inside := by
    have := h.inside
    simp only [countChars, List.length_append] at this ⊢
    omega
  text := by
    have hlen := h.length
    have hinside := h.inside
    have htext := h.text
    simp only [countChars] at hlen hinside
    rw [← htext, unitText, unitText, List.drop_append_of_le_length (by omega),
      List.take_append_of_le_length (by rw [List.length_drop]; omega)]

theorem exists_selects {text : Text} {units : List ContentUnit} {pieces : List Piece}
    (h : List.Forall₂ (Selects text) units pieces) {unit : ContentUnit} (hunit : unit ∈ units) :
    ∃ piece ∈ pieces, Selects text unit piece := by
  induction h with
  | nil => cases hunit
  | @cons u p units pieces hsel _ ih =>
    rcases List.mem_cons.1 hunit with rfl | hunit
    · exact ⟨p, by simp, hsel⟩
    · obtain ⟨q, hq, hsel⟩ := ih hunit
      exact ⟨q, List.mem_cons_of_mem _ hq, hsel⟩

/-- Useful characters of some pieces. -/
def usefulChars (pieces : List Piece) : ℕ :=
  ((pieces.filter fun p => useful p.kind).map fun p => countChars p.text).sum

/-- The identities of the first `n` units of an excerpt. -/
def unitIds (n : ℕ) : List Text := (List.range n).map fun k => lit "e" ++ decimal (k + 1)

/-- What an assembly of some pieces is. -/
structure Assembled (pieces : List Piece) (a : Assembly) : Prop where
  chars : a.chars = countChars a.text
  length : countChars a.text = linesLength pieces
  empty : a.text = [] ↔ pieces = []
  mapped : List.Forall₂ (Selects a.text) a.mapped pieces
  ids : a.mapped.map ContentUnit.unitId = unitIds pieces.length
  usable : a.usable = usefulChars pieces
  pieces : ∀ p ∈ pieces, p.text <:+: a.text
  sorted : a.mapped.Pairwise fun u v => u.textEnd ≤ v.textStart

theorem assembly_concat (pieces : List Piece) (piece : Piece) :
    assembly (pieces ++ [piece]) = (assembly pieces).add piece := by
  simp [assembly]

theorem unitIds_succ (n : ℕ) : unitIds (n + 1) = unitIds n ++ [lit "e" ++ decimal (n + 1)] := by
  simp [unitIds, List.range_succ]

/-- **Appending a piece** to an assembly. -/
theorem Assembled.add {pieces : List Piece} {a : Assembly} {piece : Piece}
    (h : Assembled pieces a) (hpiece : piece.text ≠ []) :
    Assembled (pieces ++ [piece]) (a.add piece) := by
  -- the line break is there exactly when there is a line before
  obtain ⟨sep, hsep, hlen⟩ : ∃ sep : Text,
      (a.add piece).text = a.text ++ sep ++ piece.text ∧
        sep.length = (!pieces.isEmpty).toNat := by
    by_cases hnil : a.text = []
    · refine ⟨[], by simp [Assembly.add, hnil], ?_⟩
      simp [h.empty.1 hnil]
    · refine ⟨['\n'], by simp [Assembly.add, hnil], ?_⟩
      rw [List.isEmpty_eq_false_iff.2 (mt h.empty.2 hnil)]
      rfl
  have hstart : (if a.text = [] then a.chars else a.chars + 1) = (a.text ++ sep).length := by
    rw [List.length_append, hlen, h.chars, countChars]
    by_cases hnil : a.text = []
    · simp [hnil, h.empty.1 hnil]
    · rw [if_neg hnil, List.isEmpty_eq_false_iff.2 (mt h.empty.2 hnil)]
      rfl
  have hchars : (a.add piece).chars = (a.text ++ sep).length + piece.text.length := by
    simp only [Assembly.add, hstart, countChars]
  have hmapped : (a.add piece).mapped = a.mapped ++
      [⟨lit "e" ++ decimal (a.mapped.length + 1), piece.kind, (a.text ++ sep).length,
        (a.text ++ sep).length + piece.text.length, piece.ranges⟩] := by
    simp only [Assembly.add, hstart, countChars]
  have hselects : Selects (a.add piece).text
      ⟨lit "e" ++ decimal (a.mapped.length + 1), piece.kind, (a.text ++ sep).length,
        (a.text ++ sep).length + piece.text.length, piece.ranges⟩ piece := by
    refine ⟨rfl, rfl, rfl, ?_, ?_⟩
    · rw [hsep]
      simp only [countChars, List.length_append]
      omega
    · rw [hsep, unitText, List.drop_left]
      simp
  refine ⟨?_, ?_, ?_, ?_, ?_, ?_, ?_, ?_⟩
  · rw [hchars, hsep]
    simp only [countChars, List.length_append]
  · have hold := h.length
    rw [linesLength_append (by simp), hsep]
    simp only [countChars, List.length_append, hlen] at hold ⊢
    simp only [linesLength, List.map_singleton, List.sum_singleton, List.length_singleton,
      countChars] at hold ⊢
    omega
  · rw [hsep]
    simp [hpiece]
  · rw [hmapped]
    refine List.rel_append (R := Selects (a.add piece).text) ?_ (List.Forall₂.cons hselects .nil)
    refine h.mapped.imp fun unit p hsel => ?_
    rw [hsep, List.append_assoc]
    exact hsel.append _
  · have hlength : (pieces ++ [piece]).length = pieces.length + 1 := by simp
    rw [hmapped, List.map_append, h.ids, hlength, unitIds_succ, h.mapped.length_eq]
    rfl
  · have hkind : (a.add piece).usable =
        a.usable + if useful piece.kind then piece.text.length else 0 := by
      simp only [Assembly.add, countChars]
      split_ifs <;> omega
    rw [hkind, h.usable, usefulChars, usefulChars, List.filter_append, List.map_append,
      List.sum_append]
    split_ifs with huseful
    · simp [huseful, countChars]
    · simp [huseful]
  · intro p hp
    rw [hsep]
    rcases List.mem_append.1 hp with hp | hp
    · refine (h.pieces p hp).trans ?_
      rw [List.append_assoc]
      exact (List.prefix_append _ _).isInfix
    · obtain rfl := List.mem_singleton.1 hp
      exact (List.suffix_append _ _).isInfix
  · rw [hmapped]
    refine List.pairwise_append.2 ⟨h.sorted, by simp, ?_⟩
    intro u hu v hv
    obtain rfl := List.mem_singleton.1 hv
    obtain ⟨p, -, hsel⟩ := exists_selects h.mapped hu
    have := hsel.inside
    simp only [countChars, List.length_append] at this ⊢
    omega

/-- **What the pieces of an excerpt are put together to.** -/
theorem assembly_spec {pieces : List Piece} (htext : ∀ p ∈ pieces, p.text ≠ []) :
    Assembled pieces (assembly pieces) := by
  induction pieces using List.reverseRecOn with
  | nil =>
    constructor <;> simp [assembly, Assembly.initial, linesLength, usefulChars, unitIds, countChars]
  | append_singleton pieces piece ih =>
    rw [assembly_concat]
    exact (ih fun p hp => htext p (List.mem_append_left _ hp)).add (htext piece (by simp))

end DailyReport.Excerpts
