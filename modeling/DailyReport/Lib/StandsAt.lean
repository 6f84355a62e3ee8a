import DailyReport.Lib.Json
import DailyReport.Lib.Utf8Read

/-!
# Parts of a file

A part that stands at a place of a list is found there again, whatever is written behind it.  A
line is what stands before the next separator, with it.

* `StandsAt.take_drop` : **the part is read back from its place**;
* `newline_not_mem_print` : **a value is written on one line**.
-/

namespace Lib

variable {α : Type*} {part l : List α} {start : ℕ}

/-- The part begins at this place of the list. -/
def StandsAt (part : List α) (start : ℕ) (l : List α) : Prop :=
  ∃ front back, l = front ++ part ++ back ∧ front.length = start

theorem standsAt_append (l part : List α) : StandsAt part l.length (l ++ part) :=
  ⟨l, [], (List.append_nil _).symm, rfl⟩

theorem StandsAt.append (h : StandsAt part start l) (more : List α) :
    StandsAt part start (l ++ more) := by
  obtain ⟨front, back, rfl, rfl⟩ := h
  exact ⟨front, back ++ more, List.append_assoc .., rfl⟩

theorem StandsAt.length_le (h : StandsAt part start l) : start + part.length ≤ l.length := by
  obtain ⟨front, back, rfl, rfl⟩ := h
  rw [List.length_append, List.length_append]
  exact Nat.le_add_right _ _

theorem StandsAt.drop (h : StandsAt part start l) : ∃ back, l.drop start = part ++ back := by
  obtain ⟨front, back, rfl, rfl⟩ := h
  exact ⟨back, by rw [List.append_assoc, List.drop_left]⟩

/-- **The part is read back from its place.** -/
theorem StandsAt.take_drop (h : StandsAt part start l) :
    (l.drop start).take part.length = part := by
  obtain ⟨back, hback⟩ := h.drop
  rw [hback, List.take_left]

/-! ### Lines -/

/-- What stands before the first separator, with it. -/
def takeLine [DecidableEq α] (sep : α) : List α → List α
  | [] => []
  | a :: l => if a = sep then [a] else a :: takeLine sep l

theorem takeLine_of_notMem [DecidableEq α] {sep : α} (h : sep ∉ l) : takeLine sep l = l := by
  induction l with
  | nil => rfl
  | cons a l ih =>
    obtain ⟨hne, hl⟩ := List.ne_and_not_mem_of_not_mem_cons h
    rw [takeLine, if_neg hne.symm, ih hl]

theorem takeLine_append [DecidableEq α] {sep : α} (h : sep ∉ l) (rest : List α) :
    takeLine sep (l ++ sep :: rest) = l ++ [sep] := by
  induction l with
  | nil => exact if_pos rfl
  | cons a l ih =>
    obtain ⟨hne, hl⟩ := List.ne_and_not_mem_of_not_mem_cons h
    rw [List.cons_append, takeLine, if_neg hne.symm, ih hl]
    rfl

/-- A line that is read up to a limit lacks at most its separator. -/
theorem takeLine_take [DecidableEq α] {sep : α} {n : ℕ} (h : sep ∉ l) (hn : l.length ≤ n)
    (rest : List α) : takeLine sep ((l ++ sep :: rest).take n) = l ∨
      takeLine sep ((l ++ sep :: rest).take n) = l ++ [sep] := by
  rw [List.take_append, List.take_of_length_le hn]
  cases hk : n - l.length with
  | zero =>
    rw [List.take_zero, List.append_nil]
    exact Or.inl (takeLine_of_notMem h)
  | succ k =>
    rw [List.take_succ_cons]
    exact Or.inr (takeLine_append h _)

/-! ### Values on one line -/

/-- A byte below the continuation bytes is a character of the text. -/
theorem mem_of_mem_encodeUtf8 {t : Text} {b : UInt8} (hb : b.toNat < 128)
    (h : b ∈ encodeUtf8 t) : ∃ c ∈ t, c.toNat = b.toNat := by
  obtain ⟨c, hc, hmem⟩ := List.mem_flatMap.1 h
  have hseq := utf8Sequence_encode c
  obtain ⟨first, later, hbytes, hwidth, -, hlater⟩ := hseq.exists_cons
  rw [hbytes] at hmem hseq
  rcases List.mem_cons.1 hmem with rfl | hmem
  · -- such a byte stands alone
    have hone : utf8Width b = 1 := if_pos (by simp [UInt8.le_iff_toNat_le]; omega)
    have hnil : later = [] := List.eq_nil_of_length_eq_zero (by omega)
    subst hnil
    cases hseq with
    | one _ hchar =>
      refine ⟨c, hc, ?_⟩
      rw [← hchar, utf8Char, List.foldl_nil]
      exact toNat_ofNat_valid (Or.inl (by omega))
  · have hcont := isUtf8Continuation_iff.1 (hlater b hmem)
    omega

namespace Json

theorem newline_not_mem_escape (c : Char) : '\n' ∉ escape c := by
  have hhex : ∀ n < 16, '\n' ≠ hexDigit n := by decide
  unfold escape
  split_ifs with h1 h2 h3 h4 h5 h6 h7 h8
  iterate 7 · decide
  · -- the digits of a control character
    have hhigh := hhex (c.toNat / 16) (by omega)
    have hlow := hhex (c.toNat % 16) (by omega)
    simp [hhigh, hlow]
  · rw [List.mem_singleton]
    rintro rfl
    exact h5 rfl

theorem newline_not_mem_printStr (s : Text) : '\n' ∉ printStr s := by
  have hchars : '\n' ∉ printChars s := by
    induction s with
    | nil => decide
    | cons c s ih => exact fun h => (List.mem_append.1 h).elim (newline_not_mem_escape c) ih
  exact List.not_mem_cons_of_ne_of_not_mem (by decide) hchars

mutual

/-- **A value is written on one line.** -/
theorem newline_not_mem_print (v : Json) : '\n' ∉ print v := by
  match v with
  | .null | .bool true | .bool false => decide
  | .num n => exact fun h => absurd (isDigit_of_mem_decimal h) (by decide)
  | .str s => exact newline_not_mem_printStr s
  | .arr items =>
    exact List.not_mem_cons_of_ne_of_not_mem (by decide) (newline_not_mem_printItems items)
  | .obj fields =>
    exact List.not_mem_cons_of_ne_of_not_mem (by decide) (newline_not_mem_printFields fields)

theorem newline_not_mem_printItems (items : List Json) : '\n' ∉ printItems items := by
  match items with
  | [] => decide
  | [v] => simp [printItems, newline_not_mem_print v]
  | v :: w :: vs =>
    simp [printItems, newline_not_mem_print v, newline_not_mem_printItems (w :: vs)]

theorem newline_not_mem_printFields (fields : List (Text × Json)) :
    '\n' ∉ printFields fields := by
  match fields with
  | [] => decide
  | [(k, v)] => simp [printFields, newline_not_mem_printStr k, newline_not_mem_print v]
  | (k, v) :: field :: fields =>
    simp [printFields, newline_not_mem_printStr k, newline_not_mem_print v,
      newline_not_mem_printFields (field :: fields)]

end

/-- So are the bytes of a value. -/
theorem newline_not_mem_encode (v : Json) : asciiByte '\n' ∉ encodeUtf8 (print v) := by
  intro h
  obtain ⟨c, hc, hchar⟩ := mem_of_mem_encodeUtf8 (by decide) h
  have heq : c = '\n' := by
    rw [← Char.ofNat_toNat c, hchar]
    rfl
  exact newline_not_mem_print v (heq ▸ hc)

end Json

end Lib
