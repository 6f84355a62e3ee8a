import DailyReport.Lib.Utf8
import Mathlib.Data.List.GetD
import Mathlib.Data.List.Infix

/-!
# Cutting the bytes of a text

A place in the bytes of a text stands between two characters or inside of one.

* `decodeUtf8_take` : **the first bytes of a text are read as its longest beginning that fits**.
* `width_le` : no character of a text reaches beyond its bytes, whichever byte is asked.
-/

namespace Lib

@[simp] theorem encodeUtf8_nil : encodeUtf8 [] = [] := rfl

@[simp] theorem encodeUtf8_cons (c : Char) (t : Text) :
    encodeUtf8 (c :: t) = String.utf8EncodeChar c ++ encodeUtf8 t := List.flatMap_cons ..

@[simp] theorem encodeUtf8_append (t u : Text) :
    encodeUtf8 (t ++ u) = encodeUtf8 t ++ encodeUtf8 u := List.flatMap_append ..

theorem length_encodeChar_pos (c : Char) : 0 < (String.utf8EncodeChar c).length := by
  obtain ⟨first, later, hbytes, -⟩ := (utf8Sequence_encode c).exists_cons
  simp [hbytes]

/-- The bytes of a text are read as it. -/
theorem decodeUtf8_encodeUtf8_append (t : Text) (rest : Bytes) :
    decodeUtf8 (encodeUtf8 t ++ rest) =
      ⟨t ++ (decodeUtf8 rest).text, (decodeUtf8 rest).stop⟩ := by
  induction t with
  | nil => rfl
  | cons c t ih =>
    rw [encodeUtf8_cons, List.append_assoc, (utf8Sequence_encode c).decodeUtf8_append, ih]
    rfl

theorem decodeUtf8_encodeUtf8 (t : Text) : decodeUtf8 (encodeUtf8 t) = ⟨t, .complete⟩ := by
  have hread := decodeUtf8_encodeUtf8_append t []
  rwa [List.append_nil, decodeUtf8, List.append_nil] at hread

/-- The longest beginning of a text whose bytes stand in the first `n`. -/
structure IsWholePrefix (t : Text) (n : ℕ) (p : Text) : Prop where
  front : p <+: t
  fits : (encodeUtf8 p).length ≤ n
  longest : ∀ q, q <+: t → (encodeUtf8 q).length ≤ n → q <+: p

/-- The longest end of a text whose bytes stand behind the first `n`. -/
structure IsWholeSuffix (t : Text) (n : ℕ) (s : Text) : Prop where
  back : s <:+ t
  inside : n + (encodeUtf8 s).length ≤ (encodeUtf8 t).length
  longest : ∀ q, q <:+ t → n + (encodeUtf8 q).length ≤ (encodeUtf8 t).length → q <:+ s

/-- The text in front of a place, up to the character that the place stands in. -/
theorem exists_cut (t : Text) (n : ℕ) : ∃ a b, t = a ++ b ∧ (encodeUtf8 a).length ≤ n ∧
    ∀ c ∈ b.head?, n < (encodeUtf8 (a ++ [c])).length := by
  induction t generalizing n with
  | nil => exact ⟨[], [], rfl, Nat.zero_le _, by simp⟩
  | cons c t ih =>
    by_cases hfits : (String.utf8EncodeChar c).length ≤ n
    · obtain ⟨a, b, rfl, hle, hnext⟩ := ih (n - (String.utf8EncodeChar c).length)
      refine ⟨c :: a, b, rfl, ?_, fun d hd => ?_⟩
      · rw [encodeUtf8_cons, List.length_append]
        omega
      · have hlonger := hnext d hd
        rw [List.cons_append, encodeUtf8_cons, List.length_append]
        omega
    · exact ⟨[], c :: t, rfl, Nat.zero_le _, by simpa using hfits⟩

section

variable {a b : Text} {n : ℕ}

theorem isWholePrefix_of_cut (hle : (encodeUtf8 a).length ≤ n)
    (hnext : ∀ c ∈ b.head?, n < (encodeUtf8 (a ++ [c])).length) :
    IsWholePrefix (a ++ b) n a := by
  refine ⟨List.prefix_append a b, hle, fun q hq hfits => ?_⟩
  rcases List.prefix_or_prefix_of_prefix hq (List.prefix_append a b) with hqa | ⟨r, rfl⟩
  · exact hqa
  · cases r with
    | nil => rw [List.append_nil]
    | cons c r =>
      -- a longer beginning has the character that does not fit
      obtain ⟨rest, hrest⟩ := hq
      rw [List.append_assoc, List.append_cancel_left_eq] at hrest
      have hlong := hnext c (by rw [← hrest]; rfl)
      simp only [encodeUtf8_append, encodeUtf8_cons, List.length_append] at hfits hlong
      simp only [encodeUtf8_nil, List.length_nil] at hlong
      omega

theorem isWholeSuffix_of_cut (hle : n ≤ (encodeUtf8 a).length)
    (hbefore : ∀ x c, a = x ++ [c] → (encodeUtf8 x).length < n) :
    IsWholeSuffix (a ++ b) n b := by
  refine ⟨List.suffix_append a b, ?_, fun q hq hinside => ?_⟩
  · rw [encodeUtf8_append, List.length_append]
    omega
  rcases List.suffix_or_suffix_of_suffix hq (List.suffix_append a b) with hqb | ⟨r, rfl⟩
  · exact hqb
  · rcases r.eq_nil_or_concat with rfl | ⟨r, c, rfl⟩
    · rw [List.nil_append]
    · -- a longer end begins in front of the place
      obtain ⟨x, hx⟩ := hq
      rw [← List.append_assoc, List.append_cancel_right_eq, List.concat_eq_append,
        ← List.append_assoc] at hx
      have hlt := hbefore (x ++ r) c hx.symm
      rw [← hx] at hinside
      simp only [List.concat_eq_append, encodeUtf8_append, List.length_append] at hinside hlt
      omega

/-- **The first bytes of a text are read as its longest beginning that fits.** -/
theorem decodeUtf8_take (t : Text) (n : ℕ) : ∃ p, IsWholePrefix t n p ∧
    (decodeUtf8 ((encodeUtf8 t).take n)).text = p ∧
      ((decodeUtf8 ((encodeUtf8 t).take n)).stop = .complete ∨
        (decodeUtf8 ((encodeUtf8 t).take n)).stop = .cut ∧ n < (encodeUtf8 t).length) := by
  obtain ⟨a, b, rfl, hle, hnext⟩ := exists_cut t n
  refine ⟨a, isWholePrefix_of_cut hle hnext, ?_⟩
  rw [encodeUtf8_append, List.take_append, List.take_of_length_le hle,
    decodeUtf8_encodeUtf8_append]
  cases b with
  | nil => simp [decodeUtf8]
  | cons c b =>
    have hlong := hnext c rfl
    simp only [encodeUtf8_append, encodeUtf8_cons, encodeUtf8_nil, List.append_nil,
      List.length_append] at hlong ⊢
    rw [List.take_append_of_le_length (by omega)]
    rcases Nat.eq_or_lt_of_le hle with heq | hlt
    · simp [heq, decodeUtf8]
    · rw [(utf8Sequence_encode c).decodeUtf8_take (by omega) (by omega), List.append_nil]
      exact ⟨rfl, Or.inr ⟨rfl, by omega⟩⟩

/-- **No character reaches beyond the bytes of its text.** -/
theorem width_le {i : ℕ} (h : i < (encodeUtf8 a).length) :
    i + utf8Width ((encodeUtf8 a).getD i 0) ≤ (encodeUtf8 a).length := by
  induction a generalizing i with
  | nil => cases h
  | cons c a ih =>
    obtain ⟨first, later, hbytes, hwidth, -, hlater⟩ := (utf8Sequence_encode c).exists_cons
    simp only [encodeUtf8_cons, List.length_append] at h ⊢
    by_cases hin : i < (String.utf8EncodeChar c).length
    · rw [List.getD_append _ _ _ _ hin, hbytes]
      rw [hbytes, List.length_cons] at hin
      rw [List.length_cons]
      cases i with
      | zero =>
        rw [List.getD_cons_zero, hwidth]
        omega
      | succ i =>
        have hi : i < later.length := Nat.lt_of_succ_lt_succ hin
        rw [List.getD_cons_succ, List.getD_eq_getElem _ _ hi,
          utf8Width_continuation (hlater _ (List.getElem_mem hi))]
        omega
    · rw [List.getD_append_right _ _ _ _ (Nat.le_of_not_lt hin)]
      have hrest := @ih (i - (String.utf8EncodeChar c).length) (by omega)
      omega

end

end Lib
