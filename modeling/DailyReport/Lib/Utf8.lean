import DailyReport.Lib.Text

/-!
# Decoding UTF-8

`decodeUtf8` reads the characters of some bytes up to the first place where they are malformed or
end inside a character, and says how it has ended.

* `decodeUtf8_ascii` : ASCII characters are their own bytes.
* `utf8Sequence_encode` : **every character is written as a sequence that is read as it**.
-/

namespace Lib

abbrev Bytes := List UInt8

/-- How some bytes end. -/
inductive Utf8End
  | complete
  /-- Inside a character that is well formed so far. -/
  | cut
  | malformed
  deriving DecidableEq

/-- The characters that have been read, and how the reading has ended. -/
structure Utf8Text where
  text : Text
  stop : Utf8End
  deriving DecidableEq

def Utf8Text.cons (c : Char) (r : Utf8Text) : Utf8Text := { r with text := c :: r.text }

def isUtf8Continuation (b : UInt8) : Bool := decide (0x80 ≤ b) && decide (b ≤ 0xBF)

/-- The second byte of three or four: overlong forms, surrogates and values beyond the last
character are no characters. -/
def isUtf8Second (b0 b1 : UInt8) : Bool :=
  if b0 = 0xE0 then decide (0xA0 ≤ b1) && decide (b1 ≤ 0xBF)
  else if b0 = 0xED then decide (0x80 ≤ b1) && decide (b1 ≤ 0x9F)
  else if b0 = 0xF0 then decide (0x90 ≤ b1) && decide (b1 ≤ 0xBF)
  else if b0 = 0xF4 then decide (0x80 ≤ b1) && decide (b1 ≤ 0x8F)
  else isUtf8Continuation b1

/-- Bytes of the character that a byte begins; zero if it begins none. -/
def utf8Width (b : UInt8) : ℕ :=
  if b ≤ 0x7F then 1
  else if 0xC2 ≤ b ∧ b ≤ 0xDF then 2
  else if 0xE0 ≤ b ∧ b ≤ 0xEF then 3
  else if 0xF0 ≤ b ∧ b ≤ 0xF4 then 4
  else 0

/-- The character with the given leading bits and continuation bytes. -/
def utf8Char (lead : ℕ) (tail : Bytes) : Char :=
  Char.ofNat (tail.foldl (fun value b => value * 64 + b.toNat % 64) lead)

def decodeUtf8 : Bytes → Utf8Text
  | [] => ⟨[], .complete⟩
  | b0 :: rest =>
    match utf8Width b0 with
    | 1 => (decodeUtf8 rest).cons (utf8Char b0.toNat [])
    | 2 =>
      match rest with
      | [] => ⟨[], .cut⟩
      | b1 :: rest =>
        if isUtf8Continuation b1 then (decodeUtf8 rest).cons (utf8Char (b0.toNat % 32) [b1])
        else ⟨[], .malformed⟩
    | 3 =>
      match rest with
      | [] => ⟨[], .cut⟩
      | b1 :: rest =>
        if isUtf8Second b0 b1 then
          match rest with
          | [] => ⟨[], .cut⟩
          | b2 :: rest =>
            if isUtf8Continuation b2 then
              (decodeUtf8 rest).cons (utf8Char (b0.toNat % 16) [b1, b2])
            else ⟨[], .malformed⟩
        else ⟨[], .malformed⟩
    | 4 =>
      match rest with
      | [] => ⟨[], .cut⟩
      | b1 :: rest =>
        if isUtf8Second b0 b1 then
          match rest with
          | [] => ⟨[], .cut⟩
          | b2 :: rest =>
            if isUtf8Continuation b2 then
              match rest with
              | [] => ⟨[], .cut⟩
              | b3 :: rest =>
                if isUtf8Continuation b3 then
                  (decodeUtf8 rest).cons (utf8Char (b0.toNat % 8) [b1, b2, b3])
                else ⟨[], .malformed⟩
            else ⟨[], .malformed⟩
        else ⟨[], .malformed⟩
    | _ => ⟨[], .malformed⟩

/-- The byte of an ASCII character. -/
def asciiByte (c : Char) : UInt8 := UInt8.ofNat c.toNat

/-- ASCII characters are their own bytes. -/
theorem decodeUtf8_ascii {t : Text} (h : ∀ c ∈ t, c.toNat < 128) :
    decodeUtf8 (t.map asciiByte) = ⟨t, .complete⟩ := by
  induction t with
  | nil => rfl
  | cons c t ih =>
    have hc : c.toNat < 128 := h c List.mem_cons_self
    have htoNat : (asciiByte c).toNat = c.toNat := by
      rw [asciiByte, UInt8.toNat_ofNat']
      omega
    have hle : asciiByte c ≤ 0x7F := by
      rw [UInt8.le_iff_toNat_le, htoNat]
      exact Nat.lt_succ_iff.1 hc
    have hwidth : utf8Width (asciiByte c) = 1 := if_pos hle
    rw [List.map_cons]
    unfold decodeUtf8
    simp only [hwidth]
    rw [ih fun d hd => h d (List.mem_cons_of_mem _ hd), utf8Char, List.foldl_nil, htoNat,
      Char.ofNat_toNat]
    rfl

/-- The bytes of a text. -/
def encodeUtf8 (t : Text) : Bytes := t.flatMap String.utf8EncodeChar

/-- The bytes of one character, the first of which says how many they are. -/
inductive Utf8Sequence (c : Char) : Bytes → Prop
  | one {b0 : UInt8} (hwidth : utf8Width b0 = 1) (hchar : utf8Char b0.toNat [] = c) :
    Utf8Sequence c [b0]
  | two {b0 b1 : UInt8} (hwidth : utf8Width b0 = 2) (h1 : isUtf8Continuation b1 = true)
    (hchar : utf8Char (b0.toNat % 32) [b1] = c) : Utf8Sequence c [b0, b1]
  | three {b0 b1 b2 : UInt8} (hwidth : utf8Width b0 = 3) (h1 : isUtf8Second b0 b1 = true)
    (h2 : isUtf8Continuation b2 = true) (hchar : utf8Char (b0.toNat % 16) [b1, b2] = c) :
    Utf8Sequence c [b0, b1, b2]
  | four {b0 b1 b2 b3 : UInt8} (hwidth : utf8Width b0 = 4) (h1 : isUtf8Second b0 b1 = true)
    (h2 : isUtf8Continuation b2 = true) (h3 : isUtf8Continuation b3 = true)
    (hchar : utf8Char (b0.toNat % 8) [b1, b2, b3] = c) : Utf8Sequence c [b0, b1, b2, b3]

theorem isUtf8Continuation_iff {b : UInt8} :
    isUtf8Continuation b = true ↔ 0x80 ≤ b.toNat ∧ b.toNat ≤ 0xBF := by
  simp [isUtf8Continuation, UInt8.le_iff_toNat_le]

/-- A second byte is a continuation byte, with a smaller range behind four first bytes. -/
theorem isUtf8Second_iff {b0 b1 : UInt8} : isUtf8Second b0 b1 = true ↔
    isUtf8Continuation b1 = true ∧ (b0.toNat = 0xE0 → 0xA0 ≤ b1.toNat) ∧
      (b0.toNat = 0xED → b1.toNat ≤ 0x9F) ∧ (b0.toNat = 0xF0 → 0x90 ≤ b1.toNat) ∧
      (b0.toNat = 0xF4 → b1.toNat ≤ 0x8F) := by
  unfold isUtf8Second
  simp only [← UInt8.toNat_inj, UInt8.reduceToNat]
  split_ifs <;> simp [isUtf8Continuation_iff, UInt8.le_iff_toNat_le] <;> omega

theorem utf8Width_two {b : UInt8} (h : 0xC2 ≤ b.toNat ∧ b.toNat ≤ 0xDF) : utf8Width b = 2 := by
  unfold utf8Width
  rw [if_neg (by simp [UInt8.le_iff_toNat_le]; omega), if_pos (by simpa [UInt8.le_iff_toNat_le])]

theorem utf8Width_three {b : UInt8} (h : 0xE0 ≤ b.toNat ∧ b.toNat ≤ 0xEF) : utf8Width b = 3 := by
  unfold utf8Width
  rw [if_neg (by simp [UInt8.le_iff_toNat_le]; omega),
    if_neg (by simp [UInt8.le_iff_toNat_le]; omega), if_pos (by simpa [UInt8.le_iff_toNat_le])]

theorem utf8Width_four {b : UInt8} (h : 0xF0 ≤ b.toNat ∧ b.toNat ≤ 0xF4) : utf8Width b = 4 := by
  unfold utf8Width
  rw [if_neg (by simp [UInt8.le_iff_toNat_le]; omega),
    if_neg (by simp [UInt8.le_iff_toNat_le]; omega),
    if_neg (by simp [UInt8.le_iff_toNat_le]; omega), if_pos (by simpa [UInt8.le_iff_toNat_le])]

/-- A continuation byte begins no character. -/
theorem utf8Width_continuation {b : UInt8} (h : isUtf8Continuation b = true) :
    utf8Width b = 0 := by
  rw [isUtf8Continuation_iff] at h
  unfold utf8Width
  rw [if_neg (by simp [UInt8.le_iff_toNat_le]; omega),
    if_neg (by simp [UInt8.le_iff_toNat_le]; omega),
    if_neg (by simp [UInt8.le_iff_toNat_le]; omega),
    if_neg (by simp [UInt8.le_iff_toNat_le]; omega)]

theorem toNat_valid (c : Char) : c.toNat < 0xD800 ∨ 0xDFFF < c.toNat ∧ c.toNat < 0x110000 := by
  have h := c.valid
  rwa [UInt32.isValidChar, Nat.isValidChar] at h

theorem utf8Char_eq {lead : ℕ} {tail : Bytes} {c : Char}
    (h : tail.foldl (fun value b => value * 64 + b.toNat % 64) lead = c.toNat) :
    utf8Char lead tail = c := by
  rw [utf8Char, h, Char.ofNat_toNat]

/-- The last six bits of a number as a continuation byte. -/
theorem isUtf8Continuation_ofNat (n : ℕ) :
    isUtf8Continuation (UInt8.ofNat (n % 0x40 + 0x80)) = true := by
  rw [isUtf8Continuation_iff, UInt8.toNat_ofNat']
  omega

/-- **Every character is written as a sequence that is read as it.** -/
theorem utf8Sequence_encode (c : Char) : Utf8Sequence c (String.utf8EncodeChar c) := by
  have hvalid := toNat_valid c
  have hval : c.val.toNat = c.toNat := rfl
  -- surrogates are excluded by the second byte of three, large values by that of four
  fun_cases String.utf8EncodeChar c with
  | case1 v h1 =>
    simp only [v, hval] at h1 ⊢
    refine .one (if_pos ?_) (utf8Char_eq ?_)
    · simp [UInt8.le_iff_toNat_le]
      omega
    · simp
      omega
  | case2 v h1 h2 =>
    simp only [v, hval] at h1 h2 ⊢
    refine .two (utf8Width_two ?_) (isUtf8Continuation_ofNat _) (utf8Char_eq ?_)
    · rw [UInt8.toNat_ofNat']
      omega
    · simp
      omega
  | case3 v h1 h2 h3 =>
    simp only [v, hval] at h1 h2 h3 ⊢
    refine .three (utf8Width_three ?_) (isUtf8Second_iff.2 ⟨isUtf8Continuation_ofNat _, ?_⟩)
      (isUtf8Continuation_ofNat _) (utf8Char_eq ?_)
    · rw [UInt8.toNat_ofNat']
      omega
    · simp only [UInt8.toNat_ofNat']
      omega
    · simp
      omega
  | case4 v h1 h2 h3 =>
    simp only [v, hval] at h1 h2 h3 ⊢
    refine .four (utf8Width_four ?_) (isUtf8Second_iff.2 ⟨isUtf8Continuation_ofNat _, ?_⟩)
      (isUtf8Continuation_ofNat _) (isUtf8Continuation_ofNat _) (utf8Char_eq ?_)
    · rw [UInt8.toNat_ofNat']
      omega
    · simp only [UInt8.toNat_ofNat']
      omega
    · simp
      omega

namespace Utf8Sequence

variable {c : Char} {bytes : Bytes}

/-- Continuation bytes stand behind a first byte that counts them. -/
theorem exists_cons (h : Utf8Sequence c bytes) : ∃ first later, bytes = first :: later ∧
    utf8Width first = later.length + 1 ∧ later.length ≤ 3 ∧
      ∀ b ∈ later, isUtf8Continuation b = true := by
  cases h with
  | one hwidth hchar => exact ⟨_, [], rfl, hwidth, by simp, by simp⟩
  | two hwidth h1 hchar => exact ⟨_, [_], rfl, hwidth, by simp, by simpa using h1⟩
  | three hwidth h1 h2 hchar =>
    exact ⟨_, [_, _], rfl, hwidth, by simp, by simp [h2, (isUtf8Second_iff.1 h1).1]⟩
  | four hwidth h1 h2 h3 hchar =>
    exact ⟨_, [_, _, _], rfl, hwidth, by simp, by simp [h2, h3, (isUtf8Second_iff.1 h1).1]⟩

theorem decodeUtf8_append (h : Utf8Sequence c bytes) (rest : Bytes) :
    decodeUtf8 (bytes ++ rest) = (decodeUtf8 rest).cons c := by
  cases h with
  | one hwidth hchar =>
    rw [List.singleton_append]
    conv_lhs => unfold decodeUtf8
    simp only [hwidth, hchar]
  | two hwidth h1 hchar =>
    rw [List.cons_append, List.singleton_append]
    conv_lhs => unfold decodeUtf8
    simp only [hwidth, h1, hchar, if_true]
  | three hwidth h1 h2 hchar =>
    rw [List.cons_append, List.cons_append, List.singleton_append]
    conv_lhs => unfold decodeUtf8
    simp only [hwidth, h1, h2, hchar, if_true]
  | four hwidth h1 h2 h3 hchar =>
    rw [List.cons_append, List.cons_append, List.cons_append, List.singleton_append]
    conv_lhs => unfold decodeUtf8
    simp only [hwidth, h1, h2, h3, hchar, if_true]

/-- A character that is cut is read as no character, and as nothing malformed. -/
theorem decodeUtf8_take (h : Utf8Sequence c bytes) {n : ℕ} (hpos : 0 < n) (hlt : n < bytes.length) :
    decodeUtf8 (bytes.take n) = ⟨[], .cut⟩ := by
  obtain ⟨n, rfl⟩ := Nat.exists_eq_succ_of_ne_zero hpos.ne'
  cases h with
  | one hwidth hchar => simp at hlt
  | two hwidth h1 hchar =>
    obtain rfl : n = 0 := by simp at hlt; omega
    simp [decodeUtf8, hwidth]
  | three hwidth h1 h2 hchar =>
    obtain rfl | rfl : n = 0 ∨ n = 1 := by simp at hlt; omega
    · simp [decodeUtf8, hwidth]
    · simp [decodeUtf8, hwidth, h1]
  | four hwidth h1 h2 h3 hchar =>
    obtain rfl | rfl | rfl : n = 0 ∨ n = 1 ∨ n = 2 := by simp at hlt; omega
    · simp [decodeUtf8, hwidth]
    · simp [decodeUtf8, hwidth, h1]
    · simp [decodeUtf8, hwidth, h1, h2]

end Utf8Sequence

end Lib
