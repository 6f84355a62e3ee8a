import DailyReport.Lib.Utf8Cut

/-!
# The bytes that are read as a text

* `decodeUtf8_complete_iff` : **only the bytes of a text are read as it**.
-/

namespace Lib

/-- What a first byte that begins a character says about it. -/
theorem utf8Width_eq {b : UInt8} {width : ℕ} (h : utf8Width b = width) (hpos : width ≠ 0) :
    width = 1 ∧ b.toNat ≤ 0x7F ∨ width = 2 ∧ 0xC2 ≤ b.toNat ∧ b.toNat ≤ 0xDF ∨
      width = 3 ∧ 0xE0 ≤ b.toNat ∧ b.toNat ≤ 0xEF ∨ width = 4 ∧ 0xF0 ≤ b.toNat ∧ b.toNat ≤ 0xF4 := by
  unfold utf8Width at h
  simp only [UInt8.le_iff_toNat_le, UInt8.reduceToNat] at h
  split_ifs at h <;> omega

theorem toNat_ofNat_valid {n : ℕ} (h : n < 0xD800 ∨ 0xDFFF < n ∧ n < 0x110000) :
    (Char.ofNat n).val.toNat = n := by
  have hvalid : n.isValidChar := h
  rw [Char.ofNat, dif_pos hvalid]
  rfl

theorem ofNat_eq_byte {b : UInt8} {n : ℕ} (h : n = b.toNat) : b = UInt8.ofNat n := by
  rw [h, UInt8.ofNat_toNat]

/-- **A character has one sequence.** -/
theorem Utf8Sequence.eq_encode {c : Char} {bytes : Bytes} (h : Utf8Sequence c bytes) :
    bytes = String.utf8EncodeChar c := by
  cases h with
  | @one b0 hwidth hchar =>
    have hb0 := utf8Width_eq hwidth (by decide)
    have hval : c.val.toNat = b0.toNat := by
      rw [← hchar, utf8Char, List.foldl_nil, toNat_ofNat_valid (by omega)]
    fun_cases String.utf8EncodeChar c with
    | case1 v h1 => exact congrArg (fun b => [b]) (ofNat_eq_byte (by simp only [v]; omega))
    | case2 v h1 h2 => simp only [v] at h1; omega
    | case3 v h1 h2 h3 => simp only [v] at h1; omega
    | case4 v h1 h2 h3 => simp only [v] at h1; omega
  | @two b0 b1 hwidth h1 hchar =>
    have hb0 := utf8Width_eq hwidth (by decide)
    have hb1 := isUtf8Continuation_iff.1 h1
    have hval : c.val.toNat = b0.toNat % 32 * 64 + b1.toNat % 64 := by
      rw [← hchar, utf8Char, List.foldl_cons, List.foldl_nil, toNat_ofNat_valid (by omega)]
    fun_cases String.utf8EncodeChar c with
    | case1 v hle => simp only [v] at hle; omega
    | case2 v hlt hle =>
      rw [ofNat_eq_byte (b := b0) (n := v / 0x40 % 0x20 + 0xc0) (by simp only [v]; omega),
        ofNat_eq_byte (b := b1) (n := v % 0x40 + 0x80) (by simp only [v]; omega)]
    | case3 v hlt hlt' hle => simp only [v] at hlt'; omega
    | case4 v hlt hlt' hlt'' => simp only [v] at hlt'; omega
  | @three b0 b1 b2 hwidth h1 h2 hchar =>
    have hb0 := utf8Width_eq hwidth (by decide)
    obtain ⟨hb1, hsecond⟩ := isUtf8Second_iff.1 h1
    rw [isUtf8Continuation_iff] at hb1
    have hb2 := isUtf8Continuation_iff.1 h2
    have hval : c.val.toNat = (b0.toNat % 16 * 64 + b1.toNat % 64) * 64 + b2.toNat % 64 := by
      rw [← hchar, utf8Char, List.foldl_cons, List.foldl_cons, List.foldl_nil,
        toNat_ofNat_valid (by omega)]
    fun_cases String.utf8EncodeChar c with
    | case1 v hle => simp only [v] at hle; omega
    | case2 v hlt hle => simp only [v] at hle; omega
    | case3 v hlt hlt' hle =>
      rw [ofNat_eq_byte (b := b0) (n := v / 0x1000 % 0x10 + 0xe0) (by simp only [v]; omega),
        ofNat_eq_byte (b := b1) (n := v / 0x40 % 0x40 + 0x80) (by simp only [v]; omega),
        ofNat_eq_byte (b := b2) (n := v % 0x40 + 0x80) (by simp only [v]; omega)]
    | case4 v hlt hlt' hlt'' => simp only [v] at hlt''; omega
  | @four b0 b1 b2 b3 hwidth h1 h2 h3 hchar =>
    have hb0 := utf8Width_eq hwidth (by decide)
    obtain ⟨hb1, hsecond⟩ := isUtf8Second_iff.1 h1
    rw [isUtf8Continuation_iff] at hb1
    have hb2 := isUtf8Continuation_iff.1 h2
    have hb3 := isUtf8Continuation_iff.1 h3
    have hval : c.val.toNat =
        ((b0.toNat % 8 * 64 + b1.toNat % 64) * 64 + b2.toNat % 64) * 64 + b3.toNat % 64 := by
      rw [← hchar, utf8Char, List.foldl_cons, List.foldl_cons, List.foldl_cons, List.foldl_nil,
        toNat_ofNat_valid (by omega)]
    fun_cases String.utf8EncodeChar c with
    | case1 v hle => simp only [v] at hle; omega
    | case2 v hlt hle => simp only [v] at hle; omega
    | case3 v hlt hlt' hle => simp only [v] at hle; omega
    | case4 v hlt hlt' hlt'' =>
      rw [ofNat_eq_byte (b := b0) (n := v / 0x40000 % 0x8 + 0xf0) (by simp only [v]; omega),
        ofNat_eq_byte (b := b1) (n := v / 0x1000 % 0x40 + 0x80) (by simp only [v]; omega),
        ofNat_eq_byte (b := b2) (n := v / 0x40 % 0x40 + 0x80) (by simp only [v]; omega),
        ofNat_eq_byte (b := b3) (n := v % 0x40 + 0x80) (by simp only [v]; omega)]

theorem Utf8Text.cons_eq {c : Char} {r : Utf8Text} {t : Text}
    (h : r.cons c = ⟨t, .complete⟩) : ∃ u, t = c :: u ∧ r = ⟨u, .complete⟩ := by
  obtain ⟨text, stop⟩ := r
  cases h
  exact ⟨text, rfl, rfl⟩

/-- **Only the bytes of a text are read as it.** -/
theorem eq_encodeUtf8 {bytes : Bytes} {t : Text} (h : decodeUtf8 bytes = ⟨t, .complete⟩) :
    bytes = encodeUtf8 t := by
  -- a sequence has the bytes of its character, and the rest is read behind it
  have hcons : ∀ {c : Char} {head rest : Bytes} {t : Text}, Utf8Sequence c head →
      (decodeUtf8 rest).cons c = ⟨t, .complete⟩ →
      (∀ {u}, decodeUtf8 rest = ⟨u, .complete⟩ → rest = encodeUtf8 u) →
      head ++ rest = encodeUtf8 t := by
    intro c head rest t hseq hread ih
    obtain ⟨u, rfl, hrest⟩ := Utf8Text.cons_eq hread
    rw [encodeUtf8_cons, hseq.eq_encode, ih hrest]
  fun_induction decodeUtf8 bytes generalizing t with
  | case1 =>
    cases h
    rfl
  | case2 b0 rest hwidth ih => exact hcons (.one hwidth rfl) h ih
  | case4 b0 hwidth b1 rest h1 ih => exact hcons (.two hwidth h1 rfl) h ih
  | case8 b0 hwidth b1 h1 b2 rest h2 ih => exact hcons (.three hwidth h1 h2 rfl) h ih
  | case14 b0 hwidth b1 h1 b2 h2 b3 rest h3 ih => exact hcons (.four hwidth h1 h2 h3 rfl) h ih
  | _ => cases h

/-- The bytes that are read as a text are its own. -/
theorem decodeUtf8_complete_iff {bytes : Bytes} {t : Text} :
    decodeUtf8 bytes = ⟨t, .complete⟩ ↔ bytes = encodeUtf8 t :=
  ⟨eq_encodeUtf8, fun h => h ▸ decodeUtf8_encodeUtf8 t⟩

end Lib
