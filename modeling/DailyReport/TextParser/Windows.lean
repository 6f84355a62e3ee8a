import DailyReport.Lib.Utf8Cut
import DailyReport.TextParser.Excerpt

/-!
# The windows of a UTF-8 file

A window of a file begins and ends at any byte.  The head drops the character that it has cut; the
tail finds the character that begins before it in the three bytes in front.

* `trimLeading_cut` : the bytes of a character that begins before the window are dropped, and no
  others;
* `windows_exact` : **both windows are read as the longest text that stands in them whole**.
-/

namespace DailyReport.TextParser

open Lib

theorem utf8SequenceLength_le (b : UInt8) : utf8SequenceLength b ≤ utf8Width b := by
  unfold utf8SequenceLength
  split_ifs
  · exact Nat.zero_le _
  · exact Nat.le_refl _

theorem utf8SequenceLength_eq {b : UInt8} (h : 2 ≤ utf8Width b) :
    utf8SequenceLength b = utf8Width b := by
  refine if_neg fun hle => ?_
  rw [utf8Width, if_pos hle] at h
  omega

/-! ### The head -/

theorem decodeHead_exact (t : Text) (n : ℕ) {truncated : Bool}
    (htruncated : n < (encodeUtf8 t).length → truncated = true) :
    ∃ p, decodeHead ((encodeUtf8 t).take n) truncated = .ok p ∧ IsWholePrefix t n p := by
  obtain ⟨p, hp, htext, hstop⟩ := decodeUtf8_take t n
  refine ⟨p, ?_, hp⟩
  unfold decodeHead
  rcases hstop with hstop | ⟨hstop, hlt⟩
  · rw [hstop, htext]
  · simp only [hstop, htruncated hlt, htext, if_true]

/-- Valid UTF-8 is not tried in another encoding. -/
theorem decodeCsv_eq {libraries : ParserLibraries} {raw : Bytes} {truncated : Bool}
    {allowed : List Text} {p : Text} (h : decodeHead raw truncated = .ok p)
    (hallowed : lit "utf-8" ∈ allowed ∧ lit "utf-8-sig" ∈ allowed) :
    ∃ encoding, decodeCsv libraries raw truncated allowed = .ok (p, encoding) := by
  unfold decodeCsv
  dsimp only
  refine ⟨if [0xEF, 0xBB, 0xBF].isPrefixOf raw then lit "utf-8-sig" else lit "utf-8", ?_⟩
  rw [if_pos (by split_ifs; exacts [hallowed.2, hallowed.1]), h]
  rfl

/-! ### The tail -/

section

variable {a b : Text} {c : Char} {n : ℕ}

/-- The bytes that are searched for the lead stand one behind the other in the file. -/
theorem combined_eq (bytes : Bytes) (n : ℕ) :
    (bytes.take n).drop (n - 3) ++ (bytes.drop n).take 3 =
      (bytes.drop (n - 3)).take (n - (n - 3) + 3) := by
  have hback : bytes.drop n = (bytes.drop (n - 3)).drop (n - (n - 3)) := by
    rw [List.drop_drop]
    congr 1
    omega
  rw [List.drop_take, hback, List.take_add]

theorem getD_combined (bytes : Bytes) {i m : ℕ} (base : ℕ) (h : i < m) :
    ((bytes.drop base).take m).getD i 0 = bytes.getD (base + i) 0 := by
  rw [List.getD_eq_getElem?_getD, List.getElem?_take_of_lt h, List.getElem?_drop,
    List.getD_eq_getElem?_getD]

/-- The lead of the character that stands over the boundary. -/
theorem overlapsBoundary_lead {base : ℕ} (hbase : base ≤ (encodeUtf8 a).length)
    (hafter : (encodeUtf8 a).length < n) (hbefore : n < (encodeUtf8 (a ++ [c])).length) :
    utf8SequenceLength ((encodeUtf8 (a ++ c :: b)).getD (encodeUtf8 a).length 0) =
        (String.utf8EncodeChar c).length ∧
      overlapsBoundary (((encodeUtf8 (a ++ c :: b)).drop base).take (n - base + 3)) (n - base)
        ((encodeUtf8 a).length - base) = true := by
  obtain ⟨first, later, hbytes, hwidth, hshort, -⟩ := (utf8Sequence_encode c).exists_cons
  have hlength : (String.utf8EncodeChar c).length = later.length + 1 := by
    rw [hbytes, List.length_cons]
  simp only [encodeUtf8_append, encodeUtf8_cons, encodeUtf8_nil, List.append_nil,
    List.length_append] at hbefore ⊢
  have hget : (encodeUtf8 a ++ (String.utf8EncodeChar c ++ encodeUtf8 b)).getD
      (encodeUtf8 a).length 0 = first := by
    rw [List.getD_append_right _ _ _ _ (Nat.le_refl _), Nat.sub_self, hbytes]
    rfl
  have hsequence : utf8SequenceLength first = (String.utf8EncodeChar c).length := by
    rw [utf8SequenceLength_eq (by omega), hwidth, hlength]
  rw [hget]
  refine ⟨hsequence, ?_⟩
  have hslice : ((((encodeUtf8 a ++ (String.utf8EncodeChar c ++ encodeUtf8 b)).drop base).take
      (n - base + 3)).drop ((encodeUtf8 a).length - base)).take (String.utf8EncodeChar c).length =
      String.utf8EncodeChar c := by
    rw [List.drop_take, List.take_take, Nat.min_eq_left (by omega), List.drop_drop,
      Nat.add_sub_of_le hbase, List.drop_left, List.take_left]
  have hread : decodeUtf8 (String.utf8EncodeChar c) = ⟨[c], .complete⟩ := by
    simpa using decodeUtf8_encodeUtf8 [c]
  have hroom : (encodeUtf8 a).length - base + (String.utf8EncodeChar c).length ≤ n - base + 3 := by
    omega
  unfold overlapsBoundary
  dsimp only
  rw [getD_combined _ _ (by omega), Nat.add_sub_of_le hbase, hget, hsequence, hslice, hread]
  simp only [List.length_take, List.length_drop, List.length_append, Bool.and_eq_true,
    decide_eq_true_eq, bne_iff_ne, ne_eq, beq_self_eq_true, and_true]
  omega

/-- The characters in front of it end in front of the boundary. -/
theorem overlapsBoundary_before {base i : ℕ} (rest : Bytes)
    (hafter : (encodeUtf8 a).length < n) (hi : base + i < (encodeUtf8 a).length) :
    overlapsBoundary (((encodeUtf8 a ++ rest).drop base).take (n - base + 3)) (n - base) i =
      false := by
  have hreach := width_le hi
  have hle := utf8SequenceLength_le ((encodeUtf8 a).getD (base + i) 0)
  unfold overlapsBoundary
  dsimp only
  rw [getD_combined _ _ (by omega), List.getD_append _ _ _ _ hi,
    decide_eq_false (p := n - base < _) (by omega)]
  simp

/-- **A character that begins before the window is dropped, and nothing behind it.** -/
theorem trimLeading_cut (hafter : (encodeUtf8 a).length < n)
    (hbefore : n < (encodeUtf8 (a ++ [c])).length) :
    trimLeadingUtf8Fragment ((encodeUtf8 (a ++ c :: b)).drop n)
      (((encodeUtf8 (a ++ c :: b)).take n).drop (n - 3)) = encodeUtf8 b := by
  obtain ⟨first, later, hbytes, hwidth, hshort, hlater⟩ := (utf8Sequence_encode c).exists_cons
  have hlength : (String.utf8EncodeChar c).length = later.length + 1 := by
    rw [hbytes, List.length_cons]
  have hend : n < (encodeUtf8 a).length + (String.utf8EncodeChar c).length := by
    simpa using hbefore
  have hwhole : encodeUtf8 (a ++ c :: b) =
      encodeUtf8 a ++ (String.utf8EncodeChar c ++ encodeUtf8 b) := by simp
  have hcontext : (((encodeUtf8 (a ++ c :: b)).take n).drop (n - 3)).length = n - (n - 3) := by
    rw [List.length_drop, List.length_take, hwhole, List.length_append, List.length_append]
    omega
  have hhead : ((encodeUtf8 (a ++ c :: b)).drop n).head?.any isUtf8Continuation = true := by
    have hindex : n - (encodeUtf8 a).length - 1 < later.length := by omega
    rw [List.head?_drop, hwhole, List.getElem?_append_right hafter.le, hbytes, List.cons_append,
      List.getElem?_cons, if_neg (by omega), List.getElem?_append_left hindex,
      List.getElem?_eq_getElem hindex, Option.any_some]
    exact hlater _ (List.getElem_mem hindex)
  obtain ⟨hsequence, hlead⟩ :=
    @overlapsBoundary_lead a b c n (n - 3) (by omega) hafter hbefore
  have hfind : (List.range' 0 (n - (n - 3))).find? (overlapsBoundary
      (((encodeUtf8 (a ++ c :: b)).drop (n - 3)).take (n - (n - 3) + 3)) (n - (n - 3))) =
      some ((encodeUtf8 a).length - (n - 3)) := by
    rw [List.find?_range'_eq_some]
    refine ⟨hlead, by rw [List.mem_range'_1]; omega, fun i _ hi => ?_⟩
    rw [hwhole, overlapsBoundary_before _ hafter (by omega)]
    rfl
  unfold trimLeadingUtf8Fragment
  dsimp only
  rw [if_pos hhead, hcontext, combined_eq, Nat.sub_eq_zero_of_le (by omega : n - (n - 3) ≤ 3),
    Nat.sub_zero, hfind]
  dsimp only
  rw [getD_combined _ _ (by omega), Nat.add_sub_of_le (by omega), hsequence, List.drop_drop,
    hwhole, ← List.append_assoc]
  refine List.drop_left' ?_
  rw [List.length_append]
  omega

/-- A window that begins with a character is kept. -/
theorem trimLeading_whole (context : Bytes) :
    trimLeadingUtf8Fragment (encodeUtf8 b) context = encodeUtf8 b := by
  refine if_neg ?_
  cases b with
  | nil => simp
  | cons c b =>
    obtain ⟨first, later, hbytes, hwidth, -⟩ := (utf8Sequence_encode c).exists_cons
    rw [encodeUtf8_cons, hbytes, List.cons_append, List.head?_cons, Option.any_some]
    intro hcontinuation
    rw [utf8Width_continuation hcontinuation] at hwidth
    omega

theorem decodeTail_exact (t : Text) (n : ℕ) (hn : n ≤ (encodeUtf8 t).length) :
    ∃ s, decodeTail ((encodeUtf8 t).drop n) (((encodeUtf8 t).take n).drop (n - 3))
      (decide (n > 0)) = .ok s ∧ IsWholeSuffix t n s := by
  have hdecode {s : Text} {raw context : Bytes} {trim : Bool}
      (h : (if trim then trimLeadingUtf8Fragment raw context else raw) = encodeUtf8 s) :
      decodeTail raw context trim = .ok s := by
    unfold decodeTail
    dsimp only
    rw [h, decodeUtf8_encodeUtf8, if_pos rfl]
  obtain ⟨a, b, rfl, hle, hnext⟩ := exists_cut t n
  rcases Nat.eq_or_lt_of_le hle with rfl | hlt
  · -- the window begins with a character
    refine ⟨b, hdecode ?_, isWholeSuffix_of_cut (Nat.le_refl _) fun x c hx => ?_⟩
    · rw [encodeUtf8_append, List.drop_left, trimLeading_whole, ite_self]
    · rw [hx, encodeUtf8_append, List.length_append]
      exact Nat.lt_add_of_pos_right (by simpa using length_encodeChar_pos c)
  · cases b with
    | nil =>
      rw [List.append_nil] at hn
      omega
    | cons c b =>
      have hlong := hnext c rfl
      refine ⟨b, hdecode ?_, ?_⟩
      · rw [if_pos (by simpa using Nat.zero_lt_of_lt hlt), trimLeading_cut hlt hlong]
      · rw [List.append_cons]
        refine isWholeSuffix_of_cut hlong.le fun x d hx => ?_
        obtain ⟨rfl, -⟩ := List.append_inj' hx rfl
        exact hlt

end

/-! ### Both windows -/

/-- The file holds a text, and it can be read. -/
structure HoldsText (file : SourceFile) (t : Text) : Prop where
  readable : file.readable = true
  seeks : file.seeks = true
  bytes : file.bytes = encodeUtf8 t

/-- A reading that does not fail, and that has a replacement character only if the file has it. -/
def ReadsAs (t : Text) (read : Except LightTextError Text) (whole : Text → Prop) : Prop :=
  ∃ p, read = .ok p ∧ whole p ∧ ('\uFFFD' ∈ p → '\uFFFD' ∈ t)

section

variable {file : SourceFile} {t : Text} {n : ℕ}

theorem readsAs_head (t : Text) (n : ℕ) {truncated : Bool}
    (htruncated : n < (encodeUtf8 t).length → truncated = true) :
    ReadsAs t (decodeHead ((encodeUtf8 t).take n) truncated) (IsWholePrefix t n) := by
  obtain ⟨p, hdecode, hp⟩ := decodeHead_exact t n htruncated
  exact ⟨p, hdecode, hp, fun hmem => hp.front.subset hmem⟩

theorem readsAs_tail (t : Text) {n : ℕ} (hn : n ≤ (encodeUtf8 t).length) :
    ReadsAs t (decodeTail ((encodeUtf8 t).drop n) (((encodeUtf8 t).take n).drop (n - 3))
      (decide (n > 0))) (IsWholeSuffix t n) := by
  obtain ⟨s, hdecode, hs⟩ := decodeTail_exact t n hn
  exact ⟨s, hdecode, hs, fun hmem => hs.back.subset hmem⟩

theorem readHead_text {libraries : ParserLibraries} {csvEncodings : Option (List Text)}
    (h : HoldsText file t)
    (hencodings : ∀ allowed ∈ csvEncodings, lit "utf-8" ∈ allowed ∧ lit "utf-8-sig" ∈ allowed) :
    ReadsAs t ((readHead libraries file file.bytes.length n csvEncodings).map RawExcerpt.text)
      (IsWholePrefix t n) := by
  rw [h.bytes]
  obtain ⟨p, hdecode, hp⟩ := @readsAs_head t n
    (decide ((encodeUtf8 t).length > ((encodeUtf8 t).take n).length)) fun hcut => by
      rw [List.length_take, Nat.min_eq_left hcut.le]
      exact decide_eq_true hcut
  refine ⟨p, ?_, hp⟩
  unfold readHead
  dsimp only
  rw [h.readable, h.bytes]
  cases csvEncodings with
  | none =>
    rw [decodeWindow, hdecode]
    rfl
  | some allowed =>
    obtain ⟨encoding, hcsv⟩ := decodeCsv_eq hdecode (hencodings allowed rfl)
    rw [decodeWindow, hcsv]
    rfl

theorem readTail_text (h : HoldsText file t) (hn : n ≤ file.bytes.length) :
    ReadsAs t ((readTail file file.bytes.length (file.bytes.length - n)).map RawExcerpt.text)
      (IsWholeSuffix t n) := by
  obtain ⟨s, hdecode, hs⟩ := readsAs_tail t (h.bytes ▸ hn)
  refine ⟨s, ?_, hs⟩
  unfold readTail
  dsimp only
  rw [Nat.sub_sub_self hn, h.readable, h.seeks,
    List.take_of_length_le (by rw [List.length_drop]), List.length_drop, if_neg (by simp),
    if_neg (by omega), List.drop_drop, Nat.add_sub_of_le (Nat.sub_le n 3)]
  rw [h.bytes] at hn ⊢
  rw [List.drop_take] at hdecode
  rw [hdecode]
  rfl

/-- **The windows of a UTF-8 file are decoded exactly**: wherever the file is cut, the head is the
longest beginning of its text that stands whole in front of the cut, and the tail, with the three
bytes in front of it, is the longest end that stands whole behind the cut. -/
theorem windows_exact (h : HoldsText file t) (hn : n ≤ file.bytes.length) :
    ReadsAs t (decodeHead (file.bytes.take n) (decide (n < file.bytes.length)))
        (IsWholePrefix t n) ∧
      ReadsAs t (decodeTail (file.bytes.drop n) ((file.bytes.take n).drop (n - 3))
        (decide (n > 0))) (IsWholeSuffix t n) ∧
      (∀ (libraries : ParserLibraries) (csvEncodings : Option (List Text)),
        (∀ allowed ∈ csvEncodings, lit "utf-8" ∈ allowed ∧ lit "utf-8-sig" ∈ allowed) →
          ReadsAs t ((readHead libraries file file.bytes.length n csvEncodings).map
            RawExcerpt.text) (IsWholePrefix t n)) ∧
      ReadsAs t ((readTail file file.bytes.length (file.bytes.length - n)).map RawExcerpt.text)
        (IsWholeSuffix t n) := by
  refine ⟨?_, ?_, fun _ _ hencodings => readHead_text h hencodings, readTail_text h hn⟩
  · rw [h.bytes]
    exact readsAs_head t n fun hcut => decide_eq_true hcut
  · rw [h.bytes] at hn ⊢
    exact readsAs_tail t hn

/-- A file with a letter, an accented letter and a sign beyond the basic plane. -/
def accentFile : SourceFile :=
  ⟨true, some 7, true, true, encodeUtf8 ['a', 'é', '𝄞']⟩

/-- Cut inside of the last sign, the head has the letters and the tail nothing. -/
theorem windows_exact_accent :
    decodeHead (accentFile.bytes.take 5) true = .ok ['a', 'é'] ∧
      decodeTail (accentFile.bytes.drop 5) ((accentFile.bytes.take 5).drop 2) true = .ok [] ∧
      ReadsAs ['a', 'é', '𝄞'] (decodeHead (accentFile.bytes.take 5) true)
        (IsWholePrefix ['a', 'é', '𝄞'] 5) ∧
      ReadsAs ['a', 'é', '𝄞']
        (decodeTail (accentFile.bytes.drop 5) ((accentFile.bytes.take 5).drop 2) true)
        (IsWholeSuffix ['a', 'é', '𝄞'] 5) := by
  have hwindows := @windows_exact accentFile ['a', 'é', '𝄞'] 5 ⟨rfl, rfl, rfl⟩ (by decide)
  exact ⟨by decide, by decide, hwindows.1, hwindows.2.1⟩

end

end DailyReport.TextParser
