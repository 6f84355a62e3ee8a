import Mathlib.Algebra.Order.Ring.Nat
import Mathlib.Data.Char
import Mathlib.Data.List.Lex
import Mathlib.Data.List.DropRight
import Mathlib.Data.List.Infix

/-!
# Texts as lists of Unicode scalar values

A text is the list of its scalar values.  Its length is then the scalar count, and its order is
the lexicographic order on scalar values, which is the byte order of its UTF-8 encoding.

* `trimEnd` drops the trailing white space, `joinWith` puts a separator between pieces;
* `decimal` is the decimal numeral, with its length bounds (`length_decimal_le_iff`);
* `replaceChar`, `trimMatches` and `containsText` are the usual text helpers.
-/

namespace Lib

/-- A text, as the list of its Unicode scalar values. -/
abbrev Text := List Char

instance : LawfulBEq Text := List.instLawfulBEq

instance : LawfulBEq (List Text) := List.instLawfulBEq

/-- The text of a string literal.  It is irreducible because evaluating `String.toList` is slow. -/
@[irreducible] def lit (s : String) : Text := s.toList

theorem lit_eq (s : String) : lit s = s.toList := by unfold lit; rfl

/-- Largest value of an unsigned 64-bit integer. -/
def u64Max : ℕ := 18446744073709551615

/-- Checked addition of unsigned 64-bit integers. -/
def checkedAdd (a b : ℕ) : Option ℕ := if a + b ≤ u64Max then some (a + b) else none

/-- Saturating addition of unsigned 64-bit integers. -/
def saturatingAdd (a b : ℕ) : ℕ := min (a + b) u64Max

theorem checkedAdd_eq_some {a b c : ℕ} (h : checkedAdd a b = some c) : c = a + b := by
  unfold checkedAdd at h
  split_ifs at h
  simpa using h.symm

theorem saturatingAdd_le_iff {a b c : ℕ} (hc : c < u64Max) :
    saturatingAdd a b ≤ c ↔ a + b ≤ c := by
  unfold saturatingAdd; omega

theorem saturatingAdd_eq {a b : ℕ} (h : a + b ≤ u64Max) : saturatingAdd a b = a + b := by
  unfold saturatingAdd; omega

/-- The Unicode `White_Space` property. -/
def isWhitespace (c : Char) : Bool :=
  decide (9 ≤ c.toNat ∧ c.toNat ≤ 13) || c.toNat == 32 || c.toNat == 0x85 || c.toNat == 0xA0 ||
    c.toNat == 0x1680 || decide (0x2000 ≤ c.toNat ∧ c.toNat ≤ 0x200A) || c.toNat == 0x2028 ||
    c.toNat == 0x2029 || c.toNat == 0x202F || c.toNat == 0x205F || c.toNat == 0x3000

/-- Drop the trailing white space. -/
def trimEnd (t : Text) : Text := t.rdropWhile isWhitespace

/-- Drop the leading white space. -/
def trimStart (t : Text) : Text := t.dropWhile isWhitespace

/-- Drop the white space at both ends. -/
def trim (t : Text) : Text := trimEnd (trimStart t)

/-- Join pieces with a separator between neighbours. -/
def joinWith (sep : Text) (pieces : List Text) : Text := sep.intercalate pieces

/-- Replace every occurrence of one character. -/
def replaceChar (old new : Char) (t : Text) : Text := t.map fun c => if c = old then new else c

/-- Drop a character at both ends. -/
def trimMatches (c : Char) (t : Text) : Text := (t.dropWhile (· == c)).rdropWhile (· == c)

/-- `pattern` occurs in `t`. -/
def containsText (t pattern : Text) : Bool := decide (pattern <:+: t)

/-- The decimal numeral of `n`. -/
def decimal (n : ℕ) : Text := Nat.toDigits 10 n

/-! ### Trimming -/

theorem length_trimEnd_le (t : Text) : (trimEnd t).length ≤ t.length :=
  (List.rdropWhile_prefix isWhitespace t).length_le

theorem length_trim_le (t : Text) : (trim t).length ≤ t.length :=
  (length_trimEnd_le _).trans (List.dropWhile_suffix _).length_le

theorem trimEnd_eq_self {t : Text} {c : Char} (h : t.getLast? = some c)
    (hc : isWhitespace c = false) : trimEnd t = t := by
  refine List.rdropWhile_eq_self_iff.2 fun hne => ?_
  rw [List.getLast?_eq_some_getLast hne] at h
  simp only [Option.some.injEq] at h
  simp [h, hc]

theorem getLast?_trimEnd {t : Text} {c : Char} (h : (trimEnd t).getLast? = some c) :
    isWhitespace c = false := by
  have hne : trimEnd t ≠ [] := by
    intro hnil
    simp [hnil] at h
  rw [List.getLast?_eq_some_getLast hne] at h
  simp only [Option.some.injEq] at h
  have hlast := List.rdropWhile_last_not isWhitespace t hne
  have hlast' : ¬ isWhitespace ((trimEnd t).getLast hne) = true := hlast
  rw [h] at hlast'
  simpa using hlast'

theorem trim_eq_self {t : Text} {c d : Char} (hhead : t.head? = some c) (hlast : t.getLast? = some d)
    (hc : isWhitespace c = false) (hd : isWhitespace d = false) : trim t = t := by
  obtain ⟨rest, rfl⟩ := List.head?_eq_some_iff.1 hhead
  have hstart : trimStart (c :: rest) = c :: rest := by
    rw [trimStart, List.dropWhile_cons, hc]
    rfl
  rw [trim, hstart]
  exact trimEnd_eq_self hlast hd

theorem trim_trim (t : Text) : trim (trim t) = trim t := by
  have hstart : trimStart (trim t) = trim t := by
    unfold trimStart
    rw [List.dropWhile_eq_self_iff]
    intro hpos
    have hfront : trim t <+: t.dropWhile isWhitespace := List.rdropWhile_prefix ..
    have hidem := List.dropWhile_eq_self_iff.1 (List.dropWhile_idempotent isWhitespace t)
    have hhead := hidem (Nat.lt_of_lt_of_le hpos hfront.length_le)
    rw [hfront.getElem hpos]
    exact hhead
  have hend : trimEnd (trim t) = trim t := List.rdropWhile_idempotent ..
  rw [trim, hstart, hend]

/-- Trimming leaves the characters that are no white space. -/
theorem mem_trim_iff {c : Char} (hc : isWhitespace c = false) {t : Text} : c ∈ trim t ↔ c ∈ t := by
  have hdrop {u : Text} : c ∈ u.dropWhile isWhitespace ↔ c ∈ u := by
    refine ⟨fun h => (List.dropWhile_suffix _).mem h, fun h => ?_⟩
    rw [← List.takeWhile_append_dropWhile (p := isWhitespace) (l := u), List.mem_append] at h
    refine h.resolve_left fun hin => ?_
    have hspace := List.mem_takeWhile_imp hin
    rw [hc] at hspace
    cases hspace
  rw [trim, trimEnd, List.rdropWhile, List.mem_reverse, hdrop, List.mem_reverse]
  exact hdrop

/-! ### Joining -/

@[simp] theorem joinWith_nil (sep : Text) : joinWith sep [] = [] := rfl

@[simp] theorem joinWith_singleton (sep t : Text) : joinWith sep [t] = t := by
  simp [joinWith]

theorem joinWith_cons (sep t : Text) {pieces : List Text} (h : pieces ≠ []) :
    joinWith sep (t :: pieces) = t ++ sep ++ joinWith sep pieces := by
  cases pieces with
  | nil => exact absurd rfl h
  | cons u pieces => simp [joinWith, List.intercalate_cons_cons]

/-- Every piece but the first one stands behind a separator. -/
theorem joinWith_cons_eq (sep t : Text) (pieces : List Text) :
    joinWith sep (t :: pieces) = t ++ pieces.flatMap (sep ++ ·) := by
  induction pieces generalizing t with
  | nil => simp
  | cons u pieces ih => rw [joinWith_cons sep t (by simp), ih, List.flatMap_cons, List.append_assoc,
      List.append_assoc]

theorem joinWith_concat (sep t : Text) {pieces : List Text} (h : pieces ≠ []) :
    joinWith sep (pieces ++ [t]) = joinWith sep pieces ++ sep ++ t := by
  induction pieces with
  | nil => exact absurd rfl h
  | cons u pieces ih =>
    cases pieces with
    | nil => simp [joinWith_cons]
    | cons v pieces =>
      rw [List.cons_append, joinWith_cons sep u (by simp), ih (by simp),
        joinWith_cons sep u (by simp)]
      simp [List.append_assoc]

/-- Sum of the lengths of a list of texts. -/
def totalLength (pieces : List Text) : ℕ := (pieces.map List.length).sum

@[simp] theorem totalLength_nil : totalLength [] = 0 := rfl

@[simp] theorem totalLength_cons (t : Text) (pieces : List Text) :
    totalLength (t :: pieces) = t.length + totalLength pieces := by
  simp [totalLength]

@[simp] theorem totalLength_append (ps qs : List Text) :
    totalLength (ps ++ qs) = totalLength ps + totalLength qs := by
  simp [totalLength]

/-- Joined pieces cost their lengths and one separator less than there are pieces. -/
theorem length_joinWith (sep : Text) (pieces : List Text) :
    (joinWith sep pieces).length = totalLength pieces + sep.length * (pieces.length - 1) := by
  induction pieces with
  | nil => simp
  | cons t pieces ih =>
    cases pieces with
    | nil => simp
    | cons u pieces =>
      rw [joinWith_cons sep t (by simp)]
      simp only [List.length_append, ih, totalLength_cons, List.length_cons]
      simp only [Nat.add_sub_cancel, Nat.mul_add, Nat.mul_one]
      omega

/-- The last character of joined pieces is that of the last piece. -/
theorem getLast?_joinWith_concat (sep t : Text) (pieces : List Text) (ht : t ≠ []) :
    (joinWith sep (pieces ++ [t])).getLast? = t.getLast? := by
  by_cases h : pieces = []
  · simp [h]
  · rw [joinWith_concat sep t h, List.getLast?_append_of_ne_nil _ ht]

/-- Joined pieces end with the last piece. -/
theorem suffix_joinWith_concat (sep t : Text) (pieces : List Text) :
    t <:+ joinWith sep (pieces ++ [t]) := by
  by_cases h : pieces = []
  · simp [h]
  · rw [joinWith_concat sep t h]
    exact List.suffix_append _ _

/-! ### Decimal numerals -/

theorem length_decimal_pos (n : ℕ) : 0 < (decimal n).length := Nat.length_toDigits_pos

theorem decimal_ne_nil (n : ℕ) : decimal n ≠ [] := Nat.toDigits_ne_nil

theorem length_decimal_le_iff {n k : ℕ} (hk : 0 < k) : (decimal n).length ≤ k ↔ n < 10 ^ k :=
  Nat.length_toDigits_le_iff (by omega) hk

theorem length_decimal_mono {m n : ℕ} (h : m ≤ n) : (decimal m).length ≤ (decimal n).length :=
  (length_decimal_le_iff (length_decimal_pos n)).2
    (lt_of_le_of_lt h ((length_decimal_le_iff (length_decimal_pos n)).1 le_rfl))

/-- A 64-bit value has at most twenty digits. -/
theorem length_decimal_le_twenty {n : ℕ} (h : n ≤ u64Max) : (decimal n).length ≤ 20 :=
  (length_decimal_le_iff (by omega)).2 (by unfold u64Max at h; omega)

theorem isDigit_of_mem_decimal {n : ℕ} {c : Char} (h : c ∈ decimal n) : c.isDigit = true :=
  Nat.isDigit_of_mem_toDigits (by omega) (by omega) h

theorem isWhitespace_of_isDigit {c : Char} (h : c.isDigit = true) : isWhitespace c = false := by
  simp only [Char.isDigit, Bool.and_eq_true, decide_eq_true_eq, ge_iff_le, UInt32.le_iff_toNat_le]
    at h
  have h1 : 48 ≤ c.toNat := h.1
  have h2 : c.toNat ≤ 57 := h.2
  simp only [isWhitespace, Bool.or_eq_false_iff, decide_eq_false_iff_not, beq_eq_false_iff_ne]
  omega

theorem isUpper_of_isDigit {c : Char} (h : c.isDigit = true) : c.isUpper = false := by
  simp only [Char.isDigit, Bool.and_eq_true, decide_eq_true_eq, ge_iff_le, UInt32.le_iff_toNat_le]
    at h
  have h2 : c.toNat ≤ 57 := h.2
  delta Char.isUpper
  simp only [decide_eq_false_iff_not, ge_iff_le, UInt32.le_iff_toNat_le]
  rintro ⟨h1, -⟩
  have h3 : 65 ≤ c.toNat := h1
  omega

theorem isWhitespace_of_isUpper {c : Char} (h : c.isUpper = true) : isWhitespace c = false := by
  delta Char.isUpper at h
  simp only [decide_eq_true_eq, ge_iff_le, UInt32.le_iff_toNat_le] at h
  have h1 : 65 ≤ c.toNat := h.1
  have h2 : c.toNat ≤ 90 := h.2
  simp only [isWhitespace, Bool.or_eq_false_iff, decide_eq_false_iff_not, beq_eq_false_iff_ne]
  omega

end Lib
