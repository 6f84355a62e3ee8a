import DailyReport.Lib.Machine
import DailyReport.Lib.Text
import Mathlib.Data.List.Infix

/-!
# Slices of a text by bytes

The places in a text are counted in the bytes of its characters.  A slice between two places is
there only when both stand between characters.

* `sliceBytes_append` : **between the ends of two beginnings stands what the longer one adds**.
-/

namespace Lib

/-- The bytes of a text. -/
def byteSize (t : Text) : ℕ := (t.map Char.utf8Size).sum

@[simp] theorem byteSize_nil : byteSize [] = 0 := rfl

@[simp] theorem byteSize_cons (c : Char) (t : Text) :
    byteSize (c :: t) = c.utf8Size + byteSize t := List.sum_cons

@[simp] theorem byteSize_append (t u : Text) : byteSize (t ++ u) = byteSize t + byteSize u := by
  rw [byteSize, List.map_append, List.sum_append]
  rfl

/-- Only the empty text has no bytes. -/
theorem byteSize_pos {t : Text} (h : t ≠ []) : 0 < byteSize t := by
  cases t with
  | nil => exact absurd rfl h
  | cons c t =>
    rw [byteSize_cons]
    exact Nat.add_pos_left c.utf8Size_pos _

/-- The text before a place and the text behind it, if the place is no place inside a character. -/
def splitAtByte : Text → ℕ → Option (Text × Text)
  | t, 0 => some ([], t)
  | [], _ + 1 => none
  | c :: t, n + 1 =>
    if c.utf8Size ≤ n + 1 then
      (splitAtByte t (n + 1 - c.utf8Size)).map fun p => (c :: p.1, p.2)
    else none

/-- The text between two places. -/
def sliceBytes (t : Text) (start stop : ℕ) : Option Text :=
  (checkedSub stop start).bind fun size =>
    (splitAtByte t start).bind fun p => (splitAtByte p.2 size).map Prod.fst

theorem splitAtByte_append (t u : Text) : splitAtByte (t ++ u) (byteSize t) = some (t, u) := by
  induction t with
  | nil =>
    rw [List.nil_append, byteSize_nil]
    unfold splitAtByte
    rfl
  | cons c t ih =>
    obtain ⟨n, hn⟩ := Nat.exists_eq_add_one_of_ne_zero (byteSize_pos (List.cons_ne_nil c t)).ne'
    have hsize : n + 1 = c.utf8Size + byteSize t := hn.symm.trans (byteSize_cons c t)
    have hle : c.utf8Size ≤ n + 1 := hsize ▸ Nat.le_add_right _ _
    have hrest : n + 1 - c.utf8Size = byteSize t := by rw [hsize, Nat.add_sub_cancel_left]
    rw [List.cons_append, hn, splitAtByte, if_pos hle, hrest, ih]
    rfl

theorem splitAtByte_eq_some {t a b : Text} {n : ℕ} (h : splitAtByte t n = some (a, b)) :
    t = a ++ b ∧ byteSize a = n := by
  fun_induction splitAtByte t n generalizing a b with
  | case1 t =>
    cases h
    exact ⟨rfl, rfl⟩
  | case2 => cases h
  | case3 c t n hle ih =>
    obtain ⟨⟨x, y⟩, hsplit, heq⟩ := Option.map_eq_some_iff.1 h
    cases heq
    obtain ⟨rfl, hsize⟩ := ih hsplit
    refine ⟨rfl, ?_⟩
    rw [byteSize_cons, hsize]
    omega
  | case4 => cases h

/-- **Between the ends of two beginnings stands what the longer one adds.** -/
theorem sliceBytes_append (t u v : Text) :
    sliceBytes (t ++ (u ++ v)) (byteSize t) (byteSize (t ++ u)) = some u := by
  have hsize : checkedSub (byteSize (t ++ u)) (byteSize t) = some (byteSize u) := by
    rw [byteSize_append, checkedSub, if_pos (Nat.le_add_right _ _), Nat.add_sub_cancel_left]
  rw [sliceBytes, hsize, Option.bind_some, splitAtByte_append, Option.bind_some,
    splitAtByte_append]
  rfl

/-- Of two beginnings of a text the one with fewer bytes is a beginning of the other. -/
theorem prefix_of_byteSize_le {a b x y : Text} (h : a ++ x = b ++ y)
    (hle : byteSize a ≤ byteSize b) : a <+: b := by
  rcases List.prefix_or_prefix_of_prefix (List.prefix_append a x)
    (h ▸ List.prefix_append b y) with hab | ⟨u, rfl⟩
  · exact hab
  · have hnil : u = [] := by
      by_contra hne
      have hpos := byteSize_pos hne
      rw [byteSize_append] at hle
      omega
    rw [hnil, List.append_nil]

/-- The places of characters are no places inside them. -/
example : sliceBytes ['a', '。', 'b'] 1 4 = some ['。'] ∧ sliceBytes ['a', '。', 'b'] 1 3 = none := by
  decide

end Lib
