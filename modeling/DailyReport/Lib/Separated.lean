import DailyReport.Lib.Text

/-!
# Pieces without their separator

A text joined from pieces that do not hold the separator shows its pieces: a joined text that is a
prefix of another one is made of the same pieces, up to its last one (`prefix_joinWith`).  A
decimal number is read back (`decimal_injective`).
-/

namespace Lib

theorem decimal_injective : Function.Injective decimal := by
  intro m n h
  rw [← Nat.ofDigitChars_ten_toDigits (n := m), ← Nat.ofDigitChars_ten_toDigits (n := n)]
  exact congrArg (fun t => Nat.ofDigitChars 10 t 0) h

theorem notMem_decimal {c : Char} (h : c.isDigit = false) (n : ℕ) : c ∉ decimal n := by
  intro hc
  rw [isDigit_of_mem_decimal hc] at h
  cases h

variable {α : Type*} {c : α} {a b x y : List α}

/-- Two lists are cut at their first separator. -/
theorem eq_and_tail_of_sep (ha : c ∉ a) (hb : c ∉ b) (h : a ++ c :: x <+: b ++ c :: y) :
    a = b ∧ x <+: y := by
  induction a generalizing b with
  | nil =>
    cases b with
    | nil => exact ⟨rfl, (List.cons_prefix_cons.1 h).2⟩
    | cons b bs =>
      obtain ⟨rfl, -⟩ := List.cons_prefix_cons.1 h
      simp at hb
  | cons a as ih =>
    cases b with
    | nil =>
      obtain ⟨rfl, -⟩ := List.cons_prefix_cons.1 h
      simp at ha
    | cons b bs =>
      obtain ⟨rfl, htail⟩ := List.cons_prefix_cons.1 h
      obtain ⟨rfl, hxy⟩ := ih (fun hc => ha (List.mem_cons_of_mem _ hc))
        (fun hc => hb (List.mem_cons_of_mem _ hc)) htail
      exact ⟨rfl, hxy⟩

/-- A list without the separator ends before it. -/
theorem prefix_of_prefix_sep (ha : c ∉ a) (h : a <+: b ++ c :: y) : a <+: b := by
  rcases List.prefix_or_prefix_of_prefix h (List.prefix_append b (c :: y)) with hab | ⟨rest, rfl⟩
  · exact hab
  · cases rest with
    | nil => simp
    | cons r rest =>
      obtain ⟨rfl, -⟩ := List.cons_prefix_cons.1 ((List.prefix_append_right_inj b).1 h)
      simp at ha

/-- What follows the last separator. -/
theorem eq_of_last_sep (hx : c ∉ x) (hy : c ∉ y) (h : a ++ c :: x = b ++ c :: y) : x = y := by
  have hrev : x.reverse ++ c :: a.reverse <+: y.reverse ++ c :: b.reverse := by
    have := congrArg List.reverse h
    simp only [List.reverse_append, List.reverse_cons, List.append_assoc, List.singleton_append]
      at this
    rw [this]
  exact List.reverse_injective
    (eq_and_tail_of_sep (by simpa using hx) (by simpa using hy) hrev).1

/-- A joined text that is a prefix of another one has the same pieces, up to its last piece. -/
theorem prefix_joinWith {c : Char} {pieces others : List Text} (hne : pieces ≠ [])
    (hothers : others ≠ []) (hfree : ∀ p ∈ pieces, c ∉ p) (hfree' : ∀ p ∈ others, c ∉ p)
    (h : joinWith [c] pieces <+: joinWith [c] others) :
    ∃ shared last next rest, pieces = shared ++ [last] ∧ others = shared ++ next :: rest ∧
      last <+: next := by
  induction pieces generalizing others with
  | nil => exact absurd rfl hne
  | cons p pieces ih =>
    obtain ⟨q, others, rfl⟩ := List.exists_cons_of_ne_nil hothers
    by_cases hend : pieces = []
    · subst hend
      refine ⟨[], p, q, others, rfl, rfl, ?_⟩
      rw [joinWith_singleton] at h
      by_cases hlast : others = []
      · simpa [hlast] using h
      · rw [joinWith_cons _ _ hlast, List.append_assoc] at h
        exact prefix_of_prefix_sep (hfree p (by simp)) h
    · rw [joinWith_cons _ _ hend, List.append_assoc] at h
      by_cases hlast : others = []
      · -- a separator would stand in the last piece
        rw [hlast, joinWith_singleton] at h
        exact absurd (h.subset (by simp)) (hfree' q (by simp))
      · rw [joinWith_cons _ _ hlast, List.append_assoc] at h
        obtain ⟨rfl, htail⟩ := eq_and_tail_of_sep (hfree p (by simp)) (hfree' q (by simp)) h
        obtain ⟨shared, last, next, rest, rfl, rfl, hnext⟩ := ih hend hlast
          (fun t ht => hfree t (by simp [ht])) (fun t ht => hfree' t (by simp [ht])) htail
        exact ⟨p :: shared, last, next, rest, rfl, rfl, hnext⟩

end Lib
