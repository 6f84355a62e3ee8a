import DailyReport.Lib.Text

/-!
# Lowercasing a text

`toLowercase` is the full Unicode lowercase mapping of a text: every character goes to its
lowercase mapping, except that a capital sigma at the end of a word becomes a final sigma.  The
Unicode tables are a parameter (`UnicodeCase`) with the facts used about them.

* `toLowercase_separator` : **lowercasing splits at a separator**, although the sigma rule looks
  at the characters on both sides.
-/

namespace Lib

/-- The Unicode tables the lowercase mapping reads, and what they say about separators. -/
class UnicodeCase where
  /-- The lowercase mapping of a character. -/
  lower : Char → Text
  /-- The `Cased` property. -/
  cased : Char → Bool
  /-- The `Case_Ignorable` property. -/
  caseIgnorable : Char → Bool
  lower_ascii : ∀ c : Char, c.toNat < 128 → lower c = [c.toLower]
  cased_slash : cased '/' = false
  cased_backslash : cased '\\' = false
  caseIgnorable_slash : caseIgnorable '/' = false
  caseIgnorable_backslash : caseIgnorable '\\' = false

variable [UnicodeCase]

open UnicodeCase

/-- The first character that is not case-ignorable is cased. -/
def caseIgnorableThenCased (t : Text) : Bool :=
  match t.dropWhile caseIgnorable with
  | c :: _ => cased c
  | [] => false

/-- The lowercase of a capital sigma between two texts, the first one reversed. -/
def mapUppercaseSigma (before after : Text) : Char :=
  if caseIgnorableThenCased before && !caseIgnorableThenCased after then 'ς' else 'σ'

/-- Lowercase a text that follows the (reversed) text `before`. -/
def lowercaseAfter (before : Text) : Text → Text
  | [] => []
  | c :: rest =>
    (if c = 'Σ' then [mapUppercaseSigma before rest] else lower c) ++
      lowercaseAfter (c :: before) rest

/-- The lowercase of a text. -/
def toLowercase (t : Text) : Text := lowercaseAfter [] t

/-! ### Separators -/

/-- A path separator. -/
def IsSeparator (c : Char) : Prop := c = '/' ∨ c = '\\'

instance (c : Char) : Decidable (IsSeparator c) := inferInstanceAs (Decidable (_ ∨ _))

theorem IsSeparator.lower_eq {c : Char} (h : IsSeparator c) : lower c = [c] := by
  rcases h with rfl | rfl <;> exact lower_ascii _ (by decide)

theorem IsSeparator.cased_eq {c : Char} (h : IsSeparator c) : cased c = false := by
  rcases h with rfl | rfl
  · exact cased_slash
  · exact cased_backslash

theorem IsSeparator.caseIgnorable_eq {c : Char} (h : IsSeparator c) :
    caseIgnorable c = false := by
  rcases h with rfl | rfl
  · exact caseIgnorable_slash
  · exact caseIgnorable_backslash

/-- What stands behind a separator does not matter to the sigma rule. -/
theorem caseIgnorableThenCased_append {c : Char} (hc : IsSeparator c) (a b : Text) :
    caseIgnorableThenCased (a ++ c :: b) = caseIgnorableThenCased a := by
  induction a with
  | nil =>
    unfold caseIgnorableThenCased
    simp [hc.caseIgnorable_eq, hc.cased_eq]
  | cons d a ih =>
    unfold caseIgnorableThenCased at ih ⊢
    by_cases hd : caseIgnorable d
    · simpa [hd] using ih
    · simp [hd]

theorem lowercaseAfter_append_separator {c : Char} (hc : IsSeparator c) (before a b : Text) :
    lowercaseAfter before (a ++ c :: b) =
      lowercaseAfter before a ++ c :: lowercaseAfter (c :: (a.reverse ++ before)) b := by
  induction a generalizing before with
  | nil =>
    have hne : c ≠ 'Σ' := by rcases hc with rfl | rfl <;> decide
    simp [lowercaseAfter, hne, hc.lower_eq]
  | cons d a ih =>
    simp only [List.cons_append, lowercaseAfter, ih, List.reverse_cons, List.append_assoc,
      List.cons_append, List.nil_append, mapUppercaseSigma, caseIgnorableThenCased_append hc]

theorem lowercaseAfter_separator {c : Char} (hc : IsSeparator c) (before before' b : Text) :
    lowercaseAfter (before ++ c :: before') b = lowercaseAfter (before ++ [c]) b := by
  induction b generalizing before with
  | nil => rfl
  | cons d b ih =>
    have hsigma : mapUppercaseSigma (before ++ c :: before') b =
        mapUppercaseSigma (before ++ [c]) b := by
      unfold mapUppercaseSigma
      rw [caseIgnorableThenCased_append hc, caseIgnorableThenCased_append hc]
    have := ih (d :: before)
    simp only [List.cons_append] at this
    simp only [lowercaseAfter, hsigma, this]

theorem lowercaseAfter_singleton_separator {c : Char} (hc : IsSeparator c) (before b : Text) :
    lowercaseAfter (before ++ [c]) b = lowercaseAfter before b := by
  induction b generalizing before with
  | nil => rfl
  | cons d b ih =>
    have hsigma : mapUppercaseSigma (before ++ [c]) b = mapUppercaseSigma before b := by
      unfold mapUppercaseSigma
      rw [caseIgnorableThenCased_append hc]
    have := ih (d :: before)
    simp only [List.cons_append] at this
    simp only [lowercaseAfter, hsigma, this]

/-- **Lowercasing splits at a separator.** -/
theorem toLowercase_separator {c : Char} (hc : IsSeparator c) (a b : Text) :
    toLowercase (a ++ c :: b) = toLowercase a ++ c :: toLowercase b := by
  unfold toLowercase
  rw [lowercaseAfter_append_separator hc, List.append_nil]
  have h1 := lowercaseAfter_separator hc [] a.reverse b
  have h2 := lowercaseAfter_singleton_separator hc [] b
  simp only [List.nil_append] at h1 h2
  rw [h1, h2]

/-! ### The ASCII tables -/

/-- The tables of the ASCII characters, every other character being its own lowercase. -/
@[reducible] def asciiCase : UnicodeCase where
  lower c := [c.toLower]
  cased c := c.isAlpha
  caseIgnorable c := c == '\'' || c == '.' || c == ':' || c == '^' || c == Char.ofNat 96
  lower_ascii _ _ := rfl
  cased_slash := by decide
  cased_backslash := by decide
  caseIgnorable_slash := by decide
  caseIgnorable_backslash := by decide

end Lib
