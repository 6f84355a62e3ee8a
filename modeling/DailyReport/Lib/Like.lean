import DailyReport.Lib.Text

/-!
# Patterns of SQL

`like pattern text` is the `LIKE` operator: `%` stands for any text, `_` for any character, and the
letters of the alphabet match in both cases.
-/

namespace Lib

/-- `text LIKE pattern`. -/
def like : Text → Text → Bool
  | [], text => text.isEmpty
  | '%' :: pattern, text => text.tails.any (like pattern)
  | '_' :: pattern, text => text.tail?.any (like pattern)
  | c :: pattern, text =>
    text.head?.any (fun d => d.toLower == c.toLower) && text.tail?.any (like pattern)

/-- A text that starts with the text of a pattern matches, also where that text has wildcards. -/
theorem like_append (text rest : Text) : like (text ++ ['%']) (text ++ rest) = true := by
  induction text with
  | nil =>
    have hnil : like [] [] = true := rfl
    exact List.any_eq_true.2 ⟨[], by simp, hnil⟩
  | cons c text ih =>
    by_cases hpercent : c = '%'
    · subst hpercent
      refine List.any_eq_true.2 ⟨text ++ rest, ?_, ih⟩
      rw [List.mem_tails]
      exact List.suffix_cons _ _
    · by_cases hunderscore : c = '_'
      · subst hunderscore
        exact ih
      · rw [List.cons_append, List.cons_append, like.eq_def]
        simp [ih]

/-- An underscore is a wildcard. -/
example : like (lit "a_b:%") (lit "A-B:") = true ∧ like (lit "a_b:%") (lit "ab:") = false := by
  decide +kernel

end Lib
