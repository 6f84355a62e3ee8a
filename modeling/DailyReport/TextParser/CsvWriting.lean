import DailyReport.TextParser.Csv

/-!
# Reading written CSV records

A field is written as it is, or in quotes with its own quotes doubled; the fields of a record are
joined with commas, and the records with line ends.

* `parse_encodeField` : **a written field is read as it was**, whatever stands behind it;
* `parse_encodeLines` : a text of complete lines is read as its records;
* `parse_encodeRows` : **records are read as they were, but for a last one that is a single empty
  field**: nothing of it is written.
-/

namespace DailyReport.TextParser

open Lib

/-! ### Writing records -/

/-- Characters that a field is quoted for. -/
def isCsvSpecial (c : Char) : Bool := c == '"' || c == ',' || c == '\r' || c == '\n'

def doubleQuotes (field : Text) : Text := field.flatMap fun c => if c = '"' then ['"', '"'] else [c]

def encodeField (field : Text) : Text :=
  if field.any isCsvSpecial then '"' :: doubleQuotes field ++ ['"'] else field

def encodeRow (row : List Text) : Text := joinWith [','] (row.map encodeField)

def encodeRows (lineEnd : Text) (rows : List (List Text)) : Text :=
  joinWith lineEnd (rows.map encodeRow)

/-- Records with a line end behind each of them. -/
def encodeLines (lineEnd : Text) (rows : List (List Text)) : Text :=
  rows.flatMap fun row => encodeRow row ++ lineEnd

/-- The line ends of CSV texts. -/
def IsLineEnd (lineEnd : Text) : Prop := lineEnd = ['\n'] ∨ lineEnd = ['\r', '\n']

/-! ### Reading a field -/

/-- In front of a field. -/
def CsvState.ready (rows : List (List Text)) (row : List Text) : CsvState :=
  ⟨rows, row, [], false, false, false, 0⟩

/-- Behind a field. -/
def CsvState.behind (rows : List (List Text)) (row : List Text) (field : Text) : CsvState :=
  ⟨rows, row, field, false, field.any isCsvSpecial, !field.isEmpty, field.length⟩

section

variable {limit : ℕ} {rows : List (List Text)} {row : List Text}

/-- The inside of a quoted field. -/
theorem parse_doubleQuotes {field rest : Text} (seen : Text) (hrest : rest.head? ≠ some '"')
    (hlimit : seen.length + field.length ≤ limit) :
    parseCsvFrom limit ⟨rows, row, seen, true, false, true, seen.length⟩ false
        (doubleQuotes field ++ '"' :: rest) =
      parseCsvFrom limit ⟨rows, row, seen ++ field, false, true, true, (seen ++ field).length⟩
        false rest := by
  induction field generalizing seen with
  | nil =>
    rw [List.append_nil]
    change parseCsvFrom limit _ false ('"' :: rest) = _
    rw [parseCsvFrom, if_pos rfl, if_pos rfl, if_neg hrest]
  | cons c field ih =>
    rw [List.length_cons] at hlimit
    have hpush : pushCsvFieldChar limit ⟨rows, row, seen, true, false, true, seen.length⟩ c =
        some ⟨rows, row, seen ++ [c], true, false, true, (seen ++ [c]).length⟩ := by
      rw [pushCsvFieldChar, if_neg (by dsimp only; omega), List.length_append]
      rfl
    have hnext := ih (seen ++ [c]) (by rw [List.length_append, List.length_singleton]; omega)
    rw [List.append_assoc, List.singleton_append] at hnext
    rw [← hnext]
    by_cases hquote : c = '"'
    · -- a doubled quote is read in two turns
      subst hquote
      change parseCsvFrom limit _ false ('"' :: '"' :: (doubleQuotes field ++ '"' :: rest)) = _
      rw [parseCsvFrom, if_pos rfl, if_pos rfl, List.head?_cons, if_pos rfl, hpush]
      rw [Option.bind_some, parseCsvFrom]
    · have hsingle : doubleQuotes (c :: field) = c :: doubleQuotes field := by
        rw [doubleQuotes, List.flatMap_cons, if_neg hquote]
        rfl
      rw [hsingle, List.cons_append, parseCsvFrom, if_pos rfl, if_neg hquote, hpush,
        Option.bind_some]

/-- An unquoted field. -/
theorem parse_plain {field rest : Text} (seen : Text) (hplain : field.any isCsvSpecial = false)
    (hlimit : seen.length + field.length ≤ limit) :
    parseCsvFrom limit ⟨rows, row, seen, false, false, !seen.isEmpty, seen.length⟩ false
        (field ++ rest) =
      parseCsvFrom limit ⟨rows, row, seen ++ field, false, false, !(seen ++ field).isEmpty,
        (seen ++ field).length⟩ false rest := by
  induction field generalizing seen with
  | nil => rw [List.nil_append, List.append_nil]
  | cons c field ih =>
    rw [List.length_cons] at hlimit
    rw [List.any_cons, Bool.or_eq_false_iff] at hplain
    obtain ⟨hc, hplain⟩ := hplain
    simp only [isCsvSpecial, Bool.or_eq_false_iff, beq_eq_false_iff_ne] at hc
    obtain ⟨⟨⟨hquote, hcomma⟩, hreturn⟩, hnewline⟩ := hc
    have hpush : pushCsvFieldChar limit
        ⟨rows, row, seen, false, false, !seen.isEmpty, seen.length⟩ c =
        some ⟨rows, row, seen ++ [c], false, false, !seen.isEmpty, (seen ++ [c]).length⟩ := by
      rw [pushCsvFieldChar, if_neg (by dsimp only; omega), List.length_append]
      rfl
    have hnext := ih (seen ++ [c]) hplain
      (by rw [List.length_append, List.length_singleton]; omega)
    rw [List.append_assoc, List.singleton_append] at hnext
    rw [← hnext, List.cons_append, parseCsvFrom, if_neg (by simp), if_neg (by simp [hquote]),
      if_neg hcomma, if_neg hnewline, if_neg hreturn, if_neg (by simp), hpush, Option.bind_some]
    cases seen <;> rfl

/-- **A written field is read as it was.** -/
theorem parse_encodeField {field rest : Text} (hrest : rest.head? ≠ some '"')
    (hlimit : field.length ≤ limit) :
    parseCsvFrom limit (.ready rows row) false (encodeField field ++ rest) =
      parseCsvFrom limit (.behind rows row field) false rest := by
  have hzero : ([] : Text).length + field.length ≤ limit := by rwa [List.length_nil, Nat.zero_add]
  unfold encodeField CsvState.behind
  by_cases hspecial : field.any isCsvSpecial = true
  · have hne : field.isEmpty = false := by
      cases field with
      | nil => cases hspecial
      | cons c field => rfl
    have hinside := @parse_doubleQuotes limit rows row field rest [] hrest hzero
    rw [List.nil_append, List.length_nil] at hinside
    rw [if_pos hspecial, hspecial, hne, List.append_assoc, List.cons_append, List.singleton_append,
      parseCsvFrom, if_neg (by simp [CsvState.ready]), if_pos (by simp [CsvState.ready])]
    exact hinside
  · rw [Bool.not_eq_true] at hspecial
    rw [if_neg (by rw [hspecial]; simp), hspecial]
    exact parse_plain [] hspecial hzero

/-! ### Reading records -/

theorem parse_comma {field rest : Text} :
    parseCsvFrom limit (.behind rows row field) false (',' :: rest) =
      parseCsvFrom limit (.ready rows (row ++ [field])) false rest := by
  rw [parseCsvFrom, if_neg (by simp [CsvState.behind]), if_neg (by simp), if_pos rfl]
  rfl

theorem parse_lineEnd {field rest lineEnd : Text} (h : IsLineEnd lineEnd) :
    parseCsvFrom limit (.behind rows row field) false (lineEnd ++ rest) =
      parseCsvFrom limit (.ready (rows ++ [row ++ [field]]) []) false rest := by
  rcases h with rfl | rfl
  · rw [List.singleton_append, parseCsvFrom, if_neg (by simp [CsvState.behind]), if_neg (by simp),
      if_neg (by simp), if_pos rfl]
    rfl
  · rw [List.cons_append, List.singleton_append, parseCsvFrom,
      if_neg (by simp [CsvState.behind]), if_neg (by simp), if_neg (by simp), if_neg (by simp),
      if_pos rfl, List.head?_cons, if_pos rfl, parseCsvFrom]
    rfl

theorem parse_end {field : Text} (h : row ++ [field] ≠ [[]]) :
    parseCsvFrom limit (.behind rows row field) false [] = some (rows ++ [row ++ [field]]) := by
  have hshown : (!field.isEmpty || field.any isCsvSpecial || !field.isEmpty || !row.isEmpty) =
      true := by
    cases field with
    | nil =>
      cases row with
      | nil => exact absurd rfl h
      | cons => rfl
    | cons => rfl
  rw [parseCsvFrom, if_neg (by simp [CsvState.behind])]
  exact if_pos hshown

/-- The fields of a record up to the last one. -/
theorem parse_encodeRow {fields : List Text} {field rest : Text} (hrest : rest.head? ≠ some '"')
    (hlimit : ∀ f ∈ fields ++ [field], f.length ≤ limit) :
    parseCsvFrom limit (.ready rows row) false (encodeRow (fields ++ [field]) ++ rest) =
      parseCsvFrom limit (.behind rows (row ++ fields) field) false rest := by
  induction fields generalizing row with
  | nil =>
    rw [List.nil_append] at hlimit ⊢
    rw [encodeRow, List.map_singleton, joinWith_singleton, List.append_nil]
    exact parse_encodeField hrest (hlimit field List.mem_cons_self)
  | cons f fields ih =>
    have hjoin : encodeRow (f :: fields ++ [field]) ++ rest =
        encodeField f ++ (',' :: (encodeRow (fields ++ [field]) ++ rest)) := by
      rw [encodeRow, List.cons_append, List.map_cons, joinWith_cons _ _ (by simp), encodeRow]
      simp [List.append_assoc]
    rw [hjoin, parse_encodeField (by simp) (hlimit f List.mem_cons_self), parse_comma,
      ih fun g hg => hlimit g (List.mem_cons_of_mem _ hg), List.append_assoc]
    rfl

/-- Records with at least one field and with fields of the parser's size. -/
def CsvRows (limit : ℕ) (rows : List (List Text)) : Prop :=
  ∀ row ∈ rows, row ≠ [] ∧ ∀ field ∈ row, field.length ≤ limit

theorem exists_eq_concat {row : List Text} (h : row ≠ []) : ∃ fields field, row = fields ++ [field] :=
  ⟨row.dropLast, row.getLast h, (List.dropLast_concat_getLast h).symm⟩

/-- **Complete lines are read as their records.** -/
theorem parse_encodeLines {lineEnd rest : Text} {read : List (List Text)} (hend : IsLineEnd lineEnd)
    (hread : CsvRows limit read) :
    parseCsvFrom limit (.ready rows []) false (encodeLines lineEnd read ++ rest) =
      parseCsvFrom limit (.ready (rows ++ read) []) false rest := by
  induction read generalizing rows with
  | nil => rw [List.append_nil]; rfl
  | cons row read ih =>
    obtain ⟨hne, hlimit⟩ := hread row List.mem_cons_self
    obtain ⟨fields, field, rfl⟩ := exists_eq_concat hne
    have hhead : (lineEnd ++ (encodeLines lineEnd read ++ rest)).head? ≠ some '"' := by
      rcases hend with rfl | rfl <;> simp
    have hlines : encodeLines lineEnd ((fields ++ [field]) :: read) ++ rest =
        encodeRow (fields ++ [field]) ++ (lineEnd ++ (encodeLines lineEnd read ++ rest)) := by
      simp [encodeLines, List.append_assoc]
    rw [hlines, parse_encodeRow hhead hlimit, parse_lineEnd hend, List.nil_append]
    have hnext := @ih (rows ++ [fields ++ [field]]) fun r hr => hread r (List.mem_cons_of_mem _ hr)
    rw [List.append_assoc, List.singleton_append] at hnext
    exact hnext

theorem encodeRows_concat (lineEnd : Text) (read : List (List Text)) (row : List Text) :
    encodeRows lineEnd (read ++ [row]) = encodeLines lineEnd read ++ encodeRow row := by
  induction read with
  | nil => simp [encodeRows, encodeLines]
  | cons r read ih =>
    unfold encodeRows at ih ⊢
    rw [List.cons_append, List.map_cons, joinWith_cons _ _ (by simp), ih, encodeLines, encodeLines,
      List.flatMap_cons, List.append_assoc, List.append_assoc, List.append_assoc]

/-- The last record is read without its line end. -/
theorem parse_last {row : List Text} (hne : row ≠ []) (hlimit : ∀ field ∈ row, field.length ≤ limit) :
    parseCsvFrom limit (.ready rows []) false (encodeRow row) =
      some (if row = [[]] then rows else rows ++ [row]) := by
  obtain ⟨fields, field, rfl⟩ := exists_eq_concat hne
  have hrow := @parse_encodeRow limit rows [] fields field [] (by simp) hlimit
  rw [List.append_nil, List.nil_append] at hrow
  rw [hrow]
  by_cases hempty : fields ++ [field] = [[]]
  · rw [if_pos hempty]
    obtain ⟨rfl, rfl⟩ : fields = [] ∧ field = [] := by
      cases fields with
      | nil => exact ⟨rfl, List.singleton_inj.1 hempty⟩
      | cons f fields => simp at hempty
    rfl
  · rw [if_neg hempty]
    exact parse_end hempty

/-- **Records are read as they were written, but for a last one of a single empty field without a
line end behind it.** -/
theorem parse_encodeRows {lineEnd : Text} {read : List (List Text)} (hend : IsLineEnd lineEnd)
    (hread : CsvRows limit read) :
    (parseCsvWithLimit (encodeRows lineEnd read) limit = some read ↔
      read.getLast? ≠ some [[]]) ∧
    parseCsvWithLimit (encodeLines lineEnd read) limit = some read := by
  have hstart : CsvState.start = .ready [] [] := rfl
  unfold parseCsvWithLimit
  rw [hstart]
  constructor
  · cases read using List.reverseRecOn with
    | nil => exact iff_of_true rfl (by simp)
    | append_singleton read row _ =>
      obtain ⟨hne, hlimit⟩ := hread row (by simp)
      rw [encodeRows_concat, parse_encodeLines hend
        fun r hr => hread r (List.mem_append_left _ hr), List.nil_append, parse_last hne hlimit,
        List.getLast?_concat]
      by_cases hempty : row = [[]]
      · simp [hempty]
      · simp [hempty]
  · have hlines := @parse_encodeLines _ [] _ [] _ hend hread
    rw [List.append_nil, List.nil_append] at hlines
    rw [hlines]
    rfl

end

/-- Two records, of which the second one has a comma and a quote. -/
theorem parse_encodeRows_two :
    (parseCsvWithLimit (encodeRows ['\n'] [[lit "a", []], [lit ",\""]]) 8 =
        some [[lit "a", []], [lit ",\""]] ↔
      ([[lit "a", []], [lit ",\""]] : List (List Text)).getLast? ≠ some [[]]) ∧
    parseCsvWithLimit (encodeLines ['\n'] [[lit "a", []], [lit ",\""]]) 8 =
      some [[lit "a", []], [lit ",\""]] :=
  parse_encodeRows (Or.inl rfl) (by simp [CsvRows, lit_eq])

/-- **A single empty field is not read.** -/
theorem empty_field_not_read : ¬ ∀ (limit : ℕ) (lineEnd : Text) (rows : List (List Text)),
    IsLineEnd lineEnd → CsvRows limit rows →
      parseCsvWithLimit (encodeRows lineEnd rows) limit = some rows := by
  intro h
  have hread := h legacyCsvFieldSizeLimit ['\n'] [[[]]] (Or.inl rfl) (by simp [CsvRows])
  exact absurd hread (by decide)

end DailyReport.TextParser
