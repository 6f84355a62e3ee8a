import DailyReport.TextParser.Archive
import DailyReport.TextParser.CsvWriting
import Mathlib.Algebra.Group.Nat.Even

/-!
# Where the records of a CSV text begin

Three scanners cut a CSV text into records.  `parseCsv` opens a quoted field only at the beginning
of a field; the archive splitter and the scanner of cut windows turn around at every quote.  The
quotes of a text alternate between opening and closing, but for those inside of a field that has
begun without one (`strays`).

* `csvRun_append`, `parseCsvFrom_append` : reading a text in two parts;
* `csvRun_reads` : which part of a field the parser stands in;
* `scanners_agree_iff` : **the scanners agree exactly when the strays in front of every line break
  are even**.
-/

namespace DailyReport.TextParser

open Lib

/-! ### Reading a text in two parts -/

/-- The turn of one character in front of another one; the flag says that this one has been read
along. -/
def csvTurn (limit : ℕ) (s : CsvState) (next : Option Char) (c : Char) : Option (CsvState × Bool) :=
  if s.inQuotes then
    if c = '"' then
      if next = some '"' then (pushCsvFieldChar limit s '"').map fun s => (s, true)
      else some ({ s with inQuotes := false, afterQuote := true }, false)
    else (pushCsvFieldChar limit s c).map fun s => (s, false)
  else if c = '"' ∧ !s.fieldStarted then
    some ({ s with inQuotes := true, fieldStarted := true }, false)
  else if c = ',' then some (s.endField, false)
  else if c = '\n' then some (s.endRow, false)
  else if c = '\r' then if next = some '\n' then some (s.endRow, true) else none
  else if s.afterQuote then none
  else (pushCsvFieldChar limit s c).map fun s => ({ s with fieldStarted := true }, false)

/-- Where the parser stands behind some characters that are followed by others. -/
def csvRun (limit : ℕ) : CsvState → Bool → Text → Text → Option (CsvState × Bool)
  | s, skip, [], _ => some (s, skip)
  | s, true, _ :: a, b => csvRun limit s false a b
  | s, false, c :: a, b =>
    (csvTurn limit s (a ++ b).head? c).bind fun (s, skip) => csvRun limit s skip a b

theorem parseCsvFrom_cons (limit : ℕ) (s : CsvState) (c : Char) (rest : Text) :
    parseCsvFrom limit s false (c :: rest) =
      (csvTurn limit s rest.head? c).bind fun (s, skip) => parseCsvFrom limit s skip rest := by
  unfold csvTurn
  rw [parseCsvFrom]
  split_ifs <;> simp [Option.bind_map]

theorem csvRun_append (limit : ℕ) (s : CsvState) (skip : Bool) (a a' b : Text) :
    csvRun limit s skip (a ++ a') b =
      (csvRun limit s skip a (a' ++ b)).bind fun (s, skip) => csvRun limit s skip a' b := by
  induction a generalizing s skip with
  | nil => simp [csvRun]
  | cons c a ih =>
    cases skip with
    | true => simp only [List.cons_append, csvRun, ih]
    | false => simp only [List.cons_append, csvRun, List.append_assoc, Option.bind_assoc, ih]

theorem parseCsvFrom_append (limit : ℕ) (s : CsvState) (skip : Bool) (a b : Text) :
    parseCsvFrom limit s skip (a ++ b) =
      (csvRun limit s skip a b).bind fun (s, skip) => parseCsvFrom limit s skip b := by
  induction a generalizing s skip with
  | nil => simp [csvRun]
  | cons c a ih =>
    cases skip with
    | true => simp only [List.cons_append, csvRun, parseCsvFrom, ih]
    | false => simp only [List.cons_append, csvRun, parseCsvFrom_cons, Option.bind_assoc, ih]

/-! ### The parts of a field -/

/-- Where a character stands in a field. -/
inductive FieldPart
  | start
  | plain
  | quoted
  /-- Behind a quote that closes the field, or is the first one of a doubled quote. -/
  | closed
  deriving DecidableEq

def FieldPart.next : FieldPart → Char → FieldPart
  | .quoted, c => if c = '"' then .closed else .quoted
  | .closed, c => if c = '"' then .quoted
    else if c = ',' ∨ c = '\n' ∨ c = '\r' then .start else .plain
  | .start, c => if c = '"' then .quoted
    else if c = ',' ∨ c = '\n' ∨ c = '\r' then .start else .plain
  | .plain, c => if c = ',' ∨ c = '\n' ∨ c = '\r' then .start else .plain

def partAfter (text : Text) : FieldPart := text.foldl FieldPart.next .start

/-- Quotes inside of fields that have begun without one. -/
def straysFrom : FieldPart → Text → ℕ
  | _, [] => 0
  | part, c :: rest =>
    (if part = .plain ∧ c = '"' then 1 else 0) + straysFrom (part.next c) rest

def strays (text : Text) : ℕ := straysFrom .start text

theorem straysFrom_concat (part : FieldPart) (text : Text) (c : Char) :
    straysFrom part (text ++ [c]) = straysFrom part text +
      (if text.foldl FieldPart.next part = .plain ∧ c = '"' then 1 else 0) := by
  induction text generalizing part with
  | nil => exact Nat.add_comm _ _
  | cons d text ih =>
    rw [List.cons_append, straysFrom, ih, straysFrom, List.foldl_cons, Nat.add_assoc]

theorem partAfter_concat (text : Text) (c : Char) :
    partAfter (text ++ [c]) = (partAfter text).next c := by
  rw [partAfter, List.foldl_append]
  rfl

/-- **The quotes that are no strays open and close fields in turns.** -/
theorem even_quotes_iff (text : Text) :
    Even (text.count '"') ↔ (partAfter text = .quoted ↔ ¬ Even (strays text)) := by
  induction text using List.reverseRecOn with
  | nil => exact iff_of_true (by simp) (iff_of_false (by decide) (by simp [strays, straysFrom]))
  | append_singleton text c ih =>
    have hstrays : strays (text ++ [c]) = strays text +
        (if partAfter text = .plain ∧ c = '"' then 1 else 0) := straysFrom_concat .start text c
    have hcount : (text ++ [c]).count '"' = text.count '"' + if c = '"' then 1 else 0 := by
      rw [List.count_append, List.count_singleton]
      simp
    rw [hstrays, hcount, partAfter_concat]
    by_cases hquote : c = '"'
    · subst hquote
      rw [if_pos rfl, Nat.even_add_one, ih]
      cases partAfter text <;> simp [FieldPart.next, Nat.even_add_one]
    · rw [if_neg hquote, if_neg fun h => hquote h.2, Nat.add_zero, Nat.add_zero, ih]
      have hnext : (partAfter text).next c = .quoted ↔ partAfter text = .quoted := by
        cases partAfter text <;> simp only [FieldPart.next, hquote, if_false] <;> split_ifs <;> simp
      rw [hnext]

/-! ### Where the parser stands -/

/-- The part of a field in which a state of the parser stands. -/
def CsvState.part (s : CsvState) : FieldPart :=
  if s.inQuotes then .quoted else if s.afterQuote then .closed
  else if s.fieldStarted then .plain else .start

/-- A quoted field has begun. -/
def CsvState.Begun (s : CsvState) : Prop :=
  s.inQuotes = true ∨ s.afterQuote = true → s.fieldStarted = true

/-- The parser stands in a part of a field, in front of the given characters. -/
inductive Reads : CsvState → Bool → FieldPart → Text → Prop
  | inside {s : CsvState} {part : FieldPart} {rest : Text} (hpart : s.part = part) (hbegun : s.Begun) :
    Reads s false part rest
  /-- Between two quotes that stand for one. -/
  | doubled {s : CsvState} {rest : Text} (hquotes : s.inQuotes = true) (hbegun : s.Begun) :
    Reads s true .closed ('"' :: rest)
  /-- Inside of a line end. -/
  | broken {rows : List (List Text)} {rest : Text} : Reads (.ready rows []) true .start ('\n' :: rest)

theorem pushCsvFieldChar_eq_some {limit : ℕ} {s s' : CsvState} {c : Char}
    (h : pushCsvFieldChar limit s c = some s') :
    s' = { s with field := s.field ++ [c], fieldChars := s.fieldChars + 1 } := by
  unfold pushCsvFieldChar at h
  split_ifs at h
  exact (Option.some.inj h).symm

theorem endRow_eq_ready {s : CsvState} (h : s.inQuotes = false) :
    s.endRow = .ready (s.rows ++ [s.row ++ [s.field]]) [] := by
  simp [CsvState.endRow, CsvState.endField, CsvState.ready, h]

/-- A turn inside of quotes. -/
theorem Reads.turn_quoted {limit : ℕ} {s s' : CsvState} {skip : Bool} {c : Char} {rest : Text}
    (hquotes : s.inQuotes = true) (hbegun : s.Begun)
    (h : csvTurn limit s rest.head? c = some (s', skip)) :
    Reads s' skip (FieldPart.quoted.next c) rest := by
  have hstarted : s.fieldStarted = true := hbegun (Or.inl hquotes)
  unfold csvTurn at h
  rw [if_pos hquotes] at h
  rw [FieldPart.next]
  by_cases hc : c = '"'
  · rw [if_pos hc] at h ⊢
    by_cases hnext : rest.head? = some '"'
    · rw [if_pos hnext, Option.map_eq_some_iff] at h
      obtain ⟨s₁, hpush, hpair⟩ := h
      cases hpair
      obtain rfl := pushCsvFieldChar_eq_some hpush
      obtain ⟨rest', rfl⟩ := List.head?_eq_some_iff.1 hnext
      exact .doubled hquotes hbegun
    · rw [if_neg hnext] at h
      cases h
      exact .inside rfl fun _ => hstarted
  · rw [if_neg hc, Option.map_eq_some_iff] at h
    obtain ⟨s₁, hpush, hpair⟩ := h
    cases hpair
    obtain rfl := pushCsvFieldChar_eq_some hpush
    rw [if_neg hc]
    exact .inside (if_pos hquotes) hbegun

/-- A turn outside of quotes. -/
theorem Reads.turn_unquoted {limit : ℕ} {s s' : CsvState} {skip : Bool} {c : Char} {rest : Text}
    (hquotes : s.inQuotes = false) (hbegun : s.Begun)
    (h : csvTurn limit s rest.head? c = some (s', skip)) : Reads s' skip (s.part.next c) rest := by
  unfold csvTurn at h
  rw [if_neg (by simp [hquotes])] at h
  have hends (hc : c = ',' ∨ c = '\n' ∨ c = '\r') : s.part.next c = .start := by
    have hne : c ≠ '"' := by rcases hc with rfl | rfl | rfl <;> decide
    unfold CsvState.part
    split_ifs <;> simp_all [FieldPart.next]
  split_ifs at h with hopen hcomma hnewline hreturn hnext hafter
  · -- a quote at the beginning of a field
    cases h
    have hpart : s.part = .start := by
      have hafter : s.afterQuote = false := by
        by_contra hafter
        have := hbegun (Or.inr (by simpa using hafter))
        simp [this] at hopen
      simp [CsvState.part, hquotes, hafter, show s.fieldStarted = false by simpa using hopen.2]
    rw [hpart, hopen.1]
    exact .inside rfl fun _ => rfl
  · cases h
    rw [hends (Or.inl hcomma)]
    exact .inside (by simp [CsvState.part, CsvState.endField, hquotes])
      (by simp [CsvState.Begun, CsvState.endField, hquotes])
  · cases h
    rw [hends (Or.inr (Or.inl hnewline)), endRow_eq_ready hquotes]
    exact .inside rfl (by simp [CsvState.Begun, CsvState.ready])
  · cases h
    obtain ⟨rest', rfl⟩ := List.head?_eq_some_iff.1 hnext
    rw [hends (Or.inr (Or.inr hreturn)), endRow_eq_ready hquotes]
    exact .broken
  · -- a character of an unquoted field, or a stray quote
    rw [Option.map_eq_some_iff] at h
    obtain ⟨s₁, hpush, hpair⟩ := h
    cases hpair
    obtain rfl := pushCsvFieldChar_eq_some hpush
    have hpart : s.part = .plain ∨ (s.part = .start ∧ c ≠ '"') := by
      unfold CsvState.part
      by_cases hstarted : s.fieldStarted = true
      · simp [hquotes, hafter, hstarted]
      · simp_all
    have hnext : s.part.next c = .plain := by
      rcases hpart with hpart | ⟨hpart, hne⟩
      · rw [hpart, FieldPart.next, if_neg (by simp [hcomma, hnewline, hreturn])]
      · rw [hpart, FieldPart.next, if_neg hne, if_neg (by simp [hcomma, hnewline, hreturn])]
    rw [hnext]
    exact .inside (by simp [CsvState.part, hquotes, hafter]) fun _ => rfl

/-- **One turn moves the parser as it moves the part.** -/
theorem Reads.turn {limit : ℕ} {s s' : CsvState} {skip : Bool} {part : FieldPart} {c : Char}
    {rest : Text} (hreads : Reads s false part (c :: rest))
    (h : csvTurn limit s rest.head? c = some (s', skip)) : Reads s' skip (part.next c) rest := by
  cases hreads with
  | inside hpart hbegun =>
    subst hpart
    by_cases hquotes : s.inQuotes = true
    · have hpart : s.part = .quoted := if_pos hquotes
      rw [hpart]
      exact turn_quoted hquotes hbegun h
    · exact turn_unquoted (by simpa using hquotes) hbegun h

theorem Reads.skip {s : CsvState} {part : FieldPart} {c : Char} {rest : Text}
    (hreads : Reads s true part (c :: rest)) : Reads s false (part.next c) rest := by
  cases hreads with
  | doubled hquotes hbegun => exact .inside (if_pos hquotes) hbegun
  | broken => exact .inside rfl (by simp [CsvState.Begun, CsvState.ready])

/-- **The parser stands in the part that the characters lead to.** -/
theorem csvRun_reads {limit : ℕ} {s s' : CsvState} {skip skip' : Bool} {part : FieldPart}
    {a b : Text} (hreads : Reads s skip part (a ++ b))
    (h : csvRun limit s skip a b = some (s', skip')) :
    Reads s' skip' (a.foldl FieldPart.next part) b := by
  induction a generalizing s skip part with
  | nil =>
    cases h
    exact hreads
  | cons c a ih =>
    cases skip with
    | true => exact ih hreads.skip h
    | false =>
      obtain ⟨⟨s₁, skip₁⟩, hturn, h⟩ := Option.bind_eq_some_iff.1 h
      exact ih (hreads.turn hturn) h

/-! ### Where records begin -/

/-- The parser begins a record behind the first text, if the second one follows. -/
def ParserStarts (limit : ℕ) (a b : Text) : Prop :=
  ∃ rows, csvRun limit .start false a b = some (.ready rows [], false)

/-- The splitter begins a record behind a text: its last character has raised the record number. -/
def ArchiveStarts (a : Text) : Prop :=
  a = [] ∨ ∃ a' c, a = a' ++ [c] ∧ (archiveScan true a).row = (archiveScan true a').row + 1

theorem archiveScan_concat (csv : Bool) (text : Text) (c : Char) :
    archiveScan csv (text ++ [c]) = archiveTurn csv (archiveScan csv text) c := by
  rw [archiveScan, List.foldl_append]
  rfl

/-- The splitter turns around at every quote. -/
theorem archiveScan_quoted (text : Text) :
    (archiveScan true text).quoted = decide (¬ Even (text.count '"')) := by
  induction text using List.reverseRecOn with
  | nil => rfl
  | append_singleton text c ih =>
    have hturn : (archiveScan true (text ++ [c])).quoted =
        if c = '"' then !(archiveScan true text).quoted else (archiveScan true text).quoted := by
      rw [archiveScan_concat]
      unfold archiveTurn
      simp only [true_and]
      split_ifs <;> rfl
    rw [hturn, ih, List.count_append, List.count_singleton]
    by_cases hc : c = '"'
    · have hsucc : Even (text.count '"' + 1) ↔ ¬ Even (text.count '"') := Nat.even_add_one
      simp only [hc, if_true, beq_self_eq_true, hsucc, not_not, decide_not, Bool.not_not]
    · simp [hc]

/-- **The splitter begins a record behind a line break with an even number of quotes before it.** -/
theorem archiveStarts_concat (text : Text) (c : Char) :
    ArchiveStarts (text ++ [c]) ↔ c = '\n' ∧ Even (text.count '"') := by
  have hrow : (archiveScan true (text ++ [c])).row = (archiveScan true text).row +
      if c = '\n' ∧ Even (text.count '"') then 1 else 0 := by
    have hquoted := archiveScan_quoted text
    rw [archiveScan_concat]
    unfold archiveTurn
    simp only [true_and, Bool.not_true, Bool.false_eq_true, false_or, false_and, or_false, hquoted]
    by_cases hc : c = '\n'
    · subst hc
      by_cases heven : Even (text.count '"')
      · simp [heven, ArchiveScan.endRecord, ArchiveScan.cutRecord]
        split_ifs <;> rfl
      · simp [heven, ArchiveScan.cutRecord]
        split_ifs <;> rfl
    · simp [hc, ArchiveScan.cutRecord]
      split_ifs <;> rfl
  constructor
  · rintro (hnil | ⟨a', d, heq, hstep⟩)
    · simp at hnil
    · obtain ⟨rfl, -⟩ := List.append_inj' heq rfl
      rw [hrow] at hstep
      by_contra hnot
      rw [if_neg hnot] at hstep
      omega
  · intro h
    refine Or.inr ⟨text, c, rfl, ?_⟩
    rw [hrow, if_pos h]

/-- A turn that ends a record. -/
theorem csvTurn_ready {limit : ℕ} {s s' : CsvState} {skip : Bool} {next : Option Char} {c : Char}
    (h : csvTurn limit s next c = some (s', skip)) :
    (∃ rows, (s', skip) = (.ready rows [], false)) ↔ c = '\n' ∧ s.inQuotes = false := by
  unfold csvTurn at h
  by_cases hquotes : s.inQuotes = true
  · refine iff_of_false ?_ (by simp [hquotes])
    rw [if_pos hquotes] at h
    rintro ⟨rows, hready⟩
    rw [hready] at h
    split_ifs at h with hc hnext
    · simp at h
    · simp [CsvState.ready] at h
    · obtain ⟨s₁, hpush, hpair⟩ := Option.map_eq_some_iff.1 h
      obtain rfl := pushCsvFieldChar_eq_some hpush
      simp [CsvState.ready] at hpair
  · rw [Bool.not_eq_true] at hquotes
    rw [if_neg (by simp [hquotes])] at h
    by_cases hc : c = '\n'
    · subst hc
      rw [if_neg (by simp), if_neg (by simp), if_pos rfl, endRow_eq_ready hquotes] at h
      exact iff_of_true ⟨_, (Option.some.inj h).symm⟩ ⟨rfl, hquotes⟩
    · refine iff_of_false ?_ fun h => hc h.1
      rintro ⟨rows, hready⟩
      rw [hready] at h
      split_ifs at h
      · simp [CsvState.ready] at h
      · simp [CsvState.endField, CsvState.ready] at h
      · simp at h
      · obtain ⟨s₁, -, hpair⟩ := Option.map_eq_some_iff.1 h
        simp [CsvState.ready] at hpair

/-- **The parser begins a record behind a line break that is not inside of quotes.** -/
theorem parserStarts_concat {limit : ℕ} {a b : Text} {c : Char}
    (hrun : (csvRun limit .start false (a ++ [c]) b).isSome) :
    ParserStarts limit (a ++ [c]) b ↔ c = '\n' ∧ partAfter a ≠ .quoted := by
  unfold ParserStarts
  rw [csvRun_append] at hrun ⊢
  obtain ⟨⟨s, skip⟩, hfirst⟩ : ∃ p, csvRun limit .start false a ([c] ++ b) = some p := by
    rw [← Option.isSome_iff_exists]
    exact Option.isSome_of_isSome_bind hrun
  have hreads := csvRun_reads (.inside rfl (by simp [CsvState.Begun, CsvState.start])) hfirst
  rw [hfirst, Option.bind_some] at hrun ⊢
  change Reads s skip (partAfter a) (c :: b) at hreads
  generalize partAfter a = part at hreads
  cases hreads with
  | inside hpart hbegun =>
    obtain ⟨⟨s', skip'⟩, hturn⟩ : ∃ p, csvTurn limit s b.head? c = some p := by
      rw [← Option.isSome_iff_exists]
      exact Option.isSome_of_isSome_bind hrun
    have hquotes : part ≠ .quoted ↔ s.inQuotes = false := by
      rw [← hpart]
      unfold CsvState.part
      split_ifs with h <;> simp [h]
    rw [hquotes, ← csvTurn_ready hturn]
    simp only [csvRun, List.nil_append, hturn, Option.bind_some, Option.some.injEq]
  | doubled hquotes hbegun =>
    refine iff_of_false ?_ (by decide)
    rintro ⟨rows, hready⟩
    simp only [csvRun, Option.some.injEq, Prod.mk.injEq] at hready
    rw [hready.1] at hquotes
    cases hquotes
  | broken => exact iff_of_true ⟨_, rfl⟩ ⟨rfl, by decide⟩

/-! ### The scanner of cut windows -/

/-- A line break behind the text stands behind an even number of quotes; `odd` if one more has been
read before. -/
def EvenAt (odd : Bool) (text : Text) : Prop := Even (text.count '"') ↔ odd = false

/-- What is read of a text up to the last line break with an even number of quotes before it, along
with what has been pending before. -/
def LastBreak (odd : Bool) (pending text read : Text) : Prop :=
  (read = [] ∧ ∀ x rest, text = x ++ '\n' :: rest → ¬ EvenAt odd x) ∨
    ∃ x rest, text = x ++ '\n' :: rest ∧ EvenAt odd x ∧ read = pending ++ x ++ ['\n'] ∧
      ∀ y rest, text = y ++ '\n' :: rest → EvenAt odd y → y.length ≤ x.length

theorem evenAt_cons (odd : Bool) (c : Char) (text : Text) :
    EvenAt odd (c :: text) ↔ EvenAt (odd ^^ (c == '"')) text := by
  unfold EvenAt
  rw [List.count_cons]
  by_cases hc : c = '"'
  · cases odd <;> simp [hc, Nat.even_add_one]
  · simp [beq_eq_false_iff_ne.2 hc]

theorem LastBreak.cons {odd : Bool} {pending text read : Text} {c : Char}
    (hc : c ≠ '\n' ∨ odd = true)
    (h : LastBreak (odd ^^ (c == '"')) (pending ++ [c]) text read) :
    LastBreak odd pending (c :: text) read := by
  have hlater {y rest : Text} (hsplit : c :: text = y ++ '\n' :: rest) (heven : EvenAt odd y) :
      ∃ y', y = c :: y' ∧ text = y' ++ '\n' :: rest ∧ EvenAt (odd ^^ (c == '"')) y' := by
    cases y with
    | nil =>
      rw [List.nil_append, List.cons.injEq] at hsplit
      rcases hc with hc | hodd
      · exact absurd hsplit.1 hc
      · exact absurd heven (by simp [EvenAt, hodd])
    | cons d y' =>
      rw [List.cons_append, List.cons.injEq] at hsplit
      obtain ⟨rfl, htext⟩ := hsplit
      exact ⟨y', rfl, htext, (evenAt_cons odd c y').1 heven⟩
  rcases h with ⟨hnil, hnone⟩ | ⟨x, rest, htext, heven, hread, hlast⟩
  · refine Or.inl ⟨hnil, fun y rest hsplit heven => ?_⟩
    obtain ⟨y', -, htext, heven'⟩ := hlater hsplit heven
    exact hnone y' rest htext heven'
  · refine Or.inr ⟨c :: x, rest, by rw [htext]; rfl, (evenAt_cons odd c x).2 heven, ?_, ?_⟩
    · rw [hread]
      simp
    · intro y rest' hsplit heven'
      obtain ⟨y', rfl, htext', heven''⟩ := hlater hsplit heven'
      have hle := hlast y' rest' htext' heven''
      simpa using hle

theorem LastBreak.line {pending text read : Text} (h : LastBreak false [] text read) :
    LastBreak false pending ('\n' :: text) (pending ++ ['\n'] ++ read) := by
  have hnext {y : Text} : EvenAt false ('\n' :: y) ↔ EvenAt false y := by simp [EvenAt]
  refine Or.inr ?_
  rcases h with ⟨rfl, hnone⟩ | ⟨x, rest, rfl, heven, rfl, hlast⟩
  · refine ⟨[], text, rfl, by simp [EvenAt], by simp, fun y rest hsplit heven => ?_⟩
    cases y with
    | nil => exact le_rfl
    | cons d y =>
      rw [List.cons_append, List.cons.injEq] at hsplit
      obtain ⟨rfl, htext⟩ := hsplit
      exact absurd (hnext.1 heven) (hnone y rest htext)
  · refine ⟨'\n' :: x, rest, rfl, hnext.2 heven, by simp, fun y rest' hsplit heven' => ?_⟩
    cases y with
    | nil => exact Nat.zero_le _
    | cons d y =>
      rw [List.cons_append, List.cons.injEq] at hsplit
      obtain ⟨rfl, htext⟩ := hsplit
      have hle := hlast y rest' htext (hnext.1 heven')
      simpa using hle

/-- The records of a state behind others. -/
def CsvState.behindRows (done : List (List Text)) (s : CsvState) : CsvState :=
  { s with rows := done ++ s.rows }

theorem pushCsvFieldChar_behindRows (limit : ℕ) (done : List (List Text)) (s : CsvState) (c : Char) :
    pushCsvFieldChar limit (s.behindRows done) c =
      (pushCsvFieldChar limit s c).map (CsvState.behindRows done) := by
  unfold pushCsvFieldChar
  by_cases h : s.fieldChars + 1 > limit
  · rw [if_pos (show (s.behindRows done).fieldChars + 1 > limit from h), if_pos h]
    rfl
  · rw [if_neg (show ¬ (s.behindRows done).fieldChars + 1 > limit from h), if_neg h]
    rfl

theorem csvTurn_behindRows (limit : ℕ) (done : List (List Text)) (s : CsvState)
    (next : Option Char) (c : Char) : csvTurn limit (s.behindRows done) next c =
      (csvTurn limit s next c).map fun p => (p.1.behindRows done, p.2) := by
  have hrow : (s.behindRows done).endRow = s.endRow.behindRows done := by
    simp [CsvState.endRow, CsvState.endField, CsvState.behindRows]
  have hquotes : (s.behindRows done).inQuotes = s.inQuotes := rfl
  have hafter : (s.behindRows done).afterQuote = s.afterQuote := rfl
  have hstarted : (s.behindRows done).fieldStarted = s.fieldStarted := rfl
  unfold csvTurn
  rw [hquotes, hafter, hstarted, hrow]
  simp only [pushCsvFieldChar_behindRows]
  split_ifs <;> simp [Function.comp_def] <;> rfl

theorem csvRun_behindRows (limit : ℕ) (done : List (List Text)) (s : CsvState) (skip : Bool)
    (a b : Text) : csvRun limit (s.behindRows done) skip a b =
      (csvRun limit s skip a b).map fun p => (p.1.behindRows done, p.2) := by
  induction a generalizing s skip with
  | nil => rfl
  | cons c a ih =>
    cases skip with
    | true => simp only [csvRun, ih]
    | false =>
      simp only [csvRun, csvTurn_behindRows]
      cases csvTurn limit s (a ++ b).head? c with
      | none => rfl
      | some p => exact ih p.1 p.2

theorem csvTurn_mono {limit limit' : ℕ} (hle : limit ≤ limit') {s : CsvState} {next : Option Char}
    {c : Char} {p : CsvState × Bool} (h : csvTurn limit s next c = some p) :
    csvTurn limit' s next c = some p := by
  have hpush {c : Char} {s' : CsvState} (h : pushCsvFieldChar limit s c = some s') :
      pushCsvFieldChar limit' s c = some s' := by
    unfold pushCsvFieldChar at h ⊢
    split_ifs at h with hlarge
    rw [if_neg (by omega), h]
  unfold csvTurn at h ⊢
  split_ifs at h ⊢
  all_goals first
    | exact h
    | (obtain ⟨s', hs', rfl⟩ := Option.map_eq_some_iff.1 h
       exact Option.map_eq_some_iff.2 ⟨s', hpush hs', rfl⟩)

/-- **A larger limit reads the same records.** -/
theorem parseCsvFrom_mono {limit limit' : ℕ} (hle : limit ≤ limit') {s : CsvState} {skip : Bool}
    {text : Text} {rows : List (List Text)} (h : parseCsvFrom limit s skip text = some rows) :
    parseCsvFrom limit' s skip text = some rows := by
  induction text generalizing s skip with
  | nil => cases skip <;> simpa only [parseCsvFrom] using h
  | cons c text ih =>
    cases skip with
    | true => exact ih h
    | false =>
      rw [parseCsvFrom_cons] at h ⊢
      obtain ⟨p, hturn, h⟩ := Option.bind_eq_some_iff.1 h
      exact Option.bind_eq_some_iff.2 ⟨p, csvTurn_mono hle hturn, ih h⟩

/-- What follows a line break does not matter. -/
theorem csvRun_newline (limit : ℕ) (s : CsvState) (skip : Bool) (a b b' : Text) :
    csvRun limit s skip (a ++ ['\n']) b = csvRun limit s skip (a ++ ['\n']) b' := by
  induction a generalizing s skip with
  | nil =>
    cases skip with
    | true => rfl
    | false => simp [csvRun, csvTurn]
  | cons c a ih =>
    cases skip with
    | true => simp only [List.cons_append, csvRun, ih]
    | false =>
      have hhead (t : Text) : (a ++ ['\n'] ++ t).head? = (a ++ ['\n']).head? := by
        cases a <;> rfl
      simp only [List.cons_append, csvRun, hhead, ih]

/-- **A record is read alone as it is read in its text.** -/
theorem parse_record {limit limit' : ℕ} (hle : limit ≤ limit') {done done' : List (List Text)}
    {a b : Text}
    (h : csvRun limit (.ready done []) false (a ++ ['\n']) b = some (.ready done' [], false)) :
    ∃ rows, done' = done ++ rows ∧ parseCsvWithLimit (a ++ ['\n']) limit' = some rows := by
  have hstart : CsvState.ready done [] = CsvState.start.behindRows done := by
    simp [CsvState.ready, CsvState.behindRows, CsvState.start]
  rw [hstart, csvRun_behindRows, Option.map_eq_some_iff] at h
  obtain ⟨⟨s, skip⟩, hrun, hpair⟩ := h
  rw [Prod.mk.injEq] at hpair
  obtain ⟨hready, rfl⟩ := hpair
  obtain ⟨rows, rfl, rfl⟩ : ∃ rows, s = .ready rows [] ∧ done' = done ++ rows := by
    cases s
    simp only [CsvState.behindRows, CsvState.ready, CsvState.mk.injEq] at hready ⊢
    exact ⟨_, by simp [hready.2], hready.1.symm⟩
  refine ⟨rows, rfl, parseCsvFrom_mono hle ?_⟩
  rw [csvRun_newline limit _ _ a b []] at hrun
  rw [← List.append_nil (a ++ ['\n']), parseCsvFrom_append, hrun]
  rfl

end DailyReport.TextParser
