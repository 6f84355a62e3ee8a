import DailyReport.TextParser.JsonPreview

/-!
# The flag of a preview

A preview says in its header whether it has been cut.  The header is written before the content is
measured: a content that is one character too long is written again with the other flag, and then
it is short enough.

* `tells_truth_iff` : **exactly when the flag tells the truth**.
-/

namespace DailyReport.TextParser

open Lib

/-- A header with its flag. -/
def flagHeader (front back : Text) (truncated : Bool) : Text := front ++ showBool truncated ++ back

/-- A content behind its header. -/
def headedContent (front back source : Text) (truncated : Bool) : Text :=
  flagHeader front back truncated ++ source

theorem length_headedContent (front back source : Text) (truncated : Bool) :
    (headedContent front back source truncated).length =
      (flagHeader front back truncated).length + source.length := List.length_append

/-- The header is one character shorter with the flag set. -/
theorem length_flagHeader (front back : Text) :
    (flagHeader front back false).length = (flagHeader front back true).length + 1 := by
  have hfalse : (showBool false).length = 5 := by simp [showBool, lit_eq]
  have htrue : (showBool true).length = 4 := by simp [showBool, lit_eq]
  simp only [flagHeader, List.length_append, hfalse, htrue]
  omega

/-! ### The callers write such headers -/

/-- The part of a header in front of the flag. -/
def flagFront (title excerptSource : Text) : Text :=
  title ++ (['\n'] ++ (lit "excerpt_source: " ++ excerptSource)) ++ (['\n'] ++ lit "truncated: ")

/-- The part of a header behind the flag, with further lines. -/
def flagBack (lines : List Text) : Text := lines.flatMap (['\n'] ++ ·) ++ ['\n', '\n']

theorem preview_headed (title excerptSource : Text) (lines : List Text) (text : Text) :
    (fun truncated => joinWith ['\n']
      (metadataLines title excerptSource truncated ++ lines ++ [[], text])) =
      headedContent (flagFront title excerptSource) (flagBack lines) text := by
  funext truncated
  unfold metadataLines
  rw [List.cons_append, List.cons_append, joinWith_cons_eq]
  simp [headedContent, flagHeader, flagFront, flagBack, List.append_assoc]

/-- The header of a text. -/
theorem buildTextContent_headed (raw : RawExcerpt) (title : Text) (maxChars : ℕ)
    (warning : Option LightTextWarning) : ∃ front back, buildTextContent raw title maxChars warning =
      ((finalizeContent (headedContent front back raw.text) raw.truncated maxChars).1,
        (finalizeContent (headedContent front back raw.text) raw.truncated maxChars).2, warning) := by
  refine ⟨flagFront title raw.source,
    flagBack (warning.map fun warning => lit "warning: " ++ warning.code).toList, ?_⟩
  rw [← preview_headed]
  rfl

/-- The header of a JSON file. -/
theorem buildJsonContent_headed (libraries : ParserLibraries) (raw : RawExcerpt) (maxChars : ℕ) :
    ∃ front back warning, buildJsonContent libraries raw maxChars =
      ((finalizeContent (headedContent front back raw.text) raw.truncated maxChars).1,
        (finalizeContent (headedContent front back raw.text) raw.truncated maxChars).2, warning) := by
  obtain ⟨front, back, hfallback⟩ := buildTextContent_headed raw (lit "JSON preview") maxChars
    (some .jsonPreviewFallback)
  unfold buildJsonContent
  by_cases htruncated : raw.truncated = true
  · rw [if_pos htruncated]
    exact ⟨front, back, _, hfallback⟩
  rw [if_neg htruncated]
  cases libraries.fromStr (normalizePythonJsonConstants raw.text) with
  | none => exact ⟨front, back, _, hfallback⟩
  | some payload =>
    refine ⟨flagFront (if payload.isObject then lit "JSON object preview" else lit "JSON preview")
      raw.source, flagBack (valueLines raw.text payload), none, ?_⟩
    rw [← preview_headed]

/-! ### The flag -/

/-- What a preview says about itself is true: it stays within its characters, its header shows its
flag, and the flag is set exactly if the source has not been read or not been shown to its end. -/
structure TellsTruth (front back source : Text) (readTruncated : Bool) (maxChars : ℕ)
    (shown : Text × Bool) : Prop where
  within : shown.1.length ≤ maxChars
  header : shown.1 = (headedContent front back source shown.2).take maxChars
  flag : shown.2 = true ↔
    readTruncated = true ∨ shown.1.drop (flagHeader front back shown.2).length ≠ source

theorem limitChars_eq (content : Text) (maxChars : ℕ) :
    limitChars content maxChars = (content.take maxChars, decide (maxChars < content.length)) := by
  unfold limitChars
  split_ifs with h
  · rw [decide_eq_true h]
  · rw [decide_eq_false h, List.take_of_length_le (Nat.not_lt.1 h)]

theorem finalizeContent_read (builder : Bool → Text) (maxChars : ℕ) :
    finalizeContent builder true maxChars = ((builder true).take maxChars, true) := by
  simp [finalizeContent, limitChars_eq]

/-- A content that does not fit is written again. -/
theorem finalizeContent_unread (builder : Bool → Text) (maxChars : ℕ) :
    finalizeContent builder false maxChars =
      if (builder false).length ≤ maxChars then (builder false, false)
      else ((builder true).take maxChars, decide (maxChars < (builder true).length)) := by
  simp only [finalizeContent, limitChars_eq, Bool.false_or]
  by_cases h : (builder false).length ≤ maxChars
  · rw [if_pos h, decide_eq_false (Nat.not_lt.2 h), if_neg (by simp), List.take_of_length_le h]
  · rw [if_neg h, decide_eq_true (Nat.not_le.1 h), if_pos (by simp)]

section

variable {front back source : Text} {maxChars : ℕ}

/-- Nothing of the source is missing from a cut content, unless the cut reaches the source. -/
theorem drop_headedContent_eq_iff {truncated : Bool} :
    ((headedContent front back source truncated).take maxChars).drop
        (flagHeader front back truncated).length = source ↔
      source = [] ∨ (headedContent front back source truncated).length ≤ maxChars := by
  rw [List.drop_take, headedContent, List.drop_left, List.take_eq_self_iff, List.length_append]
  constructor
  · intro h
    by_cases hnil : source = []
    · exact Or.inl hnil
    · have hpos := List.length_pos_iff.2 hnil
      exact Or.inr (by omega)
  · rintro (rfl | h)
    · exact Nat.zero_le _
    · omega

/-- Two contents that differ in their flags. -/
theorem headedContent_ne
    (h : (headedContent front back source false).length = maxChars + 1) :
    headedContent front back source true ≠
      (headedContent front back source false).take maxChars := by
  intro heq
  have hlength := length_flagHeader front back
  rw [length_headedContent, hlength] at h
  have hfront : front.length < (flagHeader front back true).length := by
    simp [flagHeader, showBool, lit_eq]
  have hget : (headedContent front back source true)[front.length]? =
      ((headedContent front back source false).take maxChars)[front.length]? := by rw [heq]
  rw [List.getElem?_take_of_lt (by omega)] at hget
  simp [headedContent, flagHeader, showBool, lit_eq] at hget

theorem length_headedContent_false : (headedContent front back source false).length =
    (headedContent front back source true).length + 1 := by
  rw [length_headedContent, length_headedContent, length_flagHeader]
  omega

/-- **A content that is one character too long is written again with the flag set, and then the
flag is not returned.** -/
theorem not_tells_truth (h : (headedContent front back source false).length = maxChars + 1) :
    ¬ TellsTruth front back source false maxChars
      (finalizeContent (headedContent front back source) false maxChars) := by
  intro htells
  have hshorter := @length_headedContent_false front back source
  have hfits : ¬ maxChars < (headedContent front back source true).length := by omega
  have hheader := htells.header
  rw [finalizeContent_unread, if_neg (by omega), decide_eq_false hfits,
    List.take_of_length_le (Nat.not_lt.1 hfits)] at hheader
  exact headedContent_ne h hheader

/-- A content that is cut tells so. -/
theorem tells_truth_cut {readTruncated : Bool} (h : readTruncated = true ∨
    maxChars < (headedContent front back source true).length ∧ source ≠ []) :
    TellsTruth front back source readTruncated maxChars
      ((headedContent front back source true).take maxChars, true) := by
  refine ⟨?_, rfl, iff_of_true rfl (h.imp_right ?_)⟩
  · rw [List.length_take]
    exact Nat.min_le_left _ _
  · rintro ⟨hlong, hsource⟩
    rw [Ne, drop_headedContent_eq_iff, not_or]
    exact ⟨hsource, Nat.not_le.2 hlong⟩

/-- A content that fits tells so. -/
theorem tells_truth_whole (h : (headedContent front back source false).length ≤ maxChars) :
    TellsTruth front back source false maxChars (headedContent front back source false, false) := by
  have hwhole := List.take_of_length_le h
  refine ⟨h, hwhole.symm, iff_of_false (by simp) ?_⟩
  rintro (hread | hmissing)
  · cases hread
  · refine hmissing ?_
    dsimp only
    rw [← hwhole, drop_headedContent_eq_iff]
    exact Or.inr h

end

/-- **The flag tells the truth unless the content is one character too long without it**, or the
source is empty and the header is cut. -/
theorem tells_truth_iff (front back source : Text) (readTruncated : Bool) (maxChars : ℕ) :
    TellsTruth front back source readTruncated maxChars
        (finalizeContent (headedContent front back source) readTruncated maxChars) ↔
      readTruncated = true ∨ (headedContent front back source false).length ≤ maxChars ∨
        (maxChars + 1 < (headedContent front back source false).length ∧ source ≠ []) := by
  cases readTruncated with
  | true =>
    rw [finalizeContent_read]
    exact iff_of_true (tells_truth_cut (Or.inl rfl)) (Or.inl rfl)
  | false =>
    have hshorter := @length_headedContent_false front back source
    by_cases hone : (headedContent front back source false).length = maxChars + 1
    · refine iff_of_false (not_tells_truth hone) ?_
      rintro (hread | hshort | ⟨hlong, -⟩)
      · cases hread
      · omega
      · omega
    rw [finalizeContent_unread]
    by_cases hfits : (headedContent front back source false).length ≤ maxChars
    · rw [if_pos hfits]
      exact iff_of_true (tells_truth_whole hfits) (Or.inr (Or.inl hfits))
    rw [if_neg hfits]
    have hlong : maxChars < (headedContent front back source true).length := by omega
    rw [decide_eq_true hlong]
    constructor
    · intro htells
      refine Or.inr (Or.inr ⟨by omega, fun hnil => ?_⟩)
      have hmissing := (htells.flag.1 rfl).resolve_left (by simp)
      exact hmissing (drop_headedContent_eq_iff.2 (Or.inl hnil))
    · rintro (hread | hshort | ⟨-, hsource⟩)
      · cases hread
      · omega
      · exact tells_truth_cut (Or.inr ⟨hlong, hsource⟩)

/-- **A preview of sixty characters within fifty-nine.** -/
theorem preview_lies : ¬ ∀ (front back source : Text) (readTruncated : Bool) (maxChars : ℕ),
    TellsTruth front back source readTruncated maxChars
      (finalizeContent (headedContent front back source) readTruncated maxChars) := by
  intro h
  refine not_tells_truth ?_ (h (flagFront (lit "JSON preview") (lit "head")) (flagBack [])
    (lit "not json") false 59)
  decide +kernel

end DailyReport.TextParser
