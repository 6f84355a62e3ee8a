import DailyReport.Contract.AuditBytes
import DailyReport.TextParser.Parse

/-!
# Which audits of the text parser are valid

Whatever window is shown, the content stays within its characters and its units lie in it one behind
the other, with valid ranges.  Two things are not looked at: how many ranges a group of table rows
carries, and what is written into the audit after its size has been checked, the usable characters
of the last unit and the name of the encoding.

* `parseLightText_valid_iff` : **what the parser returns is valid exactly when no table group that
  is taken has too many ranges and the last unit leaves room for what is added after the check**;
* `long_table` : a table of short rows makes the audit invalid.
-/

namespace DailyReport.TextParser

open Lib

/-! ### The ranges -/

/-- A range that the parser makes. -/
structure GoodRange (r : SourceRange) : Prop where
  valid : ValidRange r
  plain : PlainRange r

theorem goodRange_byteRanges {raw : RawExcerpt} (hraw : GoodExcerpt raw) {r : SourceRange}
    (hr : r ∈ byteRanges raw) : GoodRange r := by
  unfold byteRanges at hr
  split_ifs at hr with hempty
  · cases hr
  · have hstart := hraw.order.trans hraw.limit
    have horder := hraw.order
    rw [List.mem_singleton] at hr
    subst hr
    have hlabel : ∀ label ∈ [lit "head", lit "tail"], countChars label ≤ 512 := by decide +kernel
    have hsource : raw.source ∈ [lit "head", lit "tail"] := by
      rcases hraw.source with h | h <;> simp [h]
    refine ⟨⟨?_, Or.inr (Or.inl rfl), ?_, Or.inl ⟨rfl, rfl⟩⟩,
      ⟨hstart, hraw.limit, Or.inr ?_, ⟨rfl, rfl⟩⟩⟩
    · dsimp only
      omega
    · intro label hmem
      obtain rfl := Option.some.inj (Option.mem_def.1 hmem)
      exact hlabel _ hsource
    · rcases hraw.source with h | h
      · exact Or.inl (congrArg some h)
      · exact Or.inr (congrArg some h)

theorem length_byteRanges (raw : RawExcerpt) : (byteRanges raw).length ≤ 1 := by
  unfold byteRanges
  split_ifs <;> simp

theorem validRange_csvRange (index : ℕ) : ValidRange (csvRange index) :=
  ⟨Nat.lt_succ_self _, Or.inr (Or.inr (Nat.succ_pos _)), by simp [csvRange], Or.inl ⟨rfl, rfl⟩⟩

theorem goodRange_csvRange {index : ℕ} (h : index ≤ 512) : GoodRange (csvRange index) := by
  refine ⟨validRange_csvRange index, ⟨?_, ?_, Or.inl rfl, rfl, rfl⟩⟩
  · change index + 1 ≤ u64Max
    unfold u64Max
    omega
  · change index + 2 ≤ u64Max
    unfold u64Max
    omega

/-- The builder keeps the range that has been read. -/
theorem built_readBuilder {raw : RawExcerpt} (hraw : GoodExcerpt raw) (maxChars : ℕ) {format : Text}
    (hformat : format ∈ auditFormats) :
    Built maxChars (some (byteRanges raw)) format [] (readBuilder raw maxChars format) := by
  have hgood : ∀ r ∈ byteRanges raw, GoodRange r := fun r hr => goodRange_byteRanges hraw hr
  have hlength := length_byteRanges raw
  unfold readBuilder
  generalize byteRanges raw = ranges at hgood hlength ⊢
  match ranges, hlength with
  | [], _ => exact built_new maxChars format
  | [r], _ =>
    have hsize := auditBytes_le (some [r]) [] 0 none (some format)
      (by simpa using (hgood r List.mem_cons_self).plain) (by simp) (Nat.zero_le _)
      (Nat.zero_le _) (Nat.zero_le _) (by simp) (by simpa using hformat)
    have hfits : 200 + 1 * 161 + 0 * 161 + 0 * 161 ≤ auditBytesMax := by decide
    exact (built_new maxChars format).read List.not_mem_nil (hsize.trans hfits)

/-! ### Texts and logs -/

/-- What is taken of a text and kept at the end. -/
def textKept (raw : RawExcerpt) (maxChars : ℕ) (tail : Bool) (warning : Option LightTextWarning) :
    List Push :=
  keptOf (takenOf maxChars (some (byteRanges raw)) (lit "text")
    (textHeading raw tail warning :: (textBody raw maxChars tail).1))

theorem text_mem_auditFormats : lit "text" ∈ auditFormats := by decide +kernel

theorem csv_mem_auditFormats : lit "csv" ∈ auditFormats := by decide +kernel

theorem built_text {raw : RawExcerpt} (hraw : GoodExcerpt raw) (maxChars : ℕ) (tail : Bool)
    (warning : Option LightTextWarning) :
    Built maxChars (some (byteRanges raw)) (lit "text")
      (takenOf maxChars (some (byteRanges raw)) (lit "text")
        (textHeading raw tail warning :: (textBody raw maxChars tail).1))
      ((readBuilder raw maxChars (lit "text")).pushAll
        (textHeading raw tail warning :: (textBody raw maxChars tail).1)) :=
  (built_readBuilder hraw maxChars text_mem_auditFormats).pushAll _

/-- The content and the audit of a text are those of what has been kept. -/
theorem auditedText_eq {raw : RawExcerpt} (hraw : GoodExcerpt raw) (maxChars : ℕ) (tail : Bool)
    (warning : Option LightTextWarning) :
    (auditedText raw maxChars tail warning).content =
        textOf (textKept raw maxChars tail warning) ∧
      (auditedText raw maxChars tail warning).audit =
        sealedAudit (some (byteRanges raw)) (lit "text") raw.encoding
          (textKept raw maxChars tail warning) := by
  have hfinish := (built_text hraw maxChars tail warning).finish
  unfold auditedText
  dsimp only
  unfold finishContent
  rw [hfinish]
  exact ⟨rfl, rfl⟩

/-- The ranges of what is pushed of a text are valid. -/
theorem validRange_textBody {raw : RawExcerpt} {maxChars : ℕ} {tail : Bool} {p : Push}
    (h : p ∈ (textBody raw maxChars tail).1) :
    (∀ range ∈ p.ranges, ValidRange range) ∧ (tail = true → p.ranges = []) := by
  unfold textBody at h
  cases tail with
  | false =>
    refine ⟨?_, by simp⟩
    intro range hrange
    obtain ⟨piece, hpiece, hmem⟩ := mem_textPushes h range hrange
    exact (mem_textPieces hpiece).2.1 range hmem
  | true =>
    obtain ⟨piece, hpiece, rfl⟩ := List.mem_map.1 h
    have hmem := mem_textPieces (List.mem_reverse.1 (mem_selectLatest hpiece))
    exact ⟨hmem.2.1, hmem.2.2⟩

/-- The ranges of what is kept of a text are valid, and those of a log are none. -/
theorem validRange_textKept {raw : RawExcerpt} {maxChars : ℕ} {tail : Bool}
    {warning : Option LightTextWarning} {p : Push} (h : p ∈ textKept raw maxChars tail warning) :
    (∀ range ∈ p.ranges, ValidRange range) ∧ (tail = true → p.ranges = []) := by
  obtain ⟨q, hq, rfl⟩ := mem_takenOf (mem_of_mem_keptOf h)
  change (∀ range ∈ q.ranges, ValidRange range) ∧ (tail = true → q.ranges = [])
  rcases List.mem_cons.1 hq with rfl | hq
  · exact ⟨by simp [textHeading], fun _ => rfl⟩
  · exact validRange_textBody hq

theorem goodReads {raw : RawExcerpt} (hraw : GoodExcerpt raw) :
    ((some (byteRanges raw)).getD []).length ≤ 512 ∧
      ∀ range ∈ (some (byteRanges raw)).getD [], ValidRange range :=
  ⟨(length_byteRanges raw).trans (by decide), fun _ hr => (goodRange_byteRanges hraw hr).valid⟩

/-- The audit of a text is valid exactly when the units carry few enough ranges, and its encoding
fits. -/
theorem auditedText_valid_iff {raw : RawExcerpt} (hraw : GoodExcerpt raw) (maxChars : ℕ)
    (tail : Bool) (warning : Option LightTextWarning) :
    (auditedText raw maxChars tail warning).audit.validate
        (auditedText raw maxChars tail warning).content = .ok () ↔
      (∀ p ∈ textKept raw maxChars tail warning, p.ranges.length ≤ 128) ∧
        (sealedAudit (some (byteRanges raw)) (lit "text") raw.encoding
          (textKept raw maxChars tail warning)).jsonBytes ≤ auditBytesMax := by
  obtain ⟨hcontent, haudit⟩ := auditedText_eq hraw maxChars tail warning
  rw [hcontent, haudit, textKept, (built_text hraw maxChars tail warning).valid_iff hraw.encoding
    text_mem_auditFormats (goodReads hraw), ← textKept]
  refine and_congr_left fun _ => forall₂_congr fun p hp => ?_
  exact and_iff_left (validRange_textKept hp).1

theorem auditedText_length {raw : RawExcerpt} (hraw : GoodExcerpt raw) (maxChars : ℕ) (tail : Bool)
    (warning : Option LightTextWarning) :
    (auditedText raw maxChars tail warning).content.length ≤ maxChars := by
  rw [(auditedText_eq hraw maxChars tail warning).1]
  exact (built_text hraw maxChars tail warning).length_le

/-- **The audit of a log is valid**, since its lines have no ranges. -/
theorem auditedLog_valid {raw : RawExcerpt} (hraw : GoodExcerpt raw) {maxChars : ℕ}
    (hlimit : maxChars < u64Max) (warning : Option LightTextWarning) :
    (auditedText raw maxChars true warning).audit.validate
        (auditedText raw maxChars true warning).content = .ok () := by
  have hnone : ∀ p ∈ textKept raw maxChars true warning, p.ranges = [] := fun p hp =>
    (validRange_textKept hp).2 rfl
  refine (auditedText_valid_iff hraw maxChars true warning).2 ⟨fun p hp => ?_, ?_⟩
  · rw [hnone p hp]
    exact Nat.zero_le _
  have hbuilt := built_text hraw maxChars true warning
  have hkept : (textKept raw maxChars true warning).length ≤ 512 ∧
      span (textKept raw maxChars true warning) ≤ maxChars + 1 := by
    unfold textKept keptOf
    split_ifs
    · exact ⟨Nat.zero_le _, Nat.zero_le _⟩
    · exact ⟨hbuilt.count, hbuilt.within⟩
  generalize textKept raw maxChars true warning = ps at hnone hkept ⊢
  have hranges : countRanges ps ≤ ps.length * 0 := countRanges_le fun p hp => by simp [hnone p hp]
  have husable : usableSize ps ≤ span ps := by
    have := usableSize_le ps
    rw [span_eq]
    omega
  have hbytes := auditBytes_le (some (byteRanges raw)) ps (usableSize ps) (some raw.encoding)
    (some (lit "text")) (fun r hr => (goodRange_byteRanges hraw hr).plain)
    (fun p hp r hr => absurd hr (by simp [hnone p hp]))
    (hkept.1.trans (by decide)) (by omega) (by omega) (by simpa using hraw.encoding)
    (by simpa using text_mem_auditFormats)
  have hreads := length_byteRanges raw
  refine hbytes.trans ?_
  rw [Option.getD_some]
  unfold auditBytesMax
  omega

/-! ### Records -/

/-- The window and the first records. -/
def csvReads (raw : RawExcerpt) (k : ℕ) : List SourceRange :=
  byteRanges raw ++ (List.range k).map csvRange

theorem csvReads_succ (raw : RawExcerpt) (k : ℕ) :
    csvReads raw (k + 1) = csvReads raw k ++ [csvRange k] := by
  rw [csvReads, List.range_succ, List.map_append, ← List.append_assoc]
  rfl

theorem csvRange_not_mem (raw : RawExcerpt) (k : ℕ) : csvRange k ∉ csvReads raw k := by
  intro h
  rcases List.mem_append.1 h with h | h
  · unfold byteRanges at h
    split_ifs at h
    · cases h
    · have hunit : SourceRangeUnit.csvRecord = .byte :=
        congrArg SourceRange.unit (List.mem_singleton.1 h)
      cases hunit
  · obtain ⟨j, hj, heq⟩ := List.mem_map.1 h
    have hstart : j + 1 = k + 1 := congrArg SourceRange.start heq
    have hlt := List.mem_range.1 hj
    omega

theorem le_length_csvReads (raw : RawExcerpt) (k : ℕ) : k ≤ (csvReads raw k).length := by
  rw [csvReads, List.length_append, List.length_map, List.length_range]
  exact Nat.le_add_left _ _

theorem goodRange_csvReads {raw : RawExcerpt} (hraw : GoodExcerpt raw) {k : ℕ} (hk : k ≤ 513)
    {r : SourceRange} (hr : r ∈ csvReads raw k) : GoodRange r := by
  rcases List.mem_append.1 hr with hr | hr
  · exact goodRange_byteRanges hraw hr
  · obtain ⟨j, hj, rfl⟩ := List.mem_map.1 hr
    have hlt := List.mem_range.1 hj
    exact goodRange_csvRange (by omega)

/-- The ranges of a few units with one range each. -/
structure FewRanges (n : ℕ) (ps : List Push) : Prop where
  count : ps.length ≤ n
  ranges : ∀ p ∈ ps, p.ranges.length ≤ 1
  good : ∀ p ∈ ps, ∀ r ∈ p.ranges, GoodRange r

/-- The first records have been noted, or too many ranges have been, and few units taken. -/
structure CsvBuilt (raw : RawExcerpt) (maxChars k : ℕ) (b : AuditTextBuilder)
    (reads : Option (List SourceRange)) (ps : List Push) : Prop where
  built : Built maxChars reads (lit "csv") ps b
  reads : ∀ ranges ∈ reads, ranges = csvReads raw k ∧ ranges.length ≤ 512
  few : FewRanges (min k 4 + 1) ps

theorem FewRanges.take {n maxChars : ℕ} {reads : Option (List SourceRange)} {format : Text}
    {ps : List Push} (h : FewRanges n ps) {p : Push} (hcount : p.ranges.length ≤ 1)
    (hgood : ∀ r ∈ p.ranges, GoodRange r) :
    FewRanges (n + 1) (takeOne maxChars reads format ps p) := by
  unfold takeOne
  split_ifs
  · refine ⟨?_, ?_, ?_⟩
    · have hlength := h.count
      rw [List.length_append, List.length_singleton]
      omega
    · intro q hq
      rcases List.mem_append.1 hq with hq | hq
      · exact h.ranges q hq
      · rw [List.mem_singleton.1 hq]
        exact hcount
    · intro q hq
      rcases List.mem_append.1 hq with hq | hq
      · exact h.good q hq
      · rw [List.mem_singleton.1 hq]
        exact hgood
  · exact ⟨h.count.trans (Nat.le_succ n), h.ranges, h.good⟩

/-- The audit of a few units is small. -/
theorem CsvBuilt.bytes_le {raw : RawExcerpt} {maxChars k : ℕ} {b : AuditTextBuilder}
    {reads reads' : Option (List SourceRange)} {ps : List Push} (encoding : Option Text)
    (h : CsvBuilt raw maxChars k b reads ps) (hlimit : maxChars < u64Max)
    (hplain : ∀ r ∈ reads'.getD [], PlainRange r) (hreads : (reads'.getD []).length ≤ 513)
    (hencoding : ∀ name ∈ encoding, name ∈ auditEncodings) :
    ParsedContentAudit.jsonBytes { pushedAudit reads' (lit "csv") ps with encoding := encoding } ≤
      auditBytesMax := by
  have hwithin := h.built.within
  have hcount := h.few.count
  have hranges := countRanges_le h.few.ranges
  have husable : usableSize ps ≤ span ps := by
    have hsize := usableSize_le ps
    rw [span_eq]
    omega
  have hbytes := auditBytes_le reads' ps (usableSize ps) encoding (some (lit "csv")) hplain
    (fun p hp r hr => (h.few.good p hp r hr).plain) (by unfold u64Max; omega) (by omega) (by omega)
    hencoding (by simpa using csv_mem_auditFormats)
  refine hbytes.trans ?_
  unfold auditBytesMax
  omega

/-- **One record keeps the builder as it is**: its range is noted, and it may be taken. -/
theorem CsvBuilt.step {raw : RawExcerpt} (hraw : GoodExcerpt raw) {maxChars k : ℕ}
    (hlimit : maxChars < u64Max) {b : AuditTextBuilder} {reads : Option (List SourceRange)}
    {ps : List Push} (h : CsvBuilt raw maxChars k b reads ps) (row : List Text) :
    ∃ reads ps, CsvBuilt raw maxChars (k + 1) (csvStep b (row, k)) reads ps := by
  obtain ⟨next, hread, hnext⟩ : ∃ next, Built maxChars next (lit "csv") ps (b.read (csvRange k)) ∧
      ∀ ranges ∈ next, ranges = csvReads raw (k + 1) ∧ ranges.length ≤ 512 := by
    cases hreads : reads with
    | none => exact ⟨none, (hreads ▸ h.built).note _, by simp⟩
    | some ranges =>
      obtain ⟨rfl, hcount⟩ := h.reads ranges (hreads ▸ rfl)
      have hk := (le_length_csvReads raw k).trans hcount
      have hsize : (pushedAudit (some (csvReads raw k ++ [csvRange k])) (lit "csv") ps).jsonBytes ≤
          auditBytesMax := by
        rw [← csvReads_succ]
        refine h.bytes_le none hlimit
          (fun r hr => (goodRange_csvReads hraw (by omega) hr).plain) ?_ (by simp)
        rw [Option.getD_some, csvReads_succ, List.length_append, List.length_singleton]
        omega
      refine ⟨_, (hreads ▸ h.built).read (csvRange_not_mem raw k) hsize, ?_⟩
      intro ranges hranges
      split_ifs at hranges with hroom
      · obtain rfl := Option.some.inj (Option.mem_def.1 hranges)
        refine ⟨(csvReads_succ raw k).symm, ?_⟩
        rw [List.length_append, List.length_singleton]
        omega
      · cases hranges
  unfold csvStep
  dsimp only
  by_cases hshown : k > 3
  · rw [if_pos hshown]
    refine ⟨next, ps, hread, hnext, ⟨?_, h.few.ranges, h.few.good⟩⟩
    have hcount := h.few.count
    omega
  · rw [if_neg hshown]
    have hpush : (csvPush k row).ranges = [csvRange k] := by
      unfold csvPush
      split_ifs <;> rfl
    have htake : FewRanges (min k 4 + 1 + 1)
        (takeOne maxChars next (lit "csv") ps (csvPush k row)) := by
      refine h.few.take (by rw [hpush]; rfl) fun r hr => ?_
      rw [hpush, List.mem_singleton] at hr
      subst hr
      exact goodRange_csvRange (by omega)
    refine ⟨next, _, hread.push _, hnext, ⟨?_, htake.ranges, htake.good⟩⟩
    have hcount := htake.count
    omega

/-- All records. -/
theorem CsvBuilt.run {raw : RawExcerpt} (hraw : GoodExcerpt raw) {maxChars : ℕ}
    (hlimit : maxChars < u64Max) (rows : List (List Text)) {k : ℕ} {b : AuditTextBuilder}
    {reads : Option (List SourceRange)} {ps : List Push} (h : CsvBuilt raw maxChars k b reads ps) :
    ∃ reads ps,
      CsvBuilt raw maxChars (k + rows.length) ((rows.zipIdx k).foldl csvStep b) reads ps := by
  induction rows generalizing k b reads ps with
  | nil => exact ⟨reads, ps, h⟩
  | cons row rows ih =>
    obtain ⟨reads', ps', hstep⟩ := h.step hraw hlimit row
    rw [List.zipIdx_cons, List.foldl_cons, List.length_cons, Nat.add_comm rows.length,
      ← Nat.add_assoc]
    exact ih hstep

/-- **The audit of the records of a CSV file is valid.** -/
theorem auditedCsv_valid {raw : RawExcerpt} (hraw : GoodExcerpt raw) {maxChars : ℕ}
    (hlimit : maxChars < u64Max) {rows : List (List Text)}
    (hrows : parseCsv (csvInput raw) = some rows) :
    (auditedCsv raw maxChars).content.length ≤ maxChars ∧
      (auditedCsv raw maxChars).audit.validate (auditedCsv raw maxChars).content = .ok () := by
  have hheading : CsvBuilt raw maxChars 0
      ((readBuilder raw maxChars (lit "csv")).push (csvHeading raw)).1 (some (csvReads raw 0))
      (takeOne maxChars (some (csvReads raw 0)) (lit "csv") [] (csvHeading raw)) := by
    have hreads : csvReads raw 0 = byteRanges raw := List.append_nil _
    have hnone : FewRanges 0 [] := ⟨le_rfl, by simp, by simp⟩
    refine ⟨?_, ?_, hnone.take (Nat.zero_le _) (by simp [csvHeading])⟩
    · rw [hreads]
      exact (built_readBuilder hraw maxChars csv_mem_auditFormats).push _
    · intro ranges hranges
      obtain rfl := Option.some.inj (Option.mem_def.1 hranges)
      rw [hreads]
      exact ⟨rfl, (length_byteRanges raw).trans (by decide)⟩
  obtain ⟨reads, ps, hbuilt⟩ := hheading.run hraw hlimit rows
  have hfinish := hbuilt.built.finish
  have hreads : ∀ r ∈ reads.getD [], GoodRange r := by
    cases reads with
    | none => simp
    | some ranges =>
      obtain ⟨rfl, hcount⟩ := hbuilt.reads ranges rfl
      have hk := (le_length_csvReads raw (0 + rows.length)).trans hcount
      exact fun r hr => goodRange_csvReads hraw (by omega) hr
  have hfew : (reads.getD []).length ≤ 512 := by
    cases reads with
    | none => exact Nat.zero_le _
    | some ranges => exact (hbuilt.reads ranges rfl).2
  have hunfold : (auditedCsv raw maxChars).content = textOf (keptOf ps) ∧
      (auditedCsv raw maxChars).audit =
        sealedAudit reads (lit "csv") raw.encoding (keptOf ps) := by
    unfold auditedCsv
    rw [hrows]
    dsimp only
    unfold finishContent
    rw [hfinish]
    exact ⟨rfl, rfl⟩
  rw [hunfold.1, hunfold.2]
  refine ⟨hbuilt.built.length_le, ?_⟩
  rw [hbuilt.built.valid_iff hraw.encoding csv_mem_auditFormats
    ⟨hfew, fun r hr => (hreads r hr).valid⟩]
  constructor
  · intro p hp
    have hmem := mem_of_mem_keptOf hp
    have hone := hbuilt.few.ranges p hmem
    exact ⟨by omega, fun r hr => (hbuilt.few.good p hmem r hr).valid⟩
  · have hplain : ∀ r ∈ reads.getD [], PlainRange r := fun r hr => (hreads r hr).plain
    unfold keptOf
    split_ifs
    · -- nothing usable is left
      have hempty := auditBytes_le reads [] 0 (some raw.encoding) (some (lit "csv")) hplain
        (by simp) (Nat.zero_le _) (Nat.zero_le _) (Nat.zero_le _) (by simpa using hraw.encoding)
        (by simpa using csv_mem_auditFormats)
      refine hempty.trans ?_
      unfold auditBytesMax
      change 200 + (reads.getD []).length * 161 + 0 * 161 + 0 * 161 ≤ 256 * 1024
      omega
    · exact hbuilt.bytes_le (some raw.encoding) hlimit hplain (by omega)
        (by simpa using hraw.encoding)

/-! ### JSON -/

/-- **The audit of a JSON file is valid.** -/
theorem auditedJson_valid (libraries : ParserLibraries) {raw : RawExcerpt} (hraw : GoodExcerpt raw)
    {maxChars : ℕ} (hlimit : maxChars < u64Max) :
    (auditedJson libraries raw maxChars).content.length ≤ maxChars ∧
      (auditedJson libraries raw maxChars).audit.validate
        (auditedJson libraries raw maxChars).content = .ok () := by
  have hlength := buildJsonContent_length libraries raw maxChars
  unfold auditedJson
  dsimp only
  generalize (buildJsonContent libraries raw maxChars).1 = content at hlength ⊢
  refine ⟨hlength, validate_ok_iff.2
    ⟨⟨rfl, rfl, ?_, ?_, ?_, Nat.zero_le _, ?_, by simp, by simp⟩, ?_⟩⟩
  · intro chars hchars
    obtain rfl := Option.some.inj (Option.mem_def.1 hchars)
    split_ifs
    · exact Nat.zero_le _
    · exact le_rfl
  · exact (length_byteRanges raw).trans (by decide)
  · exact fun r hr => (goodRange_byteRanges hraw hr).valid
  · refine ⟨by simp, by simp, by simp⟩
  · generalize husable : (if trim raw.text = [] then 0 else countChars content) = usable
    have hsmall : usable ≤ u64Max := by
      rw [← husable]
      split_ifs
      · exact Nat.zero_le _
      · unfold countChars
        omega
    have hbytes := auditBytes_le (some (byteRanges raw)) [] usable none none
      (fun r hr => (goodRange_byteRanges hraw hr).plain) (by simp) (Nat.zero_le _) (Nat.zero_le _)
      hsmall (by simp) (by simp)
    have hunknown := jsonBytes_unknownUnits
      ⟨false, 1, some (byteRanges raw), none, some usable, none, none⟩
    have hreads := length_byteRanges raw
    change ParsedContentAudit.jsonBytes
      ⟨false, 1, some (byteRanges raw), none, some usable, none, none⟩ = _ + 2 at hunknown
    rw [hunknown]
    refine (Nat.add_le_add_right hbytes 2).trans ?_
    unfold auditBytesMax
    change 200 + (byteRanges raw).length * 161 + 0 * 161 + 0 * 161 + 2 ≤ 256 * 1024
    omega

/-! ### The parser -/

/-- The units that are taken of a text carry few enough ranges, and the last one leaves room. -/
structure TextFits (raw : RawExcerpt) (maxChars : ℕ) (warning : Option LightTextWarning) :
    Prop where
  ranges : ∀ p ∈ textKept raw maxChars false warning, p.ranges.length ≤ 128
  room : LeavesRoom (some (byteRanges raw)) (lit "text") raw.encoding
    (textKept raw maxChars false warning)

/-- What is shown as a text fits: a text, a Markdown file, and a CSV file that cannot be read. -/
structure WindowFits (normalizedType : Text) (raw : RawExcerpt) (maxChars : ℕ) : Prop where
  text : normalizedType = lit ".txt" ∨ normalizedType = lit ".md" → TextFits raw maxChars none
  fallback : normalizedType = lit ".csv" → parseCsv (csvInput raw) = none →
    TextFits raw maxChars (some .csvPreviewFallback)

theorem auditedText_fits_iff {raw : RawExcerpt} (hraw : GoodExcerpt raw) (maxChars : ℕ)
    (warning : Option LightTextWarning) :
    (auditedText raw maxChars false warning).audit.validate
        (auditedText raw maxChars false warning).content = .ok () ↔
      TextFits raw maxChars warning := by
  have hplain : ∀ r ∈ (some (byteRanges raw)).getD [], PlainRange r := fun r hr =>
    (goodRange_byteRanges hraw hr).plain
  rw [auditedText_valid_iff hraw, sealedAudit_fits_iff hplain (goodReads hraw).1 hraw.encoding
    text_mem_auditFormats]
  exact ⟨fun ⟨hranges, hroom⟩ => ⟨hranges, hroom⟩, fun h => ⟨h.ranges, h.room⟩⟩

/-- The types of the files are different. -/
theorem textFileTypes_nodup : textFileTypes.Nodup := by decide +kernel

/-- **What is shown of a window is valid exactly when it fits.** -/
theorem auditedContent_valid_iff (libraries : ParserLibraries) {normalizedType : Text}
    (htype : normalizedType ∈ textFileTypes) {raw : RawExcerpt} (hraw : GoodExcerpt raw)
    {maxChars : ℕ} (hlimit : maxChars < u64Max) :
    ((auditedContent libraries normalizedType raw maxChars).content.length ≤ maxChars ∧
      (auditedContent libraries normalizedType raw maxChars).audit.validate
        (auditedContent libraries normalizedType raw maxChars).content = .ok ()) ↔
      WindowFits normalizedType raw maxChars := by
  have hnodup := textFileTypes_nodup
  simp only [textFileTypes, List.nodup_cons, List.mem_cons, List.not_mem_nil, or_false, not_or]
    at hnodup
  obtain ⟨⟨htm, htc, htj, htl⟩, ⟨hmc, hmj, hml⟩, ⟨hcj, hcl⟩, hjl, -⟩ := hnodup
  have htext (warning : Option LightTextWarning) :=
    and_iff_right_of_imp fun _ : (auditedText raw maxChars false warning).audit.validate
        (auditedText raw maxChars false warning).content = .ok () =>
      auditedText_length hraw maxChars false warning
  unfold auditedContent
  simp only [textFileTypes, List.mem_cons, List.not_mem_nil, or_false] at htype
  rcases htype with rfl | rfl | rfl | rfl | rfl
  · rw [if_neg htj, if_neg htc, decide_eq_false htl, htext, auditedText_fits_iff hraw]
    exact ⟨fun h => ⟨fun _ => h, fun hcsv => absurd hcsv htc⟩, fun h => h.text (Or.inl rfl)⟩
  · rw [if_neg hmj, if_neg hmc, decide_eq_false hml, htext, auditedText_fits_iff hraw]
    exact ⟨fun h => ⟨fun _ => h, fun hcsv => absurd hcsv hmc⟩, fun h => h.text (Or.inr rfl)⟩
  · rw [if_neg hcj, if_pos rfl]
    cases hrows : parseCsv (csvInput raw) with
    | none =>
      have hunfold : auditedCsv raw maxChars =
          auditedText raw maxChars false (some .csvPreviewFallback) := by
        unfold auditedCsv
        rw [hrows]
      rw [hunfold, htext, auditedText_fits_iff hraw]
      refine ⟨fun h => ⟨?_, fun _ _ => h⟩, fun h => h.fallback rfl hrows⟩
      rintro (h | h)
      · exact absurd h.symm htc
      · exact absurd h.symm hmc
    | some rows =>
      refine iff_of_true (auditedCsv_valid hraw hlimit hrows) ⟨?_, ?_⟩
      · rintro (h | h)
        · exact absurd h.symm htc
        · exact absurd h.symm hmc
      · intro _ hnone
        rw [hrows] at hnone
        cases hnone
  · rw [if_pos rfl]
    refine iff_of_true (auditedJson_valid libraries hraw hlimit) ⟨?_, fun h => absurd h.symm hcj⟩
    rintro (h | h)
    · exact absurd h.symm htj
    · exact absurd h.symm hmj
  · rw [if_neg (Ne.symm hjl), if_neg (Ne.symm hcl), decide_eq_true rfl]
    refine iff_of_true
      ⟨auditedText_length hraw maxChars true none, auditedLog_valid hraw hlimit none⟩
      ⟨?_, fun h => absurd h.symm hcl⟩
    rintro (h | h)
    · exact absurd h.symm htl
    · exact absurd h.symm hml

theorem validate_textProfile {profile : TextParseProfile} (h : profile.validate = .ok ()) :
    profile.readHeadBytes ≤ 67108864 ∧ profile.maxChars ≤ 10000000 := by
  simp only [TextParseProfile.validate, bind_ok_iff, requireRange_ok_iff] at h
  omega

section

variable [UnicodeCase]

/-- What the window of a file is. -/
theorem lightTextWindow_spec {libraries : ParserLibraries} {file : SourceFile} {fileType : Text}
    {profile : TextParseProfile} {maxFileSizeBytes : UInt64} {raw : RawExcerpt}
    (h : lightTextWindow libraries file fileType profile maxFileSizeBytes = .ok raw) :
    GoodExcerpt raw ∧ toLowercase fileType ∈ textFileTypes ∧ maxOutputChars profile < u64Max := by
  unfold lightTextWindow at h
  split at h
  next => cases h
  next hvalid =>
    obtain ⟨hhead, hchars⟩ := validate_textProfile hvalid
    split_ifs at h with htype hopens
    split at h
    next => cases h
    next length hlength =>
      split_ifs at h
      refine ⟨?_, htype, ?_⟩
      · have hsize : length.toNat ≤ u64Max := Nat.le_of_lt_succ length.toNat_lt
        have hread : profile.readHeadBytes ≤ u64Max := hhead.trans (by decide)
        unfold readExcerpt at h
        by_cases hlog : toLowercase fileType = lit ".log"
        · rw [if_pos hlog] at h
          exact readTail_spec hsize h
        · rw [if_neg hlog] at h
          exact readHead_spec hread h
      · unfold maxOutputChars u64Max
        omega

/-- **What the parser returns is valid exactly when the window fits.** -/
theorem parseLightText_valid_iff {libraries : ParserLibraries} {file : SourceFile} {fileType : Text}
    {profile : TextParseProfile} {maxFileSizeBytes : UInt64} {parsed : ParsedLightText}
    (h : parseLightText libraries file fileType profile maxFileSizeBytes = .ok parsed) :
    (countChars parsed.content ≤ min profile.maxChars profile.excerptMaxChars ∧
      parsed.evidenceAudit.validate parsed.content = .ok ()) ↔
    ∀ raw, lightTextWindow libraries file fileType profile maxFileSizeBytes = .ok raw →
      WindowFits (toLowercase fileType) raw (min profile.maxChars profile.excerptMaxChars) := by
  obtain ⟨raw, hwindow, rfl⟩ := map_eq_ok.1 h
  obtain ⟨hraw, htype, hlimit⟩ := lightTextWindow_spec hwindow
  have hiff := auditedContent_valid_iff libraries htype hraw hlimit
  constructor
  · intro hvalid raw' hraw'
    obtain rfl : raw = raw' := by
      rw [hwindow] at hraw'
      exact Except.ok.inj hraw'
    exact hiff.1 hvalid
  · exact fun hfits => hiff.2 (hfits raw hwindow)

end

/-! ### A table of short rows -/

local instance textParserCase : UnicodeCase := asciiCase

/-- Libraries that read nothing; a Markdown file does not need them. -/
def noLibraries : ParserLibraries := ⟨fun _ => none, fun _ _ => none⟩

def smallProfile : TextParseProfile :=
  ⟨[lit "utf-8"], lit "light_text_v2", 1048576, 1048576, 10000, 10000⟩

/-- A file of ASCII characters. -/
def asciiFile (t : Text) : SourceFile :=
  ⟨true, some (UInt64.ofNat t.length), true, true, t.map asciiByte⟩

/-- The window of a short Markdown file is the file. -/
def asciiWindow (t : Text) : RawExcerpt := ⟨t, lit "utf-8", lit "head", false, 0, t.length⟩

theorem lightTextWindow_ascii {t : Text} (hascii : ∀ c ∈ t, c.toNat < 128)
    (hlength : t.length ≤ 1048576) :
    lightTextWindow noLibraries (asciiFile t) (lit ".md") smallProfile 1048576 =
      .ok (asciiWindow t) := by
  have hvalid : smallProfile.validate = .ok () := by decide +kernel
  have htype : toLowercase (lit ".md") ∈ textFileTypes := by decide +kernel
  have hlog : toLowercase (lit ".md") ≠ lit ".log" := by decide +kernel
  have hcsv : toLowercase (lit ".md") ≠ lit ".csv" := by decide +kernel
  have hsize : (UInt64.ofNat t.length).toNat = t.length := by
    rw [UInt64.toNat_ofNat']
    omega
  have hsmall : ¬ UInt64.ofNat t.length > 1048576 := by
    rw [gt_iff_lt, UInt64.lt_iff_toNat_lt, hsize]
    exact Nat.not_lt.2 hlength
  have htake : (t.map asciiByte).take smallProfile.readHeadBytes = t.map asciiByte :=
    List.take_of_length_le (by rw [List.length_map]; exact hlength)
  unfold lightTextWindow
  rw [hvalid]
  dsimp only
  rw [if_neg (not_not.2 htype)]
  simp only [asciiFile, Bool.not_true, Bool.false_eq_true, if_false, hsmall, readExcerpt, hlog,
    hcsv, readHead, htake, decodeWindow, decodeHead, decodeUtf8_ascii hascii, List.length_map,
    hsize, gt_iff_lt, lt_irrefl, decide_false]
  rfl

/-- What is shown of a short Markdown file. -/
def shownText (t : Text) : ParsedLightText :=
  let shown := auditedContent noLibraries (toLowercase (lit ".md")) (asciiWindow t)
    (maxOutputChars smallProfile)
  ⟨shown.content, shown.audit, smallProfile.backend, shown.truncated, shown.warning.toList⟩

theorem parseLightText_ascii {t : Text} (hascii : ∀ c ∈ t, c.toNat < 128)
    (hlength : t.length ≤ 1048576) :
    parseLightText noLibraries (asciiFile t) (lit ".md") smallProfile 1048576 =
      .ok (shownText t) :=
  map_eq_ok.2 ⟨_, lightTextWindow_ascii hascii hlength, rfl⟩

/-- Rows of one bar each. -/
def barRows : ℕ → Text
  | 0 => []
  | n + 1 => '|' :: '\n' :: barRows n

/-- Rows of one bar each, behind a header and a separator. -/
def barTable (n : ℕ) : Text :=
  '|' :: '\n' :: '|' :: '-' :: '-' :: '-' :: '|' :: '\n' :: barRows n

/-- The piece of a line that begins at a character. -/
def linePiece (text : Text) (start : ℕ) : TextPiece :=
  ⟨text, [⟨.textChar, start, start + text.length, none, none, none⟩]⟩

/-- The pieces of the rows from a character on. -/
def barPieces : ℕ → ℕ → List TextPiece
  | _, 0 => []
  | start, n + 1 => linePiece ['|'] start :: barPieces (start + 2) n

theorem length_barRows (n : ℕ) : (barRows n).length = 2 * n := by
  induction n with
  | zero => rfl
  | succ n ih =>
    simp only [barRows, List.length_cons, ih]
    omega

theorem length_barTable (n : ℕ) : (barTable n).length = 8 + 2 * n := by
  simp only [barTable, List.length_cons, length_barRows]
  omega

theorem ascii_barRows (n : ℕ) : ∀ c ∈ barRows n, c.toNat < 128 := by
  induction n with
  | zero => simp [barRows]
  | succ n ih =>
    intro c hc
    simp only [barRows, List.mem_cons] at hc
    rcases hc with rfl | rfl | hc
    · decide
    · decide
    · exact ih c hc

theorem ascii_barTable (n : ℕ) : ∀ c ∈ barTable n, c.toNat < 128 := by
  have hhead : ∀ c ∈ ['|', '\n', '|', '-', '-', '-', '|', '\n'], c.toNat < 128 := by simp
  intro c hc
  rcases List.mem_append.1
    (show c ∈ ['|', '\n', '|', '-', '-', '-', '|', '\n'] ++ barRows n from hc) with hc | hc
  · exact hhead c hc
  · exact ascii_barRows n c hc

/-- A row is a segment. -/
theorem textPieces_barRows (tableLine : Bool) (start n : ℕ) :
    textPieces false start (segmentsFrom true tableLine [] (barRows n)) = barPieces start n := by
  induction n generalizing tableLine start with
  | zero => cases tableLine <;> rfl
  | succ n ih =>
    have hsegment : segmentsFrom true tableLine [] (barRows (n + 1)) =
        ['|', '\n'] :: segmentsFrom true (startsTable (barRows n)) [] (barRows n) := by
      cases tableLine <;> rfl
    have hpiece : ∀ segments, textPieces false start (['|', '\n'] :: segments) =
        linePiece ['|'] start :: textPieces false (start + 2) segments := fun _ => rfl
    rw [hsegment, hpiece, ih]
    rfl

theorem textPieces_barTable (n : ℕ) :
    textPieces false 0 (segmentsFrom true (startsTable (barTable n)) [] (barTable n)) =
      linePiece ['|'] 0 :: linePiece ['|', '-', '-', '-', '|'] 2 :: barPieces 8 n := by
  have hsegments : segmentsFrom true (startsTable (barTable n)) [] (barTable n) =
      ['|', '\n'] :: ['|', '-', '-', '-', '|', '\n'] ::
        segmentsFrom true (startsTable (barRows n)) [] (barRows n) := rfl
  have hpieces : ∀ segments, textPieces false 0
      (['|', '\n'] :: ['|', '-', '-', '-', '|', '\n'] :: segments) =
      linePiece ['|'] 0 :: linePiece ['|', '-', '-', '-', '|'] 2 :: textPieces false 8 segments :=
    fun _ => rfl
  rw [hsegments, hpieces, textPieces_barRows]

theorem takeWhile_barPieces (start n : ℕ) :
    (barPieces start n).takeWhile isTableLine = barPieces start n := by
  induction n generalizing start with
  | zero => rfl
  | succ n ih =>
    have hline : isTableLine (linePiece ['|'] start) = true := rfl
    rw [barPieces, List.takeWhile_cons, hline, if_pos rfl, ih]

/-- Short rows are one group. -/
theorem rowGroups_barPieces {headerChars size start n : ℕ} {group : List TextPiece}
    (hgroup : group ≠ []) (hsize : size + 2 * n ≤ 512) :
    rowGroups headerChars size group (barPieces start n) = [group ++ barPieces start n] := by
  induction n generalizing size start group with
  | zero => simp [barPieces, rowGroups, hgroup]
  | succ n ih =>
    have hcost : countChars (linePiece ['|'] start).text + 1 = 2 := rfl
    have hfits : ¬ (group ≠ [] ∧ size + 2 > 512) := by omega
    rw [barPieces, rowGroups, hcost, if_neg hfits, ih (by simp) (by omega), List.append_assoc]
    rfl

/-- The rows of the table. -/
def barPush (n : ℕ) : Push :=
  tablePush (linePiece ['|'] 0) (linePiece ['|', '-', '-', '-', '|'] 2) (barPieces 8 n)

/-- The table is pushed in groups. -/
theorem textBody_barTable (n : ℕ) : (textBody (asciiWindow (barTable (n + 1))) 10000 false).1 =
    (rowGroups 8 8 [] (barPieces 8 (n + 1))).map
      (tablePush (linePiece ['|'] 0) (linePiece ['|', '-', '-', '-', '|'] 2)) := by
  have hrows : tableRows (linePiece ['|'] 0)
      (linePiece ['|', '-', '-', '-', '|'] 2 :: barPieces 8 (n + 1)) = barPieces 8 (n + 1) := by
    have htable : isTableLine (linePiece ['|'] 0) ∧
        ((linePiece ['|', '-', '-', '-', '|'] 2 :: barPieces 8 (n + 1)).head?.any fun separator =>
          markdownSeparator separator.text) = true := ⟨rfl, rfl⟩
    rw [tableRows, if_pos htable]
    exact takeWhile_barPieces 8 (n + 1)
  have hskip : ∀ (k : ℕ) (pieces : List TextPiece), textPushes (k + pieces.length) pieces = [] := by
    intro k pieces
    induction pieces with
    | nil => rfl
    | cons piece pieces ih => exact ih
  have hbody : textPushes 0 (linePiece ['|'] 0 ::
      linePiece ['|', '-', '-', '-', '|'] 2 :: barPieces 8 (n + 1)) =
      (rowGroups 8 8 [] (barPieces 8 (n + 1))).map
        (tablePush (linePiece ['|'] 0) (linePiece ['|', '-', '-', '-', '|'] 2)) := by
    rw [textPushes, hrows, List.head?_cons]
    change (rowGroups 8 8 [] (barPieces 8 (n + 1))).map (tablePush _ _) ++
      textPushes (1 + (barPieces 8 (n + 1)).length) _ = _
    rw [Nat.add_comm 1, ← List.length_cons, ← Nat.zero_add (List.length _), hskip, List.append_nil]
  unfold textBody
  exact (congrArg (textPushes 0) (textPieces_barTable (n + 1))).trans hbody

/-- The first row of a table begins its first group. -/
theorem rowGroups_barPieces_succ (start n : ℕ) : rowGroups 8 8 [] (barPieces start (n + 1)) =
    rowGroups 8 10 [linePiece ['|'] start] (barPieces (start + 2) n) := by
  have hcost : countChars (linePiece ['|'] start).text + 1 = 2 := rfl
  rw [barPieces, rowGroups, hcost, if_neg (by simp), List.nil_append]

/-- **A table of short rows is one unit.** -/
theorem textBody_barTable_short {n : ℕ} (h : 8 + 2 * (n + 1) ≤ 512) :
    (textBody (asciiWindow (barTable (n + 1))) 10000 false).1 = [barPush (n + 1)] := by
  rw [textBody_barTable, rowGroups_barPieces_succ, rowGroups_barPieces (by simp) (by omega)]
  rfl

theorem ranges_barPieces (start n : ℕ) : ((barPieces start n).flatMap TextPiece.ranges).length = n ∧
    (start + 2 * n ≤ u64Max →
      ∀ r ∈ (barPieces start n).flatMap TextPiece.ranges, PlainRange r) := by
  induction n generalizing start with
  | zero => simp [barPieces]
  | succ n ih =>
    rw [barPieces, List.flatMap_cons]
    refine ⟨?_, fun hlimit r hr => ?_⟩
    · rw [List.length_append, (ih _).1, Nat.add_comm]
      rfl
    · rcases List.mem_append.1 hr with hr | hr
      · obtain rfl := List.mem_singleton.1 hr
        refine ⟨?_, ?_, Or.inl rfl, rfl, rfl⟩
        · dsimp only
          omega
        · simp only [List.length_singleton]
          omega
      · exact (ih _).2 (by omega) r hr

theorem length_barPush (n : ℕ) : (barPush n).text.length = 7 + 2 * n := by
  have htexts : ∀ start, totalLength ((barPieces start n).map TextPiece.text) = n ∧
      (barPieces start n).length = n := by
    induction n with
    | zero => exact fun _ => ⟨rfl, rfl⟩
    | succ n ih =>
      intro start
      rw [barPieces, List.map_cons, totalLength_cons, List.length_cons, (ih _).1, (ih _).2]
      exact ⟨Nat.add_comm _ _, rfl⟩
  rw [barPush, tablePush, length_joinWith, List.map_cons, List.map_cons, totalLength_cons,
    totalLength_cons, (htexts 8).1]
  simp only [List.length_cons, List.length_map, (htexts 8).2, List.length_nil, linePiece]
  omega

/-- It has a range for each line. -/
theorem ranges_barPush (n : ℕ) : (barPush n).ranges.length = n + 2 := by
  rw [barPush, tablePush, List.flatMap_cons, List.flatMap_cons, List.length_append,
    List.length_append, (ranges_barPieces 8 n).1]
  simp only [linePiece, List.length_singleton]
  omega

/-- The unit begins with a bar. -/
theorem trim_barPush (n : ℕ) : trim (barPush n).text ≠ [] := by
  obtain ⟨rest, hrest⟩ : ∃ rest, (barPush n).text = '|' :: rest := by
    rw [barPush, tablePush, List.map_cons, joinWith_cons _ _ (by simp)]
    exact ⟨_, rfl⟩
  have hstart : trimStart ('|' :: rest) = '|' :: rest := rfl
  rw [hrest, trim, hstart]
  intro hnil
  have hspace := List.rdropWhile_eq_nil_iff.1 hnil '|' List.mem_cons_self
  exact absurd hspace (by decide)

theorem plain_barPush {n : ℕ} (h : 8 + 2 * n ≤ u64Max) : ∀ r ∈ (barPush n).ranges, PlainRange r := by
  intro r hr
  rw [barPush, tablePush, List.flatMap_cons, List.flatMap_cons] at hr
  rcases List.mem_append.1 hr with hr | hr
  · obtain rfl := List.mem_singleton.1 hr
    exact ⟨by decide, by decide, Or.inl rfl, rfl, rfl⟩
  rcases List.mem_append.1 hr with hr | hr
  · obtain rfl := List.mem_singleton.1 hr
    exact ⟨by decide, by decide, Or.inl rfl, rfl, rfl⟩
  · exact (ranges_barPieces 8 n).2 h r hr

theorem goodExcerpt_asciiWindow {t : Text} (h : t.length ≤ u64Max) : GoodExcerpt (asciiWindow t) :=
  ⟨List.mem_cons_self, Or.inl rfl, Nat.zero_le _, h⟩

/-- Rows of tables that fit are all kept behind the heading. -/
theorem textKept_tables {t : Text} {tables : List Push} (ht : t.length ≤ u64Max)
    (hbody : (textBody (asciiWindow t) 10000 false).1 = tables) (hsome : tables ≠ [])
    (hrows : ∀ p ∈ tables, trim p.text ≠ [] ∧ p.kind = .tableRow)
    (hsmall : SmallPushes 9900 (tables.map Push.trimmed)) (hcount : tables.length ≤ 100) :
    textKept (asciiWindow t) 10000 false none =
      (textHeading (asciiWindow []) false none).trimmed :: tables.map Push.trimmed := by
  have hwindow := goodExcerpt_asciiWindow ht
  have hreads : ∀ r ∈ (some (byteRanges (asciiWindow t))).getD [], PlainRange r :=
    fun r hr => (goodRange_byteRanges hwindow hr).plain
  have hfew := (goodReads hwindow).1
  unfold textKept
  rw [hbody]
  generalize some (byteRanges (asciiWindow t)) = reads at hreads hfew ⊢
  have hline : (textHeading (asciiWindow []) false none).trimmed.text.length = 62 ∧
      (textHeading (asciiWindow []) false none).trimmed.text ≠ [] ∧
      (textHeading (asciiWindow []) false none).ranges = [] := by decide +kernel
  have hheading : textHeading (asciiWindow t) false none =
      textHeading (asciiWindow []) false none := rfl
  rw [hheading]
  generalize textHeading (asciiWindow []) false none = heading at hline ⊢
  obtain ⟨hchars, hne, hranges⟩ := hline
  have hsolid : solid (heading :: tables) = heading.trimmed :: tables.map Push.trimmed := by
    refine List.filter_eq_self.2 fun p hp => decide_eq_true ?_
    rcases List.mem_cons.1 hp with rfl | hp
    · exact hne
    · obtain ⟨q, hq, rfl⟩ := List.mem_map.1 hp
      exact (hrows q hq).1
  have hall : SmallPushes 10000 (solid (heading :: tables)) := by
    rw [hsolid]
    have hspan := hsmall.chars
    refine ⟨?_, ?_, List.forall_mem_cons.2 ⟨?_, hsmall.plain⟩, ?_⟩
    · change heading.trimmed.text.length + 1 + span (tables.map Push.trimmed) ≤ 10001
      omega
    · rw [List.length_cons, List.length_map]
      omega
    · rw [show heading.trimmed.ranges = [] from hranges]
      exact fun r hr => absurd hr List.not_mem_nil
    · have hnone : heading.trimmed.ranges.length = 0 := congrArg List.length hranges
      change heading.trimmed.ranges.length + countRanges (tables.map Push.trimmed) ≤ 512
      rw [hnone, Nat.zero_add]
      exact hsmall.ranges
  rw [takenOf_of_small (by decide) hreads hfew text_mem_auditFormats hall, hsolid, keptOf, if_neg]
  -- the last row is usable
  obtain ⟨front, p, rfl⟩ := (tables.eq_nil_or_concat').resolve_left hsome
  obtain ⟨hp, hkind⟩ := hrows p (by simp)
  have hpos := List.length_pos_iff.2 hp
  rw [List.map_append, List.map_singleton, ← List.cons_append, usableSize_append]
  change _ + (if p.kind.usable then (trim p.text).length else 0) ≠ 0
  have husable : p.kind.usable = true := by rw [hkind]; rfl
  rw [if_pos husable]
  omega

/-- **The table is taken with all its ranges.** -/
theorem barPush_kept {n : ℕ} (hn : 8 + 2 * (n + 1) ≤ 512) :
    (barPush (n + 1)).trimmed ∈ textKept (asciiWindow (barTable (n + 1))) 10000 false none := by
  have hlength := length_barPush (n + 1)
  have htrim := length_trim_le (barPush (n + 1)).text
  have hcount := ranges_barPush (n + 1)
  rw [textKept_tables (by rw [length_barTable]; unfold u64Max; omega) (textBody_barTable_short hn)
    (by simp) (by simpa using ⟨trim_barPush (n + 1), rfl⟩) ⟨?_, ?_, ?_, ?_⟩ (by simp)]
  · exact List.mem_cons_of_mem _ List.mem_cons_self
  · change (trim (barPush (n + 1)).text).length + 1 ≤ 9901
    omega
  · exact Nat.le_add_left _ _
  · intro p hp
    obtain rfl := List.mem_singleton.1 hp
    exact plain_barPush (by unfold u64Max; omega)
  · change (barPush (n + 1)).ranges.length + 0 ≤ 512
    omega

/-- The taken table has a range for each line. -/
theorem barPush_ranges_kept {n : ℕ} (hn : 8 + 2 * (n + 1) ≤ 512) :
    ∃ p ∈ textKept (asciiWindow (barTable (n + 1))) 10000 false none, p.ranges.length = n + 3 :=
  ⟨_, barPush_kept hn, ranges_barPush (n + 1)⟩

/-- **A table of short rows makes the audit invalid.** -/
theorem long_table : ¬ ∀ (libraries : ParserLibraries) (file : SourceFile) (fileType : Text)
    (profile : TextParseProfile) (maxFileSizeBytes : UInt64) (parsed : ParsedLightText),
    parseLightText libraries file fileType profile maxFileSizeBytes = .ok parsed →
      countChars parsed.content ≤ min profile.maxChars profile.excerptMaxChars ∧
        parsed.evidenceAudit.validate parsed.content = .ok () := by
  intro h
  have hshort : (barTable 127).length ≤ 1048576 := by
    rw [length_barTable]
    decide
  have hwindow : lightTextWindow noLibraries (asciiFile (barTable 127)) (lit ".md") smallProfile
      1048576 = .ok (asciiWindow (barTable 127)) :=
    lightTextWindow_ascii (ascii_barTable 127) hshort
  have hparsed : parseLightText noLibraries (asciiFile (barTable 127)) (lit ".md") smallProfile
      1048576 = .ok (shownText (barTable 127)) :=
    parseLightText_ascii (ascii_barTable 127) hshort
  have hvalid := h _ _ _ _ _ _ hparsed
  obtain ⟨hraw, htype, hlimit⟩ := lightTextWindow_spec hwindow
  have hfits := (auditedContent_valid_iff noLibraries htype hraw hlimit).1 hvalid
  have hmd : toLowercase (lit ".md") = lit ".md" := by decide +kernel
  obtain ⟨p, hp, hcount⟩ := barPush_ranges_kept (n := 126) (by decide)
  have hfew := (hfits.text (Or.inr hmd)).ranges p hp
  omega

/-- A Markdown file of one line. -/
theorem parseLightText_valid_iff_line :
    (countChars (shownText (lit "note")).content ≤
        min smallProfile.maxChars smallProfile.excerptMaxChars ∧
      (shownText (lit "note")).evidenceAudit.validate (shownText (lit "note")).content = .ok ()) ↔
    ∀ raw, lightTextWindow noLibraries (asciiFile (lit "note")) (lit ".md") smallProfile
        1048576 = .ok raw →
      WindowFits (toLowercase (lit ".md")) raw
        (min smallProfile.maxChars smallProfile.excerptMaxChars) :=
  parseLightText_valid_iff (parseLightText_ascii (by simp [lit_eq]) (by simp [lit_eq]))

end DailyReport.TextParser
