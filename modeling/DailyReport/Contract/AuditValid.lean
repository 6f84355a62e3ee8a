import DailyReport.Contract.ContentAudit

/-!
# What a valid audit is

The validation of an audit goes over its units in order and remembers the identities and the end of
the units before.  A list of units passes exactly when each unit is valid by itself, the identities
are distinct and no unit begins before the end of another one (`validateContentUnits_ok_iff`).

* `ValidAudit` : what a valid audit has, apart from its size;
* `validate_ok_iff` : **an audit is valid when it has this and its encoding fits the byte budget**.
-/

namespace DailyReport

open Lib

theorem forM_ok_iff {α : Type} {f : α → Checked} {l : List α} :
    l.forM f = .ok () ↔ ∀ a ∈ l, f a = .ok () := by
  induction l with
  | nil => simp [List.forM, pure, Except.pure]
  | cons a l ih =>
    change (f a >>= fun _ => l.forM f) = .ok () ↔ _
    rw [bind_ok_iff, ih]
    simp

/-- A check that refuses the case `p`. -/
theorem refuse_ok_iff {p : Prop} [Decidable p] {e : Text} {c : Checked} :
    (if p then .error e else c) = .ok () ↔ ¬ p ∧ c = .ok () := by
  split_ifs with h <;> simp [h]

/-- A range that passes the validation. -/
structure ValidRange (r : SourceRange) : Prop where
  order : r.start < r.stop
  position : r.unit = .textChar ∨ r.unit = .byte ∨ 0 < r.start
  label : ∀ label ∈ r.label, countChars label ≤ 512
  columns : (r.columnStart = none ∧ r.columnEnd = none) ∨
    ∃ start stop, r.columnStart = some start ∧ r.columnEnd = some stop ∧ 0 < start ∧ start < stop ∧
      (r.unit = .sheetRow ∨ r.unit = .tableRow)

theorem validateRange_ok_iff {r : SourceRange} : r.validate = .ok () ↔ ValidRange r := by
  have hunfold : r.validate =
      if r.start ≥ r.stop ∨ (r.unit ≠ .textChar ∧ r.unit ≠ .byte ∧ r.start = 0) ∨
          r.label.any (fun label => decide (countChars label > 512)) then
        .error (lit "source range is invalid")
      else if (r.columnStart = none ∧ r.columnEnd = none) ∨
          r.columnStart.any (fun start => r.columnEnd.any fun stop =>
            decide (0 < start ∧ start < stop ∧ (r.unit = .sheetRow ∨ r.unit = .tableRow))) then
        .ok ()
      else .error (lit "source column range is invalid") := by
    unfold SourceRange.validate
    cases r.columnStart <;> cases r.columnEnd <;> split_ifs <;> simp_all <;> rfl
  have hlabel : ¬ r.label.any (fun label => decide (countChars label > 512)) = true ↔
      ∀ label ∈ r.label, countChars label ≤ 512 := by
    cases r.label <;> simp
  have hposition : ¬ (r.unit ≠ .textChar ∧ r.unit ≠ .byte ∧ r.start = 0) ↔
      r.unit = .textChar ∨ r.unit = .byte ∨ 0 < r.start := by
    by_cases htext : r.unit = .textChar
    · simp [htext]
    · by_cases hbyte : r.unit = .byte
      · simp [hbyte]
      · simp [htext, hbyte, Nat.pos_iff_ne_zero]
  have hcolumns : (r.columnStart = none ∧ r.columnEnd = none) ∨
      r.columnStart.any (fun start => r.columnEnd.any fun stop =>
        decide (0 < start ∧ start < stop ∧ (r.unit = .sheetRow ∨ r.unit = .tableRow))) = true ↔
      (r.columnStart = none ∧ r.columnEnd = none) ∨
        ∃ start stop, r.columnStart = some start ∧ r.columnEnd = some stop ∧ 0 < start ∧
          start < stop ∧ (r.unit = .sheetRow ∨ r.unit = .tableRow) := by
    cases r.columnStart <;> cases r.columnEnd <;> simp
  rw [hunfold, refuse_ok_iff, ite_ok_iff, hcolumns, not_or, not_or, hlabel, hposition, ge_iff_le,
    Nat.not_le]
  constructor
  · rintro ⟨⟨horder, hstart, hshort⟩, hcolumns⟩
    exact ⟨horder, hstart, hshort, hcolumns⟩
  · rintro ⟨horder, hstart, hshort, hcolumns⟩
    exact ⟨⟨horder, hstart, hshort⟩, hcolumns⟩

/-- A valid unit of a text with `textChars` characters. -/
structure ValidUnit (textChars : ℕ) (unit : ContentUnit) : Prop where
  unitId : unit.unitId ≠ [] ∧ countChars unit.unitId ≤ 128
  order : unit.textStart < unit.textEnd
  inside : unit.textEnd ≤ textChars
  ranges : unit.ranges.length ≤ 128
  valid : ∀ range ∈ unit.ranges, ValidRange range

/-- Units of a text with `textChars` characters that pass the validation. -/
structure ValidUnits (textChars : ℕ) (units : List ContentUnit) : Prop where
  each : ∀ unit ∈ units, ValidUnit textChars unit
  distinct : (units.map ContentUnit.unitId).Nodup
  sorted : units.Pairwise fun u v => u.textEnd ≤ v.textStart

theorem validateContentUnits_cons_iff {textChars previousEnd : ℕ} {identities : List Text}
    {unit : ContentUnit} {units : List ContentUnit} :
    validateContentUnits textChars identities previousEnd (unit :: units) = .ok () ↔
      (ValidUnit textChars unit ∧ unit.unitId ∉ identities ∧ previousEnd ≤ unit.textStart) ∧
        validateContentUnits textChars (unit.unitId :: identities) unit.textEnd units = .ok () := by
  have hunfold : validateContentUnits textChars identities previousEnd (unit :: units) =
      if unit.unitId = [] ∨ countChars unit.unitId > 128 ∨ unit.unitId ∈ identities ∨
          unit.textStart ≥ unit.textEnd ∨ unit.textEnd > textChars ∨ unit.ranges.length > 128 ∨
          unit.textStart < previousEnd then
        .error (lit "parser content unit is invalid")
      else (do
        unit.ranges.forM SourceRange.validate
        validateContentUnits textChars (unit.unitId :: identities) unit.textEnd units) := by
    conv_lhs => unfold validateContentUnits
    split_ifs <;> rfl
  simp only [hunfold, refuse_ok_iff, bind_ok_iff, forM_ok_iff, validateRange_ok_iff]
  constructor
  · rintro ⟨hcheck, hranges, hrest⟩
    simp only [not_or, Nat.not_lt, Nat.not_le, ge_iff_le, gt_iff_lt] at hcheck
    obtain ⟨hid, hlong, hnew, horder, hinside, hcount, hprevious⟩ := hcheck
    exact ⟨⟨⟨⟨hid, hlong⟩, horder, hinside, hcount, hranges⟩, hnew, hprevious⟩, hrest⟩
  · rintro ⟨⟨⟨⟨hid, hlong⟩, horder, hinside, hcount, hranges⟩, hnew, hprevious⟩, hrest⟩
    refine ⟨?_, hranges, hrest⟩
    simp only [not_or, Nat.not_lt, Nat.not_le, ge_iff_le, gt_iff_lt]
    exact ⟨hid, hlong, hnew, horder, hinside, hcount, hprevious⟩

/-- **Units pass the validation** when they are valid, have distinct identities and stand in
order. -/
theorem validateContentUnits_ok_iff {textChars previousEnd : ℕ} {identities : List Text}
    {units : List ContentUnit} :
    validateContentUnits textChars identities previousEnd units = .ok () ↔
      ValidUnits textChars units ∧
        ∀ unit ∈ units, unit.unitId ∉ identities ∧ previousEnd ≤ unit.textStart := by
  induction units generalizing identities previousEnd with
  | nil =>
    refine iff_of_true rfl ⟨⟨?_, ?_, ?_⟩, ?_⟩ <;> simp
  | cons unit units ih =>
    rw [validateContentUnits_cons_iff, ih]
    constructor
    · rintro ⟨⟨hunit, hnew, hprevious⟩, ⟨heach, hdistinct, hsorted⟩, hrest⟩
      refine ⟨⟨?_, ?_, ?_⟩, ?_⟩
      · simpa using ⟨hunit, heach⟩
      · refine List.nodup_cons.2 ⟨?_, hdistinct⟩
        rintro hmem
        obtain ⟨v, hv, hid⟩ := List.mem_map.1 hmem
        exact (hrest v hv).1 (hid ▸ List.mem_cons_self)
      · exact List.pairwise_cons.2 ⟨fun v hv => (hrest v hv).2, hsorted⟩
      · intro v hv
        rcases List.mem_cons.1 hv with rfl | hv
        · exact ⟨hnew, hprevious⟩
        · have horder := hunit.order
          have hstart := (hrest v hv).2
          exact ⟨fun h => (hrest v hv).1 (List.mem_cons_of_mem _ h), by omega⟩
    · rintro ⟨⟨heach, hdistinct, hsorted⟩, hrest⟩
      obtain ⟨hfirst, hdistinct⟩ := List.nodup_cons.1 hdistinct
      obtain ⟨hbefore, hsorted⟩ := List.pairwise_cons.1 hsorted
      refine ⟨⟨heach unit (by simp), hrest unit (by simp)⟩,
        ⟨fun v hv => heach v (List.mem_cons_of_mem _ hv), hdistinct, hsorted⟩, ?_⟩
      intro v hv
      refine ⟨?_, hbefore v hv⟩
      rw [List.mem_cons, not_or]
      exact ⟨fun h => hfirst (h ▸ List.mem_map_of_mem hv),
        (hrest v (List.mem_cons_of_mem _ hv)).1⟩

/-- The bytes that the encoding of an audit may take. -/
def auditBytesMax : ℕ := 256 * 1024

/-- What a valid audit has, apart from its size. -/
structure ValidAudit (a : ParsedContentAudit) (content : Text) : Prop where
  archive : a.archive = false
  version : a.version = 1
  usable : ∀ chars ∈ a.usableChars, chars ≤ countChars content
  readRanges : (a.readRanges.getD []).length ≤ 10000
  validRanges : ∀ range ∈ a.readRanges.getD [], ValidRange range
  contentUnits : (a.contentUnits.getD []).length ≤ 10000
  validUnits : ValidUnits (countChars content) (a.contentUnits.getD [])
  encoding : ∀ encoding ∈ a.encoding, encoding ∈ auditEncodings
  detectedFormat : ∀ format ∈ a.detectedFormat, format ∈ auditFormats

/-- **An audit is valid** when it has what a valid audit has and its encoding fits. -/
theorem validate_ok_iff {a : ParsedContentAudit} {content : Text} :
    a.validate content = .ok () ↔ ValidAudit a content ∧ a.jsonBytes ≤ auditBytesMax := by
  have hunfold : a.validate content =
      if a.archive = true then .error (lit "archive artifacts require the archive operation")
      else if a.version ≠ 1 ∨
          a.usableChars.any (fun chars => decide (chars > countChars content)) ∨
          a.readRanges.any (fun ranges => decide (ranges.length > 10000)) ∨
          a.contentUnits.any (fun units => decide (units.length > 10000)) ∨
          a.encoding.any (fun encoding => !auditEncodings.contains encoding) ∨
          a.detectedFormat.any (fun format => !auditFormats.contains format) then
        .error (lit "parser audit fields are invalid")
      else (do
        (a.readRanges.getD []).forM SourceRange.validate
        (do
          validateContentUnits (countChars content) [] 0 (a.contentUnits.getD [])
          if a.jsonBytes > 256 * 1024 then
            .error (lit "parser audit exceeds metadata byte budget")
          else .ok ())) := by
    dsimp only [ParsedContentAudit.validate]
    split_ifs <;> rfl
  rw [hunfold, refuse_ok_iff, refuse_ok_iff, bind_ok_iff, forM_ok_iff, bind_ok_iff,
    validateContentUnits_ok_iff, refuse_ok_iff]
  have husable : ¬ a.usableChars.any (fun chars => decide (chars > countChars content)) = true ↔
      ∀ chars ∈ a.usableChars, chars ≤ countChars content := by
    cases a.usableChars <;> simp
  have hread : ¬ a.readRanges.any (fun ranges => decide (ranges.length > 10000)) = true ↔
      (a.readRanges.getD []).length ≤ 10000 := by
    cases a.readRanges <;> simp
  have hunits : ¬ a.contentUnits.any (fun units => decide (units.length > 10000)) = true ↔
      (a.contentUnits.getD []).length ≤ 10000 := by
    cases a.contentUnits <;> simp
  have hencoding : ¬ a.encoding.any (fun encoding => !auditEncodings.contains encoding) = true ↔
      ∀ encoding ∈ a.encoding, encoding ∈ auditEncodings := by
    cases a.encoding <;> simp
  have hformat : ¬ a.detectedFormat.any (fun format => !auditFormats.contains format) = true ↔
      ∀ format ∈ a.detectedFormat, format ∈ auditFormats := by
    cases a.detectedFormat <;> simp
  simp only [validateRange_ok_iff, not_or, husable, hread, hunits, hencoding, hformat, ne_eq, not_not, Nat.not_lt,
    Bool.not_eq_true, gt_iff_lt, and_true, List.not_mem_nil, not_false_eq_true, Nat.zero_le,
    implies_true]
  constructor
  · rintro ⟨harchive, ⟨hversion, hchars, hreads, hcount, henc, hfmt⟩, hranges, hvalid, hsize⟩
    exact ⟨⟨harchive, hversion, hchars, hreads, hranges, hcount, hvalid, henc, hfmt⟩, hsize⟩
  · rintro ⟨⟨harchive, hversion, hchars, hreads, hranges, hcount, hvalid, henc, hfmt⟩, hsize⟩
    exact ⟨harchive, ⟨hversion, hchars, hreads, hcount, henc, hfmt⟩, hranges, hvalid, hsize⟩

/-! ### Sizes -/

/-- The ranges of a unit take the bytes of their list. -/
theorem jsonBytes_ranges (unit : ContentUnit) : unit.jsonBytes + 2 =
    ContentUnit.jsonBytes { unit with ranges := [] } +
      jsonListBytes SourceRange.jsonBytes unit.ranges := by
  simp only [ContentUnit.jsonBytes, jsonObjectBytes, List.map_cons, List.sum_cons, List.map_nil,
    List.sum_nil, List.length_cons, List.length_nil, jsonListBytes]
  omega

/-- The units of an audit take the bytes of their list. -/
theorem jsonBytes_units {audit : ParsedContentAudit} {units : List ContentUnit}
    (h : audit.contentUnits = some units) : audit.jsonBytes + 2 =
    ParsedContentAudit.jsonBytes { audit with contentUnits := some [] } +
      jsonListBytes ContentUnit.jsonBytes units := by
  simp only [ParsedContentAudit.jsonBytes, h, jsonOptionBytes, jsonObjectBytes, List.map_cons,
    List.sum_cons, List.map_nil, List.sum_nil, List.length_cons, List.length_nil]
  simp only [jsonListBytes, List.map_nil, List.sum_nil, List.length_nil]
  omega

end DailyReport
