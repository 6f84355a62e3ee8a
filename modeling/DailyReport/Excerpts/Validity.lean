import DailyReport.Contract.AuditValid
import DailyReport.Excerpts.Granted
import DailyReport.Lib.Separated

/-!
# Which audits of the excerpts are valid

The audit of an excerpt is made anew from its pieces.  Everything that the validation asks for
holds again, whatever blocks have been taken (`ValidAudit.auditOf`), except for the size of the
encoding: a piece carries all ranges of its unit along, and so does a heading that is repeated.

* `allocated_valid_iff` : **the audits of a file stay valid in every allocation exactly when the
  pieces of its first blocks, with their ranges, fit the byte budget**;
* `repeated_ranges` : a file of a few lines whose valid audit becomes too large.
-/

namespace DailyReport.Excerpts

open Lib

/-! ### The ranges of the pieces -/

/-- A range stays valid when it is cut down. -/
theorem validRange_pieceRange {unit : ContentUnit} {charFrom charTo : ℕ} {range : SourceRange}
    (hrange : ValidRange range) (hlt : charFrom < charTo) :
    ValidRange (pieceRange unit charFrom charTo range) := by
  unfold pieceRange
  split_ifs with hcut
  · exact ⟨Nat.add_lt_add_left hlt _, Or.inl hcut.1, hrange.label, hrange.columns⟩
  · exact hrange

/-- The ranges of a piece are valid, and few enough. -/
theorem validRanges_of_mem {item : ContextFileEvidence} {audit : ParsedContentAudit}
    (haudit : item.evidenceAudit = some audit) (hvalid : ValidAudit audit item.content)
    {piece : Piece} (hpiece : piece ∈ pieces item) :
    piece.ranges.length ≤ 128 ∧ ∀ range ∈ piece.ranges, ValidRange range := by
  obtain ⟨unit, hunit, hmem⟩ := mem_pieces hpiece
  obtain ⟨-, -, -, f, hranges, hf⟩ := mem_unitPieces hmem
  have hunit : unit.ranges.length ≤ 128 ∧ ∀ range ∈ unit.ranges, ValidRange range := by
    unfold contentUnits at hunit
    rw [haudit, Option.bind_some] at hunit
    cases hunits : audit.contentUnits with
    | none =>
      rw [hunits] at hunit
      dsimp only at hunit
      split_ifs at hunit
      · cases hunit
      · rw [List.mem_singleton.1 hunit]
        simp
    | some units =>
      rw [hunits] at hunit
      have heach := hvalid.validUnits.each
      rw [hunits] at heach
      exact ⟨(heach unit hunit).ranges, (heach unit hunit).valid⟩
  rw [hranges, List.length_map]
  refine ⟨hunit.1, ?_⟩
  intro range hrange
  obtain ⟨r, hr, rfl⟩ := List.mem_map.1 hrange
  rcases hf r with hsame | ⟨charFrom, charTo, hlt, hcut⟩
  · rw [hsame]
    exact hunit.2 r hr
  · rw [hcut]
    exact validRange_pieceRange (hunit.2 r hr) hlt

/-! ### The audit of some pieces -/

/-- The audit of an excerpt of some pieces. -/
def auditOf (audit : ParsedContentAudit) (pieces : List Piece) : ParsedContentAudit :=
  { audit with
    contentUnits := audit.contentUnits.map fun _ => (assembly pieces).mapped
    usableChars := some (assembly pieces).usable }

theorem assemble_audit {item : ContextFileEvidence} {audit : ParsedContentAudit}
    (haudit : item.evidenceAudit = some audit) (share : Share) :
    (assemble item share).audit = some (auditOf audit share.selected) := by
  simp only [assemble, excerptAudit, haudit]
  rfl

theorem usefulChars_le (pieces : List Piece) : usefulChars pieces ≤ linesLength pieces := by
  have hsub : usefulChars pieces ≤ (pieces.map fun p => countChars p.text).sum := by
    induction pieces with
    | nil => simp [usefulChars]
    | cons p pieces ih =>
      unfold usefulChars at ih ⊢
      rw [List.filter_cons]
      split_ifs <;> simp only [List.map_cons, List.sum_cons] <;> omega
  exact hsub.trans (Nat.le_add_right _ _)

theorem nodup_unitIds (n : ℕ) : (unitIds n).Nodup := by
  refine List.Nodup.map ?_ List.nodup_range
  intro j k h
  have := decimal_injective (List.append_cancel_left h)
  omega

theorem length_unitId {n k : ℕ} (h : k < n) (hn : n ≤ pieceCap) :
    countChars (lit "e" ++ decimal (k + 1)) ≤ 4 := by
  have hdecimal : (decimal (k + 1)).length ≤ 3 := by
    rw [length_decimal_le_iff (by omega)]
    unfold pieceCap at hn
    omega
  simp only [countChars, List.length_append, lit_eq]
  change 1 + _ ≤ 4
  omega

/-- **The units of an excerpt are valid**, whatever pieces it has. -/
theorem validUnits_assembly {selected : List Piece} (htext : ∀ p ∈ selected, p.text ≠ [])
    (hcap : selected.length ≤ pieceCap)
    (hranges : ∀ p ∈ selected, p.ranges.length ≤ 128 ∧
      ∀ range ∈ p.ranges, ValidRange range) :
    ValidUnits (countChars (assembly selected).text) (assembly selected).mapped := by
  have hspec := assembly_spec htext
  refine ⟨?_, by rw [hspec.ids]; exact nodup_unitIds _, hspec.sorted⟩
  intro unit hunit
  obtain ⟨p, hp, hsel⟩ := exists_selects hspec.mapped hunit
  have hid : unit.unitId ∈ unitIds selected.length := by
    rw [← hspec.ids]
    exact List.mem_map_of_mem hunit
  obtain ⟨k, hk, hid⟩ := List.mem_map.1 hid
  have hlength := length_unitId (List.mem_range.1 hk) hcap
  have hpos : 0 < p.text.length := List.length_pos_iff.2 (htext p hp)
  have hstop := hsel.length
  refine ⟨⟨?_, ?_⟩, ?_, hsel.inside, hsel.ranges ▸ (hranges p hp).1, hsel.ranges ▸ (hranges p hp).2⟩
  · rw [← hid]
    simp [lit_eq]
  · rw [← hid]
    omega
  · simp only [countChars] at hstop
    omega

/-- **Everything but the size is valid again.** -/
theorem validAudit_auditOf {audit : ParsedContentAudit} {content : Text}
    (hvalid : ValidAudit audit content) {selected : List Piece}
    (htext : ∀ p ∈ selected, p.text ≠ []) (hcap : selected.length ≤ pieceCap)
    (hranges : ∀ p ∈ selected, p.ranges.length ≤ 128 ∧
      ∀ range ∈ p.ranges, ValidRange range) :
    ValidAudit (auditOf audit selected) (assembly selected).text := by
  have hspec := assembly_spec htext
  have hunits : ValidUnits (countChars (assembly selected).text)
      ((auditOf audit selected).contentUnits.getD []) := by
    cases h : audit.contentUnits with
    | none =>
      refine ⟨?_, ?_, ?_⟩ <;> simp [auditOf, h]
    | some units =>
      simpa [auditOf, h] using validUnits_assembly htext hcap hranges
  refine ⟨hvalid.archive, hvalid.version, ?_, hvalid.readRanges, hvalid.validRanges, ?_, hunits,
    hvalid.encoding, hvalid.detectedFormat⟩
  · intro chars hchars
    obtain rfl : (assembly selected).usable = chars := by simpa [auditOf] using hchars
    rw [hspec.usable, hspec.length]
    exact usefulChars_le selected
  · cases h : audit.contentUnits with
    | none => simp [auditOf, h]
    | some units =>
      have hlength := hspec.mapped.length_eq
      simp only [auditOf, h, Option.map_some, Option.getD_some, hlength]
      exact hcap.trans (by decide)

/-! ### The audits of an allocation -/

/-- What the audit of an excerpt of some pieces should be. -/
structure ExactAudit (audit : ParsedContentAudit) (text : Text) (selected : List Piece) : Prop where
  valid : audit.validate text = .ok ()
  selects : ∀ units ∈ audit.contentUnits, List.Forall₂ (Selects text) units selected
  usable : audit.usableChars = some (usefulChars selected)

/-- The audit of the file, where it has one, is valid. -/
def AuditsItself (item : ContextFileEvidence) : Prop :=
  ∀ audit ∈ item.evidenceAudit, audit.validate item.content = .ok ()

/-- The audits that a file is given in an allocation of some evidence are exact. -/
def ExactIn (item : ContextFileEvidence) (evidence : List ContextFileEvidence) (budget : ℕ)
    (priorityPaths : List Text) : Prop :=
  ∀ pool excerpts, evidenceRounds evidence budget priorityPaths = some pool →
    allocateExcerptsWithPriority evidence budget priorityPaths = some excerpts →
    ∀ (i : ℕ) excerpt, evidence[i]? = some item → excerpts[i]? = some excerpt →
      ∀ audit ∈ excerpt.audit, ExactAudit audit excerpt.text (pool.share i).selected

/-- The audit of a share is exact when it fits the byte budget. -/
theorem exactAudit_iff {item : ContextFileEvidence} {audit : ParsedContentAudit}
    (haudit : item.evidenceAudit = some audit) (hvalid : audit.validate item.content = .ok ())
    {share : Share} (hfits : share.Fits (bundles item)) :
    ExactAudit (auditOf audit share.selected) (assemble item share).text share.selected ↔
      (auditOf audit share.selected).jsonBytes ≤ auditBytesMax := by
  have hvalid := (validate_ok_iff.1 hvalid).1
  have hmem : ∀ p ∈ share.selected, p ∈ pieces item := by
    intro p hp
    rw [hfits.selected] at hp
    obtain ⟨block, hblock, hp⟩ := mem_taken hp
    exact (mem_bundles hblock).2 p hp
  have htext : ∀ p ∈ share.selected, p.text ≠ [] := fun p hp => text_ne_nil (hmem p hp)
  have hspec := assembly_spec htext
  have hagain := validAudit_auditOf hvalid htext hfits.cap fun p hp =>
    validRanges_of_mem haudit hvalid (hmem p hp)
  constructor
  · intro h
    exact (validate_ok_iff.1 h.valid).2
  · intro hsize
    refine ⟨validate_ok_iff.2 ⟨hagain, hsize⟩, ?_, ?_⟩
    · intro units hunits
      obtain ⟨_, -, rfl⟩ := Option.map_eq_some_iff.1 (Option.mem_def.1 hunits)
      exact hspec.mapped
    · simp only [auditOf, hspec.usable]

/-- **The audits of a file stay exact** in every allocation exactly when its first blocks, as far as
an excerpt may have pieces, fit the byte budget with their ranges. -/
theorem allocated_valid_iff {item : ContextFileEvidence} {audit : ParsedContentAudit}
    (haudit : item.evidenceAudit = some audit) (hvalid : audit.validate item.content = .ok ()) :
    (∀ evidence : List ContextFileEvidence, (∀ e ∈ evidence, AuditsItself e) →
      ∀ budget priorityPaths, ExactIn item evidence budget priorityPaths) ↔
    ∀ k ≤ (bundles item).length, (taken (bundles item) k).length ≤ pieceCap →
      (auditOf audit (taken (bundles item) k)).jsonBytes ≤ auditBytesMax := by
  constructor
  · intro h k hk hcap
    obtain ⟨pool, hpool, hexcerpts, hposition, hselected⟩ := allocate_single item hk hcap
    have hitself : ∀ e ∈ [item], AuditsItself e := by
      intro e he a ha
      obtain rfl := List.mem_singleton.1 he
      rw [haudit] at ha
      obtain rfl := Option.some_injective _ ha
      exact hvalid
    have hexact := h [item] hitself _ [] pool _ hpool hexcerpts 0 _ rfl rfl
      (auditOf audit (pool.share 0).selected) (assemble_audit haudit _)
    rw [← hselected]
    exact (validate_ok_iff.1 hexact.valid).2
  · intro hsize evidence _ budget priorityPaths pool excerpts hpool hexcerpts i excerpt hi
      hexcerpt a ha
    obtain ⟨pool', hpool', hfits, -, -⟩ := runRounds_spec
      (fun i => evidence[i]?.any (preferredPath priorityPaths)) budget (units_zipIdx evidence)
      (goodUnits_getD evidence) (nodup_zipIdx evidence)
    obtain rfl : pool = pool' := Option.some_injective _ (hpool.symm.trans hpool')
    have hfits : (pool.share i).Fits (bundles item) := by
      have hshare := hfits i
      rw [List.getD_eq_getElem?_getD, List.getElem?_map, hi] at hshare
      exact hshare
    have hshare : excerpt = assemble item (pool.share i) := by
      rw [allocateExcerptsWithPriority, hpool'] at hexcerpts
      obtain rfl := Option.some_injective _ hexcerpts
      rw [List.getElem?_map, List.getElem?_zipIdx, hi] at hexcerpt
      simpa using (Option.some_injective _ hexcerpt).symm
    rw [hshare, assemble_audit haudit] at ha
    obtain rfl := Option.some_injective _ (Option.mem_def.1 ha)
    rw [hshare, exactAudit_iff haudit hvalid hfits]
    have hcap := hfits.cap
    rw [hfits.selected] at hcap ⊢
    exact hsize _ hfits.position hcap

/-! ### A heading with many ranges -/

/-- The ranges of all pieces are written out. -/
theorem rangesBytes_le {audit : ParsedContentAudit} (hunits : audit.contentUnits.isSome = true)
    {selected : List Piece} (htext : ∀ p ∈ selected, p.text ≠ []) :
    (selected.map fun p => (p.ranges.map SourceRange.jsonBytes).sum).sum ≤
      (auditOf audit selected).jsonBytes := by
  have hmapped : ∀ {units : List ContentUnit} {pieces : List Piece} {text : Text},
      List.Forall₂ (Selects text) units pieces →
      (pieces.map fun p => (p.ranges.map SourceRange.jsonBytes).sum).sum ≤
        (units.map ContentUnit.jsonBytes).sum := by
    intro units pieces text h
    induction h with
    | nil => exact le_rfl
    | @cons unit piece units pieces hsel _ ih =>
      have hunit : (piece.ranges.map SourceRange.jsonBytes).sum ≤ unit.jsonBytes := by
        have hranges := jsonBytes_ranges unit
        have hbare : 2 ≤ ContentUnit.jsonBytes { unit with ranges := [] } := by
          unfold ContentUnit.jsonBytes jsonObjectBytes
          omega
        rw [← hsel.ranges]
        unfold jsonListBytes at hranges
        omega
      simp only [List.map_cons, List.sum_cons]
      omega
  obtain ⟨units, hunits⟩ := Option.isSome_iff_exists.1 hunits
  have hsize := jsonBytes_units (show (auditOf audit selected).contentUnits =
    some (assembly selected).mapped by simp [auditOf, hunits])
  have hbare : 2 ≤ ParsedContentAudit.jsonBytes
      { auditOf audit selected with contentUnits := some [] } := by
    unfold ParsedContentAudit.jsonBytes jsonObjectBytes
    omega
  have hsum := hmapped (assembly_spec htext).mapped
  unfold jsonListBytes at hsize
  omega

/-- Characters of the longest label. -/
def labelMax : ℕ := 512

/-- Ranges of the heading. -/
def rangeCount : ℕ := 128

/-- A paragraph with a long label. -/
def wideRange : SourceRange := ⟨.paragraph, 1, 2, some (List.replicate labelMax '表'), none, none⟩

/-- As many ranges as a unit may have. -/
def wideRanges : List SourceRange := List.replicate rangeCount wideRange

theorem jsonBytes_wideRange : wideRange.jsonBytes = 1623 := by decide +kernel

theorem jsonListBytes_wideRanges :
    jsonListBytes SourceRange.jsonBytes wideRanges = 207873 := by
  simp only [jsonListBytes, wideRanges, List.map_replicate, List.sum_replicate,
    List.length_replicate, jsonBytes_wideRange]
  rfl

theorem validRange_wideRange : ValidRange wideRange where
  order := by decide
  position := Or.inr (Or.inr (by decide))
  label label hlabel := by
    obtain rfl := Option.some_injective _ (Option.mem_def.1 hlabel)
    rw [countChars, List.length_replicate]
    decide
  columns := Or.inl ⟨rfl, rfl⟩

/-- The audit of the file is valid. -/
theorem validate_section {ranges : List SourceRange} (hcount : ranges.length ≤ 128)
    (hvalid : ∀ range ∈ ranges, ValidRange range)
    (hsize : jsonListBytes SourceRange.jsonBytes ranges ≤ 207873) :
    (sectionAudit ranges).validate (sectionFile ranges).content = .ok () := by
  refine validate_ok_iff.2 ⟨⟨rfl, rfl, ?_, Nat.zero_le _, by simp [sectionAudit],
    by simp [sectionAudit], ⟨?_, ?_, ?_⟩, by simp [sectionAudit], ?_⟩, ?_⟩
  · intro chars hchars
    obtain rfl := Option.some_injective _ (Option.mem_def.1 hchars)
    exact (by decide : 3 ≤ 11)
  · intro unit hunit
    simp only [sectionAudit, Option.getD_some, List.mem_cons, List.not_mem_nil, or_false] at hunit
    have hid : ∀ id ∈ [lit "u1", lit "u2", lit "u3", lit "u4", lit "u5", lit "u6"],
        id ≠ [] ∧ countChars id ≤ 128 := by decide +kernel
    have hin : countChars (sectionFile ranges).content = 11 := rfl
    rw [hin]
    rcases hunit with rfl | rfl | rfl | rfl | rfl | rfl
    · exact ⟨hid _ (by simp), Nat.zero_lt_one, by simp only; omega, hcount, hvalid⟩
    all_goals exact ⟨hid _ (by simp), Nat.lt_succ_self _, by simp only; omega, by simp, by simp⟩
  · simp only [sectionAudit, Option.getD_some, List.map_cons, List.map_nil]
    decide +kernel
  · simp [sectionAudit]
  · intro format hformat
    obtain rfl := Option.some_injective _ (Option.mem_def.1 hformat)
    decide +kernel
  · have hunit := jsonBytes_ranges ⟨lit "u1", .heading, 0, 1, ranges⟩
    have hrest : (([⟨lit "u1", .heading, 0, 1, []⟩, ⟨lit "u2", .total, 2, 3, []⟩,
        ⟨lit "u3", .tableRow, 4, 5, []⟩, ⟨lit "u4", .heading, 6, 7, []⟩,
        ⟨lit "u5", .total, 8, 9, []⟩, ⟨lit "u6", .heading, 10, 11, []⟩] : List ContentUnit).map
          ContentUnit.jsonBytes).sum ≤ 1000 := by decide +kernel
    have hempty : ParsedContentAudit.jsonBytes
        ⟨false, 1, none, some [], some 3, none, some (lit "xlsx")⟩ ≤ 1000 := by decide +kernel
    have hunits := jsonBytes_units (show (sectionAudit ranges).contentUnits = some _ from rfl)
    change (sectionAudit ranges).jsonBytes + 2 = ParsedContentAudit.jsonBytes
      ⟨false, 1, none, some [], some 3, none, some (lit "xlsx")⟩ + _ at hunits
    simp only [jsonListBytes, List.map_cons, List.sum_cons, List.length_cons, List.length_nil]
      at hunits hrest hunit hsize
    unfold auditBytesMax
    omega

/-- **The repeated heading makes a valid audit too large.** -/
theorem repeated_ranges : ¬ ∀ (evidence : List ContextFileEvidence),
    (∀ e ∈ evidence, AuditsItself e) → ∀ item ∈ evidence, ∀ budget priorityPaths,
      ExactIn item evidence budget priorityPaths := by
  intro h
  have hlength : (bundles (sectionFile wideRanges)).length = 3 := by rw [bundles_section]; rfl
  obtain ⟨pool, hpool, hexcerpts, -, hselected⟩ := allocate_single (sectionFile wideRanges)
    hlength.ge (by rw [taken_section]; decide)
  have hvalid : ∀ range ∈ wideRanges, ValidRange range := by
    intro range hrange
    rw [List.eq_of_mem_replicate hrange]
    exact validRange_wideRange
  have hitself : ∀ e ∈ [sectionFile wideRanges], AuditsItself e := by
    intro e he audit haudit
    obtain rfl := List.mem_singleton.1 he
    obtain rfl := Option.some_injective _ (Option.mem_def.1 haudit)
    exact validate_section (by simp [wideRanges, rangeCount]) hvalid jsonListBytes_wideRanges.le
  have hexact := h [sectionFile wideRanges] hitself _ (by simp) _ [] pool _ hpool hexcerpts 0 _ rfl
    rfl (auditOf (sectionAudit wideRanges) (pool.share 0).selected) (assemble_audit rfl _)
  have hsize := (validate_ok_iff.1 hexact.valid).2
  rw [hselected, taken_section] at hsize
  -- the heading stands in the excerpt twice, each time with all its ranges
  have htext : ∀ p ∈ [headA wideRanges, total9, headB, total8, headA wideRanges, row1],
      p.text ≠ [] := by
    simp [headA, total9, headB, total8, row1]
  have hlarge := rangesBytes_le (show (sectionAudit wideRanges).contentUnits.isSome = true from rfl)
    htext
  have hranges : ((headA wideRanges).ranges.map SourceRange.jsonBytes).sum = 207744 := by
    simp only [headA, wideRanges, List.map_replicate, List.sum_replicate, jsonBytes_wideRange]
    rfl
  simp only [List.map_cons, List.sum_cons, hranges] at hlarge
  unfold auditBytesMax at hsize
  omega

/-- The file with plain ranges. -/
theorem allocated_valid_iff_section :
    (∀ evidence : List ContextFileEvidence, (∀ e ∈ evidence, AuditsItself e) →
      ∀ budget priorityPaths, ExactIn (sectionFile []) evidence budget priorityPaths) ↔
    ∀ k ≤ (bundles (sectionFile [])).length,
      (taken (bundles (sectionFile [])) k).length ≤ pieceCap →
        (auditOf (sectionAudit []) (taken (bundles (sectionFile [])) k)).jsonBytes ≤
          auditBytesMax :=
  allocated_valid_iff rfl (validate_section (by simp) (by simp) (by decide))

end DailyReport.Excerpts
