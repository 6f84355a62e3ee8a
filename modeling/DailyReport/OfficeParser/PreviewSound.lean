import DailyReport.OfficeParser.PreviewSelection
import Mathlib.Algebra.Order.BigOperators.Group.List
import Mathlib.Algebra.Order.Group.Nat

/-!
# The preview of a workbook is sound

What is selected has been paid for, so that the builder does not refuse it for lack of characters.
It may refuse a piece for the number of its units or for the size of its audit, which the selection
does not price; then the preview is marked as truncated.

* `preview_selection` : **what becomes of the pieces that are selected**;
* `units_limit` : of six hundred sheets that fit not all are written.
-/

namespace DailyReport.OfficeParser

open Lib AuditTextBuilder SheetShare

/-! ### What becomes of the pieces -/

section Preview

variable (maxChars : ℕ) (reads : List SourceRange) (prepared : List PreparedSheet)

/-- The pieces of a preview. -/
def previewPieces : List (PreviewPiece × Push) := piecesFrom 0 (previewShares maxChars prepared)

/-- What becomes of the pieces of a preview. -/
def previewLog : List (PreviewPiece × Outcome) :=
  pushLog (previewBuilder maxChars reads) (previewPieces maxChars prepared)

/-- A sheet fits up to its first useful row when its turn comes. -/
def Fits (sheet first : ℕ) : Prop :=
  ∃ own, prepared[sheet]? = some own ∧ own.firstUseful = some first ∧
    own.firstCost first ≤ (firstPass (maxChars - countChars previewTitle) (prepared.take sheet)).1

/-- The preview is sound, if the builder refuses only some pieces that are selected. -/
structure PreviewSound (refused : Outcome → Prop) : Prop where
  /-- What is selected stays within the budget. -/
  cost : ((previewShares maxChars prepared).map spent).sum ≤ maxChars - countChars previewTitle
  /-- No piece is refused for lack of characters. -/
  room : ∀ entry ∈ previewLog maxChars reads prepared, entry.2 ≠ .noRoom
  /-- The content is what is taken, line by line, if that is useful. -/
  content : ∀ sheet own row, (.row sheet row, .taken) ∈ previewLog maxChars reads prepared →
    prepared[sheet]? = some own → own.useful row = true →
      (renderXlsxMarkdown maxChars reads prepared).1 = textOf (⟨previewTitle, .heading, []⟩ ::
        takenPushes (previewBuilder maxChars reads) (previewPieces maxChars prepared))
  /-- A useful row that is written comes behind the structural rows above it. -/
  above : ∀ (k : ℕ) sheet own row,
    (previewLog maxChars reads prepared)[k]? = some (.row sheet row, .taken) →
    prepared[sheet]? = some own → own.useful row = true → ∀ j < row, own.structural j = true →
      ∃ i < k, ∃ outcome, (outcome.written ∨ outcome = .tooLarge ∧ refused outcome) ∧
        (previewLog maxChars reads prepared)[i]? = some (.row sheet j, outcome)
  /-- A sheet that fits is written up to its first useful row. -/
  represented : ∀ sheet first, Fits maxChars prepared sheet first →
    (∃ outcome, (outcome.written ∨ refused outcome) ∧
      (.heading sheet, outcome) ∈ previewLog maxChars reads prepared) ∧
    ∀ row ≤ first, ∃ outcome, (outcome.written ∨ refused outcome) ∧
      (.row sheet row, outcome) ∈ previewLog maxChars reads prepared
  /-- What is refused is flagged. -/
  flagged : (renderXlsxMarkdown maxChars reads prepared).2.1 = false →
    ∀ entry ∈ previewLog maxChars reads prepared, entry.2.written
  /-- Without the flag every row is written. -/
  complete : (renderXlsxMarkdown maxChars reads prepared).2.1 = false →
    ∀ sheet own, prepared[sheet]? = some own → ∀ row < own.rows.length,
      ∃ outcome, outcome.written ∧ (.row sheet row, outcome) ∈ previewLog maxChars reads prepared

end Preview

variable {maxChars : ℕ} {reads : List SourceRange} {prepared : List PreparedSheet}

/-! ### The builder before the sheets -/

/-- What the builder has taken before the sheets. -/
def titlePushes (maxChars : ℕ) : List Push :=
  if countChars previewTitle ≤ maxChars then [⟨previewTitle, .heading, []⟩] else []

/-- The ranges that are noted before the sheets. -/
def notedReads (maxChars : ℕ) (reads : List SourceRange) : Option (List SourceRange) :=
  noteAll (lit "xlsx") (titlePushes maxChars) reads (some [])

theorem built_preview (maxChars : ℕ) (reads : List SourceRange) :
    Built maxChars (notedReads maxChars reads) (lit "xlsx") (titlePushes maxChars)
      (previewBuilder maxChars reads) := by
  have htitle := (built_new maxChars (lit "xlsx")).push ⟨previewTitle, .heading, []⟩
  refine Built.noteAll ?_ reads
  have htrimmed : Push.trimmed ⟨previewTitle, .heading, []⟩ = ⟨previewTitle, .heading, []⟩ := by
    have htrim : trim previewTitle = previewTitle := by decide +kernel
    rw [Push.trimmed, htrim]
  have htake : takeOne maxChars (some []) (lit "xlsx") [] ⟨previewTitle, .heading, []⟩ =
      titlePushes maxChars := by
    have hne : previewTitle ≠ [] := by decide +kernel
    have hsize : ParsedContentAudit.jsonBytes { pushedAudit (some []) (lit "xlsx") [] with
        contentUnits := some (unitsFrom 0 0 [⟨previewTitle, .heading, []⟩]) } ≤ auditBytesMax := by
      decide +kernel
    rw [takeOne, htrimmed, titlePushes]
    refine if_congr ⟨fun h => ?_, fun h => ⟨hne, ?_, Nat.zero_lt_succ _, hsize⟩⟩ rfl rfl
    · have hchars := h.2.chars
      rwa [span, List.map_nil, List.sum_nil, Nat.zero_add] at hchars
    · rwa [span, List.map_nil, List.sum_nil, Nat.zero_add]
  rw [← htake]
  exact htitle

/-! ### Selected and pushed -/

theorem previewShares_closed : ∀ share ∈ previewShares maxChars prepared, Closed share :=
  select_closed _ prepared

/-- What is pushed has been paid for. -/
theorem pricedSum_previewPieces (maxChars : ℕ) (prepared : List PreparedSheet) :
    pricedSum (previewPieces maxChars prepared) ≤ maxChars - countChars previewTitle := by
  rw [previewPieces, pricedSum_piecesFrom previewShares_closed]
  exact select_spent _ prepared

theorem previewLog_room : ∀ entry ∈ previewLog maxChars reads prepared, entry.2 ≠ .noRoom := by
  have hbuilt := built_preview maxChars reads
  refine pushLog_room hbuilt ?_
  have hprice := pricedSum_previewPieces maxChars prepared
  unfold titlePushes
  split_ifs with htitle
  · have hspan : span [⟨previewTitle, .heading, []⟩] = countChars previewTitle + 1 :=
      span_singleton _
    omega
  · have hspan : span [] = 0 := rfl
    omega

/-- A piece of a share becomes something. -/
theorem exists_mem_previewLog (reads : List SourceRange) {sheet : ℕ} {share : SheetShare} {piece : PreviewPiece}
    (hshare : (previewShares maxChars prepared)[sheet]? = some share)
    (hpiece : piece ∈ (share.pieces sheet).map Prod.fst) :
    ∃ outcome, (outcome.written ∨ outcome.overfull) ∧
      (piece, outcome) ∈ previewLog maxChars reads prepared := by
  have hmem : piece ∈ (previewPieces maxChars prepared).map Prod.fst :=
    mem_map_piecesFrom.2 ⟨sheet, share, hshare, by rwa [Nat.zero_add]⟩
  obtain ⟨outcome, hlog⟩ := exists_mem_pushLog (b := previewBuilder maxChars reads) hmem
  exact ⟨outcome, Outcome.written_or_overfull (previewLog_room _ hlog), hlog⟩

/-- A row in the log has been selected. -/
theorem selected_of_mem_previewLog {sheet row : ℕ} {outcome : Outcome} {own : PreparedSheet}
    (hlog : (.row sheet row, outcome) ∈ previewLog maxChars reads prepared)
    (hown : prepared[sheet]? = some own) :
    ∃ share, (previewShares maxChars prepared)[sheet]? = some share ∧ share.sheet = own ∧
      Closed share ∧ row ∈ share.selected := by
  have hmem : .row sheet row ∈ (previewPieces maxChars prepared).map Prod.fst := by
    rw [← map_pushLog (previewBuilder maxChars reads)]
    exact List.mem_map_of_mem hlog
  obtain ⟨k, share, hk, hpiece⟩ := mem_map_piecesFrom.1 hmem
  have hsheet : sheet = 0 + k := sheet_of_mem_pieces hpiece
  rw [Nat.zero_add] at hsheet hpiece
  subst hsheet
  have hclosed := previewShares_closed share (List.mem_of_getElem? hk)
  obtain ⟨share', hshare', rfl, -⟩ := select_getElem? hown
  obtain rfl : share = share' := Option.some.inj (hk.symm.trans hshare')
  exact ⟨share, hk, rfl, hclosed, (mem_pieces_row hclosed).1 hpiece⟩

/-- The rows of a sheet come in their order. -/
theorem lt_of_previewLog {sheet row row' i k : ℕ} {outcome outcome' : Outcome}
    (hi : (previewLog maxChars reads prepared)[i]? = some (.row sheet row, outcome))
    (hk : (previewLog maxChars reads prepared)[k]? = some (.row sheet row', outcome'))
    (hlt : row < row') : i < k := by
  have hascend : (previewLog maxChars reads prepared).Pairwise fun e e' => RowsAscend e.1 e'.1 := by
    rw [← List.pairwise_map (f := Prod.fst), previewLog, map_pushLog]
    exact ascend_piecesFrom 0 _
  obtain ⟨hi', hgeti⟩ := List.getElem?_eq_some_iff.1 hi
  obtain ⟨hk', hgetk⟩ := List.getElem?_eq_some_iff.1 hk
  by_contra hnot
  rcases Nat.lt_or_eq_of_le (Nat.le_of_not_lt hnot) with hki | rfl
  · have hback := List.pairwise_iff_getElem.1 hascend k i hk' hi' hki
    rw [hgeti, hgetk] at hback
    exact (hback sheet row' row rfl rfl).asymm hlt
  · rw [hi] at hk
    cases hk
    exact hlt.false

/-- The structural rows above a useful row that is taken come before it. -/
theorem previewLog_above {k sheet row : ℕ} {own : PreparedSheet}
    (hk : (previewLog maxChars reads prepared)[k]? = some (.row sheet row, .taken))
    (hown : prepared[sheet]? = some own) (huseful : own.useful row = true) {j : ℕ} (hj : j < row)
    (hstructural : own.structural j = true) :
    ∃ i < k, ∃ outcome, (outcome.written ∨ outcome = .tooLarge ∧ outcome.overfull) ∧
      (previewLog maxChars reads prepared)[i]? = some (.row sheet j, outcome) := by
  obtain ⟨share, hshare, rfl, hclosed, hrow⟩ :=
    selected_of_mem_previewLog (List.mem_of_getElem? hk) hown
  have hselected := hclosed.above row hrow huseful j hj hstructural
  obtain ⟨outcome, hout, hlog⟩ := exists_mem_previewLog reads hshare
    ((mem_pieces_row hclosed).2 hselected)
  obtain ⟨i, hi⟩ := List.getElem?_of_mem hlog
  have hlt := lt_of_previewLog hi hk hj
  refine ⟨i, hlt, outcome, hout.imp_right fun hover => ?_, hi⟩
  -- Too many units before the row would leave it out as well.
  refine ⟨hover.resolve_left fun hmany => ?_, hover⟩
  obtain ⟨hi', hgeti⟩ := List.getElem?_eq_some_iff.1 hi
  obtain ⟨hk', hgetk⟩ := List.getElem?_eq_some_iff.1 hk
  have hstays := List.pairwise_iff_getElem.1 (tooMany_stays (previewBuilder maxChars reads)
    (previewPieces maxChars prepared)) i k hi' hk' hlt
  change (previewLog maxChars reads prepared)[i].2 = .tooMany →
    (previewLog maxChars reads prepared)[k].2 ≠ .taken at hstays
  rw [hgeti, hgetk] at hstays
  exact hstays hmany rfl

/-- A sheet that fits has been selected up to its first useful row. -/
theorem selected_of_fits {sheet first : ℕ} (h : Fits maxChars prepared sheet first) :
    ∃ share, (previewShares maxChars prepared)[sheet]? = some share ∧ Closed share ∧
      ∀ row ≤ first, row ∈ share.selected := by
  obtain ⟨own, hown, hfirst, hfits⟩ := h
  obtain ⟨share, hshare, -, hgrows⟩ := select_getElem? hown
  refine ⟨share, hshare, previewShares_closed share (List.mem_of_getElem? hshare),
    fun row hrow => hgrows ?_⟩
  rw [takeFirst_fits hfirst hfits]
  exact Finset.mem_range_succ_iff.2 hrow

/-! ### The flag -/

theorem renderXlsxMarkdown_flag (maxChars : ℕ) (reads : List SourceRange)
    (prepared : List PreparedSheet) : (renderXlsxMarkdown maxChars reads prepared).2.1 =
      (((previewBuilder maxChars reads).pushAll
          ((previewPieces maxChars prepared).map Prod.snd)).truncated ||
        selectionTruncated (previewShares maxChars prepared)) := by
  have hbuilt := built_preview maxChars reads
  have hfinish := (hbuilt.pushAll_taken (previewPieces maxChars prepared)).finish
  rw [renderXlsxMarkdown]
  simp only [previewPieces] at hfinish ⊢
  rw [hfinish]

theorem previewLog_flagged (h : (renderXlsxMarkdown maxChars reads prepared).2.1 = false) :
    ∀ entry ∈ previewLog maxChars reads prepared, entry.2.written := by
  rw [renderXlsxMarkdown_flag, Bool.or_eq_false_iff] at h
  intro entry hentry
  by_contra hnot
  have htruncated := (truncated_pushAll (previewBuilder maxChars reads) _).2
    (.inr ⟨entry, hentry, hnot⟩)
  rw [h.1] at htruncated
  cases htruncated

/-- Without the flag every row has been selected. -/
theorem selected_of_flag (h : (renderXlsxMarkdown maxChars reads prepared).2.1 = false)
    {sheet : ℕ} {share : SheetShare}
    (hshare : (previewShares maxChars prepared)[sheet]? = some share) {row : ℕ}
    (hrow : row < share.sheet.rows.length) : row ∈ share.selected := by
  rw [renderXlsxMarkdown_flag, Bool.or_eq_false_iff] at h
  have hmem := List.mem_of_getElem? hshare
  have hcard : share.selected.card = share.sheet.rows.length := by
    by_contra hnot
    have hflag : selectionTruncated (previewShares maxChars prepared) = true :=
      List.any_eq_true.2 ⟨share, hmem, decide_eq_true hnot⟩
    rw [h.2] at hflag
    cases hflag
  have hinside : share.selected ⊆ Finset.range share.sheet.rows.length := fun i hi =>
    Finset.mem_range.2 ((previewShares_closed share hmem).inside i hi)
  have hall : share.selected = Finset.range share.sheet.rows.length :=
    Finset.eq_of_subset_of_card_le hinside (by rw [Finset.card_range, hcard])
  rw [hall]
  exact Finset.mem_range.2 hrow

/-! ### The content -/

/-- If there are pieces, the title has been taken. -/
theorem titlePushes_eq {entry : PreviewPiece × Push} (h : entry ∈ previewPieces maxChars prepared) :
    titlePushes maxChars = [⟨previewTitle, .heading, []⟩] := by
  have hprice := pricedSum_previewPieces maxChars prepared
  have hone : countChars entry.2.text + 1 ≤ pricedSum (previewPieces maxChars prepared) :=
    List.single_le_sum (fun _ _ => Nat.zero_le _) _ (List.mem_map_of_mem h)
  exact if_pos (by omega)

/-- What is pushed for a row in the log. -/
theorem push_of_mem_previewPieces {sheet row : ℕ} {own : PreparedSheet} {p : Push}
    (h : (.row sheet row, p) ∈ previewPieces maxChars prepared)
    (hown : prepared[sheet]? = some own) :
    ∃ r, own.rows[row]? = some r ∧ p = ⟨r.text, r.kind, r.ranges⟩ := by
  obtain ⟨k, share, hk, hmem⟩ := mem_piecesFrom.1 h
  have hsheet : sheet = 0 + k := sheet_of_mem_pieces (List.mem_map_of_mem hmem)
  rw [Nat.zero_add] at hsheet
  subst hsheet
  obtain ⟨share', hshare', rfl, -⟩ := select_getElem? hown
  obtain rfl : share = share' := Option.some.inj (hk.symm.trans hshare')
  exact push_of_mem_pieces hmem

theorem usableSize_ne_zero {ps : List Push} {p : Push} (h : p ∈ ps) (husable : p.kind.usable = true)
    (hne : p.text ≠ []) : usableSize ps ≠ 0 := by
  have hmem : p.text.length ∈ (ps.filter fun p => p.kind.usable).map fun p => p.text.length :=
    List.mem_map_of_mem (List.mem_filter.2 ⟨h, husable⟩)
  have hle : p.text.length ≤ usableSize ps := List.single_le_sum (fun _ _ => Nat.zero_le _) _ hmem
  exact (Nat.lt_of_lt_of_le (List.length_pos_iff.2 hne) hle).ne'

theorem previewLog_content {sheet row : ℕ} {own : PreparedSheet}
    (hlog : (.row sheet row, .taken) ∈ previewLog maxChars reads prepared)
    (hown : prepared[sheet]? = some own) (huseful : own.useful row = true) :
    (renderXlsxMarkdown maxChars reads prepared).1 = textOf (⟨previewTitle, .heading, []⟩ ::
      takenPushes (previewBuilder maxChars reads) (previewPieces maxChars prepared)) := by
  obtain ⟨p, hpiece, htaken⟩ := mem_takenPushes hlog
  obtain ⟨r, hr, rfl⟩ := push_of_mem_previewPieces hpiece hown
  rw [PreparedSheet.useful, hr] at huseful
  have hbuilt := built_preview maxChars reads
  have hall := hbuilt.pushAll_taken (previewPieces maxChars prepared)
  have hkept : keptOf (titlePushes maxChars ++
      takenPushes (previewBuilder maxChars reads) (previewPieces maxChars prepared)) =
      titlePushes maxChars ++
        takenPushes (previewBuilder maxChars reads) (previewPieces maxChars prepared) := by
    have hin := List.mem_append_right (titlePushes maxChars) htaken
    exact if_neg (usableSize_ne_zero hin (XlsxRow.usable_of_useful huseful) (hall.nonempty _ hin))
  have hfinish := hall.finish
  rw [hkept, titlePushes_eq hpiece] at hfinish
  rw [renderXlsxMarkdown]
  simp only [previewPieces] at hfinish ⊢
  rw [hfinish]
  rfl

/-- **What is selected for a preview is written, unless the builder refuses it for the number of its
units or for the size of its audit, and then the preview is marked as truncated.** -/
theorem preview_selection (maxChars : ℕ) (reads : List SourceRange)
    (prepared : List PreparedSheet) :
    PreviewSound maxChars reads prepared Outcome.overfull where
  cost := select_spent _ prepared
  room := previewLog_room
  content _ _ _ := previewLog_content
  above _ _ _ _ hk hown huseful _ hj := previewLog_above hk hown huseful hj
  represented sheet first hfits := by
    obtain ⟨share, hshare, hclosed, hrows⟩ := selected_of_fits hfits
    refine ⟨exists_mem_previewLog reads hshare (mem_pieces_heading ⟨0, hrows 0 (Nat.zero_le _)⟩ sheet),
      fun row hrow => ?_⟩
    exact exists_mem_previewLog reads hshare ((mem_pieces_row hclosed).2 (hrows row hrow))
  flagged := previewLog_flagged
  complete hflag sheet own hown row hrow := by
    obtain ⟨share, hshare, rfl, -⟩ := select_getElem? hown
    have hselected := selected_of_flag hflag hshare hrow
    have hclosed := previewShares_closed share (List.mem_of_getElem? hshare)
    obtain ⟨outcome, -, hlog⟩ := exists_mem_previewLog reads hshare
      ((mem_pieces_row hclosed).2 hselected)
    exact ⟨outcome, previewLog_flagged hflag _ hlog, hlog⟩

/-! ### More sheets than units -/

/-- A sheet of one cell. -/
def crowdedSheet : PreparedSheet :=
  ⟨lit "## Sheet: S", [⟨lit "| x |", .tableRow, [⟨.sheetRow, 1, 2, some (lit "S"), some 1, some 2⟩],
    none, [lit "x"]⟩]⟩

def crowdedReads : List SourceRange :=
  List.replicate 600 ⟨.sheetRow, 1, 2, some (lit "S"), some 1, some 13⟩

/-- In turn every sheet is taken. -/
theorem firstPass_crowded (k remaining : ℕ) :
    (firstPass (remaining + crowdedSheet.firstCost 0 * k) (List.replicate k crowdedSheet)).1 =
      remaining := by
  have hfirst : crowdedSheet.firstUseful = some 0 := by decide +kernel
  induction k with
  | zero => rfl
  | succ k ih =>
    have hfits : crowdedSheet.firstCost 0 ≤ remaining + crowdedSheet.firstCost 0 * (k + 1) := by
      rw [Nat.mul_succ]
      omega
    have hrest : remaining + crowdedSheet.firstCost 0 * (k + 1) - crowdedSheet.firstCost 0 =
        remaining + crowdedSheet.firstCost 0 * k := by
      rw [Nat.mul_succ]
      omega
    rw [firstPass, List.replicate_succ, List.map_cons, pass_cons, takeFirst_fits hfirst hfits,
      hrest]
    exact ih

theorem fits_crowded {sheet : ℕ} (h : sheet < 600) :
    Fits 20000 (List.replicate 600 crowdedSheet) sheet 0 := by
  have hcost : crowdedSheet.firstCost 0 = 18 := by decide +kernel
  have htitle : countChars previewTitle = 14 := by decide +kernel
  have hpass := firstPass_crowded sheet (20000 - 14 - 18 * sheet)
  rw [hcost, Nat.sub_add_cancel (by omega)] at hpass
  refine ⟨crowdedSheet, List.getElem?_replicate_of_lt h, by decide +kernel, ?_⟩
  rw [List.take_replicate, Nat.min_eq_left h.le, htitle, hpass, hcost]
  omega

/-- Six hundred sheets fit, but there may not be so many units. -/
theorem units_limit :
    ¬ PreviewSound 20000 crowdedReads (List.replicate 600 crowdedSheet) fun _ => False := by
  intro hsound
  have hbuilt := built_preview 20000 crowdedReads
  have hcount := hbuilt.length_taken_le (previewPieces 20000 (List.replicate 600 crowdedSheet))
  rw [length_takenPushes] at hcount
  -- Every sheet has a row that is taken.
  have htaken : ∀ sheet < 600, (.row sheet 0, .taken) ∈
      previewLog 20000 crowdedReads (List.replicate 600 crowdedSheet) := by
    intro sheet hsheet
    obtain ⟨outcome, hout, hlog⟩ := (hsound.represented sheet 0 (fits_crowded hsheet)).2 0 le_rfl
    rcases hout with (rfl | rfl) | hnot
    · exact hlog
    · obtain ⟨p, hpiece, hblank⟩ := trim_of_blank hlog
      obtain ⟨r, hr, rfl⟩ := push_of_mem_previewPieces hpiece (List.getElem?_replicate_of_lt hsheet)
      obtain rfl := Option.some.inj hr
      exact absurd hblank (by decide +kernel)
    · exact hnot.elim
  have hsub : (List.range 600).map (PreviewPiece.row · 0) ⊆
      ((previewLog 20000 crowdedReads (List.replicate 600 crowdedSheet)).filter fun e =>
        e.2 = .taken).map Prod.fst := by
    intro piece hpiece
    obtain ⟨sheet, hsheet, rfl⟩ := List.mem_map.1 hpiece
    exact List.mem_map.2 ⟨_, List.mem_filter.2
      ⟨htaken sheet (List.mem_range.1 hsheet), rfl⟩, rfl⟩
  have hnodup : ((List.range 600).map (PreviewPiece.row · 0)).Nodup :=
    List.nodup_range.map fun a b hab => (PreviewPiece.row.inj hab).1
  have hle := (hnodup.subperm hsub).length_le
  rw [List.length_map, List.length_range, List.length_map] at hle
  exact absurd (hle.trans hcount) (by decide)

end DailyReport.OfficeParser
