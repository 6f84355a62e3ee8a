import DailyReport.OfficeParser.PreviewLog

/-!
# What is selected for a preview

* `select_spent` : **what is selected stays within the budget**;
* `select_closed` : useful rows are selected with the structural rows above them;
* `select_getElem?` : a share keeps what it has got in the first pass;
* `pricedSum_piecesFrom`, `ascend_piecesFrom` : the pieces cost what has been paid for them, and the
  rows of a sheet come in their order.
-/

namespace DailyReport.OfficeParser

open Lib AuditTextBuilder

/-! ### One sheet -/

theorem sum_take_rows (rows : List XlsxRow) {n : ℕ} (h : n ≤ rows.length) :
    ((rows.take n).map XlsxRow.chars).sum =
      (Finset.range n).sum fun row => rows[row]?.elim 0 XlsxRow.chars := by
  induction n with
  | zero => rfl
  | succ n ih =>
    have hn : n < rows.length := h
    rw [Finset.sum_range_succ, ← ih hn.le, List.take_add_one, List.getElem?_eq_getElem hn,
      List.map_append, List.sum_append]
    simp

namespace PreparedSheet

variable {sheet : PreparedSheet}

theorem lt_of_useful {row : ℕ} (h : sheet.useful row = true) : row < sheet.rows.length := by
  by_contra hnot
  rw [useful, List.getElem?_eq_none (Nat.le_of_not_lt hnot)] at h
  cases h

theorem not_useful_of_structural {row : ℕ} (h : sheet.structural row = true) :
    sheet.useful row = false := by
  rw [structural] at h
  rw [useful]
  cases hrow : sheet.rows[row]? with
  | none => rfl
  | some r =>
    rw [hrow] at h
    exact XlsxRow.not_useful h

theorem firstUseful_lt {first : ℕ} (h : sheet.firstUseful = some first) :
    first < sheet.rows.length := (List.findIdx?_eq_some_iff_getElem.1 h).1

theorem headingCost_pos : 0 < sheet.headingCost := Nat.succ_pos _

end PreparedSheet

namespace SheetShare

/-- What is selected of a sheet, with its heading, costs this. -/
def spent (share : SheetShare) : ℕ :=
  if share.selected = ∅ then 0
  else share.sheet.headingCost + share.selected.sum share.sheet.chars

/-- Rows are selected that there are, and useful rows with the structural rows above them. -/
structure Closed (share : SheetShare) : Prop where
  inside : ∀ row ∈ share.selected, row < share.sheet.rows.length
  rest : ∀ row ∈ share.order, row < share.sheet.rows.length
  above : ∀ row ∈ share.selected, share.sheet.useful row = true → ∀ j < row,
    share.sheet.structural j = true → j ∈ share.selected

/-- Of the same sheet at least as much is selected. -/
def Grows (share share' : SheetShare) : Prop :=
  share'.sheet = share.sheet ∧ share.selected ⊆ share'.selected

theorem Grows.refl (share : SheetShare) : Grows share share := ⟨rfl, Finset.Subset.refl _⟩

theorem Grows.trans (a b c : SheetShare) (h : Grows a b) (h' : Grows b c) : Grows a c :=
  ⟨h'.1.trans h.1, h.2.trans h'.2⟩

theorem closed_initial (sheet : PreparedSheet) : Closed (initial sheet) := ⟨nofun, nofun, nofun⟩

/-- What the first pass does for a sheet. -/
theorem takeFirst_spec (remaining : ℕ) (sheet : PreparedSheet) :
    takeFirst remaining (initial sheet) = (remaining, initial sheet) ∨
    ∃ first, sheet.firstUseful = some first ∧ sheet.firstCost first ≤ remaining ∧
      takeFirst remaining (initial sheet) =
        (remaining - sheet.firstCost first, ⟨sheet, Finset.range (first + 1), []⟩) := by
  have hsheet : (initial sheet).sheet = sheet := rfl
  unfold takeFirst
  rw [hsheet]
  cases hfirst : sheet.firstUseful with
  | none => exact .inl rfl
  | some first =>
    by_cases hfits : sheet.firstCost first ≤ remaining
    · exact .inr ⟨first, rfl, hfits, if_pos hfits⟩
    · exact .inl (if_neg hfits)

/-- A sheet that fits is taken up to its first useful row. -/
theorem takeFirst_fits {remaining first : ℕ} {sheet : PreparedSheet}
    (hfirst : sheet.firstUseful = some first) (hfits : sheet.firstCost first ≤ remaining) :
    takeFirst remaining (initial sheet) =
      (remaining - sheet.firstCost first, ⟨sheet, Finset.range (first + 1), []⟩) := by
  have hsheet : (initial sheet).sheet = sheet := rfl
  unfold takeFirst
  rw [hsheet, hfirst]
  exact if_pos hfits

theorem takeFirst_spent (remaining : ℕ) (sheet : PreparedSheet) :
    (takeFirst remaining (initial sheet)).1 + (takeFirst remaining (initial sheet)).2.spent =
      remaining + (initial sheet).spent := by
  rcases takeFirst_spec remaining sheet with hsame | ⟨first, hfirst, hfits, htake⟩
  · rw [hsame]
  · have hne : Finset.range (first + 1) ≠ ∅ := Finset.nonempty_range_add_one.ne_empty
    have hcost : sheet.firstCost first =
        sheet.headingCost + (Finset.range (first + 1)).sum sheet.chars :=
      congrArg (sheet.headingCost + ·)
        (sum_take_rows sheet.rows (PreparedSheet.firstUseful_lt hfirst))
    have hzero : (initial sheet).spent = 0 := if_pos rfl
    rw [htake, hzero, spent, if_neg hne, ← hcost]
    simp only
    omega

theorem Closed.takeFirst (remaining : ℕ) (sheet : PreparedSheet) :
    Closed (takeFirst remaining (initial sheet)).2 := by
  rcases takeFirst_spec remaining sheet with hsame | ⟨first, hfirst, -, htake⟩
  · rw [hsame]
    exact closed_initial sheet
  · have hlt := PreparedSheet.firstUseful_lt hfirst
    rw [htake]
    refine ⟨fun row hrow => ?_, nofun, fun row hrow _ j hj _ => ?_⟩
    · have hle := Finset.mem_range_succ_iff.1 hrow
      exact hle.trans_lt hlt
    · rw [Finset.mem_range] at hrow ⊢
      exact hj.trans hrow

theorem Closed.withOrder {share : SheetShare} (h : Closed share) : Closed share.withOrder := by
  refine ⟨h.inside, fun row hrow => ?_, h.above⟩
  rw [SheetShare.withOrder, mem_sortByKey, List.mem_filter, List.mem_range] at hrow
  exact hrow.1

/-- What a turn does for a sheet. -/
theorem takeNext_spec (remaining : ℕ) (share : SheetShare) :
    (∃ order, order ⊆ share.order ∧ takeNext remaining share =
      (remaining, { share with order := order })) ∨
    ∃ row order, share.order = row :: order ∧ share.nextCost row ≤ remaining ∧
      takeNext remaining share = (remaining - share.nextCost row,
        { share with order := order, selected := share.selected ∪ (share.required row).toFinset }) := by
  obtain ⟨sheet, selected, order⟩ := share
  cases order with
  | nil => exact .inl ⟨[], List.Subset.refl _, rfl⟩
  | cons row order =>
    let share : SheetShare := ⟨sheet, selected, row :: order⟩
    by_cases hfits : share.nextCost row ≤ remaining
    · exact .inr ⟨row, order, rfl, hfits, if_pos hfits⟩
    · exact .inl ⟨order, List.subset_cons_self _ _, if_neg hfits⟩

theorem mem_required {share : SheetShare} {row candidate : ℕ} :
    candidate ∈ share.required row ↔ candidate ≤ row ∧
      (candidate = row ∨ share.sheet.structural candidate = true) ∧ candidate ∉ share.selected := by
  rw [required, List.mem_filter, List.mem_range, Nat.lt_succ_iff, Bool.and_eq_true, Bool.or_eq_true,
    decide_eq_true_eq, decide_eq_true_eq]

theorem takeNext_spent (remaining : ℕ) (share : SheetShare) :
    (takeNext remaining share).1 + (takeNext remaining share).2.spent =
      remaining + share.spent := by
  rcases takeNext_spec remaining share with ⟨order, -, hsame⟩ | ⟨row, order, -, hfits, htake⟩
  · rw [hsame]
    rfl
  · have hdisjoint : Disjoint share.selected (share.required row).toFinset := by
      rw [Finset.disjoint_right]
      intro candidate hcandidate
      exact (mem_required.1 (List.mem_toFinset.1 hcandidate)).2.2
    have hnodup : (share.required row).Nodup := List.nodup_range.filter _
    have hsum : (share.selected ∪ (share.required row).toFinset).sum share.sheet.chars =
        share.selected.sum share.sheet.chars + ((share.required row).map share.sheet.chars).sum := by
      rw [Finset.sum_union hdisjoint, List.sum_toFinset _ hnodup]
    have hcost : share.nextCost row = ((share.required row).map share.sheet.chars).sum +
        if share.selected = ∅ then share.sheet.headingCost else 0 := rfl
    rw [htake]
    simp only [spent, hsum]
    by_cases hempty : share.selected = ∅
    · rw [if_pos hempty] at hcost ⊢
      -- The row itself is required, so that the heading is not paid for nothing.
      have hrow : row ∈ share.required row :=
        mem_required.2 ⟨le_rfl, .inl rfl, by rw [hempty]; exact Finset.notMem_empty row⟩
      have hne : share.selected ∪ (share.required row).toFinset ≠ ∅ := fun hnone =>
        Finset.ne_empty_of_mem (List.mem_toFinset.2 hrow) (Finset.union_eq_empty.1 hnone).2
      rw [if_neg hne, hempty, Finset.sum_empty]
      omega
    · have hne : share.selected ∪ (share.required row).toFinset ≠ ∅ := fun hnone =>
        hempty (Finset.union_eq_empty.1 hnone).1
      rw [if_neg hempty] at hcost ⊢
      rw [if_neg hne]
      omega

theorem Closed.takeNext {share : SheetShare} (h : Closed share) (remaining : ℕ) :
    Closed (takeNext remaining share).2 := by
  rcases takeNext_spec remaining share with ⟨order, horder, hsame⟩ | ⟨row, order, horder, -, htake⟩
  · rw [hsame]
    exact ⟨h.inside, fun i hi => h.rest i (horder hi), h.above⟩
  · have hrow : row < share.sheet.rows.length := h.rest row (horder ▸ List.mem_cons_self ..)
    rw [htake]
    refine ⟨fun i hi => ?_, fun i hi => h.rest i (horder ▸ List.mem_cons_of_mem _ hi),
      fun i hi huseful j hj hstructural => ?_⟩
    · rcases Finset.mem_union.1 hi with hi | hi
      · exact h.inside i hi
      · exact (mem_required.1 (List.mem_toFinset.1 hi)).1.trans_lt hrow
    · rw [Finset.mem_union, List.mem_toFinset]
      rcases Finset.mem_union.1 hi with hi | hi
      · exact .inl (h.above i hi huseful j hj hstructural)
      · -- Of what is required only the row itself is useful.
        have hi' := mem_required.1 (List.mem_toFinset.1 hi)
        have hsame : i = row := hi'.2.1.resolve_right fun hstr => by
          rw [PreparedSheet.not_useful_of_structural hstr] at huseful
          cases huseful
        rw [← hsame]
        by_cases hsel : j ∈ share.selected
        · exact .inl hsel
        · exact .inr (mem_required.2 ⟨hj.le, .inr hstructural, hsel⟩)

theorem grows_takeFirst (remaining : ℕ) (sheet : PreparedSheet) :
    Grows (initial sheet) (takeFirst remaining (initial sheet)).2 := by
  rcases takeFirst_spec remaining sheet with hsame | ⟨first, -, -, htake⟩
  · rw [hsame]
    exact Grows.refl _
  · rw [htake]
    exact ⟨rfl, Finset.empty_subset _⟩

theorem grows_takeNext (remaining : ℕ) (share : SheetShare) :
    Grows share (takeNext remaining share).2 := by
  rcases takeNext_spec remaining share with ⟨order, -, hsame⟩ | ⟨row, order, -, -, htake⟩
  · rw [hsame]
    exact ⟨rfl, Finset.Subset.refl _⟩
  · rw [htake]
    exact ⟨rfl, Finset.subset_union_left⟩

end SheetShare

open SheetShare

/-! ### All sheets -/

variable {remaining : ℕ} {prepared : List PreparedSheet}

/-- What the first pass has selected, in order. -/
def startShares (remaining : ℕ) (prepared : List PreparedSheet) : List SheetShare :=
  (firstPass remaining prepared).2.map withOrder

theorem select_eq (remaining : ℕ) (prepared : List PreparedSheet) : select remaining prepared =
    (passes turns (firstPass remaining prepared).1 (startShares remaining prepared)).2 := rfl

/-- **What is selected stays within the budget.** -/
theorem select_spent (remaining : ℕ) (prepared : List PreparedSheet) :
    ((select remaining prepared).map spent).sum ≤ remaining := by
  have hfirst : (firstPass remaining prepared).1 +
      ((firstPass remaining prepared).2.map spent).sum =
      remaining + ((prepared.map initial).map spent).sum := by
    refine pass_spent fun r share hshare => ?_
    obtain ⟨sheet, -, rfl⟩ := List.mem_map.1 hshare
    exact takeFirst_spent r sheet
  have hzero : ((prepared.map initial).map spent).sum = 0 := by
    refine List.sum_eq_zero fun n hn => ?_
    obtain ⟨share, hshare, rfl⟩ := List.mem_map.1 hn
    obtain ⟨sheet, -, rfl⟩ := List.mem_map.1 hshare
    exact if_pos rfl
  have hstart : (startShares remaining prepared).map spent =
      (firstPass remaining prepared).2.map spent := by
    rw [startShares, List.map_map]
    rfl
  have hturns : (passes turns _ (startShares remaining prepared)).1 +
      ((passes turns _ (startShares remaining prepared)).2.map spent).sum = remaining :=
    passes_induction (P := fun r shares => r + (shares.map spent).sum = remaining)
      (fun r shares h => (pass_spent fun r share _ => takeNext_spent r share).trans h)
      (by rw [hstart, hfirst, hzero, Nat.add_zero])
  rw [select_eq]
  exact (Nat.le_add_left _ _).trans_eq hturns

/-- Useful rows are selected with the structural rows above them. -/
theorem select_closed (remaining : ℕ) (prepared : List PreparedSheet) :
    ∀ share ∈ select remaining prepared, Closed share := by
  have hfirst : ∀ share ∈ (firstPass remaining prepared).2, Closed share := by
    intro share hshare
    obtain ⟨k, hk⟩ := List.getElem?_of_mem hshare
    rw [firstPass, pass_getElem?, List.getElem?_map] at hk
    obtain ⟨_, hinitial, rfl⟩ := Option.map_eq_some_iff.1 hk
    obtain ⟨sheet, -, rfl⟩ := Option.map_eq_some_iff.1 hinitial
    exact Closed.takeFirst _ sheet
  rw [select_eq]
  refine passes_induction (P := fun _ shares => ∀ share ∈ shares, Closed share)
    (fun r shares h => pass_all (fun r share hshare => hshare.takeNext r) h) fun share hshare => ?_
  obtain ⟨first, hmem, rfl⟩ := List.mem_map.1 hshare
  exact (hfirst first hmem).withOrder

/-- Every sheet has a share, in which at least the rows of the first pass are selected. -/
theorem select_grows (remaining : ℕ) (prepared : List PreparedSheet) :
    List.Forall₂ Grows (firstPass remaining prepared).2 (select remaining prepared) := by
  have hstart : List.Forall₂ Grows (firstPass remaining prepared).2
      (startShares remaining prepared) := by
    rw [startShares, List.forall₂_map_right_iff]
    exact List.forall₂_same.2 fun share _ => ⟨rfl, Finset.Subset.refl _⟩
  rw [select_eq]
  exact forall₂_trans Grows.trans hstart
    (passes_forall₂ Grows.refl Grows.trans grows_takeNext)

/-- The share of a sheet, with what was selected of it in the first pass. -/
theorem select_getElem? {k : ℕ} {sheet : PreparedSheet} (h : prepared[k]? = some sheet) :
    ∃ share, (select remaining prepared)[k]? = some share ∧ share.sheet = sheet ∧
      (takeFirst (firstPass remaining (prepared.take k)).1 (initial sheet)).2.selected ⊆
        share.selected := by
  have hfirst : (firstPass remaining prepared).2[k]? =
      some (takeFirst (firstPass remaining (prepared.take k)).1 (initial sheet)).2 := by
    rw [firstPass, pass_getElem?, List.getElem?_map, h, ← List.map_take]
    rfl
  have hgrows := select_grows remaining prepared
  obtain ⟨hk, hget⟩ := List.getElem?_eq_some_iff.1 hfirst
  have hk' : k < (select remaining prepared).length := hgrows.length_eq ▸ hk
  have hstep := List.Forall₂.get hgrows hk hk'
  rw [List.get_eq_getElem, List.get_eq_getElem, hget] at hstep
  refine ⟨_, List.getElem?_eq_getElem hk', hstep.1.trans ?_, hstep.2⟩
  exact (grows_takeFirst _ sheet).1

/-! ### The pieces -/

/-- The pieces of a sheet that come in the order of its rows. -/
def RowsAscend (piece piece' : PreviewPiece) : Prop :=
  ∀ sheet row row', piece = .row sheet row → piece' = .row sheet row' → row < row'

/-- The sheet of a piece. -/
def PreviewPiece.sheet : PreviewPiece → ℕ
  | heading sheet | row sheet _ | separator sheet _ => sheet

theorem pricedSum_append {π : Type} (pieces pieces' : List (π × Push)) :
    pricedSum (pieces ++ pieces') = pricedSum pieces + pricedSum pieces' := by
  rw [pricedSum, List.map_append, List.sum_append]
  rfl

theorem XlsxRow.pricedSum_pieces (row : XlsxRow) (sheet index : ℕ) :
    pricedSum (row.pieces sheet index) = row.chars := by
  unfold pricedSum pieces chars
  cases row.separator with
  | none => rfl
  | some separator => rfl

namespace SheetShare

variable {share : SheetShare} {sheet : ℕ}

/-- The rows that are selected, with their places. -/
def chosen (share : SheetShare) : List (XlsxRow × ℕ) :=
  share.sheet.rows.zipIdx.filter fun row => decide (row.2 ∈ share.selected)

theorem mem_chosen {row : XlsxRow × ℕ} :
    row ∈ share.chosen ↔ share.sheet.rows[row.2]? = some row.1 ∧ row.2 ∈ share.selected := by
  rw [chosen, List.mem_filter, decide_eq_true_eq, List.mem_zipIdx_iff_getElem?]

/-- The places of the rows that are selected ascend. -/
theorem chosen_ascend (share : SheetShare) : (share.chosen.map Prod.snd).Pairwise (· < ·) := by
  have hall : (share.sheet.rows.zipIdx.map Prod.snd).Pairwise (· < ·) := by
    rw [List.zipIdx_map_snd]
    exact List.pairwise_lt_range'
  exact hall.sublist (List.filter_sublist.map Prod.snd)

theorem toFinset_chosen (h : Closed share) :
    (share.chosen.map Prod.snd).toFinset = share.selected := by
  ext row
  rw [List.mem_toFinset, List.mem_map]
  constructor
  · rintro ⟨chosen, hmem, rfl⟩
    exact (mem_chosen.1 hmem).2
  · intro hrow
    exact ⟨(_, row), mem_chosen.2 ⟨List.getElem?_eq_getElem (h.inside row hrow), hrow⟩, rfl⟩

/-- **The pieces of a sheet cost what has been paid for it.** -/
theorem pricedSum_pieces (h : Closed share) (sheet : ℕ) :
    pricedSum (share.pieces sheet) = share.spent := by
  have hrows : ∀ rows : List (XlsxRow × ℕ),
      pricedSum (rows.flatMap fun row => row.1.pieces sheet row.2) =
        (rows.map fun row => row.1.chars).sum := by
    intro rows
    induction rows with
    | nil => rfl
    | cons row rows ih =>
      rw [List.flatMap_cons, pricedSum_append, XlsxRow.pricedSum_pieces, ih, List.map_cons,
        List.sum_cons]
  have hchars : share.chosen.map (fun row => row.1.chars) =
      (share.chosen.map Prod.snd).map share.sheet.chars := by
    rw [List.map_map]
    refine List.map_congr_left fun row hrow => ?_
    rw [Function.comp, PreparedSheet.chars, (mem_chosen.1 hrow).1]
    rfl
  have hnodup : (share.chosen.map Prod.snd).Nodup := (chosen_ascend share).imp fun hlt => hlt.ne
  unfold pieces spent
  split_ifs
  · rfl
  · change countChars share.sheet.heading + 1 +
      pricedSum (share.chosen.flatMap fun row => row.1.pieces sheet row.2) = _
    rw [hrows, hchars, ← List.sum_toFinset _ hnodup, toFinset_chosen h]
    rfl

theorem mem_pieces_heading (h : share.selected.Nonempty) (sheet : ℕ) :
    .heading sheet ∈ (share.pieces sheet).map Prod.fst := by
  rw [pieces, if_neg h.ne_empty]
  exact List.mem_cons_self ..

/-- The pieces of a row. -/
theorem mem_row_pieces {row : XlsxRow} {index : ℕ} {piece : PreviewPiece} :
    piece ∈ (row.pieces sheet index).map Prod.fst ↔
      piece = .row sheet index ∨ piece = .separator sheet index ∧ row.separator.isSome = true := by
  unfold XlsxRow.pieces
  cases row.separator with
  | none => simp
  | some separator => simp

theorem mem_pieces {piece : PreviewPiece} : piece ∈ (share.pieces sheet).map Prod.fst ↔
    share.selected ≠ ∅ ∧ (piece = .heading sheet ∨ ∃ row ∈ share.chosen,
      piece ∈ (row.1.pieces sheet row.2).map Prod.fst) := by
  unfold pieces
  split_ifs with hempty
  · exact ⟨nofun, fun h => absurd hempty h.1⟩
  · rw [List.map_cons, List.mem_cons, List.map_flatMap, List.mem_flatMap]
    exact ⟨fun h => ⟨hempty, h⟩, fun h => h.2⟩

theorem mem_pieces_row (h : Closed share) {row : ℕ} :
    .row sheet row ∈ (share.pieces sheet).map Prod.fst ↔ row ∈ share.selected := by
  rw [mem_pieces]
  constructor
  · rintro ⟨-, hheading | ⟨chosen, hmem, hpiece⟩⟩
    · cases hheading
    · rcases mem_row_pieces.1 hpiece with heq | ⟨heq, -⟩
      · cases heq
        exact (mem_chosen.1 hmem).2
      · cases heq
  · intro hrow
    have hlt := h.inside row hrow
    exact ⟨Finset.ne_empty_of_mem hrow, .inr ⟨(share.sheet.rows[row], row),
      mem_chosen.2 ⟨List.getElem?_eq_getElem hlt, hrow⟩, mem_row_pieces.2 (.inl rfl)⟩⟩

/-- A row is pushed as it is. -/
theorem push_of_mem_pieces {s row : ℕ} {p : Push} (h : (.row s row, p) ∈ share.pieces sheet) :
    ∃ r, share.sheet.rows[row]? = some r ∧ p = ⟨r.text, r.kind, r.ranges⟩ := by
  unfold pieces at h
  split_ifs at h
  · cases h
  · rcases List.mem_cons.1 h with heq | h
    · cases heq
    · obtain ⟨chosen, hmem, hpiece⟩ := List.mem_flatMap.1 h
      rcases List.mem_cons.1 hpiece with heq | hseparator
      · cases heq
        exact ⟨chosen.1, (mem_chosen.1 hmem).1, rfl⟩
      · obtain ⟨separator, -, heq⟩ := List.mem_map.1 hseparator
        cases heq

theorem sheet_of_mem_pieces {piece : PreviewPiece}
    (h : piece ∈ (share.pieces sheet).map Prod.fst) : piece.sheet = sheet := by
  obtain ⟨-, rfl | ⟨chosen, -, hpiece⟩⟩ := mem_pieces.1 h
  · rfl
  · rcases mem_row_pieces.1 hpiece with rfl | ⟨rfl, -⟩
    · rfl
    · rfl

theorem ascend_pieces (share : SheetShare) (sheet : ℕ) :
    ((share.pieces sheet).map Prod.fst).Pairwise RowsAscend := by
  unfold pieces
  split_ifs
  · exact .nil
  · rw [List.map_cons, List.pairwise_cons, List.map_flatMap, List.pairwise_flatMap]
    refine ⟨nofun, fun row _ => ?_, ?_⟩
    · unfold XlsxRow.pieces
      cases row.1.separator with
      | none => exact List.pairwise_singleton _ _
      | some separator =>
        refine List.pairwise_pair.2 ?_
        nofun
    · have hascend := List.pairwise_map.1 (chosen_ascend share)
      refine hascend.imp fun hlt piece hpiece piece' hpiece' => ?_
      rintro s i i' rfl rfl
      rcases mem_row_pieces.1 hpiece with heq | ⟨heq, -⟩
      · rcases mem_row_pieces.1 hpiece' with heq' | ⟨heq', -⟩
        · cases heq
          cases heq'
          exact hlt
        · cases heq'
      · cases heq

end SheetShare

theorem pricedSum_piecesFrom {shares : List SheetShare} (h : ∀ share ∈ shares, Closed share)
    (sheet : ℕ) : pricedSum (piecesFrom sheet shares) = (shares.map spent).sum := by
  induction shares generalizing sheet with
  | nil => rfl
  | cons share shares ih =>
    obtain ⟨hfirst, hrest⟩ := List.forall_mem_cons.1 h
    rw [piecesFrom, pricedSum_append, pricedSum_pieces hfirst, ih hrest, List.map_cons, List.sum_cons]

theorem mem_piecesFrom {shares : List SheetShare} {start : ℕ} {entry : PreviewPiece × Push} :
    entry ∈ piecesFrom start shares ↔
      ∃ k, ∃ share : SheetShare, shares[k]? = some share ∧ entry ∈ share.pieces (start + k) := by
  induction shares generalizing start with
  | nil => simp [piecesFrom]
  | cons share shares ih =>
    rw [piecesFrom, List.mem_append, ih]
    constructor
    · rintro (h | ⟨k, share', hk, h⟩)
      · exact ⟨0, share, rfl, h⟩
      · refine ⟨k + 1, share', hk, ?_⟩
        rwa [Nat.add_right_comm] at h
    · rintro ⟨k, share', hk, h⟩
      cases k with
      | zero =>
        obtain rfl := Option.some.inj hk
        exact .inl h
      | succ k =>
        refine .inr ⟨k, share', hk, ?_⟩
        rwa [Nat.add_right_comm]

/-- The pieces without what is pushed for them. -/
theorem mem_map_piecesFrom {shares : List SheetShare} {start : ℕ} {piece : PreviewPiece} :
    piece ∈ (piecesFrom start shares).map Prod.fst ↔
      ∃ k, ∃ share : SheetShare, shares[k]? = some share ∧
        piece ∈ (share.pieces (start + k)).map Prod.fst := by
  simp only [List.mem_map, mem_piecesFrom]
  constructor
  · rintro ⟨entry, ⟨k, share, hk, hentry⟩, rfl⟩
    exact ⟨k, share, hk, entry, hentry, rfl⟩
  · rintro ⟨k, share, hk, entry, hentry, rfl⟩
    exact ⟨entry, ⟨k, share, hk, hentry⟩, rfl⟩

theorem ascend_piecesFrom (start : ℕ) (shares : List SheetShare) :
    ((piecesFrom start shares).map Prod.fst).Pairwise RowsAscend := by
  induction shares generalizing start with
  | nil => exact .nil
  | cons share shares ih =>
    rw [piecesFrom, List.map_append]
    refine List.pairwise_append.2 ⟨ascend_pieces share start, ih _, fun p hp p' hp' => ?_⟩
    obtain ⟨k, share', -, hlater⟩ := mem_map_piecesFrom.1 hp'
    have hsheet := sheet_of_mem_pieces hp
    have hsheet' := sheet_of_mem_pieces hlater
    rintro s row row' rfl rfl
    -- Pieces of different sheets have nothing to do with each other.
    have hs : s = start := hsheet
    have hs' : s = start + 1 + k := hsheet'
    omega

end DailyReport.OfficeParser
