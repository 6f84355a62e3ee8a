import DailyReport.Excerpts.Maximal

/-!
# What a budget pays for

Every further block makes an excerpt longer (`linesLength_taken_lt`), so the budget of an excerpt
pays for exactly its blocks when no other file asks for it.

* `allocate_single` : **a file alone gets exactly the blocks that its budget pays for**;
* `taken_section` : the excerpt of a file whose first heading is repeated.
-/

namespace DailyReport.Excerpts

open Lib

/-- More pieces make an excerpt longer. -/
theorem linesLength_le {l l' : List Piece} (h : l <+: l') : linesLength l ≤ linesLength l' := by
  obtain ⟨more, rfl⟩ := h
  by_cases hmore : more = []
  · rw [hmore, List.append_nil]
  · rw [linesLength_append hmore]
    omega

section Units

variable {units : List (List Piece)}

/-- A block of a file adds pieces, and each of them makes its excerpt longer. -/
theorem linesLength_taken_succ (hunits : GoodUnits units) {k : ℕ} (hk : k < units.length) :
    linesLength (taken units k) < linesLength (taken units (k + 1)) := by
  have hblock : units[k]? = some units[k] := List.getElem?_eq_getElem hk
  have hmem : units[k] ∈ units := List.getElem_mem hk
  have hne := trimContext_ne_nil (taken units k) (hunits.useful _ hmem)
  have hpos := linesLength_pos hne fun p hp =>
    hunits.text _ hmem p (trimContext_subset _ _ hp)
  have htaken : taken units (k + 1) = taken units k ++ trimContext (taken units k) units[k] := by
    rw [taken, hblock]
  rw [htaken, linesLength_append hne]
  omega

theorem linesLength_taken_lt (hunits : GoodUnits units) {j k : ℕ} (hjk : j < k)
    (hk : k ≤ units.length) : linesLength (taken units j) < linesLength (taken units k) :=
  (linesLength_taken_succ hunits (by omega)).trans_le (linesLength_le (taken_mono units hjk))

/-- A file with fewer blocks than its budget pays for is not finished. -/
theorem position_of_finished (hunits : GoodUnits units) {share : Share} {remaining k : ℕ}
    (hfits : share.Fits units) (hk : k ≤ units.length)
    (hcap : (taken units k).length ≤ pieceCap)
    (hspent : share.size + remaining = linesLength (taken units k))
    (hfinished : Finished units share remaining) : share.position = k := by
  have hsize : share.size = linesLength (taken units share.position) := by
    rw [hfits.size, hfits.selected]
  rcases Nat.lt_trichotomy share.position k with hlt | heq | hgt
  · exfalso
    have hnext := taken_mono units (Nat.succ_le_of_lt hlt)
    rcases hfinished with hall | ⟨block, hblock, hwhy⟩
    · omega
    · have htaken : taken units (share.position + 1) =
          share.selected ++ trimContext share.selected block := by
        rw [taken, hblock, hfits.selected]
      have hlength := hnext.length_le
      rw [Nat.succ_eq_add_one, htaken, List.length_append] at hlength
      have hask : askBlock units share = some (blockSize share (trimContext share.selected block),
          ⟨share.position + 1, share.selected ++ trimContext share.selected block,
            share.size + blockSize share (trimContext share.selected block)⟩) := by
        unfold askBlock
        rw [hblock]
        dsimp only
        rw [if_pos (by omega)]
      obtain ⟨-, -, hfits', -⟩ := askBlock_eq_some hunits hfits hask
      have hle := linesLength_le hnext
      have hsize' := hfits'.size
      rw [Nat.succ_eq_add_one, htaken] at hle
      simp only at hsize'
      omega
  · exact heq
  · have hlonger := linesLength_taken_lt hunits hgt hfits.position
    omega

end Units

/-- **A file alone gets exactly the blocks that its budget pays for.** -/
theorem allocate_single (item : ContextFileEvidence) {k : ℕ} (hk : k ≤ (bundles item).length)
    (hcap : (taken (bundles item) k).length ≤ pieceCap) :
    ∃ pool, evidenceRounds [item] (linesLength (taken (bundles item) k)) [] = some pool ∧
      allocateExcerptsWithPriority [item] (linesLength (taken (bundles item) k)) [] =
        some [assemble item (pool.share 0)] ∧
      (pool.share 0).position = k ∧ (pool.share 0).selected = taken (bundles item) k := by
  obtain ⟨pool, hpool, hfits, hspent, hfinished⟩ := runRounds_spec
    (fun i => [item][i]?.any (preferredPath [])) (linesLength (taken (bundles item) k))
    (units_zipIdx [item]) (goodUnits_getD [item]) (nodup_zipIdx [item])
  have hshare : (pool.share 0).Fits (bundles item) := hfits 0
  have hposition : (pool.share 0).position = k :=
    position_of_finished (goodUnits_bundles item) hshare hk hcap (by simpa using hspent)
      (hfinished (item, 0) (by simp))
  refine ⟨pool, hpool, ?_, hposition, by rw [hshare.selected, hposition]⟩
  rw [allocateExcerptsWithPriority, hpool]
  rfl

/-! ### A file that repeats a heading -/

/-- The audit of a text of two sections and a closing heading, with some ranges for its first
heading. -/
def sectionAudit (ranges : List SourceRange) : ParsedContentAudit where
  archive := false
  version := 1
  readRanges := none
  contentUnits := some
    [⟨lit "u1", .heading, 0, 1, ranges⟩, ⟨lit "u2", .total, 2, 3, []⟩,
     ⟨lit "u3", .tableRow, 4, 5, []⟩, ⟨lit "u4", .heading, 6, 7, []⟩, ⟨lit "u5", .total, 8, 9, []⟩,
     ⟨lit "u6", .heading, 10, 11, []⟩]
  usableChars := some 3
  encoding := none
  detectedFormat := some (lit "xlsx")

/-- A file with this text. -/
def sectionFile (ranges : List SourceRange) : ContextFileEvidence where
  fileIdentity := lit "sections"
  absolutePath := lit "C:\\work\\sections.xlsx"
  relativePath := lit "sections.xlsx"
  extension := lit ".xlsx"
  sizeBytes := some 4096
  content := ['A', '\n', '9', '\n', '1', '\n', 'B', '\n', '8', '\n', 'C']
  evidenceAudit := some (sectionAudit ranges)
  parserBackend := lit "rust_xlsx_bounded_v2"
  workerLane := .rustCore
  cacheStatus := .miss
  parseStatus := .success
  truncated := false
  error := none
  reason := none

section Section

variable (ranges : List SourceRange)

/-- The first heading of the file. -/
def headA : Piece := ⟨['A'], .heading, ranges⟩

def total9 : Piece := ⟨['9'], .total, []⟩

def row1 : Piece := ⟨['1'], .tableRow, []⟩

def headB : Piece := ⟨['B'], .heading, []⟩

def total8 : Piece := ⟨['8'], .total, []⟩

/-- The closing heading, which has no content. -/
def headC : Piece := ⟨['C'], .heading, []⟩

theorem pieces_section : pieces (sectionFile ranges) =
    [headA ranges, total9, row1, headB, total8, headC] := rfl

theorem blocksOf_section : blocksOf [headA ranges, total9, row1, headB, total8, headC] =
    [⟨0, 0, [headA ranges, total9]⟩, ⟨1, 1, [headA ranges, row1]⟩, ⟨0, 2, [headB, total8]⟩] := by
  have hA : BundleState.initial.read (headA ranges) =
      ⟨[], [headA ranges], [headA ranges], 1, true, true, false⟩ := rfl
  have h9 : (BundleState.mk [] [headA ranges] [headA ranges] 1 true true false).read total9 =
      ⟨[], [headA ranges], [headA ranges, total9], 3, false, true, true⟩ := rfl
  have h1 : (BundleState.mk [] [headA ranges] [headA ranges, total9] 3 false true true).read row1 =
      ⟨[⟨0, 0, [headA ranges, total9]⟩], [headA ranges], [headA ranges, row1], 4, false, false,
        true⟩ := rfl
  have hB : (BundleState.mk [⟨0, 0, [headA ranges, total9]⟩] [headA ranges] [headA ranges, row1] 4
      false false true).read headB =
      ⟨[⟨0, 0, [headA ranges, total9]⟩, ⟨1, 1, [headA ranges, row1]⟩], [headB], [headB], 1, true,
        true, false⟩ := rfl
  have h8 : (BundleState.mk [⟨0, 0, [headA ranges, total9]⟩, ⟨1, 1, [headA ranges, row1]⟩] [headB]
      [headB] 1 true true false).read total8 =
      ⟨[⟨0, 0, [headA ranges, total9]⟩, ⟨1, 1, [headA ranges, row1]⟩], [headB], [headB, total8], 3,
        false, true, true⟩ := rfl
  have hC : (BundleState.mk [⟨0, 0, [headA ranges, total9]⟩, ⟨1, 1, [headA ranges, row1]⟩] [headB]
      [headB, total8] 3 false true true).read headC =
      ⟨[⟨0, 0, [headA ranges, total9]⟩, ⟨1, 1, [headA ranges, row1]⟩, ⟨0, 2, [headB, total8]⟩],
        [headC], [headC], 1, true, true, false⟩ := rfl
  simp only [blocksOf, List.foldl_cons, List.foldl_nil, hA, h9, h1, hB, h8, hC, Bool.false_eq_true,
    if_false]

/-- The totals come first, and the row behind them repeats its heading. -/
theorem bundles_section : bundles (sectionFile ranges) =
    [[headA ranges, total9], [headB, total8], [headA ranges, row1]] := by
  rw [bundles, pieces_section, blocksOf_section]
  rfl

theorem taken_section : taken (bundles (sectionFile ranges)) 3 =
    [headA ranges, total9, headB, total8, headA ranges, row1] := by
  have htrim9 : trimContext [] [headA ranges, total9] = [headA ranges, total9] := rfl
  have htrim8 : trimContext [headA ranges, total9] [headB, total8] = [headB, total8] := by
    have hcontext : structuralContext [headA ranges, total9] = [headA ranges] := rfl
    have hcontext' : structuralContext ([headB, total8].take (leading [headB, total8])) = [headB] :=
      rfl
    rw [trimContext, hcontext, hcontext', if_neg (by simp [headA, headB])]
    rfl
  have htrim1 : trimContext [headA ranges, total9, headB, total8] [headA ranges, row1] =
      [headA ranges, row1] := by
    have hcontext : structuralContext [headA ranges, total9, headB, total8] = [headB] := rfl
    have hcontext' : structuralContext
        ([headA ranges, row1].take (leading [headA ranges, row1])) = [headA ranges] := rfl
    rw [trimContext, hcontext, hcontext', if_neg (by simp [headA, headB])]
    rfl
  rw [bundles_section]
  simp only [taken, List.getElem?_cons_zero, List.getElem?_cons_succ, htrim9, List.nil_append,
    htrim8, htrim1, List.cons_append]

end Section

end DailyReport.Excerpts
