import DailyReport.Excerpts.Granted

/-!
# When an untruncated excerpt is complete

An excerpt is called untruncated when its file has been given all blocks and the text is no shorter
than the content.  Pieces can be lost on the way all the same: a text without a boundary is too long
to be kept, content below a long context is left out and so are headings behind the last content,
and pieces are trimmed with the context of a block (`lost`).  A repeated heading then makes up for
the length.

* `mem_contentPieces_cases` : every piece of the content is in the excerpt of all blocks or lost;
* `untruncated_complete_iff` : **an untruncated excerpt of a file is complete, in every allocation,
  exactly when what is lost stands in its text anyway**, or no excerpt of it is untruncated;
* `heading_lost` : an untruncated excerpt without the last heading.
-/

namespace DailyReport.Excerpts

open Lib

/-! ### What the blocks leave out -/

namespace BundleState

/-- A piece begins a block below a context that is too long to be repeated. -/
def drops (st : BundleState) (piece : Piece) : Bool :=
  let st := (if st.ends piece then st.flush else st).enter piece
  st.current.isEmpty && useful piece.kind && decide (roundTarget < contextChars st.context)

/-- The pieces that are in no block once all pieces have been read. -/
def leftOut : BundleState → List Piece → List Piece
  | st, [] => if st.hasUseful then [] else st.current
  | st, piece :: pieces =>
    (if st.drops piece then [piece] else []) ++ leftOut (st.read piece) pieces

/-- The blocks once all pieces have been read. -/
def finish (st : BundleState) (pieces : List Piece) : List Block :=
  let st := pieces.foldl BundleState.read st
  if st.hasUseful then st.flush.blocks else st.blocks

theorem finish_nil (st : BundleState) :
    st.finish [] = if st.hasUseful then st.flush.blocks else st.blocks := rfl

theorem finish_cons (st : BundleState) (piece : Piece) (pieces : List Piece) :
    st.finish (piece :: pieces) = (st.read piece).finish pieces := rfl

/-- The piece is in a block, or in the one under construction. -/
def Has (st : BundleState) (piece : Piece) : Prop :=
  piece ∈ st.current ∨ ∃ block ∈ st.blocks, piece ∈ block.pieces

variable {st : BundleState} {piece q : Piece}

theorem Has.flush (h : st.Has q) : st.flush.Has q := by
  rcases h with h | ⟨block, hblock, h⟩
  · exact Or.inr ⟨_, List.mem_append_right _ (List.mem_singleton_self _), h⟩
  · exact Or.inr ⟨block, List.mem_append_left _ hblock, h⟩

theorem enter_current (st : BundleState) (piece : Piece) :
    (st.enter piece).current = st.current := by
  unfold enter
  split_ifs <;> rfl

theorem enter_blocks (st : BundleState) (piece : Piece) : (st.enter piece).blocks = st.blocks := by
  unfold enter
  split_ifs <;> rfl

theorem Has.enter (h : st.Has q) : (st.enter piece).Has q := by
  rwa [Has, enter_current, enter_blocks]

theorem Has.push (h : st.Has q) : (st.push piece).Has q :=
  h.imp_left fun h => List.mem_append_left _ h

theorem has_push (st : BundleState) (piece : Piece) : (st.push piece).Has piece :=
  Or.inl (List.mem_append_right _ (List.mem_singleton_self _))

theorem Has.place (h : st.Has q) : (st.place piece).Has q := by
  unfold BundleState.place
  dsimp only
  split_ifs with hempty
  · -- nothing is under construction, so the piece is in a block
    rcases h with h | h
    · simp [hempty] at h
    · exact Has.push (Or.inr h)
  · exact h
  · exact Has.push h
  · exact Has.push h

/-- What has been read stays in the blocks. -/
theorem Has.read (h : st.Has q) : (st.read piece).Has q := by
  unfold BundleState.read
  split_ifs
  · exact h.flush.enter.place
  · exact h.enter.place

/-- A piece that is read is in the blocks, unless it is dropped. -/
theorem has_read (hdrops : st.drops piece = false) : (st.read piece).Has piece := by
  have hread : st.read piece =
      ((if st.ends piece then st.flush else st).enter piece).place piece := rfl
  rw [hread]
  simp only [drops] at hdrops
  generalize (if st.ends piece then st.flush else st).enter piece = st' at hdrops ⊢
  unfold BundleState.place
  dsimp only
  split_ifs with hempty huseful hcontext
  · exact has_push _ _
  · simp [hempty, huseful, Nat.lt_of_not_le hcontext] at hdrops
  · exact has_push _ _
  · exact has_push _ _

/-- **Every piece is in a block or left out.** -/
theorem mem_finish_or_leftOut {pieces : List Piece} (h : st.Has q ∨ q ∈ pieces) :
    (∃ block ∈ st.finish pieces, q ∈ block.pieces) ∨ q ∈ st.leftOut pieces := by
  induction pieces generalizing st with
  | nil =>
    replace h : st.Has q := by simpa using h
    rw [finish_nil, leftOut]
    by_cases huseful : st.hasUseful = true
    · rw [if_pos huseful, if_pos huseful]
      refine Or.inl ?_
      rcases h with h | ⟨block, hblock, h⟩
      · exact ⟨_, List.mem_append_right _ (List.mem_singleton_self _), h⟩
      · exact ⟨block, List.mem_append_left _ hblock, h⟩
    · rw [if_neg huseful, if_neg huseful]
      exact h.symm
  | cons piece pieces ih =>
    rw [finish_cons]
    rcases h with h | h
    · exact (ih (Or.inl h.read)).imp_right fun h => List.mem_append_right _ h
    · rcases List.mem_cons.1 h with rfl | h
      · cases hdrops : st.drops q with
        | true => exact Or.inr (List.mem_append_left _ (by simp [hdrops]))
        | false =>
          exact (ih (Or.inl (has_read hdrops))).imp_right fun h => List.mem_append_right _ h
      · exact (ih (Or.inr h)).imp_right fun h => List.mem_append_right _ h

/-- What is left out has been read. -/
theorem Good.leftOut {P : Piece → Prop} {pieces : List Piece} (hst : st.Good P)
    (hpieces : ∀ p ∈ pieces, P p) : ∀ p ∈ st.leftOut pieces, P p := by
  induction pieces generalizing st with
  | nil =>
    intro p hp
    simp only [BundleState.leftOut] at hp
    split_ifs at hp
    · cases hp
    · exact hst.current p hp
  | cons piece pieces ih =>
    intro p hp
    rcases List.mem_append.1 hp with hp | hp
    · split_ifs at hp
      · exact hpieces p (by simp_all)
      · cases hp
    · exact ih (hst.read (hpieces piece (by simp)))
        (fun p hp => hpieces p (List.mem_cons_of_mem _ hp)) p hp

end BundleState

/-! ### What an excerpt of all blocks is without -/

variable (item : ContextFileEvidence)

/-- The pieces of the excerpt of all blocks. -/
def allTaken : List Piece := taken (bundles item) (bundles item).length

/-- Pieces that are too long and cannot be split. -/
def overlong : List Piece := (contentPieces item).filter fun p => !p.kept

/-- Pieces that are in no block: content below a long context, and headings behind the last
content. -/
def unplaced : List Piece := BundleState.initial.leftOut (pieces item)

/-- Pieces that are trimmed with the context of their blocks, and nowhere else. -/
def trimmed : List Piece := (bundles item).flatten.filter fun p => decide (p ∉ allTaken item)

/-- All pieces that an excerpt of all blocks is without. -/
def lost : List Piece := overlong item ++ unplaced item ++ trimmed item

variable {item}

theorem pieces_subset : pieces item ⊆ contentPieces item := by
  unfold pieces
  split_ifs
  · exact List.nil_subset _
  · exact fun p hp => (List.mem_filter.1 hp).1

theorem mem_bundles_flatten {p : Piece} (h : p ∈ (bundles item).flatten) : p ∈ pieces item := by
  obtain ⟨block, hblock, hp⟩ := List.mem_flatten.1 h
  exact (mem_bundles hblock).2 p hp

/-- What is lost is a piece of the content. -/
theorem lost_subset : lost item ⊆ contentPieces item := by
  intro p hp
  rcases List.mem_append.1 hp with hp | hp
  · rcases List.mem_append.1 hp with hp | hp
    · exact (List.mem_filter.1 hp).1
    · exact pieces_subset ((BundleState.good_initial (· ∈ pieces item)).leftOut (fun p hp => hp) p hp)
  · exact pieces_subset (mem_bundles_flatten (List.mem_filter.1 hp).1)

/-- **Every piece of a content with usable text is in the excerpt of all blocks, or lost.** -/
theorem mem_contentPieces_cases
    (husable : item.evidenceAudit.any (fun audit => audit.usableChars == some 0) = false)
    {p : Piece} (h : p ∈ contentPieces item) : p ∈ allTaken item ∨ p ∈ lost item := by
  by_cases hkept : p.kept
  · have hpiece : p ∈ pieces item := by
      rw [pieces, if_neg (by simp [husable])]
      exact List.mem_filter.2 ⟨h, hkept⟩
    rcases BundleState.mem_finish_or_leftOut (Or.inr hpiece : BundleState.initial.Has p ∨ _) with
      ⟨block, hblock, hp⟩ | hleft
    · by_cases htaken : p ∈ allTaken item
      · exact Or.inl htaken
      · refine Or.inr (List.mem_append_right _ (List.mem_filter.2 ⟨?_, by simpa using htaken⟩))
        refine List.mem_flatten.2 ⟨block.pieces, ?_, hp⟩
        exact (bundles_perm item).mem_iff.2 (List.mem_map_of_mem hblock)
    · exact Or.inr (List.mem_append_left _ (List.mem_append_right _ hleft))
  · exact Or.inr (List.mem_append_left _ (List.mem_append_left _
      (List.mem_filter.2 ⟨h, by simpa using hkept⟩)))

/-! ### Complete excerpts -/

/-- The piece is blank, or it stands in the text. -/
def Shown (text : Text) (piece : Piece) : Prop :=
  piece.text.all isWhitespace = true ∨ piece.text <:+: text

theorem text_ne_nil_of_mem {k : ℕ} {p : Piece} (h : p ∈ taken (bundles item) k) : p.text ≠ [] := by
  obtain ⟨block, hblock, hp⟩ := mem_taken h
  exact text_ne_nil ((mem_bundles hblock).2 p hp)

/-- A content of no characters has no pieces. -/
theorem contentPieces_of_nil (h : item.content = []) : contentPieces item = [] := by
  rw [contentPieces, List.flatMap_eq_nil_iff]
  intro unit _
  rw [unitPieces, if_pos]
  rw [h, List.length_nil]
  omega

/-- **Untruncated excerpts of a file are complete** in every allocation exactly when no excerpt of
it is untruncated, or every piece that is lost on the way stands in the text of the others. -/
theorem untruncated_complete_iff (item : ContextFileEvidence) :
    (∀ evidence budget priorityPaths excerpts,
      allocateExcerptsWithPriority evidence budget priorityPaths = some excerpts →
      ∀ (i : ℕ) excerpt, evidence[i]? = some item → excerpts[i]? = some excerpt →
        excerpt.truncated = false → ∀ p ∈ contentPieces item, Shown excerpt.text p) ↔
    pieceCap < (allTaken item).length ∨ linesLength (allTaken item) < countChars item.content ∨
      ∀ p ∈ lost item, Shown (assembly (allTaken item)).text p := by
  have hspec : Assembled (allTaken item) (assembly (allTaken item)) :=
    assembly_spec fun p hp => text_ne_nil_of_mem hp
  constructor
  · intro h
    by_cases hcap : pieceCap < (allTaken item).length
    · exact Or.inl hcap
    · by_cases hshort : linesLength (allTaken item) < countChars item.content
      · exact Or.inr (Or.inl hshort)
      · refine Or.inr (Or.inr fun p hp => ?_)
        obtain ⟨pool, -, hexcerpts, hposition, hselected⟩ :=
          allocate_single item le_rfl (Nat.le_of_not_lt hcap)
        have hcomplete := h [item] _ [] _ hexcerpts 0 _ rfl rfl
        simp only [assemble, hselected, hposition] at hcomplete
        refine hcomplete ?_ p (lost_subset hp)
        have hlength := hspec.length
        simp only [allTaken] at hlength hshort
        simp [hlength, Nat.le_of_not_lt hshort]
  · intro hcond evidence budget priorityPaths excerpts hexcerpts i excerpt hi hexcerpt huncut p hp
    obtain ⟨pool, excerpts', hpool, hexcerpts', hmaximal⟩ :=
      allocate_maximal evidence budget priorityPaths
    obtain rfl := Option.some_injective _ (hexcerpts.symm.trans hexcerpts')
    have hfile : (item, i) ∈ evidence.zipIdx := List.mem_zipIdx_iff_getElem?.2 hi
    have hshare : excerpt = assemble item (pool.share i) := by
      rw [hmaximal.assembled, List.getElem?_map, List.getElem?_zipIdx, hi] at hexcerpt
      simpa using (Option.some_injective _ hexcerpt).symm
    -- an untruncated excerpt is the one of all blocks, and no shorter than the content
    have hselected := hmaximal.selected _ hfile
    have hcap := hmaximal.cap _ hfile
    subst hshare
    simp only [assemble, Bool.or_eq_false_iff, bne_eq_false_iff_eq, decide_eq_false_iff_not] at huncut
    obtain ⟨hposition, hlong⟩ := huncut
    simp only [hposition] at hselected
    change (pool.share i).selected = allTaken item at hselected
    simp only [hselected] at hcap hlong
    rw [hspec.length] at hlong
    simp only [assemble, hselected]
    rcases hcond with hover | hshort | hlost
    · omega
    · omega
    · cases husable : item.evidenceAudit.any (fun audit => audit.usableChars == some 0) with
      | true =>
        -- nothing is usable, so the excerpt is empty, and so is the content
        have hnil : allTaken item = [] := by
          have hpieces : pieces item = [] := by rw [pieces, if_pos husable]
          have hbundles : bundles item = [] := by rw [bundles, hpieces]; rfl
          rw [allTaken, hbundles]
          rfl
        rw [hnil] at hlong
        have hcontent : item.content = [] := by
          simpa [linesLength, countChars] using hlong
        rw [contentPieces_of_nil hcontent] at hp
        cases hp
      | false =>
        rcases mem_contentPieces_cases husable hp with htaken | hp
        · exact Or.inr (hspec.pieces p htaken)
        · exact hlost p hp

/-! ### A heading behind the last content -/

/-- **The last heading is lost**: the repeated heading takes its place. -/
theorem heading_lost : ¬ ∀ (evidence : List ContextFileEvidence) (budget : ℕ)
    (excerpts : List AllocatedExcerpt), allocateExcerpts evidence budget = some excerpts →
    ∀ (i : ℕ) item excerpt, evidence[i]? = some item → excerpts[i]? = some excerpt →
      excerpt.truncated = false → ∀ p ∈ contentPieces item, Shown excerpt.text p := by
  intro h
  have hlength : (bundles (sectionFile [])).length = 3 := by rw [bundles_section]; rfl
  obtain ⟨pool, -, hexcerpts, hposition, hselected⟩ := allocate_single (sectionFile [])
    hlength.ge (by rw [taken_section]; decide)
  rw [taken_section] at hselected
  have hcomplete := h [sectionFile []] _ _ hexcerpts 0 _ _ rfl rfl
  simp only [assemble, hselected, hposition, hlength] at hcomplete
  have hshown := hcomplete (by decide +kernel) headC (pieces_subset (by rw [pieces_section]; simp))
  rcases hshown with hblank | hinfix
  · revert hblank
    decide +kernel
  · revert hinfix
    decide +kernel

end DailyReport.Excerpts
