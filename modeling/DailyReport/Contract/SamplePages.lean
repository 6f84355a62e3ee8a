import DailyReport.Contract.Provenance
import DailyReport.Lib.Machine

/-!
# The sampled pages of a PDF

The pages a policy samples are put together by pushing pages that are not there yet: the first two,
the last, pages spread in between, and then the first pages that are missing.

* `Sample.foldl_push`, `Sample.foldl_fill` : the loops keep the pages distinct and inside;
* `pdfSamplePages_wellFormed` : **the sample has as many pages as it may have, all of them distinct
  and inside the document**, and none of its operations overflows.
-/

namespace DailyReport

open Lib

/-! ### Pushing pages -/

/-- A sample of at most `count` pages of a document. -/
structure Sample (count pageCount : ℕ) (pages : List ℕ) : Prop where
  nodup : pages.Nodup
  inside : ∀ page ∈ pages, 1 ≤ page ∧ page ≤ pageCount
  length_le : pages.length ≤ count

variable {count pageCount maxPages : ℕ} {pages : List ℕ}

theorem prefix_pushPage (pages : List ℕ) (page : ℕ) : pages <+: pushPage pages page := by
  unfold pushPage
  split_ifs
  · exact List.prefix_rfl
  · exact List.prefix_append pages [page]

theorem mem_pushPage {pages : List ℕ} {page other : ℕ} :
    other ∈ pushPage pages page ↔ other ∈ pages ∨ other = page := by
  unfold pushPage
  split_ifs with hmem
  · exact ⟨Or.inl, fun h => h.elim id fun heq => heq ▸ hmem⟩
  · rw [List.mem_append, List.mem_singleton]

theorem length_pushPage_le (pages : List ℕ) (page : ℕ) :
    (pushPage pages page).length ≤ pages.length + 1 := by
  unfold pushPage
  split_ifs
  · exact Nat.le_succ _
  · rw [List.length_append, List.length_singleton]

theorem nodup_pushPage (h : pages.Nodup) (page : ℕ) : (pushPage pages page).Nodup := by
  unfold pushPage
  split_ifs with hmem
  · exact h
  · rw [← List.concat_eq_append]
    exact h.concat hmem

/-- A page inside the document is pushed where a page is still wanted. -/
theorem Sample.push (h : Sample count pageCount pages) {page : ℕ} (hpage : 1 ≤ page ∧ page ≤ pageCount)
    (hlength : pages.length < count) : Sample count pageCount (pushPage pages page) where
  nodup := nodup_pushPage h.nodup page
  inside other hother := by
    rcases mem_pushPage.1 hother with hother | rfl
    · exact h.inside other hother
    · exact hpage
  length_le := (length_pushPage_le pages page).trans hlength

/-! ### The loops -/

/-- Pushing one page for each item, with a page to spare for every item. -/
theorem Sample.foldl_push (f : ℕ → ℕ) (items : List ℕ) (h : Sample count pageCount pages)
    (hf : ∀ item ∈ items, 1 ≤ f item ∧ f item ≤ pageCount)
    (hlength : pages.length + items.length ≤ count) :
    Sample count pageCount (items.foldl (fun pages item => pushPage pages (f item)) pages) ∧
      pages <+: items.foldl (fun pages item => pushPage pages (f item)) pages := by
  induction items generalizing pages with
  | nil => exact ⟨h, List.prefix_rfl⟩
  | cons item items ih =>
    rw [List.length_cons] at hlength
    have hpush := h.push (hf item List.mem_cons_self) (by omega)
    have hnext := length_pushPage_le pages (f item)
    obtain ⟨hsample, hstart⟩ :=
      ih hpush (fun other hother => hf other (List.mem_cons_of_mem _ hother)) (by omega)
    exact ⟨hsample, (prefix_pushPage pages (f item)).trans hstart⟩

/-- One step of the loop that fills a sample up. -/
def fillPage (count : ℕ) (pages : List ℕ) (page : ℕ) : List ℕ :=
  if pages.length = count then pages else pushPage pages page

theorem Sample.fill (h : Sample count pageCount pages) {page : ℕ}
    (hpage : 1 ≤ page ∧ page ≤ pageCount) : Sample count pageCount (fillPage count pages page) := by
  unfold fillPage
  split_ifs with hlength
  · exact h
  · exact h.push hpage (lt_of_le_of_ne h.length_le hlength)

theorem prefix_fillPage (count : ℕ) (pages : List ℕ) (page : ℕ) :
    pages <+: fillPage count pages page := by
  unfold fillPage
  split_ifs
  · exact List.prefix_rfl
  · exact prefix_pushPage pages page

/-- **A sample is filled up**, or holds every page that was offered. -/
theorem Sample.foldl_fill (items : List ℕ) (h : Sample count pageCount pages)
    (hitems : ∀ page ∈ items, 1 ≤ page ∧ page ≤ pageCount) :
    Sample count pageCount (items.foldl (fillPage count) pages) ∧
      pages <+: items.foldl (fillPage count) pages ∧
      ((items.foldl (fillPage count) pages).length = count ∨
        items ⊆ items.foldl (fillPage count) pages) := by
  induction items generalizing pages with
  | nil => exact ⟨h, List.prefix_rfl, .inr (List.nil_subset _)⟩
  | cons page items ih =>
    obtain ⟨hsample, hstart, hfull⟩ := ih (h.fill (hitems page List.mem_cons_self))
      fun other hother => hitems other (List.mem_cons_of_mem _ hother)
    refine ⟨hsample, (prefix_fillPage count pages page).trans hstart, ?_⟩
    rcases hfull with hfull | hall
    · exact .inl hfull
    by_cases hlength : pages.length = count
    · -- A full sample stays as it is, and its length is between the two bounds.
      exact .inl (le_antisymm hsample.length_le
        (hlength ▸ ((prefix_fillPage count pages page).trans hstart).length_le))
    · refine .inr (List.cons_subset.2 ⟨hstart.subset ?_, hall⟩)
      rw [fillPage, if_neg hlength]
      exact mem_pushPage.2 (.inr rfl)

/-- A sample that holds every page of a document has as many pages as the document. -/
theorem Sample.length_eq_of_all (h : Sample count pageCount pages) (hcount : count ≤ pageCount)
    (hall : List.range' 1 pageCount ⊆ pages) : pages.length = count := by
  have hle := (List.nodup_range' (s := 1) (n := pageCount)).length_le_of_subset hall
  rw [List.length_range'] at hle
  exact le_antisymm h.length_le (hcount.trans hle)

/-! ### The operations of the machine -/

/-- The spread of the remaining pages, with every operation on 64-bit integers checked. -/
def spreadPage (pageCount remaining i : ℕ) : Option ℕ := do
  let last ← checkedSub pageCount 1
  let product ← checkedMul last i
  let parts ← checkedAdd remaining 1
  let offset ← checkedDiv product parts
  checkedAdd 1 offset

def pdfTextPresenceV2 : Text := lit "pdf_text_presence_v2"

/-- The first pages of a sample: the first two of the document and its last one. -/
def firstPages (pageCount count : ℕ) : List ℕ :=
  if (List.range' 1 (min count 2)).length < count then
    pushPage (List.range' 1 (min count 2)) pageCount
  else List.range' 1 (min count 2)

/-- One step of the loop that spreads pages, with its operations checked. -/
def pushSpread (pageCount remaining : ℕ) (pages : List ℕ) (i : ℕ) : Option (List ℕ) :=
  (spreadPage pageCount remaining i).map (pushPage pages)

/-- `pdfSamplePages` under the second policy, with every operation checked. -/
def samplePagesChecked (pageCount maxPages : ℕ) : Option (List ℕ) :=
  let count := min pageCount maxPages
  if count = 0 then some []
  else do
    let remaining ← checkedSub count (firstPages pageCount count).length
    let pages ← (List.range' 1 remaining).foldlM (pushSpread pageCount remaining)
      (firstPages pageCount count)
    return (List.range' 1 pageCount).foldl (fillPage count) pages

/-- The page that is the `i`-th of those spread in between. -/
def spread (pageCount remaining i : ℕ) : ℕ := 1 + (pageCount - 1) * i / (remaining + 1)

theorem pdfSamplePages_v2 (hcount : min pageCount maxPages ≠ 0) :
    pdfSamplePages pageCount maxPages pdfTextPresenceV2 =
      (List.range' 1 pageCount).foldl (fillPage (min pageCount maxPages))
        ((List.range' 1 (min pageCount maxPages -
            (firstPages pageCount (min pageCount maxPages)).length)).foldl
          (fun pages i => pushPage pages (spread pageCount (min pageCount maxPages -
            (firstPages pageCount (min pageCount maxPages)).length) i))
          (firstPages pageCount (min pageCount maxPages))) := by
  have hpolicy : pdfTextPresenceV2 ≠ lit "pdf_text_presence_v1" := by decide +kernel
  rw [pdfSamplePages, if_neg hcount, if_neg hpolicy]
  rfl

/-- The pages in between are inside the document. -/
theorem spread_inside (hpages : 1 ≤ pageCount) {remaining i : ℕ} (hi : i ≤ remaining) :
    1 ≤ spread pageCount remaining i ∧ spread pageCount remaining i ≤ pageCount := by
  refine ⟨Nat.le_add_right 1 _, ?_⟩
  have hdiv : (pageCount - 1) * i / (remaining + 1) ≤ pageCount - 1 := by
    refine Nat.div_le_of_le_mul ?_
    rw [Nat.mul_comm (remaining + 1)]
    exact Nat.mul_le_mul_left _ (hi.trans (Nat.le_succ _))
  unfold spread
  omega

/-- The machine computes the same page: the product of two numbers of 32 bits is one of 64. -/
theorem spreadPage_eq_some (hpages : 1 ≤ pageCount) (hbound : pageCount < 2 ^ 32) {remaining i : ℕ}
    (hi : i ≤ remaining) (hremaining : remaining ≤ pageCount) :
    spreadPage pageCount remaining i = some (spread pageCount remaining i) := by
  have hproduct : (pageCount - 1) * i ≤ u64Max :=
    calc (pageCount - 1) * i ≤ (2 ^ 32 - 1) * (2 ^ 32 - 1) :=
          Nat.mul_le_mul (by omega) (by omega)
      _ ≤ u64Max := by decide
  have hparts : remaining + 1 ≤ u64Max := by
    have : (2 : ℕ) ^ 32 < u64Max := by decide
    omega
  have hpage : spread pageCount remaining i ≤ u64Max :=
    (spread_inside hpages hi).2.trans (hbound.le.trans (by decide))
  unfold spread at hpage
  simp only [spreadPage, checkedSub_of_le hpages, checkedMul_of_le hproduct,
    checkedAdd_of_le hparts, checkedDiv_of_pos (Nat.succ_pos remaining), Option.bind_eq_bind,
    Option.bind_some]
  exact checkedAdd_of_le hpage

/-- A loop in which no step fails is the loop without checks. -/
theorem foldlM_pushSpread {remaining : ℕ} {g : ℕ → ℕ} (items pages : List ℕ)
    (h : ∀ item ∈ items, spreadPage pageCount remaining item = some (g item)) :
    items.foldlM (pushSpread pageCount remaining) pages =
      some (items.foldl (fun pages item => pushPage pages (g item)) pages) := by
  induction items generalizing pages with
  | nil => rfl
  | cons item items ih =>
    rw [List.foldlM_cons, pushSpread, h item List.mem_cons_self]
    exact ih _ fun other hother => h other (List.mem_cons_of_mem _ hother)

/-! ### The sample -/

theorem firstPages_two (pageCount : ℕ) (h : count ≤ 2) :
    firstPages pageCount count = List.range' 1 count := by
  rw [firstPages, List.length_range', min_eq_left h, if_neg (lt_irrefl _)]

theorem firstPages_more (h : 2 < count) (hpages : count ≤ pageCount) :
    firstPages pageCount count = [1, 2, pageCount] := by
  have hnew : pageCount ∉ [1, 2] := by
    simp only [List.mem_cons, List.not_mem_nil, or_false, not_or]
    omega
  rw [firstPages, min_eq_right h.le, if_pos (by rw [List.length_range']; exact h)]
  exact if_neg hnew

theorem sample_firstPages (hpages : count ≤ pageCount) :
    Sample count pageCount (firstPages pageCount count) := by
  rcases Nat.lt_or_ge 2 count with hmore | htwo
  · rw [firstPages_more hmore hpages]
    refine ⟨?_, ?_, hmore⟩
    · simp only [List.nodup_cons, List.mem_cons, List.not_mem_nil, or_false]
      exact ⟨by omega, by omega, fun h => h, List.nodup_nil⟩
    · simp only [List.mem_cons, List.not_mem_nil, or_false]
      omega
  · rw [firstPages_two pageCount htwo]
    refine ⟨List.nodup_range', fun page hpage => ?_, (List.length_range').le⟩
    have := List.mem_range'_1.1 hpage
    omega

theorem getElem?_of_prefix {l l' : List ℕ} (h : l <+: l') {i page : ℕ} (hi : l[i]? = some page) :
    l'[i]? = some page := by
  obtain ⟨rest, rfl⟩ := h
  rw [List.getElem?_append_left (List.getElem?_eq_some_iff.1 hi).1, hi]

/-- What the sample is made of: the first pages, more pages, and as many as there may be. -/
theorem pdfSamplePages_spec (pageCount maxPages : ℕ) :
    Sample (min pageCount maxPages) pageCount (pdfSamplePages pageCount maxPages pdfTextPresenceV2) ∧
      (pdfSamplePages pageCount maxPages pdfTextPresenceV2).length = min pageCount maxPages ∧
      firstPages pageCount (min pageCount maxPages) <+:
        pdfSamplePages pageCount maxPages pdfTextPresenceV2 := by
  have hle : min pageCount maxPages ≤ pageCount := min_le_left _ _
  by_cases hcount : min pageCount maxPages = 0
  · rw [pdfSamplePages, if_pos hcount, hcount, firstPages_two pageCount (Nat.zero_le _)]
    exact ⟨⟨List.nodup_nil, fun _ h => absurd h List.not_mem_nil, le_rfl⟩, rfl, List.prefix_rfl⟩
  rw [pdfSamplePages_v2 hcount]
  set count := min pageCount maxPages
  have hfirst := sample_firstPages hle
  obtain ⟨hspread, hkept⟩ := hfirst.foldl_push (spread pageCount (count -
      (firstPages pageCount count).length)) (List.range' 1 (count - (firstPages pageCount count).length))
    (fun i hi => spread_inside (by omega) (by have := List.mem_range'_1.1 hi; omega))
    (by rw [List.length_range']; have := hfirst.length_le; omega)
  obtain ⟨hsample, hstart, hfull⟩ := hspread.foldl_fill (List.range' 1 pageCount) fun page hpage => by
    have := List.mem_range'_1.1 hpage
    omega
  exact ⟨hsample, hfull.elim id (hsample.length_eq_of_all hle), hkept.trans hstart⟩

/-- No operation overflows. -/
theorem samplePagesChecked_eq (maxPages : ℕ) (hbound : pageCount < 2 ^ 32) :
    samplePagesChecked pageCount maxPages =
      some (pdfSamplePages pageCount maxPages pdfTextPresenceV2) := by
  by_cases hcount : min pageCount maxPages = 0
  · rw [samplePagesChecked, pdfSamplePages, if_pos hcount, if_pos hcount]
  have hle : min pageCount maxPages ≤ pageCount := min_le_left _ _
  rw [samplePagesChecked, if_neg hcount, pdfSamplePages_v2 hcount,
    checkedSub_of_le (sample_firstPages hle).length_le, Option.bind_eq_bind, Option.bind_some,
    foldlM_pushSpread]
  · rfl
  · intro i hi
    have := List.mem_range'_1.1 hi
    exact spreadPage_eq_some (by omega) hbound (by omega) (by omega)

/-- **The sampled pages are well formed.** -/
theorem pdfSamplePages_wellFormed (pageCount maxPages : ℕ) (hbound : pageCount < 2 ^ 32) :
    (pdfSamplePages pageCount maxPages pdfTextPresenceV2).length = min pageCount maxPages ∧
      (∀ page ∈ pdfSamplePages pageCount maxPages pdfTextPresenceV2, 1 ≤ page ∧ page ≤ pageCount) ∧
      (∀ n, ((pdfSamplePages pageCount maxPages pdfTextPresenceV2).take n).Nodup) ∧
      (pdfSamplePages pageCount maxPages pdfTextPresenceV2 ≠ [] →
        (pdfSamplePages pageCount maxPages pdfTextPresenceV2)[0]? = some 1) ∧
      (3 ≤ (pdfSamplePages pageCount maxPages pdfTextPresenceV2).length →
        (pdfSamplePages pageCount maxPages pdfTextPresenceV2)[2]? = some pageCount) ∧
      samplePagesChecked pageCount maxPages =
        some (pdfSamplePages pageCount maxPages pdfTextPresenceV2) := by
  obtain ⟨hsample, hlength, hstart⟩ := pdfSamplePages_spec pageCount maxPages
  have hle : min pageCount maxPages ≤ pageCount := min_le_left _ _
  refine ⟨hlength, hsample.inside, fun n => hsample.nodup.sublist (List.take_sublist n _), fun hne => ?_,
    fun hthree => ?_, samplePagesChecked_eq maxPages hbound⟩
  · have hpos : 0 < min pageCount maxPages := hlength ▸ List.length_pos_iff.2 hne
    have hhead : (firstPages pageCount (min pageCount maxPages))[0]? = some 1 := by
      rcases Nat.lt_or_ge 2 (min pageCount maxPages) with hmore | htwo
      · rw [firstPages_more hmore hle]
        rfl
      · rw [firstPages_two pageCount htwo]
        exact List.getElem?_range' hpos
    exact getElem?_of_prefix hstart hhead
  · rw [hlength] at hthree
    rw [firstPages_more hthree hle] at hstart
    exact getElem?_of_prefix hstart rfl

/-- The sample of a long document. -/
theorem pdfSamplePages_wellFormed_hundred :
    (pdfSamplePages 100 5 pdfTextPresenceV2).length = 5 ∧
      (pdfSamplePages 100 5 pdfTextPresenceV2)[2]? = some 100 := by
  have h := pdfSamplePages_wellFormed 100 5 (by decide)
  exact ⟨h.1, h.2.2.2.2.1 (by rw [h.1]; decide)⟩

end DailyReport
