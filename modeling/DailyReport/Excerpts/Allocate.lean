import DailyReport.Excerpts.Blocks
import DailyReport.Lib.RoundRobin

/-!
# The allocation of the excerpts

All files share one budget of characters.  Every round offers each file its next block, without
the headings that its excerpt ends with anyway; a block is taken when its characters fit the budget
and its pieces fit the excerpt (`askBlock`).  The first round goes over the files by extension,
later ones by the priority of the blocks, the preferred files first (`roundOrder`).  In the end
every excerpt is put together from its pieces with a new audit (`assemble`).

* `Share.Fits` : what a file has is a function of the number of its blocks that it has been given;
* `askBlock_eq_some` : **what a request for a block says**, and that it keeps to the share.
-/

namespace DailyReport.Excerpts

open Lib

structure AllocatedExcerpt where
  text : Text
  audit : Option ParsedContentAudit
  ranges : Option (List SourceRange)
  truncated : Bool
  deriving DecidableEq

/-- Pieces of an excerpt. -/
def pieceCap : ℕ := 512

/-- Where the last section of some pieces begins. -/
def contextStart (pieces : List Piece) : ℕ :=
  match pieces.reverse.findIdx? (fun p => p.kind == .heading) with
  | some back => pieces.length - 1 - back
  | none => 0

/-- The headings and headers of the last section of some pieces. -/
def structuralContext (pieces : List Piece) : List Piece :=
  (pieces.drop (contextStart pieces)).filter fun p => !useful p.kind && p.kind != .placeholder

/-- What a file has been given. -/
structure Share where
  position : ℕ
  selected : List Piece
  size : ℕ
  deriving DecidableEq

/-- Nothing has been given yet. -/
def Share.empty : Share := ⟨0, [], 0⟩

/-- The pieces that a block has before its first useful one. -/
def leading (block : List Piece) : ℕ := (block.takeWhile fun p => !useful p.kind).length

/-- The block behind some pieces, without its leading pieces where these have the same context. -/
def trimContext (selected block : List Piece) : List Piece :=
  block.drop
    (if structuralContext selected = structuralContext (block.take (leading block)) then
      leading block
    else 0)

/-- Characters that a block adds to an excerpt, with its separators. -/
def blockSize (share : Share) (block : List Piece) : ℕ :=
  (block.map fun p => countChars p.text).sum + (block.length - 1) +
    (decide (share.size > 0)).toNat

/-- The next block of a file: its characters, and what the file has with it.  A file without a
block, or with more pieces than the cap allows, asks for nothing. -/
def askBlock (units : List (List Piece)) (share : Share) : Option (ℕ × Share) :=
  match units[share.position]? with
  | none => none
  | some block =>
    let block := trimContext share.selected block
    let size := blockSize share block
    if share.selected.length + block.length ≤ pieceCap then
      some (size, ⟨share.position + 1, share.selected ++ block, share.size + size⟩)
    else none

/-! ### The order of the rounds -/

section Order

variable {ι : Type}

/-- The key by which the files of an extension are sorted. -/
def fileKey (file : ContextFileEvidence × ι) : Text ×ₗ Text :=
  toLex (file.1.relativePath, file.1.fileIdentity)

/-- The files that have a block. -/
def withBlocks (files : List (ContextFileEvidence × ι)) : List (ContextFileEvidence × ι) :=
  files.filter fun file => !(bundles file.1).isEmpty

/-- The files with a block by extension, each group in the order of its keys. -/
def groups (files : List (ContextFileEvidence × ι)) : List (List (ContextFileEvidence × ι)) :=
  (sortByKey id ((withBlocks files).map fun file => file.1.extension).dedup).map fun extension =>
    sortByKey fileKey ((withBlocks files).filter fun file => file.1.extension = extension)

/-- The first file of every group, then the second ones, and so on. -/
def firstOrder (files : List (ContextFileEvidence × ι)) : List (ContextFileEvidence × ι) :=
  (List.range (((groups files).map List.length).foldl max 0)).flatMap fun round =>
    (groups files).filterMap fun group => group[round]?

/-- The order of a round: later rounds go by the rank of the next block. -/
def roundOrder (order : List ι) (preferred : ι → Bool) (rank : ι → Share → ℕ)
    (first preferring : Bool) (shares : ι → Share) : List ι :=
  if first then order
  else sortByKey (fun i => rank i (shares i))
    (if preferring then order.filter preferred else order)

end Order

/-- The rank of the next block of a file; a file without one comes last. -/
def nextRank (units : List (List Piece)) (share : Share) : ℕ :=
  match units[share.position]? with
  | some block => priority block
  | none => 255

/-- The file is preferred.  The paths are sorted, so the binary search finds exactly these. -/
def preferredPath (priorityPaths : List Text) (item : ContextFileEvidence) : Bool :=
  priorityPaths.contains (replaceChar '\\' '/' item.relativePath)

/-- More rounds than the files have blocks for. -/
def roundLimit {ι : Type} (files : List (ContextFileEvidence × ι)) : ℕ :=
  (files.map fun file => (bundles file.1).length).sum + 2

/-- Run the rounds over files that go by the names `ι`. -/
def runRounds {ι : Type} [DecidableEq ι] (files : List (ContextFileEvidence × ι))
    (units : ι → List (List Piece)) (preferred : ι → Bool) (budget : ℕ) :
    Option (Pool ι Share) :=
  rounds (fun i => askBlock (units i))
    (roundOrder ((firstOrder files).map Prod.snd) preferred fun i => nextRank (units i))
    (roundLimit files) true (files.any fun file => preferred file.2) ⟨fun _ => .empty, budget⟩

/-! ### Putting an excerpt together -/

/-- An excerpt while it is put together. -/
structure Assembly where
  text : Text
  chars : ℕ
  mapped : List ContentUnit
  ranges : List SourceRange
  usable : ℕ
  deriving DecidableEq

def Assembly.initial : Assembly := ⟨[], 0, [], [], 0⟩

/-- Collect a range once. -/
def addRange (ranges : List SourceRange) (range : SourceRange) : List SourceRange :=
  if range ∈ ranges then ranges else ranges ++ [range]

/-- Append a piece on a line of its own. -/
def Assembly.add (a : Assembly) (piece : Piece) : Assembly :=
  let text := if a.text = [] then [] else a.text ++ ['\n']
  let start := if a.text = [] then a.chars else a.chars + 1
  let chars := start + countChars piece.text
  { text := text ++ piece.text
    chars := chars
    usable := if useful piece.kind then a.usable + (chars - start) else a.usable
    ranges := piece.ranges.foldl addRange a.ranges
    mapped := a.mapped ++
      [⟨lit "e" ++ decimal (a.mapped.length + 1), piece.kind, start, chars, piece.ranges⟩] }

/-- The pieces of an excerpt, put together. -/
def assembly (selected : List Piece) : Assembly := selected.foldl Assembly.add .initial

/-- The audit of an excerpt: its own units, where the content has units, and its useful
characters. -/
def excerptAudit (item : ContextFileEvidence) (a : Assembly) : Option ParsedContentAudit :=
  item.evidenceAudit.map fun audit =>
    { audit with
      contentUnits := audit.contentUnits.map fun _ => a.mapped
      usableChars := some a.usable }

/-- The excerpt of a file. -/
def assemble (item : ContextFileEvidence) (share : Share) : AllocatedExcerpt where
  text := (assembly share.selected).text
  audit := excerptAudit item (assembly share.selected)
  ranges :=
    if item.evidenceAudit.any fun audit => audit.contentUnits.isSome then
      some (assembly share.selected).ranges
    else none
  truncated := share.position != (bundles item).length ||
    decide (countChars (assembly share.selected).text < countChars item.content)

/-- The excerpts of some files that share a budget; `none` if the rounds did not end. -/
def allocateExcerptsWithPriority (evidence : List ContextFileEvidence) (budget : ℕ)
    (priorityPaths : List Text) : Option (List AllocatedExcerpt) :=
  let units := evidence.map bundles
  (runRounds evidence.zipIdx (fun i => units.getD i [])
    (fun i => evidence[i]?.any (preferredPath priorityPaths)) budget).map fun pool =>
      evidence.zipIdx.map fun file => assemble file.1 (pool.share file.2)

def allocateExcerpts (evidence : List ContextFileEvidence) (budget : ℕ) :
    Option (List AllocatedExcerpt) :=
  allocateExcerptsWithPriority evidence budget []

/-! ### What a file is given -/

/-- The pieces of the first `k` blocks of a file. -/
def taken (units : List (List Piece)) : ℕ → List Piece
  | 0 => []
  | k + 1 =>
    match units[k]? with
    | some block => taken units k ++ trimContext (taken units k) block
    | none => taken units k

/-- Characters of some pieces, line by line. -/
def linesLength (pieces : List Piece) : ℕ :=
  (pieces.map fun p => countChars p.text).sum + (pieces.length - 1)

/-- Every block has a useful piece, and no piece is empty. -/
structure GoodUnits (units : List (List Piece)) : Prop where
  useful : ∀ block ∈ units, ∃ p ∈ block, useful p.kind = true
  text : ∀ block ∈ units, ∀ p ∈ block, p.text ≠ []

theorem goodUnits_bundles (item : ContextFileEvidence) : GoodUnits (bundles item) where
  useful _ hblock := (mem_bundles hblock).1
  text _ hblock p hp := text_ne_nil ((mem_bundles hblock).2 p hp)

theorem leading_lt {block : List Piece} (h : ∃ p ∈ block, useful p.kind = true) :
    leading block < block.length := by
  refine lt_of_le_of_ne (List.takeWhile_prefix _).length_le fun heq => ?_
  obtain ⟨p, hp, huseful⟩ := h
  have hall := (List.takeWhile_prefix fun p : Piece => !useful p.kind).eq_of_length heq
  rw [← hall] at hp
  have := List.mem_takeWhile_imp hp
  simp [huseful] at this

theorem trimContext_ne_nil (selected : List Piece) {block : List Piece}
    (h : ∃ p ∈ block, useful p.kind = true) : trimContext selected block ≠ [] := by
  have hlt := leading_lt h
  unfold trimContext
  rw [Ne, List.drop_eq_nil_iff]
  split_ifs <;> omega

theorem trimContext_subset (selected block : List Piece) :
    trimContext selected block ⊆ block := List.drop_subset _ _

theorem mem_taken {units : List (List Piece)} {k : ℕ} {p : Piece} (h : p ∈ taken units k) :
    ∃ block ∈ units, p ∈ block := by
  induction k with
  | zero => simp [taken] at h
  | succ k ih =>
    unfold taken at h
    split at h
    next block hblock =>
      rcases List.mem_append.1 h with h | h
      · exact ih h
      · exact ⟨block, List.mem_of_getElem? hblock, trimContext_subset _ _ h⟩
    next => exact ih h

theorem taken_mono (units : List (List Piece)) {j k : ℕ} (h : j ≤ k) :
    taken units j <+: taken units k := by
  induction k with
  | zero =>
    rw [Nat.le_zero.1 h]
  | succ k ih =>
    rcases Nat.lt_or_eq_of_le h with h | rfl
    · refine (ih (Nat.le_of_lt_succ h)).trans ?_
      conv_rhs => unfold taken
      split
      · exact List.prefix_append _ _
      · exact List.prefix_refl _
    · exact List.prefix_refl _

/-- What a share is, given the number of its blocks. -/
structure Share.Fits (units : List (List Piece)) (share : Share) : Prop where
  position : share.position ≤ units.length
  selected : share.selected = taken units share.position
  size : share.size = linesLength share.selected
  cap : share.selected.length ≤ pieceCap

theorem Share.fits_empty (units : List (List Piece)) : Share.empty.Fits units := by
  constructor <;> simp [Share.empty, taken, linesLength]

theorem linesLength_pos {pieces : List Piece} (hne : pieces ≠ [])
    (htext : ∀ p ∈ pieces, p.text ≠ []) : 0 < linesLength pieces := by
  cases pieces with
  | nil => exact absurd rfl hne
  | cons p pieces =>
    have hp : 0 < p.text.length := List.length_pos_iff.2 (htext p (by simp))
    simp only [linesLength, List.map_cons, List.sum_cons, countChars]
    omega

theorem linesLength_append {l l' : List Piece} (hne : l' ≠ []) :
    linesLength (l ++ l') = linesLength l + linesLength l' + (!l.isEmpty).toNat := by
  have hpos : 0 < l'.length := List.length_pos_iff.2 hne
  cases l with
  | nil => simp [linesLength]
  | cons p l =>
    simp only [linesLength, List.map_append, List.sum_append, List.length_append,
      List.length_cons, List.isEmpty_cons, Bool.not_false, Bool.toNat_true]
    omega

/-- **What a request for a block says**: the next block, its pieces within the cap, and its
characters. -/
theorem askBlock_eq_some {units : List (List Piece)} (hunits : GoodUnits units) {share share' : Share}
    {cost : ℕ} (hfits : share.Fits units) (h : askBlock units share = some (cost, share')) :
    share.position < units.length ∧ share'.position = share.position + 1 ∧
      share'.Fits units ∧ share'.size = share.size + cost ∧ 0 < cost := by
  unfold askBlock at h
  split at h
  · cases h
  next block hblock =>
    dsimp only at h
    split_ifs at h with hcap
    simp only [Option.some.injEq, Prod.mk.injEq] at h
    obtain ⟨rfl, rfl⟩ := h
    have hmem := List.mem_of_getElem? hblock
    have hlt : share.position < units.length := (List.getElem?_eq_some_iff.1 hblock).1
    have hne := trimContext_ne_nil share.selected (hunits.useful block hmem)
    have htext : ∀ p ∈ trimContext share.selected block, p.text ≠ [] := fun p hp =>
      hunits.text block hmem p (trimContext_subset _ _ hp)
    have hpos := linesLength_pos hne htext
    have hsep : (decide (share.size > 0)) = !share.selected.isEmpty := by
      rw [hfits.size]
      cases hsel : share.selected with
      | nil => simp [linesLength]
      | cons p l =>
        have hall : ∀ q ∈ p :: l, q.text ≠ [] := fun q hq => by
          rw [← hsel, hfits.selected] at hq
          obtain ⟨b, hb, hqb⟩ := mem_taken hq
          exact hunits.text b hb q hqb
        simpa using linesLength_pos (List.cons_ne_nil p l) hall
    have hcost : blockSize share (trimContext share.selected block) =
        linesLength (trimContext share.selected block) + (!share.selected.isEmpty).toNat := by
      rw [blockSize, hsep, linesLength]
    refine ⟨hlt, rfl, ⟨hlt, ?_, ?_, ?_⟩, rfl, by rw [hcost]; omega⟩
    · simp only [taken, hblock, hfits.selected]
    · simp only [linesLength_append hne, hcost, hfits.size]
      omega
    · simpa using hcap

/-- A file asks for nothing when it has all its blocks, or when the next one has too many pieces. -/
theorem askBlock_eq_none {units : List (List Piece)} {share : Share}
    (h : askBlock units share = none) :
    units.length ≤ share.position ∨ ∃ block, units[share.position]? = some block ∧
      pieceCap < share.selected.length + (trimContext share.selected block).length := by
  unfold askBlock at h
  split at h
  next hnone => exact Or.inl (List.getElem?_eq_none_iff.1 hnone)
  next block hblock =>
    dsimp only at h
    split_ifs at h with hcap
    exact Or.inr ⟨block, hblock, Nat.lt_of_not_le hcap⟩

end DailyReport.Excerpts
