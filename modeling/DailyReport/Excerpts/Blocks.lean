import DailyReport.Excerpts.Pieces
import DailyReport.Lib.Sort
import Mathlib.Data.Prod.Lex

/-!
# The blocks of a parsed text

Pieces that belong together form blocks, which an excerpt takes or leaves as a whole: a block ends
at a heading, when it is long enough, or where the priority of its content changes, and a block
that begins inside a section repeats the headings and headers above it (`bundles`).  The first
block stays in front; the others follow by priority.

* `bundles_perm` : the blocks are put in another order only;
* `mem_bundles` : **every block has a useful piece, and all its pieces are pieces of the content**.
-/

namespace DailyReport.Excerpts

open Lib

/-! ### Priorities -/

def qualifiers : List Text :=
  [lit "不得", lit "不能", lit "不代表", lit "不等于", lit "不说明", lit "未经", lit "未确认",
   lit "待确认", lit "例外", lit "除外", lit "无效", lit "必须", lit "断言", lit "为空", lit "两行",
   lit "不可", lit "不再", lit "相对", lit "基准", lit "并行", lit "二选一", lit "都要",
   lit "assert", lit "must not", lit "does not prove", lit "unconfirmed", lit "exception"]

def markers : List Text :=
  [lit "#REF!", lit "#VALUE!", lit "#DIV/0!", lit "累计", lit "超过", lit "阈值", lit "合计",
   lit "总计", lit "统计", lit "生成时间", lit "成立日期", lit "成立时间", lit "社会信用代码",
   lit "编制单位", lit "报告时间", lit "实测", lit "共", lit "数量", lit "测试", lit "覆盖",
   lit "节点", lit "档位", lit "金额档", lit "通过", lit "失败", lit "例外", lit "除外", lit "不得",
   lit "threshold", lit ">=", lit "<=", lit "≥", lit "≤", lit "subtotal", lit "total",
   lit "count", lit "passed", lit "failed"]

/-- The text has an ASCII digit. -/
def hasDigit (t : Text) : Bool := t.any Char.isDigit

/-- The priority of some pieces, from totals (0) down to plain text (4). -/
def priority (pieces : List Piece) : ℕ :=
  if pieces.any fun p => p.kind == .total then 0
  else if pieces.any fun p => p.kind == .tableRow && hasDigit p.text then 1
  else if pieces.any fun p => hasDigit p.text && markers.any (containsText p.text) then 1
  else if pieces.any fun p => qualifiers.any (containsText p.text) then 2
  else if pieces.any fun p => p.kind == .tableRow then 3
  else if pieces.any fun p => useful p.kind && hasDigit p.text then 3
  else 4

/-! ### Building the blocks -/

/-- A block with its rank and the position at which it was built. -/
structure Block where
  rank : ℕ
  position : ℕ
  pieces : List Piece
  deriving DecidableEq

/-- The state while blocks are built. -/
structure BundleState where
  blocks : List Block
  context : List Piece
  current : List Piece
  size : ℕ
  sectionFirst : Bool
  currentFirst : Bool
  hasUseful : Bool

/-- Nothing has been read yet. -/
def BundleState.initial : BundleState where
  blocks := []
  context := []
  current := []
  size := 0
  sectionFirst := true
  currentFirst := true
  hasUseful := false

/-- The rank of the block under construction; the first one of a section is kept from the end. -/
def BundleState.rank (st : BundleState) : ℕ :=
  if st.currentFirst then min (priority st.current) 3 else priority st.current

/-- Finish the block under construction. -/
def BundleState.flush (st : BundleState) : BundleState :=
  { st with
    blocks := st.blocks ++ [⟨st.rank, st.blocks.length, st.current⟩]
    current := []
    size := 0
    hasUseful := false }

/-- The piece does not belong to the block under construction. -/
def BundleState.ends (st : BundleState) (piece : Piece) : Bool :=
  let cost := countChars piece.text + (!st.current.isEmpty).toNat
  let target := if st.blocks.isEmpty then firstTarget else roundTarget
  let currentRank := priority st.current
  let incomingRank :=
    if useful piece.kind then priority (st.context ++ [piece]) else priority [piece]
  let changesPriority := useful piece.kind && currentRank != incomingRank &&
    (decide (currentRank ≤ 2) || decide (incomingRank ≤ 2))
  st.hasUseful &&
    (piece.kind == .heading || decide (st.size + cost > target) || changesPriority)

/-- Keep track of the headings and headers above the content. -/
def BundleState.enter (st : BundleState) (piece : Piece) : BundleState :=
  let st := if piece.kind = .heading then { st with context := [], sectionFirst := true } else st
  if !useful piece.kind && piece.kind != .placeholder then
    { st with context := st.context ++ [piece] }
  else st

/-- Add a piece to the block under construction. -/
def BundleState.push (st : BundleState) (piece : Piece) : BundleState :=
  { st with
    size := st.size + (countChars piece.text + (!st.current.isEmpty).toNat)
    hasUseful := st.hasUseful || useful piece.kind
    sectionFirst := st.sectionFirst && !useful piece.kind
    current := st.current ++ [piece] }

/-- Characters of the context, with its separators. -/
def contextChars (context : List Piece) : ℕ :=
  (context.map fun p => countChars p.text + 1).sum

/-- Add a piece, where a useful piece that begins a block brings its context along; it is left out
when the context is too long to be repeated. -/
def BundleState.place (st : BundleState) (piece : Piece) : BundleState :=
  if st.current = [] then
    let st := { st with currentFirst := st.sectionFirst }
    if useful piece.kind then
      if contextChars st.context ≤ roundTarget then
        { st with current := st.context, size := contextChars st.context }.push piece
      else st
    else st.push piece
  else st.push piece

/-- Read one piece. -/
def BundleState.read (st : BundleState) (piece : Piece) : BundleState :=
  let st := if st.ends piece then st.flush else st
  (st.enter piece).place piece

/-- The blocks of some pieces, in the order of the content. -/
def blocksOf (pieces : List Piece) : List Block :=
  let st := pieces.foldl BundleState.read .initial
  if st.hasUseful then st.flush.blocks else st.blocks

/-- Take from two lists in turn, while either has something left. -/
def interleave {α : Type} : List α → List α → List α
  | [], l => l
  | a :: l, [] => a :: l
  | a :: l, b :: l' => a :: b :: interleave l l'

/-- Put the blocks behind the first one in the order of their priority: totals, then numbers and
qualifications in turn, then the rest. -/
def arrange : List Block → List Block
  | [] => []
  | first :: rest =>
    let remaining := sortByKey (fun block : Block => toLex (block.rank, block.position)) rest
    first :: (remaining.filter (fun block => block.rank = 0) ++
      interleave (remaining.filter fun block => block.rank = 1)
        (remaining.filter fun block => block.rank = 2) ++
      remaining.filter fun block => block.rank ≠ 0 ∧ block.rank ≠ 1 ∧ block.rank ≠ 2)

/-- The blocks of a file in the order in which they are given away. -/
def bundles (item : ContextFileEvidence) : List (List Piece) :=
  (arrange (blocksOf (pieces item))).map Block.pieces

/-! ### The order of the blocks -/

theorem interleave_perm {α : Type} (l l' : List α) : (interleave l l').Perm (l ++ l') := by
  induction l generalizing l' with
  | nil => exact List.Perm.refl _
  | cons a l ih =>
    cases l' with
    | nil => simp [interleave]
    | cons b l' =>
      rw [interleave, List.cons_append]
      exact (((ih l').cons b).trans List.perm_middle.symm).cons a

/-- A list is made of its members of each rank. -/
theorem ranks_perm (l : List Block) :
    (l.filter (fun block => block.rank = 0) ++ (l.filter (fun block => block.rank = 1) ++
      l.filter (fun block => block.rank = 2)) ++
      l.filter fun block => block.rank ≠ 0 ∧ block.rank ≠ 1 ∧ block.rank ≠ 2).Perm l := by
  induction l with
  | nil => exact List.Perm.refl _
  | cons block l ih =>
    by_cases h0 : block.rank = 0
    · simpa [h0] using ih
    · by_cases h1 : block.rank = 1
      · simp only [List.filter_cons, h1]
        simp only [List.append_assoc] at ih ⊢
        exact List.perm_middle.trans (ih.cons block)
      · by_cases h2 : block.rank = 2
        · simp only [List.filter_cons, h2]
          simp only [← List.append_assoc] at ih ⊢
          rw [List.append_assoc] at ih ⊢
          exact List.perm_middle.trans (ih.cons block)
        · simp only [List.filter_cons, h0, h1, h2, ne_eq, not_false_eq_true, and_self,
            decide_true, decide_false, if_true, Bool.false_eq_true, if_false]
          exact List.perm_middle.trans (ih.cons block)

/-- The blocks are put in another order only. -/
theorem arrange_perm (blocks : List Block) : (arrange blocks).Perm blocks := by
  cases blocks with
  | nil => exact List.Perm.refl _
  | cons first rest =>
    refine List.Perm.cons first ?_
    refine List.Perm.trans ?_ (sortByKey_perm (fun block : Block => toLex (block.rank, block.position)) rest)
    refine List.Perm.trans ?_ (ranks_perm _)
    exact ((interleave_perm _ _).append_left _).append_right _

theorem bundles_perm (item : ContextFileEvidence) :
    (bundles item).Perm ((blocksOf (pieces item)).map Block.pieces) :=
  (arrange_perm _).map _

/-! ### What the blocks are made of -/

/-- Every finished block has a useful piece, and all pieces satisfy `P`. -/
structure BundleState.Good (P : Piece → Prop) (st : BundleState) : Prop where
  blocks : ∀ block ∈ st.blocks, (∃ p ∈ block.pieces, useful p.kind = true) ∧
    ∀ p ∈ block.pieces, P p
  current : ∀ p ∈ st.current, P p
  context : ∀ p ∈ st.context, P p
  useful : st.hasUseful = true → ∃ p ∈ st.current, useful p.kind = true

namespace BundleState.Good

variable {P : Piece → Prop} {st : BundleState} {piece : Piece}

theorem flush (h : st.Good P) (huseful : st.hasUseful = true) : st.flush.Good P where
  blocks block hblock := by
    rcases List.mem_append.1 hblock with hblock | hblock
    · exact h.blocks block hblock
    · obtain rfl := List.mem_singleton.1 hblock
      exact ⟨h.useful huseful, h.current⟩
  current := by simp [BundleState.flush]
  context := h.context
  useful := by simp [BundleState.flush]

theorem enter (h : st.Good P) (hpiece : P piece) : (st.enter piece).Good P := by
  have hcontext : ∀ context : List Piece, (∀ p ∈ context, P p) →
      ∀ p ∈ context ++ [piece], P p := by
    intro context hall p hp
    rcases List.mem_append.1 hp with hp | hp
    · exact hall p hp
    · exact List.mem_singleton.1 hp ▸ hpiece
  unfold BundleState.enter
  split_ifs
  · exact ⟨h.blocks, h.current, hcontext [] (by simp), h.useful⟩
  · exact ⟨h.blocks, h.current, by simp, h.useful⟩
  · exact ⟨h.blocks, h.current, hcontext st.context h.context, h.useful⟩
  · exact h

theorem push (h : st.Good P) (hpiece : P piece) : (st.push piece).Good P where
  blocks := h.blocks
  current p hp := by
    rcases List.mem_append.1 hp with hp | hp
    · exact h.current p hp
    · exact List.mem_singleton.1 hp ▸ hpiece
  context := h.context
  useful huseful := by
    simp only [BundleState.push, Bool.or_eq_true] at huseful ⊢
    rcases huseful with huseful | huseful
    · obtain ⟨p, hp, hkind⟩ := h.useful huseful
      exact ⟨p, List.mem_append_left _ hp, hkind⟩
    · exact ⟨piece, by simp, huseful⟩

theorem place (h : st.Good P) (hpiece : P piece) : (st.place piece).Good P := by
  unfold BundleState.place
  dsimp only
  split_ifs with hempty huseful hcontext
  · refine push ⟨h.blocks, h.context, h.context, ?_⟩ hpiece
    intro hhas
    obtain ⟨p, hp, -⟩ := h.useful hhas
    simp [hempty] at hp
  · exact ⟨h.blocks, h.current, h.context, h.useful⟩
  · exact push ⟨h.blocks, h.current, h.context, h.useful⟩ hpiece
  · exact push h hpiece

/-- **Reading a piece keeps the blocks good.** -/
theorem read (h : st.Good P) (hpiece : P piece) : (st.read piece).Good P := by
  unfold BundleState.read
  split_ifs with hends
  · have huseful : st.hasUseful = true := by
      simp only [BundleState.ends, Bool.and_eq_true] at hends
      exact hends.1
    exact ((h.flush huseful).enter hpiece).place hpiece
  · exact (h.enter hpiece).place hpiece

theorem foldl {l : List Piece} (h : st.Good P) (hl : ∀ p ∈ l, P p) :
    (l.foldl BundleState.read st).Good P := by
  induction l generalizing st with
  | nil => exact h
  | cons p l ih =>
    exact ih (h.read (hl p (by simp))) fun q hq => hl q (List.mem_cons_of_mem _ hq)

end BundleState.Good

theorem BundleState.good_initial (P : Piece → Prop) : BundleState.initial.Good P := by
  constructor <;> simp [BundleState.initial]

theorem mem_blocksOf {l : List Piece} {block : Block} (h : block ∈ blocksOf l) :
    (∃ p ∈ block.pieces, useful p.kind = true) ∧ ∀ p ∈ block.pieces, p ∈ l := by
  have hgood : (l.foldl BundleState.read .initial).Good (· ∈ l) :=
    (BundleState.good_initial _).foldl fun p hp => hp
  unfold blocksOf at h
  dsimp only at h
  split_ifs at h with huseful
  · exact (hgood.flush huseful).blocks block h
  · exact hgood.blocks block h

/-- **Every block has a useful piece, and all its pieces are pieces of the content.** -/
theorem mem_bundles {item : ContextFileEvidence} {block : List Piece} (h : block ∈ bundles item) :
    (∃ p ∈ block, useful p.kind = true) ∧ ∀ p ∈ block, p ∈ pieces item := by
  obtain ⟨b, hb, rfl⟩ := List.mem_map.1 ((bundles_perm item).mem_iff.1 h)
  exact mem_blocksOf hb

end DailyReport.Excerpts
