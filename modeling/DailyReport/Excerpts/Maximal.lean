import DailyReport.Excerpts.Assembly

/-!
# An allocation stays within its budget and leaves nothing out that fits

* `runRounds_spec` : the rounds end, every file has its first blocks, what the files have is what
  the budget has lost, and no file can be given its next block;
* `allocate_maximal` : **the excerpts stay within the budget, and a file lacks a block only because
  it does not fit the budget or has too many pieces**;
* `cap_not_reached` : a file that gets nothing of a large budget, with no piece taken.
-/

namespace DailyReport.Excerpts

open Lib

/-! ### The files of the first round -/

section Order

variable {ι : Type} {files : List (ContextFileEvidence × ι)}

theorem mem_groups {group : List (ContextFileEvidence × ι)} (h : group ∈ groups files) :
    ∀ file ∈ group, file ∈ withBlocks files := by
  obtain ⟨extension, -, rfl⟩ := List.mem_map.1 h
  intro file hfile
  exact (List.mem_filter.1 (mem_sortByKey.1 hfile)).1

theorem exists_group {file : ContextFileEvidence × ι} (h : file ∈ withBlocks files) :
    ∃ group ∈ groups files, file ∈ group := by
  refine ⟨_, List.mem_map.2 ⟨file.1.extension, ?_, rfl⟩, ?_⟩
  · rw [mem_sortByKey, List.mem_dedup]
    exact List.mem_map_of_mem h
  · rw [mem_sortByKey]
    exact List.mem_filter.2 ⟨h, by simp⟩

theorem le_foldl_max (l : List ℕ) (a : ℕ) : a ≤ l.foldl max a ∧ ∀ n ∈ l, n ≤ l.foldl max a := by
  induction l generalizing a with
  | nil => simp
  | cons n l ih =>
    obtain ⟨hacc, hall⟩ := ih (max a n)
    refine ⟨(le_max_left a n).trans hacc, ?_⟩
    intro m hm
    rcases List.mem_cons.1 hm with rfl | hm
    · exact (le_max_right a m).trans hacc
    · exact hall m hm

/-- The first round goes over the files that have a block. -/
theorem mem_firstOrder {file : ContextFileEvidence × ι} :
    file ∈ firstOrder files ↔ file ∈ withBlocks files := by
  simp only [firstOrder, List.mem_flatMap, List.mem_filterMap, List.mem_range]
  constructor
  · rintro ⟨round, -, group, hgroup, hfile⟩
    exact mem_groups hgroup file (List.mem_of_getElem? hfile)
  · intro h
    obtain ⟨group, hgroup, hfile⟩ := exists_group h
    obtain ⟨round, hround, rfl⟩ := List.mem_iff_getElem.1 hfile
    refine ⟨round, ?_, group, hgroup, List.getElem?_eq_getElem hround⟩
    exact hround.trans_le ((le_foldl_max _ 0).2 _ (List.mem_map_of_mem hgroup))

/-- Every round goes over files of the first one, and unless it is for the preferred files over all
of them. -/
theorem mem_roundOrder {order : List ι} {preferred : ι → Bool} {rank : ι → Share → ℕ}
    {first preferring : Bool} {shares : ι → Share} {i : ι} :
    (i ∈ roundOrder order preferred rank first preferring shares → i ∈ order) ∧
      (first = true ∨ preferring = false → i ∈ order →
        i ∈ roundOrder order preferred rank first preferring shares) := by
  unfold roundOrder
  constructor
  · split_ifs
    · exact id
    · rw [mem_sortByKey]
      exact fun h => (List.mem_filter.1 h).1
    · rw [mem_sortByKey]
      exact id
  · rintro (rfl | rfl) h
    · simpa using h
    · cases first <;> simp [h]

end Order

/-! ### The rounds of an allocation -/

section Rounds

variable {ι : Type} [DecidableEq ι] {files : List (ContextFileEvidence × ι)}
  {units : ι → List (List Piece)} {preferred : ι → Bool} {budget : ℕ}

/-- What keeps a file from its next block at the end. -/
def Finished (units : List (List Piece)) (share : Share) (remaining : ℕ) : Prop :=
  share.position = units.length ∨
    ∃ block, units[share.position]? = some block ∧
      (pieceCap < share.selected.length + (trimContext share.selected block).length ∨
        remaining < blockSize share (trimContext share.selected block))

theorem finished_of_stuck {units : List (List Piece)} {share : Share} {remaining : ℕ}
    (hfits : share.Fits units)
    (h : ∀ cost s, askBlock units share = some (cost, s) → remaining < cost) :
    Finished units share remaining := by
  cases hask : askBlock units share with
  | none =>
    rcases askBlock_eq_none hask with hall | ⟨block, hblock, hcap⟩
    · exact Or.inl (Nat.le_antisymm hfits.position hall)
    · exact Or.inr ⟨block, hblock, Or.inl hcap⟩
  | some grant =>
    have hlt := h grant.1 grant.2 hask
    unfold askBlock at hask
    split at hask
    · cases hask
    next block hblock =>
      dsimp only at hask
      split_ifs at hask
      cases hask
      exact Or.inr ⟨block, hblock, Or.inr hlt⟩

/-- **The rounds of an allocation**: they end, every file has its first blocks, what the files
have is what the budget has lost, and no file can be given its next block. -/
theorem runRounds_spec (preferred : ι → Bool) (budget : ℕ)
    (hunits : ∀ file ∈ files, units file.2 = bundles file.1)
    (hgood : ∀ i, GoodUnits (units i)) (hnodup : (files.map Prod.snd).Nodup) :
    ∃ pool, runRounds files units preferred budget = some pool ∧
      (∀ i, (pool.share i).Fits (units i)) ∧
      (files.map fun file => (pool.share file.2).size).sum + pool.remaining = budget ∧
      ∀ file ∈ files, Finished (bundles file.1) (pool.share file.2) pool.remaining := by
  have hmembers : ∀ first preferring shares,
      ∀ i ∈ roundOrder ((firstOrder files).map Prod.snd) preferred
        (fun i => nextRank (units i)) first preferring shares,
      i ∈ (files.map Prod.snd).toFinset := by
    intro first preferring shares i hi
    obtain ⟨file, hfile, rfl⟩ := List.mem_map.1 (mem_roundOrder.1 hi)
    rw [List.mem_toFinset]
    exact List.mem_map_of_mem (List.mem_filter.1 (mem_firstOrder.1 hfile)).1
  have hsum : ∀ g : ι → ℕ, ∑ i ∈ (files.map Prod.snd).toFinset, g i =
      (files.map fun file => g file.2).sum := by
    intro g
    rw [List.sum_toFinset g hnodup, List.map_map]
    rfl
  have hfuel : ∑ i ∈ (files.map Prod.snd).toFinset,
      ((units i).length - Share.empty.position) +
        (files.any fun file => preferred file.2).toNat < roundLimit files := by
    rw [hsum, roundLimit]
    have hlengths : (files.map fun file => (units file.2).length - Share.empty.position) =
        files.map fun file => (bundles file.1).length :=
      List.map_congr_left fun file hfile => by rw [hunits file hfile]; rfl
    rw [hlengths]
    have := Bool.toNat_le (files.any fun file => preferred file.2)
    omega
  have huse : ∀ i s cost s', askBlock (units i) s = some (cost, s') →
      (units i).length - s'.position < (units i).length - s.position := by
    intro i s cost s' hask
    unfold askBlock at hask
    split at hask
    · cases hask
    next block hblock =>
      have hlt : s.position < (units i).length := (List.getElem?_eq_some_iff.1 hblock).1
      dsimp only at hask
      split_ifs at hask
      cases hask
      dsimp only
      omega
  have hends : ∃ pool, runRounds files units preferred budget = some pool :=
    rounds_ends hmembers huse hfuel
  obtain ⟨pool, hpool⟩ := hends
  have hstep : ∀ i s cost s', s.Fits (units i) → askBlock (units i) s = some (cost, s') →
      s'.Fits (units i) ∧ 0 < cost := fun i s cost s' hs hask =>
    ⟨(askBlock_eq_some (hgood i) hs hask).2.2.1, (askBlock_eq_some (hgood i) hs hask).2.2.2.2⟩
  -- every share keeps to the first blocks of its file
  have hfits : ∀ i, (pool.share i).Fits (units i) :=
    rounds_keeps (fun i s cost s' hs hask => (hstep i s cost s' hs hask).1) hpool
      fun i => Share.fits_empty _
  have hstuck : ∀ i ∈ (firstOrder files).map Prod.snd,
      pool.Stuck (fun i => askBlock (units i)) i :=
    rounds_stuck (fun first preferring shares hall i hi => mem_roundOrder.2 hall hi) hstep hpool
      fun i => Share.fits_empty _
  refine ⟨pool, hpool, hfits, ?_, ?_⟩
  · have hcost : ∀ i s cost s', askBlock (units i) s = some (cost, s') →
        s'.size = s.size + cost := by
      intro i s cost s' hask
      unfold askBlock at hask
      split at hask
      · cases hask
      · dsimp only at hask
        split_ifs at hask
        cases hask
        rfl
    have hspent := rounds_spent hmembers hcost hpool
    simp only [hsum, Share.empty, List.map_const', List.sum_replicate] at hspent
    simpa using hspent
  · intro file hfile
    rw [← hunits file hfile]
    by_cases hblocks : file ∈ withBlocks files
    · exact finished_of_stuck (hfits file.2)
        (hstuck file.2 (List.mem_map_of_mem (mem_firstOrder.2 hblocks)))
    · have hnil : units file.2 = [] := by
        rw [hunits file hfile]
        simpa [withBlocks, hfile] using hblocks
      have hpos := (hfits file.2).position
      rw [hnil] at hpos ⊢
      exact Or.inl (Nat.le_zero.1 hpos)

end Rounds

/-! ### The excerpts -/

variable {evidence : List ContextFileEvidence} {budget : ℕ} {priorityPaths : List Text}

/-- The rounds over some evidence. -/
def evidenceRounds (evidence : List ContextFileEvidence) (budget : ℕ) (priorityPaths : List Text) :
    Option (Pool ℕ Share) :=
  runRounds evidence.zipIdx (fun i => (evidence.map bundles).getD i [])
    (fun i => evidence[i]?.any (preferredPath priorityPaths)) budget

theorem units_zipIdx (evidence : List ContextFileEvidence) : ∀ file ∈ evidence.zipIdx,
    (evidence.map bundles).getD file.2 [] = bundles file.1 := by
  intro file hfile
  have hget := List.mem_zipIdx_iff_getElem?.1 hfile
  simp [List.getD_eq_getElem?_getD, hget]

theorem goodUnits_getD (evidence : List ContextFileEvidence) (i : ℕ) :
    GoodUnits ((evidence.map bundles).getD i []) := by
  rw [List.getD_eq_getElem?_getD, List.getElem?_map]
  cases evidence[i]? with
  | none => constructor <;> simp
  | some item => exact goodUnits_bundles item

theorem nodup_zipIdx (evidence : List ContextFileEvidence) :
    (evidence.zipIdx.map Prod.snd).Nodup := by
  rw [List.zipIdx_map_snd]
  exact List.nodup_range'

/-- The text of an excerpt has the characters its share has paid for. -/
theorem length_assemble {units : List (List Piece)} (hunits : GoodUnits units) {share : Share}
    (hfits : share.Fits units) (item : ContextFileEvidence) :
    countChars (assemble item share).text = share.size := by
  have htext : ∀ p ∈ share.selected, p.text ≠ [] := by
    intro p hp
    rw [hfits.selected] at hp
    obtain ⟨block, hblock, hp⟩ := mem_taken hp
    exact hunits.text block hblock p hp
  rw [hfits.size]
  exact (assembly_spec htext).length

/-- What a budget-safe and maximal allocation is: `pool` holds what every file has been given. -/
structure MaximalAllocation (evidence : List ContextFileEvidence) (budget : ℕ)
    (pool : Pool ℕ Share) (excerpts : List AllocatedExcerpt) : Prop where
  /-- Every file has an excerpt of the first blocks it has been given. -/
  assembled : excerpts = evidence.zipIdx.map fun file => assemble file.1 (pool.share file.2)
  selected : ∀ file ∈ evidence.zipIdx, (pool.share file.2).selected =
    taken (bundles file.1) (pool.share file.2).position
  /-- All excerpts together take what the budget has lost. -/
  spent : (excerpts.map fun excerpt => countChars excerpt.text).sum + pool.remaining = budget
  cap : ∀ file ∈ evidence.zipIdx, (pool.share file.2).selected.length ≤ pieceCap
  /-- A file has all its blocks, or the next one has too many pieces, or it costs too much. -/
  finished : ∀ file ∈ evidence.zipIdx,
    Finished (bundles file.1) (pool.share file.2) pool.remaining

/-- **The allocation ends with excerpts that stay within the budget and the caps, and nothing more
can be given.** -/
theorem allocate_maximal (evidence : List ContextFileEvidence) (budget : ℕ)
    (priorityPaths : List Text) :
    ∃ pool excerpts, evidenceRounds evidence budget priorityPaths = some pool ∧
      allocateExcerptsWithPriority evidence budget priorityPaths = some excerpts ∧
      MaximalAllocation evidence budget pool excerpts := by
  obtain ⟨pool, hpool, hfits, hspent, hfinished⟩ := runRounds_spec
    (fun i => evidence[i]?.any (preferredPath priorityPaths)) budget (units_zipIdx evidence)
    (goodUnits_getD evidence) (nodup_zipIdx evidence)
  have hfits' : ∀ file ∈ evidence.zipIdx, (pool.share file.2).Fits (bundles file.1) :=
    fun file hfile => units_zipIdx evidence file hfile ▸ hfits file.2
  refine ⟨pool, _, hpool, by rw [allocateExcerptsWithPriority, hpool]; rfl, rfl,
    fun file hfile => (hfits' file hfile).selected, ?_, fun file hfile => (hfits' file hfile).cap,
    hfinished⟩
  rw [List.map_map, ← hspent]
  congr 2
  exact List.map_congr_left fun file hfile =>
    length_assemble (goodUnits_bundles file.1) (hfits' file hfile) file.1

/-! ### A block with too many pieces -/

/-- The unit line of a table. -/
def unitLine : Piece := ⟨['u'], .unit, []⟩

/-- A row of the table. -/
def numberRow : Piece := ⟨['1'], .tableRow, []⟩

/-- One line more than an excerpt has pieces. -/
def lineCount : ℕ := 513

/-- A table with that many unit lines above its row. -/
def crowdedFile : ContextFileEvidence where
  fileIdentity := lit "crowded"
  absolutePath := lit "C:\\work\\crowded.xlsx"
  relativePath := lit "crowded.xlsx"
  extension := lit ".xlsx"
  sizeBytes := some 4096
  content := List.replicate lineCount 'u' ++ ['1']
  evidenceAudit := some
    { archive := false
      version := 1
      readRanges := none
      contentUnits := some ((List.range lineCount).map (fun k =>
          ⟨lit "u" ++ decimal k, .unit, k, k + 1, []⟩) ++ [⟨lit "row", .tableRow, lineCount, lineCount + 1, []⟩])
      usableChars := some 1
      encoding := none
      detectedFormat := some (lit "xlsx") }
  parserBackend := lit "rust_xlsx_bounded_v2"
  workerLane := .rustCore
  cacheStatus := .miss
  parseStatus := .success
  truncated := false
  error := none
  reason := none

theorem pieces_crowded : pieces crowdedFile = List.replicate lineCount unitLine ++ [numberRow] := by
  have hline : ∀ k < lineCount, unitPieces crowdedFile.content
      ⟨lit "u" ++ decimal k, .unit, k, k + 1, []⟩ = [unitLine] := by
    intro k hk
    have htext : unitText crowdedFile.content ⟨lit "u" ++ decimal k, .unit, k, k + 1, []⟩ =
        ['u'] := by
      simp only [unitText, crowdedFile]
      rw [List.drop_append_of_le_length (by simpa using hk.le), List.drop_replicate,
        show lineCount - k = (lineCount - k - 1) + 1 by omega, List.replicate_succ,
        Nat.add_sub_cancel_left]
      rfl
    have hin : ¬ (k + 1 > crowdedFile.content.length ∨ k ≥ k + 1) := by
      simp only [crowdedFile, List.length_append, List.length_replicate, List.length_singleton]
      omega
    simp only [unitPieces, splits, htext, if_neg hin]
    rfl
  have hrow : unitPieces crowdedFile.content ⟨lit "row", .tableRow, lineCount, lineCount + 1, []⟩ =
      [numberRow] := by
    have htext : unitText crowdedFile.content ⟨lit "row", .tableRow, lineCount, lineCount + 1, []⟩ = ['1'] := by
      simp only [unitText, crowdedFile]
      rw [List.drop_left' (by simp)]
      rfl
    have hin : ¬ (lineCount + 1 > crowdedFile.content.length ∨ lineCount ≥ lineCount + 1) := by
      simp [crowdedFile]
    simp only [unitPieces, splits, htext, if_neg hin]
    rfl
  have hlines : (List.range lineCount).flatMap (fun k => unitPieces crowdedFile.content
      ⟨lit "u" ++ decimal k, .unit, k, k + 1, []⟩) = List.replicate lineCount unitLine := by
    rw [List.flatMap_congr fun k hk => hline k (List.mem_range.1 hk),
      ← List.map_eq_flatMap (f := fun _ => unitLine), List.map_const', List.length_range]
  have hall : contentPieces crowdedFile = List.replicate lineCount unitLine ++ [numberRow] := by
    change ((List.range lineCount).map (fun k => (⟨lit "u" ++ decimal k, .unit, k, k + 1, []⟩ :
      ContentUnit)) ++ [(⟨lit "row", .tableRow, lineCount, lineCount + 1, []⟩ : ContentUnit)]).flatMap
        (unitPieces crowdedFile.content) = _
    rw [List.flatMap_append, List.flatMap_map, hlines, List.flatMap_singleton, hrow]
  have haudit : crowdedFile.evidenceAudit.any
      (fun audit => audit.usableChars == some 0) = false := rfl
  rw [pieces, if_neg (by simp [haudit]), hall, List.filter_append, List.filter_replicate]
  rfl

/-- Lines that are not useful pile up in one block. -/
theorem foldl_unitLines (n : ℕ) {st : BundleState} (h : st.hasUseful = false) :
    ((List.replicate n unitLine).foldl BundleState.read st).hasUseful = false ∧
      ((List.replicate n unitLine).foldl BundleState.read st).blocks = st.blocks ∧
      ((List.replicate n unitLine).foldl BundleState.read st).current =
        st.current ++ List.replicate n unitLine := by
  induction n generalizing st with
  | zero => simp [h]
  | succ n ih =>
    have hread : (st.read unitLine).hasUseful = false ∧ (st.read unitLine).blocks = st.blocks ∧
        (st.read unitLine).current = st.current ++ [unitLine] := by
      have hends : st.ends unitLine = false := by simp [BundleState.ends, h]
      have henter : st.enter unitLine = { st with context := st.context ++ [unitLine] } := rfl
      simp only [BundleState.read, hends, Bool.false_eq_true, if_false, henter]
      unfold BundleState.place
      dsimp only
      split_ifs with hnil huseful
      · cases huseful
      · cases huseful
      · simp [BundleState.push, h, unitLine, useful]
      · simp [BundleState.push, h, unitLine, useful]
    obtain ⟨hhas, hblocks, hcurrent⟩ := ih hread.1
    rw [List.replicate_succ, List.foldl_cons]
    refine ⟨hhas, hblocks.trans hread.2.1, ?_⟩
    rw [hcurrent, hread.2.2, List.append_assoc]
    rfl

theorem bundles_crowded : bundles crowdedFile = [List.replicate lineCount unitLine ++ [numberRow]] := by
  obtain ⟨hhas, hblocks, hcurrent⟩ := foldl_unitLines lineCount
    (show BundleState.initial.hasUseful = false from rfl)
  set st := (List.replicate lineCount unitLine).foldl BundleState.read .initial with hst
  have hends : st.ends numberRow = false := by simp [BundleState.ends, hhas]
  have hpos : lineCount ≠ 0 := by decide
  have hne : st.current ≠ [] := by simp [hcurrent, BundleState.initial, hpos]
  have hread : st.read numberRow = st.push numberRow := by
    have henter : st.enter numberRow = st := rfl
    simp only [BundleState.read, hends, Bool.false_eq_true, if_false, henter, BundleState.place,
      if_neg hne]
  have hfold : (List.replicate lineCount unitLine ++ [numberRow]).foldl BundleState.read .initial =
      st.push numberRow := by
    rw [List.foldl_append, ← hst, List.foldl_cons, List.foldl_nil, hread]
  clear_value st
  have huseful : (st.push numberRow).hasUseful = true := by
    simp [BundleState.push, numberRow, useful]
  rw [bundles, pieces_crowded, blocksOf, hfold, if_pos huseful]
  have hpush : (st.push numberRow).blocks = [] ∧
      (st.push numberRow).current = List.replicate lineCount unitLine ++ [numberRow] := by
    simp only [BundleState.push, hblocks, hcurrent, BundleState.initial, List.nil_append,
      and_self]
  simp only [BundleState.flush, hpush.1, hpush.2]
  rfl

theorem trimContext_crowded : (trimContext [] (List.replicate lineCount unitLine ++ [numberRow])).length =
    514 := by
  decide +kernel

theorem taken_one (block : List Piece) : taken [block] 1 = trimContext [] block := by
  simp [taken]

/-- **A file may get nothing of a large budget although its cap is not reached**: its only block has
more pieces than an excerpt may have. -/
theorem cap_not_reached : ¬ ∀ (evidence : List ContextFileEvidence) (budget : ℕ),
    ∃ pool, evidenceRounds evidence budget [] = some pool ∧
      ∀ file ∈ evidence.zipIdx, (pool.share file.2).position = (bundles file.1).length ∨
        (pool.share file.2).selected.length = pieceCap ∨
        ∃ block, (bundles file.1)[(pool.share file.2).position]? = some block ∧
          pool.remaining <
            blockSize (pool.share file.2) (trimContext (pool.share file.2).selected block) := by
  intro h
  obtain ⟨pool, hpool, hall⟩ := h [crowdedFile] 10000
  obtain ⟨pool', hpool', hfits, hspent, -⟩ := runRounds_spec
    (fun i => [crowdedFile][i]?.any (preferredPath [])) 10000 (units_zipIdx [crowdedFile])
    (goodUnits_getD [crowdedFile])
    (nodup_zipIdx [crowdedFile])
  obtain rfl : pool = pool' := Option.some_injective _ (hpool.symm.trans hpool')
  have hfile := hall (crowdedFile, 0) (by simp)
  dsimp only at hfile
  have hshare := hfits 0
  simp only [List.map_cons, List.getD_cons_zero, bundles_crowded] at hshare
  -- the block is too large, so the file has nothing, and the whole budget is left
  have hposition : (pool.share 0).position = 0 := by
    rcases Nat.eq_zero_or_pos (pool.share 0).position with hzero | hpos
    · exact hzero
    · have hone : (pool.share 0).position = 1 := Nat.le_antisymm hshare.position hpos
      have hcap := hshare.cap
      rw [hshare.selected, hone, taken_one, trimContext_crowded, pieceCap] at hcap
      omega
  have hselected : (pool.share 0).selected = [] := by rw [hshare.selected, hposition]; rfl
  have hsize : (pool.share 0).size = 0 := by rw [hshare.size, hselected]; rfl
  have hremaining : pool.remaining = 10000 := by simpa [hsize] using hspent
  rw [hposition, hselected, bundles_crowded] at hfile
  rcases hfile with hlen | hcap | ⟨block, hblock, hcost⟩
  · simp at hlen
  · simp [pieceCap] at hcap
  · obtain rfl : List.replicate lineCount unitLine ++ [numberRow] = block := by simpa using hblock
    have hcheap : blockSize (pool.share 0)
        (trimContext [] (List.replicate lineCount unitLine ++ [numberRow])) ≤ 2000 := by
      rw [blockSize, hsize]
      decide +kernel
    omega

end DailyReport.Excerpts
