import DailyReport.Excerpts.Maximal

/-!
# The order of the evidence does not matter

The rounds name the files by their places in the evidence.  The same rounds with the files named by
path and identity give every file the same (`allocate_named`), and those rounds are the same for
every order of the evidence (`namedRounds_perm`).

* `allocate_perm` : **a permutation of the evidence gives every file the same excerpt**.
-/

namespace DailyReport.Excerpts

open Lib

/-! ### The first round -/

section FirstOrder

variable {ι κ : Type} {files : List (ContextFileEvidence × ι)}

theorem withBlocks_map {φ : ContextFileEvidence × ι → ContextFileEvidence × κ}
    (hφ : ∀ file, (φ file).1 = file.1) :
    withBlocks (files.map φ) = (withBlocks files).map φ := by
  have hcomp : (fun file : ContextFileEvidence × κ => !(bundles file.1).isEmpty) ∘ φ =
      fun file => !(bundles file.1).isEmpty := by
    funext file
    simp only [Function.comp_apply, hφ]
  rw [withBlocks, List.filter_map, hcomp]
  rfl

/-- The groups do not depend on the names of the files. -/
theorem groups_map {φ : ContextFileEvidence × ι → ContextFileEvidence × κ}
    (hφ : ∀ file, (φ file).1 = file.1) : groups (files.map φ) = (groups files).map (List.map φ) := by
  have hkey : (fun file => fileKey (φ file)) = fileKey := by
    funext file
    simp only [fileKey, hφ]
  have hextension : (fun file : ContextFileEvidence × κ => file.1.extension) ∘ φ =
      fun file => file.1.extension := by
    funext file
    simp only [Function.comp_apply, hφ]
  simp only [groups, withBlocks_map hφ, List.map_map, hextension]
  refine List.map_congr_left fun extension _ => ?_
  have hfilter : (fun file : ContextFileEvidence × κ =>
      decide (file.1.extension = extension)) ∘ φ = fun file => decide (file.1.extension = extension) := by
    funext file
    simp only [Function.comp_apply, hφ]
  rw [List.filter_map, hfilter, sortByKey_map, hkey]
  rfl

theorem firstOrder_map {φ : ContextFileEvidence × ι → ContextFileEvidence × κ}
    (hφ : ∀ file, (φ file).1 = file.1) : firstOrder (files.map φ) = (firstOrder files).map φ := by
  have hlengths : ((groups files).map (List.map φ)).map List.length =
      (groups files).map List.length := by
    rw [List.map_map]
    exact List.map_congr_left fun group _ => List.length_map _
  simp only [firstOrder, groups_map hφ, hlengths, List.map_flatMap, List.filterMap_map,
    List.map_filterMap]
  refine List.flatMap_congr fun round _ => ?_
  exact List.filterMap_congr fun group _ => by simp

/-- The first round does not depend on the order of files with different keys. -/
theorem firstOrder_perm {files' : List (ContextFileEvidence × ι)} (h : files.Perm files')
    (hkey : ∀ a ∈ files, ∀ b ∈ files, fileKey a = fileKey b → a = b) :
    firstOrder files = firstOrder files' := by
  have hblocks : (withBlocks files).Perm (withBlocks files') := h.filter _
  have hextensions : sortByKey id ((withBlocks files).map fun file => file.1.extension).dedup =
      sortByKey id ((withBlocks files').map fun file => file.1.extension).dedup :=
    sortByKey_eq_of_perm (hblocks.map _).dedup fun a _ b _ hab => hab
  have hgroups : groups files = groups files' := by
    rw [groups, groups, hextensions]
    refine List.map_congr_left fun extension _ => sortByKey_eq_of_perm (hblocks.filter _) ?_
    intro a ha b hb
    exact hkey a (List.mem_filter.1 (List.mem_filter.1 ha).1).1 b
      (List.mem_filter.1 (List.mem_filter.1 hb).1).1
  rw [firstOrder, firstOrder, hgroups]

end FirstOrder

/-- Later rounds do not depend on the names of the files either. -/
theorem roundOrder_map {ι κ : Type} {f : ι → κ} {order : List ι} {preferred : ι → Bool}
    {preferred' : κ → Bool} {rank : ι → Share → ℕ} {rank' : κ → Share → ℕ}
    (hpreferred : ∀ i ∈ order, preferred' (f i) = preferred i)
    (hrank : ∀ i ∈ order, rank' (f i) = rank i) {shares : ι → Share} {shares' : κ → Share}
    (hshares : ∀ i ∈ order, shares' (f i) = shares i) (first preferring : Bool) :
    roundOrder (order.map f) preferred' rank' first preferring shares' =
      (roundOrder order preferred rank first preferring shares).map f := by
  have hsort : ∀ l : List ι, (∀ i ∈ l, i ∈ order) →
      sortByKey (fun k => rank' k (shares' k)) (l.map f) =
        (sortByKey (fun i => rank i (shares i)) l).map f := by
    intro l hl
    rw [sortByKey_map]
    congr 1
    exact sortByKey_congr fun i hi => by rw [hrank i (hl i hi), hshares i (hl i hi)]
  have hfilter : (order.map f).filter preferred' = (order.filter preferred).map f := by
    rw [List.filter_map]
    congr 1
    exact List.filter_congr fun i hi => hpreferred i hi
  unfold roundOrder
  cases first with
  | true => rfl
  | false =>
    cases preferring with
    | true => simpa [hfilter] using hsort _ fun i hi => (List.mem_filter.1 hi).1
    | false => simpa using hsort order fun i hi => hi

/-- **Files may be renamed**: rounds over files under other names give each file the same. -/
theorem runRounds_renamed {ι κ : Type} [DecidableEq ι] [DecidableEq κ]
    {files : List (ContextFileEvidence × ι)} {f : ι → κ} {units : ι → List (List Piece)}
    {units' : κ → List (List Piece)} {preferred : ι → Bool} (preferred' : κ → Bool) {budget : ℕ}
    {pool : Pool ι Share}
    (hf : ∀ i ∈ files.map Prod.snd, ∀ j ∈ files.map Prod.snd, f i = f j → i = j)
    (hunits : ∀ i ∈ files.map Prod.snd, units' (f i) = units i)
    (hpreferred : ∀ i ∈ files.map Prod.snd, preferred' (f i) = preferred i)
    (hrounds : runRounds files units preferred budget = some pool) :
    ∃ pool', runRounds (files.map fun file => (file.1, f file.2)) units' preferred' budget =
        some pool' ∧
      pool.SameAs f (files.map Prod.snd) pool' := by
  have hsub : ∀ i ∈ (firstOrder files).map Prod.snd, i ∈ files.map Prod.snd := by
    intro i hi
    obtain ⟨file, hfile, rfl⟩ := List.mem_map.1 hi
    exact List.mem_map_of_mem (List.mem_filter.1 (mem_firstOrder.1 hfile)).1
  have horder : (firstOrder (files.map fun file => (file.1, f file.2))).map Prod.snd =
      ((firstOrder files).map Prod.snd).map f := by
    have hfirst : firstOrder (files.map fun file => (file.1, f file.2)) =
        (firstOrder files).map fun file => (file.1, f file.2) := firstOrder_map fun _ => rfl
    rw [hfirst, List.map_map, List.map_map]
    rfl
  have hlimit : roundLimit (files.map fun file => (file.1, f file.2)) = roundLimit files := by
    rw [roundLimit, roundLimit, List.map_map]
    rfl
  have hany : ((files.map fun file => (file.1, f file.2)).any fun file => preferred' file.2) =
      files.any fun file => preferred file.2 := by
    rw [List.any_map, Bool.eq_iff_iff]
    simp only [List.any_eq_true, Function.comp_apply]
    refine exists_congr fun file => and_congr_right fun hfile => ?_
    rw [hpreferred file.2 (List.mem_map_of_mem hfile)]
  unfold runRounds
  rw [horder, hlimit, hany]
  refine rounds_simulates hf (fun i hi => by rw [hunits i hi])
    (fun first preferring shares i hi => hsub i (mem_roundOrder.1 hi)) ?_ ⟨fun _ _ => rfl, rfl⟩
    hrounds
  intro first preferring shares shares' hshares
  exact roundOrder_map (fun i hi => hpreferred i (hsub i hi))
    (fun i hi => by rw [hunits i (hsub i hi)]) (fun i hi => hshares i (hsub i hi)) first preferring

/-! ### Files by name -/

/-- Path and identity of a file. -/
def fileName (item : ContextFileEvidence) : Text × Text := (item.relativePath, item.fileIdentity)

/-- The blocks of the file with a name. -/
def namedUnits (evidence : List ContextFileEvidence) (name : Text × Text) : List (List Piece) :=
  ((evidence.find? fun item => fileName item = name).map bundles).getD []

/-- The rounds over some evidence, with the files named by path and identity. -/
def namedRounds (evidence : List ContextFileEvidence) (budget : ℕ) (priorityPaths : List Text) :
    Option (Pool (Text × Text) Share) :=
  runRounds (evidence.map fun item => (item, fileName item)) (namedUnits evidence)
    (fun name => priorityPaths.contains (replaceChar '\\' '/' name.1)) budget

variable {evidence : List ContextFileEvidence} {budget : ℕ} {priorityPaths : List Text}

/-- Files with distinct names are told apart by them. -/
theorem eq_of_fileName (hdistinct : (evidence.map fileName).Nodup) {a b : ContextFileEvidence}
    (ha : a ∈ evidence) (hb : b ∈ evidence) (h : fileName a = fileName b) : a = b :=
  List.inj_on_of_nodup_map hdistinct ha hb h

theorem namedUnits_fileName (hdistinct : (evidence.map fileName).Nodup)
    {item : ContextFileEvidence} (hitem : item ∈ evidence) :
    namedUnits evidence (fileName item) = bundles item := by
  unfold namedUnits
  cases h : evidence.find? fun e => fileName e = fileName item with
  | none =>
    have := List.find?_eq_none.1 h item hitem
    simp at this
  | some e =>
    have hname : fileName e = fileName item := by simpa using List.find?_some h
    rw [eq_of_fileName hdistinct (List.mem_of_find?_eq_some h) hitem hname]
    rfl

/-- **The rounds are the same for every order of the evidence.** -/
theorem namedRounds_perm {evidence' : List ContextFileEvidence} (h : evidence.Perm evidence')
    (hdistinct : (evidence.map fileName).Nodup) :
    namedRounds evidence budget priorityPaths = namedRounds evidence' budget priorityPaths := by
  have hdistinct' : (evidence'.map fileName).Nodup := (h.map fileName).nodup_iff.1 hdistinct
  have hfiles : (evidence.map fun item => (item, fileName item)).Perm
      (evidence'.map fun item => (item, fileName item)) := h.map _
  have hunits : namedUnits evidence = namedUnits evidence' := by
    funext name
    by_cases hname : ∃ item ∈ evidence, fileName item = name
    · obtain ⟨item, hitem, rfl⟩ := hname
      rw [namedUnits_fileName hdistinct hitem, namedUnits_fileName hdistinct' (h.mem_iff.1 hitem)]
    · have hnone : ∀ l : List ContextFileEvidence, (∀ item ∈ l, item ∈ evidence) →
          l.find? (fun item => fileName item = name) = none := by
        intro l hl
        refine List.find?_eq_none.2 fun item hitem hname' => hname ⟨item, hl item hitem, ?_⟩
        simpa using hname'
      rw [namedUnits, namedUnits, hnone evidence fun _ hi => hi,
        hnone evidence' fun _ hi => h.mem_iff.2 hi]
  have horder : firstOrder (evidence.map fun item => (item, fileName item)) =
      firstOrder (evidence'.map fun item => (item, fileName item)) := by
    refine firstOrder_perm hfiles ?_
    intro file hfile file' hfile' hkey
    obtain ⟨a, ha, rfl⟩ := List.mem_map.1 hfile
    obtain ⟨b, hb, rfl⟩ := List.mem_map.1 hfile'
    have hname : fileName a = fileName b := by
      simpa [fileKey, fileName] using hkey
    rw [eq_of_fileName hdistinct ha hb hname]
  have hlimit : roundLimit (evidence.map fun item => (item, fileName item)) =
      roundLimit (evidence'.map fun item => (item, fileName item)) := by
    rw [roundLimit, roundLimit, (hfiles.map _).sum_eq]
  have hany : (evidence.map fun item => (item, fileName item)).any (fun file =>
        priorityPaths.contains (replaceChar '\\' '/' file.2.1)) =
      (evidence'.map fun item => (item, fileName item)).any (fun file =>
        priorityPaths.contains (replaceChar '\\' '/' file.2.1)) := hfiles.any_eq
  rw [namedRounds, namedRounds, runRounds, runRounds, hunits, horder, hlimit, hany]

/-! ### The evidence in any order -/

/-- The name of the file at a place of the evidence. -/
def nameAt (evidence : List ContextFileEvidence) (i : ℕ) : Text × Text :=
  ((evidence[i]?).map fileName).getD ([], [])

theorem nameAt_zipIdx : ∀ file ∈ evidence.zipIdx, nameAt evidence file.2 = fileName file.1 := by
  intro file hfile
  simp [nameAt, List.mem_zipIdx_iff_getElem?.1 hfile]

/-- The places of the evidence under the names of their files. -/
theorem map_nameAt : (evidence.zipIdx.map fun file => (file.1, nameAt evidence file.2)) =
    evidence.map fun item => (item, fileName item) := by
  conv_rhs => rw [← List.zipIdx_map_fst 0 evidence, List.map_map]
  refine List.map_congr_left fun file hfile => ?_
  rw [nameAt_zipIdx file hfile]
  rfl

/-- Distinct names tell the places of the evidence apart. -/
theorem nameAt_inj (hdistinct : (evidence.map fileName).Nodup) {i j : ℕ}
    (hi : i ∈ evidence.zipIdx.map Prod.snd) (hj : j ∈ evidence.zipIdx.map Prod.snd)
    (h : nameAt evidence i = nameAt evidence j) : i = j := by
  obtain ⟨a, ha, rfl⟩ := List.mem_map.1 hi
  obtain ⟨b, hb, rfl⟩ := List.mem_map.1 hj
  have hgeta := List.mem_zipIdx_iff_getElem?.1 ha
  have hgetb := List.mem_zipIdx_iff_getElem?.1 hb
  rw [nameAt_zipIdx a ha, nameAt_zipIdx b hb] at h
  have hget : (evidence.map fileName)[a.2]? = (evidence.map fileName)[b.2]? := by
    rw [List.getElem?_map, List.getElem?_map, hgeta, hgetb, Option.map_some, Option.map_some, h]
  exact (List.getElem?_inj (by simpa using (List.getElem?_eq_some_iff.1 hgeta).1) hdistinct).1 hget

/-- **Every file has what the rounds give to its name.** -/
theorem allocate_named (hdistinct : (evidence.map fileName).Nodup) (budget : ℕ)
    (priorityPaths : List Text) :
    ∃ pool, namedRounds evidence budget priorityPaths = some pool ∧
      allocateExcerptsWithPriority evidence budget priorityPaths =
        some (evidence.map fun item => assemble item (pool.share (fileName item))) := by
  obtain ⟨pool, excerpts, hpool, hexcerpts, hmaximal⟩ :=
    allocate_maximal evidence budget priorityPaths
  have hunits : ∀ i ∈ evidence.zipIdx.map Prod.snd, namedUnits evidence (nameAt evidence i) =
      (evidence.map bundles).getD i [] := by
    intro i hi
    obtain ⟨file, hfile, rfl⟩ := List.mem_map.1 hi
    rw [nameAt_zipIdx file hfile, units_zipIdx evidence file hfile]
    exact namedUnits_fileName hdistinct
      (List.mem_of_getElem? (List.mem_zipIdx_iff_getElem?.1 hfile))
  have hpreferred : ∀ i ∈ evidence.zipIdx.map Prod.snd,
      priorityPaths.contains (replaceChar '\\' '/' (nameAt evidence i).1) =
        evidence[i]?.any (preferredPath priorityPaths) := by
    intro i hi
    obtain ⟨file, hfile, rfl⟩ := List.mem_map.1 hi
    rw [nameAt_zipIdx file hfile, List.mem_zipIdx_iff_getElem?.1 hfile]
    rfl
  obtain ⟨named, hnamed, hsame⟩ := runRounds_renamed
    (fun name => priorityPaths.contains (replaceChar '\\' '/' name.1))
    (fun i hi j hj => nameAt_inj hdistinct hi hj) hunits hpreferred hpool
  rw [map_nameAt] at hnamed
  refine ⟨named, hnamed, ?_⟩
  rw [hexcerpts, hmaximal.assembled]
  conv_rhs => rw [← List.zipIdx_map_fst 0 evidence, List.map_map]
  congr 1
  refine List.map_congr_left fun file hfile => ?_
  rw [← hsame.share file.2 (List.mem_map_of_mem hfile), nameAt_zipIdx file hfile]
  rfl

/-- **The order of the evidence does not matter**: over files that differ in path or identity, every
order gives each file the same excerpt. -/
theorem allocate_perm {evidence evidence' : List ContextFileEvidence}
    (hperm : evidence.Perm evidence') (hdistinct : (evidence.map fileName).Nodup) (budget : ℕ)
    (priorityPaths : List Text) :
    ∃ excerptOf : ContextFileEvidence → AllocatedExcerpt,
      allocateExcerptsWithPriority evidence budget priorityPaths =
        some (evidence.map excerptOf) ∧
      allocateExcerptsWithPriority evidence' budget priorityPaths =
        some (evidence'.map excerptOf) := by
  have hdistinct' : (evidence'.map fileName).Nodup := (hperm.map fileName).nodup_iff.1 hdistinct
  obtain ⟨pool, hpool, hexcerpts⟩ := allocate_named hdistinct budget priorityPaths
  obtain ⟨pool', hpool', hexcerpts'⟩ := allocate_named hdistinct' budget priorityPaths
  obtain rfl : pool = pool' := by
    rw [namedRounds_perm hperm hdistinct, hpool'] at hpool
    exact (Option.some_injective _ hpool).symm
  exact ⟨fun item => assemble item (pool.share (fileName item)), hexcerpts, hexcerpts'⟩

/-- The crowded file in another folder. -/
def movedFile : ContextFileEvidence := { crowdedFile with relativePath := lit "old/crowded.xlsx" }

theorem allocate_perm_moved : ∃ excerptOf : ContextFileEvidence → AllocatedExcerpt,
    allocateExcerptsWithPriority [crowdedFile, movedFile] 600 [] =
      some [excerptOf crowdedFile, excerptOf movedFile] ∧
    allocateExcerptsWithPriority [movedFile, crowdedFile] 600 [] =
      some [excerptOf movedFile, excerptOf crowdedFile] :=
  allocate_perm (List.Perm.swap movedFile crowdedFile []) (by decide +kernel) 600 []

end DailyReport.Excerpts
