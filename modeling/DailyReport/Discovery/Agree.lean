import DailyReport.Discovery.Paged
import DailyReport.Discovery.Plain

/-!
# When bounded and plain discovery agree

Both walkers leave the excluded directories and the ignored files out.  The bounded walker asks each
filter about every entry: it also leaves a file out that is named as an excluded directory or is at
an excluded place, and everything below a directory whose name matches an ignored pattern.

* `identities_plain`, `identities_bounded` : which files the walkers find;
* `agree_iff` : **the walkers agree exactly when every file that plain discovery finds is hidden from
  the bounded walk by none of this**, and the work directory is no link.
-/

namespace DailyReport.Discovery

open Lib

/-- Plain discovery of a work directory that is no link checks the root as bounded discovery does. -/
theorem checkRoot_isOk_iff {tree : DirTree} {request : DiscoveryRequest}
    (hlocal : tree.workDirAccess.any EntryAccess.isLocal = true)
    (unavailable unavailable' : String) :
    checkRoot tree tree.workDirAccess unavailable request = .ok () ↔
      checkRoot tree (tree.access []) unavailable' request = .ok () := by
  rw [tree.direct hlocal]
  simp only [checkRoot, hlocal, Bool.true_eq_false, if_false]

section Agreement

variable [GlobRules]

namespace Walk

variable {walk : Walk} {directory : List Text} {name : Text}

/-! ### Directories -/

theorem isReadable_iff {path : List Text} :
    walk.isReadable path = true ↔ ∃ access, walk.tree.access path = some access ∧
      access.isLocal = true := by
  unfold isReadable
  cases walk.tree.access path <;> simp

theorem not_link_of_readable {path : List Text} (h : walk.isReadable path = true) :
    walk.tree.access path ≠ some .link := by
  obtain ⟨access, haccess, hlocal⟩ := isReadable_iff.1 h
  rw [haccess]
  rintro ⟨⟩
  cases hlocal

/-- The checks leave the root readable. -/
theorem isReadable_root (hroot : checkBoundedRoot walk.tree walk.request = .ok ()) :
    walk.isReadable [] = true := by
  obtain ⟨⟨⟩, -, haccess⟩ := bind_eq_ok.1 hroot
  cases hany : (walk.tree.access []).any EntryAccess.isLocal with
  | true => exact hany
  | false =>
    rw [hany] at haccess
    cases haccess

variable [UnicodeCase]

/-- The entry is named as an excluded directory, or is at an excluded place. -/
def isExcluded (walk : Walk) (directory : List Text) (name : Text) : Bool :=
  decide (toLowercase name ∈ walk.names) ||
    isExcludedDir walk.tree walk.excluded (directory ++ [name])

/-- A directory is kept by its name and its place alone. -/
theorem keptDirectory_iff :
    keptDirectory walk.tree walk.keepsEntry directory name ↔
      walk.tree.kind (directory ++ [name]) = .directory ∧ walk.isExcluded directory name = false ∧
        walk.isReadable (directory ++ [name]) = true := by
  unfold keptDirectory
  constructor
  · rintro ⟨hkeeps, hkind⟩
    simp only [keepsEntry, hkind, NodeKind.isDirectory] at hkeeps
    refine ⟨hkind, ?_, ?_⟩
    · cases hexcluded : walk.isExcluded directory name with
      | false => rfl
      | true =>
        rw [isExcluded] at hexcluded
        simp [hexcluded] at hkeeps
    · cases hreadable : walk.isReadable (directory ++ [name]) with
      | true => rfl
      | false => simp [hreadable] at hkeeps
  · rintro ⟨hkind, hexcluded, hreadable⟩
    refine ⟨?_, hkind⟩
    rw [isExcluded] at hexcluded
    simp [keepsEntry, hkind, NodeKind.isDirectory, hexcluded, hreadable]

/-- The bounded walk enters the directories that plain discovery enters, unless their name matches an
ignored pattern. -/
def enters (walk : Walk) (directory : List Text) (name : Text) : Prop :=
  keptDirectory walk.tree walk.keepsEntry directory name ∧
    matchesIgnoredPattern (toLowercase name) walk.patterns = false

/-- A directory that is entered is readable, so its whole listing is inspected. -/
theorem listing_of_enters (h : walk.enters directory name) :
    walk.listing (directory ++ [name]) = (walk.tree.readDir (directory ++ [name])).getD [] := by
  have hreadable := (keptDirectory_iff.1 h.1).2.2
  rw [listing, hreadable]
  rfl

/-! ### The plain walk -/

variable [LocalTime]

/-- The entry is a file on this host that the request is about. -/
structure Candidate (walk : Walk) (directory : List Text) (name : Text) : Prop where
  readable : walk.isReadable (directory ++ [name]) = true
  extension : hasAllowedExtension (toLowercase name) walk.request.allowedExtensions = true
  unmatched : matchesIgnoredPattern (toLowercase name) walk.patterns = false
  inWindow : ∃ metadata modified, walk.tree.kind (directory ++ [name]) = .file (some metadata) ∧
    metadataInWindow metadata walk.request = some true ∧
    metadataModifiedLocal metadata = some modified

theorem keepsEntry_of_candidate (h : Candidate walk directory name) :
    walk.keepsEntry directory name = true := by
  obtain ⟨metadata, modified, hkind, -, -⟩ := h.inWindow
  have hlink := decide_eq_false (not_link_of_readable h.readable)
  simp only [keepsEntry, hkind, NodeKind.isDirectory, hlink, h.extension, h.unmatched, h.readable]
  rfl

/-- The library yields a file that is recorded exactly when it is a candidate. -/
theorem plainFile_iff {file : DiscoveredFileOut} :
    walk.keepsEntry directory name = true ∧ walk.plainFile directory name = some file ↔
      Candidate walk directory name ∧ ∃ metadata modified,
        walk.tree.kind (directory ++ [name]) = .file (some metadata) ∧
          metadataModifiedLocal metadata = some modified ∧
          walk.tree.discovered walk.tree.workDir (directory ++ [name]) metadata modified = file := by
  constructor
  · rintro ⟨hkeeps, hfile⟩
    simp only [plainFile] at hfile
    split_ifs at hfile with hext hpattern
    cases hkind : walk.tree.kind (directory ++ [name]) with
    | directory => rw [hkind] at hfile; cases hfile
    | special => rw [hkind] at hfile; cases hfile
    | file metadata =>
      cases metadata with
      | none => rw [hkind] at hfile; cases hfile
      | some metadata =>
        rw [hkind] at hfile
        simp only at hfile
        split_ifs at hfile with hoff hwindow
        · obtain ⟨modified, hmodified, hrecord⟩ := Option.bind_eq_some_iff.1 hfile
          have hreadable : walk.isReadable (directory ++ [name]) = true := by
            simp only [keepsEntry] at hkeeps
            split_ifs at hkeeps
            exact hkeeps
          exact ⟨⟨hreadable, Bool.eq_true_of_not_eq_false hext,
            Bool.eq_false_of_not_eq_true hpattern, metadata, modified, hkind, hwindow, hmodified⟩,
            metadata, modified, rfl, hmodified, Option.some.inj hrecord⟩
        · obtain ⟨modified, -, hrecord⟩ := Option.bind_eq_some_iff.1 hfile
          cases hrecord
  · rintro ⟨hcandidate, metadata, modified, hkind, hmodified, rfl⟩
    refine ⟨keepsEntry_of_candidate hcandidate, ?_⟩
    obtain ⟨metadata', modified', hkind', hwindow, -⟩ := hcandidate.inWindow
    obtain rfl : metadata' = metadata := by
      rw [hkind] at hkind'
      cases hkind'
      rfl
    simp [plainFile, hcandidate.extension, hcandidate.unmatched, hkind, hwindow, hmodified]

/-- A file that plain discovery finds. -/
structure Found (walk : Walk) (directory : List Text) (name : Text) : Prop where
  below : Below walk.tree (keptDirectory walk.tree walk.keepsEntry) [] directory
  lists : walk.tree.Lists directory name
  candidate : Candidate walk directory name

/-- **What plain discovery finds**: the candidates below directories that are not excluded. -/
theorem identities_plain {identity : Text} :
    identity ∈ identities walk.plainFiles ↔ ∃ directory name, Found walk directory name ∧
      walk.tree.fileIdentity (directory ++ [name]) = identity := by
  have hlevels : walk.tree.height ≤ ([] : List Text).length + walk.tree.height + 1 := by
    rw [List.length_nil]
    omega
  simp only [identities, plainFiles, List.mem_map, List.mem_filterMap, mem_walkDir hlevels]
  constructor
  · rintro ⟨file, ⟨⟨directory, name⟩, ⟨hbelow, hlists, hkeeps⟩, hfile⟩, rfl⟩
    obtain ⟨hcandidate, metadata, modified, -, -, rfl⟩ := plainFile_iff.1 ⟨hkeeps, hfile⟩
    exact ⟨directory, name, ⟨hbelow, hlists, hcandidate⟩, rfl⟩
  · rintro ⟨directory, name, h, rfl⟩
    obtain ⟨metadata, modified, hkind, -, hmodified⟩ := h.candidate.inWindow
    have hfile := plainFile_iff.2 ⟨h.candidate, metadata, modified, hkind, hmodified, rfl⟩
    exact ⟨_, ⟨(directory, name), ⟨h.below, h.lists, hfile.1⟩, hfile.2⟩, rfl⟩

/-! ### The bounded walk -/

/-- An entry of which the walk makes something passes the filters of names, places and access. -/
theorem inspect_passed (h : walk.inspect directory name ≠ .other none) :
    walk.isExcluded directory name = false ∧
      matchesIgnoredPattern (toLowercase name) walk.patterns = false ∧
        walk.isReadable (directory ++ [name]) = true := by
  cases hignored : walk.isIgnored (directory ++ [name]) (toLowercase name) with
  | true => exact absurd (by rw [inspect, if_pos hignored]) h
  | false =>
    obtain ⟨hexcluded, hpattern⟩ := Bool.or_eq_false_iff.1 hignored
    cases hreadable : walk.isReadable (directory ++ [name]) with
    | false =>
      exact absurd (by rw [inspect, if_neg (ne_true_of_eq_false hignored), if_pos hreadable]) h
    | true => exact ⟨hexcluded, hpattern, rfl⟩

/-- What is made of an entry that passes them. -/
theorem inspect_eq (hexcluded : walk.isExcluded directory name = false)
    (hpattern : matchesIgnoredPattern (toLowercase name) walk.patterns = false)
    (hreadable : walk.isReadable (directory ++ [name]) = true) :
    walk.inspect directory name =
      match walk.tree.kind (directory ++ [name]) with
      | .file none => .other none
      | .directory => .directory
      | .special => .other none
      | .file (some metadata) =>
        if hasAllowedExtension (toLowercase name) walk.request.allowedExtensions then
          .other (walk.file (directory ++ [name]) metadata)
        else .other none := by
  have hignored : walk.isIgnored (directory ++ [name]) (toLowercase name) = false :=
    Bool.or_eq_false_iff.2 ⟨hexcluded, hpattern⟩
  rw [inspect, hignored, hreadable]
  rfl

theorem inspect_directory_iff :
    walk.inspect directory name = .directory ↔ walk.enters directory name := by
  rw [enters, keptDirectory_iff]
  constructor
  · intro hinspect
    have hpassed : walk.inspect directory name ≠ .other none := by
      rw [hinspect]
      exact nofun
    obtain ⟨hexcluded, hpattern, hreadable⟩ := inspect_passed hpassed
    rw [inspect_eq hexcluded hpattern hreadable] at hinspect
    refine ⟨⟨?_, hexcluded, hreadable⟩, hpattern⟩
    split at hinspect
    · cases hinspect
    · assumption
    · cases hinspect
    · split_ifs at hinspect
  · rintro ⟨⟨hkind, hexcluded, hreadable⟩, hpattern⟩
    rw [inspect_eq hexcluded hpattern hreadable, hkind]

/-- A file that the walk has a record of, unless it is excluded by its own name or place. -/
theorem inspect_file_iff {file : DiscoveredFileOut} :
    walk.inspect directory name = .other (some file) ↔
      (Candidate walk directory name ∧ walk.isExcluded directory name = false) ∧
        ∃ metadata modified, walk.tree.kind (directory ++ [name]) = .file (some metadata) ∧
          metadataModifiedLocal metadata = some modified ∧
          walk.tree.discovered walk.tree.root (directory ++ [name]) metadata modified = file := by
  constructor
  · intro hinspect
    have hpassed : walk.inspect directory name ≠ .other none := by
      rw [hinspect]
      exact nofun
    obtain ⟨hexcluded, hpattern, hreadable⟩ := inspect_passed hpassed
    rw [inspect_eq hexcluded hpattern hreadable] at hinspect
    split at hinspect
    · cases hinspect
    · cases hinspect
    · cases hinspect
    · rename_i metadata hkind
      split_ifs at hinspect with hext
      · have hfile := Inspected.other.inj hinspect
        simp only [Walk.file] at hfile
        split at hfile
        · rename_i hwindow
          obtain ⟨modified, hmodified, hrecord⟩ := Option.map_eq_some_iff.1 hfile
          exact ⟨⟨⟨hreadable, hext, hpattern, metadata, modified, hkind, hwindow, hmodified⟩,
            hexcluded⟩, metadata, modified, hkind, hmodified, hrecord⟩
        · cases hfile
      · cases hinspect
  · rintro ⟨⟨hcandidate, hexcluded⟩, metadata, modified, hkind, hmodified, rfl⟩
    obtain ⟨metadata', modified', hkind', hwindow, -⟩ := hcandidate.inWindow
    obtain rfl : metadata' = metadata := by
      rw [hkind] at hkind'
      cases hkind'
      rfl
    rw [inspect_eq hexcluded hcandidate.unmatched hcandidate.readable, hkind]
    simp only [hcandidate.extension, Walk.file, hwindow, hmodified]
    rfl

/-- **A bounded walk inspects what is listed in a directory that it enters.** -/
theorem mem_entryVisits {levels : ℕ} {directory : List Text}
    (hlevels : walk.tree.height ≤ directory.length + levels + 1) {file : DiscoveredFileOut} :
    some file ∈ ((walk.tree.readDir directory).getD []).flatMap (walk.entryVisits levels directory) ↔
      ∃ dir name, Below walk.tree walk.enters directory dir ∧ walk.tree.Lists dir name ∧
        walk.inspect dir name = .other (some file) := by
  induction levels generalizing directory with
  | zero =>
    rw [List.mem_flatMap]
    constructor
    · rintro ⟨listed, hlisted, hvisit⟩
      cases listed with
      | none =>
        rw [entryVisits] at hvisit
        cases List.mem_singleton.1 hvisit
      | some name =>
        cases hinspect : walk.inspect directory name with
        | directory =>
          rw [entryVisits, hinspect] at hvisit
          cases List.mem_singleton.1 hvisit
        | other visit =>
          rw [entryVisits_other hinspect] at hvisit
          obtain rfl := List.mem_singleton.1 hvisit
          exact ⟨directory, name, .refl _, mem_getD_iff.1 hlisted, hinspect⟩
    · rintro ⟨dir, name, hbelow, hlists, hinspect⟩
      cases hbelow with
      | refl =>
        refine ⟨some name, mem_getD_iff.2 hlists, ?_⟩
        rw [entryVisits_other hinspect]
        exact List.mem_singleton.2 rfl
      | step _ henters _ =>
        -- A directory at this level would be too deep.
        have hshallow := walk.tree.shallow _ henters.1.2
        rw [List.length_append, List.length_singleton] at hshallow
        omega
  | succ levels ih =>
    rw [List.mem_flatMap]
    have hdeeper (name : Text) :
        walk.tree.height ≤ (directory ++ [name]).length + levels + 1 := by
      rw [List.length_append, List.length_singleton]
      omega
    constructor
    · rintro ⟨listed, hlisted, hvisit⟩
      cases listed with
      | none =>
        rw [entryVisits] at hvisit
        cases List.mem_singleton.1 hvisit
      | some name =>
        cases hinspect : walk.inspect directory name with
        | directory =>
          have henters := inspect_directory_iff.1 hinspect
          rw [entryVisits, hinspect] at hvisit
          simp only [listing_of_enters henters] at hvisit
          have hvisit := (List.mem_cons.1 hvisit).resolve_left (Option.some_ne_none file)
          obtain ⟨dir, name', hbelow, hrest⟩ := (ih (hdeeper name)).1 hvisit
          exact ⟨dir, name', .step (mem_getD_iff.1 hlisted) henters hbelow, hrest⟩
        | other visit =>
          rw [entryVisits_other hinspect] at hvisit
          obtain rfl := List.mem_singleton.1 hvisit
          exact ⟨directory, name, .refl _, mem_getD_iff.1 hlisted, hinspect⟩
    · rintro ⟨dir, name, hbelow, hlists, hinspect⟩
      cases hbelow with
      | refl =>
        refine ⟨some name, mem_getD_iff.2 hlists, ?_⟩
        rw [entryVisits_other hinspect]
        exact List.mem_singleton.2 rfl
      | @step _ entered _ hlists' henters hbelow =>
        refine ⟨some entered, mem_getD_iff.2 hlists', ?_⟩
        rw [entryVisits, inspect_directory_iff.2 henters]
        simp only [listing_of_enters henters]
        exact List.mem_cons_of_mem _ ((ih (hdeeper entered)).2 ⟨dir, name, hbelow, hlists, hinspect⟩)

/-- A file that the bounded walk finds: it is below directories that are entered, and not excluded
itself. -/
structure Shown (walk : Walk) (directory : List Text) (name : Text) : Prop where
  below : Below walk.tree walk.enters [] directory
  lists : walk.tree.Lists directory name
  candidate : Candidate walk directory name
  notExcluded : walk.isExcluded directory name = false

theorem Shown.found (h : Shown walk directory name) : Found walk directory name where
  below := h.below.mono fun _ _ henters => henters.1
  lists := h.lists
  candidate := h.candidate

/-- **What a bounded walk finds**, if it is not too deep for the stack. -/
theorem identities_bounded (hreadable : walk.isReadable [] = true) (hheight : walk.tree.height ≤ maxStack)
    {identity : Text} :
    identity ∈ identities ((walk.remaining [⟨[], 0⟩]).filterMap id) ↔
      ∃ directory name, Shown walk directory name ∧
        walk.tree.fileIdentity (directory ++ [name]) = identity := by
  have hlevels : walk.tree.height ≤ ([] : List Text).length + (maxStack - 1) + 1 := by
    rw [List.length_nil]
    unfold maxStack at hheight ⊢
    omega
  have hremaining : walk.remaining [⟨[], 0⟩] =
      ((walk.tree.readDir []).getD []).flatMap (walk.entryVisits (maxStack - 1) []) := by
    rw [remaining, remaining, List.append_nil, visitsOf, listing, hreadable]
    rfl
  rw [hremaining]
  simp only [identities, List.mem_map, List.mem_filterMap, id_eq, exists_eq_right,
    mem_entryVisits hlevels]
  constructor
  · rintro ⟨file, ⟨dir, name, hbelow, hlists, hinspect⟩, rfl⟩
    obtain ⟨⟨hcandidate, hexcluded⟩, metadata, modified, -, -, rfl⟩ := inspect_file_iff.1 hinspect
    exact ⟨dir, name, ⟨hbelow, hlists, hcandidate, hexcluded⟩, rfl⟩
  · rintro ⟨dir, name, h, rfl⟩
    obtain ⟨metadata, modified, hkind, -, hmodified⟩ := h.candidate.inWindow
    exact ⟨_, ⟨dir, name, h.below, h.lists, inspect_file_iff.2
      ⟨⟨h.candidate, h.notExcluded⟩, metadata, modified, hkind, hmodified, rfl⟩⟩, rfl⟩

end Walk

/-! ### Agreement -/

variable [UnicodeCase] [LocalTime]

/-- Two discoveries fail both, or have the same files. -/
def SameFiles : Except IoError (List DiscoveredFileOut) → Except IoError (List DiscoveredFileOut) → Prop
  | .ok files, .ok files' => ∀ identity, identity ∈ identities files ↔ identity ∈ identities files'
  | .error _, .error _ => True
  | .ok _, .error _ | .error _, .ok _ => False

def Agree (tree : DirTree) (request : DiscoveryRequest) (maxEntries : ℕ) : Prop :=
  SameFiles (discoverFilesReport tree request) (discoverFilesBounded tree request maxEntries)

/-- No limit is reached: neither the one of entries nor the one of the stack. -/
structure Unlimited (tree : DirTree) (request : DiscoveryRequest) (maxEntries : ℕ) : Prop where
  entries : ∀ files next visited,
    discoverFilesBoundedFrom tree request maxEntries none = .ok (files, next, visited) → next = none
  depth : tree.height ≤ maxStack

/-- The work directory is no link, and every file that plain discovery finds is, at one of its places
at least, below no directory whose name matches an ignored pattern, and neither named as an excluded
directory nor at an excluded place. -/
def FiltersAgree (tree : DirTree) (request : DiscoveryRequest) : Prop :=
  ∀ patterns, checkBoundedRoot tree request = .ok () →
    compilePatterns request.ignoredPatterns = .ok patterns →
    tree.workDirAccess.any EntryAccess.isLocal = true ∧
      ∀ directory name, Walk.Found ⟨tree, request, patterns⟩ directory name →
        ∃ directory' name', Walk.Shown ⟨tree, request, patterns⟩ directory' name' ∧
          tree.fileIdentity (directory' ++ [name']) = tree.fileIdentity (directory ++ [name])

variable {tree : DirTree} {request : DiscoveryRequest} {patterns : List GlobRules.Pattern}

theorem discoverFilesReport_ok (hlocal : tree.workDirAccess.any EntryAccess.isLocal = true)
    (hroot : checkBoundedRoot tree request = .ok ())
    (hpatterns : compilePatterns request.ignoredPatterns = .ok patterns) :
    discoverFilesReport tree request =
      .ok (reportFiles (Walk.plainFiles ⟨tree, request, patterns⟩)) := by
  have hplain := (checkRoot_isOk_iff hlocal
    "work_dir is unavailable locally or is a link/unknown reparse point" _).2 hroot
  unfold discoverFilesReport
  rw [hplain, hpatterns]
  rfl

/-- Plain discovery fails where bounded discovery does. -/
theorem discoverFilesReport_error
    (h : ¬ (checkBoundedRoot tree request = .ok () ∧
      ∃ patterns, compilePatterns request.ignoredPatterns = .ok patterns)) :
    ∃ e, discoverFilesReport tree request = .error e := by
  cases hresult : discoverFilesReport tree request with
  | error e => exact ⟨e, rfl⟩
  | ok files =>
    obtain ⟨⟨⟩, hroot, hrest⟩ := bind_eq_ok.1 hresult
    obtain ⟨patterns, hpatterns, -⟩ := bind_eq_ok.1 hrest
    have hlocal : tree.workDirAccess.any EntryAccess.isLocal = true := by
      obtain ⟨⟨⟩, -, haccess⟩ := bind_eq_ok.1 hroot
      cases hany : tree.workDirAccess.any EntryAccess.isLocal with
      | true => rfl
      | false =>
        rw [hany] at haccess
        cases haccess
    exact absurd ⟨(checkRoot_isOk_iff hlocal _ "root unavailable").1 hroot, patterns, hpatterns⟩ h

/-- Plain discovery of a work directory that is not on this host fails. -/
theorem discoverFilesReport_notLocal (h : tree.workDirAccess.any EntryAccess.isLocal = false) :
    ∃ e, discoverFilesReport tree request = .error e := by
  cases hresult : discoverFilesReport tree request with
  | error e => exact ⟨e, rfl⟩
  | ok files =>
    obtain ⟨⟨⟩, hroot, -⟩ := bind_eq_ok.1 hresult
    obtain ⟨⟨⟩, -, haccess⟩ := bind_eq_ok.1 hroot
    rw [h] at haccess
    cases haccess

/-- A limit that is larger than the number of entries is not reached. -/
theorem Unlimited.of_length {maxEntries : ℕ} (hroot : checkBoundedRoot tree request = .ok ())
    (hpatterns : compilePatterns request.ignoredPatterns = .ok patterns)
    (hlimit : (Walk.remaining ⟨tree, request, patterns⟩ [⟨[], 0⟩]).length < maxEntries)
    (hdepth : tree.height ≤ maxStack) : Unlimited tree request maxEntries where
  entries files next visited hcall := by
    obtain ⟨visited', hwhole⟩ := whole_of_unlimited hroot hpatterns hlimit
    rw [hwhole] at hcall
    cases hcall
    rfl
  depth := hdepth

/-- Bounded discovery under its limits. -/
theorem discoverFilesBounded_ok {maxEntries : ℕ} (hunlimited : Unlimited tree request maxEntries)
    (hroot : checkBoundedRoot tree request = .ok ())
    (hpatterns : compilePatterns request.ignoredPatterns = .ok patterns) :
    discoverFilesBounded tree request maxEntries =
      .ok (reportFiles ((Walk.remaining ⟨tree, request, patterns⟩ [⟨[], 0⟩]).filterMap id)) := by
  have hcall : discoverFilesBoundedFrom tree request maxEntries none = _ :=
    discoverFilesBoundedFrom_eq hroot hpatterns proper_initial rfl maxEntries
  have hnext := hunlimited.entries _ _ _ hcall
  obtain ⟨seen, hpage⟩ := Walk.walkLoop_spec ⟨tree, request, patterns⟩ maxEntries _ proper_initial
  have hstack : (Walk.walkLoop ⟨tree, request, patterns⟩ maxEntries [⟨[], 0⟩]).stack = [] := by
    by_contra hopen
    rw [if_neg hopen] at hnext
    cases hnext
  have hvisits := hpage.visits
  rw [hstack, Walk.remaining, List.append_nil] at hvisits
  rw [discoverFilesBounded, hcall, hvisits]
  exact congrArg (fun files => Except.ok (reportFiles files)) hpage.files

theorem discoverFilesBounded_error {maxEntries : ℕ}
    (h : ¬ (checkBoundedRoot tree request = .ok () ∧
      ∃ patterns, compilePatterns request.ignoredPatterns = .ok patterns)) :
    ∃ e, discoverFilesBounded tree request maxEntries = .error e := by
  rw [discoverFilesBounded, discoverFilesBoundedFrom_proper proper_initial rfl]
  cases hroot : checkBoundedRoot tree request with
  | error e => exact ⟨e, rfl⟩
  | ok _ =>
    cases hpatterns : compilePatterns request.ignoredPatterns with
    | error e => exact ⟨e, rfl⟩
    | ok patterns => exact absurd ⟨hroot, patterns, hpatterns⟩ h

/-- **The walkers agree exactly when the filters of the bounded walk hide no file that plain discovery
finds.** -/
theorem agree_iff {maxEntries : ℕ} (hunlimited : Unlimited tree request maxEntries) :
    Agree tree request maxEntries ↔ FiltersAgree tree request := by
  by_cases hchecks : checkBoundedRoot tree request = .ok () ∧
      ∃ patterns, compilePatterns request.ignoredPatterns = .ok patterns
  · obtain ⟨hroot, patterns, hpatterns⟩ := hchecks
    have hbounded := discoverFilesBounded_ok hunlimited hroot hpatterns
    have hshown (identity : Text) := @Walk.identities_bounded _ ⟨tree, request, patterns⟩ _ _
      (Walk.isReadable_root hroot) hunlimited.depth identity
    cases hlocal : tree.workDirAccess.any EntryAccess.isLocal with
    | false =>
      obtain ⟨e, herror⟩ := @discoverFilesReport_notLocal _ _ _ tree request hlocal
      rw [Agree, herror, hbounded]
      refine iff_of_false id fun h => ?_
      rw [(h patterns hroot hpatterns).1] at hlocal
      cases hlocal
    | true =>
      rw [Agree, discoverFilesReport_ok hlocal hroot hpatterns, hbounded]
      simp only [SameFiles, mem_identities_reportFiles, Walk.identities_plain, hshown]
      constructor
      · intro hsame other _ hother
        obtain rfl : other = patterns := Except.ok.inj (hother.symm.trans hpatterns)
        exact ⟨hlocal, fun directory name hfound =>
          (hsame (tree.fileIdentity (directory ++ [name]))).1 ⟨directory, name, hfound, rfl⟩⟩
      · intro h identity
        constructor
        · rintro ⟨directory, name, hfound, rfl⟩
          exact (h patterns hroot hpatterns).2 directory name hfound
        · rintro ⟨directory, name, hshown, hidentity⟩
          exact ⟨directory, name, hshown.found, hidentity⟩
  · obtain ⟨e, hplain⟩ := discoverFilesReport_error hchecks
    obtain ⟨e', hbounded⟩ := @discoverFilesBounded_error _ _ _ tree request maxEntries hchecks
    rw [Agree, hplain, hbounded]
    exact iff_of_true trivial fun patterns hroot hpatterns =>
      absurd ⟨hroot, patterns, hpatterns⟩ hchecks

end Agreement

/-! ### A directory that is named like an ignored file -/

section IgnoredDirectory

local instance agreeCase : UnicodeCase := asciiCase

/-- Patterns that are a name, or a star before the end of one. -/
local instance endPatterns : GlobRules where
  Pattern := Text
  new pattern := .ok pattern
  isMatch pattern name :=
    match pattern with
    | '*' :: ending => ending.isSuffixOf name
    | _ => decide (pattern = name)

local instance sameDay : LocalTime := ⟨fun _ => some ⟨0, []⟩⟩

/-- The directory `a.tmp` with the file `x.md`. -/
def backupTree : DirTree where
  platform := .unix
  workDir := lit "/w"
  workDirAccess := some .localEntry
  root := lit "/w"
  rootComponents := [lit "/", lit "w"]
  resolve := fun path => [path]
  componentCount := fun _ => 1
  access := fun _ => some .localEntry
  kind := fun path => if path.length < 2 then .directory else .file (some ⟨some 0, 0⟩)
  readDir := fun path =>
    if path = [] then some [some (lit "a.tmp")]
    else if path = [lit "a.tmp"] then some [some (lit "x.md")]
    else none
  height := 2
  shallow path hpath := by
    by_contra hdeep
    rw [if_neg hdeep] at hpath
    cases hpath
  direct := direct_localEntry
  proper path names name hnames hname := by
    split_ifs at hnames
    all_goals
      obtain rfl := Option.some.inj hnames
      rw [Option.some.inj (List.mem_singleton.1 hname)]
      decide +kernel

def backupRequest : DiscoveryRequest where
  startDate := 0
  endDate := 0
  windowStartUtc := none
  windowEndUtc := none
  allowedExtensions := [lit ".md"]
  ignoredPatterns := [lit "*.tmp"]
  excludedDirs := []

theorem checkBoundedRoot_backup : checkBoundedRoot backupTree backupRequest = .ok () := rfl

theorem compilePatterns_backup :
    compilePatterns backupRequest.ignoredPatterns = .ok [toLowercase (lit "*.tmp")] := rfl

theorem unlimited_backup : Unlimited backupTree backupRequest 8 :=
  .of_length checkBoundedRoot_backup compilePatterns_backup (by decide +kernel) (by decide)

/-- No limit is reached in this tree. -/
theorem agree_backup :
    Unlimited backupTree backupRequest 8 ∧
      (Agree backupTree backupRequest 8 ↔ FiltersAgree backupTree backupRequest) :=
  ⟨unlimited_backup, agree_iff unlimited_backup⟩

/-- **Plain discovery finds the file below the directory, bounded discovery does not.** -/
theorem backupTree_disagrees :
    ¬ ∀ (tree : DirTree) (request : DiscoveryRequest) (maxEntries : ℕ),
      Unlimited tree request maxEntries → Agree tree request maxEntries := by
  intro h
  have hsame := h backupTree backupRequest 8 unlimited_backup
  rw [Agree, discoverFilesReport_ok rfl checkBoundedRoot_backup compilePatterns_backup,
    discoverFilesBounded_ok unlimited_backup checkBoundedRoot_backup compilePatterns_backup] at hsame
  simp only [SameFiles, mem_identities_reportFiles] at hsame
  have hplain : lit "bootstrap:/w/a.tmp/x.md" ∈ identities
      (Walk.plainFiles ⟨backupTree, backupRequest, [toLowercase (lit "*.tmp")]⟩) := by
    decide +kernel
  have hbounded : identities ((Walk.remaining
      ⟨backupTree, backupRequest, [toLowercase (lit "*.tmp")]⟩ [⟨[], 0⟩]).filterMap id) = [] := by
    decide +kernel
  have hmem := (hsame _).1 hplain
  rw [hbounded] at hmem
  cases hmem

end IgnoredDirectory

end DailyReport.Discovery
