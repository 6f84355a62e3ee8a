import DailyReport.Discovery.Bounded

/-!
# Plain discovery

`discoverFilesReport` goes over the entries that a walking library yields: all entries below the
work directory, except for those that a filter refuses, with everything below them.

* `mem_walkDir` : the library yields what is listed in a directory that is entered;
* `mem_remaining` : a bounded walk inspects what is listed in a directory that it enters.
-/

namespace DailyReport.Discovery

open Lib

/-! ### Directories that are entered -/

/-- The entry is in the listing of the directory. -/
def DirTree.Lists (tree : DirTree) (directory : List Text) (name : Text) : Prop :=
  ∃ names, tree.readDir directory = some names ∧ some name ∈ names

/-- A directory that is reached from another one by entering directories. -/
inductive Below (tree : DirTree) (enters : List Text → Text → Prop) :
    List Text → List Text → Prop
  | refl (directory : List Text) : Below tree enters directory directory
  | step {directory : List Text} {name : Text} {target : List Text}
      (hlists : tree.Lists directory name) (henters : enters directory name)
      (h : Below tree enters (directory ++ [name]) target) : Below tree enters directory target

theorem Below.mono {tree : DirTree} {enters enters' : List Text → Text → Prop}
    (himp : ∀ directory name, enters directory name → enters' directory name)
    {directory target : List Text} (h : Below tree enters directory target) :
    Below tree enters' directory target := by
  induction h with
  | refl directory => exact .refl directory
  | step hlists henters _ ih => exact .step hlists (himp _ _ henters) ih

theorem mem_getD_iff {tree : DirTree} {directory : List Text} {name : Text} :
    some name ∈ (tree.readDir directory).getD [] ↔ tree.Lists directory name := by
  unfold DirTree.Lists
  cases tree.readDir directory <;> simp

def NodeKind.isDirectory : NodeKind → Bool
  | .directory => true
  | .file _ | .special => false

theorem NodeKind.isDirectory_iff {kind : NodeKind} : kind.isDirectory = true ↔ kind = .directory := by
  cases kind <;> simp [isDirectory]

/-! ### The walking library -/

/-- The entries that the library yields from an entry on, down to so many levels. -/
def walkDir (tree : DirTree) (keeps : List Text → Text → Bool) :
    ℕ → List Text → Option Text → List (List Text × Text)
  | _, _, none => []
  | 0, directory, some name => if keeps directory name then [(directory, name)] else []
  | levels + 1, directory, some name =>
    if keeps directory name then
      (directory, name) ::
        if (tree.kind (directory ++ [name])).isDirectory then
          ((tree.readDir (directory ++ [name])).getD []).flatMap
            (walkDir tree keeps levels (directory ++ [name]))
        else []
    else []

/-- The library enters the directories that are kept. -/
def keptDirectory (tree : DirTree) (keeps : List Text → Text → Bool) (directory : List Text)
    (name : Text) : Prop :=
  keeps directory name = true ∧ tree.kind (directory ++ [name]) = .directory

variable {tree : DirTree} {keeps : List Text → Text → Bool}

/-- **The library yields what is listed in a directory that is entered, and kept.** -/
theorem mem_walkDir {levels : ℕ} {directory : List Text}
    (hlevels : tree.height ≤ directory.length + levels + 1) {entry : List Text × Text} :
    entry ∈ ((tree.readDir directory).getD []).flatMap (walkDir tree keeps levels directory) ↔
      Below tree (keptDirectory tree keeps) directory entry.1 ∧ tree.Lists entry.1 entry.2 ∧
        keeps entry.1 entry.2 = true := by
  induction levels generalizing directory with
  | zero =>
    rw [List.mem_flatMap]
    constructor
    · rintro ⟨listed, hlisted, hentry⟩
      cases listed with
      | none => cases hentry
      | some name =>
        rw [walkDir] at hentry
        split_ifs at hentry with hkeeps
        · obtain rfl := List.mem_singleton.1 hentry
          exact ⟨.refl _, mem_getD_iff.1 hlisted, hkeeps⟩
        · cases hentry
    · rintro ⟨hbelow, hlists, hkeeps⟩
      cases hbelow with
      | refl =>
        refine ⟨some entry.2, mem_getD_iff.2 hlists, ?_⟩
        rw [walkDir, if_pos hkeeps]
        exact List.mem_singleton.2 rfl
      | step _ henters _ =>
        -- A directory at this level would be too deep.
        have hshallow := tree.shallow _ henters.2
        rw [List.length_append, List.length_singleton] at hshallow
        omega
  | succ levels ih =>
    rw [List.mem_flatMap]
    constructor
    · rintro ⟨listed, hlisted, hentry⟩
      cases listed with
      | none => cases hentry
      | some name =>
        rw [walkDir] at hentry
        split_ifs at hentry with hkeeps hdirectory
        · rcases List.mem_cons.1 hentry with rfl | hentry
          · exact ⟨.refl _, mem_getD_iff.1 hlisted, hkeeps⟩
          · have hdeeper : tree.height ≤ (directory ++ [name]).length + levels + 1 := by
              rw [List.length_append, List.length_singleton]
              omega
            obtain ⟨hbelow, hrest⟩ := (ih hdeeper).1 hentry
            exact ⟨.step (mem_getD_iff.1 hlisted) ⟨hkeeps, NodeKind.isDirectory_iff.1 hdirectory⟩
              hbelow, hrest⟩
        · obtain rfl := List.mem_singleton.1 hentry
          exact ⟨.refl _, mem_getD_iff.1 hlisted, hkeeps⟩
        · cases hentry
    · rintro ⟨hbelow, hlists, hkeeps⟩
      cases hbelow with
      | refl =>
        refine ⟨some entry.2, mem_getD_iff.2 hlists, ?_⟩
        rw [walkDir, if_pos hkeeps]
        exact List.mem_cons_self
      | @step _ name _ hlists' henters hbelow =>
        have hdeeper : tree.height ≤ (directory ++ [name]).length + levels + 1 := by
          rw [List.length_append, List.length_singleton]
          omega
        refine ⟨some name, mem_getD_iff.2 hlists', ?_⟩
        rw [walkDir, if_pos henters.1, if_pos (NodeKind.isDirectory_iff.2 henters.2)]
        exact List.mem_cons_of_mem _ ((ih hdeeper).2 ⟨hbelow, hlists, hkeeps⟩)

/-! ### Plain discovery -/

variable [UnicodeCase] [GlobRules] [LocalTime]

namespace Walk

/-- The filter of the library: a file by its name, a directory by its name and its place, and both
by where their content is. -/
def keepsEntry (walk : Walk) (directory : List Text) (name : Text) : Bool :=
  let path := directory ++ [name]
  let nameLower := toLowercase name
  let isDir := (walk.tree.kind path).isDirectory
  let isLink := decide (walk.tree.access path = some .link)
  if !isDir && !isLink && (!hasAllowedExtension nameLower walk.request.allowedExtensions ||
      matchesIgnoredPattern nameLower walk.patterns) then false
  else if (isDir || isLink) && (decide (nameLower ∈ walk.names) ||
      isExcludedDir walk.tree walk.excluded path) then false
  else walk.isReadable path

/-- The record of an entry that the library yields, shown below the work directory. -/
def plainFile (walk : Walk) (directory : List Text) (name : Text) : Option DiscoveredFileOut :=
  let path := directory ++ [name]
  let nameLower := toLowercase name
  if hasAllowedExtension nameLower walk.request.allowedExtensions = false then none
  else if matchesIgnoredPattern nameLower walk.patterns then none
  else
    match walk.tree.kind path with
    | .directory | .special | .file none => none
    | .file (some metadata) =>
      if metadataInWindow metadata walk.request = some false then none
      else
        (metadataModifiedLocal metadata).bind fun modified =>
          if metadataInWindow metadata walk.request = some true then
            some (walk.tree.discovered walk.tree.workDir path metadata modified)
          else none

/-- The files of the entries below the work directory.  The work directory itself is no file. -/
def plainFiles (walk : Walk) : List DiscoveredFileOut :=
  (((walk.tree.readDir []).getD []).flatMap
    (walkDir walk.tree walk.keepsEntry walk.tree.height [])).filterMap
      fun entry => walk.plainFile entry.1 entry.2

end Walk

def discoverFilesReport (tree : DirTree) (request : DiscoveryRequest) :
    Except IoError (List DiscoveredFileOut) := do
  checkRoot tree tree.workDirAccess
    "work_dir is unavailable locally or is a link/unknown reparse point" request
  let patterns ← compilePatterns request.ignoredPatterns
  .ok (reportFiles (Walk.plainFiles ⟨tree, request, patterns⟩))

end DailyReport.Discovery
