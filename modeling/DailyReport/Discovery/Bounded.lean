import DailyReport.Discovery.Tree

/-!
# Bounded discovery

`discoverFilesBoundedFrom` walks a tree with an explicit stack of directories and the place reached
in each of them, and inspects at most so many entries.  The stack is the cursor that a later call
goes on from.  What a stack has still to inspect is a list (`remaining`); a call takes its entries
from the front.

* `walkLoop_spec` : **a call inspects the first entries that remain**, as many as it may.
-/

namespace DailyReport.Discovery

open Lib

structure DirectoryPosition where
  path : List Text
  offset : ℕ
  deriving DecidableEq

/-- The position after some more entries. -/
def DirectoryPosition.advance (position : DirectoryPosition) (count : ℕ) : DirectoryPosition :=
  { position with offset := position.offset + count }

/-- The place of a walk.  The top of the stack is its head. -/
structure DiscoveryCursor where
  root : Text
  stack : List DirectoryPosition
  deriving DecidableEq

/-- A file, or nothing. -/
abbrev Visit := Option DiscoveredFileOut

/-- So many directories are open at most. -/
def maxStack : ℕ := 256

/-- A stack that a walk may have: not too deep, and without a parent directory in its paths. -/
structure Proper (stack : List DirectoryPosition) : Prop where
  depth : stack.length ≤ maxStack
  paths : ∀ position ∈ stack, lit ".." ∉ position.path

theorem Proper.tail {position : DirectoryPosition} {rest : List DirectoryPosition}
    (h : Proper (position :: rest)) : Proper rest where
  depth := (Nat.le_succ _).trans h.depth
  paths other hother := h.paths other (List.mem_cons_of_mem _ hother)

theorem Proper.advance {position : DirectoryPosition} {rest : List DirectoryPosition}
    (h : Proper (position :: rest)) (count : ℕ) : Proper (position.advance count :: rest) where
  depth := h.depth
  paths := List.forall_mem_cons.2 ⟨h.paths position List.mem_cons_self, h.tail.paths⟩

theorem Proper.push {position : DirectoryPosition} {rest : List DirectoryPosition} {name : Text}
    (h : Proper (position :: rest)) (hdepth : rest.length + 1 < maxStack) (hname : name ≠ lit "..") :
    Proper (⟨position.path ++ [name], 0⟩ :: position :: rest) where
  depth := hdepth
  paths := by
    refine List.forall_mem_cons.2 ⟨fun hmem => ?_, h.paths⟩
    rcases List.mem_append.1 hmem with hold | hnew
    · exact h.paths position List.mem_cons_self hold
    · exact hname (List.mem_singleton.1 hnew).symm

variable [UnicodeCase] [GlobRules] [LocalTime]

/-- What stays the same during a walk. -/
structure Walk where
  tree : DirTree
  request : DiscoveryRequest
  patterns : List GlobRules.Pattern

namespace Walk

def excluded (walk : Walk) : List (List Text) :=
  resolveExcludedDirs walk.tree walk.request.excludedDirs

def names (walk : Walk) : List Text := excludedNames walk.tree walk.request.excludedDirs

/-! ### One entry -/

/-- What an entry turns out to be. -/
inductive Inspected
  | directory
  | other (visit : Visit)

/-- The record of a file in the window. -/
def file (walk : Walk) (path : List Text) (metadata : Metadata) : Visit :=
  match metadataInWindow metadata walk.request with
  | some true =>
    (metadataModifiedLocal metadata).map fun modified =>
      walk.tree.discovered walk.tree.root path metadata modified
  | _ => none

def isReadable (walk : Walk) (path : List Text) : Bool :=
  (walk.tree.access path).any EntryAccess.isLocal

/-- An entry that is left out by its name or its place. -/
def isIgnored (walk : Walk) (path : List Text) (nameLower : Text) : Bool :=
  decide (nameLower ∈ walk.names) || isExcludedDir walk.tree walk.excluded path ||
    matchesIgnoredPattern nameLower walk.patterns

/-- Inspect an entry of a directory. -/
def inspect (walk : Walk) (directory : List Text) (name : Text) : Inspected :=
  let path := directory ++ [name]
  let nameLower := toLowercase name
  if walk.isIgnored path nameLower then .other none
  else if walk.isReadable path = false then .other none
  else
    match walk.tree.kind path with
    | .file none => .other none
    | .directory => .directory
    | .special => .other none
    | .file (some metadata) =>
      if hasAllowedExtension nameLower walk.request.allowedExtensions then
        .other (walk.file path metadata)
      else .other none

/-! ### The loops -/

/-- How the loop over a directory ends. -/
inductive Exit
  | pageFull
  | exhausted
  | descend (name : Text)
  | depthLimit

/-- What the loop over a directory has done: how many entries it has inspected, and the files among
them. -/
structure Read where
  count : ℕ
  files : List DiscoveredFileOut
  exit : Exit

/-- An entry that is no directory has been inspected before. -/
def Read.after (read : Read) (visit : Visit) : Read :=
  { read with count := read.count + 1, files := visit.toList ++ read.files }

/-- The loop over the entries of a directory, up to the next directory among them, while there are
entries left to inspect.  A stack of `depth` directories is open. -/
def readEntries (walk : Walk) (depth : ℕ) (directory : List Text) :
    ℕ → List (Option Text) → Read
  | 0, _ => ⟨0, [], .pageFull⟩
  | _ + 1, [] => ⟨0, [], .exhausted⟩
  | quota + 1, none :: rest => (walk.readEntries depth directory quota rest).after none
  | quota + 1, some name :: rest =>
    match walk.inspect directory name with
    | .directory => ⟨1, [], if maxStack ≤ depth then .depthLimit else .descend name⟩
    | .other visit => (walk.readEntries depth directory quota rest).after visit

theorem count_readEntries_le (walk : Walk) (depth : ℕ) (directory : List Text) (quota : ℕ)
    (entries : List (Option Text)) :
    (walk.readEntries depth directory quota entries).count ≤ quota := by
  induction quota generalizing entries with
  | zero => exact le_rfl
  | succ quota ih =>
    cases entries with
    | nil => exact Nat.zero_le _
    | cons entry rest =>
      cases entry with
      | none => exact Nat.succ_le_succ (ih rest)
      | some name =>
        rw [readEntries]
        cases walk.inspect directory name with
        | directory => exact Nat.succ_pos quota
        | other visit => exact Nat.succ_le_succ (ih rest)

/-- The loop stops at a directory after it has inspected that. -/
theorem count_readEntries_pos {walk : Walk} {depth : ℕ} {directory : List Text} {quota : ℕ}
    {entries : List (Option Text)}
    (h : (∃ name, (walk.readEntries depth directory quota entries).exit = .descend name) ∨
      (walk.readEntries depth directory quota entries).exit = .depthLimit) :
    0 < (walk.readEntries depth directory quota entries).count := by
  cases quota with
  | zero => rcases h with ⟨name, h⟩ | h <;> cases h
  | succ quota =>
    cases entries with
    | nil => rcases h with ⟨name, h⟩ | h <;> cases h
    | cons entry rest =>
      cases entry with
      | none => exact Nat.succ_pos _
      | some name =>
        rw [readEntries]
        cases walk.inspect directory name with
        | directory => exact Nat.one_pos
        | other visit => exact Nat.succ_pos _

/-- A page: its files, the stack that it leaves and the number of its entries. -/
structure Page where
  files : List DiscoveredFileOut
  stack : List DirectoryPosition
  visited : ℕ

/-- Entries that were inspected before those of the page. -/
def Page.after (page : Page) (read : Read) : Page :=
  { page with files := read.files ++ page.files, visited := read.count + page.visited }

/-- The loop over the stack.  A directory that cannot be read any more is left. -/
def walkLoop (walk : Walk) (quota : ℕ) (stack : List DirectoryPosition) : Page :=
  match quota, stack with
  | 0, stack => ⟨[], stack, 0⟩
  | _ + 1, [] => ⟨[], [], 0⟩
  | quota + 1, position :: rest =>
    if walk.isReadable position.path = false then walk.walkLoop (quota + 1) rest
    else
      match walk.tree.readDir position.path with
      | none => walk.walkLoop (quota + 1) rest
      | some entries =>
        let read := walk.readEntries (rest.length + 1) position.path (quota + 1)
          (entries.drop position.offset)
        match h : read.exit with
        | .pageFull => ⟨read.files, position.advance read.count :: rest, read.count⟩
        | .exhausted => (walk.walkLoop (quota + 1 - read.count) rest).after read
        | .descend name =>
          (walk.walkLoop (quota + 1 - read.count)
            (⟨position.path ++ [name], 0⟩ :: position.advance read.count :: rest)).after read
        | .depthLimit =>
          (walk.walkLoop (quota + 1 - read.count) (position.advance read.count :: rest)).after read
termination_by (quota, stack.length)
decreasing_by
  · exact Prod.Lex.right _ (Nat.lt_succ_self _)
  · exact Prod.Lex.right _ (Nat.lt_succ_self _)
  · rcases Nat.eq_zero_or_pos read.count with hzero | hpos
    · rw [hzero]
      exact Prod.Lex.right _ (Nat.lt_succ_self _)
    · exact Prod.Lex.left _ _ (Nat.sub_lt (Nat.succ_pos _) hpos)
  · exact Prod.Lex.left _ _ (Nat.sub_lt (Nat.succ_pos _) (count_readEntries_pos (.inl ⟨name, h⟩)))
  · exact Prod.Lex.left _ _ (Nat.sub_lt (Nat.succ_pos _) (count_readEntries_pos (.inr h)))

/-! ### What remains -/

/-- The entries of a directory that is opened. -/
def listing (walk : Walk) (directory : List Text) : List (Option Text) :=
  if walk.isReadable directory = false then [] else (walk.tree.readDir directory).getD []

/-- What inspecting an entry comes to, with everything below it, down to so many levels. -/
def entryVisits (walk : Walk) : ℕ → List Text → Option Text → List Visit
  | _, _, none => [none]
  | 0, directory, some name =>
    match walk.inspect directory name with
    | .directory => [none]
    | .other visit => [visit]
  | levels + 1, directory, some name =>
    match walk.inspect directory name with
    | .directory =>
      none :: (walk.listing (directory ++ [name])).flatMap
        (walk.entryVisits levels (directory ++ [name]))
    | .other visit => [visit]

/-- The visits of some entries of a directory, with `depth` directories open. -/
def visitsOf (walk : Walk) (depth : ℕ) (directory : List Text) (entries : List (Option Text)) :
    List Visit :=
  entries.flatMap (walk.entryVisits (maxStack - depth) directory)

/-- What a stack has still to inspect. -/
def remaining (walk : Walk) : List DirectoryPosition → List Visit
  | [] => []
  | position :: rest =>
    walk.visitsOf (rest.length + 1) position.path
        ((walk.listing position.path).drop position.offset) ++ walk.remaining rest

variable {walk : Walk}

theorem entryVisits_other {levels : ℕ} {directory name : _} {visit : Visit}
    (h : walk.inspect directory name = .other visit) :
    walk.entryVisits levels directory (some name) = [visit] := by
  cases levels <;> simp only [entryVisits, h]

theorem entryVisits_directory {levels : ℕ} {directory name : _}
    (h : walk.inspect directory name = .directory) :
    walk.entryVisits levels directory (some name) = none ::
      if levels = 0 then []
      else (walk.listing (directory ++ [name])).flatMap
        (walk.entryVisits (levels - 1) (directory ++ [name])) := by
  cases levels <;> simp [entryVisits, h]

/-- What a loop over a directory leaves of its entries. -/
def Read.rest (walk : Walk) (depth : ℕ) (directory : List Text) (entries : List (Option Text))
    (read : Read) : List Visit :=
  match read.exit with
  | .pageFull | .depthLimit => walk.visitsOf depth directory (entries.drop read.count)
  | .exhausted => []
  | .descend name =>
    walk.visitsOf (depth + 1) (directory ++ [name]) (walk.listing (directory ++ [name])) ++
      walk.visitsOf depth directory (entries.drop read.count)

/-- **A loop over a directory inspects the first of its visits.** -/
structure ReadSpec (walk : Walk) (depth : ℕ) (directory : List Text) (quota : ℕ)
    (entries : List (Option Text)) (read : Read) (seen : List Visit) : Prop where
  visits : walk.visitsOf depth directory entries = seen ++ read.rest walk depth directory entries
  count : read.count = seen.length
  files : read.files = seen.filterMap id
  full : read.exit = .pageFull → read.count = quota
  descends : ∀ name, read.exit = .descend name → depth < maxStack ∧ some name ∈ entries

theorem ReadSpec.after {depth quota : ℕ} {directory : List Text} {entry : Option Text}
    {entries : List (Option Text)} {read : Read} {seen : List Visit} {visit : Visit}
    (h : ReadSpec walk depth directory quota entries read seen)
    (hentry : walk.entryVisits (maxStack - depth) directory entry = [visit]) :
    ReadSpec walk depth directory (quota + 1) (entry :: entries) (read.after visit)
      (visit :: seen) where
  visits := by
    have hrest : (read.after visit).rest walk depth directory (entry :: entries) =
        read.rest walk depth directory entries := by
      unfold Read.rest Read.after
      cases read.exit <;> rfl
    rw [hrest, visitsOf, List.flatMap_cons, hentry, List.singleton_append, List.cons_append]
    exact congrArg _ h.visits
  count := congrArg (· + 1) h.count
  files := by
    rw [Read.after, h.files]
    cases visit <;> rfl
  full hexit := congrArg (· + 1) (h.full hexit)
  descends name hexit := (h.descends name hexit).imp_right (List.mem_cons_of_mem entry)

theorem readEntries_spec (walk : Walk) (depth : ℕ) (directory : List Text) (quota : ℕ)
    (entries : List (Option Text)) :
    ∃ seen, ReadSpec walk depth directory quota entries
      (walk.readEntries depth directory quota entries) seen := by
  induction quota generalizing entries with
  | zero => exact ⟨[], rfl, rfl, rfl, fun _ => rfl, nofun⟩
  | succ quota ih =>
    cases entries with
    | nil => exact ⟨[], rfl, rfl, rfl, nofun, nofun⟩
    | cons entry rest =>
      obtain ⟨seen, hseen⟩ := ih rest
      cases entry with
      | none => exact ⟨none :: seen, hseen.after (by rw [entryVisits])⟩
      | some name =>
        rw [readEntries]
        cases hinspect : walk.inspect directory name with
        | other visit => exact ⟨visit :: seen, hseen.after (entryVisits_other hinspect)⟩
        | directory =>
          have hvisits : walk.entryVisits (maxStack - depth) directory (some name) = _ :=
            entryVisits_directory hinspect
          split_ifs with hdepth
          · refine ⟨[none], ?_, rfl, rfl, nofun, nofun⟩
            rw [if_pos (Nat.sub_eq_zero_of_le hdepth)] at hvisits
            rw [visitsOf, List.flatMap_cons, hvisits]
            rfl
          · refine ⟨[none], ?_, rfl, rfl, nofun, ?_⟩
            · rw [if_neg (by omega)] at hvisits
              rw [visitsOf, List.flatMap_cons, hvisits]
              rfl
            · rintro other ⟨⟩
              exact ⟨lt_of_not_ge hdepth, List.mem_cons_self⟩

/-! ### The specification of a page -/

/-- A page has inspected the first of what remained, and left the rest. -/
structure PageSpec (walk : Walk) (quota : ℕ) (stack : List DirectoryPosition) (page : Page)
    (seen : List Visit) : Prop where
  visits : walk.remaining stack = seen ++ walk.remaining page.stack
  visited : page.visited = seen.length
  files : page.files = seen.filterMap id
  proper : Proper page.stack
  full : page.stack = [] ∨ page.visited = quota
  visited_le : page.visited ≤ quota

theorem remaining_of_nil {position : DirectoryPosition} {rest : List DirectoryPosition}
    (h : walk.listing position.path = []) :
    walk.remaining (position :: rest) = walk.remaining rest := by
  rw [remaining, h, List.drop_nil]
  rfl

/-- The loop over the directory at the top of a stack takes the first of what remains. -/
theorem remaining_opened {position : DirectoryPosition} {rest : List DirectoryPosition}
    {entries : List (Option Text)} {quota : ℕ} {read : Read} {seen : List Visit}
    (hreadable : ¬ walk.isReadable position.path = false)
    (hentries : walk.tree.readDir position.path = some entries)
    (hread : ReadSpec walk (rest.length + 1) position.path quota (entries.drop position.offset)
      read seen) :
    walk.remaining (position :: rest) = seen ++
      (read.rest walk (rest.length + 1) position.path (entries.drop position.offset) ++
        walk.remaining rest) := by
  rw [remaining, listing, if_neg hreadable, hentries, Option.getD_some, hread.visits,
    List.append_assoc]

/-- What remains of a directory behind some of its entries. -/
theorem advance_opened {position : DirectoryPosition} {rest : List DirectoryPosition}
    {entries : List (Option Text)} {count : ℕ}
    (hreadable : ¬ walk.isReadable position.path = false)
    (hentries : walk.tree.readDir position.path = some entries) :
    walk.remaining (position.advance count :: rest) =
      walk.visitsOf (rest.length + 1) position.path ((entries.drop position.offset).drop count) ++
        walk.remaining rest := by
  rw [remaining, DirectoryPosition.advance, listing, if_neg hreadable, hentries, Option.getD_some,
    List.drop_drop]

/-- The page after a loop over a directory. -/
theorem PageSpec.after {quota : ℕ} {stack stack' : List DirectoryPosition} {page : Page}
    {read : Read} {first seen : List Visit} (h : PageSpec walk (quota - read.count) stack' page seen)
    (hvisits : walk.remaining stack = first ++ walk.remaining stack')
    (hcount : read.count = first.length) (hfiles : read.files = first.filterMap id)
    (hquota : read.count ≤ quota) : PageSpec walk quota stack (page.after read) (first ++ seen) where
  visits := by rw [hvisits, h.visits, List.append_assoc]; rfl
  visited := by rw [List.length_append, ← h.visited, ← hcount]; rfl
  files := by rw [List.filterMap_append, ← h.files, ← hfiles]; rfl
  proper := h.proper
  full := h.full.imp_right fun hfull => by
    change read.count + page.visited = quota
    omega
  visited_le := by
    have hle := h.visited_le
    change read.count + page.visited ≤ quota
    omega

/-- **A call inspects the first entries that remain**, as many as it may. -/
theorem walkLoop_spec (walk : Walk) (quota : ℕ) (stack : List DirectoryPosition) (hproper : Proper stack) :
    ∃ seen, PageSpec walk quota stack (walk.walkLoop quota stack) seen := by
  fun_induction walkLoop walk quota stack with
  | case1 stack => exact ⟨[], rfl, rfl, rfl, hproper, .inr rfl, le_rfl⟩
  | case2 quota => exact ⟨[], rfl, rfl, rfl, hproper, .inl rfl, Nat.zero_le _⟩
  | case3 quota position rest hreadable ih =>
    obtain ⟨seen, hseen⟩ := ih hproper.tail
    refine ⟨seen, ?_, hseen.visited, hseen.files, hseen.proper, hseen.full, hseen.visited_le⟩
    rw [remaining_of_nil (if_pos hreadable), hseen.visits]
  | case4 quota position rest hreadable hnone ih =>
    obtain ⟨seen, hseen⟩ := ih hproper.tail
    refine ⟨seen, ?_, hseen.visited, hseen.files, hseen.proper, hseen.full, hseen.visited_le⟩
    rw [remaining_of_nil (by rw [listing, if_neg hreadable, hnone]; rfl), hseen.visits]
  | case5 quota position rest hreadable entries hentries read hexit =>
    obtain ⟨seen, hread⟩ := walk.readEntries_spec (rest.length + 1) position.path (quota + 1)
      (entries.drop position.offset)
    refine ⟨seen, ?_, hread.count, hread.files, hproper.advance _, .inr (hread.full hexit),
      count_readEntries_le ..⟩
    rw [remaining_opened hreadable hentries hread, Read.rest, hexit, advance_opened hreadable hentries]
  | case6 quota position rest hreadable entries hentries read hexit ih =>
    obtain ⟨first, hread⟩ := walk.readEntries_spec (rest.length + 1) position.path (quota + 1)
      (entries.drop position.offset)
    obtain ⟨seen, hseen⟩ := ih hproper.tail
    refine ⟨first ++ seen, hseen.after ?_ hread.count hread.files (count_readEntries_le ..)⟩
    rw [remaining_opened hreadable hentries hread, Read.rest, hexit]
    rfl
  | case7 quota position rest hreadable entries hentries read name hexit ih =>
    obtain ⟨first, hread⟩ := walk.readEntries_spec (rest.length + 1) position.path (quota + 1)
      (entries.drop position.offset)
    obtain ⟨hdepth, hname⟩ := hread.descends name hexit
    obtain ⟨seen, hseen⟩ := ih ((hproper.advance _).push hdepth
      (walk.tree.proper _ _ name hentries (List.mem_of_mem_drop hname)))
    refine ⟨first ++ seen, hseen.after ?_ hread.count hread.files (count_readEntries_le ..)⟩
    rw [remaining_opened hreadable hentries hread, Read.rest, hexit, remaining,
      advance_opened hreadable hentries, List.drop_zero, List.append_assoc]
    rfl
  | case8 quota position rest hreadable entries hentries read hexit ih =>
    obtain ⟨first, hread⟩ := walk.readEntries_spec (rest.length + 1) position.path (quota + 1)
      (entries.drop position.offset)
    obtain ⟨seen, hseen⟩ := ih (hproper.advance _)
    refine ⟨first ++ seen, hseen.after ?_ hread.count hread.files (count_readEntries_le ..)⟩
    rw [remaining_opened hreadable hentries hread, Read.rest, hexit, advance_opened hreadable hentries]

end Walk

/-! ### The calls -/

def checkBoundedRoot (tree : DirTree) (request : DiscoveryRequest) : Except IoError Unit :=
  checkRoot tree (tree.access []) "root unavailable" request

/-- The cursor belongs to the tree, and is one that a walk leaves. -/
def DiscoveryCursor.valid (cursor : DiscoveryCursor) (tree : DirTree) : Bool :=
  decide (cursor.root = tree.root) && decide (cursor.stack.length ≤ maxStack) &&
    cursor.stack.all fun position => decide (lit ".." ∉ position.path)

/-- The cursor of a new walk. -/
def DiscoveryCursor.initial (tree : DirTree) : DiscoveryCursor := ⟨tree.root, [⟨[], 0⟩]⟩

/-- One page: its files, the cursor to go on from, and how many entries were inspected. -/
def discoverFilesBoundedFrom (tree : DirTree) (request : DiscoveryRequest) (maxEntries : ℕ)
    (cursor : Option DiscoveryCursor) :
    Except IoError (List DiscoveredFileOut × Option DiscoveryCursor × ℕ) := do
  checkBoundedRoot tree request
  let cursor := cursor.getD (.initial tree)
  if cursor.valid tree = false then .error (ioError .invalidData "invalid discovery cursor")
  let patterns ← compilePatterns request.ignoredPatterns
  let page := Walk.walkLoop ⟨tree, request, patterns⟩ maxEntries cursor.stack
  .ok (reportFiles page.files, if page.stack = [] then none else some ⟨tree.root, page.stack⟩,
    page.visited)

def discoverFilesBounded (tree : DirTree) (request : DiscoveryRequest) (maxEntries : ℕ) :
    Except IoError (List DiscoveredFileOut) :=
  (discoverFilesBoundedFrom tree request maxEntries none).map Prod.fst

end DailyReport.Discovery
