import DailyReport.Discovery.Bounded
import DailyReport.Lib.Except

/-!
# Paged discovery

A caller goes on from the cursor of one page to the next, until a page leaves none.  Every page
drops the aliases among its own files, but knows nothing about the pages before it.

* `chained_exists` : **the pages end**, and together they inspect every entry once;
* `paged_iff` : **the pages hold each file of the whole tree exactly once, whatever their sizes,
  exactly when no two files of the tree have the same identity**.
-/

namespace DailyReport.Discovery

open Lib

/-! ### Reports -/

/-- The identities of some files. -/
def identities (files : List DiscoveredFileOut) : List Text :=
  files.map DiscoveredFileOut.fileIdentity

@[simp] theorem identities_append (files files' : List DiscoveredFileOut) :
    identities (files ++ files') = identities files ++ identities files' := List.map_append

/-- The step of `deduplicateResolvedAliases`. -/
def addUnique (unique : List DiscoveredFileOut) (file : DiscoveredFileOut) :
    List DiscoveredFileOut :=
  if file.fileIdentity ∈ identities unique then unique else unique ++ [file]

theorem foldl_addUnique (files unique : List DiscoveredFileOut) (hunique : (identities unique).Nodup) :
    (identities (files.foldl addUnique unique)).Nodup ∧
      ∀ identity, identity ∈ identities (files.foldl addUnique unique) ↔
        identity ∈ identities unique ∨ identity ∈ identities files := by
  induction files generalizing unique with
  | nil => exact ⟨hunique, fun identity => by simp [identities]⟩
  | cons file files ih =>
    rw [List.foldl_cons]
    by_cases hmem : file.fileIdentity ∈ identities unique
    · rw [addUnique, if_pos hmem]
      refine ⟨(ih unique hunique).1, fun identity => ((ih unique hunique).2 identity).trans ?_⟩
      constructor
      · exact Or.imp_right (List.mem_cons_of_mem _)
      · rintro (hold | hnew)
        · exact .inl hold
        · rcases List.mem_cons.1 hnew with rfl | hnew
          · exact .inl hmem
          · exact .inr hnew
    · rw [addUnique, if_neg hmem]
      have hnodup : (identities (unique ++ [file])).Nodup := by
        rw [identities_append]
        exact List.nodup_append.2 ⟨hunique, List.nodup_singleton _, fun a ha b hb heq =>
          hmem (List.mem_singleton.1 hb ▸ heq ▸ ha)⟩
      refine ⟨(ih _ hnodup).1, fun identity => ((ih _ hnodup).2 identity).trans ?_⟩
      rw [identities_append, List.mem_append, or_assoc]
      refine or_congr_right ?_
      rw [← List.mem_append, ← identities_append]
      rfl

/-- Files with distinct identities are all unique. -/
theorem foldl_addUnique_eq (files unique : List DiscoveredFileOut)
    (h : (identities (unique ++ files)).Nodup) : files.foldl addUnique unique = unique ++ files := by
  induction files generalizing unique with
  | nil => rw [List.append_nil]; rfl
  | cons file files ih =>
    have hnew : file.fileIdentity ∉ identities unique := by
      rw [identities_append] at h
      exact fun hmem => (List.nodup_append.1 h).2.2 _ hmem _ List.mem_cons_self rfl
    rw [List.foldl_cons, addUnique, if_neg hnew, ih _ (by rwa [List.append_assoc]),
      List.append_assoc]
    rfl

theorem reportFiles_nodup (files : List DiscoveredFileOut) : (identities (reportFiles files)).Nodup :=
  (foldl_addUnique _ [] List.nodup_nil).1

/-- A report names the identities of its files. -/
theorem mem_identities_reportFiles {files : List DiscoveredFileOut} {identity : Text} :
    identity ∈ identities (reportFiles files) ↔ identity ∈ identities files := by
  have hmem := (foldl_addUnique (sortByKey DiscoveredFileOut.path files) [] List.nodup_nil).2 identity
  have hperm : (identities (sortByKey DiscoveredFileOut.path files)).Perm (identities files) :=
    (sortByKey_perm _ files).map _
  exact hmem.trans ((or_iff_right List.not_mem_nil).trans hperm.mem_iff)

/-- Files with distinct identities are all reported. -/
theorem reportFiles_perm {files : List DiscoveredFileOut} (h : (identities files).Nodup) :
    (identities (reportFiles files)).Perm (identities files) := by
  have hperm : (identities (sortByKey DiscoveredFileOut.path files)).Perm (identities files) :=
    (sortByKey_perm _ files).map _
  have hall := foldl_addUnique_eq (sortByKey DiscoveredFileOut.path files) [] (hperm.nodup_iff.2 h)
  exact (congrArg identities hall ▸ hperm : _)

/-- A report of at most one file has just that. -/
theorem identities_reportFiles_short {files : List DiscoveredFileOut} (h : files.length ≤ 1) :
    identities (reportFiles files) = identities files := by
  match files, h with
  | [], _ => rfl
  | [file], _ => rfl

/-! ### Reports of pages -/

/-- The identities of the pages are those of what they have inspected. -/
theorem mem_identities_pages {seen : List (List Visit)} {identity : Text} :
    identity ∈ identities (seen.map fun visits => reportFiles (visits.filterMap id)).flatten ↔
      identity ∈ identities (seen.flatten.filterMap id) := by
  induction seen with
  | nil => exact Iff.rfl
  | cons visits seen ih =>
    rw [List.map_cons, List.flatten_cons, List.flatten_cons, List.filterMap_append,
      identities_append, identities_append, List.mem_append, List.mem_append, ih,
      mem_identities_reportFiles]

/-- Distinct identities are each on one page. -/
theorem identities_pages_perm {seen : List (List Visit)}
    (h : (identities (seen.flatten.filterMap id)).Nodup) :
    (identities (seen.map fun visits => reportFiles (visits.filterMap id)).flatten).Perm
      (identities (seen.flatten.filterMap id)) := by
  induction seen with
  | nil => exact List.Perm.refl _
  | cons visits seen ih =>
    rw [List.flatten_cons, List.filterMap_append, identities_append] at h
    rw [List.map_cons, List.flatten_cons, List.flatten_cons, List.filterMap_append,
      identities_append, identities_append]
    obtain ⟨hfirst, hrest, -⟩ := List.nodup_append.1 h
    exact (reportFiles_perm hfirst).append (ih hrest)

/-- Pages of a single entry drop no alias. -/
theorem identities_pages_single {seen : List (List Visit)} (h : ∀ visits ∈ seen, visits.length ≤ 1) :
    identities (seen.map fun visits => reportFiles (visits.filterMap id)).flatten =
      identities (seen.flatten.filterMap id) := by
  induction seen with
  | nil => rfl
  | cons visits seen ih =>
    obtain ⟨hfirst, hrest⟩ := List.forall_mem_cons.1 h
    rw [List.map_cons, List.flatten_cons, List.flatten_cons, List.filterMap_append,
      identities_append, identities_append, ih hrest,
      identities_reportFiles_short ((List.length_filterMap_le id visits).trans hfirst)]

/-! ### Chained pages -/

theorem proper_initial : Proper [⟨[], 0⟩] where
  depth := by decide
  paths := List.forall_mem_singleton.2 List.not_mem_nil

theorem Proper.valid {tree : DirTree} {stack : List DirectoryPosition}
    (h : Proper stack) :
    DiscoveryCursor.valid ⟨tree.root, stack⟩ tree = true := by
  simp only [DiscoveryCursor.valid, Bool.and_eq_true, List.all_eq_true]
  exact ⟨⟨rfl, decide_eq_true h.depth⟩,
    fun position hposition => decide_eq_true (h.paths position hposition)⟩

section Paging

variable [UnicodeCase] [GlobRules] [LocalTime]

/-- The pages from the call number `i` on, where the caller has the given cursor. -/
inductive Chained (tree : DirTree) (request : DiscoveryRequest) (sizes : ℕ → ℕ) :
    ℕ → Option DiscoveryCursor → List (List DiscoveredFileOut) → Prop
  | last {i cursor files visited}
      (hcall : discoverFilesBoundedFrom tree request (sizes i) cursor = .ok (files, none, visited)) :
      Chained tree request sizes i cursor [files]
  | next {i cursor files next visited pages}
      (hcall : discoverFilesBoundedFrom tree request (sizes i) cursor =
        .ok (files, some next, visited))
      (hpages : Chained tree request sizes (i + 1) (some next) pages) :
      Chained tree request sizes i cursor (files :: pages)

variable {tree : DirTree} {request : DiscoveryRequest} {patterns : List GlobRules.Pattern}
  {sizes : ℕ → ℕ}

theorem Chained.unique {i : ℕ} {cursor : Option DiscoveryCursor}
    {pages pages' : List (List DiscoveredFileOut)} (h : Chained tree request sizes i cursor pages)
    (h' : Chained tree request sizes i cursor pages') : pages = pages' := by
  induction h generalizing pages' with
  | last hcall =>
    cases h' with
    | last hcall' =>
      rw [hcall] at hcall'
      cases hcall'
      rfl
    | next hcall' hpages' =>
      rw [hcall] at hcall'
      cases hcall'
  | next hcall hpages ih =>
    cases h' with
    | last hcall' =>
      rw [hcall] at hcall'
      cases hcall'
    | next hcall' hpages' =>
      rw [hcall] at hcall'
      cases hcall'
      rw [ih hpages']

/-- The result of a page. -/
def pageResult (tree : DirTree) (page : Walk.Page) :
    List DiscoveredFileOut × Option DiscoveryCursor × ℕ :=
  (reportFiles page.files, if page.stack = [] then none else some ⟨tree.root, page.stack⟩,
    page.visited)

/-- A call from a proper cursor is a page of the walk, behind the checks. -/
theorem discoverFilesBoundedFrom_proper {cursor : Option DiscoveryCursor}
    {stack : List DirectoryPosition} (hproper : Proper stack)
    (hcursor : cursor.getD (.initial tree) = ⟨tree.root, stack⟩) (maxEntries : ℕ) :
    discoverFilesBoundedFrom tree request maxEntries cursor =
      (checkBoundedRoot tree request).bind fun _ =>
        (compilePatterns request.ignoredPatterns).bind fun patterns =>
          .ok (pageResult tree (Walk.walkLoop ⟨tree, request, patterns⟩ maxEntries stack)) := by
  have hvalid : DiscoveryCursor.valid ⟨tree.root, stack⟩ tree = true := hproper.valid
  unfold discoverFilesBoundedFrom
  rw [hcursor]
  simp only [hvalid, Bool.true_eq_false, if_false]
  rfl

theorem discoverFilesBoundedFrom_eq (hroot : checkBoundedRoot tree request = .ok ())
    (hpatterns : compilePatterns request.ignoredPatterns = .ok patterns)
    {cursor : Option DiscoveryCursor} {stack : List DirectoryPosition} (hproper : Proper stack)
    (hcursor : cursor.getD (.initial tree) = ⟨tree.root, stack⟩) (maxEntries : ℕ) :
    discoverFilesBoundedFrom tree request maxEntries cursor =
      .ok (pageResult tree (Walk.walkLoop ⟨tree, request, patterns⟩ maxEntries stack)) := by
  rw [discoverFilesBoundedFrom_proper hproper hcursor, hroot, hpatterns]
  rfl

/-- **The pages end**, and together they inspect what remains. -/
theorem chained_exists (hroot : checkBoundedRoot tree request = .ok ())
    (hpatterns : compilePatterns request.ignoredPatterns = .ok patterns) (hsizes : ∀ i, 1 ≤ sizes i)
    {cursor : Option DiscoveryCursor} {stack : List DirectoryPosition} (hproper : Proper stack)
    (hcursor : cursor.getD (.initial tree) = ⟨tree.root, stack⟩) (i : ℕ) :
    ∃ seen : List (List Visit),
      Chained tree request sizes i cursor (seen.map fun visits => reportFiles (visits.filterMap id)) ∧
        seen.flatten = Walk.remaining ⟨tree, request, patterns⟩ stack ∧
        ∀ visits ∈ seen, ∃ j, visits.length ≤ sizes j := by
  induction hlength : (Walk.remaining ⟨tree, request, patterns⟩ stack).length using
    Nat.strong_induction_on generalizing cursor stack i with
  | _ length ih =>
    have hcall := discoverFilesBoundedFrom_eq hroot hpatterns hproper hcursor (sizes i)
    obtain ⟨visits, hpage⟩ := Walk.walkLoop_spec ⟨tree, request, patterns⟩ (sizes i) stack
      hproper
    have hshort : visits.length ≤ sizes i := hpage.visited ▸ hpage.visited_le
    rw [pageResult, hpage.files] at hcall
    by_cases hempty : (Walk.walkLoop ⟨tree, request, patterns⟩ (sizes i) stack).stack = []
    · rw [if_pos hempty] at hcall
      refine ⟨[visits], .last hcall, ?_, List.forall_mem_singleton.2 ⟨i, hshort⟩⟩
      rw [hpage.visits, hempty, List.flatten_singleton, Walk.remaining, List.append_nil]
    · rw [if_neg hempty] at hcall
      have hvisited := hpage.full.resolve_left hempty
      have hless : (Walk.remaining ⟨tree, request, patterns⟩
          (Walk.walkLoop ⟨tree, request, patterns⟩ (sizes i) stack).stack).length < length := by
        have hsize := hsizes i
        rw [← hlength, hpage.visits, List.length_append, ← hpage.visited, hvisited]
        omega
      obtain ⟨seen, hchained, hflatten, hbound⟩ := @ih _ hless
        (some ⟨tree.root, _⟩) _ hpage.proper rfl (i + 1) rfl
      refine ⟨visits :: seen, .next hcall hchained, ?_, List.forall_mem_cons.2 ⟨⟨i, hshort⟩, hbound⟩⟩
      rw [List.flatten_cons, hflatten, ← hpage.visits]

/-- The pages of a new walk inspect the whole tree. -/
theorem chained_none (hroot : checkBoundedRoot tree request = .ok ())
    (hpatterns : compilePatterns request.ignoredPatterns = .ok patterns) (hsizes : ∀ i, 1 ≤ sizes i) :
    ∃ seen : List (List Visit),
      Chained tree request sizes 0 none (seen.map fun visits => reportFiles (visits.filterMap id)) ∧
        seen.flatten = Walk.remaining ⟨tree, request, patterns⟩ [⟨[], 0⟩] ∧
        ∀ visits ∈ seen, ∃ j, visits.length ≤ sizes j :=
  chained_exists hroot hpatterns hsizes proper_initial rfl 0

/-! ### When the pages agree with the whole tree -/

/-- The files that the entries of the tree give, with their aliases. -/
def acceptedFiles (tree : DirTree) (request : DiscoveryRequest) :
    Except IoError (List DiscoveredFileOut) := do
  checkBoundedRoot tree request
  let patterns ← compilePatterns request.ignoredPatterns
  .ok ((Walk.remaining ⟨tree, request, patterns⟩ [⟨[], 0⟩]).filterMap id)

/-- A first call fails; or one call with a limit that is not reached gives the files of the tree, and
pages of any sizes end and hold the same files, each of them once. -/
def PagedAgrees (tree : DirTree) (request : DiscoveryRequest) : Prop :=
  (∃ e, ∀ maxEntries, discoverFilesBoundedFrom tree request maxEntries none = .error e) ∨
    ∃ whole,
      (∃ limit, ∀ maxEntries, limit ≤ maxEntries → ∃ visited,
        discoverFilesBoundedFrom tree request maxEntries none = .ok (whole, none, visited)) ∧
      ∀ sizes : ℕ → ℕ, (∀ i, 1 ≤ sizes i) → ∃ pages, Chained tree request sizes 0 none pages ∧
        (∀ identity, identity ∈ identities pages.flatten ↔ identity ∈ identities whole) ∧
        (identities pages.flatten).Nodup

/-- A first call fails where the root, the window or a pattern is refused. -/
theorem discoverFilesBoundedFrom_error {e : IoError} (h : acceptedFiles tree request = .error e)
    (maxEntries : ℕ) : discoverFilesBoundedFrom tree request maxEntries none = .error e := by
  rw [discoverFilesBoundedFrom_proper proper_initial rfl]
  unfold acceptedFiles at h
  cases hroot : checkBoundedRoot tree request with
  | error e' =>
    rw [hroot] at h
    exact congrArg Except.error (Except.error.inj h)
  | ok _ =>
    rw [hroot] at h
    cases hpatterns : compilePatterns request.ignoredPatterns with
    | error e' =>
      rw [hpatterns] at h
      exact congrArg Except.error (Except.error.inj h)
    | ok patterns =>
      rw [hpatterns] at h
      cases h

/-- The checks that come before a walk. -/
theorem acceptedFiles_eq_ok {files : List DiscoveredFileOut}
    (h : acceptedFiles tree request = .ok files) :
    ∃ patterns, checkBoundedRoot tree request = .ok () ∧
      compilePatterns request.ignoredPatterns = .ok patterns ∧
      files = (Walk.remaining ⟨tree, request, patterns⟩ [⟨[], 0⟩]).filterMap id := by
  obtain ⟨⟨⟩, hroot, h⟩ := bind_eq_ok.1 h
  obtain ⟨patterns, hpatterns, h⟩ := bind_eq_ok.1 h
  exact ⟨patterns, hroot, hpatterns, (Except.ok.inj h).symm⟩

/-- One call that is not limited inspects the whole tree. -/
theorem whole_of_unlimited (hroot : checkBoundedRoot tree request = .ok ())
    (hpatterns : compilePatterns request.ignoredPatterns = .ok patterns) {maxEntries : ℕ}
    (hlimit : (Walk.remaining ⟨tree, request, patterns⟩ [⟨[], 0⟩]).length < maxEntries) :
    ∃ visited, discoverFilesBoundedFrom tree request maxEntries none =
      .ok (reportFiles ((Walk.remaining ⟨tree, request, patterns⟩ [⟨[], 0⟩]).filterMap id), none,
        visited) := by
  have hcall : discoverFilesBoundedFrom tree request maxEntries none = _ :=
    discoverFilesBoundedFrom_eq hroot hpatterns proper_initial rfl maxEntries
  obtain ⟨visits, hpage⟩ := Walk.walkLoop_spec ⟨tree, request, patterns⟩ maxEntries _
    proper_initial
  have hstack : (Walk.walkLoop ⟨tree, request, patterns⟩ maxEntries [⟨[], 0⟩]).stack = [] := by
    refine hpage.full.resolve_right fun hfull => ?_
    have hlength := congrArg List.length hpage.visits
    rw [List.length_append, ← hpage.visited, hfull] at hlength
    omega
  have hvisits := hpage.visits
  rw [hstack, Walk.remaining, List.append_nil] at hvisits
  refine ⟨visits.length, hcall.trans (congrArg Except.ok ?_)⟩
  rw [pageResult, if_pos hstack, hpage.files, hpage.visited, hvisits]

/-- Files with distinct identities are paged right. -/
theorem pagedAgrees_of_nodup {files : List DiscoveredFileOut}
    (hfiles : acceptedFiles tree request = .ok files) (h : (identities files).Nodup) :
    PagedAgrees tree request := by
  obtain ⟨patterns, hroot, hpatterns, rfl⟩ := acceptedFiles_eq_ok hfiles
  refine .inr ⟨_, ⟨_, fun maxEntries hlimit => whole_of_unlimited hroot hpatterns hlimit⟩, ?_⟩
  intro sizes hsizes
  obtain ⟨seen, hchained, hflatten, -⟩ :=
    chained_none hroot hpatterns hsizes
  rw [← hflatten] at h
  refine ⟨_, hchained, fun identity => ?_, (identities_pages_perm h).nodup_iff.2 h⟩
  rw [mem_identities_pages, mem_identities_reportFiles, hflatten]

/-- Where every sequence of pages is right, the identities are distinct: pages of one entry show
every file. -/
theorem nodup_of_pagedAgrees (h : PagedAgrees tree request) {files : List DiscoveredFileOut}
    (hfiles : acceptedFiles tree request = .ok files) : (identities files).Nodup := by
  obtain ⟨patterns, hroot, hpatterns, rfl⟩ := acceptedFiles_eq_ok hfiles
  rcases h with ⟨e, herror⟩ | ⟨whole, -, hpages⟩
  · have hcall : discoverFilesBoundedFrom tree request 0 none = _ :=
      discoverFilesBoundedFrom_eq hroot hpatterns proper_initial rfl 0
    rw [herror 0] at hcall
    cases hcall
  · obtain ⟨pages, hchained, -, hnodup⟩ := hpages (fun _ => 1) fun _ => le_rfl
    obtain ⟨seen, hseen, hflatten, hshort⟩ := chained_none hroot hpatterns
      fun _ => le_rfl
    rw [hchained.unique hseen, identities_pages_single fun visits hvisits =>
      (hshort visits hvisits).choose_spec, hflatten] at hnodup
    exact hnodup

/-- **The pages agree with the whole tree, whatever their sizes, exactly when no two files of the
tree have the same identity.** -/
theorem paged_iff (tree : DirTree) (request : DiscoveryRequest) :
    PagedAgrees tree request ↔
      ∀ files, acceptedFiles tree request = .ok files → (identities files).Nodup := by
  refine ⟨fun h files hfiles => nodup_of_pagedAgrees h hfiles, fun h => ?_⟩
  cases hfiles : acceptedFiles tree request with
  | error e => exact .inl ⟨e, discoverFilesBoundedFrom_error hfiles⟩
  | ok files => exact pagedAgrees_of_nodup hfiles (h files hfiles)

end Paging

/-! ### Two names of one identity -/

section Aliases

local instance pagedCase : UnicodeCase := asciiCase

local instance noPatterns : GlobRules where
  Pattern := Unit
  new _ := .ok ()
  isMatch _ _ := false

local instance oneDay : LocalTime := ⟨fun _ => some ⟨0, []⟩⟩

/-- A directory with the files `A.md` and `a.md`. -/
def aliasTree : DirTree where
  platform := .unix
  workDir := lit "/w"
  workDirAccess := some .localEntry
  root := lit "/w"
  rootComponents := [lit "/", lit "w"]
  resolve := fun path => [path]
  componentCount := fun _ => 1
  access := fun _ => some .localEntry
  kind := fun path => if path = [] then .directory else .file (some ⟨some 0, 0⟩)
  readDir := fun path => if path = [] then some [some (lit "A.md"), some (lit "a.md")] else none
  height := 1
  shallow path hpath := by
    by_cases hroot : path = []
    · rw [hroot]
      exact Nat.one_pos
    · rw [if_neg hroot] at hpath
      cases hpath
  direct := direct_localEntry
  proper path names name hnames hname := by
    split_ifs at hnames
    obtain rfl := Option.some.inj hnames
    rcases List.mem_cons.1 hname with heq | hname
    · rw [Option.some.inj heq]
      decide +kernel
    · rw [Option.some.inj (List.mem_singleton.1 hname)]
      decide +kernel

def aliasRequest : DiscoveryRequest where
  startDate := 0
  endDate := 0
  windowStartUtc := none
  windowEndUtc := none
  allowedExtensions := [lit ".md"]
  ignoredPatterns := []
  excludedDirs := []

/-- **The same identity is on two pages.** -/
theorem aliasTree_fails : ¬ PagedAgrees aliasTree aliasRequest := by
  intro h
  have hfiles : (acceptedFiles aliasTree aliasRequest).map identities =
      .ok [lit "bootstrap:/w/a.md", lit "bootstrap:/w/a.md"] := by
    decide +kernel
  cases haccepted : acceptedFiles aliasTree aliasRequest with
  | error e =>
    rw [haccepted] at hfiles
    cases hfiles
  | ok files =>
    rw [haccepted] at hfiles
    have hnodup := nodup_of_pagedAgrees h haccepted
    rw [Except.ok.inj hfiles] at hnodup
    exact (List.nodup_cons.1 hnodup).1 List.mem_cons_self

end Aliases

end DailyReport.Discovery
