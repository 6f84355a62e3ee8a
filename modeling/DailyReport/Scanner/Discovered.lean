import DailyReport.Lib.Path
import DailyReport.Scanner.Admission

/-!
# Discovered files

A discovered file carries its absolute path.  The inventory, the evidence and the file results
name it by its path relative to the work directory (`relativeContractPath`); the admission plans
take it as it is (`planCandidate`).

* `relativeContractPath_walked` : **the relative path of a file below the work directory** is what
  the walk appended, written with backslashes.
-/

namespace DailyReport

open Lib

/-- A file as discovery hands it over. -/
structure DiscoveredFileOut where
  fileIdentity : Text
  path : Text
  extension : Text
  modifiedAt : Text
  sizeBytes : ℕ
  sourceVersion : Text
  sourceGuardKind : Option Text
  sourceGuardSha256 : Option Text
  deriving DecidableEq

/-- Drop the verbatim prefix of a path. -/
def normalizeContractPathText (value : Text) : Text :=
  match stripPrefixText (lit "\\\\?\\UNC\\") value with
  | some stripped => lit "\\\\" ++ stripped
  | none => (stripPrefixText (lit "\\\\?\\") value).getD value

/-- Equality up to the case of ASCII letters. -/
def eqIgnoreAsciiCase (s t : Text) : Bool := s.map Char.toLower == t.map Char.toLower

/-- Strip a root off a path by comparing texts. -/
def stripRootText (path root : Text) : Option Text :=
  let root := (replaceChar '/' '\\' root).rdropWhile (· == '\\')
  let path := replaceChar '/' '\\' path
  if root.length < path.length ∧ eqIgnoreAsciiCase (path.take root.length) root ∧
      path[root.length]? = some '\\' then some (path.drop (root.length + 1))
  else none

def relativeContractPath (p : Platform) (workDir absolutePath : Text) : Except Text Text :=
  let root := normalizeContractPathText workDir
  let path := normalizeContractPathText absolutePath
  match (stripPrefix p path root).or (stripRootText path root) with
  | none => .error (lit "discovered file is outside work_dir")
  | some relative =>
    let relative := replaceChar '/' '\\' relative
    if relative = [] ∨ ['\\'].isPrefixOf relative ∨
        (relative.splitOn '\\').any (· == ['.', '.']) then
      .error (lit "discovered relative path is unsafe")
    else .ok relative

/-- The guard kind of a wire text. -/
def sourceGuardKindFromText (value : Text) : Option SourceGuardKind :=
  if value = lit "windows_file_id_change_time_v1" then some .windowsFileIdChangeTimeV1
  else if value = lit "unix_inode_ctime_v1" then some .unixInodeCtimeV1
  else if value = lit "content_sha256_v1" then some .contentSha256V1
  else if value = lit "unavailable" then some .unavailable
  else none

/-- A discovered file as the plans see it: its path is the absolute one. -/
def planCandidate (file : DiscoveredFileOut) : PlanCandidate where
  fileIdentity := file.fileIdentity
  relativePath := file.path
  extension := file.extension
  sizeBytes := file.sizeBytes
  sourceGuardKind := (file.sourceGuardKind.bind sourceGuardKindFromText).getD .unavailable

/-! ### Files below the work directory -/

/-- Discovery found the file below the work directory, under these names. -/
structure Walked (p : Platform) (workDir : Text) (file : DiscoveredFileOut)
    (names : List Text) : Prop where
  isName : ∀ name ∈ names, IsName p.isSeparator name
  path : file.path =
    directoryPrefix p (normalizeContractPathText workDir) ++ joinWith [p.separator] names
  normalized : normalizeContractPathText file.path = file.path

theorem replaceChar_append (a b : Char) (s t : Text) :
    replaceChar a b (s ++ t) = replaceChar a b s ++ replaceChar a b t := List.map_append

theorem replaceChar_self {a b : Char} {t : Text} (h : a ∉ t) : replaceChar a b t = t := by
  refine (List.map_congr_left fun c hc => ?_).trans (List.map_id t)
  rw [if_neg (by rintro rfl; exact h hc)]
  rfl

theorem not_mem_replaceChar {a b : Char} (hab : a ≠ b) (t : Text) : a ∉ replaceChar a b t := by
  intro h
  obtain ⟨c, -, hc⟩ := List.mem_map.1 h
  split_ifs at hc with hca
  · exact hab hc.symm
  · exact hca hc

theorem exists_trailing_backslashes (t : Text) :
    ∃ k, t = t.rdropWhile (· == '\\') ++ List.replicate k '\\' := by
  refine ⟨(t.rtakeWhile (· == '\\')).length, ?_⟩
  have hall : ∀ c ∈ t.rtakeWhile (· == '\\'), c = '\\' := fun c hc => by
    simpa using List.mem_rtakeWhile_imp hc
  rw [← List.eq_replicate_of_mem hall, List.rdropWhile_append_rtakeWhile]

theorem replaceChar_separator {p : Platform} {s : Char} (hs : p.isSeparator s = true) :
    replaceChar '/' '\\' [s] = ['\\'] := by
  have : s = '/' ∨ s = '\\' := by
    cases p <;> simp [Platform.isSeparator] at hs <;> tauto
  rcases this with rfl | rfl <;> rfl

/-- A directory written with backslashes is its trimmed text and at least one of them. -/
theorem replaceChar_directoryPrefix (p : Platform) (root : Text) :
    ∃ k, replaceChar '/' '\\' (directoryPrefix p root) =
      (replaceChar '/' '\\' root).rdropWhile (· == '\\') ++ List.replicate (k + 1) '\\' := by
  unfold directoryPrefix
  by_cases hend : root.getLast?.any p.isSeparator = true
  · rw [if_pos hend]
    obtain ⟨front, s, rfl⟩ := (List.eq_nil_or_concat root).resolve_left
      (by rintro rfl; cases hend)
    have hs : p.isSeparator s = true := by simpa using hend
    obtain ⟨k, hk⟩ := exists_trailing_backslashes (replaceChar '/' '\\' front)
    refine ⟨k, ?_⟩
    rw [List.concat_eq_append, replaceChar_append, replaceChar_separator hs,
      List.rdropWhile_concat_pos _ _ _ (by rfl), List.replicate_succ', ← List.append_assoc, ← hk]
  · rw [if_neg hend]
    obtain ⟨k, hk⟩ := exists_trailing_backslashes (replaceChar '/' '\\' root)
    refine ⟨k, ?_⟩
    rw [replaceChar_append, replaceChar_separator p.isSeparator_separator, List.replicate_succ',
      ← List.append_assoc, ← hk]

/-- Stripping by text leaves what was joined, behind the separators that were too many. -/
theorem stripRootText_joined {p : Platform} {root below relative : Text}
    (h : stripRootText (directoryPrefix p root ++ below) root = some relative) :
    ∃ k, relative = List.replicate k '\\' ++ replaceChar '/' '\\' below := by
  obtain ⟨k, hk⟩ := replaceChar_directoryPrefix p root
  unfold stripRootText at h
  simp only at h
  split_ifs at h
  simp only [Option.some.injEq] at h
  refine ⟨k, ?_⟩
  rw [← h, replaceChar_append, hk, List.replicate_succ, List.append_assoc, List.cons_append]
  simp

/-- **The relative path of a file below the work directory** is what the walk appended. -/
theorem relativeContractPath_walked {p : Platform} {workDir : Text} {file : DiscoveredFileOut}
    {names : List Text} (hwalk : Walked p workDir file names) {relative : Text}
    (h : relativeContractPath p workDir file.path = .ok relative) :
    relative = replaceChar '/' '\\' (joinWith [p.separator] names) := by
  simp only [relativeContractPath, hwalk.normalized] at h
  rw [hwalk.path] at h
  have hidem : ∀ t : Text, replaceChar '/' '\\' (replaceChar '/' '\\' t) =
      replaceChar '/' '\\' t := fun t => replaceChar_self (not_mem_replaceChar (by decide) t)
  rcases stripPrefix_join (p := p) (normalizeContractPathText workDir) hwalk.isName with
    hstrip | hstrip
  · rw [hstrip, Option.none_or] at h
    cases htext : stripRootText (directoryPrefix p (normalizeContractPathText workDir) ++
        joinWith [p.separator] names) (normalizeContractPathText workDir) with
    | none => simp [htext] at h
    | some rest =>
      obtain ⟨k, rfl⟩ := stripRootText_joined htext
      simp only [htext] at h
      split_ifs at h with hbad
      simp only [Except.ok.injEq] at h
      cases k with
      | zero => rw [← h, List.replicate_zero, List.nil_append, hidem]
      | succ k =>
        -- a leading backslash is rejected
        refine absurd (Or.inr (Or.inl ?_)) hbad
        rw [List.replicate_succ, List.cons_append]
        rfl
  · rw [hstrip, Option.some_or] at h
    simp only at h
    split_ifs at h
    simp only [Except.ok.injEq] at h
    exact h.symm

end DailyReport
