import DailyReport.Lib.Lowercase
import DailyReport.Lib.Path
import DailyReport.Lib.Sort
import DailyReport.Scanner.Discovered

/-!
# Directory trees and discovery requests

What discovery sees of a directory tree (`DirTree`), what it is asked for (`DiscoveryRequest`), and
the filters that its two walkers share.  A path is the list of its names below the root.  Between
the root and an entry that is reached there is no link, so the canonical path of the entry is the
one of the root with these names.
-/

namespace DailyReport.Discovery

open Lib

/-! ### What a host answers -/

/-- The patterns of the glob library. -/
class GlobRules where
  Pattern : Type
  new : Text → Except Text Pattern
  isMatch : Pattern → Text → Bool

structure LocalDateTime where
  /-- The day, counted from a fixed one. -/
  date : ℤ
  /-- `%Y-%m-%dT%H:%M:%S%.6f`. -/
  text : Text

/-- The local time of an instant after the epoch, unless it is ambiguous. -/
class LocalTime where
  ofInstant : ℤ → Option LocalDateTime

inductive IoErrorKind
  | notFound
  | invalidInput
  | invalidData
  | permissionDenied
  deriving DecidableEq, Repr

structure IoError where
  kind : IoErrorKind
  message : Text
  deriving DecidableEq

def ioError (kind : IoErrorKind) (message : String) : IoError := ⟨kind, lit message⟩

inductive EntryAccess
  | localEntry
  | localCloud
  | cloudUnavailable
  | link
  | unknownReparse
  deriving DecidableEq, Repr

/-- Entries whose content is on this host. -/
def EntryAccess.isLocal : EntryAccess → Bool
  | localEntry | localCloud => true
  | cloudUnavailable | link | unknownReparse => false

/-- The metadata of a file: when it was modified, in nanoseconds since the epoch, and its size. -/
structure Metadata where
  modified : Option ℤ
  len : ℕ

/-- A file comes with its metadata, if they can be read. -/
inductive NodeKind
  | directory
  | file (metadata : Option Metadata)
  | special

/-- A static directory tree.  An entry of a listing that cannot be read is `none`. -/
structure DirTree where
  platform : Platform
  /-- The work directory, as an absolute path. -/
  workDir : Text
  workDirAccess : Option EntryAccess
  /-- The canonical path of the root. -/
  root : Text
  /-- The components of the canonical path of the root. -/
  rootComponents : List Text
  /-- The components that a configured path resolves to, below the root where it is relative. -/
  resolve : Text → List Text
  /-- How many components a configured path has. -/
  componentCount : Text → ℕ
  access : List Text → Option EntryAccess
  kind : List Text → NodeKind
  readDir : List Text → Option (List (Option Text))
  /-- No directory is as deep as this. -/
  height : ℕ
  shallow : ∀ path, kind path = .directory → path.length < height
  /-- A work directory that is no link is the root itself. -/
  direct : workDirAccess.any EntryAccess.isLocal = true → access [] = workDirAccess
  /-- A listing never names the parent. -/
  proper : ∀ path names name, readDir path = some names → some name ∈ names → name ≠ lit ".."

/-- A root that is local is a work directory that is no link. -/
theorem direct_localEntry :
    (some EntryAccess.localEntry).any EntryAccess.isLocal = true →
      some EntryAccess.localEntry = some EntryAccess.localEntry :=
  fun _ => rfl

/-! ### Requests -/

/-- A request that does not follow links. -/
structure DiscoveryRequest where
  startDate : ℤ
  endDate : ℤ
  windowStartUtc : Option ℤ
  windowEndUtc : Option ℤ
  allowedExtensions : List Text
  ignoredPatterns : List Text
  excludedDirs : List Text

def validateWindow (request : DiscoveryRequest) : Except IoError Unit :=
  match request.windowStartUtc, request.windowEndUtc with
  | none, none =>
    if request.startDate ≤ request.endDate then .ok ()
    else .error (ioError .invalidInput "invalid scan window")
  | some start, some stop =>
    if start < stop then .ok () else .error (ioError .invalidInput "invalid scan window")
  | _, _ => .error (ioError .invalidInput "invalid scan window")

/-- The window and the root are checked first. -/
def checkRoot (tree : DirTree) (access : Option EntryAccess) (unavailable : String)
    (request : DiscoveryRequest) : Except IoError Unit := do
  validateWindow request
  if access.any EntryAccess.isLocal = false then .error (ioError .permissionDenied unavailable)
  match tree.kind [] with
  | .directory => .ok ()
  | _ => .error (ioError .invalidInput "work_dir is not a directory")

/-- The excluded directories, resolved. -/
def resolveExcludedDirs (tree : DirTree) (paths : List Text) : List (List Text) :=
  (paths.filter fun path => decide (path ≠ [])).map tree.resolve

/-- The entry is an excluded directory, or below one. -/
def isExcludedDir (tree : DirTree) (excluded : List (List Text)) (path : List Text) : Bool :=
  excluded.any fun dir => dir.isPrefixOf (tree.rootComponents ++ path)

section Names

variable [UnicodeCase]

/-- The excluded paths that are a single name. -/
def excludedNames (tree : DirTree) (excludedDirs : List Text) : List Text :=
  (excludedDirs.filter fun path => decide (tree.componentCount path = 1)).map toLowercase

def hasAllowedExtension (fileNameLower : Text) (allowedExtensions : List Text) : Bool :=
  allowedExtensions.any fun extension =>
    (toLowercase extension).isSuffixOf (toLowercase fileNameLower)

variable [GlobRules]

def compilePatterns (patterns : List Text) : Except IoError (List GlobRules.Pattern) :=
  patterns.mapM fun pattern =>
    match GlobRules.new (toLowercase pattern) with
    | .ok compiled => .ok compiled
    | .error e => .error
        ⟨.invalidInput, lit "invalid ignored pattern " ++ pattern ++ lit ": " ++ e⟩

def matchesIgnoredPattern (fileNameLower : Text) (patterns : List GlobRules.Pattern) : Bool :=
  patterns.any fun pattern => GlobRules.isMatch pattern fileNameLower

end Names

/-! ### Files -/

section Files

variable [UnicodeCase] [LocalTime]

def metadataModifiedLocal (metadata : Metadata) : Option LocalDateTime :=
  (metadata.modified.filter fun modified => decide (0 ≤ modified)).bind LocalTime.ofInstant

/-- The file was modified in the window, if its time can be read. -/
def metadataInWindow (metadata : Metadata) (request : DiscoveryRequest) : Option Bool :=
  match request.windowStartUtc, request.windowEndUtc with
  | some start, some stop =>
    metadata.modified.map fun modified => decide (start ≤ modified ∧ modified < stop)
  | _, _ =>
    (metadataModifiedLocal metadata).map fun modified =>
      decide (request.startDate ≤ modified.date ∧ modified.date ≤ request.endDate)

/-- The extension of a file name: what is behind its last dot, unless that is its first character. -/
def pathExtension (name : Text) : Option Text :=
  let extension := (name.reverse.takeWhile (· ≠ '.')).reverse
  if name.length ≤ extension.length + 1 then none else some extension

def lowerExtension (path : List Text) : Text :=
  match path.getLast?.bind pathExtension with
  | some extension => '.' :: toLowercase extension
  | none => []

/-- A path as the contract writes it. -/
def contractPathString (p : Platform) (path : Text) : Text :=
  match p with
  | .windows => normalizeContractPathText path
  | .unix => path

/-- The text of a path below some root. -/
def DirTree.pathText (tree : DirTree) (root : Text) (path : List Text) : Text :=
  directoryPrefix tree.platform root ++ joinWith [tree.platform.separator] path

/-- The identity of a file: its canonical path in lower case. -/
def DirTree.fileIdentity (tree : DirTree) (path : List Text) : Text :=
  lit "bootstrap:" ++ toLowercase (contractPathString tree.platform (tree.pathText tree.root path))

def buildSourceVersion (mtimeNs sizeBytes : ℕ) : Text :=
  lit "mtime_ns=" ++ decimal mtimeNs ++ lit ":size=" ++ decimal sizeBytes

/-- The record of a file, shown below a root. -/
def DirTree.discovered (tree : DirTree) (root : Text) (path : List Text) (metadata : Metadata)
    (modified : LocalDateTime) : DiscoveredFileOut where
  fileIdentity := tree.fileIdentity path
  path := contractPathString tree.platform (tree.pathText root path)
  extension := lowerExtension path
  modifiedAt := modified.text
  sizeBytes := metadata.len
  sourceVersion := buildSourceVersion (metadata.modified.getD 0).toNat metadata.len
  sourceGuardKind := none
  sourceGuardSha256 := none

end Files

/-! ### Reports -/

/-- Files whose identity is not known yet, the first of each. -/
def deduplicateResolvedAliases (files : List DiscoveredFileOut) : List DiscoveredFileOut :=
  files.foldl
    (fun unique file =>
      if file.fileIdentity ∈ unique.map DiscoveredFileOut.fileIdentity then unique
      else unique ++ [file]) []

/-- The files of a report: in the order of their paths, each identity once. -/
def reportFiles (files : List DiscoveredFileOut) : List DiscoveredFileOut :=
  deduplicateResolvedAliases (sortByKey DiscoveredFileOut.path files)

end DailyReport.Discovery
