import DailyReport.Lib.Lowercase
import DailyReport.Lib.Sort
import DailyReport.Contract.Checks
import Mathlib.Data.Prod.Lex

/-!
# The nominal order

`NominalKey` is the only sort key of the scanner: a priority read off the path and the extension,
then the lowercased path, the path and the file identity, compared in this order.  The priority
depends on the path only through the row of the special directories it lies in
(`priorityFor_eq_iff`).
-/

namespace DailyReport

open Lib

/-- Extensions of office documents and PDFs. -/
def officeOrPdfExtensions : List Text :=
  [lit ".doc", lit ".docx", lit ".pdf", lit ".ppt", lit ".pptx", lit ".xls", lit ".xlsm",
   lit ".xlsx"]

/-- Extensions of plain texts. -/
def textExtensions : List Text := [lit ".md", lit ".txt"]

/-- The full ordering key. -/
structure NominalKey where
  priority : ℕ
  lowerPath : Text
  path : Text
  fileIdentity : Text
  deriving DecidableEq

/-- The key as a lexicographic tuple. -/
def NominalKey.tuple (k : NominalKey) : ℕ ×ₗ Text ×ₗ Text ×ₗ Text :=
  toLex (k.priority, toLex (k.lowerPath, toLex (k.path, k.fileIdentity)))

theorem NominalKey.tuple_injective : Function.Injective NominalKey.tuple := by
  rintro ⟨p, l, q, i⟩ ⟨p', l', q', i'⟩ h
  simp only [NominalKey.tuple, EmbeddingLike.apply_eq_iff_eq, Prod.mk.injEq] at h
  obtain ⟨rfl, rfl, rfl, rfl⟩ := h
  rfl

instance : LinearOrder NominalKey := LinearOrder.lift' NominalKey.tuple NominalKey.tuple_injective

/-- The row of special directories a path lies in. -/
inductive DirectoryRow
  | cacheOrBenchmarks
  | logs
  | ordinary
  deriving DecidableEq, Repr

/-- The first special directory row that the (lowercased) path matches. -/
def directoryRow (lowerPath : Text) : DirectoryRow :=
  let pathKey := '\\' :: lowerPath ++ ['\\']
  if containsText pathKey (lit "\\.pytest_cache\\") || containsText pathKey
      (lit "\\data\\benchmarks\\") then .cacheOrBenchmarks
  else if containsText pathKey (lit "\\logs\\") then .logs
  else .ordinary

/-- Priority by the first matching row of the priority table. -/
def priorityFor (lowerPath extension : Text) : ℕ :=
  match directoryRow lowerPath with
  | .cacheOrBenchmarks => 70
  | .logs => 60
  | .ordinary =>
    if officeOrPdfExtensions.contains extension then 20
    else if textExtensions.contains extension then 30
    else 50

/-! ### The key of a file -/

section Key

variable [UnicodeCase]

/-- The path as the priority reads it: backslashes, no separator at the ends, lowercase. -/
def normalizeLower (relativePath : Text) : Text :=
  toLowercase (trimMatches '\\' (replaceChar '/' '\\' relativePath))

def NominalKey.new (relativePath extension fileIdentity : Text) : NominalKey where
  priority := priorityFor (normalizeLower relativePath) extension
  lowerPath := toLowercase relativePath
  path := relativePath
  fileIdentity := fileIdentity

theorem NominalKey.new_injective {path path' ext ext' identity identity' : Text}
    (h : NominalKey.new path ext identity = NominalKey.new path' ext' identity') :
    identity = identity' := by
  simp only [NominalKey.new, NominalKey.mk.injEq] at h
  exact h.2.2.2

end Key

/-! ### Comparing keys -/

theorem NominalKey.le_iff {k k' : NominalKey} :
    k ≤ k' ↔ k.priority < k'.priority ∨ k.priority = k'.priority ∧
      (toLex (k.lowerPath, toLex (k.path, k.fileIdentity)) ≤
        toLex (k'.lowerPath, toLex (k'.path, k'.fileIdentity))) := by
  have h : k ≤ k' ↔ k.tuple ≤ k'.tuple := Iff.rfl
  rw [h, NominalKey.tuple, NominalKey.tuple, Prod.Lex.le_iff]
  rfl

/-- Outside the ordinary row the priority does not look at the extension, and it tells the rows
apart. -/
theorem priorityFor_eq_iff {lower lower' ext : Text} :
    priorityFor lower ext = priorityFor lower' ext ↔ directoryRow lower = directoryRow lower' := by
  unfold priorityFor
  constructor
  · intro h
    cases hl : directoryRow lower <;> cases hl' : directoryRow lower' <;>
      simp only [hl, hl'] at h <;> first | rfl | (split_ifs at h <;> omega) | omega
  · intro h
    rw [h]

end DailyReport
