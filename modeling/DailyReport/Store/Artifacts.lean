import DailyReport.Store.Tables

/-!
# Storing and loading artifacts

An artifact is written as a row with the rows it owns (`insertArtifact`), enumerations as texts, and
read back from them (`loadArtifact`).  Reading returns the draft that was written
(`loadArtifact_of_insert`), so a recomputed context can be compared with a stored one
(`dedupArtifact`).
-/

namespace DailyReport.Store

open Lib

def checkFailed : StoreError := .cacheWrite (lit "CHECK constraint failed")
def uniqueFailed : StoreError := .cacheWrite (lit "UNIQUE constraint failed")
def foreignKeyFailed : StoreError := .cacheWrite (lit "FOREIGN KEY constraint failed")
def databaseFull : StoreError := .cacheWrite (lit "database or disk is full")

/-! ### Rows as they are stored -/

def ContextArtifactFileRow.ofFile (row : ArtifactFileRow) : ContextArtifactFileRow where
  fileIdentity := row.fileIdentity
  relativePath := row.relativePath
  sourceVersion := row.legacySourceVersion
  sourceGuardKind := row.sourceGuardKind
  sourceGuardSha256 := row.sourceGuardSha256
  parseProfileHash := row.parseProfileHash
  parseStatus := row.parseStatus.wireName
  parserBackend := row.parserBackend
  workerLane := row.workerLane
  truncated := row.truncated
  contentSha256 := row.contentSha256
  classifierStatus := row.classifier.map fun c => c.status.wireName
  classifierPageCount := row.classifier.bind fun c => c.pageCount
  classifierResultExaminedPages := row.classifier.bind fun c => c.resultExaminedPages
  classifierNominalChargedPages := row.classifier.map fun c => c.nominalChargedPages
  classifierBuild := row.classifier.map fun c => c.classifierBuild
  classifierProfileHash := row.classifier.map fun c => c.classifierProfileHash

def ContextArtifactDecisionRow.ofDecision (row : ArtifactDecisionRow) :
    ContextArtifactDecisionRow where
  fileIdentity := row.fileIdentity
  relativePath := row.relativePath
  action := row.action.wireName
  reason := row.reason
  priority := row.priority
  inputChars := row.inputChars
  outputChars := row.outputChars
  truncated := row.truncated
  errorCode := row.errorCode

def enumInvalid : StoreError := .runCorrupt (lit "persisted contract enum is invalid")

/-- The enumeration member that a column holds. -/
def parseColumn {α : Type} (all : List α) (wireName : α → Text) (value : Text) :
    Except StoreError α :=
  match parseContractEnum all wireName value with
  | some a => .ok a
  | none => .error enumInvalid

/-- The classification that a row holds, where it names a status, a build and a profile. -/
def ContextArtifactFileRow.classifier (row : ContextArtifactFileRow) :
    Except StoreError (Option PdfClassificationProvenanceV1) :=
  match row.classifierStatus, row.classifierBuild, row.classifierProfileHash with
  | some status, some build, some profileHash => do
    let status ← parseColumn PdfClassificationStatus.all PdfClassificationStatus.wireName status
    .ok (some
      { status
        pageCount := row.classifierPageCount
        resultExaminedPages := row.classifierResultExaminedPages
        nominalChargedPages := row.classifierNominalChargedPages.getD 0
        classifierBuild := build
        classifierProfileHash := profileHash })
  | _, _, _ => .ok none

def ContextArtifactFileRow.toFile (row : ContextArtifactFileRow) :
    Except StoreError ArtifactFileRow := do
  let parseStatus ← parseColumn ParseStatus.all ParseStatus.wireName row.parseStatus
  let classifier ← row.classifier
  .ok
    { fileIdentity := row.fileIdentity
      relativePath := row.relativePath
      legacySourceVersion := row.sourceVersion
      sourceGuardKind := row.sourceGuardKind
      sourceGuardSha256 := row.sourceGuardSha256
      parseProfileHash := row.parseProfileHash
      parseStatus
      parserBackend := row.parserBackend
      workerLane := row.workerLane
      truncated := row.truncated
      contentSha256 := row.contentSha256
      classifier }

def ContextArtifactDecisionRow.toDecision (row : ContextArtifactDecisionRow) :
    Except StoreError ArtifactDecisionRow := do
  let action ← parseColumn ContextAction.all ContextAction.wireName row.action
  .ok
    { fileIdentity := row.fileIdentity
      relativePath := row.relativePath
      action
      reason := row.reason
      priority := row.priority
      inputChars := row.inputChars
      outputChars := row.outputChars
      truncated := row.truncated
      errorCode := row.errorCode }

theorem ContextArtifactFileRow.toFile_ofFile (row : ArtifactFileRow) :
    (ContextArtifactFileRow.ofFile row).toFile = .ok row := by
  obtain ⟨_, _, _, _, _, _, _, _, _, _, _, classifier⟩ := row
  cases classifier with
  | none => simp [ofFile, toFile, ContextArtifactFileRow.classifier, parseColumn, bind, Except.bind]
  | some c => simp [ofFile, toFile, ContextArtifactFileRow.classifier, parseColumn, bind, Except.bind]

theorem ContextArtifactDecisionRow.toDecision_ofDecision (row : ArtifactDecisionRow) :
    (ContextArtifactDecisionRow.ofDecision row).toDecision = .ok row := by
  simp [ofDecision, toDecision, parseColumn, bind, Except.bind]

theorem mapM_toFile (rows : List ArtifactFileRow) :
    (rows.map ContextArtifactFileRow.ofFile).mapM ContextArtifactFileRow.toFile = .ok rows := by
  rw [mapM_eq_ok, List.forall₂_map_left_iff]
  exact List.forall₂_same.2 fun row _ => ContextArtifactFileRow.toFile_ofFile row

theorem mapM_toDecision (rows : List ArtifactDecisionRow) :
    (rows.map ContextArtifactDecisionRow.ofDecision).mapM ContextArtifactDecisionRow.toDecision =
      .ok rows := by
  rw [mapM_eq_ok, List.forall₂_map_left_iff]
  exact List.forall₂_same.2 fun row _ => ContextArtifactDecisionRow.toDecision_ofDecision row

/-! ### Constraints -/

def fitsColumn (value : Option ℕ) : Bool := value.all fun n => decide (n ≤ i64Max)

def hashColumn (value : Option Text) : Bool := value.all fun t => decide (t.length = 64)

/-- The `CHECK`s of `context_artifact_files`. -/
def ContextArtifactFileRow.checks (row : ContextArtifactFileRow) : Bool :=
  hashColumn (some row.parseProfileHash) && hashColumn (some row.contentSha256) &&
    fitsColumn row.classifierPageCount && fitsColumn row.classifierResultExaminedPages &&
    fitsColumn row.classifierNominalChargedPages && hashColumn row.classifierBuild &&
    hashColumn row.classifierProfileHash

/-- The `CHECK`s of `context_artifact_decisions`. -/
def ContextArtifactDecisionRow.checks (row : ContextArtifactDecisionRow) : Bool :=
  fitsColumn (some row.priority) && fitsColumn (some row.inputChars) &&
    fitsColumn (some row.outputChars)

/-- The rows that an eligible draft owns. -/
def ownedFiles (draft : ArtifactDraft) : List ContextArtifactFileRow :=
  if draft.snapshotEligible then draft.fileRows.map ContextArtifactFileRow.ofFile else []

def ownedDecisions (draft : ArtifactDraft) : List ContextArtifactDecisionRow :=
  if draft.snapshotEligible then draft.decisionRows.map ContextArtifactDecisionRow.ofDecision else []

/-- No other snapshot has the digest. -/
def keyIsNew (db : Db) (key : Option SnapshotKeyParts) : Bool :=
  key.all fun key => db.artifacts.all fun row =>
    !(row.snapshotEligible && decide (row.snapshotKeySha256 = some key.sha256))

/-- Write an artifact with the rows it owns, and return its id. -/
def insertArtifact (db : Db) (draft : ArtifactDraft) (key : Option SnapshotKeyParts)
    (semanticSummaryJson : Text) (size : ℕ) (now : ℤ) : Except StoreError (Db × ℕ) := do
  require (draft.contextSha256.length = 64) checkFailed
  require (keyIsNew db key = true) uniqueFailed
  require (db.nextArtifact ≤ i64Max) databaseFull
  require ((ownedFiles draft).all ContextArtifactFileRow.checks = true) checkFailed
  require ((ownedFiles draft).map ContextArtifactFileRow.fileIdentity).Nodup uniqueFailed
  require ((ownedDecisions draft).all ContextArtifactDecisionRow.checks = true) checkFailed
  require ((ownedDecisions draft).map ContextArtifactDecisionRow.fileIdentity).Nodup uniqueFailed
  require (∀ row ∈ ownedDecisions draft,
    row.fileIdentity ∈ (ownedFiles draft).map ContextArtifactFileRow.fileIdentity) foreignKeyFailed
  .ok
    ({ db with
        artifacts := db.artifacts ++
          [{ artifactId := db.nextArtifact
             snapshotEligible := key.isSome
             snapshotKeySha256 := key.map SnapshotKeyParts.sha256
             snapshotKeyJson := key.map SnapshotKeyParts.canonicalJson
             finalContext := draft.finalContext
             contextSha256 := draft.contextSha256
             semanticSummaryJson
             artifactSizeBytes := size
             createdAtMs := now
             files := ownedFiles draft
             decisions := ownedDecisions draft }]
        nextArtifact := db.nextArtifact + 1 },
      db.nextArtifact)

/-! ### Sizes -/

/-- The bytes of the text and integer columns of a file row. -/
def fileRowBytes (row : ArtifactFileRow) : ℕ :=
  8 + byteLength row.fileIdentity + byteLength row.relativePath +
    byteLength row.legacySourceVersion + (row.sourceGuardKind.map byteLength).getD 0 +
    (row.sourceGuardSha256.map byteLength).getD 0 + byteLength row.parseProfileHash +
    byteLength row.parseStatus.wireName + byteLength row.parserBackend +
    byteLength row.workerLane + 8 + byteLength row.contentSha256 +
    (row.classifier.map fun c =>
      byteLength c.status.wireName + (c.pageCount.map fun _ => 8).getD 0 +
        (c.resultExaminedPages.map fun _ => 8).getD 0 + 8 + byteLength c.classifierBuild +
        byteLength c.classifierProfileHash).getD 0

/-- The bytes of the text and integer columns of a decision row. -/
def decisionRowBytes (row : ArtifactDecisionRow) : ℕ :=
  8 + byteLength row.fileIdentity + byteLength row.relativePath + byteLength row.action.wireName +
    byteLength row.reason + 8 + 8 + 8 + 8 + byteLength row.errorCode

/-- The bytes of an artifact with the rows of its draft. -/
def artifactSizeBytes (draft : ArtifactDraft) (semanticSummaryJson : Text)
    (key : Option SnapshotKeyParts) : ℕ :=
  8 + byteLength draft.finalContext + byteLength draft.contextSha256 +
    byteLength semanticSummaryJson + 8 + 10 +
    (key.map fun key => byteLength key.sha256 + byteLength key.canonicalJson).getD 0 +
    (draft.fileRows.map fileRowBytes).sum + (draft.decisionRows.map decisionRowBytes).sum

/-! ### Loading -/

def loadSemanticSummary (json : Text) : Except StoreError SemanticSummary :=
  match (Json.parse json).bind SemanticSummary.ofJson with
  | some summary => .ok summary
  | none => .error (.runCorrupt (lit "artifact semantic summary is invalid"))

theorem loadSemanticSummary_print {s : SemanticSummary} (h : s.Fits) :
    loadSemanticSummary s.json.print = .ok s := by
  rw [loadSemanticSummary, Json.parse_print, Option.bind_some, SemanticSummary.ofJson_json h]

variable [Sha256]

/-- The draft of a stored row.  The digest of the context is computed again. -/
def ContextArtifactRow.load (row : ContextArtifactRow) : Except StoreError ArtifactDraft := do
  let semanticSummary ← loadSemanticSummary row.semanticSummaryJson
  let fileRows ← (sortByKey ContextArtifactFileRow.fileIdentity row.files).mapM
    ContextArtifactFileRow.toFile
  let decisionRows ← (sortByKey ContextArtifactDecisionRow.fileIdentity row.decisions).mapM
    ContextArtifactDecisionRow.toDecision
  require (Sha256.hex row.finalContext = row.contextSha256)
    (.runCorrupt (lit "artifact context hash is invalid"))
  .ok
    { snapshotEligible := row.snapshotEligible
      finalContext := row.finalContext
      contextSha256 := row.contextSha256
      semanticSummary
      fileRows
      decisionRows }

def findArtifact (db : Db) (artifactId : ℕ) : Option ContextArtifactRow :=
  db.artifacts.find? fun row => decide (row.artifactId = artifactId)

def loadArtifact (db : Db) (artifactId : ℕ) : Except StoreError ArtifactDraft :=
  match findArtifact db artifactId with
  | none => .error .runNotFound
  | some row => row.load

/-- The stored snapshot with a digest. -/
def findSnapshot (db : Db) (sha256 : Text) : Option ContextArtifactRow :=
  db.artifacts.find? fun row => row.snapshotEligible && decide (row.snapshotKeySha256 = some sha256)

/-- The stored artifact that a recomputed draft is the same as. -/
def dedupArtifact (db : Db) (draft : ArtifactDraft) (key : SnapshotKeyParts) :
    Except StoreError (Option ℕ) :=
  match findSnapshot db key.sha256 with
  | none => .ok none
  | some row => do
    let existing ← row.load
    if row.snapshotKeyJson = some key.canonicalJson ∧ existing = draft then .ok (some row.artifactId)
    else .error (.artifactMismatch (lit "snapshot key " ++ key.sha256 ++
      lit " already exists with different artifact semantics"))

/-! ### The draft that was written is loaded -/

/-- A row that was written from a draft. -/
def ContextArtifactRow.Holds (row : ContextArtifactRow) (draft : ArtifactDraft) : Prop :=
  row.snapshotEligible = draft.snapshotEligible ∧ row.finalContext = draft.finalContext ∧
    row.contextSha256 = draft.contextSha256 ∧
    row.semanticSummaryJson = draft.semanticSummary.json.print ∧
    row.files = ownedFiles draft ∧ row.decisions = ownedDecisions draft

/-- **A stored draft is loaded as it was.** -/
theorem ContextArtifactRow.load_of_holds {row : ContextArtifactRow} {draft : ArtifactDraft}
    (h : row.Holds draft) (hdraft : draft.WellFormed) : row.load = .ok draft := by
  obtain ⟨heligible, hcontext, hsha, hsummary, hfiles, hdecisions⟩ := h
  have hfileRows : (sortByKey ContextArtifactFileRow.fileIdentity row.files).mapM
      ContextArtifactFileRow.toFile = .ok draft.fileRows := by
    rw [hfiles, ownedFiles]
    split_ifs with he
    · rw [sortByKey_of_sorted, mapM_toFile]
      exact List.pairwise_map.2 hdraft.files_sorted
    · rw [(hdraft.rows_of_ineligible (by simpa using he)).1]
      rfl
  have hdecisionRows : (sortByKey ContextArtifactDecisionRow.fileIdentity row.decisions).mapM
      ContextArtifactDecisionRow.toDecision = .ok draft.decisionRows := by
    rw [hdecisions, ownedDecisions]
    split_ifs with he
    · rw [sortByKey_of_sorted, mapM_toDecision]
      exact List.pairwise_map.2 hdraft.decisions_sorted
    · rw [(hdraft.rows_of_ineligible (by simpa using he)).2]
      rfl
  unfold ContextArtifactRow.load
  rw [hsummary, loadSemanticSummary_print hdraft.fits, hfileRows, hdecisionRows, hcontext, hsha,
    heligible, ← hdraft.hash]
  simp [bind, Except.bind, require]

end DailyReport.Store
