import DailyReport.Contract.Request
import DailyReport.Lib.Sort
import DailyReport.Store.Exactness

/-!
# Canonical requests

`canonicalizeRequest` projects a request and its normalized profile to the JSON text by which a
request that is made again is recognised.  The text names the work directory, the dates, the mode
and the four profiles, and determines each of them (`SameProjection.of_json`).  The UTC window and
the limits at the top level of the profile are not in it.

* `request_replay_complete` : when a request is answered with the stored envelope of an earlier one,
  **the two agree on everything that determines the scan exactly when they agree on the window and
  the limits**;
* `request_replay_ignores_window` : a request for another window gets the stored envelope.
-/

namespace DailyReport

open Lib

/-! ### The projection -/

/-- An array of strings. -/
def stringsJson (values : List Text) : Json := .arr (values.map .str)

theorem stringsJson_injective : Function.Injective stringsJson := by
  intro values values' h
  have hmap : values.map Json.str = values'.map Json.str := by simpa [stringsJson] using h
  exact List.map_injective_iff.2 (fun _ _ h => by simpa using h) hmap

def DiscoveryProfile.json (p : DiscoveryProfile) : Json :=
  .obj [(lit "allowed_extensions", stringsJson p.allowedExtensions),
    (lit "ignored_patterns", stringsJson p.ignoredPatterns),
    (lit "excluded_dirs", stringsJson p.excludedDirs),
    (lit "follow_symlinks", .bool p.followSymlinks),
    (lit "cloud_files_policy", .str p.cloudFilesPolicy)]

/-- A map with its keys sorted. -/
def timeoutsJson (timeouts : AList fun _ : Text => ℕ) : Json :=
  .obj ((sortByKey Sigma.fst timeouts.entries).map fun entry => (entry.1, .num entry.2))

def ExecutionProfile.json (p : ExecutionProfile) : Json :=
  .obj [(lit "max_workers", .num p.maxWorkers),
    (lit "max_file_size_bytes", .num p.maxFileSizeBytes),
    (lit "discovery_timeout_ms", .num p.discoveryTimeoutMs),
    (lit "file_timeout_ms", .num p.fileTimeoutMs),
    (lit "file_timeout_by_extension_ms", timeoutsJson p.fileTimeoutByExtensionMs)]

def TextParseProfile.json (p : TextParseProfile) : Json :=
  .obj [(lit "csv_encodings", stringsJson p.csvEncodings), (lit "backend", .str p.backend),
    (lit "read_head_bytes", .num p.readHeadBytes), (lit "read_tail_bytes", .num p.readTailBytes),
    (lit "max_chars", .num p.maxChars), (lit "excerpt_max_chars", .num p.excerptMaxChars)]

def OfficeParseProfile.json (p : OfficeParseProfile) : Json :=
  .obj [(lit "primary_backend", .str p.primaryBackend),
    (lit "legacy_extensions_enabled", .bool p.legacyExtensionsEnabled),
    (lit "excel_max_sheets", .num p.excelMaxSheets), (lit "excel_max_rows", .num p.excelMaxRows),
    (lit "excel_max_columns", .num p.excelMaxColumns),
    (lit "docx_max_paragraphs", .num p.docxMaxParagraphs),
    (lit "docx_max_tables", .num p.docxMaxTables),
    (lit "docx_table_max_rows", .num p.docxTableMaxRows),
    (lit "docx_table_max_cols", .num p.docxTableMaxCols),
    (lit "pptx_max_slides", .num p.pptxMaxSlides),
    (lit "pptx_include_notes", .bool p.pptxIncludeNotes),
    (lit "document_excerpt_max_chars", .num p.documentExcerptMaxChars)]

def PdfParseProfile.json (p : PdfParseProfile) : Json :=
  .obj [(lit "selection_policy_version", .str p.selectionPolicyVersion),
    (lit "backend", .str p.backend), (lit "max_pages", .num p.maxPages),
    (lit "excerpt_max_chars", .num p.excerptMaxChars)]

/-- The field of the priority paths is left out when there are none. -/
def priorityPathsField (paths : List Text) : List (Text × Json) :=
  if paths = [] then [] else [(lit "excerpt_priority_paths", stringsJson paths)]

def ParseProfile.json (p : ParseProfile) : Json :=
  .obj ([(lit "cache_payload_version", .num p.cachePayloadVersion),
    (lit "excerpt_policy_version", .str p.excerptPolicyVersion)] ++
    priorityPathsField p.excerptPriorityPaths ++
    [(lit "aggregate_max_chars", .num p.aggregateMaxChars), (lit "text", p.text.json),
      (lit "office", p.office.json), (lit "pdf", p.pdf.json)])

def ContextProfile.json (p : ContextProfile) : Json :=
  .obj [(lit "profile_name", .str p.profileName), (lit "global_max_chars", .num p.globalMaxChars),
    (lit "per_file_max_chars", .num p.perFileMaxChars),
    (lit "small_file_max_bytes", .num p.smallFileMaxBytes),
    (lit "medium_file_max_bytes", .num p.mediumFileMaxBytes),
    (lit "large_file_max_bytes", .num p.largeFileMaxBytes),
    (lit "priority_policy_version", .str p.priorityPolicyVersion),
    (lit "compression_policy_version", .str p.compressionPolicyVersion)]

/-- The wire name of a report mode. -/
def ReportMode.wireName : ReportMode → Text
  | .daily => lit "daily"
  | .weekly => lit "weekly"
  | .monthly => lit "monthly"

/-- `CanonicalLogicalRequest`, whose settings name the build of the engine. -/
def canonicalLogicalRequest (engineBuild workDir : Text) (request : BuildContextRequest)
    (profile : NormalizedScannerSettings) : Json :=
  .obj [(lit "contract", .str request.contract),
    (lit "protocol_version", .num request.protocolVersion), (lit "work_dir", .str workDir),
    (lit "start_date", .str request.startDate), (lit "end_date", .str request.endDate),
    (lit "report_mode", .str request.reportMode.wireName),
    (lit "scanner_settings", .obj [(lit "core_build_identity", .str engineBuild),
      (lit "discovery", profile.discovery.json), (lit "execution", profile.execution.json),
      (lit "parse", profile.parse.json)]),
    (lit "context_profile", profile.context.json)]

/-! ### What the projection determines -/

/-- The same execution settings; the timeouts are a map. -/
structure SameExecution (p q : ExecutionProfile) : Prop where
  maxWorkers : p.maxWorkers = q.maxWorkers
  maxFileSizeBytes : p.maxFileSizeBytes = q.maxFileSizeBytes
  discoveryTimeoutMs : p.discoveryTimeoutMs = q.discoveryTimeoutMs
  fileTimeoutMs : p.fileTimeoutMs = q.fileTimeoutMs
  timeouts : ∀ extension,
    p.fileTimeoutByExtensionMs.lookup extension = q.fileTimeoutByExtensionMs.lookup extension

/-- The same request as far as the projection goes: directory, dates, mode and profiles. -/
structure SameProjection (workDir workDir' : Text) (r r' : BuildContextRequest)
    (p p' : NormalizedScannerSettings) : Prop where
  workDir : workDir = workDir'
  startDate : r.startDate = r'.startDate
  endDate : r.endDate = r'.endDate
  reportMode : r.reportMode = r'.reportMode
  discovery : p.discovery = p'.discovery
  execution : SameExecution p.execution p'.execution
  parse : p.parse = p'.parse
  context : p.context = p'.context

theorem DiscoveryProfile.json_injective : Function.Injective DiscoveryProfile.json := by
  rintro ⟨_, _, _, _, _⟩ ⟨_, _, _, _, _⟩ h
  simpa [DiscoveryProfile.json, stringsJson_injective.eq_iff] using h

theorem TextParseProfile.json_injective : Function.Injective TextParseProfile.json := by
  rintro ⟨_, _, _, _, _, _⟩ ⟨_, _, _, _, _, _⟩ h
  simpa [TextParseProfile.json, stringsJson_injective.eq_iff] using h

theorem OfficeParseProfile.json_injective : Function.Injective OfficeParseProfile.json := by
  rintro ⟨_, _, _, _, _, _, _, _, _, _, _, _⟩ ⟨_, _, _, _, _, _, _, _, _, _, _, _⟩ h
  simpa [OfficeParseProfile.json] using h

theorem PdfParseProfile.json_injective : Function.Injective PdfParseProfile.json := by
  rintro ⟨_, _, _, _⟩ ⟨_, _, _, _⟩ h
  simpa [PdfParseProfile.json] using h

theorem ContextProfile.json_injective : Function.Injective ContextProfile.json := by
  rintro ⟨_, _, _, _, _, _, _, _⟩ ⟨_, _, _, _, _, _, _, _⟩ h
  simpa [ContextProfile.json] using h

/-- Paths that are left out are not taken for paths that are there. -/
theorem priorityPathsField_inj {paths paths' : List Text} {v v' : Json} {rest rest' : List (Text × Json)}
    (h : priorityPathsField paths ++ (lit "aggregate_max_chars", v) :: rest =
      priorityPathsField paths' ++ (lit "aggregate_max_chars", v') :: rest') :
    paths = paths' ∧ v = v' ∧ rest = rest' := by
  have hkey : lit "aggregate_max_chars" ≠ lit "excerpt_priority_paths" := by decide +kernel
  unfold priorityPathsField at h
  by_cases hnil : paths = [] <;> by_cases hnil' : paths' = []
  · simpa [hnil, hnil'] using h
  · simp [hnil, hnil', hkey] at h
  · simp [hnil, hnil', hkey.symm] at h
  · simpa [hnil, hnil', stringsJson_injective.eq_iff] using h

theorem ParseProfile.json_injective : Function.Injective ParseProfile.json := by
  rintro ⟨_, _, paths, _, _, _, _⟩ ⟨_, _, paths', _, _, _, _⟩ h
  simp only [ParseProfile.json, Json.obj.injEq, List.cons_append, List.nil_append,
    List.cons.injEq, Prod.mk.injEq, Json.num.injEq, Json.str.injEq, true_and] at h
  obtain ⟨rfl, rfl, h⟩ := h
  obtain ⟨rfl, haggregate, h⟩ := priorityPathsField_inj h
  simp only [List.cons.injEq, Prod.mk.injEq, TextParseProfile.json_injective.eq_iff,
    OfficeParseProfile.json_injective.eq_iff, PdfParseProfile.json_injective.eq_iff, true_and,
    and_true] at h
  obtain ⟨rfl, rfl, rfl⟩ := h
  cases haggregate
  rfl

/-- A map is known by its sorted entries. -/
theorem lookup_of_timeoutsJson {timeouts timeouts' : AList fun _ : Text => ℕ}
    (h : timeoutsJson timeouts = timeoutsJson timeouts') (extension : Text) :
    timeouts.lookup extension = timeouts'.lookup extension := by
  have hsorted : sortByKey Sigma.fst timeouts.entries = sortByKey Sigma.fst timeouts'.entries := by
    refine List.map_injective_iff.2 ?_ (Json.obj.inj h)
    rintro ⟨key, value⟩ ⟨key', value'⟩ heq
    simpa using heq
  refine AList.perm_lookup ?_
  calc timeouts.entries.Perm (sortByKey Sigma.fst timeouts.entries) := (sortByKey_perm _ _).symm
    _ = sortByKey Sigma.fst timeouts'.entries := hsorted
    _ |>.Perm timeouts'.entries := sortByKey_perm _ _

theorem SameExecution.of_json {p q : ExecutionProfile} (h : p.json = q.json) : SameExecution p q := by
  simp only [ExecutionProfile.json, Json.obj.injEq, List.cons.injEq, Prod.mk.injEq, Json.num.injEq,
    true_and, and_true] at h
  obtain ⟨hworkers, hsize, hdiscovery, hfile, htimeouts⟩ := h
  exact ⟨hworkers, hsize, hdiscovery, hfile, lookup_of_timeoutsJson htimeouts⟩

theorem ReportMode.wireName_injective : Function.Injective ReportMode.wireName := by
  intro mode mode'
  cases mode <;> cases mode' <;> simp [ReportMode.wireName, lit_eq]

/-- **The text of a request determines the directory, the dates, the mode and the profiles.** -/
theorem SameProjection.of_json {build build' workDir workDir' : Text} {r r' : BuildContextRequest}
    {p p' : NormalizedScannerSettings}
    (h : (canonicalLogicalRequest build workDir r p).print =
      (canonicalLogicalRequest build' workDir' r' p').print) :
    SameProjection workDir workDir' r r' p p' := by
  have hjson := Json.print_injective h
  simp only [canonicalLogicalRequest, Json.obj.injEq, List.cons.injEq, Prod.mk.injEq, Json.str.injEq,
    Json.num.injEq, true_and, and_true, DiscoveryProfile.json_injective.eq_iff,
    ParseProfile.json_injective.eq_iff, ContextProfile.json_injective.eq_iff,
    ReportMode.wireName_injective.eq_iff] at hjson
  obtain ⟨-, -, hdir, hstart, hend, hmode, ⟨-, hdiscovery, hexecution, hparse⟩, hcontext⟩ := hjson
  exact ⟨hdir, hstart, hend, hmode, hdiscovery, .of_json hexecution, hparse, hcontext⟩

namespace Store

/-! ### Canonicalizing a request -/

/-- A Windows path without its verbatim prefix. -/
def normalizeContractPathText (value : Text) : Text :=
  match stripPrefixText (lit "\\\\?\\UNC\\") value with
  | some stripped => lit "\\\\" ++ stripped
  | none => (stripPrefixText (lit "\\\\?\\") value).getD value

/-- The work directory of a request.  `resolve` is `fs::canonicalize`, which fails where there is no
such directory. -/
def canonicalWorkDir (resolve : Text → Option Text) (workDir : Text) : Option Text :=
  (resolve workDir).map normalizeContractPathText

section Replays

variable [Sha256]

/-- The canonical text of a request with the profile it was normalized to. -/
def canonicalizeRequest (engineBuild : Text) (resolve : Text → Option Text)
    (request : BuildContextRequest) (profile : NormalizedScannerSettings) :
    Except StoreError CanonicalRequest := do
  checked request.validate
  checked profile.validate
  require (request.reportMode = profile.reportMode)
    (.invalidRequest (lit "request and normalized report modes disagree"))
  match canonicalWorkDir resolve request.workDir with
  | none => .error (.invalidRequest (lit "work_dir is unavailable"))
  | some workDir =>
    let json := (canonicalLogicalRequest engineBuild workDir request profile).print
    .ok { requestId := request.requestId, json, hashAlgorithm := requestHashAlgorithm
          hash := requestHash json }

theorem canonicalizeRequest_ok {engineBuild : Text} {resolve : Text → Option Text}
    {request : BuildContextRequest} {profile : NormalizedScannerSettings} {canonical : CanonicalRequest}
    (h : canonicalizeRequest engineBuild resolve request profile = .ok canonical) :
    ∃ workDir, canonicalWorkDir resolve request.workDir = some workDir ∧
      canonical.json = (canonicalLogicalRequest engineBuild workDir request profile).print := by
  unfold canonicalizeRequest at h
  simp only [bind_eq_ok] at h
  obtain ⟨-, -, -, -, -, -, h⟩ := h
  cases hdir : canonicalWorkDir resolve request.workDir with
  | none => rw [hdir] at h; cases h
  | some workDir =>
    rw [hdir] at h
    cases h
    exact ⟨workDir, rfl, rfl⟩

/-! ### What determines the scan -/

/-- The same UTC window. -/
structure SameWindow (r r' : BuildContextRequest) : Prop where
  windowStartUtc : r.windowStartUtc = r'.windowStartUtc
  windowEndUtc : r.windowEndUtc = r'.windowEndUtc

/-- The same policies, quotas and deadlines at the top level of the profile. -/
structure SameLimits (p p' : NormalizedScannerSettings) : Prop where
  admissionPolicyVersion : p.admissionPolicyVersion = p'.admissionPolicyVersion
  classifierPolicyVersion : p.classifierPolicyVersion = p'.classifierPolicyVersion
  maxCandidateFiles : p.maxCandidateFiles = p'.maxCandidateFiles
  maxPdfTextExtractions : p.maxPdfTextExtractions = p'.maxPdfTextExtractions
  maxTotalPdfClassificationPages :
    p.maxTotalPdfClassificationPages = p'.maxTotalPdfClassificationPages
  pdfClassificationTimeoutMs : p.pdfClassificationTimeoutMs = p'.pdfClassificationTimeoutMs
  totalDeadlineMs : p.totalDeadlineMs = p'.totalDeadlineMs
  workerMaxRequests : p.workerMaxRequests = p'.workerMaxRequests
  workerIdleTtlMs : p.workerIdleTtlMs = p'.workerIdleTtlMs
  workerRssLimitBytes : p.workerRssLimitBytes = p'.workerRssLimitBytes

/-- The two requests ask for the same scan: they agree on everything that the run reads of them. -/
structure SameScan (workDir workDir' : Text) (r r' : BuildContextRequest)
    (p p' : NormalizedScannerSettings) : Prop where
  projection : SameProjection workDir workDir' r r' p p'
  window : SameWindow r r'
  limits : SameLimits p p'

/-! ### Beginning a request again -/

variable {db db' : Db} {requestId storePath ownerId : Text} {canonical : CanonicalRequest}
  {runtime : AttemptRuntime} {nowMs : ℕ}

/-- A stored envelope is that of the run of the request, whose text is the text of the request. -/
theorem beginRun_stored {stored : StoredEnvelope}
    (h : beginRun db requestId canonical runtime storePath ownerId nowMs = .ok (db', .stored stored)) :
    ∃ row ∈ db.runs, row.scanRunId = stored.scanRunId ∧
      row.canonicalRequestJson = canonical.json := by
  unfold beginRun at h
  simp only [bind_eq_ok] at h
  obtain ⟨now, -, ⟨⟩, hexisting, h⟩ := h
  cases hterminal : (findRun db requestId).filter fun run => run.status.isTerminal with
  | none =>
    rw [hterminal] at h
    obtain ⟨released, started, active, -, -, -, -, hstarted, -⟩ := startAttempt_ok h
    cases hstarted
  | some run =>
    obtain ⟨hfound, -⟩ := Option.filter_eq_some_iff.1 hterminal
    rw [hterminal] at h
    simp only [bind_eq_ok] at h
    obtain ⟨loaded, hload, h⟩ := h
    cases h
    unfold loadStoredEnvelope at hload
    simp only [bind_eq_ok] at hload
    obtain ⟨_, -, _, -, metadata, -, envelope, -, envelopeJson, -, _, -, hload⟩ := hload
    cases hload
    rw [hfound] at hexisting
    exact ⟨run, List.mem_of_find?_eq_some hfound, rfl, ensureRequestHash_json hexisting⟩

/-- **A replay answers the same request up to the window and the limits.**  A process begins the run
of a request, and after any other events a request of the same id is answered with the stored
envelope of that run.  Then the two requests agree on everything that determines the scan exactly
when they agree on the UTC window and on the limits. -/
theorem request_replay_complete {build build' workDir workDir' : Text}
    {resolve resolve' : Text → Option Text} {r r' : BuildContextRequest}
    {p p' : NormalizedScannerSettings} {first again : CanonicalRequest}
    (hfirst : canonicalizeRequest build resolve r p = .ok first)
    (hagain : canonicalizeRequest build' resolve' r' p' = .ok again)
    (hdir : canonicalWorkDir resolve r.workDir = some workDir)
    (hdir' : canonicalWorkDir resolve' r'.workDir = some workDir')
    (before after : List Event) {runtime runtime' : AttemptRuntime}
    {storePath storePath' ownerId ownerId' : Text} {nowMs nowMs' : ℕ} {active : ActiveRun}
    {begun replayed : Db} {stored : StoredEnvelope}
    (hbegin : beginRun (runEvents before).db r.requestId first runtime storePath ownerId nowMs =
      .ok (begun, .started active))
    (hreplay : beginRun
      (runEvents (before ++ .beginRun r.requestId first runtime storePath ownerId nowMs :: after)).db
      r'.requestId again runtime' storePath' ownerId' nowMs' = .ok (replayed, .stored stored))
    (hrun : stored.scanRunId = active.scanRunId) :
    SameScan workDir workDir' r r' p p' ↔ SameWindow r r' ∧ SameLimits p p' := by
  refine ⟨fun h => ⟨h.window, h.limits⟩, fun ⟨hwindow, hlimits⟩ => ⟨?_, hwindow, hlimits⟩⟩
  obtain ⟨dir, hdirIs, hjson⟩ := canonicalizeRequest_ok hfirst
  obtain ⟨dir', hdirIs', hjson'⟩ := canonicalizeRequest_ok hagain
  obtain rfl : dir = workDir := Option.some.inj (hdirIs.symm.trans hdir)
  obtain rfl : dir' = workDir' := Option.some.inj (hdirIs'.symm.trans hdir')
  -- the run that was begun carries the text of the first request
  have hbefore := systemIntegrity_runEvents before
  have hstep : step (runEvents before) (.beginRun r.requestId first runtime storePath ownerId nowMs) =
      .ok { runEvents before with db := begun, actives := (runEvents before).actives ++ [active] } := by
    simp only [step, hbegin, bind, Except.bind, BeginRunOutcome.active]
  have hstarted := hbefore.db.beginRun_started (hbefore.step hstep).db hbegin
  -- and it still does when the request is made again
  have hevents : runEvents
        (before ++ .beginRun r.requestId first runtime storePath ownerId nowMs :: after) =
      applyAll step
        { runEvents before with db := begun, actives := (runEvents before).actives ++ [active] }
        after := by
    rw [runEvents, applyAll_append, applyAll_cons, ← runEvents, applyEvent_of_ok hstep]
  rw [hevents] at hreplay
  obtain ⟨row, hrow, hid, hstored⟩ := beginRun_stored hreplay
  have hactive : row.scanRunId = active.scanRunId := hid.trans hrun
  obtain ⟨old, hold, holdId, -, holdJson, -⟩ :=
    (evolves_applyAll _ after).kept row hrow (hactive ▸ hstarted.2.1)
  have htext : first.json = again.json :=
    calc first.json = old.canonicalRequestJson :=
          (hstarted.2.2 old hold (holdId.trans hactive)).2.symm
      _ = row.canonicalRequestJson := holdJson
      _ = again.json := hstored
  rw [hjson, hjson'] at htext
  exact .of_json htext

end Replays

/-! ### A request for another window -/

section Windows

/-- A request for the files of a window. -/
def windowRequest (start stop : String) : BuildContextRequest where
  contract := lit "ai_daily_context"
  protocolVersion := 1
  requestId := firstRequest
  workDir := lit "C:\\work"
  startDate := lit "2026-10-19"
  endDate := lit "2026-10-19"
  windowStartUtc := some (lit start)
  windowEndUtc := some (lit stop)
  reportMode := .daily
  compressionProfile := none
  scanDbPath := lit "C:\\data\\scan.db"
  scannerSettings := {}
  adapters :=
    { officeWorkerPath := lit "C:\\bin\\office.exe", pdfWorkerPath := lit "C:\\bin\\pdf.exe" }

/-- A whole day, and the two hours before it ends. -/
def dayRequest : BuildContextRequest := windowRequest "2026-10-18T16:00:00Z" "2026-10-19T16:00:00Z"
def lateRequest : BuildContextRequest := windowRequest "2026-10-19T14:00:00Z" "2026-10-19T16:00:00Z"

def dayJson : Text :=
  (canonicalLogicalRequest (lit "b") (lit "C:\\work") dayRequest dailyDefaultSettings).print

/-- The digest of the request. -/
def dayDigest : Text := lit "b5737e1300e15148e76ef5784cf193ce543a0a46bd59a1028f5a71fbce925a91"

/-- The digests of the texts of the run below. -/
local instance daySha256 : Sha256 where
  hex text :=
    if (lit "request-v1").isPrefixOf text then dayDigest
    else if text = lit "note" then memoDigest
    else []

/-- `fs::canonicalize` of a directory that is there. -/
def verbatim (path : Text) : Option Text := some (lit "\\\\?\\" ++ path)

def dayCanonical : CanonicalRequest where
  requestId := firstRequest
  json := dayJson
  hashAlgorithm := requestHashAlgorithm
  hash := dayDigest

/-- The artifact of the one file that was changed on the day. -/
def dayArtifact : NewArtifact :=
  ⟨memoArtifact.val,
   { hash := by decide +kernel
     fits := by constructor <;> decide
     counts := by decide +kernel
     files_sorted := by simp [memoArtifact]
     decisions_sorted := by simp [memoArtifact]
     rows_of_ineligible := by simp [memoArtifact] }⟩

def dayBatch : FinalizationBatch where
  status := .success
  envelopeJson := (memoEnvelope 1 firstRequest).json.print
  inventory := [memoInventory]
  fileResults := [memoResult false]
  diagnostics := []
  context := @FinalizationBatch.context memoSha256 (memoBatch 1 firstRequest none)
  artifact := some dayArtifact
  snapshotKey := some ⟨memoDigest, lit "{}"⟩
  snapshotHit := none
  refillAudit := none
  pdfPageAudits := none
  auditSizeBytes := 100

/-- The run of the whole day, after it was begun. -/
def restOfDay : List Event :=
  [.recordWorkerFingerprints 0 (some memoWorker) (some memoWorker) 0, .prepare 0 dayBatch 0, .commit 0]

/-- The whole run. -/
def wholeDay : List Event :=
  .beginRun dayRequest.requestId dayCanonical memoRuntime (lit "C:\\data\\scan.db")
    (lit "owner-a") 0 :: restOfDay

theorem requestHash_day : requestHash dayJson = dayDigest :=
  if_pos (by decide +kernel)

/-- A request for any window of the day has the text of the whole day. -/
theorem windowRequest_canonical {start stop : String}
    (hvalid : (windowRequest start stop).validate = .ok ()) :
    canonicalizeRequest (lit "b") verbatim (windowRequest start stop) dailyDefaultSettings =
      .ok dayCanonical := by
  have hdir : canonicalWorkDir verbatim (windowRequest start stop).workDir = some (lit "C:\\work") := by
    show canonicalWorkDir verbatim (lit "C:\\work") = some (lit "C:\\work")
    decide +kernel
  have hjson : (canonicalLogicalRequest (lit "b") (lit "C:\\work") (windowRequest start stop)
      dailyDefaultSettings).print = dayJson := rfl
  have hmode : (windowRequest start stop).reportMode = dailyDefaultSettings.reportMode := rfl
  simp only [canonicalizeRequest, hvalid, dailyDefaultSettings_validate, checked, require, hmode, hdir,
    hjson, requestHash_day, bind, Except.bind, if_true]
  rfl

/-- The run whose stored envelope is the outcome. -/
def BeginRunOutcome.storedRun : BeginRunOutcome → Option ℕ
  | .started _ => none
  | .stored envelope => some envelope.scanRunId

set_option maxRecDepth 10000 in
/-- The run of the day is begun. -/
theorem day_begins :
    ∃ begun, beginRun (runEvents []).db dayRequest.requestId dayCanonical memoRuntime
      (lit "C:\\data\\scan.db") (lit "owner-a") 0 =
        .ok (begun, .started ⟨1, 1, lit "owner-a", firstRequest⟩) := by
  have hrun : (beginRun (runEvents []).db dayRequest.requestId dayCanonical memoRuntime
      (lit "C:\\data\\scan.db") (lit "owner-a") 0).toOption.map Prod.snd =
        some (.started ⟨1, 1, lit "owner-a", firstRequest⟩) := by
    decide +kernel
  obtain ⟨⟨begun, outcome⟩, hok, rfl⟩ := Option.map_eq_some_iff.1 hrun
  exact ⟨begun, toOption_eq_some.1 hok⟩

set_option maxRecDepth 10000 in
/-- Its envelope is the answer to the late request. -/
theorem day_replays :
    ∃ replayed stored, beginRun (runEvents wholeDay).db lateRequest.requestId dayCanonical
      memoRuntime (lit "C:\\data\\scan.db") (lit "owner-b") 5 = .ok (replayed, .stored stored) ∧
        stored.scanRunId = 1 := by
  have hrun : ((beginRun (runEvents wholeDay).db lateRequest.requestId dayCanonical memoRuntime
      (lit "C:\\data\\scan.db") (lit "owner-b") 5).toOption.bind
        fun outcome => outcome.2.storedRun) = some 1 := by
    decide +kernel
  obtain ⟨⟨replayed, outcome⟩, hok, hrun⟩ := Option.bind_eq_some_iff.1 hrun
  cases outcome with
  | started active => cases hrun
  | stored stored => exact ⟨replayed, stored, toOption_eq_some.1 hok, Option.some.inj hrun⟩

theorem windows_canonical :
    canonicalizeRequest (lit "b") verbatim dayRequest dailyDefaultSettings = .ok dayCanonical ∧
      canonicalizeRequest (lit "b") verbatim lateRequest dailyDefaultSettings = .ok dayCanonical :=
  ⟨windowRequest_canonical (by decide +kernel), windowRequest_canonical (by decide +kernel)⟩

/-- The late request is answered with the envelope of the day: they differ in the window. -/
theorem request_replay_complete_day :
    SameScan (lit "C:\\work") (lit "C:\\work") dayRequest lateRequest dailyDefaultSettings
        dailyDefaultSettings ↔
      SameWindow dayRequest lateRequest ∧ SameLimits dailyDefaultSettings dailyDefaultSettings := by
  obtain ⟨begun, hbegin⟩ := day_begins
  obtain ⟨replayed, stored, hreplay, hrun⟩ := day_replays
  have hdir : canonicalWorkDir verbatim (lit "C:\\work") = some (lit "C:\\work") := by decide +kernel
  exact request_replay_complete windows_canonical.1 windows_canonical.2 hdir hdir [] restOfDay hbegin
    hreplay hrun

/-- **A request for another window gets the stored envelope.** -/
theorem request_replay_ignores_window :
    ∃ first again active begun replayed stored,
      canonicalizeRequest (lit "b") verbatim dayRequest dailyDefaultSettings = .ok first ∧
      canonicalizeRequest (lit "b") verbatim lateRequest dailyDefaultSettings = .ok again ∧
      lateRequest.requestId = dayRequest.requestId ∧
      beginRun (runEvents []).db dayRequest.requestId first memoRuntime (lit "C:\\data\\scan.db")
        (lit "owner-a") 0 = .ok (begun, .started active) ∧
      beginRun (runEvents (.beginRun dayRequest.requestId first memoRuntime
          (lit "C:\\data\\scan.db") (lit "owner-a") 0 :: restOfDay)).db lateRequest.requestId again
        memoRuntime (lit "C:\\data\\scan.db") (lit "owner-b") 5 = .ok (replayed, .stored stored) ∧
      stored.scanRunId = active.scanRunId ∧
      ¬ SameScan (lit "C:\\work") (lit "C:\\work") dayRequest lateRequest dailyDefaultSettings
        dailyDefaultSettings := by
  obtain ⟨begun, hbegin⟩ := day_begins
  obtain ⟨replayed, stored, hreplay, hrun⟩ := day_replays
  refine ⟨dayCanonical, dayCanonical, _, begun, replayed, stored, windows_canonical.1,
    windows_canonical.2, rfl, hbegin, hreplay, hrun, fun h => ?_⟩
  exact absurd h.window.windowStartUtc (by decide +kernel)

end Windows

end Store

end DailyReport
