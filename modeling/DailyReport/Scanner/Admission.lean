import DailyReport.Contract.Records
import DailyReport.Scanner.Budget
import Mathlib.Data.List.AList

/-!
# The two admission plans

Stage A (`ClassificationPlan.buildWithRemaining`) is frozen before any PDF classification: it
rejects what no route takes, then gives candidate slots and PDF pages away in nominal order.
Stage B (`ContentAdmissionPlan.buildWithRemaining`) is frozen after the classification and before
any parse: it admits files in plan order while their worst case fits the character budget and, for
a PDF with text, an extraction slot is left.

* `ClassificationPlan.perm_candidates` : stage A has one entry for each candidate;
* `ClassificationPlan.quotas_le` : stage A stays within its candidate slots and pages;
* `admitAll_le` : stage B stays within its characters and extraction slots.
-/

namespace DailyReport

open Lib

inductive NotParsedReason
  | semanticFileQuotaExhausted
  | pdfClassificationPageQuotaExhausted
  | pdfTextExtractionQuotaExhausted
  | globalContextBudgetExceeded
  | fileSizePolicy
  | legacyExtensionDisabled
  deriving DecidableEq, Repr

def NotParsedReason.asStr : NotParsedReason → Text
  | .semanticFileQuotaExhausted => lit "semantic_file_quota_exhausted"
  | .pdfClassificationPageQuotaExhausted => lit "pdf_classification_page_quota_exhausted"
  | .pdfTextExtractionQuotaExhausted => lit "pdf_text_extraction_quota_exhausted"
  | .globalContextBudgetExceeded => lit "global_context_budget_exceeded"
  | .fileSizePolicy => lit "file_size_policy"
  | .legacyExtensionDisabled => lit "legacy_extension_disabled"

inductive RejectReason
  | profileRouteInvariant
  | sourceGuardUnavailable
  deriving DecidableEq, Repr

def RejectReason.asStr : RejectReason → Text
  | .profileRouteInvariant => lit "profile_route_invariant"
  | .sourceGuardUnavailable => lit "source_guard_unavailable"

/-- What a plan does with a file. -/
inductive PlanAction
  | admitRoute (route : RouteKind)
  | notParsed (reason : NotParsedReason)
  | reject (reason : RejectReason)
  | classifierFailed (status : PdfClassificationStatus)
  deriving DecidableEq, Repr

/-- The plan admits the file. -/
def PlanAction.isAdmit : PlanAction → Bool
  | .admitRoute _ => true
  | _ => false

/-- A discovered file as the plans see it. -/
structure PlanCandidate where
  fileIdentity : Text
  relativePath : Text
  extension : Text
  sizeBytes : ℕ
  sourceGuardKind : SourceGuardKind
  deriving DecidableEq

/-- Stage A intent for the classification of a PDF. -/
inductive PdfClassificationPlan
  | notPdf
  | classify (chargedPages : ℕ)
  | notClassifiedByBudget
  deriving DecidableEq, Repr

/-- Stage A output for one file. -/
structure ClassifiedPlan where
  fileIdentity : Text
  relativePath : Text
  extension : Text
  priority : ℕ
  action : PlanAction
  pdfClassification : PdfClassificationPlan
  deriving DecidableEq

/-- A classifier result, merged between the stages. -/
structure PdfClassificationResult where
  fileIdentity : Text
  status : PdfClassificationStatus
  pageCount : Option ℕ
  resultExaminedPages : Option ℕ
  errorCode : Option Text
  deriving DecidableEq

/-- The classifier results by file identity. -/
abbrev Classifications := AList fun _ : Text => PdfClassificationResult

/-- Stage B output for one file. -/
structure AdmissionDecision where
  fileIdentity : Text
  relativePath : Text
  extension : Text
  priority : ℕ
  action : PlanAction
  reservedChars : ℕ
  deriving DecidableEq

/-! ### Routes -/

inductive RouteDecision
  | route (route : RouteKind)
  | policyNotParsed (reason : NotParsedReason)
  | invariantReject (reason : RejectReason)
  deriving DecidableEq, Repr

def officeRoute (primaryBackend : Text) (rustRoute : RouteKind) : Option RouteKind :=
  if primaryBackend = lit "rust_office_oxide_v2" then some rustRoute else none

/-- The route of an extension, where one exists. -/
def RouteDecision.ofOption : Option RouteKind → RouteDecision
  | some kind => .route kind
  | none => .invariantReject .profileRouteInvariant

def classifyCandidateV2 (file : PlanCandidate) (profile : NormalizedScannerSettings) :
    RouteDecision :=
  if file.sizeBytes > profile.execution.maxFileSizeBytes then .policyNotParsed .fileSizePolicy
  else if [lit ".txt", lit ".md", lit ".csv", lit ".json", lit ".log"].contains file.extension then
    .route .lightText
  else if file.extension = lit ".xlsx" then
    .ofOption (officeRoute profile.parse.office.primaryBackend .rustXlsx)
  else if file.extension = lit ".docx" ∨ file.extension = lit ".pptx" then
    .ofOption (officeRoute profile.parse.office.primaryBackend .rustOffice)
  else if file.extension = lit ".xls" then .route .rustXls
  else if file.extension = lit ".pdf" then
    if profile.parse.pdf.backend = lit "rust_pdfium_v3" then .route .pdf
    else .invariantReject .profileRouteInvariant
  else if file.extension = lit ".doc" ∨ file.extension = lit ".ppt" then
    if profile.parse.office.legacyExtensionsEnabled then .route .rustLegacyOffice
    else .policyNotParsed .legacyExtensionDisabled
  else .invariantReject .profileRouteInvariant

/-! ### Stage A -/

section StageA

variable [UnicodeCase]

def PlanCandidate.key (file : PlanCandidate) : NominalKey :=
  NominalKey.new file.relativePath file.extension file.fileIdentity

def ClassifiedPlan.key (plan : ClassifiedPlan) : NominalKey :=
  NominalKey.new plan.relativePath plan.extension plan.fileIdentity

/-- The plan of a candidate with an action and a classification intent. -/
def PlanCandidate.plan (file : PlanCandidate) (action : PlanAction)
    (pdf : PdfClassificationPlan) : ClassifiedPlan where
  fileIdentity := file.fileIdentity
  relativePath := file.relativePath
  extension := file.extension
  priority := file.key.priority
  action := action
  pdfClassification := pdf

/-- The routed candidate, or the plan of a file that no route takes. -/
def PlanCandidate.screen (profile : NormalizedScannerSettings) (file : PlanCandidate) :
    ClassifiedPlan ⊕ PlanCandidate × RouteKind :=
  match classifyCandidateV2 file profile with
  | .policyNotParsed reason => .inl (file.plan (.notParsed reason) .notPdf)
  | .invariantReject reason => .inl (file.plan (.reject reason) .notPdf)
  | .route route =>
    if file.sourceGuardKind = .unavailable then
      .inl (file.plan (.reject .sourceGuardUnavailable) .notPdf)
    else .inr (file, route)

/-- The pages a PDF candidate is charged when `pageRemaining` pages are left. -/
def pageCharge (profile : NormalizedScannerSettings) (allowPartialPages : Bool)
    (pageRemaining : ℕ) : ℕ :=
  if allowPartialPages then min profile.parse.pdf.maxPages pageRemaining
  else profile.parse.pdf.maxPages

/-- Candidate slots and pages that stage A has left. -/
structure SlotLedger where
  slots : ℕ
  pages : ℕ
  deriving DecidableEq

/-- The plan of the next candidate, and what is left after it. -/
def assignOne (profile : NormalizedScannerSettings) (allowPartialPages : Bool)
    (ledger : SlotLedger) (file : PlanCandidate) (route : RouteKind) :
    ClassifiedPlan × SlotLedger :=
  if ledger.slots = 0 then
    (file.plan (.notParsed .semanticFileQuotaExhausted) .notPdf, ledger)
  else if route = .pdf then
    if pageCharge profile allowPartialPages ledger.pages = 0 ∨
        pageCharge profile allowPartialPages ledger.pages > ledger.pages then
      (file.plan (.notParsed .pdfClassificationPageQuotaExhausted) .notClassifiedByBudget, ledger)
    else
      (file.plan (.admitRoute route) (.classify (pageCharge profile allowPartialPages ledger.pages)),
        ⟨ledger.slots - 1, ledger.pages - pageCharge profile allowPartialPages ledger.pages⟩)
  else (file.plan (.admitRoute route) .notPdf, { ledger with slots := ledger.slots - 1 })

/-- Give candidate slots and pages away in the order of the list. -/
def assignSlots (profile : NormalizedScannerSettings) (allowPartialPages : Bool) :
    SlotLedger → List (PlanCandidate × RouteKind) → List ClassifiedPlan
  | _, [] => []
  | ledger, (file, route) :: rest =>
    (assignOne profile allowPartialPages ledger file route).1 ::
      assignSlots profile allowPartialPages (assignOne profile allowPartialPages ledger file route).2
        rest

/-- The plans of the files that no route takes. -/
def rejectedPlans (profile : NormalizedScannerSettings) (files : List PlanCandidate) :
    List ClassifiedPlan :=
  files.filterMap fun file => (file.screen profile).getLeft?

/-- The candidates that a route takes. -/
def routedCandidates (profile : NormalizedScannerSettings) (files : List PlanCandidate) :
    List (PlanCandidate × RouteKind) :=
  files.filterMap fun file => (file.screen profile).getRight?

/-- Freeze stage A against the given quotas. -/
def ClassificationPlan.buildWithRemaining (files : List PlanCandidate)
    (profile : NormalizedScannerSettings) (pageBudget candidateBudget : ℕ)
    (allowPartialPages : Bool) : List ClassifiedPlan :=
  let candidates := sortByKey (fun c : PlanCandidate × RouteKind => c.1.key)
    (routedCandidates profile files)
  sortByKey ClassifiedPlan.key
    (rejectedPlans profile files ++
      assignSlots profile allowPartialPages ⟨candidateBudget, pageBudget⟩ candidates)

def ClassificationPlan.build (files : List PlanCandidate) (profile : NormalizedScannerSettings)
    (pageBudget : ℕ) : List ClassifiedPlan :=
  ClassificationPlan.buildWithRemaining files profile pageBudget profile.maxCandidateFiles false

end StageA

/-! ### Stage B -/

/-- What stage B has given away so far. -/
structure AdmissionLedger where
  running : ℕ
  extractionSlots : ℕ
  deriving DecidableEq

def admitPlain (model : ContextBudgetModel) (delta : ℕ) (ledger : AdmissionLedger)
    (route : RouteKind) : PlanAction × AdmissionLedger :=
  if model.admits ledger.running delta then
    (.admitRoute route, { ledger with running := saturatingAdd ledger.running delta })
  else (.notParsed .globalContextBudgetExceeded, ledger)

def admitPdf (plan : ClassifiedPlan) (route : RouteKind) (model : ContextBudgetModel)
    (classifications : Classifications) (delta : ℕ) (ledger : AdmissionLedger) :
    PlanAction × AdmissionLedger :=
  match (classifications.lookup plan.fileIdentity).map PdfClassificationResult.status with
  | some .noTextInParseWindow => admitPlain model delta ledger route
  | some .textInParseWindow =>
    if model.admits ledger.running delta = false then
      (.notParsed .globalContextBudgetExceeded, ledger)
    else if ledger.extractionSlots = 0 then
      (.notParsed .pdfTextExtractionQuotaExhausted, ledger)
    else
      (.admitRoute route, ⟨saturatingAdd ledger.running delta, ledger.extractionSlots - 1⟩)
  | some .unknown => (.classifierFailed .unknown, ledger)
  | some .error => (.classifierFailed .error, ledger)
  | some .notClassifiedByBudget | none => (.classifierFailed .unknown, ledger)

def routeHint (plan : ClassifiedPlan) (route : RouteKind) (profile : NormalizedScannerSettings) :
    RouteHint where
  relativePath := plan.relativePath
  extension := plan.extension
  backend := route.backend
  workerLane := route.workerLane
  maxExcerptChars := route.maxExcerptChars profile

/-- The stage B decision of one plan, and the ledger after it. -/
def admitOne (profile : NormalizedScannerSettings) (model : ContextBudgetModel)
    (classifications : Classifications) (ledger : AdmissionLedger) (plan : ClassifiedPlan) :
    PlanAction × ℕ × AdmissionLedger :=
  match plan.action with
  | .admitRoute route =>
    let delta := model.reservedDelta (routeHint plan route profile)
    let (outcome, ledger) :=
      match plan.pdfClassification with
      | .notPdf => admitPlain model delta ledger route
      | .classify _ => admitPdf plan route model classifications delta ledger
      | .notClassifiedByBudget => (.notParsed .globalContextBudgetExceeded, ledger)
    (outcome, if outcome.isAdmit then delta else 0, ledger)
  | action => (action, 0, ledger)

/-- Decide the plans in order. -/
def admitAll (profile : NormalizedScannerSettings) (model : ContextBudgetModel)
    (classifications : Classifications) :
    AdmissionLedger → List ClassifiedPlan → List AdmissionDecision
  | _, [] => []
  | ledger, plan :: rest =>
    let step := admitOne profile model classifications ledger plan
    ⟨plan.fileIdentity, plan.relativePath, plan.extension, plan.priority, step.1, step.2.1⟩ ::
      admitAll profile model classifications step.2.2 rest

/-- Freeze stage B against the reservations and extraction slots already in use. -/
def ContentAdmissionPlan.buildWithRemaining (classified : List ClassifiedPlan)
    (profile : NormalizedScannerSettings) (model : ContextBudgetModel)
    (classifications : Classifications) (retainedChars remainingExtractions : ℕ) :
    List AdmissionDecision :=
  admitAll profile model classifications ⟨retainedChars, remainingExtractions⟩ classified

def ContentAdmissionPlan.build (classified : List ClassifiedPlan)
    (profile : NormalizedScannerSettings) (model : ContextBudgetModel)
    (classifications : Classifications) : List AdmissionDecision :=
  ContentAdmissionPlan.buildWithRemaining classified profile model classifications 0
    profile.maxPdfTextExtractions

/-! ### Stage A keeps its candidates and its quotas -/

/-- Pages charged to a plan. -/
def ClassifiedPlan.chargedPages (plan : ClassifiedPlan) : ℕ :=
  match plan.pdfClassification with
  | .classify chargedPages => chargedPages
  | _ => 0

/-- Candidate slots used by a plan. -/
def ClassifiedPlan.slotsUsed (plan : ClassifiedPlan) : ℕ := if plan.action.isAdmit then 1 else 0

section StageA

variable [UnicodeCase] (profile : NormalizedScannerSettings) (allowPartialPages : Bool)

/-- What a plan keeps of its candidate. -/
def ClassifiedPlan.origin (plan : ClassifiedPlan) : Text × Text × Text × ℕ :=
  (plan.fileIdentity, plan.relativePath, plan.extension, plan.priority)

def PlanCandidate.origin (file : PlanCandidate) : Text × Text × Text × ℕ :=
  (file.fileIdentity, file.relativePath, file.extension, file.key.priority)

@[simp] theorem PlanCandidate.origin_plan (file : PlanCandidate) (action : PlanAction)
    (pdf : PdfClassificationPlan) : (file.plan action pdf).origin = file.origin := rfl

/-- The plans that stage A rejects ask for nothing. -/
theorem PlanCandidate.screen_eq_inl {profile : NormalizedScannerSettings} {file : PlanCandidate}
    {plan : ClassifiedPlan}
    (h : file.screen profile = .inl plan) :
    plan.origin = file.origin ∧ plan.pdfClassification = .notPdf ∧ plan.action.isAdmit = false := by
  unfold PlanCandidate.screen at h
  split at h
  · simp only [Sum.inl.injEq] at h
    subst h
    exact ⟨rfl, rfl, rfl⟩
  · simp only [Sum.inl.injEq] at h
    subst h
    exact ⟨rfl, rfl, rfl⟩
  · split_ifs at h
    simp only [Sum.inl.injEq] at h
    subst h
    exact ⟨rfl, rfl, rfl⟩

theorem PlanCandidate.screen_eq_inr {profile : NormalizedScannerSettings} {file : PlanCandidate}
    {c : PlanCandidate × RouteKind}
    (h : file.screen profile = .inr c) :
    c.1 = file ∧ classifyCandidateV2 file profile = .route c.2 ∧
      file.sourceGuardKind ≠ .unavailable := by
  unfold PlanCandidate.screen at h
  split at h
  · simp at h
  · simp at h
  · split_ifs at h with hguard
    simp only [Sum.inr.injEq] at h
    subst h
    exact ⟨rfl, by assumption, hguard⟩

/-- **What one assignment does**: the plan keeps the candidate, and what it uses is gone. -/
theorem assignOne_spec (ledger : SlotLedger) (file : PlanCandidate) (route : RouteKind) :
    (assignOne profile allowPartialPages ledger file route).1.origin = file.origin ∧
      (assignOne profile allowPartialPages ledger file route).2.slots +
        (assignOne profile allowPartialPages ledger file route).1.slotsUsed = ledger.slots ∧
      (assignOne profile allowPartialPages ledger file route).2.pages +
        (assignOne profile allowPartialPages ledger file route).1.chargedPages = ledger.pages := by
  unfold assignOne
  split_ifs with hslots hpdf hcharge
  · exact ⟨rfl, rfl, rfl⟩
  · exact ⟨rfl, rfl, rfl⟩
  · refine ⟨rfl, ?_, ?_⟩
    · simp only [ClassifiedPlan.slotsUsed, PlanCandidate.plan, PlanAction.isAdmit, if_true]
      omega
    · simp only [ClassifiedPlan.chargedPages, PlanCandidate.plan]
      omega
  · refine ⟨rfl, ?_, rfl⟩
    simp only [ClassifiedPlan.slotsUsed, PlanCandidate.plan, PlanAction.isAdmit, if_true]
    omega

theorem assignSlots_origin (ledger : SlotLedger) (candidates : List (PlanCandidate × RouteKind)) :
    (assignSlots profile allowPartialPages ledger candidates).map ClassifiedPlan.origin =
      candidates.map fun c => c.1.origin := by
  induction candidates generalizing ledger with
  | nil => rfl
  | cons c rest ih => simp [assignSlots, ih, (assignOne_spec profile allowPartialPages ledger c.1 c.2).1]

/-- What is given away never exceeds what there is. -/
theorem assignSlots_le (ledger : SlotLedger) (candidates : List (PlanCandidate × RouteKind)) :
    totalCost ClassifiedPlan.slotsUsed
        (assignSlots profile allowPartialPages ledger candidates) ≤ ledger.slots ∧
      totalCost ClassifiedPlan.chargedPages
        (assignSlots profile allowPartialPages ledger candidates) ≤ ledger.pages := by
  induction candidates generalizing ledger with
  | nil => simp [assignSlots]
  | cons c rest ih =>
    obtain ⟨-, hslots, hpages⟩ := assignOne_spec profile allowPartialPages ledger c.1 c.2
    obtain ⟨ihslots, ihpages⟩ := ih (assignOne profile allowPartialPages ledger c.1 c.2).2
    simp only [assignSlots, totalCost_cons]
    omega

theorem rejectedPlans_spec {files : List PlanCandidate} {plan : ClassifiedPlan}
    (h : plan ∈ rejectedPlans profile files) :
    ∃ file ∈ files, plan.origin = file.origin ∧ plan.pdfClassification = .notPdf ∧
      plan.action.isAdmit = false := by
  simp only [rejectedPlans, List.mem_filterMap] at h
  obtain ⟨file, hfile, hleft⟩ := h
  exact ⟨file, hfile, PlanCandidate.screen_eq_inl (Sum.getLeft?_eq_some_iff.1 hleft)⟩

/-- Screening splits the candidates. -/
theorem screen_perm (files : List PlanCandidate) :
    ((rejectedPlans profile files).map ClassifiedPlan.origin ++
      (routedCandidates profile files).map fun c => c.1.origin).Perm
      (files.map PlanCandidate.origin) := by
  induction files with
  | nil => exact List.Perm.refl _
  | cons file files ih =>
    cases h : file.screen profile with
    | inl plan =>
      have := (PlanCandidate.screen_eq_inl h).1
      simpa [rejectedPlans, routedCandidates, h, this] using ih
    | inr c =>
      have := (PlanCandidate.screen_eq_inr h).1
      have hleft : rejectedPlans profile (file :: files) = rejectedPlans profile files := by
        simp [rejectedPlans, h]
      have hright : routedCandidates profile (file :: files) =
          c :: routedCandidates profile files := by
        simp [routedCandidates, h]
      rw [hleft, hright, List.map_cons, List.map_cons, this]
      exact List.perm_middle.trans (ih.cons _)

/-- The rejected plans use no quota. -/
theorem rejectedPlans_cost (files : List PlanCandidate) :
    totalCost ClassifiedPlan.slotsUsed (rejectedPlans profile files) = 0 ∧
      totalCost ClassifiedPlan.chargedPages (rejectedPlans profile files) = 0 := by
  simp only [totalCost, List.sum_eq_zero_iff, List.mem_map]
  constructor
  · rintro _ ⟨plan, hplan, rfl⟩
    obtain ⟨_, _, _, _, hisAdm⟩ := rejectedPlans_spec profile hplan
    simp [ClassifiedPlan.slotsUsed, hisAdm]
  · rintro _ ⟨plan, hplan, rfl⟩
    obtain ⟨_, _, _, hpdf, _⟩ := rejectedPlans_spec profile hplan
    simp [ClassifiedPlan.chargedPages, hpdf]

/-- An admitted plan is a PDF exactly when it has pages to classify. -/
def ClassifiedPlan.Routed (plan : ClassifiedPlan) : Prop :=
  ∀ route, plan.action = .admitRoute route →
    if route = .pdf then ∃ pages, plan.pdfClassification = .classify pages
    else plan.pdfClassification = .notPdf

theorem assignSlots_routed (ledger : SlotLedger) (candidates : List (PlanCandidate × RouteKind)) :
    ∀ plan ∈ assignSlots profile allowPartialPages ledger candidates, plan.Routed := by
  induction candidates generalizing ledger with
  | nil => simp [assignSlots]
  | cons c rest ih =>
    intro plan hplan
    rcases List.mem_cons.1 hplan with rfl | hplan
    · unfold assignOne
      intro route hroute
      split_ifs at hroute ⊢ with hslots hpdf hcharge <;> simp_all [PlanCandidate.plan]
    · exact ih _ plan hplan

namespace ClassificationPlan

variable (files : List PlanCandidate) (pageBudget candidateBudget : ℕ)

/-- **Stage A has one entry for each candidate.** -/
theorem perm_candidates :
    ((buildWithRemaining files profile pageBudget candidateBudget allowPartialPages).map
      ClassifiedPlan.origin).Perm (files.map PlanCandidate.origin) := by
  have hsort := (sortByKey_perm (fun c : PlanCandidate × RouteKind => c.1.key)
    (routedCandidates profile files)).map fun c => c.1.origin
  refine ((sortByKey_perm _ _).map ClassifiedPlan.origin).trans ?_
  rw [List.map_append, assignSlots_origin]
  exact (hsort.append_left _).trans (screen_perm profile files)

/-- **Stage A stays within its candidate slots and its pages.** -/
theorem quotas_le :
    totalCost ClassifiedPlan.slotsUsed
        (buildWithRemaining files profile pageBudget candidateBudget allowPartialPages) ≤
          candidateBudget ∧
      totalCost ClassifiedPlan.chargedPages
        (buildWithRemaining files profile pageBudget candidateBudget allowPartialPages) ≤
          pageBudget := by
  obtain ⟨hslots, hpages⟩ := rejectedPlans_cost profile files
  obtain ⟨hslots', hpages'⟩ := assignSlots_le profile allowPartialPages
    ⟨candidateBudget, pageBudget⟩ (sortByKey (fun c : PlanCandidate × RouteKind => c.1.key)
      (routedCandidates profile files))
  unfold buildWithRemaining
  rw [totalCost_perm (sortByKey_perm _ _), totalCost_perm (sortByKey_perm _ _)]
  simp only [totalCost_append] at *
  omega

/-- The plans of stage A are routed the way stage B expects. -/
theorem routed {plan : ClassifiedPlan}
    (h : plan ∈ buildWithRemaining files profile pageBudget candidateBudget allowPartialPages) :
    plan.Routed := by
  unfold buildWithRemaining at h
  rcases List.mem_append.1 (mem_sortByKey.1 h) with h | h
  · obtain ⟨_, _, _, hpdf, hisAdm⟩ := rejectedPlans_spec profile h
    intro route hroute
    simp [hroute, PlanAction.isAdmit] at hisAdm
  · exact assignSlots_routed profile allowPartialPages _ _ plan h

end ClassificationPlan

end StageA

/-! ### Stage B keeps its plans and its quotas -/

section StageB

variable (profile : NormalizedScannerSettings) (model : ContextBudgetModel)
  (classifications : Classifications)

/-- The decision uses an extraction slot. -/
def usesExtraction (fileIdentity : Text) (action : PlanAction) : Bool :=
  decide (action = .admitRoute .pdf) &&
    decide ((classifications.lookup fileIdentity).map PdfClassificationResult.status =
      some .textInParseWindow)

/-- What a decision may do to the ledger: a file that is not admitted changes nothing, an admitted
one is charged its reservation, fits the budget and takes an extraction slot if it needs one. -/
structure LedgerStep (ledger ledger' : AdmissionLedger) (fileIdentity : Text)
    (action : PlanAction) (reserved : ℕ) : Prop where
  running : ledger'.running = ledger.running + reserved
  slots : ledger'.extractionSlots + (usesExtraction classifications fileIdentity action).toNat =
    ledger.extractionSlots
  unreserved : action.isAdmit = false → reserved = 0
  within : action.isAdmit = true → model.baseChars + ledger'.running ≤ model.globalMaxChars

variable {model classifications}

theorem LedgerStep.refl (ledger : AdmissionLedger) (fileIdentity : Text) {action : PlanAction}
    (h : action.isAdmit = false) :
    LedgerStep model classifications ledger ledger fileIdentity action 0 where
  running := rfl
  slots := by
    have : action ≠ .admitRoute .pdf := by rintro rfl; simp [PlanAction.isAdmit] at h
    simp [usesExtraction, this]
  unreserved _ := rfl
  within hisAdm := by simp [hisAdm] at h

variable (hglobal : model.globalMaxChars < u64Max)

include hglobal in
/-- Charging a file that fits is a ledger step. -/
theorem LedgerStep.charge {ledger : AdmissionLedger} {delta slots : ℕ} {route : RouteKind}
    {fileIdentity : Text} (hadmits : model.admits ledger.running delta = true)
    (hslots : slots + (usesExtraction classifications fileIdentity (.admitRoute route)).toNat =
      ledger.extractionSlots) :
    LedgerStep model classifications ledger ⟨saturatingAdd ledger.running delta, slots⟩
      fileIdentity (.admitRoute route) delta := by
  have hfit := (ContextBudgetModel.admits_iff hglobal).1 hadmits
  have hsat : saturatingAdd ledger.running delta = ledger.running + delta :=
    saturatingAdd_eq (by omega)
  refine ⟨hsat, hslots, by simp [PlanAction.isAdmit], fun _ => ?_⟩
  simp only [hsat]
  omega

include hglobal in
theorem admitPlain_spec (delta : ℕ) (ledger : AdmissionLedger) (route : RouteKind)
    (fileIdentity : Text)
    (htext : usesExtraction classifications fileIdentity (.admitRoute route) = false) :
    LedgerStep model classifications ledger (admitPlain model delta ledger route).2 fileIdentity
      (admitPlain model delta ledger route).1
      (if (admitPlain model delta ledger route).1.isAdmit then delta else 0) := by
  by_cases hadmits : model.admits ledger.running delta = true
  · simp only [admitPlain, hadmits, if_true, PlanAction.isAdmit]
    exact LedgerStep.charge hglobal hadmits (by simp [htext])
  · simp only [admitPlain, hadmits]
    exact LedgerStep.refl ledger fileIdentity rfl

include hglobal in
theorem admitPdf_spec (plan : ClassifiedPlan) (delta : ℕ) (ledger : AdmissionLedger) :
    LedgerStep model classifications ledger
      (admitPdf plan .pdf model classifications delta ledger).2 plan.fileIdentity
      (admitPdf plan .pdf model classifications delta ledger).1
      (if (admitPdf plan .pdf model classifications delta ledger).1.isAdmit then delta else 0) := by
  cases hstatus : (classifications.lookup plan.fileIdentity).map PdfClassificationResult.status with
  | none =>
    simp only [admitPdf, hstatus]
    exact LedgerStep.refl ledger _ rfl
  | some status =>
    cases status with
    | noTextInParseWindow =>
      simp only [admitPdf, hstatus]
      exact admitPlain_spec hglobal delta ledger .pdf _ (by simp [usesExtraction, hstatus])
    | textInParseWindow =>
      by_cases hadmits : model.admits ledger.running delta = true
      · by_cases hslots : ledger.extractionSlots = 0
        · simp only [admitPdf, hstatus, hadmits, hslots]
          exact LedgerStep.refl ledger _ rfl
        · have huses : usesExtraction classifications plan.fileIdentity (.admitRoute .pdf) = true := by
            simp only [usesExtraction, hstatus, decide_true, Bool.and_self]
          simp only [admitPdf, hstatus, hadmits, hslots, PlanAction.isAdmit]
          refine LedgerStep.charge hglobal hadmits ?_
          rw [huses, Bool.toNat_true]
          omega
      · simp only [admitPdf, hstatus, hadmits]
        exact LedgerStep.refl ledger _ rfl
    | notClassifiedByBudget =>
      simp only [admitPdf, hstatus]
      exact LedgerStep.refl ledger _ rfl
    | unknown =>
      simp only [admitPdf, hstatus]
      exact LedgerStep.refl ledger _ rfl
    | error =>
      simp only [admitPdf, hstatus]
      exact LedgerStep.refl ledger _ rfl

include hglobal in
/-- **One stage B decision is a ledger step.** -/
theorem admitOne_spec (ledger : AdmissionLedger) {plan : ClassifiedPlan} (hplan : plan.Routed) :
    LedgerStep model classifications ledger (admitOne profile model classifications ledger plan).2.2
      plan.fileIdentity (admitOne profile model classifications ledger plan).1
      (admitOne profile model classifications ledger plan).2.1 := by
  cases haction : plan.action with
  | admitRoute route =>
    have hrouted := hplan route haction
    by_cases hpdf : route = .pdf
    · subst hpdf
      obtain ⟨pages, hpages⟩ := by simpa using hrouted
      simp only [admitOne, haction, hpages]
      exact admitPdf_spec hglobal plan _ ledger
    · rw [if_neg hpdf] at hrouted
      simp only [admitOne, haction, hrouted]
      exact admitPlain_spec hglobal _ ledger route _ (by simp [usesExtraction, hpdf])
  | notParsed reason =>
    simp only [admitOne, haction]
    exact LedgerStep.refl ledger _ rfl
  | reject reason =>
    simp only [admitOne, haction]
    exact LedgerStep.refl ledger _ rfl
  | classifierFailed status =>
    simp only [admitOne, haction]
    exact LedgerStep.refl ledger _ rfl

/-- What a decision keeps of its plan. -/
def AdmissionDecision.origin (decision : AdmissionDecision) : Text × Text × Text × ℕ :=
  (decision.fileIdentity, decision.relativePath, decision.extension, decision.priority)

theorem admitAll_origin (ledger : AdmissionLedger) (plans : List ClassifiedPlan) :
    (admitAll profile model classifications ledger plans).map AdmissionDecision.origin =
      plans.map ClassifiedPlan.origin := by
  induction plans generalizing ledger with
  | nil => rfl
  | cons plan plans ih =>
    simp only [admitAll, List.map_cons, ih]
    rfl

/-- Extraction slots a decision uses. -/
def AdmissionDecision.extractions (classifications : Classifications)
    (decision : AdmissionDecision) : ℕ :=
  (usesExtraction classifications decision.fileIdentity decision.action).toNat

include hglobal in
/-- **Stage B stays within its budgets**: unless it reserves nothing, the reservations fit beside
those already made, and the extraction slots it uses were there. -/
theorem admitAll_le (ledger : AdmissionLedger) {plans : List ClassifiedPlan}
    (hplans : ∀ plan ∈ plans, plan.Routed) :
    (totalCost AdmissionDecision.reservedChars
        (admitAll profile model classifications ledger plans) = 0 ∨
      model.baseChars + ledger.running + totalCost AdmissionDecision.reservedChars
        (admitAll profile model classifications ledger plans) ≤ model.globalMaxChars) ∧
      totalCost (AdmissionDecision.extractions classifications)
        (admitAll profile model classifications ledger plans) ≤ ledger.extractionSlots := by
  induction plans generalizing ledger with
  | nil => simp [admitAll]
  | cons plan plans ih =>
    have hstep : LedgerStep model classifications ledger _ _ _ _ :=
      admitOne_spec profile hglobal ledger (hplans plan (by simp))
    obtain ⟨ihchars, ihslots⟩ := ih
      (admitOne profile model classifications ledger plan).2.2
      fun p hp => hplans p (List.mem_cons_of_mem _ hp)
    have hrunning := hstep.running
    have hslots := hstep.slots
    simp only [admitAll, totalCost_cons, AdmissionDecision.extractions]
    refine ⟨?_, by omega⟩
    cases hisAdm : (admitOne profile model classifications ledger plan).1.isAdmit with
    | true =>
      have := hstep.within hisAdm
      right
      rcases ihchars with hzero | hle <;> omega
    | false =>
      have := hstep.unreserved hisAdm
      rcases ihchars with hzero | hle
      · left; omega
      · right; omega

/-- Only admitted files have a reservation. -/
theorem admitAll_unreserved (ledger : AdmissionLedger) (plans : List ClassifiedPlan) :
    ∀ decision ∈ admitAll profile model classifications ledger plans,
      decision.action.isAdmit = false → decision.reservedChars = 0 := by
  induction plans generalizing ledger with
  | nil => simp [admitAll]
  | cons plan plans ih =>
    intro decision hdecision hisAdm
    rcases List.mem_cons.1 hdecision with rfl | hdecision
    · unfold admitOne at hisAdm ⊢
      cases haction : plan.action <;> simp_all
    · exact ih _ decision hdecision hisAdm

end StageB

end DailyReport
