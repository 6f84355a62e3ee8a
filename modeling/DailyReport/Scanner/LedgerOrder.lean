import DailyReport.Scanner.Admission

/-!
# Stage B spends its ledger on admitted files only

A stage B decision either admits the file, which then fits and is charged, or leaves the ledger as
it was (`admitOne_cases`).  So a refused file can be taken out of the list without a change to any
other decision (`admitAll_erase`).

* `ContentAdmissionPlan.budget_respected` : **stage B loses no plan, stays within its budgets,
  refuses only what does not fit, and a refusal costs nothing**;
* `ContentAdmissionPlan.unclassified_refused` : a plan that stage A never makes is refused although
  it fits.
-/

namespace DailyReport

open Lib

variable (profile : NormalizedScannerSettings) (model : ContextBudgetModel)
  (classifications : Classifications)

/-- The plan is for a PDF in which the classifier has found text. -/
def ClassifiedPlan.hasText (plan : ClassifiedPlan) : Bool :=
  match plan.pdfClassification with
  | .classify _ => decide ((classifications.lookup plan.fileIdentity).map
      PdfClassificationResult.status = some .textInParseWindow)
  | _ => false

/-- The ledger after the decisions of some plans. -/
def admitLedger (ledger : AdmissionLedger) (plans : List ClassifiedPlan) : AdmissionLedger :=
  plans.foldl (fun ledger plan => (admitOne profile model classifications ledger plan).2.2) ledger

/-- An admission at a ledger: the file fits, is charged, and takes a slot when it has text. -/
structure Admits (ledger ledger' : AdmissionLedger) (plan : ClassifiedPlan) (route : RouteKind)
    (reserved : ℕ) : Prop where
  price : reserved = model.reservedDelta (routeHint plan route profile)
  fits : model.admits ledger.running reserved = true
  running : ledger'.running = saturatingAdd ledger.running reserved
  slots : ledger'.extractionSlots + (plan.hasText classifications).toNat = ledger.extractionSlots

variable {profile model classifications}

/-- What a plain admission decides. -/
theorem admitPlain_cases (model : ContextBudgetModel) (delta : ℕ) (ledger : AdmissionLedger) (route : RouteKind) :
    (model.admits ledger.running delta = true ∧ admitPlain model delta ledger route =
        (.admitRoute route, { ledger with running := saturatingAdd ledger.running delta })) ∨
      (model.admits ledger.running delta = false ∧ admitPlain model delta ledger route =
        (.notParsed .globalContextBudgetExceeded, ledger)) := by
  cases h : model.admits ledger.running delta <;> simp [admitPlain, h]

/-- What a PDF admission decides. -/
theorem admitPdf_cases (model : ContextBudgetModel) (classifications : Classifications)
    (plan : ClassifiedPlan) {pages : ℕ}
    (hpages : plan.pdfClassification = .classify pages) (route : RouteKind) (delta : ℕ)
    (ledger : AdmissionLedger) :
    (model.admits ledger.running delta = true ∧ ∃ slots,
      admitPdf plan route model classifications delta ledger =
        (.admitRoute route, ⟨saturatingAdd ledger.running delta, slots⟩) ∧
      slots + (plan.hasText classifications).toNat = ledger.extractionSlots) ∨
    ∃ action, admitPdf plan route model classifications delta ledger = (action, ledger) ∧
      action.isAdmit = false ∧
      (action = .notParsed .globalContextBudgetExceeded →
        model.admits ledger.running delta = false) := by
  cases hstatus : (classifications.lookup plan.fileIdentity).map PdfClassificationResult.status with
  | none =>
    refine Or.inr ⟨.classifierFailed .unknown, by simp only [admitPdf, hstatus], rfl, ?_⟩
    simp
  | some status =>
    cases status with
    | noTextInParseWindow =>
      have htext : plan.hasText classifications = false := by
        simp [ClassifiedPlan.hasText, hpages, hstatus]
      simp only [admitPdf, hstatus, htext]
      rcases admitPlain_cases model delta ledger route with ⟨hfits, h⟩ | ⟨hfits, h⟩
      · exact Or.inl ⟨hfits, ledger.extractionSlots, h, rfl⟩
      · exact Or.inr ⟨_, h, rfl, fun _ => hfits⟩
    | textInParseWindow =>
      have htext : plan.hasText classifications = true := by
        simp [ClassifiedPlan.hasText, hpages, hstatus]
      simp only [admitPdf, hstatus, htext, Bool.toNat_true]
      split_ifs with hfits hslots
      · exact Or.inr ⟨_, rfl, rfl, fun _ => hfits⟩
      · exact Or.inr ⟨_, rfl, rfl, by simp⟩
      · exact Or.inl ⟨by simpa using hfits, ledger.extractionSlots - 1, rfl, by omega⟩
    | notClassifiedByBudget =>
      refine Or.inr ⟨.classifierFailed .unknown, by simp only [admitPdf, hstatus], rfl, ?_⟩
      simp
    | unknown =>
      refine Or.inr ⟨.classifierFailed .unknown, by simp only [admitPdf, hstatus], rfl, ?_⟩
      simp
    | error =>
      refine Or.inr ⟨.classifierFailed .error, by simp only [admitPdf, hstatus], rfl, ?_⟩
      simp

/-- **What one decision does**: it admits the file, which fits and is charged, or it reserves
nothing and leaves the ledger as it was. -/
theorem admitOne_cases (profile : NormalizedScannerSettings) (model : ContextBudgetModel)
    (classifications : Classifications) (ledger : AdmissionLedger) (plan : ClassifiedPlan) :
    (∃ route, plan.action = .admitRoute route ∧
      (admitOne profile model classifications ledger plan).1 = .admitRoute route ∧
      Admits profile model classifications ledger
        (admitOne profile model classifications ledger plan).2.2 plan route
        (admitOne profile model classifications ledger plan).2.1) ∨
    ((admitOne profile model classifications ledger plan).1.isAdmit = false ∧
      (admitOne profile model classifications ledger plan).2 = (0, ledger) ∧
      ∀ route, plan.action = .admitRoute route →
        plan.pdfClassification ≠ .notClassifiedByBudget →
        (admitOne profile model classifications ledger plan).1 =
          .notParsed .globalContextBudgetExceeded →
        model.admits ledger.running (model.reservedDelta (routeHint plan route profile)) =
          false) := by
  cases haction : plan.action with
  | admitRoute route =>
    set delta := model.reservedDelta (routeHint plan route profile) with hdelta
    cases hpdf : plan.pdfClassification with
    | notPdf =>
      have htext : plan.hasText classifications = false := by
        simp [ClassifiedPlan.hasText, hpdf]
      rcases admitPlain_cases model delta ledger route with ⟨hfits, h⟩ | ⟨hfits, h⟩
      · left
        simp only [admitOne, haction, hpdf, ← hdelta, h, PlanAction.isAdmit, if_true]
        exact ⟨route, rfl, rfl, rfl, hfits, rfl, by rw [htext]; rfl⟩
      · right
        simp only [admitOne, haction, hpdf, ← hdelta, h, PlanAction.isAdmit]
        refine ⟨trivial, rfl, ?_⟩
        rintro _ ⟨rfl⟩ - -
        exact hfits
    | classify pages =>
      rcases admitPdf_cases model classifications plan hpdf route
        delta ledger with ⟨hfits, slots, h, hslots⟩ | ⟨action, h, hrefused, hwhy⟩
      · left
        simp only [admitOne, haction, hpdf, ← hdelta, h, PlanAction.isAdmit, if_true]
        exact ⟨route, rfl, rfl, rfl, hfits, rfl, hslots⟩
      · right
        simp only [admitOne, haction, hpdf, ← hdelta, h, hrefused]
        refine ⟨trivial, rfl, ?_⟩
        rintro _ ⟨rfl⟩ - hglobal
        exact hwhy hglobal
    | notClassifiedByBudget =>
      right
      simp only [admitOne, haction, hpdf, PlanAction.isAdmit]
      refine ⟨trivial, rfl, ?_⟩
      rintro _ - hne
      exact absurd rfl hne
  | notParsed reason =>
    right
    simp only [admitOne, haction]
    exact ⟨rfl, trivial, fun _ h => by cases h⟩
  | reject reason =>
    right
    simp only [admitOne, haction]
    exact ⟨rfl, trivial, fun _ h => by cases h⟩
  | classifierFailed status =>
    right
    simp only [admitOne, haction]
    exact ⟨rfl, trivial, fun _ h => by cases h⟩

/-! ### The whole list -/

theorem length_admitAll (ledger : AdmissionLedger) (plans : List ClassifiedPlan) :
    (admitAll profile model classifications ledger plans).length = plans.length := by
  simpa using congrArg List.length (admitAll_origin profile ledger plans)

/-- The decision of a plan is taken at the ledger that the plans before it have left. -/
theorem admitAll_split {ledger : AdmissionLedger} {plans : List ClassifiedPlan}
    {pre post : List (ClassifiedPlan × AdmissionDecision)} {plan : ClassifiedPlan}
    {decision : AdmissionDecision}
    (h : plans.zip (admitAll profile model classifications ledger plans) =
      pre ++ (plan, decision) :: post) :
    ∃ left, left = admitLedger profile model classifications ledger (pre.map Prod.fst) ∧
      admitAll profile model classifications ledger (pre.map Prod.fst) = pre.map Prod.snd ∧
      decision.action = (admitOne profile model classifications left plan).1 ∧
      admitAll profile model classifications
        (admitOne profile model classifications left plan).2.2 (post.map Prod.fst) =
          post.map Prod.snd := by
  induction pre generalizing ledger plans with
  | nil =>
    cases plans with
    | nil => simp [admitAll] at h
    | cons p plans =>
      simp only [admitAll, List.zip_cons_cons, List.nil_append, List.cons.injEq,
        Prod.mk.injEq] at h
      obtain ⟨⟨rfl, rfl⟩, rfl⟩ := h
      refine ⟨ledger, rfl, rfl, rfl, ?_⟩
      rw [List.map_fst_zip (length_admitAll _ _).ge, List.map_snd_zip (length_admitAll _ _).le]
  | cons c pre ih =>
    cases plans with
    | nil => simp [admitAll] at h
    | cons p plans =>
      simp only [admitAll, List.zip_cons_cons, List.cons_append, List.cons.injEq] at h
      obtain ⟨rfl, h⟩ := h
      obtain ⟨left, hleft, hpre, haction, hpost⟩ := ih h
      refine ⟨left, hleft, ?_, haction, hpost⟩
      simp only [List.map_cons, admitAll, hpre]

theorem admitAll_append (ledger : AdmissionLedger) (plans plans' : List ClassifiedPlan) :
    admitAll profile model classifications ledger (plans ++ plans') =
      admitAll profile model classifications ledger plans ++
        admitAll profile model classifications
          (admitLedger profile model classifications ledger plans) plans' := by
  induction plans generalizing ledger with
  | nil => rfl
  | cons plan plans ih =>
    simp only [List.cons_append, admitAll, ih]
    rfl

/-- Plans with text that were admitted. -/
def admittedTexts (classifications : Classifications)
    (decided : List (ClassifiedPlan × AdmissionDecision)) : ℕ :=
  decided.countP fun c => c.1.hasText classifications && c.2.action.isAdmit

/-- **What is left of the ledger**: the reservations and the slots of the admitted texts are gone,
and the reservations stay within the budget. -/
theorem admitLedger_spec (profile : NormalizedScannerSettings)
    (classifications : Classifications) (hglobal : model.globalMaxChars < u64Max)
    {ledger : AdmissionLedger}
    (hbase : model.baseChars + ledger.running ≤ model.globalMaxChars)
    (plans : List ClassifiedPlan) :
    (admitLedger profile model classifications ledger plans).running = ledger.running +
        totalCost AdmissionDecision.reservedChars
          (admitAll profile model classifications ledger plans) ∧
      model.baseChars + (admitLedger profile model classifications ledger plans).running ≤
        model.globalMaxChars ∧
      (admitLedger profile model classifications ledger plans).extractionSlots +
        admittedTexts classifications
          (plans.zip (admitAll profile model classifications ledger plans)) =
        ledger.extractionSlots := by
  induction plans generalizing ledger with
  | nil => exact ⟨rfl, hbase, rfl⟩
  | cons plan plans ih =>
    have hledger : admitLedger profile model classifications ledger (plan :: plans) =
        admitLedger profile model classifications
          (admitOne profile model classifications ledger plan).2.2 plans := rfl
    simp only [hledger, admitAll, List.zip_cons_cons, totalCost_cons, admittedTexts,
      List.countP_cons]
    rcases admitOne_cases profile model classifications ledger plan with
      ⟨route, -, haction, hadmits⟩ | ⟨hrefused, hsame, -⟩
    · have hfits := (ContextBudgetModel.admits_iff hglobal).1 hadmits.fits
      have hrunning := hadmits.running
      rw [saturatingAdd_eq (by omega)] at hrunning
      have hnext : model.baseChars +
          (admitOne profile model classifications ledger plan).2.2.running ≤
            model.globalMaxChars := by omega
      obtain ⟨ihrunning, ihwithin, ihslots⟩ := ih hnext
      have hslots := hadmits.slots
      rw [admittedTexts] at ihslots
      refine ⟨by omega, ihwithin, ?_⟩
      rw [haction, PlanAction.isAdmit, Bool.and_true]
      cases htext : plan.hasText classifications <;> simp [htext] at hslots ⊢ <;> omega
    · have hledger : (admitOne profile model classifications ledger plan).2.2 = ledger := by
        rw [hsame]
      have hzero : (admitOne profile model classifications ledger plan).2.1 = 0 := by rw [hsame]
      obtain ⟨ihrunning, ihwithin, ihslots⟩ := ih hbase
      rw [admittedTexts] at ihslots
      rw [hledger, hzero, hrefused, Bool.and_false]
      refine ⟨by omega, ihwithin, ?_⟩
      simpa using ihslots

/-- **A refused file can be taken out of the list**: all other decisions stay what they are. -/
theorem admitAll_erase {ledger : AdmissionLedger} {plans : List ClassifiedPlan}
    {pre post : List (ClassifiedPlan × AdmissionDecision)} {plan : ClassifiedPlan}
    {decision : AdmissionDecision}
    (h : plans.zip (admitAll profile model classifications ledger plans) =
      pre ++ (plan, decision) :: post)
    (hrefused : decision.action.isAdmit = false) :
    admitAll profile model classifications ledger ((pre ++ post).map Prod.fst) =
      (pre ++ post).map Prod.snd := by
  obtain ⟨left, hleft, hpre, haction, hpost⟩ := admitAll_split h
  rw [haction] at hrefused
  rcases admitOne_cases profile model classifications left plan with ⟨route, -, hadmitted, -⟩ | ⟨-, hsame, -⟩
  · rw [hadmitted] at hrefused
    cases hrefused
  · rw [hsame] at hpost
    rw [List.map_append, List.map_append, admitAll_append, hpre, ← hleft, hpost]

namespace ContentAdmissionPlan

/-- What stage B owes to a list of plans, next to the retained characters and the extraction slots
it starts with. -/
structure BudgetRespected (profile : NormalizedScannerSettings) (model : ContextBudgetModel)
    (classifications : Classifications) (retainedChars remainingExtractions : ℕ)
    (plans : List ClassifiedPlan) (decisions : List AdmissionDecision) : Prop where
  /-- Every plan has its decision, in the same order. -/
  oneDecisionEach : decisions.map AdmissionDecision.origin = plans.map ClassifiedPlan.origin
  chars : model.baseChars + retainedChars + totalCost AdmissionDecision.reservedChars decisions ≤
    model.globalMaxChars
  extractions : admittedTexts classifications (plans.zip decisions) ≤ remainingExtractions
  /-- A plan that stage A admitted is refused for characters only when it does not fit. -/
  charsRefused : ∀ pre plan decision post route,
    plans.zip decisions = pre ++ (plan, decision) :: post →
    plan.action = .admitRoute route → plan.pdfClassification ≠ .notClassifiedByBudget →
    decision.action = .notParsed .globalContextBudgetExceeded →
    model.globalMaxChars < model.baseChars + retainedChars +
      totalCost AdmissionDecision.reservedChars (pre.map Prod.snd) +
      model.reservedDelta (routeHint plan route profile)
  /-- What a refused file finds is what it leaves. -/
  available : ∀ pre plan decision post, plans.zip decisions = pre ++ (plan, decision) :: post →
    decision.action.isAdmit = false →
    admitLedger profile model classifications ⟨retainedChars, remainingExtractions⟩
        (pre.map Prod.fst ++ [plan]) =
      admitLedger profile model classifications ⟨retainedChars, remainingExtractions⟩
        (pre.map Prod.fst)
  /-- Without a refused file all other decisions are the same. -/
  frame : ∀ pre plan decision post, plans.zip decisions = pre ++ (plan, decision) :: post →
    decision.action.isAdmit = false →
    buildWithRemaining ((pre ++ post).map Prod.fst) profile model classifications retainedChars
      remainingExtractions = (pre ++ post).map Prod.snd

/-- **Stage B respects its budgets and loses nothing.** -/
theorem budget_respected (classifications : Classifications)
    (profile : NormalizedScannerSettings) (plans : List ClassifiedPlan)
    {retainedChars : ℕ} (remainingExtractions : ℕ) (hglobal : model.globalMaxChars < u64Max)
    (hbase : model.baseChars + retainedChars ≤ model.globalMaxChars) :
    BudgetRespected profile model classifications retainedChars remainingExtractions plans
      (buildWithRemaining plans profile model classifications retainedChars
        remainingExtractions) := by
  obtain ⟨hrunning, hwithin, hslots⟩ := admitLedger_spec profile classifications hglobal
    (show model.baseChars + (AdmissionLedger.mk retainedChars remainingExtractions).running ≤
      model.globalMaxChars from hbase) plans
  refine ⟨admitAll_origin profile _ plans, ?_, ?_, ?_, ?_, ?_⟩
  · rw [hrunning, ← Nat.add_assoc] at hwithin
    exact hwithin
  · exact Nat.le.intro ((Nat.add_comm _ _).trans hslots)
  · intro pre plan decision post route hzip haction hpdf hrefused
    obtain ⟨left, hleft, hpre, hdecision, -⟩ := admitAll_split hzip
    obtain ⟨hspent, -, -⟩ := admitLedger_spec profile classifications hglobal
      (show model.baseChars + (AdmissionLedger.mk retainedChars remainingExtractions).running ≤
        model.globalMaxChars from hbase) (pre.map Prod.fst)
    rw [← hleft, hpre] at hspent
    rw [hdecision] at hrefused
    rcases admitOne_cases profile model classifications left plan with ⟨_, -, hadmitted, -⟩ | ⟨-, -, hwhy⟩
    · rw [hadmitted] at hrefused
      cases hrefused
    · have hover := hwhy route haction hpdf hrefused
      have hnot := mt (ContextBudgetModel.admits_iff hglobal).2 (by rw [hover]; simp)
      simp only at hspent
      omega
  · intro pre plan decision post hzip hrefused
    obtain ⟨left, hleft, -, hdecision, -⟩ := admitAll_split hzip
    rw [hdecision] at hrefused
    rw [admitLedger, List.foldl_append, List.foldl_cons, List.foldl_nil]
    change (admitOne profile model classifications (admitLedger profile model classifications
      ⟨retainedChars, remainingExtractions⟩ (pre.map Prod.fst)) plan).2.2 = _
    rw [← hleft]
    rcases admitOne_cases profile model classifications left plan with ⟨_, -, hadmitted, -⟩ | ⟨-, hsame, -⟩
    · rw [hadmitted] at hrefused
      cases hrefused
    · rw [hsame]
  · intro pre plan decision post hzip hrefused
    exact admitAll_erase hzip hrefused

/-- A model with room for everything of a small list. -/
def roomyModel : ContextBudgetModel where
  globalMaxChars := 500000
  perFileMaxChars := 100000
  baseChars := 13000
  omittedSummaryReservation := 12000

/-- An admitted plan whose PDF was not classified, which stage A never makes. -/
def unclassifiedPlan : ClassifiedPlan where
  fileIdentity := lit "a.pdf"
  relativePath := lit "a.pdf"
  extension := lit ".pdf"
  priority := 20
  action := .admitRoute .pdf
  pdfClassification := .notClassifiedByBudget

theorem budget_respected_single :
    (roomyModel.globalMaxChars < u64Max ∧
      roomyModel.baseChars + 0 ≤ roomyModel.globalMaxChars) ∧
    BudgetRespected dailyDefaultSettings roomyModel ∅ 0 8 [unclassifiedPlan]
      (buildWithRemaining [unclassifiedPlan] dailyDefaultSettings roomyModel ∅ 0 8) :=
  ⟨by decide, budget_respected ∅ dailyDefaultSettings [unclassifiedPlan] 8 (by decide)
    (by decide)⟩

/-- **A plan that stage A never makes is refused although it fits**: stage B does not admit a PDF
that was not classified, whatever characters are left. -/
theorem unclassified_refused : ¬ ∀ (plans : List ClassifiedPlan)
    (profile : NormalizedScannerSettings) (model : ContextBudgetModel)
    (classifications : Classifications) (retainedChars remainingExtractions : ℕ),
    model.globalMaxChars < u64Max → model.baseChars + retainedChars ≤ model.globalMaxChars →
    ∀ pre plan decision post route,
      plans.zip (buildWithRemaining plans profile model classifications retainedChars
        remainingExtractions) = pre ++ (plan, decision) :: post →
      plan.action = .admitRoute route →
      decision.action = .notParsed .globalContextBudgetExceeded →
      model.globalMaxChars < model.baseChars + retainedChars +
        totalCost AdmissionDecision.reservedChars (pre.map Prod.snd) +
        model.reservedDelta (routeHint plan route profile) := by
  intro h
  have hdelta : roomyModel.reservedDelta (routeHint unclassifiedPlan .pdf dailyDefaultSettings) ≤
      7000 := by decide +kernel
  have hlt := h [unclassifiedPlan] dailyDefaultSettings roomyModel ∅ 0 8 (by decide) (by decide)
    [] unclassifiedPlan ⟨lit "a.pdf", lit "a.pdf", lit ".pdf", 20,
      .notParsed .globalContextBudgetExceeded, 0⟩ [] .pdf rfl rfl rfl
  simp only [roomyModel, List.map_nil, totalCost_nil] at hlt hdelta
  omega

end ContentAdmissionPlan

end DailyReport
