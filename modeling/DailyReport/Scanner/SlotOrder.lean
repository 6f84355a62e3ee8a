import DailyReport.Scanner.Admission

/-!
# Stage A gives its quotas away in nominal order

A file that stage A refuses for want of a candidate slot or of PDF pages was refused at what the
nominally earlier files had left (`assignSlots_split`), and the final order of the plans is the
order in which the quotas were given away (`ClassificationPlan.cost_before`).

* `ClassificationPlan.priority_greedy` : **stage A is a priority-greedy permutation of its files**;
* `ClassificationPlan.charge_not_short` : a PDF that is refused although its charge is not more
  than what is left.
-/

namespace DailyReport

open Lib

section StageA

variable [UnicodeCase] (profile : NormalizedScannerSettings) (allowPartialPages : Bool)

/-- A candidate is assigned at what the candidates before it have left. -/
theorem assignSlots_split {ledger : SlotLedger} {candidates : List (PlanCandidate × RouteKind)}
    {before after : List ClassifiedPlan} {plan : ClassifiedPlan}
    (h : assignSlots profile allowPartialPages ledger candidates = before ++ plan :: after) :
    ∃ left file route, left.slots + totalCost ClassifiedPlan.slotsUsed before = ledger.slots ∧
      left.pages + totalCost ClassifiedPlan.chargedPages before = ledger.pages ∧
      plan = (assignOne profile allowPartialPages left file route).1 := by
  induction before generalizing ledger candidates with
  | nil =>
    cases candidates with
    | nil => simp [assignSlots] at h
    | cons c rest =>
      simp only [assignSlots, List.nil_append, List.cons.injEq] at h
      exact ⟨ledger, c.1, c.2, rfl, rfl, h.1.symm⟩
  | cons p before ih =>
    cases candidates with
    | nil => simp [assignSlots] at h
    | cons c rest =>
      simp only [assignSlots, List.cons_append, List.cons.injEq] at h
      obtain ⟨rfl, hrest⟩ := h
      obtain ⟨-, hslots, hpages⟩ := assignOne_spec profile allowPartialPages ledger c.1 c.2
      obtain ⟨left, file, route, hleft, hleft', hplan⟩ := ih hrest
      refine ⟨left, file, route, ?_, ?_, hplan⟩
      · rw [totalCost_cons]
        omega
      · rw [totalCost_cons]
        omega

/-- **Why a candidate is refused**: no slot is left, or its charge is nothing or too much. -/
theorem assignOne_refused {left : SlotLedger} {file : PlanCandidate} {route : RouteKind}
    {reason : NotParsedReason}
    (h : (assignOne profile allowPartialPages left file route).1.action = .notParsed reason) :
    (reason = .semanticFileQuotaExhausted ∧ left.slots = 0) ∨
      (reason = .pdfClassificationPageQuotaExhausted ∧
        (pageCharge profile allowPartialPages left.pages = 0 ∨
          left.pages < pageCharge profile allowPartialPages left.pages)) := by
  unfold assignOne at h
  split_ifs at h with hslots hpdf hcharge
  · simp only [PlanCandidate.plan, PlanAction.notParsed.injEq] at h
    exact Or.inl ⟨h.symm, hslots⟩
  · simp only [PlanCandidate.plan, PlanAction.notParsed.injEq] at h
    exact Or.inr ⟨h.symm, hcharge⟩
  · simp [PlanCandidate.plan] at h
  · simp [PlanCandidate.plan] at h

omit [UnicodeCase] in
/-- The quotas are not a reason of the policy. -/
theorem classifyCandidateV2_policy {file : PlanCandidate} {reason : NotParsedReason}
    (h : classifyCandidateV2 file profile = .policyNotParsed reason) :
    reason ≠ .semanticFileQuotaExhausted ∧ reason ≠ .pdfClassificationPageQuotaExhausted := by
  have hofOption : ∀ route, RouteDecision.ofOption route ≠ .policyNotParsed reason := by
    intro route
    cases route <;> simp [RouteDecision.ofOption]
  unfold classifyCandidateV2 at h
  split_ifs at h <;> simp_all
  all_goals subst h; simp

theorem rejectedPlans_reason {files : List PlanCandidate} {plan : ClassifiedPlan}
    {reason : NotParsedReason} (h : plan ∈ rejectedPlans profile files)
    (haction : plan.action = .notParsed reason) :
    reason ≠ .semanticFileQuotaExhausted ∧ reason ≠ .pdfClassificationPageQuotaExhausted := by
  simp only [rejectedPlans, List.mem_filterMap, Sum.getLeft?_eq_some_iff] at h
  obtain ⟨file, -, hscreen⟩ := h
  unfold PlanCandidate.screen at hscreen
  split at hscreen
  next policy hpolicy =>
    simp only [Sum.inl.injEq] at hscreen
    subst hscreen
    simp only [PlanCandidate.plan, PlanAction.notParsed.injEq] at haction
    exact haction ▸ classifyCandidateV2_policy profile hpolicy
  next =>
    simp only [Sum.inl.injEq] at hscreen
    subst hscreen
    simp [PlanCandidate.plan] at haction
  next =>
    split_ifs at hscreen
    simp only [Sum.inl.injEq] at hscreen
    subst hscreen
    simp [PlanCandidate.plan] at haction

/-- The candidates in the order in which they are assigned. -/
def sortedCandidates (files : List PlanCandidate) : List (PlanCandidate × RouteKind) :=
  sortByKey (fun c : PlanCandidate × RouteKind => c.1.key) (routedCandidates profile files)

namespace ClassificationPlan

variable (files : List PlanCandidate) (pageBudget candidateBudget : ℕ)

/-- The plans of the routed files. -/
def assigned : List ClassifiedPlan :=
  assignSlots profile allowPartialPages ⟨candidateBudget, pageBudget⟩
    (sortedCandidates profile files)

/-- The key of a plan, read off what it keeps of its candidate. -/
def originKey (origin : Text × Text × Text × ℕ) : NominalKey :=
  NominalKey.new origin.2.1 origin.2.2.1 origin.1

theorem buildWithRemaining_perm :
    (buildWithRemaining files profile pageBudget candidateBudget allowPartialPages).Perm
      (rejectedPlans profile files ++
        assigned profile allowPartialPages files pageBudget candidateBudget) :=
  sortByKey_perm _ _

theorem assigned_sorted :
    (assigned profile allowPartialPages files pageBudget candidateBudget).Pairwise
      fun a b => a.key ≤ b.key := by
  have hkeys : ((assigned profile allowPartialPages files pageBudget candidateBudget).map
      ClassifiedPlan.key) = (sortedCandidates profile files).map fun c => c.1.key := by
    have h := congrArg (List.map originKey)
      (assignSlots_origin profile allowPartialPages ⟨candidateBudget, pageBudget⟩
        (sortedCandidates profile files))
    rwa [List.map_map, List.map_map] at h
  have hsorted := sortByKey_sorted (fun c : PlanCandidate × RouteKind => c.1.key)
    (routedCandidates profile files)
  rw [← List.pairwise_map (f := ClassifiedPlan.key) (R := fun a b => a ≤ b), hkeys,
    List.pairwise_map]
  exact hsorted

/-- Plans in order with distinct identities are in strict order. -/
theorem strict_of_sorted {plans : List ClassifiedPlan}
    (hsorted : plans.Pairwise fun a b => a.key ≤ b.key)
    (hnodup : (plans.map ClassifiedPlan.fileIdentity).Nodup) :
    plans.Pairwise fun a b => a.key < b.key := by
  refine hsorted.imp₂ (fun a b hle hne => lt_of_le_of_ne hle fun heq => hne ?_)
    (List.pairwise_map.1 hnodup)
  exact NominalKey.new_injective heq

variable {files}

theorem nodup_identities (hdistinct : (files.map PlanCandidate.fileIdentity).Nodup) :
    ((buildWithRemaining files profile pageBudget candidateBudget allowPartialPages).map
      ClassifiedPlan.fileIdentity).Nodup := by
  have h := (perm_candidates profile allowPartialPages files pageBudget candidateBudget).map
    fun origin => origin.1
  rw [List.map_map, List.map_map] at h
  exact h.nodup_iff.2 hdistinct

theorem buildWithRemaining_strict (hdistinct : (files.map PlanCandidate.fileIdentity).Nodup) :
    (buildWithRemaining files profile pageBudget candidateBudget allowPartialPages).Pairwise
      fun a b => a.key < b.key :=
  strict_of_sorted (sortByKey_sorted _ _)
    (nodup_identities profile allowPartialPages pageBudget candidateBudget hdistinct)

theorem assigned_strict (hdistinct : (files.map PlanCandidate.fileIdentity).Nodup) :
    (assigned profile allowPartialPages files pageBudget candidateBudget).Pairwise
      fun a b => a.key < b.key := by
  refine strict_of_sorted (assigned_sorted profile allowPartialPages files pageBudget
    candidateBudget) ?_
  have hnodup := nodup_identities profile allowPartialPages pageBudget candidateBudget hdistinct
  have hperm := (buildWithRemaining_perm profile allowPartialPages files pageBudget
    candidateBudget).map ClassifiedPlan.fileIdentity
  rw [List.map_append] at hperm
  exact (List.nodup_append.1 (hperm.nodup_iff.1 hnodup)).2.1

/-- **The plans before a plan cost what was given away before it**: the rejected plans among them
cost nothing. -/
theorem cost_before (hdistinct : (files.map PlanCandidate.fileIdentity).Nodup)
    {cost : ClassifiedPlan → ℕ} (hcost : totalCost cost (rejectedPlans profile files) = 0)
    {before after earlier later : List ClassifiedPlan} {plan : ClassifiedPlan}
    (hplans : buildWithRemaining files profile pageBudget candidateBudget allowPartialPages =
      before ++ plan :: after)
    (hassigned : assigned profile allowPartialPages files pageBudget candidateBudget =
      earlier ++ plan :: later) :
    totalCost cost before = totalCost cost earlier := by
  have hstrict := buildWithRemaining_strict profile allowPartialPages pageBudget candidateBudget
    hdistinct
  have hstrict' := assigned_strict profile allowPartialPages pageBudget candidateBudget hdistinct
  rw [hplans] at hstrict
  rw [hassigned] at hstrict'
  -- both lists of earlier plans are what lies below the key of the plan
  have hperm := (buildWithRemaining_perm profile allowPartialPages files pageBudget
    candidateBudget).filter fun b => b.key < plan.key
  rw [hplans, hassigned, List.filter_append (rejectedPlans profile files),
    filter_lt_of_sorted hstrict, filter_lt_of_sorted hstrict'] at hperm
  have hrejected : totalCost cost ((rejectedPlans profile files).filter
      fun b => b.key < plan.key) = 0 :=
    Nat.le_zero.1 (hcost ▸ totalCost_sublist List.filter_sublist)
  rw [totalCost_perm hperm, totalCost_append, hrejected, Nat.zero_add]

/-- **Why a plan was refused for want of a quota**, in terms of the plans before it. -/
theorem refused_before (hdistinct : (files.map PlanCandidate.fileIdentity).Nodup)
    {before after : List ClassifiedPlan} {plan : ClassifiedPlan} {reason : NotParsedReason}
    (hplans : buildWithRemaining files profile pageBudget candidateBudget allowPartialPages =
      before ++ plan :: after)
    (haction : plan.action = .notParsed reason)
    (hreason : reason = .semanticFileQuotaExhausted ∨
      reason = .pdfClassificationPageQuotaExhausted) :
    ∃ left : SlotLedger, left.slots + totalCost ClassifiedPlan.slotsUsed before = candidateBudget ∧
      left.pages + totalCost ClassifiedPlan.chargedPages before = pageBudget ∧
      ((reason = .semanticFileQuotaExhausted ∧ left.slots = 0) ∨
        (reason = .pdfClassificationPageQuotaExhausted ∧
          (pageCharge profile allowPartialPages left.pages = 0 ∨
            left.pages < pageCharge profile allowPartialPages left.pages))) := by
  have hmem : plan ∈ rejectedPlans profile files ++
      assigned profile allowPartialPages files pageBudget candidateBudget :=
    (buildWithRemaining_perm profile allowPartialPages files pageBudget
      candidateBudget).mem_iff.1 (by simp [hplans])
  rcases List.mem_append.1 hmem with hrejected | hassigned
  · obtain ⟨hslots, hpages⟩ := rejectedPlans_reason profile hrejected haction
    rcases hreason with h | h
    · exact absurd h hslots
    · exact absurd h hpages
  · obtain ⟨earlier, later, hsplit⟩ := List.append_of_mem hassigned
    obtain ⟨left, file, route, hslots, hpages, rfl⟩ :=
      assignSlots_split profile allowPartialPages hsplit
    obtain ⟨hcost, hcost'⟩ := rejectedPlans_cost profile files
    refine ⟨left, ?_, ?_, assignOne_refused profile allowPartialPages haction⟩
    · rw [cost_before profile allowPartialPages pageBudget candidateBudget hdistinct hcost hplans
        hsplit]
      exact hslots
    · rw [cost_before profile allowPartialPages pageBudget candidateBudget hdistinct hcost' hplans
        hsplit]
      exact hpages

/-- What a priority-greedy assignment of the quotas to the files is. -/
structure PriorityGreedy (files : List PlanCandidate) (plans : List ClassifiedPlan) : Prop where
  /-- Every file has exactly one plan. -/
  onePlanEach : (plans.map ClassifiedPlan.origin).Perm (files.map PlanCandidate.origin)
  /-- The plans are in nominal order. -/
  nominal : plans.Pairwise fun a b => a.key < b.key
  admitted : plans.countP (fun plan => plan.action.isAdmit) ≤ candidateBudget
  pages : totalCost ClassifiedPlan.chargedPages plans ≤ pageBudget
  /-- A file is refused a slot only behind as many admitted files as there are slots. -/
  slotRefused : ∀ before plan after, plans = before ++ plan :: after →
    plan.action = .notParsed .semanticFileQuotaExhausted →
    before.countP (fun plan => plan.action.isAdmit) = candidateBudget
  /-- A PDF is refused only when its charge is more than the files before it have left, or when no
  page at all would be charged. -/
  pagesRefused : ∀ before plan after, plans = before ++ plan :: after →
    plan.action = .notParsed .pdfClassificationPageQuotaExhausted →
    ∃ left, left + totalCost ClassifiedPlan.chargedPages before = pageBudget ∧
      (left < pageCharge profile allowPartialPages left ∨
        pageCharge profile allowPartialPages left = 0)

omit [UnicodeCase] in
theorem totalCost_slotsUsed (plans : List ClassifiedPlan) :
    totalCost ClassifiedPlan.slotsUsed plans =
      plans.countP fun plan => plan.action.isAdmit := by
  induction plans with
  | nil => rfl
  | cons plan plans ih =>
    rw [totalCost_cons, ih, List.countP_cons, ClassifiedPlan.slotsUsed]
    omega

/-- **Stage A is a priority-greedy permutation of its files.** -/
theorem priority_greedy (hdistinct : (files.map PlanCandidate.fileIdentity).Nodup) :
    PriorityGreedy profile allowPartialPages pageBudget candidateBudget files
      (buildWithRemaining files profile pageBudget candidateBudget allowPartialPages) := by
  obtain ⟨hslots, hpages⟩ := quotas_le profile allowPartialPages files pageBudget candidateBudget
  rw [totalCost_slotsUsed] at hslots
  refine ⟨perm_candidates profile allowPartialPages files pageBudget candidateBudget,
    buildWithRemaining_strict profile allowPartialPages pageBudget candidateBudget hdistinct,
    hslots, hpages, ?_, ?_⟩
  · intro before plan after hplans haction
    obtain ⟨left, hleft, -, hwhy⟩ := refused_before profile allowPartialPages pageBudget
      candidateBudget hdistinct hplans haction (Or.inl rfl)
    rw [totalCost_slotsUsed] at hleft
    rcases hwhy with ⟨-, hzero⟩ | ⟨hne, -⟩
    · omega
    · cases hne
  · intro before plan after hplans haction
    obtain ⟨left, -, hleft, hwhy⟩ := refused_before profile allowPartialPages pageBudget
      candidateBudget hdistinct hplans haction (Or.inr rfl)
    rcases hwhy with ⟨hne, -⟩ | ⟨-, hcharge⟩
    · cases hne
    · exact ⟨left.pages, hleft, hcharge.symm⟩

end ClassificationPlan

end StageA

/-! ### A charge that is not short -/

/-- A PDF of the work directory. -/
def reportPdf (name : Text) : PlanCandidate where
  fileIdentity := name
  relativePath := name
  extension := lit ".pdf"
  sizeBytes := 1000
  sourceGuardKind := .windowsFileIdChangeTimeV1

local instance slotOrderCase : UnicodeCase := asciiCase

theorem priority_greedy_reports :
    ([reportPdf (lit "a.pdf"), reportPdf (lit "b.pdf")].map PlanCandidate.fileIdentity).Nodup ∧
      ClassificationPlan.PriorityGreedy dailyDefaultSettings true 5 2
        [reportPdf (lit "a.pdf"), reportPdf (lit "b.pdf")]
        (ClassificationPlan.buildWithRemaining
          [reportPdf (lit "a.pdf"), reportPdf (lit "b.pdf")] dailyDefaultSettings 5 2 true) :=
  ⟨by decide +kernel, ClassificationPlan.priority_greedy dailyDefaultSettings true 5 2 (by decide +kernel)⟩

/-- **A PDF is refused although its charge is not more than what is left**: with partial pages and
no page left the charge is no page, and such a PDF is not classified. -/
theorem charge_not_short : ¬ ∀ (files : List PlanCandidate) (profile : NormalizedScannerSettings)
    (pageBudget candidateBudget : ℕ) (allowPartialPages : Bool),
    (files.map PlanCandidate.fileIdentity).Nodup →
    ∀ before plan after, ClassificationPlan.buildWithRemaining files profile pageBudget
      candidateBudget allowPartialPages = before ++ plan :: after →
    plan.action = .notParsed .pdfClassificationPageQuotaExhausted →
    ∃ left, left + totalCost ClassifiedPlan.chargedPages before = pageBudget ∧
      left < pageCharge profile allowPartialPages left := by
  intro h
  have hplans : ClassificationPlan.buildWithRemaining
      [reportPdf (lit "a.pdf"), reportPdf (lit "b.pdf")] dailyDefaultSettings 5 2 true =
      [(reportPdf (lit "a.pdf")).plan (.admitRoute .pdf) (.classify 5)] ++
        (reportPdf (lit "b.pdf")).plan (.notParsed .pdfClassificationPageQuotaExhausted)
          .notClassifiedByBudget :: [] := by
    decide +kernel
  obtain ⟨left, hleft, hlt⟩ := h _ dailyDefaultSettings 5 2 true (by decide +kernel) _ _ _ hplans rfl
  have hcharged : totalCost ClassifiedPlan.chargedPages
      [(reportPdf (lit "a.pdf")).plan (.admitRoute .pdf) (.classify 5)] = 5 := by decide +kernel
  rw [hcharged] at hleft
  obtain rfl : left = 0 := by omega
  simp [pageCharge] at hlt

end DailyReport
