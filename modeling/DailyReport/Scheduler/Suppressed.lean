import DailyReport.Scheduler.Stopped
import DailyReport.Scheduler.Taint

/-!
# A tainted source never contributes content

No pass of a run leaves a result of a tainted file that does not say so (`Covered`): a parse phase
does not (`runParses_covered`), and a refill wave verifies files without a result only.  The last
passes give every tainted file a result, so its evidence is an error without content.

* `runPasses_suppressed` : **after a run, a tainted file has a result that says so**;
* `tainted_source_suppressed` : **once a verification failed, every later one of the path fails and
  the evidence of the file is an error without content**.
-/

namespace DailyReport

open Lib

variable {σ : Type} {run : RunContext σ} {tainted : Text → σ → Bool} {file : DiscoveredFileOut}

/-- While the file is tainted, its result says that its source changed. -/
def Covered (tainted : Text → σ → Bool) (file : DiscoveredFileOut) (outputs : ParseOutputs)
    (s : σ) : Prop :=
  tainted file.path s = true →
    (outputs.results.lookup file.fileIdentity).all isSourceVersionChangedResult = true

/-- While the file is tainted, it has a result that says so. -/
def Marks (tainted : Text → σ → Bool) (file : DiscoveredFileOut) (outputs : ParseOutputs)
    (s : σ) : Prop :=
  tainted file.path s = true → ∃ result,
    outputs.results.lookup file.fileIdentity = some result ∧
      isSourceVersionChangedResult result = true

theorem Marks.covered {outputs : ParseOutputs} {s : σ} (h : Marks tainted file outputs s) :
    Covered tainted file outputs s := by
  intro htainted
  obtain ⟨result, hresult, hchanged⟩ := h htainted
  rw [hresult]
  exact hchanged

/-- A covered file is marked, with the result it has or with a new one. -/
theorem Covered.marks {outputs : ParseOutputs} {s : σ} (h : Covered tainted file outputs s)
    (digests : Digests) : Marks tainted file (markTainted digests outputs file) s := by
  intro htainted
  have hcovered := h htainted
  have hmarked : (markTainted digests outputs file).results.lookup file.fileIdentity =
      (outputs.results.lookup file.fileIdentity).or (some (sourceVersionChangedParse digests file)) :=
    congrArg ParseView.result (view_markTainted digests outputs file)
  rw [hmarked]
  cases hold : outputs.results.lookup file.fileIdentity with
  | none => exact ⟨_, rfl, isSourceVersionChangedResult_parse _ _⟩
  | some result =>
    rw [hold] at hcovered
    exact ⟨result, rfl, hcovered⟩

/-- Marking another file leaves the result of this one. -/
theorem lookup_markTainted_ne (digests : Digests) (outputs : ParseOutputs)
    {other : DiscoveredFileOut} (hne : file.fileIdentity ≠ other.fileIdentity) :
    (markTainted digests outputs other).results.lookup file.fileIdentity =
      outputs.results.lookup file.fileIdentity :=
  congrArg ParseView.result (view_markTainted_ne digests outputs other hne)

variable (hwatched : Watched run.ports tainted)

include hwatched in
theorem nowMs_covered (outputs : ParseOutputs) :
    Hoare (ε := SchedulerFailure) (Covered tainted file outputs) (Exec.ask run.ports.nowMs)
      fun _ => Covered tainted file outputs :=
  (nowMs_moves (hwatched.apart file.path)).hoare fun _ _ h (hsame : _ = _) htainted =>
    h (hsame ▸ htainted)

section Passes

variable [UnicodeCase] (hinput : run.input.Distinct) (hpaths : run.input.PathsDistinct)
  (hfile : file ∈ run.input.discovery) (hconcurrency : 0 < run.concurrency) {state : RefillState}

include hwatched hinput hpaths hfile hconcurrency

theorem firstPass_covered : Hoare (fun _ => True) (firstPass run) fun first =>
    Covered tainted file first.state.outputs := by
  have hnodup := nodup_of_perm hinput (stageA_perm run.input)
  unfold firstPass
  refine Hoare.bind (Q := fun _ _ => True) (fun _ _ _ _ _ => trivial) fun out => ?_
  refine Hoare.bind (Q := fun _ _ => True) (fun _ _ _ _ _ => trivial) fun model => ?_
  refine (runParses_covered hwatched hinput hpaths hfile hconcurrency ?_).bind fun parses =>
    Hoare.pure fun s h => h.covered
  rw [firstDecisions, ContentAdmissionPlan.build, map_fileIdentity_buildWithRemaining]
  exact hnodup.sublist (List.filter_sublist.map _)

/-- **A refill wave keeps tainted files covered**: the files it verifies have no result yet. -/
theorem refillWave_covered {plan : RefillPlan} {used : Consumed} (hcoherent : Coherent run state)
    (hplanned : Planned run state plan) :
    Hoare (Covered tainted file state.outputs) (refillWave run plan used state)
      fun after => Covered tainted file after.outputs := by
  by_cases hmem : file.fileIdentity ∈ plan.plans.map ClassifiedPlan.fileIdentity
  · -- what the phase leaves is all that there is about the file
    obtain ⟨p, hp, hidentity⟩ := List.mem_map.1 hmem
    have hnone : state.outputs.results.lookup file.fileIdentity = none := by
      have := congrArg ParseView.result (hplanned.unstarted hcoherent hp).1
      rwa [hidentity] at this
    unfold refillWave
    refine Hoare.bind (Q := fun _ _ => True) (fun _ _ _ _ _ => trivial) fun out => ?_
    refine Hoare.bind (Q := fun _ _ => True) (fun _ _ _ _ _ => trivial) fun model => ?_
    refine (runParses_covered hwatched hinput hpaths hfile hconcurrency ?_).bind fun parses =>
      Hoare.pure fun s h htainted => ?_
    · rw [map_fileIdentity_waveDecisions]
      exact hplanned.plans_nodup
    · have hlookup : (parses.outputs.results ∪ state.outputs.results).lookup file.fileIdentity =
          parses.outputs.results.lookup file.fileIdentity := by
        rw [lookup_union, hnone, Option.or_none]
      change ((parses.outputs.results ∪ state.outputs.results).lookup _).all _ = true
      rw [hlookup]
      exact h.covered htainted
  · -- the wave neither verifies the file nor parses it
    have hmoves : Moves _ (refillWave run plan used state) :=
      refillWave_moves (hwatched.apart file.path) hconcurrency fun identity hidentity other hother =>
        path_ne_of_lookup hpaths hfile hother fun heq => hmem (heq ▸ hidentity)
    have hsame : Ensures (refillWave run plan used state) fun after =>
        after.outputs.results.lookup file.fileIdentity =
          state.outputs.results.lookup file.fileIdentity := by
      refine (refillWave_spec hconcurrency hplanned.nodup).mono ?_
      rintro after ⟨out, model, parses, hsteps, rfl⟩
      exact congrArg ParseView.result (hsteps.view_other hmem)
    refine ((hmoves.hoare fun s s' h (hsame : _ = _) htainted =>
      h (hsame ▸ htainted)).and_ensures hsame).mono fun after s h htainted => ?_
    rw [h.2]
    exact h.1 htainted

theorem refillPass_covered (hcoherent : Coherent run state) :
    Hoare (Covered tainted file state.outputs) (refillPass run state)
      fun refilled => Covered tainted file refilled.1.outputs := by
  unfold refillPass
  refine Hoare.ite (fun _ => ?_) fun _ => Hoare.pure fun _ h => h
  refine Hoare.bind ?_ fun result => Hoare.pure fun _ h => h
  refine (runRefills_hoare (I := fun state s => Covered tainted file state.outputs s ∧
    Coherent run state) (fun state => Hoare.of_fact fun h =>
      (nowMs_covered hwatched state.outputs).mono fun _ _ hs => ⟨hs, h⟩)
    (fun price h _ => ⟨h.1, h.2.reprice price⟩) fun {state} used _ => Hoare.of_fact fun h => ?_).weaken
      (fun s hs => ⟨hs, hcoherent⟩) fun _ _ h => h.1
  have hplanned := planRefill_planned hinput h used
  refine (refillWave_covered hwatched hinput hpaths hfile hconcurrency h hplanned).and_ensures ?_
  refine (refillWave_spec hconcurrency hplanned.nodup).mono ?_
  rintro after ⟨out, model, parses, hsteps, rfl⟩
  exact hsteps.coherent hinput hplanned h

omit hpaths hconcurrency [UnicodeCase] in
/-- **The taint pass gives every tainted file a result.** -/
theorem taintPass_marks : Hoare (Covered tainted file state.outputs) (taintPass run state)
    fun final => Marks tainted file final.outputs := by
  unfold taintPass
  have hfold : Hoare (Covered tainted file state.outputs)
      (run.input.discovery.foldlM (taintFile run) state.outputs) fun outputs s =>
        Covered tainted file outputs s ∧ (file ∈ run.input.discovery →
          Marks tainted file outputs s) := by
    refine Hoare.foldlM_prefix (fun done outputs s => Covered tainted file outputs s ∧
      (file ∈ done → Marks tainted file outputs s)) (fun s h => ⟨h, nofun⟩)
      fun done other outputs hdone => ?_
    have hother : other ∈ run.input.discovery := hdone.subset (by simp)
    unfold taintFile
    refine Hoare.bind (Q := fun told s => (Covered tainted file outputs s ∧
      (file ∈ done → Marks tainted file outputs s)) ∧ told = tainted other.path s)
      (Hoare.ask fun s h => ?_) fun told => Hoare.pure fun s h => ?_
    · have hsame := (hwatched.apart file.path).isTainted other.path s
      have hsame' := (hwatched.apart other.path).isTainted other.path s
      refine ⟨⟨fun htainted => h.1 (hsame ▸ htainted), fun hmem htainted =>
        h.2 hmem (hsame ▸ htainted)⟩, ?_⟩
      rw [hwatched.told]
      exact hsame'.symm
    · obtain ⟨⟨hcovered, hmarks⟩, htold⟩ := h
      by_cases hidentity : file.fileIdentity = other.fileIdentity
      · have : other = file := eq_of_lookup hinput hfile (lookup_indexBy hinput hother) hidentity.symm
        subst this
        cases told with
        | true => exact ⟨(hcovered.marks _).covered, fun _ => hcovered.marks _⟩
        | false =>
          -- the file is not tainted
          exact ⟨hcovered, fun _ htainted => by rw [← htold] at htainted; cases htainted⟩
      · have hlookup : (if told then markTainted run.digests outputs other else outputs).results.lookup
            file.fileIdentity = outputs.results.lookup file.fileIdentity := by
          split_ifs
          · exact lookup_markTainted_ne _ _ hidentity
          · rfl
        refine ⟨fun htainted => ?_, fun hmem htainted => ?_⟩
        · rw [hlookup]
          exact hcovered htainted
        · rw [hlookup]
          refine hmarks ?_ htainted
          rcases List.mem_append.1 hmem with hmem | hmem
          · exact hmem
          · exact absurd (congrArg _ (List.mem_singleton.1 hmem)) hidentity
  exact hfold.bind fun outputs => Hoare.pure fun s h => h.2 hfile

omit hinput hpaths hfile hconcurrency [UnicodeCase] in
theorem touchPass_marks : Hoare (Marks tainted file state.outputs) (touchPass run state)
    fun final => Marks tainted file final.outputs := by
  have hkeeps : ∀ (s s' : σ), Marks tainted file state.outputs s →
      tainted file.path s' = tainted file.path s → Marks tainted file state.outputs s' :=
    fun _ _ h hsame htainted => h (hsame ▸ htainted)
  unfold touchPass
  refine ((nowMs_moves (hwatched.apart file.path)).hoare hkeeps).bind fun now => ?_
  refine ((Moves.ask ((hwatched.apart file.path).touchAccess _ _ _)).hoare hkeeps).bind
    fun touched => ?_
  rcases touched with (_ | _ | _) | _ <;> exact Hoare.pure fun _ h => h

/-- **After a run, a tainted file has a result that says so.** -/
theorem runPasses_suppressed : Hoare (fun _ => True) (runPasses run) fun outcome =>
    Marks tainted file outcome.state.outputs := by
  unfold runPasses
  refine ((firstPass_covered hwatched hinput hpaths hfile hconcurrency).and_ensures
    (firstPass_coherent hinput hconcurrency)).bind fun first => Hoare.of_fact fun hcoherent => ?_
  refine (refillPass_covered hwatched hinput hpaths hfile hconcurrency hcoherent).bind
    fun refilled => (taintPass_marks hwatched hinput hfile).bind fun marked => ?_
  exact (touchPass_marks hwatched).bind fun final => Hoare.pure fun _ h => h

end Passes

/-! ### Evidence -/

/-- The evidence of a file whose source changed: an error, and nothing of the file. -/
structure ContextFileEvidence.SaysChanged (item : ContextFileEvidence) : Prop where
  status : item.parseStatus = .error
  reason : item.reason = some (lit "source_version_changed")
  error : ∃ diagnostic, item.error = some diagnostic ∧
    diagnostic.errorCode = .sourceVersionChanged
  content : item.content = []
  audit : item.evidenceAudit = none

theorem fileEvidence_changed {relativePath : Text} {action : PlanAction}
    {classifications : Classifications} {runtime : Finset Text} {outputs : ParseOutputs}
    {result : ParseResult} (hresult : outputs.results.lookup file.fileIdentity = some result)
    (hchanged : isSourceVersionChangedResult result = true) :
    (fileEvidence file relativePath action classifications runtime outputs).SaysChanged := by
  have hfound : changedResult outputs file.fileIdentity = some result := by
    rw [changedResult, hresult]
    exact Option.filter_eq_some_iff.2 ⟨rfl, hchanged⟩
  obtain ⟨diagnostic, herror, hcode⟩ : ∃ diagnostic, result.error = some diagnostic ∧
      diagnostic.errorCode = .sourceVersionChanged := by
    rw [isSourceVersionChangedResult] at hchanged
    cases herror : result.error with
    | none => rw [herror] at hchanged; cases hchanged
    | some diagnostic =>
      rw [herror] at hchanged
      exact ⟨diagnostic, rfl, of_decide_eq_true hchanged⟩
  unfold fileEvidence
  rw [hfound]
  exact ⟨rfl, rfl, ⟨diagnostic, herror, hcode⟩, rfl, rfl⟩

/-- The evidence of a marked file says that its source changed, and there is some. -/
theorem evidence_changed {input : ScheduledRunInput} {state : RefillState} {result : ParseResult}
    (hinput : input.Distinct) (hfile : file ∈ input.discovery)
    (hplanned : file.fileIdentity ∈ state.classified.map ClassifiedPlan.fileIdentity)
    (hresult : state.outputs.results.lookup file.fileIdentity = some result)
    (hchanged : isSourceVersionChangedResult result = true) {evidence : List ContextFileEvidence}
    (hevidence : state.evidence input = .ok evidence) :
    (∃ item ∈ evidence, item.fileIdentity = file.fileIdentity) ∧
      ∀ item ∈ evidence, item.fileIdentity = file.fileIdentity → item.SaysChanged := by
  have hitem : ∀ plan item, (do
        let found ← planFile input plan
        return fileEvidence found.1 found.2 (effectiveAction state.admission plan)
          state.classifications state.runtime state.outputs) = .ok item →
      item.fileIdentity = plan.fileIdentity ∧
        (plan.fileIdentity = file.fileIdentity → item.SaysChanged) := by
    intro plan item h
    obtain ⟨found, hfound, hpure⟩ := bind_eq_ok.1 h
    cases hpure
    have hlookup := planFile_eq_ok hfound
    have hidentity := ScheduledRunInput.fileIdentity_of_lookup hlookup
    rw [fileEvidence_fileIdentity]
    refine ⟨hidentity, fun heq => ?_⟩
    have hsame : found.1 = file := by
      rw [heq] at hlookup
      exact Option.some.inj (hlookup.symm.trans (lookup_indexBy hinput hfile))
    rw [hsame]
    exact fileEvidence_changed hresult hchanged
  obtain ⟨hforth, hback⟩ := mem_of_mapM hevidence
  constructor
  · obtain ⟨plan, hplan, hidentity⟩ := List.mem_map.1 hplanned
    obtain ⟨item, hmem, hok⟩ := hforth plan hplan
    exact ⟨item, hmem, (hitem plan item hok).1.trans hidentity⟩
  · intro item hmem hidentity
    obtain ⟨plan, -, hok⟩ := hback item hmem
    obtain ⟨hsame, hsays⟩ := hitem plan item hok
    exact hsays (hsame.symm.trans hidentity)

/-! ### Runs with an observer -/

/-- Worlds that are reached by steps of observations are reached by a list of them. -/
theorem exists_observations {computeCurrent : Text → StateM σ (Option SourceGuardV2)}
    {s s' : σ × SourceGuardObserver}
    (h : Relation.ReflTransGen
      (fun s s' => ∃ observation : Observation σ, observation.run computeCurrent s = s') s s') :
    ∃ observations : List (Observation σ),
      observations.foldl (Observation.run computeCurrent) s = s' := by
  induction h with
  | refl => exact ⟨[], rfl⟩
  | tail _ hlast ih =>
    obtain ⟨observations, rfl⟩ := ih
    obtain ⟨observation, rfl⟩ := hlast
    exact ⟨observations ++ [observation], by rw [List.foldl_append]; rfl⟩

/-- **A tainted source never contributes content.**  A run with an observer makes a sequence of
observations.  A verification fails where the guard is not the expected one, and once one has failed,
every later verification of its path fails, and the evidence of its file says that the source
changed, without content. -/
theorem tainted_source_suppressed [UnicodeCase] {ports : Ports σ} {digests : Digests}
    {input : ScheduledRunInput} {computeCurrent : Text → StateM σ (Option SourceGuardV2)}
    {run : RunContext (σ × SourceGuardObserver)}
    (hcontext : runContext (withGuardVerifier ports computeCurrent) digests input = .ok run)
    (hinput : input.Distinct) (hpaths : input.PathsDistinct) {s s' : σ × SourceGuardObserver}
    {outcome : PassesOutcome} (hpasses : runPasses run s = .ok (outcome, s')) :
    (∀ path expected (t : σ × SourceGuardObserver),
      (SourceGuardObserver.actual computeCurrent path t).1 ≠ some expected →
        (SourceGuardObserver.verify computeCurrent path expected t).1 = false) ∧
    ∃ observations : List (Observation σ),
      observations.foldl (Observation.run computeCurrent) s = s' ∧
      ∀ before path expected after, observations = before ++ .verify path expected :: after →
        (SourceGuardObserver.verify computeCurrent path expected
          (before.foldl (Observation.run computeCurrent) s)).1 = false →
        (∀ middle expected' rest, after = middle ++ .verify path expected' :: rest →
          (SourceGuardObserver.verify computeCurrent path expected'
            ((before ++ .verify path expected :: middle).foldl
              (Observation.run computeCurrent) s)).1 = false) ∧
        ∀ file ∈ input.discovery, file.path = path → ∀ evidence,
          outcome.state.evidence input = .ok evidence →
            (∃ item ∈ evidence, item.fileIdentity = file.fileIdentity) ∧
              ∀ item ∈ evidence, item.fileIdentity = file.fileIdentity → item.SaysChanged := by
  obtain ⟨hports, rfl, rfl, hconcurrency⟩ := runContext_eq_ok hcontext
  refine ⟨fun path expected t => SourceGuardObserver.verify_of_actual_ne, ?_⟩
  have hmoves := runPasses_moves (hports ▸ moves_withGuardVerifier ports) hconcurrency hpasses
  obtain ⟨observations, hobservations⟩ := exists_observations hmoves
  refine ⟨observations, hobservations, fun before path expected after hsplit hfailed => ?_⟩
  have htainted := SourceGuardObserver.isTainted_of_verify hfailed
  refine ⟨fun middle expected' rest _ => ?_, fun file hfile hpath evidence hevidence => ?_⟩
  · rw [List.foldl_append, List.foldl_cons]
    exact SourceGuardObserver.verify_of_tainted (isTainted_run middle htainted)
  · have hfinal : s'.2.isTainted file.path = true := by
      rw [← hobservations, hsplit, hpath, List.foldl_append, List.foldl_cons]
      exact isTainted_run after htainted
    have hwatched : Watched (withGuardVerifier ports computeCurrent) _ :=
      watched_withGuardVerifier ports
    rw [← hports] at hwatched
    obtain ⟨result, hresult, hchanged⟩ :=
      runPasses_suppressed hwatched hinput hpaths hfile hconcurrency trivial hpasses hfinal
    obtain ⟨state, hcoherent, hmarked⟩ := runPasses_spec hinput hconcurrency hpasses
    refine evidence_changed hinput hfile ?_ hresult hchanged hevidence
    rw [hmarked.classified]
    have hperm := hcoherent.perm.map Prod.fst
    rw [List.map_map, List.map_map] at hperm
    exact hperm.mem_iff.2 (List.mem_map_of_mem hfile)

/-! ### A run over a note that changed -/

/-- A file system that does not find any file again. -/
def lostFiles : Text → StateM Unit (Option SourceGuardV2) := fun _ => pure none

def changedNoteRun : RunContext (Unit × SourceGuardObserver) :=
  { noteRun with ports := withGuardVerifier quietPorts lostFiles }

theorem runContext_changedNote :
    @runContext _ asciiCase (withGuardVerifier quietPorts lostFiles) constantDigests noteInput =
      .ok changedNoteRun := by
  have hnote := runContext_note
  unfold runContext at hnote ⊢
  obtain ⟨hash, hhash, hrest⟩ := bind_eq_ok.1 hnote
  obtain ⟨build, hbuild, hpure⟩ := bind_eq_ok.1 hrest
  rw [hhash, hbuild]
  cases hpure
  rfl

/-- An observer that has not seen anything. -/
def newObserver : SourceGuardObserver := ⟨true, ∅, ∅⟩

theorem changedNote_tainted :
    ((@runPasses _ asciiCase changedNoteRun ((), newObserver)).toOption.any fun result =>
      result.2.2.isTainted noteFile.path) = true := by
  decide +kernel

theorem tainted_source_suppressed_note : ∃ outcome s',
    @runPasses _ asciiCase changedNoteRun ((), newObserver) = .ok (outcome, s') ∧
      s'.2.isTainted noteFile.path = true ∧
      ∃ observations : List (Observation Unit),
        observations.foldl (Observation.run lostFiles) ((), newObserver) = s' := by
  have htainted := changedNote_tainted
  cases hpasses : @runPasses _ asciiCase changedNoteRun ((), newObserver) with
  | error e =>
    rw [hpasses] at htainted
    cases htainted
  | ok result =>
    rw [hpasses] at htainted
    obtain ⟨-, observations, hobservations, -⟩ :=
      @tainted_source_suppressed _ asciiCase _ _ _ _ _ runContext_changedNote
        (show (noteInput.discovery.map DiscoveredFileOut.fileIdentity).Nodup by decide +kernel)
        (show (noteInput.discovery.map DiscoveredFileOut.path).Nodup by decide +kernel) _ _ _ hpasses
    exact ⟨result.1, result.2, rfl, htainted, observations, hobservations⟩

end DailyReport
