import DailyReport.Scheduler.WaveCoherence

/-!
# The state that a run projects

The last passes mark files whose source changed and touch the cache.  So the state that both
projections read is a coherent state in which some files are marked (`Marked`).

* `runPasses_spec` : **a finished run is a coherent run with marks**.
-/

namespace DailyReport

open Lib

/-- The view of a file after it was marked. -/
def ParseView.marked (digests : Digests) (file : DiscoveredFileOut) (view : ParseView) :
    ParseView :=
  { view with
    result := view.result.or (some (sourceVersionChangedParse digests file))
    cacheStatus := some .miss
    missReason := some .sourceVersionChanged }

/-- Marking twice is marking once. -/
theorem ParseView.marked_marked (digests : Digests) (file : DiscoveredFileOut) (view : ParseView) :
    (view.marked digests file).marked digests file = view.marked digests file := by
  cases hresult : view.result <;> simp [marked, hresult]

theorem view_markTainted (digests : Digests) (outputs : ParseOutputs) (file : DiscoveredFileOut) :
    (markTainted digests outputs file).view file.fileIdentity =
      (outputs.view file.fileIdentity).marked digests file := by
  refine ParseView.mk.injEq .. |>.mpr
    ⟨?_, rfl, AList.lookup_insert _, AList.lookup_insert _, rfl⟩
  change (markTainted digests outputs file).results.lookup file.fileIdentity =
    (outputs.results.lookup file.fileIdentity).or (some (sourceVersionChangedParse digests file))
  unfold markTainted
  split_ifs with hmem
  · obtain ⟨result, hresult⟩ := Option.isSome_iff_exists.1 (AList.lookup_isSome.2 hmem)
    rw [hresult]
    rfl
  · rw [AList.lookup_insert, AList.lookup_eq_none.2 hmem]
    rfl

theorem view_markTainted_ne (digests : Digests) (outputs : ParseOutputs) (file : DiscoveredFileOut)
    {identity : Text} (h : identity ≠ file.fileIdentity) :
    (markTainted digests outputs file).view identity = outputs.view identity := by
  refine ParseView.mk.injEq .. |>.mpr
    ⟨?_, rfl, AList.lookup_insert_ne h, AList.lookup_insert_ne h, rfl⟩
  unfold markTainted
  split_ifs
  · rfl
  · exact AList.lookup_insert_ne h

variable {σ : Type}

/-- The port said that the source of the file changed. -/
def SaidTainted (run : RunContext σ) (file : DiscoveredFileOut) : Prop :=
  ∃ s, (run.ports.isTainted file.path s).1 = true

/-- The view is the old one, or that of a file whose source changed. -/
def MarkedView (run : RunContext σ) (identity : Text) (view view' : ParseView) : Prop :=
  view' = view ∨ ∃ file, run.input.snapshot.lookup identity = some file ∧ SaidTainted run file ∧
    view' = view.marked run.digests file

/-- The final state is this one with some of its files marked. -/
structure Marked (run : RunContext σ) (state final : RefillState) : Prop where
  classified : final.classified = state.classified
  admission : final.admission = state.admission
  classifications : final.classifications = state.classifications
  audits : final.audits = state.audits
  runtime : final.runtime = state.runtime
  view : ∀ identity, MarkedView run identity (state.outputs.view identity)
    (final.outputs.view identity)

variable {run : RunContext σ} {state : RefillState}

theorem MarkedView.step {view view' : ParseView} {file : DiscoveredFileOut}
    (h : MarkedView run file.fileIdentity view view')
    (hfile : run.input.snapshot.lookup file.fileIdentity = some file) (hsaid : SaidTainted run file) :
    MarkedView run file.fileIdentity view (view'.marked run.digests file) := by
  rcases h with rfl | ⟨other, hother, -, rfl⟩
  · exact .inr ⟨file, hfile, hsaid, rfl⟩
  · rw [hfile] at hother
    cases hother
    exact .inr ⟨file, hfile, hsaid, ParseView.marked_marked _ _ _⟩

/-- **The taint pass marks files of the run.** -/
theorem taintPass_spec (hinput : run.input.Distinct) :
    Ensures (taintPass run state) (Marked run state) := by
  unfold taintPass
  have hfold : Ensures (run.input.discovery.foldlM (taintFile run) state.outputs)
      fun outputs => ∀ identity, MarkedView run identity (state.outputs.view identity)
        (outputs.view identity) := by
    refine Ensures.foldlM _ (fun identity => .inl rfl) fun file hfile outputs h => ?_
    unfold taintFile
    refine Ensures.ask.bind fun tainted hsaid => Ensures.pure ?_
    cases tainted with
    | false => exact h
    | true =>
      intro identity
      rw [if_pos rfl]
      by_cases hidentity : identity = file.fileIdentity
      · subst hidentity
        rw [view_markTainted]
        exact (h _).step (lookup_indexBy hinput hfile) hsaid
      · rw [view_markTainted_ne _ _ _ hidentity]
        exact h identity
  exact hfold.bind fun outputs h => Ensures.pure ⟨rfl, rfl, rfl, rfl, rfl, h⟩

/-- What the projections read is the same. -/
structure SameFiles (state final : RefillState) : Prop where
  classified : final.classified = state.classified
  admission : final.admission = state.admission
  classifications : final.classifications = state.classifications
  audits : final.audits = state.audits
  runtime : final.runtime = state.runtime
  view : ∀ identity, final.outputs.view identity = state.outputs.view identity

/-- The touch pass changes nothing that the projections read. -/
theorem touchPass_sameFiles : Ensures (touchPass run state) (SameFiles state) := by
  unfold touchPass
  refine Ensures.bind_trivial fun now => Ensures.bind_trivial fun touched => ?_
  rcases touched with (_ | _ | _) | _ <;>
    exact Ensures.pure ⟨rfl, rfl, rfl, rfl, rfl, fun _ => rfl⟩

theorem Marked.touched {marked final : RefillState} (h : Marked run state marked)
    (hsame : SameFiles marked final) : Marked run state final where
  classified := hsame.classified.trans h.classified
  admission := hsame.admission.trans h.admission
  classifications := hsame.classifications.trans h.classifications
  audits := hsame.audits.trans h.audits
  runtime := hsame.runtime.trans h.runtime
  view identity := by
    rw [hsame.view]
    exact h.view identity

/-- **A finished run is a coherent run with marks.** -/
theorem runPasses_spec [UnicodeCase] (hinput : run.input.Distinct)
    (hconcurrency : 0 < run.concurrency) :
    Ensures (runPasses run) fun outcome => ∃ state, Coherent run state ∧
      Marked run state outcome.state := by
  unfold runPasses
  refine (firstPass_coherent hinput hconcurrency).bind fun first hfirst => ?_
  refine (refillPass_coherent hinput hconcurrency hfirst).bind fun refilled hrefilled => ?_
  refine (taintPass_spec hinput).bind fun tainted htainted => ?_
  exact touchPass_sameFiles.bind fun final hsame =>
    Ensures.pure ⟨_, hrefilled, htainted.touched hsame⟩

/-- The context of a run has its ports and its input, and at least one worker. -/
theorem runContext_eq_ok [UnicodeCase] {ports : Ports σ} {digests : Digests}
    {input : ScheduledRunInput} (h : runContext ports digests input = .ok run) :
    run.ports = ports ∧ run.digests = digests ∧ run.input = input ∧ 0 < run.concurrency := by
  unfold runContext at h
  obtain ⟨hash, -, h⟩ := bind_eq_ok.1 h
  obtain ⟨build, -, h⟩ := bind_eq_ok.1 h
  simp only [pure, Except.pure, Except.ok.injEq] at h
  subst h
  exact ⟨rfl, rfl, rfl, lt_max_of_lt_right Nat.one_pos⟩

end DailyReport
