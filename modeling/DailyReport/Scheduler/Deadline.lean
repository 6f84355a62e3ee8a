import DailyReport.Scheduler.WaveCoherence

/-!
# A stopped file raises the flag

The deadline stops files in many places, and each of them raises the flag that the run reports.  So
a finished run in which a file was stopped has its flag up.

* `runPasses_flagged` : **where a file was stopped, the run says that its deadline stopped it**.
-/

namespace DailyReport

open Lib

variable {σ : Type} {run : RunContext σ}

/-! ### Classification -/

/-- A stopped classification raised the flag. -/
def ClassificationOutputs.Flagged (out : ClassificationOutputs) : Prop :=
  out.runtimeNotParsed.Nonempty → out.stageDeadlineExhausted = true

section Classification

variable {phase : ClassificationPhase} {out : ClassificationOutputs}

theorem queueClassification_flagged (h : phase.outputs.Flagged) (file : DiscoveredFileOut)
    (guard : SourceGuardV2) (chargedPages : ℕ) (hash : Text)
    (reason : ClassificationCacheMissReason) :
    Ensures (queueClassification run file guard chargedPages hash reason phase) fun phase' =>
      phase'.outputs.Flagged := by
  unfold queueClassification
  refine Ensures.bind_trivial fun now => Ensures.ite (fun _ => Ensures.pure fun _ => rfl) fun _ => ?_
  exact Ensures.bind_trivial fun requestId => Ensures.pure h

theorem lookupClassification_flagged (h : phase.outputs.Flagged) (file : DiscoveredFileOut)
    (guard : SourceGuardV2) (chargedPages : ℕ) (hash : Text) :
    Ensures (lookupClassification run file guard chargedPages hash phase) fun phase' =>
      phase'.outputs.Flagged := by
  unfold lookupClassification
  refine Ensures.bind_trivial fun lookup => ?_
  rcases lookup with e | entry | reason
  · exact Ensures.throw
  · exact Ensures.pure h
  · exact queueClassification_flagged h file guard chargedPages hash reason

theorem freezeClassification_flagged (h : phase.outputs.Flagged) (plan : ClassifiedPlan) :
    Ensures (freezeClassification run phase plan) fun phase' => phase'.outputs.Flagged := by
  unfold freezeClassification
  cases plan.pdfClassification with
  | notPdf => exact Ensures.pure h
  | notClassifiedByBudget => exact Ensures.pure h
  | classify chargedPages =>
    refine Ensures.bind_trivial fun hash => ?_
    cases run.input.snapshot.lookup plan.fileIdentity with
    | none => exact Ensures.pure h
    | some file =>
      unfold verifyClassification
      refine Ensures.bind_trivial fun now =>
        Ensures.ite (fun _ => Ensures.pure fun _ => rfl) fun _ => ?_
      cases expectedGuard file with
      | none => exact Ensures.pure h
      | some guard =>
        refine Ensures.bind_trivial fun verified => Ensures.ite (fun _ => ?_) fun _ => Ensures.pure h
        exact lookupClassification_flagged h file guard chargedPages hash

theorem writeClassification_flagged (h : out.Flagged) (task : ClassificationTask)
    (result : PdfClassificationResult) :
    Ensures (writeClassification run task result out) ClassificationOutputs.Flagged := by
  unfold writeClassification
  refine Ensures.bind_trivial fun now => Ensures.ite (fun _ => ?_) fun _ => Ensures.pure h
  cases classificationCacheRecord task.file task.classifierHash task.classifierBuild result with
  | none => exact Ensures.pure h
  | some record =>
    refine Ensures.bind_trivial fun now => Ensures.bind_trivial fun written => ?_
    rcases written with (_ | _ | _) | _
    · exact Ensures.pure h
    · exact Ensures.pure h
    · exact Ensures.pure fun _ => rfl
    · exact Ensures.pure h

theorem mergeClassification_flagged (h : out.Flagged)
    (call : ClassificationTask × PdfClassifierExecution) :
    Ensures (mergeClassification run out call) ClassificationOutputs.Flagged := by
  unfold mergeClassification
  refine Ensures.ite (fun _ => Ensures.pure h) fun _ =>
    Ensures.ite (fun _ => Ensures.pure h) fun _ => ?_
  refine Ensures.bind_trivial fun verified => Ensures.ite (fun _ => ?_) fun _ => Ensures.pure h
  refine writeClassification_flagged ?_ call.1 _
  exact h

theorem classificationWaves_flagged (waves : List (List ClassificationTask)) (h : out.Flagged) :
    Ensures (classificationWaves run waves out) ClassificationOutputs.Flagged := by
  induction waves generalizing out with
  | nil => exact Ensures.pure h
  | cons wave rest ih =>
    unfold classificationWaves executeClassificationWave
    refine Ensures.bind_trivial fun now =>
      Ensures.ite (fun _ => Ensures.pure fun _ => rfl) fun _ => ?_
    refine Ensures.bind (P := ClassificationOutputs.Flagged) ?_ fun out' h' => ih h'
    refine Ensures.bind_trivial fun now => Ensures.bind_trivial fun executions => ?_
    exact Ensures.foldlM _ h fun call _ out' h' => mergeClassification_flagged h' call

/-- **A classification phase that stopped a file raised the flag.** -/
theorem runClassifications_flagged (plans : List ClassifiedPlan) :
    Ensures (runClassifications run plans) ClassificationOutputs.Flagged := by
  unfold runClassifications
  refine Ensures.bind (P := fun phase : ClassificationPhase => phase.outputs.Flagged) ?_
    fun phase h => classificationWaves_flagged _ h
  refine Ensures.foldlM _ (fun hne => absurd hne Finset.not_nonempty_empty) ?_
  exact fun plan _ phase h => freezeClassification_flagged h plan

end Classification

/-! ### Parsing -/

/-- A stopped parse raised the flag. -/
def ParsePhase.Flagged (phase : ParsePhase) : Prop :=
  phase.outputs.runtimeNotParsed.Nonempty → phase.stageDeadlineExhausted = true

section Parsing

variable {phase : ParsePhase}

theorem useCachedParse_flagged (h : phase.Flagged) (file : DiscoveredFileOut) (entry : CacheEntry)
    (profileHash : Text) :
    Ensures (useCachedParse run file entry profileHash phase) ParsePhase.Flagged := by
  unfold useCachedParse
  cases expectedGuard file with
  | none => exact Ensures.pure h
  | some guard =>
    exact Ensures.bind_trivial fun verified =>
      Ensures.ite (fun _ => Ensures.pure h) fun _ => Ensures.pure h

theorem queueParse_flagged (h : phase.Flagged) (file : DiscoveredFileOut) (route : RouteKind)
    (profileHash : Text) :
    Ensures (queueParse run file route profileHash phase) ParsePhase.Flagged := by
  unfold queueParse
  refine Ensures.bind_trivial fun now => Ensures.ite (fun _ => Ensures.pure fun _ => rfl) fun _ => ?_
  exact Ensures.bind_trivial fun now => Ensures.pure h

theorem lookupParse_flagged (h : phase.Flagged) (file : DiscoveredFileOut) (route : RouteKind) :
    Ensures (lookupParse run file route phase) ParsePhase.Flagged := by
  unfold lookupParse
  refine Ensures.bind_trivial fun now => Ensures.ite (fun _ => Ensures.pure fun _ => rfl) fun _ => ?_
  refine Ensures.bind_trivial fun lookup => ?_
  rcases lookup with e | ⟨profileHash, entry | reason⟩
  · exact Ensures.throw
  · exact useCachedParse_flagged h file entry profileHash
  · refine queueParse_flagged ?_ file route profileHash
    exact h

theorem freezeParse_flagged (h : phase.Flagged) (classifications : Classifications)
    (runtime : Finset Text) (decision : AdmissionDecision) :
    Ensures (freezeParse run classifications runtime phase decision) ParsePhase.Flagged := by
  unfold freezeParse
  cases decision.action with
  | admitRoute route =>
    cases run.input.snapshot.lookup decision.fileIdentity with
    | none => exact Ensures.pure h
    | some file =>
      exact Ensures.ite (fun _ => Ensures.pure h) fun _ =>
        Ensures.ite (fun _ => Ensures.pure h) fun _ => lookupParse_flagged h file route
  | _ => exact Ensures.pure h

/-- Starting a parser stops no file. -/
theorem startParse_runtime (classifications : Classifications) (remaining : ℕ)
    (wave : ParseOutputs × List StartedParse) (task : ParseTask) :
    Ensures (startParse run classifications remaining wave task) fun wave' =>
      wave'.1.runtimeNotParsed = wave.1.runtimeNotParsed := by
  unfold startParse
  cases expectedGuard task.file with
  | none => exact Ensures.pure rfl
  | some guard =>
    exact Ensures.bind_trivial fun verified =>
      Ensures.ite (fun _ => Ensures.pure rfl) fun _ => Ensures.pure rfl

theorem writeParse_flagged (h : phase.Flagged) (started : StartedParse) (result : ParseResult) :
    Ensures (writeParse run started result phase) ParsePhase.Flagged := by
  unfold writeParse
  refine Ensures.bind_trivial fun now => Ensures.ite (fun _ => ?_) fun _ => Ensures.pure h
  refine Ensures.bind_trivial fun now => Ensures.bind_trivial fun written => ?_
  rcases written with (_ | _ | _) | _
  · exact Ensures.pure h
  · exact Ensures.pure h
  · exact Ensures.pure fun _ => rfl
  · exact Ensures.pure h

theorem mergeParse_flagged (h : phase.Flagged) (call : StartedParse × ParseResult) :
    Ensures (mergeParse run phase call) ParsePhase.Flagged := by
  unfold mergeParse
  refine Ensures.ite (fun _ => ?_) fun _ => Ensures.pure h
  refine Ensures.bind_trivial fun verified => Ensures.ite (fun _ => ?_) fun _ => Ensures.pure h
  refine (writeParse_flagged ?_ call.1 call.2).bind fun phase' h' => Ensures.pure h'
  exact h

theorem parseWaves_flagged (classifications : Classifications) (waves : List (List ParseTask))
    (h : phase.Flagged) :
    Ensures (parseWaves run classifications waves phase) ParsePhase.Flagged := by
  induction waves generalizing phase with
  | nil => exact Ensures.pure h
  | cons wave rest ih =>
    unfold parseWaves executeParseWave
    refine Ensures.bind_trivial fun now =>
      Ensures.ite (fun _ => Ensures.pure fun _ => rfl) fun _ => ?_
    refine Ensures.bind (P := ParsePhase.Flagged) ?_ fun phase' h' => ih h'
    refine Ensures.bind_trivial fun now => ?_
    refine Ensures.bind (P := fun wave : ParseOutputs × List StartedParse =>
      wave.1.runtimeNotParsed = phase.outputs.runtimeNotParsed) ?_ fun begun hbegun => ?_
    · refine Ensures.foldlM _ rfl fun task _ wave hwave => ?_
      exact (startParse_runtime classifications _ wave task).mono fun wave' h' => h'.trans hwave
    · refine Ensures.bind_trivial fun results => Ensures.foldlM _ ?_ fun call _ phase' h' =>
        mergeParse_flagged h' call
      intro hne
      exact h (hbegun ▸ hne)

/-- **A parse phase that stopped a file raised the flag.** -/
theorem runParses_flagged (classifications : Classifications) (runtime : Finset Text)
    (admission : List AdmissionDecision) :
    Ensures (runParses run classifications runtime admission) ParsePhase.Flagged := by
  unfold runParses
  refine Ensures.bind (P := ParsePhase.Flagged) ?_ fun phase h =>
    parseWaves_flagged classifications _ h
  refine Ensures.foldlM _ (fun hne => absurd hne Finset.not_nonempty_empty) ?_
  exact fun decision _ phase h => freezeParse_flagged h classifications runtime decision

end Parsing

/-! ### A whole run -/

/-- A stopped file raised the flag of the run. -/
def RefillState.Flagged (state : RefillState) : Prop :=
  state.runtime.Nonempty ∨ state.outputs.runtimeNotParsed.Nonempty →
    state.stageDeadlineExhausted = true

variable {state : RefillState}

theorem taintPass_flagged (h : state.Flagged) :
    Ensures (taintPass run state) RefillState.Flagged := by
  unfold taintPass
  refine Ensures.bind (P := fun outputs : ParseOutputs =>
    outputs.runtimeNotParsed = state.outputs.runtimeNotParsed) ?_ fun outputs houtputs =>
      Ensures.pure ?_
  · refine Ensures.foldlM _ rfl fun file _ outputs houtputs => ?_
    unfold taintFile
    refine Ensures.bind_trivial fun tainted => Ensures.pure ?_
    cases tainted <;> exact houtputs
  · intro hne
    exact h (hne.imp id fun hne => houtputs ▸ hne)

theorem touchPass_flagged (h : state.Flagged) :
    Ensures (touchPass run state) RefillState.Flagged := by
  unfold touchPass
  refine Ensures.bind_trivial fun now => Ensures.bind_trivial fun touched => ?_
  rcases touched with (_ | _ | _) | _
  · exact Ensures.pure h
  · exact Ensures.pure h
  · exact Ensures.pure fun _ => rfl
  · exact Ensures.pure h

variable [UnicodeCase]

theorem firstPass_flagged : Ensures (firstPass run) fun first => first.state.Flagged := by
  unfold firstPass
  refine (runClassifications_flagged _).bind fun out hout => Ensures.bind_trivial fun model => ?_
  refine (runParses_flagged _ _ _).bind fun parses hparses => Ensures.pure ?_
  rintro (hne | hne)
  · exact Bool.or_eq_true_iff.2 (.inl (hout hne))
  · exact Bool.or_eq_true_iff.2 (.inr (hparses hne))

theorem refillWave_flagged (h : state.Flagged) (plan : RefillPlan) (used : Consumed) :
    Ensures (refillWave run plan used state) RefillState.Flagged := by
  unfold refillWave
  refine (runClassifications_flagged _).bind fun out hout => Ensures.bind_trivial fun model => ?_
  refine (runParses_flagged _ _ _).bind fun parses hparses => Ensures.pure ?_
  -- the flag of the wave collects the flags of its parts
  change (state.runtime ∪ out.runtimeNotParsed).Nonempty ∨
    (state.outputs.runtimeNotParsed ∪ parses.outputs.runtimeNotParsed).Nonempty →
      ((state.stageDeadlineExhausted || out.stageDeadlineExhausted) ||
        parses.stageDeadlineExhausted) = true
  simp only [Finset.union_nonempty, Bool.or_eq_true]
  rintro ((hne | hne) | (hne | hne))
  · exact .inl (.inl (h (.inl hne)))
  · exact .inl (.inr (hout hne))
  · exact .inl (.inl (h (.inr hne)))
  · exact .inr (hparses hne)

theorem refillPass_flagged (h : state.Flagged) :
    Ensures (refillPass run state) fun result => result.1.Flagged := by
  unfold refillPass
  refine Ensures.ite (fun _ => ?_) fun _ => Ensures.pure h
  exact (runRefills_invariant (fun price h _ => h) (fun used h _ => refillWave_flagged h _ used)
    h).bind fun result h => Ensures.pure h

/-- **Where a file was stopped, the run says that its deadline stopped it.** -/
theorem runPasses_flagged : Ensures (runPasses run) fun outcome => outcome.state.Flagged := by
  unfold runPasses
  refine firstPass_flagged.bind fun first hfirst => ?_
  refine (refillPass_flagged hfirst).bind fun refilled hrefilled => ?_
  refine (taintPass_flagged hrefilled).bind fun tainted htainted => ?_
  exact (touchPass_flagged htainted).bind fun final hfinal => Ensures.pure hfinal

end DailyReport
