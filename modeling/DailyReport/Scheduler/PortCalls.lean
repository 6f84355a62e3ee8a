import DailyReport.Lib.Hoare
import DailyReport.Scheduler.Finished

/-!
# A run is a sequence of port calls

The scheduler changes the world by calling its ports, and it verifies the files of its plans and
decisions only.  So if every port call is a step of the world, and verifying an `allowed` path is
one, then a phase over allowed files goes by these steps (`runClassifications_moves`,
`runParses_moves`), and so does a whole run (`runPasses_moves`).
-/

namespace DailyReport

open Lib

variable {σ : Type}

/-- Every call of a port is a step, where a verification is one of an allowed path. -/
structure PortsMove (ports : Ports σ) (step : σ → σ → Prop) (allowed : Text → Prop) : Prop where
  verify : ∀ path guard, allowed path → ∀ s, step s (ports.verify path guard s).2
  isTainted : ∀ path s, step s (ports.isTainted path s).2
  nowMs : ∀ s, step s (ports.nowMs s).2
  nextRequestId : ∀ s, step s (ports.nextRequestId s).2
  classifyPdf : ∀ operation timeout s, step s (ports.classifyPdf operation timeout s).2
  parse : ∀ request s, step s (ports.parse request s).2
  lookupParse : ∀ file route existed s, step s (ports.lookupParse file route existed s).2
  lookupClassification : ∀ file hash build existed s,
    step s (ports.lookupClassification file hash build existed s).2
  writeParse : ∀ now record s, step s (ports.writeParse now record s).2
  writeClassification : ∀ now record s, step s (ports.writeClassification now record s).2
  touchAccess : ∀ now parses classifications s,
    step s (ports.touchAccess now parses classifications s).2

variable {run : RunContext σ} {step : σ → σ → Prop} {allowed : Text → Prop}

/-- The discovered file of an identity may be verified. -/
def MayVerify (run : RunContext σ) (allowed : Text → Prop) (identity : Text) : Prop :=
  ∀ file, run.input.snapshot.lookup identity = some file → allowed file.path

variable (hports : PortsMove run.ports step allowed)

include hports in
theorem nowMs_moves : Moves (ε := SchedulerFailure) step (Exec.ask run.ports.nowMs) :=
  Moves.ask hports.nowMs

include hports in
theorem verify_moves {path : Text} (guard : SourceGuardV2) (h : allowed path) :
    Moves (ε := SchedulerFailure) step (Exec.ask (run.ports.verify path guard)) :=
  Moves.ask (hports.verify path guard h)

/-! ### Classification -/

section Classification

variable {file : DiscoveredFileOut} {guard : SourceGuardV2} {chargedPages : ℕ} {hash : Text}
  {phase : ClassificationPhase} {plan : ClassifiedPlan} {plans : List ClassifiedPlan}

include hports in
theorem lookupClassification_moves :
    Moves step (lookupClassification run file guard chargedPages hash phase) := by
  unfold lookupClassification
  refine (Moves.ask (hports.lookupClassification _ _ _ _)).bind fun lookup => ?_
  rcases lookup with e | entry | reason
  · exact Moves.throw
  · exact Moves.pure _
  · unfold queueClassification
    refine (nowMs_moves hports).bind fun now => Moves.ite (fun _ => Moves.pure _) fun _ => ?_
    exact (Moves.ask hports.nextRequestId).bind fun _ => Moves.pure _

include hports in
theorem freezeClassification_moves (hplan : MayVerify run allowed plan.fileIdentity) :
    Moves step (freezeClassification run phase plan) := by
  unfold freezeClassification
  split
  · exact Moves.pure _
  · exact Moves.pure _
  · refine (Moves.ofExcept _).bind fun hash => ?_
    cases hfile : run.input.snapshot.lookup plan.fileIdentity with
    | none => exact Moves.pure _
    | some file =>
      unfold verifyClassification
      refine (nowMs_moves hports).bind fun now => Moves.ite (fun _ => Moves.pure _) fun _ => ?_
      cases expectedGuard file with
      | none => exact Moves.pure _
      | some guard =>
        exact (verify_moves hports guard (hplan file hfile)).bind fun verified =>
          Moves.ite (fun _ => lookupClassification_moves hports) fun _ => Moves.pure _

/-- A plan queues its own file. -/
theorem freezeClassification_tasks :
    Ensures (freezeClassification run phase plan) fun phase' => ∀ task ∈ phase'.tasks,
      task ∈ phase.tasks ∨ run.input.snapshot.lookup plan.fileIdentity = some task.file := by
  unfold freezeClassification
  split
  · exact Ensures.pure fun task htask => .inl htask
  · exact Ensures.pure fun task htask => .inl htask
  · refine Ensures.bind_trivial fun hash => ?_
    cases hfile : run.input.snapshot.lookup plan.fileIdentity with
    | none => exact Ensures.pure fun task htask => .inl htask
    | some file =>
      unfold verifyClassification
      refine Ensures.bind_trivial fun now =>
        Ensures.ite (fun _ => Ensures.pure fun task htask => .inl htask) fun _ => ?_
      cases expectedGuard file with
      | none => exact Ensures.pure fun task htask => .inl htask
      | some guard =>
        refine Ensures.bind_trivial fun verified =>
          Ensures.ite (fun _ => ?_) fun _ => Ensures.pure fun task htask => .inl htask
        unfold lookupClassification
        refine Ensures.bind_trivial fun lookup => ?_
        rcases lookup with e | entry | reason
        · exact Ensures.throw
        · exact Ensures.pure fun task htask => .inl htask
        · unfold queueClassification
          refine Ensures.bind_trivial fun now =>
            Ensures.ite (fun _ => Ensures.pure fun task htask => .inl htask) fun _ => ?_
          refine Ensures.bind_trivial fun requestId => Ensures.pure fun task htask => ?_
          rcases List.mem_append.1 htask with htask | htask
          · exact .inl htask
          · rw [List.mem_singleton] at htask
            exact .inr (by rw [htask])

include hports in
theorem mergeClassification_moves {out : ClassificationOutputs}
    {call : ClassificationTask × PdfClassifierExecution} (hcall : allowed call.1.file.path) :
    Moves step (mergeClassification run out call) := by
  unfold mergeClassification
  refine Moves.ite (fun _ => Moves.pure _) fun _ => Moves.ite (fun _ => Moves.pure _) fun _ => ?_
  refine (verify_moves hports _ hcall).bind fun verified =>
    Moves.ite (fun _ => ?_) fun _ => Moves.pure _
  unfold writeClassification
  refine (nowMs_moves hports).bind fun now => Moves.ite (fun _ => ?_) fun _ => Moves.pure _
  split
  · exact Moves.pure _
  · refine (nowMs_moves hports).bind fun now => ?_
    refine (Moves.ask (hports.writeClassification _ _)).bind fun written => ?_
    rcases written with (_ | _ | _) | _ <;> exact Moves.pure _

include hports in
theorem classificationWaves_moves {waves : List (List ClassificationTask)}
    (hwaves : ∀ task ∈ waves.flatten, allowed task.file.path) (out : ClassificationOutputs) :
    Moves step (classificationWaves run waves out) := by
  induction waves generalizing out with
  | nil => exact Moves.pure out
  | cons wave rest ih =>
    unfold classificationWaves
    refine (nowMs_moves hports).bind fun now => Moves.ite (fun _ => Moves.pure _) fun _ => ?_
    have hwave : Moves step (executeClassificationWave run wave out) := by
      unfold executeClassificationWave
      refine (nowMs_moves hports).bind fun now => ?_
      refine (Moves.mapM fun task _ => Moves.ask (hports.classifyPdf _ _)).bind fun executions =>
        Moves.foldlM fun call hcall out => ?_
      exact mergeClassification_moves hports
        (hwaves _ (List.mem_append_left _ (List.of_mem_zip hcall).1))
    exact hwave.bind fun out =>
      ih (fun task htask => hwaves task (List.mem_append_right _ htask)) out

include hports in
/-- **A classification phase over allowed files goes by port calls.** -/
theorem runClassifications_moves (hconcurrency : 0 < run.concurrency)
    (hplans : ∀ plan ∈ plans, MayVerify run allowed plan.fileIdentity) :
    Moves step (runClassifications run plans) := by
  unfold runClassifications
  have htasks : Ensures (plans.foldlM (freezeClassification run) ⟨ClassificationOutputs.empty, []⟩)
      fun phase => ∀ task ∈ phase.tasks, allowed task.file.path := by
    refine Ensures.foldlM (b := ⟨ClassificationOutputs.empty, []⟩)
      (fun phase => ∀ task ∈ phase.tasks, allowed task.file.path)
      (fun _ htask => absurd htask List.not_mem_nil)
      fun plan hplan phase hphase => freezeClassification_tasks.mono fun phase' h task htask => ?_
    rcases h task htask with hold | hfile
    · exact hphase task hold
    · exact hplans plan hplan _ hfile
  refine (Moves.foldlM fun plan hplan phase =>
    freezeClassification_moves hports (hplans plan hplan)).bind_ensures htasks fun phase h => ?_
  exact classificationWaves_moves hports (by rwa [flatten_chunks hconcurrency]) _

end Classification

/-! ### Parsing -/

section Parsing

variable {file : DiscoveredFileOut} {phase : ParsePhase} {classifications : Classifications}
  {runtime : Finset Text} {decision : AdmissionDecision} {decisions : List AdmissionDecision}

include hports in
theorem freezeParse_moves (hdecision : MayVerify run allowed decision.fileIdentity) :
    Moves step (freezeParse run classifications runtime phase decision) := by
  unfold freezeParse
  split
  case h_2 => exact Moves.pure _
  case h_1 route _ =>
    cases hfile : run.input.snapshot.lookup decision.fileIdentity with
    | none => exact Moves.pure _
    | some file =>
      refine Moves.ite (fun _ => Moves.pure _) fun _ => Moves.ite (fun _ => Moves.pure _) fun _ => ?_
      unfold lookupParse
      refine (nowMs_moves hports).bind fun now => Moves.ite (fun _ => Moves.pure _) fun _ => ?_
      refine (Moves.ask (hports.lookupParse _ _ _)).bind fun lookup => ?_
      rcases lookup with e | ⟨profileHash, entry | reason⟩
      · exact Moves.throw
      · unfold useCachedParse
        cases expectedGuard file with
        | none => exact Moves.pure _
        | some guard =>
          exact (verify_moves hports guard (hdecision file hfile)).bind fun verified =>
            Moves.ite (fun _ => Moves.pure _) fun _ => Moves.pure _
      · unfold queueParse
        refine (nowMs_moves hports).bind fun now => Moves.ite (fun _ => Moves.pure _) fun _ => ?_
        exact (nowMs_moves hports).bind fun now => Moves.pure _

/-- A decision queues its own file. -/
theorem freezeParse_tasks :
    Ensures (freezeParse run classifications runtime phase decision) fun phase' =>
      ∀ task ∈ phase'.tasks, task ∈ phase.tasks ∨
        run.input.snapshot.lookup decision.fileIdentity = some task.file := by
  unfold freezeParse
  split
  case h_2 => exact Ensures.pure fun task htask => .inl htask
  case h_1 route _ =>
    cases hfile : run.input.snapshot.lookup decision.fileIdentity with
    | none => exact Ensures.pure fun task htask => .inl htask
    | some file =>
      refine Ensures.ite (fun _ => Ensures.pure fun task htask => .inl htask) fun _ =>
        Ensures.ite (fun _ => Ensures.pure fun task htask => .inl htask) fun _ => ?_
      unfold lookupParse
      refine Ensures.bind_trivial fun now =>
        Ensures.ite (fun _ => Ensures.pure fun task htask => .inl htask) fun _ => ?_
      refine Ensures.bind_trivial fun lookup => ?_
      rcases lookup with e | ⟨profileHash, entry | reason⟩
      · exact Ensures.throw
      · unfold useCachedParse
        cases expectedGuard file with
        | none => exact Ensures.pure fun task htask => .inl htask
        | some guard =>
          refine Ensures.bind_trivial fun verified => Ensures.ite (fun _ => ?_) fun _ => ?_
          · exact Ensures.pure fun task htask => .inl htask
          · exact Ensures.pure fun task htask => .inl htask
      · unfold queueParse
        refine Ensures.bind_trivial fun now =>
          Ensures.ite (fun _ => Ensures.pure fun task htask => .inl htask) fun _ => ?_
        refine Ensures.bind_trivial fun now => Ensures.pure fun task htask => ?_
        rcases List.mem_append.1 htask with htask | htask
        · exact .inl htask
        · rw [List.mem_singleton] at htask
          exact .inr (by rw [htask])

include hports in
theorem startParse_moves {remaining : ℕ} {wave : ParseOutputs × List StartedParse}
    {task : ParseTask} (htask : allowed task.file.path) :
    Moves step (startParse run classifications remaining wave task) := by
  unfold startParse
  split
  · exact Moves.pure _
  · exact (verify_moves hports _ htask).bind fun verified =>
      Moves.ite (fun _ => Moves.pure _) fun _ => Moves.pure _

/-- A wave starts some of its tasks. -/
theorem startParse_sublist (classifications : Classifications) (remaining : ℕ)
    (wave : ParseOutputs × List StartedParse) (task : ParseTask) :
    Ensures (startParse run classifications remaining wave task) fun wave' =>
      (wave'.2.map StartedParse.task).Sublist (wave.2.map StartedParse.task ++ [task]) := by
  unfold startParse
  split
  · exact Ensures.pure (List.sublist_append_left _ _)
  · refine Ensures.bind_trivial fun verified => Ensures.ite (fun _ => Ensures.pure ?_) fun _ =>
      Ensures.pure (List.sublist_append_left _ _)
    rw [List.map_append]
    exact .refl _

theorem startAll_sublist (classifications : Classifications) (remaining : ℕ)
    (tasks : List ParseTask) (out : ParseOutputs) :
    Ensures (tasks.foldlM (startParse run classifications remaining) (out, [])) fun wave =>
      (wave.2.map StartedParse.task).Sublist tasks :=
  Ensures.foldlM_prefix (fun done (wave : ParseOutputs × List StartedParse) =>
    (wave.2.map StartedParse.task).Sublist done) (.refl _) fun _ task wave _ h =>
      (startParse_sublist classifications remaining wave task).mono fun _ hnew =>
        hnew.trans (h.append_right _)

include hports in
theorem writeParse_moves {started : StartedParse} {result : ParseResult} :
    Moves step (writeParse run started result phase) := by
  unfold writeParse
  refine (nowMs_moves hports).bind fun now => Moves.ite (fun _ => ?_) fun _ => Moves.pure _
  refine (nowMs_moves hports).bind fun now => ?_
  refine (Moves.ask (hports.writeParse _ _)).bind fun written => ?_
  rcases written with (_ | _ | _) | _ <;> exact Moves.pure _

include hports in
theorem mergeParse_moves {call : StartedParse × ParseResult}
    (hcall : allowed call.1.task.file.path) : Moves step (mergeParse run phase call) := by
  unfold mergeParse
  refine Moves.ite (fun _ => ?_) fun _ => Moves.pure _
  refine (verify_moves hports _ hcall).bind fun verified =>
    Moves.ite (fun _ => ?_) fun _ => Moves.pure _
  exact (writeParse_moves hports).bind fun phase' => Moves.pure _

include hports in
theorem parseWaves_moves {waves : List (List ParseTask)}
    (hwaves : ∀ task ∈ waves.flatten, allowed task.file.path) (phase : ParsePhase) :
    Moves step (parseWaves run classifications waves phase) := by
  induction waves generalizing phase with
  | nil => exact Moves.pure phase
  | cons wave rest ih =>
    unfold parseWaves
    refine (nowMs_moves hports).bind fun now => Moves.ite (fun _ => Moves.pure _) fun _ => ?_
    have hfirst : ∀ task ∈ wave, allowed task.file.path := fun task htask =>
      hwaves task (List.mem_append_left _ htask)
    have hwave : Moves step (executeParseWave run classifications wave phase) := by
      unfold executeParseWave
      refine (nowMs_moves hports).bind fun now => ?_
      refine (Moves.foldlM fun task htask _ => startParse_moves hports (hfirst task htask)).bind_ensures
        (startAll_sublist _ _ _ _) fun begun hbegun => ?_
      refine (Moves.mapM fun started _ => Moves.ask (hports.parse _)).bind fun results =>
        Moves.foldlM fun call hcall phase => mergeParse_moves hports (hfirst _ ?_)
      exact hbegun.subset (List.mem_map_of_mem (List.of_mem_zip hcall).1)
    exact hwave.bind fun phase' =>
      ih (fun task htask => hwaves task (List.mem_append_right _ htask)) phase'

include hports in
/-- **A parse phase over allowed files goes by port calls.** -/
theorem runParses_moves (hconcurrency : 0 < run.concurrency)
    (hdecisions : ∀ decision ∈ decisions, MayVerify run allowed decision.fileIdentity) :
    Moves step (runParses run classifications runtime decisions) := by
  unfold runParses
  have htasks : Ensures (decisions.foldlM (freezeParse run classifications runtime)
      ⟨ParseOutputs.empty, [], false⟩) fun phase => ∀ task ∈ phase.tasks, allowed task.file.path := by
    refine Ensures.foldlM (b := ⟨ParseOutputs.empty, [], false⟩)
      (fun phase => ∀ task ∈ phase.tasks, allowed task.file.path)
      (fun _ htask => absurd htask List.not_mem_nil)
      fun decision hdecision phase hphase => freezeParse_tasks.mono fun phase' h task htask => ?_
    rcases h task htask with hold | hfile
    · exact hphase task hold
    · exact hdecisions decision hdecision _ hfile
  refine (Moves.foldlM fun decision hdecision phase =>
    freezeParse_moves hports (hdecisions decision hdecision)).bind_ensures htasks fun phase h => ?_
  exact parseWaves_moves hports (by rwa [flatten_chunks hconcurrency]) _

end Parsing

/-! ### Passes -/

section Passes

variable [UnicodeCase] {plan : RefillPlan} {used : Consumed} {state : RefillState}

include hports in
/-- **A refill wave over allowed files goes by port calls.** -/
theorem refillWave_moves (hconcurrency : 0 < run.concurrency)
    (hplans : ∀ identity ∈ plan.plans.map ClassifiedPlan.fileIdentity,
      MayVerify run allowed identity) : Moves step (refillWave run plan used state) := by
  unfold refillWave
  refine (runClassifications_moves hports hconcurrency fun p hp => hplans _ ?_).bind fun out => ?_
  · refine mem_map_plans.2 ?_
    rw [List.map_append]
    exact List.mem_append_left _ (List.mem_map_of_mem (List.mem_of_mem_filter hp))
  refine (Moves.ofExcept _).bind fun model => ?_
  refine (runParses_moves hports hconcurrency fun decision hdecision => hplans _ ?_).bind
    fun parses => Moves.pure _
  rw [← map_fileIdentity_waveDecisions]
  exact List.mem_map_of_mem hdecision

section Run

variable (hall : PortsMove run.ports step fun _ => True) (hconcurrency : 0 < run.concurrency)

include hall hconcurrency

theorem refillRound_moves (round : ℕ) (ledger : RefillLedger) :
    Moves step (refillRound run round state ledger) := by
  unfold refillRound
  refine (nowMs_moves hall).bind fun now => Moves.ite (fun _ => Moves.pure _) fun _ => ?_
  refine (Moves.ofExcept _).bind fun reclaimed => (Moves.ofExcept _).bind fun used => ?_
  refine Moves.ite (fun _ => Moves.pure _) fun _ => ?_
  unfold runRound
  refine (refillWave_moves hall hconcurrency fun _ _ _ _ => trivial).bind fun after => ?_
  refine (Moves.ofExcept _).bind fun reclaimed => (Moves.ofExcept _).bind fun used => ?_
  exact Moves.ite (fun _ => Moves.pure _) fun _ => Moves.pure _

theorem refillRounds_moves (rounds : List ℕ) (state : RefillState) (ledger : RefillLedger) :
    Moves step (refillRounds run rounds state ledger) := by
  induction rounds generalizing state ledger with
  | nil => exact Moves.pure _
  | cons round rest ih =>
    unfold refillRounds
    exact (refillRound_moves hall hconcurrency round ledger).bind fun outcome =>
      Moves.ite (fun _ => Moves.pure _) fun _ => ih _ _

/-- **A run goes by port calls.** -/
theorem runPasses_moves : Moves step (runPasses run) := by
  have hfirst : Moves step (firstPass run) := by
    unfold firstPass
    refine (runClassifications_moves hall hconcurrency fun _ _ _ _ => trivial).bind fun out => ?_
    refine (Moves.ofExcept _).bind fun model => ?_
    exact (runParses_moves hall hconcurrency fun _ _ _ _ => trivial).bind fun parses => Moves.pure _
  have hrefill : ∀ state, Moves step (refillPass run state) := by
    intro state
    unfold refillPass
    refine Moves.ite (fun _ => ?_) fun _ => Moves.pure _
    unfold runRefills
    refine Moves.bind ?_ fun result => Moves.pure _
    refine (refillRounds_moves hall hconcurrency _ _ _).bind fun result => ?_
    exact (Moves.ofExcept _).bind fun used => (Moves.ofExcept _).bind fun _ => Moves.pure _
  have htaint : ∀ state, Moves step (taintPass run state) := by
    intro state
    unfold taintPass
    refine Moves.bind (Moves.foldlM fun file _ outputs => ?_) fun outputs => Moves.pure _
    unfold taintFile
    exact (Moves.ask (hall.isTainted _)).bind fun tainted => Moves.pure _
  have htouch : ∀ state, Moves step (touchPass run state) := by
    intro state
    unfold touchPass
    refine (nowMs_moves hall).bind fun now => ?_
    refine (Moves.ask (hall.touchAccess _ _ _)).bind fun touched => ?_
    rcases touched with (_ | _ | _) | _ <;> exact Moves.pure _
  unfold runPasses
  refine hfirst.bind fun first => (hrefill _).bind fun refilled => ?_
  exact (htaint _).bind fun tainted => (htouch _).bind fun final => Moves.pure _

end Run

end Passes

end DailyReport
