import DailyReport.Lib.Worklist
import DailyReport.Scheduler.Parse

/-!
# What the parse phase does to a file

Each decision of a parse phase ends in exactly one of a few fates (`ParseFate`), whatever the ports
answer: what the phase says about its file is the result, the profile hash, the cache state and the
runtime mark of that fate.

* `runParses_fates` : **every decision ends in a fate**, and the phase says nothing about any other
  file.
-/

namespace DailyReport

open Lib

/-- What a parse phase says about one file. -/
structure ParseView where
  result : Option ParseResult
  profileHash : Option Text
  cacheStatus : Option CacheStatus
  missReason : Option CacheMissReason
  stopped : Bool

namespace ParseView

/-- Nothing is known. -/
def untouched : ParseView := ⟨none, none, none, none, false⟩

/-- The cache may have been asked, in vain. -/
def missed (reason : Option CacheMissReason) : ParseView :=
  ⟨none, none, reason.map fun _ => .miss, reason, false⟩

end ParseView

namespace ParseOutputs

variable (out : ParseOutputs)

def view (identity : Text) : ParseView where
  result := out.results.lookup identity
  profileHash := out.parseProfileHashes.lookup identity
  cacheStatus := out.parseCacheStatus.lookup identity
  missReason := out.parseCacheMissReason.lookup identity
  stopped := decide (identity ∈ out.runtimeNotParsed)

variable {out} {identity other : Text} {result : ParseResult} {profileHash : Text}
  {status : CacheStatus} {reason : CacheMissReason}

theorem view_record : (out.record identity result profileHash).view identity =
    { out.view identity with result := some result, profileHash := some profileHash } :=
  congrArg₂ (fun r h => ParseView.mk r h _ _ _) (AList.lookup_insert _) (AList.lookup_insert _)

theorem view_record_ne (h : other ≠ identity) :
    (out.record identity result profileHash).view other = out.view other :=
  congrArg₂ (fun r h => ParseView.mk r h _ _ _) (AList.lookup_insert_ne h)
    (AList.lookup_insert_ne h)

theorem view_lookedUp : (out.lookedUp identity status reason).view identity =
    { out.view identity with cacheStatus := some status, missReason := some reason } :=
  congrArg₂ (fun s r => ParseView.mk _ _ s r _) (AList.lookup_insert _) (AList.lookup_insert _)

theorem view_lookedUp_ne (h : other ≠ identity) :
    (out.lookedUp identity status reason).view other = out.view other :=
  congrArg₂ (fun s r => ParseView.mk _ _ s r _) (AList.lookup_insert_ne h)
    (AList.lookup_insert_ne h)

end ParseOutputs

namespace ParsePhase

variable {phase : ParsePhase} {identity other : Text} {identities : List Text}

theorem view_stop : (phase.stop identity).outputs.view identity =
    { phase.outputs.view identity with stopped := true } := by
  simp [ParseOutputs.view, stop]

theorem view_stop_ne (h : other ≠ identity) :
    (phase.stop identity).outputs.view other = phase.outputs.view other := by
  simp [ParseOutputs.view, stop, h]

theorem view_stopAll (h : identity ∈ identities) :
    (phase.stopAll identities).outputs.view identity =
      { phase.outputs.view identity with stopped := true } := by
  simp [ParseOutputs.view, stopAll, h]

theorem view_stopAll_notMem (h : identity ∉ identities) :
    (phase.stopAll identities).outputs.view identity = phase.outputs.view identity := by
  simp [ParseOutputs.view, stopAll, h]

end ParsePhase

/-! ### Fates -/

variable {σ : Type}

/-- The decision admits a discovered file that nothing keeps from its parser. -/
structure Parseable (run : RunContext σ) (classifications : Classifications)
    (runtime : Finset Text) (decision : AdmissionDecision) (route : RouteKind)
    (file : DiscoveredFileOut) : Prop where
  admits : decision.action = .admitRoute route
  found : run.input.snapshot.lookup decision.fileIdentity = some file
  running : decision.fileIdentity ∉ runtime
  parsed : isMetadataOnly classifications decision.fileIdentity route = false

/-- The cache did not have the file. -/
def MissOf (run : RunContext σ) (file : DiscoveredFileOut) (route : RouteKind) (profileHash : Text)
    (reason : CacheMissReason) : Prop :=
  ∃ existed s, (run.ports.lookupParse file route existed s).1 = .ok ⟨profileHash, .miss reason⟩

/-- The cache had the file. -/
def HitOf (run : RunContext σ) (file : DiscoveredFileOut) (route : RouteKind) (profileHash : Text)
    (entry : CacheEntry) : Prop :=
  ∃ existed s, (run.ports.lookupParse file route existed s).1 = .ok ⟨profileHash, .fresh entry⟩

/-- The parser of a task was started under its guard and answered like this. -/
def ParsedAs (run : RunContext σ) (classifications : Classifications) (task : ParseTask)
    (result : ParseResult) : Prop :=
  (∃ guard, expectedGuard task.file = some guard) ∧
    ∃ remaining s, (run.ports.parse (task.request run.input classifications remaining) s).1 = result

/-- What may become of a decision in a parse phase. -/
inductive ParseFate (run : RunContext σ) (classifications : Classifications)
    (runtime : Finset Text) (decision : AdmissionDecision) : ParseView → Prop
  | notAdmitted (h : decision.action.isAdmit = false) :
      ParseFate run classifications runtime decision .untouched
  | unknown (h : run.input.snapshot.lookup decision.fileIdentity = none) :
      ParseFate run classifications runtime decision .untouched
  | stoppedBefore (h : decision.fileIdentity ∈ runtime) :
      ParseFate run classifications runtime decision .untouched
  | metadataOnly {route : RouteKind} (h : decision.action = .admitRoute route)
      (hmetadata : isMetadataOnly classifications decision.fileIdentity route = true) :
      ParseFate run classifications runtime decision .untouched
  | stopped {route : RouteKind} {file : DiscoveredFileOut} (reason : Option CacheMissReason)
      (h : Parseable run classifications runtime decision route file) :
      ParseFate run classifications runtime decision
        { ParseView.missed reason with stopped := true }
  | unguarded {route : RouteKind} {file : DiscoveredFileOut} (reason : Option CacheMissReason)
      (h : Parseable run classifications runtime decision route file)
      (hguard : expectedGuard file = none) :
      ParseFate run classifications runtime decision (.missed reason)
  | changed {route : RouteKind} {file : DiscoveredFileOut} {profileHash : Text}
      (reason : Option CacheMissReason)
      (h : Parseable run classifications runtime decision route file)
      (hhash : (∃ entry, HitOf run file route profileHash entry) ∨
        ∃ reason, MissOf run file route profileHash reason) :
      ParseFate run classifications runtime decision
        { ParseView.missed reason with
          result := some (sourceVersionChangedParse run.digests file)
          profileHash := some profileHash }
  | cached {route : RouteKind} {file : DiscoveredFileOut} {profileHash : Text} {entry : CacheEntry}
      (h : Parseable run classifications runtime decision route file)
      (hentry : HitOf run file route profileHash entry) :
      ParseFate run classifications runtime decision
        ⟨some (entry.parseResult file.fileIdentity), some profileHash, some .fresh, some .none,
          false⟩
  | changedAfter {task : ParseTask} {reason : CacheMissReason} {result : ParseResult}
      (h : Parseable run classifications runtime decision task.route task.file)
      (hmiss : MissOf run task.file task.route task.profileHash reason)
      (hresult : ParsedAs run classifications task result)
      (hsuccess : result.parseStatus = .success) :
      ParseFate run classifications runtime decision
        ⟨some (sourceVersionChangedAfterParse run.digests task.file result), some task.profileHash,
          some .miss, some reason, false⟩
  | parsed {task : ParseTask} {reason : CacheMissReason} {result : ParseResult}
      (h : Parseable run classifications runtime decision task.route task.file)
      (hmiss : MissOf run task.file task.route task.profileHash reason)
      (hresult : ParsedAs run classifications task result) :
      ParseFate run classifications runtime decision
        ⟨some result, some task.profileHash, some .miss, some reason, false⟩

/-- The decisions, the tasks and the outputs of a parse phase. -/
def parseKeys (run : RunContext σ) (classifications : Classifications) (runtime : Finset Text) :
    WorkKeys AdmissionDecision ParseTask ParseOutputs ParseView Text where
  plan := AdmissionDecision.fileIdentity
  task task := task.file.fileIdentity
  view := ParseOutputs.view
  untouched := .untouched
  Queued decision task view :=
    Parseable run classifications runtime decision task.route task.file ∧
      ∃ reason, MissOf run task.file task.route task.profileHash reason ∧
        view = .missed (some reason)
  Fate := ParseFate run classifications runtime

/-- The parse phase is on its way. -/
abbrev ParseProgress (run : RunContext σ) (classifications : Classifications)
    (runtime : Finset Text) (decisions : List AdmissionDecision) (pending : List ParseTask)
    (out : ParseOutputs) : Prop :=
  (parseKeys run classifications runtime).Worklist decisions pending out

variable {run : RunContext σ} {classifications : Classifications} {runtime : Finset Text}
  {decisions : List AdmissionDecision} {pending : List ParseTask} {out : ParseOutputs}

/-! ### Freezing -/

section Freezing

variable {decision : AdmissionDecision} {route : RouteKind} {file : DiscoveredFileOut}
  {phase : ParsePhase}

/-- The decisions before this one are on their way, and nothing is known about this one. -/
structure NextDecision (run : RunContext σ) (classifications : Classifications)
    (runtime : Finset Text) (decisions : List AdmissionDecision) (decision : AdmissionDecision)
    (phase : ParsePhase) : Prop where
  progress : ParseProgress run classifications runtime decisions phase.tasks phase.outputs
  isNew : decision.fileIdentity ∉ decisions.map AdmissionDecision.fileIdentity

theorem Parseable.identity (h : Parseable run classifications runtime decision route file) :
    file.fileIdentity = decision.fileIdentity := (mem_of_lookup_indexBy h.found).2

namespace NextDecision

variable (h : NextDecision run classifications runtime decisions decision phase)

include h

theorem view : phase.outputs.view decision.fileIdentity = .untouched :=
  h.progress.untouched h.isNew

/-- The decision is settled. -/
theorem settle {out : ParseOutputs} {view : ParseView}
    (hframe : ∀ k, k ≠ decision.fileIdentity → out.view k = phase.outputs.view k)
    (hview : out.view decision.fileIdentity = view)
    (hfate : ParseFate run classifications runtime decision view) :
    ParseProgress run classifications runtime (decisions ++ [decision]) phase.tasks out :=
  h.progress.settlePlan h.isNew hframe
    (show ParseFate run classifications runtime decision (out.view decision.fileIdentity) from
      hview ▸ hfate)

theorem keep (hfate : ParseFate run classifications runtime decision .untouched) :
    ParseProgress run classifications runtime (decisions ++ [decision]) phase.tasks
      phase.outputs :=
  h.settle (fun _ _ => rfl) h.view hfate

end NextDecision

theorem useCachedParse_spec
    (h : NextDecision run classifications runtime decisions decision phase)
    (hparse : Parseable run classifications runtime decision route file) {profileHash : Text}
    {entry : CacheEntry} (hentry : HitOf run file route profileHash entry) :
    Ensures (useCachedParse run file entry profileHash phase) fun phase' =>
      ParseProgress run classifications runtime (decisions ++ [decision]) phase'.tasks
        phase'.outputs := by
  unfold useCachedParse
  rw [hparse.identity]
  cases hguard : expectedGuard file with
  | none => exact Ensures.pure (h.keep (.unguarded none hparse hguard))
  | some guard =>
    refine Ensures.bind_trivial fun verified => Ensures.ite (fun _ => ?_) fun _ => ?_
    · refine Ensures.pure (h.settle (fun k hk => ?_) ?_ (.cached hparse hentry))
      · exact (ParseOutputs.view_record_ne hk).trans (ParseOutputs.view_lookedUp_ne hk)
      · refine ParseOutputs.view_record.trans ?_
        rw [ParseOutputs.view_lookedUp, h.view, hparse.identity]
        rfl
    · refine Ensures.pure (h.settle (fun k hk => ParseOutputs.view_record_ne hk) ?_
        (.changed none hparse (.inl ⟨entry, hentry⟩)))
      rw [ParseOutputs.view_record, h.view]
      rfl

theorem queueParse_spec (h : NextDecision run classifications runtime decisions decision phase)
    (hparse : Parseable run classifications runtime decision route file) {profileHash : Text}
    {reason : CacheMissReason} (hmiss : MissOf run file route profileHash reason) :
    Ensures (queueParse run file route profileHash
      { phase with outputs := phase.outputs.lookedUp file.fileIdentity .miss reason })
      fun phase' =>
        ParseProgress run classifications runtime (decisions ++ [decision]) phase'.tasks
          phase'.outputs := by
  unfold queueParse
  rw [hparse.identity]
  have hview : (phase.outputs.lookedUp decision.fileIdentity .miss reason).view
      decision.fileIdentity = .missed (some reason) := by
    rw [ParseOutputs.view_lookedUp, h.view]
    rfl
  refine Ensures.bind_trivial fun now => Ensures.ite (fun _ => Ensures.pure ?_) fun _ => ?_
  · refine h.settle (fun k hk => ?_) (ParsePhase.view_stop.trans ?_)
      (.stopped (some reason) hparse)
    · exact (ParsePhase.view_stop_ne hk).trans (ParseOutputs.view_lookedUp_ne hk)
    · rw [hview]
  · refine Ensures.bind_trivial fun now => Ensures.pure ?_
    refine h.progress.queuePlan h.isNew (fun k hk => ParseOutputs.view_lookedUp_ne hk)
      hparse.identity ⟨hparse, reason, hmiss, hview⟩

/-- **Freezing a decision settles or queues it.** -/
theorem freezeParse_spec (h : NextDecision run classifications runtime decisions decision phase) :
    Ensures (freezeParse run classifications runtime phase decision) fun phase' =>
      ParseProgress run classifications runtime (decisions ++ [decision]) phase'.tasks
        phase'.outputs := by
  unfold freezeParse
  split
  case h_2 hadmits =>
    refine Ensures.pure (h.keep (.notAdmitted ?_))
    cases haction : decision.action <;> first | rfl | exact absurd haction (hadmits _)
  case h_1 route hadmits =>
    cases hfile : run.input.snapshot.lookup decision.fileIdentity with
    | none => exact Ensures.pure (h.keep (.unknown hfile))
    | some file =>
      refine Ensures.ite (fun hruntime => Ensures.pure (h.keep (.stoppedBefore hruntime)))
        fun hruntime => Ensures.ite (fun hmetadata => ?_) fun hmetadata => ?_
      · exact Ensures.pure (h.keep (.metadataOnly hadmits hmetadata))
      · have hparse : Parseable run classifications runtime decision route file :=
          ⟨hadmits, hfile, hruntime, by simpa using hmetadata⟩
        unfold lookupParse
        refine Ensures.bind_trivial fun now => Ensures.ite (fun _ => Ensures.pure ?_) fun _ => ?_
        · rw [hparse.identity]
          refine h.settle (fun k hk => ParsePhase.view_stop_ne hk)
            (ParsePhase.view_stop.trans ?_) (.stopped none hparse)
          rw [h.view]
          rfl
        · refine Ensures.ask.bind fun lookup hlookup => ?_
          obtain ⟨s, hs⟩ := hlookup
          rcases lookup with e | ⟨profileHash, entry | reason⟩
          · exact Ensures.throw
          · exact useCachedParse_spec h hparse ⟨_, s, hs⟩
          · exact queueParse_spec h hparse ⟨_, s, hs⟩

end Freezing

/-! ### Waves -/

/-- A pending task is settled. -/
theorem ParseProgress.settle {task : ParseTask} {out' : ParseOutputs}
    (h : ParseProgress run classifications runtime decisions (task :: pending) out)
    (hframe : ∀ k, k ≠ task.file.fileIdentity → out'.view k = out.view k)
    (hfate : ∀ decision reason, Parseable run classifications runtime decision task.route task.file →
      MissOf run task.file task.route task.profileHash reason →
      out.view task.file.fileIdentity = .missed (some reason) →
      ParseFate run classifications runtime decision (out'.view task.file.fileIdentity)) :
    ParseProgress run classifications runtime decisions pending out' :=
  h.settleTask hframe fun decision _ ⟨hparse, reason, hmiss, hview⟩ =>
    hfate decision reason hparse hmiss hview

/-- The parser of the task may start with this request. -/
def Startable (run : RunContext σ) (classifications : Classifications) (started : StartedParse) :
    Prop :=
  expectedGuard started.task.file = some started.guard ∧
    ∃ remaining, started.request = started.task.request run.input classifications remaining

/-- The tasks of a wave that were started, and those still to come. -/
structure WaveProgress (run : RunContext σ) (classifications : Classifications)
    (runtime : Finset Text) (decisions : List AdmissionDecision) (rest : List ParseTask)
    (wave : ParseOutputs × List StartedParse) : Prop where
  progress : ParseProgress run classifications runtime decisions
    (wave.2.map StartedParse.task ++ rest) wave.1
  startable : ∀ started ∈ wave.2, Startable run classifications started

theorem startParse_spec {remaining : ℕ} {task : ParseTask} {wave : ParseOutputs × List StartedParse}
    (h : WaveProgress run classifications runtime decisions (task :: pending) wave) :
    Ensures (startParse run classifications remaining wave task)
      (WaveProgress run classifications runtime decisions pending) := by
  have hfirst : ParseProgress run classifications runtime decisions
      (task :: (wave.2.map StartedParse.task ++ pending)) wave.1 :=
    h.progress.perm List.perm_middle
  unfold startParse
  cases hguard : expectedGuard task.file with
  | none =>
    refine Ensures.pure ⟨?_, h.startable⟩
    refine ParseProgress.settle hfirst (fun _ _ => rfl) fun decision reason hparse _ hview => ?_
    rw [hview]
    exact .unguarded (some reason) hparse hguard
  | some guard =>
    refine Ensures.bind_trivial fun verified => Ensures.ite (fun _ => ?_) fun _ => ?_
    · refine Ensures.pure ⟨?_, ?_⟩
      · rw [List.map_append, List.append_assoc]
        exact h.progress
      · intro started hstarted
        rcases List.mem_append.1 hstarted with hstarted | hstarted
        · exact h.startable started hstarted
        · rw [List.mem_singleton] at hstarted
          subst hstarted
          exact ⟨hguard, remaining, rfl⟩
    · refine Ensures.pure ⟨?_, h.startable⟩
      refine ParseProgress.settle hfirst (fun k hk => ParseOutputs.view_record_ne hk)
        fun decision reason hparse hmiss hview => ?_
      rw [ParseOutputs.view_record, hview]
      exact .changed (some reason) hparse (.inr ⟨reason, hmiss⟩)

theorem startAll_spec {remaining : ℕ} {tasks : List ParseTask}
    {wave : ParseOutputs × List StartedParse}
    (h : WaveProgress run classifications runtime decisions (tasks ++ pending) wave) :
    Ensures (tasks.foldlM (startParse run classifications remaining) wave)
      (WaveProgress run classifications runtime decisions pending) := by
  induction tasks generalizing wave with
  | nil => exact Ensures.pure h
  | cons task tasks ih =>
    rw [List.foldlM_cons]
    exact (startParse_spec h).bind fun wave' h' => ih h'

theorem writeParse_view (started : StartedParse) (result : ParseResult) (phase : ParsePhase) :
    Ensures (writeParse run started result phase) fun phase' =>
      ∀ identity, phase'.outputs.view identity = phase.outputs.view identity := by
  unfold writeParse
  refine Ensures.bind_trivial fun now => Ensures.ite (fun _ => ?_) fun _ =>
    Ensures.pure fun _ => rfl
  refine Ensures.bind_trivial fun now => Ensures.bind_trivial fun written => ?_
  rcases written with (_ | _ | _) | _ <;> exact Ensures.pure fun _ => rfl

/-- **Merging a result settles its task.** -/
theorem mergeParse_spec {started : StartedParse} {result : ParseResult} {phase : ParsePhase}
    (h : ParseProgress run classifications runtime decisions (started.task :: pending)
      phase.outputs)
    (hresult : ParsedAs run classifications started.task result) :
    Ensures (mergeParse run phase (started, result)) fun phase' =>
      ParseProgress run classifications runtime decisions pending phase'.outputs := by
  -- recording a result settles the task, from any phase with the same views
  have hrecord : ∀ (phase' : ParsePhase) (recorded : ParseResult),
      (∀ identity, phase'.outputs.view identity = phase.outputs.view identity) →
      (∀ decision reason,
        Parseable run classifications runtime decision started.task.route started.task.file →
        MissOf run started.task.file started.task.route started.task.profileHash reason →
        ParseFate run classifications runtime decision
          ⟨some recorded, some started.task.profileHash, some .miss, some reason, false⟩) →
      ParseProgress run classifications runtime decisions pending
        (phase'.record started recorded).outputs := by
    intro phase' recorded hviews hfate
    refine ParseProgress.settle h (fun k hk => ?_) fun decision reason hparse hmiss hview => ?_
    · exact (ParseOutputs.view_record_ne hk).trans (hviews k)
    · have hrecorded : (phase'.record started recorded).outputs.view
          started.task.file.fileIdentity = _ := ParseOutputs.view_record
      rw [hviews, hview] at hrecorded
      rw [hrecorded]
      exact hfate decision reason hparse hmiss
  unfold mergeParse
  refine Ensures.ite (fun hsuccess => ?_) fun _ => ?_
  · refine Ensures.bind_trivial fun verified => Ensures.ite (fun _ => ?_) fun _ => ?_
    · refine (writeParse_view started result _).bind fun phase' hviews => Ensures.pure ?_
      exact hrecord phase' result hviews fun decision reason hparse hmiss =>
        .parsed hparse hmiss hresult
    · exact Ensures.pure (hrecord _ _ (fun _ => rfl) fun decision reason hparse hmiss =>
        .changedAfter hparse hmiss hresult hsuccess)
  · exact Ensures.pure (hrecord _ _ (fun _ => rfl) fun decision reason hparse hmiss =>
      .parsed hparse hmiss hresult)

theorem mergeParses_spec {begun : List StartedParse} {results : List ParseResult}
    {phase : ParsePhase}
    (hresults : List.Forall₂ (fun started result =>
      ParsedAs run classifications started.task result) begun results)
    (h : ParseProgress run classifications runtime decisions
      (begun.map StartedParse.task ++ pending) phase.outputs) :
    Ensures ((begun.zip results).foldlM (mergeParse run) phase) fun phase' =>
      ParseProgress run classifications runtime decisions pending phase'.outputs := by
  induction hresults generalizing phase with
  | nil => exact Ensures.pure h
  | cons hresult _ ih =>
    rw [List.zip_cons_cons, List.foldlM_cons]
    exact (mergeParse_spec h hresult).bind fun phase' h' => ih h'

theorem executeParseWave_spec {wave : List ParseTask} {phase : ParsePhase}
    (h : ParseProgress run classifications runtime decisions (wave ++ pending) phase.outputs) :
    Ensures (executeParseWave run classifications wave phase) fun phase' =>
      ParseProgress run classifications runtime decisions pending phase'.outputs := by
  unfold executeParseWave
  refine Ensures.bind_trivial fun now => ?_
  have hstart : WaveProgress run classifications runtime decisions (wave ++ pending)
      (phase.outputs, []) := ⟨h, by simp⟩
  refine (startAll_spec hstart).bind fun begun hbegun => ?_
  refine (Ensures.mapM fun started hstarted => Ensures.ask.mono fun result hs => ?_).bind
    fun results hresults => mergeParses_spec hresults hbegun.progress
  obtain ⟨hguard, remaining, hrequest⟩ := hbegun.startable started hstarted
  obtain ⟨s, hs⟩ := hs
  exact ⟨⟨_, hguard⟩, remaining, s, hrequest ▸ hs⟩

/-- The deadline settles everything that is pending. -/
theorem stopAll_parseProgress {phase : ParsePhase}
    (h : ParseProgress run classifications runtime decisions pending phase.outputs) :
    ParseProgress run classifications runtime decisions []
      (phase.stopAll (pending.map fun task => task.file.fileIdentity)).outputs := by
  refine h.settleAll (fun k hk => ParsePhase.view_stopAll_notMem hk) ?_
  rintro decision - task htask ⟨hparse, reason, -, hview⟩
  have hmem := List.mem_map_of_mem (f := fun task : ParseTask => task.file.fileIdentity) htask
  have hstopped : (phase.stopAll (pending.map fun task => task.file.fileIdentity)).outputs.view
      task.file.fileIdentity = _ := ParsePhase.view_stopAll hmem
  change phase.outputs.view task.file.fileIdentity = _ at hview
  rw [hview] at hstopped
  show ParseFate run classifications runtime decision
    ((phase.stopAll _).outputs.view task.file.fileIdentity)
  rw [hstopped]
  exact .stopped (some reason) hparse

theorem parseWaves_spec {waves : List (List ParseTask)} {phase : ParsePhase}
    (h : ParseProgress run classifications runtime decisions waves.flatten phase.outputs) :
    Ensures (parseWaves run classifications waves phase) fun phase' =>
      ParseProgress run classifications runtime decisions [] phase'.outputs := by
  induction waves generalizing phase with
  | nil => exact Ensures.pure h
  | cons wave rest ih =>
    unfold parseWaves
    refine Ensures.bind_trivial fun now => Ensures.ite (fun _ => Ensures.pure ?_) fun _ => ?_
    · exact stopAll_parseProgress h
    · exact (executeParseWave_spec h).bind fun phase' h' => ih h'

/-- Every decision is settled or queued. -/
theorem freezeParses_spec (hnodup : (decisions.map AdmissionDecision.fileIdentity).Nodup) :
    Ensures (decisions.foldlM (freezeParse run classifications runtime)
      ⟨ParseOutputs.empty, [], false⟩) fun phase =>
        ParseProgress run classifications runtime decisions phase.tasks phase.outputs := by
  refine Ensures.foldlM_prefix
    (fun done (phase : ParsePhase) =>
      ParseProgress run classifications runtime done phase.tasks phase.outputs)
    (WorkKeys.Worklist.init fun _ => rfl) fun done decision phase hdone h => ?_
  refine freezeParse_spec ⟨h, fun hmem => ?_⟩
  -- the identities of the prefix are distinct
  have := (hdone.sublist.map AdmissionDecision.fileIdentity).nodup hnodup
  rw [List.map_append, List.map_singleton, List.nodup_append] at this
  exact this.2.2 _ hmem _ (by simp) rfl

/-- **Every decision of a parse phase ends in a fate**, and nothing is said about any other
file. -/
theorem runParses_fates (hconcurrency : 0 < run.concurrency)
    (hnodup : (decisions.map AdmissionDecision.fileIdentity).Nodup) :
    Ensures (runParses run classifications runtime decisions) fun phase =>
      ParseProgress run classifications runtime decisions [] phase.outputs := by
  unfold runParses
  refine (freezeParses_spec hnodup).bind fun phase h => parseWaves_spec ?_
  rwa [flatten_chunks hconcurrency]

/-- The fate of a decision, read off the outputs. -/
theorem ParseProgress.fate (h : ParseProgress run classifications runtime decisions [] out)
    {decision : AdmissionDecision} (hdecision : decision ∈ decisions) :
    ParseFate run classifications runtime decision (out.view decision.fileIdentity) :=
  WorkKeys.Worklist.fate h hdecision

end DailyReport
