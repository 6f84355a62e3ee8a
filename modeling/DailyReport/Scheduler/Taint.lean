import DailyReport.Scheduler.SourceGuard

/-!
# A parse phase keeps no result of a tainted file

A parse phase may taint a file it decides, but then the result it leaves says that the source
changed (`runParses_covered`): a result goes on record right after a verification, or for a task that
was verified and not looked at since.
-/

namespace DailyReport

open Lib

/-- The paths of the discovered files are distinct. -/
def ScheduledRunInput.PathsDistinct (input : ScheduledRunInput) : Prop :=
  (input.discovery.map DiscoveredFileOut.path).Nodup

variable {σ : Type} {run : RunContext σ} {tainted : Text → σ → Bool} {file other : DiscoveredFileOut}
  {identity : Text}

/-- Another discovered file has another path. -/
theorem path_ne_of_lookup (hpaths : run.input.PathsDistinct) (hfile : file ∈ run.input.discovery)
    (hother : run.input.snapshot.lookup identity = some other)
    (hne : identity ≠ file.fileIdentity) : file.path ≠ other.path := by
  intro hpath
  obtain ⟨hmem, hidentity⟩ := mem_of_lookup_indexBy hother
  have : file = other := List.inj_on_of_nodup_map hpaths hfile hmem hpath
  exact hne (by rw [← hidentity, this])

/-- A file is found under its identity. -/
theorem eq_of_lookup (hinput : run.input.Distinct) (hfile : file ∈ run.input.discovery)
    (hother : run.input.snapshot.lookup identity = some other)
    (heq : identity = file.fileIdentity) : other = file := by
  subst heq
  have := (lookup_indexBy hinput hfile).symm.trans hother
  exact (Option.some.inj this).symm

/-! ### What is kept about a file -/

/-- While the file is tainted, its result says that its source changed.  Between the verification
before its parser and the one after it (`begun`), it is not tainted. -/
structure Guarding (tainted : Text → σ → Bool) (file : DiscoveredFileOut) (begun : Prop)
    (out : ParseOutputs) (s : σ) : Prop where
  covered : tainted file.path s = true →
    (out.results.lookup file.fileIdentity).all isSourceVersionChangedResult = true
  begun : begun → tainted file.path s = false

/-- What a verification of the file with this identity leaves behind. -/
structure Verified (tainted : Text → σ → Bool) (file : DiscoveredFileOut) (begun : Prop)
    (out : ParseOutputs) (identity : Text) (verified : Bool) (s : σ) : Prop where
  other : identity ≠ file.fileIdentity → Guarding tainted file begun out s
  own : identity = file.fileIdentity → verified = true → tainted file.path s = false

variable {begun : Prop} {out : ParseOutputs} {s : σ} {result : ParseResult}

namespace Guarding

theorem weaken {begun' : Prop} (h : Guarding tainted file begun out s) (hbegun : begun' → begun) :
    Guarding tainted file begun' out s :=
  ⟨h.covered, fun hb => h.begun (hbegun hb)⟩

theorem congr {out' : ParseOutputs} (h : Guarding tainted file begun out s)
    (hresults : out'.results = out.results) : Guarding tainted file begun out' s :=
  ⟨hresults ▸ h.covered, h.begun⟩

theorem of_untainted (huntainted : tainted file.path s = false) :
    Guarding tainted file begun out s where
  covered htainted := by
    rw [huntainted] at htainted
    cases htainted
  begun _ := huntainted

/-- A result of another file. -/
theorem record_other (h : Guarding tainted file begun out s) (hne : identity ≠ file.fileIdentity)
    (result : ParseResult) (profileHash : Text) :
    Guarding tainted file begun (out.record identity result profileHash) s where
  covered htainted := by
    have hlookup : (out.record identity result profileHash).results.lookup file.fileIdentity =
        out.results.lookup file.fileIdentity := AList.lookup_insert_ne (Ne.symm hne)
    rw [hlookup]
    exact h.covered htainted
  begun := h.begun

end Guarding

namespace Verified

/-- A file that was verified may go on record with any result. -/
theorem record (h : Verified tainted file begun out identity true s) (result : ParseResult)
    (profileHash : Text) :
    Guarding tainted file begun (out.record identity result profileHash) s := by
  by_cases hidentity : identity = file.fileIdentity
  · exact .of_untainted (h.own hidentity rfl)
  · exact (h.other hidentity).record_other hidentity _ _

/-- A file that was not verified goes on record as changed. -/
theorem record_changed (h : Verified tainted file begun out identity false s)
    (hbegun : identity = file.fileIdentity → ¬ begun)
    (hchanged : isSourceVersionChangedResult result = true) (profileHash : Text) :
    Guarding tainted file begun (out.record identity result profileHash) s := by
  by_cases hidentity : identity = file.fileIdentity
  · refine ⟨fun _ => ?_, fun hb => absurd hb (hbegun hidentity)⟩
    subst hidentity
    have hlookup : (out.record file.fileIdentity result profileHash).results.lookup
        file.fileIdentity = some result := AList.lookup_insert _
    rw [hlookup]
    exact hchanged
  · exact (h.other hidentity).record_other hidentity _ _

/-- A file that was verified may be parsed. -/
theorem started (h : Verified tainted file begun out identity true s) :
    Guarding tainted file (begun ∨ identity = file.fileIdentity) out s := by
  by_cases hidentity : identity = file.fileIdentity
  · exact .of_untainted (h.own hidentity rfl)
  · exact (h.other hidentity).weaken (Or.resolve_right · hidentity)

end Verified

@[simp] theorem isSourceVersionChangedResult_parse (digests : Digests) (file : DiscoveredFileOut) :
    isSourceVersionChangedResult (sourceVersionChangedParse digests file) = true := by
  simp [isSourceVersionChangedResult, sourceVersionChangedParse, sourceChangedDiagnostic]

@[simp] theorem isSourceVersionChangedResult_afterParse (digests : Digests)
    (file : DiscoveredFileOut) (executed : ParseResult) :
    isSourceVersionChangedResult (sourceVersionChangedAfterParse digests file executed) = true := by
  simp [isSourceVersionChangedResult, sourceVersionChangedAfterParse, sourceChangedDiagnostic]

/-! ### Freezing -/

section Parsing

variable (hwatched : Watched run.ports tainted) (hinput : run.input.Distinct)
  (hpaths : run.input.PathsDistinct) (hfile : file ∈ run.input.discovery)

/-- What leaves the taint of a file alone keeps what is known about it. -/
theorem Guarding.moves {α : Type} {m : Scheduled σ α}
    (h : Moves (fun s s' => tainted file.path s' = tainted file.path s) m) :
    Hoare (Guarding tainted file begun out) m fun _ => Guarding tainted file begun out :=
  h.hoare fun _ _ hs hsame => ⟨hsame ▸ hs.covered, hsame ▸ hs.begun⟩

include hwatched in
theorem nowMs_guarding : Hoare (Guarding tainted file begun out)
    (Exec.ask run.ports.nowMs : Scheduled σ ℕ) fun _ => Guarding tainted file begun out :=
  .moves (nowMs_moves (hwatched.apart file.path))

include hwatched hinput hpaths hfile in
/-- **What a verification does to a file.** -/
theorem verify_guarding (guard : SourceGuardV2)
    (hother : run.input.snapshot.lookup identity = some other) :
    Hoare (Guarding tainted file begun out)
      (Exec.ask (run.ports.verify other.path guard) : Scheduled σ Bool)
      (Verified tainted file begun out identity) := by
  refine Hoare.ask fun s h => ⟨fun hne => ?_, fun heq hverified => ?_⟩
  · have hsame := (hwatched.apart file.path).verify other.path guard
      (path_ne_of_lookup hpaths hfile hother hne) s
    exact ⟨hsame ▸ h.covered, hsame ▸ h.begun⟩
  · rw [eq_of_lookup hinput hfile hother heq] at hverified ⊢
    exact hwatched.verified _ _ _ hverified

variable {phase : ParsePhase}

include hwatched hinput hpaths hfile in
theorem useCachedParse_guarding (entry : CacheEntry) (profileHash : Text)
    (hother : run.input.snapshot.lookup identity = some other) :
    Hoare (Guarding tainted file False phase.outputs)
      (useCachedParse run other entry profileHash phase)
      fun phase' => Guarding tainted file False phase'.outputs := by
  have hidentity : other.fileIdentity = identity := (mem_of_lookup_indexBy hother).2
  unfold useCachedParse
  rw [hidentity]
  cases expectedGuard other with
  | none => exact Hoare.pure fun _ h => h
  | some guard =>
    refine (verify_guarding hwatched hinput hpaths hfile guard hother).bind fun verified => ?_
    cases verified with
    | true =>
      refine Hoare.pure fun s h => ?_
      have hrecord : Guarding tainted file False
          (phase.outputs.record identity (entry.parseResult identity) profileHash) s := h.record _ _
      exact hrecord.congr rfl
    | false =>
      exact Hoare.pure fun s h => h.record_changed (fun _ hb => hb)
        (isSourceVersionChangedResult_parse _ _) _

include hwatched in
theorem queueParse_guarding (route : RouteKind) (profileHash : Text) :
    Hoare (Guarding tainted file begun phase.outputs) (queueParse run other route profileHash phase)
      fun phase' => Guarding tainted file begun phase'.outputs := by
  unfold queueParse
  refine (nowMs_guarding hwatched).bind fun now => Hoare.ite (fun _ => ?_) fun _ => ?_
  · exact Hoare.pure fun s h => h.congr rfl
  · exact (nowMs_guarding hwatched).bind fun now => Hoare.pure fun s h => h

include hwatched hinput hpaths hfile in
theorem freezeParse_guarding (classifications : Classifications) (runtime : Finset Text)
    (decision : AdmissionDecision) :
    Hoare (Guarding tainted file False phase.outputs)
      (freezeParse run classifications runtime phase decision)
      fun phase' => Guarding tainted file False phase'.outputs := by
  unfold freezeParse
  split
  case h_2 => exact Hoare.pure fun _ h => h
  case h_1 route _ =>
    cases hother : run.input.snapshot.lookup decision.fileIdentity with
    | none => exact Hoare.pure fun _ h => h
    | some other =>
      refine Hoare.ite (fun _ => Hoare.pure fun _ h => h) fun _ =>
        Hoare.ite (fun _ => Hoare.pure fun _ h => h) fun _ => ?_
      unfold lookupParse
      refine (nowMs_guarding hwatched).bind fun now => Hoare.ite (fun _ => ?_) fun _ => ?_
      · exact Hoare.pure fun s h => h.congr rfl
      refine (Guarding.moves (Moves.ask ((hwatched.apart file.path).lookupParse _ _ _))).bind
        fun lookup => ?_
      rcases lookup with e | ⟨profileHash, entry | reason⟩
      · exact Hoare.throw
      · exact useCachedParse_guarding hwatched hinput hpaths hfile entry profileHash hother
      · exact (queueParse_guarding hwatched route profileHash).weaken (fun s h => h.congr rfl)
          fun _ _ h => h

/-! ### Waves -/

/-- The tasks of a parse phase are of discovered files, each of another one. -/
structure Queue (run : RunContext σ) (tasks : List ParseTask) : Prop where
  found : ∀ task ∈ tasks, run.input.snapshot.lookup task.file.fileIdentity = some task.file
  nodup : (tasks.map fun task => task.file.fileIdentity).Nodup

variable {tasks tasks' : List ParseTask}

theorem Queue.sublist (h : Queue run tasks) (hsub : tasks'.Sublist tasks) : Queue run tasks' where
  found task htask := h.found task (hsub.subset htask)
  nodup := h.nodup.sublist (hsub.map _)

/-- The tasks that wait in a parse phase. -/
theorem Queue.of_progress {classifications : Classifications} {runtime : Finset Text}
    {decisions : List AdmissionDecision}
    (h : ParseProgress run classifications runtime decisions tasks out) : Queue run tasks where
  found task htask := by
    obtain ⟨decision, -, hkey, hparse, -⟩ := h.exists_plan htask
    change decision.fileIdentity = task.file.fileIdentity at hkey
    rw [← hkey]
    exact hparse.found
  nodup := h.pending_nodup

/-- A task of the file is one of these. -/
def Begun (file : DiscoveredFileOut) (tasks : List ParseTask) : Prop :=
  file.fileIdentity ∈ tasks.map fun task => task.file.fileIdentity

include hwatched hinput hpaths hfile in
theorem startParse_guarding {classifications : Classifications} {remaining : ℕ} {task : ParseTask}
    {wave : ParseOutputs × List StartedParse} (hqueue : Queue run tasks) (htask : task ∈ tasks)
    (hnew : task.file.fileIdentity ∉ (wave.2.map StartedParse.task).map fun t =>
      t.file.fileIdentity) :
    Hoare (Guarding tainted file (Begun file (wave.2.map StartedParse.task)) wave.1)
      (startParse run classifications remaining wave task)
      fun wave' => Guarding tainted file (Begun file (wave'.2.map StartedParse.task)) wave'.1 := by
  unfold startParse
  cases expectedGuard task.file with
  | none => exact Hoare.pure fun _ h => h
  | some guard =>
    refine (verify_guarding hwatched hinput hpaths hfile guard (hqueue.found task htask)).bind
      fun verified => ?_
    cases verified with
    | true =>
      refine Hoare.pure fun s h => h.started.weaken fun hbegun => ?_
      rw [Begun, List.map_append, List.map_append, List.mem_append] at hbegun
      exact hbegun.imp id fun hmem => (List.mem_singleton.1 hmem).symm
    | false =>
      exact Hoare.pure fun s h => h.record_changed (fun heq hbegun => hnew (heq ▸ hbegun))
        (isSourceVersionChangedResult_parse _ _) _

include hwatched hinput hpaths hfile in
theorem startAll_guarding {classifications : Classifications} {remaining : ℕ} {out : ParseOutputs}
    (hqueue : Queue run tasks) :
    Hoare (Guarding tainted file False out)
      (tasks.foldlM (startParse run classifications remaining) (out, []))
      fun wave s => Guarding tainted file (Begun file (wave.2.map StartedParse.task)) wave.1 s ∧
        (wave.2.map StartedParse.task).Sublist tasks := by
  refine Hoare.foldlM_prefix (fun done (wave : ParseOutputs × List StartedParse) s =>
    Guarding tainted file (Begun file (wave.2.map StartedParse.task)) wave.1 s ∧
      (wave.2.map StartedParse.task).Sublist done)
    (fun s h => ⟨Guarding.weaken h (by simp [Begun]), .refl _⟩) fun done task wave hdone => ?_
  refine Hoare.of_fact fun hsub => ?_
  have hnodup := (hqueue.sublist hdone.sublist).nodup
  rw [List.map_append, List.map_singleton, List.nodup_append] at hnodup
  refine ((startParse_guarding hwatched hinput hpaths hfile hqueue (hdone.subset (by simp))
    fun hmem => ?_).and_ensures (startParse_sublist classifications remaining wave task)).mono
      fun wave' s h => ⟨h.1, h.2.trans (hsub.append_right _)⟩
  -- the tasks started so far are among those before this one
  exact hnodup.2.2 _ ((hsub.map _).subset hmem) _ (by simp) rfl

theorem writeParse_results (started : StartedParse) (result : ParseResult) (phase : ParsePhase) :
    Ensures (writeParse run started result phase) fun phase' =>
      phase'.outputs.results = phase.outputs.results := by
  unfold writeParse
  refine Ensures.bind_trivial fun now => Ensures.ite (fun _ => ?_) fun _ => Ensures.pure rfl
  refine Ensures.bind_trivial fun now => Ensures.bind_trivial fun written => ?_
  rcases written with (_ | _ | _) | _ <;> exact Ensures.pure rfl

include hwatched hinput hpaths hfile in
/-- **Merging a result keeps what is known about a file**: a failure is of a file that was not looked
at since its parser started. -/
theorem mergeParse_guarding {started : StartedParse} {rest : List ParseTask}
    (hqueue : Queue run (started.task :: rest)) :
    Hoare (Guarding tainted file (Begun file (started.task :: rest)) phase.outputs)
      (mergeParse run phase (started, result))
      fun phase' => Guarding tainted file (Begun file rest) phase'.outputs := by
  have hfound := hqueue.found started.task List.mem_cons_self
  have hnew := (List.nodup_cons.1 hqueue.nodup).1
  unfold mergeParse
  refine Hoare.ite (fun _ => ?_) fun _ => Hoare.pure fun s h => ?_
  · refine ((verify_guarding hwatched hinput hpaths hfile started.guard hfound).weaken
      (fun s (h : Guarding tainted file _ phase.outputs s) =>
        (h.weaken (List.mem_cons_of_mem _)).congr rfl) fun _ _ h => h).bind fun verified => ?_
    cases verified with
    | true =>
      refine (((Guarding.moves (writeParse_moves (hwatched.apart file.path))).weaken
        (fun s h => Verified.record h result started.task.profileHash) fun _ _ h => h).and_ensures (writeParse_results started result _)).bind fun phase' => ?_
      refine Hoare.pure fun s ⟨hrecord, hresults⟩ => hrecord.congr ?_
      exact congrArg (AList.insert started.task.file.fileIdentity result) hresults
    | false =>
      refine Hoare.pure fun s h => (h.record_changed (fun heq hbegun => hnew ?_)
        (isSourceVersionChangedResult_afterParse run.digests started.task.file result)
        started.task.profileHash).congr rfl
      change started.task.file.fileIdentity ∈ _
      rw [heq]
      exact hbegun
  · by_cases hidentity : started.task.file.fileIdentity = file.fileIdentity
    · refine .of_untainted (h.begun ?_)
      rw [Begun, List.map_cons, hidentity]
      exact List.mem_cons_self
    · exact ((h.weaken (List.mem_cons_of_mem _)).record_other hidentity result
        started.task.profileHash).congr rfl

include hwatched hinput hpaths hfile in
theorem mergeAll_guarding {begun : List StartedParse} {results : List ParseResult}
    (phase : ParsePhase) (hqueue : Queue run (begun.map StartedParse.task)) :
    Hoare (Guarding tainted file (Begun file (begun.map StartedParse.task)) phase.outputs)
      ((begun.zip results).foldlM (mergeParse run) phase)
      fun phase' => Guarding tainted file False phase'.outputs := by
  induction begun generalizing results phase with
  | nil => exact Hoare.pure fun s h => h.weaken False.elim
  | cons started begun ih =>
    cases results with
    | nil => exact Hoare.pure fun s h => h.weaken False.elim
    | cons result results =>
      rw [List.zip_cons_cons, List.foldlM_cons]
      exact (mergeParse_guarding hwatched hinput hpaths hfile hqueue).bind fun phase' =>
        ih phase' (hqueue.sublist (List.sublist_cons_self _ _))

include hwatched hinput hpaths hfile in
theorem parseWaves_guarding {classifications : Classifications} {waves : List (List ParseTask)}
    {phase : ParsePhase} (hqueue : Queue run waves.flatten) :
    Hoare (Guarding tainted file False phase.outputs) (parseWaves run classifications waves phase)
      fun phase' => Guarding tainted file False phase'.outputs := by
  induction waves generalizing phase with
  | nil => exact Hoare.pure fun _ h => h
  | cons wave rest ih =>
    unfold parseWaves
    refine (nowMs_guarding hwatched).bind fun now => Hoare.ite (fun _ => ?_) fun _ => ?_
    · exact Hoare.pure fun s h => h.congr rfl
    have hwave : Hoare (Guarding tainted file False phase.outputs)
        (executeParseWave run classifications wave phase)
        fun phase' => Guarding tainted file False phase'.outputs := by
      unfold executeParseWave
      refine (nowMs_guarding hwatched).bind fun now => ?_
      refine (startAll_guarding hwatched hinput hpaths hfile
        (hqueue.sublist (List.sublist_append_left _ _))).bind fun begun => Hoare.of_fact fun hsub => ?_
      refine (Guarding.moves (Moves.mapM fun started _ => Moves.ask
        ((hwatched.apart file.path).parse _))).bind fun results => ?_
      have hmerged : Queue run (begun.2.map StartedParse.task) :=
        hqueue.sublist (hsub.trans (List.sublist_append_left _ _))
      exact mergeAll_guarding hwatched hinput hpaths hfile { phase with outputs := begun.1 } hmerged
    exact hwave.bind fun phase' => ih (hqueue.sublist (List.sublist_append_right _ _))

include hwatched hinput hpaths hfile in
/-- **A parse phase keeps no result of a tainted file**, whatever was tainted before. -/
theorem runParses_covered (hconcurrency : 0 < run.concurrency) {classifications : Classifications}
    {runtime : Finset Text} {decisions : List AdmissionDecision}
    (hnodup : (decisions.map AdmissionDecision.fileIdentity).Nodup) :
    Hoare (fun _ => True) (runParses run classifications runtime decisions)
      fun phase => Guarding tainted file False phase.outputs := by
  unfold runParses
  have hfreeze : Hoare (fun _ : σ => True)
      (decisions.foldlM (freezeParse run classifications runtime) ⟨ParseOutputs.empty, [], false⟩)
      fun phase => Guarding tainted file False phase.outputs :=
    (Hoare.foldlM (fun phase => Guarding tainted file False phase.outputs) fun decision _ phase =>
      freezeParse_guarding hwatched hinput hpaths hfile classifications runtime decision).weaken
        (fun s _ => ⟨fun _ => by rfl, False.elim⟩) fun _ _ h => h
  refine (hfreeze.and_ensures (freezeParses_spec hnodup)).bind fun phase =>
    Hoare.of_fact fun hprogress => parseWaves_guarding hwatched hinput hpaths hfile ?_
  rw [flatten_chunks hconcurrency]
  exact .of_progress hprogress

end Parsing

end DailyReport
