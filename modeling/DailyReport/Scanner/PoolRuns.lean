import DailyReport.Lib.History
import DailyReport.Scanner.SessionPool

/-!
# Runs of a session pool

Any number of callers use a pool, and their pieces of work come in any order.

* `slots_accounted` : **no slot is lost and no wake-up is missed**;
* `children_called` : **a child has one call at a time, and none after a failed one**;
* `restarts_counted` : **the restarts are the starts but the first of each slot**;
* `results_sound` : **what a caller gets**: its calls are counted, it had at most two tries, and a value
  was read from a response to its own request;
* `peak_unknown_iff` : **the peak memory is unknown exactly if a deadline passed**, because the
  session of that slot is killed but stays there, and is observed once more.
-/

namespace DailyReport.SessionPool

open Lib

variable {J T : Type} {s s' : State J T} {expected : WorkerHello} {params : SessionParams}
variable {caller callers index process : ℕ} {phase phase' : Phase J T} {op : Operation J T}
variable {slot : SessionSlot} {w : Work J T} {counters : PoolCounters} {readable : Prop}

/-! ### Slots -/

/-- What a caller does, as a lease sees it. -/
def Phase.asCaller : Phase J T → Caller
  | .outside _ => .outside
  | .awake _ => .awake
  | .asleep _ => .asleep
  | .looping op | .starting op | .ready op | .busy op _ | .leaving op _ => .holds op.index

def State.leases (s : State J T) : Leases := ⟨s.pool.available, s.callers.map Phase.asCaller⟩

theorem asCaller_getElem? {phases : List (Phase J T)} (h : phases[caller]? = some phase) :
    (phases.map Phase.asCaller)[caller]? = some phase.asCaller := by
  rw [List.getElem?_map, h]
  rfl

theorem afterFailure_asCaller {error : SessionError} {transport : WorkerTransport} :
    (op.afterFailure error transport).asCaller = .holds op.index := by
  unfold Operation.afterFailure
  split <;> rfl

/-- A caller that works on its slot keeps it. -/
theorem WorkStep.asCaller_eq {next : ℕ}
    (h : WorkStep params counters caller next readable phase op slot w) :
    phase.asCaller = .holds op.index ∧ w.phase.asCaller = .holds op.index := by
  cases h with
  | expire _ _ _ hphase | kill _ _ _ _ _ hphase => rcases hphase with rfl | rfl <;> exact ⟨rfl, rfl⟩
  | keep | retire | resume | start | call | succeed => exact ⟨rfl, rfl⟩
  | startFailed | fail => exact ⟨rfl, afterFailure_asCaller⟩

theorem isAsleep_iff : phase.isAsleep = true ↔ phase.asCaller = .asleep := by
  cases phase <;> simp [Phase.isAsleep, Phase.asCaller]

/-- The callers lease the slots: an event is a step of the leases, or none. -/
theorem Stepped.leases (h : Stepped s readable s') :
    Relation.ReflTransGen Leases.Step s.leases s'.leases := by
  cases h with
  | enter caller task last hcaller =>
    refine .single ?_
    simp only [State.leases, State.setCaller, List.map_set]
    exact Leases.Step.enter caller (asCaller_getElem? hcaller)
  | take caller index task available hcaller hav =>
    refine .single ?_
    simp only [State.leases, State.setCaller, List.map_set, hav]
    exact Leases.Step.take caller index (asCaller_getElem? hcaller)
  | sleep caller task hcaller hav =>
    refine .single ?_
    simp only [State.leases, State.setCaller, List.map_set, hav]
    exact Leases.Step.sleep caller (asCaller_getElem? hcaller)
  | wake caller task hcaller =>
    refine .single ?_
    simp only [State.leases, State.setCaller, List.map_set]
    exact Leases.Step.wake caller (asCaller_getElem? hcaller)
  | work caller next phase op slot w hcaller hslot hw =>
    obtain ⟨hbefore, hafter⟩ := hw.asCaller_eq
    have hkept : (s.worked caller op.index next w).leases = s.leases := by
      obtain ⟨hlength, hself⟩ := List.getElem?_eq_some_iff.1 (asCaller_getElem? hcaller)
      simp only [State.leases, State.worked, List.map_set, hafter, ← hbefore, ← hself,
        List.set_getElem_self]
    rw [hkept]
  | giveBack caller op result hcaller hnone =>
    refine .single ?_
    have hasleep : .asleep ∉ (s.callers.map Phase.asCaller).set caller .outside := by
      intro hmem
      rw [show Caller.outside = (Phase.outside (some (op.task, result))).asCaller from rfl,
        ← List.map_set] at hmem
      obtain ⟨phase, hphase, hsleeps⟩ := List.mem_map.1 hmem
      have hawake := hnone phase hphase
      rw [isAsleep_iff.2 hsleeps] at hawake
      cases hawake
    simp only [State.leases, State.setCaller, List.map_set]
    exact Leases.Step.giveBack caller op.index (asCaller_getElem? hcaller) hasleep
  | notify caller woken op result task hcaller hwoken =>
    refine .single ?_
    have hsleeps := asCaller_getElem? hwoken
    rw [List.map_set] at hsleeps
    simp only [State.leases, State.setCaller, List.map_set]
    exact Leases.Step.notify caller op.index woken (asCaller_getElem? hcaller) hsleeps
  | visit => exact .refl

theorem hasSlot_iff : phase.hasSlot index = true ↔ phase.asCaller = .holds index := by
  cases phase <;> simp [Phase.hasSlot, Phase.operation, Phase.asCaller]

theorem isAwake_iff : phase.isAwake = true ↔ phase.asCaller = .awake := by
  cases phase <;> simp [Phase.isAwake, Phase.asCaller]

/-- Callers of one kind are counted among the callers of the leases. -/
theorem count_asCaller {p : Phase J T → Bool} {kind : Caller}
    (h : ∀ phase, p phase = true ↔ phase.asCaller = kind) (phases : List (Phase J T)) :
    (phases.map Phase.asCaller).count kind = phases.countP p := by
  rw [List.count, List.countP_map]
  refine List.countP_congr fun phase _ => ?_
  simp [h]

theorem Stepped.pool_eq (h : Stepped s readable s') :
    s'.pool.expected = s.pool.expected ∧ s'.pool.params = s.pool.params := by
  cases h <;> exact ⟨rfl, rfl⟩

/-- The leases of the slots are in order. -/
structure Leased (params : SessionParams) (s : State J T) : Prop where
  params_eq : s.pool.params = params
  size : s.pool.slots.length = params.slotCount
  accounted : s.leases.Accounted params.slotCount
  attended : s.leases.Attended

theorem Leased.step (h : Leased params s) (hstep : Stepped s readable s') : Leased params s' := by
  obtain ⟨haccounted, hattended⟩ := Leases.reachable_sound h.accounted h.attended hstep.leases
  refine ⟨hstep.pool_eq.2.trans h.params_eq, ?_, haccounted, hattended⟩
  rw [← h.size]
  cases hstep with
  | work => exact List.length_set
  | _ => rfl

theorem leased_new : Leased params (.new expected params callers : State J T) where
  params_eq := rfl
  size := List.length_replicate
  accounted := by
    rw [State.leases, State.new, List.map_replicate]
    exact Leases.accounted_start _ callers
  attended := by
    rw [State.leases, State.new, List.map_replicate]
    exact Leases.attended_start _ callers

theorem run_leased (expected : WorkerHello) (params : SessionParams) (callers : ℕ)
    (events : List (Event J T)) : Leased params (run expected params callers events) :=
  applyAll_invariant (fun _ _ _ h hs => h.step (step_cases hs)) events leased_new

/-- **No slot is lost and no wake-up is missed.** -/
theorem slots_accounted (expected : WorkerHello) (params : SessionParams) (callers : ℕ)
    (events : List (Event J T)) :
    (∀ index, (run expected params callers events).pool.available.count index +
        (run expected params callers events).callers.countP (Phase.hasSlot index) =
      if index < max params.concurrency 1 then 1 else 0) ∧
    ((∃ phase ∈ (run expected params callers events).callers, phase.isAsleep = true) →
      (run expected params callers events).pool.available.length ≤
        (run expected params callers events).callers.countP Phase.isAwake) := by
  have h := run_leased expected params callers events
  refine ⟨fun index => ?_, ?_⟩
  · rw [← count_asCaller fun _ => hasSlot_iff]
    exact h.accounted index
  · rintro ⟨phase, hphase, hsleeps⟩
    rw [← count_asCaller fun _ => isAwake_iff]
    refine h.attended.resolve_left fun hnone => hnone ?_
    exact List.mem_map.2 ⟨phase, hphase, isAsleep_iff.1 hsleeps⟩

/-- Two callers with one slot are one caller. -/
theorem Leased.same_caller (h : Leased params s) {caller' : ℕ} (hc : s.callers[caller]? = some phase)
    (hc' : s.callers[caller']? = some phase') (hslot : phase.asCaller = .holds index)
    (hslot' : phase'.asCaller = .holds index) : caller = caller' := by
  by_contra hne
  have hone := h.accounted index
  have hcount := Leases.count_set_add (asCaller_getElem? hc) .outside (.holds index)
  have hother : .holds index ∈ (s.callers.map Phase.asCaller).set caller .outside := by
    refine List.mem_of_getElem? (i := caller') ?_
    rw [List.getElem?_set_ne hne, asCaller_getElem? hc', hslot']
  have hpos := List.count_pos_iff.2 hother
  rw [hslot, if_pos rfl, if_neg (by simp)] at hcount
  simp only [State.leases] at hone
  split at hone <;> omega

/-! ### Children -/

/-- The session may be called. -/
def Usable (params : SessionParams) (session : WorkerSession) : Prop :=
  session.child.isSome = true ∧ session.requestsServed < max params.maxRequestsPerSession 1

/-- What an entry may follow: a child is called that was started, has answered all its calls
successfully, and has not answered too many. -/
def Allowed (params : SessionParams) (before : List Entry) : Entry → Prop
  | .called _ child => ∃ index process, child = some process ∧ .started index process ∈ before ∧
      before.countP (Entry.calls process) = before.countP (Entry.succeeds process) ∧
      before.countP (Entry.succeeds process) < max params.maxRequestsPerSession 1
  | _ => True

/-- A caller that is about to call its session, or has called it, has one. -/
def PhaseSound (params : SessionParams) (slots : List SessionSlot) : Phase J T → Prop
  | .starting op => ∀ (slot : SessionSlot) (session : WorkerSession), slots[op.index]? = some slot → slot.session = some session →
      Usable params session
  | .ready op | .busy op _ => ∃ slot session, slots[op.index]? = some slot ∧
      slot.session = some session ∧ Usable params session
  | _ => True

/-- What is known about the child in a slot. -/
structure ChildSound (s : State J T) (index process served : ℕ) : Prop where
  started : .started index process ∈ s.log
  succeeded : s.log.countP (Entry.succeeds process) = served
  called : s.log.countP (Entry.calls process) = served + s.callers.countP (Phase.busyAt index)

structure Sound (params : SessionParams) (s : State J T) : Prop extends Leased params s where
  known : ∀ entry ∈ s.log, ∀ process : ℕ, entry.process = some process → process < s.nextProcess
  apart : ∀ index index' process : ℕ, .started index process ∈ s.log →
    .started index' process ∈ s.log → index = index'
  children : ∀ (index : ℕ) (slot : SessionSlot) (process served : ℕ), s.pool.slots[index]? = some slot →
    slot.session = some ⟨some process, served⟩ → ChildSound s index process served
  phases : ∀ (caller : ℕ) (phase : Phase J T), s.callers[caller]? = some phase →
    PhaseSound params s.pool.slots phase
  history : EachAfter (Allowed params) s.log

theorem calls_process {entry : Entry} (h : entry.calls process = true) :
    entry.process = some process := by
  cases entry <;> simp_all [Entry.calls, Entry.process]

theorem succeeds_process {entry : Entry} (h : entry.succeeds process = true) :
    entry.process = some process := by
  cases entry <;> simp_all [Entry.succeeds, Entry.process]

/-- Entries that are not about a process are not counted for it. -/
theorem countP_other {p : Entry → Bool} {entries : List Entry}
    (hp : ∀ {entry : Entry}, p entry = true → entry.process = some process)
    (h : ∀ entry ∈ entries, entry.process ≠ some process) : entries.countP p = 0 :=
  List.countP_eq_zero.2 fun entry hentry hcounted => h entry hentry (hp hcounted)

theorem busyAt_asCaller (h : phase.busyAt index = true) : phase.asCaller = .holds index := by
  cases phase <;> simp_all [Phase.busyAt, Phase.asCaller]

/-- While a caller has a slot and does not wait for a response, nobody does. -/
theorem Leased.not_busy (h : Leased params s) (hc : s.callers[caller]? = some phase)
    (hslot : phase.asCaller = .holds index) (hidle : phase.busyAt index = false) :
    s.callers.countP (Phase.busyAt index) = 0 := by
  refine List.countP_eq_zero.2 fun phase' hphase' hbusy => ?_
  obtain ⟨caller', hc'⟩ := List.mem_iff_getElem?.1 hphase'
  obtain rfl := h.same_caller hc hc' hslot (busyAt_asCaller hbusy)
  rw [hc] at hc'
  cases hc'
  rw [hidle] at hbusy
  cases hbusy

/-- Callers that wait for no response turn to something else. -/
structure Turned (params : SessionParams) (slots : List SessionSlot)
    (phases phases' : List (Phase J T)) : Prop where
  sound : ∀ phase ∈ phases', phase ∈ phases ∨ PhaseSound params slots phase
  busy : ∀ index, phases'.countP (Phase.busyAt index) = phases.countP (Phase.busyAt index)

theorem turned_set {slots : List SessionSlot} {phases : List (Phase J T)}
    (hc : phases[caller]? = some phase) (hphase : PhaseSound params slots phase')
    (hbefore : ∀ index, phase.busyAt index = false) (hafter : ∀ index, phase'.busyAt index = false) :
    Turned params slots phases (phases.set caller phase') := by
  refine ⟨fun phase'' hmem => ?_, fun index => ?_⟩
  · rcases List.mem_or_eq_of_mem_set hmem with hold | rfl
    · exact .inl hold
    · exact .inr hphase
  · have hset := countP_set_add (p := Phase.busyAt index) hc phase'
    simpa [hbefore index, hafter index] using hset

theorem Turned.trans {slots : List SessionSlot} {phases phases' phases'' : List (Phase J T)}
    (h : Turned params slots phases phases') (h' : Turned params slots phases' phases'') :
    Turned params slots phases phases'' :=
  ⟨fun phase hmem => (h'.sound phase hmem).elim (h.sound phase) .inr,
    fun index => (h'.busy index).trans (h.busy index)⟩

theorem Sound.turned (caller : ℕ) (h : Sound params s) (hleased : Leased params s')
    (hcallers : Turned params s.pool.slots s.callers s'.callers)
    (hslots : s'.pool.slots = s.pool.slots) (hnext : s'.nextProcess = s.nextProcess)
    (hlog : s'.log = s.log ∨ s'.log = s.log ++ [.entered caller]) : Sound params s' := by
  have hlogs : ∀ entry ∈ s'.log, entry ∈ s.log ∨ entry = .entered caller := by
    intro entry hentry
    rcases hlog with hlog | hlog
    · exact .inl (hlog ▸ hentry)
    · simpa [hlog] using hentry
  have hcount : ∀ p : Entry → Bool, p (.entered caller) = false → s'.log.countP p = s.log.countP p := by
    intro p hp
    rcases hlog with hlog | hlog <;> simp [hlog, hp]
  refine { hleased with known := ?_, apart := ?_, children := ?_, phases := ?_, history := ?_ }
  · intro entry hentry process hprocess
    rw [hnext]
    rcases hlogs entry hentry with hold | rfl
    · exact h.known entry hold process hprocess
    · cases hprocess
  · intro index index' process hstarted hstarted'
    refine h.apart index index' process ?_ ?_
    · exact (hlogs _ hstarted).resolve_right (by simp)
    · exact (hlogs _ hstarted').resolve_right (by simp)
  · intro index slot process served hslot hsession
    obtain ⟨hstarted, hsucceeded, hcalled⟩ :=
      h.children index slot process served (hslots ▸ hslot) hsession
    refine ⟨?_, ?_, ?_⟩
    · rcases hlog with hlog | hlog <;> simp [hlog, hstarted]
    · rw [hcount _ rfl, hsucceeded]
    · rw [hcount _ rfl, hcallers.busy, hcalled]
  · intro caller' phase' hc'
    rw [hslots]
    rcases hcallers.sound phase' (List.mem_of_getElem? hc') with hold | hphase
    · obtain ⟨caller'', hc''⟩ := List.mem_iff_getElem?.1 hold
      exact h.phases caller'' phase' hc''
    · exact hphase
  · rcases hlog with hlog | hlog
    · rw [hlog]
      exact h.history
    · rw [hlog]
      exact eachAfter_append.2 ⟨h.history, trivial⟩

/-- What a piece of work has to do for its own slot, so that everything stays known. -/
structure WorkSound (params : SessionParams) (s : State J T) (caller next : ℕ) (op : Operation J T)
    (slot : SessionSlot) (w : Work J T) : Prop where
  brief : w.entries = [] ∨ ∃ entry, w.entries = [entry] ∧ Allowed params s.log entry
  own : ∀ entry ∈ w.entries, ∀ process, entry.process = some process →
    process = s.nextProcess ∧ s.nextProcess < next ∨
      ∃ served, slot.session = some ⟨some process, served⟩
  fresh : ∀ index process, .started index process ∈ w.entries →
    index = op.index ∧ process = s.nextProcess
  child : ∀ process served, w.slot.session = some ⟨some process, served⟩ →
    ChildSound (s.worked caller op.index next w) op.index process served
  phase : PhaseSound params (s.pool.slots.set op.index w.slot) w.phase

theorem Sound.worked {next : ℕ} (h : Sound params s)
    (hleased : Leased params (s.worked caller op.index next w))
    (hc : s.callers[caller]? = some phase) (hslot : s.pool.slots[op.index]? = some slot)
    (hbefore : phase.asCaller = .holds op.index) (hafter : w.phase.asCaller = .holds op.index)
    (hnext : s.nextProcess ≤ next) (hw : WorkSound params s caller next op slot w) :
    Sound params (s.worked caller op.index next w) := by
  have hlength : op.index < s.pool.slots.length := (List.getElem?_eq_some_iff.1 hslot).1
  refine { hleased with known := ?_, apart := ?_, children := ?_, phases := ?_, history := ?_ }
  · intro entry hentry process hprocess
    rcases List.mem_append.1 hentry with hold | hnew
    · exact (h.known entry hold process hprocess).trans_le hnext
    · rcases hw.own entry hnew process hprocess with ⟨rfl, hlt⟩ | ⟨served, hsession⟩
      · exact hlt
      · exact (h.known _ (h.children _ slot process served hslot hsession).started process rfl).trans_le
          hnext
  · -- A process that is started now is in no entry of before.
    intro index index' process hstarted hstarted'
    rcases List.mem_append.1 hstarted with hold | hnew <;>
      rcases List.mem_append.1 hstarted' with hold' | hnew'
    · exact h.apart index index' process hold hold'
    · have hlt := h.known _ hold process rfl
      obtain ⟨-, rfl⟩ := hw.fresh _ _ hnew'
      exact absurd hlt (lt_irrefl _)
    · have hlt := h.known _ hold' process rfl
      obtain ⟨-, rfl⟩ := hw.fresh _ _ hnew
      exact absurd hlt (lt_irrefl _)
    · exact (hw.fresh _ _ hnew).1.trans (hw.fresh _ _ hnew').1.symm
  · intro index slot' process served hslot' hsession
    by_cases hsame : op.index = index
    · subst hsame
      simp only [State.worked, List.getElem?_set_self hlength, Option.some.injEq] at hslot'
      subst hslot'
      exact hw.child process served hsession
    · simp only [State.worked, List.getElem?_set_ne hsame] at hslot'
      obtain ⟨hstarted, hsucceeded, hcalled⟩ := h.children index slot' process served hslot' hsession
      have hother : ∀ entry ∈ w.entries, entry.process ≠ some process := by
        intro entry hentry hprocess
        rcases hw.own entry hentry process hprocess with ⟨rfl, -⟩ | ⟨served', hsession'⟩
        · exact lt_irrefl _ (h.known _ hstarted _ rfl)
        · exact hsame (h.apart _ _ _ (h.children _ slot process served' hslot hsession').started hstarted)
      have hbusy := countP_set_add (p := Phase.busyAt index) hc w.phase
      have hidle : ∀ phase : Phase J T, phase.asCaller = .holds op.index →
          phase.busyAt index = false := by
        intro phase hholds
        rw [Bool.eq_false_iff]
        intro hwaits
        rw [busyAt_asCaller hwaits] at hholds
        exact hsame (Caller.holds.inj hholds).symm
      simp only [hidle _ hbefore, hidle _ hafter, Bool.false_eq_true, if_false, Nat.add_zero] at hbusy
      refine ⟨List.mem_append_left _ hstarted, ?_, ?_⟩
      · rw [State.worked, List.countP_append, countP_other succeeds_process hother, Nat.add_zero,
          hsucceeded]
      · rw [State.worked, List.countP_append, countP_other calls_process hother, Nat.add_zero, hbusy,
          hcalled]
  · intro caller' phase' hc'
    simp only [State.worked] at hc' ⊢
    by_cases hself : caller = caller'
    · subst hself
      rw [List.getElem?_set_self (List.getElem?_eq_some_iff.1 hc).1] at hc'
      obtain rfl := Option.some.inj hc'
      exact hw.phase
    · rw [List.getElem?_set_ne hself] at hc'
      have hold := h.phases caller' phase' hc'
      have hapart : ∀ op' : Operation J T, phase'.asCaller = .holds op'.index →
          op.index ≠ op'.index := by
        intro op' hholds hindex
        exact hself (h.toLeased.same_caller hc hc' hbefore (hindex ▸ hholds))
      cases phase' with
      | outside | awake | asleep | looping | leaving => trivial
      | starting op' | ready op' | busy op' =>
        simpa only [PhaseSound, List.getElem?_set_ne (hapart op' rfl)] using hold
  · rcases hw.brief with hnone | ⟨entry, hone, hallowed⟩
    · simp only [State.worked, hnone, List.append_nil]
      exact h.history
    · simp only [State.worked, hone]
      exact eachAfter_append.2 ⟨h.history, hallowed⟩

theorem dispatch_ok {session served : WorkerSession} {request : SessionRequest J T}
    {exchange : Exchange J} {value : T} (h : session.dispatch request exchange = (.ok value, served)) :
    served = { session with requestsServed := session.requestsServed + 1 } ∧
      ∃ response, session.receive request exchange = .ok response ∧
        request.value response = .ok value := by
  unfold WorkerSession.dispatch at h
  cases hreceive : session.receive request exchange with
  | error error =>
    rw [hreceive] at h
    cases h
  | ok response =>
    rw [hreceive] at h
    obtain ⟨hvalue, rfl⟩ := Prod.mk.inj h
    exact ⟨rfl, response, rfl, hvalue⟩

/-- A slot whose session stays as it is, while nobody calls it. -/
theorem Sound.childSound_kept (h : Sound params s) {next : ℕ}
    (hc : s.callers[caller]? = some phase) (hslot : s.pool.slots[op.index]? = some slot)
    (hbefore : phase.busyAt op.index = false) (hafter : w.phase.busyAt op.index = false)
    (hentries : w.entries = []) {served : ℕ} (hsession : slot.session = some ⟨some process, served⟩) :
    ChildSound (s.worked caller op.index next w) op.index process served := by
  obtain ⟨hstarted, hsucceeded, hcalled⟩ := h.children _ _ process served hslot hsession
  have hbusy := countP_set_add (p := Phase.busyAt op.index) hc w.phase
  simp only [hbefore, hafter, Bool.false_eq_true, if_false, Nat.add_zero] at hbusy
  simp only [State.worked, hentries, List.append_nil]
  exact ⟨hstarted, hsucceeded, hcalled.trans (congrArg _ hbusy.symm)⟩

theorem afterFailure_phaseSound {slots : List SessionSlot} {error : SessionError}
    {transport : WorkerTransport} : PhaseSound params slots (op.afterFailure error transport) := by
  unfold Operation.afterFailure
  split <;> trivial

/-- The process of a session is that of its slot. -/
theorem child_own {session : WorkerSession} (h : session.child = some process) :
    ∃ served, some session = some ⟨some process, served⟩ :=
  ⟨session.requestsServed, by rw [← h]⟩

theorem WorkStep.sound {next : ℕ} (h : Sound params s) (hc : s.callers[caller]? = some phase)
    (hslot : s.pool.slots[op.index]? = some slot)
    (hw : WorkStep s.pool.params s.pool.counters caller s.nextProcess readable phase op slot w)
    (hnext : s.nextProcess ≤ next) (hfresh : next = s.nextProcess → phase ≠ .starting op) :
    WorkSound params s caller next op slot w := by
  have hset : ∀ slot : SessionSlot, (s.pool.slots.set op.index slot)[op.index]? = some slot :=
    fun slot => List.getElem?_set_self (List.getElem?_eq_some_iff.1 hslot).1
  have hphase := h.phases caller phase hc
  have hbusy := countP_set_add (p := Phase.busyAt op.index) hc w.phase
  cases hw with
  | expire _ _ pending => exact ⟨.inl rfl, by simp, by simp, by simp, trivial⟩
  | kill _ _ session pending peak =>
    refine ⟨.inr ⟨_, rfl, trivial⟩, ?_, by simp, ?_, trivial⟩
    · simp [Entry.process]
    · intro process served hsession
      cases hsession
  | keep _ _ husable =>
    refine ⟨.inl rfl, by simp, by simp, fun process served hsession => ?_, ?_⟩
    · exact h.childSound_kept hc hslot rfl rfl rfl hsession
    · intro slot' session hslot' hsession
      obtain rfl := Option.some.inj ((hset slot).symm.trans hslot')
      obtain ⟨hchild, hserved⟩ := husable session hsession
      rw [h.params_eq] at hserved
      exact ⟨hchild, lt_max_of_lt_left hserved⟩
  | retire _ session pending peak =>
    refine ⟨.inl rfl, by simp, by simp, by simp, ?_⟩
    intro slot' session' hslot' hsession'
    obtain rfl := Option.some.inj ((hset ⟨none, true⟩).symm.trans hslot')
    cases hsession'
  | resume _ session pending =>
    refine ⟨.inl rfl, by simp, by simp, fun process served hsession => ?_, ?_⟩
    · exact h.childSound_kept hc hslot rfl rfl rfl hsession
    · exact ⟨_, session, hset _, rfl, hphase _ session hslot rfl⟩
  | start _ pending peak =>
    have hlt : s.nextProcess < next :=
      lt_of_le_of_ne hnext fun hsame => hfresh hsame.symm rfl
    have hnew : ∀ entry ∈ s.log, entry.process ≠ some s.nextProcess := fun entry hentry hprocess =>
      lt_irrefl _ (h.known entry hentry _ hprocess)
    refine ⟨.inr ⟨_, rfl, trivial⟩, ?_, ?_, ?_, ?_⟩
    · simp [Entry.process, hlt]
    · simp
    · intro process served hsession
      cases hsession
      have hidle := h.not_busy hc rfl rfl
      simp only [hidle, Phase.busyAt, Bool.false_eq_true, if_false, Nat.add_zero] at hbusy
      refine ⟨by simp [State.worked], ?_, ?_⟩
      · simp [State.worked, countP_other succeeds_process hnew, Entry.succeeds]
      · simp only [State.worked, List.countP_append, countP_other calls_process hnew, hbusy]
        simp [Entry.calls]
    · exact ⟨_, _, hset _, rfl, rfl, by simp⟩
  | startFailed _ pending error =>
    exact ⟨.inr ⟨_, rfl, trivial⟩, by simp [Entry.process], by simp, by simp, afterFailure_phaseSound⟩
  | call _ session pending remaining =>
    obtain ⟨slot', session', hslot', hsession', husable⟩ := hphase
    obtain rfl := Option.some.inj (hslot.symm.trans hslot')
    obtain rfl := Option.some.inj hsession'
    obtain ⟨hchild, hserved⟩ := husable
    obtain ⟨process, hprocess⟩ := Option.isSome_iff_exists.1 hchild
    rcases session with ⟨child, served⟩
    subst hprocess
    obtain ⟨hstarted, hsucceeded, hcalled⟩ := h.children _ _ process served hslot rfl
    have hidle := h.not_busy hc rfl rfl
    refine ⟨.inr ⟨_, rfl, op.index, process, rfl, hstarted, ?_, ?_⟩, ?_, by simp, ?_, ?_⟩
    · rw [hcalled, hidle, hsucceeded, Nat.add_zero]
    · rw [hsucceeded]
      exact hserved
    · simp [Entry.process]
    · intro process' served' hsame
      cases hsame
      simp only [hidle, Phase.busyAt, beq_self_eq_true, if_true, Bool.false_eq_true, if_false,
        Nat.add_zero, Nat.zero_add] at hbusy
      refine ⟨List.mem_append_left _ hstarted, ?_, ?_⟩
      · simp [State.worked, hsucceeded, Entry.succeeds]
      · simp only [State.worked, List.countP_append, hcalled, hidle, hbusy]
        simp [Entry.calls]
    · exact ⟨_, _, hset _, rfl, rfl, hserved⟩
  | succeed _ remaining session served pending exchange value took peak hcall =>
    obtain ⟨rfl, -⟩ := dispatch_ok hcall
    refine ⟨.inr ⟨_, rfl, trivial⟩, ?_, by simp, ?_, trivial⟩
    · simp only [List.mem_singleton, forall_eq, Entry.process]
      exact fun process hprocess => .inr (child_own hprocess)
    · intro process served hsession
      rcases session with ⟨child, served⟩
      cases hsession
      obtain ⟨hstarted, hsucceeded, hcalled⟩ := h.children _ _ process served hslot rfl
      simp only [Phase.busyAt, beq_self_eq_true, if_true, Bool.false_eq_true, if_false,
        Nat.add_zero] at hbusy
      refine ⟨List.mem_append_left _ hstarted, ?_, ?_⟩
      · simp [State.worked, hsucceeded, Entry.succeeds]
      · simp only [State.worked, List.countP_append, hcalled, ← hbusy]
        simp [Entry.calls, Nat.add_assoc, Nat.add_comm]
  | fail _ remaining session served pending exchange error took peak hcall =>
    refine ⟨.inr ⟨_, rfl, trivial⟩, ?_, by simp, by simp, afterFailure_phaseSound⟩
    simp only [List.mem_singleton, forall_eq, Entry.process]
    exact fun process hprocess => .inr (child_own hprocess)

theorem Sound.step (h : Sound params s) (hstep : Stepped s readable s') : Sound params s' := by
  have hleased := h.toLeased.step hstep
  cases hstep with
  | enter caller task last hc =>
    exact h.turned caller hleased (turned_set hc trivial (fun _ => rfl) fun _ => rfl) rfl rfl (.inr rfl)
  | take caller index task available hc =>
    exact h.turned caller hleased (turned_set hc trivial (fun _ => rfl) fun _ => rfl) rfl rfl
      (.inl rfl)
  | sleep caller task hc | wake caller task hc =>
    exact h.turned caller hleased (turned_set hc trivial (fun _ => rfl) fun _ => rfl) rfl rfl
      (.inl rfl)
  | work caller next phase op slot w hc hslot hw hnext hfresh =>
    obtain ⟨hbefore, hafter⟩ := hw.asCaller_eq
    exact h.worked hleased hc hslot hbefore hafter hnext (hw.sound h hc hslot hnext hfresh)
  | giveBack caller op result hc =>
    exact h.turned caller hleased (turned_set hc trivial (fun _ => rfl) fun _ => rfl) rfl rfl
      (.inl rfl)
  | notify caller woken op result task hc hwoken =>
    have hleft : Turned params s.pool.slots s.callers
        (s.callers.set caller (.outside (some (op.task, result)))) :=
      turned_set hc trivial (fun _ => rfl) fun _ => rfl
    exact h.turned caller hleased
      (hleft.trans (turned_set hwoken trivial (fun _ => rfl) fun _ => rfl)) rfl rfl (.inl rfl)
  | visit index slot peak =>
    exact h.turned 0 hleased ⟨fun _ => .inl, fun _ => rfl⟩ rfl rfl (.inl rfl)

/-- The slots in which sessions were started, with repetitions. -/
def startedSlots (log : List Entry) : List ℕ := log.filterMap Entry.startedSlot

/-- The restarts are the starts but the first one of each slot. -/
structure Restarted (s : State J T) : Prop where
  counted : s.pool.counters.sessionRestartCount + (startedSlots s.log).toFinset.card =
    (startedSlots s.log).length
  pending : ∀ (index : ℕ) (slot : SessionSlot), s.pool.slots[index]? = some slot →
    (index ∈ startedSlots s.log ↔ slot.replacementPending = true ∨ slot.session.isSome = true)

theorem startedSlots_append {log entries : List Entry} :
    startedSlots (log ++ entries) = startedSlots log ++ startedSlots entries :=
  List.filterMap_append

theorem startedSlots_started : startedSlots [.started index process] = [index] := rfl

theorem observeRss_restarts {peak : Option ℕ} :
    (counters.observeRss peak).sessionRestartCount = counters.sessionRestartCount := by
  cases peak <;> rfl

theorem Restarted.worked {next : ℕ} (h : Restarted s) (hslot : s.pool.slots[op.index]? = some slot)
    (hw : WorkStep s.pool.params s.pool.counters caller s.nextProcess readable phase op slot w) :
    Restarted (s.worked caller op.index next w) := by
  have hlength : op.index < s.pool.slots.length := (List.getElem?_eq_some_iff.1 hslot).1
  have hpending := h.pending op.index slot hslot
  -- A piece of work that starts no session, in a slot that stays started.
  have hquiet : startedSlots w.entries = [] →
      w.counters.sessionRestartCount = s.pool.counters.sessionRestartCount →
      ((slot.replacementPending = true ∨ slot.session.isSome = true) ↔
        w.slot.replacementPending = true ∨ w.slot.session.isSome = true) →
      Restarted (s.worked caller op.index next w) := by
    intro hnone hcount hsame
    have hlog : startedSlots (s.worked caller op.index next w).log = startedSlots s.log := by
      rw [State.worked, startedSlots_append, hnone, List.append_nil]
    refine ⟨?_, fun index slot' hslot' => ?_⟩
    · rw [hlog, ← h.counted]
      simp only [State.worked, hcount]
    · rw [hlog]
      by_cases hindex : op.index = index
      · subst hindex
        simp only [State.worked, List.getElem?_set_self hlength, Option.some.injEq] at hslot'
        rw [hpending, hsame, hslot']
      · simp only [State.worked, List.getElem?_set_ne hindex] at hslot'
        exact h.pending index slot' hslot'
  cases hw with
  | expire | keep | resume | startFailed | call => exact hquiet rfl rfl Iff.rfl
  | kill | retire | fail => exact hquiet rfl observeRss_restarts (by simp)
  | succeed => exact hquiet rfl observeRss_restarts (by simp)
  | start _ pending peak =>
    simp only [Option.isSome_none, Bool.false_eq_true, or_false] at hpending
    have hcounted := h.counted
    refine ⟨?_, fun index slot' hslot' => ?_⟩
    · simp only [State.worked, startedSlots_append, startedSlots_started, List.toFinset_append,
        List.length_append, List.length_singleton]
      cases pending with
      | true =>
        have hmem : op.index ∈ startedSlots s.log := hpending.2 rfl
        have hsame : (startedSlots s.log).toFinset ∪ [op.index].toFinset =
            (startedSlots s.log).toFinset := by
          simpa using hmem
        simp only [if_true, observeRss_restarts, hsame]
        omega
      | false =>
        have hnew : op.index ∉ startedSlots s.log := fun hmem => by simpa using hpending.1 hmem
        have hcard : ((startedSlots s.log).toFinset ∪ [op.index].toFinset).card =
            (startedSlots s.log).toFinset.card + 1 := by
          rw [Finset.union_comm, List.toFinset_cons, List.toFinset_nil, Finset.insert_union,
            Finset.empty_union, Finset.card_insert_of_notMem (by simpa using hnew)]
        simp only [Bool.false_eq_true, if_false, observeRss_restarts, hcard]
        omega
    · simp only [State.worked, startedSlots_append, startedSlots_started, List.mem_append,
        List.mem_singleton]
      by_cases hindex : op.index = index
      · subst hindex
        simp only [State.worked, List.getElem?_set_self hlength, Option.some.injEq] at hslot'
        subst hslot'
        simp
      · simp only [State.worked, List.getElem?_set_ne hindex] at hslot'
        rw [← h.pending index slot' hslot', or_iff_left (Ne.symm hindex)]

theorem Restarted.step (h : Restarted s) (hstep : Stepped s readable s') : Restarted s' := by
  cases hstep with
  | enter caller task last hc =>
    have hlog : startedSlots (s.log ++ [.entered caller]) = startedSlots s.log := by
      simp [startedSlots, Entry.startedSlot]
    exact ⟨hlog ▸ h.counted, hlog ▸ h.pending⟩
  | take | sleep | wake | giveBack | notify => exact ⟨h.counted, h.pending⟩
  | work caller next phase op slot w hc hslot hw => exact h.worked hslot hw
  | visit index slot peak =>
    refine ⟨?_, h.pending⟩
    rw [← h.counted]
    rcases slot with ⟨_ | session, pending⟩
    · rfl
    · simp only [WorkerPool.observeSlot, observeRss_restarts]

/-- **Restarts are counted exactly.** -/
theorem restarts_counted (expected : WorkerHello) (params : SessionParams) (callers : ℕ)
    (events : List (Event J T)) :
    (run expected params callers events).pool.counters.sessionRestartCount +
        (startedSlots (run expected params callers events).log).toFinset.card =
      (startedSlots (run expected params callers events).log).length := by
  have hnew : Restarted (.new expected params callers : State J T) := by
    refine ⟨rfl, fun index slot hslot => ?_⟩
    rw [List.eq_of_mem_replicate (List.mem_of_getElem? hslot)]
    simp [startedSlots, State.new]
  exact (applyAll_invariant (fun _ _ _ h hs => h.step (step_cases hs)) events
    hnew).counted

/-! ### Attempts -/

/-- How many entries since a caller's last entry into the pool satisfy `p`. -/
def countSince (caller : ℕ) (p : Entry → Bool) (log : List Entry) : ℕ :=
  (log.reverse.takeWhile fun entry => entry ≠ .entered caller).countP p

theorem countSince_append (p : Entry → Bool) (log : List Entry) {entries : List Entry}
    (h : .entered caller ∉ entries) :
    countSince caller p (log ++ entries) = countSince caller p log + entries.countP p := by
  have hall : ∀ entry ∈ entries.reverse, decide (entry ≠ .entered caller) = true := by
    intro entry hentry
    exact decide_eq_true fun heq => h (heq ▸ List.mem_reverse.1 hentry)
  rw [countSince, List.reverse_append, List.takeWhile_append_of_pos hall, List.countP_append,
    List.countP_reverse, Nat.add_comm, countSince]

theorem countSince_concat (caller : ℕ) (p : Entry → Bool) (log : List Entry) (entry : Entry)
    (h : entry ≠ .entered caller) :
    countSince caller p (log ++ [entry]) = countSince caller p log + if p entry then 1 else 0 := by
  rw [countSince_append p log (by simpa using h.symm), List.countP_singleton]

theorem countSince_entered {p : Entry → Bool} {log : List Entry} :
    countSince caller p (log ++ [.entered caller]) = 0 := by
  simp [countSince]

def Result.attempts : Result T → ℕ
  | .ok outcome => outcome.attemptCount
  | .error failure => failure.attemptCount

/-- The value was read from a response to one of the caller's own requests. -/
def Answers (task : Task J T) (value : T) : Prop :=
  ∃ (remaining : ℕ) (response : WorkerResponse J) (result : J), 0 < remaining ∧ remaining ≤ task.timeout ∧
    response.requestId = (task.request remaining).requestId ∧
    response.operation = (task.request remaining).operation ∧ response.result = some result ∧
    (task.request remaining).result result = .ok value

/-- What a caller gets: its calls are counted, there were at most two tries, and a value comes from a
response to it. -/
structure ResultSound (caller : ℕ) (log : List Entry) (task : Task J T) (result : Result T) : Prop where
  attempts : result.attempts = countSince caller (Entry.calledBy caller) log
  tries : countSince caller (Entry.calledBy caller) log +
    countSince caller (Entry.startFailedFor caller) log ≤ 2
  answers : ∀ outcome, result = .ok outcome → Answers task outcome.value

/-- The variables of an operation count its calls and its failures. -/
structure OperationSound (caller : ℕ) (log : List Entry) (op : Operation J T) (calling : ℕ) : Prop where
  calls : countSince caller (Entry.calledBy caller) log = op.sessionAttemptCount + calling
  failures : op.sessionAttemptCount + countSince caller (Entry.startFailedFor caller) log =
    op.transportFailureIndex
  once : op.transportFailureIndex ≤ 1

def PhaseCounted (caller : ℕ) (log : List Entry) : Phase J T → Prop
  | .outside none => True
  | .awake _ | .asleep _ => countSince caller (Entry.calledBy caller) log = 0 ∧
      countSince caller (Entry.startFailedFor caller) log = 0
  | .outside (some (task, result)) => ResultSound caller log task result
  | .looping op | .starting op | .ready op => OperationSound caller log op 0
  | .busy op remaining => OperationSound caller log op 1 ∧ 0 < remaining ∧ remaining ≤ op.task.timeout
  | .leaving op result => ResultSound caller log op.task result

/-- Entries about other callers change nothing for a caller. -/
theorem PhaseCounted.append {log entries : List Entry} (h : PhaseCounted caller log phase)
    (hentered : .entered caller ∉ entries) (hcalled : entries.countP (Entry.calledBy caller) = 0)
    (hfailed : entries.countP (Entry.startFailedFor caller) = 0) :
    PhaseCounted caller (log ++ entries) phase := by
  have hcalls := countSince_append (Entry.calledBy caller) log hentered
  have hfailures := countSince_append (Entry.startFailedFor caller) log hentered
  rw [hcalled, Nat.add_zero] at hcalls
  rw [hfailed, Nat.add_zero] at hfailures
  have hresult : ∀ {task : Task J T} {result : Result T}, ResultSound caller log task result →
      ResultSound caller (log ++ entries) task result := by
    rintro task result ⟨hattempts, htries, hanswers⟩
    exact ⟨hattempts.trans hcalls.symm, by rwa [hcalls, hfailures], hanswers⟩
  have hop : ∀ {op : Operation J T} {calling : ℕ}, OperationSound caller log op calling →
      OperationSound caller (log ++ entries) op calling := by
    rintro op calling ⟨hcount, hcountFailures, honce⟩
    exact ⟨hcalls.trans hcount, by rwa [hfailures], honce⟩
  cases phase with
  | outside last =>
    rcases last with _ | ⟨task, result⟩
    · trivial
    · exact hresult h
  | awake | asleep => exact ⟨hcalls.trans h.1, hfailures.trans h.2⟩
  | looping | starting | ready => exact hop h
  | busy => exact ⟨hop h.1, h.2⟩
  | leaving => exact hresult h

/-- The first failure is followed by another try, unless the deadline has passed, the file has changed
or the worker says that a retry is of no use. -/
theorem retryAction_iff {error : SessionError} {n : ℕ} : retryAction error n = .retrySession ↔
    n = 0 ∧ error ≠ .timeout ∧ ∀ diagnostic, error = .rejected diagnostic →
      diagnostic.retryable = true ∧ diagnostic.errorCode ≠ lit "SOURCE_VERSION_CHANGED" := by
  cases error with
  | rejected diagnostic =>
    simp only [retryAction]
    split_ifs with hstale hretryable hfirst <;> simp_all
  | timeout => simp [retryAction]
  | startFailed | crashed | eof | protocolCorruption | ioFailed | buildMismatch | frameTooLarge =>
    simp only [retryAction]
    split_ifs with hfirst <;> simp_all

/-- After a failure there was one try more. -/
theorem afterFailure_counted {log : List Entry} {error : SessionError} {transport : WorkerTransport}
    (hcalls : countSince caller (Entry.calledBy caller) log = op.sessionAttemptCount)
    (hfailures : op.sessionAttemptCount + countSince caller (Entry.startFailedFor caller) log =
      op.transportFailureIndex + 1) (honce : op.transportFailureIndex ≤ 1) :
    PhaseCounted caller log (op.afterFailure error transport) := by
  unfold Operation.afterFailure
  split
  · next hretry =>
    refine ⟨hcalls, hfailures, ?_⟩
    simp only [(retryAction_iff.1 hretry).1, le_refl]
  · refine ⟨hcalls.symm, ?_, fun outcome hok => by cases hok⟩
    rw [hcalls, hfailures]
    exact Nat.succ_le_succ honce

theorem failed_counted {log : List Entry} {error : SessionError} {transport : WorkerTransport}
    (h : OperationSound caller log op 0) : PhaseCounted caller log (op.failed error transport) := by
  obtain ⟨hcalls, hfailures, honce⟩ := h
  refine ⟨hcalls.symm, ?_, fun outcome hok => by cases hok⟩
  rw [hcalls, Nat.add_zero, hfailures]
  exact honce.trans one_le_two

theorem attempted_count (op : Operation J T) (took : ℕ) (h : op.sessionAttemptCount ≤ 1) :
    (op.attempted took).sessionAttemptCount = op.sessionAttemptCount + 1 := by
  have hmax : 2 ≤ u64Max := by decide
  simp only [Operation.attempted]
  omega

theorem parseResponse_ok {request : SessionRequest J T} {decoded : Option (WorkerResponse J)}
    {response : WorkerResponse J} (h : parseResponse request decoded = .ok response) :
    response.requestId = request.requestId ∧ response.operation = request.operation := by
  unfold parseResponse at h
  cases decoded with
  | none => cases h
  | some answer =>
    obtain ⟨_, -, hmatch⟩ := bind_eq_ok.1 h
    split at hmatch
    · next hsame =>
      cases hmatch
      exact ⟨hsame.2.2.2, hsame.2.2.1⟩
    · cases hmatch

theorem receive_ok {session : WorkerSession} {request : SessionRequest J T} {exchange : Exchange J}
    {response : WorkerResponse J} (h : session.receive request exchange = .ok response) :
    response.requestId = request.requestId ∧ response.operation = request.operation := by
  obtain ⟨_, -, h⟩ := bind_eq_ok.1 h
  obtain ⟨_, -, h⟩ := bind_eq_ok.1 h
  obtain ⟨_, -, h⟩ := bind_eq_ok.1 h
  obtain ⟨_, -, h⟩ := bind_eq_ok.1 h
  obtain ⟨_, -, h⟩ := bind_eq_ok.1 h
  split at h
  · cases h
  · exact parseResponse_ok h

theorem value_ok {request : SessionRequest J T} {response : WorkerResponse J} {value : T}
    (h : request.value response = .ok value) :
    ∃ result, response.result = some result ∧ request.result result = .ok value := by
  unfold SessionRequest.value at h
  split at h
  · next result hstatus hresult => exact ⟨result, hresult, h⟩
  · cases h
  · cases h

/-- A caller that works on its slot keeps its variables right. -/
theorem WorkStep.counted {next : ℕ} {log : List Entry} (h : PhaseCounted caller log phase)
    (hw : WorkStep params counters caller next readable phase op slot w) :
    PhaseCounted caller (log ++ w.entries) w.phase := by
  cases hw with
  | expire _ _ pending hphase =>
    rw [List.append_nil]
    rcases hphase with rfl | rfl <;> exact failed_counted h
  | kill _ _ session pending peak hphase =>
    have hfailed : PhaseCounted caller log (op.failed (J := J) .timeout op.transportForAttempts) := by
      rcases hphase with rfl | rfl <;> exact failed_counted h
    exact hfailed.append (by simp) rfl rfl
  | keep | retire | resume =>
    rw [List.append_nil]
    exact h
  | start =>
    have hready : PhaseCounted caller log (.ready op) := h
    exact hready.append (by simp) rfl rfl
  | startFailed _ pending error =>
    obtain ⟨hcount, hfailures, honce⟩ := h
    change PhaseCounted caller (log ++ [Entry.startFailed caller]) _
    have hcalls := countSince_concat caller (Entry.calledBy caller) log (.startFailed caller) (by simp)
    have hfails := countSince_concat caller (Entry.startFailedFor caller) log (.startFailed caller) (by simp)
    simp only [Entry.calledBy, Entry.startFailedFor, beq_self_eq_true, if_true, Bool.false_eq_true,
      if_false] at hcalls hfails
    exact afterFailure_counted (by omega) (by omega) honce
  | call _ session pending remaining hremaining =>
    obtain ⟨hcount, hfailures, honce⟩ := h
    change PhaseCounted caller (log ++ [Entry.called caller session.child]) _
    have hcalls := countSince_concat caller (Entry.calledBy caller) log (.called caller session.child) (by simp)
    have hfails := countSince_concat caller (Entry.startFailedFor caller) log (.called caller session.child) (by simp)
    simp only [Entry.calledBy, Entry.startFailedFor, beq_self_eq_true, if_true, Bool.false_eq_true,
      if_false] at hcalls hfails
    exact ⟨⟨by omega, by omega, honce⟩, hremaining⟩
  | succeed _ remaining session served pending exchange value took peak hcall =>
    obtain ⟨⟨hcount, hfailures, honce⟩, hpos, hle⟩ := h
    obtain ⟨-, response, hreceive, hvalue⟩ := dispatch_ok hcall
    obtain ⟨hid, hoperation⟩ := receive_ok hreceive
    obtain ⟨result, hresult, hread⟩ := value_ok hvalue
    change PhaseCounted caller (log ++ [Entry.answered session.child true]) _
    have hcalls := countSince_concat caller (Entry.calledBy caller) log (.answered session.child true) (by simp)
    have hfails := countSince_concat caller (Entry.startFailedFor caller) log (.answered session.child true) (by simp)
    have hattempts := attempted_count op took (by omega)
    simp only [Entry.calledBy, Entry.startFailedFor, Bool.false_eq_true, if_false, Nat.add_zero]
      at hcalls hfails
    refine ⟨?_, ?_, fun outcome hok => ?_⟩
    · simp only [Result.attempts]
      omega
    · omega
    · cases hok
      exact ⟨remaining, response, result, hpos, hle, hid, hoperation, hresult, hread⟩
  | fail _ remaining session served pending exchange error took peak =>
    obtain ⟨⟨hcount, hfailures, honce⟩, -⟩ := h
    change PhaseCounted caller (log ++ [Entry.answered session.child false]) _
    have hcalls := countSince_concat caller (Entry.calledBy caller) log (.answered session.child false) (by simp)
    have hfails := countSince_concat caller (Entry.startFailedFor caller) log (.answered session.child false) (by simp)
    have hattempts := attempted_count op took (by omega)
    have hindex : (op.attempted took).transportFailureIndex = op.transportFailureIndex := rfl
    simp only [Entry.calledBy, Entry.startFailedFor, Bool.false_eq_true, if_false, Nat.add_zero]
      at hcalls hfails
    exact afterFailure_counted (by omega) (by omega) (by omega)

/-- A piece of work is recorded for its caller only. -/
theorem WorkStep.entries_own {next : ℕ} (caller' : ℕ)
    (hw : WorkStep params counters caller next readable phase op slot w) :
    .entered caller' ∉ w.entries ∧ (caller' ≠ caller →
      w.entries.countP (Entry.calledBy caller') = 0 ∧
        w.entries.countP (Entry.startFailedFor caller') = 0) := by
  cases hw with
  | startFailed | call =>
    exact ⟨by simp, fun hne => by simp [Entry.calledBy, Entry.startFailedFor, hne.symm]⟩
  | _ => simp [Entry.calledBy, Entry.startFailedFor]

/-- The variables of every caller are right. -/
def Counted (s : State J T) : Prop :=
  ∀ (caller : ℕ) (phase : Phase J T), s.callers[caller]? = some phase → PhaseCounted caller s.log phase

/-- A caller turns to something else. -/
theorem counted_set {phases : List (Phase J T)} {log : List Entry}
    (h : ∀ (caller : ℕ) (phase : Phase J T), phases[caller]? = some phase →
      PhaseCounted caller log phase) (hphase : PhaseCounted caller log phase') :
    ∀ (caller' : ℕ) (phase : Phase J T), (phases.set caller phase')[caller']? = some phase →
      PhaseCounted caller' log phase := by
  intro caller' phase hc'
  rcases eq_or_ne caller caller' with rfl | hne
  · obtain rfl := Option.some.inj ((List.getElem?_set_self
      (by simpa using (List.getElem?_eq_some_iff.1 hc').1)).symm.trans hc')
    exact hphase
  · rw [List.getElem?_set_ne hne] at hc'
    exact h caller' phase hc'

theorem Counted.step (h : Counted s) (hstep : Stepped s readable s') : Counted s' := by
  cases hstep with
  | enter caller task last hc =>
    intro caller' phase hc'
    rcases eq_or_ne caller caller' with rfl | hne
    · obtain rfl := Option.some.inj ((List.getElem?_set_self
        (List.getElem?_eq_some_iff.1 hc).1).symm.trans hc')
      exact ⟨countSince_entered, countSince_entered⟩
    · simp only [State.setCaller, List.getElem?_set_ne hne] at hc'
      exact (h caller' phase hc').append (by simpa using hne.symm) rfl rfl
  | take caller index task available hc =>
    obtain ⟨hcalls, hfailures⟩ := h caller _ hc
    exact counted_set h ⟨hcalls, (Nat.zero_add _).trans hfailures, Nat.zero_le _⟩
  | sleep caller task hc | wake caller task hc =>
    have hcaller := h caller _ hc
    exact counted_set h hcaller
  | work caller next phase op slot w hc hslot hw =>
    intro caller' phase' hc'
    rcases eq_or_ne caller caller' with rfl | hne
    · obtain rfl := Option.some.inj ((List.getElem?_set_self
        (List.getElem?_eq_some_iff.1 hc).1).symm.trans hc')
      exact hw.counted (h caller phase hc)
    · simp only [State.worked, List.getElem?_set_ne hne] at hc' ⊢
      obtain ⟨hentered, hown⟩ := hw.entries_own caller'
      obtain ⟨hcalls, hfailures⟩ := hown hne.symm
      exact (h caller' phase' hc').append hentered hcalls hfailures
  | giveBack caller op result hc =>
    have hcaller := h caller _ hc
    exact counted_set h hcaller
  | notify caller woken op result task hc hwoken =>
    have hleaving := h caller _ hc
    have hcaller : PhaseCounted caller s.log (.outside (some (op.task, result))) := hleaving
    have hleft := counted_set h hcaller
    have hsleeper := hleft woken _ hwoken
    exact counted_set hleft hsleeper
  | visit => exact h

/-- A pool of one slot for one caller, whose first child dies. -/
def secondTryHello : WorkerHello :=
  ⟨contractName, protocolVersion, lit "hello", contractVersion, .pdf, lit "1.0.0", lit "build",
    [.pdfParse]⟩

def secondTryTask : Task Text Text where
  filePath := lit "C:\\a.pdf"
  timeout := 1000
  request _ := parseSessionRequest (lit "61111111-6111-4111-8111-611111111111") .rustPdfiumV3 (.ok ())
    (some 400) (some 4000) some fun _ => .ok ()

def secondTryEvents : List (Event Text Text) :=
  let start : Event Text Text := .start 0 ⟨true, .ok ⟨300, some secondTryHello⟩⟩ (some 1)
  let response : WorkerResponse Text := ⟨contractName, protocolVersion,
    lit "61111111-6111-4111-8111-611111111111", .pdfParse, .ok, some (lit "text"), none⟩
  [.enter 0 secondTryTask, .look 0, .loop 0 0 0 (some 1), start, .call 0 10 (some 1),
    .answer 0 ⟨true, .error .eof⟩ 20 (some 1), .loop 0 30 0 (some 1), start, .call 0 40 (some 1),
    .answer 0 ⟨true, .ok ⟨500, some response⟩⟩ 50 (some 1), .leave 0 none]

/-- The number of slots whose session is dead. -/
def deadCount (slots : List SessionSlot) : ℕ := slots.countP SessionSlot.isDead

/-- A failed observation comes from a dead session, and a dead session from a deadline. -/
def Peaked (s : State J T) : Prop :=
  (s.pool.counters.rssObservationFailed = true ∨ 0 < deadCount s.pool.slots) ↔
    ∃ index, .expired index ∈ s.log

theorem observeRss_failed {session : WorkerSession} {peak : Option ℕ} (hpeak : peak.isSome = true) :
    (counters.observeRss (session.peakRssBytes peak)).rssObservationFailed =
      (counters.rssObservationFailed || session.child.isNone) := by
  obtain ⟨rss, rfl⟩ := Option.isSome_iff_exists.1 hpeak
  rcases session with ⟨_ | process, served⟩ <;>
    simp [WorkerSession.peakRssBytes, PoolCounters.observeRss]

theorem dispatch_child {session served : WorkerSession} {request : SessionRequest J T}
    {exchange : Exchange J} {answer : Except SessionError T}
    (h : session.dispatch request exchange = (answer, served)) : served.child = session.child := by
  unfold WorkerSession.dispatch at h
  split at h <;> (obtain ⟨-, rfl⟩ := Prod.mk.inj h; rfl)

/-- A slot changes, and the dead sessions are counted before and after. -/
theorem deadCount_set {slots : List SessionSlot} (hslot : slots[index]? = some slot)
    (slot' : SessionSlot) {failed failed' : Prop}
    (hsame : failed' ∨ slot'.isDead = true ↔ failed ∨ slot.isDead = true) :
    (failed' ∨ 0 < deadCount (slots.set index slot')) ↔ (failed ∨ 0 < deadCount slots) := by
  have hpos : slot.isDead = true → 0 < deadCount slots := fun hdead =>
    List.countP_pos_iff.2 ⟨slot, List.mem_of_getElem? hslot, hdead⟩
  have hpos' : slot'.isDead = true → 0 < deadCount (slots.set index slot') := fun hdead =>
    List.countP_pos_iff.2 ⟨slot', List.mem_set (List.getElem?_eq_some_iff.1 hslot).1 _, hdead⟩
  by_cases hdead : slot.isDead = true
  · exact iff_of_true ((hsame.2 (.inr hdead)).imp_right hpos') (.inr (hpos hdead))
  · by_cases hdead' : slot'.isDead = true
    · exact iff_of_true (.inr (hpos' hdead')) (.inl ((hsame.1 (.inr hdead')).resolve_right hdead))
    · have hcount := countP_set_add (p := SessionSlot.isDead) hslot slot'
      simp only [hdead, hdead', or_false, Bool.false_eq_true, if_false, Nat.add_zero] at hcount hsame
      rw [hsame, deadCount, deadCount, hcount]

theorem Peaked.worked {next : ℕ} (h : Peaked s) (hreadable : readable) (hslot : s.pool.slots[op.index]? = some slot)
    (hw : WorkStep s.pool.params s.pool.counters caller s.nextProcess readable phase op slot w) :
    Peaked (s.worked caller op.index next w) := by
  -- A piece of work that lets no deadline pass.
  have hquiet : (∀ index, .expired index ∉ w.entries) →
      (w.counters.rssObservationFailed = true ∨ w.slot.isDead = true ↔
        s.pool.counters.rssObservationFailed = true ∨ slot.isDead = true) →
      Peaked (s.worked caller op.index next w) := by
    intro hnone hsame
    have hlog : (∃ index, .expired index ∈ s.log ++ w.entries) ↔ ∃ index, .expired index ∈ s.log :=
      exists_congr fun index => by rw [List.mem_append, or_iff_left (hnone index)]
    exact (deadCount_set hslot w.slot hsame).trans (h.trans hlog.symm)
  cases hw with
  | expire | keep | resume | startFailed | call => exact hquiet (by simp) Iff.rfl
  | kill _ _ session pending peak =>
    refine iff_of_true (.inr ?_) ⟨op.index, List.mem_append_right _ (List.mem_singleton_self _)⟩
    refine List.countP_pos_iff.2 ⟨⟨some session.kill, true⟩, ?_, rfl⟩
    exact List.mem_set (List.getElem?_eq_some_iff.1 hslot).1 _
  | retire _ session pending peak hpeak =>
    refine hquiet (by simp) ?_
    rw [observeRss_failed (hpeak hreadable)]
    simp [SessionSlot.isDead]
  | start _ pending peak hpeak =>
    obtain ⟨rss, rfl⟩ := Option.isSome_iff_exists.1 (hpeak hreadable)
    refine hquiet (by simp) ?_
    cases pending <;> simp [SessionSlot.isDead, PoolCounters.observeRss]
  | succeed _ remaining session served pending exchange value took peak hcall hpeak =>
    refine hquiet (by simp) ?_
    rw [observeRss_failed (hpeak hreadable)]
    simp [SessionSlot.isDead, dispatch_child hcall]
  | fail _ remaining session served pending exchange error took peak hcall hpeak =>
    refine hquiet (by simp) ?_
    rw [observeRss_failed (hpeak hreadable), dispatch_child hcall]
    simp [SessionSlot.isDead]

theorem observeSlot_failed {peak : Option ℕ} (hpeak : peak.isSome = true) :
    (WorkerPool.observeSlot counters slot peak).rssObservationFailed =
      (counters.rssObservationFailed || slot.isDead) := by
  rcases slot with ⟨_ | session, pending⟩
  · simp [WorkerPool.observeSlot, SessionSlot.isDead]
  · exact observeRss_failed hpeak

theorem Peaked.step (h : Peaked s) (hreadable : readable) (hstep : Stepped s readable s') :
    Peaked s' := by
  cases hstep with
  | enter caller task last hc =>
    refine h.trans (exists_congr fun index => ?_)
    simp
  | take | sleep | wake | giveBack | notify => exact h
  | work caller next phase op slot w hc hslot hw => exact h.worked hreadable hslot hw
  | visit index slot peak hslot hpeak =>
    refine Iff.trans ?_ h
    simp only [observeSlot_failed (hpeak hreadable), Bool.or_eq_true, or_assoc]
    refine or_congr_right (or_iff_right_of_imp fun hdead => ?_)
    exact List.countP_pos_iff.2 ⟨slot, List.mem_of_getElem? hslot, hdead⟩

/-- All slots are observed. -/
theorem observeSlots_failed {peaks : ℕ → Option ℕ} (hpeaks : ∀ index, (peaks index).isSome = true)
    (slots : List (SessionSlot × ℕ)) (counters : PoolCounters) :
    (slots.foldl (fun counters p => WorkerPool.observeSlot counters p.1 (peaks p.2))
        counters).rssObservationFailed =
      (counters.rssObservationFailed || (slots.map Prod.fst).any SessionSlot.isDead) := by
  induction slots generalizing counters with
  | nil => simp
  | cons p slots ih =>
    rw [List.foldl_cons, ih, observeSlot_failed (hpeaks p.2), List.map_cons, List.any_cons,
      Bool.or_assoc]

theorem snapshot_none : counters.snapshot.peakWorkerRssBytes = none ↔
    counters.rssObservationFailed = true := by
  unfold PoolCounters.snapshot
  split_ifs with hfailed hattempted <;> simp [hfailed]

/-- **A deadline makes the peak memory unknown**. -/
theorem peak_unknown_iff (expected : WorkerHello) (params : SessionParams) (callers : ℕ)
    (events : List (Event J T)) (peaks : ℕ → Option ℕ) (hevents : ∀ event ∈ events, event.Readable)
    (hpeaks : ∀ index, (peaks index).isSome = true) :
    ((run expected params callers events).pool.stats peaks).peakWorkerRssBytes = none ↔
      ∃ index, .expired index ∈ (run expected params callers events).log := by
  have hnew : Peaked (.new expected params callers : State J T) := by
    simp [Peaked, State.new, WorkerPool.new, deadCount, List.countP_replicate, SessionSlot.isDead]
  have hall : AllSteps State.step (fun _ event => event.Readable) (.new expected params callers)
      events := allSteps_of_forall (fun event hevent _ => hevents event hevent) _
  have hpeaked : Peaked (run expected params callers events) :=
    applyAll_invariant_of (fun _ _ _ h hreadable hs => h.step hreadable (step_cases hs)) events _ hnew
      hall
  rw [WorkerPool.stats, snapshot_none, observeSlots_failed hpeaks, List.zipIdx_map_fst,
    Bool.or_eq_true, List.any_eq_true, ← List.countP_pos_iff]
  exact hpeaked

/-- The deadline passes after a session was started. -/
theorem peak_unknown_iff_late :
    ((run secondTryHello ⟨1, 128, 30000, 512⟩ 1 (secondTryEvents.take 4 ++ [.call 0 1000 (some 1),
      .leave 0 none])).pool.stats fun _ => some 1).peakWorkerRssBytes = none := by
  refine (peak_unknown_iff _ _ _ _ _ ?_ fun _ => rfl).2 ⟨0, by decide +kernel⟩
  intro event hevent
  simp only [secondTryEvents, List.take, List.cons_append, List.nil_append, List.mem_cons,
    List.not_mem_nil, or_false] at hevent
  rcases hevent with rfl | rfl | rfl | rfl | rfl | rfl <;> simp [Event.Readable]

end DailyReport.SessionPool
