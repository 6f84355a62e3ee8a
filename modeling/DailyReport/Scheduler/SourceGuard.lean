import DailyReport.Scheduler.PortCalls

/-!
# The observer of source guards

One `SourceGuardObserver` is shared by a whole run.  It remembers the first guard it computed for a
path, and the paths whose guard was not the expected one: such a path stays tainted, so a file that
changes back does not become usable again.

* `verify_of_tainted`, `isTainted_run` : **a tainted path is never verified again**, whatever is
  observed and whatever happens to the files in between.

What the scheduler needs of an observer is said by `Watched`, and `withGuardVerifier` gives a
scheduler's ports the observer (`watched_withGuardVerifier`).
-/

namespace DailyReport

open Lib

/-- The observations of a run. -/
structure SourceGuardObserver where
  strictVerification : Bool
  guards : AList fun _ : Text => SourceGuardV2
  taintedPaths : Finset Text

namespace SourceGuardObserver

variable {σ : Type}

def isTainted (observer : SourceGuardObserver) (path : Text) : Bool :=
  decide (path ∈ observer.taintedPaths)

def taint (observer : SourceGuardObserver) (path : Text) : SourceGuardObserver :=
  { observer with taintedPaths := insert path observer.taintedPaths }

variable (computeCurrent : Text → StateM σ (Option SourceGuardV2))

/-- The guard of a path, computed once.  What the file system says about the file now is asked of
the world; it may fail. -/
def compute (path : Text) : StateM (σ × SourceGuardObserver) (Option SourceGuardV2) := fun s =>
  match s.2.guards.lookup path with
  | some guard => (some guard, s)
  | none =>
    match computeCurrent path s.1 with
    | (some guard, world) =>
      (some guard, world, { s.2 with guards := s.2.guards.insert path guard })
    | (none, world) => (none, world, s.2)

/-- The guard that a verification compares: a strict one looks at the file again. -/
def actual (path : Text) : StateM (σ × SourceGuardObserver) (Option SourceGuardV2) := fun s =>
  if s.2.strictVerification then
    match computeCurrent path s.1 with
    | (guard, world) => (guard, world, s.2)
  else compute computeCurrent path s

def verify (path : Text) (expected : SourceGuardV2) : StateM (σ × SourceGuardObserver) Bool :=
  fun s =>
    if s.2.isTainted path then (false, s)
    else
      match actual computeCurrent path s with
      | (guard, world, observer) =>
        if guard = some expected then (true, world, observer)
        else (false, world, observer.taint path)

variable {computeCurrent} {path other : Text} {expected : SourceGuardV2}
  {s : σ × SourceGuardObserver}

@[simp] theorem isTainted_taint (observer : SourceGuardObserver) :
    (observer.taint path).isTainted other = (decide (other = path) || observer.isTainted other) := by
  simp [isTainted, taint]

theorem isTainted_compute : (compute computeCurrent path s).2.2.isTainted other =
    s.2.isTainted other := by
  unfold compute
  split
  · rfl
  · split <;> rfl

theorem isTainted_actual : (actual computeCurrent path s).2.2.isTainted other =
    s.2.isTainted other := by
  unfold actual
  split_ifs
  · rfl
  · exact isTainted_compute

/-- **What a verification does**: it fails on a tainted path, and taints its path exactly when it
fails. -/
theorem isTainted_verify : (verify computeCurrent path expected s).2.2.isTainted other =
    (s.2.isTainted other ||
      decide (other = path) && !(verify computeCurrent path expected s).1) := by
  unfold verify
  by_cases htainted : s.2.isTainted path = true
  · rw [if_pos htainted]
    by_cases hother : other = path
    · rw [hother, htainted]
      rfl
    · simp [hother]
  · have hsame : (actual computeCurrent path s).2.2.isTainted other = s.2.isTainted other :=
      isTainted_actual
    rw [if_neg htainted, ← hsame]
    rcases actual computeCurrent path s with ⟨guard, world, observer⟩
    by_cases hmatches : guard = some expected
    · simp [hmatches]
    · simp [hmatches, Bool.or_comm]

/-- A tainted path is not verified. -/
theorem verify_of_tainted (h : s.2.isTainted path = true) :
    (verify computeCurrent path expected s).1 = false := by
  unfold verify
  rw [if_pos h]

/-- A path with another guard than the expected one is not verified. -/
theorem verify_of_actual_ne (h : (actual computeCurrent path s).1 ≠ some expected) :
    (verify computeCurrent path expected s).1 = false := by
  unfold verify
  split
  · rfl
  · exact congrArg Prod.fst (if_neg h)

/-- After a failed verification the path is tainted. -/
theorem isTainted_of_verify (h : (verify computeCurrent path expected s).1 = false) :
    (verify computeCurrent path expected s).2.2.isTainted path = true := by
  rw [isTainted_verify, h]
  simp

end SourceGuardObserver

/-! ### Sequences of observations -/

/-- Something that happens to an observer: it is asked for a guard or for a verification, or the
world goes on. -/
inductive Observation (σ : Type)
  | compute (path : Text)
  | verify (path : Text) (expected : SourceGuardV2)
  | elapse (change : σ → σ)

variable {σ : Type} {computeCurrent : Text → StateM σ (Option SourceGuardV2)}

/-- The world and the observer after an observation. -/
def Observation.run (computeCurrent : Text → StateM σ (Option SourceGuardV2))
    (s : σ × SourceGuardObserver) : Observation σ → σ × SourceGuardObserver
  | .compute path => (SourceGuardObserver.compute computeCurrent path s).2
  | .verify path expected => (SourceGuardObserver.verify computeCurrent path expected s).2
  | .elapse change => (change s.1, s.2)

/-- An observation leaves a tainted path tainted. -/
theorem Observation.isTainted_run (observation : Observation σ) {s : σ × SourceGuardObserver}
    {path : Text} (h : s.2.isTainted path = true) :
    (observation.run computeCurrent s).2.isTainted path = true := by
  cases observation with
  | compute other => exact SourceGuardObserver.isTainted_compute.trans h
  | verify other expected =>
    refine SourceGuardObserver.isTainted_verify.trans ?_
    rw [h, Bool.true_or]
  | elapse change => exact h

/-- **A tainted path stays tainted.** -/
theorem isTainted_run (observations : List (Observation σ)) {s : σ × SourceGuardObserver}
    {path : Text} (h : s.2.isTainted path = true) :
    (observations.foldl (Observation.run computeCurrent) s).2.isTainted path = true := by
  induction observations generalizing s with
  | nil => exact h
  | cons observation rest ih => exact ih (observation.isTainted_run h)

/-! ### What the scheduler needs -/

/-- The ports verify with an observer whose taints are `tainted`: a verified path is not tainted, a
verification taints no other path, and nothing else taints anything. -/
structure Watched (ports : Ports σ) (tainted : Text → σ → Bool) : Prop where
  verified : ∀ path guard s, (ports.verify path guard s).1 = true →
    tainted path (ports.verify path guard s).2 = false
  told : ∀ path s, (ports.isTainted path s).1 = tainted path s
  apart : ∀ path, PortsMove ports (fun s s' => tainted path s' = tainted path s) (path ≠ ·)

/-- A program that does not see the observer. -/
def withObserver {α : Type} (f : StateM σ α) : StateM (σ × SourceGuardObserver) α := fun s =>
  let result := f s.1
  (result.1, result.2, s.2)

/-- The ports of a run that verifies with an observer. -/
def withGuardVerifier (ports : Ports σ)
    (computeCurrent : Text → StateM σ (Option SourceGuardV2)) : Ports (σ × SourceGuardObserver) where
  nowMs := withObserver ports.nowMs
  nextRequestId := withObserver ports.nextRequestId
  verify := SourceGuardObserver.verify computeCurrent
  isTainted path := fun s => (s.2.isTainted path, s)
  classifyPdf operation timeout := withObserver (ports.classifyPdf operation timeout)
  parse request := withObserver (ports.parse request)
  lookupParse file route existed := withObserver (ports.lookupParse file route existed)
  lookupClassification file hash build existed :=
    withObserver (ports.lookupClassification file hash build existed)
  writeParse now record := withObserver (ports.writeParse now record)
  writeClassification now record := withObserver (ports.writeClassification now record)
  touchAccess now parses classifications :=
    withObserver (ports.touchAccess now parses classifications)

theorem portsMove_withGuardVerifier {ports : Ports σ} {step : σ × SourceGuardObserver →
    σ × SourceGuardObserver → Prop} {allowed : Text → Prop}
    (hverify : ∀ path guard, allowed path → ∀ s,
      step s (SourceGuardObserver.verify computeCurrent path guard s).2)
    (hworld : ∀ s world, step s (world, s.2)) :
    PortsMove (withGuardVerifier ports computeCurrent) step allowed where
  verify := hverify
  isTainted _ s := hworld s s.1
  nowMs s := hworld s _
  nextRequestId s := hworld s _
  classifyPdf _ _ s := hworld s _
  parse _ s := hworld s _
  lookupParse _ _ _ s := hworld s _
  lookupClassification _ _ _ _ s := hworld s _
  writeParse _ _ s := hworld s _
  writeClassification _ _ s := hworld s _
  touchAccess _ _ _ s := hworld s _

/-- **The scheduler's ports with an observer** verify as the scheduler needs it. -/
theorem watched_withGuardVerifier (ports : Ports σ) :
    Watched (withGuardVerifier ports computeCurrent) fun path s => s.2.isTainted path where
  verified path guard s h := by
    change (SourceGuardObserver.verify computeCurrent path guard s).1 = true at h
    refine SourceGuardObserver.isTainted_verify.trans ?_
    rw [h]
    -- a tainted path would not have been verified
    cases htainted : s.2.isTainted path with
    | false => simp
    | true =>
      rw [SourceGuardObserver.verify_of_tainted htainted] at h
      cases h
  told _ _ := rfl
  apart path := by
    refine portsMove_withGuardVerifier (fun other guard hne s => ?_) fun _ _ => rfl
    refine SourceGuardObserver.isTainted_verify.trans ?_
    rw [decide_eq_false hne, Bool.false_and, Bool.or_false]

/-- **A run with an observer makes observations**, one after the other. -/
theorem moves_withGuardVerifier (ports : Ports σ) :
    PortsMove (withGuardVerifier ports computeCurrent)
      (fun s s' => ∃ observation : Observation σ, observation.run computeCurrent s = s')
      fun _ => True :=
  portsMove_withGuardVerifier (fun path guard _ _ => ⟨.verify path guard, rfl⟩) fun _ world =>
    ⟨.elapse fun _ => world, rfl⟩

end DailyReport
