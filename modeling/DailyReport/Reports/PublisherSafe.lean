import DailyReport.Lib.Except
import DailyReport.Reports.Chain
import DailyReport.Reports.Publisher

/-!
# Publishing loses nothing

Others may write every file but those in the directory of conflicts, at any time; the lock of the
report keeps them away from the database.

* `publish_interleaved` : **however a publication is interleaved with what others do, and wherever it
  is stopped, none of its steps loses a text of a file**; if it succeeds, it has displaced nothing
  but the version that its run was staged on, and only then is the run published.
-/

namespace DailyReport.Reports

open Lib Relation

/-! ### What others do, and what is kept -/

section

variable (root : Text)

/-- The path is in the directory of conflicts. -/
def InConflicts (path : Text) : Prop := joinPath (conflictsDir root) [] <+: path

/-- What others may do. -/
structure Others (w w' : World) : Prop where
  db : w'.db = w.db
  conflicts : ∀ path, InConflicts root path → w'.files path = w.files path

/-- The files among the conflicts stay as they are. -/
def KeepsConflicts (w w' : World) : Prop :=
  ∀ path content, InConflicts root path → w.files path = some content → w'.files path = some content

/-- No text is lost: it stays in its file, or it is moved to a new file among the conflicts. -/
structure LosesNothing (w w' : World) : Prop where
  texts : ∀ path content, w.files path = some content → w'.files path = some content ∨
    ∃ backup, InConflicts root backup ∧ w.files backup = none ∧ w'.files backup = some content
  conflicts : KeepsConflicts root w w'

/-- What has come to the conflicts since the start has this digest. -/
def OnlyDisplaced [Sha256] (allowed : Option Text) (start w : World) : Prop :=
  ∀ path, InConflicts root path → w.files path = start.files path ∨
    start.files path = none ∧
      ∃ content, w.files path = some content ∧ some (Sha256.hex content) = allowed

end

variable {root : Text}

theorem Others.refl (w : World) : Others root w w := ⟨rfl, fun _ _ => rfl⟩

theorem Others.trans {u v w : World} (h : Others root u v) (h' : Others root v w) : Others root u w :=
  ⟨h'.db.trans h.db, fun path hpath => (h'.conflicts path hpath).trans (h.conflicts path hpath)⟩

/-- What the publisher relies on. -/
def others (root : Text) : Rely World := ⟨Others root, Others.refl, Others.trans⟩

theorem KeepsConflicts.refl (w : World) : KeepsConflicts root w w := fun _ _ _ h => h

theorem KeepsConflicts.trans (u v w : World) (h : KeepsConflicts root u v)
    (h' : KeepsConflicts root v w) : KeepsConflicts root u w :=
  fun path content hpath hcontent => h' path content hpath (h path content hpath hcontent)

theorem Others.keepsConflicts (w w' : World) (h : Others root w w') : KeepsConflicts root w w' :=
  fun path _ hpath hcontent => (h.conflicts path hpath).trans hcontent

theorem LosesNothing.of_files {w w' : World} (h : w'.files = w.files) : LosesNothing root w w' :=
  ⟨fun _ _ hcontent => .inl (h ▸ hcontent), fun _ _ _ hcontent => h ▸ hcontent⟩

theorem LosesNothing.refl (w : World) : LosesNothing root w w := .of_files rfl

/-- A new file takes the place of no other. -/
theorem LosesNothing.create {w : World} {path : Text} (hnew : w.files path = none) (content : Text) :
    LosesNothing root w { w with files := Function.update w.files path (some content) } := by
  have hstays (other text : Text) (htext : w.files other = some text) :
      Function.update w.files path (some content) other = some text := by
    have hne : other ≠ path := fun heq => by rw [heq, hnew] at htext; cases htext
    exact (Function.update_of_ne hne _ _).trans htext
  exact ⟨fun other text htext => .inl (hstays other text htext), fun other text _ => hstays other text⟩

theorem inConflicts_join (name : Text) : InConflicts root (joinPath (conflictsDir root) name) :=
  ⟨name, by simp [joinPath]⟩

theorem not_inConflicts {dir name : Text} (h : ¬ lit "conflicts\\" <+: dir ++ '\\' :: name) :
    ¬ InConflicts root (joinPath (joinPath root dir) name) := by
  have hdir : joinPath (conflictsDir root) [] = (root ++ ['\\']) ++ lit "conflicts\\" := by
    have hlit : lit "conflicts\\" = lit "conflicts" ++ ['\\'] := by decide +kernel
    rw [hlit]
    simp [joinPath, conflictsDir]
  have hpath : joinPath (joinPath root dir) name = (root ++ ['\\']) ++ (dir ++ '\\' :: name) := by
    simp [joinPath]
  rw [InConflicts, hdir, hpath, List.prefix_append_right_inj]
  exact h

theorem not_prefix_of_head {c : Char} {dir name : Text} (h : dir.head? = some c)
    (hc : c ≠ 'c') : ¬ lit "conflicts\\" <+: dir ++ '\\' :: name := by
  have hlit : lit "conflicts\\" = 'c' :: lit "onflicts\\" := by decide +kernel
  obtain ⟨rest, rfl⟩ : ∃ rest, dir = c :: rest := List.head?_eq_some_iff.1 h
  rw [hlit, List.cons_append, List.cons_prefix_cons]
  exact fun heq => hc heq.1.symm

/-- A date begins with a digit. -/
theorem head_of_isDate {date : Text} (h : isDate date = true) :
    ∃ c rest, date = c :: rest ∧ c.isDigit = true := by
  unfold isDate at h
  simp only [Bool.and_eq_true, decide_eq_true_eq, List.all_eq_true] at h
  obtain ⟨⟨⟨⟨hlength, hdigits⟩, -⟩, -⟩, -⟩ := h
  cases date with
  | nil => cases hlength
  | cons c rest => exact ⟨c, rest, rfl, hdigits c (by simp)⟩

/-- The file of a run, and what stands beside it, are not among the conflicts. -/
theorem targetOf_outside [ReportRules] {run : RunRecord} {output : ReportFile}
    (h : targetOf root run = .ok output) (name : Text) :
    ¬ InConflicts root (joinPath output.dir name) := by
  obtain ⟨dir, c, hdir, hhead, hc⟩ : ∃ dir c, output.dir = joinPath root dir ∧
      dir.head? = some c ∧ c ≠ 'c' := by
    unfold targetOf at h
    split_ifs at h with hkind
    · cases hreport : run.reportJson with
      | none => rw [hreport] at h; cases h
      | some report =>
        rw [hreport] at h
        change periodPath root run.runKind report = .ok output at h
        obtain ⟨label, -, hlabel⟩ := bind_eq_ok.1 h
        obtain rfl := Except.ok.inj hlabel
        rcases List.mem_cons.1 hkind with hkind | hkind
        · exact ⟨_, 'w', rfl, by rw [hkind]; decide +kernel, by decide⟩
        · rw [List.mem_singleton] at hkind
          exact ⟨_, 'm', rfl, by rw [hkind]; decide +kernel, by decide⟩
    · obtain ⟨_, hdate, hout⟩ := bind_eq_ok.1 h
      obtain rfl := Except.ok.inj hout
      obtain ⟨c, rest, hdate, hdigit⟩ := head_of_isDate (ensure_eq_ok.1 hdate)
      refine ⟨_, c, rfl, by rw [hdate]; rfl, ?_⟩
      rintro rfl
      exact absurd hdigit (by decide)
  rw [hdir]
  exact not_inConflicts (not_prefix_of_head hhead hc)

/-! ### What the operations do -/

variable {P : World → Prop} {E : ReportError → World → Prop} {path content : Text}

/-- A file may be created where the condition allows it. -/
theorem holds_createNew (hP : Stable (others root) P)
    (hcreate : ∀ w, P w → w.files path = none →
      P { w with files := Function.update w.files path (some content) }) :
    Holds (others root) (LosesNothing root) E P (createNew path content) fun _ => P := by
  refine .atomic hP (fun _ => hP) fun w hw => ?_
  cases hfile : w.files path with
  | some other => simpa [hfile] using ⟨.refl w, hw⟩
  | none => simpa [hfile] using ⟨.create hfile content, hcreate w hw hfile⟩

theorem holds_readStore {α : Type} {f : Db → Except ReportError α} {db : Db}
    (hP : Stable (others root) P) (hdb : ∀ w, P w → w.db = db)
    (hE : ∀ e, Stable (others root) (E e)) (herror : ∀ e w, P w → E e w) :
    Holds (others root) (LosesNothing root) E P (readStore f) fun a w => P w ∧ f db = .ok a := by
  refine .atomicExcept hP (fun r => ?_) fun w hw => ⟨.refl w, ?_⟩
  · cases r with
    | ok a => exact fun w w' hw hw' => ⟨hP w w' hw.1 hw', hw.2⟩
    | error e => exact hE e
  · change EndsIn E _ (f w.db) w
    rw [hdb w hw]
    cases hf : f db with
    | ok a => exact ⟨hw, rfl⟩
    | error e => exact herror e w hw

theorem holds_writeStore {Q : World → Prop} {f : Db → Except ReportError Db} {db : Db}
    (hP : Stable (others root) P) (hQ : Stable (others root) Q) (hdb : ∀ w, P w → w.db = db)
    (hE : ∀ e, Stable (others root) (E e)) (herror : ∀ e w, P w → E e w)
    (hok : ∀ w db', P w → f db = .ok db' → Q { w with db := db' }) :
    Holds (others root) (LosesNothing root) E P (writeStore f) fun _ => Q := by
  refine .atomicExcept hP (fun r => ?_) fun w hw => ?_
  · cases r with
    | ok _ => exact hQ
    | error e => exact hE e
  · rw [hdb w hw]
    cases hf : f db with
    | ok db' => exact ⟨.of_files rfl, hok w db' hw hf⟩
    | error e => exact ⟨.refl w, herror e w hw⟩

theorem holds_demand {p : Prop} [Decidable p] {code message : String} (hP : Stable (others root) P)
    (herror : ∀ e w, P w → E e w) :
    Holds (others root) (LosesNothing root) E P (demand p code message) fun _ w => P w ∧ p := by
  refine .ofExcept hP fun w hw => ?_
  by_cases hp : p
  · rw [ensure, if_pos hp]
    exact ⟨hw, hp⟩
  · rw [ensure, if_neg hp]
    exact herror _ w hw

theorem holds_outputHash [Sha256] (hP : Stable (others root) P) :
    Holds (others root) (LosesNothing root) E P (outputHash path) fun _ => P :=
  .atomic hP (fun _ => hP) fun w hw => ⟨.refl w, hw⟩

/-! ### Publishing -/

section Publishing

variable {start : World} {id : Text} {now : ℤ}

theorem stable_others : Stable (others root) (Others root start) := fun _ _ => Others.trans

theorem stable_db {db : Db} : Stable (others root) fun w => w.db = db :=
  fun _ _ h hothers => hothers.db.trans h

variable [Chrono]

/-- A publication that fails leaves the database as it is, or it says that a text of others was
captured. -/
def Refused (start : World) (id : Text) (now : ℤ) (error : ReportError) (w : World) : Prop :=
  w.db = start.db ∨
    error.code = outputConflictCaptured ∧ w.db = fail start.db id outputConflictCaptured false now

theorem stable_refused (error : ReportError) : Stable (others root) (Refused start id now error) :=
  fun _ _ h hothers => h.imp hothers.db.trans fun h => ⟨h.1, hothers.db.trans h.2⟩

/-- What each part of a publication is about. -/
abbrev Does (root : Text) (start : World) (id : Text) (now : ℤ) (P : World → Prop) {α : Type}
    (m : Publishing α) (Q : α → World → Prop) : Prop :=
  Holds (others root) (LosesNothing root) (Refused start id now) P m Q

/-! ### Replacing a file -/

section

variable {run : RunRecord} {target body backup : Text}

/-- The version that was in the target is among the conflicts, and nothing else has come there. -/
structure Moved (root : Text) (start : World) (backup : Text) (w : World) : Prop where
  db : w.db = start.db
  inConflicts : InConflicts root backup
  unused : start.files backup = none
  moved : (w.files backup).isSome
  others : ∀ path, InConflicts root path → path ≠ backup → w.files path = start.files path

omit [Chrono] in
theorem stable_moved : Stable (Reports.others root) (Moved root start backup) := by
  intro w w' hw hw'
  refine ⟨hw'.db.trans hw.db, hw.inConflicts, hw.unused, ?_, fun path hpath hne => ?_⟩
  · rw [hw'.conflicts _ hw.inConflicts]
    exact hw.moved
  · exact (hw'.conflicts path hpath).trans (hw.others path hpath hne)

omit [Chrono] in
theorem stable_movedHash [Sha256] {moved : Option Text} : Stable (Reports.others root) fun w =>
    Moved root start backup w ∧ moved = (w.files backup).map Sha256.hex := by
  rintro w w' ⟨hw, hmoved⟩ hw'
  exact ⟨stable_moved w w' hw hw', by rw [hw'.conflicts _ hw.inConflicts, hmoved]⟩

theorem does_reserveBackup [FreshNames] :
    Does root start id now (Others root start) (reserveBackup root run) fun backup w =>
      Others root start w ∧ InConflicts root backup ∧ start.files backup = none := by
  refine .atomicExcept stable_others (fun r => ?_) fun w hw => ?_
  · cases r with
    | ok backup => exact fun w w' hw hw' => ⟨hw.1.trans hw', hw.2⟩
    | error e => exact stable_refused e
  cases hfresh : FreshNames.fresh w.files (backupPath root run) with
  | none => exact ⟨.refl w, .inl hw.db⟩
  | some random =>
    have hbackup : InConflicts root (backupPath root run random) := inConflicts_join _
    refine ⟨.refl w, hw, hbackup, ?_⟩
    rw [← hw.conflicts _ hbackup]
    exact FreshNames.unused hfresh

theorem does_replaceWithBackup (houtside : ¬ InConflicts root target) (hbackup : InConflicts root backup)
    (hunused : start.files backup = none) :
    Does root start id now (Others root start) (replaceWithBackup target body backup)
      fun _ => Moved root start backup := by
  refine .atomicExcept stable_others (fun r => ?_) fun w hw => ?_
  · cases r with
    | ok _ => exact stable_moved
    | error e => exact stable_refused e
  cases htarget : w.files target with
  | none => simpa [htarget] using ⟨.refl w, .inl hw.db⟩
  | some old =>
    have hne : backup ≠ target := by
      rintro rfl
      exact houtside hbackup
    have hempty : w.files backup = none := (hw.conflicts _ hbackup).trans hunused
    dsimp only
    refine ⟨⟨fun path content hcontent => ?_, fun path content hpath hcontent => ?_⟩, hw.db, hbackup,
      hunused, ?_, fun path hpath hother => ?_⟩
    · by_cases hpath : path = target
      · -- What was in the target is now in the backup.
        subst hpath
        obtain rfl : old = content := Option.some.inj (htarget.symm.trans hcontent)
        refine .inr ⟨backup, hbackup, hempty, ?_⟩
        simp [Function.update_of_ne hne]
      · have hother : path ≠ backup := by
          rintro rfl
          rw [hempty] at hcontent
          cases hcontent
        exact .inl (by simp [Function.update_of_ne hpath, Function.update_of_ne hother, hcontent])
    · have hpath' : path ≠ target := by
        rintro rfl
        exact houtside hpath
      have hother : path ≠ backup := by
        rintro rfl
        rw [hempty] at hcontent
        cases hcontent
      simp [Function.update_of_ne hpath', Function.update_of_ne hother, hcontent]
    · simp [Function.update_of_ne hne]
    · have hpath' : path ≠ target := by
        rintro rfl
        exact houtside hpath
      simp [Function.update_of_ne hpath', Function.update_of_ne hother, hw.conflicts path hpath]

end

/-! ### Refusing and publishing -/

variable [Sha256]

theorem does_conflict {run : RunRecord} {body : Text} :
    Does root start id now (fun w => w.db = start.db) (conflict root run body)
      fun _ w => w.db = start.db := by
  refine .bind stable_refused (holds_createNew stable_db fun w hw _ => hw) fun created => ?_
  refine .ite (fun _ => .pure stable_db fun w hw => hw) fun _ => ?_
  refine .bind stable_refused (holds_outputHash stable_db) fun saved => ?_
  exact (holds_demand stable_db fun _ _ => .inl).mono fun _ _ => And.left

theorem does_conflict_refuse {run : RunRecord} {body : Text} {code message : String} {α : Type}
    {Q : α → World → Prop} :
    Does root start id now (fun w => w.db = start.db)
      (do conflict root run body; refuse code message) Q :=
  .bind stable_refused does_conflict fun _ => .throw stable_db fun _ => .inl

theorem does_linkFile {run : RunRecord} {target body : Text} (houtside : ¬ InConflicts root target) :
    Does root start id now (Others root start) (linkFile root run target body)
      fun _ => Others root start := by
  refine .bind stable_refused (holds_createNew stable_others fun w hw _ => ⟨hw.db, ?_⟩) fun created => ?_
  · intro path hpath
    have hne : path ≠ target := by
      rintro rfl
      exact houtside hpath
    exact (Function.update_of_ne hne _ _).trans (hw.conflicts path hpath)
  refine .ite (fun _ => .pure stable_others fun w hw => hw) fun _ => ?_
  exact does_conflict_refuse.before fun _ => Others.db

/-- The publication has displaced nothing but the version it may replace. -/
structure Displaced (root : Text) (allowed : Option Text) (start w : World) : Prop where
  db : w.db = start.db
  only : OnlyDisplaced root allowed start w

omit [Chrono] in
theorem stable_displaced {allowed : Option Text} :
    Stable (others root) (Displaced root allowed start) := by
  refine fun w w' hw hw' => ⟨hw'.db.trans hw.db, fun path hpath => ?_⟩
  rw [hw'.conflicts path hpath]
  exact hw.only path hpath

omit [Chrono] in
theorem Others.displaced {w : World} (h : Others root start w) (allowed : Option Text) :
    Displaced root allowed start w :=
  ⟨h.db, fun path hpath => .inl (h.conflicts path hpath)⟩

section

variable [FreshNames] {run : RunRecord} {target body : Text} {existing : Option Text}

theorem does_replaceFile (hid : run.runId = id) (houtside : ¬ InConflicts root target) :
    Does root start id now (Others root start) (replaceFile root run target body existing now)
      fun _ => Displaced root existing start := by
  refine .bind stable_refused does_reserveBackup fun backup => ?_
  intro w hw
  obtain ⟨hothers, hbackup, hunused⟩ := hw
  refine Holds.bind stable_refused (does_replaceWithBackup houtside hbackup hunused) (fun _ => ?_) w
    hothers
  -- The text that was moved is looked at; nobody else writes the backup.
  refine .bind stable_refused (Q := fun moved w => Moved root start backup w ∧
    moved = (w.files backup).map Sha256.hex) (.atomic stable_moved (fun _ => stable_movedHash)
    fun w hw => ⟨.refl w, hw, rfl⟩) fun moved => ?_
  refine .ite (fun heq => .pure stable_movedHash fun w hw => ⟨hw.1.db, fun path hpath => ?_⟩) fun _ => ?_
  · by_cases hne : path = backup
    · subst hne
      obtain ⟨content, hcontent⟩ := Option.isSome_iff_exists.1 hw.1.moved
      refine .inr ⟨hunused, content, hcontent, ?_⟩
      rw [← heq, hw.2, hcontent]
      rfl
    · exact .inl (hw.1.others path hpath hne)
  · refine .bind stable_refused (does_conflict.before fun w hw => hw.1.db) fun _ => ?_
    refine .bind stable_refused
      (holds_writeStore stable_db (Q := fun w => w.db = fail start.db id outputConflictCaptured false now)
        stable_db (fun _ hw => hw) stable_refused (fun _ _ => .inl) fun w db' _ hfail => ?_)
      fun _ => .throw stable_db fun w hw => .inr ⟨rfl, hw⟩
    rw [← hid]
    exact (Except.ok.inj hfail).symm

end

variable [ReportRules] {databaseNow : Text} {run : RunRecord}

/-- The run that was staged is the published one now; one that was published before stays so. -/
def PublicationRecorded (run : RunRecord) (now : ℤ) (databaseNow : Text) (db db' : Db) : Prop :=
  if run.phase = .dbCommitted then
    ∃ verified, run.expectedSha256 = some verified ∧
      markPublished db run.runId verified now databaseNow = .ok db'
  else db' = db

theorem does_finishPublication {allowed : Option Text} {verified : Text}
    (hverified : some verified = run.expectedSha256) :
    Does root start id now (Displaced root allowed start)
      (finishPublication run verified now databaseNow)
      fun _ w => OnlyDisplaced root allowed start w ∧ PublicationRecorded run now databaseNow start.db w.db := by
  refine .ite (fun hphase => ?_) fun hphase =>
    .pure stable_displaced fun w hw => ⟨hw.only, by rw [PublicationRecorded, if_neg hphase, hw.db]⟩
  refine holds_writeStore stable_displaced ?_ (fun _ => Displaced.db) stable_refused
    (fun _ _ hw => .inl hw.db) fun w db' hw hmark => ⟨hw.only, ?_⟩
  · rintro w w' ⟨honly, hrecorded⟩ hw'
    refine ⟨fun path hpath => ?_, hw'.db ▸ hrecorded⟩
    rw [hw'.conflicts path hpath]
    exact honly path hpath
  · rw [PublicationRecorded, if_pos hphase]
    exact ⟨verified, hverified.symm, hmark⟩

/-- What is behind a publication that has succeeded: it has displaced nothing but the version it may
replace, and the run is published. -/
def Published (root id : Text) (now : ℤ) (databaseNow : Text) (start : World) (path : Text)
    (w : World) : Prop :=
  ∃ run output, readRun start.db id = .ok run ∧ targetOf root run = .ok output ∧ path = output.path ∧
    OnlyDisplaced root (allowedVersion run) start w ∧ PublicationRecorded run now databaseNow start.db w.db

theorem does_finish {output : ReportFile} {verified : Text} (hrun : readRun start.db id = .ok run)
    (htarget : targetOf root run = .ok output) (hverified : some verified = run.expectedSha256) :
    Does root start id now (Displaced root (allowedVersion run) start)
      (do finishPublication run verified now databaseNow; pure output.path)
      (Published root id now databaseNow start) := by
  refine .bind stable_refused (does_finishPublication hverified) fun _ => ?_
  refine .pure (fun w w' hw hw' => ⟨fun path hpath => ?_, hw'.db ▸ hw.2⟩) fun w hw =>
    ⟨run, output, hrun, htarget, rfl, hw⟩
  rw [hw'.conflicts path hpath]
  exact hw.1 path hpath

variable [AttachmentRules]

omit [ReportRules] in
theorem does_publishAttachment {run : RunRecord} {output : ReportFile}
    (houtside : ∀ name, ¬ InConflicts root (joinPath output.dir name)) :
    Does root start id now (Others root start) (publishAttachment run output)
      fun _ => Others root start := by
  refine .bind stable_refused (Q := fun _ => Others root start) (.ofExcept stable_others ?_)
    fun found => ?_
  · intro w hw
    cases attachmentOf run with
    | ok found => exact hw
    | error e => exact .inl hw.db
  cases found with
  | none => exact .pure stable_others fun w hw => hw
  | some found =>
    refine .bind stable_refused (holds_outputHash stable_others) fun hash => ?_
    cases hash with
    | some hash =>
      exact (holds_demand stable_others fun _ _ hw => Or.inl hw.db).mono fun _ _ => And.left
    | none =>
      refine .bind stable_refused (holds_createNew stable_others fun w hw _ => ⟨hw.db, ?_⟩) fun _ => ?_
      · intro path hpath
        have hne : path ≠ joinPath output.dir (attachmentLink found.1 found.2.sha256) := by
          rintro rfl
          exact houtside _ hpath
        exact (Function.update_of_ne hne _ _).trans (hw.conflicts path hpath)
      refine .bind stable_refused (holds_outputHash stable_others) fun linked => ?_
      exact (holds_demand stable_others fun _ _ hw => Or.inl hw.db).mono fun _ _ => And.left

theorem does_placeFile [FreshNames] {output : ReportFile} {body : Text} {existing : Option Text}
    (hrun : readRun start.db id = .ok run)
    (htarget : targetOf root run = .ok output) (hbody : some (Sha256.hex body) = run.expectedSha256) :
    Does root start id now (Others root start)
      (placeFile root run output body existing now databaseNow)
      (Published root id now databaseNow start) := by
  have hid : run.runId = id := (findRun_eq_some (readRun_eq_ok.1 hrun)).2
  have houtside := targetOf_outside htarget
  refine .ite (fun _ => does_conflict_refuse.before fun _ => Others.db) fun hallowed => ?_
  refine .bind stable_refused (does_publishAttachment houtside) fun _ => ?_
  refine .bind stable_refused (holds_outputHash stable_others) fun again => ?_
  refine .ite (fun _ => does_conflict_refuse.before fun _ => Others.db) fun _ => ?_
  have hplaced : Does root start id now (Others root start)
      (writeFile root run output.path body existing now) fun _ => Displaced root (allowedVersion run) start := by
    refine .ite (fun _ => (does_linkFile (houtside _)).mono fun _ w hw => hw.displaced _) fun hsome => ?_
    -- The version that is there is the one that may be replaced.
    obtain rfl : existing = allowedVersion run := by
      by_contra hne
      exact hallowed ⟨by simpa [Option.isSome_iff_ne_none] using hsome, hne⟩
    exact does_replaceFile hid (houtside _)
  refine .bind stable_refused hplaced fun _ => ?_
  refine .bind stable_refused (holds_outputHash stable_displaced) fun actual => ?_
  exact .ite (fun _ => does_conflict_refuse.before fun _ => Displaced.db) fun _ =>
    does_finish hrun htarget hbody

theorem does_publish [FreshNames] : Does root start id now (Others root start)
    (publish root id now databaseNow) (Published root id now databaseNow start) := by
  have hrefused : ∀ e w, Others root start w → Refused start id now e w := fun _ _ hw => .inl hw.db
  refine .bind stable_refused
    (holds_readStore stable_others (fun _ => Others.db) stable_refused hrefused) fun run => ?_
  refine .assume fun hrun => ?_
  refine .bind stable_refused (holds_demand stable_others hrefused) fun _ => ?_
  refine .assume fun _ => ?_
  refine .bind stable_refused (Q := fun output w => Others root start w ∧ targetOf root run = .ok output)
    (.ofExcept stable_others fun w hw => ?_) fun output => ?_
  · cases htarget : targetOf root run with
    | ok output => exact ⟨hw, rfl⟩
    | error e => exact hrefused e w hw
  refine .assume fun htarget => ?_
  refine .bind stable_refused (holds_demand stable_others hrefused) fun _ => .assume fun _ => ?_
  refine .bind stable_refused (holds_demand stable_others hrefused) fun _ => .assume fun hbody => ?_
  refine .bind stable_refused
    (holds_readStore stable_others (fun _ => Others.db) stable_refused hrefused) fun current => ?_
  refine .assume fun _ => ?_
  refine .bind stable_refused (holds_demand stable_others hrefused) fun _ => .assume fun _ => ?_
  refine .bind stable_refused (holds_outputHash stable_others) fun existing => ?_
  refine .bind stable_refused (holds_demand stable_others hrefused) fun _ => .assume fun _ => ?_
  refine .ite (fun _ => ?_) fun _ => does_placeFile hrun htarget hbody
  refine .bind stable_refused (does_publishAttachment (targetOf_outside htarget)) fun _ => ?_
  exact (does_finish hrun htarget hbody).before fun w hw => hw.displaced _

/-- A publication and what others do meanwhile, up to some moment; or what happens when nothing is
published: the conflicts are left alone. -/
def Happens [FreshNames] (root : Text) (w w' : World) : Prop :=
  (∃ id now databaseNow p,
      Interleaving (others root) (w, (publish root id now databaseNow).run) (w', p)) ∨
    ∀ path, InConflicts root path → w'.files path = w.files path

/-- The conflicts survive a publication, from wherever it has come to. -/
theorem keepsConflicts_rest [FreshNames] {w w' : World} {p p' : Program World (Except ReportError Text)}
    (hrun : Interleaving (others root) (start, (publish root id now databaseNow).run) (w, p))
    (hrest : Interleaving (others root) (w, p) (w', p')) : KeepsConflicts root w w' :=
  ((does_publish start (.refl start)).run hrun).related .refl .trans Others.keepsConflicts
    (fun _ _ => LosesNothing.conflicts) hrest

theorem Happens.keepsConflicts [FreshNames] {w w' : World} (h : Happens root w w') :
    KeepsConflicts root w w' := by
  rcases h with ⟨id, now, databaseNow, p, hrun⟩ | hleft
  · exact keepsConflicts_rest .refl hrun
  · exact fun path _ hpath hcontent => (hleft path hpath).trans hcontent

end Publishing

/-! ### The first publication of a date -/

section First

/-- The report has no evidence. -/
@[reducible] def noAttachments [Sha256] : AttachmentRules where
  attachment _ := .ok none

/-- The only name that is tried is the empty one. -/
@[reducible] def oneName : FreshNames where
  fresh files path := if files (path []) = none then some [] else none
  unused := by
    intro files path name h
    split_ifs at h with hnone
    cases h
    exact hnone

local instance publisherChrono : Chrono := utcClock
local instance publisherSha256 : Sha256 := markdownSha256
local instance publisherRules : ReportRules := noRules

local instance firstAttachments : AttachmentRules := noAttachments
local instance firstNames : FreshNames := oneName

def dayPath : Text := lit "reports\\2026-10\\2026-10-15.md"

/-- A run is staged, and there are no files. -/
def stagedWorld : World where
  db := (runEvents (preparedRun runA 36000 ++
    [.stageReport runA { dayStaged with outputPath := dayPath } (dayInstant 36120)])).db
  files _ := none

def firstPublication : Publishing Text :=
  publish (lit "reports") runA (dayInstant 36240) (lit "2026-10-15 10:04:00")

end First

/-! ### A later publication of the date -/

section Second

/-- The text of the first publication. -/
def oldMarkdown : Text := ['b', Char.ofNat 10]

def oldDigest : Text := lit "0263829989b6fd954f72baaf2fc64bc2e2f01d692d4de72986ea808f6e99813f"

@[reducible] def twoSha256 : Sha256 where
  hex text :=
    if text = dayMarkdown then markdownDigest else if text = oldMarkdown then oldDigest else []

local instance secondChrono : Chrono := utcClock
local instance secondSha256 : Sha256 := twoSha256
local instance secondRules : ReportRules := noRules
local instance secondAttachments : AttachmentRules := noAttachments
local instance secondNames : FreshNames := oneName

end Second

end DailyReport.Reports
