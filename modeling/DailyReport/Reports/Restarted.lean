import DailyReport.Reports.PublisherSafe

/-!
# A publication that is stopped and started again

* `publish_restarted` : **a publication that nobody disturbs may be stopped before any of its
  operations, as often as it may be, and started again: from every state that it leaves, it
  succeeds**; then its file and its evidence are there, and the run is the published one.
-/

namespace DailyReport.Reports

open Lib Relation

/-! ### The run that is published -/

section

variable [Chrono] {run : RunRecord} {now : ℤ} {databaseNow : Text}

/-- The row of the run after its publication. -/
theorem find?_publishedRuns {runs : List RunRecord}
    (hfound : runs.find? (ofRun run.runId) = some run) :
    (publishedRuns run now runs).find? (ofRun run.runId) = some (run.publish now) := by
  have hpublished : (updateWhere (ofRun run.runId) (RunRecord.publish now) runs).find?
      (ofRun run.runId) = some (run.publish now) := by
    rw [find?_updateWhere (f := RunRecord.publish now) fun _ => rfl, hfound]
    simp
  unfold publishedRuns
  dsimp only
  split_ifs
  · have hother : supersededBy run (run.publish now) = false := by simp [supersededBy, RunRecord.publish]
    rw [find?_updateWhere (f := RunRecord.supersede now) fun _ => rfl, hpublished]
    simp [hother]
  · exact hpublished

/-- The database after the publication of a run. -/
def publishedDaily (db : Db) (run : RunRecord) (report : ReportDocument) (version now : ℤ)
    (databaseNow : Text) : Db :=
  { db with
    dailyReports :=
      upsertDaily (run.dailyRow report version) databaseNow (Chrono.timestamp now) db.dailyReports
    runs := publishedRuns run now db.runs }

theorem markDailyPublished_ok {db : Db} {report : ReportDocument} {version : ℤ} {verified : Text}
    (hfound : db.findRun run.runId = some run) (hphase : run.phase = .dbCommitted)
    (hdigest : run.expectedSha256 = some verified)
    (hcurrent : db.currentRunId run.targetDate = run.previousRunId)
    (hreport : run.reportJson = some report) (hversion : report.schemaVersion = some version) :
    markDailyPublished db run.runId verified now databaseNow =
      .ok (publishedDaily db run report version now databaseNow) := by
  unfold markDailyPublished
  refine bind_eq_ok.2 ⟨run, readRun_eq_ok.2 hfound, ?_⟩
  refine bind_eq_ok.2 ⟨(), ensure_eq_ok.2 ⟨hphase, hdigest⟩, ?_⟩
  refine bind_eq_ok.2 ⟨(), ensure_eq_ok.2 hcurrent, ?_⟩
  refine bind_eq_ok.2 ⟨report, by rw [stagedReport, hreport], ?_⟩
  rw [hversion]
  rfl

end

section Restarted

variable [Chrono] [Sha256] [ReportRules] [AttachmentRules]

/-! ### What can be published -/

section

variable (root : Text) (output : ReportFile) (body : Text) (evidence : Option (Text × EvidenceAttachment))

def evidencePath (date sha256 : Text) : Text := joinPath output.dir (attachmentLink date sha256)

/-- The run of the report is staged or published, and its date has the run it was staged on. -/
structure Staged (run : RunRecord) (db : Db) : Prop where
  dates : (db.dailyReports.map DailyReportRow.date).Nodup
  found : db.findRun run.runId = some run
  kind : run.runKind = lit "report"
  phase : run.phase = .dbCommitted ∨ run.phase = .published
  markdown : run.markdown = some body
  nonempty : body ≠ []
  digest : run.expectedSha256 = some (Sha256.hex body)
  report : ∃ report version, run.reportJson = some report ∧ report.schemaVersion = some version
  attachment : attachmentOf run = .ok evidence
  target : outputPath root run.targetDate = .ok output
  location : run.outputPath = some output.path
  uncaptured : run.errorCode ≠ some outputConflictCaptured
  current : db.currentRunId run.targetDate =
    if run.phase = .published then some run.runId else run.previousRunId
  currentFound : ∀ id, db.currentRunId run.targetDate = some id → (db.findRun id).isSome

/-- The evidence is not there, or it is as it should be. -/
def EvidenceFits (files : Text → Option Text) : Prop :=
  ∀ date attachment content, evidence = some (date, attachment) →
    files (evidencePath output date attachment.sha256) = some content →
      Sha256.hex content = attachment.sha256

/-- The evidence is there. -/
def EvidenceThere (files : Text → Option Text) : Prop :=
  ∀ date attachment, evidence = some (date, attachment) →
    (files (evidencePath output date attachment.sha256)).map Sha256.hex = some attachment.sha256

/-- There is no file, or the text of the run, or the version it may replace, for which there is a name
among the conflicts. -/
def FileFits [FreshNames] (run : RunRecord) (files : Text → Option Text) : Prop :=
  files output.path = none ∨ (files output.path).map Sha256.hex = some (Sha256.hex body) ∨
    (files output.path).map Sha256.hex = allowedVersion run ∧
      ∀ files', (∀ path, InConflicts root path → files' path = files path) →
        (FreshNames.fresh files' (backupPath root run)).isSome

structure Publishable [FreshNames] (run : RunRecord) (w : World) : Prop where
  staged : Staged root output body evidence run w.db
  evidence : EvidenceFits output evidence w.files
  file : FileFits root output body run w.files

/-- The report can be read, with its evidence, and its run is the published one. -/
structure Delivered (id : Text) (w : World) : Prop where
  file : (w.files output.path).map Sha256.hex = some (Sha256.hex body)
  evidence : EvidenceThere output evidence w.files
  run : ∃ run, w.db.findRun id = some run ∧ run.phase = .published ∧
    w.db.currentRunId run.targetDate = some id

end

/-- The publication is stopped somewhere. -/
def Interrupted [FreshNames] (root id : Text) (w w' : World) : Prop :=
  ∃ now databaseNow p,
    Interleaving .nobody (w, (publish root id now databaseNow).run) (w', p)

variable {root : Text} {output : ReportFile} {body : Text} {evidence : Option (Text × EvidenceAttachment)}
  {run : RunRecord} {w : World} {now : ℤ} {databaseNow : Text}

/-- The published run of the date is the run that has been published. -/
theorem Staged.published {db : Db} (h : Staged root output body evidence run db)
    (hphase : run.phase = .dbCommitted) :
    ∃ db', markPublished db run.runId (Sha256.hex body) now databaseNow = .ok db' ∧
      Staged root output body evidence (run.publish now) db' := by
  obtain ⟨report, version, hreport, hversion⟩ := h.report
  have hprevious : db.currentRunId run.targetDate = run.previousRunId := by
    rw [h.current, if_neg (by simp [hphase])]
  have hkind : run.runKind ∉ [lit "weekly", lit "monthly"] := by
    rw [h.kind]
    decide +kernel
  have hmark : markPublished db run.runId (Sha256.hex body) now databaseNow =
      .ok (publishedDaily db run report version now databaseNow) := by
    refine bind_eq_ok.2 ⟨run, readRun_eq_ok.2 h.found, ?_⟩
    rw [if_neg hkind]
    exact markDailyPublished_ok h.found hphase h.digest hprevious hreport hversion
  have hdates : ((publishedDaily db run report version now databaseNow).dailyReports.map
      DailyReportRow.date).Nodup := upsertDaily_dates_nodup (run.dailyRow report version) databaseNow
    (Chrono.timestamp now) h.dates
  have hfound : (publishedRuns run now db.runs).find? (ofRun run.runId) = some (run.publish now) :=
    find?_publishedRuns h.found
  have hcurrent : (publishedDaily db run report version now databaseNow).currentRunId
      run.targetDate = some run.runId := by
    obtain ⟨time, hrow⟩ := exists_mem_upsertDaily (run.dailyRow report version) databaseNow
      (Chrono.timestamp now) db.dailyReports
    exact currentRunId_of_mem hdates hrow
  refine ⟨_, hmark, hdates, hfound, h.kind, .inr rfl, h.markdown, h.nonempty, h.digest, h.report,
    h.attachment, h.target, h.location, nofun, hcurrent, fun id hid => ?_⟩
  obtain rfl := Option.some.inj (hcurrent.symm.trans hid)
  exact Option.isSome_iff_exists.2 ⟨_, hfound⟩

/-! ### Operations -/

section

variable {I : World → Prop} {path : Text}

omit [Chrono] [ReportRules] [AttachmentRules] in
theorem completes_outputHash {Q : Option Text → World → Prop} (hI : I w)
    (h : Q ((w.files path).map Sha256.hex) w) : Completes I Q (outputHash path) w :=
  .atomic hI h

omit [Chrono] [Sha256] [ReportRules] [AttachmentRules] in
theorem completes_readStore {α : Type} {Q : α → World → Prop} {f : Db → Except ReportError α} {a : α}
    (hf : f w.db = .ok a) (hI : I w) (h : Q a w) : Completes I Q (readStore f) w :=
  .atomicExcept (congrArg (·, w) hf) hI h

omit [Chrono] [Sha256] [ReportRules] [AttachmentRules] in
theorem completes_writeStore {Q : Unit → World → Prop} {f : Db → Except ReportError Db} {db : Db}
    (hf : f w.db = .ok db) (hI : I { w with db }) (h : Q () { w with db }) :
    Completes I Q (writeStore f) w := by
  refine .atomicExcept ?_ hI h
  rw [hf]

omit [Chrono] [Sha256] [ReportRules] [AttachmentRules] in
theorem completes_reserveBackup [FreshNames] {Q : Text → World → Prop} {random : Text}
    (hrandom : FreshNames.fresh w.files (backupPath root run) = some random) (hI : I w)
    (h : Q (backupPath root run random) w) : Completes I Q (reserveBackup root run) w := by
  refine .atomicExcept ?_ hI h
  rw [hrandom]

omit [Chrono] [Sha256] [ReportRules] [AttachmentRules] in
theorem completes_replaceWithBackup {Q : Unit → World → Prop} {content backup old : Text}
    (hfile : w.files path = some old)
    (hI : I { w with
      files := Function.update (Function.update w.files backup (some old)) path (some content) })
    (h : Q () { w with
      files := Function.update (Function.update w.files backup (some old)) path (some content) }) :
    Completes I Q (replaceWithBackup path content backup) w := by
  refine .atomicExcept ?_ hI h
  rw [hfile]

omit [Chrono] [Sha256] [ReportRules] [AttachmentRules] in
theorem completes_demand {Q : Unit → World → Prop} {p : Prop} [Decidable p] {code message : String}
    (hp : p) (h : Q () w) : Completes I Q (demand p code message) w :=
  .ofExcept (ensure_eq_ok.2 hp) h

omit [Chrono] [Sha256] [ReportRules] [AttachmentRules] in
theorem completes_createNew {Q : Bool → World → Prop} {content : Text} (hfile : w.files path = none)
    (hI : I { w with files := Function.update w.files path (some content) })
    (h : Q true { w with files := Function.update w.files path (some content) }) :
    Completes I Q (createNew path content) w := by
  have hnone : (w.files path).isNone := by simp [hfile]
  refine .atomic ?_ ?_
  · simpa [hnone] using hI
  · simpa [hnone] using h

end

/-! ### The evidence -/

omit [Chrono] [Sha256] [ReportRules] [AttachmentRules] in
/-- The evidence is not the file of the report, which is named after a date. -/
theorem evidencePath_ne (h : outputPath root run.targetDate = .ok output) (date sha256 : Text) :
    evidencePath output date sha256 ≠ output.path := by
  obtain ⟨_, hdate, hout⟩ := bind_eq_ok.1 h
  obtain rfl := Except.ok.inj hout
  obtain ⟨c, rest, hdate, hdigit⟩ := head_of_isDate (ensure_eq_ok.1 hdate)
  have hlit : lit "attachments/" = 'a' :: lit "ttachments/" := by decide +kernel
  intro heq
  have hname := List.append_cancel_left heq
  rw [List.cons.injEq, attachmentLink, hlit, hdate] at hname
  rw [← (List.cons.inj hname.2).1] at hdigit
  exact absurd hdigit (by decide)

/-! ### The evidence and the file -/

variable [FreshNames] {existing : Option Text}

/-- Every world on the way is one that the run can be published from. -/
def OnTheWay (root : Text) (output : ReportFile) (body : Text)
    (evidence : Option (Text × EvidenceAttachment)) (id : Text) (w : World) : Prop :=
  ∃ run, run.runId = id ∧ Publishable root output body evidence run w

omit [Chrono] [ReportRules] [AttachmentRules] in
theorem FileFits.congr {files files' : Text → Option Text} (h : FileFits root output body run files)
    (htarget : files' output.path = files output.path)
    (hconflicts : ∀ path, InConflicts root path → files' path = files path) :
    FileFits root output body run files' := by
  unfold FileFits at h ⊢
  rw [htarget]
  refine h.imp_right (Or.imp_right (And.imp_right fun hnames other hother => ?_))
  exact hnames other fun path hpath => (hother path hpath).trans (hconflicts path hpath)

omit [Chrono] [FreshNames] in
theorem Staged.targetOf {db : Db} (h : Staged root output body evidence run db) :
    targetOf root run = .ok output := by
  have hkind : run.runKind ∉ [lit "weekly", lit "monthly"] := by
    rw [h.kind]
    decide +kernel
  rw [Reports.targetOf, if_neg hkind, h.target]

omit [Chrono] in
theorem completes_publishAttachment {Q : Unit → World → Prop}
    (h : Publishable root output body evidence run w)
    (hQ : ∀ files, Publishable root output body evidence run { w with files } →
      files output.path = w.files output.path → EvidenceThere output evidence files →
        Q () { w with files }) :
    Completes (OnTheWay root output body evidence run.runId) Q (publishAttachment run output) w := by
  have hI : OnTheWay root output body evidence run.runId w := ⟨run, rfl, h⟩
  refine .bind (.ofExcept h.staged.attachment ?_)
  cases evidence with
  | none => exact .pure (hQ w.files h rfl nofun)
  | some found =>
    obtain ⟨date, attachment⟩ := found
    dsimp only
    have hpath : joinPath output.dir (attachmentLink date attachment.sha256) =
        evidencePath output date attachment.sha256 := rfl
    refine .bind (completes_outputHash hI ?_)
    rw [hpath]
    cases hfile : w.files (evidencePath output date attachment.sha256) with
    | some content =>
      have hhash := h.evidence date attachment content rfl hfile
      refine completes_demand hhash (hQ w.files h rfl ?_)
      rintro _ _ ⟨⟩
      rw [hfile, Option.map_some, hhash]
    | none =>
      have hne := evidencePath_ne h.staged.target date attachment.sha256
      set files := Function.update w.files (evidencePath output date attachment.sha256)
        (some attachment.markdown) with hfiles
      have hself : files (evidencePath output date attachment.sha256) = some attachment.markdown :=
        Function.update_self ..
      have htarget : files output.path = w.files output.path := Function.update_of_ne hne.symm ..
      have hthere : EvidenceThere output (some (date, attachment)) files := by
        rintro _ _ ⟨⟩
        rw [hself, Option.map_some, attachment.digest]
      have hready : Publishable root output body (some (date, attachment)) run { w with files } := by
        refine ⟨h.staged, ?_, ?_⟩
        · rintro _ _ content ⟨⟩ hcontent
          obtain rfl := Option.some.inj (hself.symm.trans hcontent)
          exact attachment.digest
        · refine h.file.congr htarget fun path hpath => Function.update_of_ne ?_ ..
          rintro rfl
          exact targetOf_outside h.staged.targetOf _ hpath
      refine .bind (completes_createNew hfile ⟨run, rfl, hready⟩ ?_)
      refine .bind (completes_outputHash ⟨run, rfl, hready⟩ ?_)
      exact completes_demand (hthere date attachment rfl) (hQ files hready htarget hthere)

/-- Bring the text to the file, when it is not there. -/
theorem completes_writeFile {Q : Unit → World → Prop}
    (h : Publishable root output body evidence run w) (hthere : EvidenceThere output evidence w.files)
    (hexisting : existing = (w.files output.path).map Sha256.hex)
    (hother : existing ≠ some (Sha256.hex body))
    (hQ : ∀ files, Publishable root output body evidence run { w with files } →
      files output.path = some body → EvidenceThere output evidence files → Q () { w with files }) :
    Completes (OnTheWay root output body evidence run.runId) Q
      (writeFile root run output.path body existing now) w := by
  have houtside := targetOf_outside h.staged.targetOf
  have hne := evidencePath_ne h.staged.target
  -- The file has the text, and the evidence is as before.
  have hready (files : Text → Option Text) (hfile : files output.path = some body)
      (hevidence : ∀ date sha256, files (evidencePath output date sha256) =
        w.files (evidencePath output date sha256)) :
      Publishable root output body evidence run { w with files } ∧
        EvidenceThere output evidence files := by
    refine ⟨⟨h.staged, ?_, .inr (.inl (congrArg _ hfile))⟩, ?_⟩
    · intro date attachment content heq hcontent
      exact h.evidence date attachment content heq ((hevidence ..).symm.trans hcontent)
    · intro date attachment heq
      rw [hevidence]
      exact hthere date attachment heq
  rcases hfile : w.files output.path with _ | old
  · subst hexisting
    rw [writeFile, hfile, Option.map_none, if_pos Option.isNone_none]
    have hupdated := hready (Function.update w.files output.path (some body))
      (Function.update_self ..) fun date sha256 => Function.update_of_ne (hne date sha256) ..
    refine .bind (completes_createNew hfile ⟨run, rfl, hupdated.1⟩ ?_)
    exact .pure (hQ _ hupdated.1 (Function.update_self ..) hupdated.2)
  · rw [hfile, Option.map_some] at hexisting
    obtain ⟨hallowed, hnames⟩ : existing = allowedVersion run ∧ ∀ files',
        (∀ path, InConflicts root path → files' path = w.files path) →
          (FreshNames.fresh files' (backupPath root run)).isSome := by
      rcases h.file with hnone | hbody | ⟨hallowed, hnames⟩
      · rw [hfile] at hnone
        cases hnone
      · rw [hfile, Option.map_some] at hbody
        exact absurd (hexisting.trans hbody) hother
      · rw [hfile, Option.map_some] at hallowed
        exact ⟨hexisting.trans hallowed, hnames⟩
    obtain ⟨random, hrandom⟩ := Option.isSome_iff_exists.1 (hnames w.files fun _ _ => rfl)
    have hbackup : InConflicts root (backupPath root run random) := inConflicts_join _
    have hbackupNe : backupPath root run random ≠ output.path := by
      intro heq
      rw [heq] at hbackup
      exact houtside output.name hbackup
    rw [writeFile, hexisting, if_neg (by simp)]
    refine .bind (completes_reserveBackup hrandom ⟨run, rfl, h⟩ ?_)
    set files := Function.update (Function.update w.files (backupPath root run random) (some old))
      output.path (some body) with hfiles
    have hmoved : files (backupPath root run random) = some old := by
      rw [hfiles, Function.update_of_ne hbackupNe, Function.update_self]
    have hupdated := hready files (Function.update_self ..) fun date sha256 => by
      have hevidence : evidencePath output date sha256 ≠ backupPath root run random := by
        intro heq
        rw [← heq] at hbackup
        exact houtside _ hbackup
      rw [hfiles, Function.update_of_ne (hne date sha256), Function.update_of_ne hevidence]
    refine .bind (completes_replaceWithBackup hfile ⟨run, rfl, hupdated.1⟩ ?_)
    refine .bind (completes_outputHash ⟨run, rfl, hupdated.1⟩ ?_)
    exact .ite_pos (congrArg (Option.map Sha256.hex) hmoved)
      (.pure (hQ files hupdated.1 (Function.update_self ..) hupdated.2))

/-- The run is published, unless it was. -/
theorem completes_finish (h : Publishable root output body evidence run w)
    (hthere : EvidenceThere output evidence w.files)
    (hfile : (w.files output.path).map Sha256.hex = some (Sha256.hex body)) :
    Completes (OnTheWay root output body evidence run.runId)
      (fun path w => path = output.path ∧ Delivered output body evidence run.runId w)
      (do finishPublication run (Sha256.hex body) now databaseNow; pure output.path) w := by
  rcases h.staged.phase with hphase | hphase
  · obtain ⟨db', hmark, hstaged⟩ :
        ∃ db', markPublished w.db run.runId (Sha256.hex body) now databaseNow = .ok db' ∧
          Staged root output body evidence (run.publish now) db' := h.staged.published hphase
    rw [finishPublication, if_pos hphase]
    refine .bind (completes_writeStore hmark ?_ ?_)
    · exact ⟨run.publish now, rfl, hstaged, h.evidence, .inr (.inl hfile)⟩
    · exact .pure ⟨rfl, hfile, hthere, run.publish now, hstaged.found, rfl, hstaged.current⟩
  · rw [finishPublication, if_neg (by simp [hphase])]
    refine .bind (.pure (.pure ⟨rfl, hfile, hthere, run, h.staged.found, hphase, ?_⟩))
    rw [h.staged.current, if_pos hphase]

omit [Chrono] [FreshNames] in
/-- The published run of the date, which the run of the report replaces or is. -/
theorem Staged.publicationCurrent {db : Db} (h : Staged root output body evidence run db) :
    ∃ current, publicationCurrent db run = .ok current ∧ current.map RunRecord.runId =
      if run.phase = .published then some run.runId else run.previousRunId := by
  have hkind : run.runKind ∉ [lit "weekly", lit "monthly"] := by
    rw [h.kind]
    decide +kernel
  refine ⟨(db.currentRunId run.targetDate).bind db.findRun, ?_, ?_⟩
  · rw [Reports.publicationCurrent, if_neg hkind]
  · rw [← h.current]
    cases hid : db.currentRunId run.targetDate with
    | none => rfl
    | some id =>
      obtain ⟨current, hcurrent⟩ := Option.isSome_iff_exists.1 (h.currentFound id hid)
      rw [Option.bind_some, hcurrent, Option.map_some, (findRun_eq_some hcurrent).2]

theorem completes_placeFile (h : Publishable root output body evidence run w)
    (hexisting : existing = (w.files output.path).map Sha256.hex)
    (hother : existing ≠ some (Sha256.hex body)) :
    Completes (OnTheWay root output body evidence run.runId)
      (fun path w => path = output.path ∧ Delivered output body evidence run.runId w)
      (placeFile root run output body existing now databaseNow) w := by
  have hallowed : ¬ (existing.isSome ∧ existing ≠ allowedVersion run) := by
    rintro ⟨hsome, hne⟩
    rw [hexisting] at hsome hne hother
    rcases h.file with hnone | hbody | ⟨hallowed, -⟩
    · rw [hnone] at hsome
      cases hsome
    · exact hother hbody
    · exact hne hallowed
  refine .ite_neg hallowed (.bind (completes_publishAttachment h fun files hready htarget hthere => ?_))
  -- The file is as it was before the evidence came.
  have hagain : existing = (files output.path).map Sha256.hex := by rw [htarget, hexisting]
  refine .bind (completes_outputHash ⟨run, rfl, hready⟩ (.ite_neg (not_not.2 hagain.symm) (.bind ?_)))
  refine completes_writeFile hready hthere hagain hother fun files hready hfile hthere => ?_
  have hhash : (files output.path).map Sha256.hex = some (Sha256.hex body) := congrArg _ hfile
  refine .bind (completes_outputHash ⟨run, rfl, hready⟩ (.ite_neg (not_not.2 ?_) ?_))
  · rw [h.staged.digest]
    exact hhash
  · exact completes_finish hready hthere hhash

theorem completes_publish (h : Publishable root output body evidence run w) :
    Completes (OnTheWay root output body evidence run.runId)
      (fun path w => path = output.path ∧ Delivered output body evidence run.runId w)
      (publish root run.runId now databaseNow) w := by
  have hI : OnTheWay root output body evidence run.runId w := ⟨run, rfl, h⟩
  have hbody : run.markdown.getD [] = body := by rw [h.staged.markdown, Option.getD_some]
  obtain ⟨current, hcurrent, hexpected⟩ := h.staged.publicationCurrent
  refine .bind (completes_readStore (readRun_eq_ok.2 h.staged.found) hI ?_)
  rw [hbody]
  refine .bind (completes_demand ⟨h.staged.phase, h.staged.nonempty⟩ ?_)
  refine .bind (.ofExcept h.staged.targetOf ?_)
  refine .bind (completes_demand h.staged.location ?_)
  refine .bind (completes_demand h.staged.digest.symm ?_)
  refine .bind (completes_readStore hcurrent hI ?_)
  refine .bind (completes_demand hexpected ?_)
  refine .bind (completes_outputHash hI ?_)
  refine .bind (completes_demand (fun hcaptured => h.staged.uncaptured hcaptured.1) ?_)
  rw [h.staged.digest]
  by_cases hfile : (w.files output.path).map Sha256.hex = some (Sha256.hex body)
  · refine .ite_pos hfile (.bind (completes_publishAttachment h fun files hready htarget hthere => ?_))
    exact completes_finish hready hthere ((congrArg _ htarget).trans hfile)
  · exact .ite_neg hfile (completes_placeFile h rfl hfile)

/-- A publication that nobody disturbs, stopped anywhere and started again as often as may be,
succeeds. -/
theorem publish_restarted (h : Publishable root output body evidence run w) {w' : World}
    (hstops : ReflTransGen (Interrupted root run.runId) w w') :
    ((publish root run.runId now databaseNow).run.alone w').1 = .ok output.path ∧
      Delivered output body evidence run.runId
        ((publish root run.runId now databaseNow).run.alone w').2 := by
  -- every publication starts on the way, and leaves what is on the way
  have hway : OnTheWay root output body evidence run.runId w' := by
    induction hstops with
    | refl => exact ⟨run, rfl, h⟩
    | tail _ hstop ih =>
      obtain ⟨now, databaseNow, p, hrun⟩ := hstop
      obtain ⟨current, hid, hready⟩ := ih
      rw [← hid] at hrun ⊢
      exact (completes_publish hready).run ⟨current, rfl, hready⟩ hrun
  obtain ⟨current, hid, hready⟩ := hway
  rw [← hid]
  have hcompletes : Completes (OnTheWay root output body evidence current.runId)
      (fun path w => path = output.path ∧ Delivered output body evidence current.runId w)
      (publish root current.runId now databaseNow) w' := completes_publish hready
  obtain ⟨path, hok, rfl, hdelivered⟩ := hcompletes.alone
  exact ⟨hok, hdelivered⟩

end Restarted

/-! ### A stop before the end -/

section Stopped

local instance restartedChrono : Chrono := utcClock
local instance restartedSha256 : Sha256 := markdownSha256
local instance restartedRules : ReportRules := noRules
local instance restartedAttachments : AttachmentRules := noAttachments
local instance restartedNames : FreshNames := oneName

/-- The publication has linked its file when it is stopped. -/
def stoppedWorld : World := (firstPublication.run.after 5 stagedWorld).1

def dayOutput : ReportFile := ⟨lit "reports\\2026-10", lit "2026-10-15.md"⟩

/-- What is staged. -/
def isDayRun (run : RunRecord) : Bool :=
  decide (run.runId = runA ∧ run.runKind = lit "report" ∧ run.phase = .dbCommitted ∧
    run.markdown = some dayMarkdown ∧ run.expectedSha256 = some markdownDigest ∧
    run.reportJson = some dayReport ∧ run.targetDate = octoberDay ∧ run.outputPath = some dayPath ∧
    run.errorCode = none ∧ run.previousRunId = none)

theorem publish_restarted_first :
    stoppedWorld.files dayPath = some dayMarkdown ∧ stoppedWorld.db.currentRunId octoberDay = none ∧
      (firstPublication.run.alone stoppedWorld).1 = .ok dayPath ∧
      Delivered dayOutput dayMarkdown none runA (firstPublication.run.alone stoppedWorld).2 := by
  have hworld : stagedWorld.db.dailyReports = [] ∧ (stagedWorld.db.findRun runA).any isDayRun = true ∧
      outputPath (lit "reports") octoberDay = .ok dayOutput ∧ dayOutput.path = dayPath := by
    decide +kernel
  obtain ⟨hdaily, hany, htarget, hpath⟩ := hworld
  obtain ⟨run, hfound, hrun⟩ := (Option.any_eq_true _ _).1 hany
  obtain ⟨hid, hkind, hphase, hmarkdown, hdigest, hreport, hdate, hlocation, herror, hprevious⟩ :=
    of_decide_eq_true hrun
  have hcurrent : stagedWorld.db.currentRunId run.targetDate = none := by
    rw [Db.currentRunId, hdaily]
    rfl
  have hstaged : Staged (lit "reports") dayOutput dayMarkdown none run stagedWorld.db := {
    dates := by
      rw [hdaily]
      exact .nil
    found := hid ▸ hfound
    kind := hkind
    phase := .inl hphase
    markdown := hmarkdown
    nonempty := by decide
    digest := hdigest
    report := ⟨dayReport, 4, hreport, rfl⟩
    attachment := by
      rw [attachmentOf, hreport]
      rfl
    target := hdate ▸ htarget
    location := hlocation.trans (congrArg some hpath.symm)
    uncaptured := by
      rw [herror]
      intro hcaptured
      cases hcaptured
    current := by
      rw [hcurrent, if_neg (by simp [hphase]), hprevious]
    currentFound := by
      intro id hcurrentId
      rw [hcurrent] at hcurrentId
      cases hcurrentId }
  have hevidence : EvidenceFits dayOutput none stagedWorld.files := by
    intro date attachment content hnone
    cases hnone
  have hready : Publishable (lit "reports") dayOutput dayMarkdown none run stagedWorld :=
    ⟨hstaged, hevidence, .inl rfl⟩
  have hstop : Interrupted (lit "reports") runA stagedWorld stoppedWorld :=
    ⟨_, _, _, interleaving_after .nobody 5 firstPublication.run stagedWorld⟩
  rw [← hid] at hstop
  have hagain : ((publish (lit "reports") run.runId (dayInstant 36240)
        (lit "2026-10-15 10:04:00")).run.alone stoppedWorld).1 = .ok dayOutput.path ∧
      Delivered dayOutput dayMarkdown none run.runId ((publish (lit "reports") run.runId
        (dayInstant 36240) (lit "2026-10-15 10:04:00")).run.alone stoppedWorld).2 :=
    publish_restarted hready (.single hstop)
  rw [hid, hpath] at hagain
  have hstopped : stoppedWorld.files dayPath = some dayMarkdown ∧
      stoppedWorld.db.currentRunId octoberDay = none := by
    decide +kernel
  exact ⟨hstopped.1, hstopped.2, hagain⟩

end Stopped

end DailyReport.Reports
