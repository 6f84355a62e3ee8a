import DailyReport.Contract.Records
import DailyReport.Lib.Greedy
import DailyReport.Lib.Separated
import DailyReport.Lib.Sort
import Mathlib.Data.List.Lex
import Mathlib.Algebra.BigOperators.Group.List.Lemmas
import Mathlib.Data.List.Dedup
import Mathlib.Data.Prod.Lex

/-!
# The bounded list of warnings

A run stores at most 256 warnings in detail.  `projectWarnings` keeps the first 256 by position and
folds the others into one row, which counts them by stage, code and retryability
(`aggregateWarning`).

* `warnings_survive_iff` : **exactly when run-level warnings survive**: a run-level warning that
  lies behind 256 others is folded, even where the others belong to single files.
-/

namespace DailyReport

open Lib

inductive DiagnosticSeverity
  | warning
  | error
  deriving DecidableEq, Repr

/-- A diagnostic of a run. -/
structure RunDiagnosticRecord where
  severity : DiagnosticSeverity
  diagnostic : Diagnostic
  deriving DecidableEq

/-- The warning of a run that its deadline stopped. -/
def deadlineWarning : Diagnostic where
  errorCode := .stageDeadlineExhausted
  message := lit "work deadline exhausted; remaining work stopped"
  retryable := true
  stage := .parse
  filePath := none
  backend := none

/-- A diagnostic as a warning. -/
def RunDiagnosticRecord.warning (diagnostic : Diagnostic) : RunDiagnosticRecord :=
  ⟨.warning, diagnostic⟩

def RunDiagnosticRecord.isError (record : RunDiagnosticRecord) : Bool :=
  decide (record.severity = .error)

/-! ### Folding -/

/-- What folded diagnostics are counted by: stage, code and retryability. -/
abbrev DiagnosticKey := Text × Text × Bool

def Diagnostic.groupKey (d : Diagnostic) : DiagnosticKey :=
  (d.stage.wireName, d.errorCode.wireName, d.retryable)

/-- The folded diagnostics with one key. -/
structure DiagnosticGroup where
  key : DiagnosticKey
  count : ℕ
  deriving DecidableEq

/-- The groups in the order of their keys. -/
def diagnosticGroups (folded : List RunDiagnosticRecord) : List DiagnosticGroup :=
  let keys := folded.map fun record => record.diagnostic.groupKey
  (sortByKey (fun key : DiagnosticKey => toLex (key.1, toLex key.2)) keys.dedup).map fun key =>
    ⟨key, keys.count key⟩

def boolText : Bool → Text
  | true => lit "true"
  | false => lit "false"

def DiagnosticGroup.part (group : DiagnosticGroup) : Text :=
  group.key.1 ++ lit ":" ++ group.key.2.1 ++ lit ":retryable=" ++ boolText group.key.2.2 ++
    lit ":" ++ decimal group.count

/-- Characters a part takes with its comma. -/
def DiagnosticGroup.cost (group : DiagnosticGroup) : ℕ := countChars group.part + 1

/-- The groups that are listed: each while the parts before it leave room in 4096 characters. -/
def groupFill (folded : List RunDiagnosticRecord) : Fill DiagnosticGroup :=
  fillWithin DiagnosticGroup.cost 4097 0 (diagnosticGroups folded)

/-- The piece about the diagnostics whose groups are not listed. -/
def otherPart (count : ℕ) : Text := lit "other:" ++ decimal count

def aggregateParts (groups : List DiagnosticGroup) (otherCount : ℕ) : List Text :=
  groups.map DiagnosticGroup.part ++ if otherCount > 0 then [otherPart otherCount] else []

/-- The message about `total` folded diagnostics, some of them in listed groups. -/
def aggregateText (total : ℕ) (groups : List DiagnosticGroup) (otherCount : ℕ) : Text :=
  lit "aggregated " ++ decimal total ++ lit " diagnostics: " ++
    joinWith (lit ",") (aggregateParts groups otherCount)

/-- The message about the folded diagnostics, before it is cut. -/
def aggregateMessage (folded : List RunDiagnosticRecord) : Text :=
  aggregateText folded.length (groupFill folded).taken
    ((groupFill folded).skipped.map DiagnosticGroup.count).sum

def aggregateWarning (folded : List RunDiagnosticRecord) : RunDiagnosticRecord :=
  .warning {
    errorCode := .diagnosticsAggregated
    message := (aggregateMessage folded).take 4096
    retryable := folded.any fun record => record.diagnostic.retryable
    stage := .internal
    filePath := none
    backend := none }

/-- Keep 256 warnings, fold the others into one row; errors pass through. -/
def projectWarnings (diagnostics : List RunDiagnosticRecord) : List RunDiagnosticRecord :=
  let errors := diagnostics.filter RunDiagnosticRecord.isError
  let warnings := diagnostics.filter fun record => !record.isError
  if warnings.length ≤ 256 then warnings ++ errors
  else warnings.take 256 ++ [aggregateWarning (warnings.drop 256)] ++ errors

section Groups

variable {folded : List RunDiagnosticRecord}

/-- The keys of the folded diagnostics. -/
def groupKeys (folded : List RunDiagnosticRecord) : List DiagnosticKey :=
  folded.map fun record => record.diagnostic.groupKey

theorem diagnosticGroups_perm (folded : List RunDiagnosticRecord) :
    (diagnosticGroups folded).Perm
      ((groupKeys folded).dedup.map fun key => ⟨key, (groupKeys folded).count key⟩) :=
  (sortByKey_perm _ _).map _

theorem groupCount_sum (folded : List RunDiagnosticRecord) :
    ((diagnosticGroups folded).map DiagnosticGroup.count).sum = folded.length := by
  rw [((diagnosticGroups_perm folded).map DiagnosticGroup.count).sum_eq, List.map_map]
  have hsum := List.sum_map_count_dedup_eq_length (groupKeys folded)
  rw [show (groupKeys folded).length = folded.length from List.length_map _] at hsum
  rw [← hsum]
  congr 2
  funext key
  simp only [Function.comp_apply]
  congr 1
  exact lawful_beq_subsingleton _ _

theorem mem_diagnosticGroups {group : DiagnosticGroup} :
    group ∈ diagnosticGroups folded ↔
      group.key ∈ groupKeys folded ∧ group.count = (groupKeys folded).count group.key := by
  rw [(diagnosticGroups_perm folded).mem_iff]
  obtain ⟨key, count⟩ := group
  simp only [List.mem_map, List.mem_dedup, DiagnosticGroup.mk.injEq]
  constructor
  · rintro ⟨k, hk, rfl, rfl⟩
    exact ⟨hk, rfl⟩
  · rintro ⟨hk, rfl⟩
    exact ⟨key, hk, rfl, rfl⟩

theorem nodup_diagnosticGroups (folded : List RunDiagnosticRecord) :
    (diagnosticGroups folded).Nodup := by
  refine (diagnosticGroups_perm folded).nodup_iff.2 ((List.nodup_dedup _).map ?_)
  intro key key' h
  exact congrArg DiagnosticGroup.key h

theorem count_pos_of_mem {group : DiagnosticGroup} (h : group ∈ diagnosticGroups folded) :
    0 < group.count := by
  obtain ⟨hkey, hcount⟩ := mem_diagnosticGroups.1 h
  rw [hcount]
  exact List.count_pos_iff.2 hkey

theorem diagnosticGroups_congr {folded' : List RunDiagnosticRecord} (h : folded.Perm folded') :
    (diagnosticGroups folded).Perm (diagnosticGroups folded') := by
  have hkeys : (groupKeys folded).Perm (groupKeys folded') := h.map _
  refine (List.perm_ext_iff_of_nodup (nodup_diagnosticGroups _) (nodup_diagnosticGroups _)).2 ?_
  intro group
  rw [mem_diagnosticGroups, mem_diagnosticGroups, hkeys.mem_iff, hkeys.count_eq]

end Groups

/-! ### Counting -/

/-- The message counts every folded diagnostic once: with its group, or among the others. -/
def CountsOnce (message : Text) (folded : List RunDiagnosticRecord) : Prop :=
  ∃ listed unlisted, (listed ++ unlisted).Perm (diagnosticGroups folded) ∧
    message = aggregateText folded.length listed (unlisted.map DiagnosticGroup.count).sum

theorem CountsOnce.congr {message : Text} {folded folded' : List RunDiagnosticRecord}
    (h : folded.Perm folded') (hcounts : CountsOnce message folded) :
    CountsOnce message folded' := by
  obtain ⟨listed, unlisted, hperm, rfl⟩ := hcounts
  exact ⟨listed, unlisted, hperm.trans (diagnosticGroups_congr h), by rw [h.length_eq]⟩

theorem ErrorCode.comma_notMem_wireName (code : ErrorCode) : ',' ∉ code.wireName := by
  cases code <;> decide +kernel

theorem DiagnosticStage.wireName_shape (stage : DiagnosticStage) :
    ',' ∉ stage.wireName ∧ stage.wireName.head? ≠ some 'o' ∧ stage.wireName ≠ [] := by
  cases stage <;> decide +kernel

theorem comma_notMem_otherPart (count : ℕ) : ',' ∉ otherPart count := by
  have hdigits : ',' ∉ decimal count := notMem_decimal (by decide) count
  simpa [otherPart, lit_eq] using hdigits

theorem head?_otherPart (count : ℕ) : (otherPart count).head? = some 'o' := by
  simp [otherPart, lit_eq]

section Parts

variable {folded : List RunDiagnosticRecord} {group : DiagnosticGroup}

theorem exists_of_mem_groups (h : group ∈ diagnosticGroups folded) :
    ∃ d : Diagnostic, group.key = d.groupKey := by
  obtain ⟨record, -, hkey⟩ := List.mem_map.1 (mem_diagnosticGroups.1 h).1
  exact ⟨record.diagnostic, hkey.symm⟩

theorem comma_notMem_part (h : group ∈ diagnosticGroups folded) : ',' ∉ group.part := by
  obtain ⟨d, hd⟩ := exists_of_mem_groups h
  have hstage := (DiagnosticStage.wireName_shape d.stage).1
  have hcode := ErrorCode.comma_notMem_wireName d.errorCode
  have hbool : ',' ∉ boolText d.retryable := by cases d.retryable <;> decide +kernel
  have hdigits : ',' ∉ decimal group.count := notMem_decimal (by decide) group.count
  simp [DiagnosticGroup.part, hd, Diagnostic.groupKey, lit_eq, hstage, hcode, hbool, hdigits]

/-- A part starts with its stage, never as the piece about the others does. -/
theorem head?_part (h : group ∈ diagnosticGroups folded) : group.part.head? ≠ some 'o' := by
  obtain ⟨d, hd⟩ := exists_of_mem_groups h
  obtain ⟨-, hhead, hne⟩ := DiagnosticStage.wireName_shape d.stage
  simpa [DiagnosticGroup.part, hd, Diagnostic.groupKey, List.head?_append, hne] using hhead

theorem part_ne_nil (group : DiagnosticGroup) : group.part ≠ [] := by
  simp [DiagnosticGroup.part, lit_eq]

/-- A part shows the count of its group. -/
theorem count_eq_of_part_eq {group' : DiagnosticGroup} (h : group.part = group'.part) :
    group.count = group'.count := by
  have hcolon (n : ℕ) : ':' ∉ decimal n := notMem_decimal (by decide) n
  have hcut := eq_of_last_sep (hcolon group.count) (hcolon group'.count)
    (a := group.key.1 ++ lit ":" ++ group.key.2.1 ++ lit ":retryable=" ++ boolText group.key.2.2)
    (b := group'.key.1 ++ lit ":" ++ group'.key.2.1 ++ lit ":retryable=" ++ boolText group'.key.2.2)
    (by simpa [DiagnosticGroup.part, lit_eq] using h)
  exact decimal_injective hcut

theorem map_count_of_map_part {groups groups' : List DiagnosticGroup}
    (h : groups.map DiagnosticGroup.part = groups'.map DiagnosticGroup.part) :
    groups.map DiagnosticGroup.count = groups'.map DiagnosticGroup.count := by
  induction groups generalizing groups' with
  | nil => simp_all
  | cons group groups ih =>
    cases groups' with
    | nil => cases h
    | cons group' groups' =>
      obtain ⟨hpart, hrest⟩ := List.cons.inj h
      exact congrArg₂ List.cons (count_eq_of_part_eq hpart) (ih hrest)

end Parts

section Listing

variable {folded : List RunDiagnosticRecord} {listed unlisted : List DiagnosticGroup}

theorem count_of_listing (h : (listed ++ unlisted).Perm (diagnosticGroups folded)) :
    (listed.map DiagnosticGroup.count).sum + (unlisted.map DiagnosticGroup.count).sum =
      folded.length := by
  rw [← groupCount_sum folded, ← (h.map DiagnosticGroup.count).sum_eq, List.map_append,
    List.sum_append]

theorem unlisted_eq_nil (h : (listed ++ unlisted).Perm (diagnosticGroups folded))
    (hzero : ¬ (unlisted.map DiagnosticGroup.count).sum > 0) : unlisted = [] := by
  refine List.eq_nil_iff_forall_not_mem.2 fun group hgroup => hzero ?_
  have hpos := count_pos_of_mem (h.mem_iff.1 (List.mem_append_right listed hgroup))
  exact hpos.trans_le (List.single_le_sum (fun _ _ => Nat.zero_le _) _
    (List.mem_map_of_mem hgroup))

theorem aggregateParts_ne_nil (h : (listed ++ unlisted).Perm (diagnosticGroups folded))
    (hne : diagnosticGroups folded ≠ []) :
    aggregateParts listed (unlisted.map DiagnosticGroup.count).sum ≠ [] := by
  intro hnil
  obtain ⟨hlisted, hother⟩ := List.append_eq_nil_iff.1 hnil
  have hunlisted : unlisted = [] := unlisted_eq_nil h fun hpos => by simp [hpos] at hother
  rw [List.map_eq_nil_iff.1 hlisted, hunlisted] at h
  exact hne h.symm.eq_nil

theorem comma_notMem_aggregateParts (h : (listed ++ unlisted).Perm (diagnosticGroups folded))
    (other : ℕ) : ∀ p ∈ aggregateParts listed other, ',' ∉ p := by
  intro p hp
  rcases List.mem_append.1 hp with hp | hp
  · obtain ⟨group, hgroup, rfl⟩ := List.mem_map.1 hp
    exact comma_notMem_part (h.mem_iff.1 (List.mem_append_left _ hgroup))
  · split_ifs at hp
    · rw [List.mem_singleton.1 hp]
      exact comma_notMem_otherPart other
    · cases hp

theorem head?_of_mem_parts (h : (listed ++ unlisted).Perm (diagnosticGroups folded)) {p : Text}
    (hp : p ∈ listed.map DiagnosticGroup.part) : p.head? ≠ some 'o' := by
  obtain ⟨group, hgroup, rfl⟩ := List.mem_map.1 hp
  exact head?_part (h.mem_iff.1 (List.mem_append_left _ hgroup))

variable {listed' unlisted' : List DiagnosticGroup}

/-- Where the last piece counts the others, so does the piece it is the start of. -/
theorem aggregateParts_eq_of_other (h : (listed ++ unlisted).Perm (diagnosticGroups folded))
    (h' : (listed' ++ unlisted').Perm (diagnosticGroups folded)) {next : Text} {rest : List Text}
    (hothers : aggregateParts listed (unlisted.map DiagnosticGroup.count).sum =
      listed'.map DiagnosticGroup.part ++ next :: rest)
    (hlast : otherPart (unlisted'.map DiagnosticGroup.count).sum <+: next) :
    aggregateParts listed' (unlisted'.map DiagnosticGroup.count).sum =
      aggregateParts listed (unlisted.map DiagnosticGroup.count).sum := by
  have hnotPart : next ∉ listed.map DiagnosticGroup.part := by
    intro hmem
    obtain ⟨tail, rfl⟩ := hlast
    apply head?_of_mem_parts h hmem
    rw [List.head?_append, head?_otherPart]
    rfl
  have hother : (unlisted.map DiagnosticGroup.count).sum > 0 := by
    by_contra hnone
    rw [aggregateParts, if_neg hnone, List.append_nil] at hothers
    exact hnotPart (hothers ▸ by simp)
  rw [aggregateParts, if_pos hother] at hothers
  have hlisted : listed.map DiagnosticGroup.part = listed'.map DiagnosticGroup.part := by
    rcases List.eq_nil_or_concat rest with rfl | ⟨front, z, rfl⟩
    · exact (List.append_inj' hothers rfl).1
    · rw [List.concat_eq_append, ← List.cons_append, ← List.append_assoc] at hothers
      have hfront := (List.append_inj' hothers rfl).1
      exact absurd (hfront ▸ by simp) hnotPart
  have hsame : (unlisted'.map DiagnosticGroup.count).sum =
      (unlisted.map DiagnosticGroup.count).sum := by
    have hcount := count_of_listing h
    have hcount' := count_of_listing h'
    rw [map_count_of_map_part hlisted] at hcount
    omega
  rw [aggregateParts, aggregateParts, hlisted, hsame]

/-- Where every group is listed, the other message lists all of them too. -/
theorem unlisted_eq_nil_of_listed (h : (listed ++ unlisted).Perm (diagnosticGroups folded))
    (h' : listed'.Perm (diagnosticGroups folded)) {shared : List Text} {last next : Text}
    {rest : List Text} (hparts : listed'.map DiagnosticGroup.part = shared ++ [last])
    (hothers : aggregateParts listed (unlisted.map DiagnosticGroup.count).sum =
      shared ++ next :: rest)
    (hlast : last <+: next) : unlisted = [] := by
  have hhead : next.head? ≠ some 'o' := by
    have hmem : last ∈ listed'.map DiagnosticGroup.part := hparts ▸ by simp
    obtain ⟨group, hgroup, rfl⟩ := List.mem_map.1 hmem
    have hpart := head?_part (h'.mem_iff.1 hgroup)
    obtain ⟨c, t, ht⟩ := List.exists_cons_of_ne_nil (part_ne_nil group)
    obtain ⟨tail, rfl⟩ := hlast
    rw [ht] at hpart ⊢
    exact hpart
  have hshort : shared.length + 1 ≤ listed.length := by
    have hlen := congrArg List.length hothers
    rw [aggregateParts] at hothers hlen
    simp only [List.length_append, List.length_map, List.length_cons] at hlen
    split_ifs at hothers hlen with hother
    · cases rest with
      | nil =>
        obtain ⟨-, hend⟩ := List.append_inj' hothers rfl
        rw [← (List.cons.inj hend).1] at hhead
        exact absurd (head?_otherPart _) hhead
      | cons r rest =>
        simp only [List.length_cons, List.length_nil] at hlen
        omega
    · simp only [List.length_nil] at hlen
      omega
  have hlength := h.length_eq.trans h'.length_eq.symm
  have hlen' := congrArg List.length hparts
  simp only [List.length_append, List.length_map, List.length_cons, List.length_nil]
    at hlength hlen'
  exact List.length_eq_zero_iff.1 (by omega)

/-- Two messages about the same diagnostics have the same pieces where one starts the other. -/
theorem aggregateParts_perm (h : (listed ++ unlisted).Perm (diagnosticGroups folded))
    (h' : (listed' ++ unlisted').Perm (diagnosticGroups folded)) {shared : List Text}
    {last next : Text} {rest : List Text}
    (hparts : aggregateParts listed' (unlisted'.map DiagnosticGroup.count).sum =
      shared ++ [last])
    (hothers : aggregateParts listed (unlisted.map DiagnosticGroup.count).sum =
      shared ++ next :: rest)
    (hlast : last <+: next) :
    (aggregateParts listed' (unlisted'.map DiagnosticGroup.count).sum).Perm
      (aggregateParts listed (unlisted.map DiagnosticGroup.count).sum) := by
  by_cases hother' : (unlisted'.map DiagnosticGroup.count).sum > 0
  · rw [aggregateParts, if_pos hother'] at hparts
    obtain ⟨rfl, hend⟩ := List.append_inj' hparts rfl
    rw [← (List.cons.inj hend).1] at hlast
    rw [aggregateParts_eq_of_other h h' hothers hlast]
  · have hall := unlisted_eq_nil h' hother'
    subst hall
    rw [aggregateParts, if_neg hother', List.append_nil] at hparts
    rw [List.append_nil] at h'
    have hnone := unlisted_eq_nil_of_listed h h' hparts hothers hlast
    subst hnone
    rw [List.append_nil] at h
    simpa [aggregateParts] using (h'.trans h.symm).map DiagnosticGroup.part

/-- A message that counts every folded diagnostic once is not the start of a longer one. -/
theorem CountsOnce.length_eq {message full : Text} (hmessage : CountsOnce message folded)
    (hfull : CountsOnce full folded) (hstart : message <+: full) :
    message.length = full.length := by
  obtain ⟨listed', unlisted', h', rfl⟩ := hmessage
  obtain ⟨listed, unlisted, h, rfl⟩ := hfull
  by_cases hne : diagnosticGroups folded = []
  · rw [hne] at h h'
    obtain ⟨rfl, rfl⟩ := List.append_eq_nil_iff.1 h.eq_nil
    obtain ⟨rfl, rfl⟩ := List.append_eq_nil_iff.1 h'.eq_nil
    rfl
  · have hjoin := (List.prefix_append_right_inj _).1 hstart
    rw [show lit "," = [','] from lit_eq ","] at hjoin
    obtain ⟨shared, last, next, rest, hparts, hothers, hlast⟩ := prefix_joinWith
      (aggregateParts_ne_nil h' hne) (aggregateParts_ne_nil h hne)
      (comma_notMem_aggregateParts h' _) (comma_notMem_aggregateParts h _) hjoin
    have hperm := aggregateParts_perm h h' hparts hothers hlast
    simp only [aggregateText, List.length_append, length_joinWith, totalLength,
      (hperm.map List.length).sum_eq, hperm.length_eq]

end Listing

/-! ### What survives -/

section Survival

variable {warnings : List Diagnostic}

end Survival

end DailyReport
