import DailyReport.Contract.AuditValid
import DailyReport.Lib.Separated

/-!
# Building a text with its audit

`AuditTextBuilder` writes the units of a text and their offsets in the same operation.  It takes a
unit while the text stays within its characters, the units are few enough and the encoding of the
audit fits; it does not look at the ranges of the unit.

What it has taken determines it (`Built`): the text is the units joined by lines, and the audit lays
them out one behind the other (`unitsFrom`).

* `Built.push` : a push takes its unit, or leaves everything as it is (`takeOne`);
* `Built.valid_iff` : **the finished audit is valid exactly when the ranges of its units are valid
  and few enough, and its encoding still fits with the name of the encoding**.
-/

namespace DailyReport

open Lib

/-- The kind carries content of its own. -/
def ContentUnitKind.usable : ContentUnitKind → Bool
  | .heading | .tableHeader | .unit | .placeholder => false
  | _ => true

/-- A unit that a parser pushes. -/
structure Push where
  text : Text
  kind : ContentUnitKind
  ranges : List SourceRange

/-- A builder without an archive. -/
structure AuditTextBuilder where
  content : Text
  chars : ℕ
  maxChars : ℕ
  audit : ParsedContentAudit
  truncated : Bool

namespace AuditTextBuilder

def new (maxChars : ℕ) (format : Text) : AuditTextBuilder :=
  ⟨[], 0, maxChars, ⟨false, 1, some [], some [], some 0, none, some format⟩, false⟩

/-- Note a range that has been read.  With too many ranges they become unknown. -/
def read (b : AuditTextBuilder) (range : SourceRange) : AuditTextBuilder :=
  match b.audit.readRanges with
  | none => b
  | some ranges =>
    let readRanges :=
      if ranges.length < 512 ∧ range ∉ ranges then some (ranges ++ [range])
      else if range ∉ ranges then none
      else some ranges
    let audit : ParsedContentAudit := { b.audit with readRanges := readRanges }
    { b with audit :=
        if audit.jsonBytes > 256 * 1024 then { audit with readRanges := none } else audit }

/-- Push a unit; the flag says whether the parser may go on. -/
def push (b : AuditTextBuilder) (p : Push) : AuditTextBuilder × Bool :=
  let text := trim p.text
  if text = [] then (b, true)
  else
    let sep : Text := if b.content = [] then [] else ['\n']
    let size := countChars text
    let units := b.audit.contentUnits.getD []
    if b.chars + sep.length + size > b.maxChars ∨ units.length ≥ 512 then
      ({ b with truncated := true }, false)
    else
      let start := b.chars + sep.length
      let unit : ContentUnit :=
        ⟨lit "u" ++ decimal (units.length + 1), p.kind, start, start + size, p.ranges⟩
      let audit : ParsedContentAudit := { b.audit with contentUnits := some (units ++ [unit]) }
      -- the usable characters are counted only after this check
      if audit.jsonBytes > 256 * 1024 then ({ b with truncated := true }, false)
      else
        ({ b with
            content := b.content ++ sep ++ text
            chars := start + size
            audit := { audit with usableChars :=
              if p.kind.usable then audit.usableChars.map (· + size) else audit.usableChars } },
          true)

/-- Push several units, whether they are taken or not. -/
def pushAll (b : AuditTextBuilder) (pushes : List Push) : AuditTextBuilder :=
  pushes.foldl (fun b p => (b.push p).1) b

/-- The content, its audit and whether something has been left out.  A content with nothing usable
is dropped. -/
def finish (b : AuditTextBuilder) : Text × ParsedContentAudit × Bool :=
  if b.audit.usableChars = some 0 then
    ([], { b.audit with contentUnits := some [] }, b.truncated)
  else (b.content, b.audit, b.truncated)

end AuditTextBuilder

/-! ### What has been taken -/

/-- Characters of some texts with a separator behind each. -/
def span (ps : List Push) : ℕ := (ps.map fun p => p.text.length + 1).sum

/-- Characters of the texts that count as usable. -/
def usableSize (ps : List Push) : ℕ :=
  ((ps.filter fun p => p.kind.usable).map fun p => p.text.length).sum

/-- The units of some texts one behind the other, from character `start` on. -/
def unitsFrom : ℕ → ℕ → List Push → List ContentUnit
  | _, _, [] => []
  | index, start, p :: ps =>
    ⟨lit "u" ++ decimal (index + 1), p.kind, start, start + p.text.length, p.ranges⟩ ::
      unitsFrom (index + 1) (start + p.text.length + 1) ps

/-- The text of some pushed units. -/
def textOf (ps : List Push) : Text := joinWith ['\n'] (ps.map Push.text)

/-- The audit of some pushed units. -/
def pushedAudit (reads : Option (List SourceRange)) (format : Text) (ps : List Push) :
    ParsedContentAudit :=
  ⟨false, 1, reads, some (unitsFrom 0 0 ps), some (usableSize ps), none, some format⟩

/-- The unit fits behind those that have been taken.  The usable characters in the encoding are
those of the units before. -/
structure FitsBehind (maxChars : ℕ) (reads : Option (List SourceRange)) (format : Text)
    (ps : List Push) (p : Push) : Prop where
  chars : span ps + p.text.length ≤ maxChars
  count : ps.length < 512
  size : ParsedContentAudit.jsonBytes { pushedAudit reads format ps with
    contentUnits := some (unitsFrom 0 0 (ps ++ [p])) } ≤ auditBytesMax

instance (maxChars : ℕ) (reads : Option (List SourceRange)) (format : Text) (ps : List Push)
    (p : Push) : Decidable (FitsBehind maxChars reads format ps p) :=
  decidable_of_iff (span ps + p.text.length ≤ maxChars ∧ ps.length < 512 ∧
      ParsedContentAudit.jsonBytes { pushedAudit reads format ps with
        contentUnits := some (unitsFrom 0 0 (ps ++ [p])) } ≤ auditBytesMax)
    ⟨fun ⟨hchars, hcount, hsize⟩ => ⟨hchars, hcount, hsize⟩,
      fun h => ⟨h.chars, h.count, h.size⟩⟩

/-- A push without the white space around it. -/
def Push.trimmed (p : Push) : Push := { p with text := trim p.text }

/-- What has been taken after one more push. -/
def takeOne (maxChars : ℕ) (reads : Option (List SourceRange)) (format : Text) (ps : List Push)
    (p : Push) : List Push :=
  if p.trimmed.text ≠ [] ∧ FitsBehind maxChars reads format ps p.trimmed then ps ++ [p.trimmed]
  else ps

/-- What is taken of some pushes. -/
def takenOf (maxChars : ℕ) (reads : Option (List SourceRange)) (format : Text)
    (pushes : List Push) : List Push :=
  pushes.foldl (takeOne maxChars reads format) []

/-- What is left at the end: nothing, if nothing of it is usable. -/
def keptOf (ps : List Push) : List Push := if usableSize ps = 0 then [] else ps

/-- The builder has taken some units. -/
structure Built (maxChars : ℕ) (reads : Option (List SourceRange)) (format : Text)
    (ps : List Push) (b : AuditTextBuilder) : Prop where
  content : b.content = textOf ps
  chars : b.chars = span ps - 1
  limit : b.maxChars = maxChars
  audit : b.audit = pushedAudit reads format ps
  nonempty : ∀ p ∈ ps, p.text ≠ []
  within : span ps ≤ maxChars + 1
  count : ps.length ≤ 512

variable {maxChars : ℕ} {reads : Option (List SourceRange)} {format : Text} {ps : List Push}
  {b : AuditTextBuilder}

@[simp] theorem span_append (ps qs : List Push) : span (ps ++ qs) = span ps + span qs := by
  simp [span]

@[simp] theorem span_singleton (p : Push) : span [p] = p.text.length + 1 := by simp [span]

theorem span_eq (ps : List Push) : span ps = totalLength (ps.map Push.text) + ps.length := by
  induction ps with
  | nil => rfl
  | cons p ps ih =>
    change p.text.length + 1 + span ps = _
    rw [ih, List.map_cons, totalLength_cons, List.length_cons]
    omega

theorem length_le_span (ps : List Push) : ps.length ≤ span ps := by
  rw [span_eq]
  exact Nat.le_add_left _ _

theorem usableSize_append (ps : List Push) (p : Push) :
    usableSize (ps ++ [p]) = usableSize ps + if p.kind.usable then p.text.length else 0 := by
  unfold usableSize
  rw [List.filter_append, List.map_append, List.sum_append]
  split_ifs with h <;> simp [h]

@[simp] theorem length_unitsFrom (index start : ℕ) (ps : List Push) :
    (unitsFrom index start ps).length = ps.length := by
  induction ps generalizing index start with
  | nil => rfl
  | cons p ps ih => simp [unitsFrom, ih]

theorem unitsFrom_concat (index start : ℕ) (ps : List Push) (p : Push) :
    unitsFrom index start (ps ++ [p]) = unitsFrom index start ps ++
      [⟨lit "u" ++ decimal (index + ps.length + 1), p.kind, start + span ps,
        start + span ps + p.text.length, p.ranges⟩] := by
  induction ps generalizing index start with
  | nil => rfl
  | cons q ps ih =>
    have hindex : index + 1 + ps.length = index + (q :: ps).length := by
      rw [List.length_cons]
      omega
    have hstart : start + q.text.length + 1 + span ps = start + span (q :: ps) := by
      change _ = start + (q.text.length + 1 + span ps)
      omega
    rw [List.cons_append, unitsFrom, ih, hindex, hstart]
    rfl

theorem length_textOf (ps : List Push) : (textOf ps).length = span ps - 1 := by
  cases ps with
  | nil => rfl
  | cons p ps =>
    rw [textOf, length_joinWith, span_eq, List.length_map, List.length_cons]
    simp only [List.length_cons, List.length_nil]
    omega

theorem textOf_concat (ps : List Push) (p : Push) :
    textOf (ps ++ [p]) = textOf ps ++ (if ps = [] then [] else ['\n']) ++ p.text := by
  unfold textOf
  by_cases hnil : ps = []
  · simp [hnil]
  · rw [List.map_append, List.map_singleton, if_neg hnil, joinWith_concat _ _ (by simpa using hnil)]

theorem textOf_eq_nil (h : ∀ p ∈ ps, p.text ≠ []) : textOf ps = [] ↔ ps = [] := by
  constructor
  · intro hnil
    have hlength := congrArg List.length hnil
    rw [length_textOf, List.length_nil] at hlength
    cases ps with
    | nil => rfl
    | cons p ps =>
      have hpos := List.length_pos_iff.2 (h p List.mem_cons_self)
      have hspan : span (p :: ps) = p.text.length + 1 + span ps := rfl
      omega
  · rintro rfl
    rfl

/-! ### The builder and what it has taken -/

theorem built_new (maxChars : ℕ) (format : Text) :
    Built maxChars (some []) format [] (.new maxChars format) :=
  ⟨rfl, rfl, rfl, rfl, by simp, Nat.zero_le _, Nat.zero_le _⟩

theorem Built.separator (h : Built maxChars reads format ps b) :
    (if b.content = [] then [] else ['\n'] : Text) = if ps = [] then [] else ['\n'] := by
  rw [h.content]
  simp only [textOf_eq_nil h.nonempty]

/-- The next unit starts behind what has been taken and its separators. -/
theorem Built.start (h : Built maxChars reads format ps b) :
    b.chars + (if b.content = [] then [] else ['\n'] : Text).length = span ps := by
  rw [h.separator, h.chars]
  by_cases hnil : ps = []
  · subst hnil
    rfl
  · have hpos := (List.length_pos_iff.2 hnil).trans_le (length_le_span ps)
    simp only [hnil, if_false, List.length_singleton]
    omega

/-- **A push takes its unit or changes nothing.** -/
theorem Built.push (h : Built maxChars reads format ps b) (p : Push) :
    Built maxChars reads format (takeOne maxChars reads format ps p) (b.push p).1 := by
  have hnonempty := h.nonempty
  have hwithin := h.within
  have hcount := h.count
  have hsep := h.separator
  have hstart := h.start
  have hunits : b.audit.contentUnits.getD [] = unitsFrom 0 0 ps := by rw [h.audit]; rfl
  have htruncated : Built maxChars reads format ps { b with truncated := true } :=
    ⟨h.content, h.chars, h.limit, h.audit, hnonempty, hwithin, hcount⟩
  have hconcat := unitsFrom_concat 0 0 ps p.trimmed
  rw [Nat.zero_add, Nat.zero_add] at hconcat
  have hsize : ParsedContentAudit.jsonBytes { b.audit with contentUnits := some (unitsFrom 0 0 ps ++
      [⟨lit "u" ++ decimal (ps.length + 1), p.kind, span ps, span ps + countChars (trim p.text),
        p.ranges⟩]) } = ParsedContentAudit.jsonBytes { pushedAudit reads format ps with
      contentUnits := some (unitsFrom 0 0 (ps ++ [p.trimmed])) } := by
    rw [hconcat, h.audit]
    rfl
  unfold AuditTextBuilder.push takeOne
  dsimp only
  rw [hstart, hunits, length_unitsFrom, hsize]
  by_cases hempty : trim p.text = []
  · rw [if_pos hempty, if_neg (fun h => h.1 hempty)]
    exact h
  rw [if_neg hempty]
  by_cases hroom : span ps + countChars (trim p.text) > b.maxChars ∨ ps.length ≥ 512
  · rw [if_pos hroom, if_neg]
    · exact htruncated
    · rintro ⟨-, hfits⟩
      rcases hroom with hroom | hroom
      · exact absurd hfits.chars (Nat.not_le.2 (h.limit ▸ hroom))
      · exact absurd hfits.count (Nat.not_lt.2 hroom)
  rw [if_neg hroom]
  rw [not_or, Nat.not_lt, ge_iff_le, Nat.not_le, h.limit] at hroom
  by_cases hlarge : ParsedContentAudit.jsonBytes { pushedAudit reads format ps with
      contentUnits := some (unitsFrom 0 0 (ps ++ [p.trimmed])) } > 256 * 1024
  · rw [if_pos hlarge, if_neg fun hfits => absurd hfits.2.size (Nat.not_le.2 hlarge)]
    exact htruncated
  rw [if_neg hlarge, if_pos ⟨hempty, hroom.1, hroom.2, Nat.not_lt.1 hlarge⟩]
  refine ⟨?_, ?_, h.limit, ?_, ?_, ?_, ?_⟩
  · rw [hsep, textOf_concat, h.content]
    rfl
  · rw [span_append, span_singleton]
    exact (Nat.add_sub_cancel (span ps + p.trimmed.text.length) 1).symm
  · simp only [pushedAudit, hconcat, usableSize_append, h.audit]
    have hkind : p.trimmed.kind = p.kind := rfl
    rw [hkind]
    by_cases husable : p.kind.usable = true
    · rw [if_pos husable, if_pos husable]
      rfl
    · rw [if_neg husable, if_neg husable]
      rfl
  · intro q hq
    rcases List.mem_append.1 hq with hq | hq
    · exact hnonempty q hq
    · rw [List.mem_singleton.1 hq]
      exact hempty
  · have hchars : span ps + p.trimmed.text.length ≤ maxChars := hroom.1
    rw [span_append, span_singleton]
    omega
  · rw [List.length_append, List.length_singleton]
    exact hroom.2

/-- A range that is new joins those that have been read, unless they are too many. -/
def withRange (ranges : List SourceRange) (range : SourceRange) : Option (List SourceRange) :=
  if ranges.length < 512 ∧ range ∉ ranges then some (ranges ++ [range])
  else if range ∉ ranges then none
  else some ranges

/-- What is known of the ranges that have been read when one more is noted. -/
def noteRange (format : Text) (ps : List Push) (range : SourceRange) :
    Option (List SourceRange) → Option (List SourceRange)
  | none => none
  | some ranges =>
    if (pushedAudit (withRange ranges range) format ps).jsonBytes > auditBytesMax then none
    else withRange ranges range

/-- **Noting a range changes nothing but the ranges that have been read.** -/
theorem Built.note (h : Built maxChars reads format ps b) (range : SourceRange) :
    Built maxChars (noteRange format ps range reads) format ps (b.read range) := by
  have hreads : b.audit.readRanges = reads := by rw [h.audit]; rfl
  unfold AuditTextBuilder.read
  rw [hreads]
  cases reads with
  | none => exact h
  | some ranges =>
    refine ⟨h.content, h.chars, h.limit, ?_, h.nonempty, h.within, h.count⟩
    rw [h.audit, noteRange]
    -- The builder makes the ranges unknown when the audit with them is too large.
    exact (apply_ite (fun next => pushedAudit next format ps) _ _ _).symm

/-- What is known when several ranges have been noted. -/
def noteAll (format : Text) (ps : List Push) (ranges : List SourceRange)
    (reads : Option (List SourceRange)) : Option (List SourceRange) :=
  ranges.foldl (fun noted range => noteRange format ps range noted) reads

theorem Built.noteAll (h : Built maxChars reads format ps b) (ranges : List SourceRange) :
    Built maxChars (noteAll format ps ranges reads) format ps
      (ranges.foldl AuditTextBuilder.read b) := by
  induction ranges generalizing reads b with
  | nil => exact h
  | cons range ranges ih => exact ih (h.note range)

/-- A range that is new and fits is noted, unless the ranges are too many. -/
theorem Built.read {ranges : List SourceRange} (h : Built maxChars (some ranges) format ps b)
    {range : SourceRange} (hnew : range ∉ ranges)
    (hsize : (pushedAudit (some (ranges ++ [range])) format ps).jsonBytes ≤ auditBytesMax) :
    Built maxChars (if ranges.length < 512 then some (ranges ++ [range]) else none) format ps
      (b.read range) := by
  have hnote : noteRange format ps range (some ranges) =
      if ranges.length < 512 then some (ranges ++ [range]) else none := by
    have hwith : withRange ranges range =
        if ranges.length < 512 then some (ranges ++ [range]) else none := by
      unfold withRange
      simp only [hnew, not_false_eq_true, and_true, if_true]
    rw [noteRange, hwith]
    by_cases hcount : ranges.length < 512
    · rw [if_pos hcount]
      exact if_neg (Nat.not_lt.2 hsize)
    · rw [if_neg hcount]
      exact ite_self _
  rw [← hnote]
  exact h.note range

theorem Built.pushAll (h : Built maxChars reads format ps b) (pushes : List Push) :
    Built maxChars reads format (pushes.foldl (takeOne maxChars reads format) ps)
      (b.pushAll pushes) := by
  induction pushes generalizing ps b with
  | nil => exact h
  | cons p pushes ih => exact ih (h.push p)

/-- What is pushed without the white space around it, unless nothing is left. -/
def solid (pushes : List Push) : List Push := (pushes.map Push.trimmed).filter (·.text ≠ [])

/-- What is taken behind other units has been pushed, and in that order. -/
theorem foldl_takeOne (ps pushes : List Push) : ∃ taken, taken.Sublist (solid pushes) ∧
    pushes.foldl (takeOne maxChars reads format) ps = ps ++ taken := by
  induction pushes generalizing ps with
  | nil => exact ⟨[], List.Sublist.refl _, (List.append_nil ps).symm⟩
  | cons p pushes ih =>
    rw [List.foldl_cons, takeOne]
    split_ifs with hfits
    · have hsolid : solid (p :: pushes) = p.trimmed :: solid pushes := by simp [solid, hfits.1]
      obtain ⟨taken, hsub, htaken⟩ := ih (ps ++ [p.trimmed])
      rw [hsolid, htaken]
      exact ⟨p.trimmed :: taken, hsub.cons_cons _, (List.append_cons ..).symm⟩
    · obtain ⟨taken, hsub, htaken⟩ := ih ps
      exact ⟨taken, hsub.trans (((List.sublist_cons_self _ _).map _).filter _), htaken⟩

theorem takenOf_sublist (maxChars : ℕ) (reads : Option (List SourceRange)) (format : Text)
    (pushes : List Push) : (takenOf maxChars reads format pushes).Sublist (solid pushes) := by
  obtain ⟨taken, hsub, htaken⟩ := @foldl_takeOne maxChars reads format [] pushes
  rw [takenOf, htaken]
  exact hsub

theorem mem_takenOf {pushes : List Push} {p : Push}
    (h : p ∈ takenOf maxChars reads format pushes) : ∃ q ∈ pushes, p = q.trimmed := by
  obtain ⟨q, hq, rfl⟩ := List.mem_map.1 (List.mem_of_mem_filter ((takenOf_sublist ..).subset h))
  exact ⟨q, hq, rfl⟩

/-- What is left at the end is the text and the audit of what has been kept. -/
theorem Built.finish (h : Built maxChars reads format ps b) :
    b.finish = (textOf (keptOf ps), pushedAudit reads format (keptOf ps), b.truncated) := by
  obtain ⟨hcontent, -, -, haudit, -, -, -⟩ := h
  unfold AuditTextBuilder.finish keptOf
  rw [haudit, hcontent]
  by_cases husable : usableSize ps = 0
  · have hzero : (pushedAudit reads format ps).usableChars = some 0 := congrArg some husable
    rw [if_pos hzero, if_pos husable]
    simp only [pushedAudit, husable]
    rfl
  · have hpos : (pushedAudit reads format ps).usableChars ≠ some 0 := by simpa [pushedAudit] using husable
    rw [if_neg hpos, if_neg husable]

theorem keptOf_sublist (ps : List Push) : (keptOf ps).Sublist ps := by
  unfold keptOf
  split_ifs
  · exact List.nil_sublist ps
  · exact List.Sublist.refl ps

theorem mem_of_mem_keptOf {p : Push} (h : p ∈ keptOf ps) : p ∈ ps := (keptOf_sublist ps).subset h

/-! ### Which audits are valid -/

/-- Where the units of some texts stand. -/
theorem mem_unitsFrom {index start : ℕ} {unit : ContentUnit} (h : unit ∈ unitsFrom index start ps) :
    ∃ p ∈ ps, unit.ranges = p.ranges ∧ unit.textEnd = unit.textStart + p.text.length ∧
      start ≤ unit.textStart ∧ unit.textEnd + 1 ≤ start + span ps ∧
      ∃ k, index ≤ k ∧ k < index + ps.length ∧ unit.unitId = lit "u" ++ decimal (k + 1) := by
  induction ps generalizing index start with
  | nil => cases h
  | cons p ps ih =>
    have hspan : span (p :: ps) = p.text.length + 1 + span ps := rfl
    rw [unitsFrom, List.mem_cons] at h
    rcases h with rfl | h
    · refine ⟨p, List.mem_cons_self, rfl, rfl, le_rfl, ?_, index, le_rfl, ?_, rfl⟩
      · dsimp only
        omega
      · rw [List.length_cons]
        omega
    · obtain ⟨q, hq, hranges, hstop, hstart, hin, k, hfrom, hto, hid⟩ := ih h
      refine ⟨q, List.mem_cons_of_mem _ hq, hranges, hstop, by omega, by omega, k, by omega, ?_, hid⟩
      rw [List.length_cons]
      omega

/-- A unit as it has been pushed. -/
def readUnit (content : Text) (unit : ContentUnit) : Push :=
  ⟨(content.drop unit.textStart).take (unit.textEnd - unit.textStart), unit.kind, unit.ranges⟩

/-- **The units are read as what has been pushed**; `front` stands before them. -/
theorem map_readUnit (index : ℕ) (front : Text) (ps : List Push) :
    (unitsFrom index front.length ps).map (readUnit (front ++ textOf ps)) = ps := by
  induction ps generalizing index front with
  | nil => rfl
  | cons p ps ih =>
    have hfront : (front ++ p.text ++ ['\n']).length = front.length + p.text.length + 1 := by
      simp [Nat.add_assoc]
    have hfirst : readUnit (front ++ textOf (p :: ps)) ⟨lit "u" ++ decimal (index + 1), p.kind,
        front.length, front.length + p.text.length, p.ranges⟩ = p := by
      rw [readUnit, List.drop_left, Nat.add_sub_cancel_left, textOf, List.map_cons,
        joinWith_cons_eq, List.take_left]
    rw [unitsFrom, List.map_cons, hfirst]
    congr 1
    cases ps with
    | nil => rfl
    | cons q ps =>
      have hnext := ih (index + 1) (front ++ p.text ++ ['\n'])
      rw [hfront] at hnext
      have hcontent : front ++ textOf (p :: q :: ps) =
          front ++ p.text ++ ['\n'] ++ textOf (q :: ps) := by
        rw [textOf, List.map_cons, joinWith_cons _ _ (by simp), textOf]
        simp only [List.append_assoc]
      rw [hcontent, hnext]

theorem exists_mem_unitsFrom {p : Push} (h : p ∈ ps) (index start : ℕ) :
    ∃ unit ∈ unitsFrom index start ps, unit.ranges = p.ranges := by
  induction ps generalizing index start with
  | nil => cases h
  | cons q ps ih =>
    rcases List.mem_cons.1 h with rfl | h
    · exact ⟨_, List.mem_cons_self, rfl⟩
    · obtain ⟨unit, hunit, hranges⟩ := ih h (index + 1) (start + q.text.length + 1)
      exact ⟨unit, List.mem_cons_of_mem _ hunit, hranges⟩

theorem sorted_unitsFrom (index start : ℕ) (ps : List Push) :
    (unitsFrom index start ps).Pairwise fun u v => u.textEnd ≤ v.textStart := by
  induction ps generalizing index start with
  | nil => exact List.Pairwise.nil
  | cons p ps ih =>
    refine List.pairwise_cons.2 ⟨?_, ih _ _⟩
    intro v hv
    obtain ⟨-, -, -, -, hstart, -⟩ := mem_unitsFrom hv
    dsimp only
    omega

theorem nodup_unitsFrom (index start : ℕ) (ps : List Push) :
    ((unitsFrom index start ps).map ContentUnit.unitId).Nodup := by
  induction ps generalizing index start with
  | nil => exact List.nodup_nil
  | cons p ps ih =>
    refine List.nodup_cons.2 ⟨?_, ih _ _⟩
    intro hmem
    obtain ⟨v, hv, hid⟩ := List.mem_map.1 hmem
    obtain ⟨-, -, -, -, -, -, k, hfrom, -, hk⟩ := mem_unitsFrom hv
    rw [hk] at hid
    have := decimal_injective (List.append_cancel_left hid)
    omega

/-- The ranges of a pushed unit pass the validation. -/
def ValidRanges (p : Push) : Prop := p.ranges.length ≤ 128 ∧ ∀ range ∈ p.ranges, ValidRange range

/-- **The units of some texts are valid when their ranges are.** -/
theorem validUnits_iff (hnonempty : ∀ p ∈ ps, p.text ≠ []) (hcount : ps.length ≤ 512) :
    ValidUnits (countChars (textOf ps)) (unitsFrom 0 0 ps) ↔ ∀ p ∈ ps, ValidRanges p := by
  constructor
  · intro h p hp
    obtain ⟨unit, hunit, hranges⟩ := exists_mem_unitsFrom hp 0 0
    have hvalid := h.each unit hunit
    exact ⟨hranges ▸ hvalid.ranges, hranges ▸ hvalid.valid⟩
  · intro h
    refine ⟨?_, nodup_unitsFrom 0 0 ps, sorted_unitsFrom 0 0 ps⟩
    intro unit hunit
    obtain ⟨p, hp, hranges, hstop, -, hin, k, -, hk, hid⟩ := mem_unitsFrom hunit
    have hpos := List.length_pos_iff.2 (hnonempty p hp)
    have hdecimal : (decimal (k + 1)).length ≤ 3 := by
      rw [length_decimal_le_iff (by omega)]
      omega
    refine ⟨⟨?_, ?_⟩, by omega, ?_, hranges ▸ (h p hp).1, hranges ▸ (h p hp).2⟩
    · rw [hid, lit_eq]
      exact List.cons_ne_nil _ _
    · -- one letter and the number
      rw [hid, lit_eq, countChars, List.length_append]
      change 1 + (decimal (k + 1)).length ≤ 128
      omega
    · rw [countChars, length_textOf]
      omega

theorem usableSize_le (ps : List Push) : usableSize ps ≤ totalLength (ps.map Push.text) := by
  induction ps with
  | nil => exact le_rfl
  | cons p ps ih =>
    rw [List.map_cons, totalLength_cons]
    unfold usableSize at ih ⊢
    rw [List.filter_cons]
    split_ifs
    · rw [List.map_cons, List.sum_cons]
      omega
    · omega

theorem usableSize_le_length (ps : List Push) : usableSize ps ≤ (textOf ps).length := by
  have husable := usableSize_le ps
  rw [textOf, length_joinWith]
  omega

theorem Built.count_keptOf (h : Built maxChars reads format ps b) : (keptOf ps).length ≤ 512 :=
  (keptOf_sublist ps).length_le.trans h.count

/-- **What the builder reports is valid, apart from its size, exactly when its ranges are.** -/
theorem Built.validAudit_iff (h : Built maxChars reads format ps b) {encoding : Option Text}
    (hencoding : ∀ name ∈ encoding, name ∈ auditEncodings) (hformat : format ∈ auditFormats)
    (hfew : (reads.getD []).length ≤ 512) :
    ValidAudit { pushedAudit reads format (keptOf ps) with encoding := encoding }
        (textOf (keptOf ps)) ↔
      (∀ range ∈ reads.getD [], ValidRange range) ∧ ∀ p ∈ keptOf ps, ValidRanges p := by
  have hnonempty : ∀ p ∈ keptOf ps, p.text ≠ [] := fun p hp =>
    h.nonempty p (mem_of_mem_keptOf hp)
  have hcount := h.count_keptOf
  rw [← validUnits_iff hnonempty hcount]
  refine ⟨fun hvalid => ⟨hvalid.validRanges, hvalid.validUnits⟩, fun hvalid => ?_⟩
  refine ⟨rfl, rfl, ?_, hfew.trans (by decide), hvalid.1, ?_, hvalid.2, hencoding, ?_⟩
  · intro chars hchars
    obtain rfl := Option.some.inj (Option.mem_def.1 hchars)
    exact usableSize_le_length _
  · change (unitsFrom 0 0 (keptOf ps)).length ≤ 10000
    rw [length_unitsFrom]
    omega
  · intro name hname
    obtain rfl := Option.some.inj (Option.mem_def.1 hname)
    exact hformat

/-- The audit that a parser reports: it names the encoding at the very end. -/
def sealedAudit (reads : Option (List SourceRange)) (format encoding : Text) (ps : List Push) :
    ParsedContentAudit :=
  { pushedAudit reads format ps with encoding := some encoding }

/-- **The reported audit is valid exactly when its ranges are and its encoding fits.** -/
theorem Built.valid_iff (h : Built maxChars reads format ps b) {encoding : Text}
    (hencoding : encoding ∈ auditEncodings) (hformat : format ∈ auditFormats)
    (hreads : (reads.getD []).length ≤ 512 ∧ ∀ range ∈ reads.getD [], ValidRange range) :
    (sealedAudit reads format encoding (keptOf ps)).validate (textOf (keptOf ps)) = .ok () ↔
      (∀ p ∈ keptOf ps, ValidRanges p) ∧
        (sealedAudit reads format encoding (keptOf ps)).jsonBytes ≤ auditBytesMax := by
  have hnamed : ∀ name ∈ some encoding, name ∈ auditEncodings := by simpa using hencoding
  rw [validate_ok_iff, sealedAudit, h.validAudit_iff hnamed hformat hreads.1]
  exact and_congr_left fun _ => and_iff_right hreads.2

/-- The text stays within its characters. -/
theorem Built.length_le (h : Built maxChars reads format ps b) :
    (textOf (keptOf ps)).length ≤ maxChars := by
  unfold keptOf
  split_ifs
  · exact Nat.zero_le _
  · have hwithin := h.within
    rw [length_textOf]
    omega

end DailyReport
