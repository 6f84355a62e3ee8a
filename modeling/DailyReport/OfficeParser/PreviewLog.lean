import DailyReport.OfficeParser.Preview

/-!
# What becomes of the pieces of a preview

The builder is pushed every piece that has been selected, and its answers are not looked at.  It
refuses a piece for lack of characters, for the number of its units, or for the size of its audit.

* `pushLog_room` : **pieces that have been priced are not refused for lack of characters**;
* `tooMany_stays` : behind a refusal for the number of units nothing is taken;
* `truncated_pushAll` : a refusal is flagged;
* `Built.pushAll_taken` : **what is taken is written, in order**.
-/

namespace DailyReport

open Lib

/-- What becomes of a piece. -/
inductive Outcome
  | taken
  | blank
  | noRoom
  | tooMany
  | tooLarge
  deriving DecidableEq

/-- Nothing of the piece is left out. -/
def Outcome.written (outcome : Outcome) : Prop := outcome = .taken ∨ outcome = .blank

/-- The builder refuses a piece for the number of its units, or for the size of its audit. -/
def Outcome.overfull (outcome : Outcome) : Prop := outcome = .tooMany ∨ outcome = .tooLarge

/-- What is not refused for lack of characters is written, or refused for another reason. -/
theorem Outcome.written_or_overfull {outcome : Outcome} (h : outcome ≠ .noRoom) :
    outcome.written ∨ outcome.overfull := by
  cases outcome with
  | taken => exact .inl (.inl rfl)
  | blank => exact .inl (.inr rfl)
  | noRoom => exact absurd rfl h
  | tooMany => exact .inr (.inl rfl)
  | tooLarge => exact .inr (.inr rfl)

namespace AuditTextBuilder

/-- The units that have been taken. -/
def units (b : AuditTextBuilder) : List ContentUnit := b.audit.contentUnits.getD []

/-- Where the next unit starts. -/
def nextStart (b : AuditTextBuilder) : ℕ :=
  b.chars + (if b.content = [] then [] else ['\n'] : Text).length

/-- The audit with one more unit. -/
def withUnit (b : AuditTextBuilder) (p : Push) : ParsedContentAudit :=
  { b.audit with contentUnits := some (b.units ++
      [⟨lit "u" ++ decimal (b.units.length + 1), p.kind, b.nextStart,
        b.nextStart + countChars (trim p.text), p.ranges⟩]) }

/-- What becomes of a piece that is pushed. -/
def outcome (b : AuditTextBuilder) (p : Push) : Outcome :=
  if trim p.text = [] then .blank
  else if b.maxChars < b.nextStart + countChars (trim p.text) then .noRoom
  else if 512 ≤ b.units.length then .tooMany
  else if 256 * 1024 < (b.withUnit p).jsonBytes then .tooLarge
  else .taken

/-- What becomes of pieces that are pushed one behind the other. -/
def pushLog {π : Type} (b : AuditTextBuilder) : List (π × Push) → List (π × Outcome)
  | [] => []
  | (piece, p) :: rest => (piece, b.outcome p) :: pushLog (b.push p).1 rest

/-- What is taken of pieces that are pushed one behind the other. -/
def takenPushes {π : Type} (b : AuditTextBuilder) : List (π × Push) → List Push
  | [] => []
  | (_, p) :: rest =>
    (if b.outcome p = .taken then [p.trimmed] else []) ++ takenPushes (b.push p).1 rest

variable {π : Type} {b : AuditTextBuilder} {p : Push} {pieces : List (π × Push)}

/-- The builder with one more unit. -/
def take (b : AuditTextBuilder) (p : Push) : AuditTextBuilder :=
  { b with
    content := b.content ++ (if b.content = [] then [] else ['\n'] : Text) ++ trim p.text
    chars := b.nextStart + countChars (trim p.text)
    audit := { b.withUnit p with usableChars :=
      if p.kind.usable then b.audit.usableChars.map (· + countChars (trim p.text))
      else b.audit.usableChars } }

theorem push_eq (b : AuditTextBuilder) (p : Push) : b.push p =
    if trim p.text = [] then (b, true)
    else if b.maxChars < b.nextStart + countChars (trim p.text) ∨ 512 ≤ b.units.length then
      ({ b with truncated := true }, false)
    else if 256 * 1024 < (b.withUnit p).jsonBytes then ({ b with truncated := true }, false)
    else (b.take p, true) := rfl

/-- What a push does, told by what becomes of its piece. -/
theorem push_cases (b : AuditTextBuilder) (p : Push) :
    (b.outcome p = .blank ∧ (b.push p).1 = b) ∨
    (b.outcome p = .taken ∧ (b.push p).1 = b.take p) ∨
    (¬ (b.outcome p).written ∧ (b.push p).1 = { b with truncated := true }) := by
  rw [push_eq]
  unfold outcome
  by_cases hblank : trim p.text = []
  · rw [if_pos hblank, if_pos hblank]
    exact .inl ⟨rfl, rfl⟩
  rw [if_neg hblank, if_neg hblank]
  by_cases hroom : b.maxChars < b.nextStart + countChars (trim p.text)
  · rw [if_pos hroom, if_pos (.inl hroom)]
    exact .inr (.inr ⟨by simp [Outcome.written], rfl⟩)
  by_cases hcount : 512 ≤ b.units.length
  · rw [if_neg hroom, if_pos hcount, if_pos (.inr hcount)]
    exact .inr (.inr ⟨by simp [Outcome.written], rfl⟩)
  rw [if_neg hroom, if_neg hcount, if_neg (not_or.2 ⟨hroom, hcount⟩)]
  by_cases hlarge : 256 * 1024 < (b.withUnit p).jsonBytes
  · rw [if_pos hlarge, if_pos hlarge]
    exact .inr (.inr ⟨by simp [Outcome.written], rfl⟩)
  rw [if_neg hlarge, if_neg hlarge]
  exact .inr (.inl ⟨rfl, rfl⟩)

theorem length_units_take (b : AuditTextBuilder) (p : Push) :
    (b.take p).units.length = b.units.length + 1 := List.length_append

theorem map_pushLog (b : AuditTextBuilder) (pieces : List (π × Push)) :
    (pushLog b pieces).map Prod.fst = pieces.map Prod.fst := by
  induction pieces generalizing b with
  | nil => rfl
  | cons piece pieces ih => exact congrArg (piece.1 :: ·) (ih _)

/-- A piece that is pushed is in the log. -/
theorem exists_mem_pushLog {piece : π} (h : piece ∈ pieces.map Prod.fst) :
    ∃ outcome, (piece, outcome) ∈ pushLog b pieces := by
  rw [← map_pushLog b] at h
  obtain ⟨⟨_, outcome⟩, hmem, rfl⟩ := List.mem_map.1 h
  exact ⟨outcome, hmem⟩

theorem units_push_le (b : AuditTextBuilder) (p : Push) :
    b.units.length ≤ (b.push p).1.units.length := by
  rcases push_cases b p with ⟨-, hsame⟩ | ⟨-, hsame⟩ | ⟨-, hsame⟩
  · rw [hsame]
  · rw [hsame, length_units_take]
    exact Nat.le_succ _
  · rw [hsame]
    exact le_rfl

/-- A piece of which the log says that it is taken is taken. -/
theorem mem_takenPushes {piece : π} (h : (piece, .taken) ∈ pushLog b pieces) :
    ∃ p, (piece, p) ∈ pieces ∧ p.trimmed ∈ takenPushes b pieces := by
  induction pieces generalizing b with
  | nil => cases h
  | cons first pieces ih =>
    rcases List.mem_cons.1 h with heq | h
    · obtain ⟨rfl, hout⟩ := Prod.mk.inj heq
      refine ⟨first.2, List.mem_cons_self .., ?_⟩
      rw [takenPushes, if_pos hout.symm]
      exact List.mem_cons_self ..
    · obtain ⟨p, hmem, htaken⟩ := ih h
      exact ⟨p, List.mem_cons_of_mem _ hmem, List.mem_append_right _ htaken⟩

/-- Nothing is left of a piece of which the log says that it is blank. -/
theorem trim_of_blank {piece : π} (h : (piece, .blank) ∈ pushLog b pieces) :
    ∃ p, (piece, p) ∈ pieces ∧ trim p.text = [] := by
  induction pieces generalizing b with
  | nil => cases h
  | cons first pieces ih =>
    rcases List.mem_cons.1 h with heq | h
    · obtain ⟨rfl, hout⟩ := Prod.mk.inj heq
      refine ⟨first.2, List.mem_cons_self .., ?_⟩
      by_contra hnot
      rw [outcome, if_neg hnot] at hout
      split_ifs at hout
    · obtain ⟨p, hmem, hblank⟩ := ih h
      exact ⟨p, List.mem_cons_of_mem _ hmem, hblank⟩

theorem length_takenPushes (b : AuditTextBuilder) (pieces : List (π × Push)) :
    (takenPushes b pieces).length = ((pushLog b pieces).filter fun e => e.2 = .taken).length := by
  induction pieces generalizing b with
  | nil => rfl
  | cons piece pieces ih =>
    rw [takenPushes, pushLog, List.length_append, List.filter_cons, ih]
    by_cases hout : b.outcome piece.2 = .taken
    · simp only [hout, if_true, decide_true, List.length_cons, List.length_nil]
      omega
    · simp only [hout, if_false, decide_false, List.length_nil, Bool.false_eq_true]
      omega

/-- With too many units nothing is taken. -/
theorem not_taken_of_full (h : 512 ≤ b.units.length) :
    ∀ e ∈ pushLog b pieces, e.2 ≠ .taken := by
  induction pieces generalizing b with
  | nil => nofun
  | cons piece pieces ih =>
    refine List.forall_mem_cons.2 ⟨?_, ih (h.trans (units_push_le b piece.2))⟩
    unfold outcome
    rw [if_pos h]
    split_ifs <;> nofun

/-- **Behind a refusal for the number of units nothing is taken.** -/
theorem tooMany_stays (b : AuditTextBuilder) (pieces : List (π × Push)) :
    (pushLog b pieces).Pairwise fun e e' => e.2 = .tooMany → e'.2 ≠ .taken := by
  induction pieces generalizing b with
  | nil => exact .nil
  | cons piece pieces ih =>
    refine List.pairwise_cons.2 ⟨fun e he hmany => ?_, ih _⟩
    have hfull : 512 ≤ b.units.length := by
      by_contra hnot
      simp only [outcome, hnot, if_false] at hmany
      split_ifs at hmany
    exact not_taken_of_full (hfull.trans (units_push_le b piece.2)) e he

/-- **A refusal is flagged**, and nothing else is. -/
theorem truncated_pushAll (b : AuditTextBuilder) (pieces : List (π × Push)) :
    (b.pushAll (pieces.map Prod.snd)).truncated = true ↔
      b.truncated = true ∨ ∃ e ∈ pushLog b pieces, ¬ e.2.written := by
  induction pieces generalizing b with
  | nil => simp [pushAll, pushLog]
  | cons piece pieces ih =>
    have hrest := ih (b.push piece.2).1
    have hall : b.pushAll ((piece :: pieces).map Prod.snd) =
        (b.push piece.2).1.pushAll (pieces.map Prod.snd) := rfl
    rw [hall, hrest, pushLog, List.exists_mem_cons_iff]
    rcases push_cases b piece.2 with ⟨hout, hsame⟩ | ⟨hout, hsame⟩ | ⟨hout, hsame⟩
    · rw [hout, hsame]
      simp [Outcome.written]
    · rw [hout, hsame]
      simp [Outcome.written, take]
    · rw [hsame]
      simp [hout]

end AuditTextBuilder

open AuditTextBuilder

section Built

variable {π : Type} {maxChars : ℕ} {reads : Option (List SourceRange)} {format : Text}
  {ps : List Push} {b : AuditTextBuilder}

theorem Built.length_units (h : Built maxChars reads format ps b) : b.units.length = ps.length := by
  rw [units, h.audit]
  exact length_unitsFrom 0 0 ps

/-- A push takes its unit if that is what becomes of it. -/
theorem Built.takeOne_eq (h : Built maxChars reads format ps b) (p : Push) :
    takeOne maxChars reads format ps p =
      if b.outcome p = .taken then ps ++ [p.trimmed] else ps := by
  have hcases : takeOne maxChars reads format ps p = ps ++ [p.trimmed] ∨
      takeOne maxChars reads format ps p = ps := ite_eq_or_eq _ _ _
  have hpush := (h.push p).length_units
  have hlength := h.length_units
  -- The number of units tells which it is.
  rcases push_cases b p with ⟨hout, hnext⟩ | ⟨hout, hnext⟩ | ⟨hout, hnext⟩
  · rw [if_neg (by rw [hout]; nofun)]
    refine hcases.resolve_left fun htake => ?_
    rw [hnext, htake, List.length_append, List.length_singleton] at hpush
    omega
  · rw [if_pos hout]
    refine hcases.resolve_right fun htake => ?_
    rw [hnext, htake, length_units_take] at hpush
    omega
  · rw [if_neg fun htaken => hout (.inl htaken)]
    refine hcases.resolve_left fun htake => ?_
    have hunits : (b.push p).1.units.length = b.units.length := by rw [hnext]; rfl
    rw [htake, List.length_append, List.length_singleton] at hpush
    omega

/-- **What is taken is written behind what has been taken, in order.** -/
theorem Built.pushAll_taken (h : Built maxChars reads format ps b) (pieces : List (π × Push)) :
    Built maxChars reads format (ps ++ takenPushes b pieces)
      (b.pushAll (pieces.map Prod.snd)) := by
  induction pieces generalizing ps b with
  | nil => rwa [takenPushes, List.append_nil]
  | cons piece pieces ih =>
    have hnext := ih (h.push piece.2)
    rw [h.takeOne_eq] at hnext
    have hsplit : ps ++ takenPushes b (piece :: pieces) =
        (if b.outcome piece.2 = .taken then ps ++ [piece.2.trimmed] else ps) ++
          takenPushes (b.push piece.2).1 pieces := by
      rw [takenPushes]
      split_ifs
      · exact List.append_assoc .. |>.symm
      · rfl
    rw [hsplit]
    exact hnext

/-- No more units are taken than there may be. -/
theorem Built.length_taken_le (h : Built maxChars reads format ps b) (pieces : List (π × Push)) :
    (takenPushes b pieces).length ≤ 512 := by
  have hcount := (h.pushAll_taken pieces).count
  rw [List.length_append] at hcount
  exact (Nat.le_add_left _ _).trans hcount

end Built

/-- What some pieces cost, with a line end for each. -/
def pricedSum {π : Type} (pieces : List (π × Push)) : ℕ :=
  (pieces.map fun piece => countChars piece.2.text + 1).sum

/-- **Pieces that have been priced are not refused for lack of characters.** -/
theorem pushLog_room {π : Type} {maxChars : ℕ} {reads : Option (List SourceRange)} {format : Text}
    {ps : List Push} {b : AuditTextBuilder} {pieces : List (π × Push)}
    (h : Built maxChars reads format ps b) (hprice : span ps + pricedSum pieces ≤ maxChars + 1) :
    ∀ e ∈ pushLog b pieces, e.2 ≠ .noRoom := by
  induction pieces generalizing ps b with
  | nil => nofun
  | cons piece pieces ih =>
    have hsum : pricedSum (piece :: pieces) = countChars piece.2.text + 1 + pricedSum pieces := rfl
    have htrim : countChars (trim piece.2.text) ≤ countChars piece.2.text := length_trim_le _
    refine List.forall_mem_cons.2 ⟨?_, ih (h.push piece.2) ?_⟩
    · have hfits : ¬ b.maxChars < b.nextStart + countChars (trim piece.2.text) := by
        rw [h.limit, nextStart, h.start]
        omega
      simp only [outcome, hfits, if_false]
      split_ifs <;> nofun
    · have hspan : span (takeOne maxChars reads format ps piece.2) ≤
          span ps + (countChars piece.2.text + 1) := by
        unfold takeOne
        split_ifs
        · rw [span_append, span_singleton]
          exact Nat.add_le_add_left (Nat.succ_le_succ htrim) _
        · omega
      omega

end DailyReport
