import DailyReport.Archive.Reader

/-!
# What is written is read back

The pieces of the pushed texts are numbered in the order in which they are written.

* `Written.accounts` : the sizes that the writer counts are those of its files;
* `Written.holds` : every piece that was written stands in the files;
* `archive_roundTrip` : **an artifact keeps its limit, agrees with its manifest and gives back the
  pieces of every text**, up to the text at which the limit is reached.
-/

namespace DailyReport.Archive

open Lib

variable {digest : Bytes → Text}

/-! ### Sizes -/

/-- The bytes of a text are those of its characters. -/
theorem length_encodeUtf8 (t : Text) : (encodeUtf8 t).length = byteSize t := by
  induction t with
  | nil => rfl
  | cons c t ih =>
    rw [encodeUtf8_cons, List.length_append, ih, byteSize_cons, String.length_utf8EncodeChar]

/-- A text has no more characters than bytes. -/
theorem length_le_byteSize (t : Text) : t.length ≤ byteSize t := by
  induction t with
  | nil => exact Nat.zero_le _
  | cons c t ih =>
    have hpos := c.utf8Size_pos
    rw [List.length_cons, byteSize_cons]
    omega

/-- The pieces that a writer has written, one after the other. -/
inductive Written (digest : Bytes → Text) (maxBytes : ℕ) : ArchiveWriter → List Pushed → Prop
  | new : Written digest maxBytes (.new maxBytes) []
  | write {w w' : ArchiveWriter} {pieces : List Pushed} {piece : Pushed}
    (h : Written digest maxBytes w pieces) (hsize : byteSize piece.text ≤ maxPieceBytes)
    (hwrite : w.writeUnit digest piece.text piece.kind piece.ranges = some w') :
    Written digest maxBytes w' (pieces ++ [piece])
  | stop {w : ArchiveWriter} {pieces : List Pushed} (h : Written digest maxBytes w pieces) :
    Written digest maxBytes { w with truncated := true } pieces

/-- What a unit that is written does. -/
theorem writeUnit_eq_some {w w' : ArchiveWriter} {text : Text} {kind : ContentUnitKind}
    {ranges : List SourceRange} (h : w.writeUnit digest text kind ranges = some w') :
    w.bytes + w.unitBytes + (w.count + 1) * 8 + w.separator.length + byteSize text +
        (w.nextUnit digest text kind ranges).line.length ≤ w.maxBytes ∧
      w' = { w with
        body := w.body ++ encodeUtf8 w.separator ++ encodeUtf8 text
        units := w.units ++ (w.nextUnit digest text kind ranges).line
        index := w.index ++ leBytes 8 w.unitBytes
        bytes := (w.nextUnit digest text kind ranges).byteEnd
        unitBytes := w.unitBytes + (w.nextUnit digest text kind ranges).line.length
        count := w.count + 1
        chars := (w.nextUnit digest text kind ranges).textEnd
        usable := w.usable + usableChars kind text.length
        headers := addHeader w.headers kind ranges (w.count + 1) } := by
  simp only [ArchiveWriter.writeUnit] at h
  split at h
  · cases h
  · rename_i hlimit
    exact ⟨Nat.le_of_not_lt hlimit, (Option.some.inj h).symm⟩

/-- The sizes that a writer counts are those of its files. -/
structure Accounts (most : ℕ) (w : ArchiveWriter) (count : ℕ) : Prop where
  maxBytes : w.maxBytes = most
  bytes : w.body.length = w.bytes
  unitBytes : w.units.length = w.unitBytes
  index : w.index.length = w.count * 8
  count : w.count = count
  chars : w.chars ≤ w.bytes
  fits : w.bytes + w.unitBytes + w.count * 8 ≤ most

theorem length_separator (w : ArchiveWriter) :
    (encodeUtf8 w.separator).length = w.separator.length := by
  unfold ArchiveWriter.separator
  split <;> rfl

theorem Written.accounts {maxBytes : ℕ} {w : ArchiveWriter} {pieces : List Pushed}
    (h : Written digest maxBytes w pieces) : Accounts maxBytes w pieces.length := by
  induction h with
  | new => exact ⟨rfl, rfl, rfl, rfl, rfl, le_rfl, Nat.zero_le _⟩
  | @write w w' pieces piece _ _ hwrite ih =>
    obtain ⟨hlimit, rfl⟩ := writeUnit_eq_some hwrite
    have hchars := length_le_byteSize piece.text
    obtain ⟨hmax, hbytes, hunits, hindex, hcount, hle, -⟩ := ih
    have hsep := length_separator w
    exact
      { maxBytes := hmax
        bytes := by
          simp only [List.length_append, hbytes, hsep, length_encodeUtf8]
          rfl
        unitBytes := by rw [List.length_append, hunits]
        index := by
          rw [List.length_append, length_leBytes, hindex]
          exact (Nat.succ_mul w.count 8).symm
        count := by rw [List.length_append, hcount, List.length_singleton]
        chars := by
          simp only [ArchiveWriter.nextUnit]
          omega
        fits := by
          simp only [ArchiveWriter.nextUnit] at hlimit ⊢
          omega }
  | stop _ ih => exact ⟨ih.maxBytes, ih.bytes, ih.unitBytes, ih.index, ih.count, ih.chars, ih.fits⟩

/-! ### Pieces in the files -/

/-- A piece stands in the files, with its line as the `i`-th one. -/
structure Holds (digest : Bytes → Text) (files : ArchiveFiles) (i : ℕ) (piece : Pushed)
    (unit : UnitLine) : Prop where
  kind : unit.kind = piece.kind
  ranges : unit.ranges = piece.ranges
  unitId : unit.unitId = unitIdOf (i + 1)
  sha256 : unit.sha256 = digest (encodeUtf8 piece.text)
  byteEnd : unit.byteEnd = unit.byteStart + (encodeUtf8 piece.text).length
  textStart : unit.textStart ≤ unit.byteStart
  textEnd : unit.textEnd ≤ unit.byteEnd
  body : StandsAt (encodeUtf8 piece.text) unit.byteStart files.body
  line : ∃ start, StandsAt unit.line start files.units ∧
    StandsAt (leBytes 8 start) (i * 8) files.index

/-- A piece stays where it is. -/
theorem Holds.append {files : ArchiveFiles} {i : ℕ} {piece : Pushed} {unit : UnitLine}
    (h : Holds digest files i piece unit) (body units index : Bytes) :
    Holds digest ⟨files.body ++ body, files.units ++ units, files.index ++ index⟩ i piece unit := by
  obtain ⟨start, hline, hindex⟩ := h.line
  exact { h with
    body := h.body.append body
    line := ⟨start, hline.append units, hindex.append index⟩ }

/-- A piece stands in the files when it has been written. -/
theorem holds_writeUnit {most : ℕ} {w w' : ArchiveWriter} {count : ℕ} {piece : Pushed}
    (h : Accounts most w count)
    (hwrite : w.writeUnit digest piece.text piece.kind piece.ranges = some w') :
    Holds digest w'.files count piece (w.nextUnit digest piece.text piece.kind piece.ranges) := by
  obtain ⟨-, rfl⟩ := writeUnit_eq_some hwrite
  have hchars := h.chars
  have hle := length_le_byteSize piece.text
  have hstart : (w.body ++ encodeUtf8 w.separator).length = w.bytes + w.separator.length := by
    rw [List.length_append, h.bytes, length_separator]
  exact
    { kind := rfl
      ranges := rfl
      unitId := by rw [← h.count]; rfl
      sha256 := rfl
      byteEnd := by rw [length_encodeUtf8]; rfl
      textStart := Nat.add_le_add_right hchars _
      textEnd := by
        simp only [ArchiveWriter.nextUnit]
        omega
      body := by
        have hstands := standsAt_append (w.body ++ encodeUtf8 w.separator) (encodeUtf8 piece.text)
        rwa [hstart] at hstands
      line := by
        refine ⟨w.unitBytes, ?_, ?_⟩
        · rw [← h.unitBytes]
          exact standsAt_append w.units _
        · rw [← h.count, ← h.index]
          exact standsAt_append w.index _ }

/-- **Every piece that was written stands in the files.** -/
theorem Written.holds {most : ℕ} {w : ArchiveWriter} {pieces : List Pushed}
    (h : Written digest most w pieces) {i : ℕ} {piece : Pushed} (hi : pieces[i]? = some piece) :
    ∃ unit, Holds digest w.files i piece unit := by
  induction h with
  | new => cases hi
  | @write w w' pieces last hw _ hwrite ih =>
    rcases Nat.lt_trichotomy i pieces.length with hlt | rfl | hgt
    · rw [List.getElem?_append_left hlt] at hi
      obtain ⟨unit, hunit⟩ := ih hi
      obtain ⟨-, rfl⟩ := writeUnit_eq_some hwrite
      refine ⟨unit, ?_⟩
      unfold ArchiveWriter.files
      rw [List.append_assoc]
      exact hunit.append _ _ _
    · rw [List.getElem?_concat_length] at hi
      cases hi
      exact ⟨_, holds_writeUnit hw.accounts hwrite⟩
    · rw [List.getElem?_eq_none (by rw [List.length_append, List.length_singleton]; omega)] at hi
      cases hi
  | stop _ ih => exact ih hi

theorem Written.byteSize_le {most : ℕ} {w : ArchiveWriter} {pieces : List Pushed}
    (h : Written digest most w pieces) : ∀ piece ∈ pieces, byteSize piece.text ≤ maxPieceBytes := by
  induction h with
  | new => exact fun piece hpiece => absurd hpiece List.not_mem_nil
  | write _ hsize _ ih =>
    intro piece hpiece
    rcases List.mem_append.1 hpiece with hpiece | hpiece
    · exact ih piece hpiece
    · rw [List.mem_singleton.1 hpiece]
      exact hsize
  | stop _ ih => exact ih

/-! ### Reading a piece -/

section

variable {files : ArchiveFiles} {i : ℕ} {piece : Pushed} {unit : UnitLine}

/-- The numbers of a line are numbers of the machine when the files are not too long. -/
theorem Holds.fits (h : Holds digest files i piece unit) (hbody : files.body.length ≤ u64Max)
    (hranges : ∀ range ∈ piece.ranges, range.Fits) : unit.Fits := by
  have hend := h.body.length_le
  rw [← h.byteEnd] at hend
  have hle : unit.byteStart ≤ unit.byteEnd := h.byteEnd ▸ Nat.le_add_right _ _
  have hstart := h.textStart
  have htext := h.textEnd
  exact ⟨by omega, by omega, by omega, by omega, h.ranges ▸ hranges⟩

/-- **A piece is read back from its line**, if the line is not longer than the limit. -/
theorem Holds.unit_eq (h : Holds digest files i piece unit) (reader : LineReader)
    (hfits : unit.Fits) (hunits : files.units.length ≤ u64Max)
    (hsize : (encodeUtf8 unit.json.print).length ≤ maxReadBytes) :
    files.unit reader (i + 1) = .ok unit := by
  obtain ⟨start, hline, hindex⟩ := h.line
  have hstart := hline.length_le
  have hplace : readExact files.index (i * 8) 8 = .ok (leBytes 8 start) := by
    have hread := readExact_of_standsAt hindex
    rwa [length_leBytes] at hread
  have hnum : ofLeBytes (leBytes 8 start) = start :=
    ofLeBytes_leBytes (by unfold u64Max at hunits; omega)
  obtain ⟨line, hread, hvalue⟩ := reader.read_readLine hline hsize
  unfold ArchiveFiles.unit
  rw [if_neg (Nat.succ_ne_zero i), Nat.add_sub_cancel, hplace]
  simp only [bind, Except.bind, hnum, hread, hvalue, Option.bind_some, UnitLine.ofJson_json hfits,
    h.unitId]
  exact if_neg fun hne => hne rfl

theorem Holds.text_eq (h : Holds digest files i piece unit)
    (hsize : byteSize piece.text ≤ maxPieceBytes) :
    files.text digest unit.toArchiveUnit = .ok piece.text := by
  refine files.text_eq h.body h.byteEnd h.sha256 ?_
  rw [length_encodeUtf8]
  exact hsize.trans (by decide)

end

/-! ### The pieces of a text -/

/-- The largest beginning of a text that is not longer than a number of bytes. -/
theorem charBoundary_spec (t : Text) (n : ℕ) : ∃ a b,
    splitAtByte t (charBoundary t n) = some (a, b) ∧ byteSize a ≤ n ∧
      ∀ x y, t = x ++ y → byteSize x ≤ n → byteSize x ≤ byteSize a := by
  induction n with
  | zero =>
    refine ⟨[], t, ?_, le_rfl, fun x y _ hx => hx⟩
    unfold charBoundary splitAtByte
    rfl
  | succ n ih =>
    unfold charBoundary
    by_cases hsome : (splitAtByte t (n + 1)).isSome
    · rw [if_pos hsome]
      obtain ⟨⟨a, b⟩, hsplit⟩ := Option.isSome_iff_exists.1 hsome
      obtain ⟨-, hsize⟩ := splitAtByte_eq_some hsplit
      exact ⟨a, b, hsplit, hsize.le, fun x y _ hx => hsize ▸ hx⟩
    · rw [if_neg hsome]
      obtain ⟨a, b, hsplit, hle, hmost⟩ := ih
      refine ⟨a, b, hsplit, hle.trans (Nat.le_succ n), fun x y hxy hx => hmost x y hxy ?_⟩
      -- no beginning ends at the place itself
      refine Nat.le_of_lt_succ (lt_of_le_of_ne hx fun heq => hsome ?_)
      change byteSize x = n + 1 at heq
      rw [hxy, ← heq, splitAtByte_append]
      rfl

/-- The next piece of a text is not empty. -/
theorem nextPiece_spec (c : Char) (rest : Text) : ∃ part later,
    splitAtByte (c :: rest) (charBoundary (c :: rest) (min (byteSize (c :: rest)) maxPieceBytes)) =
        some (part, later) ∧
      c :: rest = part ++ later ∧ byteSize part ≤ maxPieceBytes ∧
        later.length < (c :: rest).length := by
  obtain ⟨part, later, hsplit, hle, hmost⟩ :=
    charBoundary_spec (c :: rest) (min (byteSize (c :: rest)) maxPieceBytes)
  obtain ⟨htext, -⟩ := splitAtByte_eq_some hsplit
  have hchar : byteSize [c] ≤ min (byteSize (c :: rest)) maxPieceBytes := by
    have hfour : c.utf8Size ≤ 4 := c.utf8Size_le_four
    have hmax : maxPieceBytes = 262144 := rfl
    simp only [byteSize_cons, byteSize_nil]
    omega
  have hpos : 0 < byteSize part :=
    (byteSize_pos (List.cons_ne_nil c [])).trans_le (hmost [c] rest rfl hchar)
  refine ⟨part, later, hsplit, htext, hle.trans (Nat.min_le_right _ _), ?_⟩
  cases part with
  | nil => exact absurd hpos (lt_irrefl 0)
  | cons d part =>
    rw [htext, List.length_append, List.length_cons]
    omega

/-- The pieces of one text. -/
def piecesOf (kind : ContentUnitKind) (ranges : List SourceRange) (parts : List Text) :
    List Pushed :=
  parts.map fun text => ⟨text, kind, ranges⟩

/-- A text is written piece by piece, as long as the limit allows it. -/
theorem pushLoop_spec {most : ℕ} (kind : ContentUnitKind) (ranges : List SourceRange) (fuel : ℕ)
    (text : Text) {w : ArchiveWriter} {pieces : List Pushed} (hw : Written digest most w pieces)
    (hopen : w.truncated = false) (hfuel : text.length ≤ fuel) : ∃ w' parts missing,
      pushLoop digest kind ranges fuel w text = some (w', !w'.truncated) ∧
        text = parts.flatten ++ missing ∧ (w'.truncated = false ↔ missing = []) ∧
          Written digest most w' (pieces ++ piecesOf kind ranges parts) := by
  induction fuel generalizing text w pieces with
  | zero =>
    have hnil := List.eq_nil_of_length_eq_zero (Nat.le_zero.1 hfuel)
    subst hnil
    exact ⟨w, [], [], by rw [pushLoop, hopen]; rfl, rfl, by simp [hopen], by simpa [piecesOf]⟩
  | succ fuel ih =>
    cases text with
    | nil =>
      exact ⟨w, [], [], by rw [pushLoop, hopen]; rfl, rfl, by simp [hopen], by simpa [piecesOf]⟩
    | cons c rest =>
      obtain ⟨part, later, hsplit, htext, hsize, hshort⟩ := nextPiece_spec c rest
      rw [pushLoop, hsplit, Option.bind_some]
      cases hwrite : w.writeUnit digest part kind ranges with
      | none =>
        -- the limit is reached
        refine ⟨{ w with truncated := true }, [], c :: rest, ?_, rfl, by simp,
          by simpa [piecesOf] using hw.stop⟩
        simp only [hwrite, Bool.not_true]
      | some next =>
        have hnext : Written digest most next (pieces ++ [⟨part, kind, ranges⟩]) :=
          .write hw hsize hwrite
        have hnextOpen : next.truncated = false := by
          obtain ⟨-, rfl⟩ := writeUnit_eq_some hwrite
          exact hopen
        obtain ⟨w', parts, missing, hloop, hlater, hmissing, hw'⟩ :=
          ih later hnext hnextOpen (by omega)
        refine ⟨w', part :: parts, missing, ?_, ?_, hmissing, ?_⟩
        · simp only [hwrite, hloop]
        · rw [htext, hlater, List.flatten_cons, List.append_assoc]
        · rwa [List.append_assoc] at hw'

/-! ### The texts of a run -/

/-- How pushed texts are cut into pieces: as a whole, up to the text at which the limit is reached,
of which something is missing. -/
inductive Cut : List Pushed → List (List Text) → Bool → Prop
  | nil : Cut [] [] false
  | whole {push : Pushed} {pushes : List Pushed} {parts : List Text} {rest : List (List Text)}
    {truncated : Bool} (h : trim push.text = parts.flatten) (hrest : Cut pushes rest truncated) :
    Cut (push :: pushes) (parts :: rest) truncated
  | stop {push : Pushed} (pushes : List Pushed) {parts : List Text} {missing : Text}
    (h : trim push.text = parts.flatten ++ missing) (hmissing : missing ≠ []) :
    Cut (push :: pushes) (parts :: pushes.map fun _ => []) true

/-- No text is missing when the limit is not reached. -/
theorem Cut.complete {pushes : List Pushed} {parts : List (List Text)} {truncated : Bool}
    (h : Cut pushes parts truncated) (hopen : truncated = false) :
    List.Forall₂ (fun push texts => trim push.text = texts.flatten) pushes parts := by
  induction h with
  | nil => exact List.Forall₂.nil
  | whole h _ ih => exact List.Forall₂.cons h (ih hopen)
  | stop => cases hopen

/-- The pieces of all texts. -/
def allPieces : List Pushed → List (List Text) → List Pushed
  | push :: pushes, parts :: rest =>
    piecesOf push.kind push.ranges parts ++ allPieces pushes rest
  | _, _ => []

theorem allPieces_empty (pushes others : List Pushed) :
    allPieces pushes (others.map fun _ => []) = [] := by
  induction pushes generalizing others with
  | nil => rfl
  | cons push pushes ih =>
    cases others with
    | nil => rfl
    | cons other others => exact ih others

/-- The ranges of a piece are those of its text. -/
theorem exists_of_mem_allPieces {pushes : List Pushed} {parts : List (List Text)} {piece : Pushed}
    (h : piece ∈ allPieces pushes parts) : ∃ push ∈ pushes, piece.ranges = push.ranges := by
  induction pushes generalizing parts with
  | nil => cases h
  | cons push pushes ih =>
    cases parts with
    | nil => cases h
    | cons texts rest =>
      rcases List.mem_append.1 h with h | h
      · obtain ⟨text, -, rfl⟩ := List.mem_map.1 h
        exact ⟨push, List.mem_cons_self, rfl⟩
      · obtain ⟨other, hother, hranges⟩ := ih h
        exact ⟨other, List.mem_cons_of_mem _ hother, hranges⟩

theorem pushAll_cons (w : ArchiveWriter) (push : Pushed) (pushes : List Pushed) :
    w.pushAll digest (push :: pushes) = (w.push digest push.text push.kind push.ranges).bind
      fun next => next.1.pushAll digest pushes := by
  unfold ArchiveWriter.pushAll
  rw [List.foldlM_cons]
  exact Option.bind_map

theorem pushAll_truncated {w : ArchiveWriter} (h : w.truncated = true) (pushes : List Pushed) :
    w.pushAll digest pushes = some w := by
  induction pushes with
  | nil => rfl
  | cons push pushes ih => rw [pushAll_cons, ArchiveWriter.push, if_pos h, Option.bind_some, ih]

/-- **A run writes the pieces of its texts.** -/
theorem pushAll_spec {most : ℕ} (pushes : List Pushed) {w : ArchiveWriter} {pieces : List Pushed}
    (hw : Written digest most w pieces) (hopen : w.truncated = false) : ∃ w' parts,
      w.pushAll digest pushes = some w' ∧ Cut pushes parts w'.truncated ∧
        Written digest most w' (pieces ++ allPieces pushes parts) := by
  induction pushes generalizing w pieces with
  | nil => exact ⟨w, [], rfl, hopen ▸ .nil, by simpa [allPieces] using hw⟩
  | cons push pushes ih =>
    obtain ⟨next, texts, missing, hpush, htext, hmissing, hnext⟩ :=
      pushLoop_spec push.kind push.ranges _ (trim push.text) hw hopen le_rfl
    rw [pushAll_cons, ArchiveWriter.push, hopen, if_neg Bool.false_ne_true, hpush,
      Option.bind_some]
    cases hnextOpen : next.truncated with
    | false =>
      obtain ⟨w', parts, hrun, hcut, hw'⟩ := ih hnext hnextOpen
      rw [hmissing.1 hnextOpen, List.append_nil] at htext
      refine ⟨w', texts :: parts, hrun, .whole htext hcut, ?_⟩
      rwa [allPieces, ← List.append_assoc]
    | true =>
      refine ⟨next, texts :: pushes.map fun _ => [], pushAll_truncated hnextOpen pushes, ?_, ?_⟩
      · rw [hnextOpen]
        exact .stop pushes htext fun h => by simp [hmissing.2 h] at hnextOpen
      · rwa [allPieces, allPieces_empty, List.append_nil]

/-! ### The artifact -/

/-- What holds of the artifact of a run. -/
structure RoundTrip (digest : Bytes → Text) (reader : LineReader) (maxBytes : ℕ)
    (pushes : List Pushed) (files : ArchiveFiles) (artifact : ArchiveArtifact) : Prop where
  /-- The limit is kept. -/
  limit : files.body.length + files.units.length + artifact.units * 8 ≤ maxBytes
  /-- The files agree with the manifest. -/
  verified : ∀ hash,
    files.verifyArtifact digest { artifact with rawSha256 := hash } hash = .ok ()
  /-- The pieces of the texts are read back. -/
  pieces : ∃ parts, Cut pushes parts artifact.truncated ∧
    (allPieces pushes parts).length = artifact.units ∧
    ∀ i piece, (allPieces pushes parts)[i]? = some piece → ∃ unit : UnitLine,
      unit.kind = piece.kind ∧ unit.ranges = piece.ranges ∧
      ((encodeUtf8 unit.json.print).length ≤ maxReadBytes →
        files.unit reader (i + 1) = .ok unit) ∧
      files.text digest unit.toArchiveUnit = .ok piece.text

theorem verifyArtifact_finish {most count : ℕ} {w : ArchiveWriter} (h : Accounts most w count)
    (hash : Text) :
    w.files.verifyArtifact digest { w.finish digest with rawSha256 := hash } hash = .ok () := by
  have hbody := h.bytes
  have hunits := h.unitBytes
  have hindex := h.index
  simp [ArchiveFiles.verifyArtifact, ArchiveWriter.files, ArchiveWriter.finish, *]

/-- **An artifact keeps its limit, agrees with its manifest and gives back the pieces of every
text.** -/
theorem archive_roundTrip (digest : Bytes → Text) (reader : LineReader) (maxBytes : ℕ)
    (hmax : maxBytes ≤ u64Max) (pushes : List Pushed)
    (hranges : ∀ push ∈ pushes, ∀ range ∈ push.ranges, range.Fits) :
    ∃ w, (ArchiveWriter.new maxBytes).pushAll digest pushes = some w ∧
      RoundTrip digest reader maxBytes pushes w.files (w.finish digest) := by
  have hnew : Written digest maxBytes (.new maxBytes) [] := .new
  obtain ⟨w, parts, hrun, hcut, hwritten⟩ := pushAll_spec pushes hnew rfl
  rw [List.nil_append] at hwritten
  have haccounts := hwritten.accounts
  have hfits := haccounts.fits
  refine ⟨w, hrun, ?_, verifyArtifact_finish haccounts, parts, hcut, haccounts.count.symm, ?_⟩
  · rw [← haccounts.bytes, ← haccounts.unitBytes] at hfits
    exact hfits
  intro i piece hi
  obtain ⟨unit, hunit⟩ := hwritten.holds hi
  obtain ⟨push, hpush, heq⟩ := exists_of_mem_allPieces (List.mem_of_getElem? hi)
  have hbody : w.files.body.length ≤ u64Max := by
    have hbytes : w.files.body.length = w.bytes := haccounts.bytes
    omega
  have hunits : w.files.units.length ≤ u64Max := by
    have hbytes : w.files.units.length = w.unitBytes := haccounts.unitBytes
    omega
  have hline := hunit.fits hbody (heq ▸ hranges push hpush)
  exact ⟨unit, hunit.kind, hunit.ranges, hunit.unit_eq reader hline hunits,
    hunit.text_eq (hwritten.byteSize_le piece (List.mem_of_getElem? hi))⟩

/-- A reader of exactly the lines that are written. -/
def strictLineReader : LineReader where
  read line := Json.parse (if line.getLast? = some '\n' then line.dropLast else line)
  read_print v := by
    rw [if_neg, Json.parse_print]
    exact fun h => Json.newline_not_mem_print v (List.mem_of_getLast? h)
  read_line v := by rw [if_pos (by simp), List.dropLast_concat, Json.parse_print]

/-- The digest of the text `a`. -/
def digestOfA : Bytes → Text := fun _ =>
  lit "ca978112ca1bbdcafac231b39a23dc4da786eff8147c4e72b9807785afee48bb"

def labelled (label : Text) : Pushed := ⟨['a'], .text, [⟨.textChar, 1, 2, some label, none, none⟩]⟩

theorem archive_roundTrip_labelled : ∃ w,
    (ArchiveWriter.new 268435456).pushAll digestOfA [labelled ['b']] = some w ∧
      RoundTrip digestOfA strictLineReader 268435456 [labelled ['b']] w.files
        (w.finish digestOfA) :=
  archive_roundTrip digestOfA strictLineReader 268435456 (by decide) [labelled ['b']] fun push hpush
    range hrange => by
      rw [List.mem_singleton] at hpush
      subst hpush
      rw [labelled, List.mem_singleton] at hrange
      subst hrange
      exact ⟨by decide, by decide, fun n hn => (by cases hn), fun n hn => (by cases hn)⟩

/-! ### A line that is too long -/

/-- A field of an object, with the comma behind it. -/
def fieldText (field : Text × Json) : Text :=
  Json.printStr field.1 ++ ':' :: field.2.print ++ [',']

theorem printFields_append (fields : List (Text × Json)) (field : Text × Json)
    (rest : List (Text × Json)) : Json.printFields (fields ++ field :: rest) =
      fields.flatMap fieldText ++ Json.printFields (field :: rest) := by
  induction fields with
  | nil => rfl
  | cons first fields ih =>
    have hne : fields ++ field :: rest ≠ [] := by simp
    obtain ⟨next, others, hnext⟩ := List.exists_cons_of_ne_nil hne
    rw [hnext] at ih
    rw [List.cons_append, hnext, Json.printFields, ih]
    · simp [fieldText]
    · simp

theorem printChars_replicate (k : ℕ) :
    Json.printChars (List.replicate k '中') = List.replicate k '中' ++ ['"'] := by
  induction k with
  | zero => rfl
  | succ k ih =>
    rw [List.replicate_succ, Json.printChars, ih]
    rfl

/-- The line of a text with a label. -/
def labelledUnit (label : Text) : UnitLine :=
  (ArchiveWriter.new 268435456).nextUnit digestOfA ['a'] .text (labelled label).ranges

/-- The fields in front of the ranges. -/
def unitFields : List (Text × Json) :=
  [(lit "unit_id", .str (unitIdOf 1)), (lit "kind", .str (lit "text")),
    (lit "byte_start", .num 0), (lit "byte_end", .num 1), (lit "text_start", .num 0),
    (lit "text_end", .num 1), (lit "sha256", .str (digestOfA []))]

/-- The fields in front of the label. -/
def rangeFields : List (Text × Json) :=
  [(lit "unit", .str (lit "text_char")), (lit "start", .num 1), (lit "end", .num 2)]

/-- The fields behind the label. -/
def columnFields : List (Text × Json) := [(lit "column_start", .null), (lit "column_end", .null)]

/-- What stands before the label in its range, and in its line. -/
def rangeFront : Text :=
  '[' :: '{' :: rangeFields.flatMap fieldText ++ Json.printStr (lit "label") ++ [':', '"']

def lineFront : Text :=
  '{' :: unitFields.flatMap fieldText ++ Json.printStr (lit "ranges") ++ ':' :: rangeFront

/-- What stands behind the label. -/
def rangeBack : Text := ',' :: Json.printFields columnFields ++ [']']

theorem print_labelled (label : Text) :
    (Json.arr ((labelled label).ranges.map SourceRange.json)).print =
      rangeFront ++ (Json.printChars label ++ rangeBack) := by
  have hranges : (labelled label).ranges.map SourceRange.json =
      [.obj (rangeFields ++ (lit "label", .str label) :: columnFields)] := rfl
  rw [hranges, Json.print, Json.printItems, Json.print, printFields_append, columnFields,
    Json.printFields, Json.print, Json.printStr]
  · simp [rangeFront, rangeBack, columnFields, Json.printStr]
  · simp

theorem print_labelledUnit (label : Text) : (labelledUnit label).json.print =
    lineFront ++ (Json.printChars label ++ (rangeBack ++ ['}'])) := by
  have hunit : (labelledUnit label).json = .obj (unitFields ++
      [(lit "ranges", .arr ((labelled label).ranges.map SourceRange.json))]) := rfl
  rw [hunit, Json.print, printFields_append, Json.printFields, print_labelled]
  simp [lineFront]

/-- A label with which the line is longer than the limit. -/
def wideLabel : Text := List.replicate 349453 '中'

theorem length_encode_replicate (k : ℕ) : (encodeUtf8 (List.replicate k '中')).length = 3 * k := by
  rw [length_encodeUtf8, byteSize, List.map_replicate, List.sum_replicate]
  exact Nat.mul_comm k 3

/-- A line that is longer than the limit is read up to the middle of a character. -/
theorem readLine_wideLabel {file rest : Bytes}
    (h : file = encodeUtf8 (labelledUnit wideLabel).json.print ++ rest) :
    readLine file 0 = .error (lit "IO_FAILED") := by
  have hprint : (labelledUnit wideLabel).json.print =
      (lineFront ++ List.replicate 349452 '中') ++ '中' :: ('"' :: (rangeBack ++ ['}'])) := by
    rw [print_labelledUnit, wideLabel, printChars_replicate, List.replicate_succ']
    simp only [List.append_assoc, List.cons_append, List.nil_append]
  have hfront : (encodeUtf8 (lineFront ++ List.replicate 349452 '中')).length + 1 = maxReadBytes := by
    have hline : (encodeUtf8 lineFront).length = 219 := by decide +kernel
    rw [encodeUtf8_append, List.length_append, hline, length_encode_replicate]
    rfl
  have hread : file.take maxReadBytes =
      encodeUtf8 (lineFront ++ List.replicate 349452 '中') ++ [0xE4] := by
    rw [h, hprint, encodeUtf8_append, ← hfront, List.append_assoc, List.take_length_add_append]
    rfl
  have hnewline : asciiByte '\n' ∉ file.take maxReadBytes := by
    rw [hread]
    intro hmem
    refine Json.newline_not_mem_encode (labelledUnit wideLabel).json ?_
    rw [hprint, encodeUtf8_append]
    rcases List.mem_append.1 hmem with hmem | hmem
    · exact List.mem_append_left _ hmem
    · exact absurd hmem (by decide)
  unfold readLine
  rw [List.drop_zero, takeLine_of_notMem hnewline, hread, decodeUtf8_encodeUtf8_append]
  exact if_neg (by decide)

theorem length_wideLabel_line : (labelledUnit wideLabel).line.length ≤ 1100000 := by
  have hfront : (encodeUtf8 lineFront).length ≤ 300 := by decide +kernel
  have hback : (encodeUtf8 (['"'] ++ (rangeBack ++ ['}']) ++ ['\n'])).length ≤ 300 := by
    decide +kernel
  rw [UnitLine.line, print_labelledUnit, wideLabel, printChars_replicate]
  simp only [encodeUtf8_append, List.length_append, length_encode_replicate] at hback ⊢
  omega

/-- A text with a label is written when its line fits. -/
theorem pushAll_labelled {label : Text} (h : (labelledUnit label).line.length ≤ 1100000) :
    ∃ w, (ArchiveWriter.new 268435456).pushAll digestOfA [labelled label] = some w ∧
      w.count = 1 ∧ w.truncated = false ∧ w.units = (labelledUnit label).line ∧
      w.index = leBytes 8 0 := by
  have hfits : ¬ 0 + 0 + (0 + 1) * 8 + 0 + 1 + (labelledUnit label).line.length > 268435456 := by
    omega
  have htrim : trim ['a'] = ['a'] := by decide
  have hsplit : splitAtByte ['a'] (charBoundary ['a'] (min (byteSize ['a']) maxPieceBytes)) =
      some (['a'], []) := by decide
  obtain ⟨w, hwrite⟩ : ∃ w, (ArchiveWriter.new 268435456).writeUnit digestOfA ['a'] .text
      (labelled label).ranges = some w := ⟨_, if_neg hfits⟩
  have hpush : (ArchiveWriter.new 268435456).push digestOfA ['a'] .text (labelled label).ranges =
      some (w, true) := by
    unfold ArchiveWriter.push
    rw [if_neg (by exact Bool.false_ne_true), htrim, List.length_singleton, pushLoop, hsplit,
      Option.bind_some]
    simp only [hwrite]
    rfl
  obtain ⟨-, hw⟩ := writeUnit_eq_some hwrite
  refine ⟨w, ?_, hw ▸ rfl, hw ▸ rfl, hw ▸ rfl, hw ▸ rfl⟩
  rw [pushAll_cons]
  exact congrArg (fun r => Option.bind r fun next => next.1.pushAll digestOfA []) hpush

/-- At the limit a text loses its pieces, and a line that is too long is not read although its
ranges are not. -/
theorem archive_limits_fail :
    (trim ['a'] = ['a'] ∧ ((ArchiveWriter.new 0).pushAll digestOfA [labelled []]).map
      ArchiveWriter.count = some 0) ∧
    (encodeUtf8 (Json.arr ((labelled wideLabel).ranges.map SourceRange.json)).print).length <
      maxReadBytes ∧
    ∃ w, (ArchiveWriter.new 268435456).pushAll digestOfA [labelled wideLabel] = some w ∧
      w.count = 1 ∧ w.truncated = false ∧
      ∀ reader, w.files.unit reader 1 = .error (lit "IO_FAILED") := by
  refine ⟨⟨by decide, by decide +kernel⟩, ?_, ?_⟩
  · rw [print_labelled, wideLabel, printChars_replicate]
    have hfront : (encodeUtf8 rangeFront).length ≤ 60 := by decide +kernel
    have hback : (encodeUtf8 (['"'] ++ rangeBack)).length ≤ 60 := by decide +kernel
    simp only [encodeUtf8_append, List.length_append, length_encode_replicate] at hback ⊢
    unfold maxReadBytes
    omega
  · obtain ⟨w, hrun, hcount, hopen, hunits, hindex⟩ := pushAll_labelled length_wideLabel_line
    refine ⟨w, hrun, hcount, hopen, fun reader => ?_⟩
    have hplace : readExact w.files.index ((1 - 1) * 8) 8 = .ok (leBytes 8 0) := by
      unfold ArchiveWriter.files
      rw [hindex]
      rfl
    have hline : readLine w.files.units (ofLeBytes (leBytes 8 0)) = .error (lit "IO_FAILED") := by
      refine @readLine_wideLabel _ (encodeUtf8 ['\n']) ?_
      rw [← encodeUtf8_append]
      exact hunits
    unfold ArchiveFiles.unit
    rw [if_neg one_ne_zero, hplace]
    simp only [bind, Except.bind, hline]

end DailyReport.Archive
