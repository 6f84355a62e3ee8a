import DailyReport.Contract.AuditBuilder

/-!
# How large an audit can be

Bounds of the encoding of an audit whose ranges are plain: 64-bit positions, no columns, and no
label but the end of the file that has been read.

* `auditBytes_le` : **the bytes of an audit are bounded by its numbers of ranges and units**.
-/

namespace DailyReport

open Lib

theorem jsonListBytes_le {α : Type} {f : α → ℕ} {l : List α} {bound : ℕ}
    (h : ∀ a ∈ l, f a ≤ bound) : jsonListBytes f l ≤ 2 + l.length * (bound + 1) := by
  have hsum : (l.map f).sum ≤ l.length * bound := by
    induction l with
    | nil => exact Nat.zero_le _
    | cons a l ih =>
      have hhead := h a List.mem_cons_self
      have htail := ih fun b hb => h b (List.mem_cons_of_mem _ hb)
      rw [List.map_cons, List.sum_cons, List.length_cons, Nat.succ_mul]
      omega
  rw [jsonListBytes, Nat.mul_succ]
  omega

theorem jsonStringBytes_append (s t : Text) :
    jsonStringBytes (s ++ t) + 2 = jsonStringBytes s + jsonStringBytes t := by
  simp only [jsonStringBytes, List.map_append, List.sum_append]
  omega

/-- A digit is written as one byte. -/
theorem jsonCharBytes_digit {c : Char} (h : c.isDigit = true) : jsonCharBytes c = 1 := by
  simp only [Char.isDigit, Bool.and_eq_true, decide_eq_true_eq, ge_iff_le,
    UInt32.le_iff_toNat_le] at h
  have hfrom : 48 ≤ c.toNat := h.1
  have hto : c.toNat ≤ 57 := h.2
  have hquote : c ≠ '"' := by
    rintro rfl
    exact absurd hfrom (by decide)
  have hback : c ≠ '\\' := by
    rintro rfl
    exact absurd hto (by decide)
  unfold jsonCharBytes
  rw [if_neg (by simp only [hquote, hback, false_or]; omega), if_neg (by omega)]
  have hval : c.val ≤ 127 := by
    rw [UInt32.le_iff_toNat_le]
    exact hto.trans (by decide)
  exact if_pos hval

theorem jsonStringBytes_decimal (n : ℕ) : jsonStringBytes (decimal n) = 2 + (decimal n).length := by
  have hsum : ∀ t : Text, (∀ c ∈ t, c.isDigit = true) → (t.map jsonCharBytes).sum = t.length := by
    intro t ht
    induction t with
    | nil => rfl
    | cons c t ih =>
      rw [List.map_cons, List.sum_cons, jsonCharBytes_digit (ht c List.mem_cons_self),
        ih fun d hd => ht d (List.mem_cons_of_mem _ hd), List.length_cons]
      omega
  rw [jsonStringBytes, hsum _ fun c hc => isDigit_of_mem_decimal hc]

/-! ### Ranges -/

/-- A range with 64-bit positions, without columns, and with no label but that of a window. -/
structure PlainRange (r : SourceRange) : Prop where
  start : r.start ≤ u64Max
  stop : r.stop ≤ u64Max
  label : r.label = none ∨ r.label = some (lit "head") ∨ r.label = some (lit "tail")
  columns : r.columnStart = none ∧ r.columnEnd = none

theorem SourceRange.jsonBytes_positions (r : SourceRange) : r.jsonBytes + 2 =
    SourceRange.jsonBytes { r with start := 0, stop := 0 } + (decimal r.start).length +
      (decimal r.stop).length := by
  have hzero : (decimal 0).length = 1 := rfl
  simp only [SourceRange.jsonBytes, jsonObjectBytes, jsonNumberBytes, List.map_cons, List.sum_cons,
    List.map_nil, List.sum_nil, List.length_cons, List.length_nil, hzero]
  omega

theorem PlainRange.bytes {r : SourceRange} (h : PlainRange r) : r.jsonBytes ≤ 160 := by
  have hpositions := r.jsonBytes_positions
  have hstart := length_decimal_le_twenty h.start
  have hstop := length_decimal_le_twenty h.stop
  have hrest : SourceRange.jsonBytes { r with start := 0, stop := 0 } ≤ 120 := by
    have hall : ∀ unit : SourceRangeUnit, ∀ label ∈ [none, some (lit "head"), some (lit "tail")],
        SourceRange.jsonBytes ⟨unit, 0, 0, label, none, none⟩ ≤ 120 := by
      intro unit
      cases unit <;> decide +kernel
    rw [h.columns.1, h.columns.2]
    refine hall r.unit r.label ?_
    rcases h.label with hlabel | hlabel | hlabel <;> simp [hlabel]
  omega

/-! ### Units -/

/-- A unit with a number for its identity and positions of 64 bits. -/
theorem ContentUnit.bytes_le (kind : ContentUnitKind) {index start stop : ℕ}
    {ranges : List SourceRange} (hindex : index ≤ u64Max) (hstart : start ≤ u64Max)
    (hstop : stop ≤ u64Max) (hranges : ∀ r ∈ ranges, PlainRange r) :
    ContentUnit.jsonBytes ⟨lit "u" ++ decimal index, kind, start, stop, ranges⟩ ≤
      160 + ranges.length * 161 := by
  have hlist : jsonListBytes SourceRange.jsonBytes ranges ≤ 2 + ranges.length * 161 :=
    jsonListBytes_le fun r hr => (hranges r hr).bytes
  have hid := jsonStringBytes_append (lit "u") (decimal index)
  rw [jsonStringBytes_decimal] at hid
  have hu : jsonStringBytes (lit "u") = 3 := by decide +kernel
  have hindex := length_decimal_le_twenty hindex
  have hstart := length_decimal_le_twenty hstart
  have hstop := length_decimal_le_twenty hstop
  have hkind : jsonStringBytes kind.wireName ≤ 14 := by cases kind <;> decide +kernel
  have hkeys : (([lit "unit_id", lit "kind", lit "text_start", lit "text_end", lit "ranges"] :
      List Text).map jsonStringBytes).sum = 45 := by decide +kernel
  simp only [List.map_cons, List.sum_cons, List.map_nil, List.sum_nil] at hkeys
  simp only [ContentUnit.jsonBytes, jsonObjectBytes, jsonNumberBytes, List.map_cons, List.sum_cons,
    List.map_nil, List.sum_nil, List.length_cons, List.length_nil]
  omega

/-- Numbers of ranges of some pushed units. -/
def countRanges (ps : List Push) : ℕ := (ps.map fun p => p.ranges.length).sum

theorem countRanges_le {ps : List Push} {bound : ℕ} (h : ∀ p ∈ ps, p.ranges.length ≤ bound) :
    countRanges ps ≤ ps.length * bound := by
  induction ps with
  | nil => exact Nat.zero_le _
  | cons p ps ih =>
    have hcount : countRanges (p :: ps) = p.ranges.length + countRanges ps := rfl
    have hfirst := h p List.mem_cons_self
    have hrest := ih fun q hq => h q (List.mem_cons_of_mem _ hq)
    rw [hcount, List.length_cons, Nat.succ_mul]
    omega

theorem unitsFrom_bytes {ps : List Push} (hplain : ∀ p ∈ ps, ∀ r ∈ p.ranges, PlainRange r)
    {index start : ℕ} (hindex : index + ps.length ≤ u64Max) (hspan : start + span ps ≤ u64Max) :
    ((unitsFrom index start ps).map ContentUnit.jsonBytes).sum ≤
      ps.length * 160 + countRanges ps * 161 := by
  induction ps generalizing index start with
  | nil => exact Nat.zero_le _
  | cons p ps ih =>
    have hsplit : span (p :: ps) = p.text.length + 1 + span ps := rfl
    have hcount : countRanges (p :: ps) = p.ranges.length + countRanges ps := rfl
    rw [List.length_cons] at hindex
    have hfirst := ContentUnit.bytes_le p.kind (show index + 1 ≤ u64Max by omega)
      (show start ≤ u64Max by omega) (show start + p.text.length ≤ u64Max by omega)
      (hplain p List.mem_cons_self)
    have hrest := ih (fun q hq => hplain q (List.mem_cons_of_mem _ hq))
      (show index + 1 + ps.length ≤ u64Max by omega)
      (show start + p.text.length + 1 + span ps ≤ u64Max by omega)
    rw [unitsFrom, List.map_cons, List.sum_cons, List.length_cons, hcount, Nat.succ_mul,
      Nat.add_mul]
    omega

/-- **The bytes of an audit are bounded** by its numbers of ranges and units. -/
theorem auditBytes_le (reads : Option (List SourceRange)) (ps : List Push) (usable : ℕ)
    (encoding format : Option Text) (hreads : ∀ r ∈ reads.getD [], PlainRange r)
    (hplain : ∀ p ∈ ps, ∀ r ∈ p.ranges, PlainRange r) (hcount : ps.length ≤ u64Max)
    (hspan : span ps ≤ u64Max) (husable : usable ≤ u64Max)
    (hencoding : ∀ name ∈ encoding, name ∈ auditEncodings)
    (hformat : ∀ name ∈ format, name ∈ auditFormats) :
    ParsedContentAudit.jsonBytes
      ⟨false, 1, reads, some (unitsFrom 0 0 ps), some usable, encoding, format⟩ ≤
      200 + (reads.getD []).length * 161 + ps.length * 161 + countRanges ps * 161 := by
  have hreadBytes : jsonOptionBytes (jsonListBytes SourceRange.jsonBytes) reads ≤
      4 + (reads.getD []).length * 161 := by
    cases reads with
    | none => exact le_rfl
    | some ranges =>
      have hlist : jsonListBytes SourceRange.jsonBytes ranges ≤ 2 + ranges.length * 161 :=
        jsonListBytes_le fun r hr => (hreads r hr).bytes
      simp only [jsonOptionBytes, Option.getD_some]
      omega
  have hunits := unitsFrom_bytes hplain (show 0 + ps.length ≤ u64Max by omega)
    (show 0 + span ps ≤ u64Max by omega)
  have hunitBytes : jsonListBytes ContentUnit.jsonBytes (unitsFrom 0 0 ps) ≤
      2 + ps.length * 161 + countRanges ps * 161 := by
    rw [jsonListBytes, length_unitsFrom]
    omega
  have hencodingBytes : jsonOptionBytes jsonStringBytes encoding ≤ 11 := by
    cases encoding with
    | none => decide
    | some name =>
      have hall : ∀ name ∈ auditEncodings, jsonStringBytes name ≤ 11 := by decide +kernel
      exact hall name (hencoding name rfl)
  have hformatBytes : jsonOptionBytes jsonStringBytes format ≤ 6 := by
    cases format with
    | none => decide
    | some name =>
      have hall : ∀ name ∈ auditFormats, jsonStringBytes name ≤ 6 := by decide +kernel
      exact hall name (hformat name rfl)
  have husable := length_decimal_le_twenty husable
  have hversion : (decimal 1).length = 1 := rfl
  have hkeys : (([lit "version", lit "read_ranges", lit "content_units", lit "usable_chars",
      lit "encoding", lit "detected_format"] : List Text).map jsonStringBytes).sum = 78 := by
    decide +kernel
  simp only [List.map_cons, List.sum_cons, List.map_nil, List.sum_nil] at hkeys
  simp only [ParsedContentAudit.jsonBytes, jsonObjectBytes, jsonNumberBytes, jsonOptionBytes,
    List.map_cons, List.sum_cons, List.map_nil, List.sum_nil, List.length_cons, List.length_nil]
    at hreadBytes hencodingBytes hformatBytes ⊢
  omega

/-- A unit that is short and has few ranges fits. -/
theorem fitsBehind_of_small {maxChars : ℕ} {reads : Option (List SourceRange)} {format : Text}
    {ps : List Push} {p : Push} (hlimit : maxChars < u64Max)
    (hchars : span ps + p.text.length ≤ maxChars) (hcount : ps.length < 512)
    (hreads : ∀ r ∈ reads.getD [], PlainRange r) (hfew : (reads.getD []).length ≤ 512)
    (hplain : ∀ q ∈ ps ++ [p], ∀ r ∈ q.ranges, PlainRange r)
    (hranges : countRanges (ps ++ [p]) ≤ 512) (hformat : format ∈ auditFormats) :
    FitsBehind maxChars reads format ps p := by
  have husable : usableSize ps ≤ span ps := by
    have hsize := usableSize_le ps
    rw [span_eq]
    omega
  have hbytes := auditBytes_le reads (ps ++ [p]) (usableSize ps) none (some format) hreads hplain
    (by rw [List.length_append, List.length_singleton]; unfold u64Max; omega)
    (by rw [span_append, span_singleton]; omega) (by omega) (by simp) (by simpa using hformat)
  refine ⟨hchars, hcount, hbytes.trans ?_⟩
  rw [List.length_append, List.length_singleton]
  unfold auditBytesMax
  omega

/-- Units that are short and few, with few ranges. -/
structure SmallPushes (maxChars : ℕ) (ps : List Push) : Prop where
  chars : span ps ≤ maxChars + 1
  count : ps.length ≤ 512
  plain : ∀ p ∈ ps, ∀ r ∈ p.ranges, PlainRange r
  ranges : countRanges ps ≤ 512

/-- **Small units are all taken.** -/
theorem takenOf_of_small {maxChars : ℕ} {reads : Option (List SourceRange)} {format : Text}
    {pushes : List Push} (hlimit : maxChars < u64Max) (hreads : ∀ r ∈ reads.getD [], PlainRange r)
    (hfew : (reads.getD []).length ≤ 512) (hformat : format ∈ auditFormats)
    (hsmall : SmallPushes maxChars (solid pushes)) :
    takenOf maxChars reads format pushes = solid pushes := by
  have hfold : ∀ ps : List Push, SmallPushes maxChars (ps ++ solid pushes) →
      pushes.foldl (takeOne maxChars reads format) ps = ps ++ solid pushes := by
    clear hsmall
    induction pushes with
    | nil => exact fun ps _ => (List.append_nil ps).symm
    | cons p pushes ih =>
      intro ps hsmall
      rw [List.foldl_cons]
      by_cases hempty : p.trimmed.text = []
      · have hsolid : solid (p :: pushes) = solid pushes := by simp [solid, hempty]
        rw [hsolid] at hsmall ⊢
        rw [takeOne, if_neg fun h => h.1 hempty, ih ps hsmall]
      · have hsolid : solid (p :: pushes) = p.trimmed :: solid pushes := by simp [solid, hempty]
        rw [hsolid, List.append_cons] at hsmall ⊢
        have hchars := hsmall.chars
        have hcount := hsmall.count
        have hranges := hsmall.ranges
        rw [span_append, span_append, span_singleton] at hchars
        rw [List.length_append, List.length_append, List.length_singleton] at hcount
        have hsum : countRanges (ps ++ [p.trimmed]) ≤
            countRanges (ps ++ [p.trimmed] ++ solid pushes) := by
          simp [countRanges]
        have hfits : FitsBehind maxChars reads format ps p.trimmed :=
          fitsBehind_of_small hlimit (by omega) (by omega) hreads hfew
            (fun q hq => hsmall.plain q (List.mem_append_left _ hq)) (hsum.trans hranges) hformat
        rw [takeOne, if_pos ⟨hempty, hfits⟩]
        exact ih _ hsmall
  exact hfold [] hsmall

/-- Units that are unknown take the bytes of a null. -/
theorem jsonBytes_unknownUnits (audit : ParsedContentAudit) :
    ParsedContentAudit.jsonBytes { audit with contentUnits := none } =
      ParsedContentAudit.jsonBytes { audit with contentUnits := some [] } + 2 := by
  have hempty : jsonListBytes ContentUnit.jsonBytes [] = 2 := rfl
  simp only [ParsedContentAudit.jsonBytes, jsonObjectBytes, jsonOptionBytes, List.map_cons,
    List.sum_cons, List.map_nil, List.sum_nil, List.length_cons, List.length_nil, hempty]
  omega

/-! ### What is added after the check -/

/-- Bytes of the audit when a unit is checked. -/
def checkedBytes (reads : Option (List SourceRange)) (format : Text) (ps : List Push) (p : Push) :
    ℕ :=
  ParsedContentAudit.jsonBytes
    { pushedAudit reads format ps with contentUnits := some (unitsFrom 0 0 (ps ++ [p])) }

/-- The last unit leaves room for its usable characters and for the name of the encoding, which
stands in the place of a null. -/
def LeavesRoom (reads : Option (List SourceRange)) (format encoding : Text) (kept : List Push) :
    Prop :=
  ∀ ps p, kept = ps ++ [p] →
    checkedBytes reads format ps p + jsonStringBytes encoding +
        (decimal (usableSize kept)).length ≤
      auditBytesMax + 4 + (decimal (usableSize ps)).length

theorem sealedAudit_bytes (reads : Option (List SourceRange)) (format encoding : Text)
    (ps : List Push) (p : Push) :
    (sealedAudit reads format encoding (ps ++ [p])).jsonBytes + 4 +
        (decimal (usableSize ps)).length =
      checkedBytes reads format ps p + jsonStringBytes encoding +
        (decimal (usableSize (ps ++ [p]))).length := by
  simp only [sealedAudit, checkedBytes, pushedAudit, ParsedContentAudit.jsonBytes, jsonObjectBytes,
    jsonNumberBytes, jsonOptionBytes, List.map_cons, List.sum_cons, List.map_nil, List.sum_nil,
    List.length_cons, List.length_nil]
  omega

/-- **The encoding fits when the last unit leaves room.** -/
theorem sealedAudit_fits_iff {reads : Option (List SourceRange)} {format encoding : Text}
    (hreads : ∀ r ∈ reads.getD [], PlainRange r) (hfew : (reads.getD []).length ≤ 512)
    (hencoding : encoding ∈ auditEncodings) (hformat : format ∈ auditFormats) (kept : List Push) :
    (sealedAudit reads format encoding kept).jsonBytes ≤ auditBytesMax ↔
      LeavesRoom reads format encoding kept := by
  rcases List.eq_nil_or_concat kept with rfl | ⟨ps, p, rfl⟩
  · refine iff_of_true ?_ ?_
    · have hbytes := auditBytes_le reads [] 0 (some encoding) (some format) hreads (by simp)
        (Nat.zero_le _) (Nat.zero_le _) (Nat.zero_le _) (by simpa using hencoding)
        (by simpa using hformat)
      refine hbytes.trans ?_
      unfold auditBytesMax
      change 200 + (reads.getD []).length * 161 + 0 * 161 + 0 * 161 ≤ 256 * 1024
      omega
    · intro ps p h
      simp at h
  · have hbytes := sealedAudit_bytes reads format encoding ps p
    rw [List.concat_eq_append]
    constructor
    · intro h qs q heq
      obtain ⟨rfl, hlast⟩ := List.append_inj' heq rfl
      obtain rfl := List.singleton_inj.1 hlast
      omega
    · intro h
      have hroom := h ps p rfl
      omega

end DailyReport
