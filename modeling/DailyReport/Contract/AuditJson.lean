import DailyReport.Contract.ContentAudit
import DailyReport.Contract.Wire

/-!
# The JSON of a content audit

Every record of an audit with its fields in the order of the record, and what reads it.  An audit
with an archive is not written, as in `ParsedContentAudit.jsonBytes`; it is read as such.

* `ParsedContentAudit.ofJson_json` : **an audit is read back**.
-/

namespace DailyReport

open Lib

/-! ### Reading objects -/

/-- The value has no other fields than these, and none of them twice. -/
def onlyFields (known : List Text) : Json → Bool
  | .obj fields => fields.all (fun field => decide (field.1 ∈ known)) &&
      decide (fields.map Prod.fst).Nodup
  | _ => false

/-- The field of a nullable value, which may be missing. -/
def getNullable {α : Type} (read : Json → Option α) (v : Json) (key : Text) : Option (Option α) :=
  match v.get key with
  | none => some none
  | some field => field.asNullable read

/-- The items of an array are read back when each of them is. -/
theorem mapM_map_eq_some {α β : Type} {write : α → β} {read : β → Option α} {l : List α}
    (h : ∀ a ∈ l, read (write a) = some a) : (l.map write).mapM read = some l := by
  induction l with
  | nil => rfl
  | cons a l ih =>
    obtain ⟨ha, hl⟩ := List.forall_mem_cons.1 h
    rw [List.map_cons, List.mapM_cons, ha, ih hl]
    rfl

/-! ### Enumerations -/

def SourceRangeUnit.all : List SourceRangeUnit :=
  [.pdfPage, .sheetRow, .paragraph, .tableRow, .slide, .textChar, .csvRecord, .byte]

def ContentUnitKind.all : List ContentUnitKind :=
  [.heading, .paragraph, .tableHeader, .tableRow, .unit, .total, .slide, .text, .placeholder]

@[simp] theorem SourceRangeUnit.parse_wireName (u : SourceRangeUnit) :
    parseContractEnum SourceRangeUnit.all SourceRangeUnit.wireName u.wireName = some u :=
  parseContractEnum_wireName (by decide +kernel) (by cases u <;> decide)

@[simp] theorem ContentUnitKind.parse_wireName (k : ContentUnitKind) :
    parseContractEnum ContentUnitKind.all ContentUnitKind.wireName k.wireName = some k :=
  parseContractEnum_wireName (by decide +kernel) (by cases k <;> decide)

/-! ### Numbers of the machine -/

/-- The numbers of a range are unsigned 64-bit numbers. -/
structure SourceRange.Fits (r : SourceRange) : Prop where
  start : r.start ≤ u64Max
  stop : r.stop ≤ u64Max
  columnStart : ∀ n ∈ r.columnStart, n ≤ u64Max
  columnEnd : ∀ n ∈ r.columnEnd, n ≤ u64Max

/-- The numbers of a unit are unsigned 64-bit numbers. -/
structure ContentUnit.Fits (u : ContentUnit) : Prop where
  textStart : u.textStart ≤ u64Max
  textEnd : u.textEnd ≤ u64Max
  ranges : ∀ range ∈ u.ranges, range.Fits

/-- The numbers of an audit are unsigned 64-bit numbers. -/
structure ParsedContentAudit.Fits (a : ParsedContentAudit) : Prop where
  version : a.version ≤ u64Max
  readRanges : ∀ ranges ∈ a.readRanges, ∀ range ∈ ranges, range.Fits
  contentUnits : ∀ units ∈ a.contentUnits, ∀ unit ∈ units, unit.Fits
  usableChars : ∀ n ∈ a.usableChars, n ≤ u64Max

theorem asNullable_num {x : Option ℕ} (h : ∀ n ∈ x, n ≤ u64Max) :
    Json.asNullable Json.asU64 (Json.ofNullable Json.num x) = some x :=
  Json.asNullable_ofNullable (fun n hn => Json.asU64_num (h n hn)) fun _ => by simp

/-- A nullable array is read back when its items are. -/
theorem asNullable_items {α : Type} {write : α → Json} {read : Json → Option α}
    {x : Option (List α)} (h : ∀ l ∈ x, ∀ a ∈ l, read (write a) = some a) :
    Json.asNullable (fun v => v.asArr.bind fun items => items.mapM read)
      (Json.ofNullable (fun l : List α => .arr (l.map write)) x) = some x :=
  Json.asNullable_ofNullable (fun l hl => mapM_map_eq_some (h l hl)) fun _ => by simp

/-! ### Ranges and units -/

def SourceRange.json (r : SourceRange) : Json :=
  .obj [(lit "unit", .str r.unit.wireName), (lit "start", .num r.start), (lit "end", .num r.stop),
    (lit "label", .ofNullable .str r.label), (lit "column_start", .ofNullable .num r.columnStart),
    (lit "column_end", .ofNullable .num r.columnEnd)]

def SourceRange.ofJson (v : Json) : Option SourceRange := do
  guard (onlyFields [lit "unit", lit "start", lit "end", lit "label", lit "column_start",
    lit "column_end"] v)
  let unitName ← (← v.get (lit "unit")).asStr
  let unit ← parseContractEnum SourceRangeUnit.all SourceRangeUnit.wireName unitName
  let start ← (← v.get (lit "start")).asU64
  let stop ← (← v.get (lit "end")).asU64
  let label ← getNullable Json.asStr v (lit "label")
  let columnStart ← getNullable Json.asU64 v (lit "column_start")
  let columnEnd ← getNullable Json.asU64 v (lit "column_end")
  some { unit, start, stop, label, columnStart, columnEnd }

theorem SourceRange.ofJson_json {r : SourceRange} (h : r.Fits) :
    SourceRange.ofJson r.json = some r := by
  simp [SourceRange.ofJson, SourceRange.json, onlyFields, getNullable, Json.get, Json.asStr, lit_eq,
    asNullable_asStr, asNullable_num h.columnStart, asNullable_num h.columnEnd,
    Json.asU64_num h.start, Json.asU64_num h.stop, guard]

def ContentUnit.json (u : ContentUnit) : Json :=
  .obj [(lit "unit_id", .str u.unitId), (lit "kind", .str u.kind.wireName),
    (lit "text_start", .num u.textStart), (lit "text_end", .num u.textEnd),
    (lit "ranges", .arr (u.ranges.map SourceRange.json))]

def ContentUnit.ofJson (v : Json) : Option ContentUnit := do
  guard (onlyFields [lit "unit_id", lit "kind", lit "text_start", lit "text_end", lit "ranges"] v)
  let unitId ← (← v.get (lit "unit_id")).asStr
  let kindName ← (← v.get (lit "kind")).asStr
  let kind ← parseContractEnum ContentUnitKind.all ContentUnitKind.wireName kindName
  let textStart ← (← v.get (lit "text_start")).asU64
  let textEnd ← (← v.get (lit "text_end")).asU64
  let ranges ← (← (← v.get (lit "ranges")).asArr).mapM SourceRange.ofJson
  some { unitId, kind, textStart, textEnd, ranges }

theorem ContentUnit.ofJson_json {u : ContentUnit} (h : u.Fits) :
    ContentUnit.ofJson u.json = some u := by
  have hranges := mapM_map_eq_some fun range hrange => SourceRange.ofJson_json (h.ranges range hrange)
  simp [ContentUnit.ofJson, ContentUnit.json, onlyFields, Json.get, Json.asStr, Json.asArr, lit_eq,
    Json.asU64_num h.textStart, Json.asU64_num h.textEnd, hranges, guard]

/-! ### Audits -/

def ParsedContentAudit.json (a : ParsedContentAudit) : Json :=
  .obj [(lit "version", .num a.version),
    (lit "read_ranges",
      .ofNullable (fun ranges : List SourceRange => .arr (ranges.map SourceRange.json))
        a.readRanges),
    (lit "content_units",
      .ofNullable (fun units : List ContentUnit => .arr (units.map ContentUnit.json))
        a.contentUnits),
    (lit "usable_chars", .ofNullable .num a.usableChars),
    (lit "encoding", .ofNullable .str a.encoding),
    (lit "detected_format", .ofNullable .str a.detectedFormat)]

/-- The audit has an archive: a field that is not null. -/
def hasArchive (v : Json) : Bool :=
  match v.get (lit "archive") with
  | none => false
  | some .null => false
  | some _ => true

def ParsedContentAudit.ofJson (v : Json) : Option ParsedContentAudit := do
  guard (onlyFields [lit "archive", lit "version", lit "read_ranges", lit "content_units",
    lit "usable_chars", lit "encoding", lit "detected_format"] v)
  let version ← (← v.get (lit "version")).asU64
  let readRanges ← getNullable
    (fun field => field.asArr.bind fun items => items.mapM SourceRange.ofJson) v (lit "read_ranges")
  let contentUnits ← getNullable
    (fun field => field.asArr.bind fun items => items.mapM ContentUnit.ofJson) v
    (lit "content_units")
  let usableChars ← getNullable Json.asU64 v (lit "usable_chars")
  let encoding ← getNullable Json.asStr v (lit "encoding")
  let detectedFormat ← getNullable Json.asStr v (lit "detected_format")
  let archive := hasArchive v
  some { archive, version, readRanges, contentUnits, usableChars, encoding, detectedFormat }

/-- **An audit is read back.** -/
theorem ParsedContentAudit.ofJson_json {a : ParsedContentAudit} (h : a.Fits)
    (harchive : a.archive = false) : ParsedContentAudit.ofJson a.json = some a := by
  have hread := asNullable_items fun ranges hranges range hrange =>
    SourceRange.ofJson_json (h.readRanges ranges hranges range hrange)
  have hunits := asNullable_items fun units hmem unit hunit =>
    ContentUnit.ofJson_json (h.contentUnits units hmem unit hunit)
  obtain ⟨archive, version, readRanges, contentUnits, usableChars, encoding, detectedFormat⟩ := a
  obtain rfl : archive = false := harchive
  simp [ParsedContentAudit.ofJson, ParsedContentAudit.json, hasArchive, onlyFields, getNullable,
    Json.get, lit_eq, asNullable_asStr, asNullable_num h.usableChars, Json.asU64_num h.version,
    hread, hunits, guard]

end DailyReport
