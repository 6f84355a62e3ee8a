import DailyReport.Contract.AuditBuilder
import DailyReport.Lib.Except
import DailyReport.Lib.Utf8

/-!
# Reading a light text

A light text is read from its head, a log from its tail.  The bytes are UTF-8; those of a CSV file
may also be GB18030.  A window that has been cut inside a character drops what it has of it.

* `readHead_spec`, `readTail_spec` : **which window an excerpt comes from**.
-/

namespace DailyReport.TextParser

open Lib

inductive LightTextError
  | invalidProfile
  | unsupportedExtension
  | fileTooLarge
  | metadataFailed
  | readFailed
  | decodeFailed
  deriving DecidableEq

inductive LightTextWarning
  | jsonPreviewFallback
  | csvPreviewFallback
  deriving DecidableEq

def LightTextWarning.code : LightTextWarning → Text
  | .jsonPreviewFallback => lit "JSON_PREVIEW_FALLBACK"
  | .csvPreviewFallback => lit "CSV_PREVIEW_FALLBACK"

/-- What the file system shows of an opened file.  Its length has been taken before its bytes are
read. -/
structure SourceFile where
  opens : Bool
  metadata : Option UInt64
  seeks : Bool
  readable : Bool
  bytes : Bytes

/-- What a JSON text says about its value. -/
inductive JsonValue
  | object (keys : List Text)
  | array (length : ℕ)
  | string
  | number
  | bool
  | null

/-- The libraries of the parser: the JSON reader and the GB18030 decoder, which is told whether the
bytes are the last ones and fails on malformed bytes. -/
structure ParserLibraries where
  fromStr : Text → Option JsonValue
  decodeGb18030 : Bytes → Bool → Option Text

/-- A window of the file, decoded. -/
structure RawExcerpt where
  text : Text
  encoding : Text
  source : Text
  truncated : Bool
  byteStart : ℕ
  byteEnd : ℕ

def byteRanges (raw : RawExcerpt) : List SourceRange :=
  if raw.byteEnd = raw.byteStart then []
  else [⟨.byte, raw.byteStart, raw.byteEnd, some raw.source, none, none⟩]

/-! ### Decoding a window -/

def decodeHead (raw : Bytes) (trimTrailingFragment : Bool) : Except LightTextError Text :=
  match (decodeUtf8 raw).stop with
  | .complete => .ok (decodeUtf8 raw).text
  | .cut => if trimTrailingFragment then .ok (decodeUtf8 raw).text else .error .decodeFailed
  | .malformed => .error .decodeFailed

/-- Bytes of the character that a leading byte begins. -/
def utf8SequenceLength (b : UInt8) : ℕ := if b ≤ 0x7F then 0 else utf8Width b

/-- The character whose leading byte stands at `leadIndex` reaches over the boundary. -/
def overlapsBoundary (combined : Bytes) (boundary leadIndex : ℕ) : Bool :=
  let sequenceLength := utf8SequenceLength (combined.getD leadIndex 0)
  let sequenceEnd := leadIndex + sequenceLength
  sequenceLength != 0 && (decide (leadIndex < boundary) && decide (boundary < sequenceEnd)) &&
    decide (sequenceEnd ≤ combined.length) &&
    (decodeUtf8 ((combined.drop leadIndex).take sequenceLength)).stop == .complete

/-- Drop the rest of a character that begins before the window. -/
def trimLeadingUtf8Fragment (raw leadingContext : Bytes) : Bytes :=
  if raw.head?.any isUtf8Continuation then
    let boundary := leadingContext.length
    let combined := leadingContext ++ raw.take 3
    let first := boundary - 3
    match (List.range' first (boundary - first)).find? (overlapsBoundary combined boundary) with
    | some leadIndex =>
      raw.drop (leadIndex + utf8SequenceLength (combined.getD leadIndex 0) - boundary)
    | none => raw
  else raw

def decodeTail (raw leadingContext : Bytes) (trimLeadingFragment : Bool) :
    Except LightTextError Text :=
  let trimmed := if trimLeadingFragment then trimLeadingUtf8Fragment raw leadingContext else raw
  if (decodeUtf8 trimmed).stop = .complete then .ok (decodeUtf8 trimmed).text
  else .error .decodeFailed

/-- The text of a CSV window and the name of its encoding.  A byte order mark fixes the encoding. -/
def decodeCsv (libraries : ParserLibraries) (raw : Bytes) (truncated : Bool)
    (allowed : List Text) : Except LightTextError (Text × Text) :=
  let hasBom := [0xEF, 0xBB, 0xBF].isPrefixOf raw
  let utfEncoding := if hasBom then lit "utf-8-sig" else lit "utf-8"
  let utf :=
    if utfEncoding ∈ allowed then (decodeHead raw truncated).toOption else none
  match utf with
  | some text => .ok (text, utfEncoding)
  | none =>
    if hasBom ∨ lit "gb18030" ∉ allowed then .error .decodeFailed
    else match libraries.decodeGb18030 raw (!truncated) with
      | some text => .ok (text, lit "gb18030")
      | none => .error .decodeFailed

/-! ### Reading a window -/

/-- The text of a head window and the name of its encoding. -/
def decodeWindow (libraries : ParserLibraries) (raw : Bytes) (truncated : Bool)
    (csvEncodings : Option (List Text)) : Except LightTextError (Text × Text) :=
  match csvEncodings with
  | some encodings => decodeCsv libraries raw truncated encodings
  | none => (decodeHead raw truncated).map fun text => (text, lit "utf-8")

def readHead (libraries : ParserLibraries) (file : SourceFile) (fileSize readBytes : ℕ)
    (csvEncodings : Option (List Text)) : Except LightTextError RawExcerpt :=
  if !file.readable then .error .readFailed
  else
    let raw := file.bytes.take readBytes
    let truncated := decide (fileSize > raw.length)
    (decodeWindow libraries raw truncated csvEncodings).map fun (text, encoding) =>
      ⟨text, encoding, lit "head", truncated, 0, raw.length⟩

def readTail (file : SourceFile) (fileSize readBytes : ℕ) : Except LightTextError RawExcerpt :=
  let startOffset := fileSize - readBytes
  let contextOffset := startOffset - 3
  let leadingLength := startOffset - contextOffset
  let contextAndRaw := (file.bytes.drop contextOffset).take (fileSize - contextOffset)
  if !file.seeks || !file.readable then .error .readFailed
  else if contextAndRaw.length < leadingLength then .error .readFailed
  else
    let truncated := decide (startOffset > 0)
    let text := decodeTail (contextAndRaw.drop leadingLength) (contextAndRaw.take leadingLength)
      truncated
    text.map fun text => ⟨text, lit "utf-8", lit "tail", truncated, contextOffset,
      contextOffset + contextAndRaw.length⟩

/-- What every excerpt has. -/
structure GoodExcerpt (raw : RawExcerpt) : Prop where
  encoding : raw.encoding ∈ auditEncodings
  source : raw.source = lit "head" ∨ raw.source = lit "tail"
  order : raw.byteStart ≤ raw.byteEnd
  limit : raw.byteEnd ≤ u64Max

theorem decodeCsv_encoding {libraries : ParserLibraries} {raw : Bytes} {truncated : Bool}
    {allowed : List Text} {text encoding : Text}
    (h : decodeCsv libraries raw truncated allowed = .ok (text, encoding)) :
    encoding ∈ auditEncodings := by
  unfold decodeCsv at h
  dsimp only at h
  unfold auditEncodings
  split at h
  · cases h
    split_ifs <;> simp
  · split_ifs at h
    split at h
    · cases h
      simp
    · cases h

/-- **An excerpt of the head.** -/
theorem readHead_spec {libraries : ParserLibraries} {file : SourceFile} {fileSize readBytes : ℕ}
    {csvEncodings : Option (List Text)} {raw : RawExcerpt} (hlimit : readBytes ≤ u64Max)
    (h : readHead libraries file fileSize readBytes csvEncodings = .ok raw) : GoodExcerpt raw := by
  unfold readHead at h
  split_ifs at h
  obtain ⟨⟨text, encoding⟩, hdecode, rfl⟩ := map_eq_ok.1 h
  have hlength : (file.bytes.take readBytes).length ≤ readBytes := by
    rw [List.length_take]
    exact Nat.min_le_left _ _
  refine ⟨?_, Or.inl rfl, Nat.zero_le _, hlength.trans hlimit⟩
  cases csvEncodings with
  | some encodings => exact decodeCsv_encoding hdecode
  | none =>
    obtain ⟨_, _, hpair⟩ := map_eq_ok.1 hdecode
    cases hpair
    exact List.mem_cons_self

/-- **An excerpt of the tail.** -/
theorem readTail_spec {file : SourceFile} {fileSize readBytes : ℕ} {raw : RawExcerpt}
    (hlimit : fileSize ≤ u64Max) (h : readTail file fileSize readBytes = .ok raw) :
    GoodExcerpt raw := by
  unfold readTail at h
  dsimp only at h
  split_ifs at h
  obtain ⟨text, -, rfl⟩ := map_eq_ok.1 h
  refine ⟨List.mem_cons_self, Or.inr rfl, Nat.le_add_right _ _, ?_⟩
  dsimp only
  rw [List.length_take]
  omega

end DailyReport.TextParser
