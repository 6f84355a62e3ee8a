import DailyReport.Lib.Sort
import DailyReport.TextParser.Excerpt

/-!
# The preview of a JSON file

A JSON file is shown as it is, behind a few lines about its value, and cut at its characters.  The
JSON reader does not know the constants of Python, which are replaced before it reads the text.

* `finalizeContent_length` : **the content stays within its characters**.
-/

namespace DailyReport.TextParser

open Lib

/-- `u8::is_ascii_whitespace`. -/
def isAsciiWhitespace (c : Char) : Bool :=
  c == ' ' || c == '\t' || c == '\n' || c.toNat == 12 || c == '\r'

def pythonJsonTokens : List Text := [lit "-Infinity", lit "Infinity", lit "NaN"]

/-- The token stands at the front of `rest`, as a value; `before` is the last character before it
that is no white space. -/
def pythonJsonConstantAt (before : Option Char) (rest token : Text) : Bool :=
  token.isPrefixOf rest &&
    (before.all fun c => c == '[' || c == ',' || c == ':') &&
    ((rest.drop token.length).dropWhile isAsciiWhitespace).head?.all fun c =>
      c == ',' || c == ']' || c == '}'

/-- Where the reading of a JSON text stands. -/
structure ConstantState where
  before : Option Char
  inString : Bool
  escaped : Bool
  /-- Characters that belong to a token that has been replaced. -/
  skip : ℕ

/-- The state behind one character that is not replaced. -/
def ConstantState.next (s : ConstantState) (c : Char) : ConstantState :=
  { before := if isAsciiWhitespace c then s.before else some c
    inString := if s.inString then s.escaped || c != '"' else c == '"'
    escaped := s.inString && !s.escaped && c == '\\'
    skip := 0 }

def normalizeFrom : ConstantState → Text → Text
  | _, [] => []
  | s, c :: rest =>
    if s.skip > 0 then normalizeFrom { s.next c with skip := s.skip - 1 } rest
    else if s.inString || c == '"' then c :: normalizeFrom (s.next c) rest
    else match pythonJsonTokens.find? (pythonJsonConstantAt s.before (c :: rest)) with
      | some token =>
        lit "0.0" ++ normalizeFrom { s.next c with skip := token.length - 1 } rest
      | none => c :: normalizeFrom (s.next c) rest

def normalizePythonJsonConstants (input : Text) : Text :=
  normalizeFrom ⟨none, false, false, 0⟩ input

def pythonJsonNumberType (input : Text) : Text :=
  let value := trim input
  if value ∈ [lit "NaN", lit "Infinity", lit "-Infinity"] ∨
      value.any (fun c => c == '.' || c == 'e' || c == 'E') then lit "float"
  else lit "int"

/-- A flag as it is written. -/
def showBool (b : Bool) : Text := if b then lit "true" else lit "false"

def metadataLines (title excerptSource : Text) (truncated : Bool) : List Text :=
  [title, lit "excerpt_source: " ++ excerptSource, lit "truncated: " ++ showBool truncated]

/-- Cut the content at its characters; the flag says whether it has been cut. -/
def limitChars (content : Text) (maxChars : ℕ) : Text × Bool :=
  if maxChars < content.length then (content.take maxChars, true) else (content, false)

def finalizeContent (builder : Bool → Text) (readTruncated : Bool) (maxChars : ℕ) : Text × Bool :=
  let (limited, outputTruncated) := limitChars (builder readTruncated) maxChars
  let finalTruncated := readTruncated || outputTruncated
  if finalTruncated ≠ readTruncated then
    let (limited, rebuiltTruncated) := limitChars (builder finalTruncated) maxChars
    (limited, readTruncated || rebuiltTruncated)
  else (limited, finalTruncated)

def buildTextContent (raw : RawExcerpt) (title : Text) (maxChars : ℕ)
    (warning : Option LightTextWarning) : Text × Bool × Option LightTextWarning :=
  let builder := fun truncated =>
    joinWith ['\n'] (metadataLines title raw.source truncated ++
      (warning.map fun warning => lit "warning: " ++ warning.code).toList ++ [[], raw.text])
  let (content, truncated) := finalizeContent builder raw.truncated maxChars
  (content, truncated, warning)

/-- The lines about a JSON value. -/
def valueLines (text : Text) : JsonValue → List Text
  | .object keys => [lit "top_level_keys: " ++ joinWith (lit ", ") (sortByKey id keys)]
  | .array length => [lit "top_level_type: list", lit "top_level_items: " ++ decimal length]
  | .string => [lit "top_level_type: str"]
  | .number => [lit "top_level_type: " ++ pythonJsonNumberType text]
  | .bool => [lit "top_level_type: bool"]
  | .null => [lit "top_level_type: NoneType"]

def JsonValue.isObject : JsonValue → Bool
  | .object _ => true
  | _ => false

def buildJsonContent (libraries : ParserLibraries) (raw : RawExcerpt) (maxChars : ℕ) :
    Text × Bool × Option LightTextWarning :=
  let fallback := buildTextContent raw (lit "JSON preview") maxChars (some .jsonPreviewFallback)
  if raw.truncated then fallback
  else match libraries.fromStr (normalizePythonJsonConstants raw.text) with
    | none => fallback
    | some payload =>
      let builder := fun truncated =>
        let title := if payload.isObject then lit "JSON object preview" else lit "JSON preview"
        joinWith ['\n'] (metadataLines title raw.source truncated ++ valueLines raw.text payload ++
          [[], raw.text])
      let (content, truncated) := finalizeContent builder raw.truncated maxChars
      (content, truncated, none)

theorem limitChars_length (content : Text) (maxChars : ℕ) :
    (limitChars content maxChars).1.length ≤ maxChars := by
  unfold limitChars
  split_ifs with h
  · simp
  · exact Nat.not_lt.1 h

/-- **The content stays within its characters.** -/
theorem finalizeContent_length (builder : Bool → Text) (readTruncated : Bool) (maxChars : ℕ) :
    (finalizeContent builder readTruncated maxChars).1.length ≤ maxChars := by
  unfold finalizeContent
  dsimp only
  split_ifs
  · exact limitChars_length _ _
  · exact limitChars_length _ _

theorem buildTextContent_length (raw : RawExcerpt) (title : Text) (maxChars : ℕ)
    (warning : Option LightTextWarning) :
    (buildTextContent raw title maxChars warning).1.length ≤ maxChars := by
  unfold buildTextContent
  exact finalizeContent_length _ _ _

theorem buildJsonContent_length (libraries : ParserLibraries) (raw : RawExcerpt) (maxChars : ℕ) :
    (buildJsonContent libraries raw maxChars).1.length ≤ maxChars := by
  unfold buildJsonContent
  by_cases htruncated : raw.truncated = true
  · rw [if_pos htruncated]
    exact buildTextContent_length _ _ _ _
  · rw [if_neg htruncated]
    cases libraries.fromStr (normalizePythonJsonConstants raw.text) with
    | none => exact buildTextContent_length _ _ _ _
    | some payload => exact finalizeContent_length _ _ _

end DailyReport.TextParser
