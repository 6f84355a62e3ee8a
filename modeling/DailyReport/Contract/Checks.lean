import DailyReport.Lib.Text

/-!
# The field checks of the scanner contract

The `require_*` helpers of the contract crate: each returns `Err` with the field it checks and the
bound it wants.  A check that succeeds says exactly that the bound holds (`requireRange_ok_iff`,
`requireConst_ok_iff`, `requireNonEmpty_ok_iff`).
-/

namespace DailyReport

open Lib

/-- The unit result of a check. -/
abbrev Checked := Except Text Unit

/-- `value.chars().count() as u64`. -/
def countChars (value : Text) : ℕ := value.length

/-- `value.len()`: the number of bytes of the UTF-8 encoding. -/
def byteLength (value : Text) : ℕ := (value.map Char.utf8Size).sum

/-- `char::is_ascii_alphabetic`. -/
def isAsciiAlphabetic (c : Char) : Bool := c.isAlpha

/-- `value` is a lowercase hexadecimal digit. -/
def isLowerHex (c : Char) : Bool := c.isDigit || (decide ('a' ≤ c) && decide (c ≤ 'f'))

def requireConst (actual expected field : Text) : Checked :=
  if actual = expected then .ok () else .error (field ++ lit " must equal " ++ expected)

def requireNonEmpty (value : Text) (max : ℕ) (field : Text) : Checked :=
  if 1 ≤ countChars value ∧ countChars value ≤ max then .ok ()
  else .error (field ++ lit " length must be 1..=" ++ decimal max)

def requireRange (value min max : ℕ) (field : Text) : Checked :=
  if min ≤ value ∧ value ≤ max then .ok ()
  else .error (field ++ lit " must be in " ++ decimal min ++ lit "..=" ++ decimal max)

/-- A drive letter, a colon and a separator. -/
def driveRooted : Text → Bool
  | a :: b :: c :: _ => isAsciiAlphabetic a && b == ':' && (c == '\\' || c == '/')
  | _ => false

/-- The path is absolute: slash rooted, a UNC path, or drive rooted. -/
def isAbsolute (value : Text) : Bool :=
  ['/'].isPrefixOf value || ['\\', '\\'].isPrefixOf value || driveRooted value

def requireAbsolutePath (value field : Text) : Checked :=
  if isAbsolute value ∧ Char.ofNat 0 ∉ value ∧ countChars value ≤ 32767 then .ok ()
  else .error (field ++ lit " must be an absolute path")

/-- The path components between `/` and `\` separators. -/
def pathComponents (value : Text) : List Text := value.splitOnP fun c => c == '/' || c == '\\'

/-- A drive letter and a colon. -/
def drivePrefixed : Text → Bool
  | a :: b :: _ => isAsciiAlphabetic a && b == ':'
  | _ => false

def requireRelativePath (value field : Text) : Checked :=
  let rooted := ['/'].isPrefixOf value || ['\\'].isPrefixOf value || drivePrefixed value
  let escapes := (pathComponents value).any (· == ['.', '.'])
  if value ≠ [] ∧ countChars value ≤ 32767 ∧ rooted = false ∧ escapes = false then .ok ()
  else .error (field ++ lit " must be a safe relative path")

/-- The characters of an extension after its dot. -/
def extensionChar (c : Char) : Bool :=
  !c.isUpper && !(c == '\\' || c == '/' || c == ':' || c == Char.ofNat 0)

def requireExtension (value field : Text) : Checked :=
  if 2 ≤ countChars value ∧ countChars value ≤ 32 ∧ ['.'].isPrefixOf value ∧
      (value.drop 1).all extensionChar then .ok ()
  else .error (field ++ lit " must be a lowercase extension")

/-- `strip_prefix`. -/
def stripPrefixText (pre value : Text) : Option Text := pre.isPrefixOf? value

/-- `split_once`: the text before and after the first occurrence of a pattern. -/
def splitOnce (pattern : Text) : Text → Option (Text × Text)
  | [] => none
  | c :: cs =>
    match pattern.isPrefixOf? (c :: cs) with
    | some rest => some ([], rest)
    | none => (splitOnce pattern cs).map fun (head, tail) => (c :: head, tail)

def requireSourceVersion (value field : Text) : Checked :=
  match (stripPrefixText (lit "mtime_ns=") value).bind (splitOnce (lit ":size=")) with
  | none => .error (lit "invalid " ++ field)
  | some (mtime, size) =>
    if mtime ≠ [] ∧ size ≠ [] ∧ mtime.all Char.isDigit ∧ size.all Char.isDigit then .ok ()
    else .error (lit "invalid " ++ field)

/-- Strictly increasing neighbours. -/
def sortedUnique : List Text → Bool
  | a :: b :: rest => decide (a < b) && sortedUnique (b :: rest)
  | _ => true

def requireSortedUnique (values : List Text) (field : Text) : Checked :=
  if sortedUnique values then .ok ()
  else .error (field ++ lit " must be sorted and unique")

/-- Sixty-four lowercase hexadecimal digits. -/
def isSha256Hex (value : Text) : Bool := value.length == 64 && value.all isLowerHex

def requireSha256Hex (value field : Text) : Checked :=
  if isSha256Hex value then .ok () else .error (field ++ lit " must be a lowercase SHA-256")

def validateExtensions (values : List Text) (field : Text) (requireUnique : Bool) : Checked := do
  if values.length > 256 then .error (field ++ lit " contains too many items")
  values.forM fun value => requireExtension value field
  if requireUnique then requireSortedUnique values field

def validateStrings (values : List Text) (field : Text) (requireUnique : Bool) : Checked := do
  if values.length > 256 then .error (field ++ lit " contains too many items")
  values.forM fun value => requireNonEmpty value 1024 field
  if requireUnique then requireSortedUnique values field

/-! ### What a successful check says -/

theorem ite_ok_iff {p : Prop} [Decidable p] {e : Text} :
    (if p then .ok () else .error e : Checked) = .ok () ↔ p := by
  split_ifs with h <;> simp [h]

theorem requireConst_ok_iff {actual expected field : Text} :
    requireConst actual expected field = .ok () ↔ actual = expected := ite_ok_iff

theorem requireNonEmpty_ok_iff {value field : Text} {max : ℕ} :
    requireNonEmpty value max field = .ok () ↔ 1 ≤ value.length ∧ value.length ≤ max := ite_ok_iff

theorem requireRange_ok_iff {value min max : ℕ} {field : Text} :
    requireRange value min max field = .ok () ↔ min ≤ value ∧ value ≤ max := ite_ok_iff

theorem requireExtension_ok_iff {value field : Text} :
    requireExtension value field = .ok () ↔ 2 ≤ value.length ∧ value.length ≤ 32 ∧
      ['.'].isPrefixOf value ∧ (value.drop 1).all extensionChar := ite_ok_iff

theorem requireAbsolutePath_ok_iff {value field : Text} :
    requireAbsolutePath value field = .ok () ↔
      isAbsolute value ∧ Char.ofNat 0 ∉ value ∧ value.length ≤ 32767 := ite_ok_iff

theorem requireSha256Hex_ok_iff {value field : Text} :
    requireSha256Hex value field = .ok () ↔ isSha256Hex value := ite_ok_iff

/-- A run of checks succeeds exactly when each of them does. -/
theorem bind_ok_iff {c : Checked} {k : Unit → Checked} :
    (c >>= k) = .ok () ↔ c = .ok () ∧ k () = .ok () := by
  cases c with
  | error e => simp [bind, Except.bind]
  | ok u => simp [bind, Except.bind]

end DailyReport
