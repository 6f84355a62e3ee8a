import DailyReport.Lib.Text

/-!
# Canonical JSON texts

`Json.print` writes a JSON value without white space: control characters escaped, fields in the
order of the value.  `Json.parse` reads such a text back (`Json.parse_print`), so a text
determines its value (`Json.print_injective`).  Numbers are the unsigned integers.
-/

namespace Lib

/-- A JSON value whose numbers are unsigned integers. -/
inductive Json
  | null
  | bool (b : Bool)
  | num (n : ℕ)
  | str (s : Text)
  | arr (items : List Json)
  | obj (fields : List (Text × Json))

namespace Json

/-! ### Writing -/

def hexDigit (n : ℕ) : Char := if n < 10 then Char.ofNat (48 + n) else Char.ofNat (87 + n)

/-- A character of a string: quotes, backslashes and control characters are escaped. -/
def escape (c : Char) : Text :=
  if c = '"' then ['\\', '"']
  else if c = '\\' then ['\\', '\\']
  else if c.toNat = 8 then ['\\', 'b']
  else if c.toNat = 9 then ['\\', 't']
  else if c.toNat = 10 then ['\\', 'n']
  else if c.toNat = 12 then ['\\', 'f']
  else if c.toNat = 13 then ['\\', 'r']
  else if c.toNat < 32 then ['\\', 'u', '0', '0', hexDigit (c.toNat / 16), hexDigit (c.toNat % 16)]
  else [c]

/-- The characters of a string and its closing quote. -/
def printChars : Text → Text
  | [] => ['"']
  | c :: s => escape c ++ printChars s

def printStr (s : Text) : Text := '"' :: printChars s

mutual

def print : Json → Text
  | .null => ['n', 'u', 'l', 'l']
  | .bool true => ['t', 'r', 'u', 'e']
  | .bool false => ['f', 'a', 'l', 's', 'e']
  | .num n => decimal n
  | .str s => printStr s
  | .arr items => '[' :: printItems items
  | .obj fields => '{' :: printFields fields

/-- The items of an array and its closing bracket. -/
def printItems : List Json → Text
  | [] => [']']
  | [v] => print v ++ [']']
  | v :: vs => print v ++ ',' :: printItems vs

/-- The fields of an object and its closing brace. -/
def printFields : List (Text × Json) → Text
  | [] => ['}']
  | [(k, v)] => printStr k ++ ':' :: print v ++ ['}']
  | (k, v) :: fields => printStr k ++ ':' :: print v ++ ',' :: printFields fields

end

/-! ### Reading -/

def hexValue (c : Char) : Option ℕ :=
  if c.isDigit then some (c.toNat - 48)
  else if 'a' ≤ c ∧ c ≤ 'f' then some (c.toNat - 87)
  else none

/-- The character after a backslash, and the text after it. -/
def readEscaped : Text → Option (Char × Text)
  | '"' :: rest => some ('"', rest)
  | '\\' :: rest => some ('\\', rest)
  | 'b' :: rest => some (Char.ofNat 8, rest)
  | 't' :: rest => some (Char.ofNat 9, rest)
  | 'n' :: rest => some (Char.ofNat 10, rest)
  | 'f' :: rest => some (Char.ofNat 12, rest)
  | 'r' :: rest => some (Char.ofNat 13, rest)
  | 'u' :: '0' :: '0' :: h :: l :: rest =>
    (hexValue h).bind fun high => (hexValue l).map fun low => (Char.ofNat (16 * high + low), rest)
  | _ => none

/-- The characters up to the closing quote, and the text after it. -/
def parseChars : ℕ → Text → Option (Text × Text)
  | 0, _ => none
  | _ + 1, [] => none
  | fuel + 1, c :: rest =>
    if c = '"' then some ([], rest)
    else if c = '\\' then
      (readEscaped rest).bind fun (c, rest) =>
        (parseChars fuel rest).map fun (s, rest) => (c :: s, rest)
    else if c.toNat < 32 then none
    else (parseChars fuel rest).map fun (s, rest) => (c :: s, rest)

/-- The digits at the front of a text. -/
def parseNum (t : Text) : Option (Json × Text) :=
  if (t.takeWhile Char.isDigit).isEmpty then none
  else some (.num (Nat.ofDigitChars 10 (t.takeWhile Char.isDigit) 0), t.dropWhile Char.isDigit)

mutual

/-- The value at the front of a text, and the text after it. -/
def parseValue : ℕ → Text → Option (Json × Text)
  | 0, _ => none
  | fuel + 1, t =>
    match t with
    | 'n' :: 'u' :: 'l' :: 'l' :: rest => some (.null, rest)
    | 't' :: 'r' :: 'u' :: 'e' :: rest => some (.bool true, rest)
    | 'f' :: 'a' :: 'l' :: 's' :: 'e' :: rest => some (.bool false, rest)
    | '"' :: rest => (parseChars fuel rest).map fun (s, rest) => (.str s, rest)
    | '[' :: ']' :: rest => some (.arr [], rest)
    | '[' :: rest => (parseItems fuel rest).map fun (items, rest) => (.arr items, rest)
    | '{' :: '}' :: rest => some (.obj [], rest)
    | '{' :: rest => (parseFields fuel rest).map fun (fields, rest) => (.obj fields, rest)
    | t => parseNum t

/-- The items up to the closing bracket, one at least. -/
def parseItems : ℕ → Text → Option (List Json × Text)
  | 0, _ => none
  | fuel + 1, t =>
    (parseValue fuel t).bind fun (v, rest) =>
      match rest with
      | ']' :: rest => some ([v], rest)
      | ',' :: rest => (parseItems fuel rest).map fun (vs, rest) => (v :: vs, rest)
      | _ => none

/-- The fields up to the closing brace, one at least. -/
def parseFields : ℕ → Text → Option (List (Text × Json) × Text)
  | 0, _ => none
  | fuel + 1, t =>
    match t with
    | '"' :: rest =>
      (parseChars fuel rest).bind fun (k, rest) =>
        match rest with
        | ':' :: rest =>
          (parseValue fuel rest).bind fun (v, rest) =>
            match rest with
            | '}' :: rest => some ([(k, v)], rest)
            | ',' :: rest => (parseFields fuel rest).map fun (fs, rest) => ((k, v) :: fs, rest)
            | _ => none
        | _ => none
    | _ => none

end

/-- Read a text that is one value. -/
def parse (t : Text) : Option Json :=
  match parseValue (t.length + 1) t with
  | some (v, []) => some v
  | _ => none

/-! ### Looking into a value -/

/-- The value of a field. -/
def get (v : Json) (key : Text) : Option Json :=
  match v with
  | .obj fields => (fields.find? fun field => decide (field.1 = key)).map Prod.snd
  | _ => none

/-- The number of fields. -/
def size : Json → ℕ
  | .obj fields => fields.length
  | _ => 0

def asStr : Json → Option Text
  | .str s => some s
  | _ => none

def asBool : Json → Option Bool
  | .bool b => some b
  | _ => none

/-- An unsigned 64-bit number. -/
def asU64 : Json → Option ℕ
  | .num n => if n ≤ u64Max then some n else none
  | _ => none

def asArr : Json → Option (List Json)
  | .arr items => some items
  | _ => none

/-- A value or null. -/
def asNullable {α : Type} (read : Json → Option α) : Json → Option (Option α)
  | .null => some none
  | v => (read v).map some

/-- Null, or a value. -/
def ofNullable {α : Type} (write : α → Json) : Option α → Json
  | none => .null
  | some a => write a

theorem asU64_eq_some {v : Json} {n : ℕ} (h : asU64 v = some n) : n ≤ u64Max := by
  unfold asU64 at h
  split at h
  · split_ifs at h with hn
    exact Option.some.inj h ▸ hn
  · cases h

@[simp] theorem asU64_num {n : ℕ} (h : n ≤ u64Max) : asU64 (.num n) = some n := if_pos h

/-- A nullable value is read back when its values are, and none of them is null. -/
theorem asNullable_ofNullable {α : Type} {read : Json → Option α} {write : α → Json} {x : Option α}
    (hread : ∀ a ∈ x, read (write a) = some a) (hnull : ∀ a, write a ≠ .null) :
    asNullable read (ofNullable write x) = some x := by
  cases x with
  | none => rfl
  | some a =>
    have hne : asNullable read (write a) = (read (write a)).map some := by
      unfold asNullable
      split
      · next heq => exact absurd heq (hnull a)
      · rfl
    rw [ofNullable, hne, hread a rfl]
    rfl

/-! ### Reading back what was written -/

/-- What follows a value does not start with a digit. -/
def NoDigit (rest : Text) : Prop := ∀ c ∈ rest.head?, c.isDigit = false

theorem noDigit_cons {c : Char} {rest : Text} (h : c.isDigit = false) : NoDigit (c :: rest) := by
  intro d hd
  simp only [List.head?_cons, Option.mem_some_iff] at hd
  exact hd ▸ h

theorem hexValue_hexDigit : ∀ n < 16, hexValue (hexDigit n) = some n := by decide

theorem parseChars_escape (fuel : ℕ) (c : Char) (rest : Text) :
    parseChars (fuel + 1) (escape c ++ rest) =
      (parseChars fuel rest).map fun (s, rest) => (c :: s, rest) := by
  have control {n : ℕ} (h : c.toNat = n) : Char.ofNat n = c := h ▸ Char.ofNat_toNat c
  unfold escape
  split_ifs with hquote hback h8 h9 h10 h12 h13 h32
  · subst hquote; rfl
  · subst hback; rfl
  · rw [← control h8]; rfl
  · rw [← control h9]; rfl
  · rw [← control h10]; rfl
  · rw [← control h12]; rfl
  · rw [← control h13]; rfl
  · have hhigh := hexValue_hexDigit (c.toNat / 16) (by omega)
    have hlow := hexValue_hexDigit (c.toNat % 16) (by omega)
    have hc : Char.ofNat (16 * (c.toNat / 16) + c.toNat % 16) = c := by
      rw [Nat.div_add_mod]
      exact Char.ofNat_toNat c
    simp [parseChars, readEscaped, hhigh, hlow, hc]
  · simp [parseChars, hquote, hback, h32]

/-- A string is read up to its closing quote. -/
theorem parseChars_printChars (s rest : Text) :
    ∀ fuel, (printChars s).length ≤ fuel → parseChars fuel (printChars s ++ rest) = some (s, rest) := by
  induction s with
  | nil =>
    intro fuel hfuel
    obtain ⟨fuel, rfl⟩ : ∃ n, fuel = n + 1 := ⟨fuel - 1, by simp [printChars] at hfuel; omega⟩
    simp [printChars, parseChars]
  | cons c s ih =>
    intro fuel hfuel
    have hpos : 0 < (escape c).length := by unfold escape; split_ifs <;> simp
    rw [printChars, List.length_append] at hfuel
    obtain ⟨fuel, rfl⟩ : ∃ n, fuel = n + 1 := ⟨fuel - 1, by omega⟩
    rw [printChars, List.append_assoc, parseChars_escape, ih fuel (by omega)]
    rfl

theorem parseNum_decimal (n : ℕ) {rest : Text} (h : NoDigit rest) :
    parseNum (decimal n ++ rest) = some (.num n, rest) := by
  have htake : (decimal n ++ rest).takeWhile Char.isDigit = decimal n := by
    rw [List.takeWhile_append_of_pos fun c hc => isDigit_of_mem_decimal hc]
    cases rest with
    | nil => simp
    | cons c rest => simp [h c (by simp)]
  have hdrop : (decimal n ++ rest).dropWhile Char.isDigit = rest := by
    rw [List.dropWhile_append_of_pos fun c hc => isDigit_of_mem_decimal hc]
    cases rest with
    | nil => rfl
    | cons c rest => simp [h c (by simp)]
  have hvalue : Nat.ofDigitChars 10 (decimal n) 0 = n := Nat.ofDigitChars_ten_toDigits
  simp [parseNum, htake, hdrop, hvalue, decimal_ne_nil]

/-- A text that starts with a digit is read as a number. -/
theorem parseValue_digit (fuel : ℕ) {c : Char} (hc : c.isDigit = true) (t : Text) :
    parseValue (fuel + 1) (c :: t) = parseNum (c :: t) := by
  rw [parseValue]
  all_goals rintro rest heq
  all_goals simp only [List.cons.injEq] at heq
  all_goals exact absurd (heq.1 ▸ hc) (by decide)

/-- A value starts with no bracket that closes and no brace that closes. -/
theorem print_head (v : Json) : ∃ c t, print v = c :: t ∧ c ≠ ']' := by
  cases v with
  | null => exact ⟨_, _, rfl, by decide⟩
  | bool b => cases b <;> exact ⟨_, _, rfl, by decide⟩
  | num n =>
    obtain ⟨c, t, h⟩ := List.exists_cons_of_ne_nil (decimal_ne_nil n)
    refine ⟨c, t, h, ?_⟩
    rintro rfl
    exact absurd (isDigit_of_mem_decimal (h ▸ List.mem_cons_self)) (by decide)
  | str s => exact ⟨_, _, rfl, by decide⟩
  | arr items => exact ⟨_, _, rfl, by decide⟩
  | obj fields => exact ⟨_, _, rfl, by decide⟩

theorem parseValue_arr (fuel : ℕ) {c : Char} (hc : c ≠ ']') (t : Text) :
    parseValue (fuel + 1) ('[' :: c :: t) =
      (parseItems fuel (c :: t)).map fun (items, rest) => (.arr items, rest) := by
  rw [parseValue]
  rintro rest heq
  exact hc (List.cons.inj heq).1

theorem parseValue_obj (fuel : ℕ) {c : Char} (hc : c ≠ '}') (t : Text) :
    parseValue (fuel + 1) ('{' :: c :: t) =
      (parseFields fuel (c :: t)).map fun (fields, rest) => (.obj fields, rest) := by
  rw [parseValue]
  rintro rest heq
  exact hc (List.cons.inj heq).1

theorem printItems_head (v : Json) (vs : List Json) (rest : Text) :
    ∃ c t, printItems (v :: vs) ++ rest = c :: t ∧ c ≠ ']' := by
  obtain ⟨c, t, h, hc⟩ := print_head v
  cases vs with
  | nil => exact ⟨c, t ++ [']'] ++ rest, by simp [printItems, h], hc⟩
  | cons w ws => exact ⟨c, t ++ ',' :: printItems (w :: ws) ++ rest, by simp [printItems, h], hc⟩

theorem printFields_head (field : Text × Json) (fields : List (Text × Json)) (rest : Text) :
    ∃ t, printFields (field :: fields) ++ rest = '"' :: t := by
  obtain ⟨k, v⟩ := field
  cases fields with
  | nil => exact ⟨printChars k ++ ':' :: print v ++ ['}'] ++ rest, by simp [printFields, printStr]⟩
  | cons other others =>
    exact ⟨printChars k ++ ':' :: print v ++ ',' :: printFields (other :: others) ++ rest,
      by simp [printFields, printStr]⟩

mutual

/-- **A value is read back from its text**, whatever follows that does not start with a digit. -/
theorem parseValue_print (v : Json) : ∀ fuel rest, (print v).length < fuel → NoDigit rest →
    parseValue fuel (print v ++ rest) = some (v, rest) := by
  intro fuel rest hfuel hrest
  obtain ⟨fuel, rfl⟩ : ∃ n, fuel = n + 1 := ⟨fuel - 1, by omega⟩
  match v with
  | .null => rfl
  | .bool true => rfl
  | .bool false => rfl
  | .num n =>
    obtain ⟨c, t, h⟩ := List.exists_cons_of_ne_nil (decimal_ne_nil n)
    have hc : c.isDigit = true := isDigit_of_mem_decimal (h ▸ List.mem_cons_self)
    rw [print, ← parseNum_decimal n hrest, h]
    exact parseValue_digit fuel hc _
  | .str s =>
    rw [print, printStr, List.length_cons] at hfuel
    rw [print, printStr, List.cons_append, parseValue, parseChars_printChars s rest fuel (by omega)]
    rfl
  | .arr [] => rfl
  | .arr (v :: vs) =>
    rw [print, List.length_cons] at hfuel
    obtain ⟨c, t, h, hc⟩ := printItems_head v vs rest
    rw [print, List.cons_append, h, parseValue_arr fuel hc, ← h,
      parseItems_print v vs fuel rest (by omega)]
    rfl
  | .obj [] => rfl
  | .obj (field :: fields) =>
    rw [print, List.length_cons] at hfuel
    obtain ⟨t, h⟩ := printFields_head field fields rest
    rw [print, List.cons_append, h, parseValue_obj fuel (by decide), ← h,
      parseFields_print field fields fuel rest (by omega)]
    rfl

theorem parseItems_print (v : Json) (vs : List Json) : ∀ fuel rest,
    (printItems (v :: vs)).length < fuel →
      parseItems fuel (printItems (v :: vs) ++ rest) = some (v :: vs, rest) := by
  intro fuel rest hfuel
  match vs with
  | [] =>
    simp only [printItems, List.length_append, List.length_cons, List.length_nil] at hfuel
    obtain ⟨fuel, rfl⟩ : ∃ n, fuel = n + 1 := ⟨fuel - 1, by omega⟩
    have hv := parseValue_print v fuel (']' :: rest) (by omega) (noDigit_cons (by decide))
    simp [printItems, parseItems, hv]
  | w :: ws =>
    simp only [printItems, List.length_append, List.length_cons] at hfuel
    obtain ⟨fuel, rfl⟩ : ∃ n, fuel = n + 1 := ⟨fuel - 1, by omega⟩
    have hv := parseValue_print v fuel (',' :: (printItems (w :: ws) ++ rest)) (by omega)
      (noDigit_cons (by decide))
    have hvs := parseItems_print w ws fuel rest (by omega)
    simp [printItems, parseItems, hv, hvs]

theorem parseFields_print (field : Text × Json) (fields : List (Text × Json)) : ∀ fuel rest,
    (printFields (field :: fields)).length < fuel →
      parseFields fuel (printFields (field :: fields) ++ rest) = some (field :: fields, rest) := by
  intro fuel rest hfuel
  match field, fields with
  | (k, v), [] =>
    simp only [printFields, printStr, List.length_append, List.length_cons, List.cons_append,
      List.length_nil] at hfuel
    obtain ⟨fuel, rfl⟩ : ∃ n, fuel = n + 1 := ⟨fuel - 1, by omega⟩
    have hk := parseChars_printChars k (':' :: (print v ++ '}' :: rest)) fuel (by omega)
    have hv := parseValue_print v fuel ('}' :: rest) (by omega) (noDigit_cons (by decide))
    simp [printFields, printStr, parseFields, hk, hv]
  | (k, v), other :: others =>
    simp only [printFields, printStr, List.length_append, List.length_cons, List.cons_append]
      at hfuel
    obtain ⟨fuel, rfl⟩ : ∃ n, fuel = n + 1 := ⟨fuel - 1, by omega⟩
    have hk := parseChars_printChars k
      (':' :: (print v ++ ',' :: (printFields (other :: others) ++ rest))) fuel (by omega)
    have hv := parseValue_print v fuel (',' :: (printFields (other :: others) ++ rest)) (by omega)
      (noDigit_cons (by decide))
    have hfields := parseFields_print other others fuel rest (by omega)
    simp [printFields, printStr, parseFields, hk, hv, hfields]

end

/-- **A text that was written is read back.** -/
theorem parse_print (v : Json) : parse (print v) = some v := by
  have h := parseValue_print v ((print v).length + 1) [] (by omega) (by simp [NoDigit])
  rw [List.append_nil] at h
  simp [parse, h]

/-- The text of a value determines it. -/
theorem print_injective : Function.Injective print := by
  intro v w h
  have hw := parse_print w
  rw [← h, parse_print v] at hw
  exact Option.some.inj hw

end Json

end Lib
