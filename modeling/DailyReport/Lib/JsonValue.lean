import DailyReport.Lib.Json

/-!
# JSON values with signed and floating-point numbers

A number keeps its token: an integer its sign and its digits, so that minus zero is a number of its
own, and a floating-point number of a type `F` the token that a `FloatFormat` gives it.

* `parse_print` : **a text that was written is read back**.
-/

namespace Lib

/-- A JSON value whose floating-point numbers are of type `F`. -/
inductive JsonValue (F : Type)
  | null
  | bool (b : Bool)
  | int (negative : Bool) (magnitude : ℕ)
  | float (f : F)
  | str (s : Text)
  | arr (items : List (JsonValue F))
  | obj (fields : List (Text × JsonValue F))

/-- The character may stand in a number. -/
def isNumberChar (c : Char) : Bool := c.isDigit || c == '-' || c == '+' || c == '.' || c == 'e'

/-- How floating-point numbers are written: in one token that is not that of an integer. -/
structure FloatFormat (F : Type) where
  token : F → Text
  read : Text → Option F
  read_token : ∀ f, read (token f) = some f
  numberChars : ∀ f, ∀ c ∈ token f, isNumberChar c = true
  head : ∀ f, ∃ c t, token f = c :: t ∧ (c.isDigit = true ∨ c = '-')
  notInteger : ∀ f, ∃ c ∈ (token f).tail, c.isDigit = false

/-- Values without floating-point numbers. -/
def noFloats : FloatFormat Empty where
  token := nofun
  read _ := none
  read_token := nofun
  numberChars := nofun
  head := nofun
  notInteger := nofun

namespace JsonValue

variable {F : Type} (format : FloatFormat F)

/-! ### Writing -/

/-- The token of an integer. -/
def intToken (negative : Bool) (magnitude : ℕ) : Text :=
  if negative then '-' :: decimal magnitude else decimal magnitude

mutual

def print : JsonValue F → Text
  | .null => ['n', 'u', 'l', 'l']
  | .bool true => ['t', 'r', 'u', 'e']
  | .bool false => ['f', 'a', 'l', 's', 'e']
  | .int negative magnitude => intToken negative magnitude
  | .float f => format.token f
  | .str s => Json.printStr s
  | .arr items => '[' :: printItems items
  | .obj fields => '{' :: printFields fields

/-- The items of an array and its closing bracket. -/
def printItems : List (JsonValue F) → Text
  | [] => [']']
  | [v] => print v ++ [']']
  | v :: vs => print v ++ ',' :: printItems vs

/-- The fields of an object and its closing brace. -/
def printFields : List (Text × JsonValue F) → Text
  | [] => ['}']
  | [(k, v)] => Json.printStr k ++ ':' :: print v ++ ['}']
  | (k, v) :: fields => Json.printStr k ++ ':' :: print v ++ ',' :: printFields fields

end

/-! ### Reading -/

/-- The integer that a token stands for. -/
def readInteger (token : Text) : Option (JsonValue F) :=
  match token with
  | '-' :: digits =>
    if digits ≠ [] ∧ digits.all Char.isDigit = true then
      some (.int true (Nat.ofDigitChars 10 digits 0))
    else none
  | digits =>
    if digits ≠ [] ∧ digits.all Char.isDigit = true then
      some (.int false (Nat.ofDigitChars 10 digits 0))
    else none

/-- The number of a token. -/
def readNumber (token : Text) : Option (JsonValue F) :=
  match readInteger token with
  | some v => some v
  | none => (format.read token).map .float

/-- The number at the front of a text, and the text after it. -/
def parseNumber (t : Text) : Option (JsonValue F × Text) :=
  (readNumber format (t.takeWhile isNumberChar)).map fun v => (v, t.dropWhile isNumberChar)

mutual

/-- The value at the front of a text, and the text after it. -/
def parseValue : ℕ → Text → Option (JsonValue F × Text)
  | 0, _ => none
  | fuel + 1, t =>
    match t with
    | 'n' :: 'u' :: 'l' :: 'l' :: rest => some (.null, rest)
    | 't' :: 'r' :: 'u' :: 'e' :: rest => some (.bool true, rest)
    | 'f' :: 'a' :: 'l' :: 's' :: 'e' :: rest => some (.bool false, rest)
    | '"' :: rest => (Json.parseChars fuel rest).map fun (s, rest) => (.str s, rest)
    | '[' :: ']' :: rest => some (.arr [], rest)
    | '[' :: rest => (parseItems fuel rest).map fun (items, rest) => (.arr items, rest)
    | '{' :: '}' :: rest => some (.obj [], rest)
    | '{' :: rest => (parseFields fuel rest).map fun (fields, rest) => (.obj fields, rest)
    | t => parseNumber format t

/-- The items up to the closing bracket, one at least. -/
def parseItems : ℕ → Text → Option (List (JsonValue F) × Text)
  | 0, _ => none
  | fuel + 1, t =>
    (parseValue fuel t).bind fun (v, rest) =>
      match rest with
      | ']' :: rest => some ([v], rest)
      | ',' :: rest => (parseItems fuel rest).map fun (vs, rest) => (v :: vs, rest)
      | _ => none

/-- The fields up to the closing brace, one at least. -/
def parseFields : ℕ → Text → Option (List (Text × JsonValue F) × Text)
  | 0, _ => none
  | fuel + 1, t =>
    match t with
    | '"' :: rest =>
      (Json.parseChars fuel rest).bind fun (k, rest) =>
        match rest with
        | ':' :: rest =>
          (parseValue fuel rest).bind fun (v, rest) =>
            match rest with
            | '}' :: rest => some ([(k, v)], rest)
            | ',' :: rest => (parseFields fuel rest).map fun (fs, rest) => ((k, v) :: fs, rest)
            | _ => none
        | _ => none
    | _ => none

end

/-- Read a text that is one value. -/
def parse (t : Text) : Option (JsonValue F) :=
  match parseValue format (t.length + 1) t with
  | some (v, []) => some v
  | _ => none

variable {format}

/-! ### Numbers -/

/-- What follows a number is no part of it. -/
def EndsNumber (rest : Text) : Prop := ∀ c ∈ rest.head?, isNumberChar c = false

theorem endsNumber_cons {c : Char} {rest : Text} (h : isNumberChar c = false) :
    EndsNumber (c :: rest) := by
  intro d hd
  simp only [List.head?_cons, Option.mem_some_iff] at hd
  exact hd ▸ h

theorem isNumberChar_of_isDigit {c : Char} (h : c.isDigit = true) : isNumberChar c = true := by
  simp [isNumberChar, h]

/-- The token at the front of a text. -/
theorem takeWhile_token {token rest : Text} (htoken : ∀ c ∈ token, isNumberChar c = true)
    (hrest : EndsNumber rest) : (token ++ rest).takeWhile isNumberChar = token ∧
      (token ++ rest).dropWhile isNumberChar = rest := by
  rw [List.takeWhile_append_of_pos htoken, List.dropWhile_append_of_pos htoken]
  cases rest with
  | nil => simp
  | cons c rest => simp [hrest c (by simp)]

theorem mem_intToken {negative : Bool} {magnitude : ℕ} {c : Char}
    (h : c ∈ intToken negative magnitude) : isNumberChar c = true := by
  unfold intToken at h
  split_ifs at h
  · rcases List.mem_cons.1 h with rfl | h
    · rfl
    · exact isNumberChar_of_isDigit (isDigit_of_mem_decimal h)
  · exact isNumberChar_of_isDigit (isDigit_of_mem_decimal h)

/-- An integer is read from its token. -/
theorem readInteger_intToken (negative : Bool) (magnitude : ℕ) :
    readInteger (intToken negative magnitude) = some (.int negative magnitude : JsonValue F) := by
  have hdigits : decimal magnitude ≠ [] ∧ (decimal magnitude).all Char.isDigit = true :=
    ⟨decimal_ne_nil magnitude, List.all_eq_true.2 fun c hc => isDigit_of_mem_decimal hc⟩
  have hvalue : Nat.ofDigitChars 10 (decimal magnitude) 0 = magnitude :=
    Nat.ofDigitChars_ten_toDigits
  cases negative with
  | true => simp only [intToken, if_true, readInteger, hdigits, and_self, hvalue, ne_eq,
      not_false_eq_true]
  | false =>
    obtain ⟨c, t, hcons⟩ := List.exists_cons_of_ne_nil hdigits.1
    have hc : c ≠ '-' := by
      rintro rfl
      exact absurd (isDigit_of_mem_decimal (hcons ▸ List.mem_cons_self)) (by decide)
    have htoken : intToken false magnitude = c :: t := hcons
    rw [htoken, readInteger.eq_def]
    split
    · next heq => exact absurd (List.cons.inj heq).1 hc
    · rw [← hcons, if_pos hdigits, hvalue]

/-- The token of a floating-point number is not that of an integer. -/
theorem readInteger_floatToken (f : F) : readInteger (F := F) (format.token f) = none := by
  obtain ⟨c, hc, hdigit⟩ := format.notInteger f
  have hnot : ∀ t : Text, c ∈ t → ¬(t ≠ [] ∧ t.all Char.isDigit = true) := by
    rintro t ht ⟨-, hall⟩
    have := List.all_eq_true.1 hall c ht
    rw [hdigit] at this
    cases this
  unfold readInteger
  split
  · next digits heq =>
    rw [heq] at hc
    exact if_neg (hnot digits hc)
  · exact if_neg (hnot _ (List.mem_of_mem_tail hc))

/-- A number is read from its token. -/
theorem parseNumber_int (negative : Bool) (magnitude : ℕ) {rest : Text} (hrest : EndsNumber rest) :
    parseNumber format (intToken negative magnitude ++ rest) =
      some (.int negative magnitude, rest) := by
  obtain ⟨htake, hdrop⟩ := takeWhile_token (fun c hc => mem_intToken hc) hrest
  rw [parseNumber, htake, hdrop, readNumber, readInteger_intToken]
  rfl

theorem parseNumber_float (f : F) {rest : Text} (hrest : EndsNumber rest) :
    parseNumber format (format.token f ++ rest) = some (.float f, rest) := by
  obtain ⟨htake, hdrop⟩ := takeWhile_token (format.numberChars f) hrest
  rw [parseNumber, htake, hdrop, readNumber, readInteger_floatToken, format.read_token]
  rfl

/-- The character begins a number. -/
def BeginsNumber (c : Char) : Prop := c.isDigit = true ∨ c = '-'

theorem intToken_head (negative : Bool) (magnitude : ℕ) :
    ∃ c t, intToken negative magnitude = c :: t ∧ BeginsNumber c := by
  cases negative with
  | true => exact ⟨'-', decimal magnitude, rfl, .inr rfl⟩
  | false =>
    obtain ⟨c, t, h⟩ := List.exists_cons_of_ne_nil (decimal_ne_nil magnitude)
    exact ⟨c, t, h, .inl (isDigit_of_mem_decimal (h ▸ List.mem_cons_self))⟩

/-- A text that begins as a number is read as one. -/
theorem parseValue_number (fuel : ℕ) {c : Char} (hc : BeginsNumber c) (t : Text) :
    parseValue format (fuel + 1) (c :: t) = parseNumber format (c :: t) := by
  have hne : c ≠ 'n' ∧ c ≠ 't' ∧ c ≠ 'f' ∧ c ≠ '"' ∧ c ≠ '[' ∧ c ≠ '{' := by
    rcases hc with hc | rfl
    · refine ⟨?_, ?_, ?_, ?_, ?_, ?_⟩ <;> rintro rfl <;> exact absurd hc (by decide)
    · decide
  rw [parseValue]
  all_goals rintro rest heq
  all_goals simp only [List.cons.injEq] at heq
  all_goals simp [heq.1] at hne

/-! ### Reading back what was written -/

/-- A value starts with no bracket that closes. -/
theorem print_head (v : JsonValue F) : ∃ c t, print format v = c :: t ∧ c ≠ ']' := by
  have hnumber : ∀ {c : Char}, BeginsNumber c → c ≠ ']' := by
    rintro c (hc | rfl)
    · rintro rfl
      exact absurd hc (by decide)
    · decide
  cases v with
  | null => exact ⟨_, _, rfl, by decide⟩
  | bool b => cases b <;> exact ⟨_, _, rfl, by decide⟩
  | int negative magnitude =>
    obtain ⟨c, t, h, hc⟩ := intToken_head negative magnitude
    exact ⟨c, t, h, hnumber hc⟩
  | float f =>
    obtain ⟨c, t, h, hc⟩ := format.head f
    exact ⟨c, t, h, hnumber hc⟩
  | str s => exact ⟨_, _, rfl, by decide⟩
  | arr items => exact ⟨_, _, rfl, by decide⟩
  | obj fields => exact ⟨_, _, rfl, by decide⟩

theorem parseValue_arr (fuel : ℕ) {c : Char} (hc : c ≠ ']') (t : Text) :
    parseValue format (fuel + 1) ('[' :: c :: t) =
      (parseItems format fuel (c :: t)).map fun (items, rest) => (.arr items, rest) := by
  rw [parseValue]
  rintro rest heq
  exact hc (List.cons.inj heq).1

theorem parseValue_obj (fuel : ℕ) {c : Char} (hc : c ≠ '}') (t : Text) :
    parseValue format (fuel + 1) ('{' :: c :: t) =
      (parseFields format fuel (c :: t)).map fun (fields, rest) => (.obj fields, rest) := by
  rw [parseValue]
  rintro rest heq
  exact hc (List.cons.inj heq).1

theorem printItems_head (v : JsonValue F) (vs : List (JsonValue F)) (rest : Text) :
    ∃ c t, printItems format (v :: vs) ++ rest = c :: t ∧ c ≠ ']' := by
  obtain ⟨c, t, h, hc⟩ := @print_head F format v
  cases vs with
  | nil => exact ⟨c, t ++ [']'] ++ rest, by simp [printItems, h], hc⟩
  | cons w ws =>
    exact ⟨c, t ++ ',' :: printItems format (w :: ws) ++ rest, by simp [printItems, h], hc⟩

theorem printFields_head (field : Text × JsonValue F) (fields : List (Text × JsonValue F))
    (rest : Text) : ∃ t, printFields format (field :: fields) ++ rest = '"' :: t := by
  obtain ⟨k, v⟩ := field
  cases fields with
  | nil =>
    exact ⟨Json.printChars k ++ ':' :: print format v ++ ['}'] ++ rest,
      by simp [printFields, Json.printStr]⟩
  | cons other others =>
    exact ⟨Json.printChars k ++ ':' :: print format v ++ ',' ::
        printFields format (other :: others) ++ rest, by simp [printFields, Json.printStr]⟩

mutual

/-- **A value is read back from its text**, whatever follows that is no part of a number. -/
theorem parseValue_print (v : JsonValue F) : ∀ fuel rest, (print format v).length < fuel →
    EndsNumber rest → parseValue format fuel (print format v ++ rest) = some (v, rest) := by
  intro fuel rest hfuel hrest
  obtain ⟨fuel, rfl⟩ : ∃ n, fuel = n + 1 := ⟨fuel - 1, by omega⟩
  match v with
  | .null => rfl
  | .bool true => rfl
  | .bool false => rfl
  | .int negative magnitude =>
    obtain ⟨c, t, h, hc⟩ := intToken_head negative magnitude
    rw [print, ← parseNumber_int negative magnitude hrest, h]
    exact parseValue_number fuel hc _
  | .float f =>
    obtain ⟨c, t, h, hc⟩ := format.head f
    rw [print, ← parseNumber_float f hrest, h]
    exact parseValue_number fuel hc _
  | .str s =>
    rw [print, Json.printStr, List.length_cons] at hfuel
    rw [print, Json.printStr, List.cons_append, parseValue,
      Json.parseChars_printChars s rest fuel (by omega)]
    rfl
  | .arr [] => rfl
  | .arr (v :: vs) =>
    rw [print, List.length_cons] at hfuel
    obtain ⟨c, t, h, hc⟩ := @printItems_head F format v vs rest
    rw [print, List.cons_append, h, parseValue_arr fuel hc, ← h,
      parseItems_print v vs fuel rest (by omega)]
    rfl
  | .obj [] => rfl
  | .obj (field :: fields) =>
    rw [print, List.length_cons] at hfuel
    obtain ⟨t, h⟩ := @printFields_head F format field fields rest
    rw [print, List.cons_append, h, parseValue_obj fuel (by decide), ← h,
      parseFields_print field fields fuel rest (by omega)]
    rfl

theorem parseItems_print (v : JsonValue F) (vs : List (JsonValue F)) : ∀ fuel rest,
    (printItems format (v :: vs)).length < fuel →
      parseItems format fuel (printItems format (v :: vs) ++ rest) = some (v :: vs, rest) := by
  intro fuel rest hfuel
  match vs with
  | [] =>
    simp only [printItems, List.length_append, List.length_cons, List.length_nil] at hfuel
    obtain ⟨fuel, rfl⟩ : ∃ n, fuel = n + 1 := ⟨fuel - 1, by omega⟩
    have hv := parseValue_print v fuel (']' :: rest) (by omega) (endsNumber_cons (by decide))
    simp [printItems, parseItems, hv]
  | w :: ws =>
    simp only [printItems, List.length_append, List.length_cons] at hfuel
    obtain ⟨fuel, rfl⟩ : ∃ n, fuel = n + 1 := ⟨fuel - 1, by omega⟩
    have hv := parseValue_print v fuel (',' :: (printItems format (w :: ws) ++ rest)) (by omega)
      (endsNumber_cons (by decide))
    have hvs := parseItems_print w ws fuel rest (by omega)
    simp [printItems, parseItems, hv, hvs]

theorem parseFields_print (field : Text × JsonValue F) (fields : List (Text × JsonValue F)) :
    ∀ fuel rest, (printFields format (field :: fields)).length < fuel →
      parseFields format fuel (printFields format (field :: fields) ++ rest) =
        some (field :: fields, rest) := by
  intro fuel rest hfuel
  match field, fields with
  | (k, v), [] =>
    simp only [printFields, Json.printStr, List.length_append, List.length_cons, List.cons_append,
      List.length_nil] at hfuel
    obtain ⟨fuel, rfl⟩ : ∃ n, fuel = n + 1 := ⟨fuel - 1, by omega⟩
    have hk := Json.parseChars_printChars k (':' :: (print format v ++ '}' :: rest)) fuel (by omega)
    have hv := parseValue_print v fuel ('}' :: rest) (by omega) (endsNumber_cons (by decide))
    simp [printFields, Json.printStr, parseFields, hk, hv]
  | (k, v), other :: others =>
    simp only [printFields, Json.printStr, List.length_append, List.length_cons, List.cons_append]
      at hfuel
    obtain ⟨fuel, rfl⟩ : ∃ n, fuel = n + 1 := ⟨fuel - 1, by omega⟩
    have hk := Json.parseChars_printChars k
      (':' :: (print format v ++ ',' :: (printFields format (other :: others) ++ rest))) fuel
      (by omega)
    have hv := parseValue_print v fuel
      (',' :: (printFields format (other :: others) ++ rest)) (by omega)
      (endsNumber_cons (by decide))
    have hfields := parseFields_print other others fuel rest (by omega)
    simp [printFields, Json.printStr, parseFields, hk, hv, hfields]

end

/-- **A text that was written is read back.** -/
theorem parse_print (v : JsonValue F) : parse format (print format v) = some v := by
  have h := @parseValue_print F format v ((print format v).length + 1) [] (by omega)
    (by simp [EndsNumber])
  rw [List.append_nil] at h
  simp [parse, h]

end JsonValue

end Lib
