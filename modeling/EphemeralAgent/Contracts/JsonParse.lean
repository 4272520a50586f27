import EphemeralAgent.Agents.CanonicalJson

/-!
# Reading a JSON value

`JSON.parse` on the characters of a text.  How a numeral is read is a parameter, as the way to
print it is; a surrogate without its other half, which no string here holds, is not read.

* `parse` — the value of a text
* `NumeralReader.Holds` — `Json` has all numbers and characters of a text
* `Native`, `NativeOf` — what the values of the language are: each key once, array indices first
* `readChar`, `parseValue` — a character of a string, a value in front of the rest of a text
-/

namespace EphemeralAgent.Json

/-- How the numerals are read: what was printed is read back. -/
structure NumberReader (n : NumberText) where
  read : List Char → Option Rat
  read_text : ∀ q, read (n.text q) = some q

/-- How the numerals of the language are read: a number that was read is read back from its text.
A text that is no numeral is not read, and neither is one whose number is infinite or `-0`, which
`Json` does not have. -/
structure NumeralReader (n : NumberText) where
  read : List Char → Option Rat
  read_text : ∀ {cs q}, read cs = some q → read (n.text q) = some q

def NumberReader.numerals {n : NumberText} (reader : NumberReader n) : NumeralReader n where
  read := reader.read
  read_text _ := reader.read_text _

/-! ## Strings -/

/-- The value of a hexadecimal digit. -/
def hexValue (c : Char) : Option Nat :=
  if c.isDigit then some (c.toNat - 48)
  else if 97 ≤ c.toNat ∧ c.toNat ≤ 102 then some (c.toNat - 87)
  else if 65 ≤ c.toNat ∧ c.toNat ≤ 70 then some (c.toNat - 55)
  else none

/-- A code unit of four hexadecimal digits. -/
def readUnit : List Char → Option (Nat × List Char)
  | a :: b :: c :: d :: rest => do
    let a ← hexValue a
    let b ← hexValue b
    let c ← hexValue c
    let d ← hexValue d
    some (((a * 16 + b) * 16 + c) * 16 + d, rest)
  | _ => none

/-- The low half of a pair of surrogates, after its high half. -/
def readLow (high : Nat) : List Char → Option (Char × List Char)
  | '\\' :: 'u' :: rest => do
    let (low, rest) ← readUnit rest
    if 0xdc00 ≤ low ∧ low < 0xe000 then
      some (Char.ofNat (0x10000 + (high - 0xd800) * 0x400 + (low - 0xdc00)), rest)
    else none
  | _ => none

/-- The character that a `\u` stands for. -/
def readUnicode (cs : List Char) : Option (Char × List Char) := do
  let (unit, rest) ← readUnit cs
  if 0xd800 ≤ unit ∧ unit < 0xdc00 then readLow unit rest
  else if 0xdc00 ≤ unit ∧ unit < 0xe000 then none
  else some (Char.ofNat unit, rest)

/-- What a character after a backslash stands for. -/
def escaped (c : Char) : Option Char :=
  if c = mark ∨ c = '\\' ∨ c = '/' then some c
  else if c = 'b' then some (Char.ofNat 0x08)
  else if c = 't' then some (Char.ofNat 0x09)
  else if c = 'n' then some (Char.ofNat 0x0a)
  else if c = 'f' then some (Char.ofNat 0x0c)
  else if c = 'r' then some (Char.ofNat 0x0d)
  else none

/-- The first character of a string, and the text after it. -/
def readChar : List Char → Option (Char × List Char)
  | '\\' :: 'u' :: rest => readUnicode rest
  | '\\' :: c :: rest => (escaped c).map fun d => (d, rest)
  | ['\\'] => none
  | c :: rest => if c.toNat < 0x20 then none else some (c, rest)
  | [] => none

/-- The characters of a string up to its closing mark, and the text after that. -/
def readChars : Nat → List Char → Option (List Char × List Char)
  | 0, _ => none
  | _ + 1, [] => none
  | fuel + 1, c :: rest =>
    if c = mark then some ([], rest)
    else do
      let (d, rest) ← readChar (c :: rest)
      let (ds, rest) ← readChars fuel rest
      some (d :: ds, rest)

/-- The string after an opening mark. -/
def readString (cs : List Char) : Option (String × List Char) := do
  let (ds, rest) ← readChars cs.length cs
  some (String.ofList ds, rest)

/-! ## Values -/

/-- The text after the white space. -/
def skipSpace : List Char → List Char
  | [] => []
  | c :: rest =>
    if c = ' ' ∨ c = '\t' ∨ c = '\n' ∨ c = '\r' then skipSpace rest else c :: rest

/-- The text after a word. -/
def readWord : List Char → List Char → Option (List Char)
  | [], rest => some rest
  | _ :: _, [] => none
  | c :: word, d :: rest => if c = d then readWord word rest else none

/-- A character that may stand in a numeral. -/
def inNumeral (c : Char) : Bool :=
  isNumeral c || c == 'E'

/-- The number in front of a text. -/
def readNumber (read : List Char → Option Rat) (cs : List Char) : Option (Json × List Char) :=
  (read (cs.takeWhile inNumeral)).map fun q => (.num q, cs.dropWhile inNumeral)

/-- An object is given a field, in the place of one with its key. -/
def setField (object : JsonObject) (key : String) (value : Json) : JsonObject :=
  if object.any (fun field => field.1 == key) then
    object.map fun field => if field.1 = key then (key, value) else field
  else object ++ [(key, value)]

/-- The object of the fields of a text: a key's last value counts, array indices come first. -/
def fromFields (fields : List (String × Json)) : JsonObject :=
  Agents.fromEntries (fields.foldl (fun object field => setField object field.1 field.2) [])

mutual

/-- The value in front of a text, and the text after it. -/
def parseValue (read : List Char → Option Rat) : Nat → List Char → Option (Json × List Char)
  | 0, _ => none
  | fuel + 1, cs =>
    match skipSpace cs with
    | [] => none
    | c :: rest =>
      match leads c with
      | some .null => (readWord ['u', 'l', 'l'] rest).map fun rest => (.null, rest)
      | some .yes => (readWord ['r', 'u', 'e'] rest).map fun rest => (.bool true, rest)
      | some .no => (readWord ['a', 'l', 's', 'e'] rest).map fun rest => (.bool false, rest)
      | some .num => readNumber read (c :: rest)
      | some .str => (readString rest).map fun (value, rest) => (.str value, rest)
      | some .arr =>
        match skipSpace rest with
        | ']' :: rest => some (.arr [], rest)
        | rest => (parseItems read fuel rest).map fun (items, rest) => (.arr items, rest)
      | some .obj =>
        match skipSpace rest with
        | [] => none
        | d :: rest =>
          if d = Char.ofNat 0x7d then some (.obj [], rest)
          else (parseFields read fuel (d :: rest)).map fun (fields, rest) =>
            (.obj (fromFields fields), rest)
      | none => none

/-- The items of an array up to its closing bracket. -/
def parseItems (read : List Char → Option Rat) : Nat → List Char → Option (List Json × List Char)
  | 0, _ => none
  | fuel + 1, cs => do
    let (item, rest) ← parseValue read fuel cs
    match skipSpace rest with
    | ',' :: rest =>
      let (items, rest) ← parseItems read fuel rest
      some (item :: items, rest)
    | ']' :: rest => some ([item], rest)
    | _ => none

/-- The fields of an object up to its closing brace. -/
def parseFields (read : List Char → Option Rat) :
    Nat → List Char → Option (List (String × Json) × List Char)
  | 0, _ => none
  | fuel + 1, cs =>
    match skipSpace cs with
    | [] => none
    | c :: rest =>
      if c = mark then do
        let (key, rest) ← readString rest
        match skipSpace rest with
        | ':' :: rest =>
          let (value, rest) ← parseValue read fuel rest
          match skipSpace rest with
          | [] => none
          | d :: rest =>
            if d = ',' then
              let (fields, rest) ← parseFields read fuel rest
              some ((key, value) :: fields, rest)
            else if d = Char.ofNat 0x7d then some ([(key, value)], rest)
            else none
        | _ => none
      else none

end

/-- `JSON.parse`; `none` where it throws. -/
def parse (read : List Char → Option Rat) (text : List Char) : Option Json := do
  let (value, rest) ← parseValue read text.length text
  if skipSpace rest = [] then some value else none

/-! ## What is left out of `Json` -/

/-- The text after the digits in front of it, if there are some. -/
def dropDigits (cs : List Char) : Option (List Char) :=
  if cs.takeWhile Char.isDigit = [] then none else some (cs.dropWhile Char.isDigit)

/-- No digit follows a zero in front. -/
def dropInteger : List Char → Option (List Char)
  | '0' :: rest => some rest
  | cs => dropDigits cs

def dropFraction : List Char → Option (List Char)
  | '.' :: rest => dropDigits rest
  | cs => some cs

def dropSign : List Char → List Char
  | '+' :: rest => rest
  | '-' :: rest => rest
  | cs => cs

def dropExponent : List Char → Option (List Char)
  | 'e' :: rest => dropDigits (dropSign rest)
  | 'E' :: rest => dropDigits (dropSign rest)
  | cs => some cs

/-- A numeral of a JSON text. -/
def isNumber (cs : List Char) : Bool :=
  let unsigned := match cs with
    | '-' :: rest => rest
    | cs => cs
  ((dropInteger unsigned).bind dropFraction).bind dropExponent == some []

/-- A text with `\u0000` for every code unit that is escaped: a half of a surrogate pair may stand
alone in a JSON text. -/
def plainEscapes : List Char → List Char
  | '\\' :: 'u' :: a :: b :: c :: d :: rest =>
    (if (readUnit [a, b, c, d]).isSome then ['\\', 'u', '0', '0', '0', '0']
      else ['\\', 'u', a, b, c, d]) ++ plainEscapes rest
  | '\\' :: c :: rest => '\\' :: c :: plainEscapes rest
  | c :: rest => c :: plainEscapes rest
  | [] => []

/-- `JSON.parse` does not throw, whatever the numbers and the escaped code units of the text are. -/
def IsText (text : List Char) : Prop :=
  (parse (fun cs => if isNumber cs then some 0 else none) (plainEscapes text)).isSome = true

/-- The text has no number that is infinite or `-0`, and no half of a surrogate pair: if `JSON.parse`
reads it, it is read here. -/
def NumeralReader.Holds {n : NumberText} (reader : NumeralReader n) (raw : String) : Prop :=
  IsText raw.toList → (parse reader.read raw.toList).isSome = true

/-! ## Values of the language -/

mutual

/-- What a value of the language is: an object has each key once, and lists the array indices
first. -/
def Native : Json → Prop
  | .arr items => NativeItems items
  | .obj fields =>
    (fields.map Prod.fst).Nodup ∧ Agents.fromEntries fields = fields ∧ NativeFields fields
  | .null => True
  | .bool _ => True
  | .num _ => True
  | .str _ => True

def NativeItems : List Json → Prop
  | [] => True
  | item :: rest => Native item ∧ NativeItems rest

def NativeFields : List (String × Json) → Prop
  | [] => True
  | (_, value) :: rest => Native value ∧ NativeFields rest

end

section NativeOf

variable (P : Rat → Prop)

mutual

/-- A value of the language whose numbers are such. -/
def NativeOf : Json → Prop
  | .arr items => NativeItemsOf items
  | .obj fields =>
    (fields.map Prod.fst).Nodup ∧ Agents.fromEntries fields = fields ∧ NativeFieldsOf fields
  | .null => True
  | .bool _ => True
  | .num q => P q
  | .str _ => True

def NativeItemsOf : List Json → Prop
  | [] => True
  | item :: rest => NativeOf item ∧ NativeItemsOf rest

def NativeFieldsOf : List (String × Json) → Prop
  | [] => True
  | (_, value) :: rest => NativeOf value ∧ NativeFieldsOf rest

end

end NativeOf

mutual

theorem nativeOf_of_native {P : Rat → Prop} (hP : ∀ q, P q) : ∀ {a : Json}, Native a → NativeOf P a
  | .arr _, h => nativeItemsOf_of_native hP h
  | .obj _, h => ⟨h.1, h.2.1, nativeFieldsOf_of_native hP h.2.2⟩
  | .num q, _ => hP q
  | .null, _ | .bool _, _ | .str _, _ => trivial

theorem nativeItemsOf_of_native {P : Rat → Prop} (hP : ∀ q, P q) : ∀ {items : List Json},
    NativeItems items → NativeItemsOf P items
  | [], _ => trivial
  | _ :: _, h => ⟨nativeOf_of_native hP h.1, nativeItemsOf_of_native hP h.2⟩

theorem nativeFieldsOf_of_native {P : Rat → Prop} (hP : ∀ q, P q) :
    ∀ {fields : List (String × Json)}, NativeFields fields → NativeFieldsOf P fields
  | [], _ => trivial
  | (_, _) :: _, h => ⟨nativeOf_of_native hP h.1, nativeFieldsOf_of_native hP h.2⟩

end

theorem foldl_setField : ∀ (fields object : JsonObject),
    ((object ++ fields).map Prod.fst).Nodup →
    fields.foldl (fun object field => setField object field.1 field.2) object = object ++ fields
  | [], object, _ => (List.append_nil object).symm
  | (key, value) :: rest, object, h => by
    have hnew : object.any (fun field => field.1 == key) = false := by
      rw [List.any_eq_false]
      intro field hfield hkey
      rw [beq_iff_eq] at hkey
      rw [List.map_append, List.nodup_append] at h
      exact h.2.2 _ (List.mem_map_of_mem hfield) _ List.mem_cons_self hkey
    have hset : setField object key value = object ++ [(key, value)] := by
      unfold setField
      rw [if_neg (by simp [hnew])]
    rw [List.foldl_cons, hset, foldl_setField rest, List.append_assoc]
    · rfl
    · rw [List.append_assoc]
      exact h

/-- The fields of an object of the language are an object as they are. -/
theorem fromFields_of_native {P : Rat → Prop} {fields : JsonObject}
    (h : NativeOf P (.obj fields)) : fromFields fields = fields := by
  rw [NativeOf] at h
  unfold fromFields
  rw [foldl_setField fields [] h.1, List.nil_append, h.2.1]

/-! ## Reading what stands in front -/

theorem skipSpace_cons {c : Char} {rest : List Char}
    (h : ¬ (c = ' ' ∨ c = '\t' ∨ c = '\n' ∨ c = '\r')) : skipSpace (c :: rest) = c :: rest := by
  rw [skipSpace, if_neg h]

/-- A text whose first character leads to a value has no white space in front. -/
theorem skipSpace_of_leads {c : Char} {rest : List Char} {k : Kind} (h : leads c = some k) :
    skipSpace (c :: rest) = c :: rest := by
  have hspace : ∀ d, d = ' ' ∨ d = '\t' ∨ d = '\n' ∨ d = '\r' → leads d = none := by
    rintro d (rfl | rfl | rfl | rfl) <;> rfl
  apply skipSpace_cons
  intro hc
  rw [hspace c hc] at h
  cases h

theorem readNumber_append {read : List Char → Option Rat} {text rest : List Char} {q : Rat}
    (hread : read text = some q) (htext : ∀ c ∈ text, inNumeral c = true)
    (hrest : ∀ c ∈ rest.head?, inNumeral c = false) :
    readNumber read (text ++ rest) = some (.num q, rest) := by
  have htake : rest.takeWhile inNumeral = [] := by
    cases rest with
    | nil => rfl
    | cons c rest => rw [List.takeWhile_cons, if_neg (by simp [hrest c rfl])]
  have hdrop : rest.dropWhile inNumeral = rest := by
    cases rest with
    | nil => rfl
    | cons c rest => rw [List.dropWhile_cons, if_neg (by simp [hrest c rfl])]
  unfold readNumber
  rw [List.takeWhile_append_of_pos htext, htake, List.append_nil, hread,
    List.dropWhile_append_of_pos htext, hdrop, Option.map_some]

/-! ## Numbers as quotients -/

/-- A number without its sign. -/
def readMagnitude (cs : List Char) : Rat :=
  let num := Nat.ofDigitChars 10 (cs.takeWhile Char.isDigit) 0
  match cs.dropWhile Char.isDigit with
  | [] => num
  | _ :: den => mkRat num (Nat.ofDigitChars 10 den 0)

theorem readMagnitude_text (q : Rat) : readMagnitude (magnitudeText q) = mkRat q.num.natAbs q.den := by
  have hdrop : (magnitudeText q).dropWhile Char.isDigit = denominatorText q := by
    unfold magnitudeText
    rw [List.dropWhile_append_of_pos fun c hc => isDigit_of_mem hc]
    unfold denominatorText
    split
    · rfl
    · rfl
  unfold readMagnitude
  rw [takeWhile_magnitudeText, hdrop, Nat.ofDigitChars_ten_toDigits]
  by_cases hden : q.den = 1
  · have hnone : denominatorText q = [] := if_pos hden
    rw [hnone, hden, Rat.mkRat_one]
    rfl
  · have hsome : denominatorText q = 'e' :: Nat.toDigits 10 q.den := if_neg hden
    rw [hsome]
    show mkRat q.num.natAbs (Nat.ofDigitChars 10 (Nat.toDigits 10 q.den) 0) = _
    rw [Nat.ofDigitChars_ten_toDigits]

/-- The numbers of `quotients` are read back. -/
def quotientReader : NumberReader quotients where
  read cs := match cs with
    | '-' :: rest => some (-readMagnitude rest)
    | rest => some (readMagnitude rest)
  read_text := by
    intro q
    show (match quotientText q with
      | '-' :: rest => some (-readMagnitude rest)
      | rest => some (readMagnitude rest)) = some q
    by_cases hneg : q.num < 0
    · have htext : quotientText q = '-' :: magnitudeText q := if_pos hneg
      rw [htext]
      simp only [readMagnitude_text]
      rw [Int.ofNat_natAbs_of_nonpos (by omega), Rat.neg_mkRat, Int.neg_neg, Rat.mkRat_self]
    · have htext : quotientText q = magnitudeText q := if_neg hneg
      rw [htext]
      split
      · next hhead => exact absurd hhead head_magnitudeText
      · rw [readMagnitude_text, Int.natAbs_of_nonneg (by omega), Rat.mkRat_self]

end EphemeralAgent.Json
