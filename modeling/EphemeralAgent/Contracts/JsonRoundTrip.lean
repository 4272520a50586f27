import EphemeralAgent.Contracts.JsonParse

/-!
# Reading back what was printed

A value is read back from its text, also where `<` is written in another way inside the strings.

* `Spelling` — a way to write `<`
* `parse_write` — a value is read back from its text in such a spelling
* `parse_stringify` — `JSON.parse` undoes `JSON.stringify`
-/

namespace EphemeralAgent.Json

/-! ## Spellings -/

/-- How `<` is written; as a character of a string it is read back. -/
structure Spelling where
  lt : List Char
  head : ∃ d tail, lt = d :: tail ∧ d ≠ mark
  read : ∀ rest, readChar (lt ++ rest) = some ('<', rest)

/-- The text with every `<` in its spelling. -/
def Spelling.write (w : Spelling) (cs : List Char) : List Char :=
  cs.flatMap fun c => if c = '<' then w.lt else [c]

/-- `<` stands for itself. -/
def Spelling.plain : Spelling where
  lt := ['<']
  head := ⟨'<', [], rfl, by decide⟩
  read := fun _ => rfl

theorem write_plain (cs : List Char) : Spelling.plain.write cs = cs := by
  have hsame : ∀ c, (if c = '<' then Spelling.plain.lt else [c]) = [c] := by
    intro c
    by_cases hlt : c = '<'
    · rw [if_pos hlt, hlt]
      rfl
    · rw [if_neg hlt]
  unfold Spelling.write
  rw [List.flatMap_congr fun c _ => hsame c, List.flatMap_singleton']

variable (w : Spelling)

theorem write_append (a b : List Char) : w.write (a ++ b) = w.write a ++ w.write b :=
  List.flatMap_append

theorem write_cons {c : Char} (h : c ≠ '<') (cs : List Char) :
    w.write (c :: cs) = c :: w.write cs := by
  unfold Spelling.write
  rw [List.flatMap_cons, if_neg h]
  rfl

@[simp] theorem write_lt : w.write ['<'] = w.lt :=
  List.append_nil _

theorem write_eq_self : ∀ {cs : List Char}, (∀ c ∈ cs, c ≠ '<') → w.write cs = cs
  | [], _ => rfl
  | c :: cs, h => by
    rw [write_cons w (h c List.mem_cons_self),
      write_eq_self fun d hd => h d (List.mem_cons_of_mem c hd)]

/-! ## Strings -/

/-- A character of a string is read back from its text in a spelling. -/
theorem readChar_write (c : Char) (rest : List Char) :
    readChar (w.write (escapeChar c) ++ rest) = some (c, rest) := by
  have hcontrolled : ∀ n < 0x20,
      readChar (w.write (escapeChar (Char.ofNat n)) ++ rest) = some (Char.ofNat n, rest) := by
    intro n hn
    interval_cases n <;> rfl
  by_cases hcontrol : c.toNat < 0x20
  · rw [← Char.ofNat_toNat c]
    exact hcontrolled c.toNat hcontrol
  · by_cases hmark : c = mark
    · rw [hmark]; rfl
    · by_cases hback : c = '\\'
      · rw [hback]; rfl
      · have hplain : escapeChar c = [c] := by
          unfold escapeChar
          rw [if_neg hmark, if_neg hback]
          repeat rw [if_neg (by omega)]
        rw [hplain]
        by_cases hlt : c = '<'
        · rw [hlt, write_lt]
          exact w.read rest
        · rw [write_cons w hlt]
          show readChar (c :: rest) = some (c, rest)
          simp [readChar, hback, hcontrol]

/-- No character of a string is the closing mark. -/
theorem write_escapeChar (c : Char) :
    ∃ d tail, w.write (escapeChar c) = d :: tail ∧ d ≠ mark := by
  rcases escapeChar_cases c with ⟨hmark, heq⟩ | ⟨tail, heq⟩
  · rw [heq]
    by_cases hlt : c = '<'
    · rw [hlt, write_lt]
      exact w.head
    · exact ⟨c, [], by rw [write_cons w hlt]; rfl, hmark⟩
  · rw [heq, write_cons w (by decide)]
    exact ⟨'\\', w.write tail, rfl, by decide⟩

theorem readChars_write : ∀ (cs : List Char) (fuel : Nat) (rest : List Char), cs.length < fuel →
    readChars fuel (w.write (quotedChars cs) ++ rest) = some (cs, rest)
  | cs, 0, rest, h => absurd h (Nat.not_lt_zero _)
  | [], fuel + 1, rest, _ => rfl
  | c :: cs, fuel + 1, rest, h => by
    obtain ⟨d, tail, heq, hd⟩ := write_escapeChar w c
    have hread := readChar_write w c (w.write (quotedChars cs) ++ rest)
    have hrest := readChars_write cs fuel rest (Nat.lt_of_succ_lt_succ h)
    rw [quotedChars, write_append, List.append_assoc]
    rw [heq] at hread ⊢
    rw [List.cons_append] at hread ⊢
    rw [readChars, if_neg hd, hread]
    simp only [Option.bind_eq_bind, Option.bind_some, hrest]

theorem length_lt_quotedChars (cs : List Char) : cs.length < (w.write (quotedChars cs)).length := by
  induction cs with
  | nil => exact Nat.zero_lt_one
  | cons c cs ih =>
    obtain ⟨d, tail, heq, -⟩ := write_escapeChar w c
    rw [quotedChars, write_append, heq, List.length_append, List.length_cons, List.length_cons]
    omega

theorem readString_write (s : String) (rest : List Char) :
    readString (w.write (quotedChars s.toList) ++ rest) = some (s, rest) := by
  have hlength := length_lt_quotedChars w s.toList
  unfold readString
  rw [readChars_write w _ _ _ (by rw [List.length_append]; omega)]
  simp only [Option.bind_eq_bind, Option.bind_some, String.ofList_toList]

theorem write_quoted (s : String) : w.write (quoted s) = mark :: w.write (quotedChars s.toList) :=
  write_cons w (by decide) _

/-! ## Values -/

/-- The text of a value starts with a character that leads to its kind, which is kept. -/
theorem write_stringify_leads (n : NumberText) (a : Json) :
    ∃ c tail, stringify n a = c :: tail ∧ w.write (stringify n a) = c :: w.write tail ∧
      leads c = some (kind a) := by
  obtain ⟨c, tail, heq, hc⟩ := stringify_leads n a
  have hlt : c ≠ '<' := by
    rintro rfl
    cases hc
  exact ⟨c, tail, heq, by rw [heq, write_cons w hlt], hc⟩

/-- What follows a value in a text does not go on with a numeral. -/
def Ends (rest : List Char) : Prop :=
  ∀ c ∈ rest.head?, inNumeral c = false

theorem ends_cons {c : Char} {rest : List Char} (h : inNumeral c = false) : Ends (c :: rest) := by
  intro d hd
  cases hd
  exact h

theorem ne_lt_of_numeral {c : Char} (h : isNumeral c = true) : c ≠ '<' := by
  rintro rfl
  cases h

/-- The rest of an array after an item. -/
def itemsTail (n : NumberText) : List Json → List Char
  | [] => [']']
  | item :: rest => ',' :: stringifyItems n (item :: rest)

/-- The rest of an object after a field. -/
def fieldsTail (n : NumberText) : List (String × Json) → List Char
  | [] => [Char.ofNat 0x7d]
  | field :: rest => ',' :: stringifyFields n (field :: rest)

theorem write_stringifyItems (n : NumberText) (item : Json) (rest : List Json) :
    w.write (stringifyItems n (item :: rest)) =
      w.write (stringify n item) ++ w.write (itemsTail n rest) := by
  rw [stringifyItems_cons, write_append]
  cases rest <;> rfl

theorem write_stringifyFields (n : NumberText) (key : String) (value : Json)
    (rest : List (String × Json)) :
    w.write (stringifyFields n ((key, value) :: rest)) =
      mark :: w.write (quotedChars key.toList) ++
        ':' :: (w.write (stringify n value) ++ w.write (fieldsTail n rest)) := by
  rw [stringifyFields_cons, write_append, write_quoted, write_cons w (by decide), write_append]
  cases rest <;> rfl

theorem ends_itemsTail (n : NumberText) (items : List Json) (rest : List Char) :
    Ends (w.write (itemsTail n items) ++ rest) := by
  cases items with
  | nil => exact ends_cons (by decide)
  | cons item items =>
    rw [itemsTail, write_cons w (by decide)]
    exact ends_cons (by decide)

theorem ends_fieldsTail (n : NumberText) (fields : List (String × Json)) (rest : List Char) :
    Ends (w.write (fieldsTail n fields) ++ rest) := by
  cases fields with
  | nil => exact ends_cons (by decide)
  | cons field fields =>
    rw [fieldsTail, write_cons w (by decide)]
    exact ends_cons (by decide)

variable {n : NumberText} {read : List Char → Option Rat}

/-- A value of the language whose numbers are read back from their texts. -/
abbrev Legible (n : NumberText) (read : List Char → Option Rat) : Json → Prop :=
  NativeOf fun q => read (n.text q) = some q

mutual

/-- A value is read back from its text in a spelling. -/
theorem parseValue_write : ∀ (a : Json) (fuel : Nat) (rest : List Char), Legible n read a →
    (w.write (stringify n a)).length ≤ fuel → Ends rest →
    parseValue read fuel (w.write (stringify n a) ++ rest) = some (a, rest)
  | a, 0, rest, _, hfuel, _ => by
    obtain ⟨c, tail, -, heq, -⟩ := write_stringify_leads w n a
    rw [heq] at hfuel
    exact absurd hfuel (Nat.not_succ_le_zero _)
  | .null, fuel + 1, rest, _, _, _ => by
    rw [stringify]
    rfl
  | .bool true, fuel + 1, rest, _, _, _ => by
    rw [stringify]
    rfl
  | .bool false, fuel + 1, rest, _, _, _ => by
    rw [stringify]
    rfl
  | .num value, fuel + 1, rest, hread, _, hrest => by
    have hplain : w.write (stringify n (.num value)) = n.text value := by
      rw [stringify]
      exact write_eq_self w fun c hc => ne_lt_of_numeral (n.numeral value c hc)
    have hnumber : readNumber read (n.text value ++ rest) = some (.num value, rest) :=
      readNumber_append hread
        (fun c hc => by rw [inNumeral, n.numeral value c hc, Bool.true_or]) hrest
    obtain ⟨c, tail, htext, -, hc⟩ := write_stringify_leads w n (.num value)
    rw [stringify] at htext
    rw [htext, List.cons_append] at hnumber
    rw [hplain, htext, List.cons_append, parseValue, skipSpace_of_leads hc]
    simp only [hc, kind, hnumber]
  | .str value, fuel + 1, rest, _, _, _ => by
    have hc : leads mark = some .str := rfl
    rw [stringify, write_quoted, List.cons_append, parseValue, skipSpace_of_leads hc]
    simp only [hc, readString_write, Option.map_some]
  | .arr [], fuel + 1, rest, _, _, _ => by
    rw [stringify, stringifyItems]
    rfl
  | .arr (item :: items), fuel + 1, rest, hnative, hfuel, _ => by
    rw [Legible, NativeOf] at hnative
    rw [stringify, write_cons w (by decide), List.length_cons] at hfuel
    have hitems := parseItems_write item items fuel rest hnative (by omega)
    have hc : leads '[' = some .arr := rfl
    rw [stringify, write_cons w (by decide), List.cons_append, parseValue, skipSpace_of_leads hc]
    simp only [hc]
    obtain ⟨d, tail, -, heq, hd⟩ := write_stringify_leads w n item
    rw [write_stringifyItems, heq] at hitems ⊢
    rw [List.append_assoc, List.cons_append] at hitems ⊢
    rw [skipSpace_of_leads hd]
    split
    · next r hclose =>
      -- an element never starts with the closing bracket
      rw [(List.cons.inj hclose).1] at hd
      cases hd
    · rw [hitems, Option.map_some]
  | .obj [], fuel + 1, rest, _, _, _ => by
    rw [stringify, stringifyFields]
    rfl
  | .obj ((key, value) :: fields), fuel + 1, rest, hnative, hfuel, _ => by
    have hsame := fromFields_of_native hnative
    rw [Legible, NativeOf] at hnative
    rw [stringify, write_cons w (by decide), List.length_cons] at hfuel
    have hfields := parseFields_write key value fields fuel rest hnative.2.2 (by omega)
    have hc : leads (Char.ofNat 0x7b) = some .obj := rfl
    have hd : leads mark = some .str := rfl
    rw [stringify, write_cons w (by decide), List.cons_append, parseValue, skipSpace_of_leads hc]
    simp only [hc]
    rw [write_stringifyFields, List.cons_append, List.cons_append] at hfields ⊢
    rw [skipSpace_of_leads hd]
    simp only [hfields, if_neg (show mark ≠ Char.ofNat 0x7d by decide), Option.map_some, hsame]

theorem parseItems_write : ∀ (item : Json) (items : List Json) (fuel : Nat) (rest : List Char),
    NativeItemsOf (fun q => read (n.text q) = some q) (item :: items) →
    (w.write (stringifyItems n (item :: items))).length ≤ fuel →
    parseItems read fuel (w.write (stringifyItems n (item :: items)) ++ rest) =
      some (item :: items, rest)
  | item, items, 0, rest, _, hfuel => by
    obtain ⟨c, tail, -, heq, -⟩ := write_stringify_leads w n item
    rw [write_stringifyItems, heq] at hfuel
    exact absurd hfuel (Nat.not_succ_le_zero _)
  | item, items, fuel + 1, rest, hnative, hfuel => by
    rw [write_stringifyItems, List.length_append] at hfuel
    rw [write_stringifyItems, List.append_assoc, parseItems]
    rw [NativeItemsOf] at hnative
    match items with
    | [] =>
      have hitem := parseValue_write item fuel (w.write (itemsTail n []) ++ rest) hnative.1
        (by rw [itemsTail] at hfuel; exact Nat.le_of_succ_le_succ hfuel)
        (ends_itemsTail w n [] rest)
      simp only [hitem, Option.bind_eq_bind, Option.bind_some]
      rfl
    | next :: items =>
      rw [itemsTail, write_cons w (by decide), List.length_cons] at hfuel
      have hitem := parseValue_write item fuel (w.write (itemsTail n (next :: items)) ++ rest)
        hnative.1 (by omega) (ends_itemsTail w n (next :: items) rest)
      have hitems := parseItems_write next items fuel rest hnative.2 (by omega)
      have hcomma : skipSpace (w.write (itemsTail n (next :: items)) ++ rest) =
          ',' :: (w.write (stringifyItems n (next :: items)) ++ rest) := by
        rw [itemsTail, write_cons w (by decide)]
        exact skipSpace_cons (by decide)
      simp only [hitem, Option.bind_eq_bind, Option.bind_some, hcomma, hitems]

theorem parseFields_write : ∀ (key : String) (value : Json) (fields : List (String × Json))
    (fuel : Nat) (rest : List Char),
    NativeFieldsOf (fun q => read (n.text q) = some q) ((key, value) :: fields) →
    (w.write (stringifyFields n ((key, value) :: fields))).length ≤ fuel →
    parseFields read fuel (w.write (stringifyFields n ((key, value) :: fields)) ++ rest) =
      some ((key, value) :: fields, rest)
  | key, value, fields, 0, rest, _, hfuel => by
    rw [write_stringifyFields] at hfuel
    exact absurd hfuel (Nat.not_succ_le_zero _)
  | key, value, fields, fuel + 1, rest, hnative, hfuel => by
    rw [write_stringifyFields, List.cons_append, List.length_cons, List.length_append,
      List.length_cons, List.length_append] at hfuel
    have hmark : leads mark = some .str := rfl
    rw [write_stringifyFields, List.cons_append, List.cons_append, List.append_assoc, parseFields,
      skipSpace_of_leads hmark]
    simp only [if_true, readString_write, Option.bind_eq_bind, Option.bind_some, List.cons_append,
      List.append_assoc, skipSpace_cons
        (show ¬ (':' = ' ' ∨ ':' = '\t' ∨ ':' = '\n' ∨ ':' = '\r') by decide)]
    rw [NativeFieldsOf] at hnative
    match fields with
    | [] =>
      have hvalue := parseValue_write value fuel (w.write (fieldsTail n []) ++ rest) hnative.1
        (by omega) (ends_fieldsTail w n [] rest)
      simp only [hvalue, Option.bind_some]
      rfl
    | (key', value') :: fields =>
      rw [fieldsTail, write_cons w (by decide), List.length_cons] at hfuel
      have hvalue := parseValue_write value fuel
        (w.write (fieldsTail n ((key', value') :: fields)) ++ rest) hnative.1 (by omega)
        (ends_fieldsTail w n _ rest)
      have hfields := parseFields_write key' value' fields fuel rest hnative.2 (by omega)
      have hcomma : skipSpace (w.write (fieldsTail n ((key', value') :: fields)) ++ rest) =
          ',' :: (w.write (stringifyFields n ((key', value') :: fields)) ++ rest) := by
        rw [fieldsTail, write_cons w (by decide)]
        exact skipSpace_cons (by decide)
      simp only [hvalue, Option.bind_some, hcomma, hfields, if_true]

end

/-- **A value is read back from its text in a spelling.** -/
theorem parse_write {a : Json} (h : Legible n read a) :
    parse read (w.write (stringify n a)) = some a := by
  have hends : Ends [] := fun c hc => nomatch hc
  have hvalue := parseValue_write w a _ [] h (Nat.le_refl _) hends
  rw [List.append_nil] at hvalue
  unfold parse
  rw [hvalue]
  rfl

/-- **`JSON.parse` undoes `JSON.stringify`.** -/
theorem parse_stringify {a : Json} (h : Legible n read a) :
    parse read (stringify n a) = some a := by
  have hparse := parse_write .plain h
  rwa [write_plain] at hparse

end EphemeralAgent.Json
