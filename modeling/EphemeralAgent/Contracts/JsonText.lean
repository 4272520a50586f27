import Mathlib.Algebra.Order.Ring.Rat
import Mathlib.Data.List.Basic
import Mathlib.Tactic.IntervalCases
import EphemeralAgent.Contracts.Json

/-!
# The text of a JSON value

`JSON.stringify` without indentation, character by character.  How a number is printed is a
parameter with what the language guarantees of it.

* `NumberText` — the texts of the numbers
* `stringify` — the text of a value
* `stringify_injective` — a value can be read back from its text
* `quotients` — one such way to print numbers
-/

namespace EphemeralAgent.Json

/-- A character that may stand in the text of a number. -/
def isNumeral (c : Char) : Bool :=
  c.isDigit || c == '-' || c == '+' || c == '.' || c == 'e'

/-- How the numbers are printed: with the characters of a numeral, and no two alike. -/
structure NumberText where
  text : Rat → List Char
  nonempty : ∀ q, text q ≠ []
  numeral : ∀ q, ∀ c ∈ text q, isNumeral c = true
  injective : ∀ {p q}, text p = text q → p = q

/-! ## Strings -/

/-- A quotation mark. -/
def mark : Char := Char.ofNat 0x22

/-- How a character stands in a quoted string. -/
def escapeChar (c : Char) : List Char :=
  if c = mark then ['\\', mark]
  else if c = '\\' then ['\\', '\\']
  else if c.toNat = 0x08 then ['\\', 'b']
  else if c.toNat = 0x09 then ['\\', 't']
  else if c.toNat = 0x0a then ['\\', 'n']
  else if c.toNat = 0x0c then ['\\', 'f']
  else if c.toNat = 0x0d then ['\\', 'r']
  else if c.toNat < 0x20 then
    ['\\', 'u', '0', '0', Nat.digitChar (c.toNat / 16), Nat.digitChar (c.toNat % 16)]
  else [c]

/-- The characters of a string up to its closing mark. -/
def quotedChars : List Char → List Char
  | [] => [mark]
  | c :: rest => escapeChar c ++ quotedChars rest

/-- The text of a string. -/
def quoted (s : String) : List Char :=
  mark :: quotedChars s.toList

/-- The first character that an escaped text stands for, and the text after it. -/
def unescape : List Char → Option (Char × List Char)
  | '\\' :: 'u' :: '0' :: '0' :: high :: low :: rest =>
    let digit (c : Char) : Nat := if c.isDigit then c.toNat - 48 else c.toNat - 87
    some (Char.ofNat (digit high * 16 + digit low), rest)
  | '\\' :: c :: rest =>
    let value : Char :=
      if c = 'b' then Char.ofNat 0x08
      else if c = 't' then Char.ofNat 0x09
      else if c = 'n' then Char.ofNat 0x0a
      else if c = 'f' then Char.ofNat 0x0c
      else if c = 'r' then Char.ofNat 0x0d
      else c
    some (value, rest)
  | c :: rest => some (c, rest)
  | [] => none

theorem unescape_control : ∀ n < 0x20, ∀ rest,
    unescape (escapeChar (Char.ofNat n) ++ rest) = some (Char.ofNat n, rest) := by
  intro n hn rest
  interval_cases n <;> rfl

/-- An escaped character can be read back. -/
theorem unescape_escapeChar (c : Char) (rest : List Char) :
    unescape (escapeChar c ++ rest) = some (c, rest) := by
  by_cases hcontrol : c.toNat < 0x20
  · have hc : Char.ofNat c.toNat = c := Char.ofNat_toNat c
    rw [← hc]
    exact unescape_control c.toNat hcontrol rest
  · by_cases hmark : c = mark
    · rw [hmark]; rfl
    · by_cases hback : c = '\\'
      · rw [hback]; rfl
      · have hplain : escapeChar c = [c] := by
          unfold escapeChar
          rw [if_neg hmark, if_neg hback]
          repeat rw [if_neg (by omega)]
        rw [hplain]
        simp [unescape, hback]

/-- No character is written with a mark in front. -/
theorem escapeChar_cases (c : Char) :
    c ≠ mark ∧ escapeChar c = [c] ∨ ∃ rest, escapeChar c = '\\' :: rest := by
  by_cases hmark : c = mark
  · exact Or.inr ⟨_, if_pos hmark⟩
  · unfold escapeChar
    rw [if_neg hmark]
    split_ifs
    all_goals first | exact Or.inr ⟨_, rfl⟩ | exact Or.inl ⟨hmark, rfl⟩

theorem escapeChar_head (c : Char) (rest : List Char) :
    (escapeChar c ++ rest).head? ≠ some mark := by
  rcases escapeChar_cases c with ⟨hmark, heq⟩ | ⟨tail, heq⟩
  · rw [heq]
    exact fun h => hmark (Option.some.inj h)
  · rw [heq]
    exact fun h => absurd (Option.some.inj h) (by decide)

theorem quotedChars_inj : ∀ (s s' r r' : List Char),
    quotedChars s ++ r = quotedChars s' ++ r' → s = s' ∧ r = r'
  | [], [], r, r', h => ⟨rfl, by simpa [quotedChars] using h⟩
  | [], c :: s', r, r', h => by
    have hhead : (escapeChar c ++ (quotedChars s' ++ r')).head? = some mark := by
      rw [← List.append_assoc, ← quotedChars, ← h]
      rfl
    exact absurd hhead (escapeChar_head c _)
  | c :: s, [], r, r', h => by
    have hhead : (escapeChar c ++ (quotedChars s ++ r)).head? = some mark := by
      rw [← List.append_assoc, ← quotedChars, h]
      rfl
    exact absurd hhead (escapeChar_head c _)
  | c :: s, c' :: s', r, r', h => by
    rw [quotedChars, quotedChars, List.append_assoc, List.append_assoc] at h
    have hread := congrArg unescape h
    rw [unescape_escapeChar, unescape_escapeChar, Option.some.injEq, Prod.mk.injEq] at hread
    obtain ⟨hs, hr⟩ := quotedChars_inj s s' r r' hread.2
    exact ⟨by rw [hread.1, hs], hr⟩

theorem quoted_inj {s s' : String} {r r' : List Char} (h : quoted s ++ r = quoted s' ++ r') :
    s = s' ∧ r = r' := by
  obtain ⟨hs, hr⟩ := quotedChars_inj _ _ _ _ (List.cons.inj h).2
  exact ⟨String.toList_inj.mp hs, hr⟩

/-! ## Values -/

mutual

/-- `JSON.stringify`. -/
def stringify (n : NumberText) : Json → List Char
  | .null => ['n', 'u', 'l', 'l']
  | .bool true => ['t', 'r', 'u', 'e']
  | .bool false => ['f', 'a', 'l', 's', 'e']
  | .num value => n.text value
  | .str value => quoted value
  | .arr items => '[' :: stringifyItems n items
  | .obj fields => Char.ofNat 0x7b :: stringifyFields n fields

/-- The items of an array, up to the closing bracket. -/
def stringifyItems (n : NumberText) : List Json → List Char
  | [] => [']']
  | [item] => stringify n item ++ [']']
  | item :: next :: rest => stringify n item ++ ',' :: stringifyItems n (next :: rest)

/-- The fields of an object, up to the closing brace. -/
def stringifyFields (n : NumberText) : List (String × Json) → List Char
  | [] => [Char.ofNat 0x7d]
  | [(key, value)] => quoted key ++ ':' :: (stringify n value ++ [Char.ofNat 0x7d])
  | (key, value) :: next :: rest =>
    quoted key ++ ':' :: (stringify n value ++ ',' :: stringifyFields n (next :: rest))

end

/-- The kinds of values, told apart by the first character of their text. -/
inductive Kind where
  | null
  | yes
  | no
  | num
  | str
  | arr
  | obj
  deriving DecidableEq

def kind : Json → Kind
  | .null => .null
  | .bool true => .yes
  | .bool false => .no
  | .num _ => .num
  | .str _ => .str
  | .arr _ => .arr
  | .obj _ => .obj

/-- The kind of the value whose text starts with this character, when there is one. -/
def leads (c : Char) : Option Kind :=
  if c = 'n' then some .null
  else if c = 't' then some .yes
  else if c = 'f' then some .no
  else if c = mark then some .str
  else if c = '[' then some .arr
  else if c = Char.ofNat 0x7b then some .obj
  else if isNumeral c then some .num
  else none

theorem leads_numeral {c : Char} (h : isNumeral c = true) : leads c = some .num := by
  unfold leads
  repeat rw [if_neg (by rintro rfl; exact absurd h (by decide))]
  rw [if_pos h]

theorem stringify_leads (n : NumberText) (a : Json) :
    ∃ c rest, stringify n a = c :: rest ∧ leads c = some (kind a) := by
  cases a with
  | null => exact ⟨_, _, by rw [stringify], rfl⟩
  | bool value =>
    cases value with
    | true => exact ⟨_, _, by rw [stringify], rfl⟩
    | false => exact ⟨_, _, by rw [stringify], rfl⟩
  | num value =>
    obtain ⟨c, rest, heq⟩ := List.exists_cons_of_ne_nil (n.nonempty value)
    refine ⟨c, rest, by rw [stringify, heq], ?_⟩
    exact leads_numeral (n.numeral value c (by rw [heq]; exact List.mem_cons_self))
  | str value => exact ⟨_, _, by rw [stringify, quoted], rfl⟩
  | arr items => exact ⟨_, _, by rw [stringify], rfl⟩
  | obj fields => exact ⟨_, _, by rw [stringify], rfl⟩

/-- No value starts with a character that leads to none. -/
theorem stringify_ne {n : NumberText} {a : Json} {c : Char} {r r' : List Char}
    (hc : leads c = none) : stringify n a ++ r ≠ c :: r' := by
  obtain ⟨c', rest, ha, hc'⟩ := stringify_leads n a
  intro h
  rw [ha, List.cons_append, List.cons.injEq] at h
  rw [h.1, hc] at hc'
  cases hc'

/-- Texts that go on alike belong to values of one kind. -/
theorem kind_eq {n : NumberText} {a b : Json} {r r' : List Char}
    (h : stringify n a ++ r = stringify n b ++ r') : kind a = kind b := by
  obtain ⟨c, rest, ha, hc⟩ := stringify_leads n a
  obtain ⟨c', rest', hb, hc'⟩ := stringify_leads n b
  rw [ha, hb, List.cons_append, List.cons_append, List.cons.injEq] at h
  rw [← Option.some.injEq, ← hc, ← hc', h.1]

/-- A text that cannot continue a number. -/
def Stops (r : List Char) : Prop :=
  ∀ c ∈ r.head?, isNumeral c = false

theorem stops_cons {c : Char} {r : List Char} (h : isNumeral c = false) : Stops (c :: r) := by
  intro d hd
  cases hd
  exact h

theorem numeral_inj : ∀ {s s' r r' : List Char}, (∀ c ∈ s, isNumeral c = true) →
    (∀ c ∈ s', isNumeral c = true) → Stops r → Stops r' → s ++ r = s' ++ r' → s = s' ∧ r = r'
  | [], [], r, r', _, _, _, _, h => ⟨rfl, h⟩
  | [], c :: s', r, r', _, hs', hr, _, h => by
    have hc : c ∈ r.head? := by
      rw [List.nil_append] at h
      rw [h]
      rfl
    exact absurd (hr c hc) (by simp [hs' c List.mem_cons_self])
  | c :: s, [], r, r', hs, _, _, hr', h => by
    have hc : c ∈ r'.head? := by
      rw [List.nil_append] at h
      rw [← h]
      rfl
    exact absurd (hr' c hc) (by simp [hs c List.mem_cons_self])
  | c :: s, c' :: s', r, r', hs, hs', hr, hr', h => by
    rw [List.cons_append, List.cons_append, List.cons.injEq] at h
    obtain ⟨heq, hrest⟩ := numeral_inj (fun d hd => hs d (List.mem_cons_of_mem c hd))
      (fun d hd => hs' d (List.mem_cons_of_mem c' hd)) hr hr' h.2
    exact ⟨by rw [h.1, heq], hrest⟩

theorem stringifyItems_cons (n : NumberText) (item : Json) (rest : List Json) :
    stringifyItems n (item :: rest) = stringify n item ++
      match rest with
      | [] => [']']
      | _ :: _ => ',' :: stringifyItems n rest := by
  cases rest with
  | nil => simp only [stringifyItems]
  | cons next rest => rw [stringifyItems]

theorem stringifyFields_cons (n : NumberText) (key : String) (value : Json)
    (rest : List (String × Json)) :
    stringifyFields n ((key, value) :: rest) = quoted key ++ ':' :: (stringify n value ++
      match rest with
      | [] => [Char.ofNat 0x7d]
      | _ :: _ => ',' :: stringifyFields n rest) := by
  cases rest with
  | nil => simp only [stringifyFields]
  | cons next rest => rw [stringifyFields]

mutual

/-- **A value can be read back from its text**, whatever follows that cannot continue a number. -/
theorem stringify_inj (n : NumberText) : ∀ (a b : Json) {r r' : List Char}, Stops r → Stops r' →
    stringify n a ++ r = stringify n b ++ r' → a = b ∧ r = r'
  | .null, b, r, r', _, _, h => by
    have hkind := kind_eq h
    cases b with
    | null => exact ⟨rfl, List.append_cancel_left h⟩
    | bool value => cases value <;> cases hkind
    | _ => cases hkind
  | .bool value, b, r, r', _, _, h => by
    have hkind := kind_eq h
    cases b with
    | bool value' =>
      cases value <;> cases value' <;>
        first | exact ⟨rfl, List.append_cancel_left h⟩ | cases hkind
    | _ => cases value <;> cases hkind
  | .num value, b, r, r', hr, hr', h => by
    have hkind := kind_eq h
    cases b with
    | num value' =>
      rw [stringify, stringify] at h
      obtain ⟨htext, hrest⟩ := numeral_inj (n.numeral value) (n.numeral value') hr hr' h
      exact ⟨by rw [n.injective htext], hrest⟩
    | bool value => cases value <;> cases hkind
    | _ => cases hkind
  | .str value, b, r, r', _, _, h => by
    have hkind := kind_eq h
    cases b with
    | str value' =>
      rw [stringify, stringify] at h
      obtain ⟨heq, hrest⟩ := quoted_inj h
      exact ⟨by rw [heq], hrest⟩
    | bool value => cases value <;> cases hkind
    | _ => cases hkind
  | .arr items, b, r, r', _, _, h => by
    have hkind := kind_eq h
    cases b with
    | arr items' =>
      rw [stringify, stringify, List.cons_append, List.cons_append, List.cons.injEq] at h
      obtain ⟨heq, hrest⟩ := stringifyItems_inj n items items' h.2
      exact ⟨by rw [heq], hrest⟩
    | bool value => cases value <;> cases hkind
    | _ => cases hkind
  | .obj fields, b, r, r', _, _, h => by
    have hkind := kind_eq h
    cases b with
    | obj fields' =>
      rw [stringify, stringify, List.cons_append, List.cons_append, List.cons.injEq] at h
      obtain ⟨heq, hrest⟩ := stringifyFields_inj n fields fields' h.2
      exact ⟨by rw [heq], hrest⟩
    | bool value => cases value <;> cases hkind
    | _ => cases hkind

theorem stringifyItems_inj (n : NumberText) : ∀ (xs ys : List Json) {r r' : List Char},
    stringifyItems n xs ++ r = stringifyItems n ys ++ r' → xs = ys ∧ r = r'
  | [], [], r, r', h => ⟨rfl, List.append_cancel_left h⟩
  | [], y :: ys, r, r', h => by
    rw [stringifyItems_cons, List.append_assoc] at h
    exact absurd h.symm (stringify_ne (by decide))
  | x :: xs, [], r, r', h => by
    rw [stringifyItems_cons, List.append_assoc] at h
    exact absurd h (stringify_ne (by decide))
  | x :: xs, y :: ys, r, r', h => by
    rw [stringifyItems_cons, stringifyItems_cons, List.append_assoc, List.append_assoc] at h
    have hstops : ∀ (zs : List Json) (t : List Char), Stops ((match zs with
        | [] => [']']
        | _ :: _ => ',' :: stringifyItems n zs) ++ t) := by
      intro zs t
      cases zs with
      | nil => exact stops_cons (by decide)
      | cons z zs => exact stops_cons (by decide)
    obtain ⟨hxy, hrest⟩ := stringify_inj n x y (hstops xs r) (hstops ys r') h
    -- both lists end here, or both go on
    match xs, ys, hrest with
    | [], [], hrest => exact ⟨by rw [hxy], List.append_cancel_left hrest⟩
    | [], _ :: _, hrest => exact absurd (List.cons.inj hrest).1 (by decide)
    | _ :: _, [], hrest => exact absurd (List.cons.inj hrest).1 (by decide)
    | x' :: xs, y' :: ys, hrest =>
      obtain ⟨hxs, hr⟩ := stringifyItems_inj n (x' :: xs) (y' :: ys) (List.cons.inj hrest).2
      exact ⟨by rw [hxy, hxs], hr⟩

theorem stringifyFields_inj (n : NumberText) : ∀ (xs ys : List (String × Json)) {r r' : List Char},
    stringifyFields n xs ++ r = stringifyFields n ys ++ r' → xs = ys ∧ r = r'
  | [], [], r, r', h => ⟨rfl, List.append_cancel_left h⟩
  | [], (key, y) :: ys, r, r', h => by
    rw [stringifyFields_cons, quoted] at h
    exact absurd (List.cons.inj h).1 (by decide)
  | (key, x) :: xs, [], r, r', h => by
    rw [stringifyFields_cons, quoted] at h
    exact absurd (List.cons.inj h).1 (by decide)
  | (key, x) :: xs, (key', y) :: ys, r, r', h => by
    rw [stringifyFields_cons, stringifyFields_cons, List.append_assoc, List.append_assoc] at h
    obtain ⟨hkey, hvalue⟩ := quoted_inj h
    rw [List.cons_append, List.cons_append, List.cons.injEq, List.append_assoc,
      List.append_assoc] at hvalue
    have hstops : ∀ (zs : List (String × Json)) (t : List Char), Stops ((match zs with
        | [] => [Char.ofNat 0x7d]
        | _ :: _ => ',' :: stringifyFields n zs) ++ t) := by
      intro zs t
      cases zs with
      | nil => exact stops_cons (by decide)
      | cons z zs => exact stops_cons (by decide)
    obtain ⟨hxy, hrest⟩ := stringify_inj n x y (hstops xs r) (hstops ys r') hvalue.2
    match xs, ys, hrest with
    | [], [], hrest => exact ⟨by rw [hkey, hxy], List.append_cancel_left hrest⟩
    | [], _ :: _, hrest => exact absurd (List.cons.inj hrest).1 (by decide)
    | _ :: _, [], hrest => exact absurd (List.cons.inj hrest).1 (by decide)
    | x' :: xs, y' :: ys, hrest =>
      obtain ⟨hxs, hr⟩ := stringifyFields_inj n (x' :: xs) (y' :: ys) (List.cons.inj hrest).2
      exact ⟨by rw [hkey, hxy, hxs], hr⟩

end

/-- **Values with one text are one value.** -/
theorem stringify_injective {n : NumberText} {a b : Json} (h : stringify n a = stringify n b) :
    a = b := by
  have hstops : Stops [] := nofun
  have happend : stringify n a ++ [] = stringify n b ++ [] := by rw [h]
  exact (stringify_inj n a b hstops hstops happend).1

/-! ## Numbers as quotients -/

/-- The denominator of a number that is not an integer. -/
def denominatorText (q : Rat) : List Char :=
  if q.den = 1 then [] else 'e' :: Nat.toDigits 10 q.den

/-- A number without its sign. -/
def magnitudeText (q : Rat) : List Char :=
  Nat.toDigits 10 q.num.natAbs ++ denominatorText q

/-- An integer in decimal, and another number as a quotient. -/
def quotientText (q : Rat) : List Char :=
  if q.num < 0 then '-' :: magnitudeText q else magnitudeText q

theorem toDigits_injective {a b : Nat} (h : Nat.toDigits 10 a = Nat.toDigits 10 b) : a = b := by
  rw [← Nat.ofDigitChars_ten_toDigits (n := a), h, Nat.ofDigitChars_ten_toDigits]

theorem isDigit_of_mem {a : Nat} {c : Char} (h : c ∈ Nat.toDigits 10 a) : c.isDigit = true :=
  Nat.isDigit_of_mem_toDigits (by omega) (by omega) h

theorem takeWhile_magnitudeText (q : Rat) :
    (magnitudeText q).takeWhile Char.isDigit = Nat.toDigits 10 q.num.natAbs := by
  have hrest : (denominatorText q).takeWhile Char.isDigit = [] := by
    unfold denominatorText
    split
    · rfl
    · rfl
  unfold magnitudeText
  rw [List.takeWhile_append_of_pos fun c hc => isDigit_of_mem hc, hrest, List.append_nil]

theorem magnitudeText_injective {p q : Rat} (h : magnitudeText p = magnitudeText q) :
    p.num.natAbs = q.num.natAbs ∧ p.den = q.den := by
  have hdigits := congrArg (List.takeWhile Char.isDigit) h
  rw [takeWhile_magnitudeText, takeWhile_magnitudeText] at hdigits
  refine ⟨toDigits_injective hdigits, ?_⟩
  unfold magnitudeText at h
  rw [hdigits] at h
  have hrest := List.append_cancel_left h
  unfold denominatorText at hrest
  split at hrest
  · next hp =>
    split at hrest
    · next hq => rw [hp, hq]
    · cases hrest
  · split at hrest
    · cases hrest
    · exact toDigits_injective (List.cons.inj hrest).2

theorem head_magnitudeText {q : Rat} {rest : List Char} : magnitudeText q ≠ '-' :: rest := by
  intro h
  have hdigits := takeWhile_magnitudeText q
  rw [h] at hdigits
  exact Nat.toDigits_ne_nil hdigits.symm

theorem mem_magnitudeText {q : Rat} {c : Char} (h : c ∈ magnitudeText q) : isNumeral c = true := by
  have hdigit : ∀ {a : Nat}, c ∈ Nat.toDigits 10 a → isNumeral c = true := by
    intro a hc
    simp [isNumeral, isDigit_of_mem hc]
  rcases List.mem_append.mp h with h | h
  · exact hdigit h
  · unfold denominatorText at h
    split at h
    · cases h
    · rcases List.mem_cons.mp h with rfl | h
      · decide
      · exact hdigit h

/-- **A way to print numbers**, which on integers is the decimal one. -/
def quotients : NumberText where
  text := quotientText
  nonempty := by
    intro q h
    unfold quotientText at h
    split at h
    · cases h
    · exact Nat.toDigits_ne_nil (List.append_eq_nil_iff.mp h).1
  numeral := by
    intro q c hc
    unfold quotientText at hc
    split at hc
    · rcases List.mem_cons.mp hc with rfl | hc
      · decide
      · exact mem_magnitudeText hc
    · exact mem_magnitudeText hc
  injective := by
    intro p q h
    have hsame : p.num = q.num ∧ p.den = q.den := by
      unfold quotientText at h
      split at h <;> split at h
      · obtain ⟨hnum, hden⟩ := magnitudeText_injective (List.cons.inj h).2
        omega
      · exact absurd h.symm head_magnitudeText
      · exact absurd h head_magnitudeText
      · obtain ⟨hnum, hden⟩ := magnitudeText_injective h
        omega
    exact Rat.ext hsame.1 hsame.2

end EphemeralAgent.Json
