import CodeAtlas.Number.Numeral
import CodeAtlas.Value.Basic

/-!
# Reading JSON

A reader of JSON documents by the JSON grammar, with words for the numbers that are not finite.
Escapes of surrogate pairs are joined; a surrogate that stands alone is read as the replacement
character.  A number with a fraction or an exponent is a binary number, any other a whole one.
-/

namespace CodeAtlas
namespace Json

/-! ## Texts -/

/-- The number that four digits in base sixteen spell. -/
def unit? (a b c d : Char) : Option Nat := do
  let digits ← [a, b, c, d].mapM Text.hexValue?
  return digits.foldl (fun n digit => n * 16 + digit) 0

/-- The character of a UTF-16 unit that stands alone. -/
def charOfUnit (n : Nat) : Char :=
  if 0xD800 ≤ n ∧ n < 0xE000 then Char.ofNat 0xFFFD else Char.ofNat n

/-- The character of a simple escape. -/
def simpleEscape? (c : Char) : Option Char :=
  if c = '"' ∨ c = '\\' ∨ c = '/' then some c
  else if c = 'n' then some '\n'
  else if c = 'r' then some '\r'
  else if c = 't' then some '\t'
  else if c = 'b' then some (Char.ofNat 0x08)
  else if c = 'f' then some (Char.ofNat 0x0C)
  else none

/-- Reads the rest of a text after its opening quote, up to its closing one. -/
def readText : List Char → Option (List Char × List Char)
  | [] => none
  | '"' :: rest => some ([], rest)
  | '\\' :: 'u' :: a :: b :: c :: d :: rest =>
    match unit? a b c d with
    | none => none
    | some high =>
      if 0xD800 ≤ high ∧ high < 0xDC00 then
        match rest with
        | '\\' :: 'u' :: e :: f :: g :: h :: rest₂ =>
          match unit? e f g h with
          | none => none
          | some low =>
            if 0xDC00 ≤ low ∧ low < 0xE000 then
              let c := Char.ofNat (0x10000 + (high - 0xD800) * 0x400 + (low - 0xDC00))
              (readText rest₂).map fun (cs, after) => (c :: cs, after)
            else
              (readText ('\\' :: 'u' :: e :: f :: g :: h :: rest₂)).map fun (cs, after) =>
                (charOfUnit high :: cs, after)
        | rest => (readText rest).map fun (cs, after) => (charOfUnit high :: cs, after)
      else (readText rest).map fun (cs, after) => (charOfUnit high :: cs, after)
  | '\\' :: e :: rest =>
    match simpleEscape? e with
    | some c => (readText rest).map fun (cs, after) => (c :: cs, after)
    | none => none
  | c :: rest =>
    if c.toNat < 0x20 ∨ c = '\\' then none
    else (readText rest).map fun (cs, after) => (c :: cs, after)

/-! ## Numbers -/

/-- Splits decimal digits off the front. -/
def takeDigits (cs : List Char) : List Char × List Char :=
  (cs.takeWhile Char.isDigit, cs.dropWhile Char.isDigit)

/-- Reads the fraction of a number: the digits after a point. -/
def readFraction (cs : List Char) : Option (Option (List Char) × List Char) :=
  match cs with
  | '.' :: rest =>
    let (digits, rest) := takeDigits rest
    if digits.isEmpty then none else some (some digits, rest)
  | _ => some (none, cs)

/-- Reads the exponent of a number. -/
def readExponent (cs : List Char) : Option (Option Int × List Char) :=
  match cs with
  | [] => some (none, [])
  | mark :: rest =>
    if mark = 'e' ∨ mark = 'E' then
      let (negative, rest) :=
        match rest with
        | '-' :: rest => (true, rest)
        | '+' :: rest => (false, rest)
        | _ => (false, rest)
      let (digits, rest) := takeDigits rest
      if digits.isEmpty then none
      else
        let size : Int := Number.natOfDigits digits
        some (some (if negative then -size else size), rest)
    else some (none, cs)

/-- Reads a number. -/
def readNumber (cs : List Char) : Option (Value × List Char) :=
  let (negative, unsigned) :=
    match cs with
    | '-' :: rest => (true, rest)
    | _ => (false, cs)
  let (whole, rest) := takeDigits unsigned
  if whole.isEmpty ∨ (whole.length ≠ 1 ∧ whole.head? = some '0') then none
  else do
    let (fraction, rest) ← readFraction rest
    let (exponent, rest) ← readExponent rest
    match fraction, exponent with
    | none, none =>
      let size : Int := Number.natOfDigits whole
      some (.int (if negative then -size else size), rest)
    | _, _ =>
      let places := fraction.getD []
      let power := exponent.getD 0 - places.length
      some (.real (.ofDecimal negative (Number.natOfDigits (whole ++ places)) power), rest)

/-- Reads a word for a number that is not finite. -/
def readNonFinite (cs : List Char) : Option (Value × List Char) :=
  match cs with
  | 'N' :: 'a' :: 'N' :: rest => some (.real .nan, rest)
  | 'I' :: 'n' :: 'f' :: 'i' :: 'n' :: 'i' :: 't' :: 'y' :: rest =>
    some (.real (.infinite false), rest)
  | '-' :: 'I' :: 'n' :: 'f' :: 'i' :: 'n' :: 'i' :: 't' :: 'y' :: rest =>
    some (.real (.infinite true), rest)
  | _ => none

/-! ## Documents -/

/-- Whether a character may stand between the parts of a document. -/
def isSpace (c : Char) : Bool := c == ' ' || c == '\n' || c == '\t' || c == '\r'

/-- Drops the spaces in front. -/
def skipSpace (cs : List Char) : List Char := cs.dropWhile isSpace

mutual

/-- Reads a value, spaces in front of it included. -/
def readValue : Nat → List Char → Option (Value × List Char)
  | 0, _ => none
  | fuel + 1, cs =>
    match skipSpace cs with
    | 'n' :: 'u' :: 'l' :: 'l' :: rest => some (.null, rest)
    | 't' :: 'r' :: 'u' :: 'e' :: rest => some (.bool true, rest)
    | 'f' :: 'a' :: 'l' :: 's' :: 'e' :: rest => some (.bool false, rest)
    | '"' :: rest => (readText rest).map fun (text, after) => (.text (String.ofList text), after)
    | '[' :: rest =>
      match skipSpace rest with
      | ']' :: after => some (.list [], after)
      | rest => (readItems fuel rest).map fun (items, after) => (.list items, after)
    | '\x7b' :: rest =>
      match skipSpace rest with
      | '\x7d' :: after => some (.table [], after)
      | rest => (readEntries fuel [] rest).map fun (entries, after) => (.table entries, after)
    | rest => readNonFinite rest <|> readNumber rest

/-- Reads the items of a list up to its closing bracket. -/
def readItems : Nat → List Char → Option (List Value × List Char)
  | 0, _ => none
  | fuel + 1, cs =>
    match readValue fuel cs with
    | none => none
    | some (item, rest) =>
      match skipSpace rest with
      | ',' :: rest => (readItems fuel rest).map fun (items, after) => (item :: items, after)
      | ']' :: after => some ([item], after)
      | _ => none

/-- Reads the entries of an object up to its closing brace.  The last value of a key counts. -/
def readEntries : Nat → List (String × Value) → List Char →
    Option (List (String × Value) × List Char)
  | 0, _, _ => none
  | fuel + 1, entries, cs =>
    match skipSpace cs with
    | '"' :: rest =>
      match readText rest with
      | none => none
      | some (key, rest) =>
        match skipSpace rest with
        | ':' :: rest =>
          match readValue fuel rest with
          | none => none
          | some (value, rest) =>
            let entries := putEntry (String.ofList key) value entries
            match skipSpace rest with
            | ',' :: rest => readEntries fuel entries rest
            | '\x7d' :: after => some (entries, after)
            | _ => none
        | _ => none
    | _ => none

end

/-- Reads a whole document. -/
def parse? (text : String) : Option Value :=
  let cs := text.toList
  match readValue (cs.length + 1) cs with
  | some (value, rest) => if (skipSpace rest).isEmpty then some value else none
  | none => none

end Json
end CodeAtlas
