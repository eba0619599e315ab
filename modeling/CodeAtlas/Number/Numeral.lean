import CodeAtlas.Number.Binary64
import CodeAtlas.Text.Blank
import CodeAtlas.Text.Digit
import CodeAtlas.Text.Segments

/-!
# Numerals

The numbers that texts spell.  A numeral may stand between blanks and have a sign; its digits may
be of any script, and single underscores may stand between them.

Main definitions:

- {lit}`wholeNumber?`: a whole number in base ten;
- {lit}`markedNumber?`: a whole number whose base is told by a mark in front;
- {lit}`realNumber?`: a binary number.
-/

namespace CodeAtlas
namespace Number

/-! ## The parts of a numeral -/

/-- Whether a character may stand around a numeral.  The information separators may not. -/
def isPadding (c : Char) : Bool :=
  Text.isBlankChar c && !(0x1C ≤ c.toNat && c.toNat ≤ 0x1F)

/-- A decimal digit of any script as the one of ASCII, and any other character as it is. -/
def plainDigit (c : Char) : Char :=
  match Text.digitValue? c with
  | some n => Nat.digitChar n
  | none => c

/-- A numeral without the blanks around it, in the digits of ASCII. -/
def plainNumeral (cs : List Char) : List Char :=
  (Text.trimBoth isPadding cs).map plainDigit

/-- Whether a numeral has a minus sign, and what follows its sign. -/
def splitSign : List Char → Bool × List Char
  | '-' :: rest => (true, rest)
  | '+' :: rest => (false, rest)
  | cs => (false, cs)

/-- A size with a sign. -/
def signed (negative : Bool) (size : Nat) : Int := if negative then -size else size

/-! ## Whole numbers -/

/-- The largest number of digits that is read in base ten. -/
def digitLimit : Nat := 4300

/-- The value of a digit in a base of at most sixteen. -/
def digitIn? (base : Nat) (c : Char) : Option Nat :=
  (Text.hexValue? c).filter (· < base)

/-- The number that groups of digits, with an underscore between any two, spell in a base. -/
def magnitude? (base : Nat) (cs : List Char) : Option Nat :=
  let groups := Text.segments '_' cs
  if groups.any List.isEmpty || (base == 10 && digitLimit < groups.flatten.length) then none
  else groups.flatten.foldlM (fun n c => (digitIn? base c).map (n * base + ·)) 0

/-- The whole number that a text spells in base ten. -/
def wholeNumber? (cs : List Char) : Option Int :=
  let (negative, digits) := splitSign (plainNumeral cs)
  (magnitude? 10 digits).map (signed negative)

/-- The base that a letter behind a zero stands for. -/
def baseOf? (mark : Char) : Option Nat :=
  match mark.toLower with
  | 'x' => some 16
  | 'o' => some 8
  | 'b' => some 2
  | _ => none

/-- The number of a numeral without its sign.  A zero and a letter in front tell the base, and an
underscore may stand behind them; a numeral in base ten begins with zero only if it is zero. -/
def markedMagnitude? (cs : List Char) : Option Nat :=
  match cs with
  | '0' :: mark :: rest =>
    match baseOf? mark, rest with
    | some base, '_' :: digits => magnitude? base digits
    | some base, digits => magnitude? base digits
    | none, _ => (magnitude? 10 cs).filter (· == 0)
  | _ => magnitude? 10 cs

/-- The whole number that a text spells in the base that it tells. -/
def markedNumber? (cs : List Char) : Option Int :=
  let (negative, digits) := splitSign (plainNumeral cs)
  (markedMagnitude? digits).map (signed negative)

/-! ## Binary numbers -/

/-- A numeral without its underscores, each of which must stand between two digits.  `before` is
the character in front. -/
def ungrouped? (before : Char) : List Char → Option (List Char)
  | [] => some []
  | c :: rest =>
    if c = '_' then
      if before.isDigit && rest.head?.any Char.isDigit then ungrouped? c rest else none
    else (ungrouped? c rest).map (c :: ·)

/-- The number that decimal digits spell. -/
def natOfDigits (digits : List Char) : Nat :=
  digits.foldl (fun n c => n * 10 + (c.toNat - '0'.toNat)) 0

/-- The exponent that the end of a numeral spells: zero if there is none. -/
def exponent? (cs : List Char) : Option Int :=
  match cs with
  | [] => some 0
  | mark :: rest =>
    let (negative, digits) := splitSign rest
    if mark.toLower = 'e' ∧ digits ≠ [] ∧ digits.all Char.isDigit then
      some (signed negative (natOfDigits digits))
    else none

/-- The binary number of a numeral without sign and underscores: digits with a point before,
among or behind them, and perhaps an exponent. -/
def decimal? (negative : Bool) (cs : List Char) : Option Binary64 :=
  let whole := cs.takeWhile Char.isDigit
  let rest := cs.dropWhile Char.isDigit
  let (places, rest) :=
    match rest with
    | '.' :: rest => (rest.takeWhile Char.isDigit, rest.dropWhile Char.isDigit)
    | _ => ([], rest)
  if whole.isEmpty && places.isEmpty then none
  else (exponent? rest).map fun exponent =>
    .ofDecimal negative (natOfDigits (whole ++ places)) (exponent - places.length)

/-- The binary number that a text spells, by digits or by a word. -/
def realNumber? (cs : List Char) : Option Binary64 :=
  let (negative, body) := splitSign (plainNumeral cs)
  let word := String.ofList (body.map Char.toLower)
  if word = "inf" ∨ word = "infinity" then some (.infinite negative)
  else if word = "nan" then some .nan
  else (ungrouped? '+' body).bind (decimal? negative)

end Number
end CodeAtlas
