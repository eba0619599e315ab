import CodeAtlas.Number.Binary64

/-!
# Decimal text of binary numbers

A binary number is written with the fewest decimal digits that read back as the same number, and
of those texts the one nearest to it.  Where positional notation ends is a decision of the
format, kept in one record.
-/

namespace CodeAtlas
namespace Number

/-- A positive decimal number: whole digits times a power of ten. -/
structure Decimal where
  digits : Nat
  power : Int
  deriving DecidableEq

namespace Decimal

/-- Moves the zeros at the end of the digits into the power, looking at no more than `fuel` of
them. -/
def trim : Nat → Decimal → Decimal
  | 0, d => d
  | fuel + 1, d =>
    if d.digits ≠ 0 ∧ d.digits % 10 = 0 then trim fuel ⟨d.digits / 10, d.power + 1⟩ else d

/-! ## The fewest digits that read back -/

/-- The largest `p` with `10 ^ p ≤ mantissa * 2 ^ exponent`.  Three hundred and fifty places
reach below the least positive number. -/
def floorLog10 (mantissa : Nat) (exponent : Int) : Int :=
  let scaled :=
    mantissa * Nat.pow 2 exponent.toNat * Nat.pow 10 350 / Nat.pow 2 (-exponent).toNat
  ((Nat.toDigits 10 scaled).length : Int) - 1 - 350

/-- The decimal on the grid `10 ^ power` that reads back as `mantissa * 2 ^ exponent`, if there is
one: of the two neighbours on the grid the nearer, and in a tie the even one.

Lengths are measured in quarters of the last bit, so that the ends of the interval that reads
back are whole.  The ends belong to it when the mantissa is even. -/
def onGrid? (mantissa : Nat) (exponent power : Int) : Option Decimal :=
  let quarter := exponent - 2
  let gridUnit := Nat.pow 10 power.toNat * Nat.pow 2 (-quarter).toNat
  let valueUnit := Nat.pow 2 quarter.toNat * Nat.pow 10 (-power).toNat
  let value := 4 * mantissa * valueUnit
  let below := if mantissa = Nat.pow 2 52 ∧ Binary64.leastExponent < exponent then 1 else 2
  let low := (4 * mantissa - below) * valueUnit
  let high := (4 * mantissa + 2) * valueUnit
  let readsBack (digits : Nat) : Bool :=
    let point := digits * gridUnit
    if mantissa % 2 = 0 then low ≤ point && point ≤ high else low < point && point < high
  let floor := value / gridUnit
  let ceiling := if value % gridUnit = 0 then floor else floor + 1
  if readsBack floor && readsBack ceiling then
    some ⟨roundDiv value gridUnit, power⟩
  else if readsBack floor then some ⟨floor, power⟩
  else if readsBack ceiling then some ⟨ceiling, power⟩
  else none

/-- The decimal with the fewest digits that reads back as the positive number
`mantissa * 2 ^ exponent`.  Seventeen digits always suffice. -/
def shortest (mantissa : Nat) (exponent : Int) : Decimal :=
  let leading := floorLog10 mantissa exponent
  let found := (List.range 17).findSome? fun (count : Nat) =>
    onGrid? mantissa exponent (leading - count)
  (found.getD ⟨0, 0⟩).trim 20

/-! ## Style -/

/-- How a number is spelt once its digits are known. -/
structure Style where
  /-- The least exponent of ten, in scientific form, that is written positionally. -/
  leastPositional : Int
  /-- The first exponent of ten, in scientific form, that is no longer written positionally. -/
  firstScientific : Int
  /-- The least number of digits of a written exponent. -/
  exponentWidth : Nat
  infinity : String
  notANumber : String

/-- Numbers from one ten-thousandth up to ten to the sixteenth are written positionally and keep
one place at least; the rest have a signed exponent of two digits or more. -/
def plain : Style :=
  { leastPositional := -4, firstScientific := 16, exponentWidth := 2,
    infinity := "inf", notANumber := "nan" }

/-- The spelling of numbers in JSON documents. -/
def json : Style :=
  { plain with infinity := "Infinity", notANumber := "NaN" }

/-- A list of `n` zero digits. -/
def zeros (n : Nat) : List Char := List.replicate n '0'

/-- Digits with a point after the first `whole` of them, filled up with zeros. -/
def placePoint (digits : List Char) (whole : Int) : List Char :=
  if whole ≤ 0 then '0' :: '.' :: (zeros (-whole).toNat ++ digits)
  else if (digits.length : Int) ≤ whole then
    digits ++ zeros (whole.toNat - digits.length) ++ ['.', '0']
  else digits.take whole.toNat ++ '.' :: digits.drop whole.toNat

/-- The text of an exponent: a mark, a sign and at least `width` digits. -/
def exponentText (width : Nat) (exponent : Int) : List Char :=
  let digits := Nat.toDigits 10 exponent.natAbs
  'e' :: (if exponent < 0 then '-' else '+') :: (zeros (width - digits.length) ++ digits)

/-- The text of a positive decimal. -/
def render (style : Style) (d : Decimal) : List Char :=
  let digits := Nat.toDigits 10 d.digits
  let exponent := d.power + digits.length - 1
  if style.leastPositional ≤ exponent ∧ exponent < style.firstScientific then
    placePoint digits (exponent + 1)
  else
    let fraction := digits.drop 1
    digits.take 1 ++ (if fraction.isEmpty then [] else '.' :: fraction)
      ++ exponentText style.exponentWidth exponent

end Decimal

namespace Binary64

/-- The text of a number in a given notation. -/
def render (style : Decimal.Style) : Binary64 → String
  | .nan => style.notANumber
  | .infinite negative => (if negative then "-" else "") ++ style.infinity
  | .finite negative mantissa exponent =>
    let magnitude :=
      if mantissa = 0 then ['0', '.', '0']
      else (Decimal.shortest mantissa exponent).render style
    (if negative then "-" else "") ++ String.ofList magnitude

/-- The text of a number with exactly two decimal places. -/
def renderHundredths : Binary64 → String
  | .nan => "nan"
  | .infinite negative => if negative then "-inf" else "inf"
  | .finite negative mantissa exponent =>
    let digits := Nat.toDigits 10 (hundredths mantissa exponent)
    let padded := Decimal.zeros (3 - digits.length) ++ digits
    (if negative then "-" else "")
      ++ String.ofList (padded.take (padded.length - 2) ++ '.' :: padded.drop (padded.length - 2))

end Binary64
end Number
end CodeAtlas
