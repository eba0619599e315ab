/-!
# Binary floating-point numbers

Averages and fractional settings are binary numbers of 53 significant bits.  They are kept as a
whole mantissa and a power of two, so that rounding is exact arithmetic on natural numbers.
-/

namespace CodeAtlas
namespace Number

/-! ## Rounding a quotient -/

/-- The whole number nearest to `num / den`; a half goes to the even neighbour. -/
def roundDiv (num den : Nat) : Nat :=
  let quotient := num / den
  let rest := num % den
  if 2 * rest < den then quotient
  else if den < 2 * rest then quotient + 1
  else quotient + quotient % 2

/-! ## The type -/

/-- A binary floating-point number.  A finite one is its mantissa times a power of two. -/
inductive Binary64 where
  | finite (negative : Bool) (mantissa : Nat) (exponent : Int)
  | infinite (negative : Bool)
  | nan
  deriving DecidableEq

namespace Binary64

/-- The power of two below which no bit of a number stands. -/
def leastExponent : Int := -1074

/-- The exponent of the largest finite numbers, whose mantissa has 53 bits. -/
def greatestExponent : Int := 971

/-- The number zero. -/
def zero : Binary64 := .finite false 0 0

/-- Whether a number is zero, of either sign. -/
def isZero : Binary64 → Bool
  | .finite _ mantissa _ => mantissa == 0
  | _ => false

/-- The number with the other sign taken away from zero: zero itself keeps its positive sign. -/
def negate : Binary64 → Binary64
  | .finite negative mantissa exponent => .finite (mantissa != 0 && !negative) mantissa exponent
  | .infinite negative => .infinite !negative
  | .nan => .nan

/-- The largest `k` with `2 ^ k ≤ num / den`, for positive `num` and `den`. -/
def floorLog2 (num den : Nat) : Int :=
  let guess : Int := (num.log2 : Int) - den.log2
  if den * Nat.pow 2 guess.toNat ≤ num * Nat.pow 2 (-guess).toNat then guess else guess - 1

/-- The number nearest to the fraction `num / den`, a half going to the even mantissa. -/
def ofRatio (negative : Bool) (num den : Nat) : Binary64 :=
  if num = 0 then .finite negative 0 0
  else
    let exponent := max leastExponent (floorLog2 num den - 52)
    let mantissa :=
      roundDiv (num * Nat.pow 2 (-exponent).toNat) (den * Nat.pow 2 exponent.toNat)
    let (mantissa, exponent) :=
      if mantissa = Nat.pow 2 53 then (Nat.pow 2 52, exponent + 1) else (mantissa, exponent)
    if greatestExponent < exponent then .infinite negative
    else .finite negative mantissa exponent

/-- The number nearest to `digits` times a power of ten.  Nothing below `10 ^ (-330)` is nearer to
a positive number than to zero, and nothing from `10 ^ 310` on is near a finite one. -/
def ofDecimal (negative : Bool) (digits : Nat) (power : Int) : Binary64 :=
  let size := (Nat.toDigits 10 digits).length + power
  if digits = 0 ∨ size < -330 then .finite negative 0 0
  else if 310 < size then .infinite negative
  else ofRatio negative (digits * Nat.pow 10 power.toNat) (Nat.pow 10 (-power).toNat)

/-- The number nearest to the quotient of a whole number and a positive one. -/
def ofQuotient (num : Int) (den : Nat) : Binary64 :=
  ofRatio (num < 0) num.natAbs den

/-- The number nearest to the product of two finite ones; there is no product of others. -/
def product? : Binary64 → Binary64 → Option Binary64
  | .finite negative mantissa exponent, .finite negative' mantissa' exponent' =>
    let power := exponent + exponent'
    some (ofRatio (negative != negative') (mantissa * mantissa' * Nat.pow 2 power.toNat)
      (Nat.pow 2 (-power).toNat))
  | _, _ => none

/-- The whole part of a finite number. -/
def wholePart? : Binary64 → Option Int
  | .finite negative mantissa exponent =>
    let size : Int := (mantissa * Nat.pow 2 exponent.toNat / Nat.pow 2 (-exponent).toNat : Nat)
    some (if negative then -size else size)
  | _ => none

/-- The whole number of hundredths nearest to the magnitude `mantissa * 2 ^ exponent`. -/
def hundredths (mantissa : Nat) (exponent : Int) : Nat :=
  roundDiv (mantissa * Nat.pow 2 exponent.toNat * 100) (Nat.pow 2 (-exponent).toNat)

/-- A number rounded to two decimal places. -/
def roundToHundredths : Binary64 → Binary64
  | .finite negative mantissa exponent => ofRatio negative (hundredths mantissa exponent) 100
  | other => other

end Binary64
end Number
end CodeAtlas
