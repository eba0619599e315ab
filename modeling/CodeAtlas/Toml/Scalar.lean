import CodeAtlas.Number.Numeral
import CodeAtlas.Toml.Span
import CodeAtlas.Value.Basic

/-!
# Values without quotes

Truth values, moments and numbers as a settings file spells them.  Moments are read by the places
of their parts: what separates them is not looked at.
-/

namespace CodeAtlas
namespace Toml

/-! ## Times of day -/

/-- The number that two digits spell. -/
def twoDigits? (a b : Char) : Option Nat :=
  if a.isDigit && b.isDigit then some (Number.natOfDigits [a, b]) else none

/-- Reads hours, minutes and seconds with colons between them, and what follows. -/
def readClock? (cs : List Char) : Option (Clock × List Char) :=
  match cs with
  | a :: b :: ':' :: c :: d :: ':' :: e :: f :: rest => do
    return (⟨← twoDigits? a b, ← twoDigits? c d, ← twoDigits? e f, 0⟩, rest)
  | _ => none

/-- The fraction of a second behind a time of day: three to six digits, which count millionths. -/
def clockFraction (cs : List Char) : Nat :=
  match cs with
  | '.' :: rest =>
    let digits := (rest.take 6).takeWhile Char.isDigit
    if 3 ≤ digits.length then Number.natOfDigits digits else 0
  | _ => 0

/-- Whether there is such a time of day. -/
def isClock (time : Clock) : Bool := time.hour < 24 && time.minute < 60 && time.second < 60

/-! ## Days and instants -/

/-- The number of days of a month. -/
def daysIn (year month : Nat) : Nat :=
  if month = 2 then
    if year % 4 = 0 ∧ (year % 100 ≠ 0 ∨ year % 400 = 0) then 29 else 28
  else if month = 4 ∨ month = 6 ∨ month = 9 ∨ month = 11 then 30
  else 31

/-- Whether there is such a day in the years from 1 to 9999. -/
def isDate (day : Date) : Bool :=
  1 ≤ day.year && day.year ≤ 9999 && 1 ≤ day.month && day.month ≤ 12 && 1 ≤ day.day
    && day.day ≤ daysIn day.year day.month

/-- The natural number that some characters of a text spell. -/
def numberAt? (first count : Nat) (cs : List Char) : Option Nat := do
  let n ← Number.wholeNumber? ((cs.drop first).take count)
  if 0 ≤ n then some n.toNat else none

/-- Reads the day in front. -/
def readDate? (cs : List Char) : Option Date := do
  let day := ⟨← numberAt? 0 4 cs, ← numberAt? 5 2 cs, ← numberAt? 8 2 cs⟩
  if isDate day then some day else none

/-- Reads the time of day behind a day. -/
def readTime? (micros : Nat) (cs : List Char) : Option Clock := do
  let time := ⟨← numberAt? 11 2 cs, ← numberAt? 14 2 cs, ← numberAt? 17 2 cs, micros⟩
  if isClock time && micros < 1000000 then some time else none

/-- The offset from the prime meridian, in minutes, that a text spells.  Any sign but a minus is a
plus. -/
def offset? (cs : List Char) : Option Int :=
  if cs = ['Z'] then some 0
  else do
    let hours ← Number.wholeNumber? ((cs.drop 1).take 2)
    let minutes ← Number.wholeNumber? ((cs.drop 4).take 2)
    let size := hours * 60 + minutes
    return if cs.head? = some '-' then -size else size

/-- The millionths of a second that the places behind a point spell.  From the seventh place on
they are found by binary multiplication. -/
def micros? (cs : List Char) : Option Int := do
  let n ← Number.wholeNumber? cs
  if cs.length ≤ 6 then some (n * Nat.pow 10 (6 - cs.length))
  else
    let scale := Number.Binary64.ofDecimal false 1 (6 - cs.length)
    ((Number.Binary64.ofQuotient n 1).product? scale).bind Number.Binary64.wholePart?

/-- Cuts what follows the point of an instant into the places of the fraction and the offset. -/
def splitFraction (cs : List Char) : List Char × Option (List Char) :=
  if cs.getLast?.any fun c => c == 'Z' || c == 'z' then (cs.dropLast, some ['Z'])
  else
    let sign := if cs.contains '+' then '+' else '-'
    let zone := cs.dropWhile (· != sign)
    (cs.takeWhile (· != sign), if zone.isEmpty then none else some zone)

/-- The fraction of a second and the offset of an instant, from what follows its seconds.  If one
of them cannot be read, neither counts. -/
def readTail (cs : List Char) : Int × Option Int :=
  let found : Option (Int × Option Int) :=
    match cs with
    | [] => some (0, none)
    | '.' :: rest => do
      let (places, zone) := splitFraction rest
      let offset ← zone.mapM offset?
      return (← micros? places, offset)
    | zone => (offset? zone).map fun offset => (0, some offset)
  found.getD (0, none)

/-- The day or instant that a text spells.  It must have a hyphen behind its first character. -/
def moment? (cs : List Char) : Option Moment :=
  if !(cs.drop 1).contains '-' then none
  else if cs.length = 10 then (readDate? cs).map .date
  else do
    let (micros, offset) := readTail (cs.drop 19)
    if micros < 0 then none
    else return .instant (← readDate? cs) (← readTime? micros.toNat cs) offset

/-! ## Numbers -/

/-- Whether two characters stand one behind the other. -/
def hasPair (a b : Char) (cs : List Char) : Bool := Text.hasPart [a, b] cs

/-- Whether the underscores and leading zeros of a number are well placed. -/
def isTidy (text : List Char) : Bool :=
  let cs := trim text
  let unsigned := if cs.head? = some '+' ∨ cs.head? = some '-' then cs.drop 1 else cs
  let zeroFits : Bool :=
    match cs, unsigned with
    | '0' :: c :: _, _ => c == '.' || c == 'o' || c == 'b' || c == 'x'
    | _, '0' :: c :: _ => c == '.'
    | _, _ => true
  !cs.isEmpty && cs.head? != some '_' && cs.getLast? != some '_' && !hasPair '_' '.' cs
    && !hasPair '.' '_' cs && zeroFits && !hasPair '_' '_' unsigned

/-- A number taken away from zero. -/
def negated : Value → Value
  | .int n => .int (-n)
  | .real x => .real x.negate
  | value => value

/-- The number that a text without sign and underscores spells.  A point or an exponent makes it
binary; such a number begins with a digit and does not end at its first point. -/
def magnitude? (cs : List Char) : Option Value :=
  let word := cs.map Char.toLower
  if cs.contains '.' || (!cs.contains 'x' && word.contains 'e') then
    if cs.head?.any Char.isDigit && cs.dropWhile (· != '.') != ['.'] then
      (Number.realNumber? cs).map .real
    else none
  else if word = ['i', 'n', 'f'] then some (.real (.infinite false))
  else if word = ['n', 'a', 'n'] then some (.real .nan)
  else (Number.markedNumber? cs).map .int

/-- The number that a text spells. -/
def number? (cs : List Char) : Option Value :=
  let (negative, body) := Number.splitSign cs
  (magnitude? (body.filter (· != '_'))).map fun n => if negative then negated n else n

/-! ## Bare values -/

/-- The value of a text without quotes.  A time of day counts wherever one stands in front, and a
number only if it is tidy. -/
def bare? (tidy : Bool) (cs : List Char) : Option Value :=
  if cs = ['t', 'r', 'u', 'e'] then some (.bool true)
  else if cs = ['f', 'a', 'l', 's', 'e'] then some (.bool false)
  else
    match readClock? cs with
    | some (time, rest) =>
      if isClock time then some (.moment (.clock { time with micros := clockFraction rest }))
      else none
    | none =>
      match moment? cs with
      | some moment => some (.moment moment)
      | none => if tidy then number? cs else none

end Toml
end CodeAtlas
