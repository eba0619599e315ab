/-!
# Dates and times

Settings files may hold dates and times.  No setting takes one, but their texts appear in
messages and in settings that accept any value as text.
-/

namespace CodeAtlas

/-- A day of the calendar. -/
structure Date where
  year : Nat
  month : Nat
  day : Nat
  deriving DecidableEq

/-- A time of day. -/
structure Clock where
  hour : Nat
  minute : Nat
  second : Nat
  micros : Nat
  deriving DecidableEq

/-- A day, a time of day, or both, the latter with or without an offset in minutes. -/
inductive Moment where
  | date (day : Date)
  | clock (time : Clock)
  | instant (day : Date) (time : Clock) (offset : Option Int)
  deriving DecidableEq

namespace Moment

/-- A number with at least `width` digits. -/
def padded (width n : Nat) : String :=
  let digits := Nat.toDigits 10 n
  String.ofList (List.replicate (width - digits.length) '0' ++ digits)

/-- A day as year, month and day. -/
def dateText (d : Date) : String :=
  s!"{padded 4 d.year}-{padded 2 d.month}-{padded 2 d.day}"

/-- A time as hours, minutes and seconds, with six places when there is a fraction. -/
def clockText (t : Clock) : String :=
  let fraction := if t.micros = 0 then "" else "." ++ padded 6 t.micros
  s!"{padded 2 t.hour}:{padded 2 t.minute}:{padded 2 t.second}{fraction}"

/-- An offset as signed hours and minutes. -/
def offsetText (minutes : Int) : String :=
  let sign := if minutes < 0 then "-" else "+"
  s!"{sign}{padded 2 (minutes.natAbs / 60)}:{padded 2 (minutes.natAbs % 60)}"

/-- The text of a moment. -/
def display : Moment → String
  | .date day => dateText day
  | .clock time => clockText time
  | .instant day time offset =>
    dateText day ++ " " ++ clockText time ++ (offset.map offsetText).getD ""

/-- The fields of a time, without a fraction of zero and then without seconds of zero. -/
def clockFields (t : Clock) : List Nat :=
  if t.micros ≠ 0 then [t.hour, t.minute, t.second, t.micros]
  else if t.second ≠ 0 then [t.hour, t.minute, t.second]
  else [t.hour, t.minute]

/-- Numbers with commas between them. -/
def commas (fields : List Nat) : String :=
  ", ".intercalate (fields.map toString)

/-- The text of a moment where values are shown as literals. -/
def literal : Moment → String
  | .date day => s!"datetime.date({commas [day.year, day.month, day.day]})"
  | .clock time => s!"datetime.time({commas (clockFields time)})"
  | .instant day time offset =>
    let zone := (offset.map fun minutes => ", tzinfo=" ++ offsetText minutes).getD ""
    s!"datetime.datetime({commas ([day.year, day.month, day.day] ++ clockFields time)}{zone})"

end Moment
end CodeAtlas
