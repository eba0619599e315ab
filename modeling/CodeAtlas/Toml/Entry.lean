import CodeAtlas.Toml.Item
import CodeAtlas.Toml.Scalar

/-!
# Keys and values

An entry is a key and a value with an equals sign between them.  Which equals sign that is depends
on the value: where what follows cannot be one, the next sign is tried.
-/

namespace CodeAtlas
namespace Toml

/-! ## The equals sign -/

/-- A way to cut an entry in two. -/
structure Cut where
  key : List Char
  value : List Char

/-- Cuts an entry at its `n`-th equals sign. -/
def cutAt (pieces : List (List Char)) (n : Nat) : Cut :=
  { key := ['='].intercalate (pieces.take n), value := ['='].intercalate (pieces.drop n) }

/-- The cuts of an entry, from the first equals sign outside quotes on. -/
def cuts (line : List Char) : List Cut :=
  let pieces := Text.segments '=' line
  let last := pieces.length - 1
  let first := min last (1 + separatorsBefore (Text.segments '=') false (spans line))
  (List.range (last + 1 - first)).map fun n => cutAt pieces (first + n)

/-- Whether a text behind an equals sign may be a value as far as its beginning tells.  What
follows a blank, a quote or a bracket is not looked at; the rest is a truth value, a number or a
moment. -/
def mayBeValue (cs : List Char) : Bool :=
  match cs with
  | [] => true
  | c :: _ =>
    c == ' ' || c == '\t' || isQuote c || c == '[' || c == '\x7b'
      || trim cs == ['t', 'r', 'u', 'e'] || trim cs == ['f', 'a', 'l', 's', 'e']
      || (Number.realNumber? cs).isSome || (moment? cs).isSome || (readClock? cs).isSome

/-- The first cut whose value may be one, and whether all values up to it are tidy. -/
def firstCut? (tidy : Bool) : List Cut → Option (Cut × Bool)
  | [] => none
  | cut :: others =>
    let tidy := tidy && isTidy cut.value
    if mayBeValue cut.value then some (cut, tidy) else firstCut? tidy others

/-- The key and the value of an entry without blanks around them, and whether the value would be
tidy as a number.  Underscores in the first value tried are dropped if it begins with a digit; if
there is no other cut it is tried with them too. -/
def assignment? (line : List Char) : Option (Cut × Bool) := do
  let (cut, tidy) ←
    match cuts line with
    | [] => none
    | first :: others =>
      let plain :=
        if first.value.head?.any Char.isDigit then first.value.filter (· != '_') else first.value
      let tidy := isTidy first.value
      if mayBeValue plain then some ({ first with value := plain }, tidy)
      else if others.isEmpty && plain != first.value then firstCut? tidy [first]
      else firstCut? tidy others
  return ({ key := trim cut.key, value := trim cut.value }, tidy)

/-! ## Keys -/

/-- The names of a dotted key that holds quotes: those in quotes as they are, the others without
blanks at their ends. -/
def quotedNames (quoted : Bool) : List (List Char) → List (List Char)
  | [] => []
  | span :: spans =>
    (if quoted then [span] else (Text.segments '.' span).map trim)
      ++ quotedNames (!quoted) spans

/-- The tables that a key leads through, and its last name. -/
structure KeyPath where
  tables : List String
  name : String

/-- The path of a key.  Empty names do not count.  Escapes are replaced in a key that is one name
in quotes. -/
def keyPath? (key : List Char) : Option KeyPath :=
  if key.contains '.' then
    let names :=
      if key.any isQuote then quotedNames false (spans key) else Text.segments '.' key
    match names.reverse.dropWhile List.isEmpty with
    | [] => none
    | last :: tables =>
      some
        { tables := (tables.reverse.filter (!·.isEmpty)).map String.ofList
          name := String.ofList (trim last) }
  else
    match key with
    | [] => none
    | first :: _ =>
      let quoted := isQuote first && key.getLast? == some first
      (if quoted then unescape? (inner key) else some key).map fun name =>
        { tables := [], name := String.ofList name }

/-! ## Long texts -/

/-- The last item of a list of texts that begins with a quote, given the pieces in front of it,
the last first. -/
def lastText (piece : List Char) : List (List Char) → List Char
  | [] => piece
  | previous :: pieces =>
    if piece.head?.any isQuote then piece else lastText (previous ++ ',' :: piece) pieces

/-- Whether a text opens with three quotes and does not close with three others. -/
def opensLongText (cs : List Char) : Bool :=
  match cs with
  | a :: b :: c :: _ =>
    isQuote a && b == a && c == a && !(5 < cs.length && (cs.reverse.take 3).all (· == a))
  | _ => false

/-- Whether a value is a text in three quotes, or a list that ends in one, that goes on in the
next line. -/
def goesOn (value : List Char) : Bool :=
  if value.head? == some '[' && value.getLast? != some ']' && isTextList value then
    match (Text.segments ',' (trim (value.drop 1))).reverse with
    | [] => false
    | piece :: pieces => opensLongText (lastText piece pieces)
  else opensLongText value

/-- A value that goes on in the next line. -/
structure Pending where
  name : String
  text : List Char
  /-- Whether a backslash at the end of the line joins the next one. -/
  joined : Bool

/-- The value so far with the end of a line: a backslash there joins the next line. -/
def Pending.ofText (name : String) (text : List Char) : Pending :=
  if oddBackslashes text.reverse then { name, text := text.dropLast, joined := true }
  else { name, text := text ++ ['\n'], joined := false }

/-! ## Values -/

/-- The kinds of values that a list must not mix. -/
inductive Shape where
  | bool
  | text
  | int
  | real
  | list
  | table
  | date
  | time
  deriving DecidableEq

/-- The kind of a value. -/
def shapeOf : Value → Shape
  | .null => .table
  | .bool _ => .bool
  | .int _ => .int
  | .real _ => .real
  | .text _ => .text
  | .list _ => .list
  | .table _ => .table
  | .moment (.clock _) => .time
  | .moment _ => .date

/-- Whether values are all of one kind. -/
def isHomogeneous : List Value → Bool
  | [] => true
  | value :: values => values.all fun other => shapeOf other = shapeOf value

/-- Puts a value under a key that is not yet taken, below a table; without a value only the tables
on the way are made. -/
def assign (tables : List String) (name : String) (value : Option Value) : Value → Option Value
  | .table entries =>
    match tables with
    | [] =>
      match entries.lookup name, value with
      | some _, _ => none
      | none, some value => some (.table (putEntry name value entries))
      | none, none => some (.table entries)
    | first :: tables =>
      (assign tables name value ((entries.lookup first).getD (.table []))).map fun inner =>
        .table (putEntry first inner entries)
  | _ => none

mutual

/-- The value that a text spells. -/
def value? : Nat → Bool → List Char → Option Value
  | 0, _, _ => none
  | fuel + 1, tidy, cs =>
    match cs with
    | [] => none
    | first :: _ =>
      if isQuote first then (text? cs).map fun text => .text (String.ofList text)
      else if first = '[' then do
        let items ← (← itemTexts? cs).mapM (value? fuel true)
        if isHomogeneous items then some (.list items) else none
      else if first = '\x7b' then inline? fuel cs (.table [])
      else bare? tidy cs

/-- Puts the entries of an inline table below a value.  A value that would go on in the next line
ends the table. -/
def inline? : Nat → List Char → Value → Option Value
  | 0, _, _ => none
  | fuel + 1, cs, level => do
    let (level, _) ← (← entryTexts? cs).foldlM
      (fun (state : Value × Bool) line =>
        if state.2 then some state
        else (store? fuel line state.1).map fun (level, pending) => (level, pending.isSome))
      (level, false)
    return level

/-- Puts an entry below a value, or finds that it goes on in the next line. -/
def store? : Nat → List Char → Value → Option (Value × Option Pending)
  | 0, _, _ => none
  | fuel + 1, line, level => do
    let (cut, tidy) ← assignment? line
    let path ← keyPath? cut.key
    if goesOn cut.value then
      if path.name.isEmpty then none
      else
        let level ← assign path.tables path.name none level
        return (level, some (.ofText path.name cut.value))
    else
      let value ← value? fuel tidy cut.value
      let level ← assign path.tables path.name (some value) level
      return (level, none)

end

/-- Enough fuel for a text: each level of nesting takes a character and at most three steps. -/
def fuelFor (cs : List Char) : Nat := 3 * cs.length + 3

end Toml
end CodeAtlas
