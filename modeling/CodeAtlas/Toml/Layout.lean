import CodeAtlas.Text.Alphanumeric
import CodeAtlas.Text.Blank
import CodeAtlas.Text.Segments

/-!
# The lines of a TOML document

A document is first cut into lines.  On the way comments are blanked out, a list that goes over
several lines is put on one, and a line feed right behind the quotes that open a long text is
dropped.  What is checked here is only that each key has a value on its line and that quotes are
balanced; what keys and values are is left to later.

Main definitions:

- {lit}`Layout`: what is known after some of the characters;
- {lit}`Layout.step`: what one more character does;
- {lit}`lines?`: the lines of a document.
-/

namespace CodeAtlas
namespace Toml

/-! ## Characters -/

/-- Whether a character opens and closes texts. -/
def isQuote (c : Char) : Bool := c == '"' || c == '\''

/-- Whether the number of backslashes in front is odd. -/
def oddBackslashes (cs : List Char) : Bool :=
  (cs.takeWhile (· == '\\')).length % 2 == 1

/-! ## The state of the cut -/

/-- Where the cut stands with respect to the key of a line. -/
inductive KeyPart where
  | outside
  | name
  /-- Behind a name, before the equals sign or the next point. -/
  | gap
  deriving DecidableEq

/-- What is known after some characters of a document. -/
structure Layout where
  /-- The characters so far as they are kept, the last one first. -/
  done : List Char
  part : KeyPart
  /-- Whether the key has a point. -/
  dotted : Bool
  /-- The quote of the text that is open. -/
  quote : Option Char
  /-- Whether three quotes have opened a text. -/
  long : Bool
  /-- How many lists are open. -/
  depth : Int
  /-- Whether a header is open, and whether it is one of a list of tables. -/
  header : Option Bool
  /-- Whether nothing but blanks has been seen of the line. -/
  fresh : Bool
  comment : Bool

namespace Layout

/-- Nothing has been seen yet. -/
def start : Layout :=
  { done := [], part := .outside, dotted := false, quote := none, long := false, depth := 0,
    header := none, fresh := true, comment := false }

/-- Keeps a character. -/
def push (c : Char) (l : Layout) : Layout := { l with done := c :: l.done }

/-! ## Keys -/

/-- Whether a key goes on with another name after the point or blank before `next`. -/
def resumes (next : Option Char) : Bool :=
  next.any fun c => !Text.isBlankChar c && c != '.'

/-- What a character of a key does.  A key ends at the equals sign, and must do so on its line.
Only the first character of a key is free; behind it stand letters, numbers, hyphens, underscores
and points, and behind a point also names in quotes. -/
def keyStep (next : Option Char) (c : Char) (l : Layout) : Option Layout :=
  if c = '\n' then none
  else if l.quote = some c then
    if oddBackslashes l.done then some l else some { l with part := .gap, quote := none }
  else if l.quote.isSome then some l
  else if c = '=' then some { l with part := .outside, dotted := false }
  else if l.part = .gap then
    if c = '.' then
      some { l with part := if resumes next then .name else .gap, dotted := true }
    else if Text.isBlankChar c then
      some { l with part := if l.dotted && resumes next then .name else .gap }
    else none
  else if Text.isBlankChar c then some { l with part := .gap }
  else if c = '.' then some { l with dotted := true }
  else if Text.isAlphanumeric c || c == '_' || c == '-' then some l
  else if isQuote c && l.dotted && l.done.head? == some '.' then some { l with quote := some c }
  else none

/-! ## Values -/

/-- What a quote outside a key does.  It is part of a text in the other quotes.  The third of
three in a row opens or closes a long text; any other opens or closes a short one.  A double quote
with an odd number of backslashes in front does nothing, unless it is the second of its kind.

Before the first character stands, as on a ring, the last one; `ring` is the document backwards. -/
def flipQuote (ring : List Char) (c : Char) (l : Layout) : Layout :=
  if l.quote.any (· != c) then l
  else
    let behind := l.done ++ ring
    let count := ((behind.take 2).takeWhile (· == c)).length
    if c == '"' && count != 1 && oddBackslashes (behind.drop count) then l
    else if count = 2 then
      { l with long := !l.long, quote := if l.long then none else some c }
    else { l with quote := if l.quote.isSome then none else some c }

/-- What an opening bracket outside a key does: in front of a line it opens a header, elsewhere a
list. -/
def openBracket (next : Option Char) (l : Layout) : Layout :=
  if l.quote.isSome || l.header.isSome then l
  else if l.fresh then { l with header := some (next == some '[') }
  else { l with depth := l.depth + 1 }

/-- What a closing bracket outside a key does.  The header of a list of tables takes two. -/
def closeBracket (l : Layout) : Layout :=
  if l.quote.isSome then l
  else
    match l.header with
    | none => { l with depth := l.depth - 1 }
    | some many => if many && l.done.head? != some ']' then l else { l with header := none }

/-- What a line feed outside a key does.  In a long text it is kept, but where two quotes stand in
front it becomes a third and the first of three makes way for it; in a list it is a blank; in a
short text it must not stand. -/
def lineFeed (l : Layout) : Option Layout :=
  if l.long then
    match l.done with
    | a :: b :: rest =>
      if isQuote a && b == a then
        let rest := if rest.head? == some a then ' ' :: rest.drop 1 else rest
        some { l with done := a :: a :: b :: rest }
      else some (l.push '\n')
    | _ => some (l.push '\n')
  else if l.quote.isSome then none
  else if l.depth ≠ 0 then some (l.push ' ')
  else some { l.push '\n' with fresh := true }

/-- What the first character of a line does that is no blank: unless a header is open, it begins a
key, which an equals sign cannot. -/
def begin (c : Char) (l : Layout) : Option Layout :=
  if !l.fresh || c == ' ' || c == '\t' then some l
  else if l.header.isSome then some { l with fresh := false }
  else if c = '=' then none
  else some { l with fresh := false, part := .name }

/-- What a character outside a key does to quotes and brackets. -/
def mark (ring : List Char) (next : Option Char) (c : Char) (l : Layout) : Layout :=
  if isQuote c then l.flipQuote ring c
  else if c = '[' then l.openBracket next
  else if c = ']' then l.closeBracket
  else l

/-- What a character outside keys and comments does. -/
def valueStep (ring : List Char) (next : Option Char) (c : Char) (l : Layout) : Option Layout :=
  if c = '\n' then l.lineFeed
  else if c == '#' && l.quote.isNone && l.header.isNone then
    some { l.push ' ' with comment := true }
  else ((l.mark ring next c).begin c).map (push c)

/-! ## Whole documents -/

/-- What one more character does, given the one behind it. -/
def step (ring : List Char) (next : Option Char) (c : Char) (l : Layout) : Option Layout :=
  if l.comment && c != '\n' then some (l.push ' ')
  else if l.part = .outside then valueStep ring next c { l with comment := false }
  else (l.keyStep next c).map (push c)

/-- What all characters do. -/
def run (ring : List Char) : Layout → List Char → Option Layout
  | l, [] => some l
  | l, c :: rest => (l.step ring rest.head? c).bind fun l => run ring l rest

/-- Whether a document may end here. -/
def isComplete (l : Layout) : Bool := l.part == .outside && l.quote.isNone

end Layout

/-- The lines of a document. -/
def lines? (text : List Char) : Option (List (List Char)) := do
  let l ← Layout.run text.reverse .start text
  if l.isComplete then some (Text.segments '\n' l.done.reverse) else none

end Toml
end CodeAtlas
