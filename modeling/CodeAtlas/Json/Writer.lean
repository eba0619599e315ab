import CodeAtlas.Number.Decimal
import CodeAtlas.Text.Segments
import CodeAtlas.Value.Basic

/-!
# Writing JSON

Documents are written in ASCII: characters outside it are escaped by their UTF-16 units.  A
layout says what stands between the parts of a list or an object.
-/

namespace CodeAtlas
namespace Json

/-! ## Texts -/

/-- A number below `2 ^ 16` as four digits in base sixteen after a mark. -/
def unitEscape (n : Nat) : List Char :=
  let digits := Nat.toDigits 16 n
  '\\' :: 'u' :: (List.replicate (4 - digits.length) '0' ++ digits)

/-- A character inside a JSON text. -/
def escapeChar (c : Char) : List Char :=
  if c = '"' then ['\\', '"']
  else if c = '\\' then ['\\', '\\']
  else if c = '\n' then ['\\', 'n']
  else if c = '\r' then ['\\', 'r']
  else if c = '\t' then ['\\', 't']
  else if c.toNat = 0x08 then ['\\', 'b']
  else if c.toNat = 0x0C then ['\\', 'f']
  else if 0x20 ≤ c.toNat ∧ c.toNat < 0x7F then [c]
  else if c.toNat < 0x10000 then unitEscape c.toNat
  else
    unitEscape (0xD800 + (c.toNat - 0x10000) / 0x400)
      ++ unitEscape (0xDC00 + (c.toNat - 0x10000) % 0x400)

/-- A text in quotes. -/
def writeText (text : String) : List Char :=
  '"' :: (text.toList.flatMap escapeChar ++ ['"'])

/-! ## Documents -/

/-- What stands before each part of a list or object that is `depth` levels deep, and between a
key and its value. -/
structure Layout where
  lineBreak : Nat → List Char
  colon : List Char

/-- Each part on a line of its own, indented by two for each level. -/
def indented : Layout where
  lineBreak depth := '\n' :: List.replicate (2 * depth) ' '
  colon := [':', ' ']

/-- Everything on one line. -/
def compact : Layout where
  lineBreak _ := []
  colon := [':']

mutual

/-- A value at a given depth. -/
def write (layout : Layout) (depth : Nat) : Value → List Char
  | .null => ['n', 'u', 'l', 'l']
  | .bool true => ['t', 'r', 'u', 'e']
  | .bool false => ['f', 'a', 'l', 's', 'e']
  | .int n => (toString n).toList
  | .real x => (x.render Number.Decimal.json).toList
  | .text s => writeText s
  | .moment m => writeText m.display
  | .list [] => ['[', ']']
  | .list (item :: items) =>
    '[' :: (layout.lineBreak (depth + 1) ++ write layout (depth + 1) item
      ++ writeItems layout (depth + 1) items ++ layout.lineBreak depth ++ [']'])
  | .table [] => ['\x7b', '\x7d']
  | .table ((key, value) :: entries) =>
    '\x7b' :: (layout.lineBreak (depth + 1) ++ writeText key ++ layout.colon
      ++ write layout (depth + 1) value ++ writeEntries layout (depth + 1) entries
      ++ layout.lineBreak depth ++ ['\x7d'])

/-- The items of a list after the first, each after a comma. -/
def writeItems (layout : Layout) (depth : Nat) : List Value → List Char
  | [] => []
  | item :: items =>
    ',' :: (layout.lineBreak depth ++ write layout depth item ++ writeItems layout depth items)

/-- The entries of an object after the first, each after a comma. -/
def writeEntries (layout : Layout) (depth : Nat) : List (String × Value) → List Char
  | [] => []
  | (key, value) :: entries =>
    ',' :: (layout.lineBreak depth ++ writeText key ++ layout.colon ++ write layout depth value
      ++ writeEntries layout depth entries)

end

/-- A document as text. -/
def render (layout : Layout) (value : Value) : String :=
  String.ofList (write layout 0 value)

end Json
end CodeAtlas
