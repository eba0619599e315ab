import CodeAtlas.Number.Decimal
import CodeAtlas.Text.Printable
import CodeAtlas.Value.Basic

/-!
# Values as literals

Messages show a value as a literal: texts in quotes with escapes, lists in brackets, tables in
braces.  A text is put in single quotes unless it holds one and no double quote.
-/

namespace CodeAtlas
namespace Text

/-! ## Quoted texts -/

/-- A number in base sixteen with at least `width` digits. -/
def hexDigits (width n : Nat) : List Char :=
  let digits := Nat.toDigits 16 n
  List.replicate (width - digits.length) '0' ++ digits

/-- A character between two `quote`s: backslashes and the quote are marked by a backslash, and
what cannot be printed is written by name or number. -/
def escapeChar (quote c : Char) : List Char :=
  if c = quote || c = '\\' then ['\\', c]
  else if c = '\t' then ['\\', 't']
  else if c = '\n' then ['\\', 'n']
  else if c = '\r' then ['\\', 'r']
  else if isPrintable c then [c]
  else if c.toNat < 0x100 then '\\' :: 'x' :: hexDigits 2 c.toNat
  else if c.toNat < 0x10000 then '\\' :: 'u' :: hexDigits 4 c.toNat
  else '\\' :: 'U' :: hexDigits 8 c.toNat

/-- The quote that a text is put in. -/
def quoteFor (cs : List Char) : Char :=
  if cs.contains '\'' && !cs.contains '"' then '"' else '\''

/-- A text in quotes. -/
def quoted (text : String) : String :=
  let quote := quoteFor text.toList
  String.ofList (quote :: (text.toList.flatMap (escapeChar quote) ++ [quote]))

end Text

namespace Value

/-! ## Literals -/

mutual

/-- A value as a literal. -/
def literal : Value → String
  | .null => "None"
  | .bool b => if b then "True" else "False"
  | .int n => toString n
  | .real x => x.render Number.Decimal.plain
  | .text s => Text.quoted s
  | .list items => "[" ++ ", ".intercalate (literals items) ++ "]"
  | .table entries => "\x7b" ++ ", ".intercalate (entryLiterals entries) ++ "\x7d"
  | .moment m => m.literal

/-- The literals of the items of a list. -/
def literals : List Value → List String
  | [] => []
  | item :: items => literal item :: literals items

/-- The literals of the entries of a table. -/
def entryLiterals : List (String × Value) → List String
  | [] => []
  | (key, value) :: entries => (Text.quoted key ++ ": " ++ literal value) :: entryLiterals entries

end

/-- A value as text: a text or a moment as it is, anything else as a literal. -/
def display : Value → String
  | .text s => s
  | .moment m => m.display
  | value => value.literal

end Value
end CodeAtlas
