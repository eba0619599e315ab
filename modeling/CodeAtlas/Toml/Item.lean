import CodeAtlas.Toml.Quoted
import CodeAtlas.Value.Basic

/-!
# Items of lists and entries of inline tables

Lists and inline tables are cut at their commas into the texts of their members.  A comma inside a
text in quotes, a list or a table separates nothing; how far that is seen depends on what the
first member is.
-/

namespace CodeAtlas
namespace Toml

/-! ## Lists of texts -/

/-- Whether the first member of a list is a text in quotes. -/
def isTextList (cs : List Char) : Bool := (trim (inner cs)).head?.any isQuote

/-- Whether a text ends with the character that it begins with, and no backslash marks that. -/
def isBounded (cs : List Char) : Bool :=
  match cs with
  | [] => true
  | first :: rest => cs.getLast? == some first && !oddBackslashes (rest.reverse.drop 1)

/-- Whether a text begins with three equal characters of which none stands in the second or third
place from its end. -/
def opensOnly (cs : List Char) : Bool :=
  match cs with
  | a :: b :: c :: _ =>
    b == a && c == a && !((cs.reverse.drop 1).take 2).contains a
  | _ => false

/-- Whether a piece is a whole member of a list of texts. -/
def isWhole (piece : List Char) : Bool := isBounded (trim piece) && !opensOnly (trim piece)

/-- Joins the pieces of a list of texts to members, as long as there is something to join.  The
last piece is taken as it is. -/
def joinTexts (piece : List Char) : List (List Char) → Option (List (List Char))
  | [] => some [piece]
  | next :: pieces =>
    if isWhole piece then (joinTexts next pieces).map (piece :: ·)
    else
      let joined := piece ++ ',' :: next
      if pieces.isEmpty && !isWhole joined then none else joinTexts joined pieces

/-! ## Lists of tables -/

/-- The texts of the inline tables in a list.  `group` is the text of the open one, backwards, and
`depth` the number of braces that are open in it.  Between a closing brace and the next opening
one everything is skipped, at least one character. -/
def braceGroups (seeking : Option Bool) (depth : Nat) (quoted : Bool) (group : List Char) :
    List Char → List (List Char)
  | [] => []
  | c :: rest =>
    match seeking with
    | some skip =>
      if skip || c != '\x7b' then braceGroups (some false) depth quoted [] rest
      else braceGroups none depth quoted [c] rest
    | none =>
      let quoted :=
        if isQuote c then (if quoted then oddBackslashes group else true) else quoted
      let depth := if !quoted && c == '\x7b' then depth + 1 else depth
      if quoted || c != '\x7d' then braceGroups none depth quoted (c :: group) rest
      else if 1 < depth then braceGroups none (depth - 1) quoted (c :: group) rest
      else (c :: group).reverse :: braceGroups (some true) depth quoted [] rest

/-- The texts of the inline tables between the brackets of a list. -/
def tableItems (cs : List Char) : List (List Char) :=
  match cs with
  | [] => []
  | c :: rest => braceGroups none (if c = '\x7b' then 1 else 0) false [c] rest

/-! ## Lists of lists -/

/-- Cuts a text at the commas that stand outside brackets. -/
def bracketGroups (depth : Int) : List Char → List (List Char)
  | [] => [[]]
  | c :: rest =>
    if c = ',' ∧ depth = 0 then [] :: bracketGroups depth rest
    else
      let depth := if c = '[' then depth + 1 else if c = ']' then depth - 1 else depth
      consFirst c (bracketGroups depth rest)

/-! ## All lists -/

/-- The texts of the items of a list, which are neither blank nor have blanks at their ends. -/
def itemTexts? (cs : List Char) : Option (List (List Char)) := do
  let body := inner cs
  let isNested := body.contains '[' && (body.takeWhile (· != '[')).all Text.isBlankChar
  let pieces ←
    if isNested then some (bracketGroups 0 body)
    else
      let pieces :=
        if (trim body).head? = some '\x7b' then tableItems body else Text.segments ',' body
      match isTextList cs, pieces with
      | true, piece :: pieces => joinTexts piece pieces
      | _, _ => some pieces
  return (pieces.map trim).filter (!·.isEmpty)

/-! ## Inline tables -/

/-- Whether a text may be the whole value of an entry of an inline table. -/
def isInlineValue (cs : List Char) : Bool :=
  match cs.head?, cs.getLast? with
  | some first, some last =>
    (isQuote first && last == first) || first == '-' || first.isDigit
      || cs == ['t', 'r', 'u', 'e'] || cs == ['f', 'a', 'l', 's', 'e']
      || (first == '[' && last == ']') || (first == '\x7b' && last == '\x7d')
  | _, _ => false

/-- What stands behind the first equals sign of an entry, without blanks around it. -/
def inlineValue (entry : List Char) : List Char := trim ((entry.dropWhile (· != '=')).drop 1)

/-- Joins the pieces of an inline table to entries.  Each has an equals sign with something behind
it, and goes on to the next comma until that is the value of an entry. -/
def joinEntries (piece : List Char) : List (List Char) → Option (List (List Char))
  | [] => if isInlineValue (inlineValue piece) then some [piece] else none
  | next :: pieces =>
    if isInlineValue (inlineValue piece) then (joinEntries next pieces).map (piece :: ·)
    else if (inlineValue piece).isEmpty then none
    else joinEntries (piece ++ ',' :: next) pieces

/-- The texts of the entries of an inline table. -/
def entryTexts? (cs : List Char) : Option (List (List Char)) :=
  match Text.segments ',' (inner cs) with
  | [] => some []
  | [piece] => if piece.all Text.isBlankChar then some [] else joinEntries piece []
  | piece :: pieces => joinEntries piece pieces

end Toml
end CodeAtlas
