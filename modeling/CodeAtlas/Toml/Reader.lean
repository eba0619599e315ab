import CodeAtlas.Toml.Entry

/-!
# Reading TOML

A settings document is a list of lines: headers that open a table, keys with values, and values
that go on from the line before.  A table may be opened by a header once; tables that only stand on
the way to another may still be opened.

Main definitions:

- {lit}`enter`: opens the table of a header;
- {lit}`Document.line`: what a line does;
- {lit}`parse?`: the table that a document holds.
-/

namespace CodeAtlas
namespace Toml

/-! ## Places -/

/-- A step from a value to one inside it. -/
inductive Step where
  | entry (name : String)
  /-- The last item of a list. -/
  | last

/-- Changes the value at a place, and passes on what the change gives besides. -/
def updateAt {α : Type} (change : Value → Option (Value × α)) :
    List Step → Value → Option (Value × α)
  | [], value => change value
  | .entry name :: steps, .table entries => do
    let (inner, found) ← (entries.lookup name).bind (updateAt change steps)
    return (.table (putEntry name inner entries), found)
  | .last :: steps, .list items => do
    let (inner, found) ← items.getLast?.bind (updateAt change steps)
    return (.list (items.dropLast ++ [inner]), found)
  | _, _ => none

/-! ## Headers -/

/-- What a header names. -/
structure Header where
  /-- Whether it opens a table of a list. -/
  many : Bool
  names : List String

/-- Whether a text may stand in a header without quotes. -/
def isBareName (cs : List Char) : Bool :=
  !cs.isEmpty && cs.all fun c => c.isAlphanum || c == '_' || c == '-'

/-- Whether a name in quotes ends here. -/
def isClosedName (cs : List Char) : Bool := 1 < cs.length && cs.head? == cs.getLast?

/-- The names of a header, from its pieces between points.  `opened` is a name in quotes that has
not ended yet. -/
def headerNames? : Option (List Char) → List (List Char) → Option (List String)
  | none, [] => some []
  | some _, [] => none
  | none, piece :: pieces =>
    let name := trim piece
    if name.head?.any isQuote then
      if isClosedName name then
        (headerNames? none pieces).map (String.ofList (inner name) :: ·)
      else headerNames? (some name) pieces
    else if isBareName name then (headerNames? none pieces).map (String.ofList name :: ·)
    else none
  | some opened, piece :: pieces =>
    let joined := opened ++ '.' :: piece
    if isClosedName (trim joined) then
      (headerNames? none pieces).map (String.ofList (inner (trim joined)) :: ·)
    else headerNames? (some joined) pieces

/-- Reads a header.  It ends at the first closing bracket outside quotes, and the rest of the line
is blank. -/
def header? (line : List Char) : Option Header :=
  let many := (line.drop 1).head? == some '['
  let body := line.drop (if many then 2 else 1)
  let split (cs : List Char) : List (List Char) :=
    if many then pairSegments ']' ']' cs else Text.segments ']' cs
  let close := if many then [']', ']'] else [']']
  let count := 1 + separatorsBefore split false (spans body)
  let pieces := split body
  if pieces.length ≤ count || !(close.intercalate (pieces.drop count)).all Text.isBlankChar then none
  else
    (headerNames? none (Text.segments '.' (close.intercalate (pieces.take count)))).map fun names =>
      { many, names }

/-- What opening a table has found: the value with the table in it, the names of tables that only
stand on the way, and the place of the table. -/
structure Entered where
  value : Value
  onTheWay : List String
  place : List Step

/-- A table that is new. -/
def newTable (many : Bool) : Value := if many then .list [.table []] else .table []

/-- Goes on with `go` inside the value of an entry, or, under the header of a list of tables, inside
the last item of a list there. -/
def Entered.inside (many : Bool) (go : Value → Option Entered) (entries : Table) (name : String)
    (value : Value) : Option Entered :=
  match many, value with
  | true, .list items => do
    let entered ← items.getLast?.bind go
    return { entered with
      value := .table (putEntry name (.list (items.dropLast ++ [entered.value])) entries)
      place := .entry name :: .last :: entered.place }
  | true, .table _ | false, _ => do
    let entered ← go value
    return { entered with
      value := .table (putEntry name entered.value entries)
      place := .entry name :: entered.place }
  | _, _ => none

/-- Opens the table that a header names below a value.  A list on the way stands for its last
table.  In such a table an old entry may be opened again; elsewhere only one that stands on the
way, or a list of tables, which gets a new one. -/
def enter (many : Bool) : List String → List String → Value → Option Entered
  | [], onTheWay, value => some ⟨value, onTheWay, []⟩
  | name :: names, onTheWay, .table entries =>
    let isLast := names.isEmpty
    if name.isEmpty then none
    else
      match entries.lookup name with
      | none =>
        let onTheWay := if isLast then onTheWay else onTheWay ++ [name]
        Entered.inside many (enter many names onTheWay) entries name (newTable (isLast && many))
      | some old =>
        if !isLast then Entered.inside many (enter many names onTheWay) entries name old
        else if onTheWay.contains name then
          if many then none
          else Entered.inside many (enter many names (onTheWay.erase name)) entries name old
        else
          match many, old with
          | true, .list items =>
            Entered.inside many (enter many names onTheWay) entries name
              (.list (items ++ [.table []]))
          | _, _ => none
  | name :: names, onTheWay, .list items =>
    match items.getLast? with
    | some (.table entries) =>
      if name.isEmpty then none
      else do
        let old := (entries.lookup name).getD (newTable (names.isEmpty && many))
        let entered ← Entered.inside many (enter many names onTheWay) entries name old
        return { entered with
          value := .list (items.dropLast ++ [entered.value]), place := .last :: entered.place }
    | _ => none
  | _, _, _ => none

/-! ## Lines -/

/-- What has been read of a document. -/
structure Document where
  value : Value
  /-- The names of tables that only stand on the way to another. -/
  onTheWay : List String
  /-- The table that keys go to. -/
  place : List Step
  /-- The value that goes on in the next line. -/
  pending : Option Pending

namespace Document

/-- Nothing has been read yet. -/
def start : Document := { value := .table [], onTheWay := [], place := [], pending := none }

/-- Whether a line closes a value that goes on. -/
def closes (text line : List Char) : Bool :=
  match text.head? with
  | some '[' => line.getLast? == some ']'
  | some quote => 2 < line.length && (line.reverse.take 3).all (· == quote)
  | none => false

/-- Gives a key of a table a value, whether it has one or not. -/
def overwrite (name : String) (value : Value) : Value → Option (Value × Unit)
  | .table entries => some (.table (putEntry name value entries), ())
  | _ => none

/-- What a line does behind a value that goes on.  The value belongs to the table of the last
header, even if its key led on from there. -/
def continued (document : Document) (pending : Pending) (line : List Char) : Option Document :=
  let text := pending.text ++ line
  if closes text line then do
    let value ← value? (fuelFor text) true text
    let (whole, _) ← updateAt (overwrite pending.name value) document.place document.value
    return { document with value := whole, pending := none }
  else if line.isEmpty && text.head? == some '[' then none
  else some { document with pending := some (.ofText pending.name text) }

/-- What a header does. -/
def opened (document : Document) (line : List Char) : Option Document := do
  let header ← header? line
  let entered ← enter header.many header.names document.onTheWay document.value
  return { document with
    value := entered.value, onTheWay := entered.onTheWay, place := entered.place }

/-- What an inline table on a line of its own does: its entries go to the table of the last
header. -/
def merged (document : Document) (line : List Char) : Option Document :=
  if line.getLast? == some '\x7d' then do
    let change (level : Value) := (inline? (fuelFor line) line level).map fun level => (level, ())
    let (value, _) ← updateAt change document.place document.value
    return { document with value }
  else none

/-- What a key and a value do. -/
def assigned (document : Document) (line : List Char) : Option Document := do
  let (value, pending) ← updateAt (store? (fuelFor line) line) document.place document.value
  return { document with value, pending }

/-- What a line does.  A line without an equals sign that is no header does nothing. -/
def line (document : Document) (text : List Char) : Option Document :=
  match document.pending with
  | some pending =>
    let text := if pending.joined || !pending.text.contains '\n' then trim text else text
    if text.isEmpty && pending.joined then some document else document.continued pending text
  | none =>
    let text := trim text
    match text.head? with
    | none => some document
    | some '[' => document.opened text
    | some '\x7b' => document.merged text
    | some _ => if text.contains '=' then document.assigned text else some document

end Document

/-- The table that a document holds.  A value that is still open at the end does not count. -/
def parse? (text : List Char) : Option Table := do
  let document ← (← lines? text).foldlM Document.line .start
  match document.value with
  | .table entries => some entries
  | _ => none

end Toml
end CodeAtlas
