import CodeAtlas.Text.Segments

/-!
# File paths

Paths are slashed texts.  A path is evaluated from left to right into its root and the stack of
its components; two spellings name the same file when they evaluate alike, and the normal form
writes the evaluated path out again.
-/

namespace CodeAtlas
namespace Path

/-! ## Evaluation -/

/-- How a path begins.  Exactly two slashes are a root of their own, any other number is one. -/
inductive Root where
  | relative
  | single
  | double
  deriving DecidableEq

/-- The slashes that a root is written with. -/
def Root.slashes : Root → List Char
  | .relative => []
  | .single => ['/']
  | .double => ['/', '/']

/-- The root of a path. -/
def rootOf : List Char → Root
  | '/' :: '/' :: '/' :: _ => .single
  | '/' :: '/' :: _ => .double
  | '/' :: _ => .single
  | _ => .relative

/-- Whether a component names the directory it stands in. -/
def isHere (component : List Char) : Bool := component == [] || component == ['.']

/-- Whether a component names the directory above. -/
def isUp (component : List Char) : Bool := component == ['.', '.']

/-- Enters one component from the directory whose components, last first, are `stack`.  Going up
leaves the last component; at the top of a relative path it is remembered, at a root it has no
effect. -/
def enter (root : Root) (stack : List (List Char)) (component : List Char) : List (List Char) :=
  if isHere component then stack
  else if isUp component then
    match stack with
    | [] => if root = .relative then [component] else []
    | last :: above => if isUp last then component :: stack else above
  else component :: stack

/-- A path after evaluation. -/
structure Evaluated where
  root : Root
  components : List (List Char)
  deriving DecidableEq

/-- Evaluates a slashed path. -/
def evaluate (path : List Char) : Evaluated :=
  let root := rootOf path
  ⟨root, ((Text.segments '/' path).foldl (enter root) []).reverse⟩

/-- Writes an evaluated path. -/
def Evaluated.render (path : Evaluated) : List Char :=
  path.root.slashes ++ ['/'].intercalate path.components

/-- Turns backslashes into slashes. -/
def slashed (path : List Char) : List Char :=
  path.map fun c => if c = '\\' then '/' else c

/-- The normal form of a path, in characters. -/
def normalizeChars (path : List Char) : List Char :=
  (evaluate (slashed path)).render

/-- The normal form of a path.  The path of the directory itself is empty. -/
def normalize (path : String) : String :=
  String.ofList (normalizeChars path.toList)

/-- A path without the components that stay where they are; the directory itself is a dot. -/
def spell (path : String) : String :=
  let components := (Text.segments '/' path.toList).filter fun component => !isHere component
  let written := (rootOf path.toList).slashes ++ ['/'].intercalate components
  if written.isEmpty then "." else String.ofList written

/-! ## Parts of a path -/

/-- The directory of a path: what stands before the last slash, without slashes at its end unless
it has nothing else. -/
def directory (path : List Char) : List Char :=
  let head := path.take (path.length - (Text.lastSegment '/' path).length)
  let trimmed := (head.reverse.dropWhile (· == '/')).reverse
  if trimmed.isEmpty then head else trimmed

/-- A path followed by another; a rooted one starts afresh. -/
def join (base path : List Char) : List Char :=
  if path.head? = some '/' then path
  else if base.isEmpty ∨ base.getLast? = some '/' then base ++ path
  else base ++ '/' :: path

/-- The extension of a path: its last component from the last dot on.  Dots at the start of the
component begin no extension. -/
def extension (path : List Char) : List Char :=
  let body := (Text.lastSegment '/' path).dropWhile (· == '.')
  if body.contains '.' then '.' :: Text.lastSegment '.' body else []

/-- A path without its extension. -/
def stem (path : List Char) : List Char :=
  path.take (path.length - (extension path).length)

end Path
end CodeAtlas
