import CodeAtlas.Position
import CodeAtlas.Text.Segments

/-!
# Entities

An entity is a declaration as the rest of the analysis knows it: a kind, a qualified name, a
range, and, where they apply, a signature and a complexity.  Names may repeat; a reference, which
adds the file and the first line, tells entities apart.
-/

namespace CodeAtlas

/-! ## Kinds -/

/-- The kind of an entity.  Snapshots may hold kinds of other tools, which are kept by name. -/
inductive EntityKind where
  | function
  | classDef
  | interfaceDef
  | variable
  | method
  | other (label : String)
  deriving DecidableEq

namespace EntityKind

/-- The kinds that extraction finds, in the order of reports. -/
def all : List EntityKind := [.function, .classDef, .interfaceDef, .variable, .method]

/-- The name of a kind. -/
def label : EntityKind → String
  | .function => "function"
  | .classDef => "class"
  | .interfaceDef => "interface"
  | .variable => "variable"
  | .method => "method"
  | .other label => label

/-- The kind with a given name. -/
def ofLabel (label : String) : EntityKind :=
  (all.find? (·.label == label)).getD (.other label)

/-- Whether entities of a kind can be called. -/
def isCallable (kind : EntityKind) : Bool := kind == .function || kind == .method

end EntityKind

/-! ## References -/

/-- What tells an entity from every other. -/
structure EntityRef where
  file : String
  name : String
  line : Int
  deriving DecidableEq

/-- The text of a reference. -/
def EntityRef.display (ref : EntityRef) : String :=
  s!"{ref.file}:{ref.name}@{ref.line}"

/-! ## Qualified names -/

namespace QualifiedName

/-- The last segment of a dotted name. -/
def last (name : String) : String := String.ofList (Text.lastSegment '.' name.toList)

/-- The first segment of a dotted name. -/
def first (name : String) : String := String.ofList (Text.firstSegment '.' name.toList)

/-- Whether a name has more than one segment. -/
def isDotted (name : String) : Bool := name.toList.contains '.'

/-- A name inside a scope. -/
def within (scope name : String) : String := scope ++ "." ++ name

end QualifiedName

/-! ## Signatures -/

/-- The parameters and the result of something that can be called. -/
structure Signature where
  parameters : List String
  returnType : Option String
  isAsync : Bool
  deriving DecidableEq

/-- The number of parameters. -/
def Signature.parameterCount (signature : Signature) : Nat := signature.parameters.length

/-- The text of a signature under a name. -/
def Signature.render (signature : Signature) (name : String) : String :=
  let result :=
    match signature.returnType with
    | some type => if type.isEmpty then "" else ": " ++ type
    | none => ""
  let text := name ++ "(" ++ ", ".intercalate signature.parameters ++ ")" ++ result
  if signature.isAsync then "async " ++ text else text

end CodeAtlas
