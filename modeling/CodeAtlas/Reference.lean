import CodeAtlas.Parsing

/-!
# References to other modules

A file refers to modules by imports, by exports from another module, and by calls that load one.
A reference keeps the specifier as written; which file it means is settled later.
-/

namespace CodeAtlas

/-- How a module is referred to.  Graphs may hold kinds of other tools, which are kept by name. -/
inductive ReferenceKind where
  | importing
  | exporting
  | dynamicImport
  | reExport
  | other (label : String)
  deriving DecidableEq

namespace ReferenceKind

/-- The kinds that extraction finds. -/
def all : List ReferenceKind := [.importing, .exporting, .dynamicImport, .reExport]

/-- The name of a kind. -/
def label : ReferenceKind → String
  | .importing => "import"
  | .exporting => "export"
  | .dynamicImport => "dynamic-import"
  | .reExport => "re-export"
  | .other label => label

/-- The kind with a given name. -/
def ofLabel (label : String) : ReferenceKind :=
  (all.find? (·.label == label)).getD (.other label)

end ReferenceKind

/-- A reference to a module. -/
structure Reference where
  specifier : String
  kind : ReferenceKind
  line : Int
  /-- The names that the reference brings in. -/
  names : List String
  deriving DecidableEq

namespace Reference

open CodeAtlas.Tree

/-- The text between the quotes of a string, or of a template without substitutions. -/
def stringValue? (source : Source) (node : Node) : Option String :=
  let isTemplate := node.type == "template_string"
    && !node.namedChildren.any (·.type == "template_substitution")
  if node.type == "string" || isTemplate then
    some (String.ofList ((source.text node).toList.drop 1).dropLast)
  else none

/-- The name that a specifier in braces stands for, or its text. -/
def bindingName (source : Source) (specifier : Node) : String :=
  source.text ((specifier.field? "name").getD specifier)

/-- The names of the specifiers of a type in a clause. -/
def bindingNames (source : Source) (type : String) (clause : Node) : List String :=
  (clause.namedChildren.filter (·.type == type)).map (bindingName source)

/-- The names that one part of an import clause brings in. -/
def clausePartNames (source : Source) (part : Node) : List String :=
  if part.type == "identifier" || part.type == "namespace_import" then [source.text part]
  else if part.type == "named_imports" then bindingNames source "import_specifier" part
  else []

/-- The names that an import clause brings in. -/
def clauseNames (source : Source) (clause : Node) : List String :=
  clause.namedChildren.flatMap (clausePartNames source)

/-- The last named child of a type. -/
def lastOfType? (node : Node) (type : String) : Option Node :=
  (node.namedChildren.filter (·.type == type)).getLast?

/-- The line that a node starts on. -/
def lineOf (source : Source) (node : Node) : Int := (source.startPoint node).line

/-- The module that an import names, and the names it brings in.  An import without a source may
require one in a clause. -/
def importParts (source : Source) (node : Node) : Option Node × List String :=
  match node.field? "source" with
  | some module =>
    (some module, ((lastOfType? node "import_clause").map (clauseNames source)).getD [])
  | none =>
    match lastOfType? node "import_require_clause" with
    | some clause =>
      let first := clause.namedChildren.head?.filter (·.type == "identifier")
      (clause.field? "source", (first.map source.text).toList)
    | none => (none, [])

/-- The reference of an import statement. -/
def ofImport? (source : Source) (node : Node) : Option Reference :=
  let (module, names) := importParts source node
  (module.bind (stringValue? source)).map fun specifier =>
    { specifier, kind := .importing, line := lineOf source node, names }

/-- The reference of an export statement that names a module. -/
def ofExport? (source : Source) (node module : Node) : Option Reference :=
  (stringValue? source module).map fun specifier =>
    let line := lineOf source node
    match node.namedChildren.find? (·.type == "export_clause") with
    | none => { specifier, kind := .exporting, line, names := ["*"] }
    | some clause =>
      { specifier, kind := .reExport, line,
        names := bindingNames source "export_specifier" clause }

/-- How a call loads a module, if it does. -/
def loadingKind? (source : Source) (function : Node) : Option ReferenceKind :=
  if function.type == "import" then some .dynamicImport
  else if function.type == "identifier" && source.text function == "require" then some .importing
  else none

/-- The reference of a call that loads a module with a fixed specifier. -/
def ofCall? (source : Source) (node : Node) : Option Reference := do
  let function ← node.field? "function"
  let kind ← loadingKind? source function
  let arguments ← node.field? "arguments"
  let first ← arguments.namedChildren.head?
  let specifier ← stringValue? source first
  return { specifier, kind, line := lineOf source node, names := [] }

/-- The reference that a node makes, if it makes one. -/
def ofNode? (source : Source) (node : Node) : Option Reference :=
  if node.type = "import_statement" then ofImport? source node
  else if node.type = "export_statement" then
    (node.field? "source").bind (ofExport? source node)
  else if node.type = "call_expression" then ofCall? source node
  else none

end Reference

/-- The references of a file, in the order of its text. -/
def SourceTree.references (tree : SourceTree) : List Reference :=
  tree.root.walk.filterMap (Reference.ofNode? tree.source)

end CodeAtlas
