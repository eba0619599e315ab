import CodeAtlas.Declaration.Basic
import CodeAtlas.Declaration.Signature
import CodeAtlas.Parsing

/-!
# Finding declarations

The statements of a file declare functions, classes, interfaces and variables.  Members of a class
and named functions inside a function are declarations of their own, named after the scope they
stand in.

Main definitions:

- {lit}`nestedFunctions`: the named functions directly inside a body.
- {lit}`functionsAt`: the declarations of the functions inside a body, at every depth.
- {lit}`SourceTree.declarations`: the declarations of a file, by place and then by name.
-/

namespace CodeAtlas
namespace Declaration

open CodeAtlas.Tree

/-! ## Kinds of nodes -/

/-- Statements that declare a function. -/
def functionStatements : List String :=
  ["function_declaration", "generator_function_declaration"]

/-- Statements that declare a class. -/
def classStatements : List String := ["class_declaration", "abstract_class_declaration"]

/-- Statements that declare a type. -/
def interfaceStatements : List String := ["interface_declaration", "type_alias_declaration"]

/-- Statements that declare variables. -/
def variableStatements : List String := ["lexical_declaration", "variable_declaration"]

/-- Expressions that are functions. -/
def functionValues : List String :=
  ["arrow_function", "function_expression", "function", "generator_function"]

/-- Members of a class that hold a value. -/
def fieldMembers : List String := ["public_field_definition", "field_definition"]

/-- Nodes whose inner functions belong to another scope. -/
def scopeBoundaries : List String := classStatements ++ ["class", "method_definition"]

/-- The name of an exported declaration that has none. -/
def anonymousName : String := "default"

/-! ## Names -/

/-- The text of the name of a node, unless it has none or an empty one. -/
def properName? (source : Source) (node : Node) : Option String :=
  ((node.field? "name").map source.text).filter (!·.isEmpty)

/-- The name of a class member, unless it has none or an empty one. -/
def memberName? (source : Source) (member : Node) : Option String :=
  (((member.field? "name").or (member.field? "property")).map source.text).filter (!·.isEmpty)

/-! ## Functions -/

/-- Whether a node inside a body is a function that is searched no further: one that is declared,
or a value that carries a name. -/
def isNestedFunction (node : Node) : Bool :=
  node.isOneOf functionStatements
    || (node.isOneOf functionValues && (node.field? "name").isSome)

mutual

/-- The first functions on each way down from a node, as far as the scope reaches. -/
def nestedFunctionsAt : Node → List Node
  | .mk label children =>
    if isNestedFunction (.mk label children) then [.mk label children]
    else if (Node.mk label children).isOneOf scopeBoundaries then []
    else nestedFunctions children

/-- The first functions on each way down from several nodes. -/
def nestedFunctions : List Node → List Node
  | [] => []
  | node :: nodes => nestedFunctionsAt node ++ nestedFunctions nodes

end

/-- The declaration of a function.  The node gives the range, the function the parameters and the
body; they differ where a variable or a field holds the function. -/
def ofFunction (source : Source) (name : String) (kind : EntityKind) (node function : Node) :
    Declaration :=
  let body := function.field? "body"
  let inner := (body.map fun body => nestedFunctions body.children).getD []
  { name, kind, node, body
    signature := some (Signature.ofNode source function)
    excluded := inner.filter fun node => (properName? source node).isSome }

mutual

/-- The declarations of the functions inside a scope, from a node of its body on. -/
def functionsAt (source : Source) (scope : String) : Node → List Declaration
  | .mk label children =>
    if isNestedFunction (.mk label children) then
      match properName? source (.mk label children) with
      | none => []
      | some name =>
        let qualified := QualifiedName.within scope name
        ofFunction source qualified .function (.mk label children) (.mk label children)
          :: functionsInBody source qualified children
    else if (Node.mk label children).isOneOf scopeBoundaries then []
    else functionsIn source scope children

/-- The declarations of the functions inside a scope, from several nodes of its body on. -/
def functionsIn (source : Source) (scope : String) : List Node → List Declaration
  | [] => []
  | node :: nodes => functionsAt source scope node ++ functionsIn source scope nodes

/-- The declarations of the functions inside the body of a function with the given children. -/
def functionsInBody (source : Source) (scope : String) : List Node → List Declaration
  | [] => []
  | .mk label children :: nodes =>
    if label.field = some "body" then functionsIn source scope children
    else functionsInBody source scope nodes

end

/-- A function and the named functions inside it. -/
def function (source : Source) (name : String) (kind : EntityKind) (node function : Node) :
    List Declaration :=
  ofFunction source name kind node function :: functionsInBody source name function.children

/-! ## Classes -/

/-- Whether a member of a class is a field that holds a function. -/
def fieldFunction? (member : Node) : Option Node :=
  if member.isOneOf fieldMembers then
    (member.field? "value").filter (·.isOneOf functionValues)
  else none

/-- Whether a member of a class is a declaration with code of its own. -/
def isCodeMember (source : Source) (member : Node) : Bool :=
  (member.type == "method_definition" || (fieldFunction? member).isSome)
    && (memberName? source member).isSome

/-- The declarations of a member of a class. -/
def ofMember (source : Source) (scope : String) (member : Node) : List Declaration :=
  match memberName? source member with
  | none => []
  | some name =>
    let qualified := QualifiedName.within scope name
    if member.type = "method_definition" then
      function source qualified .method member member
    else if member.type = "abstract_method_signature" then
      [{ name := qualified, kind := .method, node := member, body := none,
         signature := some (Signature.ofNode source member), excluded := [] }]
    else
      match fieldFunction? member with
      | some value => function source qualified .method member value
      | none => []

/-- A class and its members. -/
def classLike (source : Source) (node : Node) : List Declaration :=
  let name := (properName? source node).getD anonymousName
  let body := node.field? "body"
  let members := (body.map (·.namedChildren)).getD []
  { name, kind := .classDef, node, body, signature := none,
    excluded := members.filter (isCodeMember source) }
    :: members.flatMap (ofMember source name)

/-! ## Variables -/

/-- A declared variable, or the function that it holds.  A pattern declares several names and is
no variable. -/
def variableLike (source : Source) (declarator : Node) : List Declaration :=
  match declarator.field? "name" with
  | none => []
  | some nameNode =>
    if nameNode.type ≠ "identifier" then []
    else
      let name := source.text nameNode
      let value := declarator.field? "value"
      match value.filter (·.isOneOf functionValues) with
      | some functionValue => function source name .function declarator functionValue
      | none =>
        [{ name, kind := .variable, node := declarator, body := value, signature := none,
           excluded := [] }]

/-! ## Statements -/

/-- What an export hands on, if it declares something. -/
def exported? (statement : Node) : Option Node :=
  (statement.field? "declaration").or (statement.field? "value")

/-- The declarations of a node that is a statement, or that a statement exports.  Only an export
makes a bare function or class expression a declaration. -/
def ofDeclared (source : Source) (isExported : Bool) (node : Node) : List Declaration :=
  if node.isOneOf functionStatements || (isExported && node.isOneOf functionValues) then
    function source ((properName? source node).getD anonymousName) .function node node
  else if node.isOneOf classStatements || (isExported && node.type == "class") then
    classLike source node
  else if node.isOneOf interfaceStatements then
    match properName? source node with
    | some name =>
      [{ name, kind := .interfaceDef, node, body := none, signature := none, excluded := [] }]
    | none => []
  else if node.isOneOf variableStatements then
    (node.namedChildren.filter (·.type == "variable_declarator")).flatMap (variableLike source)
  else []

/-- The declarations of a statement. -/
def ofStatement (source : Source) (statement : Node) : List Declaration :=
  if statement.type = "export_statement" then
    match exported? statement with
    | some inner => ofDeclared source true inner
    | none => []
  else ofDeclared source false statement

/-- Whether a declaration, with the point it starts at, may come before another: the earlier one
does, and of two at one point the one whose name comes first. -/
def precedes (a b : Point × Declaration) : Bool :=
  if a.1 = b.1 then !(b.2.name < a.2.name) else a.1.le b.1

end Declaration

/-- The declarations of a file, by place and then by name. -/
def SourceTree.declarations (tree : SourceTree) : List Declaration :=
  let found := tree.root.namedChildren.flatMap (Declaration.ofStatement tree.source)
  let placed := found.map fun declaration =>
    (tree.source.startPoint declaration.node, declaration)
  (placed.mergeSort Declaration.precedes).map (·.2)

end CodeAtlas
