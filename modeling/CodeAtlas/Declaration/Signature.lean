import CodeAtlas.Entity
import CodeAtlas.Text.Blank
import CodeAtlas.Tree.Source

/-!
# Signatures of functions

Parameters are listed by name, with a question mark where they are optional and dots where they
take the rest.  A pattern without a name is listed by its text.
-/

namespace CodeAtlas
namespace Signature

open CodeAtlas.Tree

mutual

/-- The name of a parameter. -/
def parameterName? (source : Source) : Node → Option String
  | .mk label children =>
    if label.type = "comment" then none
    else if label.type = "required_parameter" then fieldName? source "pattern" children
    else if label.type = "optional_parameter" then
      (fieldName? source "pattern" children).map fun name =>
        if name.isEmpty then name else name ++ "?"
    else if label.type = "assignment_pattern" then fieldName? source "left" children
    else if label.type = "rest_pattern" then
      some ("..." ++ (firstName? source children).getD "")
    else some (source.text (.mk label children))

/-- The parameter name of the first child that fills the field. -/
def fieldName? (source : Source) (field : String) : List Node → Option String
  | [] => none
  | child :: children =>
    if child.label.field = some field then parameterName? source child
    else fieldName? source field children

/-- The parameter name of the first named child. -/
def firstName? (source : Source) : List Node → Option String
  | [] => none
  | child :: children =>
    if child.label.named then parameterName? source child else firstName? source children

end

/-- The parameters of a function: those of its parameter list, without a declared receiver, or
its single bare parameter. -/
def parametersOf (source : Source) (function : Node) : List String :=
  match function.field? "parameters" with
  | some list =>
    (list.namedChildren.filterMap (parameterName? source)).filter fun name =>
      !name.isEmpty && name != "this"
  | none => ((function.field? "parameter").map source.text).toList

/-- The declared result type of a function, without the colons in front. -/
def returnTypeOf? (source : Source) (function : Node) : Option String :=
  (function.field? "return_type").bind fun annotation =>
    let type := Text.strip (String.ofList ((source.text annotation).toList.dropWhile (· == ':')))
    if type.isEmpty then none else some type

/-- The signature of a function. -/
def ofNode (source : Source) (function : Node) : Signature :=
  { parameters := parametersOf source function
    returnType := returnTypeOf? source function
    isAsync := function.children.any (·.type == "async") }

end Signature
end CodeAtlas
