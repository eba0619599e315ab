import CodeAtlas.Declaration.Basic

/-!
# Call sites

A call is known by the dotted name of what it calls.  Calls of something without a name, such as
a returned function, are not listed.
-/

namespace CodeAtlas
namespace Call

open CodeAtlas.Tree

/-- A named call in a body. -/
structure Site where
  name : String
  point : Point
  deriving DecidableEq

/-- Nodes that are names by themselves. -/
def plainNames : List String := ["identifier", "this", "super"]

mutual

/-- The segments of a chain of member accesses, from its base on.  A base that is no name adds
none. -/
def chainSegments (source : Source) : Node → List String
  | .mk label children =>
    if label.type = "member_expression" then
      objectSegments source children
        ++ (((Node.mk label children).field? "property").map source.text).toList
    else if plainNames.contains label.type then [source.text (.mk label children)]
    else []

/-- The segments of the chain in the first child that fills the field of the object. -/
def objectSegments (source : Source) : List Node → List String
  | [] => []
  | child :: children =>
    if child.label.field = some "object" then chainSegments source child
    else objectSegments source children

end

mutual

/-- The dotted name of the function that a call names. -/
def calleeName? (source : Source) : Node → Option String
  | .mk label children =>
    if plainNames.contains label.type then some (source.text (.mk label children))
    else if label.type = "member_expression" then
      let segments := chainSegments source (.mk label children)
      if segments.isEmpty then none else some (".".intercalate segments)
    else if label.type = "non_null_expression" then firstCalleeName? source children
    else none

/-- The dotted name of the first named child. -/
def firstCalleeName? (source : Source) : List Node → Option String
  | [] => none
  | child :: children =>
    if child.label.named then calleeName? source child else firstCalleeName? source children

end

/-- The call site of a node, if it is a call with a name. -/
def site? (source : Source) (node : Node) : Option Site :=
  if node.type = "call_expression" then
    (((node.field? "function").bind (calleeName? source)).filter (!·.isEmpty)).map fun name =>
      ⟨name, source.startPoint node⟩
  else none

/-- The named calls in the body of a declaration, in the order of the text. -/
def sites (source : Source) (declaration : Declaration) : List Site :=
  declaration.walkBody.filterMap (site? source)

end Call
end CodeAtlas
