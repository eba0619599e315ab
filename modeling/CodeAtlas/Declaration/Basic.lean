import CodeAtlas.Entity
import CodeAtlas.Tree.Source

/-!
# Declarations

A declaration is an entity that is still attached to its syntax tree.  Its body is the subtree
that is searched for calls and decisions, without the parts that are declarations of their own.
-/

namespace CodeAtlas

/-- A declaration of a file. -/
structure Declaration where
  name : String
  kind : EntityKind
  /-- The node that gives the range. -/
  node : Tree.Node
  body : Option Tree.Node
  signature : Option Signature
  /-- The nodes below the body that are declarations of their own. -/
  excluded : List Tree.Node

namespace Declaration

/-- The class that a method belongs to. -/
def className? (declaration : Declaration) : Option String :=
  if declaration.kind = .method then some (QualifiedName.first declaration.name) else none

/-- The range of a declaration. -/
def range (source : Tree.Source) (declaration : Declaration) : SourceRange :=
  source.range declaration.node

/-- The nodes of the body in preorder, without the excluded ones and what is below them. -/
def walkBody (declaration : Declaration) : List Tree.Node :=
  match declaration.body with
  | none => []
  | some body => body.walkSkipping fun node => declaration.excluded.any node.same

end Declaration
end CodeAtlas
