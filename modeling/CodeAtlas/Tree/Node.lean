/-!
# Syntax trees

A syntax tree comes finished from a grammar.  A node has a type, its place among the bytes of the
source, marks for errors, and children; a child may carry the name of the field it fills.  Nodes
are told apart by their number in preorder.

Main definitions:

- {lit}`Node.walk`: a node and all below it in preorder.
- {lit}`Node.walkSkipping`: the same walk without the subtrees of chosen nodes.
- {lit}`Node.firstError?`: the first error or missing token.
-/

namespace CodeAtlas
namespace Tree

/-- What is known of a node apart from its children. -/
structure Label where
  /-- The number of the node in preorder, which tells it from the other nodes of its tree. -/
  number : Nat
  type : String
  /-- The field of the parent that the node fills. -/
  field : Option String
  named : Bool
  /-- The node stands for input that the grammar could not read. -/
  error : Bool
  /-- The node stands for a token that the grammar had to invent. -/
  missing : Bool
  /-- The grammar reports an error in the subtree. -/
  hasError : Bool
  /-- The byte offset at which the node starts. -/
  start : Nat
  /-- The byte offset after the node. -/
  stop : Nat
  deriving DecidableEq

/-- A node of a syntax tree. -/
inductive Node where
  | mk (label : Label) (children : List Node)

namespace Node

/-! ## Reading a node -/

/-- The label of a node. -/
def label : Node → Label
  | .mk label _ => label

/-- The children of a node, in order. -/
def children : Node → List Node
  | .mk _ children => children

/-- The type of a node. -/
def type (node : Node) : String := node.label.type

/-- Whether the type of a node is one of those listed. -/
def isOneOf (node : Node) (types : List String) : Bool := types.contains node.type

/-- The children that stand for more than a token. -/
def namedChildren (node : Node) : List Node :=
  node.children.filter (·.label.named)

/-- The first child that fills the field. -/
def field? (node : Node) (name : String) : Option Node :=
  node.children.find? (·.label.field == some name)

/-- Whether two nodes of a tree are the same. -/
def same (a b : Node) : Bool := a.label.number == b.label.number

/-- Whether a node is an error or a missing token. -/
def isError (node : Node) : Bool := node.label.error || node.label.missing

/-! ## Walks -/

mutual

/-- A node and all below it, in preorder, without the subtrees of the nodes that `skip` picks. -/
def walkSkipping (skip : Node → Bool) : Node → List Node
  | .mk label children =>
    if skip (.mk label children) then []
    else .mk label children :: walkAllSkipping skip children

/-- The walks of several nodes, one after the other. -/
def walkAllSkipping (skip : Node → Bool) : List Node → List Node
  | [] => []
  | node :: nodes => walkSkipping skip node ++ walkAllSkipping skip nodes

end

/-- A node and all below it, in preorder. -/
def walk (node : Node) : List Node := walkSkipping (fun _ => false) node

/-- Walking several nodes is walking each of them. -/
theorem walkAllSkipping_eq (skip : Node → Bool) (nodes : List Node) :
    walkAllSkipping skip nodes = nodes.flatMap (walkSkipping skip) := by
  induction nodes with
  | nil => simp [walkAllSkipping]
  | cons node nodes ih => simp [walkAllSkipping, ih]

mutual

/-- The nodes of a walk, each with its parent, where the parent of the first is given. -/
def walkWithParents (parent : Option Node) : Node → List (Node × Option Node)
  | .mk label children =>
    (.mk label children, parent) :: walkAllWithParents (some (.mk label children)) children

/-- The nodes of several walks below one parent. -/
def walkAllWithParents (parent : Option Node) : List Node → List (Node × Option Node)
  | [] => []
  | node :: nodes => walkWithParents parent node ++ walkAllWithParents parent nodes

end

/-! ## Errors -/

mutual

/-- The first error in preorder, looking only below nodes that report one. -/
def findError? : Node → Option Node
  | .mk label children =>
    if (Node.mk label children).isError then some (.mk label children)
    else findErrorIn? children

/-- The first error among several nodes. -/
def findErrorIn? : List Node → Option Node
  | [] => none
  | node :: nodes =>
    if node.label.hasError || node.isError then
      match findError? node with
      | some found => some found
      | none => findErrorIn? nodes
    else findErrorIn? nodes

end

/-- The first error of a tree whose root reports one; the root itself where none is found. -/
def firstError? (root : Node) : Option Node :=
  if root.label.hasError then some ((findError? root).getD root) else none

end Node
end Tree
end CodeAtlas
