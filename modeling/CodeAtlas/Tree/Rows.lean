import CodeAtlas.Tree.Node

/-!
# Trees as rows

A tree is handed over as one row for each node, in preorder, with its depth.  A row is a child of
the closest earlier row that is one level less deep.
-/

namespace CodeAtlas
namespace Tree

/-- One row of a tree. -/
structure Row where
  depth : Nat
  type : String
  named : Bool
  error : Bool
  missing : Bool
  hasError : Bool
  start : Nat
  stop : Nat
  field : Option String

/-- The label of the node that a row stands for. -/
def Row.label (row : Row) (number : Nat) : Label :=
  { number, type := row.type, field := row.field, named := row.named, error := row.error,
    missing := row.missing, hasError := row.hasError, start := row.start, stop := row.stop }

/-- Puts a row in front of the trees that follow it, each with its depth: those that are deeper
are its children. -/
def Row.adopt (row : Row) (number : Nat) (following : List (Nat × Node)) : List (Nat × Node) :=
  let (below, beside) := following.span fun tree => row.depth < tree.1
  (row.depth, .mk (row.label number) (below.map (·.2))) :: beside

/-- The trees of a list of rows whose first has the given number. -/
def forestFrom (number : Nat) : List Row → List (Nat × Node)
  | [] => []
  | row :: rows => row.adopt number (forestFrom (number + 1) rows)

/-- The tree of a list of rows. -/
def Node.ofRows? (rows : List Row) : Option Node :=
  (forestFrom 0 rows).head?.map (·.2)

end Tree
end CodeAtlas
