import CodeAtlas.Declaration.Basic

/-!
# Cyclomatic complexity

The complexity of a function is one more than the number of decisions in its body.  Decisions of
functions declared inside it are counted there; those of unnamed callbacks are counted here.
-/

namespace CodeAtlas

/-- Nodes that are decisions by their type alone. -/
def decisionTypes : List String :=
  ["if_statement", "ternary_expression", "switch_case", "catch_clause", "for_statement",
    "for_in_statement", "while_statement", "do_statement"]

/-- Operators that decide whether their right side is evaluated. -/
def logicalOperators : List String := ["&&", "||", "??"]

/-- Assignments that decide whether they take place. -/
def logicalAssignments : List String := ["&&=", "||=", "??="]

/-- Whether the operator of a node is one of those listed. -/
def hasOperator (node : Tree.Node) (operators : List String) : Bool :=
  ((node.field? "operator").map (·.isOneOf operators)).getD false

/-- Whether a node is a decision. -/
def isDecision (node : Tree.Node) : Bool :=
  if node.isOneOf decisionTypes then true
  else if node.type = "binary_expression" then hasOperator node logicalOperators
  else if node.type = "augmented_assignment_expression" then hasOperator node logicalAssignments
  else false

/-- The complexity of a declaration that can be called. -/
def Declaration.complexity? (declaration : Declaration) : Option Nat :=
  if declaration.kind.isCallable then some (1 + declaration.walkBody.countP isDecision) else none

end CodeAtlas
