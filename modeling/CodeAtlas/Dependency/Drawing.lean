import CodeAtlas.Dependency.Graph

/-!
# Drawings of the dependency graph

A drawing is the part of the graph that is shown: all of it, or what touches the files in focus.
It is written in the DOT language.
-/

namespace CodeAtlas
namespace Dependency

/-! ## What is drawn -/

/-- How a node is drawn: a file, a file on a cycle, or an external module. -/
inductive Mark where
  | plain
  | red
  | dashed
  deriving DecidableEq

/-- The attributes that a mark adds to the label. -/
def Mark.attributes : Mark → String
  | .plain => ""
  | .red => ", color=red"
  | .dashed => ", shape=box, style=dashed"

/-- A drawing: nodes with their marks, and edges with their labels. -/
structure Drawing where
  nodes : List (String × Mark)
  edges : List Edge

namespace Drawing

/-- The edges that may be drawn. -/
def candidateEdges (graph : Graph) (withExternal : Bool) : List Edge :=
  graph.edges.filter fun edge => withExternal || !edge.external

/-- The external targets of a graph, in order and without repeats. -/
def externalTargets (graph : Graph) : List String :=
  ((graph.edges.filter (·.external)).map Edge.target).eraseDups.mergeSort fun a b => !(b < a)

/-- The nodes that may be drawn: the files, and the external targets where they are wanted. -/
def candidateNodes (graph : Graph) (withExternal : Bool) : List String :=
  graph.nodes ++ if withExternal then externalTargets graph else []

/-- Whether a node is in focus. -/
def inFocus (focus node : String) : Bool := Text.hasPart focus.toList node.toList

/-- The nodes and edges that are drawn.  When some node is in focus, an edge is drawn if it
touches one, and a node if it is in focus or on a drawn edge. -/
def select (graph : Graph) (focus : String) (withExternal : Bool) : List String × List Edge :=
  let nodes := candidateNodes graph withExternal
  let edges := candidateEdges graph withExternal
  let focused := nodes.filter (inFocus focus)
  if focus.isEmpty || focused.isEmpty then (nodes, edges)
  else
    let touching := edges.filter fun edge =>
      focused.contains edge.source || focused.contains edge.target
    let shown node := focused.contains node
      || touching.any fun edge => edge.source == node || edge.target == node
    (nodes.filter shown, touching)

/-- How a node is drawn, given the nodes that are on cycles. -/
def markOf (graph : Graph) (onCycles : List String) (node : String) : Mark :=
  if !graph.nodes.contains node then .dashed
  else if onCycles.contains node then .red
  else .plain

/-- The drawing of a graph. -/
def ofGraph (graph : Graph) (focus : String) (withExternal : Bool) : Drawing :=
  let (nodes, edges) := select graph focus withExternal
  let onCycles := graph.cycles.flatten
  { nodes := nodes.map fun node => (node, markOf graph onCycles node), edges }

/-! ## DOT -/

/-- A character inside quotes. -/
def escapeChar (c : Char) : List Char :=
  if c = '\\' ∨ c = '"' then ['\\', c] else [c]

/-- A text in quotes. -/
def quoted (text : String) : String :=
  String.ofList ('"' :: (text.toList.flatMap escapeChar ++ ['"']))

/-- The line of a node. -/
def nodeLine (node : String × Mark) : String :=
  "  " ++ quoted node.1 ++ " [label=" ++ quoted node.1 ++ node.2.attributes ++ "];\n"

/-- The line of an edge. -/
def edgeLine (edge : Edge) : String :=
  "  " ++ quoted edge.source ++ " -> " ++ quoted edge.target
    ++ " [label=" ++ quoted edge.kind.label ++ "];\n"

/-- The text of a drawing. -/
def render (drawing : Drawing) : String :=
  "digraph Dependencies \x7b\n  rankdir=LR;\n"
    ++ String.join (drawing.nodes.map nodeLine)
    ++ String.join (drawing.edges.map edgeLine)
    ++ "\x7d\n"

end Drawing

/-- The graph in the DOT language. -/
def Graph.dot (graph : Graph) (focus : String) (withExternal : Bool) : String :=
  (Drawing.ofGraph graph focus withExternal).render

end Dependency
end CodeAtlas
