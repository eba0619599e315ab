import CodeAtlas.Dependency.Graph
import CodeAtlas.Json.Writer

/-!
# The dependency graph as a document
-/

namespace CodeAtlas
namespace Dependency

/-- A list of texts as a value. -/
def textsValue (texts : List String) : Value := .list (texts.map .text)

/-- An edge as a value. -/
def Edge.toValue (edge : Edge) : Value :=
  .table
    [("from", .text edge.source), ("to", .text edge.target), ("type", .text edge.kind.label),
      ("specifier", .text edge.specifier), ("external", .bool edge.external)]

/-- A graph as a value: its nodes, its edges and its circular dependencies. -/
def Graph.toValue (graph : Graph) : Value :=
  .table
    [("nodes", textsValue graph.nodes), ("edges", .list (graph.edges.map Edge.toValue)),
      ("circularDependencies", .list (graph.cycles.map textsValue))]

/-- A graph as a JSON document. -/
def Graph.json (graph : Graph) : String := Json.render Json.indented graph.toValue

end Dependency
end CodeAtlas
