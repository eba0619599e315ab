import CodeAtlas.Dependency.Specifier
import CodeAtlas.Digraph.Cycles
import CodeAtlas.Error
import CodeAtlas.Text.Blank
import CodeAtlas.Warning

/-!
# The dependency graph

Its nodes are the analysed files.  Each reference is an edge; an external target appears on edges
only.
-/

namespace CodeAtlas
namespace Dependency

/-! ## Edges -/

/-- A dependency of one file. -/
structure Edge where
  source : String
  target : String
  kind : ReferenceKind
  specifier : String
  /-- The target is no analysed file. -/
  external : Bool
  deriving DecidableEq

/-- The edge of a reference in a file.  A specifier that means no file is itself the target. -/
def edgeOf (specifiers : Specifiers) (file : String) (reference : Reference) : Edge :=
  match specifiers.resolve? file reference.specifier with
  | some target =>
    { source := file, target, kind := reference.kind, specifier := reference.specifier,
      external := false }
  | none =>
    { source := file, target := reference.specifier, kind := reference.kind,
      specifier := reference.specifier, external := true }

/-- One edge for each reference, by file and then by place. -/
def edgesOf (specifiers : Specifiers) (references : List (String × List Reference)) : List Edge :=
  references.flatMap fun entry => entry.2.map (edgeOf specifiers entry.1)

/-! ## Graphs -/

/-- A dependency graph.  Every edge starts at a node. -/
structure Graph where
  nodes : List String
  edges : List Edge
  /-- The number of cycles after which a search for them stops, or zero. -/
  maxCycles : Int
  source_mem : ∀ edge ∈ edges, edge.source ∈ nodes

namespace Graph

/-- The graph of given nodes and edges. -/
def build (nodes : List String) (edges : List Edge) (maxCycles : Int) : Except Failure Graph :=
  if h : ∀ edge ∈ edges, edge.source ∈ nodes then
    .ok { nodes, edges, maxCycles, source_mem := h }
  else
    let outside := (edges.map Edge.source).find? (!nodes.contains ·)
    .error (.violated (.dependencyOutside (outside.getD "")))

/-- The files that a file depends on, without external modules and without repeats. -/
def targets (graph : Graph) (file : String) : List String :=
  ((graph.edges.filter fun edge => edge.source == file && !edge.external).map Edge.target).eraseDups

/-- The adjacency of the files. -/
def adjacency (graph : Graph) : Digraph.Adjacency String :=
  ⟨graph.nodes.eraseDups.map fun node => (node, graph.targets node)⟩

/-- The circular dependencies, and whether the limit cut the search short.  No node of a graph is
in a component with a file outside it, so the search does not fail. -/
def cycleReport (graph : Graph) : Digraph.CycleReport String :=
  match Digraph.cycles graph.nodes graph.adjacency graph.maxCycles with
  | .ok report => report
  | .error _ => ⟨[], false⟩

/-- The circular dependencies. -/
def cycles (graph : Graph) : List (List String) := graph.cycleReport.cycles

/-- What a search for circular dependencies reports. -/
def cycleWarnings (graph : Graph) : List Warning := graph.cycleReport.warnings graph.maxCycles

/-! ## Neighbours -/

/-- Whether a file is a node or the target of an edge. -/
def isKnown (graph : Graph) (file : String) : Bool :=
  graph.nodes.contains file || graph.edges.any (·.target == file)

/-- What is wrong with asking for the neighbours of a file. -/
def unknown? (graph : Graph) (file : String) : Option Failure :=
  if Text.isBlank file then some (.invalid .filePathRequired)
  else if graph.isKnown file then none
  else some (.notFound file)

/-- The files with an edge to a file, in the order of their first. -/
def dependents (graph : Graph) (file : String) : Except Failure (List String) :=
  match graph.unknown? file with
  | some failure => .error failure
  | none => .ok ((graph.edges.filter (·.target == file)).map Edge.source).eraseDups

/-- The targets of the edges of a file, in the order of their first. -/
def dependencies (graph : Graph) (file : String) : Except Failure (List String) :=
  match graph.unknown? file with
  | some failure => .error failure
  | none => .ok ((graph.edges.filter (·.source == file)).map Edge.target).eraseDups

end Graph
end Dependency
end CodeAtlas
