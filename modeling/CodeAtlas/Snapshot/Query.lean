import CodeAtlas.Dependency.Document
import CodeAtlas.Dependency.Drawing
import CodeAtlas.Snapshot.Summary

/-!
# Questions to a snapshot

Every question that a snapshot, or its dependency graph alone, can be asked, with its answer.
-/

namespace CodeAtlas

/-! ## Questions to a dependency graph -/

/-- A question to a dependency graph. -/
inductive GraphQuery where
  | dependents (file : String)
  | dependencies (file : String)
  | cycles
  | adjacency
  | dot (focus : String) (withExternal : Bool)
  | document
  deriving DecidableEq

/-- The answer of a dependency graph. -/
inductive GraphAnswer where
  | files (paths : List String)
  | cycles (cycles : List (List String))
  | adjacency (entries : List (String × List String))
  | text (text : String)

namespace GraphQuery

/-- Whether a question takes a search for cycles. -/
def searchesCycles : GraphQuery → Bool
  | .cycles | .dot _ _ | .document => true
  | _ => false

/-- The answer to a question. -/
def answer (graph : Dependency.Graph) : GraphQuery → Except Failure GraphAnswer
  | .dependents file => (graph.dependents file).map .files
  | .dependencies file => (graph.dependencies file).map .files
  | .cycles => .ok (.cycles graph.cycles)
  | .adjacency => .ok (.adjacency graph.adjacency.entries)
  | .dot focus withExternal => .ok (.text (graph.dot focus withExternal))
  | .document => .ok (.text graph.json)

end GraphQuery

/-! ## Questions to a snapshot -/

/-- A question to a snapshot. -/
inductive Query where
  | graph (query : GraphQuery)
  | callers (name : String) (file : Option String) (members : Bool)
  | callees (name : String)
  | search (pattern : Option String) (kind : Option EntityKind)
  | entity (name : String)
  | entities (name : String)
  | entitiesIn (file : String)
  | resolve (ref : EntityRef)
  | allEntities
  | issues
  | files
  | file (path : String)
  | callEdges
  | summary
  deriving DecidableEq

/-- The answer of a snapshot. -/
inductive Answer where
  | graph (answer : GraphAnswer)
  | calls (edges : List Call.Edge)
  | entities (entities : List Entity)
  | entity (entity : Option Entity)
  | issues (issues : List Issue)
  | files (files : List SourceFile)
  | file (file : Option SourceFile)
  | summary (summary : Summary)

namespace Query

/-- Whether a question takes a search for cycles. -/
def searchesCycles : Query → Bool
  | .graph query => query.searchesCycles
  | .summary => true
  | _ => false

/-- The answer to a question. -/
def answer (snapshot : Snapshot) : Query → Except Failure Answer
  | .graph query => (query.answer snapshot.dependencies).map .graph
  | .callers name within members => (snapshot.calls.callers name within members).map .calls
  | .callees name => (snapshot.calls.callees name).map .calls
  | .search none _ => .error (.invalid .patternRequired)
  | .search (some pattern) kind => (snapshot.search pattern kind).map .entities
  | .entity name => (snapshot.entity? name).map .entity
  | .entities name => .ok (.entities (snapshot.named name))
  | .entitiesIn path => .ok (.entities (snapshot.entitiesIn path))
  | .resolve ref => .ok (.entity (snapshot.resolve? ref))
  | .allEntities => .ok (.entities snapshot.entities)
  | .issues => .ok (.issues snapshot.issues)
  | .files => .ok (.files snapshot.files)
  | .file path => .ok (.file (snapshot.file? path))
  | .callEdges => .ok (.calls snapshot.calls.edges)
  | .summary => .ok (.summary snapshot.summary)

end Query

/-- What is reported when a graph searches its cycles, at most once. -/
def Dependency.Graph.warningsAfter (graph : Dependency.Graph) (searched : Bool) : List Warning :=
  if searched then graph.cycleWarnings else []

end CodeAtlas
