import CodeAtlas.Analysis
import CodeAtlas.Dependency.Document

/-!
# Results as documents

The parts of a result as values, with the keys and the order of the documents they appear in.
-/

namespace CodeAtlas
namespace Report

/-- An optional value, or null. -/
def optional {α : Type} (toValue : α → Value) : Option α → Value
  | some a => toValue a
  | none => .null

/-- A natural number as a value. -/
def natural (n : Nat) : Value := .int n

/-- A list of texts as a value. -/
def texts (items : List String) : Value := .list (items.map .text)

/-- A place in a file. -/
def location (l : Location) : Value :=
  .table [("file_path", .text l.file), ("line", .int l.line), ("column", .int l.column)]

/-- A reference to an entity. -/
def entityRef (ref : EntityRef) : Value :=
  .table
    [("file_path", .text ref.file), ("qualified_name", .text ref.name),
      ("start_line", .int ref.line)]

/-- An issue. -/
def issue (i : Issue) : Value :=
  .table
    [("rule", .text i.rule), ("severity", .text i.severity.label), ("message", .text i.message),
      ("location", location i.location), ("entity", optional entityRef i.entity)]

/-- A range. -/
def range (r : SourceRange) : Value :=
  .table
    [("start_line", .int r.startLine), ("start_column", .int r.startColumn),
      ("end_line", .int r.endLine), ("end_column", .int r.endColumn)]

/-- A signature under a name. -/
def signature (name : String) (s : Signature) : Value :=
  .table
    [("parameters", texts s.parameters), ("return_type", optional .text s.returnType),
      ("is_async", .bool s.isAsync), ("parameter_count", natural s.parameterCount),
      ("text", .text (s.render name))]

/-- An entity. -/
def entity (e : Entity) : Value :=
  .table
    [("qualified_name", .text e.name), ("kind", .text e.kind.label), ("file_path", .text e.file),
      ("range", range e.range), ("signature", optional (signature e.simpleName) e.signature),
      ("complexity", optional .int e.complexity), ("issues", .list (e.issues.map issue))]

/-- A reference to a module. -/
def reference (r : Reference) : Value :=
  .table
    [("specifier", .text r.specifier), ("kind", .text r.kind.label), ("line", .int r.line),
      ("names", texts r.names)]

/-- A call. -/
def callEdge (e : Call.Edge) : Value :=
  .table
    [("caller", entityRef e.caller), ("callee", .text e.callee.name),
      ("resolved", .bool e.callee.isResolved),
      ("callee_entity", optional entityRef e.callee.entity?), ("raw_callee", .text e.raw),
      ("location", location e.location)]

/-- What was found in a file. -/
def fileResult (f : FileResult) : Value :=
  .table
    [("filePath", .text f.path), ("entities", .list (f.entities.map entity)),
      ("issues", .list (f.issues.map issue)), ("imports", .list (f.references.map reference)),
      ("complexity", .int f.complexity), ("parseError", optional .text f.parseError)]

/-- A summary, whose average is written by `number`. -/
def summary (number : Number.Binary64 → Value) (s : Summary) : Value :=
  .table
    [("total_files", natural s.totalFiles), ("total_entities", natural s.totalEntities),
      ("entities_by_kind",
        .table (s.entitiesByKind.map fun entry => (entry.1.label, natural entry.2))),
      ("average_complexity", number s.averageComplexity),
      ("total_issues", natural s.totalIssues),
      ("issues_by_severity",
        .table (s.issuesBySeverity.map fun entry => (entry.1.label, natural entry.2))),
      ("total_dependency_edges", natural s.totalDependencyEdges),
      ("total_cycles", natural s.totalCycles), ("total_call_edges", natural s.totalCallEdges),
      ("unresolved_calls", natural s.unresolvedCalls),
      ("parse_failures", natural s.parseFailures)]

/-- The whole result of an analysis, whose average is written by `number`. -/
def analysis (number : Number.Binary64 → Value) (a : Analysis) : Value :=
  .table
    [("results", .list (a.perFile.map fileResult)),
      ("dependencyGraph", a.snapshot.dependencies.toValue),
      ("summary", summary number a.snapshot.summary)]

end Report
end CodeAtlas
