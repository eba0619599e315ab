import CodeAtlas.Number.Binary64
import CodeAtlas.Snapshot.Basic

/-!
# Summaries

The counts of a snapshot.
-/

namespace CodeAtlas

/-- The counts of a snapshot. -/
structure Summary where
  totalFiles : Nat
  totalEntities : Nat
  entitiesByKind : List (EntityKind × Nat)
  averageComplexity : Number.Binary64
  totalIssues : Nat
  issuesBySeverity : List (Severity × Nat)
  totalDependencyEdges : Nat
  totalCycles : Nat
  totalCallEdges : Nat
  unresolvedCalls : Nat
  parseFailures : Nat
  deriving DecidableEq

/-- The sum of whole numbers. -/
def total (scores : List Int) : Int := scores.foldr (· + ·) 0

/-- The average of whole numbers, rounded to hundredths; zero where there is none. -/
def average (scores : List Int) : Number.Binary64 :=
  if scores.isEmpty then .zero
  else (Number.Binary64.ofQuotient (total scores) scores.length).roundToHundredths

/-- The summary of a snapshot. -/
def Snapshot.summary (snapshot : Snapshot) : Summary :=
  let issues := snapshot.issues
  { totalFiles := snapshot.files.length
    totalEntities := snapshot.entities.length
    entitiesByKind := EntityKind.all.map fun kind =>
      (kind, snapshot.entities.countP (·.kind == kind))
    averageComplexity := average (snapshot.entities.filterMap Entity.complexity)
    totalIssues := issues.length
    issuesBySeverity := Severity.all.map fun severity =>
      (severity, issues.countP (·.severity == severity))
    totalDependencyEdges := snapshot.dependencies.edges.length
    totalCycles := snapshot.dependencies.cycles.length
    totalCallEdges := snapshot.calls.edges.length
    unresolvedCalls := snapshot.calls.unresolvedCount
    parseFailures := snapshot.files.countP (·.parseError.isSome) }

end CodeAtlas
