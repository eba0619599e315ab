import CodeAtlas.Entity

/-!
# Issues

An issue is a finding of a rule about an entity, or about a file that could not be read.
-/

namespace CodeAtlas

/-- How serious an issue is.  Snapshots may hold severities of other tools, which are kept by
name. -/
inductive Severity where
  | info
  | warning
  | error
  | other (label : String)
  deriving DecidableEq

namespace Severity

/-- The severities of the rules here, in the order of reports. -/
def all : List Severity := [.info, .warning, .error]

/-- The name of a severity. -/
def label : Severity → String
  | .info => "info"
  | .warning => "warning"
  | .error => "error"
  | .other label => label

/-- The severity with a given name. -/
def ofLabel (label : String) : Severity :=
  (all.find? (·.label == label)).getD (.other label)

end Severity

/-- A finding. -/
structure Issue where
  rule : String
  severity : Severity
  message : String
  location : Location
  entity : Option EntityRef
  deriving DecidableEq

/-- An entity of a snapshot. -/
structure Entity where
  name : String
  kind : EntityKind
  file : String
  range : SourceRange
  signature : Option Signature
  complexity : Option Int
  issues : List Issue
  deriving DecidableEq

/-- The reference of an entity. -/
def Entity.ref (entity : Entity) : EntityRef :=
  ⟨entity.file, entity.name, entity.range.startLine⟩

/-- The declared identifier of an entity, without the scopes it stands in. -/
def Entity.simpleName (entity : Entity) : String := QualifiedName.last entity.name

end CodeAtlas
