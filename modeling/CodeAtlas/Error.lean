import CodeAtlas.Entity

/-!
# Causes of failure

A request fails because it is malformed, because it names a file that is not part of the
codebase, or because parts of a snapshot do not fit together.
-/

namespace CodeAtlas

/-- What is wrong with a request. -/
inductive InvalidInput where
  | filesRequired
  | filePathMissing (index : Nat)
  | fileContentMissing (index : Nat)
  | duplicateFile (path : String)
  | functionNameRequired
  | entityNameRequired
  | filePathRequired
  | patternRequired
  | unknownKind (label : String)
  /-- A whole setting that is no natural number; `found` is the literal of what it is. -/
  | notNatural (key found : String)
  | notTable (key : String)
  | notList (key : String)
  | malformedSettings (file : String)
  | settingsNotTable (file : String)
  | settingsNotFound (file : String)
  deriving DecidableEq

namespace InvalidInput

/-- The text of a cause. -/
def message : InvalidInput → String
  | .filesRequired => "Files array is required"
  | .filePathMissing index => s!"files[{index}].path must be a non-empty string"
  | .fileContentMissing index => s!"files[{index}].content must be a string"
  | .duplicateFile path => s!"Duplicate file path: {path}"
  | .functionNameRequired => "A function name is required"
  | .entityNameRequired => "functionName is required"
  | .filePathRequired => "filePath is required"
  | .patternRequired => "pattern is required"
  | .unknownKind label =>
    let known := ", ".intercalate (EntityKind.all.map EntityKind.label)
    s!"Unknown entity kind '{label}', expected one of {known}"
  | .notNatural key found => s!"Setting '{key}' must be a non-negative integer, got {found}"
  | .notTable key => s!"Setting '{key}' must be a table"
  | .notList key => s!"Setting '{key}' must be a list"
  | .malformedSettings file => s!"Invalid config file {file}"
  | .settingsNotTable file => s!"[analysis] in {file} must be a table"
  | .settingsNotFound file => s!"Config file not found: {file}"

end InvalidInput

/-- How the parts of a snapshot fail to fit together. -/
inductive Violation where
  | callerOutside (ref : EntityRef)
  | calleeOutside (ref : EntityRef)
  | dependencyOutside (file : String)
  | duplicateEntity
  | undeclaredEntity (ref : EntityRef)
  | reported (problem : String) (detail : Option String)
  deriving DecidableEq

namespace Violation

/-- The text of a violation. -/
def message : Violation → String
  | .callerOutside ref => s!"Call edge references a caller outside the snapshot: {ref.display}"
  | .calleeOutside ref => s!"Call edge resolves to an entity outside the snapshot: {ref.display}"
  | .dependencyOutside file => s!"Dependency edge starts outside the snapshot: {file}"
  | .duplicateEntity => "Duplicate entity identity in snapshot"
  | .undeclaredEntity ref => s!"File lists an entity it does not declare: {ref.display}"
  | .reported problem none => problem
  | .reported problem (some detail) => s!"{problem}: {detail}"

end Violation

/-- Why a request fails. -/
inductive Failure where
  | invalid (cause : InvalidInput)
  | notFound (file : String)
  | violated (violation : Violation)
  deriving DecidableEq

namespace Failure

/-- The text of a failure. -/
def message : Failure → String
  | .invalid cause => cause.message
  | .notFound file => s!"File not found in analyzed codebase: {file}"
  | .violated violation => violation.message

end Failure
end CodeAtlas
