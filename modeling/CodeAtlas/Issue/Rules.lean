import CodeAtlas.Issue.Basic
import CodeAtlas.Parsing
import CodeAtlas.Settings.Basic

/-!
# Rules

A rule looks at one entity and reports what it finds.  Rules are independent: one that fails is
skipped, and the findings of the others are joined in order.
-/

namespace CodeAtlas

/-- What a rule may look at. -/
structure Subject where
  ref : EntityRef
  kind : EntityKind
  range : SourceRange
  signature : Option Signature
  complexity : Option Int

namespace Subject

/-- The place that an issue about an entity points to. -/
def location (subject : Subject) : Location :=
  ⟨subject.ref.file, subject.range.startLine, subject.range.startColumn⟩

/-- An issue about an entity. -/
def issue (subject : Subject) (rule : String) (severity : Severity) (message : String) : Issue :=
  { rule, severity, message, location := subject.location, entity := some subject.ref }

end Subject

/-- A rule that may fail. -/
structure Rule where
  name : String
  check : Settings → Subject → Except String (List Issue)

namespace Rule

/-! ## The rules -/

/-- Reports a complexity above its limit. -/
def highComplexity (settings : Settings) (subject : Subject) : List Issue :=
  let limit := settings.maxComplexity
  match subject.complexity with
  | none => []
  | some score =>
    if score ≤ limit then []
    else
      [subject.issue "high-complexity" .warning
        s!"High complexity: '{subject.ref.name}' scores {score} (limit {limit})"]

/-- Reports more parameters than their limit. -/
def tooManyParameters (settings : Settings) (subject : Subject) : List Issue :=
  let limit := settings.maxParameters
  match subject.signature with
  | none => []
  | some signature =>
    let count := signature.parameterCount
    if count ≤ limit then []
    else
      [subject.issue "too-many-parameters" .info
        s!"Too many parameters: '{subject.ref.name}' takes {count} (limit {limit})"]

/-- What the length of an entity of a kind is called and limited by. -/
def lengthLimit? (settings : Settings) (kind : EntityKind) : Option (String × Nat) :=
  if kind.isCallable then some ("function", settings.maxFunctionLines)
  else if kind = .classDef then some ("class", settings.maxClassLines)
  else none

/-- Reports a function or class with more lines than their limit. -/
def longBody (settings : Settings) (subject : Subject) : List Issue :=
  match lengthLimit? settings subject.kind with
  | none => []
  | some (noun, limit) =>
    let lines := subject.range.lineCount
    if lines ≤ limit then []
    else
      [subject.issue ("long-" ++ noun) .info
        s!"Long {noun}: '{subject.ref.name}' spans {lines} lines (limit {limit})"]

/-- A rule that cannot fail. -/
def total (name : String) (check : Settings → Subject → List Issue) : Rule :=
  { name, check := fun settings subject => .ok (check settings subject) }

/-- The rules of every analysis. -/
def defaults : List Rule :=
  [total "high_complexity" highComplexity, total "too_many_parameters" tooManyParameters,
    total "long_body" longBody]

end Rule

/-! ## Detection -/

/-- What rules find about one entity, and the names of those that failed. -/
structure Findings where
  issues : List Issue
  skipped : List String

/-- Applies rules to one entity, in order. -/
def detect (settings : Settings) (rules : List Rule) (subject : Subject) : Findings :=
  match rules with
  | [] => ⟨[], []⟩
  | rule :: others =>
    let rest := detect settings others subject
    match rule.check settings subject with
    | .ok issues => { rest with issues := issues ++ rest.issues }
    | .error _ => { rest with skipped := rule.name :: rest.skipped }

/-- The issue of a file that could not be read. -/
def ParseFailure.issue (failure : ParseFailure) : Issue :=
  { rule := "parse-error"
    severity := .error
    message := s!"Could not parse file: {failure.reason}"
    location := ⟨failure.path, failure.line, failure.column⟩
    entity := none }

end CodeAtlas
