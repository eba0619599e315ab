import CodeAtlas.Call.Graph
import CodeAtlas.Dependency.Graph
import CodeAtlas.Issue.Basic
import CodeAtlas.Text.Case
import CodeAtlas.Text.Glob
import CodeAtlas.Value.Basic

/-!
# Snapshots

A snapshot is what one analysis knows of a codebase: its files, its entities and both graphs.
-/

namespace CodeAtlas

/-- A file of a codebase. -/
structure SourceFile where
  path : String
  text : String
  language : Language
  entities : List EntityRef
  references : List Reference
  parseError : Option String
  deriving DecidableEq

/-- The state of a codebase. -/
structure Snapshot where
  /-- The files, each path once. -/
  files : List SourceFile
  entities : List Entity
  calls : Call.Graph
  dependencies : Dependency.Graph
  /-- Issues about files as such. -/
  fileIssues : List Issue

namespace Snapshot

/-! ## Construction -/

/-- Files with each path once: a later file takes the place of an earlier one. -/
def distinctFiles (files : List SourceFile) : List SourceFile :=
  (files.foldl (fun entries file => putEntry file.path file entries) []).map (·.2)

/-- The entity with a given reference. -/
def entityWith? (entities : List Entity) (ref : EntityRef) : Option Entity :=
  entities.find? (·.ref == ref)

/-- The first reference that a file lists and that is no entity of that file. -/
def undeclared? (entities : List Entity) (file : SourceFile) : Option EntityRef :=
  file.entities.find? fun ref =>
    match entityWith? entities ref with
    | some entity => entity.file != file.path
    | none => true

/-- A snapshot of parts that fit together. -/
def build (files : List SourceFile) (entities : List Entity) (calls : Call.Graph)
    (dependencies : Dependency.Graph) (fileIssues : List Issue) : Except Failure Snapshot :=
  let files := distinctFiles files
  if ¬ (entities.map Entity.ref).Nodup then .error (.violated .duplicateEntity)
  else
    match files.findSome? (undeclared? entities) with
    | some ref => .error (.violated (.undeclaredEntity ref))
    | none => .ok { files, entities, calls, dependencies, fileIssues }

/-! ## Look-ups -/

/-- The file with a path. -/
def file? (snapshot : Snapshot) (path : String) : Option SourceFile :=
  snapshot.files.find? (·.path == path)

/-- The entity with a reference. -/
def resolve? (snapshot : Snapshot) (ref : EntityRef) : Option Entity :=
  entityWith? snapshot.entities ref

/-- The entities that a file lists. -/
def entitiesIn (snapshot : Snapshot) (path : String) : List Entity :=
  match snapshot.file? path with
  | some file => file.entities.filterMap snapshot.resolve?
  | none => []

/-- The issues about files, followed by those about entities. -/
def issues (snapshot : Snapshot) : List Issue :=
  snapshot.fileIssues ++ snapshot.entities.flatMap Entity.issues

/-- The entities with a qualified name. -/
def named (snapshot : Snapshot) (name : String) : List Entity :=
  snapshot.entities.filter (·.name == name)

/-- The first entity with a qualified name. -/
def entity? (snapshot : Snapshot) (name : String) : Except Failure (Option Entity) :=
  if Text.isBlank name then .error (.invalid .entityNameRequired)
  else .ok (snapshot.named name).head?

/-! ## Search -/

/-- Whether a pattern matches a name, both in lower case: a glob as a whole, anything else as a
part. -/
def nameMatches (pattern name : String) : Bool :=
  let pattern := (Text.lower pattern).toList
  let name := (Text.lower name).toList
  if Text.isGlob pattern then Text.globMatches pattern name else Text.hasPart pattern name

/-- The entities whose name matches a pattern, of one kind where it is given. -/
def search (snapshot : Snapshot) (pattern : String) (kind : Option EntityKind) :
    Except Failure (List Entity) :=
  match kind with
  | some (.other label) => .error (.invalid (.unknownKind label))
  | _ =>
    .ok (snapshot.entities.filter fun entity =>
      (kind.isNone || kind == some entity.kind) && nameMatches pattern entity.name)

end Snapshot
end CodeAtlas
