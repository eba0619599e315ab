import CodeAtlas.Complexity
import CodeAtlas.Declaration.Extract
import CodeAtlas.Issue.Rules
import CodeAtlas.Snapshot.Summary

/-!
# Analysis

Files go in, a snapshot comes out.  Each file is read on its own; calls and references are linked
across files afterwards.
-/

namespace CodeAtlas

/-! ## Input -/

/-- A file to be analysed. -/
structure InputFile where
  path : String
  content : String
  deriving DecidableEq

namespace InputFile

/-- The file that an item of the request stands for. -/
def ofValue (index : Nat) (item : Value) : Except InvalidInput InputFile :=
  match (item.get? "path").bind Value.asText? with
  | none => .error (.filePathMissing index)
  | some path =>
    if Text.isBlank path then .error (.filePathMissing index)
    else
      match (item.get? "content").bind Value.asText? with
      | none => .error (.fileContentMissing index)
      | some content => .ok { path, content }

/-- The files of the items from an index on, given the paths before it. -/
def ofValuesFrom (index : Nat) (seen : List String) :
    List Value → Except InvalidInput (List InputFile)
  | [] => .ok []
  | item :: items => do
    let file ← ofValue index item
    if seen.contains file.path then .error (.duplicateFile file.path)
    else
      let files ← ofValuesFrom (index + 1) (file.path :: seen) items
      return file :: files

/-- The files of a request: a list of items with a path and a content, no path twice. -/
def validate : Value → Except InvalidInput (List InputFile)
  | .list items => ofValuesFrom 0 [] items
  | _ => .error .filesRequired

end InputFile

/-! ## One file -/

/-- What is found in one file. -/
structure FileResult where
  path : String
  entities : List Entity
  issues : List Issue
  references : List Reference
  parseError : Option String
  deriving DecidableEq

/-- The sum of the complexities in a file. -/
def FileResult.complexity (result : FileResult) : Int :=
  total (result.entities.filterMap Entity.complexity)

/-- A file after it has been read: its source and declarations, each with its reference, and what
was found. -/
structure FileAnalysis where
  file : InputFile
  source : Tree.Source
  declarations : List (EntityRef × Declaration)
  result : FileResult

namespace FileAnalysis

/-- The declarations whose reference has not come up before. -/
def distinctRefs (seen : List EntityRef) :
    List (EntityRef × Declaration) → List (EntityRef × Declaration)
  | [] => []
  | entry :: entries =>
    if seen.contains entry.1 then distinctRefs seen entries
    else entry :: distinctRefs (entry.1 :: seen) entries

/-- The declarations of a file with their references.  Of two with the same reference the first
counts. -/
def declared (tree : SourceTree) : List (EntityRef × Declaration) :=
  distinctRefs [] (tree.declarations.map fun declaration =>
    (⟨tree.path, declaration.name, (declaration.range tree.source).startLine⟩, declaration))

/-- The entity of a declaration. -/
def entityOf (settings : Settings) (source : Tree.Source) (entry : EntityRef × Declaration) :
    Entity :=
  let (ref, declaration) := entry
  let range := declaration.range source
  let complexity := declaration.complexity?.map Int.ofNat
  let subject : Subject :=
    { ref, kind := declaration.kind, range, signature := declaration.signature, complexity }
  { name := declaration.name, kind := declaration.kind, file := ref.file, range
    signature := declaration.signature, complexity
    issues := (detect settings Rule.defaults subject).issues }

/-- What is found in a file that could be read. -/
def ofTree (settings : Settings) (file : InputFile) (tree : SourceTree) : FileAnalysis :=
  let declarations := declared tree
  let entities := declarations.map (entityOf settings tree.source)
  { file, source := tree.source, declarations
    result :=
      { path := file.path, entities, issues := entities.flatMap Entity.issues
        references := tree.references, parseError := none } }

/-- What is found in a file that could not be read. -/
def ofFailure (file : InputFile) (failure : ParseFailure) : FileAnalysis :=
  { file, source := ⟨[]⟩, declarations := []
    result :=
      { path := file.path, entities := [], issues := [failure.issue], references := []
        parseError := some failure.reason } }

/-- The failure of a file in a language without a grammar. -/
def unsupported (path : String) : ParseFailure :=
  { path, reason := s!"no {(Language.ofPath path).label} grammar available", line := 1, column := 0 }

/-- Reads one file, if there is a grammar for it. -/
def analyze (settings : Settings) (grammars : Grammars) (file : InputFile) : FileAnalysis :=
  if grammars.supports file.path then
    match grammars.parse settings.tolerantParsing file.path file.content with
    | .ok tree => ofTree settings file tree
    | .error failure => ofFailure file failure
  else ofFailure file (unsupported file.path)

/-- The file of a snapshot. -/
def sourceFile (analysis : FileAnalysis) : SourceFile :=
  { path := analysis.file.path
    text := analysis.file.content
    language := Language.ofPath analysis.file.path
    entities := analysis.result.entities.map Entity.ref
    references := analysis.result.references
    parseError := analysis.result.parseError }

/-- The issues about the file as such. -/
def fileIssues (analysis : FileAnalysis) : List Issue :=
  if analysis.result.parseError.isSome then analysis.result.issues else []

/-- What is reported about a file that could not be read. -/
def warnings (analysis : FileAnalysis) : List Warning :=
  (analysis.result.parseError.map (Warning.unreadable analysis.file.path)).toList

/-- The calls in a file. -/
def callEdges (resolver : Call.Resolver) (analysis : FileAnalysis) : List Call.Edge :=
  analysis.declarations.flatMap fun entry =>
    Call.edgesOf analysis.source resolver entry.1 entry.2

end FileAnalysis

/-! ## All files -/

/-- The result of an analysis: what was found in each file, the snapshot, and what was reported on
the way. -/
structure Analysis where
  snapshot : Snapshot
  perFile : List FileResult
  warnings : List Warning

namespace Analysis

/-- Links files that have been read into a snapshot. -/
def link (settings : Settings) (files : List FileAnalysis) : Except Failure Analysis := do
  let entities := files.flatMap (·.result.entities)
  let refs := entities.map Entity.ref
  let resolver : Call.Resolver := ⟨entities.map fun entity => (entity.ref, entity.kind)⟩
  let calls ← Call.Graph.build (files.flatMap (·.callEdges resolver)) refs
  let paths := files.map (·.file.path)
  let specifiers := Dependency.Specifiers.ofFiles paths settings.pathAliases
  let references := files.map fun file => (file.file.path, file.result.references)
  let dependencies ←
    Dependency.Graph.build paths (Dependency.edgesOf specifiers references) settings.maxCycles
  let snapshot ←
    Snapshot.build (files.map (·.sourceFile)) entities calls dependencies
      (files.flatMap (·.fileIssues))
  return { snapshot, perFile := files.map (·.result), warnings := files.flatMap (·.warnings) }

end Analysis

/-- Analyses files. -/
def analyzeFiles (settings : Settings) (grammars : Grammars) (files : List InputFile) :
    Except Failure Analysis :=
  Analysis.link settings (files.map (FileAnalysis.analyze settings grammars))

/-- Analyses the files of a request. -/
def analyze (settings : Settings) (grammars : Grammars) (request : Value) :
    Except Failure Analysis :=
  match InputFile.validate request with
  | .error cause => .error (.invalid cause)
  | .ok files => analyzeFiles settings grammars files

end CodeAtlas
