import CodeAtlas.Language
import CodeAtlas.Tree.Source

/-!
# From texts to syntax trees

Grammars are supplied from outside: for each language there may be one, a map from texts to
finished trees.  A strict reading refuses a tree that holds an error; a tolerant one takes it as
it is.
-/

namespace CodeAtlas

/-- Why a file could not be read, and where. -/
structure ParseFailure where
  path : String
  reason : String
  line : Int
  column : Int
  deriving DecidableEq

/-- The text of a failure. -/
def ParseFailure.message (failure : ParseFailure) : String :=
  s!"{failure.path}:{failure.line}:{failure.column}: {failure.reason}"

/-- The grammars at hand: for each language, how its texts become trees, if there is a way. -/
structure Grammars where
  grammar? : Language → Option (String → Tree.Node)

namespace Grammars

/-- Whether there is a grammar for a file. -/
def supports (grammars : Grammars) (path : String) : Bool :=
  (grammars.grammar? (Language.ofPath path)).isSome

/-- The tree of a text that is one error from end to end. -/
def unreadable (text : String) : Tree.Node :=
  .mk
    { number := 0, type := "ERROR", field := none, named := true, error := true, missing := false,
      hasError := true, start := 0, stop := text.utf8ByteSize } []

end Grammars

/-- A text of a language with its finished tree. -/
structure KnownTree where
  language : Language
  text : String
  root : Tree.Node

/-- Grammars for the given languages that know the trees of some texts, and can read no other. -/
def Grammars.ofTrees (languages : List Language) (known : List KnownTree) : Grammars where
  grammar? language :=
    if languages.contains language then
      some fun text =>
        ((known.find? fun tree => tree.language == language && tree.text == text).map
          KnownTree.root).getD (unreadable text)
    else none

/-- A file with its syntax tree. -/
structure SourceTree where
  path : String
  language : Language
  source : Tree.Source
  root : Tree.Node

/-- The failure of a strict reading whose first error is the given node. -/
def syntaxFailure (path : String) (source : Tree.Source) (error : Tree.Node) : ParseFailure :=
  let point := source.startPoint error
  let problem := if error.label.missing then "missing token" else "unexpected input"
  { path, reason := s!"syntax error ({problem})", line := point.line, column := point.column }

/-- The failure of a reading for which the package of the language has no grammar.  A file without
a name goes by its language. -/
def grammarFailure (path : String) (language : Language) : ParseFailure :=
  let package := language.grammarPackage
  { path := if path.isEmpty then language.label else path
    reason :=
      s!"grammar '{package}' unavailable for {language.label}: "
        ++ s!"module '{package}' has no attribute '{language.grammarName}'"
    line := 1
    column := 0 }

/-- Reads a file. -/
def Grammars.parse (grammars : Grammars) (tolerant : Bool) (path text : String) :
    Except ParseFailure SourceTree :=
  let language := Language.ofPath path
  match grammars.grammar? language with
  | none => .error (grammarFailure path language)
  | some grammar =>
    let source := Tree.Source.ofText text
    let root := grammar text
    match root.firstError?, tolerant with
    | some error, false => .error (syntaxFailure path source error)
    | _, _ => .ok { path, language, source, root }

end CodeAtlas
