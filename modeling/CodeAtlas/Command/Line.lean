import CodeAtlas.Command.Options
import CodeAtlas.Entity

/-!
# Command lines

What a command line asks for.  Options of the program stand before the command, options of the
command anywhere after it.
-/

namespace CodeAtlas
namespace Command

/-- What to do with the result of an analysis. -/
structure Export where
  asJson : Bool
  dot : Option String
  graphJson : Option String
  focus : String
  withExternal : Bool
  deriving DecidableEq

/-- What is asked about a project. -/
inductive Request where
  | analyze (exports : Export)
  | callers (name : String) (file : Option String) (members : Bool)
  | callees (name : String)
  | search (pattern : String) (kind : Option EntityKind)
  | entity (name : String)
  | dependents (file : String)
  | dependencies (file : String)
  | cycles
  | summary
  deriving DecidableEq

/-- A command line that asks about a project. -/
structure Line where
  verbose : Bool
  settingsFile : Option String
  project : String
  request : Request
  deriving DecidableEq

/-- What a command line asks for. -/
inductive Invocation where
  /-- The version; the settings file, if one is named, must exist. -/
  | version (settingsFile : Option String)
  | run (line : Line)
  deriving DecidableEq

/-! ## Options -/

/-- An option without a value. -/
def switch (name : String) (letter : Option Char) : OptionForm := ⟨name, letter, false⟩

/-- An option with a value. -/
def valued (name : String) (letter : Option Char) : OptionForm := ⟨name, letter, true⟩

/-- The options of the program. -/
def programOptions : List OptionForm :=
  [switch "version" (some 'V'), switch "verbose" (some 'v'), valued "config" (some 'c')]

/-- The commands. -/
inductive Verb where
  | analyze
  | callers
  | callees
  | search
  | entity
  | dependents
  | dependencies
  | cycles
  | summary
  deriving DecidableEq

namespace Verb

/-- The commands by name. -/
def all : List (String × Verb) :=
  [("analyze", .analyze), ("callers", .callers), ("callees", .callees), ("search", .search),
    ("entity", .entity), ("dependents", .dependents), ("dependencies", .dependencies),
    ("cycles", .cycles), ("summary", .summary)]

/-- The options of a command. -/
def options : Verb → List OptionForm
  | .analyze =>
    [switch "json" none, valued "dot" none, valued "graph-json" none, valued "focus" none,
      switch "include-external" none]
  | .callers => [valued "file" (some 'f'), switch "member" (some 'm')]
  | .search => [valued "kind" (some 'k')]
  | _ => []

/-- The arguments of a command behind the project. -/
def arguments : Verb → List String
  | .callers | .callees | .entity => ["NAME"]
  | .search => ["PATTERN"]
  | .dependents | .dependencies => ["FILE_PATH"]
  | .analyze | .cycles | .summary => []

end Verb

/-! ## Reading a command line -/

/-- The kind that a search is limited to. -/
def kindOption (scan : Scan) : Except Misuse (Option EntityKind) :=
  match scan.value? "kind" with
  | none => .ok none
  | some label =>
    match EntityKind.all.find? (·.label == label) with
    | some kind => .ok (some kind)
    | none => .error (.unknownKind label)

/-- The request of a command with its options and its argument behind the project, if it has
one. -/
def Verb.request (verb : Verb) (scan : Scan) (argument : String) : Except Misuse Request :=
  match verb with
  | .analyze =>
    .ok (.analyze
      { asJson := scan.has "json"
        dot := scan.value? "dot"
        graphJson := scan.value? "graph-json"
        focus := (scan.value? "focus").getD ""
        withExternal := scan.has "include-external" })
  | .callers => .ok (.callers argument (scan.value? "file") (scan.has "member"))
  | .callees => .ok (.callees argument)
  | .search => (kindOption scan).map (.search argument)
  | .entity => .ok (.entity argument)
  | .dependents => .ok (.dependents argument)
  | .dependencies => .ok (.dependencies argument)
  | .cycles => .ok .cycles
  | .summary => .ok .summary

/-- The values of arguments, one for each name. -/
def matchArguments : List String → List String → Except Misuse (List String)
  | [], [] => .ok []
  | [], extra :: _ => .error (.argumentUnexpected extra)
  | name :: _, [] => .error (.argumentMissing name)
  | _ :: names, value :: values => (matchArguments names values).map (value :: ·)

/-- The project and the request that the words behind a command ask for. -/
def Verb.read (verb : Verb) (words : List String) : Except Misuse (String × Request) := do
  let scan ← Scan.words verb.options true words
  let arguments ← matchArguments ("PROJECT_PATH" :: verb.arguments) scan.arguments
  let request ← verb.request scan ((arguments.drop 1).headD "")
  return (arguments.headD "", request)

/-- Reads a command line.  Asking for the version leaves the rest unread.  Words that stand where
the command should, and name none, are read once more as options of the program; only asking for
the version helps there. -/
def Invocation.read (words : List String) : Except Misuse Invocation := do
  let scan ← Scan.words programOptions false words
  if scan.has "version" then return .version none
  match scan.arguments with
  | [] => .error .commandMissing
  | command :: rest =>
    match Verb.all.lookup command with
    | none =>
      let again ← Scan.words programOptions false (command :: rest)
      if again.has "version" then return .version (scan.value? "config")
      else .error (.unknownCommand command)
    | some verb =>
      let (project, request) ← verb.read rest
      return .run
        { verbose := scan.has "verbose", settingsFile := scan.value? "config", project, request }

end Command
end CodeAtlas
