import CodeAtlas.Command.Disk
import CodeAtlas.Command.Line
import CodeAtlas.Command.Table
import CodeAtlas.Json.Writer
import CodeAtlas.Report
import CodeAtlas.Settings.File
import CodeAtlas.Snapshot.Query

/-!
# Carrying out a command line

A command line is carried out on a disk.  The outcome is what it prints, what it complains about,
and the disk with the files it has written.
-/

namespace CodeAtlas
namespace Command

/-- The name under which the program presents itself. -/
def programName : String := "codeanalysis"

/-- The version of the program. -/
def version : String := "0.1.0"

/-- What a command line is carried out in. -/
structure Environment where
  disk : Disk
  /-- The path of the settings file that counts when none is named. -/
  settingsFile : String
  /-- The switch for tolerant reading. -/
  switch : Option String
  /-- How files are analysed. -/
  engine : Settings → List InputFile → Except Failure Analysis

/-- Why a command line was not carried out to its end. -/
inductive Complaint where
  | misused (cause : Misuse)
  | failed (cause : Failure)
  | entityNotFound (name : String)
  | unwritable (path : String) (obstacle : Obstacle)
  deriving DecidableEq

namespace Complaint

/-- The exit code of a failure. -/
def failureCode : Failure → Nat
  | .notFound _ => 1
  | .invalid _ => 2
  | .violated _ => 3

/-- The exit code of a complaint. -/
def exitCode : Complaint → Nat
  | .misused _ => 2
  | .failed cause => failureCode cause
  | .entityNotFound _ => 1
  | .unwritable _ _ => 1

/-- The text of a complaint. -/
def message : Complaint → String
  | .misused cause => plainLine cause.message
  | .failed (.invalid cause) => plainLine s!"Invalid input: {cause.message}"
  | .failed (.notFound file) => plainLine (Failure.notFound file).message
  | .failed (.violated violation) => plainLine s!"Internal error: {violation.message}"
  | .entityNotFound name => plainLine s!"Entity '{name}' not found."
  | .unwritable path _ => plainLine s!"Cannot write {path}"

end Complaint

/-- What comes of a command line. -/
structure Outcome where
  output : String
  complaint : Option Complaint
  /-- What was reported on the way. -/
  log : List Warning
  /-- Whether the log is to be shown. -/
  verbose : Bool
  disk : Disk

/-- The exit code of an outcome. -/
def Outcome.exitCode (outcome : Outcome) : Nat :=
  (outcome.complaint.map Complaint.exitCode).getD 0

/-! ## Tables -/

/-- A table of entities. -/
def entityTable (title : String) (entities : List Entity) : Table :=
  { title
    columns := ["Name", "Kind", "Location", "Complexity", "Issues"]
    rows := entities.map fun e =>
      [e.name, e.kind.label, s!"{e.file}:{e.range.startLine}",
        (e.complexity.map toString).getD "-", toString e.issues.length] }

/-- A table of calls. -/
def callTable (title : String) (edges : List Call.Edge) : Table :=
  { title
    columns := ["Caller", "Callee", "Resolved", "Call site"]
    rows := edges.map fun e =>
      [e.caller.name, e.callee.name, if e.callee.isResolved then "yes" else "no",
        s!"{e.location.file}:{e.location.line}"] }

/-- The table of a summary. -/
def summaryTable (s : Summary) : Table :=
  let count (name : String) (n : Nat) : List String := [name, toString n]
  { title := "Codebase summary"
    columns := ["Metric", "Value"]
    rows :=
      [count "Files" s.totalFiles, count "Entities" s.totalEntities]
        ++ s.entitiesByKind.map (fun entry => count s!"  {entry.1.label}" entry.2)
        ++ [["Average complexity", s.averageComplexity.renderHundredths],
          count "Issues" s.totalIssues]
        ++ s.issuesBySeverity.map (fun entry => count s!"  {entry.1.label}" entry.2)
        ++ [count "Dependency edges" s.totalDependencyEdges,
          count "Circular dependencies" s.totalCycles, count "Call edges" s.totalCallEdges,
          count "Unresolved calls" s.unresolvedCalls, count "Parse failures" s.parseFailures] }

/-! ## Answers -/

/-- The lines of a list of files under a title, or what to say when there are none. -/
def listLines (title : String) (items : List String) (empty : String) : List String :=
  if items.isEmpty then [plainLine empty]
  else s!"[bold]{title}[/bold]" :: items.map fun item => plainLine s!"  {item}"

/-- The lines that show the cycles of a project. -/
def cycleLines (cycles : List (List String)) : List String :=
  if cycles.isEmpty then ["No circular dependencies found."]
  else
    s!"Found {cycles.length} circular dependencies:" ::
      cycles.map fun cycle => plainLine ("  " ++ " -> ".intercalate (cycle ++ cycle.take 1))

/-- The lines that sum an analysis up for reading. -/
def analysisLines (project : String) (analysis : Analysis) : List String :=
  let s := analysis.snapshot.summary
  let failures := analysis.perFile.filterMap fun file =>
    file.parseError.bind fun reason =>
      if reason.isEmpty then none else some s!"[red]✗ {file.path}: {reason}[/red]"
  let issues := analysis.snapshot.issues.map fun i =>
    plainLine
      s!"  [{i.severity.label}] {i.location.file}:{i.location.line} {i.rule}: {i.message}"
  [plainLine s!"Analyzed '{Path.spell project}'.",
    s!"Files: {s.totalFiles} | Entities: {s.totalEntities} | Issues: {s.totalIssues} "
      ++ s!"| Cycles: {s.totalCycles}"]
    ++ failures ++ issues

/-- The files to be written about an analysis, in order. -/
def exportedFiles (exports : Export) (graph : Dependency.Graph) : List (String × String) :=
  (exports.dot.map fun path => (path, graph.dot exports.focus exports.withExternal)).toList
    ++ (exports.graphJson.map fun path => (path, graph.json)).toList

/-- Writes files one after the other until one cannot be written. -/
def writeAll (disk : Disk) : List (String × String) → Disk × Option Complaint
  | [] => (disk, none)
  | (path, text) :: files =>
    match disk.write path text with
    | .ok disk => writeAll disk files
    | .error obstacle => (disk, some (.unwritable path obstacle))

/-- What is printed about an analysis after its files have been written. -/
def analysisLinesFor (project : String) (exports : Export) (analysis : Analysis) : List String :=
  if exports.asJson then [Json.render Json.indented (Report.analysis .real analysis)]
  else
    analysisLines project analysis
      ++ (exports.dot.toList ++ exports.graphJson.toList).map fun path =>
        plainLine s!"Dependency graph written to {Path.spell path}"

/-- The lines that answer a request other than for the analysis as a whole. -/
def answerLines (snapshot : Snapshot) : Request → Except Complaint (List String)
  | .analyze _ => .ok []
  | .callers name within members =>
    match snapshot.calls.callers name within members with
    | .error failure => .error (.failed failure)
    | .ok [] => .ok [plainLine s!"No callers found for '{name}'."]
    | .ok edges => .ok (callTable s!"Callers of {name}" edges).lines
  | .callees name =>
    match snapshot.calls.callees name with
    | .error failure => .error (.failed failure)
    | .ok [] => .ok [plainLine s!"No callees found for '{name}'."]
    | .ok edges => .ok (callTable s!"Calls made by {name}" edges).lines
  | .search pattern kind =>
    match snapshot.search pattern kind with
    | .error failure => .error (.failed failure)
    | .ok [] => .ok [plainLine s!"No entities match '{pattern}'."]
    | .ok entities => .ok (entityTable s!"Entities matching {pattern}" entities).lines
  | .entity name =>
    match snapshot.entity? name with
    | .error failure => .error (.failed failure)
    | .ok none => .error (.entityNotFound name)
    | .ok (some entity) => .ok [Json.render Json.indented (Report.entity entity)]
  | .dependents file =>
    match snapshot.dependencies.dependents file with
    | .error failure => .error (.failed failure)
    | .ok files =>
      .ok (listLines s!"Files depending on {file}" files s!"No files depend on '{file}'.")
  | .dependencies file =>
    match snapshot.dependencies.dependencies file with
    | .error failure => .error (.failed failure)
    | .ok files =>
      .ok (listLines s!"Dependencies of {file}" files s!"'{file}' has no dependencies.")
  | .cycles => .ok (cycleLines snapshot.dependencies.cycles)
  | .summary => .ok (summaryTable snapshot.summary).lines

/-! ## Whole command lines -/

/-- The settings file that a path names, as far as the disk holds it. -/
def Disk.settingsFile (disk : Disk) (path : String) : SettingsFile :=
  { name := Path.spell path
    content := (disk.fileAt? path).map fun bytes =>
      String.ofList (Text.Utf8.decodeReplacing bytes) }

/-- Checks that the settings file of a command line exists, if it names one. -/
def Disk.checkSettings (disk : Disk) (settingsFile : Option String) : Except Misuse Unit :=
  match settingsFile.filter fun path => (disk.fileAt? path).isNone with
  | some path => .error (.notFile path)
  | none => .ok ()

/-- Checks the paths that must exist, and gives the directory of the project. -/
def Line.project? (line : Line) (disk : Disk) : Except Misuse Place := do
  disk.checkSettings line.settingsFile
  match disk.directoryAt? line.project with
  | some place => .ok place
  | none => .error (.notDirectory line.project)

/-- Analyses the project of a command line. -/
def Line.analysis (line : Line) (env : Environment) (directory : Place) :
    Except Failure (Analysis × List Warning) := do
  let explicit := line.settingsFile.map env.disk.settingsFile
  let fallback := env.disk.settingsFile env.settingsFile
  let (settings, warnings) ←
    (Settings.load explicit fallback env.switch).mapError Failure.invalid
  let analysis ← env.engine settings (env.disk.sources directory settings.skipDirs)
  return (analysis, warnings ++ analysis.warnings)

/-- The outcome of a command line that ends in a complaint. -/
def Environment.complain (env : Environment) (verbose : Bool) (complaint : Complaint) : Outcome :=
  { output := "", complaint := some complaint, log := [], verbose, disk := env.disk }

/-- Carries a request out on an analysis. -/
def Line.finish (line : Line) (env : Environment) (analysis : Analysis) (log : List Warning) :
    Outcome :=
  match line.request with
  | .analyze exports =>
    match writeAll env.disk (exportedFiles exports analysis.snapshot.dependencies) with
    | (disk, some complaint) =>
      { output := "", complaint := some complaint, log, verbose := line.verbose, disk }
    | (disk, none) =>
      { output := unlines (analysisLinesFor line.project exports analysis)
        complaint := none, log, verbose := line.verbose, disk }
  | request =>
    match answerLines analysis.snapshot request with
    | .ok lines =>
      { output := unlines lines, complaint := none, log, verbose := line.verbose,
        disk := env.disk }
    | .error complaint => env.complain line.verbose complaint

/-- Carries a command line out. -/
def run (env : Environment) (words : List String) : Outcome :=
  match Invocation.read words with
  | .error misuse => env.complain false (.misused misuse)
  | .ok (.version settingsFile) =>
    match env.disk.checkSettings settingsFile with
    | .error misuse => env.complain false (.misused misuse)
    | .ok _ =>
      { output := unlines [s!"{programName} v{version}"], complaint := none, log := [],
        verbose := false, disk := env.disk }
  | .ok (.run line) =>
    match line.project? env.disk with
    | .error misuse => env.complain line.verbose (.misused misuse)
    | .ok directory =>
      match line.analysis env directory with
      | .error failure => env.complain line.verbose (.failed failure)
      | .ok (analysis, log) => line.finish env analysis log

end Command
end CodeAtlas
