import CodeAtlas.Command.Run
import CodeAtlas.Command.Trees

/-!
# The command line program

Loads the directories and files that a command line names, carries it out, prints what it
prints, and stores the files it has written.
-/

namespace CodeAtlas
namespace Main

open Command

/-- The place of an absolute path. -/
def placeOf (path : String) : Place :=
  ((Path.evaluate path.toList).components).map String.ofList

/-- The absolute path of a place. -/
def pathOf (place : Place) : String := "/" ++ "/".intercalate place

/-- The disk together with the directory or file at a place and, for a directory, all that is
below it down to a depth. -/
def load (deep : Bool) : Nat → Disk → Place → IO Disk
  | 0, disk, _ => pure disk
  | depth + 1, disk, place => do
    let here ← IO.currentDir
    let path := here / pathOf place
    if ← path.isDir then
      let disk := { disk with directories := place :: disk.directories }
      if deep then
        let entries ← path.readDir
        entries.toList.foldlM
          (fun disk entry => load deep depth disk (place ++ [entry.fileName])) disk
      else pure disk
    else if ← path.pathExists then
      let bytes ← IO.FS.readBinFile path
      pure { disk with files := (place, bytes.toList) :: disk.files }
    else pure disk

/-- The disk together with the directories that lead to a place, and the place itself. -/
def loadWay (deep : Bool) (disk : Disk) (place : Place) : IO Disk := do
  let above := (List.range place.length).map place.take
  let disk ← above.foldlM (fun disk place => load false 1 disk place) disk
  load deep 256 disk place

/-- The paths that a command line names, each with whether all below it counts. -/
def pathsOf (settingsFile : String) : Invocation → List (String × Bool)
  | .version settingsFile => settingsFile.toList.map fun path => (path, false)
  | .run line =>
    let outputs :=
      match line.request with
      | .analyze exports => exports.dot.toList ++ exports.graphJson.toList
      | _ => []
    (line.project, true) ::
      (settingsFile :: line.settingsFile.toList ++ outputs).map fun path => (path, false)

/-- The path of the settings file that counts when none is named. -/
def defaultSettings : IO String := do
  let own ← IO.getEnv (programName.toUpper ++ "_HOME")
  let home ← IO.getEnv "HOME"
  let directory := own.getD (home.getD "" ++ "/." ++ programName)
  return directory ++ "/config.toml"

/-- Stores the files that were written. -/
def store (before after : Disk) : IO Unit := do
  let here ← IO.currentDir
  for (place, bytes) in after.files do
    if before.file? place != some bytes then
      IO.FS.writeBinFile (here / pathOf place) ⟨bytes.toArray⟩

/-- Loads what a command line names and carries it out. -/
def start (words : List String) : IO UInt32 := do
  let here ← IO.currentDir
  let settingsFile ← defaultSettings
  let switch ← IO.getEnv (programName.toUpper ++ "_TOLERANT_PARSING")
  let empty : Disk := { here := placeOf here.toString, directories := [], files := [] }
  let paths := (Invocation.read words).toOption.map (pathsOf settingsFile)
  let disk ← (paths.getD []).foldlM
    (fun disk path => loadWay path.2 disk (placeOf (here / path.1).toString)) empty
  let grammars := Grammars.ofTrees Language.all disk.knownTrees
  let outcome := run
    { disk, settingsFile, switch, engine := fun settings => analyzeFiles settings grammars } words
  store disk outcome.disk
  IO.print outcome.output
  if outcome.verbose then
    for warning in outcome.log do
      IO.eprintln warning.message
  for complaint in outcome.complaint.toList do
    IO.eprintln complaint.message
  return outcome.exitCode.toUInt32

end Main
end CodeAtlas

/-- The program. -/
def main (words : List String) : IO UInt32 := CodeAtlas.Main.start words
