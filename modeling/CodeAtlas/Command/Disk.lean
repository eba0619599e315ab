import CodeAtlas.Analysis
import CodeAtlas.Text.Utf8

/-!
# Directories and files

The part of a disk that a command line speaks of: some directories, and some files with their
bytes.  A place on the disk is the list of names that leads to it from the top.
-/

namespace CodeAtlas
namespace Command

/-- A place on a disk: the names that lead to it from the top. -/
abbrev Place := List String

/-- Directories and files, and the directory that relative paths start from. -/
structure Disk where
  here : Place
  directories : List Place
  files : List (Place × List UInt8)

/-- Why a path leads nowhere, or cannot be written to. -/
inductive Obstacle where
  | missing
  | notDirectory
  | isDirectory
  deriving DecidableEq

namespace Disk

/-- Whether a place is a directory.  The top always is. -/
def isDirectory (disk : Disk) (place : Place) : Bool :=
  place.isEmpty || disk.directories.contains place

/-- The bytes of a file. -/
def file? (disk : Disk) (place : Place) : Option (List UInt8) := disk.files.lookup place

/-- Enters one component of a path from a place. -/
def enter (disk : Disk) (place : Place) (component : List Char) : Except Obstacle Place :=
  if !disk.isDirectory place then
    .error (if (disk.file? place).isSome then .notDirectory else .missing)
  else if Path.isHere component then .ok place
  else if Path.isUp component then .ok place.dropLast
  else .ok (place ++ [String.ofList component])

/-- The place that a path leads to, which need not be taken yet. -/
def locate (disk : Disk) (path : String) : Except Obstacle Place :=
  let start := if Path.rootOf path.toList = .relative then disk.here else []
  (Text.segments '/' path.toList).foldlM disk.enter start

/-- The directory that a path names. -/
def directoryAt? (disk : Disk) (path : String) : Option Place :=
  match disk.locate path with
  | .ok place => if path != "" && disk.isDirectory place then some place else none
  | .error _ => none

/-- The bytes of the file that a path names. -/
def fileAt? (disk : Disk) (path : String) : Option (List UInt8) :=
  match disk.locate path with
  | .ok place => disk.file? place
  | .error _ => none

/-- Writes a text to the file that a path names.  Its directory must exist. -/
def write (disk : Disk) (path text : String) : Except Obstacle Disk := do
  let place ← disk.locate (Path.spell path)
  if disk.isDirectory place then .error .isDirectory
  else if !disk.isDirectory place.dropLast then .error .missing
  else return { disk with files := putEntry place (Text.Utf8.encode text.toList) disk.files }

/-! ## Source files -/

/-- The path of a place from a directory above it. -/
def below? (directory place : Place) : Option Place :=
  if directory.isPrefixOf place then some (place.drop directory.length) else none

/-- Whether the name of a file ends in the extension of a source file.  A name that is only an
extension does not count. -/
def isSourceName (name : String) : Bool :=
  let last := Text.lastSegment '.' name.toList
  last.length + 1 < name.length && (Language.extensions.lookup (String.ofList ('.' :: last))).isSome

/-- The text of a source file: invalid bytes are dropped and line ends unified. -/
def sourceText (bytes : List UInt8) : String :=
  String.ofList (Text.unifyLineEnds (Text.Utf8.decodeDropping bytes))

/-- Compares paths name by name. -/
def placeLE : Place → Place → Bool
  | [], _ => true
  | _ :: _, [] => false
  | a :: as, b :: bs => a < b || (a == b && placeLE as bs)

/-- The source files below a directory, in the order of their paths, but for those in directories
to be skipped. -/
def sources (disk : Disk) (directory : Place) (skipped : List String) : List InputFile :=
  let found := disk.files.filterMap fun entry =>
    (below? directory entry.1).map fun place => (place, entry.2)
  let kept := found.filter fun entry =>
    entry.1.getLast?.any isSourceName && !entry.1.dropLast.any skipped.contains
  (kept.mergeSort fun a b => placeLE a.1 b.1).map fun entry =>
    { path := "/".intercalate entry.1, content := sourceText entry.2 }

end Disk
end Command
end CodeAtlas
