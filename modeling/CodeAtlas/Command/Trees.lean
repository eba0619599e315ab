import CodeAtlas.Command.Disk
import CodeAtlas.Json.Reader
import CodeAtlas.Tree.Document

/-!
# Trees beside source files

The tree of a source file stands in a file beside it, whose name goes on with {lit}`.tree.json`.
-/

namespace CodeAtlas
namespace Command
namespace Disk

/-- The place of the tree of a source file. -/
def treePlace (place : Place) : Place :=
  place.dropLast ++ [place.getLastD "" ++ ".tree.json"]

/-- The tree that stands beside a source file. -/
def treeBeside? (disk : Disk) (place : Place) : Option Tree.Node := do
  let bytes ← disk.file? (treePlace place)
  let value ← Json.parse? (String.ofList (Text.Utf8.decodeReplacing bytes))
  Tree.Node.ofValue? value

/-- The trees that stand beside source files. -/
def knownTrees (disk : Disk) : List KnownTree :=
  disk.files.filterMap fun entry =>
    (disk.treeBeside? entry.1).map fun root =>
      { language := Language.ofPath (entry.1.getLastD ""), text := sourceText entry.2, root }

end Disk
end Command
end CodeAtlas
