import CodeAtlas.Position
import CodeAtlas.Text.Utf8
import CodeAtlas.Tree.Node

/-!
# Source texts

A source is the bytes of a text.  It turns the byte ranges of nodes into texts and points.  A
grammar places an offset by its row and the bytes before it on that row; a point counts lines and
characters.
-/

namespace CodeAtlas
namespace Tree

/-- Where a grammar places an offset. -/
structure Coordinates where
  /-- The number of lines before that of the offset. -/
  row : Nat
  /-- The number of bytes before the offset on its line. -/
  byteColumn : Nat
  deriving DecidableEq

/-- The bytes of a source text. -/
structure Source where
  bytes : List UInt8

namespace Source

/-- The source of a text. -/
def ofText (text : String) : Source := ⟨Text.Utf8.encode text.toList⟩

/-- The bytes of a range. -/
def slice (source : Source) (start stop : Nat) : List UInt8 :=
  (source.bytes.take stop).drop start

/-- The bytes from an index on.  A negative index counts from the end of the source. -/
def sliceFrom (source : Source) (start : Int) (stop : Nat) : List UInt8 :=
  source.slice (if start < 0 then start + source.bytes.length else start).toNat stop

/-- The characters of a range. -/
def chars (source : Source) (start stop : Nat) : List Char :=
  Text.Utf8.decodeReplacing (source.slice start stop)

/-- The bytes between the last line feed before an offset and the offset. -/
def lineUpTo (source : Source) (offset : Nat) : List UInt8 :=
  ((source.bytes.take offset).reverse.takeWhile (· != 0x0A)).reverse

/-- The offset just after the last line feed before an offset. -/
def lineOffset (source : Source) (offset : Nat) : Nat :=
  (source.bytes.take offset).length - (source.lineUpTo offset).length

/-- The coordinates that a grammar reports for an offset: the number of line feeds before it, and
the number of bytes since the last one. -/
def coordinates (source : Source) (offset : Nat) : Coordinates :=
  { row := (source.bytes.take offset).count 0x0A
    byteColumn := offset - source.lineOffset offset }

/-- The point of an offset with given coordinates.  Lines count from one, and the column counts the
characters of the bytes that the coordinates put before the offset on its line. -/
def pointAt (source : Source) (offset : Nat) (coordinates : Coordinates) : Point :=
  let lineStart : Int := offset - coordinates.byteColumn
  { line := coordinates.row + 1
    column := (Text.Utf8.decodeReplacing (source.sliceFrom lineStart offset)).length }

/-- The point of an offset. -/
def point (source : Source) (offset : Nat) : Point :=
  source.pointAt offset (source.coordinates offset)

/-- The text of a node. -/
def text (source : Source) (node : Node) : String :=
  String.ofList (source.chars node.label.start node.label.stop)

/-- The point at which a node starts. -/
def startPoint (source : Source) (node : Node) : Point := source.point node.label.start

/-- The point at which a node ends. -/
def endPoint (source : Source) (node : Node) : Point := source.point node.label.stop

/-- The range of a node. -/
def range (source : Source) (node : Node) : SourceRange :=
  .between (source.startPoint node) (source.endPoint node)

end Source
end Tree
end CodeAtlas
