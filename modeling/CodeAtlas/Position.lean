/-!
# Places in source files

Lines count from one, columns count the characters before a place on its line.  Snapshots may be
assembled from places that other tools report, so these are integers; points inside a syntax tree
are natural numbers.
-/

namespace CodeAtlas

/-- A place in a text. -/
structure Point where
  line : Nat
  column : Nat
  deriving DecidableEq

/-- Points are ordered by line and then by column. -/
def Point.le (p q : Point) : Bool :=
  p.line < q.line || (p.line == q.line && p.column ≤ q.column)

/-- A place in a file. -/
structure Location where
  file : String
  line : Int
  column : Int
  deriving DecidableEq

/-- The stretch of source text that a declaration takes. -/
structure SourceRange where
  startLine : Int
  startColumn : Int
  endLine : Int
  endColumn : Int
  deriving DecidableEq

/-- The number of lines that a range touches. -/
def SourceRange.lineCount (range : SourceRange) : Int :=
  range.endLine - range.startLine + 1

/-- The range between two points. -/
def SourceRange.between (start stop : Point) : SourceRange :=
  ⟨start.line, start.column, stop.line, stop.column⟩

end CodeAtlas
