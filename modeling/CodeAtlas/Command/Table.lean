import CodeAtlas.Text.Styling

/-!
# Lines and tables

What is printed line by line is plain.  A table is written as its title, its columns, and a line
for each row.
-/

namespace CodeAtlas
namespace Command

/-- A table with a title. -/
structure Table where
  title : String
  columns : List String
  rows : List (List String)

/-- A plain line. -/
def plainLine (line : String) : String := Text.withoutStyling line

/-- A text of whole lines. -/
def unlines (lines : List String) : String := String.join (lines.map (· ++ "\n"))

namespace Table

/-- A row of cells. -/
def cells (row : List String) : String := " | ".intercalate row

/-- The lines of a table. -/
def lines (table : Table) : List String :=
  s!"TABLE {table.title}" :: s!"COLUMNS {cells table.columns}" ::
    table.rows.map fun row => s!"ROW {cells row}"

end Table
end Command
end CodeAtlas
