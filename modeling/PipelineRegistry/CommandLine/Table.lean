import PipelineRegistry.Text.Width

/-! # Tables

A table has a header and rows of cells, and is drawn with rounded corners and a rule below the
header only.  A cell may have several lines; they stand at the left and at the top of the cell.  A
column is as wide as its widest line, measured in columns of the terminal. -/

namespace PipelineRegistry.CommandLine
open Text

/-- A table: every row has as many cells as the header. -/
structure Table where
  header : List String
  rows : List (List String)
deriving DecidableEq, Repr

namespace Table

/-- The lines of a cell. -/
def cellLines (cell : String) : List (List Char) := cell.toList.splitOn '\n'

/-- The width of a cell. -/
def cellWidth (cell : String) : Nat := ((cellLines cell).map width).foldl max 0

/-- The width of each column. -/
def widths (t : Table) : List Nat :=
  (t.rows.map fun row => row.map cellWidth).foldl (List.zipWith max) (t.header.map cellWidth)

/-- A horizontal rule between the characters `left` and `right`, crossing the rules between columns
with `crossing`. -/
def rule (left crossing right : Char) (ws : List Nat) : List Char :=
  left :: [crossing].intercalate (ws.map fun w => List.replicate (w + 2) '─') ++ [right]

/-- A line of a cell between blanks, filled up to the width of its column. -/
def padLine (w : Nat) (line : List Char) : List Char :=
  ' ' :: line ++ List.replicate (w - width line) ' ' ++ [' ']

/-- One line of a row. -/
def rowLine (ws : List Nat) (lines : List (List Char)) : List Char :=
  '│' :: ['│'].intercalate (List.zipWith padLine ws lines) ++ ['│']

/-- The lines of a row. -/
def rowLines (ws : List Nat) (row : List String) : List (List Char) :=
  let cells := row.map cellLines
  let height := (cells.map List.length).foldl max 0
  (List.range height).map fun i => rowLine ws (cells.map fun lines => (lines[i]?).getD [])

/-- The lines of a table. -/
def lines (t : Table) : List (List Char) :=
  let ws := t.widths
  rule '╭' '┬' '╮' ws :: rowLines ws t.header ++ rule '├' '┼' '┤' ws ::
    t.rows.flatMap (rowLines ws) ++ [rule '╰' '┴' '╯' ws]

/-- The drawing of a table. -/
def render (t : Table) : String := String.ofList (['\n'].intercalate t.lines)

end Table
end PipelineRegistry.CommandLine
