import CodeQuality.Text.Columns
import CodeQuality.Text.Parts

/-!
# Tables

A table of texts in a frame of lines. Each column is as wide as its widest line, and each row as high
as its cell with the most lines; rows that are too short are filled up with empty cells.
-/

namespace CodeQuality

/-- A table: its header, if it has one, and its rows. -/
structure Table where
  header : Option (List String) := none
  rows : List (List String) := []
deriving DecidableEq, Repr

namespace Table

/-- A cell as the list of its lines. -/
def cellLines (cell : String) : List String := (Text.split '\n' cell.toList).map String.ofList

/-- The header, if there is one, and the rows. -/
def allRows (t : Table) : List (List String) := t.header.toList ++ t.rows

/-- The number of columns. -/
def columnCount (t : Table) : Nat := (t.allRows.map List.length).foldl max 0

/-- The width of a cell. -/
def cellWidth (cell : String) : Nat := ((cellLines cell).map Text.columns).foldl max 0

/-- The width of column `i`, which is at least one. -/
def columnWidth (t : Table) (i : Nat) : Nat :=
  (t.allRows.map fun row => (row[i]?.map cellWidth).getD 0).foldl max 1

def widths (t : Table) : List Nat := (List.range t.columnCount).map t.columnWidth

/-- `s` times `n`. -/
def times (n : Nat) (s : String) : String := String.join (List.replicate n s)

/-- A line of the frame from `left` to `right`, with `cross` between the columns. -/
def rule (widths : List Nat) (left stroke cross right : String) : String :=
  left ++ cross.intercalate (widths.map fun w => times (w + 2) stroke) ++ right

/-- A line of a cell, filled up to the width of its column. -/
def pad (width : Nat) (line : String) : String :=
  " " ++ line ++ times (width - Text.columns line) " " ++ " "

/-- The lines of a row. -/
def rowLines (widths : List Nat) (row : List String) : List String :=
  let cells := (widths.zipIdx).map fun (width, i) => (width, cellLines (row.getD i ""))
  let height := (cells.map (·.2.length)).foldl max 0
  (List.range height).map fun k =>
    "│" ++ "┆".intercalate (cells.map fun (width, lines) => pad width (lines.getD k "")) ++ "│"

/-- The lines of the table. -/
def lines (t : Table) : List String :=
  let ws := t.widths
  let separator := rule ws "├" "╌" "┼" "┤"
  [rule ws "┌" "─" "┬" "┐"] ++
    (match t.header with
      | some header => rowLines ws header ++ [rule ws "╞" "═" "╪" "╡"]
      | none => []) ++
    ((t.rows.map (rowLines ws)).intersperse [separator]).flatten ++
    [rule ws "└" "─" "┴" "┘"]

def text (t : Table) : String := "\n".intercalate t.lines

end Table
end CodeQuality
