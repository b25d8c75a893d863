import ViewLint.Text.Width

/-!
# Tables

A table has a header and rows of cells in a frame. A cell can have several lines, and a column is
as wide as its widest line.

## Main definitions

* `Table`: the header and the rows.
* `Table.render`: the table as text.
-/

namespace ViewLint

/-- A table. -/
structure Table where
  header : List String
  rows : List (List String)

namespace Table

/-- The lines of a text, divided by line feeds. -/
def splitLines : List Char → List (List Char)
  | [] => [[]]
  | c :: rest =>
    if c == '\n' then [] :: splitLines rest
    else
      match splitLines rest with
      | [] => [[c]]
      | line :: lines => (c :: line) :: lines

/-- The lines of a cell. -/
def cellLines (cell : String) : List String :=
  (splitLines cell.toList).map String.ofList

/-- The width of the widest line of a cell. -/
def cellWidth (cell : String) : Nat :=
  ((cellLines cell).map Text.displayWidth).foldl max 0

/-- The widths of the columns. -/
def widths (t : Table) : List Nat :=
  t.rows.foldl (fun ws row => List.zipWith max ws (row.map cellWidth)) (t.header.map cellWidth)

/-- A text with blanks up to a width. -/
def pad (width : Nat) (s : String) : String :=
  s ++ String.ofList (List.replicate (width - Text.displayWidth s) ' ')

/-- A line of a frame: its left end, the mark that fills it, the mark between columns, and its right
end. -/
def rule (ws : List Nat) (left fill between right : String) : String :=
  left ++ String.intercalate between
    (ws.map fun w => String.join (List.replicate (w + 2) fill)) ++ right

/-- The lines of a row. -/
def rowLines (ws : List Nat) (row : List String) : List String :=
  let cells := row.map cellLines
  let height := (cells.map List.length).foldl max 0
  (List.range height).map fun i =>
    let parts := List.zipWith (fun w lines => pad w (lines.getD i "")) ws cells
    "│ " ++ String.intercalate " ┆ " parts ++ " │"

/-- The lines of the table. -/
def lines (t : Table) : List String :=
  let ws := t.widths
  let between := rule ws "├" "╌" "┼" "┤"
  [rule ws "┌" "─" "┬" "┐"] ++ rowLines ws t.header ++ [rule ws "╞" "═" "╪" "╡"] ++
    List.intercalate [between] (t.rows.map (rowLines ws)) ++ [rule ws "└" "─" "┴" "┘"]

/-- The table as text, without a line feed at the end. -/
def render (t : Table) : String :=
  String.intercalate "\n" t.lines

end Table

end ViewLint
