import DocblockScan.Program.ColumnWidth

/-!
# Tables

Rows of cells laid out in columns under a header. A cell may have several lines;
every column is as wide as its widest line.
-/

namespace DocblockScan.Program

/-- The lines of a cell. -/
def cellLines (cell : String) : List (List Char) :=
  cell.toList.splitOn '\n'

/-- The number of columns that a cell takes. -/
def cellWidth (cell : String) : Nat :=
  ((cellLines cell).map columns).foldl max 0

/-- The width of each column of some rows with equally many cells. -/
def columnWidths : List (List String) → List Nat
  | [] => []
  | [row] => row.map cellWidth
  | row :: rows => List.zipWith max (row.map cellWidth) (columnWidths rows)

/-- A line of a cell between blanks. -/
def padCell (width : Nat) (line : List Char) : List Char :=
  ' ' :: fillColumns width line ++ [' ']

/-- The line of a row at a depth; cells with fewer lines are empty there. -/
def rowLine (widths : List Nat) (row : List String) (depth : Nat) : String :=
  .ofList (List.intercalate ['|'] (List.zipWith
    (fun width cell => padCell width (((cellLines cell)[depth]?).getD [])) widths row))

/-- The lines of a row, as many as its tallest cell has. -/
def rowLines (widths : List Nat) (row : List String) : List String :=
  let height := (row.map fun cell => (cellLines cell).length).foldl max 0
  (List.range height).map (rowLine widths row)

/-- The line below the header. -/
def ruleLine (widths : List Nat) : String :=
  .ofList (List.intercalate ['+'] (widths.map fun width => List.replicate (width + 2) '-'))

/-- A table of a header and some rows. -/
def table (header : List String) (rows : List (List String)) : String :=
  let widths := columnWidths (header :: rows)
  String.intercalate "\n"
    (rowLines widths header ++ [ruleLine widths] ++ rows.flatMap (rowLines widths))

end DocblockScan.Program
