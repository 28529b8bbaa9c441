import DocQuery.Document.Basic
import DocQuery.Shell.Style

/-!
# Tables

Documents are shown in a table with a column for each of some attributes.

* `Table.cellText`, `Table.cellStyle` – what stands in a cell, and how;
* `Table.widths` – the widths of the columns, wide enough for every cell but at most
  `Table.maxWidth`;
* `Table.fit` – a text cut or padded to a width;
* `Table.lines` – **the lines of a table**: three borders, the header, and a line for each document.
-/

namespace DocQuery.Table

/-- The greatest width of a column. -/
def maxWidth : Nat := 40

/-- The text of a cell. -/
def cellText : Option Value → List Char
  | none | some .null => "NULL".toList
  | some v => v.display.toList

/-- The style of a cell, which tells kinds of values apart. -/
def cellStyle : Option Value → Style
  | none | some .null => .dimmed
  | some (.bool b) => if b then .green else .red
  | some (.int _) | some (.float _) => .cyan
  | some (.string _) => .yellow
  | some (.array _) | some (.object _) => .plain

/-- Widens columns to the cells of a row. -/
def widen (widths : List Nat) (row : List (List Char)) : List Nat :=
  List.zipWith (fun w cell => min (max w cell.length) maxWidth) widths row

/-- The widths of the columns. -/
def widths (names : List (List Char)) (rows : List (List (List Char))) : List Nat :=
  rows.foldl widen (names.map List.length)

/-- A text of at most `width` characters. What is longer loses its end to an ellipsis. -/
def truncate (width : Nat) (text : List Char) : List Char :=
  if text.length ≤ width then text else text.take (width - 1) ++ ['…']

/-- A text of exactly `width` characters, if there is room for one. -/
def fit (width : Nat) (text : List Char) : List Char := Style.pad width (truncate width text)

/-- A horizontal line. -/
def border (left middle right : Char) (widths : List Nat) : List Char :=
  left :: ([middle].intercalate (widths.map fun w => List.replicate (w + 2) '─') ++ [right])

/-- A line of cells, each with its width and its style. -/
def row (color : Bool) (cells : List (Nat × Style × List Char)) : List Char :=
  '│' :: cells.flatMap fun (width, style, text) =>
    ' ' :: (style.paint color (fit width text) ++ [' ', '│'])

/-- The cells of a document. -/
def cells (names : List String) (d : Document) : List (Option Value) := names.map d.get?

/-- The lines of a table. -/
def lines (color : Bool) (names : List String) (docs : List Document) : List String :=
  let headers := names.map String.toList
  let rows := docs.map (cells names)
  let ws := widths headers (rows.map (·.map cellText))
  let header := row color (List.zipWith (fun w name => (w, .boldCyan, name)) ws headers)
  let body := rows.map fun cs =>
    row color (List.zipWith (fun w c => (w, cellStyle c, cellText c)) ws cs)
  ([border '┌' '┬' '┐' ws, header, border '├' '┼' '┤' ws] ++ body ++
    [border '└' '┴' '┘' ws]).map String.ofList

end DocQuery.Table
