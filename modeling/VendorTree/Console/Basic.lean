import VendorTree.Console.Layout
import VendorTree.Console.Markup

/-!
# Printed lines

A console has two streams, one for output and one for errors, and is printed to by lines. Tables are
printed without a frame: the title, the headings, and the rows with bars between their cells.
-/

namespace VendorTree.Console

inductive Stream
  | output
  | errors
  deriving DecidableEq, Repr

structure Line where
  stream : Stream
  text : String
  deriving DecidableEq, Repr

structure Column where
  heading : String
  /-- A line that is too wide for the column is broken between words. -/
  wraps : Bool := true

/-- A table, its cells with markup. -/
structure Table where
  title : String
  columns : List Column
  rows : List (List String)

namespace Table

/-- The lines of a row of a table whose columns have widths. A row is as high as its highest
cell. -/
def rowLines (columns : List (Column × Nat)) (cells : List String) : List String :=
  let parts := (columns.zip cells).map fun ((column, width), cell) =>
    cellLines column.wraps width cell
  let height := (parts.map List.length).foldl max 0
  (List.range height).map fun n => "|".intercalate (parts.map fun part => (part[n]?).getD "")

def byColumn {α : Type} (count : Nat) (rows : List (List α)) : List (List α) :=
  (List.range count).map fun n => rows.filterMap fun cells => cells[n]?

/-- The columns with the widths that the texts of their cells need. -/
def measured (t : Table) (texts : List (List String)) : List (Column × Nat) :=
  (t.columns.zip (byColumn t.columns.length texts)).map fun (column, cells) =>
    (column, ((column.heading :: cells).map fun cell => measure cell.toList).foldl max 0)

/-- The lines of a table. All cells are read, column by column, before one is shown. -/
def lines (t : Table) : Except MarkupFault (List String) := do
  (byColumn t.columns.length t.rows).forM fun cells => cells.forM fun cell =>
    (readMarkup cell).map fun _ => ()
  let texts ← t.rows.mapM fun cells => cells.mapM render
  return t.title :: "|".intercalate (t.columns.map Column.heading) ::
    texts.flatMap (rowLines (t.measured texts))

end Table

end VendorTree.Console
