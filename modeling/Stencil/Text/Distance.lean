/-! The edit distance between texts: insertions, deletions and replacements of characters. -/

namespace Stencil.Text

/-- One row of the table of distances. `row` holds the distances from the prefixes of the other text
to the prefix so far; `left` is the distance in front of them in the new row, and `diagonal` the one
in the old row. -/
def nextRow (x : Char) : Nat → Nat → List Char → List Nat → List Nat
  | diagonal, left, y :: ys, above :: row =>
    let here := min (min (left + 1) (above + 1)) (diagonal + if x = y then 0 else 1)
    here :: nextRow x above here ys row
  | _, _, _, _ => []

/-- The last row of the table, of which the rows for `xs` are still to come. -/
def rows : List Char → List Char → Nat → List Nat → Nat × List Nat
  | [], _, first, row => (first, row)
  | x :: xs, ys, first, row => rows xs ys (first + 1) (nextRow x first (first + 1) ys row)

/-- The least number of edits that turn one text into the other. -/
def distance (a b : String) : Nat :=
  let ys := b.toList
  let (first, row) := rows a.toList ys 0 (List.range' 1 ys.length)
  row.getLastD first

end Stencil.Text
