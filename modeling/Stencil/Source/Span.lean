import Stencil.Text.Bytes
/-! Regions of template source and the positions they are reported at. -/

namespace Stencil

/-- A region of source, in bytes. -/
structure Span where
  offset : Nat
  length : Nat
deriving DecidableEq, Repr, Inhabited

namespace Span

/-- The byte behind the region. -/
def stop (s : Span) : Nat := s.offset + s.length

/-- The region from one byte to another. -/
def between (start stop : Nat) : Span := ⟨start, stop - start⟩

/-- The source that a region covers. -/
def text? (s : Span) (source : String) : Option String :=
  (Text.slice? source.toList s.offset s.length).map String.ofList

end Span

/-- A position in source as people count it: lines and columns from 1, columns in characters. -/
structure Location where
  line : Nat
  column : Nat
  offset : Nat
  length : Nat
deriving DecidableEq, Repr, Inhabited

namespace Location

/-- The line and the column of the place behind the characters `before`. -/
def lineAndColumn : List Char → Nat × Nat
  | cs => cs.foldl (fun (line, column) c => if c = '\n' then (line + 1, 1) else (line, column + 1)) (1, 1)

/-- Locates a region. An offset behind the end stands for the end, and one inside a character is
counted as if the whole source were in front of it. -/
def inSource (source : String) (offset length : Nat) : Location :=
  let cs := source.toList
  let offset := min offset source.utf8ByteSize
  let before := ((Text.splitAt? offset cs).map Prod.fst).getD cs
  let (line, column) := lineAndColumn before
  { line, column, offset, length }

/-- Locates the place that is reached when the source is read up to an offset. Lines are counted by their ends, and
columns from the last of them. -/
def reached (source : String) (offset : Nat) : Location :=
  let cs := source.toList
  let read := ((Text.splitAt? offset cs).map Prod.fst).getD cs
  { line := read.count '\n' + 1, column := (read.reverse.takeWhile (· ≠ '\n')).length + 1, offset, length := 1 }

/-- The position as `line:column`. -/
def display (l : Location) : String := s!"{l.line}:{l.column}"

end Location

end Stencil
