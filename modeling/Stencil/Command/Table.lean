import Stencil.Text.Width
import Stencil.Render.Interpreter
/-! Tables for terminals: a border around all cells and a double line below the header. -/

namespace Stencil

structure Table where
  header : List String
  rows : List (List String)
deriving Repr, Inhabited

namespace Table

/-- The columns that each column of the table takes. -/
def widths (t : Table) : List Nat :=
  t.rows.foldl (fun widths row => widths.zipWith (fun w cell => max w (Text.width cell)) row)
    (t.header.map Text.width)

/-- A cell between blanks, filled up to a width. -/
def cell (width : Nat) (content : String) : String :=
  " " ++ content ++ String.ofList (List.replicate (width - Text.width content) ' ') ++ " "

def row (widths : List Nat) (cells : List String) : String :=
  "│" ++ " ".intercalate (widths.zipWith cell cells) ++ "│"

/-- A line as long as a row, between two corners. -/
def rule (widths : List Nat) (left line right : Char) : String :=
  let length := (widths.map (· + 3)).foldr (· + ·) 0 - 1
  String.ofList (left :: List.replicate length line ++ [right])

def display (t : Table) : String :=
  let widths := t.widths
  "\n".intercalate <|
    [rule widths '┌' '─' '┐', row widths t.header, rule widths '╞' '═' '╡'] ++
      t.rows.map (row widths) ++ [rule widths '└' '─' '┘']

/-- The instructions of a template, without those of the templates inside. -/
def ofCode (c : Code) : Table :=
  { header := ["Addr", "Instruction", "Operands", "Source"]
    rows := c.code.zipIdx.map fun (l, address) =>
      [Program.address address, l.instr.mnemonic, Program.operands l.instr,
       ((c.sourceAt? address).map Text.escapeAll).getD ""] }

def ofProgram (p : Program) : Table := ofCode p.toCode

/-- The frames of a trace, indented by their depth. -/
def ofTrace (t : Trace) : Table :=
  { header := ["Template", "Output", "Writes", "Early"]
    rows := t.frames.frames.toList.map fun f =>
      let events := f.events.toList
      let output := events.findSome? fun
        | .completed c => some (toString c.output.start ++ ".." ++ toString c.output.stop)
        | .wrote _ => none
      let writes := events.countP fun
        | .wrote _ => true
        | .completed _ => false
      [String.ofList (List.replicate (2 * f.depth) ' ') ++ f.template, output.getD "", toString writes,
       if f.early then "yes" else ""] }

end Table

end Stencil
