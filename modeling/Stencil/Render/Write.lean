import Stencil.Render.Machine
/-! Writes values as text. -/

namespace Stencil

/-- The options of a write, rendered to text. -/
structure WriteOptions where
  separator : Option String := none
  format : Option String := none
  null : Option String := none
deriving DecidableEq, Repr, Inhabited

namespace Rendering

variable (settings : Settings) (env : Env)

/-- Writes a scalar in a format. -/
def writeScalar (kind : ScalarKind) (plain : String) (format : Option String) : Rendering Unit := do
  writeText settings env (← scalarText settings env kind plain format)

/-- Writes the separator, if there is one, behind an element that was written. -/
def writeSeparator (options : WriteOptions) (seen : Bool) : Rendering Unit := do
  if seen then
    if let some separator := options.separator then writeText settings env separator

/-- Writes keys, as texts, with the separator between them. -/
def writeKeys (options : WriteOptions) : Bool → List String → Rendering Unit
  | _, [] => return ()
  | seen, key :: keys => do
    writeSeparator settings env options seen
    writeScalar settings env .text key options.format
    writeKeys options true keys

mutual

/-- Writes a value. Null writes the null text, if there is one. A sequence writes its items and a map
its keys, and both skip nulls for which there is no text. A template is run in its place, but kept
aside if its text is to be put in a format. -/
def writeValue (options : WriteOptions) : Value → Rendering Unit
  | .null => (options.null.map (writeText settings env)).getD (return ())
  | .bool b => writeScalar settings env .bool (if b then "true" else "false") options.format
  | .int n => writeScalar settings env .int (toString n) options.format
  | .float x => writeScalar settings env .float (Decimal.text x) options.format
  | .text s => writeScalar settings env .text s options.format
  | .object typeName _ s => writeScalar settings env (.object typeName) s options.format
  | .sequence items => writeItems options false items
  | .map entries => writeKeys settings env options false (Dict.keys entries)
  | .template bound =>
    match options.format with
    | none => call env bound
    | some format => do
      let text ← capture (call env bound)
      writeScalar settings env .text text (some format)

/-- Writes items with the separator between them. -/
def writeItems (options : WriteOptions) : Bool → List Value → Rendering Unit
  | _, [] => return ()
  | seen, v :: vs => do
    if v.isNull && options.null.isNone then writeItems options seen vs
    else
      writeSeparator settings env options seen
      writeValue options v
      writeItems options true vs

end

/-- The text of a value, without options. -/
def renderText (v : Value) : Rendering String :=
  match v with
  | .text s => return s
  | v => capture (writeValue settings env {} v)

/-- The texts of the values of options, of which the null text is rendered first. -/
def renderOptions (separator format null : Option Value) : Rendering WriteOptions := do
  let null ← null.mapM (renderText settings env)
  let format ← format.mapM (renderText settings env)
  let separator ← separator.mapM (renderText settings env)
  return { separator, format, null }

/-- The text of a value that is rendered while the name of a template, or an expression in parentheses,
is evaluated. -/
def renderEarly (v : Value) : Rendering String := do
  let early := (← frames).isEarly env.scope
  changeFrames fun f => f.setEarly env.scope true
  let text ← renderText settings env v
  changeFrames fun f => f.setEarly env.scope early
  return text

/-- Writes the value of an expression, and records that unless the frame runs early. -/
def writeExpression (options : WriteOptions) (v : Value) : Rendering Unit := do
  let start ← position
  writeValue settings env options v
  let stop ← position
  changeFrames fun f =>
    if f.isEarly env.scope then f else f.recordWriting ⟨env.scope, ⟨start, stop⟩, env.place⟩

end Rendering

end Stencil
