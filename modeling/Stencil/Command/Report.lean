import Stencil.Group.Basic
import Stencil.Json.Writer
import Stencil.Diagnostic.Basic
/-! Diagnostics as the command line shows them. -/

namespace Stencil

/-- A part of the source that a report points at. -/
structure Label where
  offset : Nat
  length : Nat
  text : String
deriving DecidableEq, Repr, Inhabited

/-- A report on the error stream. The source that the labels point into is given by its name and its text. -/
structure Report where
  message : String
  code : Option String := none
  help : Option String := none
  labels : List Label := []
  source : Option String := none
  sourceText : Option String := none
deriving DecidableEq, Repr, Inhabited

namespace Report

/-- The report of a diagnostic. It points into the source that the group has for the template, and
nowhere if the group has none, as for templates without a name. -/
def ofDiagnostic (g : Group) (d : Diagnostic) : Report :=
  let source := (d.template.bind g.sourceOf?).getD ""
  let labels := match d.location with
    | none => []
    | some l =>
      if source.isEmpty then []
      else
        let offset := min l.offset source.utf8ByteSize
        [⟨offset, min l.length (source.utf8ByteSize - offset), d.kind.name⟩]
  { message :=
      if d.callPath.length > 1 then "[" ++ " ".intercalate d.callPath ++ "] " ++ d.message else d.message
    code := some "stg::template"
    help := d.causes.head?.map ("caused by: " ++ ·)
    labels
    source := some (d.template.getD "<template>" ++ ".st")
    sourceText := some source }

/-- The report in plain lines. -/
def lines (r : Report) : List String :=
  r.code.toList ++ ["  × " ++ r.message] ++
    r.labels.map (fun l =>
      "   [" ++ r.source.getD "" ++ ":" ++ toString l.offset ++ "+" ++ toString l.length ++ "] " ++ l.text) ++
    (r.help.map ("  help: " ++ ·)).toList

end Report

namespace Diagnostic

/-- The diagnostic as a JSON document. -/
def json (d : Diagnostic) : Json :=
  let text (s : Option String) : Json := (s.map Json.string).getD .null
  let number (n : Option Nat) : Json := (n.map Json.ofNat).getD .null
  .object
    [("kind", .string d.kind.name), ("category", .string d.kind.category.name),
     ("severity", .string d.kind.severity.name), ("template", text d.template),
     ("line", number (d.location.map Location.line)),
     ("column", number (d.location.map Location.column)),
     ("call_path", .array (d.callPath.map Json.string)), ("message", .string d.message),
     ("cause", text d.causes.head?)]

end Diagnostic

end Stencil
