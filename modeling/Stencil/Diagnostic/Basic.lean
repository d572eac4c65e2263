import Stencil.Source.Span
import Stencil.Diagnostic.Kind
/-! Diagnostics: what was found, where, and in which chain of templates. -/

namespace Stencil

/-- When a diagnostic arose. -/
inductive Phase where
  | compile | render
deriving DecidableEq, Repr, Inhabited

namespace Phase

def name : Phase → String
  | compile => "Compile"
  | render => "Render"

end Phase

structure Diagnostic where
  kind : Kind
  phase : Phase
  arguments : List String := []
  template : Option String := none
  location : Option Location := none
  /-- The templates from the root to the one that reports. -/
  callPath : List String := []
  /-- The texts of the causes, the direct one first. -/
  causes : List String := []
deriving DecidableEq, Repr, Inhabited

namespace Diagnostic

/-- The number of arguments that a message has room for. -/
def argumentLimit : Nat := 3

/-- The arguments that a message has room for. -/
def withArguments (d : Diagnostic) (arguments : List String) : Diagnostic :=
  { d with arguments := arguments.take argumentLimit }

/-- A diagnostic of the compiler about a template. -/
def compiling (kind : Kind) (template : String) (arguments : List String) : Diagnostic :=
  ({ kind, phase := .compile, template := some template } : Diagnostic).withArguments arguments

/-- A diagnostic of a render. -/
def rendering (kind : Kind) (arguments : List String) : Diagnostic :=
  ({ kind, phase := .render } : Diagnostic).withArguments arguments

/-- Puts arguments for their places. A place without an argument is left empty, and a percent sign
that marks no place stands for itself. -/
def fill (arguments : List String) : List Char → List Char
  | [] => []
  | '%' :: '1' :: rest => (arguments.getD 0 "").toList ++ fill arguments rest
  | '%' :: '2' :: rest => (arguments.getD 1 "").toList ++ fill arguments rest
  | '%' :: '3' :: rest => (arguments.getD 2 "").toList ++ fill arguments rest
  | c :: rest => c :: fill arguments rest

def message (d : Diagnostic) : String := String.ofList (fill d.arguments d.kind.pattern.toList)

/-- What stands in front of the message: the template or the chain of templates, and the position. -/
def heading (d : Diagnostic) : String :=
  match d.phase with
  | .compile =>
    (d.template.map (· ++ " ")).getD "" ++ (d.location.map fun l => l.display ++ ": ").getD ""
  | .render =>
    let context := match d.callPath, d.template with
      | [], none => ""
      | [], some template => "context [" ++ template ++ "] "
      | path, _ => "context [" ++ " ".intercalate path ++ "] "
    context ++ (d.location.map fun l => l.display ++ " ").getD ""

/-- The complete text, with a line for each cause. -/
def display (d : Diagnostic) : String :=
  d.heading ++ d.message ++ String.join (d.causes.map ("\nCaused by: " ++ ·))

end Diagnostic

end Stencil
