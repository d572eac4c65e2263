import Stencil.Command.Load
import Stencil.Command.Report
import Stencil.Command.Table
import Stencil.Value.OfJson
/-! The commands: render a template of a directory, check all of them, or list the program of one. -/

namespace Stencil

/-- What a command writes to the error stream. -/
inductive Notice where
  | text (text : String)
  | report (report : Report)
deriving DecidableEq, Repr, Inhabited

/-- What a command comes to. -/
structure CommandResult where
  code : Nat
  output : String := ""
  notices : List Notice := []
deriving DecidableEq, Repr, Inhabited

/-- The exit codes. -/
inductive ExitCode where
  | ok
  /-- The templates are at fault. -/
  | dataError
  /-- A file cannot be used. -/
  | noInput
deriving DecidableEq, Repr, Inhabited

namespace ExitCode

def value : ExitCode → Nat
  | ok => 0
  | dataError => 65
  | noInput => 66

end ExitCode

/-- What is asked of the render command. -/
structure RenderRequest where
  template : String
  /-- The path of a file of attributes, and its text or the reason why it cannot be read. -/
  attributes : Option (String × Except String String) := none
  /-- Attributes by name, which are added to those of the file in this order. -/
  bindings : List (String × String) := []
  json : Bool := false
  trace : Bool := false
deriving Inhabited

structure CheckRequest where
  json : Bool := false
deriving DecidableEq, Repr, Inhabited

structure DumpRequest where
  template : String
  raw : Bool := false
deriving DecidableEq, Repr, Inhabited

/-- What checking the templates of a directory comes to: their number, the names of those that do not
compile, and what was reported. -/
structure CheckResult where
  templates : Nat
  failed : List String
  diagnostics : List Diagnostic
deriving DecidableEq, Repr, Inhabited

namespace CheckResult

def json (r : CheckResult) : Json :=
  .object [("templates", .ofNat r.templates), ("failed", .array (r.failed.map Json.string)),
    ("diagnostics", .array (r.diagnostics.map Diagnostic.json))]

def summary (r : CheckResult) : String :=
  if r.failed.isEmpty then s!"ok: {r.templates} template(s) compiled\n"
  else
    s!"failed: {r.failed.length} of {r.templates} template(s) failed: " ++ ", ".intercalate r.failed ++ "\n"

end CheckResult

namespace Command

/-- The receiver of all diagnostics of a command. -/
def listener : Listener := .named "command"

/-- What was reported so far. -/
def collected : StateM Workspace (List Diagnostic) := return (← get).received.map Prod.snd

def reports (g : Group) (ds : List Diagnostic) : List Notice := ds.map fun d => .report (.ofDiagnostic g d)

/-- Ok, or that the templates are at fault if a diagnostic is an error. -/
def codeFor (ds : List Diagnostic) : Nat :=
  if ds.any fun d => d.kind.severity = .error then ExitCode.dataError.value else ExitCode.ok.value

/-- The result when a directory cannot be loaded. -/
def notLoaded (e : LoadError) : CommandResult :=
  let code := match e with
    | .unreadable _ _ => ExitCode.noInput
    | .define _ => ExitCode.dataError
  { code := code.value, notices := [.text ("error: " ++ e.message)] }

/-- The result when a template cannot be used: what was reported, and why. -/
def notUsable (g : Group) (e : GroupError) : StateM Workspace CommandResult := do
  return { code := ExitCode.dataError.value, notices := reports g (← collected) ++ [.text e.message] }

/-- The value of an attribute given as text: a whole number if it reads as one, and otherwise the text. -/
def bindingValue (text : String) : Value :=
  match Decimal.readInt64? text with
  | some n => .int n
  | none => .text text

/-- Sets the attributes that a file holds. -/
def setAll (i : Instance) : List (String × Value) → Except AttributeError Instance
  | [] => .ok i
  | (name, v) :: rest => do
    let i ← i.set name v
    setAll i rest

/-- Adds attributes that are given as text. -/
def appendAll (i : Instance) : List (String × String) → Except AttributeError Instance
  | [] => .ok i
  | (name, text) :: rest => do
    let i ← i.append name (bindingValue text)
    appendAll i rest

/-- Binds the attributes of a request, or tells what is wrong with them. -/
def bindAttributes (i : Instance) (r : RenderRequest) : Except String Instance := do
  let i ← match r.attributes with
    | none => pure i
    | some (path, .error reason) => throw s!"Cannot read attributes file {path}: {reason}"
    | some (path, .ok text) =>
      match Value.readAttributes? text with
      | none => throw s!"Invalid attributes file {path}: no object of attributes"
      | some entries => (setAll i entries).mapError AttributeError.message
  (appendAll i r.bindings).mapError AttributeError.message

/-- Renders a template that was found. -/
def renderFound (g : Group) (r : RenderRequest) (native : Group) (program : Program) :
    StateM Workspace CommandResult := do
  match bindAttributes (.ofProgram g native program none) r with
  | .error message =>
    return { code := ExitCode.noInput.value, notices := [.report { message }] }
  | .ok i =>
    let interpreter : Interpreter := {}
    let (output, trace) ← (do
      if r.trace then
        let trace ← interpreter.trace i
        return (trace.output, some trace)
      return (← interpreter.render i, none) : StateM Workspace (String × Option Trace))
    let ds ← collected
    if r.json then
      let document : Json :=
        .object [("output", .string output), ("diagnostics", .array (ds.map Diagnostic.json))]
      return { code := codeFor ds, output := document.pretty "" ++ "\n" }
    let table := (trace.map fun t => Notice.text (Table.ofTrace t).display).toList
    return { code := codeFor ds, output := output ++ "\n", notices := table ++ reports g ds }

/-- Renders a template of a directory. -/
def render (path : String) (files : Except String (List TemplateFile)) (r : RenderRequest) :
    StateM Workspace CommandResult := do
  match ← Group.load path listener files with
  | .error e => return notLoaded e
  | .ok g =>
    match ← g.lookup r.template with
    | .error e => notUsable g e
    | .ok (native, program) => renderFound g r native program

/-- What a command answers that checks the templates of a directory. -/
def checked (g : Group) (result : CheckResult) (r : CheckRequest) : CommandResult :=
  let code := codeFor result.diagnostics
  if r.json then { code, output := result.json.pretty "" ++ "\n" }
  else { code, output := result.summary, notices := reports g result.diagnostics }

/-- Compiles all templates of a directory. -/
def check (path : String) (files : Except String (List TemplateFile)) (r : CheckRequest) :
    StateM Workspace CommandResult := do
  match ← Group.load path listener files with
  | .error e => return notLoaded e
  | .ok g =>
    let failed ← g.compileEach g.templates
    return checked g ⟨g.templates.length, failed, ← collected⟩ r

mutual

/-- The tables of a template and of each template inside, each below its name. -/
def tables : Code → String
  | ⟨name, formals, source, lines, constants, inner, anonymous⟩ =>
    name ++ ":\n" ++
      (Table.ofCode ⟨name, formals, source, lines, constants, inner, anonymous⟩).display ++ "\n" ++
      tablesInside inner

def tablesInside : List Code → String
  | [] => ""
  | c :: rest => tables c ++ tablesInside rest

end

/-- Lists the program of a template of a directory. -/
def dump (path : String) (files : Except String (List TemplateFile)) (r : DumpRequest) :
    StateM Workspace CommandResult := do
  match ← Group.load path listener files with
  | .error e => return notLoaded e
  | .ok g =>
    match ← g.lookup r.template with
    | .error e => notUsable g e
    | .ok (_, program) =>
      return { code := ExitCode.ok.value, output := if r.raw then program.listing else tables program.toCode }

end Command

end Stencil
