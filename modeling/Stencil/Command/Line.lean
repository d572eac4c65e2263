import Stencil.Command.Basic
/-! Reads the arguments of the command line. -/

namespace Stencil

/-- A command with what is asked of it. The attributes file of a render is given by its path. -/
inductive Invocation where
  | render (request : RenderRequest) (attributes : Option String)
  | check (request : CheckRequest)
  | dump (request : DumpRequest)

namespace CommandLine

/-- What the options say, whatever the command is. -/
structure Options where
  directory : String := "."
  command : Option String := none
  template : Option String := none
  attributes : Option String := none
  bindings : List (String × String) := []
  json : Bool := false
  trace : Bool := false
  raw : Bool := false

/-- A binding at its first equals sign. -/
def binding? (text : String) : Option (String × String) :=
  match text.toList.dropWhile (· != '=') with
  | [] => none
  | _ :: value => some (String.ofList (text.toList.takeWhile (· != '=')), String.ofList value)

/-- Reads the options in turn, or tells what is wrong with one. -/
def readOptions (o : Options) : List String → Except String Options
  | [] => .ok o
  | "--json" :: rest => readOptions { o with json := true } rest
  | "--trace" :: rest => readOptions { o with trace := true } rest
  | "--raw" :: rest => readOptions { o with raw := true } rest
  | option :: argument :: rest =>
    match option with
    | "-d" | "--dir" => readOptions { o with directory := argument } rest
    | "-t" | "--template" => readOptions { o with template := some argument } rest
    | "--attrs" => readOptions { o with attributes := some argument } rest
    | "-a" | "--attr" =>
      match binding? argument with
      | some b => readOptions { o with bindings := o.bindings ++ [b] } rest
      | none => .error s!"invalid attribute format '{argument}': expected name=value"
    | command =>
      if o.command.isNone && !command.startsWith "-" then
        readOptions { o with command := some command } (argument :: rest)
      else .error s!"unexpected argument '{command}'"
  | [command] =>
    if o.command.isNone && !command.startsWith "-" then .ok { o with command := some command }
    else .error s!"unexpected argument '{command}'"

/-- The directory and the command that the arguments ask for. -/
def read (arguments : List String) : Except String (String × Invocation) := do
  let o ← readOptions {} arguments
  let template ← match o.command, o.template with
    | some "check", _ => pure ""
    | _, some template => pure template
    | _, none => throw "a template is required: --template NAME"
  match o.command with
  | some "render" =>
    return (o.directory,
      .render { template, bindings := o.bindings, json := o.json, trace := o.trace } o.attributes)
  | some "check" => return (o.directory, .check { json := o.json })
  | some "dump" => return (o.directory, .dump { template, raw := o.raw })
  | _ => throw "expected a command: render, check or dump"

end CommandLine

end Stencil
