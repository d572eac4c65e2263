import Stencil.Command.Line
/-! The command line tool: reads files, runs a command and prints its result. -/

namespace Stencil.CommandLine

/-- Why a file cannot be read. -/
def reason : IO.Error → String
  | .noFileOrDirectory _ code _ => s!"No such file or directory (os error {code})"
  | e => toString e

/-- The text of a file, or the reason why it cannot be read. -/
def readText (path : String) : IO (Except String String) := do
  try
    return .ok (← IO.FS.readFile path)
  catch e => return .error (reason e)

/-- The files of a directory, or the reason why it cannot be read. -/
def readFiles (directory : String) : IO (Except String (List TemplateFile)) := do
  try
    let root ← IO.FS.realPath directory
    let entries ← root.readDir
    let mut files := []
    for entry in entries do
      unless ← entry.path.isDir do
        files := ⟨entry.fileName, ← readText (directory ++ "/" ++ entry.fileName)⟩ :: files
    return .ok files
  catch e => return .error (reason e)

/-- Runs a command from an empty workspace. -/
def perform (directory : String) (invocation : Invocation) : IO CommandResult := do
  let files ← readFiles directory
  match invocation with
  | .render request none => return ((Command.render directory files request).run .empty).1
  | .render request (some path) =>
    let request := { request with attributes := some (path, ← readText path) }
    return ((Command.render directory files request).run .empty).1
  | .check request => return ((Command.check directory files request).run .empty).1
  | .dump request => return ((Command.dump directory files request).run .empty).1

end Stencil.CommandLine

open Stencil in
def main (arguments : List String) : IO UInt32 := do
  match CommandLine.read arguments with
  | .error message =>
    IO.eprintln ("error: " ++ message)
    return 2
  | .ok (directory, invocation) =>
    let result ← CommandLine.perform directory invocation
    IO.print result.output
    for notice in result.notices do
      match notice with
      | .text text => IO.eprintln text
      | .report report =>
        for line in report.lines do IO.eprintln line
    return UInt32.ofNat result.code
