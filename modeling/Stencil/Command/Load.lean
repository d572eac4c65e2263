import Stencil.Group.Workspace
/-! Builds a group from a directory of template files. -/

namespace Stencil

/-- A file of a directory, with its text or the reason why it cannot be read. -/
structure TemplateFile where
  name : String
  content : Except String String
deriving Inhabited

/-- Why a directory cannot be loaded. -/
inductive LoadError where
  | unreadable (path reason : String)
  | define (error : GroupError)
deriving DecidableEq, Repr, Inhabited

namespace LoadError

def message : LoadError → String
  | unreadable path reason => s!"cannot read {path}: {reason}"
  | define error => error.message

end LoadError

namespace TemplateFile

/-- The part of a file name in front of its last dot and the part behind it. A dot in front of the
whole name starts no extension. -/
def splitName (name : String) : String × Option String :=
  let backwards := name.toList.reverse
  match backwards.dropWhile (· != '.') with
  | [] | [_] => (name, none)
  | _ :: stem =>
    (String.ofList stem.reverse, some (String.ofList (backwards.takeWhile (· != '.')).reverse))

/-- The extension of template files. -/
def templateExtension : String := "st"

/-- The name of the template in a file, if it is a template file. -/
def template? (f : TemplateFile) : Option String :=
  match splitName f.name with
  | (stem, some e) => if e = templateExtension then some stem else none
  | (_, none) => none

/-- Template files in the order of their names. -/
def inOrder (files : List TemplateFile) : List TemplateFile :=
  (files.filter fun f => f.template?.isSome).mergeSort fun a b => !(b.name < a.name)

end TemplateFile

namespace Group

/-- Defines the templates of files in turn. Each may use any attribute. -/
def defineFiles (path : String) (g : Group) : List TemplateFile → StateM Workspace (Except LoadError Group)
  | [] => return .ok g
  | f :: rest => do
    match f.template?, f.content with
    | none, _ => defineFiles path g rest
    | some _, .error reason => return .error (.unreadable (path ++ "/" ++ f.name) reason)
    | some name, .ok source =>
      match ← g.define name .any source with
      | .error e => return .error (.define e)
      | .ok g => defineFiles path g rest

/-- The last part of a path. -/
def lastPart (path : String) : String :=
  String.ofList (path.toList.reverse.takeWhile (· != '/')).reverse

/-- Loads a directory whose files are given, or the reason why it cannot be read. -/
def load (path : String) (listener : Listener) (files : Except String (List TemplateFile)) :
    StateM Workspace (Except LoadError Group) := do
  match files with
  | .error reason => return .error (.unreadable path reason)
  | .ok files => defineFiles path ((empty (lastPart path)).listeningAt listener) (TemplateFile.inOrder files)

end Group

end Stencil
