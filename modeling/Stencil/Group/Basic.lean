import Stencil.Dict
import Stencil.Text.Quoted
import Stencil.Template.Cursor
import Stencil.Template.Problem
/-! Groups: named directories of templates that may import other groups. A group is a value, so what
holds a group keeps the definitions that it had then. -/

namespace Stencil

/-- The kinds of scalars, by which renderers are registered. -/
inductive ScalarKind where
  | bool | int | float | text
  | object (typeName : String)
deriving DecidableEq, Repr, Inhabited

namespace ScalarKind

def display : ScalarKind → String
  | bool => "Bool"
  | int => "Int"
  | float => "Float"
  | text => "Str"
  | object typeName => "Object(" ++ Text.quote typeName ++ ")"

end ScalarKind

/-- A renderer turns a scalar into text. It is given the kind of the scalar, its plain text and the
format that was asked for, and fails with the texts of the causes. -/
abbrev Renderer := ScalarKind → String → Option String → Except (List String) String

/-- Where the diagnostics of a group go: to the log, or to a receiver of a name. -/
inductive Listener where
  | log
  | named (name : String)
deriving DecidableEq, Repr, Inhabited

/-- What is known of a template before it is compiled. Its slot is the place where the workspace keeps
the outcome. -/
structure Definition where
  formals : Formals
  source : String
  slot : Nat
deriving DecidableEq, Repr, Inhabited

structure Group where
  name : String
  templates : List (String × Definition)
  imports : List Group
  listener : Listener
  renderers : List (ScalarKind × Renderer)

namespace Group

instance : Inhabited Group := ⟨⟨"", [], [], .log, []⟩⟩

def empty (name : String) : Group := ⟨name, [], [], .log, []⟩

/-- Names defined in this group itself, in order. -/
def ownNames (g : Group) : List String := Dict.keys g.templates

mutual

/-- The definition of a name and the group that has it: the group's own, or the first that its imports
have, each searched with its own imports before the next. -/
def find? (name : String) : Group → Option (Group × Definition)
  | ⟨group, templates, imports, listener, renderers⟩ =>
    match Dict.find? templates name with
    | some definition => some (⟨group, templates, imports, listener, renderers⟩, definition)
    | none => findIn? name imports

/-- The first definition of a name that the groups have. -/
def findIn? (name : String) : List Group → Option (Group × Definition)
  | [] => none
  | g :: gs =>
    match g.find? name with
    | some found => some found
    | none => findIn? name gs

end

/-- The definition that `super.name` means in this group. -/
def findInherited? (g : Group) (name : String) : Option (Group × Definition) := findIn? name g.imports

/-- The definition of a callee written in this group. -/
def findCallee? (g : Group) (callee : Callee) : Option (Group × Definition) :=
  if callee.inherited then g.findInherited? callee.name else g.find? callee.name

def contains (g : Group) (name : String) : Bool := (g.find? name).isSome

def sourceOf? (g : Group) (name : String) : Option String :=
  (g.find? name).map fun (_, definition) => definition.source

def formalsOf? (g : Group) (name : String) : Option Formals :=
  (g.find? name).map fun (_, definition) => definition.formals

def inheritedFormalsOf? (g : Group) (name : String) : Option Formals :=
  (g.findInherited? name).map fun (_, definition) => definition.formals

mutual

/-- The names that a group and its imports define, with repetitions. -/
def allNames : Group → List String
  | ⟨_, templates, imports, _, _⟩ => Dict.keys templates ++ allNamesIn imports

def allNamesIn : List Group → List String
  | [] => []
  | g :: gs => g.allNames ++ allNamesIn gs

end

/-- The names that are visible in a group, sorted and each once. -/
def visibleNames (g : Group) : List String := Dict.union [g.allNames]

mutual

/-- The renderer for a kind: the group's own, or the first that its imports have. -/
def renderer? (kind : ScalarKind) : Group → Option Renderer
  | ⟨_, _, imports, _, renderers⟩ =>
    match renderers.lookup kind with
    | some renderer => some renderer
    | none => rendererIn? kind imports

def rendererIn? (kind : ScalarKind) : List Group → Option Renderer
  | [] => none
  | g :: gs =>
    match g.renderer? kind with
    | some renderer => some renderer
    | none => rendererIn? kind gs

end

/-- What the templates of a group may call. -/
def directory (g : Group) : Directory :=
  { formals? := g.formalsOf?
    inheritedFormals? := g.inheritedFormalsOf?
    names := g.visibleNames }

/-- Makes the templates of another group visible, behind those of the earlier imports. -/
def importing (g other : Group) : Group := { g with imports := g.imports ++ [other] }

def listeningAt (g : Group) (listener : Listener) : Group := { g with listener }

/-- Uses a renderer for every scalar of a kind. -/
def registering (g : Group) (kind : ScalarKind) (renderer : Renderer) : Group :=
  { g with renderers := (kind, renderer) :: g.renderers }

/-- A list of texts between brackets. -/
def quoteAll (names : List String) : String := "[" ++ ", ".intercalate (names.map Text.quote) ++ "]"

/-- The group as it is shown to developers. -/
def display (g : Group) : String :=
  "Group \x7b name: " ++ Text.quote g.name ++ ", templates: " ++ quoteAll g.ownNames ++
    ", imports: " ++ quoteAll (g.imports.map Group.name) ++ ", .. \x7d"

end Group

/-- Why an operation on a group is refused. -/
inductive GroupError where
  | invalidName (name : String)
  | redefinition (group name : String)
  | duplicateParameter (template parameter : String)
  | noSuchTemplate (name : String) (suggestions : List String)
  | compileFailed (templates : List String)
deriving DecidableEq, Repr, Inhabited

namespace GroupError

def message : GroupError → String
  | invalidName name => s!"invalid template name '{name}'"
  | redefinition group name => s!"template '{name}' is already defined in group '{group}'"
  | duplicateParameter template parameter =>
    s!"template '{template}' declares parameter '{parameter}' more than once"
  | noSuchTemplate name suggestions => s!"no such template: {name}" ++ didYouMean suggestions
  | compileFailed templates => "failed to compile: " ++ ", ".intercalate templates

end GroupError

end Stencil
