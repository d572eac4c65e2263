import Stencil.Render.Course
/-! What can be done with the state of a render in a single step. -/

namespace Stencil

namespace Machine

/-- The diagnostic of a problem of the instance that runs, with the chain of templates and the source
that is carried out. -/
def diagnostic (m : Machine) (env : Env) (kind : Kind) (arguments causes : List String) : Diagnostic :=
  { Diagnostic.rendering kind arguments with
    template := some env.program.name
    callPath := m.frames.callPath env.scope
    location := env.place.map fun s => .inSource env.program.source s.offset s.length
    causes }

/-- Works on the frames alone. -/
def changeFrames (f : Frames → Frames) (m : Machine) : Machine := { m with frames := f m.frames }

/-- Opens a frame for an instance, below that of its caller. -/
def enter (caller : Option Env) (bound : Instance) (m : Machine) : Env × Machine :=
  let (scope, frames) := m.frames.enter (caller.map Env.scope) bound.name
  (⟨⟨bound, scope⟩, (caller.map Env.activations).getD [], none⟩, { m with frames })

/-- Closes the frame of an instance that came to its end. Of the stack, only the values that lay there
before are kept. -/
def leave (env : Env) (start height : Nat) (m : Machine) : Machine :=
  { m with stack := m.stack.drop (m.stack.length - height) }.changeFrames fun f =>
    let completion : Completion :=
      ⟨env.scope, env.here.bound.name, ⟨start, m.sink.position⟩, f.isEarly env.scope⟩
    (f.recordCompletion completion).exit env.scope

/-- Delivers the diagnostic of a problem. -/
def report (settings : Settings) (env : Env) (kind : Kind) (arguments causes : List String)
    (m : Machine) : Machine :=
  { m with workspace := m.workspace.deliver settings.listener (m.diagnostic env kind arguments causes) }

end Machine

namespace Rendering

def frames : Rendering Frames := return (← get).frames

def changeFrames (f : Frames → Frames) : Rendering Unit := modify (·.changeFrames f)

def position : Rendering Nat := return (← get).sink.position

def push (v : Value) : Rendering Unit := modify fun m => { m with stack := v :: m.stack }

/-- Takes the topmost value, null if there is none. -/
def pop : Rendering Value := fun m =>
  match m.stack with
  | [] => .fallback (.done .null m)
  | v :: stack => .done v { m with stack }

/-- Takes the topmost values, the deepest first. -/
def popMany (n : Nat) : Rendering (List Value) := fun m =>
  let rest := .done (m.stack.take n).reverse { m with stack := m.stack.drop n }
  if n ≤ m.stack.length then rest else .fallback rest

/-- Works on the workspace alone. -/
def inWorkspace {α : Type} (action : StateM Workspace α) : Rendering α :=
  modifyGet fun m =>
    let (a, workspace) := action.run m.workspace
    (a, { m with workspace })

/-- Reports a problem of the instance that runs. -/
def report (settings : Settings) (env : Env) (kind : Kind) (arguments : List String)
    (causes : List String := []) : Rendering Unit :=
  modify (·.report settings env kind arguments causes)

/-- The text of the cause when a writer fails. -/
def writerFailure : String := "an error occurred when formatting an argument"

/-- Writes text. The first failure of the writer is reported. -/
def writeText (settings : Settings) (env : Env) (text : String) : Rendering Unit := do
  let sink := (← get).sink
  if sink.failed || text.isEmpty then return
  match sink.accept? text with
  | some sink => modify fun m => { m with sink, cursor := sink.position }
  | none =>
    modify fun m => { m with sink := sink.refuse }
    report settings env .outputFailure [] [writerFailure]

/-- Runs an action and keeps what it writes aside. Positions count on from where the output is, and
afterwards the output is where it was. -/
def capture (action : Rendering Unit) : Rendering String := do
  let sink := (← get).sink
  let cursor := (← get).cursor
  modify fun m => { m with sink := Sink.scratch cursor }
  action
  let text := (← get).sink.text
  modify fun m => { m with sink, cursor }
  return text

/-- The text of a scalar: what the renderer for its kind makes of it, or its plain text. -/
def scalarText (settings : Settings) (env : Env) (kind : ScalarKind) (plain : String)
    (format : Option String) : Rendering String := do
  match settings.group.renderer? kind with
  | none => return plain
  | some renderer =>
    match renderer kind plain format with
    | .ok text => return text
    | .error causes =>
      report settings env .rendererFailure [kind.display] causes
      return plain

end Rendering

/-- The value of a name for a chain of activations. An instance's own attributes come first, then its
defaults, then what the instance around it has, which is looked for by its frame; instances that are
not around it are passed over. -/
def lookupFrom (frames : Frames) (name : String) : Option Nat → List Activation → Option Value
  | _, [] => none
  | wanted, a :: callers =>
    if wanted.all (· == a.scope) then
      match Dict.find? a.bound.attributes name with
      | some v => some v
      | none =>
        match frames.default? a.scope name with
        | some v => some v
        | none =>
          match a.bound.enclosing with
          | some scope => lookupFrom frames name (some scope) callers
          | none => none
    else lookupFrom frames name wanted callers

end Stencil
