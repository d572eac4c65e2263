import Stencil.Render.Run
/-! Renders an instance with given settings. A render always has a result; what goes wrong is reported. -/

namespace Stencil

/-- How to render. -/
structure Interpreter where
  depthLimit : Nat := 100
  /-- Whether frames and events are kept. -/
  retain : Bool := false
  /-- Where diagnostics go in place of the listener of the instance's group. -/
  listener : Option Listener := none
deriving DecidableEq, Repr, Inhabited

/-- The output of a render and the frames that were retained. -/
structure Trace where
  output : String
  frames : Frames

namespace Interpreter

/-- The interpreter as it is shown to developers. -/
def display (i : Interpreter) : String :=
  "Interpreter \x7b max_depth: " ++ toString i.depthLimit ++ ", debug: " ++ toString i.retain ++
    ", listener: " ++ toString i.listener.isSome ++ " \x7d"

/-- The state of the machine when an instance has been run. -/
def final (i : Interpreter) (retain : Bool) (room : Option Nat) (bound : Instance) (w : Workspace) :
    Machine :=
  let settings : Settings := ⟨i.depthLimit, bound.group, i.listener.getD bound.group.listener⟩
  let start : Machine := ⟨Frames.empty retain, [], Sink.output room, 0, w⟩
  (Rendering.invoke settings (i.depthLimit + 1) none bound start).machine

/-- Renders into a writer that accepts a number of writes, or any. The result is the number of
characters that it accepted, and what they were. -/
def renderTo (i : Interpreter) (room : Option Nat) (bound : Instance) : StateM Workspace (Nat × String) :=
  modifyGet fun w =>
    let m := i.final i.retain room bound w
    ((m.sink.written, m.sink.text), m.workspace)

def render (i : Interpreter) (bound : Instance) : StateM Workspace String :=
  Prod.snd <$> i.renderTo none bound

/-- Renders and keeps all frames and events. -/
def trace (i : Interpreter) (bound : Instance) : StateM Workspace Trace :=
  modifyGet fun w =>
    let m := i.final true none bound w
    (⟨m.sink.text, m.frames⟩, m.workspace)

end Interpreter

namespace Trace

/-- The call path of every template, in the order of completion. -/
def paths (t : Trace) : List (List String) := t.frames.completions.map fun c => t.frames.callPath c.scope

end Trace

end Stencil
