import Stencil.Value.Attributes
/-! The frames of a render: one for each template that runs, linked to the frame that called it. When
frames are retained, what happened in them is recorded too. -/

namespace Stencil

/-- A stretch of the output, in characters. -/
structure Extent where
  start : Nat
  stop : Nat
deriving DecidableEq, Repr, Inhabited

/-- An expression that was written. -/
structure Writing where
  scope : Nat
  output : Extent
  source : Option Span
deriving DecidableEq, Repr, Inhabited

/-- A template that came to its end. -/
structure Completion where
  scope : Nat
  template : String
  output : Extent
  early : Bool
deriving DecidableEq, Repr, Inhabited

inductive Event where
  | wrote (writing : Writing)
  | completed (completion : Completion)
deriving DecidableEq, Repr, Inhabited

structure Frame where
  parent : Option Nat
  template : String
  /-- The address of the next instruction. -/
  next : Nat := 0
  /-- Whether the frame runs while the name of a template, or an expression in parentheses, is evaluated. -/
  early : Bool := false
  /-- The number of frames above. -/
  depth : Nat := 0
  /-- Defaults of parameters that were not passed. -/
  defaults : Dict Value := []
  events : Array Event := #[]
  /-- The completions of the frames that this one called. -/
  children : Array Completion := #[]

/-- All frames of a render. A frame is known by its place. -/
structure Frames where
  frames : Array Frame
  retained : Bool
  /-- The events of all frames. -/
  log : Array Event

namespace Frames

def empty (retained : Bool) : Frames := ⟨#[], retained, #[]⟩

def size (f : Frames) : Nat := f.frames.size

def get? (f : Frames) (scope : Nat) : Option Frame := f.frames[scope]?

def change (f : Frames) (scope : Nat) (g : Frame → Frame) : Frames :=
  { f with frames := f.frames.modify scope g }

/-- Adds a frame below another, from which it takes over whether it runs early. -/
def enter (f : Frames) (parent : Option Nat) (template : String) : Nat × Frames :=
  let above := parent.bind f.get?
  let frame : Frame :=
    { parent, template
      early := (above.map Frame.early).getD false
      depth := (above.map fun a => a.depth + 1).getD 0 }
  (f.size, { f with frames := f.frames.push frame })

/-- Leaves a frame. It is dropped if it is the last one and frames are not retained. -/
def exit (f : Frames) (scope : Nat) : Frames :=
  if !f.retained && scope + 1 = f.size then { f with frames := f.frames.pop } else f

/-- The templates of at most `n` frames, from one upwards. -/
def pathUp (f : Frames) : Nat → Option Nat → List String
  | 0, _ => []
  | _ + 1, none => []
  | n + 1, some scope =>
    match f.get? scope with
    | none => []
    | some frame => frame.template :: pathUp f n frame.parent

/-- The templates from the root to a frame. -/
def callPath (f : Frames) (scope : Nat) : List String := (f.pathUp f.size (some scope)).reverse

def next (f : Frames) (scope : Nat) : Nat := ((f.get? scope).map Frame.next).getD 0

def setNext (f : Frames) (scope address : Nat) : Frames :=
  f.change scope fun frame => { frame with next := address }

def isEarly (f : Frames) (scope : Nat) : Bool := ((f.get? scope).map Frame.early).getD false

def setEarly (f : Frames) (scope : Nat) (early : Bool) : Frames :=
  f.change scope fun frame => { frame with early }

def default? (f : Frames) (scope : Nat) (name : String) : Option Value :=
  (f.get? scope).bind fun frame => Dict.find? frame.defaults name

def storeDefault (f : Frames) (scope : Nat) (name : String) (value : Value) : Frames :=
  f.change scope fun frame => { frame with defaults := Dict.insert name value frame.defaults }

/-- Records an event in its frame and in the log. -/
def record (f : Frames) (scope : Nat) (e : Event) : Frames :=
  let f := f.change scope fun frame => { frame with events := frame.events.push e }
  { f with log := f.log.push e }

/-- Records what an expression wrote, if events are kept. -/
def recordWriting (f : Frames) (w : Writing) : Frames :=
  if f.retained then f.record w.scope (.wrote w) else f

/-- Records that a template came to its end, in its own frame, in the one that called it and in the log. -/
def recordCompletion (f : Frames) (c : Completion) : Frames :=
  if f.retained then
    let recorded := f.record c.scope (.completed c)
    match (f.get? c.scope).bind Frame.parent with
    | some parent => recorded.change parent fun frame => { frame with children := frame.children.push c }
    | none => recorded
  else f

/-- The completions in the log, in order. -/
def completions (f : Frames) : List Completion :=
  f.log.toList.filterMap fun
    | .completed c => some c
    | .wrote _ => none

end Frames

end Stencil
