import Stencil.Group.Workspace
import Stencil.Render.Frames
import Stencil.Render.Sink
/-! Computations of a render. They work on the state of the machine, and where one has to run an
instance it stops and says how it goes on afterwards. -/

namespace Stencil

/-- What stays the same during a render. -/
structure Settings where
  /-- How many templates may run inside one another, the outermost aside. -/
  depthLimit : Nat
  /-- The group of the outermost template, in which calls are looked up. -/
  group : Group
  listener : Listener

structure Machine where
  frames : Frames
  /-- The values that instructions work on, the topmost first. -/
  stack : List Value
  sink : Sink
  /-- The position in the output that the innermost sink has come to. -/
  cursor : Nat
  workspace : Workspace

/-- An instance that runs, and its frame. -/
structure Activation where
  bound : Instance
  scope : Nat

/-- The instance that runs and those that called it, the nearest first. -/
structure Env where
  here : Activation
  callers : List Activation
  /-- The region of source that is carried out. -/
  place : Option Span

namespace Env

def activations (env : Env) : List Activation := env.here :: env.callers

def program (env : Env) : Program := env.here.bound.program

def scope (env : Env) : Nat := env.here.scope

/-- The environment when a region of source is carried out. -/
def atPlace (env : Env) (place : Option Span) : Env := { env with place }

end Env

/-- How a computation goes: it is done, it has an instance run and goes on from the state in which that
leaves the machine, or it does without something that code should always provide. -/
inductive Course (α : Type) where
  | done (value : α) (machine : Machine)
  | call (env : Env) (bound : Instance) (machine : Machine) (rest : Machine → Course α)
  | fallback (rest : Course α)

namespace Course

variable {α β : Type}

/-- Goes on from the end of a course. -/
def bind (next : α → Machine → Course β) : Course α → Course β
  | done a m => next a m
  | call env bound m rest => call env bound m fun m => (rest m).bind next
  | fallback rest => fallback (rest.bind next)

/-- Runs instances in the places where they are called. -/
def handle (run : Env → Instance → Machine → Course Unit) : Course α → Course α
  | done a m => done a m
  | call env bound m rest => (run env bound m).bind fun _ m => (rest m).handle run
  | fallback rest => fallback (rest.handle run)

/-- The state at the end, if nothing happens in calls. -/
def machine : Course α → Machine
  | done _ m => m
  | call _ _ m rest => (rest m).machine
  | fallback rest => rest.machine

end Course

/-- A step of a render. -/
def Rendering (α : Type) : Type := Machine → Course α

namespace Rendering

variable {α : Type}

instance : Monad Rendering where
  pure a m := .done a m
  bind x f m := (x m).bind f

instance : MonadStateOf Machine Rendering where
  get m := .done m m
  set m _ := .done ⟨⟩ m
  modifyGet f m := .done (f m).1 (f m).2

/-- Has an instance run below the one that runs. -/
def call (env : Env) (bound : Instance) : Rendering Unit := fun m => .call env bound m (.done ())

/-- Tells that something is missing which code should always provide. -/
def fallback : Rendering Unit := fun m => .fallback (.done () m)

/-- Runs instances in the places where they are called. -/
def handle (run : Env → Instance → Rendering Unit) (x : Rendering α) : Rendering α :=
  fun m => (x m).handle run

end Rendering

/-- A step that may end the template that runs. -/
abbrev Attempt (α : Type) := OptionT Rendering α

end Stencil
