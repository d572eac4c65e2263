import Stencil.Group.Basic
import Stencil.Program.Compile
/-! The workspace keeps what groups share: the outcomes of compiling definitions, and the diagnostics
that were delivered. A definition is compiled when it is first needed, and its outcome is kept. -/

namespace Stencil

/-- What became of compiling a definition. A failure that a further definition may mend is tried again
when one arrives. -/
inductive Outcome where
  | ready (program : Program)
  | failed (retry : Bool)

namespace Outcome

def program? : Outcome → Option Program
  | ready program => some program
  | failed _ => none

end Outcome

/-- The place of a definition: its outcome, once there is one, and where the texts of the diagnostics
are kept that were reported for it. A definition that is compiled anew keeps that list. -/
structure Slot where
  outcome : Option Outcome
  reports : Nat

instance : Inhabited Slot := ⟨⟨none, 0⟩⟩

structure Workspace where
  slots : Array Slot
  /-- For each list of reports, the texts that were delivered. -/
  reports : Array (List String)
  /-- The diagnostics in the order of delivery, each with its receiver. -/
  delivered : Array (Listener × Diagnostic)

namespace Workspace

def empty : Workspace := ⟨#[], #[], #[]⟩

instance : Inhabited Workspace := ⟨empty⟩

def outcome? (w : Workspace) (slot : Nat) : Option Outcome := (w.slots[slot]?).bind Slot.outcome

/-- A slot for a new definition. -/
def allocate (w : Workspace) : Nat × Workspace :=
  (w.slots.size,
    { w with slots := w.slots.push ⟨none, w.reports.size⟩, reports := w.reports.push [] })

/-- Whether a definition has to be compiled anew when another one arrives: not if it failed in a way
that no definition can mend. -/
def isStale (w : Workspace) (slot : Nat) : Bool :=
  match w.outcome? slot with
  | some (.failed false) => false
  | _ => true

/-- A slot in the place of a stale one, for the same definition and with the same reports. -/
def renew (w : Workspace) (slot : Nat) : Nat × Workspace :=
  if w.isStale slot then
    let reports := (w.slots[slot]?.map Slot.reports).getD 0
    (w.slots.size, { w with slots := w.slots.push ⟨none, reports⟩ })
  else (slot, w)

def deliver (w : Workspace) (listener : Listener) (d : Diagnostic) : Workspace :=
  { w with delivered := w.delivered.push (listener, d) }

/-- Delivers a diagnostic of a definition unless one of the same text was delivered for it. -/
def reportOnce (w : Workspace) (slot : Nat) (listener : Listener) (d : Diagnostic) : Workspace :=
  let key := (w.slots[slot]?.map Slot.reports).getD 0
  let seen := (w.reports[key]?).getD []
  let text := d.display
  if seen.contains text then w
  else { w with reports := w.reports.setIfInBounds key (text :: seen) }.deliver listener d

def settle (w : Workspace) (slot : Nat) (outcome : Outcome) : Workspace :=
  { w with slots := w.slots.modify slot fun s => { s with outcome := some outcome } }

/-- The diagnostics that receivers with a name were sent, oldest first. -/
def received (w : Workspace) : List (String × Diagnostic) :=
  w.delivered.toList.filterMap fun (listener, d) =>
    match listener with
    | .log => none
    | .named name => some (name, d)

end Workspace

namespace CompileError

/-- Whether a further definition could let the template compile. -/
def isMendable (e : CompileError) : Bool :=
  e.diagnostics.any fun d =>
    match d.kind with
    | .noSuchTemplate | .noSuchFormalArgument | .argumentCountMismatch
    | .mapTemplateWithoutParameters => true
    | _ => false

end CompileError

/-- Why a name cannot be resolved. -/
inductive Unresolved where
  | undefined
  | compileFailed
deriving DecidableEq, Repr, Inhabited

namespace Group

/-- The program of a definition of this group, compiled against this group. -/
def compiled (g : Group) (name : String) (d : Definition) : StateM Workspace (Option Program) := do
  match (← get).outcome? d.slot with
  | some outcome => return outcome.program?
  | none =>
    match Program.compile g.directory name d.formals d.source with
    | .ok program =>
      modify fun w => w.settle d.slot (.ready program)
      return some program
    | .error e =>
      modify fun w =>
        (e.diagnostics.foldl (fun w diagnostic => w.reportOnce d.slot g.listener diagnostic) w).settle
          d.slot (.failed e.isMendable)
      return none

/-- The program of what was found for a name, and the group that defines it. -/
def resolveFound (name : String) (found : Option (Group × Definition)) :
    StateM Workspace (Except Unresolved (Group × Program)) := do
  match found with
  | none => return .error .undefined
  | some (native, definition) =>
    match ← native.compiled name definition with
    | some program => return .ok (native, program)
    | none => return .error .compileFailed

/-- Resolves a name in the group. -/
def resolve (g : Group) (name : String) : StateM Workspace (Except Unresolved (Group × Program)) :=
  resolveFound name (g.find? name)

/-- Resolves what `super.name` means in the group. -/
def resolveInherited (g : Group) (name : String) :
    StateM Workspace (Except Unresolved (Group × Program)) :=
  resolveFound name (g.findInherited? name)

def unresolvedError (g : Group) (name : String) : Unresolved → GroupError
  | .undefined => .noSuchTemplate name (nearby name g.visibleNames)
  | .compileFailed => .compileFailed [name]

/-- Looks up a template: the group that defines it and its program. -/
def lookup (g : Group) (name : String) : StateM Workspace (Except GroupError (Group × Program)) := do
  match ← g.resolve name with
  | .ok found => return .ok found
  | .error e => return .error (g.unresolvedError name e)

/-- The name of templates that are compiled from source on the spot. -/
def anonymousName : String := "anonymous"

/-- Compiles source on the spot, as a template that may use any attribute. All its diagnostics are
delivered. -/
def compileSource (g : Group) (source : String) : StateM Workspace (Except GroupError Program) := do
  match Program.compile g.directory anonymousName .any source with
  | .ok program => return .ok program
  | .error e =>
    modify fun w => e.diagnostics.foldl (fun w d => w.deliver g.listener d) w
    return .error (.compileFailed [anonymousName])

/-- Compiles the definitions of a list, and gives the names of those that fail. -/
def compileEach (g : Group) : List (String × Definition) → StateM Workspace (List String)
  | [] => return []
  | (name, definition) :: rest => do
    let program ← g.compiled name definition
    let failed ← g.compileEach rest
    return if program.isNone then name :: failed else failed

/-- Compiles all definitions of the group itself and counts them. -/
def compileAll (g : Group) : StateM Workspace (Except GroupError Nat) := do
  match ← g.compileEach g.templates with
  | [] => return .ok g.templates.length
  | failed => return .error (.compileFailed failed)

/-- Gives new slots to the definitions that have to be compiled anew. -/
def renewEach : List (String × Definition) → StateM Workspace (List (String × Definition))
  | [] => return []
  | (name, definition) :: rest => do
    let slot ← modifyGet fun w => w.renew definition.slot
    return (name, { definition with slot }) :: (← renewEach rest)

/-- Adds a definition. The name has to be new in this group, though an import may have it; the other
definitions are compiled anew, as they may refer to it. -/
def define (g : Group) (name : String) (formals : Formals) (source : String) :
    StateM Workspace (Except GroupError Group) := do
  if !isName name then return .error (.invalidName name)
  if Dict.contains g.templates name then return .error (.redefinition g.name name)
  if let some parameter := formals.duplicate? then return .error (.duplicateParameter name parameter)
  let renewed ← renewEach g.templates
  let slot ← modifyGet Workspace.allocate
  return .ok { g with templates := Dict.insert name ⟨formals, source, slot⟩ renewed }

end Group

end Stencil
