import Stencil.Render.Write
import Stencil.Value.Builtin
/-! What expressions do with values. -/

namespace Stencil

/-- What a call passes. -/
inductive Passed where
  | positional (values : List Value)
  | named (values : List (String × Value))

namespace Rendering

variable (settings : Settings) (env : Env)

/-- The value of an attribute, null if it is not set. -/
def readAttribute (name : String) : Rendering Value :=
  return (lookupFrom (← frames) name none env.activations).getD .null

/-- Whether an attribute was passed. -/
def isPassed (name : String) : Bool := Dict.contains env.here.bound.attributes name

/-- Keeps the default of a parameter. -/
def storeDefault (name : String) (v : Value) : Rendering Unit :=
  changeFrames fun f => f.storeDefault env.scope name v

/-- A property, or null and a report. -/
def readProperty (target : Value) (name : String) : Rendering Value := do
  match target.property name with
  | .ok v => return v
  | .error e =>
    report settings env e.kind e.arguments
    return .null

/-- The property of a key, which is rendered to text unless it is a number. -/
def readPropertyAt (target key : Value) : Rendering Value := do
  let name ← match key.int? with
    | some index => pure (toString index)
    | none => renderText settings env key
  readProperty settings env target name

/-- Applies a function. The argument of those on text is rendered first, unless it is null. -/
def applyBuiltin (function : Builtin) (v : Value) : Rendering Value := do
  if function.takesText && !v.isNull then
    return .apply function (.text (← renderText settings env v))
  return .apply function v

/-- Binds named arguments. A name that the template does not accept is reported and left out. -/
def bindNamed (template : String) (bound : Instance) : List (String × Value) → Rendering Instance
  | [] => return bound
  | (name, value) :: rest => do
    if bound.program.formals.accepts name then
      bindNamed template (bound.bind name value) rest
    else
      report settings env .noSuchFormalArgument [template, name]
      bindNamed template bound rest

/-- Binds arguments to the parameters of a template that was called by a name; too many of them end
the calling template. -/
def bindArguments (template : String) (bound : Instance) : Passed → Attempt Instance
  | .positional values => do
    let parameters := bound.program.formals.parameters
    if values.length > parameters.length then
      report settings env .argumentCountMismatch
        [toString values.length, template, toString parameters.length]
      failure
    return (parameters.zip values).foldl (fun i (p, v) => i.bind p.name v) bound
  | .named values => bindNamed settings env template bound values

/-- Looks up a template that is called. Names are looked up in the group of the outermost template, so
that it may replace what its imports define; `super` starts from the group that defines the calling
template. -/
def resolve (callee : Callee) : Rendering (Except Unresolved (Group × Program)) :=
  inWorkspace <|
    if callee.inherited then env.here.bound.native.resolveInherited callee.name
    else settings.group.resolve callee.name

/-- An instance of a template that is called. -/
def instantiate (callee : Callee) (passed : Passed) : Attempt Instance := do
  match ← resolve settings env callee with
  | .error .undefined =>
    report settings env .undefinedTemplate [callee.display]
    failure
  | .error .compileFailed =>
    report settings env .templateCompileFailed [callee.name]
    failure
  | .ok (native, program) =>
    bindArguments settings env callee.name (.ofProgram settings.group native program none) passed

/-- An instance of the template of a computed name, which may not be empty. -/
def instantiateComputed (name : String) (passed : Passed) : Attempt Instance := do
  if name.isEmpty then
    report settings env .emptyTemplateName
      [(env.place.bind fun s => s.text? env.program.source).getD ""]
    failure
  instantiate settings env ⟨name, false⟩ passed

/-- An instance of a template without a name, which belongs to the instance that runs. -/
def enclosed (program : Program) : Instance :=
  .ofProgram settings.group env.here.bound.native program (some env.scope)

/-- An instance for an element, with its position from zero. -/
def bindElement (bound : Instance) (element : Value) (index : Nat) : Rendering Value := do
  match bound.program.formals.receiver? with
  | none =>
    report settings env .mapTemplateWithoutParameters [bound.name]
    return .null
  | some parameter =>
    return .template <| ((bound.bind parameter element).bind Formals.position (.ofNat (index + 1))).bind
      Formals.positionFromZero (.ofNat index)

/-- Maps the template whose turn it is over an element. -/
def mapElement (templates : List (Option Instance)) (index : Nat) (v : Value) : Rendering Value :=
  match templates[index % templates.length]? with
  | some (some bound) => bindElement settings env bound v index
  | _ => return .null

/-- Maps templates over elements, taking turns. Nulls stay null and have no position. -/
def mapElements (templates : List (Option Instance)) : Nat → List Value → Rendering (List Value)
  | _, [] => return []
  | index, v :: vs => do
    if v.isNull then
      let rest ← mapElements templates index vs
      return .null :: rest
    let mapped ← mapElement settings env templates index v
    let rest ← mapElements templates (index + 1) vs
    return mapped :: rest

/-- Maps templates over a value. What is no sequence or map gives one instance. -/
def mapValue (target : Value) (templates : List (Option Instance)) : Rendering Value := do
  if target.isNull || templates.isEmpty then return .null
  let results ← mapElements settings env templates 0 target.elements
  return if target.isMultiple then .sequence results else results.getLastD .null

end Rendering

end Stencil
