import Stencil.Render.Evaluate
/-! Runs programs. -/

namespace Stencil

/-- What follows an instruction: the next one, or the one at an address. -/
inductive Flow where
  | next
  | jump (target : Nat)
deriving DecidableEq, Repr

namespace Rendering

/-! ## Operands -/

/-- The text of a value that should be one, and else empty text. -/
def textOf (v : Value) : Rendering String :=
  match v with
  | .text s => return s
  | _ => do
    fallback
    return ""

/-- The instance of a value that should be a template. -/
def instanceOf (v : Value) : Rendering (Option Instance) :=
  match v with
  | .template bound => return some bound
  | _ => do
    fallback
    return none

/-- Names and values in turn, as pairs. -/
def pairs : List Value → Rendering (List (String × Value))
  | name :: value :: rest => do
    let name ← textOf name
    return (name, value) :: (← pairs rest)
  | _ => return []

def popArguments : Passing → Rendering Passed
  | .positional n => .positional <$> popMany n
  | .named n => do return .named (← pairs (← popMany (2 * n)))

/-- Takes the value of an option, if it is present, and renders it. -/
def popOption (settings : Settings) (env : Env) (present : Bool) : Rendering (Option String) := do
  if present then return some (← renderText settings env (← pop)) else return none

/-- Takes the values of options, the null text first, and renders them. -/
def popOptions (settings : Settings) (env : Env) (set : OptionSet) : Rendering WriteOptions := do
  let null ← popOption settings env set.null
  let format ← popOption settings env set.format
  let separator ← popOption settings env set.separator
  return { separator, format, null }

/-- The text of a constant, empty if there is none. -/
def constant (env : Env) (id : Nat) : Rendering String :=
  match env.program.constants[id]? with
  | some s => return s
  | none => do
    fallback
    return ""

/-- The template without a name of a number. -/
def subprogram (settings : Settings) (env : Env) (index : Nat) : Attempt Program :=
  match env.program.subprogram? index with
  | some program => return program
  | none => do
    fallback
    report settings env .internalError [s!"no subtemplate {index}"]
    failure

/-! ## Instructions -/

/-- Carries out an instruction. -/
def step (settings : Settings) (env : Env) : Instr String Program → Attempt Flow
  | .text s => do
    writeText settings env s
    return .next
  | .pushText s => do
    push (.text s)
    return .next
  | .pushTruth b => do
    push (.bool b)
    return .next
  | .pushAttribute name => do
    push (← readAttribute env name)
    return .next
  | .property name => do
    push (← readProperty settings env (← pop) name)
    return .next
  | .propertyAt => do
    let key ← pop
    let target ← pop
    push (← readPropertyAt settings env target key)
    return .next
  | .builtin function => do
    push (← applyBuiltin settings env function (← pop))
    return .next
  | .list count => do
    push (.list (← popMany count))
    return .next
  | .create name inherited passing => do
    let passed ← popArguments passing
    push (.template (← instantiate settings env ⟨name, inherited⟩ passed))
    return .next
  | .createComputed passing => do
    let passed ← popArguments passing
    let name ← textOf (← pop)
    push (.template (← instantiateComputed settings env name passed))
    return .next
  | .createAnonymous program => do
    push (.template (enclosed settings env program))
    return .next
  | .map count => do
    let templates ← (← popMany count).mapM fun v => (instanceOf v : Attempt (Option Instance))
    let target ← pop
    push (← mapValue settings env target templates)
    return .next
  | .render => do
    push (.text (← renderEarly settings env (← pop)))
    return .next
  | .write set => do
    let options ← popOptions settings env set
    writeExpression settings env options (← pop)
    return .next
  | .not => do
    push (.bool !(← pop).isTruthy)
    return .next
  | .and => do
    let right ← pop
    let left ← pop
    push (.bool (left.isTruthy && right.isTruthy))
    return .next
  | .or => do
    let right ← pop
    let left ← pop
    push (.bool (left.isTruthy || right.isTruthy))
    return .next
  | .jump target => return .jump target
  | .jumpUnless target => do
    return if (← pop).isTruthy then .next else .jump target
  | .jumpIfSet name target =>
    return if isPassed env name then .jump target else .next
  | .storeDefault name => do
    storeDefault env name (← pop)
    return .next

/-- Carries out at most `n` instructions of the instance that runs, from the one that its frame names. -/
def execute (settings : Settings) (env : Env) : Nat → Attempt Unit
  | 0 => return ()
  | n + 1 => do
    let address := (← frames).next env.scope
    match env.program.lines[address]? with
    | none => return ()
    | some line =>
      changeFrames fun f => f.setNext env.scope (address + 1)
      let here := env.atPlace line.span
      let instr ← line.instr.convertM (fun id => (constant here id : Attempt String))
        (subprogram settings here)
      match ← step settings here instr with
      | .next => execute settings env n
      | .jump target =>
        changeFrames fun f => f.setNext env.scope target
        execute settings env n

/-- Runs an instance in a frame of its own. -/
def inFrame (caller : Option Env) (bound : Instance) (body : Env → Rendering Unit) : Rendering Unit := do
  let env ← modifyGet (Machine.enter caller bound)
  let m ← get
  body env
  modify (Machine.leave env m.sink.position m.stack.length)

/-- Runs an instance with at most `n` frames inside one another, where `body` does what one does in its
frame. An instance that would go deeper is not run but reported by its caller. -/
def nest (settings : Settings) (body : Env → Rendering Unit) : Nat → Option Env → Instance → Rendering Unit
  | 0, none, _ => return ()
  | 0, some env, bound =>
    report settings env .recursionLimit [toString settings.depthLimit, bound.name]
  | n + 1, caller, bound =>
    inFrame caller bound fun env =>
      handle (fun env bound => nest settings body n (some env) bound) (body env)

/-- Carries out the code of the instance that runs. As branches go forward only, no instruction is
carried out twice. -/
def runCode (settings : Settings) (env : Env) : Rendering Unit := do
  let _ ← (execute settings env (env.program.lines.length + 1)).run

/-- Runs an instance on the code of its program. -/
def invoke (settings : Settings) : Nat → Option Env → Instance → Rendering Unit :=
  nest settings (runCode settings)

end Rendering

end Stencil
