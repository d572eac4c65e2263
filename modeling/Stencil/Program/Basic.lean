import Stencil.Text.Quoted
import Stencil.Formals
import Stencil.Template.Tree
/-! Code: templates as flat lists of instructions for a machine with a stack of values. -/

namespace Stencil

/-- How a call finds its arguments on the stack: values in the order of the parameters, or pairs of a
name and a value. -/
inductive Passing where
  | positional (count : Nat)
  | named (count : Nat)
deriving DecidableEq, Repr, Inhabited

namespace Passing

/-- How many values of the stack the arguments take. -/
def slots : Passing → Nat
  | positional n => n
  | named n => 2 * n

def display : Passing → String
  | positional n => s!"args={n}"
  | named n => s!"named={n}"

end Passing

/-- The options of a write, whose values lie on the stack in this order, the separator deepest. -/
structure OptionSet where
  separator : Bool := false
  format : Bool := false
  null : Bool := false
deriving DecidableEq, Repr, Inhabited

namespace OptionSet

def names (o : OptionSet) : List String :=
  (if o.separator then ["separator"] else []) ++ (if o.format then ["format"] else []) ++
    (if o.null then ["null"] else [])

end OptionSet

/-- An instruction. Texts are held as `τ` and the templates without a name as `ι`: in place while code
is made, and by their number in code that is ready. -/
inductive Instr (τ ι : Type) where
  /-- Writes text. -/
  | text (text : τ)
  | pushText (text : τ)
  | pushTruth (value : Bool)
  | pushAttribute (name : τ)
  /-- Puts a property in the place of the value on top. -/
  | property (name : τ)
  /-- Takes a key and puts the property of that key in the place of the value below. -/
  | propertyAt
  | builtin (function : Builtin)
  /-- Makes a flat sequence of the topmost values. -/
  | list (count : Nat)
  /-- Takes arguments and puts an instance of the callee on top. -/
  | create (name : τ) (inherited : Bool) (passing : Passing)
  /-- Does so for the name that lies below the arguments. -/
  | createComputed (passing : Passing)
  /-- Puts an instance of a template without a name on top. -/
  | createAnonymous (inner : ι)
  /-- Takes instances and, from below them, a value to map them over. -/
  | map (count : Nat)
  /-- Puts the text of the value on top in its place. -/
  | render
  /-- Takes option values and, from below them, a value to write. -/
  | write (options : OptionSet)
  | not
  | and
  | or
  | jump (target : Nat)
  /-- Takes a value and jumps if it does not count as true. -/
  | jumpUnless (target : Nat)
  /-- Jumps if the attribute was passed. -/
  | jumpIfSet (name : τ) (target : Nat)
  /-- Takes a value for a parameter that was not passed. -/
  | storeDefault (name : τ)
deriving DecidableEq, Repr

namespace Instr

variable {τ ι τ' ι' : Type}

def mnemonic : Instr τ ι → String
  | .text _ => "text"
  | .pushText _ => "load_str"
  | .pushTruth _ => "load_bool"
  | .pushAttribute _ => "load_attr"
  | .property _ => "load_prop"
  | .propertyAt => "load_prop_dyn"
  | .builtin _ => "call"
  | .list _ => "list"
  | .create _ inherited _ => if inherited then "super_new" else "new"
  | .createComputed _ => "new_ind"
  | .createAnonymous _ => "new_sub"
  | .map _ => "map"
  | .render => "tostr"
  | .write options => if options.names.isEmpty then "write" else "write_opt"
  | .not => "not"
  | .and => "and"
  | .or => "or"
  | .jump _ => "br"
  | .jumpUnless _ => "brf"
  | .jumpIfSet _ _ => "br_if_set"
  | .storeDefault _ => "store_default"

/-- The text that an instruction holds, if it holds any. -/
def constant? : Instr τ ι → Option τ
  | .text s | .pushText s | .pushAttribute s | .property s | .storeDefault s => some s
  | .create name _ _ => some name
  | .jumpIfSet name _ => some name
  | _ => none

/-- The template without a name that an instruction makes an instance of. -/
def inner? : Instr τ ι → Option ι
  | .createAnonymous inner => some inner
  | _ => none

/-- The arguments that an instruction takes, if it is a call. -/
def passing? : Instr τ ι → Option Passing
  | .create _ _ passing | .createComputed passing => some passing
  | _ => none

/-- The address that an instruction may jump to. -/
def target? : Instr τ ι → Option Nat
  | .jump target | .jumpUnless target | .jumpIfSet _ target => some target
  | _ => none

/-- Puts other things in the places of texts and inner templates. -/
def convertM {m : Type → Type} [Monad m] (f : τ → m τ') (g : ι → m ι') :
    Instr τ ι → m (Instr τ' ι')
  | .text s => .text <$> f s
  | .pushText s => .pushText <$> f s
  | .pushTruth b => pure (.pushTruth b)
  | .pushAttribute s => .pushAttribute <$> f s
  | .property s => .property <$> f s
  | .propertyAt => pure .propertyAt
  | .builtin b => pure (.builtin b)
  | .list n => pure (.list n)
  | .create s inherited passing => return .create (← f s) inherited passing
  | .createComputed passing => pure (.createComputed passing)
  | .createAnonymous i => .createAnonymous <$> g i
  | .map n => pure (.map n)
  | .render => pure .render
  | .write options => pure (.write options)
  | .not => pure .not
  | .and => pure .and
  | .or => pure .or
  | .jump target => pure (.jump target)
  | .jumpUnless target => pure (.jumpUnless target)
  | .jumpIfSet s target => return .jumpIfSet (← f s) target
  | .storeDefault s => .storeDefault <$> f s

def convert (f : τ → τ') (g : ι → ι') (i : Instr τ ι) : Instr τ' ι' :=
  (i.convertM (m := Id) (fun s => pure (f s)) fun j => pure (g j)).run

end Instr

/-- An instruction and the region of source that it stands for; defaults have none. -/
structure Line (τ ι : Type) where
  instr : Instr τ ι
  span : Option Span
deriving DecidableEq, Repr

/-- The code of a template. Instructions hold their texts and the templates without a name inside by
their places in `constants` and `inner`. Templates without a name share the source of the one around
them. -/
structure Code where
  name : String
  formals : Formals
  source : String
  lines : List (Line Nat Nat)
  constants : List String
  inner : List Code
  anonymous : Bool

namespace Program

/-- An address in a listing, with at least four digits. -/
def address (n : Nat) : String :=
  let digits := Nat.toDigits 10 n
  String.ofList (List.replicate (4 - digits.length) '0' ++ digits)

/-- The operands of an instruction in a listing. -/
def operands : Instr String String → String
  | .text s | .pushText s | .pushAttribute s | .property s | .storeDefault s => Text.quote s
  | .pushTruth b => if b then "true" else "false"
  | .builtin f => f.name
  | .list n | .map n => toString n
  | .create name _ passing => Text.quote name ++ " " ++ passing.display
  | .createComputed passing => passing.display
  | .createAnonymous name => name
  | .write options => ",".intercalate options.names
  | .jump target | .jumpUnless target => address target
  | .jumpIfSet name target => Text.quote name ++ " " ++ address target
  | .propertyAt | .render | .not | .and | .or => ""

end Program

namespace Code

/-- The instructions with their texts and the names of the templates inside, for a listing. -/
def code (c : Code) : List (Line String String) :=
  c.lines.map fun l =>
    { l with
      instr := l.instr.convert (fun id => c.constants.getD id "")
        (fun index => ((c.inner[index]?).map Code.name).getD (toString index)) }

/-- The region of source behind the instruction at an address. -/
def span? (c : Code) (address : Nat) : Option Span := (c.lines[address]?).bind Line.span

/-- The source behind the instruction at an address. -/
def sourceAt? (c : Code) (address : Nat) : Option String :=
  (c.span? address).bind fun s => s.text? c.source

/-- A line for each instruction from an address on. -/
def listLines (start : Nat) : List (Line String String) → String
  | [] => ""
  | ⟨instr, _⟩ :: rest =>
    let operands := Program.operands instr
    Program.address start ++ ": " ++ instr.mnemonic ++
      (if operands.isEmpty then "" else " " ++ operands) ++ "\n" ++ listLines (start + 1) rest

mutual

/-- A listing of the code and then of each template inside. -/
def listing : Code → String
  | ⟨name, formals, source, lines, constants, inner, anonymous⟩ =>
    name ++ ":\n" ++
      listLines 0 (code ⟨name, formals, source, lines, constants, inner, anonymous⟩) ++ listAll inner

def listAll : List Code → String
  | [] => ""
  | c :: rest => c.listing ++ listAll rest

end

end Code

end Stencil
