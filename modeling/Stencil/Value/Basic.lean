import Stencil.Group.Basic
import Stencil.Program.Compile
import Stencil.Decimal.Nearest
import Stencil.Decimal.Shortest
/-! The values of attributes, and templates bound to attributes. -/

namespace Stencil

mutual

inductive Value where
  /-- Nothing. It is written as nothing. -/
  | null
  | bool (value : Bool)
  /-- A whole number of 64 bits with a sign. -/
  | int (value : Int)
  | float (value : Float)
  | text (value : String)
  /-- An object of the host: its type, the properties that may be read, and its text. -/
  | object (typeName : String) (properties : List (String × Value)) (text : String)
  | sequence (items : List Value)
  /-- Values by key, in the order of the keys. -/
  | map (entries : List (String × Value))
  /-- A template, which is run where it is written. -/
  | template (bound : Instance)

/-- A program with the attributes that are set for it. -/
structure Instance where
  /-- The group in which the templates that it calls are looked up. -/
  group : Group
  /-- The group that defines the template, from which `super` starts. -/
  native : Group
  program : Program
  attributes : List (String × Value)
  /-- For a template without a name, the frame of the instance that created it. -/
  enclosing : Option Nat

end

instance : Inhabited Value := ⟨.null⟩

namespace Value

def isNull : Value → Bool
  | null => true
  | _ => false

/-- Whether a test takes the value for true. Null, falsehood and what is empty count as false, but
empty text counts as true. -/
def isTruthy : Value → Bool
  | null => false
  | bool b => b
  | sequence items => !items.isEmpty
  | map entries => !entries.isEmpty
  | int _ | float _ | text _ | object _ _ _ | template _ => true

/-- The kind and the plain text of a scalar. -/
def scalar? : Value → Option (ScalarKind × String)
  | bool b => some (.bool, if b then "true" else "false")
  | int n => some (.int, toString n)
  | float x => some (.float, Decimal.text x)
  | text s => some (.text, s)
  | object typeName _ s => some (.object typeName, s)
  | null | sequence _ | map _ | template _ => none

def text? : Value → Option String
  | text s => some s
  | _ => none

def template? : Value → Option Instance
  | template bound => some bound
  | _ => none

def int? : Value → Option Int
  | int n => some n
  | _ => none

/-- The values that are met when a value is gone through: the items of a sequence, the keys of a map,
nothing for null, and otherwise the value itself. -/
def elements : Value → List Value
  | null => []
  | sequence items => items
  | map entries => (Dict.keys entries).map text
  | v => [v]

/-- Whether going through the value may meet more than one. -/
def isMultiple : Value → Bool
  | sequence _ | map _ => true
  | _ => false

/-- A count as a value; beyond 63 bits it becomes a floating point number. -/
def ofNat (n : Nat) : Value := if n < Nat.pow 2 63 then int n else float (Decimal.nearest n 1)

end Value

end Stencil
