import Stencil.Value.Basic
/-! The attributes of an instance. An attribute that is set to null differs from one that is not set. -/

namespace Stencil

/-- Values by name, sorted by name. -/
abbrev Attributes := Dict Value

namespace Attributes

/-- The items that a value adds to a sequence. -/
def items : Value → List Value
  | .sequence items => items
  | v => [v]

/-- Adds a value to an attribute. The first is kept as it is; with further ones the attribute becomes
the sequence of all their items. -/
def append (name : String) (value : Value) (a : Attributes) : Attributes :=
  match Dict.find? a name with
  | none => Dict.insert name value a
  | some held => Dict.insert name (.sequence (items held ++ items value)) a

/-- The value of an attribute, null if it is not set. -/
def get (a : Attributes) (name : String) : Value := (Dict.find? a name).getD .null

end Attributes

/-- Why an attribute cannot be set. -/
structure AttributeError where
  template : String
  name : String
deriving DecidableEq, Repr, Inhabited

namespace AttributeError

def message (e : AttributeError) : String :=
  s!"template '{e.template}' has no formal parameter '{e.name}'"

end AttributeError

namespace Instance

def ofProgram (group native : Group) (program : Program) (enclosing : Option Nat) : Instance :=
  ⟨group, native, program, [], enclosing⟩

def name (i : Instance) : String := i.program.name

/-- Sets an attribute whether the template declares it or not. -/
def bind (i : Instance) (name : String) (value : Value) : Instance :=
  { i with attributes := Dict.insert name value i.attributes }

/-- Refuses names that the template does not accept. -/
def checked (i : Instance) (name : String) (attributes : Attributes) : Except AttributeError Instance :=
  if i.program.formals.accepts name then .ok { i with attributes }
  else .error ⟨i.name, name⟩

def set (i : Instance) (name : String) (value : Value) : Except AttributeError Instance :=
  i.checked name (Dict.insert name value i.attributes)

def append (i : Instance) (name : String) (value : Value) : Except AttributeError Instance :=
  i.checked name (Attributes.append name value i.attributes)

def get (i : Instance) (name : String) : Value := Attributes.get i.attributes name

def remove (i : Instance) (name : String) : Instance :=
  { i with attributes := Dict.erase i.attributes name }

end Instance

end Stencil
