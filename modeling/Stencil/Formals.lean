/-! The parameters that a template declares. -/

namespace Stencil

/-- A declared parameter. The default is the source of an expression, which the template evaluates
when nothing is passed. -/
structure Parameter where
  name : String
  default : Option String
deriving DecidableEq, Repr, Inhabited

/-- The parameters of a template: any name at all, or those of a list. -/
inductive Formals where
  | any
  | declared (parameters : List Parameter)
deriving DecidableEq, Repr, Inhabited

namespace Formals

/-- The name that a mapped template without declared parameters knows the element by. -/
def element : String := "it"

/-- The name of the position of an element, counted from one. -/
def position : String := "i"

/-- The name of the position of an element, counted from zero. -/
def positionFromZero : String := "i0"

/-- The names that every template may read. -/
def implicit : List String := [position, positionFromZero]

/-- Declared parameters without defaults. -/
def ofNames (names : List String) : Formals := declared (names.map fun name => ⟨name, none⟩)

def isOpen : Formals → Bool
  | any => true
  | declared _ => false

/-- The declared parameters in order. -/
def parameters : Formals → List Parameter
  | any => []
  | declared ps => ps

def size (f : Formals) : Nat := f.parameters.length

def find? (f : Formals) (name : String) : Option Parameter :=
  f.parameters.find? fun p => p.name == name

/-- Whether a template may refer to a name, and a caller may pass it. -/
def accepts (f : Formals) (name : String) : Bool :=
  match f with
  | any => true
  | declared ps => implicit.contains name || ps.any fun p => p.name == name

/-- The first name that is declared again, looking at the names in front of each parameter. -/
def duplicateBehind : List String → List Parameter → Option String
  | _, [] => none
  | seen, p :: ps => if seen.contains p.name then some p.name else duplicateBehind (p.name :: seen) ps

/-- The first name that is declared more than once. -/
def duplicate? (f : Formals) : Option String := duplicateBehind [] f.parameters

/-- The parameter that receives an element when the template is mapped. -/
def receiver? : Formals → Option String
  | any => some element
  | declared ps => ps.head?.map Parameter.name

end Formals

end Stencil
