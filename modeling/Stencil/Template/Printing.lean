import Stencil.Template.Tree
import Stencil.Template.Cursor
/-! The canonical text of a tree, which trees have one, and trees apart from where they were read. -/

namespace Stencil

/-! ## Text of trees -/

namespace Print

/-- A character of literal text. Angle brackets and braces are quoted, and the backslash and the bar are
written as special characters. -/
def textChar (c : Char) : List Char :=
  if c = '\\' then ['<', '\\', 'u', '0', '0', '5', 'c', '>']
  else if c = '|' then ['<', '\\', 'u', '0', '0', '7', 'c', '>']
  else if c = '<' || c = '>' || c = '\x7b' || c = '\x7d' then ['\\', c]
  else [c]

def text (s : String) : List Char := s.toList.flatMap textChar

def quotedChar (c : Char) : List Char := if c = '"' || c = '\\' then ['\\', c] else [c]

def quoted (s : String) : List Char := '"' :: (s.toList.flatMap quotedChar ++ ['"'])

def parentheses (cs : List Char) : List Char := '(' :: (cs ++ [')'])

theorem parentheses_append (cs d : List Char) : parentheses cs ++ d = '(' :: (cs ++ ')' :: d) := by
  rw [parentheses, List.cons_append, List.append_assoc, List.singleton_append]

@[simp] theorem length_parentheses (cs : List Char) : (parentheses cs).length = cs.length + 2 := by
  simp [parentheses]

/-- The parameter of an anonymous template with its bar and a space. -/
def parameter : Option String → List Char
  | none => []
  | some p => p.toList ++ ['|', ' ']

end Print

namespace Condition

/-- Whether an operator of conditions is outermost, and how loosely it binds. -/
inductive Level where
  | disjunction | conjunction | single
deriving DecidableEq

def level : Condition → Level
  | .or _ _ => .disjunction
  | .and _ _ => .conjunction
  | .value _ | .not _ => .single

end Condition

mutual

def Expr.print : Expr → List Char
  | .attribute name _ => name.toList
  | .literal text _ => Print.quoted text
  | .truth b _ => if b then ['t', 'r', 'u', 'e'] else ['f', 'a', 'l', 's', 'e']
  | .list items _ => '[' :: (Expr.printAll items ++ [']'])
  | .property target name _ => target.print ++ '.' :: name.toList
  | .propertyAt target key _ => target.print ++ '.' :: Print.parentheses key.print
  | .call ⟨name, inherited⟩ arguments _ =>
    if inherited then 's' :: 'u' :: 'p' :: 'e' :: 'r' :: '.' :: (name.toList ++ arguments.print)
    else name.toList ++ arguments.print
  | .callComputed name arguments _ => Print.parentheses name.print ++ arguments.print
  | .rendered value _ => Print.parentheses value.print
  | .builtin function argument _ => function.name.toList ++ Print.parentheses argument.print
  | .anonymous parameter body _ =>
    '\x7b' :: (Print.parameter parameter ++ (Element.printAll body ++ ['\x7d']))
  | .map target templates _ => target.print ++ ':' :: Expr.printAll templates

/-- Expressions between commas. -/
def Expr.printAll : List Expr → List Char
  | [] => []
  | e :: rest => e.print ++ Expr.printMore rest

/-- Further expressions, each behind a comma. -/
def Expr.printMore : List Expr → List Char
  | [] => []
  | e :: rest => ',' :: (e.print ++ Expr.printMore rest)

def Arguments.print : Arguments → List Char
  | .positional values => Print.parentheses (Expr.printAll values)
  | .named values => Print.parentheses (NamedArgument.printAll values)

def NamedArgument.printAll : List NamedArgument → List Char
  | [] => []
  | ⟨name, value, _⟩ :: rest => name.toList ++ '=' :: (value.print ++ NamedArgument.printMore rest)

def NamedArgument.printMore : List NamedArgument → List Char
  | [] => []
  | ⟨name, value, _⟩ :: rest =>
    ',' :: (name.toList ++ '=' :: (value.print ++ NamedArgument.printMore rest))

def TagOption.printAll : List TagOption → List Char
  | [] => []
  | ⟨name, value, _⟩ :: rest => name.toList ++ '=' :: (value.print ++ TagOption.printMore rest)

def TagOption.printMore : List TagOption → List Char
  | [] => []
  | ⟨name, value, _⟩ :: rest =>
    ',' :: (name.toList ++ '=' :: (value.print ++ TagOption.printMore rest))

/-- Operands that bind as loosely as their place does not allow stand in parentheses. -/
def Condition.print : Condition → List Char
  | .value e => e.print
  | .not c => '!' :: if c.level = .single then c.print else Print.parentheses c.print
  | .and a b =>
    (if a.level = .disjunction then Print.parentheses a.print else a.print) ++
      ' ' :: '&' :: '&' :: ' ' :: if b.level = .single then b.print else Print.parentheses b.print
  | .or a b =>
    a.print ++
      ' ' :: '|' :: '|' :: ' ' :: if b.level = .disjunction then Print.parentheses b.print else b.print

def Element.print : Element → List Char
  | .text s => Print.text s
  | .tag value options _ =>
    '<' :: ' ' :: (value.print ++
      ((if options.isEmpty then [] else ';' :: ' ' :: TagOption.printAll options) ++ ['>']))
  | .choice branches otherwise =>
    Branch.printAll branches ++
      ((match otherwise with
        | none => []
        | some body => '<' :: 'e' :: 'l' :: 's' :: 'e' :: '>' :: Element.printAll body) ++
        ['<', 'e', 'n', 'd', 'i', 'f', '>'])

def Element.printAll : List Element → List Char
  | [] => []
  | e :: rest => e.print ++ Element.printAll rest

def Branch.printAll : List Branch → List Char
  | [] => []
  | ⟨condition, body, _⟩ :: rest =>
    '<' :: 'i' :: 'f' :: '(' :: (condition.print ++ ')' :: '>' ::
      (Element.printAll body ++ Branch.printMore rest))

/-- The branches behind the first. -/
def Branch.printMore : List Branch → List Char
  | [] => []
  | ⟨condition, body, _⟩ :: rest =>
    '<' :: 'e' :: 'l' :: 's' :: 'e' :: 'i' :: 'f' :: '(' :: (condition.print ++ ')' :: '>' ::
      (Element.printAll body ++ Branch.printMore rest))

end

/-! ## Trees that have a text -/

/-- Whether text names a property: it is a name, or consists of digits. -/
def isPropertyName (s : String) : Bool :=
  isName s || match s.toList with
    | [] => false
    | c :: cs => (c :: cs).all Char.isDigit

/-- Expressions that a property can be read from without parentheses. What follows `super.` would be
taken for a call. -/
def Expr.IsTarget : Expr → Prop
  | .map _ _ _ => False
  | .attribute name _ => name ≠ "super"
  | _ => True

/-- Expressions in parentheses, which as conditions are conditions in parentheses. -/
def Expr.IsRendered : Expr → Prop
  | .rendered _ _ => True
  | _ => False

def Element.IsText : Element → Prop
  | .text _ => True
  | _ => False

mutual

/-- Expressions that can be written, between commas only if they contain none: there, a map has one
template. -/
def Expr.Writable (alone : Bool) : Expr → Prop
  | .attribute name _ => isName name = true ∧ name ≠ "true" ∧ name ≠ "false"
  | .literal _ _ | .truth _ _ => True
  | .list items _ => Expr.WritableAll items
  | .property target name _ =>
    target.Writable alone ∧ target.IsTarget ∧ isPropertyName name = true
  | .propertyAt target key _ => target.Writable alone ∧ target.IsTarget ∧ key.Writable true
  | .call ⟨name, inherited⟩ arguments _ =>
    isName name = true ∧ (inherited = false → Builtin.ofName? name = none) ∧ arguments.Writable
  | .callComputed name arguments _ => name.Writable true ∧ arguments.Writable
  | .rendered value _ => value.Writable true
  | .builtin _ argument _ => argument.Writable true
  | .anonymous parameter body _ => (∀ p ∈ parameter, isName p = true) ∧ Element.WritableAll body
  | .map target templates _ =>
    target.Writable alone ∧ Expr.MappableAll templates ∧ templates ≠ [] ∧
      (alone = false → templates.length = 1)

/-- Expressions that can be written between commas. -/
def Expr.WritableAll : List Expr → Prop
  | [] => True
  | e :: rest => e.Writable false ∧ Expr.WritableAll rest

/-- Templates that can be written behind the colon of a map, where the functions have no precedence. -/
def Expr.Mappable : Expr → Prop
  | .call ⟨name, _⟩ arguments _ => isName name = true ∧ arguments.Writable
  | .callComputed name arguments _ => name.Writable true ∧ arguments.Writable
  | .anonymous parameter body _ => (∀ p ∈ parameter, isName p = true) ∧ Element.WritableAll body
  | _ => False

def Expr.MappableAll : List Expr → Prop
  | [] => True
  | e :: rest => e.Mappable ∧ Expr.MappableAll rest

def Arguments.Writable : Arguments → Prop
  | .positional values => Expr.WritableAll values
  | .named values => values ≠ [] ∧ NamedArgument.WritableAll values

def NamedArgument.WritableAll : List NamedArgument → Prop
  | [] => True
  | ⟨name, value, _⟩ :: rest =>
    isName name = true ∧ value.Writable false ∧ NamedArgument.WritableAll rest

def TagOption.WritableAll : List TagOption → Prop
  | [] => True
  | ⟨name, value, _⟩ :: rest =>
    isName name = true ∧ value.Writable false ∧ TagOption.WritableAll rest

def Condition.Writable : Condition → Prop
  | .value e => e.Writable true ∧ ¬ e.IsRendered
  | .not c => c.Writable
  | .and a b | .or a b => a.Writable ∧ b.Writable

def Element.Writable : Element → Prop
  | .text s => s ≠ ""
  | .tag value options _ => value.Writable true ∧ TagOption.WritableAll options
  | .choice branches otherwise =>
    branches ≠ [] ∧ Branch.WritableAll branches ∧
      match otherwise with
      | none => True
      | some body => Element.WritableAll body

/-- Bodies without neighbouring texts. -/
def Element.WritableAll : List Element → Prop
  | [] => True
  | e :: rest =>
    e.Writable ∧ Element.WritableAll rest ∧ (e.IsText → ∀ next ∈ rest.head?, ¬ next.IsText)

def Branch.WritableAll : List Branch → Prop
  | [] => True
  | ⟨condition, body, _⟩ :: rest =>
    condition.Writable ∧ Element.WritableAll body ∧ Branch.WritableAll rest

end

/-! ## Trees without places -/

mutual

/-- The expression without the regions of source that it was read from. -/
def Expr.unplaced : Expr → Expr
  | .attribute name _ => .attribute name default
  | .literal text _ => .literal text default
  | .truth b _ => .truth b default
  | .list items _ => .list (Expr.unplacedAll items) default
  | .property target name _ => .property target.unplaced name default
  | .propertyAt target key _ => .propertyAt target.unplaced key.unplaced default
  | .call callee arguments _ => .call callee arguments.unplaced default
  | .callComputed name arguments _ => .callComputed name.unplaced arguments.unplaced default
  | .rendered value _ => .rendered value.unplaced default
  | .builtin function argument _ => .builtin function argument.unplaced default
  | .anonymous parameter body _ => .anonymous parameter (Element.unplacedAll body) default
  | .map target templates _ => .map target.unplaced (Expr.unplacedAll templates) default

def Expr.unplacedAll : List Expr → List Expr
  | [] => []
  | e :: rest => e.unplaced :: Expr.unplacedAll rest

def Arguments.unplaced : Arguments → Arguments
  | .positional values => .positional (Expr.unplacedAll values)
  | .named values => .named (NamedArgument.unplacedAll values)

def NamedArgument.unplacedAll : List NamedArgument → List NamedArgument
  | [] => []
  | ⟨name, value, _⟩ :: rest => ⟨name, value.unplaced, default⟩ :: NamedArgument.unplacedAll rest

def TagOption.unplacedAll : List TagOption → List TagOption
  | [] => []
  | ⟨name, value, _⟩ :: rest => ⟨name, value.unplaced, default⟩ :: TagOption.unplacedAll rest

def Condition.unplaced : Condition → Condition
  | .value e => .value e.unplaced
  | .not c => .not c.unplaced
  | .and a b => .and a.unplaced b.unplaced
  | .or a b => .or a.unplaced b.unplaced

def Element.unplaced : Element → Element
  | .text s => .text s
  | .tag value options _ => .tag value.unplaced (TagOption.unplacedAll options) default
  | .choice branches otherwise =>
    .choice (Branch.unplacedAll branches)
      (match otherwise with
      | none => none
      | some body => some (Element.unplacedAll body))

def Element.unplacedAll : List Element → List Element
  | [] => []
  | e :: rest => e.unplaced :: Element.unplacedAll rest

def Branch.unplacedAll : List Branch → List Branch
  | [] => []
  | ⟨condition, body, _⟩ :: rest =>
    ⟨condition.unplaced, Element.unplacedAll body, default⟩ :: Branch.unplacedAll rest

end

end Stencil
