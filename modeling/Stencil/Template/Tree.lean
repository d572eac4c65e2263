import Stencil.Source.Span
/-! Syntax trees of template source: a template is a list of elements, and tags hold expressions. -/

namespace Stencil

/-- A template named in source, possibly as `super.name`, which skips the definitions of the
group that the name is written in. -/
structure Callee where
  name : String
  inherited : Bool
deriving DecidableEq, Repr, Inhabited

namespace Callee

/-- The callee as it is written in source. -/
def display (c : Callee) : String := if c.inherited then "super." ++ c.name else c.name

end Callee

/-- The functions that every expression may use. -/
inductive Builtin where
  | first | last | rest | trunc | strip | length | strlen | trim | reverse
deriving DecidableEq, Repr, Inhabited

namespace Builtin

def all : List Builtin := [first, last, rest, trunc, strip, length, strlen, trim, reverse]

def name : Builtin → String
  | first => "first"
  | last => "last"
  | rest => "rest"
  | trunc => "trunc"
  | strip => "strip"
  | length => "length"
  | strlen => "strlen"
  | trim => "trim"
  | reverse => "reverse"

/-- The function of a name, if it is the name of one. -/
def ofName? (name : String) : Option Builtin := all.find? fun b => b.name == name

/-- Whether the argument is rendered to text before the function sees it. -/
def takesText : Builtin → Bool
  | strlen | trim => true
  | _ => false

theorem ofName?_name (b : Builtin) : ofName? b.name = some b := by cases b <;> decide

end Builtin

mutual

/-- An expression with the region of source that it was read from. -/
inductive Expr where
  /-- A bare name. -/
  | attribute (name : String) (span : Span)
  /-- Quoted text. -/
  | literal (text : String) (span : Span)
  /-- `true` or `false`. -/
  | truth (value : Bool) (span : Span)
  /-- `[a, b]`. -/
  | list (items : List Expr) (span : Span)
  /-- `target.name`. -/
  | property (target : Expr) (name : String) (span : Span)
  /-- `target.(key)`. -/
  | propertyAt (target key : Expr) (span : Span)
  /-- `name(arguments)`. -/
  | call (callee : Callee) (arguments : Arguments) (span : Span)
  /-- `(name)(arguments)`, where the name of the template is computed. -/
  | callComputed (name : Expr) (arguments : Arguments) (span : Span)
  /-- `(value)`, which renders to text at once. -/
  | rendered (value : Expr) (span : Span)
  /-- `first(argument)` and its like. -/
  | builtin (function : Builtin) (argument : Expr) (span : Span)
  /-- `{parameter | body}`, a template without a name. -/
  | anonymous (parameter : Option String) (body : List Element) (span : Span)
  /-- `target:f(),g()`, which applies the templates to the elements in turn. -/
  | map (target : Expr) (templates : List Expr) (span : Span)

/-- What a call passes: values in the order of the parameters, or values by name. -/
inductive Arguments where
  | positional (values : List Expr)
  | named (values : List NamedArgument)

/-- `name=value` in a call; the span covers the name. -/
structure NamedArgument where
  name : String
  value : Expr
  span : Span

/-- A piece of a template body. -/
inductive Element where
  /-- Literal text with its escapes resolved. -/
  | text (text : String)
  /-- `<value; options>`. -/
  | tag (value : Expr) (options : List TagOption) (span : Span)
  /-- `<if(c)>..<elseif(c)>..<else>..<endif>`. -/
  | choice (branches : List Branch) (otherwise : Option (List Element))

/-- `name=value` behind the semicolon of a tag; the span covers the name. -/
structure TagOption where
  name : String
  value : Expr
  span : Span

/-- A test in a conditional. -/
inductive Condition where
  | value (expr : Expr)
  | not (condition : Condition)
  | and (left right : Condition)
  | or (left right : Condition)

/-- A guarded body; the span covers the tag that opens it. -/
structure Branch where
  condition : Condition
  body : List Element
  span : Span

end

instance : Inhabited Expr := ⟨.literal "" default⟩

namespace Expr

def span : Expr → Span
  | .attribute _ s | .literal _ s | .truth _ s | .list _ s | .property _ _ s | .propertyAt _ _ s
  | .call _ _ s | .callComputed _ _ s | .rendered _ s | .builtin _ _ s | .anonymous _ _ s
  | .map _ _ s => s

end Expr

namespace Element

/-- Joins neighbouring texts and drops empty ones. -/
def joinTexts : List Element → List Element
  | [] => []
  | .text s :: rest =>
    match joinTexts rest with
    | .text t :: more => .text (s ++ t) :: more
    | more => if s.isEmpty then more else .text s :: more
  | e :: rest => e :: joinTexts rest

end Element

end Stencil
