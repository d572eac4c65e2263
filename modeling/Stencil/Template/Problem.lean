import Stencil.Formals
import Stencil.Diagnostic.Basic
import Stencil.Diagnostic.Nearby
import Stencil.Template.Tree
/-! What can be wrong with a template that can be read: it refers to attributes, templates, parameters
or options that it may not refer to. -/

namespace Stencil

/-- The templates that a template may call, and their parameters. -/
structure Directory where
  formals? : String → Option Formals
  /-- The parameters of what `super.name` calls. -/
  inheritedFormals? : String → Option Formals
  names : List String

namespace Directory

/-- The parameters of a callee. -/
def find? (d : Directory) (callee : Callee) : Option Formals :=
  if callee.inherited then d.inheritedFormals? callee.name else d.formals? callee.name

end Directory

inductive Problem where
  | noSuchAttribute (name : String) (candidates : List String)
  | noSuchTemplate (callee : Callee) (candidates : List String)
  | noSuchParameter (template name : String)
  | tooManyArguments (passed : Nat) (template : String) (declared : Nat)
  | duplicateArgument (name template : String)
  | noSuchOption (name : String)
  | duplicateOption (name : String)
  | positionalMapArguments (template : String)
  | noReceiver (template : String)
deriving DecidableEq, Repr, Inhabited

namespace Problem

def kind : Problem → Kind
  | noSuchAttribute _ _ => .noSuchAttribute
  | noSuchTemplate _ _ => .noSuchTemplate
  | noSuchParameter _ _ => .noSuchFormalArgument
  | tooManyArguments _ _ _ => .argumentCountMismatch
  | duplicateArgument _ _ => .duplicateArgument
  | noSuchOption _ => .noSuchOption
  | duplicateOption _ => .duplicateOption
  | positionalMapArguments _ => .positionalMapArguments
  | noReceiver _ => .mapTemplateWithoutParameters

/-- The arguments of the message. -/
def arguments : Problem → List String
  | noSuchAttribute name candidates => [name, didYouMean (nearby name candidates)]
  | noSuchTemplate callee candidates => [callee.display, didYouMean (nearby callee.name candidates)]
  | noSuchParameter template name => [template, name]
  | tooManyArguments passed template declared => [toString passed, template, toString declared]
  | duplicateArgument name template => [name, template]
  | noSuchOption name => [name]
  | duplicateOption name => [name]
  | positionalMapArguments template => [template]
  | noReceiver template => [template]

def diagnostic (p : Problem) (template : String) : Diagnostic := .compiling p.kind template p.arguments

end Problem

/-- A problem and the region of source that has it. -/
structure Finding where
  problem : Problem
  span : Span
deriving DecidableEq, Repr, Inhabited

/-- What the check of a template knows: the templates around it, and the parameters that are in scope,
the outermost first. A template without a name sees its own parameter and all that the template
around it sees. -/
structure Scope where
  directory : Directory
  visible : List Formals

namespace Scope

def accepts (s : Scope) (name : String) : Bool := s.visible.any fun f => f.accepts name

/-- The names of the parameters in scope. -/
def candidates (s : Scope) : List String := s.visible.flatMap fun f => f.parameters.map Parameter.name

def enter (s : Scope) (formals : Formals) : Scope := { s with visible := s.visible ++ [formals] }

end Scope

namespace TagOption

/-- The names that an option may have. -/
def allowed : List String := ["separator", "format", "null"]

/-- The problems with the names of options, behind those in `seen`. -/
def nameFindings : List String → List TagOption → List Finding
  | _, [] => []
  | seen, o :: rest =>
    if !allowed.contains o.name then ⟨.noSuchOption o.name, o.span⟩ :: nameFindings seen rest
    else if seen.contains o.name then ⟨.duplicateOption o.name, o.span⟩ :: nameFindings seen rest
    else nameFindings (o.name :: seen) rest

end TagOption

/-- The problems of a call itself. The arguments of a mapped call have to be named, and its template
needs a parameter for the element. -/
def callFindings (directory : Directory) (mapped : Bool) (callee : Callee) (arguments : Arguments)
    (span : Span) : List Finding :=
  let passed := match arguments with
    | .positional values => values.length
    | .named _ => 0
  match directory.find? callee with
  | none => [⟨.noSuchTemplate callee directory.names, span⟩]
  | some formals =>
    if mapped then
      (if passed = 0 then [] else [⟨.positionalMapArguments callee.name, span⟩]) ++
        (if formals.isOpen || formals.size ≠ 0 then [] else [⟨.noReceiver callee.name, span⟩])
    else if passed > formals.size then [⟨.tooManyArguments passed callee.name formals.size, span⟩]
    else []

mutual

/-- The problems of an expression, which may stand as a template to map. -/
def Expr.findings (s : Scope) (mapped : Bool) : Expr → List Finding
  | .attribute name span =>
    if s.accepts name then [] else [⟨.noSuchAttribute name s.candidates, span⟩]
  | .literal _ _ | .truth _ _ => []
  | .list items _ => Expr.findingsAll s false items
  | .property target _ _ => target.findings s false
  | .propertyAt target key _ => target.findings s false ++ key.findings s false
  | .call callee arguments span =>
    callFindings s.directory mapped callee arguments span ++
      arguments.findings s ((s.directory.find? callee).map fun formals => (callee.name, formals))
  | .callComputed name arguments span =>
    let positional := match arguments with
      | .positional values => !values.isEmpty
      | .named _ => false
    (if mapped && positional then [⟨.positionalMapArguments "(...)", span⟩] else []) ++
      name.findings s false ++ arguments.findings s none
  | .rendered value _ => value.findings s false
  | .builtin _ argument _ => argument.findings s false
  | .anonymous parameter body _ =>
    Element.findingsAll (s.enter (.ofNames [parameter.getD Formals.element])) body
  | .map target templates _ => target.findings s false ++ Expr.findingsAll s true templates

def Expr.findingsAll (s : Scope) (mapped : Bool) : List Expr → List Finding
  | [] => []
  | e :: rest => e.findings s mapped ++ Expr.findingsAll s mapped rest

/-- The problems of what is passed to a template, whose parameters may be known. -/
def Arguments.findings (s : Scope) (callee : Option (String × Formals)) : Arguments → List Finding
  | .positional values => Expr.findingsAll s false values
  | .named values => NamedArgument.findingsAll s callee [] values

/-- The problems of named arguments, behind those whose names are in `seen`. -/
def NamedArgument.findingsAll (s : Scope) (callee : Option (String × Formals)) (seen : List String) :
    List NamedArgument → List Finding
  | [] => []
  | ⟨name, value, span⟩ :: rest =>
    (if seen.contains name then
      [⟨.duplicateArgument name ((callee.map Prod.fst).getD ""), span⟩]
    else match callee with
      | some (template, formals) =>
        if formals.accepts name then [] else [⟨.noSuchParameter template name, span⟩]
      | none => []) ++
      value.findings s false ++ NamedArgument.findingsAll s callee (name :: seen) rest

/-- The problems of the value of the first option of a name. -/
def TagOption.valueFindings (s : Scope) (wanted : String) : List TagOption → List Finding
  | [] => []
  | ⟨name, value, _⟩ :: rest =>
    if name == wanted then value.findings s false else TagOption.valueFindings s wanted rest

def Condition.findings (s : Scope) : Condition → List Finding
  | .value e => e.findings s false
  | .not c => c.findings s
  | .and a b | .or a b => a.findings s ++ b.findings s

def Element.findings (s : Scope) : Element → List Finding
  | .text _ => []
  | .tag value options _ =>
    value.findings s false ++ TagOption.nameFindings [] options ++
      TagOption.valueFindings s "separator" options ++ TagOption.valueFindings s "format" options ++
      TagOption.valueFindings s "null" options
  | .choice branches otherwise =>
    Branch.findingsAll s branches ++
      match otherwise with
      | none => []
      | some body => Element.findingsAll s body

def Element.findingsAll (s : Scope) : List Element → List Finding
  | [] => []
  | e :: rest => e.findings s ++ Element.findingsAll s rest

def Branch.findingsAll (s : Scope) : List Branch → List Finding
  | [] => []
  | ⟨condition, body, _⟩ :: rest =>
    condition.findings s ++ Element.findingsAll s body ++ Branch.findingsAll s rest

end

end Stencil
