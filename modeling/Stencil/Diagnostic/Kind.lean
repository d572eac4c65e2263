/-! The catalogue of diagnostics. -/

namespace Stencil

/-- The class that a diagnostic belongs to. -/
inductive Category where
  /-- Source that cannot be read. -/
  | syntactic
  /-- Source that refers to something it may not. -/
  | semantic
  /-- A template that is not there when it is called. -/
  | undefinedTemplate
  /-- A property that cannot be read and counts as null. -/
  | attributeAccess
  /-- A failure of a renderer or a writer, or a limit that was met. -/
  | internal
deriving DecidableEq, Repr, Inhabited

namespace Category

def name : Category → String
  | syntactic => "Syntax"
  | semantic => "Semantic"
  | undefinedTemplate => "UndefinedTemplate"
  | attributeAccess => "AttributeAccess"
  | internal => "Internal"

end Category

inductive Severity where
  | warning | error
deriving DecidableEq, Repr, Inhabited

namespace Severity

def name : Severity → String
  | warning => "Warning"
  | error => "Error"

end Severity

/-- Every problem that is reported, while a template is compiled or while it is rendered. -/
inductive Kind where
  | syntaxError
  | noSuchAttribute
  | noSuchTemplate
  | noSuchFormalArgument
  | argumentCountMismatch
  | duplicateArgument
  | noSuchOption
  | duplicateOption
  | positionalMapArguments
  | mapTemplateWithoutParameters
  | undefinedTemplate
  | emptyTemplateName
  | templateCompileFailed
  | noSuchProperty
  | indexOutOfRange
  | rendererFailure
  | recursionLimit
  | outputFailure
  | internalError
deriving DecidableEq, Repr, Inhabited

namespace Kind

def all : List Kind :=
  [syntaxError, noSuchAttribute, noSuchTemplate, noSuchFormalArgument, argumentCountMismatch,
   duplicateArgument, noSuchOption, duplicateOption, positionalMapArguments,
   mapTemplateWithoutParameters, undefinedTemplate, emptyTemplateName, templateCompileFailed,
   noSuchProperty, indexOutOfRange, rendererFailure, recursionLimit, outputFailure, internalError]

def name : Kind → String
  | syntaxError => "SyntaxError"
  | noSuchAttribute => "NoSuchAttribute"
  | noSuchTemplate => "NoSuchTemplate"
  | noSuchFormalArgument => "NoSuchFormalArgument"
  | argumentCountMismatch => "ArgumentCountMismatch"
  | duplicateArgument => "DuplicateArgument"
  | noSuchOption => "NoSuchOption"
  | duplicateOption => "DuplicateOption"
  | positionalMapArguments => "PositionalMapArguments"
  | mapTemplateWithoutParameters => "MapTemplateWithoutParameters"
  | undefinedTemplate => "UndefinedTemplate"
  | emptyTemplateName => "EmptyTemplateName"
  | templateCompileFailed => "TemplateCompileFailed"
  | noSuchProperty => "NoSuchProperty"
  | indexOutOfRange => "IndexOutOfRange"
  | rendererFailure => "RendererFailure"
  | recursionLimit => "RecursionLimit"
  | outputFailure => "OutputFailure"
  | internalError => "InternalError"

def ofName? (name : String) : Option Kind := all.find? fun k => k.name == name

/-- The message, in which `%1` to `%3` stand for the arguments. -/
def pattern : Kind → String
  | syntaxError => "%1"
  | noSuchAttribute => "attribute %1 isn't defined%2"
  | noSuchTemplate => "no such template: %1%2"
  | noSuchFormalArgument => "template %1 has no formal argument %2"
  | argumentCountMismatch => "passed %1 arg(s) to template %2 with %3 declared arg(s)"
  | duplicateArgument => "argument %1 passed more than once to template %2"
  | noSuchOption => "no such option: %1"
  | duplicateOption => "option %1 given more than once"
  | positionalMapArguments => "arguments to mapped template %1 must be named"
  | mapTemplateWithoutParameters => "mapped template %1 declares no parameter to receive the element"
  | undefinedTemplate => "no such template: %1"
  | emptyTemplateName => "template name expression %1 evaluated to nothing"
  | templateCompileFailed => "template %1 has compile errors"
  | noSuchProperty => "no such property or can't access: %1"
  | indexOutOfRange => "index %1 out of range for sequence of length %2"
  | rendererFailure => "attribute renderer for %1 failed"
  | recursionLimit => "template nesting deeper than %1 invoking %2"
  | outputFailure => "output writer failed"
  | internalError => "internal error: %1"

def category : Kind → Category
  | syntaxError => .syntactic
  | noSuchAttribute | noSuchTemplate | noSuchFormalArgument | argumentCountMismatch
  | duplicateArgument | noSuchOption | duplicateOption | positionalMapArguments
  | mapTemplateWithoutParameters => .semantic
  | undefinedTemplate | emptyTemplateName | templateCompileFailed => .undefinedTemplate
  | noSuchProperty | indexOutOfRange => .attributeAccess
  | rendererFailure | recursionLimit | outputFailure | internalError => .internal

/-- Only what leaves the rest of the text intact is a warning. -/
def severity (k : Kind) : Severity :=
  match k.category with
  | .attributeAccess => .warning
  | _ => .error

end Kind

end Stencil
