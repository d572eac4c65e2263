import Stencil.Source.Span
/-! What can be wrong with template source. -/

namespace Stencil

/-- The cause of a syntax error. -/
inductive Fault where
  | expected (token : String)
  | expectedOptionName
  | expectedTemplateName
  | expectedPropertyName
  | expectedExpression
  | expectedMapTemplate
  | unterminatedComment
  | unterminatedText
  | unknownEscape
  | shortUnicodeEscape
  | noSuchCharacter
  | mixedArguments
  | strayBranchTag
  | unexpected (c : Char)
  | cutOff
deriving DecidableEq, Repr, Inhabited

namespace Fault

/-- Code between grave accents. -/
def code (s : String) : String :=
  let mark := String.singleton (Char.ofNat 96)
  mark ++ s ++ mark

def message : Fault → String
  | expected token => "expected " ++ code token
  | expectedOptionName => "expected option name"
  | expectedTemplateName => "expected template name"
  | expectedPropertyName => "expected property name"
  | expectedExpression => "expected an expression"
  | expectedMapTemplate => "expected a template to map after ':'"
  | unterminatedComment => "unterminated comment"
  | unterminatedText => "unterminated string literal"
  | unknownEscape => "invalid escape character"
  | shortUnicodeEscape => "unicode escape: expected four hex digits"
  | noSuchCharacter => "invalid unicode escape"
  | mixedArguments => "cannot mix named and positional arguments"
  | strayBranchTag =>
    code "<elseif>" ++ ", " ++ code "<else>" ++ " or " ++ code "<endif>" ++ " without matching " ++
      code "<if>"
  | unexpected c => s!"unexpected character: '{c}'"
  | cutOff => "invalid syntax"

end Fault

/-- A fault and the place in the source where reading stopped. -/
structure SyntaxError where
  fault : Fault
  location : Location
deriving DecidableEq, Repr, Inhabited

namespace SyntaxError

def message (e : SyntaxError) : String := e.fault.message

def display (e : SyntaxError) : String := e.location.display ++ ": " ++ e.message

end SyntaxError

end Stencil
