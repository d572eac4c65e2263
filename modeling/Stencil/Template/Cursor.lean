import Stencil.Text.Blank
import Stencil.Template.Fault
/-! Readers over the characters that are left of a source, and the small ones that know no grammar. -/

namespace Stencil

/-- A place in a source: what is left of it, and how many bytes are in front. -/
structure Cursor where
  rest : List Char
  offset : Nat
deriving DecidableEq, Repr, Inhabited

/-- A fault and how many bytes were in front of the place where it was met. -/
structure Failure where
  fault : Fault
  offset : Nat
deriving DecidableEq, Repr, Inhabited

/-- A reader takes a value off the front of what is left, or fails. -/
abbrev Reader (α : Type) := StateT Cursor (Except Failure) α

namespace Cursor

/-- The place behind the first characters, where `taken ++ rest` is left. -/
def after (c : Cursor) (taken rest : List Char) : Cursor := ⟨rest, c.offset + Text.byteLength taken⟩

/-- Moves over a token that is next. -/
def past? (token : List Char) (c : Cursor) : Option Cursor :=
  if token.isPrefixOf c.rest then some (c.after token (c.rest.drop token.length)) else none

/-- Whether a token is next. -/
def startsWith (c : Cursor) (token : String) : Bool := token.toList.isPrefixOf c.rest

end Cursor

namespace Reader

/-- Fails where reading stands. -/
def fail {α : Type} (fault : Fault) : Reader α := fun c => .error ⟨fault, c.offset⟩

/-- How many bytes are in front. -/
def offset : Reader Nat := fun c => .ok (c.offset, c)

def startsWith (token : String) : Reader Bool := fun c => .ok (c.startsWith token, c)

/-- The next character, which is not taken. -/
def peek? : Reader (Option Char) := fun c => .ok (c.rest.head?, c)

/-- Takes the next character. -/
def next? : Reader (Option Char) := fun c =>
  match c.rest with
  | [] => .ok (none, c)
  | x :: rest => .ok (some x, c.after [x] rest)

/-- Takes the characters up to the first that `p` refuses. -/
def takeWhile (p : Char → Bool) : Reader (List Char) := fun c =>
  let taken := c.rest.takeWhile p
  .ok (taken, c.after taken (c.rest.dropWhile p))

/-- Takes a token if it is next. -/
def accept (token : String) : Reader Bool := fun c =>
  match c.past? token.toList with
  | some c => .ok (true, c)
  | none => .ok (false, c)

/-- Takes a token that has to be next. -/
def expect (token : String) : Reader Unit := do
  unless ← accept token do fail (.expected token)

def blanks : Reader Unit := do
  let _ ← takeWhile Text.isBlank

/-- Runs a reader that may fail; if it does, nothing is taken. -/
def optional {α : Type} (r : Reader α) : Reader (Option α) := fun c =>
  match r c with
  | .ok (a, c) => .ok (some a, c)
  | .error _ => .ok (none, c)

end Reader

/-- Names start with a letter of ASCII or an underscore. -/
def startsName (c : Char) : Bool := c.isAlpha || c == '_'

def continuesName (c : Char) : Bool := c.isAlphanum || c == '_' || c == '/'

theorem continuesName_of_startsName {x : Char} (h : startsName x = true) : continuesName x = true := by
  simp only [startsName, continuesName, Char.isAlphanum, Bool.or_eq_true] at h ⊢
  exact .inl (h.imp_left .inl)

/-- Whether text is a name: letters, digits, underscores and slashes behind a first letter or underscore. -/
def isName (s : String) : Bool :=
  match s.toList with
  | [] => false
  | c :: cs => startsName c && cs.all continuesName

namespace Reader

/-- Takes the longest name. -/
def name (fault : Fault) : Reader String := do
  match ← peek? with
  | some c => if startsName c then String.ofList <$> takeWhile continuesName else fail fault
  | none => fail fault

/-- Takes a name, or digits only. -/
def propertyName : Reader String := do
  match ← peek? with
  | some c => if c.isDigit then String.ofList <$> takeWhile Char.isDigit else name .expectedPropertyName
  | none => fail .expectedPropertyName

/-- Takes the text up to a stop and the stop itself. -/
def through (stop : String) (fault : Fault) : Reader Unit := fun c =>
  let rec find : List Char → Nat → Except Failure (Unit × Cursor)
    | [], _ => .error ⟨fault, c.offset⟩
    | x :: rest, offset =>
      match (Cursor.mk (x :: rest) offset).past? stop.toList with
      | some c => .ok ((), c)
      | none => find rest (offset + x.utf8Size)
  find c.rest c.offset

end Reader

end Stencil
