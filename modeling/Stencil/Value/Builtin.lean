import Stencil.Value.Attributes
import Stencil.Decimal.Reader
import Stencil.Text.Grapheme
/-! The functions on values that templates may use, and the properties that they may read. -/

namespace Stencil

namespace Value

/-- The elements of what can be cut: a sequence or a map. -/
def parts? : Value → Option (List Value)
  | sequence items => some items
  | map entries => some ((Dict.keys entries).map text)
  | _ => none

def first (v : Value) : Value :=
  match v.parts? with
  | some items => items.headD null
  | none => v

def last (v : Value) : Value :=
  match v.parts? with
  | some items => items.getLastD null
  | none => v

/-- A sequence, or null in place of an empty one. -/
def sequenceOrNull : List Value → Value
  | [] => null
  | items => sequence items

/-- All elements but the first, null if that leaves none. -/
def rest (v : Value) : Value := sequenceOrNull ((v.parts?.getD []).drop 1)

/-- All elements but the last, null if that leaves none. -/
def trunc (v : Value) : Value := sequenceOrNull (v.parts?.getD []).dropLast

/-- A sequence without its nulls. -/
def strip : Value → Value
  | sequence items => sequence (items.filter fun v => !v.isNull)
  | v => v

/-- The number of elements, nulls included. -/
def length : Value → Nat
  | null => 0
  | sequence items => items.length
  | map entries => entries.length
  | _ => 1

def reverse (v : Value) : Value :=
  match v.parts? with
  | some items => sequence items.reverse
  | none => v

/-- Applies a function. Those on text are given the text of their argument, or null. -/
def apply : Builtin → Value → Value
  | .first, v => v.first
  | .last, v => v.last
  | .rest, v => v.rest
  | .trunc, v => v.trunc
  | .strip, v => v.strip
  | .length, v => ofNat v.length
  | .strlen, v => ofNat ((v.text?.map Text.graphemeCount).getD 0)
  | .trim, v =>
    match v with
    | text s => text (Text.trim s)
    | v => v
  | .reverse, v => v.reverse

/-- What an item adds to a list: the items of a sequence, and no nulls. -/
def listItems : Value → List Value
  | null => []
  | sequence items => items.filter fun v => !v.isNull
  | v => [v]

/-- A list as it is written in source. -/
def list (items : List Value) : Value := sequence (items.flatMap listItems)

end Value

/-- Why a property cannot be read. -/
inductive PropertyError where
  | noSuchProperty (owner name : String)
  | indexOutOfRange (index length : Nat)
deriving DecidableEq, Repr, Inhabited

namespace PropertyError

def kind : PropertyError → Kind
  | noSuchProperty _ _ => .noSuchProperty
  | indexOutOfRange _ _ => .indexOutOfRange

def arguments : PropertyError → List String
  | noSuchProperty owner name => [owner ++ "." ++ name]
  | indexOutOfRange index length => [toString index, toString length]

end PropertyError

namespace Value

/-- The largest index that is read as a number. -/
def indexLimit : Nat := Nat.pow 2 64 - 1

/-- A property of a sequence: an item by its index from zero, an end, what follows the first item, or
the size. -/
def sequenceProperty (items : List Value) (name : String) : Except PropertyError Value :=
  match Decimal.readNat? indexLimit name with
  | some index =>
    match items[index]? with
    | some item => .ok item
    | none => .error (.indexOutOfRange index items.length)
  | none =>
    match name with
    | "first" => .ok (sequence items).first
    | "last" => .ok (sequence items).last
    | "rest" => .ok (sequence items).rest
    | "size" | "length" => .ok (ofNat items.length)
    | _ => .error (.noSuchProperty "Sequence" name)

/-- Reads a property. Null has all properties, and they are null; a missing key of a map and an unset
attribute of a template are null too. -/
def property (v : Value) (name : String) : Except PropertyError Value :=
  match v with
  | null => .ok null
  | map entries =>
    match Dict.find? entries name, name with
    | some held, _ => .ok held
    | none, "keys" => .ok (sequence ((Dict.keys entries).map text))
    | none, "values" => .ok (sequence (Dict.values entries))
    | none, _ => .ok null
  | sequence items => sequenceProperty items name
  | template i =>
    if i.program.formals.accepts name then .ok (i.get name)
    else .error (.noSuchProperty i.name name)
  | object typeName properties _ =>
    match properties.lookup name with
    | some held => .ok held
    | none => .error (.noSuchProperty typeName name)
  | bool _ => .error (.noSuchProperty ScalarKind.bool.display name)
  | int _ => .error (.noSuchProperty ScalarKind.int.display name)
  | float _ => .error (.noSuchProperty ScalarKind.float.display name)
  | text _ => .error (.noSuchProperty ScalarKind.text.display name)

end Value

end Stencil
