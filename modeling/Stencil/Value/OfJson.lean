import Stencil.Value.Basic
import Stencil.Json.Reader
/-! Values from JSON documents. -/

namespace Stencil.Value

/-- A number: whole and of 64 bits if it is written so, and in floating point otherwise. Minus zero is
no whole number. -/
def ofNumber? (n : Json.Number) : Option Value :=
  match n.toInt? with
  | some k =>
    if -Int.pow 2 63 ≤ k ∧ k < Int.pow 2 63 ∧ ¬(n.negative ∧ k = 0) then some (int k) else n.toFloat?.map float
  | none => n.toFloat?.map float

mutual

/-- The value of a document, unless a number in it is too large. The last of equal keys counts. -/
def ofJson? : Json → Option Value
  | .null => some null
  | .bool b => some (bool b)
  | .number n => ofNumber? n
  | .string s => some (text s)
  | .array items => (ofItems? items).map sequence
  | .object members => (ofMembers? members).map fun members => map (Dict.ofList members)

def ofItems? : List Json → Option (List Value)
  | [] => some []
  | j :: rest => do
    let v ← ofJson? j
    let vs ← ofItems? rest
    return v :: vs

def ofMembers? : List (String × Json) → Option (List (String × Value))
  | [] => some []
  | (key, j) :: rest => do
    let v ← ofJson? j
    let vs ← ofMembers? rest
    return (key, v) :: vs

end

/-- The value of JSON text. -/
def readJson? (text : String) : Option Value := (Json.read? text).bind ofJson?

/-- Attributes from JSON text that holds an object. -/
def readAttributes? (text : String) : Option (Dict Value) :=
  match readJson? text with
  | some (map entries) => some entries
  | _ => none

end Stencil.Value
