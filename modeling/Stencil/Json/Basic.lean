import Stencil.Decimal.Nearest
/-! JSON documents. Numbers keep their digits, and objects the order of their members. -/

namespace Stencil

namespace Json

/-- A number as it is written: `-1.5e3` has the whole digits `1`, the fraction `5`, and an exponent
that is not negative, with the digits `3`. -/
structure Number where
  negative : Bool
  whole : List Char
  fraction : Option (List Char)
  exponent : Option (Bool × List Char)
deriving DecidableEq, Repr, Inhabited

end Json

inductive Json where
  | null
  | bool (b : Bool)
  | number (n : Json.Number)
  | string (s : String)
  | array (items : List Json)
  | object (members : List (String × Json))
deriving Inhabited

namespace Json

/-- The value of a list of decimal digits. -/
def digitsValue (digits : List Char) : Nat :=
  digits.foldl (fun n d => 10 * n + (d.toNat - '0'.toNat)) 0

def ofNat (n : Nat) : Json := .number ⟨false, (toString n).toList, none, none⟩

/-- The last member of a name, which is the one that counts. -/
def field? (name : String) : Json → Option Json
  | .object members => (members.reverse.find? fun (key, _) => key == name).map Prod.snd
  | _ => none

namespace Number

/-- The number, if it is written without fraction and exponent. -/
def toInt? (n : Number) : Option Int :=
  match n.fraction, n.exponent with
  | none, none =>
    let size := digitsValue n.whole
    some (if n.negative then -Int.ofNat size else Int.ofNat size)
  | _, _ => none

/-- The largest significand that is kept exactly. -/
def significandLimit : Nat := Nat.pow 2 64 - 1

/-- Takes digits into a significand for as long as it stays within 64 bits. The result also tells how
many digits were taken and how many were left. -/
def takeDigits : Nat → List Char → Nat × Nat × Nat
  | significand, [] => (significand, 0, 0)
  | significand, d :: rest =>
    let next := 10 * significand + (d.toNat - '0'.toNat)
    if next > significandLimit then (significand, 0, rest.length + 1)
    else
      let (final, taken, left) := takeDigits next rest
      (final, taken + 1, left)

/-- Scales by a power of ten in floating point, in steps of at most 308 places; there is no result
beyond the range of the format. The bound on steps is met only where the result is zero. -/
def scale : Nat → Float → Int → Option Float
  | 0, f, _ => some f
  | n + 1, f, exponent =>
    if exponent.natAbs ≤ 308 then
      let power := Decimal.nearest (Nat.pow 10 exponent.natAbs) 1
      if exponent ≥ 0 then
        let scaled := f * power
        if scaled.isInf then none else some scaled
      else some (f / power)
    else if f == 0 then some f
    else if exponent ≥ 0 then none
    else scale n (f / Decimal.nearest (Nat.pow 10 308) 1) (exponent + 308)

/-- The number in floating point: the significand, which keeps as many leading digits as fit in 64
bits, scaled by the power of ten that remains. -/
def toFloat? (n : Number) : Option Float := do
  let (whole, _, dropped) := takeDigits 0 n.whole
  let (significand, taken, _) := takeDigits whole (n.fraction.getD [])
  let start : Int := Int.ofNat dropped - Int.ofNat taken
  let size ← match n.exponent with
    | none => scale 4 (Decimal.nearest significand 1) start
    | some (negative, digits) =>
      let e := digitsValue digits
      if e > Nat.pow 2 31 - 1 then
        if significand ≠ 0 && !negative then none else some 0
      else scale 4 (Decimal.nearest significand 1) (if negative then start - e else start + e)
  return if n.negative then -size else size

end Number

end Json

end Stencil
