/-! Encodings of text for markup and for addresses. -/

namespace Stencil.Text

/-- A character of an attribute value between double quotes. -/
def markupChar (c : Char) : List Char :=
  match c with
  | '&' => "&amp;".toList
  | '<' => "&lt;".toList
  | '>' => "&gt;".toList
  | '"' => "&quot;".toList
  | c => [c]

def markupEncode (s : String) : String := String.ofList (s.toList.flatMap markupChar)

/-- The digit of a value below 16, in upper case. -/
def upperHexDigit (n : Nat) : Char := Char.ofNat (if n < 10 then 48 + n else 55 + n)

/-- Bytes that an address shows as they are. -/
def isUnreserved (b : UInt8) : Bool :=
  let c := Char.ofNat b.toNat
  c.isAlphanum || c == '-' || c == '_' || c == '.' || c == '*'

/-- A byte in an address: itself, a plus sign for a space, or a percent sign and two digits. -/
def urlByte (b : UInt8) : List Char :=
  if isUnreserved b then [Char.ofNat b.toNat]
  else if b = 32 then ['+']
  else ['%', upperHexDigit (b.toNat / 16), upperHexDigit (b.toNat % 16)]

def urlEncode (s : String) : String := String.ofList (s.toUTF8.toList.flatMap urlByte)

end Stencil.Text
