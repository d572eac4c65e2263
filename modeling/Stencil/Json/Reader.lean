import Stencil.Json.Basic
/-! Reads JSON documents. Arrays and objects nest at most 127 deep, and a surrogate escape has to
come with its other half. -/

namespace Stencil.Json

/-- The blanks of the format. -/
def isSpace (c : Char) : Bool := c == ' ' || c == '\n' || c == '\t' || c == '\r'

def skipSpace (cs : List Char) : List Char := cs.dropWhile isSpace

/-- Moves over a word that is next. -/
def past? (word : String) (cs : List Char) : Option (List Char) :=
  if word.toList.isPrefixOf cs then some (cs.drop word.length) else none

/-- The value of a hexadecimal digit. -/
def hexDigit? (c : Char) : Option Nat :=
  if c.isDigit then some (c.toNat - 48)
  else if 'a' ≤ c ∧ c ≤ 'f' then some (c.toNat - 87)
  else if 'A' ≤ c ∧ c ≤ 'F' then some (c.toNat - 55)
  else none

/-- Four hexadecimal digits. -/
def hexUnit? : List Char → Option (Nat × List Char)
  | a :: b :: c :: d :: rest => do
    return (((← hexDigit? a) * 16 + (← hexDigit? b)) * 256 + (← hexDigit? c) * 16 + (← hexDigit? d), rest)
  | _ => none

/-- The character behind `\u`: a unit, or a high and a low surrogate. -/
def unicodeEscape? (cs : List Char) : Option (Char × List Char) := do
  let (high, rest) ← hexUnit? cs
  if 0xDC00 ≤ high ∧ high ≤ 0xDFFF then none
  else if 0xD800 ≤ high ∧ high ≤ 0xDBFF then
    let (low, rest) ← hexUnit? (← past? "\\u" rest)
    if 0xDC00 ≤ low ∧ low ≤ 0xDFFF then
      return (Char.ofNat (0x10000 + (high - 0xD800) * 0x400 + (low - 0xDC00)), rest)
    else none
  else return (Char.ofNat high, rest)

/-- The characters of a string up to its closing quote. The bound is on the number of characters. -/
def stringRest? : Nat → List Char → Option (List Char × List Char)
  | 0, _ => none
  | n + 1, cs =>
    match cs with
    | [] => none
    | '"' :: rest => some ([], rest)
    | '\\' :: 'u' :: rest => do
      let (c, rest) ← unicodeEscape? rest
      let (text, rest) ← stringRest? n rest
      return (c :: text, rest)
    | '\\' :: c :: rest => do
      let c ← match c with
        | '"' => some '"'
        | '\\' => some '\\'
        | '/' => some '/'
        | 'b' => some '\x08'
        | 'f' => some '\x0c'
        | 'n' => some '\n'
        | 'r' => some '\r'
        | 't' => some '\t'
        | _ => none
      let (text, rest) ← stringRest? n rest
      return (c :: text, rest)
    | c :: rest => do
      if c = '\\' ∨ c.toNat < 32 then none
      let (text, rest) ← stringRest? n rest
      return (c :: text, rest)

/-- A string, the opening quote of which is read. -/
def string? (n : Nat) (cs : List Char) : Option (String × List Char) :=
  (stringRest? n cs).map fun (text, rest) => (String.ofList text, rest)

/-- The digits in front. -/
def digits (cs : List Char) : List Char × List Char := (cs.takeWhile Char.isDigit, cs.dropWhile Char.isDigit)

/-- The digits in front, of which there is at least one. -/
def someDigits? (cs : List Char) : Option (List Char × List Char) :=
  match digits cs with
  | ([], _) => none
  | found => some found

/-- A number: no zero leads other digits, and digits stand on both sides of the point. -/
def number? (cs : List Char) : Option (Number × List Char) := do
  let (negative, cs) := match cs with
    | '-' :: rest => (true, rest)
    | _ => (false, cs)
  let (whole, cs) ← someDigits? cs
  if whole.head? = some '0' ∧ whole.length > 1 then none
  let (fraction, cs) ← match cs with
    | '.' :: rest => (someDigits? rest).map fun (d, rest) => (some d, rest)
    | _ => some (none, cs)
  let (exponent, cs) ← match cs with
    | c :: rest =>
      if c = 'e' ∨ c = 'E' then
        let (sign, rest) := match rest with
          | '+' :: more => (false, more)
          | '-' :: more => (true, more)
          | _ => (false, rest)
        (someDigits? rest).map fun (d, rest) => (some (sign, d), rest)
      else some (none, cs)
    | [] => some (none, cs)
  return (⟨negative, whole, fraction, exponent⟩, cs)

mutual

/-- A value, blanks in front of which are skipped. The first bound is on the number of steps and the
second on the depth of nesting. -/
def value? : Nat → Nat → List Char → Option (Json × List Char)
  | 0, _, _ => none
  | n + 1, depth, cs =>
    match skipSpace cs with
    | [] => none
    | '"' :: rest => (string? n rest).map fun (s, rest) => (.string s, rest)
    | '[' :: rest =>
      if depth ≤ 1 then none
      else match skipSpace rest with
        | ']' :: rest => some (.array [], rest)
        | rest => (items? n (depth - 1) rest).map fun (items, rest) => (.array items, rest)
    | '\x7b' :: rest =>
      if depth ≤ 1 then none
      else match skipSpace rest with
        | '\x7d' :: rest => some (.object [], rest)
        | rest => (members? n (depth - 1) rest).map fun (members, rest) => (.object members, rest)
    | 'n' :: rest => (past? "ull" rest).map fun rest => (.null, rest)
    | 't' :: rest => (past? "rue" rest).map fun rest => (.bool true, rest)
    | 'f' :: rest => (past? "alse" rest).map fun rest => (.bool false, rest)
    | cs => (number? cs).map fun (n, rest) => (.number n, rest)

/-- The items of an array up to its closing bracket. -/
def items? : Nat → Nat → List Char → Option (List Json × List Char)
  | 0, _, _ => none
  | n + 1, depth, cs => do
    let (first, rest) ← value? n depth cs
    match skipSpace rest with
    | ']' :: rest => return ([first], rest)
    | ',' :: rest =>
      let (more, rest) ← items? n depth rest
      return (first :: more, rest)
    | _ => none

/-- The members of an object up to its closing brace. -/
def members? : Nat → Nat → List Char → Option (List (String × Json) × List Char)
  | 0, _, _ => none
  | n + 1, depth, cs => do
    let '"' :: rest := skipSpace cs | none
    let (key, rest) ← string? n rest
    let ':' :: rest := skipSpace rest | none
    let (first, rest) ← value? n depth rest
    match skipSpace rest with
    | '\x7d' :: rest => return ([(key, first)], rest)
    | ',' :: rest =>
      let (more, rest) ← members? n depth rest
      return ((key, first) :: more, rest)
    | _ => none

end

/-- How deep a document may nest, plus one. -/
def depthLimit : Nat := 128

/-- Reads a whole document. -/
def read? (text : String) : Option Json := do
  let cs := text.toList
  let (value, rest) ← value? (2 * cs.length + 2) depthLimit cs
  if (skipSpace rest).isEmpty then some value else none

end Stencil.Json
