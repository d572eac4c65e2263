import Stencil.Decimal.Nearest
/-! Reads whole numbers and floating point numbers from text. -/

namespace Stencil.Decimal

/-- The value of decimal digits, of which there is at least one and nothing else. -/
def digits? (cs : List Char) : Option Nat :=
  if cs.isEmpty || !cs.all Char.isDigit then none
  else some (cs.foldl (fun n d => 10 * n + (d.toNat - '0'.toNat)) 0)

/-- A whole number not above a limit. A plus sign may stand in front. -/
def readNat? (limit : Nat) (s : String) : Option Nat := do
  let n ← match s.toList with
    | '+' :: rest => digits? rest
    | cs => digits? cs
  if n ≤ limit then some n else none

/-- Digits read as the number that they were written for. -/
theorem digits?_toDigits (n : Nat) : digits? (Nat.toDigits 10 n) = some n := by
  have hempty : (Nat.toDigits 10 n).isEmpty = false := List.isEmpty_eq_false_iff.mpr Nat.toDigits_ne_nil
  have hall : (Nat.toDigits 10 n).all Char.isDigit = true :=
    List.all_eq_true.mpr fun c hc => Nat.isDigit_of_mem_toDigits (by decide) (by decide) hc
  rw [digits?, hempty, hall]
  exact congrArg some Nat.ofDigitChars_ten_toDigits

/-- Text that starts with a digit has no sign in front. -/
theorem toDigits_ne_cons {n : Nat} {c : Char} (hc : c.isDigit = false) (cs : List Char) : Nat.toDigits 10 n ≠ c :: cs := by
  intro h
  have hdigit : c.isDigit = true := Nat.isDigit_of_mem_toDigits (by decide) (by decide) (h ▸ List.mem_cons_self)
  rw [hc] at hdigit
  cases hdigit

/-- A number up to the limit is read from its text. -/
theorem readNat?_toString {limit n : Nat} (h : n ≤ limit) : readNat? limit (toString n) = some n := by
  unfold readNat?
  rw [Nat.toString_eq_ofList_toDigits, String.toList_ofList]
  split
  · next rest hd => exact absurd hd (toDigits_ne_cons (by decide) rest)
  · rw [digits?_toDigits]
    exact if_pos h

/-- A whole number between two limits, with or without a sign in front. -/
def readInt? (low high : Int) (s : String) : Option Int := do
  let n ← match s.toList with
    | '+' :: rest => Int.ofNat <$> digits? rest
    | '-' :: rest => (fun n => -Int.ofNat n) <$> digits? rest
    | cs => Int.ofNat <$> digits? cs
  if low ≤ n ∧ n ≤ high then some n else none

/-- A whole number of 64 bits with a sign. -/
def readInt64? (s : String) : Option Int := readInt? (-Int.pow 2 63) (Int.pow 2 63 - 1) s

/-- Whether text is a word in small or capital letters of ASCII. -/
def isWord (word : String) (cs : List Char) : Bool := cs.map Char.toLower == word.toList

/-- A floating point number without its sign: `inf`, `infinity`, `nan`, or digits with at most one
point, on one side of which there is a digit, and at most one exponent. -/
def readMagnitude? (cs : List Char) : Option Float := do
  if isWord "inf" cs || isWord "infinity" cs then return Float.ofBits (UInt64.ofNat (2047 * Nat.pow 2 52))
  if isWord "nan" cs then return Float.ofBits (UInt64.ofNat (2047 * Nat.pow 2 52 + Nat.pow 2 51))
  let whole := cs.takeWhile Char.isDigit
  let rest := cs.dropWhile Char.isDigit
  let (fraction, rest) := match rest with
    | '.' :: rest => (rest.takeWhile Char.isDigit, rest.dropWhile Char.isDigit)
    | rest => ([], rest)
  let digits ← digits? (whole ++ fraction)
  let exponent ← match rest with
    | [] => some 0
    | c :: rest =>
      if c = 'e' ∨ c = 'E' then
        match rest with
        | '+' :: rest => Int.ofNat <$> digits? rest
        | '-' :: rest => (fun n => -Int.ofNat n) <$> digits? rest
        | rest => Int.ofNat <$> digits? rest
      else none
  return nearestDecimal digits (exponent - Int.ofNat fraction.length)

/-- A floating point number, with or without a sign in front. -/
def readFloat? (s : String) : Option Float :=
  match s.toList with
  | '+' :: rest => readMagnitude? rest
  | '-' :: rest => (fun x => -x) <$> readMagnitude? rest
  | cs => readMagnitude? cs

end Stencil.Decimal
