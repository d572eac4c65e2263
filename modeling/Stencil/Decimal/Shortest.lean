/-! The decimal text of a double: the fewest digits that read back as the same double, the nearest of
those, and never an exponent. -/

namespace Stencil.Decimal

/-- The numbers that round to a double lie between `low / den` and `high / den`, and the ends count
if `closed` holds. The double itself is `num / den`. -/
structure Rounding where
  num : Nat
  low : Nat
  high : Nat
  den : Nat
  closed : Bool
deriving Repr

namespace Rounding

/-- The numbers that round to `m * 2 ^ e`. Below a power of two the next double is half as far away,
unless that power is the least exponent's. -/
def ofParts (m : Nat) (e : Int) : Rounding :=
  let scale := Nat.pow 2 (e - 2).toNat
  let den := Nat.pow 2 (2 - e).toNat
  let below := if m = Nat.pow 2 52 ∧ e > -1074 then 1 else 2
  ⟨4 * m * scale, (4 * m - below) * scale, (4 * m + 2) * scale, den, m % 2 = 0⟩

/-- Whether `n / d` rounds to the double. -/
def holds (r : Rounding) (n d : Nat) : Bool :=
  if r.closed then r.low * d ≤ n * r.den && n * r.den ≤ r.high * d
  else r.low * d < n * r.den && n * r.den < r.high * d

end Rounding

/-- Whether `10 ^ p ≤ num / den`. -/
def atLeastPower (num den : Nat) (p : Int) : Bool := den * Nat.pow 10 p.toNat ≤ num * Nat.pow 10 (-p).toNat

/-- The place of the first digit of `num / den`, which is 0 for ones. -/
def leadingPlace (num den : Nat) : Int :=
  let guess := ((Int.ofNat num.log2 - Int.ofNat den.log2 - 1) * 30103) / 100000
  if atLeastPower num den (guess + 1) then guess + 1
  else if atLeastPower num den guess then guess
  else guess - 1

/-- The multiple of `10 ^ place` that rounds to the double and is nearest to it, if there is one. Of
two that are equally near the larger is taken. -/
def onGrid? (r : Rounding) (place : Int) : Option Nat :=
  let up := Nat.pow 10 place.toNat
  let down := Nat.pow 10 (-place).toNat
  let digits := r.num * down / (r.den * up)
  let lower := r.holds (digits * up) down
  let upper := r.holds ((digits + 1) * up) down
  let twice := 2 * (r.num * down % (r.den * up))
  if lower && (!upper || twice < r.den * up) then some digits
  else if upper then some (digits + 1)
  else none

/-- Looks for the fewest digits from the place given on, with at most `n` more. -/
def fewestDigits (r : Rounding) : Nat → Int → Nat × Int
  | 0, place => (r.num * Nat.pow 10 (-place).toNat / (r.den * Nat.pow 10 place.toNat), place)
  | n + 1, place =>
    match onGrid? r place with
    | some digits => (digits, place)
    | none => fewestDigits r n (place - 1)

/-- The digits and the place of the last of them for `m * 2 ^ e`, where `m` is positive. The search
starts in front of the leading place, as the double may round up to a power of ten. -/
def shortest (m : Nat) (e : Int) : Nat × Int :=
  let r := Rounding.ofParts m e
  fewestDigits r 18 (leadingPlace r.num r.den + 1)

/-- `digits * 10 ^ place` without an exponent. -/
def positional (digits : Nat) (place : Int) : String :=
  let text := Nat.toDigits 10 digits
  if place ≥ 0 then String.ofList (text ++ List.replicate place.toNat '0')
  else
    let behind := (-place).toNat
    let padded := List.replicate (behind + 1 - text.length) '0' ++ text
    String.ofList (padded.take (padded.length - behind) ++ '.' :: padded.drop (padded.length - behind))

/-- The text of a double. -/
def text (x : Float) : String :=
  let bits := x.toBits.toNat
  let sign := if bits ≥ Nat.pow 2 63 then "-" else ""
  let field := bits / Nat.pow 2 52 % 2048
  let fraction := bits % Nat.pow 2 52
  if field = 2047 then if fraction = 0 then sign ++ "inf" else "NaN"
  else
    let (m, e) : Nat × Int :=
      if field = 0 then (fraction, -1074) else (fraction + Nat.pow 2 52, Int.ofNat field - 1075)
    if m = 0 then sign ++ "0"
    else
      let (digits, place) := shortest m e
      sign ++ positional digits place

end Stencil.Decimal
