import Stencil.Text.Distance
/-! Names that someone may have meant. -/

namespace Stencil

/-- How many edits away a name may be. Names of up to three bytes allow one, longer ones two. -/
def nearbyLimit (target : String) : Nat := if target.utf8ByteSize ≤ 3 then 1 else 2

/-- At most three of the names that are close to the target but not equal to it, the nearest first
and names at one distance in their order. -/
def nearby (target : String) (available : List String) : List String :=
  let scored := available.map fun name => (Text.distance target name, name)
  let close := scored.filter fun (d, name) => d ≤ nearbyLimit target && name != target
  let ordered := close.mergeSort fun a b => a.1 < b.1 || (a.1 == b.1 && !(b.2 < a.2))
  (ordered.take 3).map Prod.snd

/-- Names as they are suggested behind a message, or nothing. -/
def didYouMean : List String → String
  | [] => ""
  | names => " (did you mean " ++ ", ".intercalate names ++ "?)"

end Stencil
