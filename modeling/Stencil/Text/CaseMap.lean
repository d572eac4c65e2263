import Stencil.Text.Ranges
import Stencil.Text.CaseTable
/-! Upper and lower case of text. One character may become several, and a sigma at the end of a word
has a small form of its own. -/

namespace Stencil.Text

/-- The image of a character under a table of single and of multiple mappings. -/
def mapCase (runs : List (Nat × Nat × Nat × Nat)) (many : List (Nat × List Nat)) (c : Char) :
    List Char :=
  let n := c.toNat
  match many.lookup n with
  | some ns => ns.map Char.ofNat
  | none =>
    let image := runs.findSome? fun (low, high, step, target) =>
      if low ≤ n && n ≤ high && (n - low) % step == 0 then some (target + (n - low)) else none
    [(image.map Char.ofNat).getD c]

def upperChar (c : Char) : List Char := mapCase upperRuns upperMany c

def lowerChar (c : Char) : List Char := mapCase lowerRuns lowerMany c

def upper (s : String) : String := String.ofList (s.toList.flatMap upperChar)

/-- The text with its first character in upper case. -/
def capitalize (s : String) : String :=
  match s.toList with
  | [] => ""
  | c :: rest => String.ofList (upperChar c ++ rest)

/-- Whether a cased character comes first, those that case ignores aside. -/
def casedFirst (cs : List Char) : Bool :=
  match cs.dropWhile (inRanges caseIgnorableRanges) with
  | [] => false
  | c :: _ => inRanges casedRanges c

/-- Lower case of the characters behind `before`, which are given last first. A sigma is final if a
cased character is in front of it and none follows. -/
def lowerBehind : List Char → List Char → List Char
  | _, [] => []
  | before, c :: rest =>
    let small :=
      if c = 'Σ' then if casedFirst before && !casedFirst rest then ['ς'] else ['σ']
      else lowerChar c
    small ++ lowerBehind (c :: before) rest

def lower (s : String) : String := String.ofList (lowerBehind [] s.toList)

end Stencil.Text
