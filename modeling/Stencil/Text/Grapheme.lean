import Stencil.Text.Ranges
import Stencil.Text.GraphemeTable
/-! User-perceived characters: the extended grapheme clusters of a text. -/

namespace Stencil.Text

/-- What a character counts as where a cluster may end. -/
inductive GraphemeClass where
  | carriageReturn | lineFeed | control | extend | joiner | flag | prepend | spacingMark
  | leading | vowel | trailing | syllableOpen | syllableClosed | pictograph | other
deriving DecidableEq, Repr

namespace GraphemeClass

def of (c : Char) : GraphemeClass :=
  let n := c.toNat
  if 0x20 ≤ n && n < 0x7F then other
  else if n = 0x0D then carriageReturn
  else if n = 0x0A then lineFeed
  else if n = 0x200D then joiner
  else if 0x1F1E6 ≤ n && n ≤ 0x1F1FF then flag
  else if 0xAC00 ≤ n && n ≤ 0xD7A3 then
    if (n - 0xAC00) % 28 = 0 then syllableOpen else syllableClosed
  else if (0x1100 ≤ n && n ≤ 0x115F) || (0xA960 ≤ n && n ≤ 0xA97C) then leading
  else if (0x1160 ≤ n && n ≤ 0x11A7) || (0xD7B0 ≤ n && n ≤ 0xD7C6) || n = 0x16D63 ||
      (0x16D67 ≤ n && n ≤ 0x16D6A) then vowel
  else if (0x11A8 ≤ n && n ≤ 0x11FF) || (0xD7CB ≤ n && n ≤ 0xD7FB) then trailing
  else if inRanges controlRanges c then control
  else if inRanges extendRanges c then extend
  else if inRanges prependRanges c then prepend
  else if inRanges spacingMarkRanges c then spacingMark
  else if inRanges pictographRanges c then pictograph
  else other

end GraphemeClass

/-- What has to be known of the characters so far to tell whether the next one starts a cluster. -/
structure ClusterState where
  last : GraphemeClass
  /-- A pictograph comes last, extending marks aside. -/
  pictograph : Bool
  /-- A joiner follows such a pictograph. -/
  joined : Bool
  /-- The number of flag letters at the end is odd. -/
  oddFlags : Bool
  /-- A consonant comes last, marks aside. -/
  consonant : Bool
  /-- One of these marks links consonants. -/
  linked : Bool
deriving DecidableEq, Repr

namespace ClusterState

/-- The state behind the character `c` of class `k`, behind `s`. -/
def next (s : ClusterState) (c : Char) (k : GraphemeClass) : ClusterState :=
  let links := inRanges conjunctLinkerRanges c
  let marks := (k = .extend || k = .joiner) && !inRanges conjunctBreakRanges c
  let consonant := k = .other && inRanges conjunctConsonantRanges c
  { last := k
    pictograph := k = .pictograph || (s.pictograph && k = .extend)
    joined := s.pictograph && k = .joiner
    oddFlags := k = .flag && !(s.last = .flag && s.oddFlags)
    consonant := consonant || (s.consonant && marks)
    linked := !consonant && s.consonant && marks && (s.linked || links) }

/-- Whether the character `c` of class `k` starts a cluster behind `s`. -/
def breaks (s : ClusterState) (c : Char) (k : GraphemeClass) : Bool :=
  match s.last, k with
  | .carriageReturn, .lineFeed => false
  | .carriageReturn, _ | .lineFeed, _ | .control, _ => true
  | _, .carriageReturn | _, .lineFeed | _, .control => true
  | .leading, .leading | .leading, .vowel | .leading, .syllableOpen | .leading, .syllableClosed => false
  | .syllableOpen, .vowel | .syllableOpen, .trailing | .vowel, .vowel | .vowel, .trailing => false
  | .syllableClosed, .trailing | .trailing, .trailing => false
  | _, .extend | _, .joiner | _, .spacingMark => false
  | .prepend, _ => false
  | .joiner, .pictograph => !s.joined
  | .flag, .flag => !s.oddFlags
  | _, .other => !(s.linked && inRanges conjunctConsonantRanges c)
  | _, _ => true

end ClusterState

/-- The number of clusters that start behind `s`. -/
def clustersBehind : ClusterState → List Char → Nat
  | _, [] => 0
  | s, c :: cs =>
    let k := GraphemeClass.of c
    (if s.breaks c k then 1 else 0) + clustersBehind (s.next c k) cs

/-- The number of user-perceived characters. -/
def graphemeCount (s : String) : Nat :=
  clustersBehind ⟨.control, false, false, false, false, false⟩ s.toList

end Stencil.Text
