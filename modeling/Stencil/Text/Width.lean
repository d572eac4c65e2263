import Stencil.Text.Quoted
import Stencil.Text.WidthTable
/-! The number of terminal columns that text takes. Some characters are drawn as one with those behind
them, so that a sequence may take fewer columns than its characters alone. -/

namespace Stencil.Text

/-- The vowels and final consonants of Korean syllables that are written letter by letter. -/
def isSyllablePart (c : Char) : Bool :=
  inRanges [(0x1160, 0x11FF), (0xD7B0, 0xD7C6), (0xD7CB, 0xD7FB)] c

/-- The sign that joins two Tifinagh consonants. It takes a column where it joins nothing. -/
def isConsonantJoiner (c : Char) : Bool := c.toNat == 0x2D7F

/-- Characters that are drawn within the columns of others. -/
def isColumnless (c : Char) : Bool :=
  (isCombining c && !isConsonantJoiner c) || isSyllablePart c || inRanges attachedRanges c

/-- The columns of a character that stands alone. -/
def charWidth (c : Char) : Nat :=
  if 0x20 ≤ c.toNat && c.toNat < 0x7F then 1
  else if isColumnless c then 0
  else if c.toNat = 0x17D8 then 3
  else if inRanges wideRanges c then 2
  else 1

/-- Marks above and below a letter, across which it still joins the next one. -/
def isTransparent (c : Char) : Bool :=
  isCombining c && !isConsonantJoiner c && !inRanges spacingExtendRanges c

/-- The emoji modifiers. -/
def isSkinTone (c : Char) : Bool := 0x1F3FB ≤ c.toNat && c.toNat ≤ 0x1F3FF

def isTifinaghConsonant (c : Char) : Bool := inRanges [(0x2D31, 0x2D65), (0x2D6F, 0x2D6F)] c

/-- The Kirat Rai vowel signs that a vowel sign is made of. -/
def vowelParts (c : Char) : List Char :=
  match c.toNat with
  | 0x16D68 => [0x16D67, 0x16D67].map Char.ofNat
  | 0x16D69 => [0x16D63, 0x16D67].map Char.ofNat
  | 0x16D6A => [0x16D63, 0x16D67, 0x16D67].map Char.ofNat
  | _ => [c]

/-- How many of the characters behind a lam belong to its ligature with an alef. -/
def lamAlef? (cs : List Char) : Option Nat :=
  let marks := (cs.takeWhile isTransparent).length
  if (cs.drop marks).head?.any (inRanges alefRanges) then some (marks + 1) else none

/-- The columns of a sequence that is drawn as one, where `c` starts such a sequence, and how many of
the characters behind `c` it covers. -/
def sequence? (c : Char) (cs : List Char) : Option (Nat × Nat) :=
  let next := cs.head?
  if inRanges lamRanges c then (lamAlef? cs).map (1, ·)
  else if c.toNat = 0x17D2 then
    if next.any (inRanges subscriptRanges) then some (0, 1) else none
  else if isTifinaghConsonant c then
    if next.any isConsonantJoiner && cs[1]?.any isTifinaghConsonant then some (1, 2) else none
  else if 0xA4F8 ≤ c.toNat && c.toNat ≤ 0xA4FB then
    if next.any (inRanges [(0xA4FC, 0xA4FD)]) then some (1, 1) else none
  else if c.toNat = 0x16D63 then
    match (cs.take 2).map Char.toNat with
    | [0x16D67, 0x16D67] => some (1, 2)
    | 0x16D67 :: _ => some (1, 1)
    | _ => none
  else if c.toNat = 0x16D67 then
    if next == some c then some (1, 1) else none
  else if inRanges skinToneRanges c then
    if next.any isSkinTone then some (2, 1) else none
  else none

/-- The columns of the characters behind the first ones, which a sequence in front of them covers. -/
def widthBehind : Nat → List Char → Nat
  | _, [] => 0
  | covered + 1, _ :: cs => widthBehind covered cs
  | 0, c :: cs =>
    let (columns, covered) := (sequence? c cs).getD (charWidth c, 0)
    columns + widthBehind covered cs

def width (s : String) : Nat := widthBehind 0 (s.toList.flatMap vowelParts)

end Stencil.Text
