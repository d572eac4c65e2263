import Stencil.Text.Ranges
import Stencil.Text.PrintableTable
import Stencil.Text.GraphemeTable
/-! Text as listings show it, with escapes for what would not be seen. -/

namespace Stencil.Text

/-- Marks that combine with the character in front of them. The emoji modifiers and the halfwidth
voicing marks, which extend a cluster too, stand for themselves. -/
def isCombining (c : Char) : Bool :=
  inRanges extendRanges c && !inRanges [(0xFF9E, 0xFF9F), (0x1F3FB, 0x1F3FF)] c

def isPrintable (c : Char) : Bool := !inRanges hiddenRanges c

/-- A character by its code point. -/
def codePointEscape (c : Char) : List Char :=
  ['\\', 'u', '\x7b'] ++ Nat.toDigits 16 c.toNat ++ ['\x7d']

/-- A character in quoted text. Combining marks are escaped where `combining` says so, and the single
quote where `single` does. -/
def escapeChar (combining single : Bool) (c : Char) : List Char :=
  match c with
  | '\x00' => ['\\', '0']
  | '\t' => ['\\', 't']
  | '\n' => ['\\', 'n']
  | '\r' => ['\\', 'r']
  | '\\' => ['\\', '\\']
  | '"' => ['\\', '"']
  | '\'' => if single then ['\\', '\''] else ['\'']
  | c => if (combining && isCombining c) || !isPrintable c then codePointEscape c else [c]

/-- Text between double quotes. -/
def quote (s : String) : String :=
  "\"" ++ String.ofList (s.toList.flatMap (escapeChar true false)) ++ "\""

/-- Text with both kinds of quotes escaped, and a combining mark only where it comes first. -/
def escapeAll (s : String) : String :=
  match s.toList with
  | [] => ""
  | c :: cs => String.ofList (escapeChar true true c ++ cs.flatMap (escapeChar false true))

end Stencil.Text
