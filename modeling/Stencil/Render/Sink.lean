/-! Where text is written to. -/

namespace Stencil

/-- A writer with the count of what was written. Positions are counted from `origin`, which is where a
scratch sink was opened in the output. After the first failure everything is dropped. -/
structure Sink where
  origin : Nat
  /-- The number of characters that were accepted. -/
  written : Nat
  failed : Bool
  /-- The texts that were accepted, the last one first. -/
  pieces : List String
  /-- How many writes the writer has refused. -/
  refused : Nat
  /-- How many more writes the writer accepts, if there is a limit. -/
  room : Option Nat

namespace Sink

/-- A sink for the output itself. -/
def output (room : Option Nat) : Sink := ⟨0, 0, false, [], 0, room⟩

/-- A sink for text that is kept aside, opened at a position of the output. -/
def scratch (origin : Nat) : Sink := ⟨origin, 0, false, [], 0, none⟩

/-- The position behind the last character. -/
def position (s : Sink) : Nat := s.origin + s.written

/-- The text that was accepted. -/
def text (s : Sink) : String := String.join s.pieces.reverse

/-- Takes up text if the writer has room for another write. -/
def accept? (s : Sink) (text : String) : Option Sink :=
  match s.room with
  | some 0 => none
  | room =>
    some { s with
      written := s.written + text.length
      pieces := text :: s.pieces
      room := room.map (· - 1) }

/-- The sink after a write that the writer refused. -/
def refuse (s : Sink) : Sink := { s with failed := true, refused := s.refused + 1 }

end Sink

end Stencil
