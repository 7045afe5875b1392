/-
A Sidplayer voice as a stream of two-byte cells. A cell whose first byte has its two lowest bits
clear is a note or a rest; any other is a command.
-/
import RetroListing.Voice.Command

namespace RetroListing.Voice

/-- What a cell holds. -/
inductive Cell where
  | note (n : Note)
  | command (c : Command)
  deriving DecidableEq, Repr

namespace Cell

def text : Cell → String
  | .note n => n.text
  | .command c => c.text

/-- The cell made of two bytes. -/
def ofBytes (b1 b2 : UInt8) : Cell :=
  if b1 &&& 0x03 = 0 then .note (Note.ofBytes b1 b2) else .command (Command.ofBytes b1 b2)

end Cell

/-- What is read at a place in a voice: what it says and how many bytes it takes. -/
structure Token where
  text : String
  width : Nat
  deriving DecidableEq, Repr

/-- The token that the bytes start with. Bytes that are too few for a cell say nothing, yet all of them are taken,
and one where there is none, so that whoever reads on gets further. -/
def Token.ofBytes : List UInt8 → Token
  | b1 :: b2 :: _ => ⟨(Cell.ofBytes b1 b2).text, 2⟩
  | bytes => ⟨unknownText, max bytes.length 1⟩

end RetroListing.Voice
