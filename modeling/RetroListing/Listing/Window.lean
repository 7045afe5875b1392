/-
The part of a buffer that a listing covers. Bounds past the end are taken back to the end; where
the second bound lies before the first, the part runs over the end of the buffer to its beginning.
-/
import RetroListing.Cursor
import RetroListing.Notice

namespace RetroListing

/-- The part of `buffer` from offset `start` to offset `stop`. -/
structure Window where
  buffer : List UInt8
  start : Nat
  stop : Nat
  /-- The address of the first byte of the part. -/
  pc : UInt16
  deriving DecidableEq, Repr

namespace Window

/-- A run of offsets from `start` up to, not including, `stop`. -/
structure Segment where
  start : Nat
  stop : Nat
  deriving DecidableEq, Repr

/-- The bytes of a segment. -/
def Segment.slice (s : Segment) (buffer : List UInt8) : List UInt8 :=
  (buffer.drop s.start).take (s.stop - s.start)

/-- The segments between two bounds in a buffer of `size` bytes, in the order of the listing. -/
def segments (size start stop : Nat) : List Segment :=
  let start := min start size
  let stop := min stop size
  if start = stop then []
  else if start < stop then [⟨start, stop⟩]
  else [⟨start, size⟩, ⟨0, stop⟩]

/-- The bytes that a listing covers, in order. -/
def bytes (w : Window) : List UInt8 :=
  (segments w.buffer.length w.start w.stop).flatMap (·.slice w.buffer)

/-- The pieces of the bytes that a listing covers, in as many turns as there are bytes. -/
def scan {α : Type} (reader : Piece.Reader α) (w : Window) : List α :=
  Cursor.scan reader w.bytes.length (.start w.bytes) w.pc

/-! ## Notices -/

/-- What is said of a bound past the end of a buffer of `size` bytes. -/
def boundLog (size : Nat) (name : String) (offset : Nat) : List Notice :=
  if size < offset then
    [⟨.warn, "Scan " ++ name ++ " " ++ toString offset ++
      " is past the end of the buffer (" ++ toString size ++ " bytes), clamping"⟩]
  else []

/-- The notices that two bounds give in a buffer of `size` bytes. -/
def segmentsLog (size start stop : Nat) : List Notice :=
  boundLog size "start" start ++ boundLog size "end" stop

/-- The notices that the bounds of a listing give. -/
def log (w : Window) : List Notice := segmentsLog w.buffer.length w.start w.stop

end Window

end RetroListing
