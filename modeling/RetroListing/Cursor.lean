/-
Places in a run of bytes, and scans of the run. A scan takes piece after piece, each from where the one before
it ends; it has a bounded number of turns and stops where nothing is ahead.
-/

namespace RetroListing

/-- A place in a run of bytes. -/
structure Cursor where
  /-- The bytes before the place, the nearest first. -/
  behind : List UInt8
  /-- The bytes from the place on. -/
  ahead : List UInt8
  deriving DecidableEq, Repr

/-- Something that stands at a place. It takes at least one byte, and none past the end. -/
structure Piece (α : Type) (place : Cursor) where
  value : α
  /-- How many bytes the piece takes. -/
  width : Nat
  width_pos : 0 < width
  width_le : width ≤ place.ahead.length

/-- Says which piece stands at a place with address `pc`, if there are bytes ahead. -/
abbrev Piece.Reader (α : Type) : Type :=
  (place : Cursor) → place.ahead ≠ [] → (pc : UInt16) → Piece α place

namespace Cursor

/-- The place before the first of `bytes`. -/
def start (bytes : List UInt8) : Cursor := ⟨[], bytes⟩

/-- The place `n` bytes further on. -/
def advance (c : Cursor) (n : Nat) : Cursor :=
  ⟨(c.ahead.take n).reverse ++ c.behind, c.ahead.drop n⟩

theorem length_ahead_advance (c : Cursor) (n : Nat) : (c.advance n).ahead.length = c.ahead.length - n :=
  List.length_drop

variable {α : Type}

/-- The pieces from a place on, the first at address `pc`, in at most `turns` turns. -/
def scan (reader : Piece.Reader α) : (turns : Nat) → (place : Cursor) → (pc : UInt16) → List α
  | 0, _, _ => []
  | turns + 1, place, pc =>
    if h : place.ahead = [] then []
    else
      let piece := reader place h pc
      piece.value :: scan reader turns (place.advance piece.width) (pc + UInt16.ofNat piece.width)

end Cursor

namespace Piece

variable {α : Type} {place : Cursor}

/-- The piece that shows some bytes, `width` of them as far as it can: it takes one where `width` is zero, and no
more than are ahead. -/
def clamp (h : place.ahead ≠ []) (width : Nat) (value : List UInt8 → α) : Piece α place :=
  let width := min (max width 1) place.ahead.length
  have hpos : 0 < width := Nat.lt_min.2 ⟨Nat.le_max_right .., List.length_pos_iff.2 h⟩
  ⟨value (place.ahead.take width), width, hpos, Nat.min_le_right ..⟩

theorem value_clamp (h : place.ahead ≠ []) (width : Nat) (value : List UInt8 → α) :
    (clamp h width value).value = value (place.ahead.take (max width 1)) :=
  congrArg value List.take_eq_take_min.symm

theorem width_clamp (h : place.ahead ≠ []) (width : Nat) (value : List UInt8 → α) :
    (clamp h width value).width = (place.ahead.take (max width 1)).length :=
  List.length_take.symm

end Piece

end RetroListing
