/-
Scans against reading to the end. A scan has a turn for every byte and each of its pieces takes one, so its turns
never run out first (`Cursor.scan_eq`). Main statements: the steps of a disassembly, whatever widths the decoder
says, and the lines of a transcript are what a recursion on the bytes ahead gives (`Disassembly.windowSteps_eq`,
`Transcript.lines_eq`).
-/
import RetroListing.Listing.Disassembly
import RetroListing.Listing.Transcript

namespace RetroListing

/-! ## Turns -/

variable {α : Type} {reader : Piece.Reader α}

/-- `read` gives the pieces from a place on, one after another to the end. -/
structure Piece.ReadsOn (reader : Piece.Reader α) (read : Cursor → UInt16 → List α) : Prop where
  eq_nil : ∀ place pc, place.ahead = [] → read place pc = []
  eq_cons : ∀ place h pc, read place pc = (reader place h pc).value ::
    read (place.advance (reader place h pc).width) (pc + .ofNat (reader place h pc).width)

/-- A scan that has a turn for every byte ahead reads on to the end. -/
theorem Cursor.scan_eq {read : Cursor → UInt16 → List α} (hread : Piece.ReadsOn reader read) {turns : Nat}
    {place : Cursor} (hturns : place.ahead.length ≤ turns) (pc : UInt16) :
    scan reader turns place pc = read place pc := by
  induction turns generalizing place pc with
  | zero => exact (hread.eq_nil place pc (List.length_eq_zero_iff.1 (Nat.le_zero.1 hturns))).symm
  | succ turns ih =>
    rw [scan]
    split
    · next h => exact (hread.eq_nil place pc h).symm
    · next h =>
      -- the piece takes a byte, so that a turn fewer is enough for what it leaves
      have hleft : (place.advance (reader place h pc).width).ahead.length ≤ turns := by
        have := (reader place h pc).width_pos
        rw [length_ahead_advance]
        omega
      rw [hread.eq_cons place h pc, ← ih hleft]

theorem Window.scan_eq {read : Cursor → UInt16 → List α} (hread : Piece.ReadsOn reader read) (w : Window) :
    w.scan reader = read (.start w.bytes) w.pc :=
  Cursor.scan_eq hread (Nat.le_refl w.bytes.length) w.pc

/-- Only the bytes of a window and the address of the first count in a scan. -/
theorem Window.scan_congr (reader : Piece.Reader α) {w w' : Window} (hbytes : w.bytes = w'.bytes)
    (hpc : w.bytes = [] ∨ w.pc = w'.pc) : w.scan reader = w'.scan reader := by
  unfold Window.scan
  rw [← hbytes]
  rcases hpc with hnil | hpc
  · rw [hnil]
    rfl
  · rw [hpc]

/-! ## Steps of a disassembly -/

namespace Disassembly

/-- The steps from a place on, the first at address `pc`. -/
def steps (d : Decoder) : (place : Cursor) → (pc : UInt16) → List Step
  | ⟨_, []⟩, _ => []
  | ⟨behind, byte :: rest⟩, pc =>
    match d.decode ⟨behind, byte :: rest⟩ pc with
    | none => .data pc byte :: steps d (Cursor.advance ⟨behind, byte :: rest⟩ 1) (pc + 1)
    | some i =>
      let bytes := byte :: rest.take (i.width - 1)
      .instruction pc bytes i ::
        steps d (Cursor.advance ⟨behind, byte :: rest⟩ bytes.length)
          (pc + UInt16.ofNat bytes.length)
termination_by place => place.ahead.length
decreasing_by
  · simp [Cursor.advance]
  · simp only [Cursor.advance, List.length_drop, List.length_cons]
    omega

theorem steps_eq_nil (d : Decoder) {place : Cursor} (h : place.ahead = []) (pc : UInt16) : steps d place pc = [] := by
  obtain ⟨behind, ahead⟩ := place
  subst h
  rw [steps]

theorem readsOn_steps (d : Decoder) : Piece.ReadsOn (stepAt d) (steps d) where
  eq_nil := fun _ pc h => steps_eq_nil d h pc
  eq_cons := by
    rintro ⟨behind, _ | ⟨byte, rest⟩⟩ h pc
    · exact absurd rfl h
    · rw [steps, stepAt]
      cases d.decode ⟨behind, byte :: rest⟩ pc with
      | none => rfl
      | some i =>
        have htake : (byte :: rest).take (max i.width 1) = byte :: rest.take (i.width - 1) := by
          rw [← Nat.sub_add_eq_max, List.take_succ_cons]
        dsimp only
        rw [Piece.value_clamp, Piece.width_clamp, htake]

/-- The turns of a disassembly are enough for any decoder. -/
theorem windowSteps_eq (d : Decoder) (w : Window) : windowSteps d w = steps d (.start w.bytes) w.pc :=
  Window.scan_eq (readsOn_steps d) w

end Disassembly

/-! ## Lines of a transcript -/

/-- A token takes the two bytes of a cell, or what is left of them, and one at the end. -/
theorem Voice.Token.width_ofBytes (bytes : List UInt8) : (ofBytes bytes).width = max (min 2 bytes.length) 1 := by
  match bytes with
  | [] => rfl
  | [_] => rfl
  | _ :: _ :: _ => rfl

namespace Transcript

/-- The lines for the bytes of a voice, the first being at `pc`. -/
def linesOf (pc : UInt16) : List UInt8 → List Line
  | [] => []
  | [b] => [.cell pc [b] Voice.unknownText]
  | b1 :: b2 :: rest => .cell pc [b1, b2] (Voice.Cell.ofBytes b1 b2).text :: linesOf (pc + 2) rest

theorem readsOn_linesOf : Piece.ReadsOn lineAt fun place pc => linesOf pc place.ahead where
  eq_nil := fun _ pc h => congrArg (linesOf pc) h
  eq_cons := by
    intro place h pc
    unfold lineAt
    dsimp only
    rw [Piece.value_clamp, Piece.width_clamp, Voice.Token.width_ofBytes, Nat.max_assoc, Nat.max_self]
    obtain ⟨behind, _ | ⟨b1, _ | ⟨b2, rest⟩⟩⟩ := place
    · exact absurd rfl h
    · rfl
    · rfl

/-- A transcript has its lines two bytes apart, and its turns are enough for all of them. -/
theorem lines_eq (w : Window) : lines w = linesOf w.pc w.bytes :=
  Window.scan_eq readsOn_linesOf w

end Transcript

end RetroListing
