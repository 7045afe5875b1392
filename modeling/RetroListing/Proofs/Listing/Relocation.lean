/-
Listings at another address. Moving a program by a distance moves the address of every line and the targets of
its branches by that distance and leaves the rest: only a branch refers to where it stands
(`Mos6502.decode?_add`), and a branch has no comment. Main statement: two listings of one part of a buffer, the
second at a distance from the first, line by line.
-/
import RetroListing.Proofs.Listing.Rendering
import Mathlib.Data.List.Forall2

namespace RetroListing

/-! ## Instructions -/

namespace Mos6502

/-- The target of a branch at `address`: its distance is a signed byte, counted from the next instruction. -/
def branchTarget (address : UInt16) (distance : UInt8) : UInt16 :=
  .ofInt (address.toNat + 2 + distance.toInt8.toInt)

/-- A byte as a signed distance is the signed number that it encodes. -/
theorem signExtend_eq_ofInt (byte : UInt8) : signExtend byte = .ofInt byte.toInt8.toInt := by
  have hb := byte.toNat_lt
  have hint : byte.toInt8.toInt = if 2 * byte.toNat < 256 then (byte.toNat : Int) else byte.toNat - 256 :=
    BitVec.toInt_eq_toNat_cond byte.toBitVec
  apply UInt16.toNat_inj.1
  rw [UInt16.ofInt, UInt16.toNat_ofNat', hint]
  unfold signExtend
  simp only [UInt8.lt_iff_toNat_lt]
  show (if byte.toNat < 128 then _ else _ : UInt16).toNat = _
  split
  · rw [if_pos (by omega), UInt8.toNat_toUInt16]
    omega
  · rw [if_neg (by omega), UInt16.toNat_add, UInt8.toNat_toUInt16]
    show (byte.toNat + 65280) % 65536 = _
    omega

theorem branchTarget_eq (address : UInt16) (distance : UInt8) :
    branchTarget address distance = address + 2 + signExtend distance := by
  rw [branchTarget, UInt16.ofInt_add, UInt16.ofInt_add, signExtend_eq_ofInt]
  congr 2
  apply UInt16.toNat_inj.1
  rw [UInt16.ofInt, UInt16.toNat_ofNat']
  have := address.toNat_lt
  omega

/-- The instruction that the same bytes make at a distance. -/
def moved (d : UInt16) (i : Instruction) : Instruction :=
  if i.operand.mode = .relative then
    { i with
      operand := { i.operand with address := i.operand.address + d }
      operandText := Text.dollarAddress (i.operand.address + d) }
  else i

@[simp] theorem mnemonic_moved (d : UInt16) (i : Instruction) : (moved d i).mnemonic = i.mnemonic := by
  unfold moved
  split <;> rfl

@[simp] theorem mode_moved (d : UInt16) (i : Instruction) : (moved d i).operand.mode = i.operand.mode := by
  unfold moved
  split <;> rfl

@[simp] theorem width_moved (d : UInt16) (i : Instruction) : (moved d i).width = i.width := by
  unfold moved
  split <;> rfl

theorem operandText_moved {d : UInt16} {i : Instruction} (h : i.operand.mode = .relative) :
    (moved d i).operandText = Text.dollarAddress (i.operand.address + d) := by
  rw [moved, if_pos h]

theorem effectiveAddress_add (mode : Mode) (value pc d : UInt16) :
    effectiveAddress mode value (pc + d) =
      if mode = .relative then effectiveAddress mode value pc + d else effectiveAddress mode value pc := by
  cases mode <;> simp [effectiveAddress]
  ac_rfl

theorem decoded_add (pc d : UInt16) (op : Opcode) (value : UInt16) :
    decoded (pc + d) op value = moved d (decoded pc op value) := by
  unfold decoded moved
  rw [effectiveAddress_add]
  dsimp only
  by_cases h : op.mode = .relative
  · simp only [h, if_true]
    rfl
  · simp only [h, if_false]

/-- Decoding at a distance finds the same instruction, moved. -/
theorem decode?_add (pc d : UInt16) (bs : List UInt8) : decode? (pc + d) bs = (decode? pc bs).map (moved d) := by
  cases bs with
  | nil => rfl
  | cons byte rest =>
    cases hop : opcode? byte with
    | none => simp [decode?, hop]
    | some op =>
      cases hv : operandValue? op.mode.operandSize rest with
      | none => simp [decode?, hop, hv]
      | some value =>
        have hat : ∀ pc, decode? pc (byte :: rest) = some (decoded pc op value) := by
          intro pc
          simp [decode?, hop, hv, decoded]
        rw [hat, hat, decoded_add]
        rfl

/-- A branch is encoded by its opcode and its distance, and shows its target. -/
theorem Encodes.branch {pc : UInt16} {bytes : List UInt8} {i : Instruction} (h : Encodes pc bytes i)
    (hm : i.operand.mode = .relative) :
    ∃ opcode distance, bytes = [opcode, distance] ∧ opcode? opcode = some ⟨i.mnemonic, .relative⟩ ∧
      i.operand.address = branchTarget pc distance ∧
      i.operandText = Text.dollarAddress (branchTarget pc distance) := by
  cases h with
  | @intro byte operands op value hop hlen hv =>
    obtain ⟨mnemonic, mode⟩ := op
    cases hm
    match operands, hlen, hv with
    | [distance], _, hv =>
      cases hv
      have htarget : effectiveAddress .relative distance.toUInt16 pc = branchTarget pc distance := by
        rw [branchTarget_eq, effectiveAddress, UInt8.toUInt8_toUInt16]
      exact ⟨byte, distance, rfl, hop, htarget, congrArg Text.dollarAddress htarget⟩

theorem Encodes.mode_eq {pc : UInt16} {byte : UInt8} {operands : List UInt8} {i : Instruction} {op : Opcode}
    (h : Encodes pc (byte :: operands) i) (hop : opcode? byte = some op) : i.operand.mode = op.mode := by
  cases h with
  | intro hop' _ _ =>
    cases hop.symm.trans hop'
    rfl

end Mos6502

namespace Disassembly

/-- The step that the same bytes make at a distance. -/
def Step.moved (d : UInt16) : Step → Step
  | .instruction address bytes i => .instruction (address + d) bytes (Mos6502.moved d i)
  | .data address byte => .data (address + d) byte

/-- The steps at a distance are the same, each moved. -/
theorem steps_add (d : UInt16) (place : Cursor) (pc : UInt16) :
    steps Mos6502.decoder place (pc + d) = (steps Mos6502.decoder place pc).map (Step.moved d) := by
  have hmove : ∀ (place : Cursor) (pc : UInt16), Mos6502.decoder.decode place (pc + d) =
      (Mos6502.decoder.decode place pc).map (Mos6502.moved d) :=
    fun place pc => Mos6502.decode?_add pc d place.ahead
  fun_induction steps Mos6502.decoder place pc with
  | case1 behind pc => rw [steps]; rfl
  | case2 behind byte rest pc hd ih =>
    have hnext : pc + d + 1 = pc + 1 + d := by ac_rfl
    rw [steps, hmove, hd, Option.map_none, List.map_cons, ← ih, ← hnext]
    rfl
  | case3 behind byte rest pc i hd bytes ih =>
    have hnext : pc + d + UInt16.ofNat bytes.length = pc + UInt16.ofNat bytes.length + d := by ac_rfl
    rw [steps, hmove, hd, Option.map_some, List.map_cons, ← ih, ← hnext]
    dsimp only
    rw [Mos6502.width_moved]
    rfl

end Disassembly

/-! ## Lines -/

namespace Line

/-- The line shows a branch, and `distance` is the byte after its opcode. -/
def IsBranch (l : Line) (distance : UInt8) : Prop :=
  l.kind = .instruction ∧ ∃ opcode mnemonic, l.bytes = [opcode, distance] ∧
    Mos6502.opcode? opcode = some ⟨mnemonic, .relative⟩

/-- `l'` shows what `l` shows at a distance: the address and the target of a branch are moved, and all else is
the same. -/
structure Moved (d : UInt16) (l l' : Line) : Prop where
  kind : l'.kind = l.kind
  bytes : l'.bytes = l.bytes
  mnemonic : l'.mnemonic = l.mnemonic
  comment : l'.comment = l.comment
  address : l'.address = l.address + d
  operand : (∀ distance, ¬ l.IsBranch distance) → l'.operand = l.operand
  branch : ∀ distance, l.IsBranch distance →
    l.operand = Text.dollarAddress (Mos6502.branchTarget l.address distance) ∧
      l'.operand = Text.dollarAddress (Mos6502.branchTarget l'.address distance) ∧
      Mos6502.branchTarget l'.address distance = Mos6502.branchTarget l.address distance + d

end Line

namespace Disassembly

/-- The line of a step at a distance, where only operands that refer to memory have comments. -/
theorem Step.Encoded.moved_line {s : Step} (hs : s.Encoded) {comment? : Operand → Option String}
    (hc : ∀ operand, Cpu.annotates .mos6502 operand.mode = false → comment? operand = none) (d : UInt16) :
    (s.line comment?).Moved d ((s.moved d).line comment?) := by
  cases s with
  | data address byte => exact ⟨rfl, rfl, rfl, rfl, rfl, fun _ => rfl, fun _ h => absurd h.1 nofun⟩
  | instruction address bytes i =>
    by_cases hm : i.operand.mode = .relative
    · obtain ⟨opcode, distance, rfl, hop, htarget, htext⟩ := Mos6502.Encodes.branch hs hm
      have hnext : Mos6502.branchTarget (address + d) distance = Mos6502.branchTarget address distance + d := by
        rw [Mos6502.branchTarget_eq, Mos6502.branchTarget_eq]
        ac_rfl
      -- a branch has no comment, here or there
      have hnone : ∀ operand : Operand, operand.mode = .relative → comment? operand = none := by
        intro operand h
        exact hc operand (by rw [h]; rfl)
      refine ⟨rfl, rfl, Mos6502.mnemonic_moved d i, ?_, rfl, fun hnot => ?_, ?_⟩
      · show (comment? (Mos6502.moved d i).operand).getD "" = (comment? i.operand).getD ""
        rw [hnone _ ((Mos6502.mode_moved d i).trans hm), hnone _ hm]
      · exact absurd ⟨rfl, opcode, i.mnemonic, rfl, hop⟩ (hnot distance)
      · rintro _ ⟨-, _, _, hbytes, -⟩
        cases hbytes
        refine ⟨htext, ?_, hnext⟩
        show (Mos6502.moved d i).operandText = Text.dollarAddress (Mos6502.branchTarget (address + d) distance)
        rw [Mos6502.operandText_moved hm, htarget, hnext]
    · have hmoved : Mos6502.moved d i = i := if_neg hm
      simp only [Step.moved, Step.line, hmoved]
      refine ⟨rfl, rfl, rfl, rfl, rfl, fun _ => rfl, ?_⟩
      rintro distance ⟨-, opcode, mnemonic, hbytes, hop⟩
      cases hbytes
      exact absurd (Mos6502.Encodes.mode_eq hs hop) hm

/-- The listings of one part of a buffer at two addresses, the second at a distance from the first: as many lines
in both, and each line of the second is that of the first, moved. -/
theorem View.listing_moved (v : View) {p : Profile} (hp : v.registry.get? v.profile = some p)
    (hcpu : p.cpu = .mos6502) (w : Window) (d : UInt16) :
    ∃ lines lines', v.listing Mos6502.decoder w = .ok lines ∧
      v.listing Mos6502.decoder { w with pc := w.pc + d } = .ok lines' ∧
      List.Forall₂ (Line.Moved d) lines lines' := by
  have herror : v.error? Mos6502.decoder = none := by
    rw [error?, hp]
    exact if_pos hcpu
  refine ⟨_, ((steps Mos6502.decoder (.start w.bytes) w.pc).map (Step.moved d)).map (·.line v.comment?),
    (listing_eq_ok_iff _ v w _).2 ⟨herror, rfl⟩, (listing_eq_ok_iff _ v _ _).2 ⟨herror, ?_⟩, ?_⟩
  · rw [← steps_add]
    rfl
  · rw [List.map_map, List.forall₂_map_left_iff, List.forall₂_map_right_iff, List.forall₂_same]
    intro s hs
    exact (encoded_of_mem_steps _ _ s hs).moved_line (comment?_eq_none herror) d

/-- The lines of the branch, the store and the byte, moved over the last address. -/
def movedLines : List Line :=
  [.instruction 0x1231 [0xD0, 0xFE] "BNE" "$1231" "",
    .instruction 0x1233 [0x8D, 0x20, 0xD0] "STA" "$D020" "Border", .data 0x1236 0x02]

theorem View.listing_moved_branching :
    (∃ p, notedView.registry.get? notedView.profile = some p ∧ p.cpu = .mos6502) ∧
      notedView.listing Mos6502.decoder branching = .ok (storeLines "Border") ∧
      notedView.listing Mos6502.decoder { branching with pc := branching.pc + 0x1234 } = .ok movedLines ∧
      List.Forall₂ (Line.Moved 0x1234) (storeLines "Border") movedLines := by
  have hat : notedView.listing Mos6502.decoder branching = .ok (storeLines "Border") := by
    decide +kernel
  have hat' : notedView.listing Mos6502.decoder { branching with pc := branching.pc + 0x1234 } =
      .ok movedLines := by
    decide +kernel
  have hprofile : notedView.registry.get? notedView.profile =
      some (Registry.overlayProfile "notes" (.ofPlatform .c64) (.platform .c64) noted) := by
    decide +kernel
  obtain ⟨lines, lines', h, h', hmoved⟩ := notedView.listing_moved hprofile rfl branching 0x1234
  cases hat.symm.trans h
  cases hat'.symm.trans h'
  exact ⟨⟨_, hprofile, rfl⟩, hat, hat', hmoved⟩

end Disassembly

end RetroListing
