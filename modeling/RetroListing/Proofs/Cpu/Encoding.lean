/-
Instructions of the 6502 and the bytes they are encoded in. Decoding finds the bytes of an instruction
at the beginning of what it is given (`decode?_eq_some_iff`), and the mnemonic and the operand that a
listing shows for an instruction at a known address determine those bytes (`Encodes.bytes_inj`): no two
encodings share both the mnemonic and the shape of the operand, and within one encoding the number
that is shown determines the operand bytes, a branch target included.
-/
import RetroListing.Cpu.Mos6502
import RetroListing.Proofs.Text.Hex
import Mathlib.Data.List.Nodup

namespace RetroListing.Mos6502

open Text (hexDigits upperDigit)

/-! ## Operand bytes -/

/-- A word is its high byte times 256 and its low byte. -/
theorem toNat_word (low high : UInt8) :
    (high.toUInt16 <<< 8 ||| low.toUInt16).toNat = high.toNat * 256 + low.toNat := by
  have hl := low.toNat_lt
  have hh := high.toNat_lt
  have hs : (high.toUInt16 <<< 8).toNat = high.toNat <<< 8 := by
    rw [UInt16.toNat_shiftLeft, UInt8.toNat_toUInt16]
    show high.toNat <<< 8 % 2 ^ 16 = _
    rw [Nat.shiftLeft_eq]
    exact Nat.mod_eq_of_lt (by omega)
  rw [UInt16.toNat_or, hs, UInt8.toNat_toUInt16, ← Nat.shiftLeft_add_eq_or_of_lt hl, Nat.shiftLeft_eq]

/-- A signed distance has the byte it comes from in its lowest bits. -/
theorem toUInt8_signExtend (byte : UInt8) : (signExtend byte).toUInt8 = byte := by
  have hb := byte.toNat_lt
  apply UInt8.toNat_inj.1
  unfold signExtend
  split
  · rw [UInt16.toNat_toUInt8, UInt8.toNat_toUInt16]
    omega
  · rw [UInt16.toNat_toUInt8, UInt16.toNat_add, UInt8.toNat_toUInt16]
    show (byte.toNat + 65280) % 65536 % 256 = byte.toNat
    omega

/-- The value of an operand is read from the operand's own bytes. -/
theorem operandValue?_eq_some_iff (size : Nat) (bs : List UInt8) (value : UInt16) :
    operandValue? size bs = some value ↔
      ∃ operands rest, bs = operands ++ rest ∧ operands.length = size ∧
        operandValue? size operands = some value := by
  constructor
  · intro h
    match size, bs, h with
    | 0, bs, h => exact ⟨[], bs, rfl, rfl, h⟩
    | 1, low :: rest, h => exact ⟨[low], rest, rfl, rfl, h⟩
    | 2, low :: high :: rest, h => exact ⟨[low, high], rest, rfl, rfl, h⟩
  · rintro ⟨operands, rest, rfl, hlen, h⟩
    match size, operands, hlen, h with
    | 0, [], _, h => exact h
    | 1, [low], _, h => exact h
    | 2, [low, high], _, h => exact h

/-- Operand bytes of one length are determined by their value. -/
theorem operands_inj {size : Nat} {os ps : List UInt8} {value : UInt16} (ho : os.length = size)
    (hp : ps.length = size) (hov : operandValue? size os = some value)
    (hpv : operandValue? size ps = some value) : os = ps := by
  match size, os, ps, ho, hp, hov, hpv with
  | 0, [], [], _, _, _, _ => rfl
  | 1, [a], [b], _, _, hov, hpv =>
    have h : a.toUInt16.toNat = b.toUInt16.toNat :=
      congrArg UInt16.toNat ((Option.some.inj hov).trans (Option.some.inj hpv).symm)
    rw [UInt8.toNat_toUInt16, UInt8.toNat_toUInt16] at h
    rw [UInt8.toNat_inj.1 h]
  | 2, [a, a'], [b, b'], _, _, hov, hpv =>
    have h : (a'.toUInt16 <<< 8 ||| a.toUInt16).toNat = (b'.toUInt16 <<< 8 ||| b.toUInt16).toNat :=
      congrArg UInt16.toNat ((Option.some.inj hov).trans (Option.some.inj hpv).symm)
    rw [toNat_word, toNat_word] at h
    have ha := a.toNat_lt
    have hb := b.toNat_lt
    rw [UInt8.toNat_inj.1 (show a.toNat = b.toNat by omega),
      UInt8.toNat_inj.1 (show a'.toNat = b'.toNat by omega)]

/-- The value of an operand of one byte is below 256. -/
theorem toNat_operandValue?_lt {os : List UInt8} {value : UInt16} (h : operandValue? 1 os = some value) :
    value.toNat < 256 := by
  match os, h with
  | low :: _, h =>
    cases h
    rw [UInt8.toNat_toUInt16]
    exact low.toNat_lt

/-! ## The shape of an operand -/

/-- How the operands of a mode are written: the characters before and after the number, and how many
digits the number has. -/
structure Form where
  before : List Char
  width : Nat
  after : List Char

/-- The form of the operands of a mode. -/
def form : Mode → Form
  | .implied | .registerA => ⟨[], 0, []⟩
  | .accumulator => ⟨['A'], 0, []⟩
  | .immediate => ⟨['#', '$'], 2, []⟩
  | .zeroPage => ⟨['$'], 2, []⟩
  | .zeroPageX => ⟨['$'], 2, [',', 'X']⟩
  | .zeroPageY => ⟨['$'], 2, [',', 'Y']⟩
  | .relative | .absolute => ⟨['$'], 4, []⟩
  | .absoluteX => ⟨['$'], 4, [',', 'X']⟩
  | .absoluteY => ⟨['$'], 4, [',', 'Y']⟩
  | .indirect => ⟨['(', '$'], 4, [')']⟩
  | .indirectX => ⟨['(', '$'], 2, [',', 'X', ')']⟩
  | .indirectY => ⟨['(', '$'], 2, [')', ',', 'Y']⟩
  | .callAddress => ⟨['$'], 3, []⟩
  | .unknown => ⟨['?', '?', '?'], 0, []⟩

/-- A form with its number filled in. -/
def Form.text (f : Form) (n : Nat) : List Char := f.before ++ hexDigits upperDigit f.width n ++ f.after

/-- The number that an operand shows: the value itself after a `#`, else the address. -/
def shown (mode : Mode) (address value : UInt16) : Nat :=
  if mode = .immediate then value.toNat else address.toNat

/-- An operand whose number fits is written in the form of its mode. -/
theorem toList_operandText {mode : Mode} {address value : UInt16}
    (h : (form mode).width ≠ 0 → shown mode address value < 16 ^ (form mode).width) :
    (operandText mode address value).toList = (form mode).text (shown mode address value) := by
  cases mode <;>
    simp_all [operandText, form, Form.text, shown, String.toList_append, Text.toList_hex, hexDigits]

/-- The characters of a text with every digit turned into a zero. -/
def blur (cs : List Char) : List Char := cs.map fun c => if Text.isHexDigit c then '0' else c

/-- What is left of a form when its digits are turned into zeros. -/
def Form.shape (f : Form) : List Char := blur f.before ++ List.replicate f.width '0' ++ blur f.after

theorem blur_text (f : Form) (n : Nat) : blur (f.text n) = f.shape := by
  have hdigits : blur (hexDigits upperDigit f.width n) = List.replicate f.width '0' := by
    refine List.eq_replicate_iff.2 ⟨?_, ?_⟩
    · rw [blur, List.length_map, Text.length_hexDigits]
    · intro c hc
      obtain ⟨d, hd, rfl⟩ := List.mem_map.1 hc
      exact if_pos (Text.forall_mem_hexDigits (P := (Text.isHexDigit · = true))
        Text.isHexDigit_upperDigit f.width n d hd)
  unfold Form.text Form.shape
  rw [← hdigits]
  simp [blur]

/-! ## The instruction set -/

theorem mnemonics_nodup : (instructions.map Prod.fst).Nodup := by decide +kernel

theorem forms_nodup : ∀ i ∈ instructions, (i.2.map fun f => (form f.2).shape).Nodup := by
  decide +kernel

theorem mnemonics_unbroken :
    ∀ i ∈ instructions, i.1 ≠ ".BYTE" ∧ i.1 ≠ "" ∧ Text.Unbroken i.1.toList := by
  decide +kernel

/-- An opcode stands in the instruction set. -/
theorem exists_of_opcode? {byte : UInt8} {op : Opcode} (h : opcode? byte = some op) :
    ∃ forms, (op.mnemonic, forms) ∈ instructions ∧ (byte, op.mode) ∈ forms := by
  unfold opcode? at h
  obtain ⟨before, after, hrows, -⟩ := List.lookup_eq_some_iff.1 h
  have hmem : (byte, op) ∈ opcodes := by rw [hrows]; simp
  obtain ⟨⟨mnemonic, forms⟩, hi, hf⟩ := List.mem_flatMap.1 hmem
  obtain ⟨⟨byte', mode⟩, hmode, he⟩ := List.mem_map.1 hf
  cases he
  exact ⟨forms, hi, hmode⟩

/-- The mnemonic and the shape of the operand determine the opcode. -/
theorem byte_eq_of_shape {b b' : UInt8} {op op' : Opcode} (h : opcode? b = some op)
    (h' : opcode? b' = some op') (hm : op.mnemonic = op'.mnemonic)
    (hs : (form op.mode).shape = (form op'.mode).shape) : b = b' := by
  obtain ⟨forms, hi, hf⟩ := exists_of_opcode? h
  obtain ⟨forms', hi', hf'⟩ := exists_of_opcode? h'
  have hforms : forms = forms' :=
    (Prod.mk.inj (List.inj_on_of_nodup_map mnemonics_nodup hi hi' hm)).2
  subst hforms
  exact (Prod.mk.inj (List.inj_on_of_nodup_map (forms_nodup _ hi) hf hf' hs)).1

/-! ## Encodings -/

/-- The instruction that an opcode at `pc` makes with the value of its operand. -/
def decoded (pc : UInt16) (op : Opcode) (value : UInt16) : Instruction where
  mnemonic := op.mnemonic
  operand := ⟨op.mode, effectiveAddress op.mode value pc, value⟩
  operandText := operandText op.mode (effectiveAddress op.mode value pc) value
  width := op.size

/-- The bytes of an instruction at `pc`: its opcode and the bytes of its operand. -/
inductive Encodes (pc : UInt16) : List UInt8 → Instruction → Prop
  | intro {byte : UInt8} {operands : List UInt8} {op : Opcode} {value : UInt16} :
      opcode? byte = some op → operands.length = op.mode.operandSize →
      operandValue? op.mode.operandSize operands = some value →
      Encodes pc (byte :: operands) (decoded pc op value)

/-- Decoding finds the bytes of an instruction at the beginning of what it is given. -/
theorem decode?_eq_some_iff (pc : UInt16) (bs : List UInt8) (i : Instruction) :
    decode? pc bs = some i ↔ ∃ bytes rest, bs = bytes ++ rest ∧ Encodes pc bytes i := by
  constructor
  · intro h
    cases bs with
    | nil => cases h
    | cons byte bs =>
      obtain ⟨op, hop, hrest⟩ := Option.bind_eq_some_iff.1 h
      obtain ⟨value, hv, hi⟩ := Option.bind_eq_some_iff.1 hrest
      cases hi
      obtain ⟨operands, rest, rfl, hlen, hv'⟩ := (operandValue?_eq_some_iff _ bs value).1 hv
      exact ⟨byte :: operands, rest, rfl, .intro hop hlen hv'⟩
  · rintro ⟨bytes, rest, rfl, h⟩
    cases h with
    | @intro byte operands op value hop hlen hv =>
      have hv' := (operandValue?_eq_some_iff _ (operands ++ rest) value).2 ⟨operands, rest, rfl, hlen, hv⟩
      rw [List.cons_append, decode?, hop]
      show (operandValue? op.mode.operandSize (operands ++ rest) >>= _) = _
      rw [hv']
      rfl

theorem Encodes.width_eq {pc : UInt16} {bytes : List UInt8} {i : Instruction} (h : Encodes pc bytes i) :
    i.width = bytes.length := by
  cases h with
  | intro _ hlen _ =>
    rw [List.length_cons, hlen, Nat.add_comm]
    rfl

/-- The number that an operand shows fits in the digits of its form. -/
theorem shown_lt {mode : Mode} {operands : List UInt8} {value : UInt16} (pc : UInt16)
    (hv : operandValue? mode.operandSize operands = some value) (hw : (form mode).width ≠ 0) :
    shown mode (effectiveAddress mode value pc) value < 16 ^ (form mode).width := by
  have word : ∀ n : UInt16, n.toNat < 16 ^ 4 := fun n => n.toNat_lt
  cases mode with
  | relative | absolute | absoluteX | absoluteY | indirect => exact word _
  | implied | accumulator | registerA | unknown => exact absurd rfl hw
  | immediate | zeroPage | zeroPageX | zeroPageY | indirectX | indirectY =>
    exact toNat_operandValue?_lt hv
  | callAddress => exact Nat.lt_trans (toNat_operandValue?_lt hv) (by decide)

/-- A form without digits has no operand bytes. -/
theorem operandSize_eq_zero_of_width {mode : Mode} (h : (form mode).width = 0) :
    mode.operandSize = 0 := by
  cases mode <;> simp_all [form, Mode.operandSize]

/-- At one address the distance of a branch is determined by its target. -/
theorem value_eq_of_target {os ps : List UInt8} {v w pc : UInt16} (hv : operandValue? 1 os = some v)
    (hw : operandValue? 1 ps = some w)
    (h : pc + 2 + signExtend v.toUInt8 = pc + 2 + signExtend w.toUInt8) : v = w := by
  have hbyte : v.toUInt8 = w.toUInt8 := by
    rw [← toUInt8_signExtend v.toUInt8, (UInt16.add_right_inj (pc + 2)).1 h, toUInt8_signExtend]
  have hnat := congrArg UInt8.toNat hbyte
  rw [UInt16.toNat_toUInt8, UInt16.toNat_toUInt8] at hnat
  have h1 := toNat_operandValue?_lt hv
  have h2 := toNat_operandValue?_lt hw
  exact UInt16.toNat_inj.1 (by omega)

/-- At one address the number that is shown determines the operand bytes of a mode. -/
theorem operands_eq_of_shown {mode : Mode} {os ps : List UInt8} {v w pc : UInt16}
    (ho : os.length = mode.operandSize) (hp : ps.length = mode.operandSize)
    (hv : operandValue? mode.operandSize os = some v) (hw : operandValue? mode.operandSize ps = some w)
    (h : shown mode (effectiveAddress mode v pc) v = shown mode (effectiveAddress mode w pc) w) :
    os = ps := by
  have same : v = w → os = ps := by
    rintro rfl
    exact operands_inj ho hp hv hw
  cases mode with
  | implied | accumulator | registerA | unknown =>
    rw [List.length_eq_zero_iff.1 ho, List.length_eq_zero_iff.1 hp]
  | relative => exact same (value_eq_of_target hv hw (UInt16.toNat_inj.1 h))
  | _ => exact same (UInt16.toNat_inj.1 h)

/-- The mnemonic and the operand text of an instruction at a known address determine its bytes. -/
theorem Encodes.bytes_inj {pc : UInt16} {bs cs : List UInt8} {i j : Instruction} (hi : Encodes pc bs i)
    (hj : Encodes pc cs j) (hm : i.mnemonic = j.mnemonic) (ht : i.operandText = j.operandText) :
    bs = cs := by
  cases hi with
  | @intro b os op v hop ho hv =>
    cases hj with
    | @intro c ps op' w hop' hp hw =>
      have htext : (form op.mode).text (shown op.mode (effectiveAddress op.mode v pc) v) =
          (form op'.mode).text (shown op'.mode (effectiveAddress op'.mode w pc) w) := by
        rw [← toList_operandText (shown_lt pc hv), ← toList_operandText (shown_lt pc hw)]
        exact congrArg String.toList ht
      -- the texts are alike up to their digits, so the modes have one form
      have hshape := congrArg blur htext
      rw [blur_text, blur_text] at hshape
      have hbyte := byte_eq_of_shape hop hop' hm hshape
      subst hbyte
      rw [hop] at hop'
      cases hop'
      -- the same form around the digits, so the same digits
      have hdigits := List.append_cancel_left (List.append_cancel_right htext)
      by_cases hwidth : (form op.mode).width = 0
      · rw [operandSize_eq_zero_of_width hwidth, List.length_eq_zero_iff] at ho hp
        rw [ho, hp]
      · have hshown := Text.hexDigits_inj (shown_lt pc hv hwidth) (shown_lt pc hw hwidth) hdigits
        rw [operands_eq_of_shown ho hp hv hw hshown]

/-! ## Texts without blanks -/

theorem unbroken_text (mode : Mode) (n : Nat) : Text.Unbroken ((form mode).text n) := by
  have hbefore : Text.Unbroken (form mode).before := by cases mode <;> decide
  have hafter : Text.Unbroken (form mode).after := by cases mode <;> decide
  unfold Form.text
  rw [Text.unbroken_append_iff, Text.unbroken_append_iff]
  exact ⟨⟨hbefore, Text.unbroken_hexDigits _ n⟩, hafter⟩

/-- The mnemonic of an instruction is a word other than the mark of data. -/
theorem Encodes.mnemonic_unbroken {pc : UInt16} {bytes : List UInt8} {i : Instruction}
    (h : Encodes pc bytes i) :
    i.mnemonic ≠ ".BYTE" ∧ i.mnemonic ≠ "" ∧ Text.Unbroken i.mnemonic.toList := by
  cases h with
  | intro hop _ _ =>
    obtain ⟨forms, hi, -⟩ := exists_of_opcode? hop
    exact mnemonics_unbroken _ hi

theorem Encodes.operandText_unbroken {pc : UInt16} {bytes : List UInt8} {i : Instruction}
    (h : Encodes pc bytes i) : Text.Unbroken i.operandText.toList := by
  cases h with
  | intro _ _ hv =>
    rw [decoded, toList_operandText (shown_lt pc hv)]
    exact unbroken_text _ _

/-- An operand without text is none that a comment could describe. -/
theorem Encodes.annotates_of_operandText_eq {pc : UInt16} {bytes : List UInt8} {i : Instruction}
    (h : Encodes pc bytes i) (he : i.operandText = "") :
    Cpu.annotates .mos6502 i.operand.mode = false := by
  cases h with
  | @intro _ _ op value _ _ hv =>
    have htext := toList_operandText (shown_lt pc hv)
    rw [show operandText op.mode (effectiveAddress op.mode value pc) value = "" from he] at htext
    show Cpu.annotates .mos6502 op.mode = false
    cases hm : op.mode <;> simp_all [form, Form.text, Cpu.annotates]

end RetroListing.Mos6502
