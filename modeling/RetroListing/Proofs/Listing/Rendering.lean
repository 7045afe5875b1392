/-
What can be read off from a printed listing. The words of a line of code can be told apart, whatever its
comment is (`Line.Legible.text_inj`), and no line has a line feed of its own where no comment has one; so
the text of a disassembly for the 6502 determines every byte that it covers.
-/
import RetroListing.Proofs.Cpu.Encoding
import RetroListing.Proofs.Listing.Coverage
import RetroListing.Proofs.Profile.Texts
import RetroListing.Proofs.Text.Blank

namespace RetroListing

open Text (Unbroken hexDigits upperDigit trimEnd)

/-! ## Lines of code -/

namespace Line

/-- A line of code whose words can be told apart: mnemonic and operand have no blanks, and a line without
operand has no comment. -/
structure Legible (l : Line) : Prop where
  code : l.kind ≠ .cell
  mnemonic_ne : l.mnemonic ≠ ""
  mnemonic : Unbroken l.mnemonic.toList
  operand : Unbroken l.operand.toList
  comment : l.operand = "" → l.comment = ""

/-- The address of a line as it is printed. -/
def addressDigits (l : Line) : List Char := hexDigits upperDigit 4 l.address.toNat

theorem unbroken_addressDigits (l : Line) : Unbroken l.addressDigits := Text.unbroken_hexDigits 4 _

theorem length_addressDigits (l : Line) : l.addressDigits.length = 4 := Text.length_hexDigits _ 4 _

theorem toList_hex_address (l : Line) : (Text.hex 4 l.address.toNat).toList = l.addressDigits :=
  Text.toList_hex (by decide) l.address.toNat_lt

theorem toList_text {l : Line} (h : l.kind ≠ .cell) :
    l.text.toList = trimEnd (l.addressDigits ++ [' ', ' '] ++ l.mnemonic.toList ++
      ' ' :: (l.operand.toList ++ (gap.toList ++ l.comment.toList))) := by
  cases l with
  | cell => exact absurd rfl h
  | instruction | data =>
    unfold text
    rw [String.toList_ofList]
    simp only [String.toList_append, toList_hex_address]
    simp [gap]

/-- A line of any kind starts with its address. -/
theorem addressDigits_prefix (l : Line) : l.addressDigits <+: l.text.toList := by
  by_cases hcell : l.kind = .cell
  · cases l with
    | cell =>
      unfold text
      simp only [String.toList_append, toList_hex_address, List.append_assoc]
      exact List.prefix_append _ _
    | instruction | data => cases hcell
  · -- trimming stops at the last digit at the latest
    have hne := List.ne_nil_of_length_eq_add_one l.length_addressDigits
    have hlast := l.unbroken_addressDigits.exists_getLast? hne []
    rw [List.nil_append] at hlast
    rw [toList_text hcell, List.append_assoc, List.append_assoc, Text.trimEnd_append_of_getLast? hlast]
    exact List.prefix_append _ _

/-- What is printed after the gap is empty or starts with a blank. -/
theorem trimEnd_gap (cs : List Char) :
    trimEnd (gap.toList ++ cs) = [] ∨ ∃ t, trimEnd (gap.toList ++ cs) = ' ' :: t := by
  have hprefix := Text.trimEnd_prefix (gap.toList ++ cs)
  cases htrim : trimEnd (gap.toList ++ cs) with
  | nil => exact .inl rfl
  | cons c t =>
    rw [htrim] at hprefix
    obtain ⟨rfl, -⟩ := List.cons_prefix_cons.1 hprefix
    exact .inr ⟨t, rfl⟩

namespace Legible

variable {l : Line}

/-- What follows the mnemonic: nothing without an operand, else the operand and what is left of the gap
and the comment. -/
def tail (l : Line) : List Char :=
  if l.operand = "" then []
  else ' ' :: (l.operand.toList ++ trimEnd (gap.toList ++ l.comment.toList))

theorem tail_separated (l : Line) : tail l = [] ∨ ∃ t, tail l = ' ' :: t := by
  unfold tail
  split
  · exact .inl rfl
  · exact .inr ⟨_, rfl⟩

/-- A legible line is printed as its address, its mnemonic and what follows it. -/
theorem toList_text (h : l.Legible) :
    l.text.toList = l.addressDigits ++ ([' ', ' '] ++ (l.mnemonic.toList ++ tail l)) := by
  have hmnemonic := h.mnemonic.exists_getLast? (mt String.toList_eq_nil_iff.1 h.mnemonic_ne)
    (l.addressDigits ++ [' ', ' '])
  rw [Line.toList_text h.code, Text.trimEnd_append_of_getLast? hmnemonic]
  have htail : trimEnd (' ' :: (l.operand.toList ++ (gap.toList ++ l.comment.toList))) = tail l := by
    unfold tail
    split
    · -- neither operand nor comment: what is left is blank
      rename_i he
      rw [he, h.comment he]
      decide
    · rename_i he
      have hoperand := h.operand.exists_getLast? (mt String.toList_eq_nil_iff.1 he) [' ']
      rw [← List.singleton_append, ← List.append_assoc, Text.trimEnd_append_of_getLast? hoperand]
      rfl
  rw [htail, List.append_assoc, List.append_assoc]

/-- The text of a legible line determines its address, its mnemonic and its operand, whatever the
comment is. -/
theorem text_inj {m : Line} (hl : l.Legible) (hm : m.Legible) (h : l.text = m.text) :
    l.address = m.address ∧ l.mnemonic = m.mnemonic ∧ l.operand = m.operand := by
  have blank : Text.isBlank ' ' = true := by decide
  have htext := congrArg String.toList h
  rw [hl.toList_text, hm.toList_text] at htext
  -- the address has a fixed width, and each word after it ends at the first blank
  obtain ⟨haddress, hrest⟩ := List.append_inj htext
    (l.length_addressDigits.trans m.length_addressDigits.symm)
  obtain ⟨hmnemonic, htail⟩ := Text.append_inj_of_separator (hl.mnemonic.not_mem blank)
    (hm.mnemonic.not_mem blank) (tail_separated l) (tail_separated m) (List.append_cancel_left hrest)
  refine ⟨?_, String.toList_inj.1 hmnemonic, ?_⟩
  · exact UInt16.toNat_inj.1 (Text.hexDigits_inj l.address.toNat_lt m.address.toNat_lt haddress)
  · unfold tail at htail
    split at htail <;> split at htail
    · rename_i hlo hmo
      rw [hlo, hmo]
    · cases htail
    · cases htail
    · have hoperand := Text.append_inj_of_separator (hl.operand.not_mem blank)
        (hm.operand.not_mem blank) (trimEnd_gap _) (trimEnd_gap _) (List.cons.inj htail).2
      exact String.toList_inj.1 hoperand.1

/-- A legible line has no line feed unless its comment has one. -/
theorem newline_not_mem_text (h : l.Legible) (hc : '\n' ∉ l.comment.toList) : '\n' ∉ l.text.toList := by
  have blank : Text.isBlank '\n' = true := by decide
  have haddress := l.unbroken_addressDigits.not_mem blank
  rw [Line.toList_text h.code]
  refine fun hmem => absurd ((Text.trimEnd_prefix _).subset hmem) ?_
  have hbefore : '\n' ∉ l.addressDigits ++ [' ', ' '] ++ l.mnemonic.toList :=
    List.not_mem_append (List.not_mem_append haddress (by decide)) (h.mnemonic.not_mem blank)
  have hafter : '\n' ∉ l.operand.toList ++ (gap.toList ++ l.comment.toList) :=
    List.not_mem_append (h.operand.not_mem blank) (List.not_mem_append (by decide) hc)
  exact List.not_mem_append hbefore (List.not_mem_cons_of_ne_of_not_mem (by decide) hafter)

end Legible

end Line

/-! ## Listings -/

theorem toList_renderListing (lines : List Line) :
    (renderListing lines).toList = (lines.map (·.text.toList)).flatMap (· ++ ['\n']) := by
  simp [renderListing, String.toList_join, List.flatMap_map]

/-- The text of a listing whose lines have no line feed of their own determines the text of each line. -/
theorem map_text_eq_of_renderListing {ls ms : List Line} (hl : ∀ l ∈ ls, '\n' ∉ l.text.toList)
    (hm : ∀ m ∈ ms, '\n' ∉ m.text.toList) (h : renderListing ls = renderListing ms) :
    ls.map (·.text) = ms.map (·.text) := by
  have htext := congrArg String.toList h
  rw [toList_renderListing, toList_renderListing] at htext
  have hlines := Text.eq_of_flatMap_separated (by simpa using hl) (by simpa using hm) htext
  have hof := congrArg (List.map String.ofList) hlines
  simpa [List.map_map, Function.comp_def] using hof

/-- The text of a listing determines the address of its first line. -/
theorem address_eq_of_renderListing_eq {l m : Line} {ls ms : List Line}
    (h : renderListing (l :: ls) = renderListing (m :: ms)) : l.address = m.address := by
  have prefixed : ∀ (k : Line) (ks : List Line), k.addressDigits <+: (renderListing (k :: ks)).toList := by
    intro k ks
    rw [toList_renderListing, List.map_cons, List.flatMap_cons, List.append_assoc]
    exact k.addressDigits_prefix.trans (List.prefix_append _ _)
  have hl := prefixed l ls
  have hm := prefixed m ms
  rw [h] at hl
  have hlength := l.length_addressDigits.trans m.length_addressDigits.symm
  have hdigits : l.addressDigits = m.addressDigits :=
    (List.prefix_of_prefix_length_le hl hm (Nat.le_of_eq hlength)).eq_of_length hlength
  exact UInt16.toNat_inj.1 (Text.hexDigits_inj l.address.toNat_lt m.address.toNat_lt hdigits)

/-- Where the text of a line determines something, the texts of all lines determine it of each line. -/
theorem map_eq_of_map_text {α : Type} {f : Line → α} {ls ms : List Line}
    (h : ls.map (·.text) = ms.map (·.text))
    (hf : ∀ l ∈ ls, ∀ m ∈ ms, l.text = m.text → f l = f m) : ls.map f = ms.map f := by
  induction ls generalizing ms with
  | nil =>
    cases ms with
    | nil => rfl
    | cons m ms => cases h
  | cons l ls ih =>
    cases ms with
    | nil => cases h
    | cons m ms =>
      obtain ⟨hhead, htail⟩ := List.cons.inj h
      have hrest := ih htail fun l' hl' m' hm' =>
        hf l' (List.mem_cons_of_mem l hl') m' (List.mem_cons_of_mem m hm')
      rw [List.map_cons, List.map_cons, hrest, hf l List.mem_cons_self m List.mem_cons_self hhead]

/-! ## Disassembly for the 6502 -/

namespace Disassembly

/-- A step with the bytes that encode it. -/
def Step.Encoded : Step → Prop
  | .instruction address bytes i => Mos6502.Encodes address bytes i
  | .data .. => True

/-- The steps that the decoder of the 6502 gives carry the bytes that encode them. -/
theorem encoded_of_mem_steps (place : Cursor) (pc : UInt16) :
    ∀ s ∈ steps Mos6502.decoder place pc, s.Encoded := by
  fun_induction steps Mos6502.decoder place pc with
  | case1 behind pc => simp
  | case2 behind byte rest pc hd ih => exact List.forall_mem_cons.2 ⟨trivial, ih⟩
  | case3 behind byte rest pc i hd bytes ih =>
    refine List.forall_mem_cons.2 ⟨?_, ih⟩
    obtain ⟨encoding, after, happend, henc⟩ := (Mos6502.decode?_eq_some_iff pc (byte :: rest) i).1 hd
    cases encoding with
    | nil => cases henc
    | cons b operands =>
      obtain ⟨rfl, rfl⟩ := List.cons.inj happend
      -- the step takes as many bytes as the instruction is wide
      show Mos6502.Encodes pc (byte :: (operands ++ after).take (i.width - 1)) i
      rw [henc.width_eq, List.length_cons, Nat.add_sub_cancel, List.take_left]
      exact henc

theorem toList_byteText (byte : UInt8) :
    ("$" ++ Text.hex 2 byte.toNat).toList = '$' :: hexDigits upperDigit 2 byte.toNat := by
  rw [String.toList_append, Text.toList_hex (by decide) byte.toNat_lt]
  rfl

/-- A line of data shows its byte. -/
theorem byteText_inj {a b : UInt8} (h : "$" ++ Text.hex 2 a.toNat = "$" ++ Text.hex 2 b.toNat) :
    a = b := by
  have hdigits := congrArg String.toList h
  rw [toList_byteText, toList_byteText] at hdigits
  exact UInt8.toNat_inj.1 (Text.hexDigits_inj a.toNat_lt b.toNat_lt (List.cons.inj hdigits).2)

/-- Two steps at one address that show the same mnemonic and the same operand have the same bytes. -/
theorem Step.Encoded.bytes_inj {s t : Step} (hs : s.Encoded) (ht : t.Encoded)
    {comment? comment?' : Operand → Option String}
    (ha : (s.line comment?).address = (t.line comment?').address)
    (hm : (s.line comment?).mnemonic = (t.line comment?').mnemonic)
    (ho : (s.line comment?).operand = (t.line comment?').operand) :
    (s.line comment?).bytes = (t.line comment?').bytes := by
  cases s with
  | instruction address bytes i =>
    cases t with
    | instruction address' bytes' j =>
      cases ha
      exact Mos6502.Encodes.bytes_inj hs ht hm ho
    | data => exact absurd hm (Mos6502.Encodes.mnemonic_unbroken hs).1
  | data address byte =>
    cases t with
    | instruction => exact absurd hm.symm (Mos6502.Encodes.mnemonic_unbroken ht).1
    | data address' byte' => exact congrArg (fun b => [b]) (byteText_inj ho)

/-- The line of a step is legible where only operands that refer to memory have comments. -/
theorem Step.Encoded.legible {s : Step} (hs : s.Encoded) {comment? : Operand → Option String}
    (hc : ∀ operand, Cpu.annotates .mos6502 operand.mode = false → comment? operand = none) :
    (s.line comment?).Legible := by
  cases s with
  | instruction address bytes i =>
    obtain ⟨-, hne, hplain⟩ := Mos6502.Encodes.mnemonic_unbroken hs
    refine ⟨nofun, hne, hplain, Mos6502.Encodes.operandText_unbroken hs, fun he => ?_⟩
    show (comment? i.operand).getD "" = ""
    rw [hc i.operand (Mos6502.Encodes.annotates_of_operandText_eq hs he)]
    rfl
  | data address byte =>
    have hmnemonic : Unbroken ".BYTE".toList := by decide
    refine ⟨nofun, (by decide : ".BYTE" ≠ ""), hmnemonic, ?_, fun _ => rfl⟩
    show Unbroken ("$" ++ Text.hex 2 byte.toNat).toList
    rw [toList_byteText]
    exact List.forall_mem_cons.2 ⟨by decide, Text.unbroken_hexDigits 2 byte.toNat⟩

namespace View

/-- A view that shows what the decoder of the 6502 finds has comments on operands that refer to memory
only. -/
theorem comment?_eq_none {v : View} (h : v.error? Mos6502.decoder = none) (operand : Operand)
    (ho : Cpu.annotates .mos6502 operand.mode = false) : v.comment? operand = none := by
  unfold error? at h
  split at h
  · cases h
  · rename_i p hp
    split at h
    · rename_i hcpu
      refine Registry.resolve_eq_none_of_annotates hp ?_ v.language
      rw [hcpu]
      exact ho
    · cases h

/-- The lines of a listing for the 6502: legible, and each from a step with the bytes that encode it. -/
theorem legible_of_mem_listing {v : View} {w : Window} {lines : List Line}
    (h : v.listing Mos6502.decoder w = .ok lines) :
    ∀ l ∈ lines, l.Legible ∧ ∃ s : Step, s.Encoded ∧ l = s.line v.comment? := by
  obtain ⟨herror, rfl⟩ := (listing_eq_ok_iff _ v w lines).1 h
  intro l hl
  obtain ⟨s, hs, rfl⟩ := List.mem_map.1 hl
  have henc := encoded_of_mem_steps _ _ s hs
  exact ⟨henc.legible (comment?_eq_none herror), s, henc, rfl⟩

/-- The lines of a listing have no line feed of their own where the comments have none. -/
theorem newline_not_mem_listing {v : View} {w : Window} {lines : List Line} (hv : v.registry.OneLine)
    (h : v.listing Mos6502.decoder w = .ok lines) : ∀ l ∈ lines, '\n' ∉ l.text.toList := by
  intro l hl
  obtain ⟨hlegible, s, -, rfl⟩ := legible_of_mem_listing h l hl
  refine hlegible.newline_not_mem_text ?_
  cases s with
  | data => exact List.not_mem_nil
  | instruction address bytes i =>
    show '\n' ∉ ((v.comment? i.operand).getD "").toList
    cases hc : v.comment? i.operand with
    | none => exact List.not_mem_nil
    | some text => exact hv text (Registry.mem_texts_of_resolve hc)

/-- Two lines of listings for the 6502 that are printed alike stand at the same address and cover the same
bytes. -/
theorem line_eq_of_text_eq {v v' : View} {w w' : Window} {lines lines' : List Line}
    (h : v.listing Mos6502.decoder w = .ok lines) (h' : v'.listing Mos6502.decoder w' = .ok lines') :
    ∀ l ∈ lines, ∀ m ∈ lines', l.text = m.text → (l.address, l.bytes) = (m.address, m.bytes) := by
  intro l hl m hm htext
  obtain ⟨hlegible, s, hs, rfl⟩ := legible_of_mem_listing h l hl
  obtain ⟨hlegible', t, ht, rfl⟩ := legible_of_mem_listing h' m hm
  obtain ⟨haddress, hmnemonic, hoperand⟩ := hlegible.text_inj hlegible' htext
  rw [haddress, hs.bytes_inj ht haddress hmnemonic hoperand]

/-- Two listings for the 6502 that are printed alike cover the same bytes, at the same addresses, whatever
the comments are, as long as these are on one line. -/
theorem bytes_eq_of_renderListing_eq {v v' : View} {w w' : Window} {lines lines' : List Line}
    (hv : v.registry.OneLine) (hv' : v'.registry.OneLine)
    (h : v.listing Mos6502.decoder w = .ok lines) (h' : v'.listing Mos6502.decoder w' = .ok lines')
    (hr : renderListing lines = renderListing lines') :
    w.bytes = w'.bytes ∧ (w.bytes ≠ [] → w.pc = w'.pc) := by
  have htexts := map_text_eq_of_renderListing (newline_not_mem_listing hv h)
    (newline_not_mem_listing hv' h') hr
  -- line by line the same addresses and bytes, so as many lines in both
  have hlines := map_eq_of_map_text htexts (line_eq_of_text_eq h h')
  obtain ⟨-, hbytes, haddr⟩ := covers_of_listing _ h
  obtain ⟨-, hbytes', haddr'⟩ := covers_of_listing _ h'
  constructor
  · have hflat := congrArg (List.flatMap Prod.snd) hlines
    rw [List.flatMap_map, List.flatMap_map] at hflat
    rw [← hbytes, ← hbytes']
    exact hflat
  · intro hne
    cases lines with
    | nil => exact absurd hbytes.symm hne
    | cons l ls =>
      cases lines' with
      | nil => cases hlines
      | cons m ms =>
        have haddress : l.address = m.address := (Prod.mk.inj (List.cons.inj hlines).1).1
        rw [← haddr.head, ← haddr'.head, haddress]

/-- The registry of one machine without comments. -/
def plainRegistry : Registry := Registry.empty.put (.ofPlatform .c64)

/-- A file of comments. -/
def notes : String := "; screen\nD020 en Border\n\nFFFE-FFFF it Vettore"

/-- The comments in the file. -/
def noted : List Comment.Entry :=
  [⟨0xD020, 0xD020, .english, "Border"⟩, ⟨0xFFFE, 0xFFFF, .italian, "Vettore"⟩]

/-- A view with the comments of the file. -/
def notedView : View where
  registry := plainRegistry.put
    (Registry.overlayProfile "notes" (.ofPlatform .c64) (.platform .c64) noted)
  profile := .user "notes"
  language := .english

/-- A view with a comment on a range, in another language, with blanks at its end. -/
def paddedView : View where
  registry := Registry.empty.put
    ((Profile.ofPlatform .c64).addComment ⟨0xD000, 0xD3FF, .italian, "Border  "⟩)
  profile := .platform .c64
  language := .italian

/-- A branch to itself, a store and a byte that is no opcode, from two addresses before the last. -/
def branching : Window := ⟨[0xD0, 0xFE, 0x8D, 0x20, 0xD0, 0x02], 0, 9, 0xFFFD⟩

/-- The same bytes in a buffer that starts in the middle of the store. -/
def rotated : Window := ⟨[0x20, 0xD0, 0x02, 0xEA, 0xD0, 0xFE, 0x8D], 4, 3, 0xFFFD⟩

/-- The lines of both windows, up to the comment. -/
def storeLines (comment : String) : List Line :=
  [.instruction 0xFFFD [0xD0, 0xFE] "BNE" "$FFFD" "",
    .instruction 0xFFFF [0x8D, 0x20, 0xD0] "STA" "$D020" comment, .data 2 0x02]

theorem oneLine_notedView : notedView.registry.OneLine := by
  have hfile : Comment.parseFile notes = .ok noted := by decide +kernel
  have hoverlay : plainRegistry.addOverlay "notes" (.platform .c64) noted = .ok notedView.registry := by
    decide +kernel
  exact Registry.OneLine.addOverlay (by decide +kernel) hfile hoverlay

theorem bytes_eq_of_renderListing_eq_rotated :
    notedView.listing Mos6502.decoder branching = .ok (storeLines "Border") ∧
      paddedView.listing Mos6502.decoder rotated = .ok (storeLines "Border  ") ∧
      renderListing (storeLines "Border") = renderListing (storeLines "Border  ") ∧
      branching.bytes = rotated.bytes ∧ (branching.bytes ≠ [] → branching.pc = rotated.pc) := by
  have h : notedView.listing Mos6502.decoder branching = .ok (storeLines "Border") := by
    decide +kernel
  have h' : paddedView.listing Mos6502.decoder rotated = .ok (storeLines "Border  ") := by
    decide +kernel
  have hr : renderListing (storeLines "Border") = renderListing (storeLines "Border  ") := by
    decide +kernel
  exact ⟨h, h', hr, bytes_eq_of_renderListing_eq oneLine_notedView (by decide +kernel) h h' hr⟩

end View

end Disassembly

end RetroListing
