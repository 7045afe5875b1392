/-
What the lines of a listing cover. Whatever the decoder answers, the bytes of the lines joined
together are the bytes of the window, every line has a byte of its own, and it stands at the address
of its first byte, counted from the first byte of the window in sixteen bits. The same holds of the
lines of a transcript.
-/
import RetroListing.Cpu.Mos6502
import RetroListing.Proofs.Listing.Scan

namespace RetroListing

/-! ## Addresses of lines -/

/-- Each line stands at the address of its first byte, where the first byte of all stands at `base`
and addresses have sixteen bits. -/
def AddressedFrom (base : Nat) (lines : List Line) : Prop :=
  ∀ before l after, lines = before ++ l :: after →
    l.address.toNat = (base + (before.flatMap Line.bytes).length) % 65536

theorem addressedFrom_nil (base : Nat) : AddressedFrom base [] := by
  intro before l after h
  simp at h

theorem addressedFrom_cons_iff (base : Nat) (l : Line) (ls : List Line) :
    AddressedFrom base (l :: ls) ↔
      l.address.toNat = base % 65536 ∧ AddressedFrom (base + l.bytes.length) ls := by
  constructor
  · intro h
    refine ⟨by simpa using h [] l ls rfl, fun before m after hls => ?_⟩
    have := h (l :: before) m after (by rw [hls]; rfl)
    rw [this, List.flatMap_cons, List.length_append, Nat.add_assoc]
  · rintro ⟨hl, hls⟩ before m after h
    cases before with
    | nil =>
      obtain ⟨rfl, -⟩ := List.cons.inj h
      simpa using hl
    | cons k before =>
      obtain ⟨rfl, hrest⟩ := List.cons.inj h
      rw [hls before m after hrest, List.flatMap_cons, List.length_append, Nat.add_assoc]

/-- Only the lowest sixteen bits of the first address count. -/
theorem addressedFrom_mod (base : Nat) (lines : List Line) :
    AddressedFrom (base % 65536) lines ↔ AddressedFrom base lines := by
  unfold AddressedFrom
  simp only [Nat.mod_add_mod]

/-- Lines, if there are any, stand at the addresses from two bases exactly when the bases agree in
their lowest sixteen bits. -/
theorem AddressedFrom.iff_of_addressedFrom {base base' : Nat} {lines : List Line}
    (h : AddressedFrom base lines) :
    AddressedFrom base' lines ↔ lines = [] ∨ base' % 65536 = base % 65536 := by
  constructor
  · intro h'
    cases lines with
    | nil => exact .inl rfl
    | cons l ls =>
      have h1 := ((addressedFrom_cons_iff base l ls).1 h).1
      have h2 := ((addressedFrom_cons_iff base' l ls).1 h').1
      exact .inr (h2.symm.trans h1)
  · rintro (rfl | hbase)
    · exact addressedFrom_nil base'
    · rw [← addressedFrom_mod, hbase, addressedFrom_mod]
      exact h

/-- The address a number of bytes further on. -/
theorem addressedFrom_add (pc : UInt16) (n : Nat) (lines : List Line) :
    AddressedFrom (pc + UInt16.ofNat n).toNat lines ↔ AddressedFrom (pc.toNat + n) lines := by
  rw [← addressedFrom_mod (pc.toNat + n), UInt16.toNat_add, UInt16.toNat_ofNat', Nat.add_mod_mod]

/-- The first line stands at the first address. -/
theorem AddressedFrom.head {pc : UInt16} {l : Line} {ls : List Line}
    (h : AddressedFrom pc.toNat (l :: ls)) : l.address = pc := by
  have hhead := ((addressedFrom_cons_iff _ l ls).1 h).1
  rw [Nat.mod_eq_of_lt pc.toNat_lt] at hhead
  exact UInt16.toNat_inj.1 hhead

/-- Lines with a byte each are not more than their bytes. -/
theorem length_le_of_bytes_ne_nil {lines : List Line} (h : ∀ l ∈ lines, l.bytes ≠ []) :
    lines.length ≤ (lines.flatMap Line.bytes).length := by
  induction lines with
  | nil => exact Nat.le_refl 0
  | cons l ls ih =>
    have hl := List.length_pos_iff.2 (h l List.mem_cons_self)
    have hls := ih fun m hm => h m (List.mem_cons_of_mem l hm)
    rw [List.flatMap_cons, List.length_append, List.length_cons]
    omega

/-! ## Disassembly -/

namespace Disassembly

variable (d : Decoder) (comment? : Operand → Option String)

/-- The lines of the steps from a place on: each has a byte, their bytes are those ahead of the place,
and they stand at the addresses from `pc` on. -/
theorem lines_of_steps (place : Cursor) (pc : UInt16) :
    let lines := (steps d place pc).map (·.line comment?)
    (∀ l ∈ lines, l.bytes ≠ []) ∧ lines.flatMap Line.bytes = place.ahead ∧
      AddressedFrom pc.toNat lines := by
  fun_induction steps d place pc with
  | case1 behind pc => exact ⟨by simp, rfl, addressedFrom_nil _⟩
  | case2 behind byte rest pc hd ih =>
    obtain ⟨hne, hbytes, haddr⟩ := ih
    refine ⟨?_, ?_, ?_⟩
    · simpa [Step.line, Line.bytes] using hne
    · rw [List.map_cons, List.flatMap_cons, hbytes]
      rfl
    · rw [List.map_cons, addressedFrom_cons_iff]
      refine ⟨(Nat.mod_eq_of_lt pc.toNat_lt).symm, ?_⟩
      exact (addressedFrom_add pc 1 _).1 haddr
  | case3 behind byte rest pc i hd bytes ih =>
    obtain ⟨hne, hbytes, haddr⟩ := ih
    refine ⟨?_, ?_, ?_⟩
    · rw [List.map_cons, List.forall_mem_cons]
      exact ⟨List.cons_ne_nil _ _, hne⟩
    · rw [List.map_cons, List.flatMap_cons, hbytes]
      -- the step takes `bytes` from what lies ahead and leaves the rest
      show bytes ++ (byte :: rest).drop bytes.length = byte :: rest
      exact List.prefix_iff_eq_append.1 (List.cons_prefix_cons.2 ⟨rfl, List.take_prefix _ _⟩)
    · rw [List.map_cons, addressedFrom_cons_iff]
      refine ⟨(Nat.mod_eq_of_lt pc.toNat_lt).symm, ?_⟩
      exact (addressedFrom_add pc bytes.length _).1 haddr

/-- A view that shows what a decoder finds shows a line for each step. -/
theorem View.listing_eq_ok_iff (v : View) (w : Window) (lines : List Line) :
    v.listing d w = .ok lines ↔
      v.error? d = none ∧ lines = (steps d (.start w.bytes) w.pc).map (·.line v.comment?) := by
  unfold View.listing
  rw [windowSteps_eq]
  cases v.error? d with
  | none => simp [eq_comm]
  | some e => simp

/-- The lines of a listing cover the bytes of its window from the address of the window on. -/
theorem View.covers_of_listing {v : View} {w : Window} {lines : List Line}
    (h : v.listing d w = .ok lines) :
    (∀ l ∈ lines, l.bytes ≠ []) ∧ lines.flatMap Line.bytes = w.bytes ∧
      AddressedFrom w.pc.toNat lines := by
  obtain ⟨-, rfl⟩ := (View.listing_eq_ok_iff d v w lines).1 h
  exact lines_of_steps d v.comment? (.start w.bytes) w.pc

/-- A line of data in a disassembly has one byte and no comment. -/
theorem Step.line_data (s : Step) (h : (s.line comment?).kind = .data) :
    (s.line comment?).bytes.length = 1 ∧ (s.line comment?).comment = "" := by
  cases s with
  | instruction => cases h
  | data => exact ⟨rfl, rfl⟩

/-- The listing of a window, for any decoder: every line has a byte, the bytes of the lines joined
together are those of the window, so that there are no more lines than bytes, and each line stands at
the address of its first byte; a line of data has one byte and no comment. -/
theorem View.listing_covers {v : View} {d : Decoder} {w : Window} {lines : List Line}
    (h : v.listing d w = .ok lines) :
    (∀ l ∈ lines, l.bytes ≠ []) ∧ lines.flatMap Line.bytes = w.bytes ∧
      lines.length ≤ w.bytes.length ∧ AddressedFrom w.pc.toNat lines ∧
      ∀ l ∈ lines, l.kind = .data → l.bytes.length = 1 ∧ l.comment = "" := by
  obtain ⟨hne, hbytes, haddr⟩ := View.covers_of_listing d h
  refine ⟨hne, hbytes, ?_, haddr, ?_⟩
  · exact Nat.le_trans (length_le_of_bytes_ne_nil hne) (Nat.le_of_eq (congrArg List.length hbytes))
  · intro l hl hk
    obtain ⟨-, rfl⟩ := (View.listing_eq_ok_iff d v w lines).1 h
    obtain ⟨s, -, rfl⟩ := List.mem_map.1 hl
    exact s.line_data v.comment? hk

/-- A decoder that is wrong about every width: it says zero bytes at the first place, none at the
second, and ten from there on. -/
def misfit : Decoder where
  cpu := .mos6502
  decode place _ :=
    match place.behind with
    | [] => some ⟨"LOW", ⟨.implied, 0, 0⟩, "", 0⟩
    | [_] => none
    | _ => some ⟨"BIG", ⟨.absolute, 0xD020, 0xD020⟩, "$D020", 10⟩

/-- A view with a comment on one address. -/
def borderView : View where
  registry := Registry.empty.put ((Profile.ofPlatform .c64).addComment ⟨0xD020, 0xD020, .english, "Border"⟩)
  profile := .platform .c64
  language := .english

/-- A window that runs over the end of its buffer and over the last address. -/
def wrapped : Window := ⟨[1, 2, 3, 4, 5], 3, 2, 0xFFFE⟩

/-- The lines of the wrapped window for the decoder that is wrong about every width. -/
def misfitLines : List Line :=
  [.instruction 0xFFFE [4] "LOW" "" "", .data 0xFFFF 5, .instruction 0 [1, 2] "BIG" "$D020" "Border"]

theorem View.listing_covers_misfit :
    borderView.listing misfit wrapped = .ok misfitLines ∧
      (∀ l ∈ misfitLines, l.bytes ≠ []) ∧ misfitLines.flatMap Line.bytes = [4, 5, 1, 2] ∧
      misfitLines.length ≤ 4 ∧ AddressedFrom 0xFFFE misfitLines ∧
      ∀ l ∈ misfitLines, l.kind = .data → l.bytes.length = 1 ∧ l.comment = "" := by
  have h : borderView.listing misfit wrapped = .ok misfitLines := by
    rw [View.listing_eq_ok_iff]
    decide +kernel
  exact ⟨h, View.listing_covers h⟩

end Disassembly

/-! ## Transcripts -/

/-- The lines for the bytes of a voice cover them from `pc` on. -/
theorem Transcript.linesOf_covers (pc : UInt16) (bs : List UInt8) :
    (∀ l ∈ linesOf pc bs, l.bytes ≠ []) ∧ (linesOf pc bs).flatMap Line.bytes = bs ∧
      AddressedFrom pc.toNat (linesOf pc bs) := by
  fun_induction linesOf pc bs with
  | case1 pc => exact ⟨by simp, rfl, addressedFrom_nil _⟩
  | case2 pc b =>
    refine ⟨by simp [Line.bytes], rfl, (addressedFrom_cons_iff _ _ _).2 ⟨?_, addressedFrom_nil _⟩⟩
    exact (Nat.mod_eq_of_lt pc.toNat_lt).symm
  | case3 pc b1 b2 rest ih =>
    obtain ⟨hne, hbytes, haddr⟩ := ih
    refine ⟨List.forall_mem_cons.2 ⟨List.cons_ne_nil _ _, hne⟩, ?_, ?_⟩
    · rw [List.flatMap_cons, hbytes]
      rfl
    · rw [addressedFrom_cons_iff]
      refine ⟨(Nat.mod_eq_of_lt pc.toNat_lt).symm, ?_⟩
      exact (addressedFrom_add pc 2 _).1 haddr

end RetroListing
