/-
Transcripts against their plain definition and against the bytes they show. The scan of a window gives a line for
every two bytes, and each line is read off the window by its number alone (`lines_isCell`). The comments of a
transcript keep of the bytes what the texts of the cells keep (`comments_eq_iff`).
-/
import RetroListing.Proofs.Listing.Scan
import RetroListing.Proofs.Listing.Window
import RetroListing.Proofs.Voice.Cell

namespace RetroListing.Transcript

/-! ## Lines by their number -/

/-- The line with number `i` in the transcript of some bytes from an address on. -/
structure IsCell (pc : UInt16) (bs : List UInt8) (i : Nat) (l : Line) : Prop where
  kind : l.kind = .cell
  address : l.address.toNat = (pc.toNat + 2 * i) % 65536
  bytes : l.bytes = Window.Segment.slice ⟨2 * i, min (2 * i + 2) bs.length⟩ bs
  mnemonic : l.mnemonic = ""
  operand : l.operand = ""
  pair : ∀ b1 b2, l.bytes = [b1, b2] → l.comment = (Voice.Cell.ofBytes b1 b2).text
  single : ∀ b, l.bytes = [b] → l.comment = "???"

variable {pc : UInt16} {b b1 b2 : UInt8} {bs : List UInt8} {i : Nat} {l : Line}

theorem isCell_single (pc : UInt16) (b : UInt8) : IsCell pc [b] 0 (.cell pc [b] Voice.unknownText) where
  kind := rfl
  address := (Nat.mod_eq_of_lt pc.toNat_lt).symm
  bytes := rfl
  mnemonic := rfl
  operand := rfl
  pair := by
    intro b1 b2 h
    cases h
  single := fun _ _ => rfl

theorem isCell_pair (pc : UInt16) (b1 b2 : UInt8) (bs : List UInt8) :
    IsCell pc (b1 :: b2 :: bs) 0 (.cell pc [b1, b2] (Voice.Cell.ofBytes b1 b2).text) where
  kind := rfl
  address := (Nat.mod_eq_of_lt pc.toNat_lt).symm
  bytes := by simp [Line.bytes, Window.Segment.slice]
  mnemonic := rfl
  operand := rfl
  pair := by
    intro c1 c2 h
    cases h
    rfl
  single := by
    intro b h
    cases h

/-- A cell before the others moves each of them on by one. -/
theorem IsCell.cons (h : IsCell (pc + 2) bs i l) (b1 b2 : UInt8) : IsCell pc (b1 :: b2 :: bs) (i + 1) l where
  __ := h
  address := by
    have htwo : (2 : UInt16).toNat = 2 := rfl
    rw [h.address, UInt16.toNat_add, htwo]
    omega
  bytes := by
    rw [h.bytes]
    unfold Window.Segment.slice
    rw [Nat.mul_succ, List.drop_succ_cons, List.drop_succ_cons, List.length_cons, List.length_cons]
    dsimp only
    congr 1
    omega

theorem length_linesOf (pc : UInt16) (bs : List UInt8) : (linesOf pc bs).length = (bs.length + 1) / 2 := by
  fun_induction linesOf pc bs with
  | case1 pc => rfl
  | case2 pc b => simp
  | case3 pc b1 b2 rest ih =>
    rw [List.length_cons, List.length_cons, List.length_cons, ih]
    omega

theorem isCell_of_getElem? (h : (linesOf pc bs)[i]? = some l) : IsCell pc bs i l := by
  fun_induction linesOf pc bs generalizing i with
  | case1 pc => simp at h
  | case2 pc b =>
    cases i with
    | zero =>
      obtain rfl := Option.some.inj h
      exact isCell_single pc b
    | succ i => simp at h
  | case3 pc b1 b2 rest ih =>
    cases i with
    | zero =>
      obtain rfl := Option.some.inj h
      exact isCell_pair pc b1 b2 rest
    | succ i => exact (ih (by simpa using h)).cons b1 b2

/-- Two bytes with a place for both make a cell, wherever in the buffer they come from. -/
theorem IsCell.of_pair (h : IsCell pc bs i l) (hb1 : bs[2 * i]? = some b1) (hb2 : bs[2 * i + 1]? = some b2) :
    l.bytes = [b1, b2] ∧ l.comment = (Voice.Cell.ofBytes b1 b2).text := by
  obtain ⟨hi1, rfl⟩ := List.getElem?_eq_some_iff.1 hb1
  obtain ⟨hi2, rfl⟩ := List.getElem?_eq_some_iff.1 hb2
  have htwo : min (2 * i + 2) bs.length - 2 * i = 2 := by omega
  have hbytes : l.bytes = [bs[2 * i], bs[2 * i + 1]] := by
    rw [h.bytes, Window.Segment.slice, htwo, List.drop_eq_getElem_cons hi1, List.drop_eq_getElem_cons hi2]
    rfl
  exact ⟨hbytes, h.pair _ _ hbytes⟩

theorem exists_getElem?_linesOf (pc : UInt16) (h : 2 * i < bs.length) : ∃ l, (linesOf pc bs)[i]? = some l :=
  ⟨_, List.getElem?_eq_getElem (by rw [length_linesOf]; omega)⟩

/-- The bytes on both sides of the end of the buffer are neighbours in a window that runs over it. -/
theorem getElem?_bytes_of_wraps {w : Window} (h : w.Wraps) (hstop : 0 < w.stop) {k : Nat}
    (hk : k + 1 = w.buffer.length - w.start) :
    w.bytes[k]? = w.buffer.getLast? ∧ w.bytes[k + 1]? = w.buffer.head? := by
  have hdrop : (w.buffer.drop w.start).length = k + 1 := by rw [List.length_drop, hk]
  rw [Window.bytes_of_wraps h, List.getElem?_append_left (by omega), List.getElem?_append_right (by omega), hdrop,
    Nat.sub_self, List.getElem?_drop, List.getElem?_take_of_lt hstop, List.getLast?_eq_getElem?,
    List.head?_eq_getElem?]
  exact ⟨congrArg (w.buffer[·]?) (by omega), rfl⟩

/-- A transcript has a line for every two bytes of its window, and one for a byte left over; each line stands at the
address of its first byte and says what its bytes hold. A cell with a byte on either side of the end of the buffer
is no exception. -/
theorem lines_isCell (w : Window) :
    (lines w).length = (w.bytes.length + 1) / 2 ∧
      (∀ i l, (lines w)[i]? = some l → IsCell w.pc w.bytes i l) ∧
      (w.Wraps → 0 < w.stop → (w.buffer.length - w.start) % 2 = 1 →
        ∃ last first l, w.buffer.getLast? = some last ∧ w.buffer.head? = some first ∧
          (lines w)[(w.buffer.length - w.start) / 2]? = some l ∧ l.bytes = [last, first] ∧
          l.comment = (Voice.Cell.ofBytes last first).text) := by
  rw [lines_eq]
  refine ⟨length_linesOf w.pc w.bytes, fun i l => isCell_of_getElem?, ?_⟩
  intro hwraps hstop hodd
  obtain ⟨i, hi⟩ : ∃ i, 2 * i + 1 = w.buffer.length - w.start := ⟨(w.buffer.length - w.start) / 2, by omega⟩
  obtain ⟨hlast, hfirst⟩ := getElem?_bytes_of_wraps hwraps hstop hi
  have hne : w.buffer ≠ [] := by
    intro hnil
    rw [hnil, List.length_nil] at hi
    omega
  obtain ⟨last, hlast'⟩ := Option.ne_none_iff_exists'.1 (mt List.getLast?_eq_none_iff.1 hne)
  obtain ⟨first, hfirst'⟩ := Option.ne_none_iff_exists'.1 (mt List.head?_eq_none_iff.1 hne)
  rw [hlast'] at hlast
  rw [hfirst'] at hfirst
  obtain ⟨l, hl⟩ := exists_getElem?_linesOf w.pc (List.getElem?_eq_some_iff.1 hlast).1
  obtain ⟨hbytes, hcomment⟩ := (isCell_of_getElem? hl).of_pair hlast hfirst
  have hnumber : (w.buffer.length - w.start) / 2 = i := by omega
  exact ⟨last, first, l, hlast', hfirst', hnumber ▸ hl, hbytes, hcomment⟩

/-- A window whose first cell starts with the last byte of the buffer. -/
def straddled : Window := ⟨[0x20, 0x0C, 0x7C, 0x06], 3, 2, 0xFFFE⟩

theorem lines_isCell_straddled :
    (straddled.Wraps ∧ 0 < straddled.stop ∧ (straddled.buffer.length - straddled.start) % 2 = 1) ∧
      lines straddled = [.cell 0xFFFE [0x06, 0x20] "TEMPO: SET 450", .cell 0 [0x0C] "???"] ∧
      IsCell 0xFFFE [0x06, 0x20, 0x0C] 1 (.cell 0 [0x0C] "???") ∧
      "TEMPO: SET 450" = (Voice.Cell.ofBytes 0x06 0x20).text := by
  have hlines : lines straddled = [.cell 0xFFFE [0x06, 0x20] "TEMPO: SET 450", .cell 0 [0x0C] "???"] := by
    decide +kernel
  have hbounds : straddled.Wraps ∧ 0 < straddled.stop ∧
      (straddled.buffer.length - straddled.start) % 2 = 1 := by decide
  obtain ⟨-, hcells, hstraddled⟩ := lines_isCell straddled
  obtain ⟨last, first, l, hlast, hfirst, hl, -, hcomment⟩ := hstraddled hbounds.1 hbounds.2.1 hbounds.2.2
  obtain rfl := Option.some.inj hlast
  obtain rfl := Option.some.inj hfirst
  rw [hlines] at hl
  obtain rfl := Option.some.inj hl
  exact ⟨hbounds, hlines, hcells 1 _ (by rw [hlines]; rfl), hcomment⟩

/-! ## What the comments keep -/

/-- Corresponding full cells of two runs of bytes are alike. -/
def AlikeCells (bs cs : List UInt8) : Prop :=
  ∀ i b1 b2 c1 c2, bs[2 * i]? = some b1 → bs[2 * i + 1]? = some b2 → cs[2 * i]? = some c1 →
    cs[2 * i + 1]? = some c2 → Voice.Cell.Alike b1 b2 c1 c2

theorem alikeCells_of_length_le_one (h : bs.length ≤ 1) (cs : List UInt8) : AlikeCells bs cs := by
  intro i b1 b2 c1 c2 _ hb2
  have hi := (List.getElem?_eq_some_iff.1 hb2).1
  omega

theorem alikeCells_cons_iff {b1 b2 c1 c2 : UInt8} {bs cs : List UInt8} :
    AlikeCells (b1 :: b2 :: bs) (c1 :: c2 :: cs) ↔ Voice.Cell.Alike b1 b2 c1 c2 ∧ AlikeCells bs cs := by
  constructor
  · intro h
    refine ⟨h 0 b1 b2 c1 c2 rfl rfl rfl rfl, fun i => ?_⟩
    simpa [Nat.mul_succ] using h (i + 1)
  · rintro ⟨hhead, htail⟩ i
    cases i with
    | zero =>
      intro d1 d2 e1 e2 hd1 hd2 he1 he2
      cases hd1
      cases hd2
      cases he1
      cases he2
      exact hhead
    | succ i => simpa [Nat.mul_succ] using htail i

theorem comments_linesOf_eq_iff {pc pc' : UInt16} {bs cs : List UInt8} (h : bs.length = cs.length) :
    (linesOf pc bs).map Line.comment = (linesOf pc' cs).map Line.comment ↔ AlikeCells bs cs := by
  fun_induction linesOf pc bs generalizing pc' cs with
  | case1 pc =>
    obtain rfl := List.length_eq_zero_iff.1 h.symm
    exact iff_of_true rfl (alikeCells_of_length_le_one (by simp) [])
  | case2 pc b =>
    obtain ⟨c, rfl⟩ := List.length_eq_one_iff.1 h.symm
    exact iff_of_true rfl (alikeCells_of_length_le_one le_rfl [c])
  | case3 pc b1 b2 bs ih =>
    obtain ⟨c1, c2, cs, rfl⟩ : ∃ c1 c2 cs', cs = c1 :: c2 :: cs' := by
      match cs with
      | c1 :: c2 :: cs' => exact ⟨c1, c2, cs', rfl⟩
    rw [linesOf, List.map_cons, List.map_cons, List.cons.injEq, alikeCells_cons_iff,
      ih (by simpa using h), ← Voice.Cell.text_eq_iff]
    rfl

/-- Two transcripts of one length have the same comments exactly when their full cells are alike; a byte left over
says nothing. -/
theorem comments_eq_iff {w w' : Window} (h : w.bytes.length = w'.bytes.length) :
    (lines w).map Line.comment = (lines w').map Line.comment ↔ AlikeCells w.bytes w'.bytes := by
  rw [lines_eq, lines_eq]
  exact comments_linesOf_eq_iff h

/-- The low half of a jiffy length's opcode, the tie of a utility note, how a C comes to be natural, the bytes of an
unknown duration, a rest and an unknown command, and a byte left over are not shown. -/
theorem comments_eq_iff_hidden :
    let w : Window := ⟨[0x31, 0x05, 0x04, 0x01, 0x80, 0x08, 0x06, 0x01, 0x07], 0, 9, 0x1000⟩
    let w' : Window := ⟨[0x35, 0x05, 0x44, 0xC1, 0x9C, 0xF0, 0x06, 0x02, 0x09], 0, 9, 0x2000⟩
    w.bytes.length = w'.bytes.length ∧
      (lines w).map Line.comment = ["JIFFY LENGTH: SET -195", "C-7  UTILITY", "REST ???", "???", "???"] ∧
      (lines w').map Line.comment = (lines w).map Line.comment ∧ AlikeCells w'.bytes w.bytes := by
  intro w w'
  have hlength : w'.bytes.length = w.bytes.length := rfl
  have hcomments : (lines w').map Line.comment = (lines w).map Line.comment := by decide +kernel
  have hat : (lines w).map Line.comment =
      ["JIFFY LENGTH: SET -195", "C-7  UTILITY", "REST ???", "???", "???"] := by decide +kernel
  exact ⟨hlength.symm, hat, hcomments, (comments_eq_iff hlength).1 hcomments⟩

end RetroListing.Transcript
