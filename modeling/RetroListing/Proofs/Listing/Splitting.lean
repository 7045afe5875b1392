/-
Listings for the 6502 cut in two. The decoder looks ahead only, at most three bytes, and an instruction that is
cut short is no instruction. So a listing may be cut at the end of any of its lines, also among the bytes that
stand for a cut instruction, and the two parts are listed as they were (`listing_split`); and what comes after
a part of a buffer decides at most about the lines that start in the last two bytes of it (`listing_stable`).
-/
import RetroListing.Proofs.Listing.Rendering
import RetroListing.Proofs.Listing.Window

namespace RetroListing

/-! ## How far the decoder looks -/

namespace Mos6502

variable {pc : UInt16} {bytes bs : List UInt8} {i : Instruction}

theorem Encodes.length_le (h : Encodes pc bytes i) : bytes.length ≤ 3 := by
  cases h with
  | @intro _ operands op _ _ hlen _ =>
    have hsize : op.mode.operandSize ≤ 2 := by cases op.mode <;> decide
    rw [List.length_cons]
    omega

theorem decode?_append_of_some (h : decode? pc bs = some i) (cs : List UInt8) : decode? pc (bs ++ cs) = some i := by
  obtain ⟨bytes, rest, rfl, henc⟩ := (decode?_eq_some_iff pc bs i).1 h
  exact (decode?_eq_some_iff pc _ i).2 ⟨bytes, rest ++ cs, List.append_assoc .., henc⟩

/-- Three bytes decide whether there is an instruction, whatever follows them. -/
theorem decode?_append (h : 3 ≤ bs.length) (cs : List UInt8) : decode? pc (bs ++ cs) = decode? pc bs := by
  cases hd : decode? pc bs with
  | some i => exact decode?_append_of_some hd cs
  | none =>
    by_contra hsome
    obtain ⟨i, hi⟩ := Option.ne_none_iff_exists'.1 hsome
    obtain ⟨bytes, rest, happend, henc⟩ := (decode?_eq_some_iff pc _ i).1 hi
    obtain ⟨after, rfl⟩ : bytes <+: bs :=
      List.prefix_of_prefix_length_le ⟨rest, happend.symm⟩ (List.prefix_append bs cs) (Nat.le_trans henc.length_le h)
    rw [(decode?_eq_some_iff pc _ i).2 ⟨bytes, after, rfl, henc⟩] at hd
    cases hd

end Mos6502

namespace Disassembly

/-! ## The first step -/

def Step.bytes : Step → List UInt8
  | .instruction _ bytes _ => bytes
  | .data _ byte => [byte]

@[simp] theorem Step.bytes_line (s : Step) (comment? : Operand → Option String) :
    (s.line comment?).bytes = s.bytes := by
  cases s <;> rfl

/-- The step that some bytes start with: the bytes of an instruction, or else a byte of data. -/
inductive StartsWith (pc : UInt16) : List UInt8 → Step → Prop
  | instruction {bytes rest : List UInt8} {i : Instruction} :
      Mos6502.Encodes pc bytes i → StartsWith pc (bytes ++ rest) (.instruction pc bytes i)
  | data {byte : UInt8} {rest : List UInt8} :
      Mos6502.decode? pc (byte :: rest) = none → StartsWith pc (byte :: rest) (.data pc byte)

variable {pc : UInt16} {bs : List UInt8} {s : Step}

theorem exists_startsWith (pc : UInt16) (h : bs ≠ []) : ∃ s, StartsWith pc bs s := by
  cases hd : Mos6502.decode? pc bs with
  | some i =>
    obtain ⟨bytes, rest, rfl, henc⟩ := (Mos6502.decode?_eq_some_iff pc bs i).1 hd
    exact ⟨_, .instruction henc⟩
  | none =>
    obtain ⟨byte, rest, rfl⟩ := List.exists_cons_of_ne_nil h
    exact ⟨_, .data hd⟩

/-- A step stays the first when the bytes are cut at its end or later. -/
theorem StartsWith.take (h : StartsWith pc bs s) {n : Nat} (hn : s.bytes.length ≤ n) :
    StartsWith pc (bs.take n) s := by
  cases h with
  | @instruction bytes rest i henc =>
    have htake : bytes.take n = bytes := List.take_of_length_le hn
    rw [List.take_append, htake]
    exact .instruction henc
  | @data byte rest hd =>
    obtain ⟨n, rfl⟩ := Nat.exists_eq_add_of_le' hn
    show StartsWith pc (byte :: rest.take n) _
    refine .data ?_
    -- what the shorter run of bytes holds, the longer one holds too
    by_contra hsome
    obtain ⟨i, hi⟩ := Option.ne_none_iff_exists'.1 hsome
    have := Mos6502.decode?_append_of_some hi (rest.drop n)
    rw [List.cons_append, List.take_append_drop, hd] at this
    cases this

/-- A step with three bytes before it stays the first whatever comes after those three. -/
theorem StartsWith.of_append {cs : List UInt8} (h : StartsWith pc (bs ++ cs) s) (hlen : 3 ≤ bs.length)
    (ds : List UInt8) : StartsWith pc (bs ++ ds) s := by
  obtain ⟨byte, rest, rfl⟩ := List.exists_cons_of_ne_nil (List.ne_nil_of_length_pos (by omega : 0 < bs.length))
  generalize hall : byte :: rest ++ cs = all at h
  cases h with
  | @instruction bytes after i henc =>
    obtain ⟨between, hbetween⟩ : bytes <+: byte :: rest :=
      List.prefix_of_prefix_length_le ⟨after, rfl⟩ ⟨cs, hall⟩ (Nat.le_trans henc.length_le hlen)
    rw [← hbetween, List.append_assoc]
    exact .instruction henc
  | @data byte' rest' hd =>
    obtain ⟨rfl, rfl⟩ := List.cons.inj hall
    refine .data ?_
    exact (Mos6502.decode?_append hlen ds).trans ((Mos6502.decode?_append hlen cs).symm.trans hd)

/-! ## Runs of steps -/

/-- The steps over some bytes, the first at `pc`. -/
def sweep (pc : UInt16) (bs : List UInt8) : List Step := steps Mos6502.decoder (.start bs) pc

theorem sweep_nil (pc : UInt16) : sweep pc [] = [] := steps_eq_nil _ rfl pc

/-- What lies behind a place does not count. -/
theorem steps_congr {place place' : Cursor} (h : place'.ahead = place.ahead) (pc : UInt16) :
    steps Mos6502.decoder place' pc = steps Mos6502.decoder place pc := by
  fun_induction steps Mos6502.decoder place pc generalizing place' with
  | case1 behind pc =>
    rw [steps_eq_nil _ h]
  | case2 behind byte rest pc hd ih =>
    obtain ⟨behind', ahead⟩ := place'
    cases h
    have hd' : Mos6502.decoder.decode ⟨behind', byte :: rest⟩ pc = none := hd
    rw [steps, hd']
    exact congrArg (Step.data pc byte :: ·) (ih rfl)
  | case3 behind byte rest pc i hd bytes =>
    rename_i ih
    obtain ⟨behind', ahead⟩ := place'
    cases h
    have hd' : Mos6502.decoder.decode ⟨behind', byte :: rest⟩ pc = some i := hd
    rw [steps, hd']
    exact congrArg (Step.instruction pc bytes i :: ·) (ih rfl)

/-- A run takes its first step and goes on with the bytes after it. -/
theorem StartsWith.sweep_eq (h : StartsWith pc bs s) :
    sweep pc bs = s :: sweep (pc + UInt16.ofNat s.bytes.length) (bs.drop s.bytes.length) := by
  cases h with
  | @instruction bytes rest i henc =>
    obtain ⟨byte, operands, rfl⟩ : ∃ byte operands, bytes = byte :: operands := by
      cases henc
      exact ⟨_, _, rfl⟩
    have hd : Mos6502.decoder.decode ⟨[], byte :: (operands ++ rest)⟩ pc = some i :=
      (Mos6502.decode?_eq_some_iff pc _ i).2 ⟨byte :: operands, rest, rfl, henc⟩
    have htake : (operands ++ rest).take (i.width - 1) = operands := by
      rw [henc.width_eq, List.length_cons, Nat.add_sub_cancel, List.take_left]
    rw [sweep, Cursor.start, List.cons_append, steps, hd]
    simp only [htake]
    exact congrArg (Step.instruction pc (byte :: operands) i :: ·) (steps_congr (by rfl) _)
  | @data byte rest hd =>
    have hd' : Mos6502.decoder.decode ⟨[], byte :: rest⟩ pc = none := hd
    rw [sweep, Cursor.start, steps, hd']
    exact congrArg (Step.data pc byte :: ·) (steps_congr (by rfl) _)

theorem sweep_eq_cons {after : List Step} (h : sweep pc bs = s :: after) :
    StartsWith pc bs s ∧ sweep (pc + UInt16.ofNat s.bytes.length) (bs.drop s.bytes.length) = after := by
  have hne : bs ≠ [] := by
    rintro rfl
    rw [sweep_nil] at h
    cases h
  obtain ⟨s', hs'⟩ := exists_startsWith pc hne
  rw [hs'.sweep_eq] at h
  cases h
  exact ⟨hs', rfl⟩

/-- How many bytes steps cover. -/
def stepsExtent (ss : List Step) : Nat := (ss.flatMap Step.bytes).length

theorem stepsExtent_cons (s : Step) (ss : List Step) :
    stepsExtent (s :: ss) = s.bytes.length + stepsExtent ss := by
  rw [stepsExtent, List.flatMap_cons, List.length_append, stepsExtent]

/-- A run may be cut after any of its steps. -/
theorem sweep_split {before after : List Step} (h : sweep pc bs = before ++ after) :
    sweep pc (bs.take (stepsExtent before)) = before ∧
      sweep (pc + UInt16.ofNat (stepsExtent before)) (bs.drop (stepsExtent before)) = after := by
  induction before generalizing pc bs with
  | nil =>
    refine ⟨sweep_nil pc, ?_⟩
    rw [← List.nil_append after, ← h]
    show sweep (pc + 0) bs = _
    rw [UInt16.add_zero]
  | cons s before ih =>
    obtain ⟨hs, hrest⟩ := sweep_eq_cons h
    obtain ⟨hbefore, hafter⟩ := ih hrest
    rw [stepsExtent_cons]
    constructor
    · rw [(hs.take (Nat.le_add_right _ _)).sweep_eq, List.drop_take, Nat.add_sub_cancel_left, hbefore]
    · rw [UInt16.ofNat_add, ← UInt16.add_assoc, ← List.drop_drop]
      exact hafter

/-- Two runs over bytes that begin alike take the same steps as long as three bytes of the common part are left. -/
theorem sweep_stable {cs : List UInt8} {before after : List Step} (h : sweep pc (bs ++ cs) = before ++ s :: after)
    (hlen : stepsExtent before + 3 ≤ bs.length) (ds : List UInt8) :
    ∃ after', sweep pc (bs ++ ds) = before ++ s :: after' := by
  induction before generalizing pc bs with
  | nil =>
    obtain ⟨hs, -⟩ := sweep_eq_cons h
    exact ⟨_, (hs.of_append (by omega) ds).sweep_eq⟩
  | cons t before ih =>
    obtain ⟨ht, hrest⟩ := sweep_eq_cons h
    rw [stepsExtent_cons] at hlen
    have hdrop : ∀ cs : List UInt8, (bs ++ cs).drop t.bytes.length = bs.drop t.bytes.length ++ cs := fun cs =>
      List.drop_append_of_le_length (by omega)
    rw [hdrop] at hrest
    obtain ⟨after', hafter'⟩ := ih hrest (by rw [List.length_drop]; omega)
    refine ⟨after', ?_⟩
    rw [(ht.of_append (by omega) ds).sweep_eq, hdrop, hafter']
    rfl

/-! ## Listings -/

/-- How many bytes lines cover. -/
def extent (lines : List Line) : Nat := (lines.flatMap Line.bytes).length

theorem extent_map_line (ss : List Step) (comment? : Operand → Option String) :
    extent (ss.map (·.line comment?)) = stepsExtent ss := by
  simp [extent, stepsExtent, List.flatMap_map]

namespace View

variable {v : View} {w : Window}

theorem listing_eq_ok_iff_sweep {lines : List Line} :
    v.listing Mos6502.decoder w = .ok lines ↔
      v.error? Mos6502.decoder = none ∧ lines = (sweep w.pc w.bytes).map (·.line v.comment?) :=
  listing_eq_ok_iff _ v w lines

theorem exists_listing {p : Profile} (hp : v.registry.get? v.profile = some p) (hcpu : p.cpu = .mos6502)
    (w : Window) : ∃ lines, v.listing Mos6502.decoder w = .ok lines := by
  have herror : v.error? Mos6502.decoder = none := by
    rw [error?, hp]
    exact if_pos hcpu
  exact ⟨_, listing_eq_ok_iff_sweep.2 ⟨herror, rfl⟩⟩

/-- A listing is that of its first lines' bytes followed by that of the other bytes, in whatever buffers these
stand. -/
theorem listing_of_append {before after : List Line} (h : v.listing Mos6502.decoder w = .ok (before ++ after))
    (w₁ w₂ : Window) (hpc₁ : w₁.pc = w.pc) (hbytes₁ : w₁.bytes = w.bytes.take (extent before))
    (hpc₂ : w₂.pc = w.pc + .ofNat (extent before)) (hbytes₂ : w₂.bytes = w.bytes.drop (extent before)) :
    v.listing Mos6502.decoder w₁ = .ok before ∧ v.listing Mos6502.decoder w₂ = .ok after := by
  obtain ⟨herror, hlines⟩ := listing_eq_ok_iff_sweep.1 h
  obtain ⟨ss, ts, hsweep, rfl, rfl⟩ := List.append_eq_map_iff.1 hlines
  rw [extent_map_line] at *
  obtain ⟨hss, hts⟩ := sweep_split hsweep
  constructor
  · exact listing_eq_ok_iff_sweep.2 ⟨herror, by rw [hpc₁, hbytes₁, hss]⟩
  · exact listing_eq_ok_iff_sweep.2 ⟨herror, by rw [hpc₂, hbytes₂, hts]⟩

/-- A line is listed alone from its own bytes at its own address. -/
theorem listing_singleton {lines : List Line} (h : v.listing Mos6502.decoder w = .ok lines) {l : Line}
    (hl : l ∈ lines) : v.listing Mos6502.decoder (.whole l.bytes l.address) = .ok [l] := by
  obtain ⟨before, after, rfl⟩ := List.append_of_mem hl
  obtain ⟨-, hbytes, haddr⟩ := covers_of_listing _ h
  have hdrop : w.bytes.drop (extent before) = l.bytes ++ after.flatMap Line.bytes := by
    rw [← hbytes, List.flatMap_append, List.flatMap_cons, extent, List.drop_left]
  have haddress : l.address = w.pc + .ofNat (extent before) := by
    apply UInt16.toNat_inj.1
    rw [haddr before l after rfl, UInt16.toNat_add, UInt16.toNat_ofNat', Nat.add_mod_mod]
    rfl
  -- cut before the line, then after it
  have hrest : v.listing Mos6502.decoder (.whole (w.bytes.drop (extent before)) l.address) = .ok ([l] ++ after) :=
    (listing_of_append h (.whole (w.bytes.take (extent before)) w.pc) _ rfl (Window.bytes_whole ..) haddress
      (Window.bytes_whole ..)).2
  have hextent : extent [l] = l.bytes.length := by simp [extent]
  refine (listing_of_append hrest (.whole l.bytes l.address)
    (.whole (after.flatMap Line.bytes) (l.address + .ofNat (extent [l]))) rfl ?_ rfl ?_).1
  · rw [Window.bytes_whole, Window.bytes_whole, hdrop, hextent, List.take_left]
  · rw [Window.bytes_whole, Window.bytes_whole, hdrop, hextent, List.drop_left]

/-- A listing may be cut at the end of any of its lines: it is that of the bytes before the cut followed by that of
the bytes after it. So each line is listed from its own bytes alone, and a listing that runs over the end of its
buffer is, if a line ends there, that of the end of the buffer followed by that of its beginning. -/
theorem listing_split (v : View) {p : Profile} (hp : v.registry.get? v.profile = some p) (hcpu : p.cpu = .mos6502)
    (w : Window) :
    ∃ lines, v.listing Mos6502.decoder w = .ok lines ∧
      (∀ before after, lines = before ++ after →
        v.listing Mos6502.decoder (.whole (w.bytes.take (extent before)) w.pc) = .ok before ∧
        v.listing Mos6502.decoder
          (.whole (w.bytes.drop (extent before)) (w.pc + .ofNat (extent before))) = .ok after) ∧
      (∀ l ∈ lines, v.listing Mos6502.decoder (.whole l.bytes l.address) = .ok [l]) ∧
      (w.Wraps → ∀ before after, lines = before ++ after →
        extent before = w.buffer.length - min w.start w.buffer.length →
        v.listing Mos6502.decoder { w with stop := w.buffer.length } = .ok before ∧
        v.listing Mos6502.decoder { w with start := 0, pc := w.pc + .ofNat (extent before) } = .ok after) := by
  obtain ⟨lines, h⟩ := exists_listing hp hcpu w
  refine ⟨lines, h, ?_, fun l hl => listing_singleton h hl, ?_⟩
  · rintro before after rfl
    exact listing_of_append h _ _ rfl (Window.bytes_whole ..) rfl (Window.bytes_whole ..)
  · rintro hwraps before after rfl hextent
    have hlength : extent before = (w.buffer.drop w.start).length := by
      rw [hextent, List.length_drop]
      omega
    refine listing_of_append h _ _ rfl ?_ rfl ?_
    · rw [Window.bytes_of_wraps hwraps, hlength, List.take_left, Window.bytes_toEnd]
    · rw [Window.bytes_of_wraps hwraps, hlength, List.drop_left, Window.bytes_fromBeginning]

/-- A store over the last address, and a second one that starts where the buffer does and is cut short. -/
def overEnd : Window := ⟨[0x8D, 0x20, 0x00, 0xEA, 0x8D, 0x20, 0xD0], 3, 2, 0xFFFD⟩

/-- The lines of the two stores. -/
def overEndLines : List Line :=
  [.instruction 0xFFFD [0xEA] "NOP" "" "", .instruction 0xFFFE [0x8D, 0x20, 0xD0] "STA" "$D020" "Border",
    .data 1 0x8D, .data 2 0x20]

theorem profile_notedView : notedView.registry.get? notedView.profile =
    some (Registry.overlayProfile "notes" (.ofPlatform .c64) (.platform .c64) noted) := by
  decide +kernel

/-- The cut store stays cut where the listing is cut between its two bytes. -/
theorem listing_split_overEnd :
    (∃ p, notedView.registry.get? notedView.profile = some p ∧ p.cpu = .mos6502) ∧
      notedView.listing Mos6502.decoder overEnd = .ok overEndLines ∧
      notedView.listing Mos6502.decoder (.whole [0xEA, 0x8D, 0x20, 0xD0, 0x8D] 0xFFFD) =
        .ok (overEndLines.take 3) ∧
      notedView.listing Mos6502.decoder (.whole [0x20] 2) = .ok (overEndLines.drop 3) ∧
      notedView.listing Mos6502.decoder { overEnd with stop := 7 } = .ok (overEndLines.take 2) ∧
      notedView.listing Mos6502.decoder { overEnd with start := 0, pc := 1 } = .ok (overEndLines.drop 2) := by
  obtain ⟨lines, h, hsplit, -, hwraps⟩ := notedView.listing_split profile_notedView rfl overEnd
  have hat : notedView.listing Mos6502.decoder overEnd = .ok overEndLines := by decide +kernel
  cases hat.symm.trans h
  obtain ⟨hbefore, hafter⟩ := hsplit (overEndLines.take 3) (overEndLines.drop 3) rfl
  obtain ⟨hend, hbeginning⟩ := hwraps (by decide) (overEndLines.take 2) (overEndLines.drop 2) rfl rfl
  exact ⟨⟨_, profile_notedView, rfl⟩, hat, hbefore, hafter, hend, hbeginning⟩

/-- The lines that start three bytes or more before offset `size` stand in the second listing as well, after the
same lines as in the first. -/
def KeptBefore (size : Nat) (lines lines' : List Line) : Prop :=
  ∀ before l after, lines = before ++ l :: after → extent before + 3 ≤ size →
    ∃ after', lines' = before ++ l :: after'

theorem keptBefore_of_common {w' : Window} {lines lines' : List Line} {common rest rest' : List UInt8}
    (h : v.listing Mos6502.decoder w = .ok lines) (h' : v.listing Mos6502.decoder w' = .ok lines')
    (hpc : w'.pc = w.pc) (hbytes : w.bytes = common ++ rest) (hbytes' : w'.bytes = common ++ rest') :
    KeptBefore common.length lines lines' := by
  obtain ⟨-, hlines⟩ := listing_eq_ok_iff_sweep.1 h
  obtain ⟨-, hlines'⟩ := listing_eq_ok_iff_sweep.1 h'
  rw [hbytes] at hlines
  rw [hpc, hbytes'] at hlines'
  rintro before l after rfl hsize
  obtain ⟨ss, ts, hsweep, rfl, hts⟩ := List.append_eq_map_iff.1 hlines
  obtain ⟨s, us, rfl, rfl, rfl⟩ := List.map_eq_cons_iff.1 hts
  rw [extent_map_line] at hsize
  obtain ⟨us', hsweep'⟩ := sweep_stable hsweep hsize rest'
  exact ⟨us'.map (·.line v.comment?), by rw [hlines', hsweep', List.map_append, List.map_cons]⟩

/-- More bytes after a part of a buffer leave the lines of the part as they are, except those that start in its last
two bytes. So to move the end of a listing alters at most lines that start in the last two bytes before that end
of the two which comes first, or later. -/
theorem listing_stable (v : View) {p : Profile} (hp : v.registry.get? v.profile = some p)
    (hcpu : p.cpu = .mos6502) :
    (∀ (pc : UInt16) (bs cs : List UInt8), ∃ lines lines',
      v.listing Mos6502.decoder (.whole bs pc) = .ok lines ∧
      v.listing Mos6502.decoder (.whole (bs ++ cs) pc) = .ok lines' ∧ KeptBefore bs.length lines lines') ∧
    ∀ (w : Window) (stop : Nat), ∃ lines lines',
      v.listing Mos6502.decoder w = .ok lines ∧
      v.listing Mos6502.decoder { w with stop := stop } = .ok lines' ∧
      KeptBefore (min w.bytes.length { w with stop := stop }.bytes.length) lines lines' := by
  constructor
  · intro pc bs cs
    obtain ⟨lines, h⟩ := exists_listing hp hcpu (.whole bs pc)
    obtain ⟨lines', h'⟩ := exists_listing hp hcpu (.whole (bs ++ cs) pc)
    have hbytes : (Window.whole bs pc).bytes = bs ++ [] := by rw [Window.bytes_whole, List.append_nil]
    exact ⟨lines, lines', h, h', keptBefore_of_common h h' rfl hbytes (Window.bytes_whole ..)⟩
  · intro w stop
    obtain ⟨lines, h⟩ := exists_listing hp hcpu w
    obtain ⟨lines', h'⟩ := exists_listing hp hcpu { w with stop := stop }
    refine ⟨lines, lines', h, h', ?_⟩
    -- both parts begin the same turned buffer, so one of them begins the other
    have hbegin : { w with stop := stop }.bytes <+: w.turned := Window.bytes_begin_turned _
    rcases List.prefix_or_prefix_of_prefix w.bytes_begin_turned hbegin with ⟨rest, hrest⟩ | ⟨rest, hrest⟩
    · have hmin : min w.bytes.length { w with stop := stop }.bytes.length = w.bytes.length := by
        rw [← hrest, List.length_append]
        omega
      rw [hmin]
      exact keptBefore_of_common h h' rfl (List.append_nil _).symm hrest.symm
    · have hmin : min w.bytes.length { w with stop := stop }.bytes.length =
          { w with stop := stop }.bytes.length := by
        rw [← hrest, List.length_append]
        omega
      rw [hmin]
      exact keptBefore_of_common h h' rfl hrest.symm (List.append_nil _).symm

/-- The last byte of the second store makes one line of two, and the first store stays. -/
theorem listing_stable_cut :
    (∃ p, notedView.registry.get? notedView.profile = some p ∧ p.cpu = .mos6502) ∧
      notedView.listing Mos6502.decoder (.whole [0x8D, 0x20, 0xD0, 0x8D, 0x20] 0xFFFE) =
        .ok (overEndLines.drop 1) ∧
      notedView.listing Mos6502.decoder (.whole [0x8D, 0x20, 0xD0, 0x8D, 0x20, 0xD0] 0xFFFE) =
        .ok [.instruction 0xFFFE [0x8D, 0x20, 0xD0] "STA" "$D020" "Border",
          .instruction 1 [0x8D, 0x20, 0xD0] "STA" "$D020" "Border"] ∧
      KeptBefore 5 (overEndLines.drop 1)
        [.instruction 0xFFFE [0x8D, 0x20, 0xD0] "STA" "$D020" "Border",
          .instruction 1 [0x8D, 0x20, 0xD0] "STA" "$D020" "Border"] := by
  obtain ⟨lines, lines', h, h', hkept⟩ :=
    (notedView.listing_stable profile_notedView rfl).1 0xFFFE [0x8D, 0x20, 0xD0, 0x8D, 0x20] [0xD0]
  have hat : notedView.listing Mos6502.decoder (.whole [0x8D, 0x20, 0xD0, 0x8D, 0x20] 0xFFFE) =
      .ok (overEndLines.drop 1) := by
    decide +kernel
  have hat' : notedView.listing Mos6502.decoder (.whole [0x8D, 0x20, 0xD0, 0x8D, 0x20, 0xD0] 0xFFFE) =
      .ok [.instruction 0xFFFE [0x8D, 0x20, 0xD0] "STA" "$D020" "Border",
        .instruction 1 [0x8D, 0x20, 0xD0] "STA" "$D020" "Border"] := by
    decide +kernel
  cases hat.symm.trans h
  cases hat'.symm.trans h'
  exact ⟨⟨_, profile_notedView, rfl⟩, hat, hat', hkept⟩

end View

end Disassembly

end RetroListing
