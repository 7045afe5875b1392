/-
The addresses of the lines that a run prints. A run counts them from its start as it is given, while the
bytes that it lists are those of the start taken back to the end of the file; so the addresses are those of
the start taken back unless the request overshoots (`Listed.addressedFrom_clamped_iff`).
-/
import RetroListing.Proofs.CommandLine.Outcome
import RetroListing.Proofs.Listing.Rendering
import RetroListing.Proofs.Listing.Window

namespace RetroListing.CommandLine

/-! ## Requests with the start taken back -/

/-- The request with its start taken back to the end of a buffer of `size` bytes. -/
def ScanRequest.clampStart (q : ScanRequest) (size : Nat) : ScanRequest :=
  { q with start := some (min (q.start.getD 0) size) }

def Command.clampStart (size : Nat) : Command → Command
  | .disassemble q => .disassemble (q.clampStart size)
  | .transcribe q => .transcribe (q.clampStart size)
  | .profiles p => .profiles p

def Invocation.clampStart (i : Invocation) (size : Nat) : Invocation :=
  { i with command := i.command.clampStart size }

/-- The start is past the end of a buffer of `size` bytes, by other than whole rounds of addresses, and
there is something to list from the beginning of the buffer. -/
def ScanRequest.Overshoots (q : ScanRequest) (size : Nat) : Prop :=
  size < q.start.getD 0 ∧ 0 < q.stop.getD size ∧ q.stop.getD size < size ∧
    q.start.getD 0 % 65536 ≠ size % 65536

instance (q : ScanRequest) (size : Nat) : Decidable (q.Overshoots size) :=
  inferInstanceAs (Decidable (_ ∧ _ ∧ _ ∧ _))

theorem Command.request?_clampStart {c : Command} {q : ScanRequest} (h : c.request? = some q) (size : Nat) :
    (c.clampStart size).request? = some (q.clampStart size) := by
  cases c with
  | disassemble | transcribe =>
    cases h
    rfl
  | profiles => cases h

/-- A request shows the same bytes when its start is taken back. -/
theorem ScanRequest.bytes_clampStart (q : ScanRequest) (image : Prg.Image) :
    ((q.clampStart image.payload.length).window image).bytes = (q.window image).bytes :=
  Window.bytes_clampStart (q.window image)

/-- A request overshoots exactly when it has bytes to list and its start stands for another address than
the start taken back. -/
theorem ScanRequest.overshoots_iff (q : ScanRequest) (image : Prg.Image) :
    q.Overshoots image.payload.length ↔ (q.window image).bytes ≠ [] ∧
      q.start.getD 0 % 65536 ≠ min (q.start.getD 0) image.payload.length % 65536 := by
  rw [Ne, Window.bytes_eq_nil_iff]
  change _ ↔ ¬ (min (q.start.getD 0) image.payload.length =
    min (q.stop.getD image.payload.length) image.payload.length ∨
      (image.payload.length ≤ q.start.getD 0 ∧ q.stop.getD image.payload.length = 0)) ∧ _
  unfold Overshoots
  generalize image.payload.length = size
  generalize q.start.getD 0 = start
  generalize q.stop.getD size = stop
  -- a start within the buffer stays, one past its end becomes the end
  rcases Nat.le_total start size with h | h
  · rw [Nat.min_eq_left h]
    omega
  · rw [Nat.min_eq_right h]
    omega

/-! ## The lines of a run -/

variable (read : FileReader Id)

/-- Only the bytes of a window and the address of the first count. -/
theorem commandLines_congr (s : Settings) (c : Command) {w w' : Window} (hbytes : w.bytes = w'.bytes)
    (hpc : w.bytes = [] ∨ w.pc = w'.pc) : commandLines read s w c = commandLines read s w' c := by
  cases c with
  | disassemble q =>
    have hsteps : ∀ d, Disassembly.windowSteps d w = Disassembly.windowSteps d w' := fun d =>
      Window.scan_congr _ hbytes hpc
    simp only [commandLines, disassembled, Disassembly.View.listing, hsteps]
  | transcribe q =>
    have htranscript : Transcript.lines w = Transcript.lines w' := Window.scan_congr _ hbytes hpc
    rw [commandLines, commandLines, htranscript]
  | profiles p => rfl

theorem commandLines_clampStart (s : Settings) (w : Window) (c : Command) (size : Nat) :
    commandLines read s w (c.clampStart size) = commandLines read s w c := by
  cases c <;> rfl

/-- The lines of a command that lists a file cover the bytes of the window, from its address on. -/
theorem commandLines_covers {s : Settings} {w : Window} {c : Command} {q : ScanRequest} {lines : List Line}
    (hq : c.request? = some q) (h : commandLines read s w c = .ok lines) :
    (∀ l ∈ lines, l.bytes ≠ []) ∧ lines.flatMap Line.bytes = w.bytes ∧
      AddressedFrom w.pc.toNat lines := by
  cases c with
  | disassemble q =>
    obtain ⟨⟨v, d⟩, -, h⟩ := bind_eq_ok_iff.1 h
    exact Disassembly.View.covers_of_listing d (mapError_eq_ok_iff.1 h)
  | transcribe q =>
    cases h
    rw [Transcript.lines_eq]
    exact Transcript.linesOf_covers w.pc w.bytes
  | profiles p => cases hq

/-- Taking the start back keeps the address of the first byte exactly when it goes back by whole rounds of
addresses. -/
theorem ScanRequest.pc_clampStart_iff (q : ScanRequest) (image : Prg.Image) :
    (q.window image).pc = ((q.clampStart image.payload.length).window image).pc ↔
      q.start.getD 0 % 65536 = min (q.start.getD 0) image.payload.length % 65536 := by
  show q.origin.getD image.origin + UInt16.ofNat _ = q.origin.getD image.origin + UInt16.ofNat _ ↔ _
  rw [UInt16.add_right_inj, ← UInt16.toNat_inj, UInt16.toNat_ofNat', UInt16.toNat_ofNat']
  rfl

/-- Lines that cover no bytes are none. -/
theorem eq_nil_iff_of_covers {lines : List Line} {bs : List UInt8} (hne : ∀ l ∈ lines, l.bytes ≠ [])
    (hbytes : lines.flatMap Line.bytes = bs) : lines = [] ↔ bs = [] := by
  rw [← hbytes]
  constructor
  · rintro rfl
    rfl
  · intro hnil
    refine List.eq_nil_iff_forall_not_mem.2 fun l hl => ?_
    exact hne l hl (List.flatMap_eq_nil_iff.1 hnil l hl)

section

variable {read : FileReader Id} {userPath : Option String} {i : Invocation} {q : ScanRequest}
  {image : Prg.Image} {lines : List Line}

theorem Listed.covers (h : Listed read userPath i q image lines) (hq : i.command.request? = some q) :
    (∀ l ∈ lines, l.bytes ≠ []) ∧ lines.flatMap Line.bytes = (q.window image).bytes ∧
      AddressedFrom (q.window image).pc.toNat lines := by
  obtain ⟨s, -, hl⟩ := h.printed
  exact commandLines_covers read hq hl

/-- The lines stand at the addresses from the start taken back exactly when the request does not
overshoot. -/
theorem Listed.addressedFrom_clamped_iff (h : Listed read userPath i q image lines)
    (hq : i.command.request? = some q) :
    AddressedFrom ((q.origin.getD image.origin).toNat + min (q.start.getD 0) image.payload.length) lines ↔
      ¬ q.Overshoots image.payload.length := by
  obtain ⟨hne, hbytes, haddr⟩ := h.covers hq
  have hraw := (addressedFrom_add _ _ _).1 haddr
  rw [hraw.iff_of_addressedFrom, eq_nil_iff_of_covers hne hbytes, q.overshoots_iff image]
  by_cases hnil : (q.window image).bytes = []
  · simp [hnil]
  · simp only [hnil, false_or, ne_eq, not_false_eq_true, true_and, Classical.not_not]
    omega

/-- A run with the start taken back lists the same image. -/
theorem Listed.image_eq {image' : Prg.Image} {lines' : List Line} {size : Nat}
    (h : Listed read userPath i q image lines)
    (h' : Listed read userPath (i.clampStart size) (q.clampStart size) image' lines') : image' = image := by
  obtain ⟨data, hdata, himage⟩ := h.loaded
  obtain ⟨data', hdata', himage'⟩ := h'.loaded
  cases hdata.symm.trans hdata'
  cases himage.symm.trans himage'
  rfl

/-- A run with the start taken back prints the same text exactly when the request does not overshoot. -/
theorem Listed.outcome_clampStart_iff (h : Listed read userPath i q image lines)
    (hq : i.command.request? = some q) :
    (run read userPath (i.clampStart image.payload.length)).run.outcome = .ok (renderListing lines) ↔
      ¬ q.Overshoots image.payload.length := by
  have hq' := Command.request?_clampStart hq image.payload.length
  rw [outcome_run_eq_ok_iff read userPath hq']
  constructor
  · rintro ⟨image', lines', h', hr⟩ hover
    cases h.image_eq h'
    obtain ⟨hbytes, hpc⟩ := (q.overshoots_iff image).1 hover
    obtain ⟨hne, hcover, haddr⟩ := h.covers hq
    obtain ⟨hne', hcover', haddr'⟩ := h'.covers hq'
    rw [q.bytes_clampStart image] at hcover'
    -- both listings have a first line, and the text shows its address
    obtain ⟨l, ls, rfl⟩ := List.exists_cons_of_ne_nil (mt (eq_nil_iff_of_covers hne hcover).1 hbytes)
    obtain ⟨m, ms, rfl⟩ := List.exists_cons_of_ne_nil (mt (eq_nil_iff_of_covers hne' hcover').1 hbytes)
    have hfirst := address_eq_of_renderListing_eq hr
    rw [haddr.head, haddr'.head] at hfirst
    exact hpc ((q.pc_clampStart_iff image).1 hfirst)
  · intro hnot
    obtain ⟨s, hs, hl⟩ := h.printed
    refine ⟨image, lines, ⟨h.loaded, s, hs, ?_⟩, rfl⟩
    have hsame : (q.window image).bytes = [] ∨
        (q.window image).pc = ((q.clampStart image.payload.length).window image).pc := by
      rw [q.overshoots_iff image, Classical.not_and_iff_not_or_not, Classical.not_not,
        Classical.not_not] at hnot
      exact hnot.imp_right (q.pc_clampStart_iff image).2
    rw [← hl]
    show commandLines read s _ (i.command.clampStart _) = _
    rw [commandLines_clampStart]
    exact (commandLines_congr read s i.command (q.bytes_clampStart image).symm hsame).symm

end

/-- The addresses of a run that lists a file, from its start as it is given: the line whose first byte is
the byte number `k` of the scan stands at the origin plus the start plus `k`. These are the addresses of a
start taken back to the end of the buffer, and the run prints what it prints for that start, exactly when
the request does not overshoot. -/
theorem run_addresses_iff (userPath : Option String) {i : Invocation} {q : ScanRequest}
    (hq : i.command.request? = some q) {text : String}
    (h : (run read userPath i).run.outcome = .ok text) :
    ∃ image lines, Listed read userPath i q image lines ∧ text = renderListing lines ∧
      lines.flatMap Line.bytes = (q.window image).bytes ∧
      AddressedFrom ((q.origin.getD image.origin).toNat + q.start.getD 0) lines ∧
      (AddressedFrom ((q.origin.getD image.origin).toNat + min (q.start.getD 0) image.payload.length) lines ↔
        ¬ q.Overshoots image.payload.length) ∧
      ((run read userPath (i.clampStart image.payload.length)).run.outcome = .ok text ↔
        ¬ q.Overshoots image.payload.length) := by
  obtain ⟨image, lines, hlisted, rfl⟩ := (outcome_run_eq_ok_iff read userPath hq text).1 h
  obtain ⟨-, hbytes, haddr⟩ := hlisted.covers hq
  exact ⟨image, lines, hlisted, rfl, hbytes, (addressedFrom_add _ _ _).1 haddr,
    hlisted.addressedFrom_clamped_iff hq, hlisted.outcome_clampStart_iff hq⟩

/-- A file with a voice of two cells. -/
def voiceFile : FileReader Id
  | "voice" => .ok ⟨#[0x06, 0x08, 0x0C, 0xE1]⟩
  | _ => .error .notFound

/-- Asks for the bytes from past the end of the file, around it, to the end of the first cell. -/
def lateRequest : ScanRequest := { file := "voice", start := some 9, stop := some 2 }

/-- A transcript from past the end of the file. -/
def late : Invocation := ⟨none, 0, .transcribe lateRequest⟩

theorem run_addresses_iff_late :
    (run voiceFile none late).run.outcome = .ok "0009  06 08       TEMPO: SET 1800\n" ∧
    ∃ image lines, Listed voiceFile none late lateRequest image lines ∧
      "0009  06 08       TEMPO: SET 1800\n" = renderListing lines ∧
      lines.flatMap Line.bytes = (lateRequest.window image).bytes ∧
      AddressedFrom (image.origin.toNat + 9) lines ∧
      (AddressedFrom (image.origin.toNat + min 9 image.payload.length) lines ↔
        ¬ lateRequest.Overshoots image.payload.length) ∧
      ((run voiceFile none (late.clampStart image.payload.length)).run.outcome =
          .ok "0009  06 08       TEMPO: SET 1800\n" ↔
        ¬ lateRequest.Overshoots image.payload.length) := by
  have h : (run voiceFile none late).run.outcome = .ok "0009  06 08       TEMPO: SET 1800\n" := by
    decide +kernel
  exact ⟨h, run_addresses_iff voiceFile none rfl h⟩

/-- The transcript from past the end of the file does not stand at the addresses from the end of the file,
and is not the one from the end of the file. -/
theorem late_not_addressed_from_end :
    (run voiceFile none late).run.outcome = .ok "0009  06 08       TEMPO: SET 1800\n" ∧
      (run voiceFile none (late.clampStart 4)).run.outcome = .ok "0004  06 08       TEMPO: SET 1800\n" ∧
      ∃ lines, Listed voiceFile none late lateRequest ⟨0, [0x06, 0x08, 0x0C, 0xE1]⟩ lines ∧
        ¬ AddressedFrom (0 + min 9 4) lines := by
  refine ⟨by decide +kernel, by decide +kernel, _, ⟨⟨_, rfl, by decide +kernel⟩, _, rfl, rfl⟩, ?_⟩
  intro h
  have hfirst := ((addressedFrom_cons_iff _ _ _).1 h).1
  revert hfirst
  decide

end RetroListing.CommandLine
