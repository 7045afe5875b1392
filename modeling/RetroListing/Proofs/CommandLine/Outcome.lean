/-
What a run prints, apart from its notices. Notices never decide how a run goes on, so the outcome of a run
is that of a computation without them (`outcome_run`): the settings, the window, and the lines of the
window.
-/
import RetroListing.CommandLine.Program

namespace RetroListing.CommandLine

/-! ## Computations without their notices -/

/-- The computation comes to `e`, whatever notices were given before. -/
def Yields {α : Type} (x : Reporting Id α) (e : Except Failure α) : Prop := ∀ log, (x.run.run log).1 = e

section

variable {α β ε : Type}

theorem Yields.pure (a : α) : Yields (Pure.pure a) (.ok a) := fun _ => rfl

theorem Yields.throw (e : Failure) : Yields (MonadExcept.throw e : Reporting Id α) (.error e) := fun _ => rfl

/-- Notices change nothing. -/
theorem Yields.tell_bind {x : Reporting Id α} {e : Except Failure α} (h : Yields x e)
    (notices : List Notice) : Yields (tell notices >>= fun _ => x) e := fun log => h (log ++ notices)

/-- Reading gives what there is. -/
theorem Yields.lift_bind {x : Id β} {f : β → Reporting Id α} {e : Except Failure α} (h : Yields (f x) e) :
    Yields (liftM x >>= f) e := fun log => h log

theorem Yields.orFail (failure : ε → Failure) (r : Except ε α) :
    Yields (CommandLine.orFail failure r) (r.mapError failure) := by
  intro log
  cases r with
  | ok a => rfl
  | error e => rfl

/-- A step that fails ends the computation; else the computation goes on from its result. -/
theorem Yields.bind {x : Reporting Id α} {f : α → Reporting Id β} {e : Except Failure α}
    {g : α → Except Failure β} (hx : Yields x e) (hf : ∀ a, Yields (f a) (g a)) :
    Yields (x >>= f) (e >>= g) := by
  intro log
  have hfirst := hx log
  rw [ExceptT.run_bind, StateT.run_bind]
  generalize x.run.run log = first at hfirst ⊢
  obtain ⟨r, log'⟩ := first
  subst hfirst
  cases r with
  | error failure => rfl
  | ok a => exact hf a log'

theorem bind_eq_ok_iff {x : Except ε α} {f : α → Except ε β} {b : β} :
    (x >>= f) = .ok b ↔ ∃ a, x = .ok a ∧ f a = .ok b := by
  constructor
  · intro h
    cases x with
    | error e => cases h
    | ok a => exact ⟨a, rfl, h⟩
  · rintro ⟨a, rfl, h⟩
    exact h

theorem mapError_eq_ok_iff {δ : Type} {x : Except ε α} {f : ε → δ} {a : α} :
    x.mapError f = .ok a ↔ x = .ok a := by
  constructor
  · intro h
    cases x with
    | error e => cases h
    | ok b =>
      cases h
      rfl
  · rintro rfl
    rfl

theorem map_eq_ok_iff {x : Except ε α} {f : α → β} {b : β} :
    f <$> x = .ok b ↔ ∃ a, x = .ok a ∧ f a = b := by
  constructor
  · intro h
    cases x with
    | error e => cases h
    | ok a => exact ⟨a, rfl, Except.ok.inj h⟩
  · rintro ⟨a, rfl, rfl⟩
    rfl

end

/-! ## What to list -/

variable (read : FileReader Id)

/-- The settings of a run. -/
def settingsOf : (userPath config : Option String) → Except Failure Settings
  | _, some path => (Settings.ofFile path (read.text path)).mapError .settings
  | some path, none => .ok (Settings.ofUserFile path (read.text path))
  | none, none => .ok .default

/-- The part of a file to list. -/
def windowOf (q : ScanRequest) : Except Failure Window := do
  let data ← Except.mapError (.unreadable q.file) (read q.file)
  let image ← q.image data.toList
  return q.window image

/-- The user's comments, if there are any. -/
def userCommentsOf : Option String → Except Failure (Option (List Comment.Entry))
  | none => .ok none
  | some path => ((Comment.ofFile path (read.text path)).mapError .comments).map some

/-- The registry of a disassembly, and the profile to start from. -/
def registryOf (s : Settings) (q : ScanRequest) : Except Failure (Registry × ProfileId) := do
  let bundled ← Registry.bundled.mapError .bundle
  let entries ← userCommentsOf read (q.commentsIn s)
  (withUserComments (preparedRegistry s q bundled) (q.platformIn s) entries).mapError .registry

/-- Whose comments a disassembly shows, and the decoder that it uses. -/
def viewOf (s : Settings) (q : ScanRequest) : Except Failure (Disassembly.View × Decoder) := do
  let bundled ← Registry.bundled.mapError .bundle
  let prepared := preparedRegistry s q bundled
  let entries ← userCommentsOf read (q.commentsIn s)
  let (registry, profile) ← (withUserComments prepared (q.platformIn s) entries).mapError .registry
  match decoder? (q.platformIn s) with
  | none => throw (.noDecoder (q.platformIn s))
  | some decoder => return ({ registry, profile, language := q.languageIn s }, decoder)

theorem yields_loadSettings (userPath config : Option String) :
    Yields (loadSettings read userPath config) (settingsOf read userPath config) := by
  cases config with
  | some path => exact .lift_bind (.orFail _ _)
  | none =>
    cases userPath with
    | none => exact .pure _
    | some path => exact .lift_bind (.tell_bind (.pure _) _)

theorem yields_loadWindow (q : ScanRequest) : Yields (loadWindow read q) (windowOf read q) := by
  have himage : ∀ data, Yields (orFail id (q.image data)) (q.image data) := by
    intro data log
    cases q.image data <;> rfl
  exact .lift_bind (.bind (.orFail _ _) fun data => .bind (himage _) fun _ => .pure _)

theorem yields_loadUserComments (path : Option String) :
    Yields (loadUserComments read path) (userCommentsOf read path) := by
  cases path with
  | none => exact .pure _
  | some path => exact .lift_bind (.bind (.orFail _ _) fun _ => .tell_bind (.pure _) _)

/-! ## Runs -/

/-- The lines of the disassembly of a window. -/
def disassembled (s : Settings) (q : ScanRequest) (w : Window) : Except Failure (List Line) := do
  let (view, decoder) ← viewOf read s q
  (view.listing decoder w).mapError .listing

theorem yields_loadRegistry (s : Settings) (q : ScanRequest) :
    Yields (loadRegistry read s q) (registryOf read s q) := by
  have hbundled : Yields loadBundled (Registry.bundled.mapError .bundle) := .tell_bind (.orFail _ _) _
  unfold registryOf
  -- one step after the other, in the order of the program
  refine .bind hbundled fun bundled => .tell_bind ?_ _
  exact .bind (yields_loadUserComments read _) fun entries => .tell_bind (.orFail _ _) _

theorem viewOf_eq (s : Settings) (q : ScanRequest) :
    viewOf read s q = (do
      let (registry, profile) ← registryOf read s q
      match decoder? (q.platformIn s) with
      | none => throw (.noDecoder (q.platformIn s))
      | some decoder => return ({ registry, profile, language := q.languageIn s }, decoder)) := by
  simp only [viewOf, registryOf, bind_assoc]

theorem yields_disassemble (s : Settings) (q : ScanRequest) :
    Yields (disassemble read s q) (do
      let w ← windowOf read q
      renderListing <$> disassembled read s q w) := by
  have hlisting : ∀ r : Except Disassembly.Error (List Line),
      Yields (orFail .listing r >>= fun lines => pure (renderListing lines))
        (renderListing <$> r.mapError .listing) := by
    intro r log
    cases r <;> rfl
  unfold disassembled
  simp only [viewOf_eq, map_bind, bind_assoc]
  refine .bind (yields_loadWindow read q) fun w => ?_
  refine .bind (yields_loadRegistry read s q) fun ⟨registry, profile⟩ => ?_
  cases decoder? (q.platformIn s) with
  | none => exact .throw _
  | some decoder => exact .tell_bind (hlisting _) _

theorem yields_transcribe (q : ScanRequest) :
    Yields (transcribe read q) (do
      let w ← windowOf read q
      return renderListing (Transcript.lines w)) :=
  .bind (yields_loadWindow read q) fun _ => .tell_bind (.pure _) _

/-- The lines that a command prints for a window; the list of profiles has none. -/
def commandLines (s : Settings) (w : Window) : Command → Except Failure (List Line)
  | .disassemble q => disassembled read s q w
  | .transcribe _ => .ok (Transcript.lines w)
  | .profiles _ => .ok []

/-- The request of a command that lists a file. -/
def Command.request? : Command → Option ScanRequest
  | .disassemble q | .transcribe q => some q
  | .profiles _ => none

/-- A run that lists a file prints the lines of the window it is asked for. -/
theorem outcome_run (userPath : Option String) {i : Invocation} {q : ScanRequest}
    (hq : i.command.request? = some q) :
    (run read userPath i).run.outcome = (do
      let s ← settingsOf read userPath i.config
      let w ← windowOf read q
      renderListing <$> commandLines read s w i.command) := by
  obtain ⟨config, verbosity, command⟩ := i
  have yields : ∀ s, Yields (match command with
      | .disassemble q => disassemble read s q
      | .transcribe q => transcribe read q
      | .profiles p => listProfiles s p) (do
        let w ← windowOf read q
        renderListing <$> commandLines read s w command) := by
    intro s
    cases command with
    | disassemble q =>
      cases hq
      exact yields_disassemble read s _
    | transcribe q =>
      cases hq
      exact yields_transcribe read _
    | profiles => cases hq
  exact Yields.bind (yields_loadSettings read userPath config) yields []

/-- A file that is listed: the image that was read and the lines that were printed. -/
structure Listed (userPath : Option String) (i : Invocation) (q : ScanRequest) (image : Prg.Image)
    (lines : List Line) : Prop where
  loaded : ∃ data, read q.file = .ok data ∧ q.image data.toList = .ok image
  printed : ∃ s, settingsOf read userPath i.config = .ok s ∧
    commandLines read s (q.window image) i.command = .ok lines

theorem windowOf_eq_ok_iff (q : ScanRequest) (w : Window) :
    windowOf read q = .ok w ↔
      ∃ data, read q.file = .ok data ∧ ∃ image, q.image data.toList = .ok image ∧ q.window image = w := by
  simp only [windowOf, bind_eq_ok_iff, mapError_eq_ok_iff]
  simp [Pure.pure, Except.pure]

/-- A run that lists a file prints a text exactly when it is the text of the lines that it lists. -/
theorem outcome_run_eq_ok_iff (userPath : Option String) {i : Invocation} {q : ScanRequest}
    (hq : i.command.request? = some q) (text : String) :
    (run read userPath i).run.outcome = .ok text ↔
      ∃ image lines, Listed read userPath i q image lines ∧ text = renderListing lines := by
  rw [outcome_run read userPath hq, bind_eq_ok_iff]
  constructor
  · rintro ⟨s, hs, h⟩
    obtain ⟨w, hw, h⟩ := bind_eq_ok_iff.1 h
    obtain ⟨lines, hl, rfl⟩ := map_eq_ok_iff.1 h
    obtain ⟨data, hdata, image, himage, rfl⟩ := (windowOf_eq_ok_iff read q w).1 hw
    exact ⟨image, lines, ⟨⟨data, hdata, himage⟩, ⟨s, hs, hl⟩⟩, rfl⟩
  · rintro ⟨image, lines, ⟨⟨data, hdata, himage⟩, ⟨s, hs, hl⟩⟩, rfl⟩
    refine ⟨s, hs, bind_eq_ok_iff.2 ⟨q.window image, ?_, map_eq_ok_iff.2 ⟨lines, hl, rfl⟩⟩⟩
    exact (windowOf_eq_ok_iff read q _).2 ⟨data, hdata, image, himage, rfl⟩

end RetroListing.CommandLine
