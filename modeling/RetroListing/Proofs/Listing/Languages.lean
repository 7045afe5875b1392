/-
One language apart from the others. Registries that agree but for comments in other languages answer every
look-up in the language alike (`Registry.AgreeIn.resolve`), and the tables of a list of comments are built from
the comments in their own languages alone. Main statement: two lists with the same comments in a language, each
stacked on the same profile, are both refused or give registries that cannot be told apart in that language,
whose listings differ in no language but in their comments.
-/
import Mathlib.Data.List.Forall2
import RetroListing.Proofs.Comment.Reordering
import RetroListing.Proofs.Listing.Hiding

namespace RetroListing

variable {language : Language}

/-! ## Profiles -/

/-- The profiles are the same but for comments in other languages. -/
structure Profile.AgreeIn (language : Language) (p q : Profile) : Prop where
  id : q.id = p.id
  cpu : q.cpu = p.cpu
  parent : q.parent = p.parent
  regions : q.regions = p.regions
  table : q.tables.get? language = p.tables.get? language

theorem Profile.AgreeIn.refl (p : Profile) : p.AgreeIn language p := ⟨rfl, rfl, rfl, rfl, rfl⟩

/-- What a profile says in a language comes from its table in that language. -/
theorem Profile.AgreeIn.lookup {p q : Profile} (h : p.AgreeIn language q) (operand : Operand) :
    q.lookup operand language = p.lookup operand language := by
  unfold Profile.lookup visible
  rw [h.cpu, h.regions, h.table]

/-! ## Registries -/

namespace Registry

/-- The registries have profiles under the same names, and these agree but for comments in other languages. -/
def AgreeIn (language : Language) (r s : Registry) : Prop :=
  ∀ id, Option.Rel (Profile.AgreeIn language) (r.get? id) (s.get? id)

theorem AgreeIn.refl (r : Registry) : r.AgreeIn language r := by
  intro id
  cases r.get? id with
  | none => exact .none
  | some p => exact .some (.refl p)

variable {r s : Registry}

theorem AgreeIn.put (h : r.AgreeIn language s) {p q : Profile} (hp : p.AgreeIn language q) :
    (r.put p).AgreeIn language (s.put q) := by
  intro id
  rw [get?_put, get?_put, hp.id]
  split
  · exact .some hp
  · exact h id

/-- The walks through the parents meet profiles of the same names, which agree. -/
theorem AgreeIn.ancestry (h : r.AgreeIn language s) :
    ∀ (n : Nat) (next : Option ProfileId),
      List.Forall₂ (Profile.AgreeIn language) (r.ancestry n next) (s.ancestry n next)
  | 0, _ => .nil
  | n + 1, none => .nil
  | n + 1, some id => by
    have hid := h id
    rw [Registry.ancestry, Registry.ancestry]
    generalize r.get? id = p?, s.get? id = q? at hid ⊢
    cases hid with
    | none => exact .nil
    | some hp =>
      refine .cons hp ?_
      rw [hp.parent]
      exact h.ancestry n _

theorem resolveIn_eq_of_agreeIn {ps qs : List Profile} (h : List.Forall₂ (Profile.AgreeIn language) ps qs)
    (operand : Operand) : resolveIn operand language qs = resolveIn operand language ps := by
  induction h with
  | nil => rfl
  | cons hp _ ih => rw [resolveIn_cons, resolveIn_cons, hp.lookup, ih]

/-- Look-ups in a language meet only comments in that language. -/
theorem AgreeIn.resolve (h : r.AgreeIn language s) (id : ProfileId) (operand : Operand) :
    s.resolve id operand language = r.resolve id operand language :=
  resolveIn_eq_of_agreeIn (h.ancestry maxDepth (some id)) operand

/-- Whether comments can be stacked on a profile does not depend on them; stacked in two registries that agree,
lists whose tables in a language are the same leave registries that agree. -/
theorem AgreeIn.addOverlay (name : String) (parent : ProfileId) {es es' : List Comment.Entry}
    (h : (Comment.Tables.ofEntries es').get? language = (Comment.Tables.ofEntries es).get? language)
    (r : Registry) :
    (∃ e, r.addOverlay name parent es = .error e ∧ r.addOverlay name parent es' = .error e) ∨
      ∃ s s', r.addOverlay name parent es = .ok s ∧ r.addOverlay name parent es' = .ok s' ∧
        s.AgreeIn language s' := by
  unfold Registry.addOverlay
  cases r.get? parent with
  | none => exact .inl ⟨_, rfl, rfl⟩
  | some p =>
    have herror : r.insertError? (overlayProfile name p parent es') =
        r.insertError? (overlayProfile name p parent es) := rfl
    dsimp only
    unfold Registry.insert
    rw [herror]
    cases r.insertError? (overlayProfile name p parent es) with
    | some e => exact .inl ⟨e, rfl, rfl⟩
    | none => exact .inr ⟨_, _, rfl, rfl, (AgreeIn.refl r).put ⟨rfl, rfl, rfl, rfl, h⟩⟩

end Registry

/-- The same comments in a language give the same table, whatever stands between them in other languages. -/
theorem Comment.Tables.get?_ofEntries_of_filter_eq {es es' : List Entry}
    (h : es.filter (·.language = language) = es'.filter (·.language = language)) :
    (ofEntries es').get? language = (ofEntries es).get? language := by
  rw [get?_ofEntries, get?_ofEntries, inLanguage, inLanguage, h]

/-! ## Listings -/

/-- The lines show the same but for their comments. -/
structure Line.SameButComment (l l' : Line) : Prop where
  kind : l'.kind = l.kind
  address : l'.address = l.address
  bytes : l'.bytes = l.bytes
  mnemonic : l'.mnemonic = l.mnemonic
  operand : l'.operand = l.operand

namespace Disassembly

theorem Step.sameButComment_line (step : Step) (comment? comment?' : Operand → Option String) :
    (step.line comment?).SameButComment (step.line comment?') := by
  obtain ⟨haddress, hbytes, hmnemonic, hoperand, hkind⟩ := step.line_parts comment? comment?'
  exact ⟨hkind, haddress, hbytes, hmnemonic, hoperand⟩

namespace View

variable {r s : Registry}

/-- Whether a listing can be made does not depend on comments. -/
theorem error?_of_agreeIn (h : r.AgreeIn language s) (id : ProfileId) (other : Language) (d : Decoder) :
    error? ⟨s, id, other⟩ d = error? ⟨r, id, other⟩ d := by
  have hid := h id
  unfold error?
  dsimp only
  generalize r.get? id = p?, s.get? id = q? at hid ⊢
  cases hid with
  | none => rfl
  | some hp => simp only [hp.cpu]

theorem listing_of_agreeIn (h : r.AgreeIn language s) (id : ProfileId) (d : Decoder) (w : Window) :
    listing ⟨s, id, language⟩ d w = listing ⟨r, id, language⟩ d w := by
  have hcomment : comment? ⟨s, id, language⟩ = comment? ⟨r, id, language⟩ := funext (h.resolve id)
  unfold listing
  rw [error?_of_agreeIn h, hcomment]

/-- The listings of one part of a buffer in registries that agree in some language: in every language both fail
alike, or they show the same lines but for the comments. -/
theorem listing_sameButComment (h : r.AgreeIn language s) (id : ProfileId) (other : Language) (d : Decoder)
    (w : Window) :
    (∃ e, listing ⟨r, id, other⟩ d w = .error e ∧ listing ⟨s, id, other⟩ d w = .error e) ∨
      ∃ lines lines', listing ⟨r, id, other⟩ d w = .ok lines ∧ listing ⟨s, id, other⟩ d w = .ok lines' ∧
        List.Forall₂ Line.SameButComment lines lines' := by
  unfold listing
  rw [error?_of_agreeIn h]
  cases error? ⟨r, id, other⟩ d with
  | some e => exact .inl ⟨e, rfl, rfl⟩
  | none =>
    refine .inr ⟨_, _, rfl, rfl, ?_⟩
    rw [List.forall₂_map_left_iff, List.forall₂_map_right_iff, List.forall₂_same]
    exact fun step _ => step.sameButComment_line ..

/-- Two lists with the same comments in a language, in the same order. Their tables in the language are the same.
Stacked under one name on one profile of any registry, both are refused alike, or they give registries in which
every look-up in the language has the same answer, from every profile. A listing in the language is then the
same in both, and one in any other language fails alike or differs in comments only, for every decoder. -/
theorem listing_of_filter_language_eq {es es' : List Comment.Entry}
    (h : es.filter (·.language = language) = es'.filter (·.language = language)) :
    (Comment.Tables.ofEntries es').get? language = (Comment.Tables.ofEntries es).get? language ∧
    ∀ (r : Registry) (name : String) (parent : ProfileId),
      (∃ e, r.addOverlay name parent es = .error e ∧ r.addOverlay name parent es' = .error e) ∨
      ∃ s s', r.addOverlay name parent es = .ok s ∧ r.addOverlay name parent es' = .ok s' ∧
        (∀ id operand, s'.resolve id operand language = s.resolve id operand language) ∧
        ∀ (id : ProfileId) (d : Decoder) (w : Window),
          listing ⟨s', id, language⟩ d w = listing ⟨s, id, language⟩ d w ∧
          ∀ other,
            (∃ e, listing ⟨s, id, other⟩ d w = .error e ∧ listing ⟨s', id, other⟩ d w = .error e) ∨
            ∃ lines lines', listing ⟨s, id, other⟩ d w = .ok lines ∧ listing ⟨s', id, other⟩ d w = .ok lines' ∧
              List.Forall₂ Line.SameButComment lines lines' := by
  have htable := Comment.Tables.get?_ofEntries_of_filter_eq h
  refine ⟨htable, fun r name parent => ?_⟩
  rcases Registry.AgreeIn.addOverlay name parent htable r with herror | ⟨s, s', hs, hs', hagree⟩
  · exact .inl herror
  · exact .inr ⟨s, s', hs, hs', hagree.resolve, fun id d w =>
      ⟨listing_of_agreeIn hagree id d w, fun other => listing_sameButComment hagree id other d w⟩⟩

/-- Comments for the game in two languages. -/
def gameNotes : List Comment.Entry :=
  [⟨0xD020, 0xD020, .english, "edge"⟩, ⟨0xD020, 0xD020, .italian, "margine"⟩,
    ⟨0xD700, 0xD7FF, .italian, "suono"⟩]

/-- The same comments in Italian, between others in English. -/
def gameNotes' : List Comment.Entry :=
  [⟨0xD020, 0xD020, .italian, "margine"⟩, ⟨0xD000, 0xDFFF, .english, "chip"⟩,
    ⟨0xD700, 0xD7FF, .italian, "suono"⟩, ⟨0xD7F8, 0xD7F8, .english, "echo"⟩]

/-- The line of a read of a port and that of a read of a sound register, with their comments. -/
def portLines (port sound : String) : List Line :=
  [.instruction 0x1000 [0xAD, 0x20, 0xD0] "LDA" "$D020" port,
    .instruction 0x1003 [0xAD, 0xF8, 0xD7] "LDA" "$D7F8" sound]

/-- The notes take the place of the game, which has cheats stacked on it. From the cheats the listings in Italian
are the same, those in English are not. -/
theorem listing_of_filter_language_eq_gameNotes :
    let cheat := Registry.Change.addOverlay "cheats" (.user "game") []
    let r := (Registry.gameBoard.take 3 ++ [cheat]).foldl Registry.apply .empty
    let board := ProfileId.user "board"
    let cheats := ProfileId.user "cheats"
    gameNotes.filter (·.language = .italian) = gameNotes'.filter (·.language = .italian) ∧
    ∃ s s', r.addOverlay "game" board gameNotes = .ok s ∧ r.addOverlay "game" board gameNotes' = .ok s' ∧
      listing ⟨s, cheats, .italian⟩ Mos6502.decoder portReads = .ok (portLines "margine" "suono") ∧
      listing ⟨s', cheats, .italian⟩ Mos6502.decoder portReads = .ok (portLines "margine" "suono") ∧
      listing ⟨s, cheats, .english⟩ Mos6502.decoder portReads = .ok (portLines "edge" "chips") ∧
      listing ⟨s', cheats, .english⟩ Mos6502.decoder portReads = .ok (portLines "chip" "echo") ∧
      List.Forall₂ Line.SameButComment (portLines "edge" "chips") (portLines "chip" "echo") := by
  intro cheat r board cheats
  have hsame : gameNotes.filter (·.language = .italian) = gameNotes'.filter (·.language = .italian) := by decide
  refine ⟨hsame, ?_⟩
  rcases (listing_of_filter_language_eq hsame).2 r "game" board with ⟨e, he, -⟩ | ⟨s, s', hs, hs', -, hlistings⟩
  · have hok : (r.addOverlay "game" board gameNotes).isOk = true := by decide +kernel
    rw [he] at hok
    cases hok
  · obtain ⟨hitalian, hother⟩ := hlistings cheats Mos6502.decoder portReads
    have happly : s = r.apply (.addOverlay "game" board gameNotes) := by
      rw [Registry.apply, hs]
      rfl
    have happly' : s' = r.apply (.addOverlay "game" board gameNotes') := by
      rw [Registry.apply, hs']
      rfl
    have hat : listing ⟨s, cheats, .italian⟩ Mos6502.decoder portReads = .ok (portLines "margine" "suono") := by
      subst happly
      decide +kernel
    have hedge : listing ⟨s, cheats, .english⟩ Mos6502.decoder portReads = .ok (portLines "edge" "chips") := by
      subst happly
      decide +kernel
    have hchip : listing ⟨s', cheats, .english⟩ Mos6502.decoder portReads = .ok (portLines "chip" "echo") := by
      subst happly'
      decide +kernel
    refine ⟨s, s', hs, hs', hat, hitalian.trans hat, hedge, hchip, ?_⟩
    rcases hother .english with ⟨e, he, -⟩ | ⟨lines, lines', hlines, hlines', hsameLines⟩
    · rw [hedge] at he
      cases he
    · cases hedge.symm.trans hlines
      cases hchip.symm.trans hlines'
      exact hsameLines

end View

end Disassembly

end RetroListing
