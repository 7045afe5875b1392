/-
What switching a region off does to listings. The switch changes one flag of one profile
(`Registry.Closed.exists_switchesOff`); a look-up then differs only where it comes as far as that profile
and the region decides about the address, and there it has no answer any more. Main statement: the lines of
every listing stay as they are but for comments on such operands, and those comments become empty.
-/
import RetroListing.Cpu.Mos6502
import RetroListing.Proofs.Listing.Coverage
import RetroListing.Proofs.Profile.Switching

namespace RetroListing

/-! ## A region in its place -/

/-- A region of a profile, with the regions declared before it and after it. -/
structure Declared where
  profile : Profile
  before : List Region
  region : Region
  after : List Region
  split : profile.regions = before ++ region :: after

namespace Declared

/-- The profile with the region switched off. -/
def hidden (d : Declared) : Profile :=
  { d.profile with regions := d.before ++ { d.region with enabled := false } :: d.after }

/-- The region is the first of the profile that is called `name`, in either letter case. -/
def Named (d : Declared) (name : String) : Prop :=
  Text.foldCase d.region.name = Text.foldCase name ∧
    ∀ g ∈ d.before, Text.foldCase g.name ≠ Text.foldCase name

/-- The region is the first of the profile that contains an address. -/
def Decides (d : Declared) (address : UInt16) : Prop :=
  d.region.contains address = true ∧ ∀ g ∈ d.before, g.contains address = false

instance (d : Declared) (address : UInt16) : Decidable (d.Decides address) :=
  inferInstanceAs (Decidable (_ ∧ _))

variable {d : Declared} {address : UInt16} {operand : Operand} {language : Language}

theorem visible_hidden_of_decides (h : d.Decides address) : d.hidden.visible address = false := by
  have hbefore : d.before.find? (·.contains address) = none := by
    simpa [List.find?_eq_none] using h.2
  have hregion : { d.region with enabled := false }.contains address = true := h.1
  simp [Profile.visible, Region.visible, hidden, List.find?_append, hbefore, hregion]

theorem visible_hidden_of_not_decides (h : ¬ d.Decides address) :
    d.hidden.visible address = d.profile.visible address := by
  have hsame : { d.region with enabled := false }.contains address = d.region.contains address := rfl
  cases hbefore : d.before.find? (·.contains address) with
  | some g => simp [Profile.visible, Region.visible, hidden, d.split, List.find?_append, hbefore]
  | none =>
    -- nothing before the region contains the address, so the region does not either
    have hregion : d.region.contains address = false := by
      rw [← Bool.not_eq_true]
      intro hcontains
      exact h ⟨hcontains, by simpa [List.find?_eq_none] using hbefore⟩
    simp [Profile.visible, Region.visible, hidden, d.split, List.find?_append, hbefore, hsame, hregion]

/-- Where the region decides, the profile has no answer any more. -/
theorem answer_lookup_hidden (h : d.Decides operand.address) (inherited : Option String) :
    (d.hidden.lookup operand language).answer inherited = none := by
  unfold Profile.lookup
  rw [visible_hidden_of_decides h]
  cases d.hidden.cpu.annotates operand.mode <;> rfl

theorem lookup_hidden (h : ¬ d.Decides operand.address) :
    d.hidden.lookup operand language = d.profile.lookup operand language := by
  unfold Profile.lookup
  rw [visible_hidden_of_not_decides h]
  rfl

/-- Switching a region by its name switches the first of that name. -/
theorem settle_eq_hidden {name : String} (h : d.Named name) :
    d.profile.settle (.single name false) = d.hidden := by
  have hswitch : ∀ before : List Region, (∀ g ∈ before, Text.foldCase g.name ≠ Text.foldCase name) →
      Region.switch? name false (before ++ d.region :: d.after) =
        some (before ++ { d.region with enabled := false } :: d.after) := by
    intro before hbefore
    induction before with
    | nil => simp [Region.switch?, Text.sameName_iff.2 h.1]
    | cons g before ih =>
      obtain ⟨hg, hbefore⟩ := List.forall_mem_cons.1 hbefore
      have hname : Text.sameName g.name name = false := by simpa [Text.sameName] using hg
      simp [Region.switch?, hname, ih hbefore]
  rw [← Profile.getD_switchRegion?, Profile.switchRegion?, d.split, hswitch d.before h.2]
  rfl

end Declared

theorem Profile.exists_declared {p : Profile} {name : String} (h : p.hasRegion name = true) :
    ∃ d : Declared, d.profile = p ∧ d.Named name := by
  obtain ⟨g, hg⟩ := Option.isSome_iff_exists.1 (List.find?_isSome.2 (List.any_eq_true.1 h))
  obtain ⟨before, after, hsplit, hname, hbefore⟩ :=
    (find?_eq_some_iff_isFirst fun g : Region => Text.sameName_iff (a := g.name) (b := name)).1 hg
  exact ⟨⟨p, before, g, after, hsplit⟩, rfl, hname, hbefore⟩

/-! ## Look-ups -/

namespace Declared

/-- What becomes of a profile when the region is switched off. -/
def swap (d : Declared) (p : Profile) : Profile := if p = d.profile then d.hidden else p

variable {d : Declared} {operand : Operand} {language : Language}

/-- A look-up that comes as far as the region has no answer any more. -/
theorem resolveIn_map_swap_eq_none {nearer farther : List Profile} (hd : d.Decides operand.address)
    (hnearer : ∀ p ∈ nearer, ∀ text, p.lookup operand language ≠ .found text) :
    Registry.resolveIn operand language ((nearer ++ d.profile :: farther).map d.swap) = none := by
  induction nearer with
  | nil => simp [swap, Registry.resolveIn_cons, answer_lookup_hidden hd]
  | cons p nearer ih =>
    obtain ⟨hp, hnearer⟩ := List.forall_mem_cons.1 hnearer
    rw [List.cons_append, List.map_cons, Registry.resolveIn_cons]
    by_cases heq : p = d.profile
    · rw [swap, if_pos heq, answer_lookup_hidden hd]
    · rw [swap, if_neg heq, ih hnearer]
      cases hl : p.lookup operand language with
      | found text => exact absurd hl (hp text)
      | miss => rfl
      | hidden => rfl
      | ineligible => rfl

/-- A look-up differs only if the region decides and every nearer profile leaves the answer open. -/
theorem decides_of_resolveIn_map_swap_ne {ps : List Profile}
    (h : Registry.resolveIn operand language (ps.map d.swap) ≠ Registry.resolveIn operand language ps) :
    d.Decides operand.address ∧ ∃ nearer farther, ps = nearer ++ d.profile :: farther ∧
      ∀ p ∈ nearer, p.lookup operand language = .miss := by
  induction ps with
  | nil => exact absurd rfl h
  | cons p ps ih =>
    by_cases hp : p = d.profile ∧ d.Decides operand.address
    · obtain ⟨rfl, hd⟩ := hp
      exact ⟨hd, [], ps, rfl, by simp⟩
    · have hlookup : (d.swap p).lookup operand language = p.lookup operand language := by
        by_cases heq : p = d.profile
        · rw [swap, if_pos heq, lookup_hidden fun hd => hp ⟨heq, hd⟩, heq]
        · rw [swap, if_neg heq]
      rw [List.map_cons, Registry.resolveIn_cons, Registry.resolveIn_cons, hlookup] at h
      -- the answers differ, so the profile leaves them to the rest
      cases hl : p.lookup operand language with
      | miss =>
        rw [hl] at h
        obtain ⟨hd, nearer, farther, rfl, hnearer⟩ := ih h
        exact ⟨hd, p :: nearer, farther, rfl, List.forall_mem_cons.2 ⟨hl, hnearer⟩⟩
      | found text => rw [hl] at h; exact absurd rfl h
      | hidden => rw [hl] at h; exact absurd rfl h
      | ineligible => rw [hl] at h; exact absurd rfl h

end Declared

/-! ## Registries -/

namespace Registry

/-- `s` is `r` with one region switched off, and nothing else changed. -/
structure SwitchesOff (r : Registry) (d : Declared) (s : Registry) : Prop where
  declared : r.get? d.profile.id = some d.profile
  changed : s.get? d.profile.id = some d.hidden
  kept : ∀ i, i ≠ d.profile.id → s.get? i = r.get? i

variable {r s : Registry} {d : Declared}

theorem SwitchesOff.chain (h : r.SwitchesOff d s) (hr : Closed r) (id : ProfileId) :
    s.chain id = (r.chain id).map d.swap := by
  have walk : ∀ n next, s.ancestry n next = (r.ancestry n next).map d.swap := by
    intro n
    induction n with
    | zero => exact fun _ => rfl
    | succ n ih =>
      intro next
      cases next with
      | none => rfl
      | some j =>
        by_cases hj : j = d.profile.id
        · subst hj
          simp [ancestry, h.declared, h.changed, ih, Declared.swap, Declared.hidden]
        · cases hp : r.get? j with
          | none => simp [ancestry, h.kept j hj, hp]
          | some p =>
            have hne : p ≠ d.profile := by
              rintro rfl
              exact hj (hr.named j _ hp).symm
            simp [ancestry, h.kept j hj, hp, hne, Declared.swap, ih]
  exact walk maxDepth (some id)

/-- Switching a region off changes the first region of the name on the nearest profile that has one. -/
theorem Closed.exists_switchesOff (hr : Closed r) {id : ProfileId} {name : String}
    (h : r.switchRegion? id name false = some s) :
    ∃ d : Declared, d.Named name ∧
      IsFirst (fun p : Profile => p.hasRegion name = true) (r.chain id) d.profile ∧ r.SwitchesOff d s := by
  obtain ⟨q, hq, rfl⟩ := hr.switchRegion?_eq_some_iff.1 h
  obtain ⟨before, after, hchain, hdeclares, hbefore⟩ := hq
  obtain ⟨d, rfl, hname⟩ := Profile.exists_declared hdeclares
  have hmem : d.profile ∈ r.chain id := by
    rw [hchain]
    exact List.mem_append_right _ List.mem_cons_self
  have hget := hr.get?_of_mem_chain hmem
  refine ⟨d, hname, ⟨before, after, hchain, hdeclares, hbefore⟩, hget, ?_, ?_⟩
  · rw [get?_modify, if_pos rfl, hget, Option.map_some, Declared.settle_eq_hidden hname]
  · intro i hi
    rw [get?_modify, if_neg hi]

/-- A look-up from `id` comes to the region: it decides about the address of the operand, and all profiles
nearer than its own are passed over. -/
def Meets (r : Registry) (d : Declared) (id : ProfileId) (address : UInt16) (passed : Profile → Prop) : Prop :=
  d.Decides address ∧ ∃ nearer farther, r.chain id = nearer ++ d.profile :: farther ∧ ∀ p ∈ nearer, passed p

end Registry

/-! ## Listings -/

namespace Disassembly

/-- A line takes nothing from the comments but its own comment. -/
theorem Step.line_parts (step : Step) (comment? comment?' : Operand → Option String) :
    (step.line comment?').address = (step.line comment?).address ∧
      (step.line comment?').bytes = (step.line comment?).bytes ∧
      (step.line comment?').mnemonic = (step.line comment?).mnemonic ∧
      (step.line comment?').operand = (step.line comment?).operand ∧
      (step.line comment?').kind = (step.line comment?).kind := by
  cases step <;> exact ⟨rfl, rfl, rfl, rfl, rfl⟩

theorem Step.comment_line (step : Step) (comment? : Operand → Option String) :
    (step.line comment?).comment = (step.operand?.bind comment?).getD "" := by
  cases step <;> rfl

/-- The line of a step before and after a region is switched off, seen from the profile called `id`: only
the comment may differ, it does so only if the look-up meets the region after profiles that leave the answer
open, and it is empty wherever the look-up meets the region after profiles that have no text. -/
structure Veiled (r : Registry) (d : Declared) (id : ProfileId) (language : Language) (step : Step)
    (line line' : Line) : Prop where
  address : line'.address = line.address
  bytes : line'.bytes = line.bytes
  mnemonic : line'.mnemonic = line.mnemonic
  operand : line'.operand = line.operand
  kind : line'.kind = line.kind
  meets : line'.comment ≠ line.comment → ∃ operand, step.operand? = some operand ∧
    r.Meets d id operand.address fun p => p.lookup operand language = .miss
  comment : ∀ operand, step.operand? = some operand →
    (r.Meets d id operand.address fun p => ∀ text, p.lookup operand language ≠ .found text) →
    line'.comment = ""

open Registry (Closed Reachable SwitchesOff)

variable {r s : Registry} {d : Declared}

theorem veiled_line (h : r.SwitchesOff d s) (hr : Closed r) (id : ProfileId) (language : Language) (step : Step) :
    Veiled r d id language step (step.line (View.comment? ⟨r, id, language⟩))
      (step.line (View.comment? ⟨s, id, language⟩)) := by
  obtain ⟨haddress, hbytes, hmnemonic, hoperand, hkind⟩ :=
    step.line_parts (View.comment? ⟨r, id, language⟩) (View.comment? ⟨s, id, language⟩)
  have hafter : ∀ operand, View.comment? ⟨s, id, language⟩ operand =
      Registry.resolveIn operand language ((r.chain id).map d.swap) := by
    intro operand
    rw [View.comment?, Registry.resolve, h.chain hr]
  refine ⟨haddress, hbytes, hmnemonic, hoperand, hkind, ?_, ?_⟩
  · intro hne
    rw [Step.comment_line, Step.comment_line] at hne
    cases hop : step.operand? with
    | none => rw [hop] at hne; exact absurd rfl hne
    | some operand =>
      rw [hop, Option.bind_some, Option.bind_some, hafter] at hne
      exact ⟨operand, rfl, Declared.decides_of_resolveIn_map_swap_ne fun heq => hne (congrArg (·.getD "") heq)⟩
  · rintro operand hop ⟨hd, nearer, farther, hchain, hnearer⟩
    rw [Step.comment_line, hop, Option.bind_some, hafter, hchain,
      Declared.resolveIn_map_swap_eq_none hd hnearer]
    rfl

/-- Whether a listing can be made does not depend on which regions are on. -/
theorem error?_of_switchesOff (h : r.SwitchesOff d s) (id : ProfileId) (language : Language)
    (decoder : Decoder) : View.error? ⟨s, id, language⟩ decoder = View.error? ⟨r, id, language⟩ decoder := by
  unfold View.error?
  by_cases hid : id = d.profile.id
  · subst hid
    simp [h.declared, h.changed, Declared.hidden]
  · simp [h.kept id hid]

/-- Switching a region off in any registry that changes lead to. If no profile from `id` on has a region of
the name, the switch is refused and the registry stays. Else the first region of the name on the nearest
profile that has one is off, and nothing else in the registry changes; then from every profile, for every
decoder and window, the listing fails as before or has the lines of before, each as `Veiled` says. -/
theorem listing_of_switchRegion_off (hr : Reachable r) (id : ProfileId) (name : String) :
    r.switchRegion? id name false = none ∧ r.apply (.switchRegion id name false) = r ∧
        (∀ p ∈ r.chain id, p.hasRegion name = false) ∨
      ∃ s d, r.switchRegion? id name false = some s ∧ r.apply (.switchRegion id name false) = s ∧
        IsFirst (fun p : Profile => p.hasRegion name = true) (r.chain id) d.profile ∧ d.Named name ∧
        r.SwitchesOff d s ∧
        ∀ (id' : ProfileId) (language : Language) (decoder : Decoder) (w : Window),
          (∃ e, View.listing ⟨r, id', language⟩ decoder w = .error e ∧
            View.listing ⟨s, id', language⟩ decoder w = .error e) ∨
          View.listing ⟨r, id', language⟩ decoder w =
              .ok ((windowSteps decoder w).map (·.line (View.comment? ⟨r, id', language⟩))) ∧
            View.listing ⟨s, id', language⟩ decoder w =
              .ok ((windowSteps decoder w).map (·.line (View.comment? ⟨s, id', language⟩))) ∧
            ∀ step ∈ windowSteps decoder w,
              Veiled r d id' language step (step.line (View.comment? ⟨r, id', language⟩))
                (step.line (View.comment? ⟨s, id', language⟩)) := by
  have hclosed := Registry.reachable_closed hr
  cases hs : r.switchRegion? id name false with
  | none =>
    refine .inl ⟨rfl, ?_, Registry.switchRegion?_eq_none_iff.1 hs⟩
    rw [Registry.apply, hs, Option.getD_none]
  | some s =>
    obtain ⟨d, hname, hfirst, hoff⟩ := hclosed.exists_switchesOff hs
    refine .inr ⟨s, d, rfl, ?_, hfirst, hname, hoff, fun id' language decoder w => ?_⟩
    · rw [Registry.apply, hs, Option.getD_some]
    · unfold View.listing
      rw [error?_of_switchesOff hoff]
      cases View.error? ⟨r, id', language⟩ decoder with
      | some e => exact .inl ⟨e, rfl, rfl⟩
      | none => exact .inr ⟨rfl, rfl, fun step _ => veiled_line hoff hclosed id' language step⟩

/-- A program that reads a port and a sound register. -/
def portReads : Window := ⟨[0xAD, 0x20, 0xD0, 0xAD, 0xF8, 0xD7], 0, 6, 0x1000⟩

/-- The ports are switched off from the game. The comment on a port is gone; the one on a sound register
stays, since the sound region of the board comes before the ports. -/
theorem listing_of_switchRegion_off_gameBoard :
    let r := (Registry.gameBoard.take 3).foldl Registry.apply .empty
    let game := ProfileId.user "game"
    Reachable r ∧ ∃ s d, r.switchRegion? game "PORTS" false = some s ∧ r.SwitchesOff d s ∧
      View.listing ⟨r, game, .english⟩ Mos6502.decoder portReads =
        .ok [.instruction 0x1000 [0xAD, 0x20, 0xD0] "LDA" "$D020" "border",
          .instruction 0x1003 [0xAD, 0xF8, 0xD7] "LDA" "$D7F8" "chips"] ∧
      View.listing ⟨s, game, .english⟩ Mos6502.decoder portReads =
        .ok [.instruction 0x1000 [0xAD, 0x20, 0xD0] "LDA" "$D020" "",
          .instruction 0x1003 [0xAD, 0xF8, 0xD7] "LDA" "$D7F8" "chips"] ∧
      ∀ step ∈ windowSteps Mos6502.decoder portReads,
        Veiled r d game .english step (step.line (View.comment? ⟨r, game, .english⟩))
          (step.line (View.comment? ⟨s, game, .english⟩)) := by
  intro r game
  have hreach : Reachable r := Registry.reachable_foldl .empty _
  have hbefore : View.listing ⟨r, game, .english⟩ Mos6502.decoder portReads =
      .ok [.instruction 0x1000 [0xAD, 0x20, 0xD0] "LDA" "$D020" "border",
        .instruction 0x1003 [0xAD, 0xF8, 0xD7] "LDA" "$D7F8" "chips"] := by
    rw [View.listing_eq_ok_iff]
    decide +kernel
  rcases listing_of_switchRegion_off hreach game "PORTS" with
    ⟨hnone, -⟩ | ⟨s, d, hs, happly, -, -, hoff, hlistings⟩
  · exact absurd hnone (by decide +kernel)
  · rcases hlistings game .english Mos6502.decoder portReads with ⟨e, he, -⟩ | ⟨-, -, hveiled⟩
    · rw [hbefore] at he
      cases he
    · subst happly
      refine ⟨hreach, _, d, hs, hoff, hbefore, ?_, hveiled⟩
      rw [View.listing_eq_ok_iff]
      decide +kernel

end Disassembly

end RetroListing
