/-
What a look-up means. A profile answers an operand by itself, with a text or by refusing it, or leaves
the answer to its parent (`Profile.Says`, one rule for each outcome); following these rules up the line
of parents gives the answer from a profile (`Registry.Answers`). Main statement: from every profile whose
line of parents fits in a chain, a look-up gives what the profile says when its parent's look-up is what
it leaves the answer to, and so exactly the answer of the rules.
-/
import RetroListing.Proofs.Profile.Lineage

namespace RetroListing

/-! ## The first of a list -/

/-- `a` stands in the list and has the property, and nothing before it has. -/
def IsFirst {α : Type} (P : α → Prop) (l : List α) (a : α) : Prop :=
  ∃ before after, l = before ++ a :: after ∧ P a ∧ ∀ b ∈ before, ¬ P b

theorem find?_eq_some_iff_isFirst {α : Type} {P : α → Prop} {f : α → Bool} (hf : ∀ a, f a = true ↔ P a)
    {l : List α} {a : α} : l.find? f = some a ↔ IsFirst P l a := by
  rw [List.find?_eq_some_iff_append, hf]
  constructor
  · rintro ⟨ha, before, after, hl, hb⟩
    refine ⟨before, after, hl, ha, fun b hmem hP => ?_⟩
    have := hb b hmem
    rw [(hf b).2 hP] at this
    cases this
  · rintro ⟨before, after, hl, ha, hb⟩
    refine ⟨ha, before, after, hl, fun b hmem => ?_⟩
    rw [Bool.not_eq_true', ← Bool.not_eq_true, hf]
    exact hb b hmem

/-! ## One profile -/

/-- The comment that a table has on an address: the one on the address itself, and without one that of
the range entered first of those around it. -/
inductive Comment.Table.Holds (t : Table) (address : UInt16) : String → Prop
  | exact {text : String} : t.exact.get? address = some text → Holds t address text
  | range {g : Range} : t.exact.get? address = none →
      IsFirst (fun g => g.low ≤ address ∧ address ≤ g.high) t.ranges g → Holds t address g.text

theorem Comment.Table.get?_eq_some_iff_holds {t : Table} {address : UInt16} {text : String} :
    t.get? address = some text ↔ t.Holds address text := by
  have hfind : ∀ g, t.ranges.find? (·.contains address) = some g ↔
      IsFirst (fun g => g.low ≤ address ∧ address ≤ g.high) t.ranges g :=
    fun g => find?_eq_some_iff_isFirst fun g => by simp [Range.contains]
  unfold Table.get?
  cases he : t.exact.get? address with
  | some kept =>
    constructor
    · intro h
      cases h
      exact .exact he
    · rintro (h | ⟨h, -⟩)
      · rw [← h, he]
      · rw [he] at h; cases h
  | none =>
    constructor
    · intro h
      obtain ⟨g, hg, rfl⟩ := Option.map_eq_some_iff.1 h
      exact .range he ((hfind g).1 hg)
    · rintro (h | ⟨-, h⟩)
      · rw [he] at h; cases h
      · exact Option.map_eq_some_iff.2 ⟨_, (hfind _).2 h, rfl⟩

namespace Profile

/-- The region that decides about an address, the first that contains it, is switched off. -/
def Hides (p : Profile) (address : UInt16) : Prop :=
  ∃ g, IsFirst (fun g : Region => g.start ≤ address.toNat ∧ address.toNat < g.stop) p.regions g ∧
    g.enabled = false

theorem visible_eq_false_iff {p : Profile} {address : UInt16} :
    p.visible address = false ↔ p.Hides address := by
  have hfind : ∀ g, p.regions.find? (·.contains address) = some g ↔
      IsFirst (fun g : Region => g.start ≤ address.toNat ∧ address.toNat < g.stop) p.regions g :=
    fun g => find?_eq_some_iff_isFirst fun g => by simp [Region.contains]
  unfold visible Region.visible Hides
  simp only [← hfind]
  cases p.regions.find? (·.contains address) <;> simp

/-- The profile has a comment of its own on an address in a language. -/
def Comments (p : Profile) (language : Language) (address : UInt16) (text : String) : Prop :=
  ∃ t, p.tables.get? language = some t ∧ t.Holds address text

/-- What a profile says of an operand, where `inherited` is what it leaves the answer to. -/
inductive Says (p : Profile) (operand : Operand) (language : Language) (inherited : Option String) :
    Option String → Prop
  | ineligible : p.cpu.annotates operand.mode = false → Says p operand language inherited none
  | hidden : p.cpu.annotates operand.mode = true → p.Hides operand.address →
      Says p operand language inherited none
  | found {text : String} : p.cpu.annotates operand.mode = true → ¬ p.Hides operand.address →
      p.Comments language operand.address text → Says p operand language inherited (some text)
  | miss : p.cpu.annotates operand.mode = true → ¬ p.Hides operand.address →
      (∀ text, ¬ p.Comments language operand.address text) → Says p operand language inherited inherited

theorem bind_get?_eq_some_iff_comments {p : Profile} {language : Language} {address : UInt16}
    {text : String} :
    (p.tables.get? language).bind (·.get? address) = some text ↔ p.Comments language address text := by
  simp only [Option.bind_eq_some_iff, Comment.Table.get?_eq_some_iff_holds, Comments]

end Profile

/-- The answer that the outcome of a look-up in one profile gives. -/
def Lookup.answer (inherited : Option String) : Lookup → Option String
  | .found text => some text
  | .miss => inherited
  | .ineligible | .hidden => none

/-- The look-up in one profile follows the rules. -/
theorem Profile.says_iff {p : Profile} {operand : Operand} {language : Language}
    {inherited answer : Option String} :
    p.Says operand language inherited answer ↔ (p.lookup operand language).answer inherited = answer := by
  unfold Profile.lookup
  cases hcpu : p.cpu.annotates operand.mode with
  | false =>
    constructor
    · rintro (_ | ⟨h, -⟩ | ⟨h, -⟩ | ⟨h, -⟩)
      · rfl
      all_goals rw [hcpu] at h; cases h
    · rintro rfl
      exact .ineligible hcpu
  | true =>
    cases hvisible : p.visible operand.address with
    | false =>
      have hhides := visible_eq_false_iff.1 hvisible
      constructor
      · rintro (h | _ | ⟨-, h, -⟩ | ⟨-, h, -⟩)
        · rw [hcpu] at h; cases h
        · rfl
        all_goals exact absurd hhides h
      · rintro rfl
        exact .hidden hcpu hhides
    | true =>
      have hshows : ¬ p.Hides operand.address := by
        rw [← visible_eq_false_iff, hvisible]
        exact Bool.noConfusion
      cases hget : (p.tables.get? language).bind (·.get? operand.address) with
      | some text =>
        have hcomments := bind_get?_eq_some_iff_comments.1 hget
        constructor
        · rintro (h | ⟨-, h⟩ | ⟨-, -, h⟩ | ⟨-, -, h⟩)
          · rw [hcpu] at h; cases h
          · exact absurd h hshows
          · rw [← bind_get?_eq_some_iff_comments.2 h, hget]
            rfl
          · exact absurd hcomments (h text)
        · rintro rfl
          exact .found hcpu hshows hcomments
      | none =>
        have hcomments : ∀ text, ¬ p.Comments language operand.address text := by
          intro text h
          rw [← bind_get?_eq_some_iff_comments, hget] at h
          cases h
        constructor
        · rintro (h | ⟨-, h⟩ | ⟨-, -, h⟩ | _)
          · rw [hcpu] at h; cases h
          · exact absurd h hshows
          · exact absurd h (hcomments _)
          · rfl
        · rintro rfl
          exact .miss hcpu hshows hcomments

namespace Registry

/-- The first profile of a list decides, and leaves the answer to the rest where it has none. -/
theorem resolveIn_cons (operand : Operand) (language : Language) (p : Profile) (ps : List Profile) :
    resolveIn operand language (p :: ps) =
      (p.lookup operand language).answer (resolveIn operand language ps) := by
  rw [resolveIn]
  cases p.lookup operand language <;> rfl

/-! ## The line of parents -/

/-- The answer that the rules give from the profile called `id`: each profile leaves the answer to its
parent, and one without a parent leaves none. -/
inductive Answers (r : Registry) (operand : Operand) (language : Language) :
    ProfileId → Option String → Prop
  | root {id : ProfileId} {p : Profile} {answer : Option String} : r.get? id = some p →
      p.parent = none → p.Says operand language none answer → Answers r operand language id answer
  | child {id q : ProfileId} {p : Profile} {inherited answer : Option String} : r.get? id = some p →
      p.parent = some q → Answers r operand language q inherited →
      p.Says operand language inherited answer → Answers r operand language id answer

/-- The rules walk the whole line of parents. -/
theorem Lineage.answers_iff {r : Registry} {id : ProfileId} {ps : List Profile} (h : r.Lineage id ps)
    {operand : Operand} {language : Language} {answer : Option String} :
    r.Answers operand language id answer ↔ resolveIn operand language ps = answer := by
  induction h generalizing answer with
  | root hp hn =>
    rw [resolveIn_cons, ← Profile.says_iff]
    constructor
    · rintro (⟨hp', -, hs⟩ | ⟨hp', hq, -, -⟩)
      · rw [hp] at hp'; cases hp'
        exact hs
      · rw [hp] at hp'; cases hp'
        rw [hn] at hq; cases hq
    · exact .root hp hn
  | child hp hq _ ih =>
    rw [resolveIn_cons, ← Profile.says_iff]
    constructor
    · rintro (⟨hp', hn, -⟩ | ⟨hp', hq', ha, hs⟩)
      · rw [hp] at hp'; cases hp'
        rw [hq] at hn; cases hn
      · rw [hp] at hp'; cases hp'
        rw [hq] at hq'; cases hq'
        rw [ih.1 ha]
        exact hs
    · exact .child hp hq (ih.2 rfl)

@[simp] theorem ancestry_none (r : Registry) (n : Nat) : r.ancestry n none = [] := by
  cases n <;> rfl

theorem ancestry_succ {r : Registry} {id : ProfileId} {p : Profile} (hp : r.get? id = some p) (n : Nat) :
    r.ancestry (n + 1) (some id) = p :: r.ancestry n p.parent := by
  rw [ancestry, hp]

/-- A chain that is not cut is the whole line of parents. -/
theorem Closed.lineage_chain {r : Registry} (hr : Closed r) {id : ProfileId} {p : Profile}
    (hp : r.get? id = some p) (h : r.tooDeep id = false) : r.Lineage id (r.chain id) := by
  -- the induction is on the depth of the walk, which one more profile would not exceed
  have walk : ∀ (n : Nat) (id : ProfileId) (p : Profile), r.get? id = some p →
      (r.ancestry (n + 1) (some id)).length ≤ n → r.Lineage id (r.ancestry n (some id)) := by
    intro n
    induction n with
    | zero =>
      intro id p hp hle
      rw [ancestry_succ hp, List.length_cons] at hle
      omega
    | succ n ih =>
      intro id p hp hle
      rw [ancestry_succ hp, List.length_cons] at hle
      rw [ancestry_succ hp]
      cases hq : p.parent with
      | none =>
        rw [ancestry_none]
        exact .root hp hq
      | some q =>
        obtain ⟨s, hs⟩ := hr.parents id p q hp hq
        rw [hq] at hle
        exact .child hp hq (ih q s hs (by omega))
  refine walk maxDepth id p hp ?_
  simpa [tooDeep] using h

/-- A line of parents is a profile and the line of its parent, if it has one. -/
theorem Lineage.eq_cons {r : Registry} {id : ProfileId} {ps : List Profile} {p : Profile}
    (h : r.Lineage id ps) (hp : r.get? id = some p) :
    ∃ rest, ps = p :: rest ∧
      (p.parent = none ∧ rest = [] ∨ ∃ q, p.parent = some q ∧ r.Lineage q rest) := by
  cases h with
  | root hp' hn =>
    rw [hp] at hp'; cases hp'
    exact ⟨[], rfl, .inl ⟨hn, rfl⟩⟩
  | child hp' hq hl =>
    rw [hp] at hp'; cases hp'
    exact ⟨_, rfl, .inr ⟨_, hq, hl⟩⟩

/-- What a profile leaves the answer to is the look-up of its parent: the parent's chain is the rest of
its own. -/
theorem Lineage.chain_eq_cons {r : Registry} {id : ProfileId} {ps : List Profile} {p : Profile}
    (h : r.Lineage id ps) (hle : ps.length ≤ maxDepth) (hp : r.get? id = some p)
    (operand : Operand) (language : Language) :
    ∃ rest, r.chain id = p :: rest ∧ resolveIn operand language rest =
      p.parent.bind fun q => r.resolve q operand language := by
  obtain ⟨rest, rfl, hrest⟩ := h.eq_cons hp
  refine ⟨rest, h.chain_eq hle, ?_⟩
  rcases hrest with ⟨hn, rfl⟩ | ⟨q, hq, hl⟩
  · rw [hn]
    rfl
  · rw [List.length_cons] at hle
    rw [hq, Option.bind_some, resolve, hl.chain_eq (by omega)]

/-- From a profile whose line of parents fits in a chain, a look-up gives what the profile says when it
leaves the answer to the look-up of its parent, or to nobody without a parent; so it gives the answer of
the rules. -/
theorem resolve_delegates {r : Registry} {id : ProfileId} {ps : List Profile} {p : Profile}
    (hl : r.Lineage id ps) (hle : ps.length ≤ maxDepth) (hp : r.get? id = some p) (operand : Operand)
    (language : Language) (answer : Option String) :
    (r.resolve id operand language = answer ↔
      p.Says operand language (p.parent.bind fun q => r.resolve q operand language) answer) ∧
    (r.resolve id operand language = answer ↔ r.Answers operand language id answer) := by
  constructor
  · obtain ⟨rest, hchain, hrest⟩ := hl.chain_eq_cons hle hp operand language
    rw [resolve, hchain, resolveIn_cons, ← Profile.says_iff, hrest]
  · rw [resolve, hl.chain_eq hle, hl.answers_iff]

/-- A board with a sound region inside a larger one, on top of a controller of another family, and a
game on top of both. The larger region is switched off from the game, the controller is refused as a
child of the game, and the board gets a comment that it has already. -/
def gameBoard : List Change :=
  [.insert
    { id := .user "controller", cpu := .intel8048, parent := none
      tables := .ofEntries [⟨0x0400, 0x0400, .english, "reset"⟩] },
  .insert
    { id := .user "board", cpu := .mos6502, parent := some (.user "controller")
      regions := [⟨"sound", 0xD400, 0xD800, true⟩, ⟨"ports", 0xD000, 0xE000, true⟩]
      tables := .ofEntries [⟨0xD000, 0xD3FF, .english, "video"⟩, ⟨0xD300, 0xD7FF, .english, "chips"⟩,
        ⟨0xD020, 0xD020, .english, "border"⟩, ⟨0xD7F0, 0xDFFF, .english, "mirror"⟩] },
  .addOverlay "game" (.user "board") [⟨0xD020, 0xD020, .italian, "bordo"⟩],
  .switchRegion (.user "game") "PORTS" false,
  .insert { id := .user "controller", cpu := .mos6502, parent := some (.user "game") },
  .addComment (.user "board") ⟨0xD020, 0xD020, .english, "frame"⟩]

/-- From the game, an address in the sound region has the text of the first range around it, though the
larger region is off; an address on which the board has no comment is refused by the controller, which
has one. -/
theorem resolve_delegates_gameBoard :
    let r := gameBoard.foldl apply empty
    let game := ProfileId.user "game"
    (Reachable r ∧ r.tooDeep game = false) ∧
      r.Answers ⟨.absolute, 0xD7F8, 0xD7F8⟩ .english game (some "chips") ∧
      r.Answers ⟨.absolute, 0x0400, 0x0400⟩ .english game none := by
  intro r game
  have hreach : Reachable r := reachable_foldl .empty gameBoard
  have hdeep : r.tooDeep game = false := by decide +kernel
  have hp : r.get? game = some (overlayProfile "game" { id := .user "board", cpu := .mos6502, parent := none }
      (.user "board") [⟨0xD020, 0xD020, .italian, "bordo"⟩]) := by decide +kernel
  have hl := (reachable_closed hreach).lineage_chain hp hdeep
  have hle := hl.length_le_of_not_tooDeep hdeep
  exact ⟨⟨hreach, hdeep⟩, (resolve_delegates hl hle hp _ _ _).2.1 (by decide +kernel),
    (resolve_delegates hl hle hp _ _ _).2.1 (by decide +kernel)⟩

end Registry

end RetroListing
