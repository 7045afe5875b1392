/-
A user's comments stacked on a profile. Putting a profile in changes only the look-ups whose chain meets
its name (`Closed.resolve_put`). Main statement: comments stacked on a profile whose line of parents is
shorter than a chain are answered first, also where that profile hides the address, everything else is
answered as before, and no other look-up changes; if the user's name is on that line the comments are
refused.
-/
import RetroListing.Proofs.Profile.Delegation

namespace RetroListing.Registry

/-! ## Look-ups that do not meet a profile -/

/-- A walk that does not meet a name is the same after a profile of that name is put in. -/
theorem Closed.ancestry_put {r : Registry} (hr : Closed r) {p : Profile} {n : Nat}
    {next : Option ProfileId} (hnext : next ≠ some p.id) (h : ∀ a ∈ r.ancestry n next, a.id ≠ p.id) :
    (r.put p).ancestry n next = r.ancestry n next := by
  induction n generalizing next with
  | zero => rfl
  | succ n ih =>
    cases next with
    | none => rfl
    | some id =>
      have hget : (r.put p).get? id = r.get? id := by
        rw [get?_put, if_neg]
        rintro rfl
        exact hnext rfl
      cases ha : r.get? id with
      | none => simp [ancestry, hget, ha]
      | some a =>
        rw [ancestry_succ ha] at h
        rw [ancestry_succ ha, ancestry_succ (hget.trans ha)]
        cases n with
        | zero => rfl
        | succ n =>
          -- the parent is registered, so it would be met next if it had the name
          have hparent : a.parent ≠ some p.id := by
            intro hq
            obtain ⟨s, hs⟩ := hr.parents id a p.id ha hq
            refine h s (List.mem_cons_of_mem a ?_) (hr.named p.id s hs)
            rw [hq, ancestry_succ hs]
            exact List.mem_cons_self
          rw [ih hparent fun b hb => h b (List.mem_cons_of_mem a hb)]

/-- A look-up from another name whose chain does not meet a name is the same after a profile of that name
is put in. -/
theorem Closed.resolve_put {r : Registry} (hr : Closed r) {p : Profile} {q : ProfileId} (hq : q ≠ p.id)
    (h : ∀ a ∈ r.chain q, a.id ≠ p.id) (operand : Operand) (language : Language) :
    (r.put p).resolve q operand language = r.resolve q operand language := by
  have hchain : (r.put p).chain q = r.chain q :=
    hr.ancestry_put (fun e => hq (Option.some.inj e)) h
  rw [resolve, resolve, hchain]

/-! ## The stacked profile -/

/-- A user's comments hide nothing: what they do not hold is left to the parent. -/
theorem answer_lookup_overlayProfile (name : String) (p : Profile) (parent : ProfileId)
    (entries : List Comment.Entry) (operand : Operand) (language : Language)
    (inherited : Option String) :
    ((overlayProfile name p parent entries).lookup operand language).answer inherited =
      if p.cpu.annotates operand.mode then
        (((Comment.Tables.ofEntries entries).get? language).bind (·.get? operand.address)).or inherited
      else none := by
  have hvisible : (overlayProfile name p parent entries).visible operand.address = true := rfl
  have hcpu : (overlayProfile name p parent entries).cpu = p.cpu := rfl
  have htables : (overlayProfile name p parent entries).tables = .ofEntries entries := rfl
  rw [Profile.lookup, hvisible, hcpu, htables]
  by_cases h : p.cpu.annotates operand.mode = true
  · rw [if_pos h, h]
    cases ((Comment.Tables.ofEntries entries).get? language).bind (·.get? operand.address) <;> rfl
  · rw [if_neg h, eq_false_of_ne_true h]
    rfl

theorem addOverlay_eq_insert {r : Registry} {parent : ProfileId} {p : Profile}
    (hp : r.get? parent = some p) (name : String) (entries : List Comment.Entry) :
    r.addOverlay name parent entries = r.insert (overlayProfile name p parent entries) := by
  rw [addOverlay, hp]

/-- A profile with a name that its parent's chain meets would be its own ancestor. -/
theorem insertError?_of_mem_chain {r : Registry} {p s : Profile} {q : ProfileId}
    (hq : p.parent = some q) (hs : r.get? q = some s) (h : p.id ∈ (r.chain q).map Profile.id) :
    r.insertError? p = some (.ownAncestor p.id) := by
  have hregistered : r.profiles.contains q = true := by
    show (r.get? q).isSome = true
    rw [hs]
    rfl
  have hmeets : (r.chain q).any (·.id = p.id) = true := by
    obtain ⟨a, ha, hid⟩ := List.mem_map.1 h
    exact List.any_eq_true.2 ⟨a, ha, decide_eq_true hid⟩
  unfold insertError?
  rw [hq]
  simp [hregistered, hmeets]

/-- Comments stacked under a user's name on a profile whose line of parents is shorter than a chain. If
the name is not on that line they are taken; from the name, a look-up answers what the comments hold, for
an operand that the profile's processor lets have a comment, and else what the profile answered; look-ups
that did not meet the name, that of the profile among them, are unchanged. If the name is on the line they
are refused. -/
theorem addOverlay_extends {r : Registry} (hr : Reachable r) {parent : ProfileId} {p : Profile}
    {ps : List Profile} (hp : r.get? parent = some p) (hl : r.Lineage parent ps)
    (hlt : ps.length < maxDepth) (name : String) (entries : List Comment.Entry) :
    (.user name ∉ ps.map Profile.id →
      ∃ s, r.addOverlay name parent entries = .ok s ∧
        (∃ o, s.get? (.user name) = some o ∧ o.id = .user name ∧ o.parent = some parent) ∧
        (∀ operand language, s.resolve (.user name) operand language =
          if p.cpu.annotates operand.mode then
            (((Comment.Tables.ofEntries entries).get? language).bind (·.get? operand.address)).or
              (r.resolve parent operand language)
          else none) ∧
        (∀ operand language, s.resolve parent operand language = r.resolve parent operand language) ∧
        ∀ q, q ≠ .user name → (∀ a ∈ r.chain q, a.id ≠ .user name) → ∀ operand language,
          s.resolve q operand language = r.resolve q operand language) ∧
    (.user name ∈ ps.map Profile.id →
      r.addOverlay name parent entries = .error (.ownAncestor (.user name)) ∧
        r.apply (.addOverlay name parent entries) = r) := by
  have hclosed := reachable_closed hr
  have hchain : r.chain parent = ps := hl.chain_eq (by omega)
  have hadd := addOverlay_eq_insert hp name entries
  let o := overlayProfile name p parent entries
  constructor
  · intro hfree
    have hok : r.insertError? o = none :=
      (insertError?_eq_none_iff_of_lineage rfl hl).2 fun h =>
        hfree (((List.take_sublist _ _).map _).subset h)
    have hself : (r.put o).get? (.user name) = some o :=
      (get?_put r o (.user name)).trans (if_pos rfl)
    -- the parent's line does not meet the name, so it stays below the comments
    have hline : (r.put o).Lineage (.user name) (o :: ps) := .child hself rfl (hl.put hclosed hfree)
    have hunchanged := fun q (hq : q ≠ ProfileId.user name) h => hclosed.resolve_put (p := o) hq h
    have hmeets : ∀ a ∈ r.chain parent, a.id ≠ .user name := by
      intro a ha hid
      rw [hchain] at ha
      exact hfree (hid ▸ List.mem_map_of_mem ha)
    have hparent : parent ≠ .user name := by
      rintro rfl
      obtain ⟨rest, hps, -⟩ := hl.eq_cons hp
      refine hmeets p ?_ (hclosed.named _ p hp)
      rw [hchain, hps]
      exact List.mem_cons_self
    refine ⟨r.put o, by rw [hadd, insert, hok], ⟨o, hself, rfl, rfl⟩, ?_, hunchanged parent hparent hmeets,
      hunchanged⟩
    intro operand language
    rw [resolve, hline.chain_eq hlt, resolveIn_cons, answer_lookup_overlayProfile, resolve, hchain]
  · intro hmem
    have herror : r.addOverlay name parent entries = .error (.ownAncestor (.user name)) := by
      rw [hadd, insert, insertError?_of_mem_chain (p := o) rfl hp (hchain ▸ hmem)]
      rfl
    refine ⟨herror, ?_⟩
    rw [apply, herror]
    rfl

/-- New comments of the game in place of its old ones: they answer at an address that the board hides, and
leave to the board what they do not hold; under the board's own name they are refused. -/
theorem addOverlay_extends_gameBoard :
    let r := gameBoard.foldl apply empty
    let board := ProfileId.user "board"
    let entries : List Comment.Entry := [⟨0xD010, 0xD02F, .english, "edge"⟩]
    (Reachable r ∧ r.tooDeep board = false ∧
      r.resolve board ⟨.absolute, 0xD020, 0xD020⟩ .english = none) ∧
    (∃ s, r.addOverlay "game" board entries = .ok s ∧
      s.resolve (.user "game") ⟨.absolute, 0xD020, 0xD020⟩ .english = some "edge" ∧
      s.resolve (.user "game") ⟨.absoluteX, 0xD400, 0xD400⟩ .english = some "chips" ∧
      s.resolve (.user "game") ⟨.immediate, 0x20, 0x20⟩ .english = none ∧
      s.resolve (.user "controller") ⟨.callAddress, 0x0400, 0x00⟩ .english = some "reset") ∧
    r.addOverlay "board" board entries = .error (.ownAncestor board) := by
  intro r board entries
  have hreach : Reachable r := reachable_foldl .empty gameBoard
  have hdeep : r.tooDeep board = false := by decide +kernel
  obtain ⟨p, hp, hcpu⟩ : ∃ p, r.get? board = some p ∧ p.cpu = .mos6502 := by
    obtain ⟨p, hp⟩ := Option.isSome_iff_exists.1 (show (r.get? board).isSome = true by decide +kernel)
    refine ⟨p, hp, Option.some.inj ?_⟩
    rw [← Option.map_some (f := Profile.cpu), ← hp]
    decide +kernel
  have hl := (reachable_closed hreach).lineage_chain hp hdeep
  have hlt : (r.chain board).length < maxDepth := by decide +kernel
  obtain ⟨s, hs, -, hgame, -, hother⟩ :=
    (addOverlay_extends hreach hp hl hlt "game" entries).1 (by decide +kernel)
  refine ⟨⟨hreach, hdeep, by decide +kernel⟩, ⟨s, hs, ?_, ?_, ?_, ?_⟩,
    ((addOverlay_extends hreach hp hl hlt "board" entries).2 (by decide +kernel)).1⟩
  · rw [hgame, hcpu]
    decide +kernel
  · rw [hgame, hcpu]
    decide +kernel
  · rw [hgame, hcpu]
    decide +kernel
  · rw [hother (.user "controller") (by decide) (by decide +kernel)]
    decide +kernel

end RetroListing.Registry
