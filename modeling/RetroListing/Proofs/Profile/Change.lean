/-
The changes that a registry goes through. A change that fails leaves the registry as it was; one that
does not either registers a profile or keeps the name and the parent of every profile (`sameLinks_apply`).
So the registries of a run keep each profile under its own name and every parent registered, whatever
the changes are (`reachable_closed`).
-/
import RetroListing.Profile.Bundled

namespace RetroListing

/-- Switching a region keeps the name and the parent of a profile. -/
theorem Profile.switchRegion?_link {p p' : Profile} {name : String} {enabled : Bool}
    (h : p.switchRegion? name enabled = some p') : p'.id = p.id ∧ p'.parent = p.parent := by
  obtain ⟨regions, -, rfl⟩ := Option.map_eq_some_iff.1 h
  exact ⟨rfl, rfl⟩

namespace Registry

/-! ## Look-ups after an update -/

@[simp] theorem get?_empty (id : ProfileId) : empty.get? id = none := rfl

@[simp] theorem get?_put (r : Registry) (p : Profile) (id : ProfileId) :
    (r.put p).get? id = if id = p.id then some p else r.get? id :=
  OrderedMap.get?_insert r.profiles p.id id p

@[simp] theorem get?_modify (r : Registry) (id id' : ProfileId) (f : Profile → Profile) :
    (r.modify id f).get? id' = if id' = id then (r.get? id').map f else r.get? id' :=
  OrderedMap.get?_modify r.profiles id id' f

/-- Every profile of a chain is registered. -/
theorem exists_get?_of_mem_ancestry {r : Registry} {a : Profile} :
    ∀ {n : Nat} {next : Option ProfileId}, a ∈ r.ancestry n next → ∃ id, r.get? id = some a
  | 0, _, h => by simp [ancestry] at h
  | _ + 1, none, h => by simp [ancestry] at h
  | n + 1, some id, h => by
    rw [ancestry] at h
    split at h
    · cases h
    · rename_i p hp
      rcases List.mem_cons.1 h with rfl | h
      · exact ⟨id, hp⟩
      · exact exists_get?_of_mem_ancestry h

/-- A registry takes a profile exactly when the parent, if there is one, is registered and no profile
of the parent's chain has the same name. -/
theorem insertError?_eq_none_iff (r : Registry) (p : Profile) :
    r.insertError? p = none ↔
      ∀ q, p.parent = some q → (∃ s, r.get? q = some s) ∧ ∀ a ∈ r.chain q, a.id ≠ p.id := by
  unfold insertError?
  cases hp : p.parent with
  | none => simp
  | some q =>
    have hc : r.profiles.contains q = (r.get? q).isSome := rfl
    cases hq : r.get? q with
    | none => simp [hc, hq]
    | some s => simp [hc, hq]

/-! ## Changes -/

/-- A change that can be asked of a registry. -/
inductive Change where
  | insert (p : Profile)
  | addOverlay (name : String) (parent : ProfileId) (entries : List Comment.Entry)
  /-- Switches a region on the nearest profile from `id` on that has it. -/
  | switchRegion (id : ProfileId) (name : String) (enabled : Bool)
  /-- Switches a region of the profile called `id` itself. -/
  | switchOwnRegion (id : ProfileId) (name : String) (enabled : Bool)
  | addComment (id : ProfileId) (e : Comment.Entry)

/-- The registry after a change; one that fails leaves it as it was. -/
def apply (r : Registry) : Change → Registry
  | .insert p => (r.insert p).toOption.getD r
  | .addOverlay name parent entries => (r.addOverlay name parent entries).toOption.getD r
  | .switchRegion id name enabled => (r.switchRegion? id name enabled).getD r
  | .switchOwnRegion id name enabled => r.modify id fun p => (p.switchRegion? name enabled).getD p
  | .addComment id e => r.modify id (·.addComment e)

/-- The registries that a run of changes passes through, the first and the last included. -/
def trace (r : Registry) : List Change → List Registry
  | [] => [r]
  | c :: cs => r :: (r.apply c).trace cs

/-- The registries that any changes lead to, from the one without profiles or the bundled one. -/
inductive Reachable : Registry → Prop
  | empty : Reachable empty
  | bundled {r : Registry} : bundled = .ok r → Reachable r
  | change {r : Registry} (c : Change) : Reachable r → Reachable (r.apply c)

theorem Reachable.trace {r s : Registry} {cs : List Change} (h : Reachable r) (hs : s ∈ r.trace cs) :
    Reachable s := by
  induction cs generalizing r with
  | nil =>
    simp only [Registry.trace, List.mem_singleton] at hs
    exact hs ▸ h
  | cons c cs ih =>
    rcases List.mem_cons.1 hs with rfl | hs
    · exact h
    · exact ih (.change c h) hs

/-- The profile that a change wants to register, if it is one that registers. -/
def Change.profile? (r : Registry) : Change → Option Profile
  | .insert p => some p
  | .addOverlay name parent entries =>
    (r.get? parent).map fun p => overlayProfile name p parent entries
  | _ => none

/-- A change that registers puts its profile in place, unless the registry does not take it. -/
theorem apply_of_profile? {r : Registry} {c : Change} {p : Profile} (h : c.profile? r = some p) :
    r.apply c = if r.insertError? p = none then r.put p else r := by
  have hi : (r.insert p).toOption.getD r = if r.insertError? p = none then r.put p else r := by
    unfold insert
    cases r.insertError? p <;> rfl
  cases c with
  | insert p' =>
    cases h
    exact hi
  | addOverlay name parent entries =>
    obtain ⟨s, hs, rfl⟩ := Option.map_eq_some_iff.1 h
    rw [← hi]
    simp only [apply, addOverlay, hs]
  | switchRegion => cases h
  | switchOwnRegion => cases h
  | addComment => cases h

/-! ## Names and parents -/

/-- Registries with the same profiles as far as names and parents go. -/
def SameLinks (r s : Registry) : Prop :=
  ∀ id, (s.get? id).map (fun p => (p.id, p.parent)) = (r.get? id).map fun p => (p.id, p.parent)

theorem SameLinks.symm {r s : Registry} (h : SameLinks r s) : SameLinks s r := fun id => (h id).symm

theorem SameLinks.get? {r s : Registry} (h : SameLinks r s) {id : ProfileId} {p : Profile}
    (hp : s.get? id = some p) : ∃ p', r.get? id = some p' ∧ p'.id = p.id ∧ p'.parent = p.parent := by
  have := h id
  rw [hp] at this
  obtain ⟨p', hp', e⟩ := Option.map_eq_some_iff.1 this.symm
  exact ⟨p', hp', (Prod.mk.inj e).1, (Prod.mk.inj e).2⟩

/-- Each profile stands under its own name, and its parent is registered. -/
structure Closed (r : Registry) : Prop where
  named : ∀ id p, r.get? id = some p → p.id = id
  parents : ∀ id p q, r.get? id = some p → p.parent = some q → ∃ s, r.get? q = some s

theorem closed_empty : Closed empty := ⟨by simp, by simp⟩

theorem Closed.of_sameLinks {r s : Registry} (hr : Closed r) (h : SameLinks r s) : Closed s := by
  constructor
  · intro id p hp
    obtain ⟨p', hp', hid, -⟩ := h.get? hp
    rw [← hid]
    exact hr.named id p' hp'
  · intro id p q hp hq
    obtain ⟨p', hp', -, hpar⟩ := h.get? hp
    obtain ⟨s', hs'⟩ := hr.parents id p' q hp' (hpar.trans hq)
    obtain ⟨t, ht, -⟩ := h.symm.get? hs'
    exact ⟨t, ht⟩

theorem Closed.put {r : Registry} {p : Profile} (hr : Closed r) (hp : r.insertError? p = none) :
    Closed (r.put p) := by
  -- a profile that is registered stays so, perhaps with another one in its place
  have keep : ∀ {q s}, r.get? q = some s → ∃ t, (r.put p).get? q = some t := by
    intro q s hs
    rw [get?_put]
    split
    · exact ⟨p, rfl⟩
    · exact ⟨s, hs⟩
  constructor
  · intro id a ha
    rw [get?_put] at ha
    split at ha
    · rename_i hid
      cases ha
      exact hid.symm
    · exact hr.named id a ha
  · intro id a q ha hq
    rw [get?_put] at ha
    split at ha
    · cases ha
      obtain ⟨⟨s, hs⟩, -⟩ := (insertError?_eq_none_iff r p).1 hp q hq
      exact keep hs
    · obtain ⟨s, hs⟩ := hr.parents id a q ha hq
      exact keep hs

/-- A change to one profile that keeps its name and parent keeps all of them. -/
theorem sameLinks_modify (r : Registry) (id : ProfileId) {f : Profile → Profile}
    (hf : ∀ p, (f p).id = p.id ∧ (f p).parent = p.parent) : SameLinks r (r.modify id f) := by
  intro id'
  rw [get?_modify]
  split
  · rw [Option.map_map]
    congr 1
    funext p
    simp [hf p]
  · rfl

/-- Switching a region keeps names and parents: the switched profile goes back to where it was. -/
theorem sameLinks_switchRegion? {r s : Registry} (hr : Closed r) {id : ProfileId} {name : String}
    {enabled : Bool} (h : r.switchRegion? id name enabled = some s) : SameLinks r s := by
  obtain ⟨p', hp', rfl⟩ := Option.map_eq_some_iff.1 h
  obtain ⟨p, hmem, hsw⟩ := List.exists_of_findSome?_eq_some hp'
  obtain ⟨hid, hpar⟩ := Profile.switchRegion?_link hsw
  obtain ⟨i, hi⟩ := exists_get?_of_mem_ancestry hmem
  -- a profile of the chain stands under its own name, so the switched one takes its place
  have hget : r.get? p.id = some p := by rw [hr.named i p hi]; exact hi
  intro j
  rw [get?_put]
  split
  · rename_i hj
    rw [hj, hid, hget]
    simp [hid, hpar]
  · rfl

/-- A change that registers nothing keeps the name and the parent of every profile. -/
theorem sameLinks_apply {r : Registry} {c : Change} (hr : Closed r) (h : c.profile? r = none) :
    SameLinks r (r.apply c) := by
  cases c with
  | insert p => cases h
  | addOverlay name parent entries =>
    have hq : r.get? parent = none := Option.map_eq_none_iff.1 h
    simp only [apply, addOverlay, hq]
    exact fun _ => rfl
  | switchRegion id name enabled =>
    simp only [apply]
    cases hs : r.switchRegion? id name enabled with
    | none => exact fun _ => rfl
    | some s => exact sameLinks_switchRegion? hr hs
  | switchOwnRegion id name enabled =>
    refine sameLinks_modify r id fun p => ?_
    cases hs : p.switchRegion? name enabled with
    | none => exact ⟨rfl, rfl⟩
    | some p' => exact Profile.switchRegion?_link hs
  | addComment id e => exact sameLinks_modify r id fun p => ⟨rfl, rfl⟩

/-- One change keeps a registry closed. -/
theorem Closed.apply {r : Registry} (hr : Closed r) (c : Change) : Closed (r.apply c) := by
  cases hc : c.profile? r with
  | none => exact hr.of_sameLinks (sameLinks_apply hr hc)
  | some p =>
    rw [apply_of_profile? hc]
    split
    · rename_i hp
      exact hr.put hp
    · exact hr

/-! ## The bundled registry -/

/-- What adding a platform does to a registry. -/
theorem addBundled_eq_ok {r s : Registry} {p : Platform} (h : r.addBundled p = .ok s) :
    ∃ entries, r.insertError? (p.bundledProfile entries) = none ∧ s = r.put (p.bundledProfile entries) := by
  unfold addBundled at h
  split at h
  · cases h
  · rename_i entries _
    unfold insert at h
    split at h
    · cases h
    · rename_i he
      cases h
      exact ⟨entries, he, rfl⟩

/-- What holds of the empty registry and is kept by every platform that is added holds of the bundled
registry. -/
theorem bundled_induction {P : Registry → Prop} {r : Registry} (h : bundled = .ok r) (h0 : P empty)
    (hs : ∀ s p entries, P s → s.insertError? (p.bundledProfile entries) = none →
      P (s.put (Platform.bundledProfile p entries))) : P r := by
  have run : ∀ (ps : List Platform) (s : Registry), P s → s.addAllBundled ps = .ok r → P r := by
    intro ps
    induction ps with
    | nil =>
      intro s hP he
      cases he
      exact hP
    | cons p ps ih =>
      intro s hP he
      rw [addAllBundled] at he
      split at he
      · cases he
      · rename_i t ht
        obtain ⟨entries, hok, rfl⟩ := addBundled_eq_ok ht
        exact ih _ (hs s p entries hP hok) he
  exact run Platform.all empty h0 h

theorem closed_bundled {r : Registry} (h : bundled = .ok r) : Closed r :=
  bundled_induction h closed_empty fun _ _ _ hP hok => hP.put hok

/-- Every registry that changes lead to keeps each profile under its own name and every parent
registered. -/
theorem reachable_closed {r : Registry} (h : Reachable r) : Closed r := by
  induction h with
  | empty => exact closed_empty
  | bundled h => exact closed_bundled h
  | change c _ ih => exact ih.apply c

end Registry

end RetroListing
