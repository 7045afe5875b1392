/-
Regions switched in turn. Whatever switches are made, the first region of each name ends as the last switch
of that name says, and all else stays (`switchRegions_eq_settle`). So what a run of switches does to a
registry is a choice for each profile and name (`Settled`), and the chains of the registry stay as they
were but for these choices (`Settled.chain`).
-/
import RetroListing.Proofs.Profile.Delegation
import RetroListing.Settings.Basic

namespace RetroListing

/-- What is to become of the regions of a name, which is given in lower case; `none` leaves them as they
are. -/
abbrev Switching : Type := List Char → Option Bool

/-- One switch. -/
def Switching.single (name : String) (enabled : Bool) : Switching :=
  fun n => if n = Text.foldCase name then some enabled else none

/-- `a` stands in the list and has the property, and nothing after it has. -/
def IsLast {α : Type} (P : α → Prop) (l : List α) (a : α) : Prop :=
  ∃ before after, l = before ++ a :: after ∧ P a ∧ ∀ b ∈ after, ¬ P b

theorem isFirst_cons_iff {α : Type} {P : α → Prop} {a b : α} {l : List α} :
    IsFirst P (b :: l) a ↔ a = b ∧ P b ∨ ¬ P b ∧ IsFirst P l a := by
  constructor
  · rintro ⟨before, after, hl, ha, hbefore⟩
    cases before with
    | nil =>
      obtain ⟨rfl, rfl⟩ := List.cons.inj hl
      exact .inl ⟨rfl, ha⟩
    | cons c before =>
      obtain ⟨rfl, rfl⟩ := List.cons.inj hl
      obtain ⟨hb, hbefore⟩ := List.forall_mem_cons.1 hbefore
      exact .inr ⟨hb, before, after, rfl, ha, hbefore⟩
  · rintro (⟨rfl, ha⟩ | ⟨hb, before, after, rfl, ha, hbefore⟩)
    · exact ⟨[], l, rfl, ha, by simp⟩
    · exact ⟨b :: before, after, rfl, ha, List.forall_mem_cons.2 ⟨hb, hbefore⟩⟩

/-- The last of a list for which a test says yes. -/
def findLast? {α : Type} (f : α → Bool) (l : List α) : Option α := l.reverse.find? f

theorem findLast?_cons {α : Type} (f : α → Bool) (a : α) (l : List α) :
    findLast? f (a :: l) = (findLast? f l).or (if f a then some a else none) := by
  rw [findLast?, findLast?, List.reverse_cons, List.find?_append, List.find?_singleton]

theorem findLast?_eq_none_iff {α : Type} {f : α → Bool} {l : List α} :
    findLast? f l = none ↔ ∀ a ∈ l, f a = false := by
  simp [findLast?]

theorem findLast?_eq_some_iff_isLast {α : Type} {P : α → Prop} {f : α → Bool} (hf : ∀ a, f a = true ↔ P a)
    {l : List α} {a : α} : findLast? f l = some a ↔ IsLast P l a := by
  rw [findLast?, find?_eq_some_iff_isFirst hf]
  constructor
  · rintro ⟨before, after, hl, ha, hbefore⟩
    refine ⟨after.reverse, before.reverse, ?_, ha, fun b hb => hbefore b (List.mem_reverse.1 hb)⟩
    rw [← List.reverse_reverse l, hl]
    simp
  · rintro ⟨before, after, rfl, ha, hafter⟩
    exact ⟨after.reverse, before.reverse, by simp, ha, fun b hb => hafter b (List.mem_reverse.1 hb)⟩

theorem IsLast.mem {α : Type} {P : α → Prop} {l : List α} {a : α} (h : IsLast P l a) : a ∈ l ∧ P a := by
  obtain ⟨before, after, rfl, ha, -⟩ := h
  exact ⟨List.mem_append_right _ List.mem_cons_self, ha⟩

namespace Switching

/-- What a run of switches makes of a name: of those that are let through, the last of the name decides. -/
def lastOf {α : Type} (guard : α → Bool) (switch : α → String × Bool) (l : List α) : Switching :=
  fun n => (findLast? (fun a => guard a ∧ Text.foldCase (switch a).1 = n) l).map fun a => (switch a).2

/-- What a run of switches makes of a name: the last switch of the name decides. -/
def last (switches : List (String × Bool)) : Switching := lastOf (fun _ => true) id switches

section

variable {α : Type} {guard : α → Bool} {switch : α → String × Bool} {l : List α} {n : List Char}

theorem lastOf_cons (a : α) :
    lastOf guard switch (a :: l) n =
      (lastOf guard switch l n).or (if guard a then single (switch a).1 (switch a).2 n else none) := by
  simp only [lastOf, findLast?_cons, Option.map_or, single]
  congr 1
  by_cases hg : guard a <;> by_cases hn : n = Text.foldCase (switch a).1
  · simp [hg, hn]
  · simp [hg, hn, Ne.symm hn]
  · simp [hg]
  · simp [hg]

theorem lastOf_eq_none_iff :
    lastOf guard switch l n = none ↔ ∀ a ∈ l, guard a = true → Text.foldCase (switch a).1 ≠ n := by
  simp [lastOf, findLast?_eq_none_iff]

theorem lastOf_eq_some_iff {enabled : Bool} :
    lastOf guard switch l n = some enabled ↔
      ∃ a, IsLast (fun a => guard a = true ∧ Text.foldCase (switch a).1 = n) l a ∧ (switch a).2 = enabled := by
  have h : ∀ a, findLast? (fun a => guard a ∧ Text.foldCase (switch a).1 = n) l = some a ↔
      IsLast (fun a => guard a = true ∧ Text.foldCase (switch a).1 = n) l a :=
    fun a => findLast?_eq_some_iff_isLast fun a => by simp
  simp only [lastOf, Option.map_eq_some_iff, h]

end

theorem last_cons (s : String × Bool) (switches : List (String × Bool)) (n : List Char) :
    last (s :: switches) n = (last switches n).or (single s.1 s.2 n) := by
  simp [last, lastOf_cons]

theorem last_eq_none_iff {l : List (String × Bool)} {n : List Char} :
    last l n = none ↔ ∀ s ∈ l, Text.foldCase s.1 ≠ n := by
  simp [last, lastOf_eq_none_iff]

theorem last_eq_some_iff {l : List (String × Bool)} {n : List Char} {enabled : Bool} :
    last l n = some enabled ↔ ∃ name, IsLast (fun s => Text.foldCase s.1 = n) l (name, enabled) := by
  simp [last, lastOf_eq_some_iff]

/-- The switching for the regions after the first of a name. -/
def after (f : Switching) (name : String) : Switching :=
  fun n => if n = Text.foldCase name then none else f n

end Switching

/-! ## Regions -/

namespace Region

open Switching (single)

/-- The regions with the first of each name switched. -/
def settle (f : Switching) : List Region → List Region
  | [] => []
  | r :: rest =>
    { r with enabled := (f (Text.foldCase r.name)).getD r.enabled } :: settle (f.after r.name) rest

@[simp] theorem settle_none (rs : List Region) : settle (fun _ => none) rs = rs := by
  induction rs with
  | nil => rfl
  | cons r rest ih =>
    have hafter : Switching.after (fun _ => none) r.name = fun _ => none := by
      funext n
      simp [Switching.after]
    simp [settle, hafter, ih]

/-- Of two switchings in turn the second decides. -/
theorem settle_settle (f g : Switching) (rs : List Region) :
    settle g (settle f rs) = settle (fun n => (g n).or (f n)) rs := by
  induction rs generalizing f g with
  | nil => rfl
  | cons r rest ih =>
    simp only [settle, ih, Option.getD_or, List.cons.injEq, true_and]
    congr 1
    funext n
    simp only [Switching.after]
    split <;> rfl

theorem getD_switch? (name : String) (enabled : Bool) (rs : List Region) :
    (switch? name enabled rs).getD rs = settle (single name enabled) rs := by
  induction rs with
  | nil => rfl
  | cons r rest ih =>
    rw [switch?, settle]
    by_cases h : Text.foldCase r.name = Text.foldCase name
    · -- the switch is used up: what comes after the region stays
      have hafter : (single name enabled).after r.name = fun _ => none := by
        funext n
        simp [Switching.after, single, h]
      simp [Text.sameName_iff.2 h, single, h, hafter]
    · have hafter : (single name enabled).after r.name = single name enabled := by
        funext n
        simp only [Switching.after, single]
        grind
      have hname : Text.sameName r.name name = false := by simpa [Text.sameName] using h
      rw [hname, hafter, ← ih]
      cases switch? name enabled rest <;> simp [single, h]

theorem map_name_settle (f : Switching) (rs : List Region) :
    (settle f rs).map Region.name = rs.map Region.name := by
  induction rs generalizing f with
  | nil => rfl
  | cons r rest ih => simp [settle, ih]

/-- Two switchings do the same exactly when they make the same of the first region of each name. -/
theorem settle_eq_iff {f g : Switching} {rs : List Region} :
    settle f rs = settle g rs ↔
      ∀ r, IsFirst (fun s => Text.foldCase s.name = Text.foldCase r.name) rs r →
        (f (Text.foldCase r.name)).getD r.enabled = (g (Text.foldCase r.name)).getD r.enabled := by
  induction rs generalizing f g with
  | nil => simp [settle, IsFirst]
  | cons r rest ih =>
    simp only [settle, List.cons.injEq, mk.injEq, true_and, ih, isFirst_cons_iff, Switching.after]
    constructor
    · rintro ⟨hr, hrest⟩ s (⟨rfl, -⟩ | ⟨hne, hs⟩)
      · exact hr
      · simpa [Ne.symm hne] using hrest s hs
    · intro h
      refine ⟨h r (.inl ⟨rfl, rfl⟩), fun s hs => ?_⟩
      by_cases hs' : Text.foldCase s.name = Text.foldCase r.name
      · simp [hs']
      · simpa [hs'] using h s (.inr ⟨Ne.symm hs', hs⟩)

/-- Where no name comes twice every region is switched by its name. -/
theorem settle_eq_map {f : Switching} {rs : List Region} (h : (rs.map fun r => Text.foldCase r.name).Nodup) :
    settle f rs = rs.map fun r => { r with enabled := (f (Text.foldCase r.name)).getD r.enabled } := by
  induction rs generalizing f with
  | nil => rfl
  | cons r rest ih =>
    obtain ⟨hr, hrest⟩ := List.nodup_cons.1 h
    rw [settle, ih hrest, List.map_cons]
    congr 1
    refine List.map_congr_left fun s hs => ?_
    have hne : Text.foldCase s.name ≠ Text.foldCase r.name := by
      intro e
      exact hr (List.mem_map.2 ⟨s, hs, e⟩)
    simp [Switching.after, hne]

end Region

/-! ## Profiles -/

namespace Profile

/-- The profile with the first region of each name switched. -/
def settle (f : Switching) (p : Profile) : Profile := { p with regions := Region.settle f p.regions }

@[simp] theorem id_settle (f : Switching) (p : Profile) : (p.settle f).id = p.id := rfl

@[simp] theorem settle_none (p : Profile) : p.settle (fun _ => none) = p := by
  simp [settle]

theorem settle_settle (f g : Switching) (p : Profile) :
    (p.settle f).settle g = p.settle fun n => (g n).or (f n) := by
  simp [settle, Region.settle_settle]

theorem getD_switchRegion? (p : Profile) (name : String) (enabled : Bool) :
    (p.switchRegion? name enabled).getD p = p.settle (.single name enabled) := by
  rw [settle, ← Region.getD_switch?, switchRegion?]
  cases Region.switch? name enabled p.regions <;> rfl

/-- After switches in turn the last one of each name counts. -/
theorem switchRegions_eq_settle (p : Profile) (switches : List (String × Bool)) :
    p.switchRegions switches = p.settle (.last switches) := by
  induction switches generalizing p with
  | nil => exact p.settle_none.symm
  | cons s switches ih =>
    show ((p.switchRegion? s.1 s.2).getD p).switchRegions switches = _
    rw [ih, getD_switchRegion?, settle_settle]
    congr 1
    funext n
    rw [Switching.last_cons]

/-- A profile is switched exactly when it has a region of the name. -/
theorem switchRegion?_eq (p : Profile) (name : String) (enabled : Bool) :
    p.switchRegion? name enabled =
      if p.hasRegion name then some (p.settle (.single name enabled)) else none := by
  have hnone : Region.switch? name enabled p.regions = none ↔ p.hasRegion name = false := by
    rw [hasRegion]
    induction p.regions with
    | nil => simp [Region.switch?]
    | cons r rest ih =>
      rw [Region.switch?, List.any_cons]
      cases Text.sameName r.name name with
      | true => simp
      | false => simpa using ih
  rw [← getD_switchRegion?, switchRegion?]
  cases hs : Region.switch? name enabled p.regions with
  | none => rw [hnone.1 hs]; rfl
  | some rs =>
    have : p.hasRegion name = true := by
      rw [← Bool.not_eq_false, ← hnone, hs]
      exact Option.some_ne_none rs
    simp [this]

@[simp] theorem hasRegion_settle (f : Switching) (p : Profile) (name : String) :
    (p.settle f).hasRegion name = p.hasRegion name := by
  have h : ∀ q : Profile, q.hasRegion name = (q.regions.map Region.name).any (Text.sameName · name) := by
    intro q
    rw [List.any_map]
    rfl
  rw [h, h, settle, Region.map_name_settle]

end Profile

/-! ## Registries -/

namespace Registry

theorem ext_get? {r s : Registry} (h : ∀ id, r.get? id = s.get? id) : r = s := by
  cases r
  cases s
  exact congrArg mk (OrderedMap.ext_get? h)

/-- `r` is `b` with regions switched, those of each profile as `F` says. -/
def Settled (b : Registry) (F : ProfileId → Switching) (r : Registry) : Prop :=
  ∀ id, r.get? id = (b.get? id).map (·.settle (F id))

variable {b r : Registry} {F : ProfileId → Switching}

theorem Settled.refl (b : Registry) : Settled b (fun _ _ => none) b := fun id => by simp

/-- Of two switchings in turn the second decides. -/
theorem Settled.trans {G : ProfileId → Switching} {s : Registry} (h : Settled b F r) (h' : Settled r G s) :
    Settled b (fun i n => (G i n).or (F i n)) s := fun id => by
  simp [h' id, h id, Function.comp_def, Profile.settle_settle]

/-- Switching regions of one profile. -/
theorem settled_modify (r : Registry) (id : ProfileId) {f : Profile → Profile} {g : Switching}
    (hf : ∀ p, f p = p.settle g) :
    Settled r (fun i n => if i = id then g n else none) (r.modify id f) := by
  intro i
  rw [get?_modify]
  by_cases hi : i = id
  · simp [hi, funext hf]
  · simp [hi]

/-- Registries with regions switched are the same when on every profile the switchings do the same. -/
theorem Settled.eq_iff {G : ProfileId → Switching} {s : Registry} (h : Settled b F r) (h' : Settled b G s) :
    r = s ↔ ∀ id p, b.get? id = some p → Region.settle (F id) p.regions = Region.settle (G id) p.regions := by
  constructor
  · rintro rfl id p hp
    have := (h id).symm.trans (h' id)
    rw [hp] at this
    exact congrArg Profile.regions (Option.some.inj this)
  · intro heq
    refine ext_get? fun id => ?_
    rw [h id, h' id]
    cases hp : b.get? id with
    | none => rfl
    | some p => simp [Profile.settle, heq id p hp]

/-- The chains have the same profiles, but for what is switched. -/
theorem Settled.chain (h : Settled b F r) (hb : Closed b) (id : ProfileId) :
    r.chain id = (b.chain id).map fun p => p.settle (F p.id) := by
  have walk : ∀ n next, r.ancestry n next = (b.ancestry n next).map fun p => p.settle (F p.id) := by
    intro n
    induction n with
    | zero => exact fun _ => rfl
    | succ n ih =>
      intro next
      cases next with
      | none => rfl
      | some id =>
        cases hp : b.get? id with
        | none => simp [ancestry, h id, hp]
        | some p => simp [ancestry, h id, hp, ih, hb.named id p hp, Profile.settle]
  exact walk maxDepth (some id)

theorem Settled.closed (h : Settled b F r) (hb : Closed b) : Closed r :=
  hb.of_sameLinks fun id => by simp [h id, Function.comp_def, Profile.settle]

/-- A profile of a chain stands under its own name. -/
theorem Closed.get?_of_mem_chain (hr : Closed r) {id : ProfileId} {p : Profile} (hp : p ∈ r.chain id) :
    r.get? p.id = some p := by
  obtain ⟨i, hi⟩ := exists_get?_of_mem_ancestry hp
  rw [hr.named i p hi]
  exact hi

theorem switchRegion?_eq_none_iff {id : ProfileId} {name : String} {enabled : Bool} :
    r.switchRegion? id name enabled = none ↔ ∀ p ∈ r.chain id, p.hasRegion name = false := by
  simp [switchRegion?, switchedProfile?, List.findSome?_eq_none_iff, Profile.switchRegion?_eq]

/-- A region is switched on the nearest profile that has it. -/
theorem Closed.switchRegion?_eq_some_iff (hr : Closed r) {id : ProfileId} {name : String} {enabled : Bool}
    {s : Registry} :
    r.switchRegion? id name enabled = some s ↔
      ∃ q, IsFirst (fun p : Profile => p.hasRegion name = true) (r.chain id) q ∧
        s = r.modify q.id (·.settle (.single name enabled)) := by
  -- the switched profile goes back to where it was
  have hput : ∀ q ∈ r.chain id,
      r.put (q.settle (.single name enabled)) = r.modify q.id (·.settle (.single name enabled)) := by
    intro q hq
    refine ext_get? fun i => ?_
    rw [get?_put, get?_modify]
    by_cases hi : i = q.id
    · simp [hi, hr.get?_of_mem_chain hq, Profile.settle]
    · simp [hi, Profile.settle]
  have hmem : ∀ {nearer q farther}, r.chain id = nearer ++ q :: farther → q ∈ r.chain id := by
    intro nearer q farther hchain
    rw [hchain]
    exact List.mem_append_right _ List.mem_cons_self
  rw [switchRegion?, switchedProfile?, Option.map_eq_some_iff]
  simp only [List.findSome?_eq_some_iff, Profile.switchRegion?_eq, Option.ite_none_right_eq_some,
    Option.some.injEq, ite_eq_right_iff, reduceCtorEq, imp_false, IsFirst]
  constructor
  · rintro ⟨-, ⟨nearer, q, farther, hchain, ⟨hq, rfl⟩, hnearer⟩, rfl⟩
    exact ⟨q, ⟨nearer, farther, hchain, hq, hnearer⟩, hput q (hmem hchain)⟩
  · rintro ⟨q, ⟨nearer, farther, hchain, hq, hnearer⟩, rfl⟩
    exact ⟨_, ⟨nearer, q, farther, hchain, ⟨hq, rfl⟩, hnearer⟩, hput q (hmem hchain)⟩

end Registry

end RetroListing
