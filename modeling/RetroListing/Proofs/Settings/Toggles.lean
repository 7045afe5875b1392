/-
Toggles that are recorded in settings and applied, against toggles that are performed at once. Settings
keep one toggle for each spelling of a name and apply them in the order of the spellings, while a profile
takes all spellings for the same region. Main statement: recording and applying does what performing does
exactly when no region is decided by another toggle than its last.
-/
import RetroListing.Proofs.Profile.Switching

namespace RetroListing

/-- The last entry of a map with a property is the one with the greatest key. -/
theorem OrderedMap.isLast_entries_iff {κ α : Type} [Ord κ] [Std.TransOrd κ] [Std.LawfulEqOrd κ]
    {m : OrderedMap κ α} {P : κ → Prop} {k : κ} {a : α} :
    IsLast (fun e => P e.1) m.entries (k, a) ↔
      m.get? k = some a ∧ P k ∧ ∀ k' a', m.get? k' = some a' → P k' → compare k' k ≠ .gt := by
  have hsorted := m.sorted
  simp only [← mem_entries_iff]
  constructor
  · rintro ⟨before, after, hl, ha, hafter⟩
    rw [hl] at hsorted ⊢
    obtain ⟨-, -, hbefore⟩ := List.pairwise_append.1 hsorted
    refine ⟨by simp, ha, fun k' a' hmem hP => ?_⟩
    rcases List.mem_append.1 hmem with hmem | hmem
    · rw [hbefore _ hmem _ List.mem_cons_self]
      nofun
    · rcases List.mem_cons.1 hmem with h | hmem
      · simp [(Prod.mk.inj h).1]
      · exact absurd hP (hafter _ hmem)
  · rintro ⟨hmem, ha, hgreatest⟩
    obtain ⟨before, after, hl⟩ := List.append_of_mem hmem
    refine ⟨before, after, hl, ha, fun e he hP => ?_⟩
    rw [hl] at hsorted hgreatest
    -- what comes after has a greater key
    have hlt : compare k e.1 = .lt := List.rel_of_pairwise_cons (List.pairwise_append.1 hsorted).2.1 he
    exact hgreatest e.1 e.2 (by simp [he]) hP (Std.OrientedCmp.gt_of_lt hlt)

/-! ## Settings -/

namespace Settings

/-- The switches that settings have for a platform. -/
def switchesFor (s : Settings) (p : Platform) : OrderedMap String Bool := (s.regions.get? p).getD .empty

/-- What settings say of the regions of each profile. -/
def switching (s : Settings) : ProfileId → Switching
  | .platform p => .last (s.switchesFor p).entries
  | .user _ => fun _ => none

/-- Settings switch the regions of each platform by the map of the platform. -/
theorem get?_apply_platform (s : Settings) (r : Registry) (p : Platform) :
    (s.apply r).get? (.platform p) =
      (r.get? (.platform p)).map (·.switchRegions (s.switchesFor p).entries) := by
  have run : ∀ (l : List (Platform × OrderedMap String Bool)) (r : Registry),
      (l.Pairwise fun a b => compare a.1 b.1 = .lt) →
      (l.foldl (fun r e => r.modify (.platform e.1) (·.switchRegions e.2.entries)) r).get? (.platform p) =
        (r.get? (.platform p)).map
          (·.switchRegions ((OrderedMap.lookupEntry p l).getD .empty).entries) := by
    intro l
    induction l with
    | nil => intro r _; simp [OrderedMap.lookupEntry, OrderedMap.empty, Profile.switchRegions]
    | cons e rest ih =>
      intro r hsorted
      obtain ⟨he, hrest⟩ := List.pairwise_cons.1 hsorted
      rw [List.foldl_cons, ih _ hrest, Registry.get?_modify, OrderedMap.lookupEntry]
      by_cases hp : p = e.1
      · -- no platform comes twice
        subst hp
        have hnone : OrderedMap.lookupEntry e.1 rest = none := OrderedMap.lookupEntry_eq_none_of_lt he
        simp [hnone, Function.comp_def, Profile.switchRegions, OrderedMap.empty]
      · simp [hp, Std.LawfulEqCmp.compare_eq_iff_eq]
  exact run s.regions.entries r s.regions.sorted

theorem get?_apply_user (s : Settings) (r : Registry) (name : String) :
    (s.apply r).get? (.user name) = r.get? (.user name) := by
  rw [apply]
  induction s.regions.entries generalizing r with
  | nil => rfl
  | cons e rest ih => simp [ih]

theorem settled_apply (s : Settings) (r : Registry) : Registry.Settled r s.switching (s.apply r) := by
  intro id
  cases id with
  | platform p => simp only [get?_apply_platform, Profile.switchRegions_eq_settle, switching]
  | user name => simp [get?_apply_user, switching]

end Settings

/-! ## Toggles in turn -/

/-- A region of a platform to be switched. -/
structure Toggle where
  platform : Platform
  name : String
  enabled : Bool
  deriving DecidableEq

namespace Toggle

/-- What toggles in turn make of the regions of each profile. -/
def switching (ts : List Toggle) : ProfileId → Switching :=
  fun i => .lastOf (fun t => i = .platform t.platform) (fun t => (t.name, t.enabled)) ts

@[simp] theorem switching_user (ts : List Toggle) (name : String) (n : List Char) :
    switching ts (.user name) n = none := by
  simp [switching, Switching.lastOf_eq_none_iff]

/-- The toggle given last for the regions of a platform called `n`, in lower case. -/
def Decides (ts : List Toggle) (p : Platform) (n : List Char) (t : Toggle) : Prop :=
  IsLast (fun t => t.platform = p ∧ Text.foldCase t.name = n) ts t

/-- The toggle given last in the greatest spelling of `n`, a name in lower case. -/
structure Survives (ts : List Toggle) (p : Platform) (n : List Char) (t : Toggle) : Prop where
  last : IsLast (fun u => u.platform = p ∧ u.name = t.name) ts t
  spelling : Text.foldCase t.name = n
  greatest : ∀ u ∈ ts, u.platform = p → Text.foldCase u.name = n → compare u.name t.name ≠ .gt

theorem switching_eq_some_iff {ts : List Toggle} {p : Platform} {n : List Char} {enabled : Bool} :
    switching ts (.platform p) n = some enabled ↔ ∃ t, Decides ts p n t ∧ t.enabled = enabled := by
  simp [switching, Switching.lastOf_eq_some_iff, Decides, eq_comm (a := p)]

theorem switching_eq_none_iff {ts : List Toggle} {p : Platform} {n : List Char} :
    switching ts (.platform p) n = none ↔ ∀ t ∈ ts, t.platform = p → Text.foldCase t.name ≠ n := by
  simp [switching, Switching.lastOf_eq_none_iff, eq_comm (a := p)]

end Toggle

/-- The registry after toggles in turn, each on the profile of its platform. -/
def Registry.perform (r : Registry) (ts : List Toggle) : Registry :=
  ts.foldl (fun r t => r.apply (.switchOwnRegion (.platform t.platform) t.name t.enabled)) r

theorem Registry.settled_perform (r : Registry) (ts : List Toggle) :
    Settled r (Toggle.switching ts) (r.perform ts) := by
  induction ts generalizing r with
  | nil => exact Settled.refl r
  | cons t ts ih =>
    have hstep := settled_modify r (.platform t.platform) (fun p => p.getD_switchRegion? t.name t.enabled)
    have hcons : Toggle.switching (t :: ts) = fun i n => (Toggle.switching ts i n).or
        (if i = .platform t.platform then Switching.single t.name t.enabled n else none) := by
      funext i n
      simp [Toggle.switching, Switching.lastOf_cons]
    rw [hcons]
    exact hstep.trans (ih _)

/-! ## Toggles on record -/

namespace Settings

/-- The settings after toggles are recorded in turn. -/
def record (ts : List Toggle) : Settings :=
  ts.foldl (fun s t => s.setRegion t.platform t.name t.enabled) default

theorem get?_switchesFor_setRegion (s : Settings) (p q : Platform) (name name' : String) (enabled : Bool) :
    ((s.setRegion p name enabled).switchesFor q).get? name' =
      if p = q ∧ name = name' then some enabled else (s.switchesFor q).get? name' := by
  by_cases hp : q = p
  · subst hp
    simp [switchesFor, setRegion, eq_comm]
  · simp [switchesFor, setRegion, hp, Ne.symm hp]

/-- For each spelling the toggle recorded last is kept. -/
theorem get?_switchesFor_record (ts : List Toggle) (p : Platform) (name : String) :
    ((record ts).switchesFor p).get? name =
      (findLast? (fun t => t.platform = p ∧ t.name = name) ts).map (·.enabled) := by
  have run : ∀ s : Settings,
      ((ts.foldl (fun s t => s.setRegion t.platform t.name t.enabled) s).switchesFor p).get? name =
        ((findLast? (fun t => t.platform = p ∧ t.name = name) ts).map (·.enabled)).or
          ((s.switchesFor p).get? name) := by
    induction ts with
    | nil => exact fun _ => rfl
    | cons t ts ih =>
      intro s
      rw [List.foldl_cons, ih, get?_switchesFor_setRegion, findLast?_cons, Option.map_or, Option.or_assoc]
      congr 1
      by_cases h : t.platform = p ∧ t.name = name <;> simp [h]
  rw [record, run]
  exact Option.or_none

theorem get?_switchesFor_record_eq_some_iff {ts : List Toggle} {p : Platform} {name : String} {enabled : Bool} :
    ((record ts).switchesFor p).get? name = some enabled ↔
      ∃ t, IsLast (fun u => u.platform = p ∧ u.name = name) ts t ∧ t.enabled = enabled := by
  have h : ∀ t, findLast? (fun t : Toggle => t.platform = p ∧ t.name = name) ts = some t ↔
      IsLast (fun u => u.platform = p ∧ u.name = name) ts t :=
    fun t => findLast?_eq_some_iff_isLast fun t => by simp
  simp only [get?_switchesFor_record, Option.map_eq_some_iff, h]

/-- The spellings on record are those of the toggles. -/
theorem exists_get?_switchesFor_record {ts : List Toggle} {p : Platform} {name : String} :
    (∃ enabled, ((record ts).switchesFor p).get? name = some enabled) ↔
      ∃ t ∈ ts, t.platform = p ∧ t.name = name := by
  rw [← Option.isSome_iff_exists, ← Option.ne_none_iff_isSome, get?_switchesFor_record, ne_eq,
    Option.map_eq_none_iff, findLast?_eq_none_iff]
  simp

/-- Of toggles on record those of the greatest spelling decide. -/
theorem switching_record_eq_some_iff {ts : List Toggle} {p : Platform} {n : List Char} {enabled : Bool} :
    (record ts).switching (.platform p) n = some enabled ↔
      ∃ t, Toggle.Survives ts p n t ∧ t.enabled = enabled := by
  simp only [switching, Switching.last_eq_some_iff,
    OrderedMap.isLast_entries_iff (P := fun k => Text.foldCase k = n)]
  constructor
  · rintro ⟨name, hget, hn, hgreatest⟩
    obtain ⟨t, hlast, ht⟩ := get?_switchesFor_record_eq_some_iff.1 hget
    obtain rfl : t.name = name := hlast.mem.2.2
    refine ⟨t, ⟨hlast, hn, fun u hu hp hu' => ?_⟩, ht⟩
    obtain ⟨on, hon⟩ := exists_get?_switchesFor_record.2 ⟨u, hu, hp, rfl⟩
    exact hgreatest u.name on hon hu'
  · rintro ⟨t, h, ht⟩
    refine ⟨t.name, get?_switchesFor_record_eq_some_iff.2 ⟨t, h.last, ht⟩, h.spelling, ?_⟩
    intro name on hon hn
    obtain ⟨u, hu, hp, rfl⟩ := exists_get?_switchesFor_record.1 ⟨on, hon⟩
    exact h.greatest u hu hp hn

theorem switching_record_eq_none_iff {ts : List Toggle} {p : Platform} {n : List Char} :
    (record ts).switching (.platform p) n = none ↔
      ∀ t ∈ ts, t.platform = p → Text.foldCase t.name ≠ n := by
  simp only [switching, Switching.last_eq_none_iff, Prod.forall, OrderedMap.mem_entries_iff]
  constructor
  · intro h t ht hp
    obtain ⟨on, hon⟩ := exists_get?_switchesFor_record.2 ⟨t, ht, hp, rfl⟩
    exact h t.name on hon
  · intro h name on hon
    obtain ⟨t, ht, hp, rfl⟩ := exists_get?_switchesFor_record.1 ⟨on, hon⟩
    exact h t ht hp

/-- A name is left the same by toggles on record and toggles in turn when the one that survives agrees
with the one given last. -/
theorem getD_switching_record_iff {ts : List Toggle} {p : Platform} {n : List Char} {enabled : Bool} :
    ((record ts).switching (.platform p) n).getD enabled =
        (Toggle.switching ts (.platform p) n).getD enabled ↔
      ∀ t u, Toggle.Decides ts p n t → Toggle.Survives ts p n u → t.enabled = u.enabled := by
  -- the same names have a toggle on either side
  have hnone : (record ts).switching (.platform p) n = none ↔ Toggle.switching ts (.platform p) n = none :=
    switching_record_eq_none_iff.trans Toggle.switching_eq_none_iff.symm
  constructor
  · intro h t u ht hu
    rw [Toggle.switching_eq_some_iff.2 ⟨t, ht, rfl⟩, switching_record_eq_some_iff.2 ⟨u, hu, rfl⟩] at h
    exact h.symm
  · intro h
    cases hd : Toggle.switching ts (.platform p) n with
    | none => rw [hnone.2 hd]
    | some on =>
      cases hs : (record ts).switching (.platform p) n with
      | none =>
        rw [hnone.1 hs] at hd
        cases hd
      | some on' =>
        obtain ⟨t, ht, rfl⟩ := Toggle.switching_eq_some_iff.1 hd
        obtain ⟨u, hu, rfl⟩ := switching_record_eq_some_iff.1 hs
        exact (h t u ht hu).symm

end Settings

/-- Some region's last toggle does not agree with the one that survives on record. -/
def Registry.Loses (r : Registry) (ts : List Toggle) : Prop :=
  ∃ p profile g t u, r.get? (.platform p) = some profile ∧
    IsFirst (fun h : Region => Text.foldCase h.name = Text.foldCase g.name) profile.regions g ∧
    Toggle.Decides ts p (Text.foldCase g.name) t ∧ Toggle.Survives ts p (Text.foldCase g.name) u ∧
    t.enabled ≠ u.enabled

namespace Settings

/-- Toggles that are recorded in turn and then applied leave a registry as performing them in turn does,
exactly when no region loses its last toggle to another spelling of its name. -/
theorem apply_record_eq_perform_iff (r : Registry) (ts : List Toggle) :
    (record ts).apply r = r.perform ts ↔ ¬ r.Loses ts := by
  rw [(settled_apply (record ts) r).eq_iff (r.settled_perform ts)]
  simp only [Region.settle_eq_iff]
  constructor
  · rintro h ⟨p, profile, g, t, u, hp, hg, ht, hu, hne⟩
    exact hne (getD_switching_record_iff.1 (h (.platform p) profile hp g hg) t u ht hu)
  · intro h id profile hp g hg
    cases id with
    | user name => rw [Toggle.switching_user, switching]
    | platform p =>
      refine getD_switching_record_iff.2 fun t u ht hu => Decidable.byContradiction fun hne => ?_
      exact h ⟨p, profile, g, t, u, hp, hg, ht, hu, hne⟩

/-- A region of the machine switched on as `sid` and then off as `SID` stays on when the toggles come from
the record: the capitals come first there. -/
theorem apply_record_ne_perform_sid :
    let r := [Registry.Change.insert (.ofPlatform .generic), .insert (.ofPlatform .c64)].foldl
      Registry.apply .empty
    let ts : List Toggle := [⟨.c64, "sid", true⟩, ⟨.c64, "SID", false⟩]
    (record ts).apply r ≠ r.perform ts ∧
      (((record ts).apply r).get? (.platform .c64)).map (·.visible 0xD418) = some true ∧
      ((r.perform ts).get? (.platform .c64)).map (·.visible 0xD418) = some false := by
  decide +kernel

end Settings

end RetroListing
