/-
Which regions a disassembly shows. The settings switch the regions of each platform by themselves, the
names of the request are looked for from the profile of the run on, and the request goes over the settings.
Main statement: in the registry of a run every region of every platform has the flag of three rules
(`Flag`), and all else is as in the bundled registry, but for the profile with the user's comments.
-/
import Mathlib.Data.List.Forall2
import RetroListing.Proofs.CommandLine.Outcome
import RetroListing.Proofs.Profile.Bundled
import RetroListing.Proofs.Settings.Toggles

namespace RetroListing

namespace Registry

/-! ## Designated regions -/

/-- From a platform on, `name` designates the region `g` of the platform `owner`: it is the name of the
region, and the nearest profile with a region of that name is that of `owner`. -/
def Designates (b : Registry) (platform : Platform) (name : String) (owner : Platform) (g : Region) : Prop :=
  Text.foldCase name = Text.foldCase g.name ∧
    ∃ p, IsFirst (fun p : Profile => ∃ h ∈ p.regions, Text.foldCase h.name = Text.foldCase name)
      (b.chain (.platform platform)) p ∧ p.id = .platform owner

/-- The nearest profile from a platform on that has a region called `name`. -/
def declaring? (b : Registry) (platform : Platform) (name : String) : Option ProfileId :=
  ((b.chain (.platform platform)).find? (·.hasRegion name)).map (·.id)

/-- What switches from a platform on make of the regions of each profile. -/
def switchingFrom (b : Registry) (platform : Platform) (switches : List (String × Bool)) :
    ProfileId → Switching :=
  fun i => .lastOf (fun s => b.declaring? platform s.1 = some i) id switches

theorem designates_iff {b : Registry} {platform : Platform} {name : String} {owner : Platform} {g : Region} :
    b.Designates platform name owner g ↔
      b.declaring? platform name = some (.platform owner) ∧ Text.foldCase name = Text.foldCase g.name := by
  have hfind : ∀ p, (b.chain (.platform platform)).find? (·.hasRegion name) = some p ↔
      IsFirst (fun p : Profile => ∃ h ∈ p.regions, Text.foldCase h.name = Text.foldCase name)
        (b.chain (.platform platform)) p :=
    fun p => find?_eq_some_iff_isFirst fun p => by simp [Profile.hasRegion, Text.sameName_iff]
  simp only [Designates, declaring?, Option.map_eq_some_iff, hfind, and_comm]

variable {b r : Registry} {F : ProfileId → Switching}

theorem Settled.declaring? (h : Settled b F r) (hb : Closed b) (platform : Platform) (name : String) :
    r.declaring? platform name = b.declaring? platform name := by
  rw [Registry.declaring?, Registry.declaring?, h.chain hb, List.find?_map, Option.map_map]
  simp [Function.comp_def]

/-- One switch goes to the profile that the name designates. -/
theorem Settled.getD_switchRegion? (h : Settled b F r) (hb : Closed b) (platform : Platform) (name : String)
    (enabled : Bool) :
    Settled b (fun i n =>
        (if b.declaring? platform name = some i then Switching.single name enabled n else none).or (F i n))
      ((r.switchRegion? (.platform platform) name enabled).getD r) := by
  rw [← h.declaring? hb]
  cases hs : r.switchRegion? (.platform platform) name enabled with
  | none =>
    have hnone : r.declaring? platform name = none := by
      rw [Registry.declaring?, Option.map_eq_none_iff, List.find?_eq_none]
      simpa using switchRegion?_eq_none_iff.1 hs
    simpa [hnone] using h
  | some s =>
    obtain ⟨q, hq, rfl⟩ := (h.closed hb).switchRegion?_eq_some_iff.1 hs
    have hsome : r.declaring? platform name = some q.id := by
      rw [Registry.declaring?, (find?_eq_some_iff_isFirst fun p => Iff.rfl).2 hq, Option.map_some]
    have hstep := settled_modify r q.id (fun p => rfl : ∀ p : Profile, _ = p.settle (.single name enabled))
    simpa [hsome, eq_comm] using h.trans hstep

end Registry

namespace CommandLine

open Registry (Settled Closed)

theorem settled_switchRegions {b r : Registry} {F : ProfileId → Switching} (h : Settled b F r) (hb : Closed b)
    (platform : Platform) (switches : List (String × Bool)) :
    Settled b (fun i n => (b.switchingFrom platform switches i n).or (F i n))
      (switchRegions r platform switches) := by
  induction switches generalizing r F with
  | nil => exact h
  | cons s switches ih =>
    simp only [Registry.switchingFrom, Switching.lastOf_cons, Option.or_assoc, decide_eq_true_eq]
    exact ih (h.getD_switchRegion? hb platform s.1 s.2)

/-! ## Flags -/

/-- The flag of a region in a run: what the request says last of it, else what the settings say under the
greatest spelling of its name, else that it is shown. -/
inductive Flag (b : Registry) (s : Settings) (q : ScanRequest) (owner : Platform) (g : Region) : Bool → Prop
  | asked {name : String} {enabled : Bool} :
      IsLast (fun a => b.Designates (q.platformIn s) a.1 owner g) q.regions (name, enabled) →
      Flag b s q owner g enabled
  | set {name : String} {enabled : Bool} :
      (∀ a ∈ q.regions, ¬ b.Designates (q.platformIn s) a.1 owner g) →
      (s.switchesFor owner).get? name = some enabled → Text.foldCase name = Text.foldCase g.name →
      (∀ name' enabled', (s.switchesFor owner).get? name' = some enabled' →
        Text.foldCase name' = Text.foldCase g.name → compare name' name ≠ .gt) →
      Flag b s q owner g enabled
  | shown :
      (∀ a ∈ q.regions, ¬ b.Designates (q.platformIn s) a.1 owner g) →
      (∀ name enabled, (s.switchesFor owner).get? name = some enabled →
        Text.foldCase name ≠ Text.foldCase g.name) →
      Flag b s q owner g true

/-- What the settings and the request together make of the regions of each profile. -/
def switchingOf (b : Registry) (s : Settings) (q : ScanRequest) : ProfileId → Switching :=
  fun i n => (b.switchingFrom (q.platformIn s) q.regions i n).or (s.switching i n)

/-- The rules give every region one flag. -/
theorem flag_iff {b : Registry} {s : Settings} {q : ScanRequest} {owner : Platform} {g : Region} {enabled : Bool} :
    Flag b s q owner g enabled ↔
      enabled = (switchingOf b s q (.platform owner) (Text.foldCase g.name)).getD true := by
  have hasked : ∀ on, b.switchingFrom (q.platformIn s) q.regions (.platform owner) (Text.foldCase g.name) =
      some on ↔ ∃ name, IsLast (fun a => b.Designates (q.platformIn s) a.1 owner g) q.regions (name, on) := by
    simp [Registry.switchingFrom, Switching.lastOf_eq_some_iff, Registry.designates_iff]
  have hsilent : b.switchingFrom (q.platformIn s) q.regions (.platform owner) (Text.foldCase g.name) = none ↔
      ∀ a ∈ q.regions, ¬ b.Designates (q.platformIn s) a.1 owner g := by
    simp [Registry.switchingFrom, Switching.lastOf_eq_none_iff, Registry.designates_iff]
  unfold switchingOf
  constructor
  · rintro (hlast | ⟨hnone, hget, hn, hgreatest⟩ | ⟨hnone, hset⟩)
    · rw [(hasked enabled).2 ⟨_, hlast⟩]
      rfl
    · have hset : s.switching (.platform owner) (Text.foldCase g.name) = some enabled :=
        Switching.last_eq_some_iff.2 ⟨_, OrderedMap.isLast_entries_iff.2 ⟨hget, hn, hgreatest⟩⟩
      rw [hsilent.2 hnone, hset]
      rfl
    · have hset : s.switching (.platform owner) (Text.foldCase g.name) = none :=
        Switching.last_eq_none_iff.2 fun e he => hset e.1 e.2 (OrderedMap.mem_entries_iff.1 he)
      rw [hsilent.2 hnone, hset]
      rfl
  · rintro rfl
    cases hfrom : b.switchingFrom (q.platformIn s) q.regions (.platform owner) (Text.foldCase g.name) with
    | some on =>
      obtain ⟨name, hlast⟩ := (hasked on).1 hfrom
      exact .asked hlast
    | none =>
      have hnone := hsilent.1 hfrom
      cases hset : s.switching (.platform owner) (Text.foldCase g.name) with
      | some on =>
        obtain ⟨name, hlast⟩ := Switching.last_eq_some_iff.1 hset
        obtain ⟨hget, hn, hgreatest⟩ :=
          (OrderedMap.isLast_entries_iff (P := fun k => Text.foldCase k = Text.foldCase g.name)).1 hlast
        exact .set hnone hget hn hgreatest
      | none =>
        refine .shown hnone fun name on hget => ?_
        exact Switching.last_eq_none_iff.1 hset (name, on) (OrderedMap.mem_entries_iff.2 hget)

theorem settled_preparedRegistry {b : Registry} (hb : Closed b) (s : Settings) (q : ScanRequest) :
    Settled b (switchingOf b s q) (preparedRegistry s q b) :=
  settled_switchRegions (s.settled_apply b) hb _ _

/-- No platform has two regions of one name. -/
theorem nodup_regions (p : Platform) : (p.regions.map fun g => Text.foldCase g.name).Nodup := by
  cases p <;> decide +kernel

theorem enabled_of_mem_regions {p : Platform} {g : Region} (hg : g ∈ p.regions) : g.enabled = true := by
  obtain ⟨_, -, rfl⟩ := List.mem_map.1 hg
  rfl

/-- Every platform is as in `b`, but that its regions have the flags of a run. -/
def HasFlags (b : Registry) (s : Settings) (q : ScanRequest) (registry : Registry) : Prop :=
  ∀ owner : Platform, ∃ p regions, b.get? (.platform owner) = some p ∧ p.regions = owner.regions ∧
    registry.get? (.platform owner) = some { p with regions } ∧
    List.Forall₂ (fun g g' => ∃ enabled, (∀ e, Flag b s q owner g e ↔ e = enabled) ∧ g' = { g with enabled })
      owner.regions regions

/-- The profile with the user's comments on top of a platform. -/
def userProfile (p : Platform) (entries : List Comment.Entry) : Profile where
  id := .user overlayName
  cpu := p.cpu
  parent := some (.platform p)
  tables := .ofEntries entries

section

variable {b : Registry} (hb : Registry.bundled = .ok b) (s : Settings) (q : ScanRequest)
include hb

theorem hasFlags_preparedRegistry : HasFlags b s q (preparedRegistry s q b) := by
  intro owner
  obtain ⟨entries, hget⟩ := Registry.get?_bundled_platform hb owner
  have hsettled := settled_preparedRegistry (Registry.closed_bundled hb) s q (.platform owner)
  rw [hget, Option.map_some] at hsettled
  refine ⟨_, _, hget, rfl, hsettled, ?_⟩
  show List.Forall₂ _ owner.regions (Region.settle _ owner.regions)
  rw [Region.settle_eq_map (nodup_regions owner), List.forall₂_map_right_iff, List.forall₂_same]
  intro g hg
  rw [enabled_of_mem_regions hg]
  exact ⟨_, fun _ => flag_iff, rfl⟩

theorem get?_preparedRegistry_user (name : String) :
    (preparedRegistry s q b).get? (.user name) = b.get? (.user name) := by
  have hsettled := settled_preparedRegistry (Registry.closed_bundled hb) s q (.user name)
  rw [Registry.get?_bundled_user hb] at hsettled ⊢
  exact hsettled

/-- The user's comments can always be stacked on a platform. -/
theorem withUserComments_preparedRegistry (entries : List Comment.Entry) :
    withUserComments (preparedRegistry s q b) (q.platformIn s) (some entries) =
      .ok ((preparedRegistry s q b).put (userProfile (q.platformIn s) entries), .user overlayName) := by
  have hbundled := Registry.closed_bundled hb
  have hclosed : Closed (preparedRegistry s q b) := (settled_preparedRegistry hbundled s q).closed hbundled
  obtain ⟨p, regions, hp, -, hget, -⟩ := hasFlags_preparedRegistry hb s q (q.platformIn s)
  have hprofile : Registry.overlayProfile overlayName { p with regions } (.platform (q.platformIn s)) entries =
      userProfile (q.platformIn s) entries := by
    obtain ⟨own, hown⟩ := Registry.get?_bundled_platform hb (q.platformIn s)
    obtain rfl : _ = p := Option.some.inj (hown.symm.trans hp)
    rfl
  have hok : (preparedRegistry s q b).insertError? (userProfile (q.platformIn s) entries) = none := by
    refine (Registry.insertError?_eq_none_iff _ _).2 fun parent hparent => ?_
    cases hparent
    refine ⟨⟨_, hget⟩, fun a ha hid => ?_⟩
    -- no profile of the chain has a user's name
    have hnone := get?_preparedRegistry_user hb s q overlayName
    rw [Registry.get?_bundled_user hb, ← show a.id = .user overlayName from hid,
      hclosed.get?_of_mem_chain ha] at hnone
    cases hnone
  rw [withUserComments, Registry.addOverlay, hget]
  simp only [hprofile, Registry.insert, hok]
  rfl

/-- Only the user's comments can keep a registry from being loaded. -/
theorem registryOf_eq (read : FileReader Id) :
    registryOf read s q = (fun
      | none => (preparedRegistry s q b, .platform (q.platformIn s))
      | some entries =>
        ((preparedRegistry s q b).put (userProfile (q.platformIn s) entries), .user overlayName)) <$>
      userCommentsOf read (q.commentsIn s) := by
  unfold registryOf
  rw [hb]
  cases userCommentsOf read (q.commentsIn s) with
  | error e => rfl
  | ok entries =>
    cases entries with
    | none => rfl
    | some entries =>
      show Except.mapError _ (withUserComments _ _ (some entries)) = _
      rw [withUserComments_preparedRegistry hb]
      rfl

end

theorem userCommentsOf_eq_ok_iff {read : FileReader Id} {path : Option String}
    {entries : Option (List Comment.Entry)} :
    userCommentsOf read path = .ok entries ↔
      path = none ∧ entries = none ∨
        ∃ file es, path = some file ∧ Comment.ofFile file (read.text file) = .ok es ∧ entries = some es := by
  cases path with
  | none => simp [userCommentsOf, eq_comm]
  | some file =>
    cases hf : Comment.ofFile file (read.text file) with
    | error e =>
      have hfail : userCommentsOf read (some file) = .error (.comments e) := by
        rw [userCommentsOf, hf]
        rfl
      simp [hfail, hf]
    | ok es =>
      have hread : userCommentsOf read (some file) = .ok (some es) := by
        rw [userCommentsOf, hf]
        rfl
      simp [hread, hf, eq_comm]

theorem yields_loadRegistry_iff {read : FileReader Id} {s : Settings} {q : ScanRequest}
    {e : Except Failure (Registry × ProfileId)} :
    Yields (loadRegistry read s q) e ↔ registryOf read s q = e := by
  constructor
  · exact fun h => (yields_loadRegistry read s q []).symm.trans (h [])
  · rintro rfl
    exact yields_loadRegistry read s q

/-- The registry of a disassembly is loaded exactly when the user's comments, if there are any, can be read.
In it every region of every platform has the flag that the request, the settings and the default give it,
in this order; all else is as in the bundled registry, but for the user's comments on top of the platform of
the run. -/
theorem loadRegistry_hasFlags (read : FileReader Id) (s : Settings) (q : ScanRequest) :
    ∃ b, Registry.bundled = .ok b ∧
      ((∃ out, Yields (loadRegistry read s q) (.ok out)) ↔
        ∀ path, q.commentsIn s = some path → ∃ entries, Comment.ofFile path (read.text path) = .ok entries) ∧
      ∀ registry id, Yields (loadRegistry read s q) (.ok (registry, id)) →
        HasFlags b s q registry ∧
        (q.commentsIn s = none ∧ id = .platform (q.platformIn s) ∧
            (∀ name, registry.get? (.user name) = b.get? (.user name)) ∨
          ∃ path entries, q.commentsIn s = some path ∧ Comment.ofFile path (read.text path) = .ok entries ∧
            id = .user overlayName ∧ ∀ name, registry.get? (.user name) =
              if name = overlayName then some (userProfile (q.platformIn s) entries)
              else b.get? (.user name)) := by
  obtain ⟨b, hb⟩ := Registry.exists_bundled
  refine ⟨b, hb, ?_, ?_⟩
  · simp only [yields_loadRegistry_iff, registryOf_eq hb, map_eq_ok_iff, userCommentsOf_eq_ok_iff]
    constructor
    · rintro ⟨_, _, ⟨hnone, -⟩ | ⟨file, es, hsome, hes, -⟩, -⟩ path hpath
      · rw [hnone] at hpath
        cases hpath
      · rw [hsome] at hpath
        cases hpath
        exact ⟨es, hes⟩
    · intro h
      cases hpath : q.commentsIn s with
      | none => exact ⟨_, none, .inl ⟨rfl, rfl⟩, rfl⟩
      | some path =>
        obtain ⟨es, hes⟩ := h path hpath
        exact ⟨_, some es, .inr ⟨path, es, rfl, hes, rfl⟩, rfl⟩
  · intro registry id h
    rw [yields_loadRegistry_iff, registryOf_eq hb, map_eq_ok_iff] at h
    obtain ⟨entries, he, h⟩ := h
    rcases userCommentsOf_eq_ok_iff.1 he with ⟨hpath, rfl⟩ | ⟨file, es, hpath, hes, rfl⟩
    · cases h
      exact ⟨hasFlags_preparedRegistry hb s q, .inl ⟨hpath, rfl, get?_preparedRegistry_user hb s q⟩⟩
    · cases h
      refine ⟨?_, .inr ⟨file, es, hpath, hes, rfl, ?_⟩⟩
      · intro owner
        obtain ⟨p, regions, hp, hregions, hget, hflags⟩ := hasFlags_preparedRegistry hb s q owner
        exact ⟨p, regions, hp, hregions, by simpa [userProfile] using hget, hflags⟩
      · intro name
        simp [userProfile, get?_preparedRegistry_user hb]

/-- Settings with two spellings of a region, and with comments of the user's own. -/
def soundSettings : Settings :=
  { Settings.record [⟨.c64, "sid", true⟩, ⟨.c64, "SID", false⟩, ⟨.c64, "zero page", false⟩] with
    userComments := some "notes" }

/-- A request that switches a region of the platform and one of its parent, each in another spelling. -/
def soundRequest : ScanRequest :=
  { file := "tune", platform := some .c64StereoSid, regions := [("ZERO PAGE", true), ("second sid", false)] }

/-- A reader that has the user's comments only. -/
def soundNotes : FileReader Id := fun path =>
  if path = "notes" then .ok "D420 en left\n".toUTF8 else .error .notFound

/-- The registry for the two sound chips is loaded, with the flags of the rules and the user's comments. -/
theorem loadRegistry_hasFlags_sound :
    ∃ b registry, Registry.bundled = .ok b ∧
      Yields (loadRegistry soundNotes soundSettings soundRequest) (.ok (registry, .user overlayName)) ∧
      HasFlags b soundSettings soundRequest registry ∧
      registry.get? (.user overlayName) =
        some (userProfile .c64StereoSid [⟨0xD420, 0xD420, .english, "left"⟩]) := by
  have hnotes : Comment.ofFile "notes" (soundNotes.text "notes") =
      .ok [⟨0xD420, 0xD420, .english, "left"⟩] := by decide +kernel
  obtain ⟨b, hb, hloads, hflags⟩ := loadRegistry_hasFlags soundNotes soundSettings soundRequest
  obtain ⟨⟨registry, id⟩, hy⟩ := hloads.2 fun path hpath => by
    cases hpath
    exact ⟨_, hnotes⟩
  obtain ⟨hregions, ⟨hnone, -⟩ | ⟨path, entries, hpath, hentries, rfl, hget⟩⟩ := hflags registry id hy
  · cases hnone
  · cases hpath
    obtain rfl : _ = entries := Except.ok.inj (hnotes.symm.trans hentries)
    exact ⟨b, registry, hb, hy, hregions, hget overlayName⟩

end CommandLine

end RetroListing
