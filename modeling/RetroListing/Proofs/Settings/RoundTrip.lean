/-
Settings that are saved and loaded again. The document of settings is read as these settings
(`parse?_render`), and saving fails only where the disk refuses the file, whatever the settings are. Main
statement: a file is taken by the disk exactly when settings can be saved in it, and then they are loaded
from it as they were saved.
-/
import RetroListing.Proofs.Json.RoundTrip
import RetroListing.Settings.Store

namespace RetroListing

theorem Platform.ofTag?_tag (p : Platform) : Platform.ofTag? p.tag = some p := by cases p <;> decide

theorem Language.ofTag?_tag (l : Language) : Language.ofTag? l.tag = some l := by cases l <;> decide

namespace Settings

/-! ## Documents -/

/-- Things that are each read back from how they are written are read back as a list. -/
theorem mapM_map_eq_some {α β : Type} {write : α → β} {read? : β → Option α} {l : List α}
    (h : ∀ a ∈ l, read? (write a) = some a) : (l.map write).mapM read? = some l := by
  induction l with
  | nil => rfl
  | cons a l ih =>
    obtain ⟨ha, hl⟩ := List.forall_mem_cons.1 h
    simp [List.mapM_cons, ha, ih hl]

theorem members?_ofMembers (ms : List (String × Json)) : members? (.ofMembers ms) = some ms :=
  mapM_map_eq_some fun m _ => by simp [Json.unescape?_escape]

theorem choice?_ofText {α : Type} (ofTag? : String → Option α) (tag : String) :
    choice? ofTag? (.ofText tag) = ofTag? tag := by
  simp [choice?, Json.ofText, Json.unescape?_escape]

theorem switches?_ofMembers (switches : OrderedMap String Bool) :
    switches? (.ofMembers (switches.entries.map fun (name, enabled) => (name, .bool enabled))) =
      some switches := by
  rw [switches?, members?_ofMembers, Option.bind_eq_bind, Option.bind_some, mapM_map_eq_some,
    Option.bind_eq_bind, Option.bind_some, OrderedMap.ofList_entries]
  · rfl
  · exact fun _ _ => rfl

theorem regions?_ofMembers (regions : OrderedMap Platform (OrderedMap String Bool)) :
    regions? (.ofMembers (regions.entries.map fun (p, switches) =>
      (p.tag, .ofMembers (switches.entries.map fun (name, enabled) => (name, .bool enabled))))) =
        some regions := by
  rw [regions?, members?_ofMembers, Option.bind_eq_bind, Option.bind_some, mapM_map_eq_some,
    Option.bind_eq_bind, Option.bind_some, OrderedMap.ofList_entries]
  · rfl
  · rintro ⟨p, switches⟩ -
    simp [Platform.ofTag?_tag, switches?_ofMembers]

theorem userComments?_toJson (path : Option String) :
    userComments? ((path.map Json.ofText).getD .null) = some path := by
  cases path with
  | none => rfl
  | some path => simp [userComments?, Json.ofText, Json.text?, Json.unescape?_escape]

theorem ofJson?_toJson (s : Settings) : ofJson? s.toJson = some s := by
  rw [toJson, ofJson?, members?_ofMembers]
  · simp [unique?, ofParts?, member?, choice?_ofText, Platform.ofTag?_tag, Language.ofTag?_tag,
      regions?_ofMembers, userComments?_toJson]
  · exact fun _ h => nomatch h

theorem plain_toJson (s : Settings) : s.toJson.Plain := by
  have hswitches : ∀ switches : OrderedMap String Bool, Json.Plain
      (.ofMembers (switches.entries.map fun (name, enabled) => (name, .bool enabled))) := fun _ =>
    .members (List.forall_mem_map.2 fun _ _ => .bool _)
  refine .members ?_
  simp only [List.forall_mem_cons, List.not_mem_nil, false_imp_iff, implies_true, and_true]
  refine ⟨.text _, .text _, .members (List.forall_mem_map.2 fun _ _ => hswitches _), ?_⟩
  cases s.userComments with
  | none => exact .null
  | some path => exact .text path

/-- The document of settings is read as these settings. -/
theorem parse?_render (s : Settings) : parse? s.render = some s := by
  rw [parse?, render, s.plain_toJson.parse?_render, Option.bind_some, ofJson?_toJson]

/-! ## Files -/

end Settings

theorem FileReader.text_eq_ok {read : FileReader Id} {path text : String}
    (h : read path = .ok text.toUTF8) : read.text path = .ok text := by
  have hutf8 : String.fromUTF8? text.toUTF8 = some text := dif_pos text.isValidUTF8
  have hread : read path = pure (.ok text.toUTF8) := h
  simp only [FileReader.text, hread, pure_bind, hutf8]
  rfl

namespace Disk

/-- The directories that a file needs can be made, and then the path of the file leads to a place where no
directory stands. -/
def Takes (disk : Disk) (path : String) : Prop :=
  ∃ made place, disk.makeParents path = (made, .ok ()) ∧ made.locate path = .ok place ∧
    made.node? place ≠ some .directory

theorem exists_write_iff (disk : Disk) (path : String) (content : ByteArray) :
    (∃ written, disk.write path content = .ok written) ↔
      ∃ place, disk.locate path = .ok place ∧ disk.node? place ≠ some .directory := by
  unfold write
  cases hlocate : disk.locate path with
  | error fault => simp [bind, Except.bind]
  | ok place =>
    cases hnode : disk.node? place with
    | none => simp [bind, Except.bind, hnode]
    | some node => cases node <;> simp [bind, Except.bind, hnode]

end Disk

namespace Settings

theorem saveTo_eq_ok_iff {s : Settings} {disk written : Disk} {path : String} :
    s.saveTo disk path = (written, .ok ()) ↔
      ∃ made, disk.makeParents path = (made, .ok ()) ∧ made.write path s.render.toUTF8 = .ok written := by
  unfold saveTo
  generalize s.render.toUTF8 = content
  rcases disk.makeParents path with ⟨made, fault | ⟨⟩⟩
  · simp
  · cases hwrite : made.write path content <;> simp [hwrite]

/-- Settings can be saved under a path exactly when the disk takes a file there, and from the disk after
that they are loaded as they were. -/
theorem loadFrom_saveTo (s : Settings) (disk : Disk) (path : String) :
    ((∃ written, s.saveTo disk path = (written, .ok ())) ↔ disk.Takes path) ∧
      ∀ written, s.saveTo disk path = (written, .ok ()) →
        (loadFrom (m := Id) written.read path).run = .ok s := by
  constructor
  · simp only [saveTo_eq_ok_iff, Disk.Takes]
    constructor
    · rintro ⟨written, made, hmade, hwrite⟩
      obtain ⟨place, hplace⟩ := (made.exists_write_iff path _).1 ⟨written, hwrite⟩
      exact ⟨made, place, hmade, hplace⟩
    · rintro ⟨made, place, hmade, hplace⟩
      obtain ⟨written, hwrite⟩ := (made.exists_write_iff path s.render.toUTF8).2 ⟨place, hplace⟩
      exact ⟨written, made, hmade, hwrite⟩
  · intro written hsave
    obtain ⟨made, -, hwrite⟩ := saveTo_eq_ok_iff.1 hsave
    have htext : FileReader.text (m := Id) written.read path = .ok s.render :=
      FileReader.text_eq_ok (Disk.read_write hwrite)
    show ofFile path (FileReader.text (m := Id) written.read path) = .ok s
    rw [htext, ofFile, parse?_render]

/-- Settings with a platform that has no switches, names that need escapes, one of them empty, and a comment
file whose name is no plain text. -/
def awkward : Settings where
  platform := .vic20
  language := .italian
  regions := .ofList [(.vic20, .ofList [("\"VIC\"", false), ("", true), ("a\\b\n\x01é", false)]),
    (.generic, .empty)]
  userComments := some "note \t日本.txt"

theorem loadFrom_saveTo_awkward :
    ∃ written, awkward.saveTo (.empty ["home"]) "conf/annotator/settings.json" = (written, .ok ()) ∧
      (loadFrom (m := Id) written.read "conf/annotator/settings.json").run = .ok awkward := by
  obtain ⟨hsaved, hloaded⟩ := loadFrom_saveTo awkward (.empty ["home"]) "conf/annotator/settings.json"
  have htakes : (Disk.empty ["home"]).Takes "conf/annotator/settings.json" :=
    ⟨((Disk.empty ["home"]).put ["conf", "home"] .directory).put ["annotator", "conf", "home"] .directory,
      ["settings.json", "annotator", "conf", "home"], rfl, rfl, nofun⟩
  obtain ⟨written, hwritten⟩ := hsaved.2 htakes
  exact ⟨written, hwritten, hloaded written hwritten⟩

end Settings

end RetroListing
