/-
The texts of the comments in a registry. Whatever a look-up answers is one of them
(`Registry.mem_texts_of_resolve`), and comments that come from a file have no line feed, so that a
user's own comments keep every text of a registry on one line (`Registry.OneLine.addOverlay`).
-/
import RetroListing.Proofs.Comment.File
import RetroListing.Proofs.Profile.Change

namespace RetroListing

theorem OrderedMap.mem_values_of_get? {κ α : Type} [Ord κ] {m : OrderedMap κ α} {k : κ} {a : α}
    (h : m.get? k = some a) : a ∈ m.values := by
  obtain ⟨entries, sorted⟩ := m
  change lookupEntry k entries = some a at h
  change a ∈ entries.map Prod.snd
  clear sorted
  induction entries with
  | nil => cases h
  | cons e rest ih =>
    obtain ⟨k', b⟩ := e
    unfold lookupEntry at h
    split at h
    · cases h
      exact List.mem_cons_self
    · exact List.mem_cons_of_mem b (ih h)

/-- The values after an insertion are the new one and old ones. -/
theorem OrderedMap.mem_values_insert {κ α : Type} [Ord κ] [Std.TransOrd κ] {m : OrderedMap κ α} {k : κ}
    {a b : α} (h : b ∈ (m.insert k a).values) : b = a ∨ b ∈ m.values := by
  obtain ⟨e, he, rfl⟩ := List.mem_map.1 h
  rcases mem_insertEntry he with rfl | he
  · exact .inl rfl
  · exact .inr (List.mem_map_of_mem he)

/-! ## Tables -/

namespace Comment

/-- The texts of a table. -/
def Table.texts (t : Table) : List String := t.exact.values ++ t.ranges.map (·.text)

/-- The texts of the tables of a profile. -/
def Tables.texts (ts : Tables) : List String := ts.values.flatMap (·.texts)

theorem Table.mem_texts_of_get? {t : Table} {address : UInt16} {s : String}
    (h : t.get? address = some s) : s ∈ t.texts := by
  unfold Table.get? at h
  split at h
  · rename_i text htext
    cases h
    exact List.mem_append_left _ (OrderedMap.mem_values_of_get? htext)
  · obtain ⟨r, hr, rfl⟩ := Option.map_eq_some_iff.1 h
    exact List.mem_append_right _ (List.mem_map_of_mem (List.mem_of_find?_eq_some hr))

theorem Table.mem_texts_insert {t : Table} {a b : UInt16} {text s : String}
    (h : s ∈ (t.insert a b text).texts) : s = text ∨ s ∈ t.texts := by
  unfold Table.insert at h
  split at h
  · split at h
    · exact .inr h
    · rcases List.mem_append.1 h with h | h
      · exact (OrderedMap.mem_values_insert h).imp_right (List.mem_append_left _)
      · exact .inr (List.mem_append_right _ h)
  · unfold Table.texts at h ⊢
    rw [List.map_append, ← List.append_assoc] at h
    rcases List.mem_append.1 h with h | h
    · exact .inr h
    · exact .inl (List.mem_singleton.1 h)

theorem Tables.mem_texts_add {ts : Tables} {e : Entry} {s : String} (h : s ∈ (ts.add e).texts) :
    s = e.text ∨ s ∈ ts.texts := by
  obtain ⟨t, ht, hs⟩ := List.mem_flatMap.1 h
  rcases OrderedMap.mem_values_insert ht with rfl | ht
  · rcases Table.mem_texts_insert hs with hs | hs
    · exact .inl hs
    · unfold Tables.table at hs
      cases hg : ts.get? e.language with
      | none =>
        rw [hg] at hs
        cases hs
      | some t =>
        rw [hg] at hs
        exact .inr (List.mem_flatMap.2 ⟨t, OrderedMap.mem_values_of_get? hg, hs⟩)
  · exact .inr (List.mem_flatMap.2 ⟨t, ht, hs⟩)

/-- The texts after comments are entered in order are old ones and those of the comments. -/
theorem Tables.mem_texts_addAll {ts : Tables} {es : List Entry} {s : String}
    (h : s ∈ (ts.addAll es).texts) : s ∈ ts.texts ∨ ∃ e ∈ es, s = e.text := by
  induction es generalizing ts with
  | nil => exact .inl h
  | cons e es ih =>
    rcases ih h with h | ⟨f, hf, rfl⟩
    · rcases Tables.mem_texts_add h with rfl | h
      · exact .inr ⟨e, List.mem_cons_self, rfl⟩
      · exact .inl h
    · exact .inr ⟨f, List.mem_cons_of_mem e hf, rfl⟩

end Comment

/-! ## Registries -/

theorem Profile.mem_texts_of_lookup {p : Profile} {operand : Operand} {language : Language} {s : String}
    (h : p.lookup operand language = .found s) : s ∈ p.tables.texts := by
  unfold Profile.lookup at h
  split at h
  · cases h
  · split at h
    · cases h
    · split at h
      · rename_i text htext
        cases h
        obtain ⟨t, ht, hs⟩ := Option.bind_eq_some_iff.1 htext
        exact List.mem_flatMap.2 ⟨t, OrderedMap.mem_values_of_get? ht, Comment.Table.mem_texts_of_get? hs⟩
      · cases h

namespace Registry

/-- The texts of all comments. -/
def texts (r : Registry) : List String := r.profiles.values.flatMap (·.tables.texts)

theorem mem_texts_of_resolveIn {operand : Operand} {language : Language} {ps : List Profile} {s : String}
    (h : resolveIn operand language ps = some s) : ∃ p ∈ ps, s ∈ p.tables.texts := by
  induction ps with
  | nil => cases h
  | cons p ps ih =>
    unfold resolveIn at h
    split at h
    · rename_i text htext
      cases h
      exact ⟨p, List.mem_cons_self, Profile.mem_texts_of_lookup htext⟩
    · cases h
    · cases h
    · obtain ⟨q, hq, hs⟩ := ih h
      exact ⟨q, List.mem_cons_of_mem p hq, hs⟩

/-- What a look-up answers is the text of a comment in the registry. -/
theorem mem_texts_of_resolve {r : Registry} {id : ProfileId} {operand : Operand} {language : Language}
    {s : String} (h : r.resolve id operand language = some s) : s ∈ r.texts := by
  obtain ⟨p, hp, hs⟩ := mem_texts_of_resolveIn h
  obtain ⟨q, hq⟩ := exists_get?_of_mem_ancestry hp
  exact List.mem_flatMap.2 ⟨p, OrderedMap.mem_values_of_get? hq, hs⟩

/-- The nearest profile decides which operands have comments at all. -/
theorem resolve_eq_none_of_annotates {r : Registry} {id : ProfileId} {p : Profile}
    (hp : r.get? id = some p) {operand : Operand} (h : p.cpu.annotates operand.mode = false)
    (language : Language) : r.resolve id operand language = none := by
  -- the profile itself comes first, and it does not pass such an operand on
  have hchain : r.chain id = p :: r.ancestry 15 p.parent := by
    unfold chain maxDepth
    rw [ancestry, hp]
  have hlookup : p.lookup operand language = .ineligible := by
    unfold Profile.lookup
    rw [h]
    rfl
  rw [resolve, hchain, resolveIn, hlookup]

/-- Every comment of the registry is on one line. -/
def OneLine (r : Registry) : Prop := ∀ text ∈ r.texts, '\n' ∉ text.toList

instance (r : Registry) : Decidable r.OneLine :=
  inferInstanceAs (Decidable (∀ text ∈ r.texts, '\n' ∉ text.toList))

theorem mem_texts_put {r : Registry} {p : Profile} {s : String} (h : s ∈ (r.put p).texts) :
    s ∈ p.tables.texts ∨ s ∈ r.texts := by
  obtain ⟨q, hq, hs⟩ := List.mem_flatMap.1 h
  rcases OrderedMap.mem_values_insert hq with rfl | hq
  · exact .inl hs
  · exact .inr (List.mem_flatMap.2 ⟨q, hq, hs⟩)

/-- The comments of a user's file leave every comment on one line. -/
theorem OneLine.addOverlay {r s : Registry} (hr : r.OneLine) {content name : String}
    {parent : ProfileId} {es : List Comment.Entry} (hes : Comment.parseFile content = .ok es)
    (h : r.addOverlay name parent es = .ok s) : s.OneLine := by
  unfold Registry.addOverlay at h
  split at h
  · cases h
  · unfold Registry.insert at h
    split at h
    · cases h
    · cases h
      intro text htext
      rcases mem_texts_put htext with htext | htext
      · rcases Comment.Tables.mem_texts_addAll htext with htext | ⟨e, he, rfl⟩
        · cases htext
        · exact Comment.parseFile_oneLine hes e he
      · exact hr text htext

end Registry

end RetroListing
