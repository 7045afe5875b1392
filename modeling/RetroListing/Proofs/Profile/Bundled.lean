/-
The registry that the program starts from. It can be built (`exists_bundled`), and it holds every platform
with its regions and its own comments and nothing else (`get?_bundled_platform`, `get?_bundled_user`).
-/
import RetroListing.Proofs.Profile.Lineage

namespace RetroListing

/-! ## Bundled comments -/

namespace Platform

theorem mem_all (p : Platform) : p ∈ all := by
  cases p <;> decide

theorem rank_lt_of_all : all.Pairwise fun p q => rank p < rank q := by
  decide

/-- A platform comes after the one it inherits from. -/
theorem mem_of_parent? {p q : Platform} {done rest : List Platform} (hall : all = done ++ p :: rest)
    (hq : p.parent? = some q) : q ∈ done := by
  have hsorted := rank_lt_of_all
  have hmem := mem_all q
  have hlt := rank_parent? hq
  rw [hall] at hsorted hmem
  obtain ⟨-, hrest, -⟩ := List.pairwise_append.1 hsorted
  rcases List.mem_append.1 hmem with h | h
  · exact h
  · rcases List.mem_cons.1 h with rfl | h
    · omega
    · have := List.rel_of_pairwise_cons hrest h
      omega

theorem not_mem_of_all {p : Platform} {done rest : List Platform} (hall : all = done ++ p :: rest) :
    p ∉ done := by
  have hsorted := rank_lt_of_all
  rw [hall] at hsorted
  intro h
  have := (List.pairwise_append.1 hsorted).2.2 p h p List.mem_cons_self
  omega

theorem exists_parseFile {text : List Char} (h : (Comment.readLines 1 (text.splitOn '\n')).isOk = true) :
    ∃ entries, Comment.parseFile (String.ofList text) = .ok entries := by
  rw [Comment.parseFile, String.toList_ofList]
  cases hr : Comment.readLines 1 (text.splitOn '\n') with
  | ok entries => exact ⟨entries, rfl⟩
  | error e =>
    rw [hr] at h
    cases h

set_option maxRecDepth 100000 in
/-- The comments that come with the platforms are well formed. -/
theorem exists_bundledEntries (p : Platform) : ∃ entries, p.bundledEntries = .ok entries := by
  cases p
  case generic => exact ⟨[], rfl⟩
  -- the texts are read by evaluation, character by character
  all_goals
    simp only [bundledEntries, bundledComments?, c64Comments, c64StereoSidComments, c128Comments, vic20Comments,
      plus4Comments, atariComments, drive1541Comments, odyssey2Comments]
    apply exists_parseFile
    decide +kernel

end Platform

namespace Registry

/-! ## The registry -/

/-- A platform can be added once the one it inherits from is there. -/
theorem exists_addBundled {s : Registry} (hs : Closed s) {p : Platform} (hnew : s.get? (.platform p) = none)
    (hparent : ∀ q, p.parent? = some q → ∃ x, s.get? (.platform q) = some x) :
    ∃ entries, s.insertError? (p.bundledProfile entries) = none ∧
      s.addBundled p = .ok (s.put (p.bundledProfile entries)) := by
  obtain ⟨entries, he⟩ := p.exists_bundledEntries
  have hok : s.insertError? (p.bundledProfile entries) = none := by
    refine (insertError?_eq_none_iff s _).2 fun i hi => ?_
    obtain ⟨q, hq, rfl⟩ := Option.map_eq_some_iff.1 hi
    refine ⟨hparent q hq, fun a ha hid => ?_⟩
    obtain ⟨j, hj⟩ := exists_get?_of_mem_ancestry ha
    rw [← hs.named j a hj, hid] at hj
    exact Option.some_ne_none a (hj.symm.trans hnew)
  refine ⟨entries, hok, ?_⟩
  have hinsert : s.insert (p.bundledProfile entries) = .ok (s.put (p.bundledProfile entries)) := by
    rw [insert, hok]
  simp only [addBundled, he, hinsert]
  rfl

/-- The registry of all platforms can be built. -/
theorem exists_bundled : ∃ r, bundled = .ok r := by
  have run : ∀ (rest done : List Platform) (s : Registry), Platform.all = done ++ rest → Closed s →
      (∀ p, (∃ x, s.get? (.platform p) = some x) ↔ p ∈ done) → ∃ r, s.addAllBundled rest = .ok r := by
    intro rest
    induction rest with
    | nil => exact fun _ s _ _ _ => ⟨s, rfl⟩
    | cons p rest ih =>
      intro done s hall hs hdone
      have hnew : s.get? (.platform p) = none := by
        rw [Option.eq_none_iff_forall_ne_some]
        exact fun x hx => Platform.not_mem_of_all hall ((hdone p).1 ⟨x, hx⟩)
      obtain ⟨entries, hok, hadd⟩ := exists_addBundled hs hnew fun q hq =>
        (hdone q).2 (Platform.mem_of_parent? hall hq)
      rw [addAllBundled, hadd]
      refine ih (done ++ [p]) _ (by rw [hall, List.append_assoc]; rfl) (hs.put hok) fun q => ?_
      rw [get?_put, List.mem_append, ← hdone q]
      by_cases hq : q = p
      · simp [hq, Platform.bundledProfile, Profile.ofPlatform]
      · simp [hq, Platform.bundledProfile, Profile.ofPlatform]
  exact run Platform.all [] empty rfl closed_empty (by simp)

/-- Each platform that is added has its own comments, and all else stays. -/
theorem get?_addAllBundled {ps : List Platform} {s r : Registry} (h : s.addAllBundled ps = .ok r) (i : ProfileId) :
    (∃ p ∈ ps, i = .platform p ∧ ∃ entries, r.get? i = some (p.bundledProfile entries)) ∨
      r.get? i = s.get? i ∧ ∀ p ∈ ps, i ≠ .platform p := by
  induction ps generalizing s with
  | nil =>
    cases h
    exact .inr ⟨rfl, by simp⟩
  | cons p ps ih =>
    rw [addAllBundled] at h
    split at h
    · cases h
    · rename_i t ht
      obtain ⟨entries, -, rfl⟩ := addBundled_eq_ok ht
      rcases ih h with ⟨q, hq, hi, hget⟩ | ⟨hget, hnot⟩
      · exact .inl ⟨q, List.mem_cons_of_mem _ hq, hi, hget⟩
      · rw [get?_put] at hget
        by_cases hi : i = .platform p
        · exact .inl ⟨p, List.mem_cons_self, hi, entries, hget.trans (if_pos hi)⟩
        · exact .inr ⟨hget.trans (if_neg hi), List.forall_mem_cons.2 ⟨hi, hnot⟩⟩

variable {b : Registry}

theorem get?_bundled_platform (h : bundled = .ok b) (p : Platform) :
    ∃ entries, b.get? (.platform p) = some (p.bundledProfile entries) := by
  rcases get?_addAllBundled h (.platform p) with ⟨q, -, hq, hget⟩ | ⟨-, hnot⟩
  · cases hq
    exact hget
  · exact absurd rfl (hnot p p.mem_all)

theorem get?_bundled_user (h : bundled = .ok b) (name : String) : b.get? (.user name) = none := by
  rcases get?_addAllBundled h (.user name) with ⟨q, -, hq, -⟩ | ⟨hget, -⟩
  · cases hq
  · exact hget

end Registry

end RetroListing
