/-
Comment files: the text of each comment is the end of a line of the file, so none has a line feed
(`parseFile_oneLine`).
-/
import RetroListing.Comment.File
import RetroListing.Proofs.Text.Blank

namespace RetroListing.Comment

/-! ## The parts of a line -/

theorem address?_suffix {cs rest : List Char} {a : UInt16} (h : address? cs = some (a, rest)) :
    rest <:+ cs := by
  unfold address? at h
  dsimp only at h
  split at h
  · cases h
    exact List.dropWhile_suffix _
  · cases h

theorem addresses?_suffix {cs rest : List Char} {p : UInt16 × UInt16}
    (h : addresses? cs = some (p, rest)) : rest <:+ cs := by
  unfold addresses? at h
  split at h
  · cases h
  · rename_i low tail ha
    obtain ⟨⟨high, rest'⟩, hb, he⟩ := Option.map_eq_some_iff.1 h
    cases he
    exact ((address?_suffix hb).trans (List.suffix_cons _ _)).trans (address?_suffix ha)
  · rename_i ha
    cases h
    exact address?_suffix ha

theorem afterBlanks?_suffix {cs rest : List Char} (h : afterBlanks? cs = some rest) : rest <:+ cs := by
  cases cs with
  | nil => cases h
  | cons c cs =>
    obtain ⟨-, h⟩ := Option.ite_none_right_eq_some.1 h
    cases h
    exact (List.dropWhile_suffix _).trans (List.suffix_cons c cs)

theorem code?_suffix {cs rest : List Char} {code : String} (h : code? cs = some (code, rest)) :
    rest <:+ cs := by
  unfold code? at h
  split at h
  · split at h
    · cases h
      exact (List.suffix_cons _ _).trans (List.suffix_cons _ _)
    · cases h
  · cases h

/-- The text of a comment is the end of its line. -/
theorem shape?_suffix {line : List Char} {s : Shape} (h : shape? line = some s) :
    s.text.toList <:+ line := by
  obtain ⟨⟨⟨low, high⟩, afterAddresses⟩, h1, h⟩ := Option.bind_eq_some_iff.1 h
  obtain ⟨beforeCode, h2, h⟩ := Option.bind_eq_some_iff.1 h
  obtain ⟨⟨code, afterCode⟩, h3, h⟩ := Option.bind_eq_some_iff.1 h
  obtain ⟨text, h4, h⟩ := Option.bind_eq_some_iff.1 h
  split at h
  · cases h
  · cases h
    rw [String.toList_ofList]
    exact (((afterBlanks?_suffix h4).trans (code?_suffix h3)).trans (afterBlanks?_suffix h2)).trans
      (addresses?_suffix h1)

theorem readLine_text {line : List Char} {e : Entry} (h : readLine line = .ok (some e)) :
    ∀ c ∈ e.text.toList, c ∈ line := by
  unfold readLine at h
  dsimp only at h
  split at h
  · cases h
  · split at h
    · cases h
    · rename_i s hs
      have htext : e.text = s.text := by
        unfold Shape.entry at h
        split at h
        · cases h
        · split at h
          · cases h
          · cases h
            rfl
      intro c hc
      rw [htext] at hc
      have htrim := (shape?_suffix hs).subset hc
      exact (List.dropWhile_suffix _).subset ((Text.trimEnd_prefix _).subset htrim)

/-! ## Lines and files -/

/-- Each comment of a file is read from one of its lines. -/
theorem exists_line_of_mem_readLines {n : Nat} {lines : List (List Char)} {es : List Entry}
    (h : readLines n lines = .ok es) : ∀ e ∈ es, ∃ line ∈ lines, readLine line = .ok (some e) := by
  induction lines generalizing n es with
  | nil =>
    cases h
    simp
  | cons line lines ih =>
    have later : ∀ {fs}, readLines (n + 1) lines = .ok fs →
        ∀ e ∈ fs, ∃ l ∈ line :: lines, readLine l = .ok (some e) := by
      intro fs hfs e he
      obtain ⟨l, hl, hread⟩ := ih hfs e he
      exact ⟨l, List.mem_cons_of_mem line hl, hread⟩
    unfold readLines at h
    split at h
    · cases h
    · exact later h
    · rename_i f hf
      cases hrest : readLines (n + 1) lines with
      | error fault =>
        rw [hrest] at h
        cases h
      | ok fs =>
        rw [hrest] at h
        cases h
        exact List.forall_mem_cons.2 ⟨⟨line, List.mem_cons_self, hf⟩, later hrest⟩

/-- No comment of a file has a line feed. -/
theorem parseFile_oneLine {content : String} {es : List Entry} (h : parseFile content = .ok es) :
    ∀ e ∈ es, '\n' ∉ e.text.toList := by
  intro e he hc
  obtain ⟨line, hline, hread⟩ := exists_line_of_mem_readLines h e he
  exact Text.not_mem_of_mem_splitOn hline (readLine_text hread '\n' hc)

end RetroListing.Comment
