/-
The grammar of comment files. A line has the form of a comment when it is written as one or two
addresses, a gap, two letters, a gap and a text (`HasForm`); reading a line finds exactly that form
(`shape?_eq_some_iff`). Main statement: a file is read exactly when each of its lines is skipped or holds
a comment, into those comments in order, and otherwise the error is that of the first other line.
-/
import RetroListing.Proofs.Comment.File
import RetroListing.Proofs.Text.Numeral

namespace RetroListing

/-- The language of a code is the one whose code it is in lower case. -/
theorem Language.ofCode?_eq_some_iff {code : String} {l : Language} :
    ofCode? code = some l ↔ code.toList.map Char.toLower = l.code.toList := by
  have hname : ∀ l : Language, Text.sameName l.code code = true ↔ code.toList.map Char.toLower = l.code.toList := by
    intro l
    rw [Text.sameName_iff, eq_comm]
    cases l <;> rfl
  rw [← hname]
  have hfound : ∀ m, ofCode? code = some m → Text.sameName m.code code = true :=
    fun m hm => List.find?_some (p := fun m : Language => Text.sameName m.code code) hm
  constructor
  · exact hfound l
  · intro h
    have hsome : (ofCode? code).isSome = true :=
      List.find?_isSome.2 ⟨l, show l ∈ all by cases l <;> decide, h⟩
    obtain ⟨m, hm⟩ := Option.isSome_iff_exists.1 hsome
    -- codes that are the same in lower case are the same
    have hcode : m.code.toList = l.code.toList :=
      ((hname m).1 (hfound m hm)).symm.trans ((hname l).1 h)
    rw [hm]
    revert hcode
    cases m <;> cases l <;> decide

namespace Comment

/-! ## The form of a comment -/

/-- An address in one to four hexadecimal digits. -/
structure WritesAddress (cs : List Char) (a : UInt16) : Prop where
  nonempty : 1 ≤ cs.length
  length_le : cs.length ≤ 4
  numeral : Text.HexNumeral cs a.toNat

/-- One address, or two joined by a hyphen. -/
inductive WritesBounds : List Char → UInt16 → UInt16 → Prop
  | single {cs : List Char} {a : UInt16} : WritesAddress cs a → WritesBounds cs a a
  | range {cs ds : List Char} {a b : UInt16} : WritesAddress cs a → WritesAddress ds b →
      WritesBounds (cs ++ '-' :: ds) a b

/-- One or more blanks. -/
structure IsGap (cs : List Char) : Prop where
  nonempty : cs ≠ []
  blanks : Text.Blanks cs

/-- A trimmed line that is written as addresses, a gap, two letters, a gap, and a text that does not start
with a blank. -/
inductive HasForm : List Char → Shape → Prop
  | mk {bounds gap gap' text : List Char} {low high : UInt16} {a b : Char} :
      WritesBounds bounds low high → IsGap gap → a.isAlpha = true → b.isAlpha = true → IsGap gap' →
      (∃ c ∈ text.head?, Text.isBlank c = false) →
      HasForm (bounds ++ (gap ++ a :: b :: (gap' ++ text)))
        ⟨low, high, String.ofList [a, b], String.ofList text⟩

theorem IsGap.exists_head? {gap : List Char} (h : IsGap gap) (rest : List Char) :
    ∃ c ∈ (gap ++ rest).head?, Text.isBlank c = true := by
  cases gap with
  | nil => exact absurd rfl h.nonempty
  | cons c gap => exact ⟨c, rfl, h.blanks c List.mem_cons_self⟩

theorem WritesAddress.isHexDigit {cs : List Char} {a : UInt16} (h : WritesAddress cs a) :
    ∀ c ∈ cs, Text.isHexDigit c = true :=
  (Text.hexNumeral_iff.1 h.numeral).1

theorem address?_eq_some_iff {cs rest : List Char} {a : UInt16} :
    address? cs = some (a, rest) ↔
      ∃ digits, cs = digits ++ rest ∧ WritesAddress digits a ∧
        ∀ c ∈ rest.head?, Text.isHexDigit c = false := by
  unfold address?
  dsimp only
  constructor
  · intro h
    split at h
    · rename_i hlen
      cases h
      obtain ⟨hcs, hdigits, hrest⟩ := Text.span_eq_iff.1 ⟨rfl, rfl⟩
      refine ⟨_, hcs, ⟨hlen.1, hlen.2, Text.hexNumeral_iff.2 ⟨hdigits, ?_⟩⟩, hrest⟩
      -- four digits stay below the number of addresses
      have hlt := (Text.hexNumeral_iff.2 ⟨hdigits, rfl⟩).lt
      have hle := Nat.pow_le_pow_right (show 0 < 16 by decide) hlen.2
      rw [UInt16.toNat_ofNat', Nat.mod_eq_of_lt (Nat.lt_of_lt_of_le hlt hle)]
    · cases h
  · rintro ⟨digits, hcs, hwrites, hrest⟩
    obtain ⟨htake, hdrop⟩ := Text.span_eq_iff.2 ⟨hcs, hwrites.isHexDigit, hrest⟩
    rw [htake, hdrop, if_pos ⟨hwrites.nonempty, hwrites.length_le⟩,
      (Text.hexNumeral_iff.1 hwrites.numeral).2, UInt16.ofNat_toNat]

/-- Addresses before a blank are read as they are written. -/
theorem addresses?_eq_some_iff {cs rest : List Char} {low high : UInt16}
    (hrest : ∃ c ∈ rest.head?, Text.isBlank c = true) :
    addresses? cs = some ((low, high), rest) ↔ ∃ bounds, cs = bounds ++ rest ∧ WritesBounds bounds low high := by
  obtain ⟨c, hc, hblank⟩ := hrest
  -- the blank ends the digits before it
  have hend : ∀ x ∈ rest.head?, Text.isHexDigit x = false := by
    intro x hx
    rw [Option.mem_unique hx hc]
    by_contra hne
    rw [Text.isBlank_of_isHexDigit (by simpa using hne)] at hblank
    cases hblank
  constructor
  · intro h
    unfold addresses? at h
    split at h
    · cases h
    · rename_i a tail ha
      obtain ⟨digits, rfl, hdigits, -⟩ := address?_eq_some_iff.1 ha
      obtain ⟨⟨b, rest'⟩, hb, he⟩ := Option.map_eq_some_iff.1 h
      cases he
      obtain ⟨digits', rfl, hdigits', -⟩ := address?_eq_some_iff.1 hb
      exact ⟨digits ++ '-' :: digits', by simp, .range hdigits hdigits'⟩
    · rename_i a tail _ ha
      cases h
      obtain ⟨digits, rfl, hdigits, -⟩ := address?_eq_some_iff.1 ha
      exact ⟨digits, rfl, .single hdigits⟩
  · rintro ⟨bounds, rfl, hbounds⟩
    cases hbounds with
    | single hdigits =>
      have ha := address?_eq_some_iff.2 ⟨_, rfl, hdigits, hend⟩
      unfold addresses?
      split
      · rename_i hnone
        rw [hnone] at ha; cases ha
      · rename_i hhyphen
        rw [hhyphen] at ha; cases ha
        cases hc
        exact absurd hblank (by decide)
      · rename_i hrest
        rw [hrest] at ha; cases ha
        rfl
    | @range ds es _ _ hdigits hdigits' =>
      have ha : address? (ds ++ '-' :: es ++ rest) = some (low, '-' :: (es ++ rest)) :=
        address?_eq_some_iff.2 ⟨_, by simp, hdigits, by rintro x ⟨⟩; decide⟩
      have hb : address? (es ++ rest) = some (high, rest) :=
        address?_eq_some_iff.2 ⟨_, rfl, hdigits', hend⟩
      simp only [addresses?, ha, hb]
      rfl

theorem afterBlanks?_eq_some_iff {cs rest : List Char} :
    afterBlanks? cs = some rest ↔
      ∃ gap, cs = gap ++ rest ∧ IsGap gap ∧ ∀ c ∈ rest.head?, Text.isBlank c = false := by
  cases cs with
  | nil =>
    refine iff_of_false (by simp [afterBlanks?]) ?_
    rintro ⟨gap, hcs, hgap, -⟩
    exact hgap.nonempty (List.append_eq_nil_iff.1 hcs.symm).1
  | cons c cs =>
    rw [afterBlanks?, Option.ite_none_right_eq_some, Option.some_inj, Text.trimStart, Text.dropWhile_eq_iff]
    constructor
    · rintro ⟨hc, blanks, rfl, hblanks, hhead⟩
      exact ⟨c :: blanks, rfl, ⟨by simp, List.forall_mem_cons.2 ⟨hc, hblanks⟩⟩, hhead⟩
    · rintro ⟨gap, hcs, hgap, hhead⟩
      cases gap with
      | nil => exact absurd rfl hgap.nonempty
      | cons d blanks =>
        obtain ⟨rfl, rfl⟩ := List.cons.inj hcs
        obtain ⟨hc, hblanks⟩ := List.forall_mem_cons.1 hgap.blanks
        exact ⟨hc, blanks, rfl, hblanks, hhead⟩

theorem code?_eq_some_iff {cs rest : List Char} {code : String} :
    code? cs = some (code, rest) ↔
      ∃ a b, cs = a :: b :: rest ∧ a.isAlpha = true ∧ b.isAlpha = true ∧ code = String.ofList [a, b] := by
  unfold code?
  split
  · rename_i a b tail
    rw [Option.ite_none_right_eq_some, Bool.and_eq_true, Option.some_inj]
    constructor
    · rintro ⟨⟨ha, hb⟩, h⟩
      cases h
      exact ⟨a, b, rfl, ha, hb, rfl⟩
    · rintro ⟨a', b', h, ha, hb, rfl⟩
      cases h
      exact ⟨⟨ha, hb⟩, rfl⟩
  · rename_i hshort
    refine iff_of_false (by simp) ?_
    rintro ⟨a, b, rfl, -⟩
    exact hshort a b rest rfl

/-- Reading a trimmed line finds the form that it has. -/
theorem shape?_eq_some_iff {line : List Char} {s : Shape} : shape? line = some s ↔ HasForm line s := by
  constructor
  · intro hshape
    obtain ⟨⟨⟨low, high⟩, afterAddresses⟩, h1, hshape⟩ := Option.bind_eq_some_iff.1 hshape
    obtain ⟨beforeCode, h2, hshape⟩ := Option.bind_eq_some_iff.1 hshape
    obtain ⟨⟨code, afterCode⟩, h3, hshape⟩ := Option.bind_eq_some_iff.1 hshape
    obtain ⟨text, h4, htext⟩ := Option.bind_eq_some_iff.1 hshape
    obtain ⟨gap, rfl, hgap, -⟩ := afterBlanks?_eq_some_iff.1 h2
    obtain ⟨a, b, rfl, ha, hb, rfl⟩ := code?_eq_some_iff.1 h3
    obtain ⟨gap', rfl, hgap', hhead⟩ := afterBlanks?_eq_some_iff.1 h4
    obtain ⟨bounds, rfl, hbounds⟩ := (addresses?_eq_some_iff (hgap.exists_head? _)).1 h1
    cases text with
    | nil => cases htext
    | cons c text =>
      cases htext
      exact .mk hbounds hgap ha hb hgap' ⟨c, rfl, hhead c rfl⟩
  · rintro @⟨bounds, gap, gap', text, low, high, a, b, hbounds, hgap, ha, hb, hgap', c, hc, hblank⟩
    have h1 := (addresses?_eq_some_iff (hgap.exists_head? (a :: b :: (gap' ++ text)))).2 ⟨_, rfl, hbounds⟩
    have h2 : afterBlanks? (gap ++ a :: b :: (gap' ++ text)) = some (a :: b :: (gap' ++ text)) :=
      afterBlanks?_eq_some_iff.2 ⟨gap, rfl, hgap, by rintro x ⟨⟩; exact Text.isBlank_of_isAlpha ha⟩
    have h3 : code? (a :: b :: (gap' ++ text)) = some (String.ofList [a, b], gap' ++ text) :=
      code?_eq_some_iff.2 ⟨a, b, rfl, ha, hb, rfl⟩
    have h4 : afterBlanks? (gap' ++ text) = some text :=
      afterBlanks?_eq_some_iff.2 ⟨gap', rfl, hgap', fun x hx => Option.mem_unique hx hc ▸ hblank⟩
    have hne : text ≠ [] := by
      rintro rfl
      cases hc
    simp [shape?, h1, h2, h3, h4, hne]

/-! ## Lines -/

/-- A trimmed line that is left out: it is empty or starts with a semicolon. -/
def LeftOut (line : List Char) : Prop := line = [] ∨ line.head? = some ';'

/-- A trimmed line that holds a comment: it has the form of one, the second address is not below the
first, and the two letters are the code of a language in either letter case. -/
inductive IsComment (line : List Char) : Entry → Prop
  | mk {s : Shape} {language : Language} : HasForm line s → s.low ≤ s.high →
      s.code.toList.map Char.toLower = language.code.toList →
      IsComment line ⟨s.low, s.high, language, s.text⟩

/-- What is wrong with a trimmed line: the form first, then the order of the addresses, then the
language. -/
inductive HasFault (line : List Char) : LineFault → Prop
  | shape : ¬ LeftOut line → (∀ s, ¬ HasForm line s) → HasFault line .shape
  | descending {s : Shape} : HasForm line s → s.high < s.low → HasFault line (.descending s.low s.high)
  | unknownLanguage {s : Shape} : HasForm line s → s.low ≤ s.high →
      (∀ language : Language, s.code.toList.map Char.toLower ≠ language.code.toList) →
      HasFault line (.unknownLanguage s.code)

theorem WritesBounds.exists_head? {bounds : List Char} {low high : UInt16}
    (h : WritesBounds bounds low high) (rest : List Char) :
    ∃ c ∈ (bounds ++ rest).head?, Text.isHexDigit c = true := by
  have first : ∀ {cs : List Char} {a : UInt16}, WritesAddress cs a → ∀ rest : List Char,
      ∃ c ∈ (cs ++ rest).head?, Text.isHexDigit c = true := by
    intro cs a hcs rest
    cases cs with
    | nil => exact absurd hcs.nonempty (by decide)
    | cons c cs => exact ⟨c, rfl, hcs.isHexDigit c List.mem_cons_self⟩
  cases h with
  | single hcs => exact first hcs rest
  | range hcs _ =>
    rw [List.append_assoc]
    exact first hcs _

/-- A line with the form of a comment starts with a digit. -/
theorem HasForm.exists_head? {line : List Char} {s : Shape} (h : HasForm line s) :
    ∃ c ∈ line.head?, Text.isHexDigit c = true := by
  cases h with
  | mk hbounds => exact hbounds.exists_head? _

theorem HasForm.not_leftOut {line : List Char} {s : Shape} (h : HasForm line s) : ¬ LeftOut line := by
  obtain ⟨c, hc, hdigit⟩ := h.exists_head?
  rintro (rfl | hsemicolon)
  · cases hc
  · rw [Option.mem_def.1 hc] at hsemicolon
    cases hsemicolon
    exact absurd hdigit (by decide)

/-- A line is left out, holds a comment or is at fault. -/
theorem line_cases (line : List Char) :
    LeftOut line ∨ (∃ e, IsComment line e) ∨ ∃ fault, HasFault line fault := by
  by_cases hout : LeftOut line
  · exact .inl hout
  right
  by_cases hform : ∃ s, HasForm line s
  · obtain ⟨s, hs⟩ := hform
    by_cases hlt : s.high < s.low
    · exact .inr ⟨_, .descending hs hlt⟩
    by_cases hlanguage : ∃ l : Language, s.code.toList.map Char.toLower = l.code.toList
    · obtain ⟨l, hl⟩ := hlanguage
      exact .inl ⟨_, .mk hs (UInt16.not_lt.1 hlt) hl⟩
    · exact .inr ⟨_, .unknownLanguage hs (UInt16.not_lt.1 hlt) (not_exists.1 hlanguage)⟩
  · exact .inr ⟨_, .shape hout (not_exists.1 hform)⟩

theorem isSkipped_iff {line : List Char} : isSkipped line = true ↔ LeftOut line := by
  simp [isSkipped, LeftOut]

theorem readLine_of_leftOut {line : List Char} (h : LeftOut (Text.trim line)) :
    readLine line = .ok none := by
  rw [readLine, if_pos (isSkipped_iff.2 h)]

theorem readLine_of_hasForm {line : List Char} {s : Shape} (h : HasForm (Text.trim line) s) :
    readLine line = s.entry.map some := by
  rw [readLine, if_neg fun hs => h.not_leftOut (isSkipped_iff.1 hs)]
  simp only [shape?_eq_some_iff.2 h]

theorem readLine_of_isComment {line : List Char} {e : Entry} (h : IsComment (Text.trim line) e) :
    readLine line = .ok (some e) := by
  cases h with
  | mk hs hle hlanguage =>
    rw [readLine_of_hasForm hs, Shape.entry, if_neg (UInt16.not_lt.2 hle),
      Language.ofCode?_eq_some_iff.2 hlanguage]
    rfl

theorem readLine_of_hasFault {line : List Char} {fault : LineFault}
    (h : HasFault (Text.trim line) fault) : readLine line = .error fault := by
  cases h with
  | shape hout hform =>
    have hnone : shape? (Text.trim line) = none := by
      rw [Option.eq_none_iff_forall_ne_some]
      exact fun s hs => hform s (shape?_eq_some_iff.1 hs)
    rw [readLine, if_neg fun hs => hout (isSkipped_iff.1 hs), hnone]
  | descending hs hlt =>
    rw [readLine_of_hasForm hs, Shape.entry, if_pos hlt]
    rfl
  | @unknownLanguage s hs hle hlanguage =>
    have hnone : Language.ofCode? s.code = none := by
      rw [Option.eq_none_iff_forall_ne_some]
      exact fun l hl => hlanguage l (Language.ofCode?_eq_some_iff.1 hl)
    rw [readLine_of_hasForm hs, Shape.entry, if_neg (UInt16.not_lt.2 hle), hnone]
    rfl

/-! ## Files -/

/-- A line that is left out or holds a comment, once it is trimmed. -/
def IsReadable (line : List Char) : Prop := LeftOut (Text.trim line) ∨ ∃ e, IsComment (Text.trim line) e

/-- A readable line is not at fault: it is read. -/
theorem HasFault.not_isReadable {line : List Char} {fault : LineFault}
    (h : HasFault (Text.trim line) fault) : ¬ IsReadable line := by
  have herror := readLine_of_hasFault h
  rintro (hout | ⟨e, he⟩)
  · rw [readLine_of_leftOut hout] at herror
    cases herror
  · rw [readLine_of_isComment he] at herror
    cases herror

/-- Readable lines, and the comments that they hold in order. -/
inductive LinesHold : List (List Char) → List Entry → Prop
  | nil : LinesHold [] []
  | leftOut {line : List Char} {lines : List (List Char)} {es : List Entry} :
      LeftOut (Text.trim line) → LinesHold lines es → LinesHold (line :: lines) es
  | comment {line : List Char} {lines : List (List Char)} {e : Entry} {es : List Entry} :
      IsComment (Text.trim line) e → LinesHold lines es → LinesHold (line :: lines) (e :: es)

/-- A line at fault with only readable ones before it. -/
structure FirstFault (lines before : List (List Char)) (fault : LineFault) : Prop where
  readable : ∀ line ∈ before, IsReadable line
  fault : ∃ line after, lines = before ++ line :: after ∧ HasFault (Text.trim line) fault

theorem LinesHold.isReadable {lines : List (List Char)} {es : List Entry} (h : LinesHold lines es) :
    ∀ line ∈ lines, IsReadable line := by
  induction h with
  | nil => simp
  | leftOut hout _ ih => exact List.forall_mem_cons.2 ⟨.inl hout, ih⟩
  | comment he _ ih => exact List.forall_mem_cons.2 ⟨.inr ⟨_, he⟩, ih⟩

theorem FirstFault.cons {lines before : List (List Char)} {fault : LineFault} {line : List Char}
    (hline : IsReadable line) (h : FirstFault lines before fault) :
    FirstFault (line :: lines) (line :: before) fault := by
  obtain ⟨hbefore, l, after, rfl, hfault⟩ := h
  exact ⟨List.forall_mem_cons.2 ⟨hline, hbefore⟩, l, after, rfl, hfault⟩

/-- Lines are all readable, or one of them is the first at fault. -/
theorem lines_cases (lines : List (List Char)) :
    (∃ es, LinesHold lines es) ∨ ∃ before fault, FirstFault lines before fault := by
  induction lines with
  | nil => exact .inl ⟨[], .nil⟩
  | cons line lines ih =>
    rcases line_cases (Text.trim line) with hout | ⟨e, he⟩ | ⟨fault, hfault⟩
    · exact ih.imp (fun ⟨es, h⟩ => ⟨es, .leftOut hout h⟩)
        fun ⟨before, fault, h⟩ => ⟨line :: before, fault, h.cons (.inl hout)⟩
    · exact ih.imp (fun ⟨es, h⟩ => ⟨e :: es, .comment he h⟩)
        fun ⟨before, fault, h⟩ => ⟨line :: before, fault, h.cons (.inr ⟨e, he⟩)⟩
    · exact .inr ⟨[], fault, by simp, line, lines, rfl, hfault⟩

theorem readLines_of_linesHold {lines : List (List Char)} {es : List Entry} (h : LinesHold lines es)
    (n : Nat) : readLines n lines = .ok es := by
  induction h generalizing n with
  | nil => rfl
  | leftOut hout _ ih =>
    rw [readLines, readLine_of_leftOut hout]
    exact ih (n + 1)
  | comment he _ ih =>
    rw [readLines, readLine_of_isComment he]
    simp only [ih (n + 1)]
    rfl

/-- Readable lines before a line at fault count towards its number and nothing else. -/
theorem readLines_of_firstFault {lines before : List (List Char)} {fault : LineFault}
    (h : FirstFault lines before fault) (n : Nat) :
    readLines n lines = .error ⟨n + before.length, fault⟩ := by
  obtain ⟨hbefore, line, after, rfl, hfault⟩ := h
  induction before generalizing n with
  | nil =>
    rw [List.nil_append, readLines, readLine_of_hasFault hfault]
    rfl
  | cons l before ih =>
    obtain ⟨hl, hbefore⟩ := List.forall_mem_cons.1 hbefore
    have hrest := ih (n + 1) hbefore
    rw [Nat.add_assoc, Nat.add_comm 1] at hrest
    rw [List.cons_append, readLines]
    rcases hl with hout | ⟨e, he⟩
    · rw [readLine_of_leftOut hout]
      exact hrest
    · rw [readLine_of_isComment he]
      simp only [hrest]
      rfl

theorem parseFile_eq_ok_iff_linesHold {content : String} {es : List Entry} :
    parseFile content = .ok es ↔ LinesHold (content.toList.splitOn '\n') es := by
  constructor
  · intro h
    rcases lines_cases (content.toList.splitOn '\n') with ⟨fs, hfs⟩ | ⟨before, fault, hfault⟩
    · rw [parseFile, readLines_of_linesHold hfs] at h
      cases h
      exact hfs
    · rw [parseFile, readLines_of_firstFault hfault] at h
      cases h
  · exact fun h => readLines_of_linesHold h 1

/-- A file is read exactly when each of its lines is readable, and then into the comments that they hold in
order; otherwise the error has the number of the first line at fault and what is wrong with it. -/
theorem parseFile_iff_grammar (content : String) :
    ((∃ es, parseFile content = .ok es) ↔ ∀ line ∈ content.toList.splitOn '\n', IsReadable line) ∧
    (∀ es, parseFile content = .ok es ↔ LinesHold (content.toList.splitOn '\n') es) ∧
    ∀ n fault, parseFile content = .error ⟨n, fault⟩ ↔
      ∃ before, FirstFault (content.toList.splitOn '\n') before fault ∧ n = before.length + 1 := by
  refine ⟨⟨?_, ?_⟩, fun es => parseFile_eq_ok_iff_linesHold, fun n fault => ⟨?_, ?_⟩⟩
  · rintro ⟨es, h⟩
    exact (parseFile_eq_ok_iff_linesHold.1 h).isReadable
  · intro h
    rcases lines_cases (content.toList.splitOn '\n') with ⟨es, hes⟩ | ⟨before, fault, hfault⟩
    · exact ⟨es, parseFile_eq_ok_iff_linesHold.2 hes⟩
    · obtain ⟨-, line, after, hlines, hline⟩ := hfault
      exact absurd (h line (hlines ▸ List.mem_append_right before List.mem_cons_self)) hline.not_isReadable
  · intro h
    rcases lines_cases (content.toList.splitOn '\n') with ⟨es, hes⟩ | ⟨before, fault', hfault⟩
    · rw [parseFile_eq_ok_iff_linesHold.2 hes] at h
      cases h
    · rw [parseFile, readLines_of_firstFault hfault] at h
      cases h
      exact ⟨before, hfault, Nat.add_comm 1 _⟩
  · rintro ⟨before, hfault, rfl⟩
    rw [parseFile, readLines_of_firstFault hfault, Nat.add_comm 1]

-- lines that are left out count, and the order of the addresses comes before the language
example : parseFile "; x\r\nD020 en ok\n0200-0100 fr both\nnone" = .error ⟨3, .descending 0x200 0x100⟩ := by
  decide +kernel

end Comment

end RetroListing
