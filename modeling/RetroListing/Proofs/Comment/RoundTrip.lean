/-
Writing comment files and reading them back. Comments may be written in many ways (`Writes`): digits and
codes in either letter case, any blanks around and between the parts, remarks and empty lines, and either
line end. Main statement: reading gives exactly the well-formed comments that a file writes, and printing
comments and reading them back gives them back exactly when they are well-formed.
-/
import RetroListing.Proofs.Comment.Grammar
import Mathlib

namespace RetroListing

theorem Language.toLower_code (l : Language) : l.code.toList.map Char.toLower = l.code.toList := by
  cases l <;> decide

namespace Comment

/-! ## Well-formed comments -/

/-- A comment that can stand in a file: its bounds are in order, and its text is not empty, is on one line
and has no blanks around it. -/
structure Entry.WellFormed (e : Entry) : Prop where
  ordered : e.low ≤ e.high
  nonempty : e.text.toList ≠ []
  oneLine : '\n' ∉ e.text.toList
  trimmed : Text.Trimmed e.text.toList

/-! ## Ways to write comments -/

/-- Blanks that do not end a line, perhaps none. -/
structure IsPad (cs : List Char) : Prop where
  blanks : Text.Blanks cs
  oneLine : '\n' ∉ cs

/-- A line that writes a comment, or none. -/
inductive WritesLine : List Char → Option Entry → Prop
  | blank {pad : List Char} : IsPad pad → WritesLine pad none
  | remark {before text : List Char} : IsPad before → '\n' ∉ text → WritesLine (before ++ ';' :: text) none
  | comment {before bounds gap code gap' after : List Char} {e : Entry} : IsPad before →
      WritesBounds bounds e.low e.high → IsPad gap → gap ≠ [] →
      code.map Char.toLower = e.language.code.toList → IsPad gap' → gap' ≠ [] → IsPad after →
      WritesLine (before ++ (bounds ++ (gap ++ (code ++ (gap' ++ (e.text.toList ++ after)))))) (some e)

/-- What stands at the end of a line. -/
inductive LineEnd : List Char → Prop
  | lf : LineEnd ['\n']
  | crlf : LineEnd ['\r', '\n']

/-- A file that writes comments line by line. Its last line is not ended; it is empty where every line
before it is ended. -/
inductive Writes : List Char → List Entry → Prop
  | last {line : List Char} {o : Option Entry} : WritesLine line o → Writes line o.toList
  | line {line ending rest : List Char} {o : Option Entry} {es : List Entry} : WritesLine line o →
      LineEnd ending → Writes rest es → Writes (line ++ (ending ++ rest)) (o.toList ++ es)

/-! ## One line -/

/-- The code of a language in any letter case is two letters. -/
theorem exists_letters_of_toLower {code : List Char} {l : Language}
    (h : code.map Char.toLower = l.code.toList) :
    ∃ a b, code = [a, b] ∧ a.isAlpha = true ∧ b.isAlpha = true := by
  obtain ⟨x, y, hcode, hx, hy⟩ : ∃ x y, l.code.toList = [x, y] ∧ x.isAlpha = true ∧ y.isAlpha = true := by
    cases l with
    | english => exact ⟨'e', 'n', rfl, rfl, rfl⟩
    | italian => exact ⟨'i', 't', rfl, rfl, rfl⟩
  rw [hcode] at h
  obtain ⟨a, rest, rfl, rfl, hrest⟩ := List.map_eq_cons_iff.1 h
  obtain ⟨b, tail, rfl, rfl, htail⟩ := List.map_eq_cons_iff.1 hrest
  obtain rfl := List.map_eq_nil_iff.1 htail
  rw [Char.isAlpha_toLower_eq_isAlpha] at hx hy
  exact ⟨a, b, rfl, hx, hy⟩

theorem WritesAddress.newline_not_mem {cs : List Char} {a : UInt16} (h : WritesAddress cs a) :
    '\n' ∉ cs := fun hmem => absurd (h.isHexDigit _ hmem) (by decide)

theorem WritesBounds.newline_not_mem {bounds : List Char} {low high : UInt16}
    (h : WritesBounds bounds low high) : '\n' ∉ bounds := by
  cases h with
  | single hcs => exact hcs.newline_not_mem
  | range hcs hds => simp [hcs.newline_not_mem, hds.newline_not_mem]

/-- The comment that a line holds once it is trimmed, or none if it is left out. -/
def LineHolds (line : List Char) : Option Entry → Prop
  | none => LeftOut (Text.trim line)
  | some e => IsComment (Text.trim line) e

/-- A line that starts with a semicolon after its blanks is left out. -/
theorem leftOut_trim_remark {before text : List Char} (hbefore : Text.Blanks before) :
    LeftOut (Text.trim (before ++ ';' :: text)) := by
  obtain ⟨after, htext, hafter, hlast⟩ := Text.trimEnd_eq_iff.1 (rfl : _ = Text.trimEnd (';' :: text))
  cases hbody : Text.trimEnd (';' :: text) with
  | nil =>
    -- the semicolon is no blank, so it is not trimmed
    rw [hbody, List.nil_append] at htext
    exact absurd (hafter ';' (htext ▸ List.mem_cons_self)) (by decide)
  | cons c body =>
    rw [hbody] at htext hlast
    obtain ⟨rfl, -⟩ := List.cons.inj htext
    have htrim : Text.trim (before ++ ';' :: text) = ';' :: body :=
      Text.trim_eq_iff.2 ⟨before, after, by rw [htext], hbefore, hafter, ⟨by rintro x ⟨⟩; decide, hlast⟩⟩
    rw [htrim]
    exact .inr rfl

theorem form_eq_append (bounds gap gap' text : List Char) (a b : Char) :
    bounds ++ (gap ++ a :: b :: (gap' ++ text)) = (bounds ++ (gap ++ a :: b :: gap')) ++ text := by simp

/-- A well-formed comment is held by the lines that write it. -/
theorem WritesLine.lineHolds {line : List Char} {o : Option Entry} (h : WritesLine line o)
    (ho : ∀ e ∈ o, e.WellFormed) : LineHolds line o := by
  cases h with
  | blank hpad =>
    refine .inl (Text.trim_eq_iff.2 ⟨line, [], by simp, hpad.blanks, by simp [Text.Blanks], ?_⟩)
    exact ⟨by simp, by simp⟩
  | remark hbefore _ => exact leftOut_trim_remark hbefore.blanks
  | @comment before bounds gap code gap' after e hbefore hbounds hgap hne hcode hgap' hne' hafter =>
    obtain ⟨hle, hnonempty, -, htrimmed⟩ := ho e rfl
    obtain ⟨a, b, rfl, ha, hb⟩ := exists_letters_of_toLower hcode
    have hform : HasForm (bounds ++ (gap ++ a :: b :: (gap' ++ e.text.toList)))
        ⟨e.low, e.high, String.ofList [a, b], String.ofList e.text.toList⟩ := by
      refine .mk hbounds ⟨hne, hgap.blanks⟩ ha hb ⟨hne', hgap'.blanks⟩ ?_
      obtain ⟨c, hc⟩ := Option.isSome_iff_exists.1 (List.isSome_head?.2 hnonempty)
      exact ⟨c, hc, htrimmed.head c hc⟩
    have htrim : Text.trim (before ++ (bounds ++ (gap ++ ([a, b] ++ (gap' ++ (e.text.toList ++ after)))))) =
        bounds ++ (gap ++ a :: b :: (gap' ++ e.text.toList)) := by
      refine Text.trim_eq_iff.2 ⟨before, after, by simp, hbefore.blanks, hafter.blanks, ⟨?_, ?_⟩⟩
      · intro c hc
        obtain ⟨d, hd, hdigit⟩ := hform.exists_head?
        rw [Option.mem_unique hc hd]
        exact Text.isBlank_of_isHexDigit hdigit
      · rw [form_eq_append, List.getLast?_append_of_ne_nil _ hnonempty]
        exact htrimmed.last
    rw [LineHolds, htrim]
    rw [String.ofList_toList] at hform
    exact IsComment.mk hform hle (by rw [String.toList_ofList]; exact hcode)

theorem writesLine_of_leftOut {line : List Char} (h : LeftOut (Text.trim line)) (hline : '\n' ∉ line) :
    WritesLine line none := by
  obtain ⟨before, after, hcut, hbefore, hafter, -⟩ := Text.trim_eq_iff.1 (rfl : _ = Text.trim line)
  rcases h with hnil | hsemicolon
  · rw [hnil, List.nil_append] at hcut
    refine .blank ⟨?_, hline⟩
    rw [hcut]
    exact List.forall_mem_append.2 ⟨hbefore, hafter⟩
  · obtain ⟨body, hbody⟩ := List.head?_eq_some_iff.1 hsemicolon
    rw [hbody, List.cons_append] at hcut
    rw [hcut, List.mem_append, List.mem_cons, not_or, not_or] at hline
    rw [hcut]
    exact .remark ⟨hbefore, hline.1⟩ hline.2.2

/-- A line without a line feed that holds a comment writes it, and the comment is well-formed. -/
theorem writesLine_of_isComment {line : List Char} {e : Entry} (h : IsComment (Text.trim line) e)
    (hline : '\n' ∉ line) : WritesLine line (some e) ∧ e.WellFormed := by
  obtain ⟨before, after, hcut, hbefore, hafter, htrimmed⟩ := Text.trim_eq_iff.1 (rfl : _ = Text.trim line)
  obtain @⟨s, language, hform, hle, hcode⟩ := h
  generalize Text.trim line = body at hform hcut htrimmed
  obtain @⟨bounds, gap, gap', text, low, high, a, b, hbounds, hgap, ha, hb, hgap', c, hc, hblank⟩ := hform
  have hne : text ≠ [] := by
    rintro rfl
    cases hc
  rw [form_eq_append] at htrimmed
  rw [hcut] at hline
  simp only [List.mem_append, List.mem_cons, not_or] at hline
  obtain ⟨hbefore', ⟨-, hgap1, -, -, hgap2, htext⟩, hafter'⟩ := hline
  constructor
  · have hparts : line = before ++ (bounds ++ (gap ++ ([a, b] ++ (gap' ++
        ((String.ofList text).toList ++ after))))) := by
      rw [hcut]
      simp
    rw [hparts]
    rw [String.toList_ofList] at hcode
    exact @WritesLine.comment before bounds gap [a, b] gap' after
      ⟨low, high, language, String.ofList text⟩ ⟨hbefore, hbefore'⟩ hbounds ⟨hgap.blanks, hgap1⟩
      hgap.nonempty hcode ⟨hgap'.blanks, hgap2⟩ hgap'.nonempty ⟨hafter, hafter'⟩
  · refine ⟨hle, ?_, ?_, ⟨?_, ?_⟩⟩
    all_goals rw [String.toList_ofList]
    · exact hne
    · exact htext
    · exact fun x hx => Option.mem_unique hx hc ▸ hblank
    · rw [← List.getLast?_append_of_ne_nil _ hne]
      exact htrimmed.last

theorem LineHolds.writesLine {line : List Char} {o : Option Entry} (h : LineHolds line o)
    (hline : '\n' ∉ line) : WritesLine line o ∧ ∀ e ∈ o, e.WellFormed := by
  cases o with
  | none => exact ⟨writesLine_of_leftOut h hline, by simp⟩
  | some e =>
    obtain ⟨hwrites, hwf⟩ := writesLine_of_isComment h hline
    exact ⟨hwrites, fun _ he => Option.mem_some_iff.1 he ▸ hwf⟩

/-! ## Files -/

theorem IsPad.append {xs ys : List Char} (hxs : IsPad xs) (hys : IsPad ys) : IsPad (xs ++ ys) :=
  ⟨List.forall_mem_append.2 ⟨hxs.blanks, hys.blanks⟩, by simp [hxs.oneLine, hys.oneLine]⟩

theorem isPad_cr : IsPad ['\r'] := ⟨by simp [Text.Blanks]; decide, by decide⟩

/-- A carriage return at the end of a line is one of its blanks, or belongs to its remark. -/
theorem WritesLine.append_cr {line : List Char} {o : Option Entry} (h : WritesLine line o) :
    WritesLine (line ++ ['\r']) o := by
  cases h with
  | blank hpad => exact .blank (hpad.append isPad_cr)
  | remark hbefore htext =>
    rw [List.append_assoc, List.cons_append]
    exact .remark hbefore (by simp [htext])
  | comment hbefore hbounds hgap hne hcode hgap' hne' hafter =>
    simp only [List.append_assoc]
    exact .comment hbefore hbounds hgap hne hcode hgap' hne' (hafter.append isPad_cr)

theorem WritesLine.newline_not_mem {line : List Char} {o : Option Entry} (h : WritesLine line o)
    (ho : ∀ e ∈ o, e.WellFormed) : '\n' ∉ line := by
  cases h with
  | blank hpad => exact hpad.oneLine
  | remark hbefore htext => simp [hbefore.oneLine, htext]
  | @comment _ _ _ _ _ _ e hbefore hbounds hgap _ hcode hgap' _ hafter =>
    obtain ⟨a, b, rfl, ha, hb⟩ := exists_letters_of_toLower hcode
    have hletters : '\n' ∉ [a, b] := by
      rintro hmem
      rcases List.mem_pair.1 hmem with rfl | rfl
      · cases ha
      · cases hb
    simp only [List.mem_append, not_or]
    exact ⟨hbefore.oneLine, hbounds.newline_not_mem, hgap.oneLine, hletters, hgap'.oneLine,
      (ho e rfl).oneLine, hafter.oneLine⟩

theorem linesHold_cons_iff {line : List Char} {lines : List (List Char)} {es : List Entry} :
    LinesHold (line :: lines) es ↔
      ∃ o fs, LineHolds line o ∧ LinesHold lines fs ∧ es = o.toList ++ fs := by
  constructor
  · intro h
    cases h with
    | leftOut hout hlines => exact ⟨none, es, hout, hlines, rfl⟩
    | comment he hlines => exact ⟨some _, _, he, hlines, rfl⟩
  · rintro ⟨o, fs, hline, hlines, rfl⟩
    cases o with
    | none => exact .leftOut hline hlines
    | some e => exact .comment hline hlines

/-- The lines of a file hold the well-formed comments that it writes. -/
theorem Writes.linesHold {content : List Char} {es : List Entry} (h : Writes content es)
    (hes : ∀ e ∈ es, e.WellFormed) : LinesHold (content.splitOn '\n') es := by
  induction h with
  | last hline =>
    have ho := fun e he => hes e (Option.mem_toList.2 he)
    rw [List.splitOn_eq_singleton (hline.newline_not_mem ho), linesHold_cons_iff]
    exact ⟨_, [], hline.lineHolds ho, .nil, (List.append_nil _).symm⟩
  | @line line ending rest o es hline hending _ ih =>
    have ho := fun e he => hes e (List.mem_append_left es (Option.mem_toList.2 he))
    have hrest := ih fun e he => hes e (List.mem_append_right _ he)
    -- with either line end, what stands before the line feed writes the same
    obtain ⟨line', hline', hcut⟩ : ∃ line', WritesLine line' o ∧
        line ++ (ending ++ rest) = line' ++ '\n' :: rest := by
      cases hending with
      | lf => exact ⟨line, hline, rfl⟩
      | crlf => exact ⟨line ++ ['\r'], hline.append_cr, by simp⟩
    rw [hcut, List.splitOn_append_cons_self_of_not_mem (hline'.newline_not_mem ho), linesHold_cons_iff]
    exact ⟨o, es, hline'.lineHolds ho, hrest, rfl⟩

/-- Lines without line feeds, joined by them, write the comments that they hold. -/
theorem LinesHold.writes {lines : List (List Char)} {es : List Entry} (h : LinesHold lines es)
    (hne : lines ≠ []) (hlines : ∀ line ∈ lines, '\n' ∉ line) :
    Writes (['\n'].intercalate lines) es ∧ ∀ e ∈ es, e.WellFormed := by
  induction lines generalizing es with
  | nil => exact absurd rfl hne
  | cons line lines ih =>
    obtain ⟨o, fs, hline, hrest, rfl⟩ := linesHold_cons_iff.1 h
    obtain ⟨hfirst, hlines⟩ := List.forall_mem_cons.1 hlines
    obtain ⟨hwrites, ho⟩ := hline.writesLine hfirst
    have ho' : ∀ e ∈ o.toList, e.WellFormed := fun e he => ho e (Option.mem_toList.1 he)
    cases lines with
    | nil =>
      cases hrest
      rw [List.intercalate_singleton, List.append_nil]
      exact ⟨.last hwrites, ho'⟩
    | cons next lines =>
      obtain ⟨hwrites', hfs⟩ := ih hrest (by simp) hlines
      rw [List.intercalate_cons_cons, List.append_assoc]
      exact ⟨.line hwrites .lf hwrites', List.forall_mem_append.2 ⟨ho', hfs⟩⟩

/-! ## Printing -/

/-- A comment on a line of its own: addresses of four digits, the code of the language and the text, with
one space between them. -/
def Entry.printed (e : Entry) : String :=
  (if e.low = e.high then Text.hex 4 e.low.toNat
    else Text.hex 4 e.low.toNat ++ "-" ++ Text.hex 4 e.high.toNat) ++ " " ++ e.language.code ++ " " ++ e.text

/-- A file with a line for each comment. -/
def printed (es : List Entry) : String :=
  String.ofList (es.flatMap fun e => e.printed.toList ++ ['\n'])

theorem isPad_space : IsPad [' '] := ⟨by simp [Text.Blanks]; decide, by decide⟩

theorem isPad_nil : IsPad [] := ⟨by simp [Text.Blanks], by simp⟩

theorem writesAddress_hex (a : UInt16) : WritesAddress (Text.hex 4 a.toNat).toList a := by
  have hlt : a.toNat < 16 ^ 4 := a.toNat_lt
  rw [Text.toList_hex (by decide) hlt]
  have hlen := Text.length_hexDigits Text.upperDigit 4 a.toNat
  exact ⟨by omega, by omega, Text.hexNumeral_hexDigits hlt⟩

theorem Entry.writesLine_printed (e : Entry) : WritesLine e.printed.toList (some e) := by
  obtain ⟨bounds, hbounds, hline⟩ : ∃ bounds, WritesBounds bounds e.low e.high ∧
      e.printed.toList = bounds ++ ([' '] ++ (e.language.code.toList ++ ([' '] ++ e.text.toList))) := by
    unfold Entry.printed
    split
    · rename_i heq
      refine ⟨(Text.hex 4 e.low.toNat).toList, ?_, by simp⟩
      rw [← heq]
      exact .single (writesAddress_hex e.low)
    · exact ⟨_, .range (writesAddress_hex e.low) (writesAddress_hex e.high), by simp⟩
  have := WritesLine.comment isPad_nil hbounds isPad_space (by simp) (Language.toLower_code e.language)
    isPad_space (by simp) isPad_nil
  rw [List.nil_append, List.append_nil] at this
  rw [hline]
  exact this

/-- Printed comments are written, and the last line is empty. -/
theorem writes_printed (es : List Entry) : Writes (printed es).toList es := by
  rw [printed, String.toList_ofList]
  induction es with
  | nil => exact .last (.blank isPad_nil)
  | cons e es ih =>
    rw [List.flatMap_cons, List.append_assoc]
    exact .line e.writesLine_printed .lf ih

/-! ## Reading back -/

theorem parseFile_of_writes {content : String} {es : List Entry} (h : Writes content.toList es)
    (hes : ∀ e ∈ es, e.WellFormed) : parseFile content = .ok es :=
  parseFile_eq_ok_iff_linesHold.2 (h.linesHold hes)

theorem writes_of_parseFile {content : String} {es : List Entry} (h : parseFile content = .ok es) :
    Writes content.toList es ∧ ∀ e ∈ es, e.WellFormed := by
  have hholds := parseFile_eq_ok_iff_linesHold.1 h
  have hwrites := hholds.writes (List.splitOn_ne_nil _ _) fun line => Text.not_mem_of_mem_splitOn
  rwa [List.intercalate_splitOn] at hwrites

/-- Reading a file gives exactly the well-formed comments that the file writes, and well-formed comments
are exactly those that are read back when they are printed. -/
theorem parseFile_eq_ok_iff_writes (content : String) (es : List Entry) :
    (parseFile content = .ok es ↔ Writes content.toList es ∧ ∀ e ∈ es, e.WellFormed) ∧
    (parseFile (printed es) = .ok es ↔ ∀ e ∈ es, e.WellFormed) := by
  refine ⟨⟨writes_of_parseFile, ?_⟩, ⟨?_, parseFile_of_writes (writes_printed es)⟩⟩
  · rintro ⟨hwrites, hes⟩
    exact parseFile_of_writes hwrites hes
  · exact fun h => (writes_of_parseFile h).2

-- a text may hold what stands around texts: semicolons, addresses, codes and blanks
example : parseFile "; D020 en x\r\n\td0-D0ff\u0085EN ;D0-D1\u0085it  \r\n\n  ffff It x" =
    .ok [⟨0xD0, 0xD0FF, .english, ";D0-D1\u0085it"⟩, ⟨0xFFFF, 0xFFFF, .italian, "x"⟩] := by
  decide +kernel

end Comment

end RetroListing
