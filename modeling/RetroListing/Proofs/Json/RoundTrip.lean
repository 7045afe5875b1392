/-
JSON documents read back. A text that is written between quotes stands for itself
(`unescape?_escape`), and the indented form of a value is read as that value (`parse?_render`), for values
whose strings write texts and that hold no numbers.
-/
import RetroListing.Json.Parser
import Mathlib.Tactic.SplitIfs

namespace RetroListing.Json

/-! ## Strings -/

/-- The ways to write a code point between quotes: the character itself, an escape of one letter, or one
of four digits. -/
inductive Spells : List Char → Nat → Prop
  | plain {c : Char} : c ≠ '"' → c ≠ '\\' → 0x20 ≤ c.toNat → Spells [c] c.toNat
  | letter {e : Char} {code : Nat} : escapeCode? e = some code → Spells ['\\', e] code
  | digits {a b c d : Char} {code : Nat} : unitCode? [a, b, c, d] = some code →
      Spells ['\\', 'u', a, b, c, d] code

theorem unitCode?_hexDigits : ∀ n < 0x20, unitCode? (Text.hexDigits Text.lowerDigit 4 n) = some n := by
  decide

theorem spells_escapeChar (c : Char) : Spells (escapeChar c) c.toNat := by
  unfold escapeChar
  split_ifs with h1 h2 h3 h4 h5 h6 h7 h8
  · subst h1; exact .letter rfl
  · subst h2; exact .letter rfl
  · subst h3; exact .letter rfl
  · subst h4; exact .letter rfl
  · subst h5; exact .letter rfl
  · subst h6; exact .letter rfl
  · subst h7; exact .letter rfl
  · exact .digits (unitCode?_hexDigits c.toNat h8)
  · exact .plain h1 h2 (Nat.le_of_not_lt h8)

/-- A code point that is written ends no string. -/
theorem Spells.stringBody?_append {w : List Char} {code : Nat} (h : Spells w code) (cs : List Char) :
    stringBody? (w ++ cs) = (stringBody? cs).map fun (body, rest) => (w ++ body, rest) := by
  cases h with
  | plain hquote hback hcontrol =>
    have hlegal : ¬ (_ = '\\' ∨ _ < 0x20) := not_or.2 ⟨hback, Nat.not_lt.2 hcontrol⟩
    rw [List.singleton_append, stringBody?, if_neg hlegal]
    · rfl
    · exact hquote
    · exact fun _ _ _ _ _ h => absurd h hback
    · exact fun _ _ h => absurd h hback
  | letter he =>
    rw [List.cons_append, List.singleton_append, stringBody?, he]
    · rfl
    · rintro _ _ _ _ _ rfl
      cases he
  | digits hcode =>
    have hdigits := (Option.ite_none_right_eq_some.1 hcode).1
    simp only [List.cons_append, List.nil_append]
    rw [stringBody?, if_pos hdigits]

/-- A code point that is written is read. -/
theorem Spells.codes?_append {w : List Char} {code : Nat} (h : Spells w code) (cs : List Char) :
    codes? (w ++ cs) = (codes? cs).map (code :: ·) := by
  cases h with
  | plain _ hback _ =>
    rw [List.singleton_append, codes?]
    · exact fun _ _ _ _ _ h => absurd h hback
    · exact fun _ _ h => absurd h hback
    · exact fun h => absurd h hback
  | letter he =>
    rw [List.cons_append, List.singleton_append, codes?, he]
    · cases codes? cs <;> rfl
    · rintro _ _ _ _ _ rfl
      cases he
  | digits hcode =>
    simp only [List.cons_append, List.nil_append]
    rw [codes?, hcode]
    cases codes? cs <;> rfl

theorem stringBody?_escape (cs rest : List Char) :
    stringBody? (cs.flatMap escapeChar ++ '"' :: rest) = some (cs.flatMap escapeChar, rest) := by
  induction cs with
  | nil => rfl
  | cons c cs ih =>
    rw [List.flatMap_cons, List.append_assoc, (spells_escapeChar c).stringBody?_append, ih]
    rfl

theorem codes?_escape (cs : List Char) :
    codes? (cs.flatMap escapeChar) = some (cs.map Char.toNat) := by
  induction cs with
  | nil => rfl
  | cons c cs ih =>
    rw [List.flatMap_cons, (spells_escapeChar c).codes?_append, ih]
    rfl

/-- The code of a character is no half of a surrogate pair. -/
theorem not_surrogate (c : Char) : isHighSurrogate c.toNat = false ∧ isLowSurrogate c.toNat = false := by
  have hvalid : c.toNat < 0xD800 ∨ 0xDFFF < c.toNat ∧ c.toNat < 0x110000 := c.valid
  simp only [isHighSurrogate, isLowSurrogate, Bool.and_eq_false_iff, decide_eq_false_iff_not]
  omega

theorem joinCodes?_toNat (cs : List Char) : joinCodes? (cs.map Char.toNat) = some cs := by
  induction cs with
  | nil => rfl
  | cons c cs ih =>
    obtain ⟨hhigh, hlow⟩ := not_surrogate c
    rw [List.map_cons, joinCodes?.eq_def]
    simp [hhigh, hlow, ih]

/-- A written text stands for itself. -/
theorem unescape?_escape (text : String) : unescape? (escape text) = some text := by
  rw [unescape?, escape, String.toList_ofList, codes?_escape, Option.bind_some, joinCodes?_toNat,
    Option.map_some, String.ofList_toList]

/-! ## Tokens -/

mutual

/-- The tokens of a value. -/
def tokens : Json → List Token
  | .null => [.null]
  | .bool b => [.bool b]
  | .number written => [.number written]
  | .string written => [.string written]
  | .array [] => [.openBracket, .closeBracket]
  | .array (item :: items) => .openBracket :: item.tokens ++ itemsTokens items ++ [.closeBracket]
  | .object [] => [.openBrace, .closeBrace]
  | .object ((name, value) :: members) =>
    .openBrace :: .string name :: .colon :: value.tokens ++ membersTokens members ++ [.closeBrace]

/-- The tokens of the items of an array after the first. -/
def itemsTokens : List Json → List Token
  | [] => []
  | item :: items => .comma :: item.tokens ++ itemsTokens items

/-- The tokens of the members of an object after the first. -/
def membersTokens : List (String × Json) → List Token
  | [] => []
  | (name, value) :: members =>
    .comma :: .string name :: .colon :: value.tokens ++ membersTokens members

end

theorem tokens?_of_token? {c : Char} {cs rest : List Char} {t : Token} (hc : isSpace c = false)
    (h : token? (c :: cs) = some (t, rest)) : tokens? (c :: cs) = (tokens? rest).map (t :: ·) := by
  rw [tokens?, hc, if_neg Bool.false_ne_true]
  split
  · simp_all
  · simp_all

theorem tokens?_of_isSpace {c : Char} (hc : isSpace c = true) (cs : List Char) :
    tokens? (c :: cs) = tokens? cs := by
  rw [tokens?, if_pos hc]

theorem tokens?_newline (depth : Nat) (rest : List Char) :
    tokens? ((newline depth).toList ++ rest) = tokens? rest := by
  have spaces : ∀ n, tokens? (List.replicate n ' ' ++ rest) = tokens? rest := by
    intro n
    induction n with
    | zero => rfl
    | succ n ih => rw [List.replicate_succ, List.cons_append, tokens?_of_isSpace rfl, ih]
  rw [newline, String.toList_append, String.toList_ofList, String.toList_ofList, List.append_assoc,
    List.singleton_append, tokens?_of_isSpace rfl, spaces]

theorem tokens?_escape (text : String) (rest : List Char) :
    tokens? ('"' :: (escape text).toList ++ '"' :: rest) = (tokens? rest).map (.string (escape text) :: ·) := by
  refine tokens?_of_token? rfl ?_
  rw [List.append_eq, token?, escape, String.toList_ofList, stringBody?_escape]
  rfl

/-! ## Documents -/

/-- Values without numbers whose strings are written as texts are. -/
inductive Plain : Json → Prop
  | null : Plain .null
  | bool (b : Bool) : Plain (.bool b)
  | text (text : String) : Plain (.ofText text)
  | items {items : List Json} : (∀ j ∈ items, Plain j) → Plain (.array items)
  | members {members : List (String × Json)} : (∀ m ∈ members, Plain m.2) → Plain (.ofMembers members)

/-- Members with their names as they are written between quotes. -/
def written (ms : List (String × Json)) : List (String × Json) := ms.map fun m => (escape m.1, m.2)

theorem written_cons (name : String) (value : Json) (ms : List (String × Json)) :
    written ((name, value) :: ms) = (escape name, value) :: written ms := rfl

theorem ofMembers_eq (ms : List (String × Json)) : ofMembers ms = .object (written ms) := rfl

/-- Wherever the indented form of the value stands in a document, it is cut into the tokens of the
value. -/
def Lexes (j : Json) : Prop :=
  ∀ depth rest, tokens? ((pretty depth j).toList ++ rest) = (tokens? rest).map (j.tokens ++ ·)

/-- Wherever the tokens of the value stand, they are read as the value. -/
def Reads (j : Json) : Prop :=
  ∀ fuel rest, j.tokens.length ≤ fuel → value? fuel (j.tokens ++ rest) = some (j, rest)

/-- The first member of an object, or one after a comma. -/
theorem Lexes.member {value : Json} (h : Lexes value) (name : String) (depth : Nat) (rest : List Char) :
    tokens? ('"' :: ((escape name).toList ++ '"' :: ':' :: ' ' :: ((pretty depth value).toList ++ rest))) =
      (tokens? rest).map (.string (escape name) :: .colon :: value.tokens ++ ·) := by
  rw [← List.cons_append, tokens?_escape, tokens?_of_token? (c := ':') rfl rfl, tokens?_of_isSpace rfl, h]
  simp [Function.comp_def]

theorem tokens?_prettyItems {items : List Json} (h : ∀ j ∈ items, Lexes j) (depth : Nat)
    (rest : List Char) :
    tokens? ((prettyItems depth items).toList ++ rest) = (tokens? rest).map (itemsTokens items ++ ·) := by
  induction items with
  | nil => simp [prettyItems, itemsTokens]
  | cons item items ih =>
    obtain ⟨hitem, hitems⟩ := List.forall_mem_cons.1 h
    simp only [prettyItems, String.toList_append, String.reduceToList, List.append_assoc, List.cons_append,
      List.nil_append]
    rw [tokens?_of_token? (c := ',') rfl rfl, tokens?_newline, hitem, ih hitems]
    simp [itemsTokens, Function.comp_def]

theorem tokens?_prettyMembers {ms : List (String × Json)} (h : ∀ m ∈ ms, Lexes m.2) (depth : Nat)
    (rest : List Char) :
    tokens? ((prettyMembers depth (written ms)).toList ++ rest) =
      (tokens? rest).map (membersTokens (written ms) ++ ·) := by
  induction ms with
  | nil => simp [written, prettyMembers, membersTokens]
  | cons m ms ih =>
    obtain ⟨name, value⟩ := m
    obtain ⟨hvalue, hms⟩ := List.forall_mem_cons.1 h
    simp only [written_cons, prettyMembers, String.toList_append, String.reduceToList, List.append_assoc,
      List.cons_append, List.nil_append]
    rw [tokens?_of_token? (c := ',') rfl rfl, tokens?_newline, hvalue.member, ih hms]
    simp [membersTokens, Function.comp_def]

theorem Plain.lexes {j : Json} (h : Plain j) : Lexes j := by
  induction h with
  | null =>
    intro depth rest
    simp only [pretty, String.reduceToList, List.cons_append, List.nil_append]
    rw [tokens?_of_token? rfl rfl]
    rfl
  | bool b =>
    intro depth rest
    cases b with
    | false =>
      simp only [pretty, Bool.false_eq_true, if_false, String.reduceToList, List.cons_append, List.nil_append]
      rw [tokens?_of_token? rfl rfl]
      rfl
    | true =>
      simp only [pretty, if_true, String.reduceToList, List.cons_append, List.nil_append]
      rw [tokens?_of_token? rfl rfl]
      rfl
  | text text =>
    intro depth rest
    simp only [ofText, pretty, String.toList_append, String.reduceToList, List.append_assoc,
      List.cons_append, List.nil_append]
    rw [← List.cons_append, tokens?_escape]
    rfl
  | @items items _ ih =>
    intro depth rest
    cases items with
    | nil =>
      simp only [pretty, String.reduceToList, List.cons_append, List.nil_append]
      rw [tokens?_of_token? (c := '[') rfl rfl, tokens?_of_token? (c := ']') rfl rfl]
      simp [tokens, Function.comp_def]
    | cons item items =>
      obtain ⟨hitem, hitems⟩ := List.forall_mem_cons.1 ih
      simp only [pretty, String.toList_append, String.reduceToList, List.append_assoc, List.cons_append,
        List.nil_append]
      rw [tokens?_of_token? (c := '[') rfl rfl, tokens?_newline, hitem, tokens?_prettyItems hitems,
        tokens?_newline, tokens?_of_token? (c := ']') rfl rfl]
      simp [tokens, Function.comp_def]
  | @members members _ ih =>
    intro depth rest
    cases members with
    | nil =>
      simp only [ofMembers, List.map_nil, pretty, String.reduceToList, List.cons_append, List.nil_append]
      rw [tokens?_of_token? (c := '\x7b') rfl rfl, tokens?_of_token? (c := '\x7d') rfl rfl]
      simp [tokens, Function.comp_def]
    | cons m members =>
      obtain ⟨name, value⟩ := m
      obtain ⟨hvalue, hmembers⟩ := List.forall_mem_cons.1 ih
      simp only [ofMembers_eq, written_cons, pretty, String.toList_append, String.reduceToList,
        List.append_assoc, List.cons_append, List.nil_append]
      rw [tokens?_of_token? (c := '\x7b') rfl rfl, tokens?_newline, hvalue.member,
        tokens?_prettyMembers hmembers, tokens?_newline, tokens?_of_token? (c := '\x7d') rfl rfl]
      simp [tokens, Function.comp_def]

/-! ## Values -/

theorem items?_tokens {items : List Json} (h : ∀ j ∈ items, Reads j) {item : Json} (hitem : Reads item)
    (fuel : Nat) (rest : List Token) (hfuel : (item.tokens ++ itemsTokens items).length < fuel) :
    items? fuel (item.tokens ++ itemsTokens items ++ .closeBracket :: rest) = some (item :: items, rest) := by
  induction items generalizing item fuel with
  | nil =>
    obtain ⟨fuel, rfl⟩ : ∃ n, fuel = n + 1 := ⟨fuel - 1, by omega⟩
    simp only [itemsTokens, List.append_nil] at hfuel ⊢
    rw [items?, hitem fuel _ (by omega)]
  | cons next items ih =>
    obtain ⟨hnext, hitems⟩ := List.forall_mem_cons.1 h
    obtain ⟨fuel, rfl⟩ : ∃ n, fuel = n + 1 := ⟨fuel - 1, by omega⟩
    simp only [itemsTokens, List.length_append, List.length_cons] at hfuel
    simp only [itemsTokens, List.append_assoc, List.cons_append]
    rw [items?, hitem fuel _ (by omega)]
    have hrest := ih hitems hnext fuel (by rw [List.length_append]; omega)
    simp only [List.append_assoc] at hrest
    simp [hrest]

theorem members?_tokens {ms : List (String × Json)} (h : ∀ m ∈ ms, Reads m.2) (name : String) {value : Json}
    (hvalue : Reads value) (fuel : Nat) (rest : List Token)
    (hfuel : (value.tokens ++ membersTokens ms).length < fuel) :
    members? fuel (.string name :: .colon :: value.tokens ++ membersTokens ms ++ .closeBrace :: rest) =
      some ((name, value) :: ms, rest) := by
  induction ms generalizing name value fuel with
  | nil =>
    obtain ⟨fuel, rfl⟩ : ∃ n, fuel = n + 1 := ⟨fuel - 1, by omega⟩
    simp only [membersTokens, List.append_nil] at hfuel
    simp only [membersTokens, List.append_nil, List.cons_append]
    rw [members?, hvalue fuel _ (by omega)]
  | cons m ms ih =>
    obtain ⟨next, nextValue⟩ := m
    obtain ⟨(hnext : Reads nextValue), hms⟩ := List.forall_mem_cons.1 h
    obtain ⟨fuel, rfl⟩ : ∃ n, fuel = n + 1 := ⟨fuel - 1, by omega⟩
    simp only [membersTokens, List.length_append, List.length_cons] at hfuel
    simp only [membersTokens, List.append_assoc, List.cons_append]
    rw [members?, hvalue fuel _ (by omega)]
    have hrest := ih hms next hnext fuel (by rw [List.length_append]; omega)
    simp only [List.append_assoc, List.cons_append] at hrest
    simp [hrest]

/-- A value starts with no closing bracket. -/
theorem Reads.ne_closeBracket {j : Json} (h : Reads j) (rest more : List Token) :
    j.tokens ++ rest ≠ .closeBracket :: more := by
  intro e
  have hread := h (j.tokens.length + 1) rest (Nat.le_succ _)
  rw [e, value?] at hread <;> simp at *

theorem Plain.reads {j : Json} (h : Plain j) : Reads j := by
  induction h with
  | null | bool | text =>
    rintro (_ | fuel) rest hfuel
    · simp [tokens, ofText] at hfuel
    · simp [tokens, value?, ofText]
  | @items items _ ih =>
    rintro (_ | fuel) rest hfuel
    · cases items <;> simp [tokens] at hfuel
    · cases items with
      | nil => simp [tokens, value?]
      | cons item items =>
        obtain ⟨hitem, hitems⟩ := List.forall_mem_cons.1 ih
        simp only [tokens, List.length_append, List.length_cons, List.length_nil] at hfuel
        have hrest := items?_tokens hitems hitem fuel rest (by rw [List.length_append]; omega)
        simp only [tokens, List.append_assoc, List.cons_append, List.nil_append] at hrest ⊢
        rw [value?, hrest]
        · rfl
        · exact fun _ => hitem.ne_closeBracket _ _
  | @members members _ ih =>
    rintro (_ | fuel) rest hfuel
    · cases members <;> simp [tokens, ofMembers] at hfuel
    · cases members with
      | nil => simp [tokens, value?, ofMembers]
      | cons m members =>
        obtain ⟨name, value⟩ := m
        obtain ⟨(hvalue : Reads value), hmembers⟩ := List.forall_mem_cons.1 ih
        have hwritten : ∀ m ∈ written members, Reads m.2 := List.forall_mem_map.2 hmembers
        simp only [ofMembers_eq, written_cons, tokens, List.length_append, List.length_cons,
          List.length_nil] at hfuel
        have hrest := members?_tokens hwritten (escape name) hvalue fuel rest
          (by rw [List.length_append]; omega)
        simp only [ofMembers_eq, written_cons, tokens, List.append_assoc, List.cons_append,
          List.nil_append] at hrest ⊢
        rw [value?, hrest]
        · rfl
        · simp

/-- The indented form of a value is read as that value. -/
theorem Plain.parse?_render {j : Json} (h : Plain j) : parse? j.render = some j := by
  have htokens : tokens? j.render.toList = some j.tokens := by
    have := h.lexes 0 []
    rw [List.append_nil, tokens?, Option.map_some, List.append_nil] at this
    exact this
  have hvalue := h.reads (2 * j.tokens.length + 1) [] (by omega)
  rw [List.append_nil] at hvalue
  rw [parse?, htokens, Option.bind_eq_bind, Option.bind_some, hvalue]

end RetroListing.Json
