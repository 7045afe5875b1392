/-
The tokens of a JSON document. Blanks between tokens are dropped; strings and numbers are checked to
be well formed and kept as they are written.
-/
import RetroListing.Json.Text

namespace RetroListing.Json

/-- A token. -/
inductive Token where
  | openBrace
  | closeBrace
  | openBracket
  | closeBracket
  | colon
  | comma
  | null
  | bool (b : Bool)
  | number (written : String)
  | string (written : String)
  deriving DecidableEq, Repr

/-! ## Strings -/

/-- A string up to its closing quote, and what follows. Control characters must be escaped. -/
def stringBody? : List Char → Option (List Char × List Char)
  | [] => none
  | '"' :: rest => some ([], rest)
  | '\\' :: 'u' :: a :: b :: c :: d :: rest =>
    if [a, b, c, d].all Text.isHexDigit then
      (stringBody? rest).map fun (body, rest) => ('\\' :: 'u' :: a :: b :: c :: d :: body, rest)
    else none
  | '\\' :: e :: rest =>
    if (escapeCode? e).isSome then
      (stringBody? rest).map fun (body, rest) => ('\\' :: e :: body, rest)
    else none
  | c :: rest =>
    if c = '\\' ∨ c.toNat < 0x20 then none
    else (stringBody? rest).map fun (body, rest) => (c :: body, rest)

theorem length_stringBody? {cs body rest : List Char} (h : stringBody? cs = some (body, rest)) :
    rest.length < cs.length := by
  fun_induction stringBody? cs generalizing body rest <;>
    simp_all only [Option.map_eq_some_iff, Option.some.injEq, Prod.mk.injEq, reduceCtorEq,
      List.length_cons] <;> grind

/-! ## Numbers -/

/-- The digits that `cs` starts with, and what follows. -/
def digits (cs : List Char) : List Char × List Char :=
  (cs.takeWhile Char.isDigit, cs.dropWhile Char.isDigit)

/-- One or more digits, and what follows. -/
def digits? (cs : List Char) : Option (List Char × List Char) :=
  let (ds, rest) := digits cs
  if ds.isEmpty then none else some (ds, rest)

/-- The whole part of a number: a zero, or digits that do not start with one. -/
def wholePart? : List Char → Option (List Char × List Char)
  | '0' :: rest => some (['0'], rest)
  | cs => digits? cs

/-- The fraction of a number, which may be missing. -/
def fraction? : List Char → Option (List Char × List Char)
  | '.' :: rest => (digits? rest).map fun (ds, rest) => ('.' :: ds, rest)
  | cs => some ([], cs)

/-- The sign of an exponent, which may be missing. -/
def exponentSign : List Char → List Char × List Char
  | '+' :: rest => (['+'], rest)
  | '-' :: rest => (['-'], rest)
  | cs => ([], cs)

/-- The exponent of a number, which may be missing. -/
def exponent? : List Char → Option (List Char × List Char)
  | [] => some ([], [])
  | c :: rest =>
    if c = 'e' ∨ c = 'E' then
      let signed := exponentSign rest
      (digits? signed.2).map fun (ds, rest) => (c :: signed.1 ++ ds, rest)
    else some ([], c :: rest)

/-- A number without its sign, and what follows. -/
def unsigned? (cs : List Char) : Option (List Char × List Char) := do
  let (whole, rest) ← wholePart? cs
  let (fraction, rest) ← fraction? rest
  let (exponent, rest) ← exponent? rest
  return (whole ++ fraction ++ exponent, rest)

/-- A number, and what follows. -/
def number? : List Char → Option (List Char × List Char)
  | '-' :: rest => (unsigned? rest).map fun (written, rest) => ('-' :: written, rest)
  | cs => unsigned? cs

/-! Every part leaves a shorter rest, or the same one where it may be missing. -/

theorem length_digits? {cs ds rest : List Char} (h : digits? cs = some (ds, rest)) :
    rest.length < cs.length := by
  have hcs := congrArg List.length (List.takeWhile_append_dropWhile (p := Char.isDigit) (l := cs))
  simp only [digits?, digits, Option.ite_none_left_eq_some, Option.some.injEq, Prod.mk.injEq,
    List.isEmpty_iff, List.length_append] at h hcs
  obtain ⟨hne, -, rfl⟩ := h
  have := List.length_pos_iff.2 hne
  omega

theorem length_wholePart? {cs ds rest : List Char} (h : wholePart? cs = some (ds, rest)) :
    rest.length < cs.length := by
  unfold wholePart? at h
  split at h
  · cases h; simp
  · exact length_digits? h

theorem length_fraction? {cs ds rest : List Char} (h : fraction? cs = some (ds, rest)) :
    rest.length ≤ cs.length := by
  unfold fraction? at h
  split at h
  · obtain ⟨⟨ds', rest'⟩, hd, he⟩ := Option.map_eq_some_iff.1 h
    cases he
    have := length_digits? hd
    simp only [List.length_cons]
    omega
  · cases h; exact Nat.le_refl _

theorem length_exponentSign (cs : List Char) : (exponentSign cs).2.length ≤ cs.length := by
  unfold exponentSign
  split <;> simp

theorem length_exponent? {cs ds rest : List Char} (h : exponent? cs = some (ds, rest)) :
    rest.length ≤ cs.length := by
  unfold exponent? at h
  split at h
  · cases h; exact Nat.le_refl _
  · next c cs =>
    split at h
    · obtain ⟨⟨ds', rest'⟩, hd, he⟩ := Option.map_eq_some_iff.1 h
      cases he
      have := length_digits? hd
      have := length_exponentSign cs
      simp only [List.length_cons] at *
      omega
    · cases h; exact Nat.le_refl _

theorem length_unsigned? {cs ds rest : List Char} (h : unsigned? cs = some (ds, rest)) :
    rest.length < cs.length := by
  simp only [unsigned?, Option.bind_eq_bind, Option.bind_eq_some_iff, Option.pure_def,
    Option.some.injEq, Prod.mk.injEq] at h
  obtain ⟨⟨_, _⟩, hw, ⟨_, _⟩, hf, ⟨_, _⟩, he, -, rfl⟩ := h
  have := length_wholePart? hw
  have := length_fraction? hf
  have := length_exponent? he
  dsimp only at *
  omega

theorem length_number? {cs ds rest : List Char} (h : number? cs = some (ds, rest)) :
    rest.length < cs.length := by
  unfold number? at h
  split at h
  · obtain ⟨⟨_, _⟩, hd, he⟩ := Option.map_eq_some_iff.1 h
    cases he
    have := length_unsigned? hd
    simp only [List.length_cons]
    omega
  · exact length_unsigned? h

/-! ## Documents -/

/-- The characters that may stand between tokens. -/
def isSpace (c : Char) : Bool := c == ' ' || c == '\t' || c == '\n' || c == '\r'

/-- The token that a character is by itself. -/
def punctuation? : Char → Option Token
  | '\x7b' => some .openBrace
  | '\x7d' => some .closeBrace
  | '[' => some .openBracket
  | ']' => some .closeBracket
  | ':' => some .colon
  | ',' => some .comma
  | _ => none

/-- The first token of a text that does not start with a space, and what follows. -/
def token? : List Char → Option (Token × List Char)
  | [] => none
  | '"' :: rest => (stringBody? rest).map fun (body, rest) => (.string (String.ofList body), rest)
  | 'n' :: 'u' :: 'l' :: 'l' :: rest => some (.null, rest)
  | 't' :: 'r' :: 'u' :: 'e' :: rest => some (.bool true, rest)
  | 'f' :: 'a' :: 'l' :: 's' :: 'e' :: rest => some (.bool false, rest)
  | c :: rest =>
    match punctuation? c with
    | some t => some (t, rest)
    | none =>
      (number? (c :: rest)).map fun (written, rest) => (.number (String.ofList written), rest)

theorem length_token? {cs rest : List Char} {t : Token} (h : token? cs = some (t, rest)) :
    rest.length < cs.length := by
  unfold token? at h
  split at h
  · cases h
  · obtain ⟨⟨_, _⟩, hb, he⟩ := Option.map_eq_some_iff.1 h
    cases he
    have := length_stringBody? hb
    simp only [List.length_cons]
    omega
  · cases h; simp only [List.length_cons]; omega
  · cases h; simp only [List.length_cons]; omega
  · cases h; simp only [List.length_cons]; omega
  · split at h
    · cases h; simp
    · obtain ⟨⟨_, _⟩, hn, he⟩ := Option.map_eq_some_iff.1 h
      cases he
      exact length_number? hn

/-- The tokens of a document; `none` if some part is no token. -/
def tokens? : List Char → Option (List Token)
  | [] => some []
  | c :: cs =>
    if isSpace c then tokens? cs
    else
      match _ : token? (c :: cs) with
      | none => none
      | some (t, rest) => (tokens? rest).map (t :: ·)
termination_by cs => cs.length
decreasing_by
  · simp
  · exact length_token? ‹_›

end RetroListing.Json
