/-
What the text of a note says about its cell. A note is read off its text (`Note.text_inj`). Of the two bytes the
note keeps the duration, which forgets something only where it is unknown or a utility (`ofByte_eq_iff`), and the
pitch, which forgets everything of a rest and how a C comes to be natural (`pitch?_eq_iff`).
-/
import RetroListing.Proofs.Text.Blank
import RetroListing.Proofs.Voice.Field

namespace RetroListing.Voice

/-! ## The text of a duration -/

theorem Length.text_inj {l l' : Length} (h : l.text = l'.text) : l = l' := by
  cases l <;> cases l' <;> simp [text] at h ⊢

theorem Length.plain (l : Length) : ' ' ∉ l.text.toList ∧ ':' ∉ l.text.toList ∧ l.text ≠ "UTILITY" := by
  cases l <;> simp [text]

namespace Duration

/-- What follows the length of a note. -/
def marks (dots : Dots) (tied : Bool) : String := dots.text ++ if tied then "TIED" else ""

theorem marks_inj {d d' : Dots} {t t' : Bool} (h : marks d t = marks d' t') : d = d' ∧ t = t' := by
  cases d <;> cases d' <;> cases t <;> cases t' <;> simp [marks, Dots.text] at h ⊢

theorem colon_not_mem_marks (d : Dots) (t : Bool) : ':' ∉ (marks d t).toList := by
  cases d <;> cases t <;> simp [marks, Dots.text]

theorem toList_text_lasting (l : Length) (d : Dots) (t : Bool) :
    (lasting l d t).text.toList = l.text.toList ++ ' ' :: (marks d t).toList := by
  simp [text, marks]

/-- Only a note that lasts and the utility voice are shown in several words. -/
theorem text_inj {d d' : Duration} (h : d.text = d'.text) : d = d' := by
  have hlasting : ∀ {d : Duration} {l m t}, (lasting l m t).text = d.text → d = lasting l m t := by
    intro d l m t h
    have hchars := congrArg String.toList h
    rw [toList_text_lasting] at hchars
    cases d with
    | utility | unknown =>
      have hblank : ' ' ∈ l.text.toList ++ ' ' :: (marks m t).toList := by simp
      rw [hchars] at hblank
      simp [text, unknownText] at hblank
    | utilityVoice =>
      have hvoice : utilityVoice.text.toList = "UTILITY".toList ++ ' ' :: "VOICE".toList := by simp [text]
      rw [hvoice] at hchars
      have hlength := (Text.append_cons_inj_of_not_mem l.plain.1 (by simp) hchars).1
      exact absurd (String.toList_inj.1 hlength) l.plain.2.2
    | lasting l' m' t' =>
      rw [toList_text_lasting] at hchars
      obtain ⟨hlength, hmarks⟩ := Text.append_cons_inj_of_not_mem l.plain.1 l'.plain.1 hchars
      obtain rfl := Length.text_inj (String.toList_inj.1 hlength)
      obtain ⟨rfl, rfl⟩ := marks_inj (String.toList_inj.1 hmarks)
      rfl
  cases d with
  | lasting => exact (hlasting h).symm
  | utility | utilityVoice | unknown =>
    cases d' with
    | lasting => exact hlasting h.symm
    | utility | utilityVoice | unknown => simp [text, unknownText] at h ⊢

theorem colon_not_mem_text (d : Duration) : ':' ∉ d.text.toList := by
  cases d with
  | lasting l m t =>
    rw [toList_text_lasting]
    simp [l.plain.2.1, colon_not_mem_marks]
  | utility | utilityVoice | unknown => simp [text, unknownText]

end Duration

/-! ## The text of a pitch -/

theorem Letter.exists_text (l : Letter) : ∃ c, l.text.toList = [c] ∧ c ≠ '-' ∧ c ≠ ' ' ∧ c ≠ ':' := by
  cases l <;> simp [text]

theorem Letter.text_inj {l l' : Letter} (h : l.text.toList = l'.text.toList) : l = l' := by
  cases l <;> cases l' <;> simp [text] at h ⊢

theorem Accidental.text_inj {a a' : Accidental} (h : a.text.toList = a'.text.toList) : a = a' := by
  cases a <;> cases a' <;> simp [text] at h ⊢

theorem Accidental.plain (a : Accidental) :
    '-' ∉ a.text.toList ∧ ' ' ∉ a.text.toList ∧ ':' ∉ a.text.toList := by
  cases a <;> simp [text]

namespace Note

def word : Note → String
  | .absoluteSet => "ABSOLUTE"
  | .rest _ => "REST"
  | .tone letter accidental octave _ => letter.text ++ accidental.text ++ "-" ++ octave.repr

/-- What follows the first word and a blank. -/
def remark : Note → String
  | .absoluteSet => "SET"
  | .rest duration => duration.text
  | .tone _ _ _ duration => " " ++ duration.text

theorem toList_text (n : Note) : n.text.toList = n.word.toList ++ ' ' :: n.remark.toList := by
  cases n <;> simp [text, word, remark]

theorem toList_word_tone (l : Letter) (a : Accidental) (o : Nat) (d : Duration) :
    (tone l a o d).word.toList = (l.text.toList ++ a.text.toList) ++ '-' :: o.repr.toList := by
  simp [word]

theorem not_mem_repr {n : Nat} {c : Char} (hc : c.isDigit = false) : c ∉ n.repr.toList := fun h => by
  rw [isDigit_of_mem_repr h] at hc
  cases hc

theorem blank_not_mem_word (n : Note) : ' ' ∉ n.word.toList := by
  cases n with
  | absoluteSet | rest => simp [word]
  | tone l a o d =>
    obtain ⟨c, hl, -, hc, -⟩ := l.exists_text
    have hoctave : ' ' ∉ o.repr.toList := not_mem_repr (by decide)
    rw [toList_word_tone, hl]
    simp [hc.symm, a.plain.2.1, -Nat.toList_repr, hoctave]

theorem colon_not_mem_text (n : Note) : ':' ∉ n.text.toList := by
  rw [toList_text]
  cases n with
  | absoluteSet => simp [word, remark]
  | rest d => simp [word, remark, d.colon_not_mem_text]
  | tone l a o d =>
    obtain ⟨c, hl, -, -, hc⟩ := l.exists_text
    have hoctave : ':' ∉ o.repr.toList := not_mem_repr (by decide)
    rw [toList_word_tone, hl]
    simp [remark, hc.symm, a.plain.2.2, -Nat.toList_repr, hoctave, d.colon_not_mem_text]

theorem text_ne_unknownText (n : Note) : n.text ≠ unknownText := fun h => by
  have hblank : ' ' ∈ n.text.toList := by simp [toList_text]
  rw [h] at hblank
  simp [unknownText] at hblank

theorem pitch_inj {l l' : Letter} {a a' : Accidental} {o o' : Nat}
    (h : (l.text.toList ++ a.text.toList) ++ '-' :: o.repr.toList =
      (l'.text.toList ++ a'.text.toList) ++ '-' :: o'.repr.toList) : l = l' ∧ a = a' ∧ o = o' := by
  obtain ⟨c, hl, hc, -⟩ := l.exists_text
  obtain ⟨c', hl', hc', -⟩ := l'.exists_text
  obtain ⟨hname, hoctave⟩ := Text.append_cons_inj_of_not_mem (by simp [hl, hc.symm, a.plain.1])
    (by simp [hl', hc'.symm, a'.plain.1]) h
  obtain ⟨hletter, haccidental⟩ := List.append_inj hname (by rw [hl, hl']; rfl)
  exact ⟨Letter.text_inj hletter, Accidental.text_inj haccidental,
    Nat.repr_inj.1 (String.toList_inj.1 hoctave)⟩

theorem text_inj {n n' : Note} (h : n.text = n'.text) : n = n' := by
  have hchars := congrArg String.toList h
  rw [toList_text, toList_text] at hchars
  obtain ⟨hword, hremark⟩ :=
    Text.append_cons_inj_of_not_mem n.blank_not_mem_word n'.blank_not_mem_word hchars
  have hdash : ∀ {l a o d}, '-' ∈ (tone l a o d).word.toList := by simp [word]
  cases n with
  | absoluteSet =>
    cases n' with
    | absoluteSet => rfl
    | rest => simp [word] at hword
    | tone => exact absurd (hword ▸ hdash) (by simp [word])
  | rest d =>
    cases n' with
    | absoluteSet => simp [word] at hword
    | rest d' => rw [Duration.text_inj (String.toList_inj.1 hremark)]
    | tone => exact absurd (hword ▸ hdash) (by simp [word])
  | tone l a o d =>
    cases n' with
    | absoluteSet | rest => exact absurd (hword ▸ hdash) (by simp [word])
    | tone l' a' o' d' =>
      rw [toList_word_tone, toList_word_tone] at hword
      obtain ⟨rfl, rfl, rfl⟩ := pitch_inj hword
      simp only [remark, String.toList_append] at hremark
      rw [Duration.text_inj (String.toList_inj.1 (List.append_cancel_left hremark))]

end Note

/-! ## The byte of a duration -/

/-- The code of a length, which the sixty-fourth shares with the sixteenth. -/
def Length.code : Length → UInt8
  | .whole => 1
  | .half => 2
  | .quarter => 3
  | .eighth => 4
  | .sixteenth | .sixtyFourth => 5
  | .thirtySecond => 6

namespace Duration

def IsUtility (d : Duration) : Prop := d = utility ∨ d = utilityVoice

/-- The byte of a note that lasts. -/
def byte? : Duration → Option UInt8
  | .lasting length dots tied =>
    let dotted : UInt8 :=
      match dots with
      | .none => 0
      | .one => 0x20
      | .two => 0xA0
    some (length.code <<< 2 ||| dotted ||| if tied then 0x40 else 0)
  | _ => none

theorem byte?_ofByte : ∀ b : UInt8, b &&& 0x03 = 0 →
    byte? (ofByte b) = none ∨ byte? (ofByte b) = some b :=
  forall_byte (by decide +kernel)

theorem ofByte_eq_utility_iff : ∀ b, ofByte b = utility ↔ b &&& 0xBF = 0x04 :=
  forall_byte (by decide +kernel)

theorem ofByte_eq_utilityVoice_iff : ∀ b, ofByte b = utilityVoice ↔ b &&& 0xBF = 0x24 :=
  forall_byte (by decide +kernel)

/-- The first bytes of two notes say the same of their durations. -/
def SameDuration (b c : UInt8) : Prop :=
  b = c ∨ (ofByte b = unknown ∧ ofByte c = unknown) ∨
    (IsUtility (ofByte b) ∧ IsUtility (ofByte c) ∧ b &&& 0xBF = c &&& 0xBF)

/-- The first byte of a note is read off its duration, but for the tie of a utility. -/
theorem ofByte_eq_iff {b c : UInt8} (hb : b &&& 0x03 = 0) (hc : c &&& 0x03 = 0) :
    ofByte b = ofByte c ↔ SameDuration b c := by
  constructor
  · intro h
    cases hd : ofByte b with
    | unknown => exact .inr (.inl ⟨hd, h ▸ hd⟩)
    | utility =>
      have hb' := (ofByte_eq_utility_iff b).1 hd
      have hc' := (ofByte_eq_utility_iff c).1 (h ▸ hd)
      exact .inr (.inr ⟨.inl hd, .inl (h ▸ hd), hb'.trans hc'.symm⟩)
    | utilityVoice =>
      have hb' := (ofByte_eq_utilityVoice_iff b).1 hd
      have hc' := (ofByte_eq_utilityVoice_iff c).1 (h ▸ hd)
      exact .inr (.inr ⟨.inr hd, .inr (h ▸ hd), hb'.trans hc'.symm⟩)
    | lasting l d t =>
      have hlasts : byte? (ofByte b) ≠ none := by simp [hd, byte?]
      have hb' := (byte?_ofByte b hb).resolve_left hlasts
      have hc' := (byte?_ofByte c hc).resolve_left (h ▸ hlasts)
      rw [h] at hb'
      exact .inl (Option.some.inj (hb'.symm.trans hc'))
  · rintro (rfl | ⟨hb', hc'⟩ | ⟨hb' | hb', -, hmask⟩)
    · rfl
    · rw [hb', hc']
    · rw [hb', (ofByte_eq_utility_iff c).2 (hmask ▸ (ofByte_eq_utility_iff b).1 hb')]
    · rw [hb', (ofByte_eq_utilityVoice_iff c).2 (hmask ▸ (ofByte_eq_utilityVoice_iff b).1 hb')]

end Duration

/-! ## The byte of a pitch -/

/-- The pitch in a cell's second byte, which a rest has not. -/
def pitch? (b : UInt8) : Option (Letter × Accidental × Nat) :=
  (Letter.ofByte? b).map fun l => (l, Accidental.ofByte l b, octave b)

def Letter.code : Letter → UInt8
  | .c => 1
  | .d => 2
  | .e => 3
  | .f => 4
  | .g => 5
  | .a => 6
  | .b => 7

theorem Letter.elim_code_ofByte? : ∀ b, (ofByte? b).elim 0 code = b &&& 0x07 :=
  forall_byte (by decide +kernel)

theorem Letter.ofByte?_eq_iff {b c : UInt8} : ofByte? b = ofByte? c ↔ b &&& 0x07 = c &&& 0x07 := by
  constructor
  · intro h
    rw [← elim_code_ofByte? b, h, elim_code_ofByte?]
  · intro h
    unfold ofByte?
    rw [h]

theorem Letter.ofByte?_eq_none_iff : ∀ b, ofByte? b = none ↔ b &&& 0x07 = 0 :=
  forall_byte (by decide +kernel)

theorem Letter.ofByte?_eq_c_iff : ∀ b, ofByte? b = some .c ↔ b &&& 0x07 = 1 :=
  forall_byte (by decide +kernel)

theorem toNat_octave_field (b : UInt8) : ((b &&& 0x38) >>> 3).toNat = b.toNat / 8 % 8 := by
  rw [toNat_shiftRight_three, toNat_and_field b 3 3 rfl]
  omega

theorem octave_eq_iff {b c : UInt8} : octave b = octave c ↔ b &&& 0x38 = c &&& 0x38 := by
  unfold octave
  rw [toNat_octave_field, toNat_octave_field, and_eq_and_iff 3 3 rfl]
  omega

theorem low_eq_iff {b c : UInt8} :
    b &&& 0x3F = c &&& 0x3F ↔ b &&& 0x07 = c &&& 0x07 ∧ b &&& 0x38 = c &&& 0x38 := by
  rw [and_eq_and_iff 0 6 rfl, and_eq_and_iff 0 3 rfl, and_eq_and_iff 3 3 rfl]
  omega

/-- The accidental's field is clear or full. -/
def Plain (b : UInt8) : Prop := b &&& 0xC0 = 0 ∨ b &&& 0xC0 = 0xC0

/-- Only for a C the accidental hides something of its field: it has no double accidental. -/
theorem Accidental.ofByte_eq_iff {l : Letter} {b c : UInt8} :
    ofByte l b = ofByte l c ↔ b &&& 0xC0 = c &&& 0xC0 ∨ (l = .c ∧ Plain b ∧ Plain c) := by
  have hfields : ∀ b : UInt8, b &&& 0xC0 = 0 ∨ b &&& 0xC0 = 0x40 ∨ b &&& 0xC0 = 0x80 ∨ b &&& 0xC0 = 0xC0 :=
    forall_byte (by decide +kernel)
  unfold ofByte Plain
  rcases hfields b with hb | hb | hb | hb <;> rcases hfields c with hc | hc | hc | hc <;> rw [hb, hc] <;>
    cases l <;> decide

/-- The second bytes of two notes say the same of their pitches. -/
def SamePitch (b c : UInt8) : Prop :=
  (b &&& 0x07 = 0 ∧ c &&& 0x07 = 0) ∨
    (b &&& 0x3F = c &&& 0x3F ∧ (b &&& 0xC0 = c &&& 0xC0 ∨ (b &&& 0x07 = 1 ∧ Plain b ∧ Plain c)))

/-- The second byte of a note is read off its pitch, but for how a C comes to be natural; a rest hides it all. -/
theorem pitch?_eq_iff {b c : UInt8} : pitch? b = pitch? c ↔ SamePitch b c := by
  constructor
  · intro h
    cases hb : Letter.ofByte? b with
    | none =>
      have hc : pitch? c = none := by rw [← h, pitch?, hb]; rfl
      exact .inl ⟨(Letter.ofByte?_eq_none_iff b).1 hb,
        (Letter.ofByte?_eq_none_iff c).1 (Option.map_eq_none_iff.1 hc)⟩
    | some l =>
      have hpitch : pitch? c = some (l, Accidental.ofByte l b, octave b) := by rw [← h, pitch?, hb]; rfl
      obtain ⟨l', hc, hpitch⟩ := Option.map_eq_some_iff.1 hpitch
      obtain ⟨rfl, hpitch⟩ := Prod.mk.inj hpitch
      obtain ⟨haccidental, hoctave⟩ := Prod.mk.inj hpitch
      refine .inr ⟨low_eq_iff.2 ⟨Letter.ofByte?_eq_iff.1 (hb.trans hc.symm), (octave_eq_iff.1 hoctave).symm⟩, ?_⟩
      exact (Accidental.ofByte_eq_iff.1 haccidental.symm).imp_right
        fun ⟨hl, hplain⟩ => ⟨(Letter.ofByte?_eq_c_iff b).1 (hl ▸ hb), hplain⟩
  · rintro (⟨hb, hc⟩ | ⟨hlow, hfield⟩)
    · rw [pitch?, pitch?, (Letter.ofByte?_eq_none_iff b).2 hb, (Letter.ofByte?_eq_none_iff c).2 hc]
      rfl
    · obtain ⟨hletter, hoctave⟩ := low_eq_iff.1 hlow
      rw [pitch?, pitch?, ← Letter.ofByte?_eq_iff.2 hletter]
      refine Option.map_congr fun l hl => ?_
      have haccidental : Accidental.ofByte l b = Accidental.ofByte l c :=
        Accidental.ofByte_eq_iff.2 (hfield.imp_right fun ⟨hb, hplain⟩ =>
          ⟨Option.some.inj (hl.symm.trans ((Letter.ofByte?_eq_c_iff b).2 hb)), hplain⟩)
      rw [haccidental, octave_eq_iff.2 hoctave]

/-! ## Notes -/

theorem Note.ofBytes_eq_iff {b1 b2 c1 c2 : UInt8} (hb : b1 ≠ 0) (hc : c1 ≠ 0) :
    ofBytes b1 b2 = ofBytes c1 c2 ↔ Duration.ofByte b1 = Duration.ofByte c1 ∧ pitch? b2 = pitch? c2 := by
  unfold ofBytes pitch?
  rw [if_neg hb, if_neg hc]
  cases Letter.ofByte? b2 with
  | none => cases Letter.ofByte? c2 <;> simp
  | some l =>
    cases Letter.ofByte? c2 with
    | none => simp
    | some l' =>
      simp only [Note.tone.injEq, Option.map_some, Option.some.injEq, Prod.mk.injEq]
      tauto

theorem Note.ofBytes_eq_absoluteSet_iff (b1 b2 : UInt8) : ofBytes b1 b2 = .absoluteSet ↔ b1 = 0 := by
  unfold ofBytes
  split
  · simp [*]
  · split <;> simp [*]

end RetroListing.Voice
