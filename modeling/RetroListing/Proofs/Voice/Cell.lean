/-
What the text of a cell says about its two bytes: two cells are shown alike exactly when they are `Alike`. Notes and
commands never share a text, since every known command has a colon, no note has one, and no note is unknown.
-/
import RetroListing.Proofs.Voice.Command
import RetroListing.Proofs.Voice.Note

namespace RetroListing.Voice

variable {b1 b2 c1 c2 : UInt8}

/-! ## Commands -/

namespace Command

def IsJiffy (b1 b2 : UInt8) : Prop := ∃ v, ofBytes b1 b2 = .set "JIFFY LENGTH: SET" v

theorem ofBytes_eq_of_text_eq (h : (ofBytes b1 b2).text = (ofBytes c1 c2).text) : ofBytes b1 b2 = ofBytes c1 c2 := by
  obtain ⟨r, hr⟩ := exists_readBy b1 b2
  obtain ⟨r', hr'⟩ := exists_readBy c1 c2
  exact hr.shows.text_inj hr'.shows h

theorem text_ofBytes_eq_unknownText_iff : (ofBytes b1 b2).text = unknownText ↔ ofBytes b1 b2 = .unknown := by
  obtain ⟨r, hr⟩ := exists_readBy b1 b2
  have hunknown : r.Shows .unknown := trivial
  exact ⟨fun h => hr.shows.text_inj hunknown h, fun h => by rw [h, text]⟩

/-- Only a jiffy length hides something of a known command, the low half of its opcode. -/
theorem text_ofBytes_eq_iff (hb : (ofBytes b1 b2).text ≠ unknownText) :
    (ofBytes b1 b2).text = (ofBytes c1 c2).text ↔
      b2 = c2 ∧ (b1 = c1 ∨ (IsJiffy b1 b2 ∧ IsJiffy c1 c2 ∧ b1 &&& 0xF0 = c1 &&& 0xF0)) := by
  constructor
  · intro h
    have heq := ofBytes_eq_of_text_eq h
    obtain ⟨hsecond, hfirst | ⟨⟨v, hv⟩, hhigh⟩⟩ :=
      bytes_eq_of_ofBytes_eq heq (mt text_ofBytes_eq_unknownText_iff.2 hb)
    · exact ⟨hsecond, .inl hfirst⟩
    · exact ⟨hsecond, .inr ⟨⟨v, hv⟩, ⟨v, heq ▸ hv⟩, hhigh⟩⟩
  · rintro ⟨rfl, rfl | ⟨⟨v, hv⟩, ⟨v', hv'⟩, hhigh⟩⟩
    · rfl
    · -- the high half holds the two bits that the value takes from the opcode
      have hvalue := jiffy_eq hv
      have hvalue' := jiffy_eq hv'
      rw [and_eq_and_iff 4 4 rfl] at hhigh
      have hb1 := b1.toNat_lt
      have hc1 := c1.toNat_lt
      have heq : v = v' := by omega
      rw [hv, hv', heq]

theorem text_ofBytes_ne_note (b1 b2 : UInt8) (n : Note) : (ofBytes b1 b2).text ≠ n.text := by
  intro h
  by_cases hunknown : ofBytes b1 b2 = .unknown
  · rw [hunknown] at h
    exact n.text_ne_unknownText h.symm
  · obtain ⟨r, hr⟩ := exists_readBy b1 b2
    exact n.colon_not_mem_text (h ▸ hr.shows.colon_mem hunknown)

end Command

/-! ## Notes -/

theorem Note.text_ofBytes_eq_iff (hb : b1 &&& 0x03 = 0) (hc : c1 &&& 0x03 = 0) (hb0 : b1 ≠ 0) (hc0 : c1 ≠ 0) :
    (ofBytes b1 b2).text = (ofBytes c1 c2).text ↔ Duration.SameDuration b1 c1 ∧ SamePitch b2 c2 := by
  rw [← Duration.ofByte_eq_iff hb hc, ← pitch?_eq_iff, ← Note.ofBytes_eq_iff hb0 hc0]
  exact ⟨Note.text_inj, congrArg Note.text⟩

/-! ## Cells -/

def IsCommand (b1 : UInt8) : Prop := b1 &&& 0x03 ≠ 0

namespace Cell

theorem text_of_isCommand (h : IsCommand b1) : (ofBytes b1 b2).text = (Command.ofBytes b1 b2).text := by
  rw [ofBytes, if_neg h, text]

theorem text_of_not_isCommand (h : ¬ IsCommand b1) : (ofBytes b1 b2).text = (Note.ofBytes b1 b2).text := by
  rw [ofBytes, if_pos (not_not.1 h), text]

/-- Two cells that a transcript does not tell apart. -/
inductive Alike (b1 b2 c1 c2 : UInt8) : Prop where
  | unknown (hb : IsCommand b1) (hc : IsCommand c1) (hbText : (ofBytes b1 b2).text = unknownText)
      (hcText : (ofBytes c1 c2).text = unknownText)
  | command (hb : IsCommand b1) (hc : IsCommand c1) (hbText : (ofBytes b1 b2).text ≠ unknownText)
      (hcText : (ofBytes c1 c2).text ≠ unknownText) (hsecond : b2 = c2)
      (hfirst : b1 = c1 ∨ (Command.IsJiffy b1 b2 ∧ Command.IsJiffy c1 c2 ∧ b1 &&& 0xF0 = c1 &&& 0xF0))
  | absoluteSet (hb : b1 = 0) (hc : c1 = 0)
  | note (hb : ¬ IsCommand b1) (hc : ¬ IsCommand c1) (hb0 : b1 ≠ 0) (hc0 : c1 ≠ 0)
      (hduration : Duration.SameDuration b1 c1) (hpitch : SamePitch b2 c2)

theorem text_eq_iff : (ofBytes b1 b2).text = (ofBytes c1 c2).text ↔ Alike b1 b2 c1 c2 := by
  constructor
  · intro h
    by_cases hb : IsCommand b1 <;> by_cases hc : IsCommand c1
    · by_cases hunknown : (ofBytes b1 b2).text = unknownText
      · exact .unknown hb hc hunknown (h ▸ hunknown)
      · have hknown := hunknown
        rw [text_of_isCommand hb] at h hknown
        rw [text_of_isCommand hc] at h
        obtain ⟨hsecond, hfirst⟩ := (Command.text_ofBytes_eq_iff hknown).1 h
        exact .command hb hc hunknown (by rwa [text_of_isCommand hc, ← h]) hsecond hfirst
    · rw [text_of_isCommand hb, text_of_not_isCommand hc] at h
      exact absurd h (Command.text_ofBytes_ne_note _ _ _)
    · rw [text_of_not_isCommand hb, text_of_isCommand hc] at h
      exact absurd h.symm (Command.text_ofBytes_ne_note _ _ _)
    · rw [text_of_not_isCommand hb, text_of_not_isCommand hc] at h
      have habsolute : b1 = 0 ↔ c1 = 0 := by
        rw [← Note.ofBytes_eq_absoluteSet_iff b1 b2, ← Note.ofBytes_eq_absoluteSet_iff c1 c2, Note.text_inj h]
      by_cases hb0 : b1 = 0
      · exact .absoluteSet hb0 (habsolute.1 hb0)
      · have hc0 := mt habsolute.2 hb0
        obtain ⟨hduration, hpitch⟩ := (Note.text_ofBytes_eq_iff (not_not.1 hb) (not_not.1 hc) hb0 hc0).1 h
        exact .note hb hc hb0 hc0 hduration hpitch
  · intro h
    cases h with
    | unknown hb hc hbText hcText => rw [hbText, hcText]
    | command hb hc hbText hcText hsecond hfirst =>
      rw [text_of_isCommand hb] at hbText ⊢
      rw [text_of_isCommand hc]
      exact (Command.text_ofBytes_eq_iff hbText).2 ⟨hsecond, hfirst⟩
    | absoluteSet hb hc =>
      subst hb hc
      have hnote : ¬ IsCommand 0 := not_not.2 rfl
      rw [text_of_not_isCommand hnote, text_of_not_isCommand hnote, (Note.ofBytes_eq_absoluteSet_iff 0 b2).2 rfl,
        (Note.ofBytes_eq_absoluteSet_iff 0 c2).2 rfl]
    | note hb hc hb0 hc0 hduration hpitch =>
      rw [text_of_not_isCommand hb, text_of_not_isCommand hc]
      exact (Note.text_ofBytes_eq_iff (not_not.1 hb) (not_not.1 hc) hb0 hc0).2 ⟨hduration, hpitch⟩

end Cell

end RetroListing.Voice
