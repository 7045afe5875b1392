/-
What the text of a command says about its cell. A known command is shown as a setting or as a quantity with a
number, and the text determines which (`Rule.Shows.text_inj`). The quantity determines the rule that reads the
cell, and within a rule the value determines the two bytes, but for the low half of the first byte of a jiffy
length (`bytes_eq_of_ofBytes_eq`).
-/
import RetroListing.Proofs.Cpu.Encoding
import RetroListing.Proofs.Text.Blank
import RetroListing.Proofs.Voice.Field

namespace RetroListing.Voice.Command

/-! ## Rules -/

/-- The rules by which a command is read from a cell. -/
inductive Rule where
  | tempo
  | effect
  | parameter
  | mask
  deriving DecidableEq

/-- The quantities of the volume and effects command: what a step of the value adds to the second byte, and the
bits below the value. -/
def effectCodes : List (String × Nat × Nat) :=
  [("VOLUME: SET", 16, 0x0E), ("ATTACK: SET", 16, 0x06), ("DECAY: SET", 16, 0x0A), ("SUSTAIN: SET", 16, 0x02),
    ("RELEASE: SET", 16, 0x0C), ("RESONANCE: SET", 16, 0x04), ("PHRASE: DEFINE", 16, 0x01),
    ("PHRASE: CALL", 16, 0x03), ("LFO RATE: DOWN", 8, 0x05), ("LFO RATE: UP", 8, 0x07)]

namespace Rule

def quantities : Rule → List String
  | tempo => ["TEMPO: SET"]
  | effect => effectCodes.map (·.1)
  | parameter => parameters.map (·.2.1)
  | mask => ["PULSE WIDTH: SET", "PORTAMENTO: SET", "DETUNE: SET", "JIFFY LENGTH: SET"]

def settings : Rule → List String
  | effect => waveSettings ++ flowSettings
  | _ => []

def Shows (r : Rule) : Command → Prop
  | .switch setting => setting ∈ r.settings
  | .set quantity _ _ => quantity ∈ r.quantities
  | .unknown => True

instance (r : Rule) : DecidablePred r.Shows
  | .switch setting => inferInstanceAs (Decidable (setting ∈ r.settings))
  | .set quantity _ _ => inferInstanceAs (Decidable (quantity ∈ r.quantities))
  | .unknown => inferInstanceAs (Decidable True)

/-- No two rules share a quantity. -/
theorem eq_of_mem_quantities {r r' : Rule} : ∀ q ∈ r.quantities, q ∈ r'.quantities → r = r' := by
  cases r <;> cases r' <;> decide +kernel

theorem eq_effect_of_mem_settings {r : Rule} {s : String} (h : s ∈ r.settings) : r = effect := by
  cases r with
  | effect => rfl
  | tempo | parameter | mask => cases h

theorem Shows.rule_eq {r r' : Rule} {c : Command} (h : r.Shows c) (h' : r'.Shows c) (hc : c ≠ .unknown) :
    r = r' := by
  cases c with
  | switch s => rw [eq_effect_of_mem_settings h, eq_effect_of_mem_settings h']
  | set q v d => exact eq_of_mem_quantities q h h'
  | unknown => exact absurd rfl hc

end Rule

/-- The rule that reads a command from two bytes. -/
inductive ReadBy (b1 b2 : UInt8) (c : Command) : Rule → Prop
  | tempo : b1 = 0x06 → ofTempo b2 = c → ReadBy b1 b2 c .tempo
  | effect : b1 = 0x01 → ofEffect b2 = c → ReadBy b1 b2 c .effect
  | parameter {quantity : String} {reading : Reading} :
      (b1, quantity, reading) ∈ parameters → ofParameter quantity reading b2 = c → ReadBy b1 b2 c .parameter
  | mask : ofMask b1 b2 = c → ReadBy b1 b2 c .mask

theorem exists_readBy (b1 b2 : UInt8) : ∃ r, ReadBy b1 b2 (ofBytes b1 b2) r := by
  unfold ofBytes
  split
  · exact ⟨_, .tempo ‹_› rfl⟩
  · split
    · exact ⟨_, .effect ‹_› rfl⟩
    · split
      · rename_i quantity reading hlookup
        obtain ⟨before, after, hrows, -⟩ := List.lookup_eq_some_iff.1 hlookup
        exact ⟨_, .parameter (by rw [hrows]; simp) rfl⟩
      · exact ⟨_, .mask rfl⟩

/-! ## Tempo -/

theorem tempo_inj : ∀ i < 32, ∀ j < 32, tempo i = tempo j → i = j := by decide +kernel

theorem ofTempo_inj {b c : UInt8} (h : ofTempo b = ofTempo c) (hb : ofTempo b ≠ .unknown) : b = c := by
  unfold ofTempo at h hb
  split at hb
  · rename_i hlow
    rw [if_pos hlow] at h
    split at h
    · rename_i hlow'
      rw [and_eq_iff 0 3 0 rfl rfl] at hlow hlow'
      obtain ⟨-, hvalue, -⟩ := Command.set.inj h
      rw [toNat_shiftRight_three, toNat_shiftRight_three] at hvalue
      have hb := b.toNat_lt
      have hc := c.toNat_lt
      have hindex := tempo_inj _ (by omega) _ (by omega) (Int.ofNat.inj hvalue)
      exact UInt8.toNat_inj.1 (by omega)
    · cases h
  · exact absurd rfl hb

theorem shows_ofTempo (b : UInt8) : Rule.tempo.Shows (ofTempo b) := by
  unfold ofTempo
  split
  · exact List.mem_singleton_self _
  · trivial

/-! ## Effects -/

def effectByte? : Command → Option Nat
  | .switch setting =>
    ((waveSettings.idxOf? setting).map (· * 16 + 0x08)).or ((flowSettings.idxOf? setting).map (· * 16))
  | .set quantity value _ => (effectCodes.lookup quantity).map fun (step, bits) => value.toNat * step + bits
  | .unknown => none

theorem effectByte?_ofEffect : ∀ b : UInt8, ofEffect b = .unknown ∨ effectByte? (ofEffect b) = some b.toNat :=
  forall_byte (by decide +kernel)

theorem shows_of_effectByte? {c : Command} {n : Nat} (h : effectByte? c = some n) : Rule.effect.Shows c := by
  cases c with
  | unknown => trivial
  | set q v d =>
    obtain ⟨⟨step, bits⟩, hlookup, -⟩ := Option.map_eq_some_iff.1 h
    obtain ⟨before, after, hrows, -⟩ := List.lookup_eq_some_iff.1 hlookup
    exact List.mem_map.2 ⟨(q, step, bits), by rw [hrows]; simp, rfl⟩
  | switch s =>
    rcases Option.or_eq_some_iff.1 h with h | ⟨-, h⟩
    · obtain ⟨i, hi, -⟩ := Option.map_eq_some_iff.1 h
      exact List.mem_append_left _ (List.isSome_idxOf?.1 (by rw [hi]; rfl))
    · obtain ⟨i, hi, -⟩ := Option.map_eq_some_iff.1 h
      exact List.mem_append_right _ (List.isSome_idxOf?.1 (by rw [hi]; rfl))

theorem shows_ofEffect (b : UInt8) : Rule.effect.Shows (ofEffect b) := by
  rcases effectByte?_ofEffect b with h | h
  · rw [h]
    trivial
  · exact shows_of_effectByte? h

theorem ofEffect_inj {b c : UInt8} (h : ofEffect b = ofEffect c) (hb : ofEffect b ≠ .unknown) : b = c := by
  have hbyte := (effectByte?_ofEffect b).resolve_left hb
  have hbyte' := (effectByte?_ofEffect c).resolve_left (h ▸ hb)
  rw [h] at hbyte
  exact UInt8.toNat_inj.1 (Option.some.inj (hbyte.symm.trans hbyte'))

/-! ## Parameters -/

namespace Reading

def value : Reading → UInt8 → Int
  | .above base, b => (base + b.toNat : Nat)
  | .signed, b | .depth, b => signedByte b

def least : Reading → Int
  | .above base => base
  | .signed | .depth => -128

theorem signedByte_eq (b : UInt8) : signedByte b = if b.toNat < 128 then (b.toNat : Int) else b.toNat - 256 := rfl

theorem value_bounds (r : Reading) (b : UInt8) : r.least ≤ r.value b ∧ r.value b < r.least + 256 := by
  have hb := b.toNat_lt
  cases r with
  | above base =>
    simp only [least, value]
    omega
  | signed | depth =>
    simp only [least, value, signedByte_eq]
    split <;> omega

theorem value_inj {r : Reading} {b c : UInt8} (h : r.value b = r.value c) : b = c := by
  have hb := b.toNat_lt
  have hc := c.toNat_lt
  apply UInt8.toNat_inj.1
  cases r with
  | above base =>
    simp only [value] at h
    omega
  | signed | depth =>
    simp only [value, signedByte_eq] at h
    split at h <;> split at h <;> omega

end Reading

theorem ofParameter_eq (quantity : String) (reading : Reading) (b : UInt8) :
    ∃ doubtful, ofParameter quantity reading b = .set quantity (reading.value b) doubtful := by
  cases reading <;> exact ⟨_, rfl⟩

/-- Parameters of one quantity have values apart. -/
theorem parameters_apart : ∀ p ∈ parameters, ∀ p' ∈ parameters, p.2.1 = p'.2.1 →
    p = p' ∨ p.2.2.least + 256 ≤ p'.2.2.least ∨ p'.2.2.least + 256 ≤ p.2.2.least := by
  decide +kernel

theorem ofParameter_inj {b1 c1 b2 c2 : UInt8} {q q' : String} {r r' : Reading} (hp : (b1, q, r) ∈ parameters)
    (hp' : (c1, q', r') ∈ parameters) (h : ofParameter q r b2 = ofParameter q' r' c2) : b1 = c1 ∧ b2 = c2 := by
  obtain ⟨d, hd⟩ := ofParameter_eq q r b2
  obtain ⟨d', hd'⟩ := ofParameter_eq q' r' c2
  rw [hd, hd'] at h
  obtain ⟨hq, hvalue, -⟩ := Command.set.inj h
  have hbounds := r.value_bounds b2
  have hbounds' := r'.value_bounds c2
  rcases parameters_apart _ hp _ hp' hq with heq | hless | hless
  · cases heq
    exact ⟨rfl, Reading.value_inj hvalue⟩
  · dsimp only at hless
    omega
  · dsimp only at hless
    omega

/-! ## Masks -/

/-- A packed value is the high bits of the first byte before the second byte. -/
theorem packed_eq (b1 b2 : UInt8) {mask : UInt8} {shift : UInt16} (j : Nat) (hj : j ≤ 8)
    (hm : mask.toNat = (2 ^ (8 - j) - 1) <<< j) (hs : shift.toNat = 8 - j) :
    packed b1 mask shift b2 = b1.toNat / 2 ^ j * 256 + b2.toNat := by
  have hpow : 2 ^ j * 2 ^ (8 - j) = 2 ^ 8 := by rw [← pow_add, Nat.add_sub_cancel' hj]
  have hlt : b1.toNat / 2 ^ j < 2 ^ (8 - j) := Nat.div_lt_of_lt_mul (by rw [hpow]; exact b1.toNat_lt)
  have hlt' : b1.toNat / 2 ^ j < 256 := Nat.lt_of_le_of_lt (Nat.div_le_self _ _) b1.toNat_lt
  have hword : (b1 &&& mask).toUInt16 <<< shift = (UInt8.ofNat (b1.toNat / 2 ^ j)).toUInt16 <<< 8 := by
    apply UInt16.toNat_inj.1
    rw [UInt16.toNat_shiftLeft, UInt16.toNat_shiftLeft, UInt8.toNat_toUInt16, UInt8.toNat_toUInt16, hs,
      toNat_and_field b1 j (8 - j) hm, Nat.mod_eq_of_lt hlt, UInt8.toNat_ofNat_of_lt' hlt',
      Nat.mod_eq_of_lt (by omega : 8 - j < 16), Nat.shiftLeft_eq, Nat.shiftLeft_eq, Nat.mul_assoc, hpow]
    rfl
  rw [packed, hword, Mos6502.toNat_word, UInt8.toNat_ofNat_of_lt' hlt']

theorem ofMask_eq_set {b1 b2 : UInt8} {q : String} {v : Int} {d : Bool} (h : ofMask b1 b2 = .set q v d) :
    d = false ∧
      ((q = "PULSE WIDTH: SET" ∧ b1.toNat % 16 = 2 ∧ v = (b1.toNat / 16 * 256 + b2.toNat : Nat)) ∨
      (q = "PORTAMENTO: SET" ∧ b1.toNat % 4 = 3 ∧ v = (b1.toNat / 4 * 256 + b2.toNat : Nat)) ∨
      (q = "DETUNE: SET" ∧ b1.toNat % 32 = 26 ∧ v = (b1.toNat / 32 * 256 + b2.toNat : Nat) - 2048) ∨
      (q = "DETUNE: SET" ∧ b1.toNat % 32 = 10 ∧ v = (b1.toNat / 32 * 256 + b2.toNat : Nat)) ∨
      (q = "JIFFY LENGTH: SET" ∧ b1.toNat / 16 % 4 = 3 ∧ v = (b1.toNat / 64 * 256 + b2.toNat : Nat) - 200)) := by
  unfold ofMask at h
  rw [packed_eq b1 b2 4 (by decide) rfl rfl, packed_eq b1 b2 2 (by decide) rfl rfl,
    packed_eq b1 b2 5 (by decide) rfl rfl, packed_eq b1 b2 6 (by decide) rfl rfl] at h
  split at h
  · rename_i hlow
    rw [and_eq_iff 0 4 2 rfl rfl] at hlow
    cases h
    exact ⟨rfl, .inl ⟨rfl, by omega, rfl⟩⟩
  split at h
  · rename_i hlow
    rw [and_eq_iff 0 2 3 rfl rfl] at hlow
    cases h
    exact ⟨rfl, .inr (.inl ⟨rfl, by omega, rfl⟩)⟩
  split at h
  · rename_i hlow
    rw [and_eq_iff 0 5 26 rfl rfl] at hlow
    cases h
    exact ⟨rfl, .inr (.inr (.inl ⟨rfl, by omega, rfl⟩))⟩
  split at h
  · rename_i hlow
    rw [and_eq_iff 0 5 10 rfl rfl] at hlow
    cases h
    exact ⟨rfl, .inr (.inr (.inr (.inl ⟨rfl, by omega, rfl⟩)))⟩
  split at h
  · rename_i hmiddle
    rw [and_eq_iff 4 2 48 rfl rfl] at hmiddle
    cases h
    exact ⟨rfl, .inr (.inr (.inr (.inr ⟨rfl, by omega, rfl⟩)))⟩
  · cases h

theorem shows_ofMask (b1 b2 : UInt8) : Rule.mask.Shows (ofMask b1 b2) := by
  unfold ofMask
  split_ifs <;> simp [Rule.Shows, Rule.quantities]

/-- Under the masks a value determines the bytes, but for the low half of the first byte of a jiffy length. -/
theorem ofMask_inj {b1 b2 c1 c2 : UInt8} {q : String} {v : Int} {d : Bool} (h : ofMask b1 b2 = .set q v d)
    (h' : ofMask c1 c2 = .set q v d) :
    b2 = c2 ∧ (b1 = c1 ∨ q = "JIFFY LENGTH: SET" ∧ b1 &&& 0xF0 = c1 &&& 0xF0) := by
  have hb1 := b1.toNat_lt
  have hb2 := b2.toNat_lt
  have hc1 := c1.toNat_lt
  have hc2 := c2.toNat_lt
  rw [and_eq_and_iff 4 4 rfl, ← UInt8.toNat_inj, ← UInt8.toNat_inj]
  rcases (ofMask_eq_set h).2 with ⟨rfl, hbits, hv⟩ | ⟨rfl, hbits, hv⟩ | ⟨rfl, hbits, hv⟩ | ⟨rfl, hbits, hv⟩ |
      ⟨rfl, hbits, hv⟩ <;>
    rcases (ofMask_eq_set h').2 with ⟨hq, hbits', hv'⟩ | ⟨hq, hbits', hv'⟩ | ⟨hq, hbits', hv'⟩ |
      ⟨hq, hbits', hv'⟩ | ⟨hq, hbits', hv'⟩
  -- two quantities that differ are no common text; the two kinds of detune differ in the sign of the value
  any_goals contradiction
  · exact ⟨by omega, .inl (by omega)⟩
  · exact ⟨by omega, .inl (by omega)⟩
  · exact ⟨by omega, .inl (by omega)⟩
  · omega
  · omega
  · exact ⟨by omega, .inl (by omega)⟩
  · exact ⟨by omega, .inr ⟨rfl, by omega⟩⟩

/-! ## Cells -/

variable {b1 b2 c1 c2 : UInt8} {c c' : Command} {r r' : Rule}

theorem ReadBy.shows (h : ReadBy b1 b2 c r) : r.Shows c := by
  cases h with
  | tempo _ h => exact h ▸ shows_ofTempo b2
  | effect _ h => exact h ▸ shows_ofEffect b2
  | @parameter quantity reading hp h =>
    obtain ⟨doubtful, hset⟩ := ofParameter_eq quantity reading b2
    rw [← h, hset]
    exact List.mem_map.2 ⟨_, hp, rfl⟩
  | mask h => exact h ▸ shows_ofMask b1 b2

/-- A known command that one rule reads from two cells. -/
theorem ReadBy.bytes_eq (h : ReadBy b1 b2 c r) (h' : ReadBy c1 c2 c r) (hc : c ≠ .unknown) :
    b2 = c2 ∧ (b1 = c1 ∨ (∃ v, c = .set "JIFFY LENGTH: SET" v) ∧ b1 &&& 0xF0 = c1 &&& 0xF0) := by
  cases h with
  | tempo hb hread =>
    cases h' with
    | tempo hb' hread' => exact ⟨ofTempo_inj (hread.trans hread'.symm) (hread ▸ hc), .inl (hb.trans hb'.symm)⟩
  | effect hb hread =>
    cases h' with
    | effect hb' hread' => exact ⟨ofEffect_inj (hread.trans hread'.symm) (hread ▸ hc), .inl (hb.trans hb'.symm)⟩
  | parameter hp hread =>
    cases h' with
    | parameter hp' hread' =>
      obtain ⟨hfirst, hsecond⟩ := ofParameter_inj hp hp' (hread.trans hread'.symm)
      exact ⟨hsecond, .inl hfirst⟩
  | mask hread =>
    cases h' with
    | mask hread' =>
      cases c with
      | switch s => exact absurd (ReadBy.mask hread).shows List.not_mem_nil
      | unknown => exact absurd rfl hc
      | set q v d =>
        obtain rfl := (ofMask_eq_set hread).1
        obtain ⟨hsecond, hfirst | ⟨rfl, hfirst⟩⟩ := ofMask_inj hread hread'
        · exact ⟨hsecond, .inl hfirst⟩
        · exact ⟨hsecond, .inr ⟨⟨v, rfl⟩, hfirst⟩⟩

theorem bytes_eq_of_ofBytes_eq (h : ofBytes b1 b2 = ofBytes c1 c2) (hb : ofBytes b1 b2 ≠ .unknown) :
    b2 = c2 ∧ (b1 = c1 ∨
      (∃ v, ofBytes b1 b2 = .set "JIFFY LENGTH: SET" v) ∧ b1 &&& 0xF0 = c1 &&& 0xF0) := by
  obtain ⟨r, hr⟩ := exists_readBy b1 b2
  obtain ⟨r', hr'⟩ := exists_readBy c1 c2
  rw [← h] at hr'
  obtain rfl := hr.shows.rule_eq hr'.shows hb
  exact hr.bytes_eq hr' hb

theorem jiffy_eq {v : Int} (h : ofBytes b1 b2 = .set "JIFFY LENGTH: SET" v) :
    v = (b1.toNat / 64 * 256 + b2.toNat : Nat) - 200 := by
  obtain ⟨r, hr⟩ := exists_readBy b1 b2
  rw [h] at hr
  have hrule : Rule.mask = r := Rule.eq_of_mem_quantities "JIFFY LENGTH: SET" (by decide) hr.shows
  subst hrule
  cases hr with
  | mask hread =>
    rcases (ofMask_eq_set hread).2 with ⟨hq, -⟩ | ⟨hq, -⟩ | ⟨hq, -⟩ | ⟨hq, -⟩ | ⟨-, -, hv⟩
    any_goals contradiction
    exact hv

/-! ## Text -/

/-- The mark of a doubtful value. -/
def mark (doubtful : Bool) : List Char := if doubtful then [' ', '?', '?', '?'] else []

theorem toList_text_set (q : String) (v : Int) (d : Bool) :
    (Command.set q v d).text.toList = (q.toList ++ [' ']) ++ (v.repr.toList ++ mark d) := by
  cases d <;> simp [text, mark, unknownText, Int.toString_eq_repr]

/-- What a text says it is about: the characters before the colon. -/
def topic (cs : List Char) : List Char := cs.takeWhile (· != ':')

/-- The letters of a quantity. -/
structure IsQuantity (q : String) : Prop where
  colon : q.toList.contains ':' = true
  plain : q.toList.any isNumeral = false
  topic : topic q.toList ≠ ['S', 'O', 'U', 'R', 'C', 'E']

/-- The letters of a setting: a digit stands in it only if it is about a source or a voice with a number. -/
structure IsSetting (s : String) : Prop where
  colon : s.toList.contains ':' = true
  plain : s.toList.any isNumeral = false ∨ topic s.toList = ['S', 'O', 'U', 'R', 'C', 'E'] ∨
    (topic s.toList).any isNumeral = true

theorem isQuantity_ofList {cs : List Char} (h : cs.contains ':' = true ∧ cs.any isNumeral = false ∧
    topic cs ≠ ['S', 'O', 'U', 'R', 'C', 'E']) : IsQuantity (.ofList cs) := by
  obtain ⟨hcolon, hplain, htopic⟩ := h
  constructor <;> rwa [String.toList_ofList]

theorem isSetting_ofList {cs : List Char} (h : cs.contains ':' = true ∧ (cs.any isNumeral = false ∨
    topic cs = ['S', 'O', 'U', 'R', 'C', 'E'] ∨ (topic cs).any isNumeral = true)) : IsSetting (.ofList cs) := by
  obtain ⟨hcolon, hplain⟩ := h
  constructor <;> rwa [String.toList_ofList]

theorem isQuantity_of_mem {q : String} (h : q ∈ r.quantities) : IsQuantity q := by
  revert q
  cases r
  all_goals
    -- each name is taken as its list of characters, which is quicker to look through than the name
    simp only [Rule.quantities, effectCodes, parameters, List.map_cons, List.map_nil, List.forall_mem_cons,
      List.not_mem_nil, false_imp_iff, implies_true, and_true]
    and_intros
    all_goals exact isQuantity_ofList (by decide +kernel)

theorem isSetting_of_mem {s : String} (h : s ∈ r.settings) : IsSetting s := by
  obtain rfl := Rule.eq_effect_of_mem_settings h
  revert s
  simp only [Rule.settings, waveSettings, flowSettings, List.cons_append, List.nil_append, List.forall_mem_cons,
    List.not_mem_nil, false_imp_iff, implies_true, and_true]
  and_intros
  all_goals exact isSetting_ofList (by decide +kernel)

/-- A known command is told by a colon. -/
theorem Rule.Shows.colon_mem (h : r.Shows c) (hc : c ≠ .unknown) : ':' ∈ c.text.toList := by
  cases c with
  | switch s => exact List.contains_iff_mem.1 (isSetting_of_mem h).colon
  | set q v d =>
    have hq := List.contains_iff_mem.1 (isQuantity_of_mem h).colon
    rw [toList_text_set]
    exact List.mem_append_left _ (List.mem_append_left _ hq)
  | unknown => exact absurd rfl hc

theorem colon_not_mem_unknownText : ':' ∉ unknownText.toList := by
  simp [unknownText]

theorem topic_text_set {q : String} (hq : IsQuantity q) (v : Int) (d : Bool) :
    topic (Command.set q v d).text.toList = topic q.toList := by
  obtain ⟨before, after, hq', hbefore⟩ := List.eq_append_cons_of_mem (List.contains_iff_mem.1 hq.colon)
  have htopic : ∀ rest, topic (before ++ ':' :: rest) = before := by
    intro rest
    refine (Text.span_eq_iff.2 ⟨rfl, fun a ha => ?_, ?_⟩).1
    · exact bne_iff_ne.2 fun h => hbefore (h ▸ ha)
    · simp
  rw [toList_text_set, hq', htopic, List.append_assoc, List.append_assoc, List.cons_append, htopic]

/-- No setting reads like a quantity with a number. -/
theorem text_set_ne_setting {q s : String} (hq : IsQuantity q) (hs : IsSetting s) (v : Int) (d : Bool) :
    (Command.set q v d).text ≠ s := by
  rintro rfl
  rcases hs.plain with hplain | htopic | htopic
  · obtain ⟨a, as, ha⟩ := List.exists_cons_of_ne_nil (toList_repr_ne_nil v)
    have hnumeral := isNumeral_of_mem_repr (v := v) (c := a) (by rw [ha]; exact List.mem_cons_self)
    rw [toList_text_set, ha] at hplain
    simp [hnumeral] at hplain
  · exact hq.topic (topic_text_set hq v d ▸ htopic)
  · rw [topic_text_set hq] at htopic
    obtain ⟨a, ha, hnumeral⟩ := List.any_eq_true.1 htopic
    exact List.any_eq_false.1 hq.plain a ((List.takeWhile_prefix _).subset ha) hnumeral

/-- The text of a quantity with its number up to the number, and from there on. -/
theorem span_text_set {q : String} (hq : IsQuantity q) (v : Int) (d : Bool) :
    (Command.set q v d).text.toList.takeWhile (!isNumeral ·) = q.toList ++ [' '] ∧
      (Command.set q v d).text.toList.dropWhile (!isNumeral ·) = v.repr.toList ++ mark d := by
  rw [Text.span_eq_iff]
  refine ⟨toList_text_set q v d, ?_, ?_⟩
  · intro a ha
    rcases List.mem_append.1 ha with ha | ha
    · rw [Bool.not_eq_true', Bool.eq_false_iff]
      exact List.any_eq_false.1 hq.plain a ha
    · obtain rfl := List.mem_singleton.1 ha
      rfl
  · intro a ha
    obtain ⟨x, xs, hx⟩ := List.exists_cons_of_ne_nil (toList_repr_ne_nil v)
    rw [hx] at ha
    obtain rfl : x = a := Option.some.inj ha
    rw [isNumeral_of_mem_repr (by rw [hx]; exact List.mem_cons_self)]
    rfl

theorem mark_inj {d d' : Bool} (h : mark d = mark d') : d = d' := by
  cases d <;> cases d' <;> simp_all [mark]

theorem number_inj {v v' : Int} {d d' : Bool} (h : v.repr.toList ++ mark d = v'.repr.toList ++ mark d') :
    v = v' ∧ d = d' := by
  have hspan : ∀ (v : Int) (d : Bool), (v.repr.toList ++ mark d).takeWhile isNumeral = v.repr.toList ∧
      (v.repr.toList ++ mark d).dropWhile isNumeral = mark d := by
    intro v d
    refine Text.span_eq_iff.2 ⟨rfl, fun a ha => isNumeral_of_mem_repr ha, ?_⟩
    cases d <;> simp [mark, isNumeral]
  obtain ⟨hv, hd⟩ := hspan v d
  obtain ⟨hv', hd'⟩ := hspan v' d'
  rw [h] at hv hd
  exact ⟨Int.repr_inj.1 (String.toList_inj.1 (hv.symm.trans hv')), mark_inj (hd.symm.trans hd')⟩

/-- A command is read off its text. -/
theorem Rule.Shows.text_inj (h : r.Shows c) (h' : r'.Shows c') (ht : c.text = c'.text) : c = c' := by
  have hunknown : ':' ∉ Command.unknown.text.toList := colon_not_mem_unknownText
  by_cases hc : c = .unknown
  · subst hc
    by_contra hne
    exact hunknown (ht ▸ h'.colon_mem (Ne.symm hne))
  by_cases hc' : c' = .unknown
  · subst hc'
    exact absurd (ht ▸ h.colon_mem hc) hunknown
  cases c with
  | unknown => exact absurd rfl hc
  | switch s =>
    cases c' with
    | unknown => exact absurd rfl hc'
    | switch s' => exact congrArg Command.switch ht
    | set q v d => exact absurd ht.symm (text_set_ne_setting (isQuantity_of_mem h') (isSetting_of_mem h) v d)
  | set q v d =>
    cases c' with
    | unknown => exact absurd rfl hc'
    | switch s => exact absurd ht (text_set_ne_setting (isQuantity_of_mem h) (isSetting_of_mem h') v d)
    | set q' v' d' =>
      obtain ⟨hbefore, hafter⟩ := span_text_set (isQuantity_of_mem h) v d
      obtain ⟨hbefore', hafter'⟩ := span_text_set (isQuantity_of_mem h') v' d'
      rw [ht] at hbefore hafter
      have hq : q = q' := String.toList_inj.1 (List.append_cancel_right (hbefore.symm.trans hbefore'))
      obtain ⟨rfl, rfl⟩ := number_inj (hafter.symm.trans hafter')
      rw [hq]

end RetroListing.Voice.Command
