/-
Hexadecimal numerals in either letter case. Reading digits gives the number that they write
(`hexNumeral_iff`), and a number is written by its digits (`hexNumeral_hexDigits`).
-/
import RetroListing.Proofs.Text.Hex
import Mathlib.Data.List.Induction

namespace RetroListing.Text

/-! ## Digits -/

theorem digit?_upperDigit : ∀ d < 16, digit? 16 (upperDigit d) = some d := by decide

theorem digit?_lowerDigit : ∀ d < 16, digit? 16 (lowerDigit d) = some d := by decide

/-- The digits are those that numbers are written with. -/
theorem digit?_eq_some_iff {c : Char} {d : Nat} :
    digit? 16 c = some d ↔ d < 16 ∧ (c = upperDigit d ∨ c = lowerDigit d) := by
  have code : ∀ a b : Char, a ≤ b ↔ a.toNat ≤ b.toNat := fun a b => UInt32.le_iff_toNat_le
  constructor
  · intro h
    obtain ⟨hvalue, hlt⟩ := Option.filter_eq_some_iff.1 h
    have hd : d < 16 := of_decide_eq_true hlt
    refine ⟨hd, ?_⟩
    simp only [code, show ('0' : Char).toNat = 48 from rfl, show ('9' : Char).toNat = 57 from rfl,
      show ('a' : Char).toNat = 97 from rfl, show ('f' : Char).toNat = 102 from rfl,
      show ('A' : Char).toNat = 65 from rfl, show ('F' : Char).toNat = 70 from rfl] at hvalue
    split_ifs at hvalue with h1 h2 h3
    · have hd : c.toNat - 48 = d := Option.some.inj hvalue
      left
      rw [upperDigit, if_pos (by omega), show 48 + d = c.toNat by omega, Char.ofNat_toNat]
    · have hd : c.toNat - 87 = d := Option.some.inj hvalue
      right
      rw [lowerDigit, if_neg (by omega), show 87 + d = c.toNat by omega, Char.ofNat_toNat]
    · have hd : c.toNat - 55 = d := Option.some.inj hvalue
      left
      rw [upperDigit, if_neg (by omega), show 55 + d = c.toNat by omega, Char.ofNat_toNat]
  · rintro ⟨hd, rfl | rfl⟩
    · exact digit?_upperDigit d hd
    · exact digit?_lowerDigit d hd

/-- What holds of the sixteen digits in both letter cases holds of every digit. -/
theorem of_isHexDigit {P : Char → Prop} (h : ∀ d < 16, P (upperDigit d) ∧ P (lowerDigit d)) {c : Char}
    (hc : isHexDigit c = true) : P c := by
  obtain ⟨d, hd⟩ := Option.isSome_iff_exists.1 hc
  obtain ⟨hlt, rfl | rfl⟩ := digit?_eq_some_iff.1 hd
  · exact (h d hlt).1
  · exact (h d hlt).2

theorem isBlank_of_isHexDigit {c : Char} (hc : isHexDigit c = true) : isBlank c = false :=
  of_isHexDigit (P := fun c => isBlank c = false) (by decide) hc

/-! ## Numerals -/

/-- `cs` writes `n` in hexadecimal, with any number of zeros in front and each digit in either letter
case. -/
inductive HexNumeral : List Char → Nat → Prop
  | nil : HexNumeral [] 0
  | snoc {cs : List Char} {n d : Nat} {c : Char} : HexNumeral cs n → d < 16 →
      c = upperDigit d ∨ c = lowerDigit d → HexNumeral (cs ++ [c]) (n * 16 + d)

theorem HexNumeral.lt {cs : List Char} {n : Nat} (h : HexNumeral cs n) : n < 16 ^ cs.length := by
  induction h with
  | nil => decide
  | snoc _ hd _ ih =>
    rw [List.length_append, List.length_singleton, Nat.pow_succ]
    omega

theorem hexValue_snoc (cs : List Char) (c : Char) :
    hexValue (cs ++ [c]) = hexValue cs * 16 + (digit? 16 c).getD 0 := by
  rw [hexValue, List.foldl_append]
  rfl

/-- The numbers that digits write are those that reading them gives. -/
theorem hexNumeral_iff {cs : List Char} {n : Nat} :
    HexNumeral cs n ↔ (∀ c ∈ cs, isHexDigit c = true) ∧ hexValue cs = n := by
  constructor
  · intro h
    induction h with
    | nil => exact ⟨by simp, rfl⟩
    | @snoc cs n d c _ hd hc ih =>
      have hdigit : digit? 16 c = some d := digit?_eq_some_iff.2 ⟨hd, hc⟩
      refine ⟨List.forall_mem_append.2 ⟨ih.1, ?_⟩, ?_⟩
      · intro x hx
        rw [List.mem_singleton.1 hx, isHexDigit, hdigit]
        rfl
      · rw [hexValue_snoc, ih.2, hdigit]
        rfl
  · rintro ⟨h, rfl⟩
    induction cs using List.reverseRecOn with
    | nil => exact .nil
    | append_singleton cs c ih =>
      obtain ⟨hcs, hc⟩ := List.forall_mem_append.1 h
      obtain ⟨d, hd⟩ := Option.isSome_iff_exists.1 (hc c List.mem_cons_self)
      obtain ⟨hlt, hdigit⟩ := digit?_eq_some_iff.1 hd
      rw [hexValue_snoc, hd]
      exact .snoc (ih hcs) hlt hdigit

theorem hexNumeral_hexDigits {w n : Nat} (h : n < 16 ^ w) : HexNumeral (hexDigits upperDigit w n) n := by
  induction w generalizing n with
  | zero =>
    rw [Nat.pow_zero] at h
    rw [show n = 0 by omega]
    exact .nil
  | succ w ih =>
    rw [Nat.pow_succ] at h
    have hhigh : HexNumeral (hexDigits upperDigit w (n / 16)) (n / 16) := ih (by omega)
    have := hhigh.snoc (Nat.mod_lt n (by decide)) (.inl rfl)
    rwa [show n / 16 * 16 + n % 16 = n by omega] at this

end RetroListing.Text
