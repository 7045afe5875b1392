/-
Hexadecimal numerals of a fixed width: a number that fits in the width is written with exactly so many
digits, and different numbers are written differently.
-/
import RetroListing.Proofs.Text.Blank
import RetroListing.Text.Hex
import RetroListing.Text.Numeral
import Mathlib.Algebra.Group.Nat.Defs

namespace RetroListing.Text

/-! ## Digits -/

theorem upperDigit_inj : ∀ n < 16, ∀ m < 16, upperDigit n = upperDigit m → n = m := by decide

theorem isHexDigit_upperDigit : ∀ n < 16, isHexDigit (upperDigit n) = true := by decide

theorem isBlank_upperDigit : ∀ n < 16, isBlank (upperDigit n) = false := by decide

/-- What holds of every digit holds of every character of a numeral. -/
theorem forall_mem_hexDigits {digit : Nat → Char} {P : Char → Prop} (h : ∀ d < 16, P (digit d)) :
    ∀ (w n : Nat), ∀ c ∈ hexDigits digit w n, P c
  | 0, _, c, hc => by cases hc
  | w + 1, n, c, hc => by
    rcases List.mem_append.1 hc with hc | hc
    · exact forall_mem_hexDigits h w (n / 16) c hc
    · rw [List.mem_singleton.1 hc]
      exact h (n % 16) (Nat.mod_lt n (by decide))

theorem length_hexDigits (digit : Nat → Char) : ∀ w n : Nat, (hexDigits digit w n).length = w
  | 0, _ => rfl
  | w + 1, n => by rw [hexDigits, List.length_append, length_hexDigits digit w]; rfl

theorem unbroken_hexDigits (w n : Nat) : Unbroken (hexDigits upperDigit w n) :=
  forall_mem_hexDigits isBlank_upperDigit w n

/-- Numerals of one width are different for different numbers that fit in it. -/
theorem hexDigits_inj {w n m : Nat} (hn : n < 16 ^ w) (hm : m < 16 ^ w)
    (h : hexDigits upperDigit w n = hexDigits upperDigit w m) : n = m := by
  induction w generalizing n m with
  | zero =>
    rw [Nat.pow_zero] at hn hm
    omega
  | succ w ih =>
    rw [Nat.pow_succ] at hn hm
    obtain ⟨hhigh, hlow⟩ := List.append_inj h (by rw [length_hexDigits, length_hexDigits])
    have h1 : n / 16 = m / 16 := ih (by omega) (by omega) hhigh
    have h2 : n % 16 = m % 16 :=
      upperDigit_inj _ (Nat.mod_lt n (by decide)) _ (Nat.mod_lt m (by decide)) (List.cons.inj hlow).1
    omega

/-! ## Numerals -/

theorem hexWidth_le {w n : Nat} (hw : 0 < w) (hn : n < 16 ^ w) : hexWidth n ≤ w := by
  unfold hexWidth
  by_cases h0 : n = 0
  · subst h0
    rw [Nat.log2_zero]
    omega
  · have : n.log2 < 4 * w := by
      rw [Nat.log2_lt h0, Nat.pow_mul]
      exact hn
    omega

/-- A number that fits in a width is written with so many digits. -/
theorem toList_hex {w n : Nat} (hw : 0 < w) (hn : n < 16 ^ w) :
    (hex w n).toList = hexDigits upperDigit w n := by
  rw [hex, String.toList_ofList, Nat.max_eq_left (hexWidth_le hw hn)]

end RetroListing.Text
