/-
Numbers on the command line. A numeral is an optional plus sign and one or more digits, read as the number that
the digits stand for in their places, however many of them there are (`Text.readNumeral_eq_ok_iff`): a number
that fits is never refused on the way, since its parts do not exceed it. Main statement: an offset is what is
written in hexadecimal after a mark and else in decimal, in 64 bits, an address what is written in hexadecimal
with or without a mark, in 16 bits; so with a mark an address is an offset in 16 bits.
-/
import Mathlib.Data.List.Forall2
import Mathlib.Data.Nat.Digits.Defs
import Mathlib.Tactic.Ring
import RetroListing.CommandLine.Value
import RetroListing.Proofs.Text.Numeral

namespace RetroListing

namespace Text

/-! ## Digits in a radix -/

/-- `c` writes `d`, a digit below `radix`; a letter may be in either case. -/
def WritesDigit (radix : Nat) (c : Char) (d : Nat) : Prop := d < radix ∧ (c = upperDigit d ∨ c = lowerDigit d)

theorem digit?_eq_some_iff_writesDigit {radix : Nat} (h : radix ≤ 16) {c : Char} {d : Nat} :
    digit? radix c = some d ↔ WritesDigit radix c d := by
  have hhex : digit? radix c = some d ↔ digit? 16 c = some d ∧ d < radix := by
    simp only [digit?, Option.filter_eq_some_iff, decide_eq_true_eq, and_assoc]
    exact and_congr_right fun _ => ⟨fun hd => ⟨Nat.lt_of_lt_of_le hd h, hd⟩, And.right⟩
  rw [hhex, digit?_eq_some_iff, WritesDigit]
  constructor
  · rintro ⟨⟨-, hc⟩, hd⟩
    exact ⟨hd, hc⟩
  · rintro ⟨hd, hc⟩
    exact ⟨⟨Nat.lt_of_lt_of_le hd h, hc⟩, hd⟩

/-- `cs` writes `n` in `radix`, one or more digits with the highest first; any number of them may be zeros in
front. -/
inductive Positional (radix : Nat) : List Char → Nat → Prop
  | intro {cs : List Char} {ds : List Nat} : ds ≠ [] → List.Forall₂ (WritesDigit radix) cs ds →
      Positional radix cs (Nat.ofDigits radix ds.reverse)

/-- `cs` is a numeral for `n` in `radix`: its digits, after a plus sign or not. -/
inductive IsNumeral (radix : Nat) : List Char → Nat → Prop
  | plain {cs : List Char} {n : Nat} : Positional radix cs n → IsNumeral radix cs n
  | plus {cs : List Char} {n : Nat} : Positional radix cs n → IsNumeral radix ('+' :: cs) n

/-! ## Reading -/

section

variable {radix limit value n : Nat} {cs : List Char}

theorem exists_forall₂_cons_iff {c : Char} {d : Nat} (h : radix ≤ 16) (hd : digit? radix c = some d)
    {P : List Nat → Prop} :
    (∃ ds, List.Forall₂ (WritesDigit radix) (c :: cs) ds ∧ P ds) ↔
      ∃ ds, List.Forall₂ (WritesDigit radix) cs ds ∧ P (d :: ds) := by
  constructor
  · rintro ⟨_, hds, hP⟩
    cases hds with
    | cons hc hcs =>
      cases hd.symm.trans ((digit?_eq_some_iff_writesDigit h).2 hc)
      exact ⟨_, hcs, hP⟩
  · rintro ⟨ds, hds, hP⟩
    exact ⟨d :: ds, .cons ((digit?_eq_some_iff_writesDigit h).1 hd) hds, hP⟩

/-- Digits after a part of a numeral are read exactly if the whole number is below the limit. -/
theorem readDigits_eq_ok_iff (hpos : 0 < radix) (h : radix ≤ 16) (hvalue : value < limit) :
    readDigits radix limit value cs = .ok n ↔
      n < limit ∧ ∃ ds, List.Forall₂ (WritesDigit radix) cs ds ∧
        n = value * radix ^ ds.length + Nat.ofDigits radix ds.reverse := by
  induction cs generalizing value with
  | nil =>
    rw [readDigits]
    constructor
    · rintro ⟨⟩
      exact ⟨hvalue, [], .nil, by simp⟩
    · rintro ⟨-, _, ⟨⟩, rfl⟩
      simp
  | cons c cs ih =>
    rw [readDigits]
    cases hd : digit? radix c with
    | none =>
      refine iff_of_false nofun ?_
      rintro ⟨-, _, hds, -⟩
      cases hds with
      | cons hc _ => cases hd.symm.trans ((digit?_eq_some_iff_writesDigit h).2 hc)
    | some d =>
      have hvalue' : ∀ ds : List Nat,
          value * radix ^ (d :: ds).length + Nat.ofDigits radix (d :: ds).reverse =
            (value * radix + d) * radix ^ ds.length + Nat.ofDigits radix ds.reverse := by
        intro ds
        rw [Nat.ofDigits_reverse_cons, List.length_cons]
        ring
      simp only [exists_forall₂_cons_iff h hd, hvalue']
      split
      · next hlt => exact ih hlt
      · next hge =>
        refine iff_of_false nofun ?_
        rintro ⟨hn, ds, -, rfl⟩
        -- the digits that follow only make the number greater
        have := Nat.le_mul_of_pos_right (value * radix + d) (Nat.pow_pos hpos : 0 < radix ^ ds.length)
        omega

theorem Positional.ne_nil (h : Positional radix cs n) : cs ≠ [] := by
  rintro rfl
  cases h with
  | intro hne hds =>
    cases hds
    exact hne rfl

theorem not_positional_plus (h : radix ≤ 16) : ¬ Positional radix ('+' :: cs) n := by
  rintro ⟨-, hds⟩
  cases hds with
  | cons hc _ =>
    have hnone : digit? radix '+' = none := rfl
    cases hnone.symm.trans ((digit?_eq_some_iff_writesDigit h).2 hc)

theorem readDigits_zero_eq_ok_iff (hpos : 0 < radix) (h : radix ≤ 16) (hlimit : 0 < limit) (hne : cs ≠ []) :
    readDigits radix limit 0 cs = .ok n ↔ Positional radix cs n ∧ n < limit := by
  rw [readDigits_eq_ok_iff hpos h hlimit, and_comm]
  refine and_congr_left fun _ => ?_
  constructor
  · rintro ⟨ds, hds, rfl⟩
    rw [Nat.zero_mul, Nat.zero_add]
    refine .intro ?_ hds
    rintro rfl
    cases hds
    exact hne rfl
  · rintro ⟨-, hds⟩
    exact ⟨_, hds, by rw [Nat.zero_mul, Nat.zero_add]⟩

/-- What is read are the numerals for numbers below the limit. -/
theorem readNumeral_eq_ok_iff (hpos : 0 < radix) (h : radix ≤ 16) (hlimit : 0 < limit) :
    readNumeral radix limit cs = .ok n ↔ IsNumeral radix cs n ∧ n < limit := by
  unfold readNumeral
  split
  · refine iff_of_false nofun ?_
    rintro ⟨⟨hcs⟩, -⟩
    exact hcs.ne_nil rfl
  · refine iff_of_false nofun ?_
    rintro ⟨hcs | hcs, -⟩
    · exact not_positional_plus h hcs
    · exact hcs.ne_nil rfl
  · next digits hne =>
    rw [readDigits_zero_eq_ok_iff hpos h hlimit fun hnil => hne hnil]
    refine and_congr_left fun _ => ⟨.plus, ?_⟩
    rintro (hcs | hcs)
    · exact absurd hcs (not_positional_plus h)
    · exact hcs
  · next digits hne _ hplus =>
    rw [readDigits_zero_eq_ok_iff hpos h hlimit hne]
    refine and_congr_left fun _ => ⟨.plain, ?_⟩
    rintro (hcs | @⟨rest, _, _⟩)
    · exact hcs
    · exact absurd rfl (hplus rest)

end

end Text

namespace CommandLine

/-! ## Marks -/

/-- The text has a mark of hexadecimal numerals, and `digits` is what follows it. -/
inductive HexMarked : List Char → List Char → Prop
  | dollar {digits : List Char} : HexMarked ('$' :: digits) digits
  | zeroX {digits : List Char} : HexMarked ('0' :: 'x' :: digits) digits

theorem afterHexMark?_eq_some_iff {cs digits : List Char} :
    afterHexMark? cs = some digits ↔ HexMarked cs digits := by
  constructor
  · intro h
    unfold afterHexMark? at h
    split at h
    · cases h
      exact .dollar
    · cases h
      exact .zeroX
    · cases h
  · rintro (_ | _) <;> rfl

/-- The text is a numeral for `n`: in hexadecimal after a mark, in `radix` without one. -/
inductive Spells (radix : Nat) (text : String) (n : Nat) : Prop
  | marked {digits : List Char} : HexMarked text.toList digits → Text.IsNumeral 16 digits n →
      Spells radix text n
  | unmarked : (∀ digits, ¬ HexMarked text.toList digits) → Text.IsNumeral radix text.toList n →
      Spells radix text n

section

variable {text : String} {digits : List Char} {radix n : Nat}

theorem spells_iff_of_marked (h : HexMarked text.toList digits) :
    Spells radix text n ↔ Text.IsNumeral 16 digits n := by
  refine ⟨?_, .marked h⟩
  rintro (⟨h', hn⟩ | ⟨hnone, -⟩)
  · cases (afterHexMark?_eq_some_iff.2 h).symm.trans (afterHexMark?_eq_some_iff.2 h')
    exact hn
  · exact absurd h (hnone digits)

theorem spells_iff_of_unmarked (h : afterHexMark? text.toList = none) :
    Spells radix text n ↔ Text.IsNumeral radix text.toList n := by
  have hnone : ∀ digits, ¬ HexMarked text.toList digits := by
    intro digits hmarked
    cases h.symm.trans (afterHexMark?_eq_some_iff.2 hmarked)
  refine ⟨?_, .unmarked hnone⟩
  rintro (⟨h', -⟩ | ⟨-, hn⟩)
  · exact absurd h' (hnone _)
  · exact hn

/-! ## Offsets and addresses -/

theorem readOffset_eq_ok_iff : readOffset text = .ok n ↔ Spells 10 text n ∧ n < 2 ^ 64 := by
  unfold readOffset
  split
  · next digits h =>
    rw [spells_iff_of_marked (afterHexMark?_eq_some_iff.1 h)]
    exact Text.readNumeral_eq_ok_iff (by decide) (by decide) (by decide)
  · next h =>
    rw [spells_iff_of_unmarked h]
    exact Text.readNumeral_eq_ok_iff (by decide) (by decide) (by decide)

/-- The number that is read fits in an address, so it is not cut. -/
theorem map_toNat_readAddress (text : String) : (readAddress text).map UInt16.toNat =
    Text.readNumeral 16 addressLimit ((afterHexMark? text.toList).getD text.toList) := by
  unfold readAddress
  dsimp only
  cases hread : Text.readNumeral 16 addressLimit ((afterHexMark? text.toList).getD text.toList) with
  | error e => rfl
  | ok n =>
    have hlt := ((Text.readNumeral_eq_ok_iff (by decide) (by decide) (by decide)).1 hread).2
    exact congrArg Except.ok (UInt16.toNat_ofNat_of_lt hlt)

theorem readAddress_eq_ok_iff :
    (readAddress text).map UInt16.toNat = .ok n ↔ Spells 16 text n ∧ n < 2 ^ 16 := by
  rw [map_toNat_readAddress]
  cases h : afterHexMark? text.toList with
  | some digits =>
    rw [spells_iff_of_marked (afterHexMark?_eq_some_iff.1 h)]
    exact Text.readNumeral_eq_ok_iff (by decide) (by decide) (by decide)
  | none =>
    rw [spells_iff_of_unmarked h]
    exact Text.readNumeral_eq_ok_iff (by decide) (by decide) (by decide)

end

/-- What texts are read as offsets and as addresses. An offset is a number in 64 bits in hexadecimal after a
mark, in decimal without one; an address is a number in 16 bits in hexadecimal with or without a mark. After a
mark a text is read as an address exactly if it is read as an offset in 16 bits, and as the same number. -/
theorem reads_numbers (text : String) :
    (∀ n, readOffset text = .ok n ↔ Spells 10 text n ∧ n < 2 ^ 64) ∧
    (∀ n, (readAddress text).map UInt16.toNat = .ok n ↔ Spells 16 text n ∧ n < 2 ^ 16) ∧
    ∀ digits, HexMarked text.toList digits → ∀ n,
      (readAddress text).map UInt16.toNat = .ok n ↔ readOffset text = .ok n ∧ n < 2 ^ 16 := by
  refine ⟨fun _ => readOffset_eq_ok_iff, fun _ => readAddress_eq_ok_iff, fun digits h n => ?_⟩
  rw [readAddress_eq_ok_iff, readOffset_eq_ok_iff, spells_iff_of_marked h, spells_iff_of_marked h]
  constructor
  · rintro ⟨hn, hlt⟩
    exact ⟨⟨hn, by omega⟩, hlt⟩
  · rintro ⟨⟨hn, -⟩, hlt⟩
    exact ⟨hn, hlt⟩

/-- A number with a mark, a sign and zeros in front fits in an address, and the next one does not; the digits
without a mark are an address, but no offset. -/
theorem reads_numbers_rare :
    let text := "0x+000000000000000000FfFf"
    (HexMarked text.toList "+000000000000000000FfFf".toList ∧ Spells 10 text 0xFFFF ∧
      (readAddress text).map UInt16.toNat = .ok 0xFFFF) ∧
    (HexMarked "$10000".toList "10000".toList ∧ readOffset "$10000" = .ok 0x10000 ∧
      (readAddress "$10000").map UInt16.toNat ≠ .ok 0x10000) ∧
    Spells 16 "+FfFf" 0xFFFF ∧ ¬ Spells 10 "+FfFf" 0xFFFF := by
  intro text
  obtain ⟨hoffset, -, hmarked⟩ := reads_numbers text
  have hread : readOffset text = .ok 0xFFFF := by decide +kernel
  have h : HexMarked text.toList "+000000000000000000FfFf".toList :=
    afterHexMark?_eq_some_iff.1 (by decide +kernel)
  have h' : HexMarked "$10000".toList "10000".toList := afterHexMark?_eq_some_iff.1 (by decide +kernel)
  refine ⟨⟨h, ((hoffset _).1 hread).1, (hmarked _ h _).2 ⟨hread, by decide⟩⟩,
    ⟨h', by decide +kernel, fun hat => ?_⟩, ?_, fun hspells => ?_⟩
  · exact absurd (((reads_numbers "$10000").2.2 _ h' _).1 hat).2 (by decide)
  · exact (((reads_numbers "+FfFf").2.1 _).1 (by decide +kernel)).1
  · have hrefused : readOffset "+FfFf" ≠ .ok 0xFFFF := by decide +kernel
    exact hrefused (((reads_numbers "+FfFf").1 _).2 ⟨hspells, by decide⟩)

end CommandLine

end RetroListing
