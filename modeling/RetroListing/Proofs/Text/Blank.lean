/-
Texts cut at a separator or where a class of characters ends, words without blanks, and texts that lose
the blanks around them.
-/
import RetroListing.Text.Blank

namespace RetroListing.Text

/-! ## Separators -/

/-- A part without the separator is told from what follows, which starts with the separator or is
empty. -/
theorem append_inj_of_separator {α : Type} {c : α} {a b x y : List α} (ha : c ∉ a) (hb : c ∉ b)
    (hx : x = [] ∨ ∃ t, x = c :: t) (hy : y = [] ∨ ∃ t, y = c :: t) (h : a ++ x = b ++ y) :
    a = b ∧ x = y := by
  induction a generalizing b with
  | nil =>
    cases b with
    | nil => exact ⟨rfl, h⟩
    | cons d b =>
      rcases hx with rfl | ⟨t, rfl⟩
      · cases h
      · exact absurd ((List.cons.inj h).1 ▸ List.mem_cons_self) hb
  | cons d a ih =>
    cases b with
    | nil =>
      rcases hy with rfl | ⟨t, rfl⟩
      · cases h
      · exact absurd ((List.cons.inj h).1 ▸ List.mem_cons_self) ha
    | cons e b =>
      obtain ⟨rfl, hrest⟩ := List.cons.inj h
      obtain ⟨rfl, hxy⟩ := ih (List.not_mem_of_not_mem_cons ha) (List.not_mem_of_not_mem_cons hb) hrest
      exact ⟨rfl, hxy⟩

theorem append_cons_inj_of_not_mem {α : Type} {c : α} {a b x y : List α} (ha : c ∉ a) (hb : c ∉ b)
    (h : a ++ c :: x = b ++ c :: y) : a = b ∧ x = y := by
  obtain ⟨rfl, hxy⟩ := append_inj_of_separator ha hb (.inr ⟨x, rfl⟩) (.inr ⟨y, rfl⟩) h
  exact ⟨rfl, (List.cons.inj hxy).2⟩

/-- Parts that do not hold the separator are read off from the text in which each is followed by it. -/
theorem eq_of_flatMap_separated {α : Type} {c : α} {as bs : List (List α)} (ha : ∀ a ∈ as, c ∉ a)
    (hb : ∀ b ∈ bs, c ∉ b) (h : as.flatMap (· ++ [c]) = bs.flatMap (· ++ [c])) : as = bs := by
  induction as generalizing bs with
  | nil =>
    cases bs with
    | nil => rfl
    | cons b bs => simp at h
  | cons a as ih =>
    cases bs with
    | nil => simp at h
    | cons b bs =>
      rw [List.flatMap_cons, List.flatMap_cons, List.append_assoc, List.append_assoc] at h
      obtain ⟨rfl, hrest⟩ := append_inj_of_separator (ha a List.mem_cons_self) (hb b List.mem_cons_self)
        (.inr ⟨_, rfl⟩) (.inr ⟨_, rfl⟩) h
      rw [ih (fun x hx => ha x (List.mem_cons_of_mem a hx)) (fun x hx => hb x (List.mem_cons_of_mem a hx))
        (List.cons.inj hrest).2]

/-- A part of a split text does not hold the separator. -/
theorem not_mem_of_mem_splitOn {c : Char} {cs part : List Char} (h : part ∈ cs.splitOn c) :
    c ∉ part := by
  induction cs generalizing part with
  | nil =>
    rw [List.splitOn_nil, List.mem_singleton] at h
    subst h
    exact List.not_mem_nil
  | cons x xs ih =>
    rw [List.splitOn_cons_eq_if_modifyHead] at h
    split at h
    · rcases List.mem_cons.1 h with rfl | h
      · exact List.not_mem_nil
      · exact ih h
    · rename_i hx
      obtain ⟨l, ls, hl⟩ := List.exists_cons_of_ne_nil (List.splitOn_ne_nil c xs)
      rw [hl] at h ih
      rcases List.mem_cons.1 h with rfl | h
      · have hxc : c ≠ x := by
          rintro rfl
          exact hx (beq_self_eq_true c)
        exact List.not_mem_cons_of_ne_of_not_mem hxc (ih List.mem_cons_self)
      · exact ih (List.mem_cons_of_mem l h)

/-! ## Classes of characters -/

/-- A text is cut where a class of characters ends: the part before is in the class, and what follows
does not start in it. -/
theorem span_eq_iff {α : Type} {p : α → Bool} {l xs ys : List α} :
    l.takeWhile p = xs ∧ l.dropWhile p = ys ↔
      l = xs ++ ys ∧ (∀ a ∈ xs, p a = true) ∧ ∀ a ∈ ys.head?, p a = false := by
  constructor
  · rintro ⟨rfl, rfl⟩
    refine ⟨List.takeWhile_append_dropWhile.symm, List.all_eq_true.1 List.all_takeWhile, ?_⟩
    intro a ha
    have := List.head?_dropWhile_not p l
    rwa [Option.mem_def.1 ha] at this
  · rintro ⟨rfl, hxs, hys⟩
    rw [List.takeWhile_append_of_pos hxs, List.dropWhile_append_of_pos hxs]
    cases ys with
    | nil => simp
    | cons y ys =>
      have hy : p y = false := hys y rfl
      simp [hy]

theorem dropWhile_eq_iff {α : Type} {p : α → Bool} {l ys : List α} :
    l.dropWhile p = ys ↔ ∃ xs, l = xs ++ ys ∧ (∀ a ∈ xs, p a = true) ∧ ∀ a ∈ ys.head?, p a = false := by
  constructor
  · intro h
    exact ⟨l.takeWhile p, span_eq_iff.1 ⟨rfl, h⟩⟩
  · rintro ⟨xs, h⟩
    exact (span_eq_iff.2 h).2

theorem isBlank_of_isAlpha {c : Char} (h : c.isAlpha = true) : isBlank c = false := by
  have hc : 65 ≤ c.toNat ∧ c.toNat ≤ 122 := by
    rcases (Bool.or_eq_true c.isUpper c.isLower).mp h with hupper | hlower
    · obtain ⟨h1, h2⟩ := of_decide_eq_true hupper
      have h1 : 65 ≤ c.toNat := UInt32.le_iff_toNat_le.1 h1
      have h2 : c.toNat ≤ 90 := UInt32.le_iff_toNat_le.1 h2
      omega
    · obtain ⟨h1, h2⟩ := (Bool.and_eq_true _ _).mp hlower
      have h1 : 97 ≤ c.toNat := UInt32.le_iff_toNat_le.1 (of_decide_eq_true h1)
      have h2 : c.toNat ≤ 122 := UInt32.le_iff_toNat_le.1 (of_decide_eq_true h2)
      omega
  simp only [isBlank, inRanges, blankRanges, List.any_cons, List.any_nil, Bool.or_eq_false_iff,
    Bool.and_eq_false_iff, decide_eq_false_iff_not, and_true]
  omega

/-! ## Words -/

/-- A text without blanks. -/
def Unbroken (cs : List Char) : Prop := ∀ c ∈ cs, isBlank c = false

instance (cs : List Char) : Decidable (Unbroken cs) :=
  decidable_of_iff (cs.all (!isBlank ·) = true) (by simp [Unbroken])

theorem unbroken_append_iff {xs ys : List Char} : Unbroken (xs ++ ys) ↔ Unbroken xs ∧ Unbroken ys :=
  List.forall_mem_append

theorem Unbroken.not_mem {cs : List Char} (h : Unbroken cs) {c : Char} (hc : isBlank c = true) :
    c ∉ cs := by
  intro hmem
  rw [h c hmem] at hc
  cases hc

/-- A text that ends in a word ends in a character that is not blank. -/
theorem Unbroken.exists_getLast? {cs : List Char} (h : Unbroken cs) (hne : cs ≠ [])
    (before : List Char) : ∃ c ∈ (before ++ cs).getLast?, isBlank c = false := by
  refine ⟨cs.getLast hne, ?_, h _ (List.getLast_mem hne)⟩
  rw [List.getLast?_append, List.getLast?_eq_some_getLast hne]
  rfl

/-! ## Trimming -/

/-- What is left of a text without its blank end is its beginning. -/
theorem trimEnd_prefix (cs : List Char) : trimEnd cs <+: cs := by
  unfold trimEnd
  rw [← List.reverse_suffix, List.reverse_reverse]
  exact List.dropWhile_suffix _

/-- A text that ends in a character that is not blank stays whole before what is trimmed. -/
theorem trimEnd_append_of_getLast? {xs ys : List Char} (h : ∃ c ∈ xs.getLast?, isBlank c = false) :
    trimEnd (xs ++ ys) = xs ++ trimEnd ys := by
  obtain ⟨c, hc, hblank⟩ := h
  obtain ⟨zs, rfl⟩ := List.getLast?_eq_some_iff.1 hc
  have hxs : (zs ++ [c]).reverse.dropWhile isBlank = (zs ++ [c]).reverse := by
    rw [List.reverse_append, List.reverse_singleton, List.singleton_append, List.dropWhile_cons, hblank]
    rfl
  unfold trimEnd
  rw [List.reverse_append, List.dropWhile_append, hxs]
  split
  · rename_i he
    rw [List.isEmpty_iff.1 he, List.reverse_reverse]
    simp
  · rw [List.reverse_append, List.reverse_reverse]

/-- A text of blanks. -/
def Blanks (cs : List Char) : Prop := ∀ c ∈ cs, isBlank c = true

/-- Neither the first nor the last character is blank. -/
structure Trimmed (cs : List Char) : Prop where
  head : ∀ c ∈ cs.head?, isBlank c = false
  last : ∀ c ∈ cs.getLast?, isBlank c = false

theorem trimEnd_eq_iff {cs ys : List Char} :
    trimEnd cs = ys ↔ ∃ zs, cs = ys ++ zs ∧ Blanks zs ∧ ∀ c ∈ ys.getLast?, isBlank c = false := by
  unfold trimEnd
  rw [← List.reverse_inj, List.reverse_reverse, dropWhile_eq_iff]
  constructor
  · rintro ⟨xs, hcs, hxs, hys⟩
    refine ⟨xs.reverse, ?_, fun c hc => hxs c (List.mem_reverse.1 hc), ?_⟩
    · rw [← List.reverse_reverse cs, hcs, List.reverse_append, List.reverse_reverse]
    · rwa [List.head?_reverse] at hys
  · rintro ⟨zs, rfl, hzs, hys⟩
    refine ⟨zs.reverse, List.reverse_append, fun c hc => hzs c (List.mem_reverse.1 hc), ?_⟩
    rwa [List.head?_reverse]

/-- What is left of a text without the blanks at both ends is what stands between them. -/
theorem trim_eq_iff {cs body : List Char} :
    trim cs = body ↔ ∃ before after, cs = before ++ (body ++ after) ∧ Blanks before ∧ Blanks after ∧
      Trimmed body := by
  unfold trim
  rw [trimEnd_eq_iff]
  constructor
  · rintro ⟨after, hstart, hafter, hlast⟩
    obtain ⟨before, rfl, hbefore, hhead⟩ := dropWhile_eq_iff.1 hstart
    refine ⟨before, after, rfl, hbefore, hafter, ⟨fun c hc => hhead c ?_, hlast⟩⟩
    rw [List.head?_append, Option.mem_def.1 hc]
    rfl
  · rintro ⟨before, after, rfl, hbefore, hafter, htrimmed⟩
    cases body with
    | nil =>
      -- blanks only: all of them are in front
      refine ⟨[], ?_, by simp [Blanks], by simp⟩
      exact dropWhile_eq_iff.2
        ⟨before ++ after, by simp, List.forall_mem_append.2 ⟨hbefore, hafter⟩, by simp⟩
    | cons c body =>
      refine ⟨after, ?_, hafter, htrimmed.last⟩
      exact dropWhile_eq_iff.2 ⟨before, rfl, hbefore, htrimmed.head⟩

end RetroListing.Text
