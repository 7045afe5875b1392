/-
Conflicts between the ranges of a comment table. Two comments clash if an address lies between the bounds of
both and their texts differ; the test on bounds finds exactly these (`Insertion.conflicts_range_iff`). Main
statement: after every history, the conflicts of the table are the pairs of ranges that clash, in the order of
their places, and an insertion warns exactly if its range is the later one of such a pair, naming the earliest.
-/
import RetroListing.Proofs.Comment.History
import Mathlib.Data.List.Forall2
import Mathlib.Data.Prod.Lex

namespace RetroListing.Comment

/-! ## Clashes -/

namespace Range

/-- Ranges with their bounds in order overlap if an address is in both. -/
theorem overlaps_iff {r s : Range} (hr : r.low ≤ r.high) (hs : s.low ≤ s.high) :
    r.overlaps s = true ↔ ∃ address, r.contains address = true ∧ s.contains address = true := by
  simp only [overlaps, contains, Bool.and_eq_true, decide_eq_true_eq, UInt16.le_iff_toNat_le] at hr hs ⊢
  constructor
  · rintro ⟨h1, h2⟩
    -- the greater of the lower bounds is in both
    by_cases h : r.low.toNat ≤ s.low.toNat
    · exact ⟨s.low, by omega, by omega⟩
    · exact ⟨r.low, by omega, by omega⟩
  · rintro ⟨address, h1, h2⟩
    omega

end Range

namespace Insertion

/-- An address lies between the bounds of both, and the texts differ. -/
def Clashes (c d : Insertion) : Prop := (∃ address, c.Spans address ∧ d.Spans address) ∧ c.text ≠ d.text

theorem low_le_high_range (c : Insertion) : c.range.low ≤ c.range.high := by
  rw [UInt16.le_iff_toNat_le, toNat_low_range, toNat_high_range]
  omega

theorem conflicts_range_iff (c d : Insertion) : c.range.conflicts d.range = true ↔ c.Clashes d := by
  unfold Range.conflicts Clashes
  rw [Bool.and_eq_true, Range.overlaps_iff c.low_le_high_range d.low_le_high_range]
  simp

end Insertion

/-! ## Places of conflicts -/

namespace Table

/-- The places of the pairs of ranges, each with a later one, that conflict. -/
def placesIn : List Range → List (Nat × Nat)
  | [] => []
  | r :: rest =>
    ((rest.zipIdx 1).filter fun s => r.conflicts s.1).map (fun s => (0, s.2)) ++
      (placesIn rest).map fun p => (p.1 + 1, p.2 + 1)

theorem mk_mem_zipIdx_one_iff {r s : Range} {rest : List Range} {k : Nat} :
    (s, k) ∈ rest.zipIdx 1 ↔ 0 < k ∧ (r :: rest)[k]? = some s := by
  rw [List.mk_mem_zipIdx_iff_le_and_getElem?_sub]
  cases k <;> simp

theorem mem_placesIn_iff {rs : List Range} {i j : Nat} :
    (i, j) ∈ placesIn rs ↔
      i < j ∧ ∃ r s, rs[i]? = some r ∧ rs[j]? = some s ∧ r.conflicts s = true := by
  induction rs generalizing i j with
  | nil => simp [placesIn]
  | cons r rest ih =>
    rw [placesIn, List.mem_append]
    constructor
    · rintro (h | h)
      · obtain ⟨⟨s, k⟩, hs, heq⟩ := List.mem_map.1 h
        obtain ⟨hmem, hconflict⟩ := List.mem_filter.1 hs
        obtain ⟨hpos, hget⟩ := mk_mem_zipIdx_one_iff.1 hmem
        cases heq
        exact ⟨hpos, r, s, rfl, hget, hconflict⟩
      · obtain ⟨⟨i', j'⟩, hmem, heq⟩ := List.mem_map.1 h
        obtain ⟨hlt, hpair⟩ := ih.1 hmem
        cases heq
        exact ⟨by omega, hpair⟩
    · rintro ⟨hlt, r', s, hi, hj, hconflict⟩
      cases i with
      | zero =>
        cases hi
        exact .inl (List.mem_map.2
          ⟨(s, j), List.mem_filter.2 ⟨mk_mem_zipIdx_one_iff.2 ⟨hlt, hj⟩, hconflict⟩, rfl⟩)
      | succ i =>
        obtain ⟨k, rfl⟩ : ∃ k, j = k + 1 := ⟨j - 1, by omega⟩
        exact .inr (List.mem_map.2 ⟨(i, k), ih.2 ⟨by omega, r', s, hi, hj, hconflict⟩, rfl⟩)

theorem pairwise_placesIn (rs : List Range) : (placesIn rs).Pairwise (Prod.Lex (· < ·) (· < ·)) := by
  induction rs with
  | nil => exact .nil
  | cons r rest ih =>
    have hplaces : (rest.zipIdx 1).Pairwise fun a b => a.2 < b.2 := by
      rw [← List.pairwise_map, List.zipIdx_map_snd]
      exact List.pairwise_lt_range' 1
    rw [placesIn, List.pairwise_append]
    refine ⟨?_, ?_, ?_⟩
    · exact List.pairwise_map.2 ((hplaces.filter _).imp fun h => .right 0 h)
    · refine List.pairwise_map.2 (ih.imp fun {p q} h => ?_)
      rw [Prod.lex_def] at h ⊢
      omega
    · intro p hp q hq
      obtain ⟨s, -, rfl⟩ := List.mem_map.1 hp
      obtain ⟨q, -, rfl⟩ := List.mem_map.1 hq
      exact .left _ _ (Nat.succ_pos q.1)

/-- The conflicts are the pairs of ranges at these places. -/
theorem forall₂_placesIn (rs : List Range) :
    List.Forall₂ (fun p q => rs[p.1]? = some q.1 ∧ rs[p.2]? = some q.2) (placesIn rs) (conflictsIn rs) := by
  induction rs with
  | nil => exact .nil
  | cons r rest ih =>
    have hfilter : rest.filter r.conflicts = ((rest.zipIdx 1).filter fun s => r.conflicts s.1).map Prod.fst := by
      conv_lhs => rw [← List.zipIdx_map_fst 1 rest, List.filter_map]
      rfl
    rw [placesIn, conflictsIn, hfilter, List.map_map]
    refine List.rel_append ?_ ?_
    · rw [List.forall₂_map_left_iff, List.forall₂_map_right_iff, List.forall₂_same]
      rintro ⟨s, k⟩ hs
      exact ⟨rfl, (mk_mem_zipIdx_one_iff.1 (List.mem_filter.1 hs).1).2⟩
    · rw [List.forall₂_map_left_iff]
      exact ih.imp fun p q h => h

/-! ## Histories -/

/-- The comments at two places, in this order, clash. -/
def ClashAt (cs : List Insertion) (i j : Nat) : Prop :=
  i < j ∧ ∃ c d, cs[i]? = some c ∧ cs[j]? = some d ∧ c.Clashes d

theorem mem_placesIn_map_range_iff {cs : List Insertion} {i j : Nat} :
    (i, j) ∈ placesIn (cs.map (·.range)) ↔ ClashAt cs i j := by
  simp only [mem_placesIn_iff, ClashAt, List.getElem?_map, Option.map_eq_some_iff,
    ← Insertion.conflicts_range_iff]
  constructor
  · rintro ⟨hlt, -, -, ⟨c, hc, rfl⟩, ⟨d, hd, rfl⟩, hconflict⟩
    exact ⟨hlt, c, d, hc, hd, hconflict⟩
  · rintro ⟨hlt, c, d, hc, hd, hconflict⟩
    exact ⟨hlt, c.range, d.range, ⟨c, hc, rfl⟩, ⟨d, hd, rfl⟩, hconflict⟩

theorem ranged_append_cons {c : Insertion} (hc : c.IsRange) (before after : List Insertion) :
    ranged (before ++ c :: after) = ranged before ++ c :: ranged after := by
  simp [ranged, hc]

/-- The comments before a place that clash with the one there. -/
theorem clashAt_length_iff {before after : List Insertion} {c : Insertion} {i : Nat} :
    ClashAt (before ++ c :: after) i before.length ↔ ∃ d, before[i]? = some d ∧ d.Clashes c := by
  have hplace : (before ++ c :: after)[before.length]? = some c := by simp
  unfold ClashAt
  rw [hplace]
  constructor
  · rintro ⟨hlt, d, c', hd, hc, hclash⟩
    rw [List.getElem?_append_left hlt] at hd
    cases hc
    exact ⟨d, hd, hclash⟩
  · rintro ⟨d, hd, hclash⟩
    have hlt := (List.getElem?_eq_some_iff.1 hd).1
    exact ⟨hlt, d, c, (List.getElem?_append_left hlt).trans hd, rfl, hclash⟩

theorem insertWarning?_ofInsertions {c : Insertion} (hc : c.IsRange) (cs : List Insertion) :
    (ofInsertions cs).insertWarning? c.first c.second c.text =
      ((ranged cs).find? (·.range.conflicts c.range)).map fun d => .overlap c.range d.range := by
  rw [insertWarning?, if_neg hc, ranges_ofInsertions]
  show (((ranged cs).map (·.range)).find? (·.conflicts c.range)).map (Warning.overlap c.range) = _
  rw [List.find?_map, Option.map_map]
  rfl

theorem isSome_insertWarning?_iff {c : Insertion} (hc : c.IsRange) (before after : List Insertion) :
    ((ofInsertions before).insertWarning? c.first c.second c.text).isSome = true ↔
      ∃ i, ClashAt (ranged (before ++ c :: after)) i (ranged before).length := by
  rw [insertWarning?_ofInsertions hc, Option.isSome_map, List.find?_isSome]
  simp only [ranged_append_cons hc, clashAt_length_iff, Insertion.conflicts_range_iff, List.mem_iff_getElem?]
  constructor
  · rintro ⟨d, ⟨i, hi⟩, hclash⟩
    exact ⟨i, d, hi, hclash⟩
  · rintro ⟨i, d, hi, hclash⟩
    exact ⟨d, ⟨i, hi⟩, hclash⟩

/-- The warning names the first range that the new one clashes with. -/
theorem insertWarning?_eq_some {c : Insertion} (hc : c.IsRange) {before : List Insertion} {w : Warning}
    (h : (ofInsertions before).insertWarning? c.first c.second c.text = some w) (after : List Insertion) :
    ∃ i d, ClashAt (ranged (before ++ c :: after)) i (ranged before).length ∧
      (∀ k, ClashAt (ranged (before ++ c :: after)) k (ranged before).length → i ≤ k) ∧
      (ranged (before ++ c :: after))[i]? = some d ∧ w = .overlap c.range d.range := by
  rw [insertWarning?_ofInsertions hc] at h
  obtain ⟨d, hd, rfl⟩ := Option.map_eq_some_iff.1 h
  obtain ⟨hconflict, i, hi, rfl, hearlier⟩ := List.find?_eq_some_iff_getElem.1 hd
  simp only [ranged_append_cons hc, clashAt_length_iff, ← Insertion.conflicts_range_iff]
  have hget := List.getElem?_eq_getElem hi
  refine ⟨i, _, ⟨_, hget, hconflict⟩, ?_, (List.getElem?_append_left hi).trans hget, rfl⟩
  rintro k ⟨e, he, hclash⟩
  rcases Nat.lt_or_ge k i with hlt | hle
  · obtain ⟨hk, rfl⟩ := List.getElem?_eq_some_iff.1 he
    have hnone := hearlier k hlt
    rw [hclash] at hnone
    cases hnone
  · exact hle

/-- The conflicts of the table that a history leads to: the pairs of ranges that clash, in the order of their
places. And for each comment with two different bounds: entering it warned exactly if an earlier range clashes
with it, and the warning names the bounds of the earliest such range. -/
theorem conflicts_of_history (cs : List Insertion) :
    (∃ places : List (Nat × Nat), places.Pairwise (Prod.Lex (· < ·) (· < ·)) ∧
      (∀ i j, (i, j) ∈ places ↔ ClashAt (ranged cs) i j) ∧
      List.Forall₂ (fun p q => ∃ c d, (ranged cs)[p.1]? = some c ∧ (ranged cs)[p.2]? = some d ∧
        q = (c.range, d.range)) places (ofInsertions cs).conflicts) ∧
    ∀ before c after, cs = before ++ c :: after → c.IsRange →
      let j := (ranged before).length
      let warning? := (ofInsertions before).insertWarning? c.first c.second c.text
      (ranged cs)[j]? = some c ∧ (warning?.isSome = true ↔ ∃ i, ClashAt (ranged cs) i j) ∧
      ∀ w, warning? = some w → ∃ i d, ClashAt (ranged cs) i j ∧ (∀ k, ClashAt (ranged cs) k j → i ≤ k) ∧
        (ranged cs)[i]? = some d ∧ w = .overlap c.range d.range ∧
        w.notice = ⟨.warn, "Comment range " ++ c.range.bounds ++ " overlaps " ++ d.range.bounds ++
          " with different text"⟩ := by
  constructor
  · refine ⟨placesIn ((ranged cs).map (·.range)), pairwise_placesIn _,
      fun i j => mem_placesIn_map_range_iff, ?_⟩
    rw [conflicts, ranges_ofInsertions]
    refine (forall₂_placesIn _).imp ?_
    rintro p ⟨r, s⟩ ⟨hr, hs⟩
    rw [List.getElem?_map, Option.map_eq_some_iff] at hr hs
    obtain ⟨c, hc, rfl⟩ := hr
    obtain ⟨d, hd, rfl⟩ := hs
    exact ⟨c, d, hc, hd, rfl⟩
  · rintro before c after rfl hc
    refine ⟨by simp [ranged_append_cons hc], isSome_insertWarning?_iff hc before after, fun w hw => ?_⟩
    obtain ⟨i, d, hclash, hleast, hd, rfl⟩ := insertWarning?_eq_some hc hw after
    exact ⟨i, d, hclash, hleast, hd, rfl, rfl⟩

/-- Two ranges of one text that overlap, an address inside them, and a range of another text that touches the
second in one address. -/
def touching : List Insertion :=
  [⟨0x20, 0x10, "one"⟩, ⟨0x18, 0x18, "point"⟩, ⟨0x15, 0x30, "one"⟩, ⟨0x40, 0x30, "two"⟩]

theorem conflicts_of_history_touching :
    (ofInsertions touching).conflicts = [(⟨0x15, 0x30, "one"⟩, ⟨0x30, 0x40, "two"⟩)] ∧
      (⟨0x40, 0x30, "two"⟩ : Insertion).IsRange ∧
      (ofInsertions (touching.take 3)).insertWarning? 0x40 0x30 "two" =
        some (.overlap ⟨0x30, 0x40, "two"⟩ ⟨0x15, 0x30, "one"⟩) ∧
      ∃ i d, ClashAt (ranged touching) i 2 ∧ (∀ k, ClashAt (ranged touching) k 2 → i ≤ k) ∧
        (ranged touching)[i]? = some d ∧ d.range = ⟨0x15, 0x30, "one"⟩ := by
  have hrange : (⟨0x40, 0x30, "two"⟩ : Insertion).IsRange := by decide
  have hwarning : (ofInsertions (touching.take 3)).insertWarning? 0x40 0x30 "two" =
      some (.overlap ⟨0x30, 0x40, "two"⟩ ⟨0x15, 0x30, "one"⟩) := by decide
  obtain ⟨-, -, hnames⟩ := (conflicts_of_history touching).2 (touching.take 3) _ [] rfl hrange
  obtain ⟨i, d, hclash, hleast, hd, hw, -⟩ := hnames _ hwarning
  exact ⟨by decide, hrange, hwarning, i, d, hclash, hleast, hd, (Warning.overlap.inj hw).2.symm⟩

end Table

end RetroListing.Comment
