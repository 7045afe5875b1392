/-
Windows on a buffer whose end meets its beginning. With both bounds taken back to the end of the buffer, a
window shows the bytes from its start on, going round, and it has as many as lie between its bounds in that
direction (`length_bytes`, `getElem?_bytes`). Main statement: this, for all bounds, and that a window and the one
with the bounds exchanged show the buffer rotated to the start, each offset in exactly one of their segments.
-/
import Mathlib.Data.List.Rotate
import RetroListing.Proofs.Listing.Window

namespace RetroListing.Window

/-! ## Segments -/

/-- An offset of the segment. -/
def Segment.Covers (g : Segment) (i : Nat) : Prop := g.start ≤ i ∧ i < g.stop

instance (g : Segment) (i : Nat) : Decidable (g.Covers i) := inferInstanceAs (Decidable (_ ∧ _))

section

variable {size start stop : Nat}

theorem segments_of_eq (h : min start size = min stop size) : segments size start stop = [] :=
  if_pos h

theorem segments_of_lt (h : min start size < min stop size) :
    segments size start stop = [⟨min start size, min stop size⟩] := by
  unfold segments
  dsimp only
  rw [if_neg (Nat.ne_of_lt h), if_pos h]

theorem segments_of_gt (h : min stop size < min start size) :
    segments size start stop = [⟨min start size, size⟩, ⟨0, min stop size⟩] := by
  unfold segments
  dsimp only
  rw [if_neg (Nat.ne_of_gt h), if_neg (Nat.not_lt_of_gt h)]

theorem bounds_of_mem_segments {g : Segment} (h : g ∈ segments size start stop) :
    g.start ≤ g.stop ∧ g.stop ≤ size := by
  rcases Nat.lt_trichotomy (min start size) (min stop size) with hlt | heq | hgt
  · rw [segments_of_lt hlt, List.mem_singleton] at h
    subst h
    exact ⟨Nat.le_of_lt hlt, Nat.min_le_right ..⟩
  · rw [segments_of_eq heq] at h
    cases h
  · rw [segments_of_gt hgt] at h
    rcases List.mem_pair.1 h with rfl | rfl
    · exact ⟨Nat.min_le_right .., Nat.le_refl size⟩
    · exact ⟨Nat.zero_le _, Nat.min_le_right ..⟩

/-- No two segments between two bounds share an offset. -/
theorem pairwise_segments (size start stop : Nat) :
    (segments size start stop).Pairwise fun g h => ∀ i, ¬ (g.Covers i ∧ h.Covers i) := by
  rcases Nat.lt_trichotomy (min start size) (min stop size) with hlt | heq | hgt
  · rw [segments_of_lt hlt]
    exact List.pairwise_singleton ..
  · rw [segments_of_eq heq]
    exact .nil
  · rw [segments_of_gt hgt, List.pairwise_pair]
    rintro i ⟨⟨hstart, -⟩, -, hstop⟩
    exact absurd hstop (Nat.not_lt_of_le (Nat.le_trans (Nat.le_of_lt hgt) hstart))

/-- Two cuts part the offsets of a buffer in three. -/
theorem countP_covers_parts {i : Nat} (h : start < stop) (hi : i < size) :
    [⟨start, stop⟩, ⟨stop, size⟩, ⟨0, start⟩].countP (fun g : Segment => g.Covers i) = 1 := by
  simp only [List.countP_cons, List.countP_nil, decide_eq_true_eq]
  split_ifs <;> simp only [Segment.Covers] at * <;> omega

/-- Of the segments between two bounds and those between the same bounds exchanged, one covers an offset. -/
theorem countP_covers_segments (h : min start size ≠ min stop size) {i : Nat} (hi : i < size) :
    (segments size start stop ++ segments size stop start).countP (·.Covers i) = 1 := by
  rcases Nat.lt_or_gt_of_ne h with hlt | hgt
  · rw [segments_of_lt hlt, segments_of_gt hlt]
    exact countP_covers_parts hlt hi
  · rw [List.countP_append, Nat.add_comm, ← List.countP_append, segments_of_gt hgt, segments_of_lt hgt]
    exact countP_covers_parts hgt hi

end

/-! ## Bytes -/

/-- The window with its bounds exchanged. -/
def opposite (w : Window) : Window := { w with start := w.stop, stop := w.start }

theorem turned_eq_rotate (w : Window) : w.turned = w.buffer.rotate (min w.start w.buffer.length) := by
  rw [List.rotate_eq_drop_append_take (Nat.min_le_right ..), turned, ← List.drop_eq_drop_min,
    ← List.take_eq_take_min]

theorem length_bytes (w : Window) :
    w.bytes.length =
      if min w.start w.buffer.length = min w.stop w.buffer.length then 0
      else if min w.start w.buffer.length < min w.stop w.buffer.length then
        min w.stop w.buffer.length - min w.start w.buffer.length
      else w.buffer.length - min w.start w.buffer.length + min w.stop w.buffer.length := by
  by_cases h : w.Wraps
  · rw [bytes_of_wraps h, List.length_append, List.length_drop, List.length_take]
    unfold Wraps at h
    rw [if_neg (by omega), if_neg (by omega)]
    omega
  · rw [bytes_of_not_wraps h, List.length_drop, List.length_take]
    unfold Wraps at h
    split_ifs <;> omega

/-- A byte of a window stands as far from the start, going round, as it does in the window. -/
theorem getElem?_bytes {w : Window} {k : Nat} (hk : k < w.bytes.length) :
    w.bytes[k]? = w.buffer[(min w.start w.buffer.length + k) % w.buffer.length]? := by
  obtain ⟨rest, hturned⟩ := w.bytes_begin_turned
  have hlength : w.turned.length = w.buffer.length := by rw [turned_eq_rotate, List.length_rotate]
  have hk' : k < w.buffer.length := by
    rw [← hlength, ← hturned, List.length_append]
    omega
  rw [← List.getElem?_append_left hk, hturned, turned_eq_rotate, List.getElem?_rotate hk', Nat.add_comm]

/-- Two windows with exchanged bounds go round the buffer once. -/
theorem bytes_append_opposite {w : Window}
    (h : min w.start w.buffer.length ≠ min w.stop w.buffer.length) :
    w.bytes ++ w.opposite.bytes = w.turned := by
  unfold turned
  by_cases hw : w.Wraps
  · have hopposite : ¬ w.opposite.Wraps := Nat.lt_asymm hw
    have hle : w.stop ≤ w.start := by
      unfold Wraps at hw
      omega
    rw [bytes_of_wraps hw, bytes_of_not_wraps hopposite, List.append_assoc]
    congr 1
    calc w.buffer.take w.stop ++ (w.buffer.take w.start).drop w.stop
        = (w.buffer.take w.start).take w.stop ++ (w.buffer.take w.start).drop w.stop := by
          rw [List.take_take, Nat.min_eq_left hle]
      _ = w.buffer.take w.start := List.take_append_drop ..
  · have hopposite : w.opposite.Wraps := Nat.lt_of_le_of_ne (Nat.le_of_not_lt hw) h
    have hle : w.start ≤ (w.buffer.take w.stop).length := by
      rw [List.length_take]
      unfold Wraps at hw
      omega
    rw [bytes_of_not_wraps hw, bytes_of_wraps hopposite, ← List.append_assoc]
    congr 1
    calc (w.buffer.take w.stop).drop w.start ++ w.buffer.drop w.stop
        = (w.buffer.take w.stop ++ w.buffer.drop w.stop).drop w.start := (List.drop_append_of_le_length hle).symm
      _ = w.buffer.drop w.start := by rw [List.take_append_drop]

/-- The window between any two bounds, each taken back to the end of the buffer. Its segments lie in the buffer
and share no offset; its bytes are as many as lie between the bounds, going round from the end to the beginning
if the second bound comes first, and the `k`-th of them stands `k` bytes from the start in that direction. If
the bounds differ, the window and the one with the bounds exchanged show the buffer rotated to the start, and
each offset is in exactly one of their segments. -/
theorem bytes_circular (w : Window) :
    let size := w.buffer.length
    let s := min w.start size
    let e := min w.stop size
    ((segments size w.start w.stop).Pairwise fun g h => ∀ i, ¬ (g.Covers i ∧ h.Covers i)) ∧
    (∀ g ∈ segments size w.start w.stop, g.start ≤ g.stop ∧ g.stop ≤ size) ∧
    w.bytes.length = (if s = e then 0 else if s < e then e - s else size - s + e) ∧
    (∀ k < w.bytes.length, w.bytes[k]? = w.buffer[(s + k) % size]?) ∧
    (s ≠ e → w.bytes ++ w.opposite.bytes = w.buffer.rotate s ∧
      ∀ i < size,
        (segments size w.start w.stop ++ segments size w.stop w.start).countP (·.Covers i) = 1) := by
  intro size s e
  refine ⟨pairwise_segments .., fun g => bounds_of_mem_segments, w.length_bytes,
    fun k => getElem?_bytes, fun hne => ⟨?_, fun i hi => countP_covers_segments hne hi⟩⟩
  rw [bytes_append_opposite hne, turned_eq_rotate]

/-- Four of five bytes over the end, and the one between the bounds. -/
theorem bytes_circular_overEnd :
    let w : Window := ⟨[1, 2, 3, 4, 5], 3, 2, 0⟩
    w.bytes.length = 4 ∧ (2 < w.bytes.length ∧ w.bytes[2]? = some 1) ∧
      (3 ≠ 2 ∧ w.bytes ++ w.opposite.bytes = [4, 5, 1, 2, 3]) ∧
      (4 < 5 ∧ (segments 5 3 2 ++ segments 5 2 3).countP (·.Covers 4) = 1) := by
  intro w
  obtain ⟨-, -, hlength, hget, hround⟩ := w.bytes_circular
  obtain ⟨hrotate, honce⟩ := hround (by decide)
  have hk : 2 < w.bytes.length := by
    rw [hlength]
    decide
  exact ⟨hlength, ⟨hk, (hget 2 hk).trans (by decide)⟩, ⟨by decide, hrotate⟩, by decide, honce 4 (by decide)⟩

end RetroListing.Window
