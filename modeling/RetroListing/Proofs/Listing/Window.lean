/-
The bytes of a window: a start past the end of the buffer counts as the end (`bytes_clampStart`), and a
window is empty only where its bounds meet, on the line or around the end (`bytes_eq_nil_iff`). A window
that runs over the end shows the two ends of the buffer in turn (`bytes_of_wraps`), and all windows with
one start begin alike (`bytes_begin_turned`).
-/
import RetroListing.Listing.Window

namespace RetroListing.Window

/-- The window with its start taken back to the end of the buffer, the address of the first byte kept. -/
def clampStart (w : Window) : Window := { w with start := min w.start w.buffer.length }

theorem bytes_clampStart (w : Window) : w.clampStart.bytes = w.bytes := by
  have hmin : min (min w.start w.buffer.length) w.buffer.length = min w.start w.buffer.length := by omega
  unfold bytes clampStart segments
  rw [hmin]

theorem Segment.length_slice (s : Segment) (buffer : List UInt8) :
    (s.slice buffer).length = min (s.stop - s.start) (buffer.length - s.start) := by
  rw [slice, List.length_take, List.length_drop]

/-- A window has no bytes where its bounds are the same, and where it runs from the end of the buffer to
its beginning. -/
theorem bytes_eq_nil_iff (w : Window) :
    w.bytes = [] ↔ min w.start w.buffer.length = min w.stop w.buffer.length ∨
      (w.buffer.length ≤ w.start ∧ w.stop = 0) := by
  rw [← List.length_eq_zero_iff]
  unfold bytes segments
  dsimp only
  split
  · simp_all
  · split
    · rw [List.flatMap_singleton, Segment.length_slice]
      dsimp only
      omega
    · rw [List.flatMap_cons, List.flatMap_singleton, List.length_append, Segment.length_slice,
        Segment.length_slice]
      dsimp only
      omega

/-! ## Running over the end -/

/-- The window that shows all of a buffer. -/
def whole (buffer : List UInt8) (pc : UInt16) : Window := ⟨buffer, 0, buffer.length, pc⟩

/-- The window runs over the end of its buffer to the beginning. -/
def Wraps (w : Window) : Prop := min w.stop w.buffer.length < min w.start w.buffer.length

instance (w : Window) : Decidable w.Wraps :=
  inferInstanceAs (Decidable (min w.stop w.buffer.length < min w.start w.buffer.length))

theorem bytes_of_not_wraps {w : Window} (h : ¬ w.Wraps) : w.bytes = (w.buffer.take w.stop).drop w.start := by
  unfold Wraps at h
  unfold bytes segments
  dsimp only
  split
  · rw [List.flatMap_nil, List.drop_eq_nil_of_le]
    rw [List.length_take]
    omega
  · have hlt : min w.start w.buffer.length < min w.stop w.buffer.length := by omega
    rw [if_pos hlt, List.flatMap_singleton, Segment.slice, List.drop_take]
    dsimp only
    rw [Nat.min_eq_left (by omega : w.start ≤ w.buffer.length), List.take_eq_take_iff, List.length_drop]
    omega

theorem bytes_of_wraps {w : Window} (h : w.Wraps) : w.bytes = w.buffer.drop w.start ++ w.buffer.take w.stop := by
  unfold Wraps at h
  have hstart : w.buffer.drop (min w.start w.buffer.length) = w.buffer.drop w.start := by
    rw [← List.drop_eq_drop_min]
  unfold bytes segments
  dsimp only
  rw [if_neg (by omega), if_neg (by omega), List.flatMap_cons, List.flatMap_singleton, Segment.slice,
    Segment.slice]
  dsimp only
  rw [hstart, List.drop_zero, Nat.sub_zero, List.take_of_length_le (by rw [List.length_drop]; omega)]
  congr 1
  rw [List.take_eq_take_iff]
  omega

theorem bytes_toEnd (w : Window) : { w with stop := w.buffer.length }.bytes = w.buffer.drop w.start := by
  rw [bytes_of_not_wraps (by unfold Wraps; dsimp only; omega)]
  exact congrArg (List.drop w.start) List.take_length

theorem bytes_fromBeginning (w : Window) (pc : UInt16) :
    { w with start := 0, pc := pc }.bytes = w.buffer.take w.stop := by
  rw [bytes_of_not_wraps (by unfold Wraps; dsimp only; omega)]
  rfl

@[simp] theorem bytes_whole (buffer : List UInt8) (pc : UInt16) : (whole buffer pc).bytes = buffer :=
  bytes_toEnd ⟨buffer, 0, 0, pc⟩

/-- The buffer turned round so that the start comes first. -/
def turned (w : Window) : List UInt8 := w.buffer.drop w.start ++ w.buffer.take w.start

/-- A window shows the beginning of the turned buffer, wherever it stops. -/
theorem bytes_begin_turned (w : Window) : w.bytes <+: w.turned := by
  unfold turned
  by_cases h : w.Wraps
  · rw [bytes_of_wraps h, List.prefix_append_right_inj]
    exact List.take_prefix_take_left (by unfold Wraps at h; omega)
  · rw [bytes_of_not_wraps h, List.drop_take]
    exact (List.take_prefix _ _).trans (List.prefix_append _ _)

end RetroListing.Window
