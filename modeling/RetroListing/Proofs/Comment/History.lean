/-
The history of a comment table. Comments are entered one after another, each between two bounds given in
either order, and the table that a history leads to is known from the history alone: its comments on single
addresses are the first ones entered on them (`get?_exact_ofInsertions`), its ranges are the comments with two
different bounds, in the order of entry (`ranges_ofInsertions`). Main statement: what a table answers, which
insertions it refuses and how many comments it holds, for every history.
-/
import RetroListing.Comment.Table

namespace RetroListing.Comment

/-! ## Insertions -/

/-- A comment as it is entered, between two bounds given in either order. -/
structure Insertion where
  first : UInt16
  second : UInt16
  text : String
  deriving DecidableEq, Repr

namespace Insertion

/-- The comment is on a single address, this one. -/
def On (c : Insertion) (address : UInt16) : Prop := c.first = address ∧ c.second = address

/-- An address lies between the bounds or is one of them. -/
def Spans (c : Insertion) (address : UInt16) : Prop :=
  c.first ≤ address ∧ address ≤ c.second ∨ c.second ≤ address ∧ address ≤ c.first

/-- The comment has two different bounds. -/
def IsRange (c : Insertion) : Prop := c.first ≠ c.second

instance (c : Insertion) (address : UInt16) : Decidable (c.On address) := inferInstanceAs (Decidable (_ ∧ _))

instance (c : Insertion) (address : UInt16) : Decidable (c.Spans address) :=
  inferInstanceAs (Decidable (_ ∨ _))

instance (c : Insertion) : Decidable c.IsRange := inferInstanceAs (Decidable (_ ≠ _))

/-- The range between the bounds. -/
def range (c : Insertion) : Range := .between c.first c.second c.text

theorem toNat_low_range (c : Insertion) : c.range.low.toNat = min c.first.toNat c.second.toNat := by
  show (if c.first ≤ c.second then c.first else c.second).toNat = _
  split <;> simp_all only [UInt16.le_iff_toNat_le] <;> omega

theorem toNat_high_range (c : Insertion) : c.range.high.toNat = max c.first.toNat c.second.toNat := by
  show (if c.first ≤ c.second then c.second else c.first).toNat = _
  split <;> simp_all only [UInt16.le_iff_toNat_le] <;> omega

@[simp] theorem text_range (c : Insertion) : c.range.text = c.text := rfl

@[simp] theorem contains_range (c : Insertion) (address : UInt16) :
    c.range.contains address = decide (c.Spans address) := by
  rw [Bool.eq_iff_iff]
  simp only [Range.contains, Spans, Bool.and_eq_true, decide_eq_true_eq, UInt16.le_iff_toNat_le,
    toNat_low_range, toNat_high_range]
  omega

end Insertion

/-! ## One insertion -/

namespace Table

/-- The table with one more comment. -/
def enter (t : Table) (c : Insertion) : Table := t.insert c.first c.second c.text

/-- A comment that is not kept leaves the table as it is. -/
theorem enter_of_not_admits {t : Table} {c : Insertion} (h : t.admits c.first c.second = false) :
    t.enter c = t := by
  obtain ⟨heq, hcontains⟩ : c.first = c.second ∧ t.exact.contains c.first = true := by
    simpa [admits] using h
  rw [enter, insert, if_pos heq, if_pos hcontains]

theorem get?_exact_enter (t : Table) (c : Insertion) (address : UInt16) :
    (t.enter c).exact.get? address =
      (t.exact.get? address).or (if c.On address then some c.text else none) := by
  unfold enter insert
  by_cases hon : c.On address
  · obtain ⟨rfl, heq⟩ := hon
    cases hg : t.exact.get? c.first <;> simp [Insertion.On, OrderedMap.contains, heq, hg]
  · split
    · next heq =>
      have hne : address ≠ c.first := fun h => hon ⟨h.symm, heq ▸ h.symm⟩
      split <;> simp [hne]
    · simp

theorem ranges_enter (t : Table) (c : Insertion) :
    (t.enter c).ranges = t.ranges ++ if c.IsRange then [c.range] else [] := by
  unfold enter insert
  by_cases heq : c.first = c.second
  · cases hc : t.exact.contains c.second <;> simp [Insertion.IsRange, heq, hc]
  · simp [Insertion.IsRange, Insertion.range, heq]

theorem size_enter (t : Table) (c : Insertion) :
    (t.enter c).size = t.size + (t.admits c.first c.second).toNat := by
  unfold enter insert size admits
  by_cases heq : c.first = c.second
  · cases hc : t.exact.contains c.second <;> simp [heq, hc, OrderedMap.size_insert]
    omega
  · simp [beq_eq_false_iff_ne.2 heq, heq]
    omega

/-! ## Histories -/

/-- The table with more comments, entered in order. -/
def enterAll (t : Table) : List Insertion → Table
  | [] => t
  | c :: cs => enterAll (t.enter c) cs

/-- Whether each comment, entered in order, is kept. -/
def replies (t : Table) : List Insertion → List Bool
  | [] => []
  | c :: cs => t.admits c.first c.second :: replies (t.enter c) cs

/-- The table that a history leads to. -/
def ofInsertions (cs : List Insertion) : Table := enterAll .empty cs

/-- The comments of a history that have two different bounds. -/
def ranged (cs : List Insertion) : List Insertion := cs.filter (·.IsRange)

theorem get?_exact_enterAll (t : Table) (cs : List Insertion) (address : UInt16) :
    (t.enterAll cs).exact.get? address =
      (t.exact.get? address).or ((cs.find? (·.On address)).map (·.text)) := by
  induction cs generalizing t with
  | nil => simp [enterAll]
  | cons c cs ih =>
    rw [enterAll, ih, get?_exact_enter, Option.or_assoc]
    by_cases h : c.On address <;> simp [h]

theorem ranges_enterAll (t : Table) (cs : List Insertion) :
    (t.enterAll cs).ranges = t.ranges ++ (ranged cs).map (·.range) := by
  induction cs generalizing t with
  | nil => simp [enterAll, ranged]
  | cons c cs ih =>
    rw [enterAll, ih, ranges_enter]
    by_cases h : c.IsRange <;> simp [ranged, h]

theorem size_enterAll (t : Table) (cs : List Insertion) :
    (t.enterAll cs).size = t.size + (t.replies cs).count true := by
  induction cs generalizing t with
  | nil => rfl
  | cons c cs ih =>
    rw [enterAll, ih, size_enter, replies, List.count_cons]
    cases t.admits c.first c.second <;> simp
    omega

theorem get?_exact_ofInsertions (cs : List Insertion) (address : UInt16) :
    (ofInsertions cs).exact.get? address = (cs.find? (·.On address)).map (·.text) := by
  simp [ofInsertions, get?_exact_enterAll, empty]

theorem ranges_ofInsertions (cs : List Insertion) :
    (ofInsertions cs).ranges = (ranged cs).map (·.range) := by
  simp [ofInsertions, ranges_enterAll, empty]

/-- An address is answered by the first comment on it, and without one by the first range around it. -/
theorem get?_ofInsertions (cs : List Insertion) (address : UInt16) :
    (ofInsertions cs).get? address =
      ((cs.find? (·.On address)).or (cs.find? fun c => c.IsRange ∧ c.Spans address)).map (·.text) := by
  unfold get?
  rw [get?_exact_ofInsertions, ranges_ofInsertions]
  cases cs.find? (·.On address) with
  | some c => rfl
  | none =>
    simp [ranged, List.find?_map, Function.comp_def]

/-- A comment is refused if it is on a single address that has a comment of its own. -/
theorem admits_ofInsertions_eq_false_iff (cs : List Insertion) (c : Insertion) :
    (ofInsertions cs).admits c.first c.second = false ↔
      c.first = c.second ∧ ∃ d ∈ cs, d.On c.first := by
  simp [admits, OrderedMap.contains, get?_exact_ofInsertions, Option.isSome_map]

theorem isEmpty_ofInsertions_iff (cs : List Insertion) : (ofInsertions cs).isEmpty = true ↔ cs = [] := by
  constructor
  · intro h
    obtain ⟨hexact, hranges⟩ := Bool.and_eq_true_iff.1 h
    rw [List.isEmpty_iff, ranges_ofInsertions, List.map_eq_nil_iff, ranged, List.filter_eq_nil_iff] at hranges
    refine List.eq_nil_iff_forall_not_mem.2 fun c hc => ?_
    -- the comment has one bound twice, and then its address has a comment
    have heq : c.first = c.second := Decidable.not_not.1 fun hne => hranges c hc (decide_eq_true hne)
    have hnone := (OrderedMap.isEmpty_iff _).1 hexact c.first
    rw [get?_exact_ofInsertions, Option.map_eq_none_iff, List.find?_eq_none] at hnone
    exact hnone c hc (decide_eq_true ⟨rfl, heq.symm⟩)
  · rintro rfl
    rfl

/-- The table that a history leads to. An address is answered by the earliest comment entered on it alone, and
without one by the earliest with two different bounds around it. A further comment is refused exactly if it is
on a single address that some comment was entered on, and the table then stays as it is. The table holds as
many comments as were kept, and it is empty only before the first. -/
theorem recalls_history (cs : List Insertion) :
    (∀ address, (ofInsertions cs).get? address =
      ((cs.find? (·.On address)).or (cs.find? fun c => c.IsRange ∧ c.Spans address)).map (·.text)) ∧
    (∀ c : Insertion, (ofInsertions cs).admits c.first c.second = false ↔
      c.first = c.second ∧ ∃ d ∈ cs, d.On c.first) ∧
    (∀ c : Insertion, (ofInsertions cs).admits c.first c.second = false →
      (ofInsertions cs).enter c = ofInsertions cs) ∧
    (ofInsertions cs).size = (replies .empty cs).count true ∧
    ((ofInsertions cs).isEmpty = true ↔ cs = []) := by
  refine ⟨get?_ofInsertions cs, admits_ofInsertions_eq_false_iff cs, fun c => enter_of_not_admits, ?_,
    isEmpty_ofInsertions_iff cs⟩
  rw [ofInsertions, size_enterAll]
  exact Nat.zero_add _

/-- A range with its bounds the other way round, an address entered twice, and a range over both. -/
def repeated : List Insertion :=
  [⟨0x30, 0x10, "block"⟩, ⟨0x20, 0x20, "kept"⟩, ⟨0x20, 0x20, "dropped"⟩, ⟨0x08, 0x28, "later"⟩]

theorem recalls_history_repeated :
    replies .empty repeated = [true, true, false, true] ∧ (ofInsertions repeated).size = 3 ∧
      (ofInsertions repeated).get? 0x20 = some "kept" ∧ (ofInsertions repeated).get? 0x28 = some "block" ∧
      (ofInsertions repeated).admits 0x20 0x20 = false ∧
      (ofInsertions repeated).enter ⟨0x20, 0x20, "again"⟩ = ofInsertions repeated := by
  obtain ⟨hget, -, hrefused, hsize, -⟩ := recalls_history repeated
  have hrefuses : (ofInsertions repeated).admits 0x20 0x20 = false := by decide
  exact ⟨by decide, hsize.trans (by decide), (hget 0x20).trans (by decide), (hget 0x28).trans (by decide),
    hrefuses, hrefused ⟨0x20, 0x20, "again"⟩ hrefuses⟩

end Table

end RetroListing.Comment
