/-
Finite maps kept in the order of their keys. The entries are a list sorted by key, so two maps with
the same look-ups are equal and a map is traversed in key order. Main statements: `get?_insert`,
`get?_modify` and `ext_get?`.
-/

namespace RetroListing

/-- A map from `κ` to `α` whose entries stand in the order of their keys. -/
structure OrderedMap (κ : Type) (α : Type) [Ord κ] where
  entries : List (κ × α)
  sorted : entries.Pairwise fun a b => compare a.1 b.1 = .lt
  deriving DecidableEq

namespace OrderedMap

variable {κ α : Type} [Ord κ]

/-! ## Entries -/

/-- The value under `k`, if there is one. -/
def lookupEntry (k : κ) : List (κ × α) → Option α
  | [] => none
  | (k', a) :: rest => if compare k k' = .eq then some a else lookupEntry k rest

/-- Puts `a` under `k` at its place in a sorted list. -/
def insertEntry (k : κ) (a : α) : List (κ × α) → List (κ × α)
  | [] => [(k, a)]
  | (k', a') :: rest =>
    match compare k k' with
    | .lt => (k, a) :: (k', a') :: rest
    | .eq => (k, a) :: rest
    | .gt => (k', a') :: insertEntry k a rest

/-- Applies `f` to the value under `k`. -/
def modifyEntry (k : κ) (f : α → α) (entries : List (κ × α)) : List (κ × α) :=
  entries.map fun e => (e.1, if compare k e.1 = .eq then f e.2 else e.2)

theorem mem_insertEntry {k : κ} {a : α} {e : κ × α} {l : List (κ × α)}
    (h : e ∈ insertEntry k a l) : e = (k, a) ∨ e ∈ l := by
  induction l with
  | nil => simpa [insertEntry] using h
  | cons x rest ih =>
    obtain ⟨k', a'⟩ := x
    unfold insertEntry at h
    split at h
    · simpa using h
    · rcases List.mem_cons.1 h with h | h
      · exact .inl h
      · exact .inr (List.mem_cons_of_mem _ h)
    · rcases List.mem_cons.1 h with h | h
      · exact .inr (h ▸ List.mem_cons_self)
      · rcases ih h with h | h
        · exact .inl h
        · exact .inr (List.mem_cons_of_mem _ h)

theorem pairwise_insertEntry [Std.TransOrd κ] (k : κ) (a : α) {l : List (κ × α)}
    (h : l.Pairwise fun x y => compare x.1 y.1 = .lt) :
    (insertEntry k a l).Pairwise fun x y => compare x.1 y.1 = .lt := by
  induction l with
  | nil => simp [insertEntry]
  | cons x rest ih =>
    obtain ⟨k', a'⟩ := x
    obtain ⟨hx, hr⟩ := List.pairwise_cons.1 h
    unfold insertEntry
    split
    · next hlt =>
      refine List.pairwise_cons.2 ⟨fun y hy => ?_, h⟩
      rcases List.mem_cons.1 hy with rfl | hy
      · exact hlt
      · exact Std.TransCmp.lt_trans hlt (hx y hy)
    · next heq =>
      exact List.pairwise_cons.2 ⟨fun y hy => Std.TransCmp.lt_of_eq_of_lt heq (hx y hy), hr⟩
    · next hgt =>
      refine List.pairwise_cons.2 ⟨fun y hy => ?_, ih hr⟩
      rcases mem_insertEntry hy with rfl | hy
      · exact Std.OrientedCmp.lt_of_gt hgt
      · exact hx y hy

theorem pairwise_modifyEntry (k : κ) (f : α → α) {l : List (κ × α)}
    (h : l.Pairwise fun x y => compare x.1 y.1 = .lt) :
    (modifyEntry k f l).Pairwise fun x y => compare x.1 y.1 = .lt := by
  unfold modifyEntry
  exact List.pairwise_map.2 h

/-! ## Maps -/

/-- The map without entries. -/
def empty : OrderedMap κ α := ⟨[], .nil⟩

instance : EmptyCollection (OrderedMap κ α) := ⟨empty⟩

instance : Inhabited (OrderedMap κ α) := ⟨empty⟩

/-- The value under `k`, if there is one. -/
def get? (m : OrderedMap κ α) (k : κ) : Option α := lookupEntry k m.entries

/-- Whether `k` has a value. -/
def contains (m : OrderedMap κ α) (k : κ) : Bool := (m.get? k).isSome

/-- How many keys have a value. -/
def size (m : OrderedMap κ α) : Nat := m.entries.length

/-- Whether no key has a value. -/
def isEmpty (m : OrderedMap κ α) : Bool := m.entries.isEmpty

/-- The values in the order of their keys. -/
def values (m : OrderedMap κ α) : List α := m.entries.map Prod.snd

/-- The map with `a` under `k`, in place of the value that was there. -/
def insert [Std.TransOrd κ] (m : OrderedMap κ α) (k : κ) (a : α) : OrderedMap κ α :=
  ⟨insertEntry k a m.entries, pairwise_insertEntry k a m.sorted⟩

/-- The map with `f` applied to the value under `k`, if there is one. -/
def modify (m : OrderedMap κ α) (k : κ) (f : α → α) : OrderedMap κ α :=
  ⟨modifyEntry k f m.entries, pairwise_modifyEntry k f m.sorted⟩

/-- The map of a list of entries; a later entry replaces an earlier one with the same key. -/
def ofList [Std.TransOrd κ] (l : List (κ × α)) : OrderedMap κ α :=
  l.foldl (fun m e => m.insert e.1 e.2) empty

/-! ## Look-ups -/

@[simp] theorem get?_empty (k : κ) : (empty : OrderedMap κ α).get? k = none := rfl

theorem lookupEntry_insertEntry [DecidableEq κ] [Std.TransOrd κ] [Std.LawfulEqOrd κ] (k k' : κ)
    (a : α) (l : List (κ × α)) :
    lookupEntry k' (insertEntry k a l) = if k' = k then some a else lookupEntry k' l := by
  induction l with
  | nil => simp [insertEntry, lookupEntry, Std.LawfulEqCmp.compare_eq_iff_eq]
  | cons x rest ih =>
    obtain ⟨j, b⟩ := x
    unfold insertEntry
    split
    · simp [lookupEntry, Std.LawfulEqCmp.compare_eq_iff_eq]
    · next heq =>
      have : k = j := Std.LawfulEqCmp.eq_of_compare heq
      subst this
      by_cases h : k' = k <;> simp [lookupEntry, Std.LawfulEqCmp.compare_eq_iff_eq, h]
    · next hgt =>
      have hne : k ≠ j := by rintro rfl; simp at hgt
      by_cases h : k' = j
      · subst h
        simp [lookupEntry, Ne.symm hne]
      · simp [lookupEntry, Std.LawfulEqCmp.compare_eq_iff_eq, h, ih]

/-- Looking up after an insertion gives the new value under its key and the old ones elsewhere. -/
@[simp] theorem get?_insert [DecidableEq κ] [Std.TransOrd κ] [Std.LawfulEqOrd κ]
    (m : OrderedMap κ α) (k k' : κ) (a : α) :
    (m.insert k a).get? k' = if k' = k then some a else m.get? k' :=
  lookupEntry_insertEntry k k' a m.entries

theorem lookupEntry_modifyEntry [DecidableEq κ] [Std.TransOrd κ] [Std.LawfulEqOrd κ] (k k' : κ)
    (f : α → α) (l : List (κ × α)) :
    lookupEntry k' (modifyEntry k f l) =
      if k' = k then (lookupEntry k' l).map f else lookupEntry k' l := by
  induction l with
  | nil => simp [modifyEntry, lookupEntry]
  | cons x rest ih =>
    obtain ⟨j, b⟩ := x
    simp only [modifyEntry, List.map_cons, lookupEntry, Std.LawfulEqCmp.compare_eq_iff_eq] at ih ⊢
    by_cases hj : k' = j
    · subst hj
      by_cases hk : k' = k
      · simp [hk]
      · simp [hk, Ne.symm hk]
    · simp only [hj, if_false]
      exact ih

/-- Looking up after a change gives the changed value under its key and the old ones elsewhere. -/
@[simp] theorem get?_modify [DecidableEq κ] [Std.TransOrd κ] [Std.LawfulEqOrd κ]
    (m : OrderedMap κ α) (k k' : κ) (f : α → α) :
    (m.modify k f).get? k' = if k' = k then (m.get? k').map f else m.get? k' :=
  lookupEntry_modifyEntry k k' f m.entries

/-! ## Extensionality -/

theorem lookupEntry_eq_none_of_lt {k : κ} {l : List (κ × α)}
    (h : ∀ e ∈ l, compare k e.1 = .lt) : lookupEntry k l = none := by
  induction l with
  | nil => rfl
  | cons x rest ih =>
    have hx := h x List.mem_cons_self
    simp [lookupEntry, hx, ih fun e he => h e (List.mem_cons_of_mem _ he)]

theorem eq_of_lookupEntry [Std.TransOrd κ] [Std.LawfulEqOrd κ] {l l' : List (κ × α)}
    (hl : l.Pairwise fun x y => compare x.1 y.1 = .lt)
    (hl' : l'.Pairwise fun x y => compare x.1 y.1 = .lt)
    (h : ∀ k, lookupEntry k l = lookupEntry k l') : l = l' := by
  induction l generalizing l' with
  | nil =>
    cases l' with
    | nil => rfl
    | cons y _ => simpa [lookupEntry] using h y.1
  | cons x rest ih =>
    cases l' with
    | nil => simpa [lookupEntry] using h x.1
    | cons y rest' =>
      obtain ⟨hx, hr⟩ := List.pairwise_cons.1 hl
      obtain ⟨hy, hr'⟩ := List.pairwise_cons.1 hl'
      have hxy : compare x.1 y.1 = .eq := by
        cases hc : compare x.1 y.1 with
        | eq => rfl
        | lt =>
          have := h x.1
          rw [lookupEntry_eq_none_of_lt (l := y :: rest') fun e he => by
            rcases List.mem_cons.1 he with rfl | he
            · exact hc
            · exact Std.TransCmp.lt_trans hc (hy e he)] at this
          simp [lookupEntry] at this
        | gt =>
          have hc := Std.OrientedCmp.lt_of_gt hc
          have := h y.1
          rw [lookupEntry_eq_none_of_lt (l := x :: rest) fun e he => by
            rcases List.mem_cons.1 he with rfl | he
            · exact hc
            · exact Std.TransCmp.lt_trans hc (hx e he)] at this
          simp [lookupEntry] at this
      have hk : x.1 = y.1 := Std.LawfulEqCmp.eq_of_compare hxy
      have hv : x.2 = y.2 := by simpa [lookupEntry, hxy] using h x.1
      have hrest : rest = rest' := by
        refine ih hr hr' fun k => ?_
        by_cases hkx : compare k x.1 = .eq
        · have : k = x.1 := Std.LawfulEqCmp.eq_of_compare hkx
          subst this
          rw [lookupEntry_eq_none_of_lt hx, lookupEntry_eq_none_of_lt (hk ▸ hy)]
        · simpa [lookupEntry, ← hk, hkx] using h k
      rw [hrest, Prod.ext hk hv]

/-- Maps with the same look-ups are equal. -/
theorem ext_get? [Std.TransOrd κ] [Std.LawfulEqOrd κ] {m m' : OrderedMap κ α}
    (h : ∀ k, m.get? k = m'.get? k) : m = m' := by
  obtain ⟨l, hl⟩ := m
  obtain ⟨l', hl'⟩ := m'
  simp only [mk.injEq]
  exact eq_of_lookupEntry hl hl' h

/-! ## Entries in order -/

theorem lookupEntry_eq_some_iff [Std.TransOrd κ] [Std.LawfulEqOrd κ] {k : κ} {a : α} {l : List (κ × α)}
    (h : l.Pairwise fun x y => compare x.1 y.1 = .lt) : lookupEntry k l = some a ↔ (k, a) ∈ l := by
  induction l with
  | nil => simp [lookupEntry]
  | cons x rest ih =>
    obtain ⟨k', a'⟩ := x
    obtain ⟨hx, hrest⟩ := List.pairwise_cons.1 h
    rw [lookupEntry, List.mem_cons]
    by_cases hk : k = k'
    · subst hk
      have hfresh : (k, a) ∉ rest := by
        intro hmem
        simpa using hx (k, a) hmem
      simp [hfresh, eq_comm]
    · simp [Std.LawfulEqCmp.compare_eq_iff_eq, hk, ih hrest]

/-- The entries of a map are what looking up gives. -/
theorem mem_entries_iff [Std.TransOrd κ] [Std.LawfulEqOrd κ] {m : OrderedMap κ α} {k : κ} {a : α} :
    (k, a) ∈ m.entries ↔ m.get? k = some a :=
  (lookupEntry_eq_some_iff m.sorted).symm

/-- A key after all others goes to the end. -/
theorem insertEntry_eq_append [Std.OrientedOrd κ] {k : κ} {a : α} {l : List (κ × α)}
    (h : ∀ e ∈ l, compare e.1 k = .lt) : insertEntry k a l = l ++ [(k, a)] := by
  induction l with
  | nil => rfl
  | cons x rest ih =>
    obtain ⟨hx, hrest⟩ := List.forall_mem_cons.1 h
    rw [insertEntry, Std.OrientedCmp.gt_of_lt hx, ih hrest]
    rfl

/-- Entries that stand in order after those of a map are added to its end. -/
theorem entries_foldl_insert [Std.TransOrd κ] {l : List (κ × α)} {m : OrderedMap κ α}
    (h : (m.entries ++ l).Pairwise fun x y => compare x.1 y.1 = .lt) :
    (l.foldl (fun m e => m.insert e.1 e.2) m).entries = m.entries ++ l := by
  induction l generalizing m with
  | nil => rw [List.append_nil, List.foldl_nil]
  | cons e rest ih =>
    have hlast : ∀ x ∈ m.entries, compare x.1 e.1 = .lt := fun x hx =>
      (List.pairwise_append.1 h).2.2 x hx e List.mem_cons_self
    have hinsert : (m.insert e.1 e.2).entries = m.entries ++ [e] := insertEntry_eq_append hlast
    rw [List.foldl_cons, ih, hinsert, List.append_assoc, List.singleton_append]
    rw [hinsert, List.append_assoc, List.singleton_append]
    exact h

theorem eq_of_entries {m m' : OrderedMap κ α} (h : m.entries = m'.entries) : m = m' := by
  cases m
  cases m'
  cases h
  rfl

/-- A map is the map of its entries. -/
@[simp] theorem ofList_entries [Std.TransOrd κ] (m : OrderedMap κ α) : ofList m.entries = m :=
  eq_of_entries (entries_foldl_insert m.sorted)

/-! ## Size -/

theorem length_insertEntry [Std.TransOrd κ] (k : κ) (a : α) {l : List (κ × α)}
    (h : l.Pairwise fun x y => compare x.1 y.1 = .lt) :
    (insertEntry k a l).length = if (lookupEntry k l).isSome then l.length else l.length + 1 := by
  induction l with
  | nil => rfl
  | cons x rest ih =>
    obtain ⟨k', a'⟩ := x
    obtain ⟨hx, hrest⟩ := List.pairwise_cons.1 h
    unfold insertEntry lookupEntry
    split
    · next hlt =>
      have hnone : lookupEntry k rest = none :=
        lookupEntry_eq_none_of_lt fun e he => Std.TransCmp.lt_trans hlt (hx e he)
      simp [hlt, hnone]
    · next heq => simp [heq]
    · next hgt =>
      simp only [hgt, List.length_cons, ih hrest]
      cases lookupEntry k rest <;> rfl

/-- An insertion adds an entry where its key had none. -/
theorem size_insert [Std.TransOrd κ] (m : OrderedMap κ α) (k : κ) (a : α) :
    (m.insert k a).size = if m.contains k then m.size else m.size + 1 :=
  length_insertEntry k a m.sorted

/-- A map is empty if no key has a value. -/
theorem isEmpty_iff [Std.TransOrd κ] [Std.LawfulEqOrd κ] (m : OrderedMap κ α) :
    m.isEmpty = true ↔ ∀ k, m.get? k = none := by
  constructor
  · intro h k
    rw [isEmpty, List.isEmpty_iff] at h
    rw [get?, h, lookupEntry]
  · intro h
    have hempty : m = empty := ext_get? h
    rw [hempty]
    rfl

end OrderedMap

end RetroListing
