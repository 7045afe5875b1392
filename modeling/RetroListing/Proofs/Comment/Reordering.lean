/-
The order of comments in a list. Where the comments of each language agree, that is, no two ranges of a table
conflict and no address is given two texts, the order in which they are entered does not matter: the tables of
a rearranged list are those of the same languages, hold as many comments and give the same answers, and they
have no conflicts either.
-/
import RetroListing.Proofs.Comment.Conflicts

namespace RetroListing.Comment

/-! ## Tables by language -/

/-- The comment without its language. -/
def Entry.insertion (e : Entry) : Insertion := ⟨e.low, e.high, e.text⟩

namespace Tables

/-- The comments in one language, in order. -/
def inLanguage (language : Language) (es : List Entry) : List Insertion :=
  (es.filter (·.language = language)).map (·.insertion)

theorem get?_add (ts : Tables) (e : Entry) (language : Language) :
    (add ts e).get? language =
      if e.language = language then some ((table ts language).enter e.insertion) else ts.get? language := by
  rw [add, OrderedMap.get?_insert]
  by_cases h : e.language = language
  · subst h
    simp [Table.enter, Entry.insertion]
  · simp [h, Ne.symm h]

/-- Entering comments changes the tables of their own languages only, each by its own comments. -/
theorem get?_addAll (ts : Tables) (es : List Entry) (language : Language) :
    (addAll ts es).get? language =
      if inLanguage language es = [] then ts.get? language
      else some ((table ts language).enterAll (inLanguage language es)) := by
  induction es generalizing ts with
  | nil => rfl
  | cons e es ih =>
    have hadd := get?_add ts e language
    rw [addAll, ih, table, hadd]
    by_cases h : e.language = language
    · have hcons : inLanguage language (e :: es) = e.insertion :: inLanguage language es := by
        simp [inLanguage, h]
      rw [hcons, if_pos h, if_neg (List.cons_ne_nil _ _)]
      split
      · next hnil => rw [hnil]; rfl
      · rfl
    · have hcons : inLanguage language (e :: es) = inLanguage language es := by
        simp [inLanguage, h]
      rw [hcons, if_neg h]
      rfl

theorem get?_ofEntries (es : List Entry) (language : Language) :
    (ofEntries es).get? language =
      if inLanguage language es = [] then none else some (.ofInsertions (inLanguage language es)) :=
  get?_addAll .empty es language

end Tables

/-! ## One table -/

/-- Of the members that pass a test, any may come first where they agree. -/
theorem map_find?_eq_of_perm {α β : Type} {l l' : List α} {p : α → Bool} {f : α → β} (hperm : l.Perm l')
    (h : ∀ a ∈ l, ∀ b ∈ l, p a = true → p b = true → f a = f b) :
    (l'.find? p).map f = (l.find? p).map f := by
  cases ha : l.find? p with
  | none =>
    have hnone : l'.find? p = none :=
      List.find?_eq_none.2 fun b hb => List.find?_eq_none.1 ha b (hperm.mem_iff.2 hb)
    rw [hnone]
  | some a =>
    have hmem := List.mem_of_find?_eq_some ha
    have hpa := List.find?_some ha
    obtain ⟨b, hb⟩ := Option.isSome_iff_exists.1 (List.find?_isSome.2 ⟨a, hperm.mem_iff.1 hmem, hpa⟩)
    have hmem' := hperm.mem_iff.2 (List.mem_of_find?_eq_some hb)
    rw [hb, Option.map_some, Option.map_some, h b hmem' a hmem (List.find?_some hb) hpa]

namespace Range

theorem conflicts_comm (r s : Range) : r.conflicts s = s.conflicts r := by
  rw [conflicts, conflicts, overlaps, overlaps, Bool.and_comm (decide (r.low ≤ s.high)), bne_comm]

theorem conflicts_self (r : Range) : r.conflicts r = false := by
  simp [conflicts]

/-- Ranges around one address conflict if their texts differ. -/
theorem text_eq_of_not_conflicts {r s : Range} {address : UInt16} (h : r.conflicts s = false)
    (hr : r.contains address = true) (hs : s.contains address = true) : r.text = s.text := by
  simp only [contains, Bool.and_eq_true, decide_eq_true_eq] at hr hs
  have h1 : r.low ≤ s.high := UInt16.le_trans hr.1 hs.2
  have h2 : s.low ≤ r.high := UInt16.le_trans hs.1 hr.2
  simpa [conflicts, overlaps, h1, h2] using h

end Range

namespace Table

/-- Without conflicts, no two ranges conflict in whichever order they stand. -/
theorem conflictsIn_eq_nil_iff (rs : List Range) :
    conflictsIn rs = [] ↔ ∀ r ∈ rs, ∀ s ∈ rs, r.conflicts s = false := by
  induction rs with
  | nil => simp [conflictsIn]
  | cons r rest ih =>
    rw [conflictsIn, List.append_eq_nil_iff, List.map_eq_nil_iff, List.filter_eq_nil_iff, ih]
    simp only [Bool.not_eq_true, List.forall_mem_cons, Range.conflicts_self, true_and]
    constructor
    · rintro ⟨hr, hrest⟩
      exact ⟨hr, fun s hs => ⟨(s.conflicts_comm r).trans (hr s hs), hrest s hs⟩⟩
    · rintro ⟨hr, hrest⟩
      exact ⟨hr, fun s hs => (hrest s hs).2⟩

section

variable {cs cs' : List Insertion}

theorem ranges_perm (hperm : cs.Perm cs') : (ofInsertions cs).ranges.Perm (ofInsertions cs').ranges := by
  rw [ranges_ofInsertions, ranges_ofInsertions]
  exact (hperm.filter _).map _

theorem conflicts_eq_nil_of_perm (hperm : cs.Perm cs') (h : (ofInsertions cs).conflicts = []) :
    (ofInsertions cs').conflicts = [] := by
  rw [conflicts, conflictsIn_eq_nil_iff] at h ⊢
  simpa only [(ranges_perm hperm).mem_iff] using h

/-- Comments on single addresses are kept alike in every order, where those on one address agree. -/
theorem exact_eq_of_perm (hperm : cs.Perm cs')
    (h : ∀ c ∈ cs, ∀ d ∈ cs, ∀ address, c.On address → d.On address → c.text = d.text) :
    (ofInsertions cs').exact = (ofInsertions cs).exact := by
  refine OrderedMap.ext_get? fun address => ?_
  rw [get?_exact_ofInsertions, get?_exact_ofInsertions]
  refine map_find?_eq_of_perm hperm fun c hc d hd hon hon' => ?_
  exact h c hc d hd address (of_decide_eq_true hon) (of_decide_eq_true hon')

theorem get?_eq_of_perm (hperm : cs.Perm cs') (hexact : (ofInsertions cs').exact = (ofInsertions cs).exact)
    (h : (ofInsertions cs).conflicts = []) (address : UInt16) :
    (ofInsertions cs').get? address = (ofInsertions cs).get? address := by
  have hranges : ((ofInsertions cs').ranges.find? (·.contains address)).map (·.text) =
      ((ofInsertions cs).ranges.find? (·.contains address)).map (·.text) := by
    refine map_find?_eq_of_perm (ranges_perm hperm) fun r hr s hs hra hsa => ?_
    exact Range.text_eq_of_not_conflicts ((conflictsIn_eq_nil_iff _).1 h r hr s hs) hra hsa
  rw [get?, get?, hexact, hranges]

end

end Table

/-! ## Lists of comments -/

namespace Tables

/-- The comments of each language agree: no two ranges of its table conflict, and no two comments on one single
address have different texts. -/
structure Agree (es : List Entry) : Prop where
  ranges : ∀ language t, (ofEntries es).get? language = some t → t.conflicts = []
  addresses : ∀ e ∈ es, ∀ f ∈ es, e.language = f.language → e.low = e.high → f.low = f.high →
    e.low = f.low → e.text = f.text

theorem Agree.text_eq {es : List Entry} (h : Agree es) (language : Language) :
    ∀ c ∈ inLanguage language es, ∀ d ∈ inLanguage language es, ∀ address,
      c.On address → d.On address → c.text = d.text := by
  rintro c hc d hd address ⟨hfirst, hsecond⟩ ⟨hfirst', hsecond'⟩
  obtain ⟨e, he, rfl⟩ := List.mem_map.1 hc
  obtain ⟨f, hf, rfl⟩ := List.mem_map.1 hd
  obtain ⟨he, hlanguage⟩ := List.mem_filter.1 he
  obtain ⟨hf, hlanguage'⟩ := List.mem_filter.1 hf
  exact h.addresses e he f hf ((of_decide_eq_true hlanguage).trans (of_decide_eq_true hlanguage').symm)
    (hfirst.trans hsecond.symm) (hfirst'.trans hsecond'.symm) (hfirst.trans hfirst'.symm)

/-- Where the comments of each language agree, a rearranged list gives tables in the same languages, and the
tables have no conflicts either, hold as many comments and give the same answers. -/
theorem ofEntries_of_perm {es es' : List Entry} (h : Agree es) (hperm : es.Perm es') :
    (∀ language, (ofEntries es').contains language = (ofEntries es).contains language) ∧
    ∀ language t t', (ofEntries es).get? language = some t → (ofEntries es').get? language = some t' →
      t'.conflicts = [] ∧ t'.size = t.size ∧ ∀ address, t'.get? address = t.get? address := by
  have hcs : ∀ language, (inLanguage language es).Perm (inLanguage language es') :=
    fun language => (hperm.filter _).map _
  have hnil : ∀ language, inLanguage language es = [] ↔ inLanguage language es' = [] := by
    intro language
    rw [← List.length_eq_zero_iff, (hcs language).length_eq, List.length_eq_zero_iff]
  refine ⟨fun language => ?_, fun language t t' ht ht' => ?_⟩
  · rw [OrderedMap.contains, OrderedMap.contains, get?_ofEntries, get?_ofEntries]
    simp only [hnil language]
    split <;> rfl
  · have hconflicts := h.ranges language t ht
    rw [get?_ofEntries] at ht ht'
    split at ht
    · cases ht
    · split at ht'
      · cases ht'
      · cases ht
        cases ht'
        have hexact := Table.exact_eq_of_perm (hcs language) (h.text_eq language)
        refine ⟨Table.conflicts_eq_nil_of_perm (hcs language) hconflicts, ?_,
          Table.get?_eq_of_perm (hcs language) hexact hconflicts⟩
        rw [Table.size, Table.size, hexact, (Table.ranges_perm (hcs language)).length_eq]

/-- Comments that agree: two ranges of one text that overlap, an address inside them that is entered twice, and
the same address in another language. -/
def agreeing : List Entry :=
  [⟨0xD000, 0xD3FF, .english, "Video"⟩, ⟨0xD020, 0xD020, .english, "Border"⟩,
    ⟨0xD3FF, 0xD3F0, .english, "Video"⟩, ⟨0xD020, 0xD020, .italian, "Bordo"⟩,
    ⟨0xD020, 0xD020, .english, "Border"⟩]

theorem ofEntries_of_perm_agreeing :
    Agree agreeing ∧ agreeing.Perm agreeing.reverse ∧
      (∀ language, (ofEntries agreeing.reverse).contains language = (ofEntries agreeing).contains language) ∧
      ∃ t t', (ofEntries agreeing).get? .english = some t ∧
        (ofEntries agreeing.reverse).get? .english = some t' ∧
        t.size = 3 ∧ t ≠ t' ∧ t'.conflicts = [] ∧ t'.size = t.size ∧
        ∀ address, t'.get? address = t.get? address := by
  have hagree : Agree agreeing := by
    have hconflicts : ∀ language, ((ofEntries agreeing).get? language).all (·.conflicts = []) = true := by
      intro language
      cases language <;> decide +kernel
    refine ⟨fun language t ht => ?_, by decide⟩
    have hall := hconflicts language
    rw [ht] at hall
    exact of_decide_eq_true hall
  have hperm : agreeing.Perm agreeing.reverse := agreeing.reverse_perm.symm
  obtain ⟨hcontains, htables⟩ := ofEntries_of_perm hagree hperm
  refine ⟨hagree, hperm, hcontains, _, _, rfl, rfl, by decide +kernel, by decide +kernel, ?_⟩
  exact htables .english _ _ rfl rfl

end Tables

end RetroListing.Comment
