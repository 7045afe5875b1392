/-
Lines of parents without a depth limit. A chain is the beginning of such a line (`ancestry_eq_take`),
so the check that a profile is not its own ancestor sees only the first profiles of its parent's line.
Main statement: a run of changes keeps every line finite exactly as long as no change registers a
profile that its parent's line reaches only beyond that depth. A loop of more profiles than a chain
holds passes the check.
-/
import RetroListing.Proofs.Profile.Change

namespace RetroListing

/-- A platform comes after the one it inherits from. -/
theorem Platform.rank_parent? {p q : Platform} (h : p.parent? = some q) : q.rank < p.rank := by
  cases p <;> cases h <;> decide

namespace Registry

/-! ## Lines of parents -/

/-- The parent links from `id` lead through the profiles of a list, the last of which has no parent. -/
inductive Lineage (r : Registry) : ProfileId → List Profile → Prop
  | root {id : ProfileId} {p : Profile} : r.get? id = some p → p.parent = none → Lineage r id [p]
  | child {id q : ProfileId} {p : Profile} {ps : List Profile} :
      r.get? id = some p → p.parent = some q → Lineage r q ps → Lineage r id (p :: ps)

/-- From every profile the parent links lead to a profile without a parent. -/
def Acyclic (r : Registry) : Prop := ∀ id p, r.get? id = some p → ∃ ps, r.Lineage id ps

namespace Lineage

variable {r : Registry} {id : ProfileId} {ps : List Profile}

theorem exists_get? (h : r.Lineage id ps) : ∃ p, r.get? id = some p := by
  cases h with
  | root hp _ => exact ⟨_, hp⟩
  | child hp _ _ => exact ⟨_, hp⟩

/-- A name has one line of parents. -/
theorem unique {qs : List Profile} (h : r.Lineage id ps) (h' : r.Lineage id qs) : ps = qs := by
  induction h generalizing qs with
  | root hp hn =>
    cases h' with
    | root hp' _ => rw [hp] at hp'; cases hp'; rfl
    | child hp' hq _ => rw [hp] at hp'; cases hp'; rw [hn] at hq; cases hq
  | child hp hq _ ih =>
    cases h' with
    | root hp' hn => rw [hp] at hp'; cases hp'; rw [hq] at hn; cases hn
    | child hp' hq' hl =>
      rw [hp] at hp'; cases hp'
      rw [hq] at hq'; cases hq'
      rw [ih hl]

/-- The profiles that a walk of `n` profiles visits are the first `n` of the line. -/
theorem ancestry_eq_take (h : r.Lineage id ps) (n : Nat) : r.ancestry n (some id) = ps.take n := by
  induction h generalizing n with
  | root hp hn =>
    cases n with
    | zero => rfl
    | succ n =>
      cases n <;> simp [ancestry, hp, hn]
  | child hp hq _ ih =>
    cases n with
    | zero => rfl
    | succ n => simp [ancestry, hp, hq, ih n]

/-- A line that is not too deep for a chain is the chain. -/
theorem chain_eq (h : r.Lineage id ps) (hle : ps.length ≤ maxDepth) : r.chain id = ps := by
  rw [chain, h.ancestry_eq_take, List.take_of_length_le hle]

theorem length_le_of_not_tooDeep (h : r.Lineage id ps) (hd : r.tooDeep id = false) :
    ps.length ≤ maxDepth := by
  unfold tooDeep at hd
  rw [h.ancestry_eq_take, List.length_take, decide_eq_false_iff_not] at hd
  omega

/-- Each profile of a line has a line of its own, which is not longer. -/
theorem of_mem (hr : Closed r) (h : r.Lineage id ps) {a : Profile} (ha : a ∈ ps) :
    ∃ qs, r.Lineage a.id qs ∧ qs.length ≤ ps.length := by
  induction h with
  | @root id p hp hn =>
    rw [List.mem_singleton] at ha
    subst ha
    rw [hr.named id a hp]
    exact ⟨[a], .root hp hn, Nat.le_refl _⟩
  | @child id q p ps hp hq hl ih =>
    rcases List.mem_cons.1 ha with rfl | ha
    · rw [hr.named id a hp]
      exact ⟨a :: ps, .child hp hq hl, Nat.le_refl _⟩
    · obtain ⟨qs, hqs, hle⟩ := ih ha
      exact ⟨qs, hqs, Nat.le_succ_of_le hle⟩

/-- No name comes twice in a line. -/
theorem nodup (hr : Closed r) (h : r.Lineage id ps) : (ps.map Profile.id).Nodup := by
  induction h with
  | root => simp
  | @child id q p ps hp hq hl ih =>
    rw [List.map_cons, List.nodup_cons]
    refine ⟨fun hmem => ?_, ih⟩
    -- the first profile would have a line as long as the rest of its own line
    obtain ⟨a, ha, hid⟩ := List.mem_map.1 hmem
    obtain ⟨qs, hqs, hle⟩ := hl.of_mem hr ha
    rw [hid, hr.named id p hp] at hqs
    have := hqs.unique (.child hp hq hl)
    rw [this, List.length_cons] at hle
    omega

end Lineage

/-- A walk that meets a name twice never ends. -/
theorem not_acyclic_of_not_nodup {r : Registry} (hr : Closed r) (id : ProfileId) (n : Nat)
    (h : ¬ ((r.ancestry n (some id)).map Profile.id).Nodup) : ¬ r.Acyclic := by
  intro ha
  cases hp : r.get? id with
  | none => cases n <;> simp [ancestry, hp] at h
  | some p =>
    obtain ⟨ps, hps⟩ := ha id p hp
    rw [hps.ancestry_eq_take, List.map_take] at h
    exact h ((hps.nodup hr).sublist (List.take_sublist _ _))

/-! ## Lines after a change -/

theorem Acyclic.of_sameLinks {r s : Registry} (ha : r.Acyclic) (h : SameLinks r s) : s.Acyclic := by
  have move : ∀ {id ps}, r.Lineage id ps → ∃ qs, s.Lineage id qs := by
    intro id ps hl
    induction hl with
    | root hp hn =>
      obtain ⟨p', hp', -, hpar⟩ := h.symm.get? hp
      exact ⟨[p'], .root hp' (hpar.trans hn)⟩
    | child hp hq _ ih =>
      obtain ⟨p', hp', -, hpar⟩ := h.symm.get? hp
      obtain ⟨qs, hqs⟩ := ih
      exact ⟨p' :: qs, .child hp' (hpar.trans hq) hqs⟩
  intro id p hp
  obtain ⟨p', hp', -⟩ := h.get? hp
  obtain ⟨ps, hps⟩ := ha id p' hp'
  exact move hps

/-- A line that does not meet a name stays when a profile of that name is put in. -/
theorem Lineage.put {r : Registry} (hr : Closed r) {id : ProfileId} {ps : List Profile} {p : Profile}
    (h : r.Lineage id ps) (hp : p.id ∉ ps.map Profile.id) : (r.put p).Lineage id ps := by
  induction h with
  | @root id a ha hn =>
    refine .root ?_ hn
    rw [get?_put, if_neg, ha]
    rintro rfl
    simp [hr.named _ a ha] at hp
  | @child id q a ps ha hq _ ih =>
    rw [List.map_cons, List.mem_cons, not_or] at hp
    refine .child ?_ hq (ih hp.2)
    rw [get?_put, if_neg, ha]
    rintro rfl
    exact hp.1 (hr.named _ a ha).symm

/-- With a finite line for the profile that is put in, every line is finite. -/
theorem Acyclic.put {r : Registry} (ha : r.Acyclic) {p : Profile} {qs : List Profile}
    (hp : (r.put p).Lineage p.id qs) : (r.put p).Acyclic := by
  have move : ∀ {id ps}, r.Lineage id ps → ∃ qs, (r.put p).Lineage id qs := by
    intro id ps hl
    induction hl with
    | @root id a hget hn =>
      by_cases hid : id = p.id
      · exact ⟨qs, hid ▸ hp⟩
      · exact ⟨[a], .root (by rw [get?_put, if_neg hid, hget]) hn⟩
    | @child id q a _ hget hq _ ih =>
      by_cases hid : id = p.id
      · exact ⟨qs, hid ▸ hp⟩
      · obtain ⟨ts, hts⟩ := ih
        exact ⟨a :: ts, .child (by rw [get?_put, if_neg hid, hget]) hq hts⟩
  intro id a hget
  rw [get?_put] at hget
  split at hget
  · rename_i hid
    exact ⟨qs, hid ▸ hp⟩
  · obtain ⟨ps, hps⟩ := ha id a hget
    exact move hps

/-- A line that meets a name leads, after a profile of that name is put in, to that profile. -/
theorem Lineage.reaches_put {r : Registry} (hr : Closed r) {id : ProfileId} {ps qs : List Profile}
    {p : Profile} (h : r.Lineage id ps) (hp : p.id ∈ ps.map Profile.id)
    (h' : (r.put p).Lineage id qs) : ∃ ts, (r.put p).Lineage p.id ts ∧ ts.length ≤ qs.length := by
  induction h generalizing qs with
  | @root id a ha hn =>
    have hid : p.id = id := by simpa [hr.named id a ha] using hp
    exact ⟨qs, hid ▸ h', Nat.le_refl _⟩
  | @child id q a ps ha hq hl ih =>
    by_cases hid : id = p.id
    · exact ⟨qs, hid ▸ h', Nat.le_refl _⟩
    · rw [List.map_cons, List.mem_cons, hr.named id a ha] at hp
      have hmem := hp.resolve_left fun e => hid e.symm
      cases h' with
      | root ha' hn =>
        rw [get?_put, if_neg hid, ha] at ha'
        cases ha'
        rw [hq] at hn; cases hn
      | child ha' hq' hl' =>
        rw [get?_put, if_neg hid, ha] at ha'
        cases ha'
        rw [hq] at hq'; cases hq'
        obtain ⟨ts, hts, hle⟩ := ih hmem hl'
        exact ⟨ts, hts, Nat.le_succ_of_le hle⟩

/-- Putting a profile in keeps every line finite exactly when the line of its parent does not meet
its name. -/
theorem acyclic_put_iff {r : Registry} (hr : Closed r) (ha : r.Acyclic) {p : Profile} {q : ProfileId}
    {ps : List Profile} (hq : p.parent = some q) (hl : r.Lineage q ps) :
    (r.put p).Acyclic ↔ p.id ∉ ps.map Profile.id := by
  have hself : (r.put p).get? p.id = some p := by simp
  constructor
  · intro hput hmem
    obtain ⟨ts, hts⟩ := hput p.id p hself
    cases hts with
    | root hp hn =>
      rw [hself] at hp; cases hp
      rw [hq] at hn; cases hn
    | child hp hq' hl' =>
      rw [hself] at hp; cases hp
      rw [hq] at hq'; cases hq'
      -- the line from the parent comes back to the profile, so it is longer than itself
      obtain ⟨us, hus, hle⟩ := hl.reaches_put hr hmem hl'
      have := hus.unique (.child hself hq hl')
      rw [this, List.length_cons] at hle
      omega
  · intro hmem
    exact ha.put (.child hself hq (hl.put hr hmem))

/-! ## Runs -/

/-- A change that registers a profile whose parent's line comes back to it, beyond the profiles that
a chain holds. -/
def Change.ClosesLoop (r : Registry) (c : Change) : Prop :=
  ∃ p q ps, c.profile? r = some p ∧ p.parent = some q ∧ r.Lineage q ps ∧
    p.id ∈ (ps.drop maxDepth).map Profile.id

/-- Some change of a run closes a loop. -/
def RunClosesLoop (r : Registry) : List Change → Prop
  | [] => False
  | c :: cs => c.ClosesLoop r ∨ (r.apply c).RunClosesLoop cs

/-- No loop is closed above a parent whose chain is not cut. -/
theorem not_closesLoop_of_not_tooDeep {r : Registry} {c : Change}
    (h : ∀ p q, c.profile? r = some p → p.parent = some q → r.tooDeep q = false) :
    ¬ c.ClosesLoop r := by
  rintro ⟨p, q, ps, hp, hq, hl, hmem⟩
  have hle := hl.length_le_of_not_tooDeep (h p q hp hq)
  rw [List.drop_of_length_le hle] at hmem
  simp at hmem

/-- The check on a profile sees the first profiles of its parent's line, as many as a chain holds. -/
theorem insertError?_eq_none_iff_of_lineage {r : Registry} {p : Profile} {q : ProfileId}
    {ps : List Profile} (hq : p.parent = some q) (hl : r.Lineage q ps) :
    r.insertError? p = none ↔ p.id ∉ (ps.take maxDepth).map Profile.id := by
  rw [insertError?_eq_none_iff]
  constructor
  · intro h hmem
    obtain ⟨a, ha, hid⟩ := List.mem_map.1 hmem
    refine (h q hq).2 a ?_ hid
    rw [chain, hl.ancestry_eq_take]
    exact ha
  · intro hmem q' hq'
    rw [hq] at hq'; cases hq'
    refine ⟨hl.exists_get?, fun a ha hid => hmem (List.mem_map.2 ⟨a, ?_, hid⟩)⟩
    rw [chain, hl.ancestry_eq_take] at ha
    exact ha

theorem closesLoop_iff {r : Registry} {c : Change} {p : Profile} {q : ProfileId} {ps : List Profile}
    (hc : c.profile? r = some p) (hq : p.parent = some q) (hl : r.Lineage q ps) :
    c.ClosesLoop r ↔ p.id ∈ (ps.drop maxDepth).map Profile.id := by
  constructor
  · rintro ⟨p', q', ps', hp', hq', hl', h⟩
    rw [hc] at hp'; cases hp'
    rw [hq] at hq'; cases hq'
    rwa [hl.unique hl']
  · exact fun h => ⟨p, q, ps, hc, hq, hl, h⟩

/-- Registering a profile under a parent with a finite line keeps every line finite exactly when it
closes no loop: a name among the first profiles of the line is refused, a later one is not. -/
theorem acyclic_register_iff {r : Registry} (hr : Closed r) (ha : r.Acyclic) {c : Change} {p : Profile}
    {q : ProfileId} {ps : List Profile} (hc : c.profile? r = some p) (hq : p.parent = some q)
    (hl : r.Lineage q ps) : (r.apply c).Acyclic ↔ ¬ c.ClosesLoop r := by
  have hsplit : ps.map Profile.id =
      (ps.take maxDepth).map Profile.id ++ (ps.drop maxDepth).map Profile.id := by
    rw [← List.map_append, List.take_append_drop]
  -- a name comes once in the line: among the profiles that are checked, or after them
  have hdisj := (List.nodup_append.1 (hsplit ▸ hl.nodup hr)).2.2
  rw [apply_of_profile? hc, closesLoop_iff hc hq hl]
  by_cases htake : p.id ∈ (ps.take maxDepth).map Profile.id
  · rw [if_neg (fun h => (insertError?_eq_none_iff_of_lineage hq hl).1 h htake)]
    exact iff_of_true ha fun hdrop => hdisj _ htake _ hdrop rfl
  · rw [if_pos ((insertError?_eq_none_iff_of_lineage hq hl).2 htake), acyclic_put_iff hr ha hq hl, hsplit,
      List.mem_append, not_or]
    exact ⟨fun h => h.2, fun h => ⟨htake, h⟩⟩

/-- One change keeps every line finite exactly when it closes no loop. -/
theorem acyclic_apply_iff {r : Registry} (hr : Closed r) (ha : r.Acyclic) (c : Change) :
    (r.apply c).Acyclic ↔ ¬ c.ClosesLoop r := by
  cases hc : c.profile? r with
  | none =>
    refine iff_of_true (ha.of_sameLinks (sameLinks_apply hr hc)) ?_
    rintro ⟨p, _, _, hp, -⟩
    rw [hc] at hp; cases hp
  | some p =>
    cases hq : p.parent with
    | none =>
      have hok : r.insertError? p = none := by
        rw [insertError?_eq_none_iff]
        intro q hq'
        rw [hq] at hq'; cases hq'
      rw [apply_of_profile? hc, if_pos hok]
      refine iff_of_true (ha.put (.root (by simp) hq)) ?_
      rintro ⟨p', q, _, hp', hq', -⟩
      rw [hc] at hp'; cases hp'
      rw [hq] at hq'; cases hq'
    | some q =>
      cases hget : r.get? q with
      | some s =>
        obtain ⟨ps, hl⟩ := ha q s hget
        exact acyclic_register_iff hr ha hc hq hl
      | none =>
        -- a parent that is not registered is refused, and has no line
        have hrej : r.insertError? p ≠ none := by
          intro h
          obtain ⟨⟨s, hs⟩, -⟩ := (insertError?_eq_none_iff r p).1 h q hq
          rw [hget] at hs; cases hs
        rw [apply_of_profile? hc, if_neg hrej]
        refine iff_of_true ha ?_
        rintro ⟨p', q', ps, hp', hq', hl, -⟩
        rw [hc] at hp'; cases hp'
        rw [hq] at hq'; cases hq'
        obtain ⟨s, hs⟩ := hl.exists_get?
        rw [hget] at hs; cases hs

/-- From a registry with finite lines, a run of changes keeps every line finite, in every registry on
the way, exactly when none of its changes closes a loop. -/
theorem acyclic_trace_iff {r : Registry} (hr : Closed r) (ha : r.Acyclic) (cs : List Change) :
    (∀ s ∈ r.trace cs, s.Acyclic) ↔ ¬ r.RunClosesLoop cs := by
  induction cs generalizing r with
  | nil => simp [trace, RunClosesLoop, ha]
  | cons c cs ih =>
    have hstep := acyclic_apply_iff hr ha c
    rw [trace, RunClosesLoop, not_or, List.forall_mem_cons]
    constructor
    · rintro ⟨-, h⟩
      -- the registry after the first change is on the way, so that change closes no loop
      have hc : (r.apply c).Acyclic := h _ (by cases cs <;> simp [trace])
      exact ⟨hstep.1 hc, (ih (hr.apply c) hc).1 h⟩
    · rintro ⟨hc, h⟩
      exact ⟨ha, (ih (hr.apply c) (hstep.2 hc)).2 h⟩

/-- Whether no change of a run names a parent whose chain is cut. -/
def uncut (r : Registry) : List Change → Bool
  | [] => true
  | c :: cs =>
    ((c.profile? r).bind Profile.parent).all (fun q => !r.tooDeep q) && (r.apply c).uncut cs

/-- A run that never names a parent whose chain is cut closes no loop. -/
theorem not_runClosesLoop_of_uncut {r : Registry} {cs : List Change} (h : r.uncut cs = true) :
    ¬ r.RunClosesLoop cs := by
  induction cs generalizing r with
  | nil => exact id
  | cons c cs ih =>
    rw [uncut, Bool.and_eq_true] at h
    rw [RunClosesLoop, not_or]
    refine ⟨not_closesLoop_of_not_tooDeep fun p q hp hq => ?_, ih h.2⟩
    simpa [hp, hq] using h.1

/-! ## Where runs start -/

theorem acyclic_empty : Acyclic empty := by
  intro id p hp
  cases hp

/-- Lines are finite where every parent comes before its children in some order. -/
theorem acyclic_of_rank {r : Registry} (hr : Closed r) (rank : ProfileId → Nat)
    (h : ∀ id p q, r.get? id = some p → p.parent = some q → rank q < rank id) : r.Acyclic := by
  -- the induction is on a bound for the rank
  have line : ∀ n id p, rank id < n → r.get? id = some p → ∃ ps, r.Lineage id ps := by
    intro n
    induction n with
    | zero => intro id p hn; omega
    | succ n ih =>
      intro id p hn hp
      cases hq : p.parent with
      | none => exact ⟨[p], .root hp hq⟩
      | some q =>
        obtain ⟨s, hs⟩ := hr.parents id p q hp hq
        have := h id p q hp hq
        obtain ⟨ps, hps⟩ := ih q s (by omega) hs
        exact ⟨p :: ps, .child hp hq hps⟩
  exact fun id p hp => line (rank id + 1) id p (by omega) hp

/-- The place of a platform's profile in the order of the platforms. -/
def platformRank : ProfileId → Nat
  | .platform p => p.rank
  | .user _ => 0

theorem acyclic_bundled {r : Registry} (h : bundled = .ok r) : r.Acyclic := by
  refine acyclic_of_rank (closed_bundled h) platformRank ?_
  refine bundled_induction (P := fun r => ∀ id p q, r.get? id = some p → p.parent = some q →
    platformRank q < platformRank id) h (by simp) ?_
  intro s p entries ih _ id a q ha hq
  rw [get?_put] at ha
  split at ha
  · rename_i hid
    cases ha
    obtain ⟨q', hq', rfl⟩ := Option.map_eq_some_iff.1 hq
    rw [hid]
    exact Platform.rank_parent? hq'
  · exact ih id a q ha hq

/-- Every registry of a run, from the one without profiles or the bundled one, keeps each profile
under its own name and every parent registered; and the parent links of all of them are acyclic
exactly when no change of the run registers a profile that its parent's line reaches beyond the
depth of a chain. -/
theorem run_acyclic_iff {r : Registry} (start : r = empty ∨ bundled = .ok r) (cs : List Change) :
    (∀ s ∈ r.trace cs, s.Closed) ∧ ((∀ s ∈ r.trace cs, s.Acyclic) ↔ ¬ r.RunClosesLoop cs) := by
  rcases start with rfl | hb
  · exact ⟨fun s hs => reachable_closed (Reachable.empty.trace hs),
      acyclic_trace_iff closed_empty acyclic_empty cs⟩
  · exact ⟨fun s hs => reachable_closed ((Reachable.bundled hb).trace hs),
      acyclic_trace_iff (closed_bundled hb) (acyclic_bundled hb) cs⟩

/-- A profile that has a number for its name, without regions or comments. -/
def numbered (n : Nat) (parent : Option Nat) : Profile where
  id := .user (toString n)
  cpu := .mos6502
  parent := parent.map fun m => .user (toString m)

/-- Three profiles in line; closing them into a loop is refused, as is an unknown parent, and the
profile in the middle takes another parent. -/
theorem run_acyclic_iff_refusals :
    let cs : List Change := [.insert (numbered 0 none), .insert (numbered 1 (some 0)),
      .insert (numbered 2 (some 1)), .insert (numbered 0 (some 2)), .addOverlay "3" (.user "4") [],
      .addOverlay "1" (.user "0") [], .switchRegion (.user "2") "SID" false]
    (∀ s ∈ empty.trace cs, s.Closed) ∧ ∀ s ∈ empty.trace cs, s.Acyclic := by
  intro cs
  obtain ⟨hclosed, hacyclic⟩ := run_acyclic_iff (.inl rfl) cs
  exact ⟨hclosed, hacyclic.2 (not_runClosesLoop_of_uncut (by decide +kernel))⟩

/-- Seventeen profiles in line, then the first once more with the last as its parent. -/
def longLoop : List Change :=
  .insert (numbered 0 none) :: (List.range 16).map (fun n => .insert (numbered (n + 1) (some n))) ++
    [.insert (numbered 0 (some 16))]

theorem reachable_foldl {r : Registry} (h : Reachable r) (cs : List Change) :
    Reachable (cs.foldl apply r) := by
  induction cs generalizing r with
  | nil => exact h
  | cons c cs ih => exact ih (.change c h)

/-- A loop of one profile more than a chain holds is taken. -/
theorem longLoop_not_acyclic :
    Reachable (longLoop.foldl apply empty) ∧ ¬ (longLoop.foldl apply empty).Acyclic := by
  have hreach := reachable_foldl .empty longLoop
  refine ⟨hreach, not_acyclic_of_not_nodup (reachable_closed hreach) (.user "0") 18 ?_⟩
  decide +kernel

end Registry

end RetroListing
