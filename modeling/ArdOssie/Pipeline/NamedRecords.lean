import ArdOssie.Registry.Records
import Mathlib.Data.List.Nodup

/-!
# Named records

The metrics and the relationships of a product are matched with the records of the product by name or alias.  A
matched record takes the new name and keeps its identifier; a name that no record answers to gets a new record.
-/

namespace ArdOssie

section Reconcile

variable (platform : Platform) {stem : String}

/-- A folded name is the name or an alias of a record. -/
def NamedRecord.Answers (r : NamedRecord stem) (key : Text) : Prop :=
  key = platform.casefold r.name ∨ key ∈ r.aliases.map platform.casefold

instance NamedRecord.decidableAnswers (r : NamedRecord stem) (key : Text) : Decidable (r.Answers platform key) :=
  inferInstanceAs (Decidable (_ ∨ _))

/-- The record that a name matches: the first one that answers to it. -/
def answeringRecord (existing : List (NamedRecord stem)) (name : Text) : Option (NamedRecord stem) :=
  existing.find? fun r => r.Answers platform (platform.casefold name)

/-- The record that a name writes. -/
def reconciledRecord (existing : List (NamedRecord stem)) (name : Text) (newId : EntityId stem) : NamedRecord stem :=
  match answeringRecord platform existing name with
  | some matched => ⟨matched.id, name, matched.aliases, .active⟩
  | none => ⟨newId, name, [], .active⟩

/-- The identifiers that `new_id` gives are different and not in use. -/
structure FreshIds (existing : List (NamedRecord stem)) (newIds : List (EntityId stem)) : Prop where
  nodup : newIds.Nodup
  unused : ∀ i ∈ newIds, i ∉ existing.map NamedRecord.id

/-- A name under which a record is written last is not the name of another record that no name matches. -/
def NamesReplaced (existing : List (NamedRecord stem)) (names : List Text) : Prop :=
  ∀ before name after, names = before ++ name :: after →
    (∀ later ∈ after, answeringRecord platform existing later ≠ answeringRecord platform existing name) →
      ∀ r ∈ existing, platform.casefold r.name = platform.casefold name →
        ∃ other ∈ names, answeringRecord platform existing other = some r

end Reconcile

section Assignments

variable {platform : Platform} {stem : String} {existing : List (NamedRecord stem)} {name : Text}
  {newId : EntityId stem} {r : NamedRecord stem} {assigned : List (Text × EntityId stem)}

@[simp] theorem reconciledRecord_name : (reconciledRecord platform existing name newId).name = name := by
  unfold reconciledRecord
  split
  · rfl
  · rfl

@[simp] theorem reconciledRecord_status : (reconciledRecord platform existing name newId).status = .active := by
  unfold reconciledRecord
  split
  · rfl
  · rfl

theorem reconciledRecord_id_of_some (h : answeringRecord platform existing name = some r) :
    (reconciledRecord platform existing name newId).id = r.id := by
  unfold reconciledRecord
  rw [h]

theorem reconciledRecord_id_of_none (h : answeringRecord platform existing name = none) :
    (reconciledRecord platform existing name newId).id = newId := by
  unfold reconciledRecord
  rw [h]

theorem answeringRecord_mem (h : answeringRecord platform existing name = some r) : r ∈ existing :=
  List.mem_of_find?_eq_some h

/-- Some record answers to the name of a record. -/
theorem answeringRecord_ne_none (hr : r ∈ existing) (h : platform.casefold r.name = platform.casefold name) :
    answeringRecord platform existing name ≠ none := by
  intro hnone
  have hnot := List.find?_eq_none.1 hnone r hr
  exact hnot (decide_eq_true (Or.inl h.symm))

private theorem eq_of_id_eq (hids : (existing.map NamedRecord.id).Nodup) {r r' : NamedRecord stem} (hr : r ∈ existing)
    (hr' : r' ∈ existing) (h : r.id = r'.id) : r = r' := List.inj_on_of_nodup_map hids hr hr' h

/-- The record of a name has the identifier of an existing record exactly when the name matches that record. -/
theorem reconciledRecord_id_iff (hids : (existing.map NamedRecord.id).Nodup)
    (hunused : newId ∉ existing.map NamedRecord.id) (hr : r ∈ existing) :
    (reconciledRecord platform existing name newId).id = r.id ↔ answeringRecord platform existing name = some r := by
  constructor
  · intro h
    cases hmatch : answeringRecord platform existing name with
    | none =>
      rw [reconciledRecord_id_of_none hmatch] at h
      exact absurd (h ▸ List.mem_map_of_mem hr) hunused
    | some m =>
      rw [reconciledRecord_id_of_some hmatch] at h
      rw [eq_of_id_eq hids (answeringRecord_mem hmatch) hr h]
  · exact reconciledRecord_id_of_some

/-- The written identifiers are different exactly when the names match different records. -/
theorem nodup_writtenIds_iff (hids : (existing.map NamedRecord.id).Nodup)
    (hfresh : FreshIds existing (assigned.map Prod.snd)) :
    ((assigned.map fun a => reconciledRecord platform existing a.1 a.2).map NamedRecord.id).Nodup ↔
      (assigned.filterMap fun a => answeringRecord platform existing a.1).Nodup := by
  have hnew : assigned.Pairwise fun a a' => a.2 ≠ a'.2 := List.pairwise_map.1 hfresh.nodup
  have hunused : ∀ a ∈ assigned, a.2 ∉ existing.map NamedRecord.id := fun a ha =>
    hfresh.unused a.2 (List.mem_map_of_mem ha)
  have hstep : ∀ a ∈ assigned, ∀ a' ∈ assigned, a.2 ≠ a'.2 →
      ((reconciledRecord platform existing a.1 a.2).id ≠ (reconciledRecord platform existing a'.1 a'.2).id ↔
        ∀ b, answeringRecord platform existing a.1 = some b → ∀ b', answeringRecord platform existing a'.1 = some b' →
          b ≠ b') := by
    intro a ha a' ha' hne
    constructor
    · intro h b hb b' hb' hbb
      subst hbb
      exact h ((reconciledRecord_id_of_some hb).trans (reconciledRecord_id_of_some hb').symm)
    · intro h heq
      cases hb : answeringRecord platform existing a.1 with
      | none =>
        rw [reconciledRecord_id_of_none hb] at heq
        cases hb' : answeringRecord platform existing a'.1 with
        | none => exact hne (heq.trans (reconciledRecord_id_of_none hb'))
        | some b' =>
          rw [reconciledRecord_id_of_some hb'] at heq
          exact hunused a ha (heq ▸ List.mem_map_of_mem (answeringRecord_mem hb'))
      | some b =>
        rw [reconciledRecord_id_of_some hb] at heq
        have hb' := (reconciledRecord_id_iff hids (hunused a' ha') (answeringRecord_mem hb)).1 heq.symm
        exact h b hb b hb' rfl
  unfold List.Nodup
  rw [List.map_map, List.pairwise_map, List.pairwise_filterMap]
  constructor
  · intro h
    refine (h.and hnew).imp_of_mem ?_
    intro a a' ha ha' hpair
    exact (hstep a ha a' ha' hpair.2).1 hpair.1
  · intro h
    refine (h.and hnew).imp_of_mem ?_
    intro a a' ha ha' hpair
    exact (hstep a ha a' ha' hpair.2).2 hpair.1

/-- The records after a reconciliation: those written last, and the existing ones that were not written. -/
def Reconciled (platform : Platform) (existing : List (NamedRecord stem)) (assigned : List (Text × EntityId stem))
    (records : List (NamedRecord stem)) : Prop :=
  ∀ i name, (∃ r ∈ records, r.id = i ∧ r.name = name) ↔
    (∃ before a after, assigned = before ++ a :: after ∧ (reconciledRecord platform existing a.1 a.2).id = i ∧
      a.1 = name ∧ ∀ a' ∈ after, (reconciledRecord platform existing a'.1 a'.2).id ≠ i) ∨
    ∃ e ∈ existing, e.id = i ∧ e.name = name ∧
      ∀ a ∈ assigned, (reconciledRecord platform existing a.1 a.2).id ≠ i

/-- The last record that was written under an identifier. -/
theorem exists_last_written_iff {i : EntityId stem} {name : Text} :
    (∃ r : NamedRecord stem, (∃ before after, (assigned.map fun a => reconciledRecord platform existing a.1 a.2) =
        before ++ r :: after ∧ ∀ r' ∈ after, r'.id ≠ r.id) ∧ r.id = i ∧ r.name = name) ↔
      ∃ before a after, assigned = before ++ a :: after ∧ (reconciledRecord platform existing a.1 a.2).id = i ∧
        a.1 = name ∧ ∀ a' ∈ after, (reconciledRecord platform existing a'.1 a'.2).id ≠ i := by
  constructor
  · rintro ⟨r, ⟨before, after, hsplit, hlast⟩, rfl, rfl⟩
    obtain ⟨before', rest, rfl, rfl, hrest⟩ := List.map_eq_append_iff.1 hsplit
    obtain ⟨a, after', rfl, rfl, rfl⟩ := List.map_eq_cons_iff.1 hrest
    exact ⟨before', a, after', rfl, rfl, by rw [reconciledRecord_name], fun a' ha' => hlast _ (List.mem_map_of_mem ha')⟩
  · rintro ⟨before, a, after, rfl, rfl, rfl, hlast⟩
    refine ⟨_, ⟨_, _, by rw [List.map_append, List.map_cons], ?_⟩, rfl, by rw [reconciledRecord_name]⟩
    exact List.forall_mem_map.2 hlast

/-- When the written names differ up to case, all names do exactly when every name that a record takes over is given
up by its record. -/
theorem nodup_names_iff (hunique : NamedIdsUnique platform existing)
    (hfresh : FreshIds existing (assigned.map Prod.snd)) (hnames : (assigned.map fun a => platform.casefold a.1).Nodup)
    {records : List (NamedRecord stem)} (hids : (records.map NamedRecord.id).Nodup)
    (hrecords : Reconciled platform existing assigned records) :
    (records.map fun r => platform.casefold r.name).Nodup ↔ NamesReplaced platform existing (assigned.map Prod.fst) := by
  have hunused : ∀ a ∈ assigned, a.2 ∉ existing.map NamedRecord.id := fun a ha =>
    hfresh.unused a.2 (List.mem_map_of_mem ha)
  constructor
  · intro h before name after hsplit hlast e he hname
    by_contra hnone
    push Not at hnone
    obtain ⟨before', rest, rfl, rfl, hrest⟩ := List.map_eq_append_iff.1 hsplit
    obtain ⟨a, after', rfl, rfl, rfl⟩ := List.map_eq_cons_iff.1 hrest
    obtain ⟨m, hm⟩ := Option.ne_none_iff_exists'.1 (answeringRecord_ne_none he hname)
    -- the record keeps its name beside the record that takes the name
    have hkept := (hrecords e.id e.name).2 (Or.inr ⟨e, he, rfl, rfl, fun a' ha' h' =>
      hnone a'.1 (List.mem_map_of_mem ha') ((reconciledRecord_id_iff hunique.1 (hunused a' ha') he).1 h')⟩)
    have hwritten := (hrecords m.id a.1).2 (Or.inl ⟨before', a, after', rfl, reconciledRecord_id_of_some hm, rfl,
      fun a' ha' h' => by
        have hmem : a' ∈ before' ++ a :: after' := List.mem_append_right _ (List.mem_cons_of_mem _ ha')
        have hm' := (reconciledRecord_id_iff hunique.1 (hunused a' hmem) (answeringRecord_mem hm)).1 h'
        exact hlast a'.1 (List.mem_map_of_mem ha') (hm'.trans hm.symm)⟩)
    obtain ⟨r, hr, hrid, hrname⟩ := hkept
    obtain ⟨r', hr', hrid', hrname'⟩ := hwritten
    have heq : r = r' := List.inj_on_of_nodup_map h hr hr' (by rw [hrname, hrname', hname])
    have hid : m.id = e.id := by rw [← hrid', ← heq, hrid]
    have hme := eq_of_id_eq hunique.1 (answeringRecord_mem hm) he hid
    exact hnone a.1 (by simp) (hme ▸ hm)
  · intro h
    refine (hids.of_map).map_on ?_
    intro r hr r' hr' hname
    refine List.inj_on_of_nodup_map hids hr hr' ?_
    have hmixed : ∀ r ∈ records, ∀ r' ∈ records, platform.casefold r.name = platform.casefold r'.name →
        (∃ before a after, assigned = before ++ a :: after ∧ (reconciledRecord platform existing a.1 a.2).id = r.id ∧
          a.1 = r.name ∧ ∀ a' ∈ after, (reconciledRecord platform existing a'.1 a'.2).id ≠ r.id) →
        ¬ ∃ e ∈ existing, e.id = r'.id ∧ e.name = r'.name ∧
          ∀ a ∈ assigned, (reconciledRecord platform existing a.1 a.2).id ≠ r'.id := by
      rintro r - r' - hname ⟨before, a, after, rfl, haid, haname, hlast⟩ ⟨e, he, heid, hename, hunwritten⟩
      have hkey : platform.casefold e.name = platform.casefold a.1 := by rw [hename, haname, hname]
      have hlater : ∀ later ∈ after.map Prod.fst,
          answeringRecord platform existing later ≠ answeringRecord platform existing a.1 := by
        intro later hlater heq
        obtain ⟨b, hb, rfl⟩ := List.mem_map.1 hlater
        obtain ⟨m, hm⟩ := Option.ne_none_iff_exists'.1 (answeringRecord_ne_none he hkey)
        refine hlast b hb ?_
        rw [reconciledRecord_id_of_some (heq.trans hm), ← haid, reconciledRecord_id_of_some hm]
      obtain ⟨other, hother, hmatch⟩ := h (before.map Prod.fst) a.1 (after.map Prod.fst) (by simp) hlater e he hkey
      obtain ⟨b, hb, rfl⟩ := List.mem_map.1 hother
      exact hunwritten b hb ((reconciledRecord_id_of_some hmatch).trans heid)
    rcases (hrecords r.id r.name).1 ⟨r, hr, rfl, rfl⟩ with hwritten | hkept
    · rcases (hrecords r'.id r'.name).1 ⟨r', hr', rfl, rfl⟩ with hwritten' | hkept'
      · obtain ⟨before, a, after, hsplit, haid, haname, -⟩ := hwritten
        obtain ⟨before', a', after', hsplit', haid', haname', -⟩ := hwritten'
        have ha : a ∈ assigned := by rw [hsplit]; simp
        have ha' : a' ∈ assigned := by rw [hsplit']; simp
        have heq : a = a' := List.inj_on_of_nodup_map hnames ha ha' (by rw [haname, haname', hname])
        rw [← haid, ← haid', heq]
      · exact absurd hkept' (hmixed r hr r' hr' hname hwritten)
    · rcases (hrecords r'.id r'.name).1 ⟨r', hr', rfl, rfl⟩ with hwritten' | hkept'
      · exact absurd hkept (hmixed r' hr' r hr hname.symm hwritten')
      · obtain ⟨e, he, heid, hename, -⟩ := hkept
        obtain ⟨e', he', heid', hename', -⟩ := hkept'
        have heq : e = e' := List.inj_on_of_nodup_map hunique.2 he he' (by rw [hename, hename', hname])
        rw [← heid, ← heid', heq]

end Assignments

end ArdOssie
