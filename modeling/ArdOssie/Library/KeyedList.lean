import ArdOssie.Library.Lists

/-!
# Keyed lists

A keyed list is a list whose elements carry distinct keys: a dictionary in the order of insertion whose keys are read
off its values.  Putting an element replaces the one with its key in place, or appends it.
-/

namespace ArdOssie

/-- A list with distinct keys. -/
structure KeyedList {α κ : Type} (key : α → κ) where
  items : List α
  nodup : (items.map key).Nodup

namespace KeyedList

variable {α κ : Type} {key : α → κ}

@[ext] theorem ext {d d' : KeyedList key} (h : d.items = d'.items) : d = d' := by
  cases d
  cases d'
  congr

instance [DecidableEq α] : DecidableEq (KeyedList key) := fun d d' =>
  decidable_of_iff (d.items = d'.items) ⟨ext, fun h => h ▸ rfl⟩

/-- No element. -/
def empty (key : α → κ) : KeyedList key := ⟨[], List.nodup_nil⟩

@[simp] theorem items_empty : (empty key).items = [] := rfl

/-- Two elements with one key are equal. -/
theorem eq_of_key_eq (d : KeyedList key) {a b : α} (ha : a ∈ d.items) (hb : b ∈ d.items) (h : key a = key b) :
    a = b := List.inj_on_of_nodup_map d.nodup ha hb h

/-- The same elements in another order. -/
def reorder (d : KeyedList key) (l : List α) (h : l.Perm d.items) : KeyedList key :=
  ⟨l, ((h.map key).nodup_iff).2 d.nodup⟩

@[simp] theorem items_reorder {d : KeyedList key} {l : List α} (h : l.Perm d.items) : (d.reorder l h).items = l := rfl

section Lookup

variable [DecidableEq κ]

/-- The element with a key. -/
def get (d : KeyedList key) (k : κ) : Option α := d.items.find? fun a => key a = k

theorem get_eq_some {d : KeyedList key} {k : κ} {a : α} : d.get k = some a ↔ a ∈ d.items ∧ key a = k := by
  constructor
  · intro h
    exact ⟨List.mem_of_find?_eq_some h, of_decide_eq_true (List.find?_some h :)⟩
  · rintro ⟨ha, rfl⟩
    cases h : d.get (key a) with
    | none => exact absurd (decide_eq_true rfl) (List.find?_eq_none.1 h a ha)
    | some b =>
      have hb : key b = key a := of_decide_eq_true (List.find?_some h :)
      rw [d.eq_of_key_eq (List.mem_of_find?_eq_some h) ha hb]

theorem get_key {d : KeyedList key} {a : α} (ha : a ∈ d.items) : d.get (key a) = some a := get_eq_some.2 ⟨ha, rfl⟩

theorem get_eq_none {d : KeyedList key} {k : κ} : d.get k = none ↔ ∀ a ∈ d.items, key a ≠ k := by
  simp [get, List.find?_eq_none]

/-- Replace the element with the same key, or append. -/
def putItems (key : α → κ) (a : α) : List α → List α
  | [] => [a]
  | b :: l => if key b = key a then a :: l else b :: putItems key a l

private theorem map_key_putItems (a : α) (l : List α) :
    (putItems key a l).map key = if key a ∈ l.map key then l.map key else l.map key ++ [key a] := by
  induction l with
  | nil => rfl
  | cons b l ih =>
    unfold putItems
    by_cases hb : key b = key a
    · rw [if_pos hb]
      simp [hb]
    · rw [if_neg hb, List.map_cons, ih]
      by_cases ha : key a ∈ l.map key
      · rw [if_pos ha, if_pos (by rw [List.map_cons]; exact List.mem_cons_of_mem _ ha), List.map_cons]
      · rw [if_neg ha, if_neg (by rw [List.map_cons, List.mem_cons]; exact not_or.2 ⟨Ne.symm hb, ha⟩)]
        rfl

private theorem mem_putItems {a b : α} {l : List α} (hl : (l.map key).Nodup) :
    b ∈ putItems key a l ↔ b = a ∨ b ∈ l ∧ key b ≠ key a := by
  induction l with
  | nil => simp [putItems]
  | cons c l ih =>
    obtain ⟨hc, hl⟩ := List.nodup_cons.1 hl
    unfold putItems
    by_cases hca : key c = key a
    · have hrest : ∀ b ∈ l, key b ≠ key a := by
        intro b hb h
        apply hc
        rw [hca, ← h]
        exact List.mem_map_of_mem hb
      rw [if_pos hca]
      simp only [List.mem_cons]
      constructor
      · rintro (h | h)
        · exact Or.inl h
        · exact Or.inr ⟨Or.inr h, hrest b h⟩
      · rintro (h | ⟨rfl | h, hne⟩)
        · exact Or.inl h
        · exact absurd hca hne
        · exact Or.inr h
    · rw [if_neg hca, List.mem_cons, ih hl, List.mem_cons]
      constructor
      · rintro (rfl | h | h)
        · exact Or.inr ⟨Or.inl rfl, hca⟩
        · exact Or.inl h
        · exact Or.inr ⟨Or.inr h.1, h.2⟩
      · rintro (h | ⟨rfl | h, hne⟩)
        · exact Or.inr (Or.inl h)
        · exact Or.inl rfl
        · exact Or.inr (Or.inr ⟨h, hne⟩)

/-- `dictionary[key(a)] = a` -/
def put (d : KeyedList key) (a : α) : KeyedList key where
  items := putItems key a d.items
  nodup := by
    rw [map_key_putItems]
    split
    · exact d.nodup
    · rename_i ha
      exact d.nodup.append (List.nodup_singleton _) (List.disjoint_singleton.2 ha)

theorem mem_put {d : KeyedList key} {a b : α} : b ∈ (d.put a).items ↔ b = a ∨ b ∈ d.items ∧ key b ≠ key a :=
  mem_putItems d.nodup

@[simp] theorem get_put_self (d : KeyedList key) (a : α) : (d.put a).get (key a) = some a :=
  get_eq_some.2 ⟨mem_put.2 (Or.inl rfl), rfl⟩

theorem get_put_ne {d : KeyedList key} {a : α} {k : κ} (h : k ≠ key a) : (d.put a).get k = d.get k := by
  apply Option.ext
  intro b
  rw [get_eq_some, get_eq_some, mem_put]
  constructor
  · rintro ⟨rfl | hb, rfl⟩
    · exact absurd rfl h
    · exact ⟨hb.1, rfl⟩
  · rintro ⟨hb, rfl⟩
    exact ⟨Or.inr ⟨hb, h⟩, rfl⟩

/-- The element that a key reads after a put. -/
theorem get_put (d : KeyedList key) (a : α) (k : κ) :
    (d.put a).get k = if k = key a then some a else d.get k := by
  by_cases h : k = key a
  · rw [if_pos h, h, get_put_self]
  · rw [if_neg h, get_put_ne h]

theorem get_reorder {d : KeyedList key} {l : List α} (h : l.Perm d.items) (k : κ) : (d.reorder l h).get k = d.get k := by
  apply Option.ext
  intro b
  rw [get_eq_some, get_eq_some, items_reorder, h.mem_iff]

/-- The keyed list of a list; a later element replaces an earlier one with its key. -/
def ofList (key : α → κ) (l : List α) : KeyedList key := l.foldl put (empty key)

private theorem items_foldl_put {d : KeyedList key} {l : List α}
    (h : ((d.items ++ l).map key).Nodup) : (l.foldl put d).items = d.items ++ l := by
  induction l generalizing d with
  | nil => simp
  | cons a l ih =>
    have hput : (d.put a).items = d.items ++ [a] := by
      have ha : ∀ b ∈ d.items, key b ≠ key a := by
        intro b hb hba
        rw [List.map_append, List.map_cons] at h
        exact (List.nodup_append.1 h).2.2 (key b) (List.mem_map_of_mem hb) (key a) (by simp) hba
      show putItems key a d.items = d.items ++ [a]
      clear h ih
      revert ha
      induction d.items with
      | nil => exact fun _ => rfl
      | cons b bs ih =>
        intro ha
        rw [putItems, if_neg (ha b (by simp)), ih fun c hc => ha c (by simp [hc])]
        rfl
    rw [List.foldl_cons, ih (by rw [hput]; simpa using h), hput]
    simp

/-- A list with distinct keys is kept as it is. -/
theorem items_ofList {l : List α} (h : (l.map key).Nodup) : (ofList key l).items = l := by
  unfold ofList
  rw [items_foldl_put (by simpa using h)]
  rfl

/-- A list of puts keeps the keys and adds its own. -/
theorem mem_keys_foldl_put {d : KeyedList key} {l : List α} {k : κ} :
    k ∈ (l.foldl put d).items.map key ↔ k ∈ d.items.map key ∨ k ∈ l.map key := by
  induction l generalizing d with
  | nil => simp
  | cons a l ih =>
    have hput : k ∈ (d.put a).items.map key ↔ k ∈ d.items.map key ∨ k = key a := by
      simp only [List.mem_map, mem_put]
      constructor
      · rintro ⟨b, rfl | ⟨hb, -⟩, rfl⟩
        · exact Or.inr rfl
        · exact Or.inl ⟨b, hb, rfl⟩
      · rintro (⟨b, hb, rfl⟩ | rfl)
        · by_cases hba : key b = key a
          · exact ⟨a, Or.inl rfl, hba.symm⟩
          · exact ⟨b, Or.inr ⟨hb, hba⟩, rfl⟩
        · exact ⟨a, Or.inl rfl, rfl⟩
    rw [List.foldl_cons, ih, hput, List.map_cons, List.mem_cons, or_assoc]

/-- After a list of puts, a key holds the last element that was put under it, or what it held before. -/
theorem mem_foldl_put {d : KeyedList key} {l : List α} {b : α} :
    b ∈ (l.foldl put d).items ↔ (∃ before after, l = before ++ b :: after ∧ ∀ a ∈ after, key a ≠ key b) ∨
      b ∈ d.items ∧ ∀ a ∈ l, key a ≠ key b := by
  induction l generalizing d with
  | nil => simp
  | cons a l ih =>
    rw [List.foldl_cons, ih, mem_put]
    constructor
    · rintro (⟨before, after, rfl, hlast⟩ | ⟨rfl | ⟨hb, hne⟩, hl⟩)
      · exact Or.inl ⟨a :: before, after, rfl, hlast⟩
      · exact Or.inl ⟨[], l, rfl, hl⟩
      · exact Or.inr ⟨hb, List.forall_mem_cons.2 ⟨hne.symm, hl⟩⟩
    · rintro (⟨before, after, hsplit, hlast⟩ | ⟨hb, hl⟩)
      · cases before with
        | nil =>
          obtain ⟨rfl, rfl⟩ := List.cons.inj hsplit
          exact Or.inr ⟨Or.inl rfl, hlast⟩
        | cons _ before =>
          obtain ⟨rfl, rfl⟩ := List.cons.inj hsplit
          exact Or.inl ⟨before, after, rfl, hlast⟩
      · obtain ⟨ha, hl⟩ := List.forall_mem_cons.1 hl
        exact Or.inr ⟨Or.inr ⟨hb, ha.symm⟩, hl⟩

end Lookup

end KeyedList

end ArdOssie
