import ArdOssie.Library.IntervalTree
import Mathlib.Data.List.Perm.Basic
import Mathlib.Order.Bounds.Basic

/-!
# Balance and search order of interval trees

An insertion and a deletion keep the heights of the children of every node at most one apart and the keys of a tree
in order, also when keys are equal.  Of equal keys a deletion removes one.
-/

namespace ArdOssie

namespace IntervalTree

variable {α ι : Type}

/-! ### Heights -/

/-- The number of nodes on a longest path. -/
def depth : IntervalTree α ι → ℕ
  | nil => 0
  | node _ l r _ _ _ => 1 + max l.depth r.depth

/-- The heights of the children of every node are at most one apart. -/
def Balanced : IntervalTree α ι → Prop
  | nil => True
  | node _ l r _ _ _ => Balanced l ∧ Balanced r ∧ l.height ≤ r.height + 1 ∧ r.height ≤ l.height + 1

theorem height_node (e : IntervalEntry α ι) (l r : IntervalTree α ι) (h : ℕ) (m M : α) :
    (node e l r h m M).height = h := rfl

section Balance

variable [LinearOrder α]

theorem Augmented.height_eq {t : IntervalTree α ι} (h : Augmented t) : t.height = t.depth := by
  induction t with
  | nil => rfl
  | node e l r _ _ _ ihl ihr =>
    obtain ⟨hl, hr, hheight, -⟩ := h
    show _ = 1 + max l.depth r.depth
    rw [← ihl hl, ← ihr hr]
    exact hheight

variable {e : IntervalEntry α ι} {l r : IntervalTree α ι} {h : ℕ} {m M : α}

/-- A left child that is two higher is rotated up. -/
private theorem balanced_rotateRight (hl : Augmented l) (hbl : Balanced l) (hbr : Balanced r)
    (hheight : l.height = r.height + 2) :
    let t := rotateRight (node e (if l.left.height < l.right.height then rotateLeft l else l) r h m M)
    Balanced t ∧ l.height ≤ t.height ∧ t.height ≤ l.height + 1 := by
  cases l with
  | nil => simp [height] at hheight
  | node e' l' r' h' _ _ =>
    obtain ⟨hl', hr', hh, -⟩ := hl
    obtain ⟨hbl', hbr', hlow, hhigh⟩ := hbl
    have hroot : h' = r.height + 2 := hheight
    by_cases hless : l'.height < r'.height
    · simp only [left, right, hless, ↓reduceIte]
      cases r' with
      | nil => simp [height] at hless
      | node e'' l'' r'' h'' _ _ =>
        obtain ⟨-, -, hh', -⟩ := hr'
        obtain ⟨hbl'', hbr'', hlow', hhigh'⟩ := hbr'
        rw [height_node] at hlow hhigh hless hh
        simp only [rotateLeft, rotateRight, mk, Balanced, height_node]
        refine ⟨⟨⟨hbl', hbl'', ?_, ?_⟩, ⟨hbr'', hbr, ?_, ?_⟩, ?_, ?_⟩, ?_, ?_⟩ <;> omega
    · simp only [left, right, hless, ↓reduceIte, rotateRight, mk, Balanced, height_node]
      refine ⟨⟨hbl', ⟨hbr', hbr, ?_, ?_⟩, ?_, ?_⟩, ?_, ?_⟩ <;> omega

/-- A right child that is two higher is rotated up. -/
private theorem balanced_rotateLeft (hr : Augmented r) (hbl : Balanced l) (hbr : Balanced r)
    (hheight : r.height = l.height + 2) :
    let t := rotateLeft (node e l (if r.right.height < r.left.height then rotateRight r else r) h m M)
    Balanced t ∧ r.height ≤ t.height ∧ t.height ≤ r.height + 1 := by
  cases r with
  | nil => simp [height] at hheight
  | node e' l' r' h' _ _ =>
    obtain ⟨hl', hr', hh, -⟩ := hr
    obtain ⟨hbl', hbr', hlow, hhigh⟩ := hbr
    have hroot : h' = l.height + 2 := hheight
    by_cases hless : r'.height < l'.height
    · simp only [left, right, hless, ↓reduceIte]
      cases l' with
      | nil => simp [height] at hless
      | node e'' l'' r'' h'' _ _ =>
        obtain ⟨-, -, hh', -⟩ := hl'
        obtain ⟨hbl'', hbr'', hlow', hhigh'⟩ := hbl'
        rw [height_node] at hlow hhigh hless hh
        simp only [rotateLeft, rotateRight, mk, Balanced, height_node]
        refine ⟨⟨⟨hbl, hbl'', ?_, ?_⟩, ⟨hbr'', hbr', ?_, ?_⟩, ?_, ?_⟩, ?_, ?_⟩ <;> omega
    · simp only [left, right, hless, ↓reduceIte, rotateLeft, mk, Balanced, height_node]
      refine ⟨⟨⟨hbl, hbl', ?_, ?_⟩, hbr', ?_, ?_⟩, ?_, ?_⟩ <;> omega

/-- Children that are at most two apart are balanced, and the tree is lower by at most one than without it. -/
theorem balance_mk_spec (hl : Augmented l) (hr : Augmented r) (hbl : Balanced l) (hbr : Balanced r)
    (hlow : l.height ≤ r.height + 2) (hhigh : r.height ≤ l.height + 2) :
    Balanced (balance (mk e l r)) ∧ max l.height r.height ≤ (balance (mk e l r)).height ∧
      (balance (mk e l r)).height ≤ 1 + max l.height r.height ∧
      (l.height ≤ r.height + 1 → r.height ≤ l.height + 1 →
        (balance (mk e l r)).height = 1 + max l.height r.height) := by
  unfold mk
  simp only [balance]
  split
  · obtain ⟨hb, hmin, hmax⟩ := balanced_rotateRight (e := e) (h := 1 + max l.height r.height)
      (m := minimumBottomOf e l r) (M := maximumTopOf e l r) hl hbl hbr (by omega)
    exact ⟨hb, by omega, by omega, fun _ _ => by omega⟩
  · split
    · obtain ⟨hb, hmin, hmax⟩ := balanced_rotateLeft (e := e) (h := 1 + max l.height r.height)
        (m := minimumBottomOf e l r) (M := maximumTopOf e l r) hr hbl hbr (by omega)
      exact ⟨hb, by omega, by omega, fun _ _ => by omega⟩
    · refine ⟨⟨hbl, hbr, by omega, by omega⟩, ?_, ?_, fun _ _ => rfl⟩ <;> simp only [height_node] <;> omega

variable [LinearOrder ι]

/-- An insertion keeps the balance and adds at most one to the height. -/
theorem Balanced.insert_spec {k : IntervalEntry α ι} {t : IntervalTree α ι} (ha : Augmented t) (hb : Balanced t) :
    Balanced (insert k t) ∧ t.height ≤ (insert k t).height ∧ (insert k t).height ≤ t.height + 1 := by
  induction t with
  | nil => simp [insert, mk, Balanced, height]
  | node e l r h _ _ ihl ihr =>
    obtain ⟨hl, hr, rfl, -⟩ := ha
    obtain ⟨hbl, hbr, hlow, hhigh⟩ := hb
    unfold insert
    split
    · obtain ⟨hb, hmin, hmax⟩ := ihl hl hbl
      obtain ⟨hb', hmin', hmax', heq⟩ := balance_mk_spec (e := e) hl.insert hr hb hbr (by omega) (by omega)
      refine ⟨hb', ?_, ?_⟩ <;> rw [height_node] <;> omega
    · obtain ⟨hb, hmin, hmax⟩ := ihr hr hbr
      obtain ⟨hb', hmin', hmax', heq⟩ := balance_mk_spec (e := e) hl hr.insert hbl hb (by omega) (by omega)
      refine ⟨hb', ?_, ?_⟩ <;> rw [height_node] <;> omega

/-- A deletion keeps the balance and takes at most one from the height. -/
theorem Balanced.delete_spec {key : α ×ₗ ι} {t : IntervalTree α ι} (ha : Augmented t) (hb : Balanced t) :
    Balanced (delete key t) ∧ (delete key t).height ≤ t.height ∧ t.height ≤ (delete key t).height + 1 := by
  induction t generalizing key with
  | nil => simp [delete, Balanced, height]
  | node e l r h _ _ ihl ihr =>
    obtain ⟨hl, hr, rfl, -⟩ := ha
    obtain ⟨hbl, hbr, hlow, hhigh⟩ := hb
    have hright (e' : IntervalEntry α ι) (key' : α ×ₗ ι) :
        Balanced (balance (mk e' l (delete key' r))) ∧
          (balance (mk e' l (delete key' r))).height ≤ 1 + max l.height r.height ∧
            1 + max l.height r.height ≤ (balance (mk e' l (delete key' r))).height + 1 := by
      obtain ⟨hb, hmin, hmax⟩ := @ihr key' hr hbr
      obtain ⟨hb', hmin', hmax', heq⟩ := balance_mk_spec (e := e') hl hr.delete hbl hb (by omega) (by omega)
      exact ⟨hb', by omega, by omega⟩
    unfold delete
    split
    · obtain ⟨hb, hmin, hmax⟩ := @ihl key hl hbl
      obtain ⟨hb', hmin', hmax', heq⟩ := balance_mk_spec (e := e) hl.delete hr hb hbr (by omega) (by omega)
      refine ⟨hb', ?_, ?_⟩ <;> rw [height_node] <;> omega
    · split
      · exact hright e key
      · have hnil : (nil : IntervalTree α ι).height = 0 := rfl
        split
        · refine ⟨hbr, ?_, ?_⟩ <;> rw [height_node] <;> omega
        · refine ⟨hbl, ?_, ?_⟩ <;> rw [height_node] <;> omega
        · exact hright _ _

end Balance

/-! ### Search order with equal keys -/

private theorem leftmost_mem (e : IntervalEntry α ι) (t r : IntervalTree α ι) :
    leftmost e t ∈ t.toList ++ e :: r.toList := by
  obtain ⟨L, hL⟩ := toList_eq_leftmost_cons e t r.toList
  rw [hL]
  exact List.mem_cons_self

section Order

variable [LinearOrder α] [LinearOrder ι] {t : IntervalTree α ι}

/-- The entries are in the order of their keys. -/
def SearchSorted (t : IntervalTree α ι) : Prop := t.toList.Pairwise (fun a b => a.key ≤ b.key)

theorem searchSorted_node {e : IntervalEntry α ι} {l r : IntervalTree α ι} {h : ℕ} {m M : α} :
    SearchSorted (node e l r h m M) ↔
      SearchSorted l ∧ SearchSorted r ∧ (∀ a ∈ l.toList, a.key ≤ e.key) ∧ ∀ b ∈ r.toList, e.key ≤ b.key := by
  unfold SearchSorted
  rw [toList_node, List.pairwise_append, List.pairwise_cons]
  constructor
  · rintro ⟨hl, ⟨her, hr⟩, hlr⟩
    exact ⟨hl, hr, fun a ha => hlr a ha e (by simp), her⟩
  · rintro ⟨hl, hr, hle, her⟩
    refine ⟨hl, ⟨her, hr⟩, fun a ha b hb => ?_⟩
    rcases List.mem_cons.1 hb with rfl | hb
    · exact hle a ha
    · exact (hle a ha).trans (her b hb)

theorem searchSorted_balance : SearchSorted (balance t) ↔ SearchSorted t := by
  unfold SearchSorted
  rw [toList_balance]

theorem searchSorted_mk {e : IntervalEntry α ι} {l r : IntervalTree α ι} :
    SearchSorted (mk e l r) ↔
      SearchSorted l ∧ SearchSorted r ∧ (∀ a ∈ l.toList, a.key ≤ e.key) ∧ ∀ b ∈ r.toList, e.key ≤ b.key :=
  searchSorted_node

theorem SearchSorted.insert {k : IntervalEntry α ι} (ht : SearchSorted t) : SearchSorted (insert k t) := by
  induction t with
  | nil => simp [IntervalTree.insert, SearchSorted]
  | node e l r h m M ihl ihr =>
    obtain ⟨hl, hr, hle, her⟩ := searchSorted_node.1 ht
    unfold IntervalTree.insert
    split
    · rename_i hlt
      rw [searchSorted_balance, searchSorted_mk]
      refine ⟨ihl hl, hr, fun a ha => ?_, her⟩
      rcases mem_insert.1 ha with rfl | ha
      · exact hlt.le
      · exact hle a ha
    · rename_i hge
      rw [searchSorted_balance, searchSorted_mk]
      refine ⟨hl, ihr hr, hle, fun b hb => ?_⟩
      rcases mem_insert.1 hb with rfl | hb
      · exact not_lt.1 hge
      · exact her b hb

/-- A deletion adds no entry. -/
theorem mem_of_mem_delete {key : α ×ₗ ι} {a : IntervalEntry α ι} (h : a ∈ (delete key t).toList) : a ∈ t.toList := by
  induction t generalizing key a with
  | nil => exact h
  | node e l r _ _ _ ihl ihr =>
    rw [toList_node, List.mem_append, List.mem_cons]
    unfold delete at h
    split at h
    · rw [toList_balance, toList_mk, List.mem_append, List.mem_cons] at h
      exact h.imp_left ihl
    · split at h
      · rw [toList_balance, toList_mk, List.mem_append, List.mem_cons] at h
        exact h.imp_right (Or.imp_right ihr)
      · split at h
        · exact Or.inr (Or.inr h)
        · exact Or.inl h
        · rw [toList_balance, toList_mk, List.mem_append, List.mem_cons] at h
          rcases h with h | rfl | h
          · exact Or.inl h
          · exact Or.inr (Or.inr (leftmost_mem _ _ _))
          · exact Or.inr (Or.inr (ihr h))

private theorem leftmost_le {e : IntervalEntry α ι} {l r : IntervalTree α ι} {h : ℕ} {m M : α}
    (ht : SearchSorted (node e l r h m M)) : ∀ a ∈ (node e l r h m M).toList, (leftmost e l).key ≤ a.key := by
  obtain ⟨L, hL⟩ := toList_eq_leftmost_cons e l r.toList
  unfold SearchSorted at ht
  rw [toList_node, hL] at ht ⊢
  intro a ha
  rcases List.mem_cons.1 ha with rfl | ha
  · exact le_rfl
  · exact (List.pairwise_cons.1 ht).1 a ha

theorem SearchSorted.delete {key : α ×ₗ ι} (ht : SearchSorted t) : SearchSorted (delete key t) := by
  induction t generalizing key with
  | nil => exact ht
  | node e l r h m M ihl ihr =>
    obtain ⟨hl, hr, hle, her⟩ := searchSorted_node.1 ht
    unfold IntervalTree.delete
    split
    · rw [searchSorted_balance, searchSorted_mk]
      exact ⟨ihl hl, hr, fun a ha => hle a (mem_of_mem_delete ha), her⟩
    · split
      · rw [searchSorted_balance, searchSorted_mk]
        exact ⟨hl, ihr hr, hle, fun b hb => her b (mem_of_mem_delete hb)⟩
      · split
        · exact hr
        · exact hl
        · rw [searchSorted_balance, searchSorted_mk]
          have hmin := leftmost_le hr
          refine ⟨hl, ihr hr, fun a ha => (hle a ha).trans (her _ (leftmost_mem _ _ _)), fun b hb => ?_⟩
          exact hmin b (mem_of_mem_delete hb)

/-- A deletion removes one of the entries with the key, if there is one. -/
theorem keys_delete_perm {key : α ×ₗ ι} (ht : SearchSorted t) :
    ((delete key t).toList.map (·.key)).Perm ((t.toList.map (·.key)).erase key) := by
  induction t generalizing key with
  | nil => exact List.Perm.refl _
  | node e l r h m M ihl ihr =>
    obtain ⟨hl, hr, hle, her⟩ := searchSorted_node.1 ht
    rw [toList_node, List.map_append, List.map_cons]
    unfold delete
    split
    · rename_i hlt
      have hnot : key ∉ e.key :: r.toList.map (·.key) := by
        intro hmem
        rcases List.mem_cons.1 hmem with rfl | hmem
        · exact lt_irrefl _ hlt
        · obtain ⟨b, hb, rfl⟩ := List.mem_map.1 hmem
          exact absurd (her b hb) (not_le.2 hlt)
      rw [toList_balance, toList_mk, List.map_append, List.map_cons]
      by_cases hmem : key ∈ l.toList.map (·.key)
      · rw [List.erase_append_left _ hmem]
        exact (ihl hl).append_right _
      · rw [List.erase_append_right _ hmem, List.erase_of_not_mem hnot]
        have h := @ihl key hl
        rw [List.erase_of_not_mem hmem] at h
        exact h.append_right _
    · split
      · rename_i hgt
        have hnot : key ∉ l.toList.map (·.key) := by
          intro hmem
          obtain ⟨a, ha, rfl⟩ := List.mem_map.1 hmem
          exact absurd (hle a ha) (not_le.2 hgt)
        rw [toList_balance, toList_mk, List.map_append, List.map_cons, List.erase_append_right _ hnot,
          List.erase_cons_tail (by simpa using hgt.ne)]
        exact ((ihr hr).cons _).append_left _
      · rename_i hlt hgt
        have hkey : e.key = key := le_antisymm (not_lt.1 hlt) (not_lt.1 hgt)
        subst hkey
        have hroot : ((l.toList.map (·.key) ++ e.key :: r.toList.map (·.key)).erase e.key).Perm
            (l.toList.map (·.key) ++ r.toList.map (·.key)) := by
          refine (List.perm_middle.erase e.key).trans ?_
          rw [List.erase_cons_head]
        refine List.Perm.trans ?_ hroot.symm
        split
        · rw [toList_nil, List.map_nil, List.nil_append]
        · rw [toList_nil, List.map_nil, List.append_nil]
        · rename_i e' l' r' h' m' M' _
          rw [toList_balance, toList_mk, List.map_append, List.map_cons]
          refine List.Perm.append_left _ ?_
          -- the successor is taken out of the right child and put back as the root
          have hmem : (leftmost e' l').key ∈ (node e' l' r' h' m' M').toList.map (·.key) :=
            List.mem_map_of_mem (leftmost_mem e' l' r')
          exact ((ihr hr).cons _).trans (List.perm_cons_erase hmem).symm

/-- Every node is in search order and balanced, and stores the height, the least bottom and the greatest top of its
subtree. -/
def Correct : IntervalTree α ι → Prop
  | nil => True
  | node e l r h m M =>
    Correct l ∧ Correct r ∧ (∀ a ∈ l.toList, a.key ≤ e.key) ∧ (∀ b ∈ r.toList, e.key ≤ b.key) ∧
      (l.depth ≤ r.depth + 1 ∧ r.depth ≤ l.depth + 1) ∧ h = 1 + max l.depth r.depth ∧
      IsLeast {b | ∃ a ∈ l.toList ++ e :: r.toList, a.bottom = b} m ∧
      IsGreatest {b | ∃ a ∈ l.toList ++ e :: r.toList, a.top = b} M

omit [LinearOrder ι] in
/-- The stored bounds are those of entries. -/
private theorem Augmented.attained {e : IntervalEntry α ι} {l r : IntervalTree α ι} {h : ℕ} {m M : α}
    (ha : Augmented (node e l r h m M)) : (∃ a ∈ l.toList ++ e :: r.toList, a.bottom = m) ∧
      ∃ a ∈ l.toList ++ e :: r.toList, a.top = M := by
  generalize ht : node e l r h m M = t at ha
  induction t generalizing e l r h m M with
  | nil => cases ht
  | node e₀ l₀ r₀ h₀ m₀ M₀ ihl ihr =>
    cases ht
    obtain ⟨hl, hr, -, rfl, rfl⟩ := ha
    have hroot : e₀ ∈ l₀.toList ++ e₀ :: r₀.toList := by simp
    have hleft : ∀ e₁ l₁ r₁ h₁ m₁ M₁, l₀ = node e₁ l₁ r₁ h₁ m₁ M₁ →
        (∃ a ∈ l₀.toList ++ e₀ :: r₀.toList, a.bottom = m₁) ∧ ∃ a ∈ l₀.toList ++ e₀ :: r₀.toList, a.top = M₁ := by
      rintro e₁ l₁ r₁ h₁ m₁ M₁ rfl
      obtain ⟨⟨b, hb, hm⟩, c, hc, hM⟩ := ihl rfl hl
      exact ⟨⟨b, List.mem_append_left _ hb, hm⟩, c, List.mem_append_left _ hc, hM⟩
    have hright : ∀ e₁ l₁ r₁ h₁ m₁ M₁, r₀ = node e₁ l₁ r₁ h₁ m₁ M₁ →
        (∃ a ∈ l₀.toList ++ e₀ :: r₀.toList, a.bottom = m₁) ∧ ∃ a ∈ l₀.toList ++ e₀ :: r₀.toList, a.top = M₁ := by
      rintro e₁ l₁ r₁ h₁ m₁ M₁ rfl
      obtain ⟨⟨b, hb, hm⟩, c, hc, hM⟩ := ihr rfl hr
      exact ⟨⟨b, List.mem_append_right _ (List.mem_cons_of_mem _ hb), hm⟩, c,
        List.mem_append_right _ (List.mem_cons_of_mem _ hc), hM⟩
    have hmin {x y : α} := min_rec' (a := x) (b := y) fun x => ∃ a ∈ l₀.toList ++ e₀ :: r₀.toList, a.bottom = x
    have hmax {x y : α} := max_rec' (a := x) (b := y) fun x => ∃ a ∈ l₀.toList ++ e₀ :: r₀.toList, a.top = x
    cases l₀ with
    | nil =>
      cases r₀ with
      | nil => exact ⟨⟨e₀, hroot, rfl⟩, e₀, hroot, rfl⟩
      | node e₂ l₂ r₂ h₂ m₂ M₂ =>
        obtain ⟨hm, hM⟩ := hright _ _ _ _ _ _ rfl
        exact ⟨hmin ⟨e₀, hroot, rfl⟩ hm, hmax ⟨e₀, hroot, rfl⟩ hM⟩
    | node e₁ l₁ r₁ h₁ m₁ M₁ =>
      obtain ⟨hm, hM⟩ := hleft _ _ _ _ _ _ rfl
      cases r₀ with
      | nil => exact ⟨hmin ⟨e₀, hroot, rfl⟩ hm, hmax ⟨e₀, hroot, rfl⟩ hM⟩
      | node e₂ l₂ r₂ h₂ m₂ M₂ =>
        obtain ⟨hm', hM'⟩ := hright _ _ _ _ _ _ rfl
        exact ⟨hmin (hmin ⟨e₀, hroot, rfl⟩ hm) hm', hmax (hmax ⟨e₀, hroot, rfl⟩ hM) hM'⟩

theorem correct_of_augmented (ha : Augmented t) (hb : Balanced t) (hs : SearchSorted t) : Correct t := by
  induction t with
  | nil => trivial
  | node e l r h m M ihl ihr =>
    obtain ⟨⟨b, hb', rfl⟩, c, hc, rfl⟩ := ha.attained
    have hbounds := ha.bounds
    obtain ⟨hl, hr, rfl, -⟩ := ha
    obtain ⟨hbl, hbr, hlow, hhigh⟩ := hb
    obtain ⟨hsl, hsr, hle, her⟩ := searchSorted_node.1 hs
    rw [hl.height_eq, hr.height_eq] at hlow hhigh
    refine ⟨ihl hl hbl hsl, ihr hr hbr hsr, hle, her, ⟨hlow, hhigh⟩, by rw [hl.height_eq, hr.height_eq], ?_, ?_⟩
    · refine ⟨⟨b, hb', rfl⟩, ?_⟩
      rintro _ ⟨a, ha, rfl⟩
      exact (hbounds a ha).1
    · refine ⟨⟨c, hc, rfl⟩, ?_⟩
      rintro _ ⟨a, ha, rfl⟩
      exact (hbounds a ha).2

end Order

end IntervalTree

end ArdOssie
