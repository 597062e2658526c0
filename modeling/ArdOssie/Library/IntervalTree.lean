import Mathlib.Data.Prod.Lex
import Mathlib.Data.List.Basic
import Mathlib.Order.Lattice
import Mathlib.Tactic.Common

/-!
# Augmented interval trees

A height-balanced binary search tree of intervals `(bottom, top)`.  Every node stores its height and the smallest
`bottom` and largest `top` of its subtree, so that an overlap query can skip a subtree.  The abstract value of a
tree is the list of its entries in order (`toList`): rotations keep it, an insertion adds one entry to it, a
deletion removes the entries with the given key from it, and a query filters it.
-/

namespace ArdOssie

/-- An interval with its search key; the first component of the key is the lower end of the interval. -/
structure IntervalEntry (α ι : Type) where
  key : α ×ₗ ι
  top : α
  index : ι
  deriving DecidableEq

namespace IntervalEntry

variable {α ι : Type}

/-- The lower end of the interval. -/
def bottom (e : IntervalEntry α ι) : α := (ofLex e.key).1

/-- The open interval `(bottom, top)` of the query meets the open interval of the entry. -/
def Meets [LT α] (bottom top : α) (e : IntervalEntry α ι) : Prop := e.bottom < top ∧ bottom < e.top

instance [LT α] [DecidableLT α] (bottom top : α) (e : IntervalEntry α ι) : Decidable (e.Meets bottom top) :=
  inferInstanceAs (Decidable (_ ∧ _))

end IntervalEntry

/-- A tree of intervals; every node carries the height, the minimum bottom and the maximum top of its subtree. -/
inductive IntervalTree (α ι : Type) where
  | nil
  | node (entry : IntervalEntry α ι) (left right : IntervalTree α ι) (height : ℕ) (minimumBottom maximumTop : α)

namespace IntervalTree

variable {α ι : Type}

/-- The entries in search order. -/
def toList : IntervalTree α ι → List (IntervalEntry α ι)
  | nil => []
  | node e l r _ _ _ => l.toList ++ e :: r.toList

/-- The stored height, `0` for the empty tree. -/
def height : IntervalTree α ι → ℕ
  | nil => 0
  | node _ _ _ h _ _ => h

/-- The left child. -/
def left : IntervalTree α ι → IntervalTree α ι
  | nil => nil
  | node _ l _ _ _ _ => l

/-- The right child. -/
def right : IntervalTree α ι → IntervalTree α ι
  | nil => nil
  | node _ _ r _ _ _ => r

@[simp] theorem toList_nil : (nil : IntervalTree α ι).toList = [] := rfl

@[simp] theorem toList_node (e : IntervalEntry α ι) (l r : IntervalTree α ι) (h : ℕ) (m M : α) :
    (node e l r h m M).toList = l.toList ++ e :: r.toList := rfl

/-- The entry of the leftmost node of a tree with root entry `e` and left child `t`. -/
def leftmost (e : IntervalEntry α ι) : IntervalTree α ι → IntervalEntry α ι
  | nil => e
  | node e' l _ _ _ _ => leftmost e' l

/-- The leftmost entry is the first entry of the tree. -/
theorem toList_eq_leftmost_cons (e : IntervalEntry α ι) (t : IntervalTree α ι) (R : List (IntervalEntry α ι)) :
    ∃ L, t.toList ++ e :: R = leftmost e t :: L := by
  induction t generalizing e R with
  | nil => exact ⟨R, rfl⟩
  | node e' l r _ _ _ ihl _ =>
    obtain ⟨L, hL⟩ := ihl e' (r.toList ++ e :: R)
    exact ⟨L, by simpa [leftmost] using hL⟩

private theorem ne_nil_of_height {t : IntervalTree α ι} {n : ℕ} (h : n + 1 < t.height) : t ≠ nil := by
  rintro rfl
  simp [height] at h

section Bounds

variable [LinearOrder α]

/-- The smallest bottom of an entry and two subtrees. -/
def minimumBottomOf (e : IntervalEntry α ι) : IntervalTree α ι → IntervalTree α ι → α
  | nil, nil => e.bottom
  | node _ _ _ _ m _, nil => min e.bottom m
  | nil, node _ _ _ _ m _ => min e.bottom m
  | node _ _ _ _ m _, node _ _ _ _ m' _ => min (min e.bottom m) m'

/-- The largest top of an entry and two subtrees. -/
def maximumTopOf (e : IntervalEntry α ι) : IntervalTree α ι → IntervalTree α ι → α
  | nil, nil => e.top
  | node _ _ _ _ _ M, nil => max e.top M
  | nil, node _ _ _ _ _ M => max e.top M
  | node _ _ _ _ _ M, node _ _ _ _ _ M' => max (max e.top M) M'

/-- A node whose stored data are computed from its children. -/
def mk (e : IntervalEntry α ι) (l r : IntervalTree α ι) : IntervalTree α ι :=
  node e l r (1 + max l.height r.height) (minimumBottomOf e l r) (maximumTopOf e l r)

/-- Recompute the data stored in the root. -/
def update : IntervalTree α ι → IntervalTree α ι
  | nil => nil
  | node e l r _ _ _ => mk e l r

/-- Left rotation.  It is only applied to a node with a right child. -/
def rotateLeft : IntervalTree α ι → IntervalTree α ι
  | node e l (node e' l' r' _ _ _) _ _ _ => mk e' (mk e l l') r'
  | t => t

/-- Right rotation.  It is only applied to a node with a left child. -/
def rotateRight : IntervalTree α ι → IntervalTree α ι
  | node e (node e' l' r' _ _ _) r _ _ _ => mk e' l' (mk e r' r)
  | t => t

/-- Restore the height balance of the root, at most two apart before. -/
def balance : IntervalTree α ι → IntervalTree α ι
  | nil => nil
  | node e l r h m M =>
    if r.height + 1 < l.height then
      rotateRight (node e (if l.left.height < l.right.height then rotateLeft l else l) r h m M)
    else if l.height + 1 < r.height then
      rotateLeft (node e l (if r.right.height < r.left.height then rotateRight r else r) h m M)
    else node e l r h m M

/-- Whether some interval of the subtree may meet the query interval. -/
def subtreeMayOverlap (bottom top : α) : IntervalTree α ι → Bool
  | nil => false
  | node _ _ _ _ m M => decide (m < top ∧ bottom < M)

/-- Whether a result list has reached the limit. -/
def limitReached (limit : Option ℕ) (found : List ι) : Bool :=
  match limit with
  | none => false
  | some n => decide (n ≤ found.length)

/-- Append the indexes of the entries that meet the query interval, in search order, up to the limit. -/
def query (bottom top : α) (limit : Option ℕ) : IntervalTree α ι → List ι → List ι
  | nil, found => found
  | node e l r h m M, found =>
    if limitReached limit found || !subtreeMayOverlap bottom top (node e l r h m M) then found
    else
      let found := query bottom top limit l found
      let found :=
        if !limitReached limit found && decide (e.Meets bottom top) then found ++ [e.index] else found
      query bottom top limit r found

/-! ### Entries -/

@[simp] theorem toList_mk (e : IntervalEntry α ι) (l r : IntervalTree α ι) :
    (mk e l r).toList = l.toList ++ e :: r.toList := rfl

@[simp] theorem toList_rotateLeft (t : IntervalTree α ι) : (rotateLeft t).toList = t.toList := by
  unfold rotateLeft
  split <;> simp

@[simp] theorem toList_rotateRight (t : IntervalTree α ι) : (rotateRight t).toList = t.toList := by
  unfold rotateRight
  split <;> simp

@[simp] theorem toList_balance (t : IntervalTree α ι) : (balance t).toList = t.toList := by
  cases t with
  | nil => rfl
  | node e l r h m M =>
    simp only [balance]
    split
    · rw [toList_rotateRight]
      split <;> simp
    · split
      · rw [toList_rotateLeft]
        split <;> simp
      · rfl

/-! ### The stored bounds -/

/-- Every stored height and bound is the one computed from the children. -/
def Augmented : IntervalTree α ι → Prop
  | nil => True
  | node e l r h m M =>
    Augmented l ∧ Augmented r ∧ h = 1 + max l.height r.height ∧ m = minimumBottomOf e l r ∧ M = maximumTopOf e l r

@[simp] theorem augmented_mk {e : IntervalEntry α ι} {l r : IntervalTree α ι} :
    Augmented (mk e l r) ↔ Augmented l ∧ Augmented r := by
  simp [mk, Augmented]

theorem Augmented.rotateLeft {t : IntervalTree α ι} (h : Augmented t) : Augmented (rotateLeft t) := by
  unfold IntervalTree.rotateLeft
  split
  · obtain ⟨hl, ⟨hl', hr', -⟩, -⟩ := h
    exact augmented_mk.2 ⟨augmented_mk.2 ⟨hl, hl'⟩, hr'⟩
  · exact h

theorem Augmented.rotateRight {t : IntervalTree α ι} (h : Augmented t) : Augmented (rotateRight t) := by
  unfold IntervalTree.rotateRight
  split
  · obtain ⟨⟨hl', hr', -⟩, hr, -⟩ := h
    exact augmented_mk.2 ⟨hl', augmented_mk.2 ⟨hr', hr⟩⟩
  · exact h

private theorem augmented_rotateRight_node {e : IntervalEntry α ι} {l r : IntervalTree α ι} {h : ℕ} {m M : α}
    (hl : Augmented l) (hr : Augmented r) (hne : l ≠ nil) : Augmented (rotateRight (node e l r h m M)) := by
  cases l with
  | nil => exact absurd rfl hne
  | node e' l' r' _ _ _ =>
    obtain ⟨hl', hr', -⟩ := hl
    exact augmented_mk.2 ⟨hl', augmented_mk.2 ⟨hr', hr⟩⟩

private theorem augmented_rotateLeft_node {e : IntervalEntry α ι} {l r : IntervalTree α ι} {h : ℕ} {m M : α}
    (hl : Augmented l) (hr : Augmented r) (hne : r ≠ nil) : Augmented (rotateLeft (node e l r h m M)) := by
  cases r with
  | nil => exact absurd rfl hne
  | node e' l' r' _ _ _ =>
    obtain ⟨hl', hr', -⟩ := hr
    exact augmented_mk.2 ⟨augmented_mk.2 ⟨hl, hl'⟩, hr'⟩

private theorem rotateLeft_ne_nil {t : IntervalTree α ι} (h : t ≠ nil) : rotateLeft t ≠ nil := by
  unfold rotateLeft
  split
  · simp [mk]
  · exact h

private theorem rotateRight_ne_nil {t : IntervalTree α ι} (h : t ≠ nil) : rotateRight t ≠ nil := by
  unfold rotateRight
  split
  · simp [mk]
  · exact h

theorem Augmented.balance {t : IntervalTree α ι} (h : Augmented t) : Augmented (balance t) := by
  cases t with
  | nil => exact h
  | node e l r _ _ _ =>
    obtain ⟨hl, hr, -⟩ := id h
    simp only [IntervalTree.balance]
    split
    · rename_i hlt
      have hne := ne_nil_of_height hlt
      split
      · exact augmented_rotateRight_node hl.rotateLeft hr (rotateLeft_ne_nil hne)
      · exact augmented_rotateRight_node hl hr hne
    · split
      · rename_i hlt
        have hne := ne_nil_of_height hlt
        split
        · exact augmented_rotateLeft_node hl hr.rotateRight (rotateRight_ne_nil hne)
        · exact augmented_rotateLeft_node hl hr hne
      · exact h

/-- The stored bounds of a node enclose every interval of its subtree. -/
theorem Augmented.bounds {e : IntervalEntry α ι} {l r : IntervalTree α ι} {h : ℕ} {m M : α}
    (ha : Augmented (node e l r h m M)) : ∀ a ∈ (node e l r h m M).toList, m ≤ a.bottom ∧ a.top ≤ M := by
  generalize ht : node e l r h m M = t at ha
  induction t generalizing e l r h m M with
  | nil => cases ht
  | node e₀ l₀ r₀ h₀ m₀ M₀ ihl ihr =>
    cases ht
    obtain ⟨hl, hr, -, rfl, rfl⟩ := ha
    intro a hmem
    rw [toList_node, List.mem_append, List.mem_cons] at hmem
    rcases hmem with hmem | rfl | hmem
    · cases l₀ with
      | nil => cases hmem
      | node e₁ l₁ r₁ h₁ m₁ M₁ =>
        obtain ⟨h1, h2⟩ := ihl rfl hl a hmem
        cases r₀ <;> simp [minimumBottomOf, maximumTopOf, h1, h2]
    · cases l₀ <;> cases r₀ <;> simp [minimumBottomOf, maximumTopOf]
    · cases r₀ with
      | nil => cases hmem
      | node e₁ l₁ r₁ h₁ m₁ M₁ =>
        obtain ⟨h1, h2⟩ := ihr rfl hr a hmem
        cases l₀ <;> simp [minimumBottomOf, maximumTopOf, h1, h2]

/-! ### Queries -/

/-- Append a list up to a limit. -/
def appendUpTo (limit : Option ℕ) (found xs : List ι) : List ι :=
  match limit with
  | none => found ++ xs
  | some n => found ++ xs.take (n - found.length)

private theorem appendUpTo_append (limit : Option ℕ) (found xs ys : List ι) :
    appendUpTo limit (appendUpTo limit found xs) ys = appendUpTo limit found (xs ++ ys) := by
  cases limit with
  | none => simp [appendUpTo]
  | some n =>
    simp only [appendUpTo, List.length_append, List.length_take, List.append_assoc, List.take_append]
    congr 3
    omega

private theorem appendUpTo_nil (limit : Option ℕ) (found : List ι) : appendUpTo limit found [] = found := by
  cases limit <;> simp [appendUpTo]

private theorem appendUpTo_of_reached {limit : Option ℕ} {found : List ι} (h : limitReached limit found = true)
    (xs : List ι) : appendUpTo limit found xs = found := by
  cases limit with
  | none => cases h
  | some n =>
    have hn : n - found.length = 0 := by simp [limitReached] at h; omega
    simp [appendUpTo, hn]

private theorem appendUpTo_singleton (limit : Option ℕ) (found : List ι) (x : ι) :
    (if limitReached limit found = true then found else found ++ [x]) = appendUpTo limit found [x] := by
  split
  · rename_i h; exact (appendUpTo_of_reached h _).symm
  · rename_i h
    cases limit with
    | none => rfl
    | some n =>
      have hn : 0 < n - found.length := by simp [limitReached] at h; omega
      obtain ⟨k, hk⟩ := Nat.exists_eq_add_of_lt hn
      simp [appendUpTo, hk]

private theorem appendUpTo_cons (limit : Option ℕ) (found : List ι) (x : ι) (ys : List ι) :
    appendUpTo limit found (x :: ys) =
      appendUpTo limit (if limitReached limit found = true then found else found ++ [x]) ys := by
  rw [appendUpTo_singleton, appendUpTo_append, List.singleton_append]

/-- A query reports, in search order and up to the limit, exactly the entries that meet the query interval. -/
theorem query_eq {bottom top : α} {limit : Option ℕ} {t : IntervalTree α ι} (ht : Augmented t) (found : List ι) :
    query bottom top limit t found =
      appendUpTo limit found ((t.toList.filter fun e => decide (e.Meets bottom top)).map (·.index)) := by
  induction t generalizing found with
  | nil => simp [query, appendUpTo_nil]
  | node e l r h m M ihl ihr =>
    obtain ⟨hl, hr, -⟩ := id ht
    unfold query
    by_cases hreach : limitReached limit found = true
    · simp only [hreach, Bool.true_or, ↓reduceIte]
      rw [appendUpTo_of_reached hreach]
    by_cases hmay : subtreeMayOverlap bottom top (node e l r h m M) = true
    · simp only [hreach, hmay, Bool.not_true, Bool.or_self, Bool.false_eq_true, ↓reduceIte]
      rw [ihl hl, ihr hr, toList_node, List.filter_append, List.map_append, List.filter_cons]
      by_cases hmeet : e.Meets bottom top
      · simp only [hmeet, decide_true, Bool.and_true, Bool.not_eq_true', ↓reduceIte, List.map_cons]
        rw [← appendUpTo_append limit found, appendUpTo_cons limit _ e.index]
        cases limitReached limit (appendUpTo limit found _) <;> simp
      · simp only [hmeet, decide_false, Bool.and_false, Bool.false_eq_true, ↓reduceIte, appendUpTo_append]
    · -- the whole subtree is skipped: by the stored bounds none of its entries meets the interval
      have hnone : (node e l r h m M).toList.filter (fun e => decide (e.Meets bottom top)) = [] := by
        rw [List.filter_eq_nil_iff]
        intro a ha
        obtain ⟨h1, h2⟩ := ht.bounds a ha
        simp only [subtreeMayOverlap, decide_eq_true_eq, not_and_or, not_lt] at hmay
        rw [decide_eq_true_eq, IntervalEntry.Meets, not_and_or, not_lt, not_lt]
        exact hmay.imp (fun hm => hm.trans h1) (fun hM => h2.trans hM)
      rw [hnone]
      simp only [hmay, Bool.not_false, Bool.or_true, ↓reduceIte, List.map_nil, appendUpTo_nil]

end Bounds

section Order

variable [LinearOrder α] [LinearOrder ι]

/-! ### Insertion and deletion -/

/-- Insert an entry; an entry with an equal key goes to the right. -/
def insert (k : IntervalEntry α ι) : IntervalTree α ι → IntervalTree α ι
  | nil => mk k nil nil
  | node e l r _ _ _ =>
    if k.key < e.key then balance (mk e (insert k l) r) else balance (mk e l (insert k r))

/-- Delete the entry with the given key, if there is one. -/
def delete (key : α ×ₗ ι) : IntervalTree α ι → IntervalTree α ι
  | nil => nil
  | node e l r _ _ _ =>
    if key < e.key then balance (mk e (delete key l) r)
    else if e.key < key then balance (mk e l (delete key r))
    else
      match l, r with
      | nil, r => r
      | l, nil => l
      | l, node e' l' r' h' m' M' =>
        -- the successor takes the place of the root and is deleted from the right child
        balance (mk (leftmost e' l') l (delete (leftmost e' l').key (node e' l' r' h' m' M')))

/-- An insertion adds exactly the new entry. -/
theorem insert_perm (k : IntervalEntry α ι) (t : IntervalTree α ι) : (insert k t).toList.Perm (k :: t.toList) := by
  induction t with
  | nil => exact List.Perm.refl _
  | node e l r _ _ _ ihl ihr =>
    unfold insert
    split
    · simpa using ihl.append_right (e :: r.toList)
    · simp only [toList_balance, toList_mk, toList_node]
      calc l.toList ++ e :: (insert k r).toList
          _ |>.Perm (l.toList ++ e :: k :: r.toList) := (ihr.cons e).append_left _
          _ |>.Perm (l.toList ++ k :: e :: r.toList) := (List.Perm.swap k e _).append_left _
          _ |>.Perm (k :: (l.toList ++ e :: r.toList)) := List.perm_middle

theorem mem_insert {k e : IntervalEntry α ι} {t : IntervalTree α ι} :
    e ∈ (insert k t).toList ↔ e = k ∨ e ∈ t.toList := by
  rw [(insert_perm k t).mem_iff, List.mem_cons]

/-- The entries are strictly increasing in the search key. -/
def SearchOrdered (t : IntervalTree α ι) : Prop := t.toList.Pairwise (fun a b => a.key < b.key)

theorem SearchOrdered.node_iff {e : IntervalEntry α ι} {l r : IntervalTree α ι} {h : ℕ} {m M : α} :
    SearchOrdered (node e l r h m M) ↔
      SearchOrdered l ∧ SearchOrdered r ∧ (∀ a ∈ l.toList, a.key < e.key) ∧ (∀ b ∈ r.toList, e.key < b.key) := by
  unfold SearchOrdered
  rw [toList_node, List.pairwise_append, List.pairwise_cons]
  constructor
  · rintro ⟨hl, ⟨her, hr⟩, hlr⟩
    exact ⟨hl, hr, fun a ha => hlr a ha e (by simp), her⟩
  · rintro ⟨hl, hr, hle, her⟩
    refine ⟨hl, ⟨her, hr⟩, fun a ha b hb => ?_⟩
    rcases List.mem_cons.1 hb with rfl | hb
    · exact hle a ha
    · exact (hle a ha).trans (her b hb)

theorem SearchOrdered.congr {t t' : IntervalTree α ι} (h : t.toList = t'.toList) (ht : SearchOrdered t) :
    SearchOrdered t' := by
  unfold SearchOrdered at *
  rwa [← h]

/-- Inserting an entry with a new key keeps the search order. -/
theorem SearchOrdered.insert {k : IntervalEntry α ι} {t : IntervalTree α ι} (ht : SearchOrdered t)
    (hk : ∀ e ∈ t.toList, e.key ≠ k.key) : SearchOrdered (insert k t) := by
  induction t with
  | nil => simp [IntervalTree.insert, SearchOrdered]
  | node e l r h m M ihl ihr =>
    obtain ⟨hl, hr, hle, her⟩ := SearchOrdered.node_iff.1 ht
    unfold IntervalTree.insert
    split
    · rename_i hlt
      apply SearchOrdered.congr (toList_balance _).symm
      refine SearchOrdered.node_iff.2 ⟨ihl hl fun a ha => hk a (by simp [ha]), hr, fun a ha => ?_, her⟩
      rcases mem_insert.1 ha with rfl | ha
      · exact hlt
      · exact hle a ha
    · rename_i hge
      have hlt : e.key < k.key := lt_of_le_of_ne (not_lt.1 hge) (hk e (by simp))
      apply SearchOrdered.congr (toList_balance _).symm
      refine SearchOrdered.node_iff.2 ⟨hl, ihr hr fun a ha => hk a (by simp [ha]), hle, fun b hb => ?_⟩
      rcases mem_insert.1 hb with rfl | hb
      · exact hlt
      · exact her b hb

private theorem filter_key_ne (key : α ×ₗ ι) (L : List (IntervalEntry α ι)) (h : ∀ e ∈ L, e.key ≠ key) :
    L.filter (fun e => decide (e.key ≠ key)) = L :=
  List.filter_eq_self.2 fun e he => by simpa using h e he

/-- A deletion removes exactly the entry with the given key. -/
theorem toList_delete {key : α ×ₗ ι} {t : IntervalTree α ι} (ht : SearchOrdered t) :
    (delete key t).toList = t.toList.filter (fun e => decide (e.key ≠ key)) := by
  induction t generalizing key with
  | nil => rfl
  | node e l r h m M ihl ihr =>
    obtain ⟨hl, hr, hle, her⟩ := SearchOrdered.node_iff.1 ht
    unfold delete
    split
    · rename_i hlt
      have h1 := filter_key_ne key (e :: r.toList) fun b hb => by
        rcases List.mem_cons.1 hb with rfl | hb
        · exact hlt.ne'
        · exact (hlt.trans (her b hb)).ne'
      rw [toList_balance, toList_mk, ihl hl, toList_node, List.filter_append, h1]
    · split
      · rename_i hlt
        have h1 := filter_key_ne key (l.toList) fun a ha => ((hle a ha).trans hlt).ne
        rw [toList_balance, toList_mk, ihr hr, toList_node, List.filter_append, List.filter_cons, h1]
        simp [hlt.ne]
      · rename_i hlt hgt
        have hkey : e.key = key := le_antisymm (not_lt.1 hlt) (not_lt.1 hgt)
        subst hkey
        have h1 := filter_key_ne e.key (l.toList) fun a ha => (hle a ha).ne
        have h2 := filter_key_ne e.key (r.toList) fun b hb => (her b hb).ne'
        rw [toList_node, List.filter_append, List.filter_cons, h1, h2]
        simp only [ne_eq, not_true_eq_false, decide_false, Bool.false_eq_true, ↓reduceIte]
        -- the three shapes of the children
        split
        · simp
        · simp
        · rename_i e' l' r' h' m' M' _
          rw [toList_balance, toList_mk, ihr hr]
          obtain ⟨L, hL⟩ := toList_eq_leftmost_cons e' l' r'.toList
          have hs : SearchOrdered (node e' l' r' h' m' M') := hr
          unfold SearchOrdered at hs
          rw [toList_node, hL] at hs ⊢
          have h3 := filter_key_ne (leftmost e' l').key L fun b hb =>
            ((List.pairwise_cons.1 hs).1 b hb).ne'
          rw [List.filter_cons, h3]
          simp

/-- A deletion keeps the search order. -/
theorem SearchOrdered.delete {key : α ×ₗ ι} {t : IntervalTree α ι} (ht : SearchOrdered t) :
    SearchOrdered (delete key t) := by
  unfold SearchOrdered
  rw [toList_delete ht]
  exact List.Pairwise.filter _ ht

theorem Augmented.insert {k : IntervalEntry α ι} {t : IntervalTree α ι} (h : Augmented t) :
    Augmented (insert k t) := by
  induction t with
  | nil => simp [IntervalTree.insert, Augmented]
  | node e l r _ _ _ ihl ihr =>
    obtain ⟨hl, hr, -⟩ := h
    unfold IntervalTree.insert
    split
    · exact (augmented_mk.2 ⟨ihl hl, hr⟩).balance
    · exact (augmented_mk.2 ⟨hl, ihr hr⟩).balance

theorem Augmented.delete {key : α ×ₗ ι} {t : IntervalTree α ι} (h : Augmented t) : Augmented (delete key t) := by
  induction t generalizing key with
  | nil => exact h
  | node e l r _ _ _ ihl ihr =>
    obtain ⟨hl, hr, -⟩ := h
    unfold IntervalTree.delete
    split
    · exact (augmented_mk.2 ⟨ihl hl, hr⟩).balance
    · split
      · exact (augmented_mk.2 ⟨hl, ihr hr⟩).balance
      · split
        · exact hr
        · exact hl
        · exact (augmented_mk.2 ⟨hl, ihr hr⟩).balance

end Order

end IntervalTree

end ArdOssie
