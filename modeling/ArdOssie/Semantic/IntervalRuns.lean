import ArdOssie.Library.IntervalBalance
import Mathlib.Algebra.Order.Ring.Rat
import Mathlib.Data.List.Induction

/-!
# Runs of the tree of active boxes

The sweep over boxes inserts and deletes in a tree of vertical intervals.  After any operations the tree is correct and
stores what was inserted and not yet deleted.
-/

namespace ArdOssie

/-- One call of `_interval_insert` or `_interval_delete`. -/
inductive IntervalOperation where
  | insert (entry : IntervalEntry ℚ ℕ)
  | delete (key : ℚ ×ₗ ℕ)
  deriving DecidableEq

/-- The tree after an operation. -/
def IntervalOperation.apply (tree : IntervalTree ℚ ℕ) : IntervalOperation → IntervalTree ℚ ℕ
  | insert entry => tree.insert entry
  | delete key => tree.delete key

/-- The tree after operations on the empty tree. -/
def intervalRun (operations : List IntervalOperation) : IntervalTree ℚ ℕ :=
  operations.foldl IntervalOperation.apply .nil

/-- The stored items after an operation. -/
def IntervalOperation.store (items : List (IntervalEntry ℚ ℕ)) : IntervalOperation → List (IntervalEntry ℚ ℕ)
  | insert entry => entry :: items
  | delete key => items.eraseP fun e => e.key = key

/-- The items that are inserted and not yet deleted. -/
def storedItems (operations : List IntervalOperation) : List (IntervalEntry ℚ ℕ) :=
  operations.foldl IntervalOperation.store []

/-- The items of the insertions. -/
def insertedItems (operations : List IntervalOperation) : List (IntervalEntry ℚ ℕ) :=
  operations.filterMap fun operation =>
    match operation with
    | .insert entry => some entry
    | .delete _ => none

section Run

variable {operations : List IntervalOperation} {operation : IntervalOperation}

private theorem intervalRun_concat :
    intervalRun (operations ++ [operation]) = operation.apply (intervalRun operations) := by
  rw [intervalRun, List.foldl_append]
  rfl

private theorem storedItems_concat :
    storedItems (operations ++ [operation]) = operation.store (storedItems operations) := by
  rw [storedItems, List.foldl_append]
  rfl

/-- What an operation keeps. -/
private structure Kept (tree : IntervalTree ℚ ℕ) : Prop where
  augmented : tree.Augmented
  balanced : tree.Balanced
  sorted : tree.SearchSorted

private theorem Kept.apply {tree : IntervalTree ℚ ℕ} (h : Kept tree) (operation : IntervalOperation) :
    Kept (operation.apply tree) := by
  cases operation with
  | insert entry => exact ⟨h.augmented.insert, (IntervalTree.Balanced.insert_spec h.augmented h.balanced).1, h.sorted.insert⟩
  | delete key => exact ⟨h.augmented.delete, (IntervalTree.Balanced.delete_spec h.augmented h.balanced).1, h.sorted.delete⟩

private theorem kept_intervalRun (operations : List IntervalOperation) : Kept (intervalRun operations) := by
  induction operations using List.reverseRecOn with
  | nil => exact ⟨trivial, trivial, List.Pairwise.nil⟩
  | append_singleton operations operation ih =>
    rw [intervalRun_concat]
    exact ih.apply operation

private theorem map_key_eraseP (key : ℚ ×ₗ ℕ) (items : List (IntervalEntry ℚ ℕ)) :
    (items.eraseP fun e => e.key = key).map (·.key) = (items.map (·.key)).erase key := by
  rw [List.erase_eq_eraseP', List.eraseP_map]
  refine congrArg (List.map (·.key)) (congrArg (fun p => List.eraseP p items) (funext fun e => ?_))
  exact (beq_eq_decide e.key key).symm

/-- The keys are those of the stored items. -/
private theorem keys_intervalRun (operations : List IntervalOperation) :
    ((intervalRun operations).toList.map (·.key)).Perm ((storedItems operations).map (·.key)) := by
  induction operations using List.reverseRecOn with
  | nil => exact List.Perm.nil
  | append_singleton operations operation ih =>
    rw [intervalRun_concat, storedItems_concat]
    cases operation with
    | insert entry =>
      refine ((IntervalTree.insert_perm entry _).map _).trans ?_
      exact ih.cons entry.key
    | delete key =>
      refine (IntervalTree.keys_delete_perm (kept_intervalRun operations).sorted).trans ?_
      rw [IntervalOperation.store, map_key_eraseP]
      exact ih.erase key

private theorem mem_insertedItems {e : IntervalEntry ℚ ℕ} : e ∈ insertedItems operations ↔ .insert e ∈ operations := by
  rw [insertedItems, List.mem_filterMap]
  constructor
  · rintro ⟨o, ho, heq⟩
    cases o with
    | insert e' =>
      cases heq
      exact ho
    | delete key => cases heq
  · exact fun h => ⟨_, h, rfl⟩

private theorem inserted_of_mem {e : IntervalEntry ℚ ℕ}
    (h : e ∈ (intervalRun operations).toList ∨ e ∈ storedItems operations) : e ∈ insertedItems operations := by
  rw [mem_insertedItems]
  induction operations using List.reverseRecOn with
  | nil => simp [intervalRun, storedItems] at h
  | append_singleton operations operation ih =>
    rw [List.mem_append, List.mem_singleton]
    rw [intervalRun_concat, storedItems_concat] at h
    cases operation with
    | insert entry =>
      rcases h with h | h
      · rcases IntervalTree.mem_insert.1 h with rfl | h
        · exact Or.inr rfl
        · exact Or.inl (ih (Or.inl h))
      · rcases List.mem_cons.1 h with rfl | h
        · exact Or.inr rfl
        · exact Or.inl (ih (Or.inr h))
    | delete key =>
      refine Or.inl (ih ?_)
      exact h.imp IntervalTree.mem_of_mem_delete List.mem_of_mem_eraseP

/-- After any insertions and deletions the tree is correct in every node and has the keys of the stored items; when an
item is known by its key, its entries are the stored items. -/
theorem intervalRun_correct (operations : List IntervalOperation) :
    (intervalRun operations).Correct ∧
      ((intervalRun operations).toList.map (·.key)).Perm ((storedItems operations).map (·.key)) ∧
      ((∀ e ∈ insertedItems operations, ∀ e' ∈ insertedItems operations, e.key = e'.key → e = e') →
        (intervalRun operations).toList.Perm (storedItems operations)) := by
  have hkept := kept_intervalRun operations
  refine ⟨IntervalTree.correct_of_augmented hkept.augmented hkept.balanced hkept.sorted, keys_intervalRun operations,
    fun hitems => ?_⟩
  -- on the inserted items the key can be inverted
  have hfind {items : List (IntervalEntry ℚ ℕ)} (h : ∀ e ∈ items, e ∈ insertedItems operations) :
      items.map some = (items.map (·.key)).map fun key => (insertedItems operations).find? fun e => e.key = key := by
    rw [List.map_map]
    refine List.map_congr_left fun e he => ?_
    obtain ⟨e', he'⟩ : ∃ e', (insertedItems operations).find? (fun a => a.key = e.key) = some e' := by
      rw [← Option.isSome_iff_exists, List.find?_isSome]
      exact ⟨e, h e he, decide_eq_true rfl⟩
    have hkey := List.find?_some he'
    show some e = (insertedItems operations).find? fun a => a.key = e.key
    rw [he', hitems e (h e he) e' (List.mem_of_find?_eq_some he') (of_decide_eq_true hkey).symm]
  have hkeys := (keys_intervalRun operations).map fun key => (insertedItems operations).find? fun e => e.key = key
  rw [← hfind fun e he => inserted_of_mem (Or.inl he), ← hfind fun e he => inserted_of_mem (Or.inr he)] at hkeys
  exact (List.map_perm_map_iff (Option.some_injective _)).1 hkeys

end Run

/-- Two boxes with one interval, a deletion of an absent item, and a deletion of one of the two. -/
theorem intervalRun_correct_pair :
    (intervalRun [.insert ⟨toLex (0, 0), 1, 0⟩, .delete (toLex (2, 0)), .insert ⟨toLex (0, 1), 1, 1⟩,
      .delete (toLex (0, 0))]).toList.Perm [⟨toLex (0, 1), 1, 1⟩] :=
  (intervalRun_correct _).2.2 (by decide)

end ArdOssie
