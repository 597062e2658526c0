import Mathlib.Data.List.Infix

/-!
# File trees

The files of a file system as a list of paths with what is there.  Removing and moving act on everything below a path,
so that paths of which none lies below another do not affect each other.
-/

namespace ArdOssie

/-- None of two paths is the other one or lies below it. -/
def Unrelated {α : Type} (p q : List α) : Prop := ¬ p <+: q ∧ ¬ q <+: p

instance Unrelated.decidable {α : Type} [DecidableEq α] (p q : List α) : Decidable (Unrelated p q) :=
  inferInstanceAs (Decidable (¬ p <+: q ∧ ¬ q <+: p))

theorem Unrelated.symm {α : Type} {p q : List α} (h : Unrelated p q) : Unrelated q p := ⟨h.2, h.1⟩

theorem Unrelated.ne {α : Type} {p q : List α} (h : Unrelated p q) : p ≠ q := fun heq => h.1 (heq ▸ List.prefix_rfl)

/-- No path lies below both of two unrelated ones. -/
theorem Unrelated.not_prefix {α : Type} {p q r : List α} (h : Unrelated p q) (hp : p <+: r) : ¬ q <+: r := by
  intro hq
  rcases List.prefix_or_prefix_of_prefix hp hq with hpq | hqp
  · exact h.1 hpq
  · exact h.2 hqp

/-- Paths with what is there. -/
abbrev FileTree (α β : Type) := List (List α × β)

namespace FileTree

variable {α β : Type} [DecidableEq α]

/-- What is at a path. -/
def lookup (p : List α) (tree : FileTree α β) : Option β := (tree.find? fun e => e.1 = p).map Prod.snd

/-- What is at a path and below it, with the paths from there. -/
def subtree (p : List α) (tree : FileTree α β) : FileTree α β :=
  tree.filterMap fun e => if p <+: e.1 then some (e.1.drop p.length, e.2) else none

/-- Something is at a path or below it. -/
def holds (p : List α) (tree : FileTree α β) : Bool := tree.any fun e => p <+: e.1

def removeTree (p : List α) (tree : FileTree α β) : FileTree α β := tree.filter fun e => ¬ p <+: e.1

/-- Everything at and below `source` is moved to `target`, in the place of what is there. -/
def moveTree (source target : List α) (tree : FileTree α β) : FileTree α β :=
  (removeTree target tree).map fun e => if source <+: e.1 then (target ++ e.1.drop source.length, e.2) else e

variable {p q source target : List α} {tree : FileTree α β}

theorem holds_eq_false : holds p tree = false ↔ subtree p tree = [] := by
  unfold holds subtree
  rw [List.any_eq_false, List.filterMap_eq_nil_iff]
  refine forall₂_congr fun e _ => ?_
  by_cases h : p <+: e.1
  · simp [h]
  · simp [h]

/-- What is at a path shows in what is there and below. -/
theorem lookup_subtree : (subtree p tree).lookup [] = tree.lookup p := by
  have hroot : (fun e : List α × β =>
      (if p <+: e.1 then some (e.1.drop p.length, e.2) else none).any fun e => decide (e.1 = [])) =
      fun e => decide (e.1 = p) := by
    funext e
    by_cases hp : p <+: e.1
    · obtain ⟨q, hq⟩ := hp
      simp [← hq]
    · have hne : e.1 ≠ p := fun heq => hp (heq ▸ List.prefix_rfl)
      simp [hp, hne]
  unfold lookup subtree
  rw [List.find?_filterMap, hroot]
  cases hfind : tree.find? fun e => e.1 = p with
  | none => rfl
  | some e =>
    have he : e.1 = p := by simpa using List.find?_some hfind
    simp [he]

theorem subtree_append {tree' : FileTree α β} : subtree p (tree ++ tree') = subtree p tree ++ subtree p tree' :=
  List.filterMap_append

theorem subtree_eq_nil (h : ∀ e ∈ tree, ¬ p <+: e.1) : subtree p tree = [] :=
  List.filterMap_eq_nil_iff.2 fun e he => if_neg (h e he)

/-- Dropping entries that are not at or below a path leaves what is there. -/
theorem subtree_filter {keep : List α × β → Bool} (h : ∀ e, p <+: e.1 → keep e = true) :
    subtree p (tree.filter keep) = subtree p tree := by
  unfold subtree
  rw [List.filterMap_filter]
  refine List.filterMap_congr fun e _ => ?_
  by_cases hp : p <+: e.1
  · rw [if_pos (h e hp)]
  · rw [if_neg hp]
    split
    · rfl
    · rfl

theorem subtree_removeTree_self : subtree p (removeTree p tree) = [] :=
  subtree_eq_nil fun _ he => of_decide_eq_true (List.mem_filter.1 he).2

theorem subtree_removeTree (h : Unrelated p q) : subtree p (removeTree q tree) = subtree p tree :=
  subtree_filter fun _ he => decide_eq_true (h.not_prefix he)

theorem subtree_moveTree_target (h : Unrelated source target) :
    subtree target (moveTree source target tree) = subtree source tree := by
  rw [← subtree_removeTree h]
  unfold moveTree
  unfold subtree
  rw [List.filterMap_map]
  refine List.filterMap_congr fun e he => ?_
  have htarget : ¬ target <+: e.1 := of_decide_eq_true (List.mem_filter.1 he).2
  by_cases hsource : source <+: e.1
  · simp [hsource]
  · simp [hsource, htarget]

theorem subtree_moveTree_source (h : Unrelated source target) :
    subtree source (moveTree source target tree) = [] := by
  refine subtree_eq_nil fun e he => ?_
  obtain ⟨e', -, rfl⟩ := List.mem_map.1 he
  by_cases hsource : source <+: e'.1
  · rw [if_pos hsource]
    exact h.symm.not_prefix (List.prefix_append _ _)
  · rw [if_neg hsource]
    exact hsource

theorem subtree_moveTree (hs : Unrelated p source) (ht : Unrelated p target) :
    subtree p (moveTree source target tree) = subtree p tree := by
  have hremoved : subtree p (removeTree target tree) = subtree p tree := subtree_removeTree ht
  rw [← hremoved]
  unfold moveTree
  unfold subtree
  rw [List.filterMap_map]
  refine List.filterMap_congr fun e _ => ?_
  by_cases hsource : source <+: e.1
  · have hp : ¬ p <+: e.1 := hs.symm.not_prefix hsource
    have hmoved : ¬ p <+: target ++ e.1.drop source.length := ht.symm.not_prefix (List.prefix_append _ _)
    simp [hsource, hp, hmoved]
  · simp [hsource]

end FileTree

end ArdOssie
