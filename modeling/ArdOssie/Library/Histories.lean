import Mathlib.Logic.Relation
import Mathlib.Order.Basic

/-!
# Histories

Versions with the parents that each one comes from, and the merge of two versions by the version that both come from:
what one side did not change is taken from the other side.
-/

namespace ArdOssie

/-! ### Ancestors -/

section Ancestors

variable {α : Type}

/-- The first version is the second one or a parent of an ancestor of it. -/
def Ancestor (parents : α → List α) (a b : α) : Prop := Relation.ReflTransGen (fun x y => x ∈ parents y) a b

variable [DecidableEq α]

/-- The first version is reached from the second one in a number of steps to parents. -/
def ancestorWithin (parents : α → List α) (a : α) : ℕ → α → Bool
  | 0, b => a = b
  | n + 1, b => a = b || (parents b).any (ancestorWithin parents a n)

/-- What is reached is an ancestor. -/
theorem ancestor_of_ancestorWithin {parents : α → List α} {a b : α} {n : ℕ}
    (h : ancestorWithin parents a n b = true) : Ancestor parents a b := by
  induction n generalizing b with
  | zero =>
    cases of_decide_eq_true h
    exact Relation.ReflTransGen.refl
  | succ n ih =>
    unfold ancestorWithin at h
    rw [Bool.or_eq_true] at h
    rcases h with heq | hparents
    · cases of_decide_eq_true heq
      exact Relation.ReflTransGen.refl
    · obtain ⟨c, hc, hwithin⟩ := List.any_eq_true.1 hparents
      exact (ih hwithin).tail hc

end Ancestors

/-! ### Merges -/

section Merges

variable {β : Type} [DecidableEq β]

/-- The merge of a value with the values on both sides; what both sides changed is combined, or is a conflict. -/
def threeWay (combine : β → β → β → Option β) (base ours theirs : β) : Option β :=
  if ours = base then some theirs
  else if theirs = base then some ours
  else combine base ours theirs

variable {combine : β → β → β → Option β} {base ours theirs merged : β}

/-- What this side did not change is taken from the other side. -/
theorem threeWay_eq_theirs (h : threeWay combine base ours theirs = some merged) (hours : ours = base) :
    merged = theirs := by
  unfold threeWay at h
  rw [if_pos hours] at h
  exact (Option.some_inj.1 h).symm

end Merges

end ArdOssie
