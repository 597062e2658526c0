import ArdOssie.Library.Lists
import Mathlib.Logic.Function.Iterate

/-!
# Components of a finite relation

The components of a list under a relation, as they are found one by one: the first element that is left takes in what is
related to its component, scan by scan.
-/

namespace ArdOssie

namespace Components

variable {α : Type} [DecidableEq α] (related : α → α → Bool)

/-- One scan over the elements outside of a component; an element that is related to a member joins at once. -/
def scan (remaining component : List α) : List α :=
  (remaining.filter fun a => a ∉ component).foldl
    (fun component a => if component.any (related a) then component ++ [a] else component) component

/-- The component of an element, after as many scans as there are elements. -/
def close (remaining : List α) (first : α) : List α := (scan related remaining)^[remaining.length] [first]

/-- The components of the remaining elements, at most `rounds` of them. -/
def components : ℕ → List α → List (List α)
  | 0, _ => []
  | _ + 1, [] => []
  | rounds + 1, first :: rest =>
    let component := close related (first :: rest) first
    component :: components rounds (rest.filter fun a => a ∉ component)

variable {related} {remaining component : List α} {first : α}

/-! ### One scan -/

omit [DecidableEq α] in
private theorem foldl_join (l component : List α) : ∃ added,
    l.foldl (fun component a => if component.any (related a) then component ++ [a] else component) component =
      component ++ added ∧ added.Sublist l ∧
      ∀ a ∈ l, a ∉ added → ∀ m ∈ component, related a m = false := by
  induction l generalizing component with
  | nil => exact ⟨[], (List.append_nil _).symm, List.Sublist.refl _, fun a ha => absurd ha List.not_mem_nil⟩
  | cons b l ih =>
    rw [List.foldl_cons]
    by_cases hb : component.any (related b) = true
    · rw [if_pos hb]
      obtain ⟨added, heq, hsub, hleft⟩ := ih (component ++ [b])
      refine ⟨b :: added, by rw [heq, List.append_assoc, List.singleton_append], hsub.cons_cons b, ?_⟩
      intro a ha hout m hm
      have hne : a ≠ b := fun h => hout (h ▸ List.mem_cons_self)
      exact hleft a ((List.mem_cons.1 ha).resolve_left hne) (fun h => hout (List.mem_cons_of_mem _ h)) m
        (List.mem_append_left _ hm)
    · rw [if_neg hb]
      obtain ⟨added, heq, hsub, hleft⟩ := ih component
      refine ⟨added, heq, hsub.cons b, ?_⟩
      intro a ha hout m hm
      rcases List.mem_cons.1 ha with rfl | ha
      · by_contra hrelated
        exact hb (List.any_eq_true.2 ⟨m, hm, Bool.not_eq_false _ ▸ hrelated⟩)
      · exact hleft a ha hout m hm

/-- A scan adds elements that were outside, and the ones that stay outside are not related to the component. -/
theorem scan_spec (remaining component : List α) : ∃ added, scan related remaining component = component ++ added ∧
    added.Sublist remaining ∧ (∀ a ∈ added, a ∉ component) ∧
    ∀ a ∈ remaining, a ∉ component ++ added → ∀ m ∈ component, related a m = false := by
  obtain ⟨added, heq, hsub, hleft⟩ := @foldl_join _ related (remaining.filter fun a => a ∉ component) component
  refine ⟨added, heq, hsub.trans List.filter_sublist, ?_, ?_⟩
  · intro a ha
    exact of_decide_eq_true (List.mem_filter.1 (hsub.subset ha)).2
  · intro a ha hout
    obtain ⟨hcomponent, hadded⟩ := not_or.1 fun h => hout (List.mem_append.2 h)
    exact hleft a (List.mem_filter.2 ⟨ha, decide_eq_true hcomponent⟩) hadded

/-! ### The component of an element -/

/-- What every scan keeps. -/
structure Grown (remaining : List α) (first : α) (component : List α) : Prop where
  first_mem : first ∈ component
  nodup : component.Nodup
  subset : component ⊆ remaining

theorem Grown.scan (hremaining : remaining.Nodup) (h : Grown remaining first component) :
    Grown remaining first (scan related remaining component) := by
  obtain ⟨added, heq, hsub, hnew, -⟩ := @scan_spec _ _ related remaining component
  rw [heq]
  refine ⟨List.mem_append_left _ h.first_mem, ?_, List.append_subset.2 ⟨h.subset, hsub.subset⟩⟩
  exact List.nodup_append'.2 ⟨h.nodup, hsub.nodup hremaining, fun a ha hadded => hnew a hadded ha⟩

private theorem grown_iterate (hremaining : remaining.Nodup) (hfirst : first ∈ remaining) (n : ℕ) :
    Grown remaining first ((Components.scan related remaining)^[n] [first]) := by
  induction n with
  | zero => exact ⟨List.mem_singleton_self _, List.nodup_singleton _, List.cons_subset.2 ⟨hfirst, List.nil_subset _⟩⟩
  | succ n ih =>
    rw [Function.iterate_succ_apply']
    exact ih.scan hremaining

/-- As long as scans add elements, there is one more than there were scans. -/
private theorem scan_iterate (remaining : List α) (first : α) (n : ℕ) :
    scan related remaining ((scan related remaining)^[n] [first]) = (scan related remaining)^[n] [first] ∨
      n + 1 ≤ ((scan related remaining)^[n] [first]).length := by
  induction n with
  | zero => exact Or.inr le_rfl
  | succ n ih =>
    rw [Function.iterate_succ_apply']
    rcases ih with hfixed | hlength
    · rw [hfixed]
      exact Or.inl hfixed
    · obtain ⟨added, heq, -⟩ := @scan_spec _ _ related remaining ((scan related remaining)^[n] [first])
      cases added with
      | nil =>
        rw [List.append_nil] at heq
        rw [heq]
        exact Or.inl heq
      | cons a added =>
        right
        rw [heq, List.length_append, List.length_cons]
        omega

/-- The component of an element is closed under the relation. -/
theorem close_spec (hremaining : remaining.Nodup) (hfirst : first ∈ remaining) :
    Grown remaining first (close related remaining first) ∧
      ∀ a ∈ remaining, ∀ m ∈ close related remaining first, related a m = true →
        a ∈ close related remaining first := by
  have hgrown := @grown_iterate _ _ related _ _ hremaining hfirst remaining.length
  refine ⟨hgrown, fun a ha m hm hrelated => ?_⟩
  have hlength := (List.subperm_of_subset hgrown.nodup hgrown.subset).length_le
  -- a scan that is not fixed adds an element, and there are not enough elements for that many scans
  have hfixed : scan related remaining (close related remaining first) = close related remaining first := by
    rcases @scan_iterate _ _ related remaining first remaining.length with hfixed | hmore
    · exact hfixed
    · omega
  obtain ⟨added, heq, -, -, hleft⟩ := @scan_spec _ _ related remaining (close related remaining first)
  rw [← heq, hfixed] at hleft
  by_contra hout
  rw [hleft a ha hout m hm] at hrelated
  cases hrelated

/-! ### All components -/

/-- Every element is in one component. -/
theorem components_perm {rounds : ℕ} (hrounds : remaining.length ≤ rounds) (hremaining : remaining.Nodup) :
    (components related rounds remaining).flatten.Perm remaining := by
  induction rounds generalizing remaining with
  | zero =>
    rw [Nat.le_zero, List.length_eq_zero_iff] at hrounds
    rw [hrounds]
    exact List.Perm.refl _
  | succ rounds ih =>
    cases remaining with
    | nil => exact List.Perm.refl _
    | cons first rest =>
      -- the first component and what is outside of it are all that remains
      obtain ⟨hgrown, -⟩ := @close_spec _ _ related _ _ hremaining List.mem_cons_self
      have hlength := (List.length_filter_le (fun a => a ∉ close related (first :: rest) first) rest).trans
        (Nat.le_of_succ_le_succ hrounds)
      have hrest := ih hlength ((List.nodup_cons.1 hremaining).2.filter _)
      have hinside : (close related (first :: rest) first).Perm
          ((first :: rest).filter fun a => a ∈ close related (first :: rest) first) := by
        refine (List.perm_ext_iff_of_nodup hgrown.nodup (hremaining.filter _)).2 fun a => ?_
        rw [List.mem_filter, decide_eq_true_eq]
        exact ⟨fun h => ⟨hgrown.subset h, h⟩, And.right⟩
      have houtside : (first :: rest).filter (fun a => !decide (a ∈ close related (first :: rest) first)) =
          rest.filter fun a => a ∉ close related (first :: rest) first := by
        rw [List.filter_cons_of_neg (by simpa using hgrown.first_mem)]
        exact List.filter_congr fun a _ => (decide_not).symm
      unfold components
      dsimp only
      rw [List.flatten_cons]
      refine (hinside.append hrest).trans ?_
      rw [← houtside]
      exact List.filter_append_perm _ _

theorem subset_of_mem_components {rounds : ℕ} (hremaining : remaining.Nodup)
    (hcomponent : component ∈ components related rounds remaining) : component ⊆ remaining := by
  induction rounds generalizing remaining with
  | zero => cases hcomponent
  | succ rounds ih =>
    cases remaining with
    | nil => cases hcomponent
    | cons first rest =>
      unfold components at hcomponent
      rcases List.mem_cons.1 hcomponent with rfl | hlater
      · exact (close_spec hremaining List.mem_cons_self).1.subset
      · intro a ha
        have hrest := ih ((List.nodup_cons.1 hremaining).2.filter _) hlater ha
        exact List.mem_cons_of_mem _ (List.mem_filter.1 hrest).1

/-- Related elements are in the same component. -/
theorem mem_of_related (hsymm : ∀ a b, related a b = related b a) {rounds : ℕ} (hremaining : remaining.Nodup) {a b : α}
    (hb : b ∈ remaining) (hrelated : related a b = true) (hcomponent : component ∈ components related rounds remaining)
    (ha : a ∈ component) : b ∈ component := by
  induction rounds generalizing remaining with
  | zero => cases hcomponent
  | succ rounds ih =>
    cases remaining with
    | nil => cases hcomponent
    | cons first rest =>
      obtain ⟨hgrown, hclosed⟩ := @close_spec _ _ related _ _ hremaining List.mem_cons_self
      unfold components at hcomponent
      rcases List.mem_cons.1 hcomponent with rfl | hlater
      · exact hclosed b hb a ha (hsymm a b ▸ hrelated)
      · obtain ⟨harest, haout⟩ := List.mem_filter.1 (subset_of_mem_components
          ((List.nodup_cons.1 hremaining).2.filter _) hlater ha)
        have hbout : b ∉ close related (first :: rest) first := by
          intro hbin
          exact of_decide_eq_true haout (hclosed a (List.mem_cons_of_mem _ harest) b hbin hrelated)
        have hne : b ≠ first := by
          intro heq
          rw [heq] at hbout
          exact hbout hgrown.first_mem
        exact ih ((List.nodup_cons.1 hremaining).2.filter _)
          (List.mem_filter.2 ⟨(List.mem_cons.1 hb).resolve_left hne, decide_eq_true hbout⟩) hlater

end Components

end ArdOssie
