import ArdOssie.Library.Lists
import Mathlib.Data.Finset.Card
import Mathlib.Data.Fintype.Card
import Mathlib.Data.Set.Card
import Mathlib.Logic.Relation

/-!
# Linear extensions

The orders of a finite list of nodes that respect a list of pairs (predecessor, successor).  An order is built node by
node: a node may be appended when all its predecessors are placed.  `completions` lists all the linear extensions,
those that take the nodes of the least rank first in front; `greedyOrder` always takes the node of the least rank.
-/

namespace ArdOssie

section LinearExtensions

variable {α : Type} [DecidableEq α]

/-- The number of pairs with successor `x` whose predecessor is not placed. -/
def pending (pairs : List (α × α)) (placed : List α) (x : α) : ℕ :=
  (pairs.filter fun p => p.2 = x ∧ p.1 ∉ placed).length

/-- The nodes that may come next. -/
def available (nodes : List α) (pairs : List (α × α)) (placed : List α) : List α :=
  nodes.filter fun x => x ∉ placed ∧ pending pairs placed x = 0

/-- Every node of `order` may come next after the nodes in front of it. -/
def Admissible (nodes : List α) (pairs : List (α × α)) (order : List α) : Prop :=
  ∀ l x r, order = l ++ x :: r → x ∈ available nodes pairs l

structure IsLinearExtension (nodes : List α) (pairs : List (α × α)) (order : List α) : Prop where
  perm : order.Perm nodes
  before : ∀ p ∈ pairs, order.idxOf p.1 < order.idxOf p.2

/-- Some node comes before itself. -/
def Cyclic (pairs : List (α × α)) : Prop := ∃ x, Relation.TransGen (fun a b => (a, b) ∈ pairs) x x

/-- All the admissible orders with `n` more nodes that begin with `placed`. -/
def completions (rank : α → ℕ) (nodes : List α) (pairs : List (α × α)) : ℕ → List α → List (List α)
  | 0, placed => [placed]
  | n + 1, placed => (sortBy rank (available nodes pairs placed)).flatMap fun x =>
      completions rank nodes pairs n (placed ++ [x])

/-- `n` more nodes, each time the one of the least rank. -/
def greedyOrder (rank : α → ℕ) (nodes : List α) (pairs : List (α × α)) : ℕ → List α → List α
  | 0, placed => placed
  | n + 1, placed => match sortBy rank (available nodes pairs placed) with
    | [] => placed
    | x :: _ => greedyOrder rank nodes pairs n (placed ++ [x])

variable {rank : α → ℕ} {nodes : List α} {pairs : List (α × α)} {placed order : List α} {x : α} {n : ℕ}

/-! ### Admissible orders -/

theorem pending_eq_zero_iff : pending pairs placed x = 0 ↔ ∀ p ∈ pairs, p.2 = x → p.1 ∈ placed := by
  simp [pending]

theorem mem_available :
    x ∈ available nodes pairs placed ↔ x ∈ nodes ∧ x ∉ placed ∧ pending pairs placed x = 0 := by
  simp [available]

theorem admissible_nil : Admissible nodes pairs [] := by
  intro l x r h
  exact absurd h.symm (List.append_ne_nil_of_right_ne_nil l (List.cons_ne_nil x r))

theorem Admissible.of_prefix {l : List α} (h : Admissible nodes pairs order) (hl : l <+: order) :
    Admissible nodes pairs l := by
  obtain ⟨t, rfl⟩ := hl
  intro l' x r hx
  exact h l' x (r ++ t) (by rw [hx, List.append_assoc, List.cons_append])

theorem admissible_concat :
    Admissible nodes pairs (placed ++ [x]) ↔ Admissible nodes pairs placed ∧ x ∈ available nodes pairs placed := by
  constructor
  · intro h
    exact ⟨h.of_prefix (List.prefix_append _ _), h placed x [] rfl⟩
  · rintro ⟨h, hx⟩ l y r hy
    rcases List.eq_nil_or_concat r with rfl | ⟨r', z, rfl⟩
    · obtain ⟨rfl, hxy⟩ := List.append_inj' hy rfl
      cases hxy
      exact hx
    · have hy' : placed ++ [x] = (l ++ y :: r') ++ [z] := by simpa [List.concat_eq_append] using hy
      obtain ⟨hp, -⟩ := List.append_inj' hy' rfl
      exact h l y r' hp

theorem Admissible.nodup (h : Admissible nodes pairs order) : order.Nodup := by
  induction order using List.reverseRecOn with
  | nil => exact List.nodup_nil
  | append_singleton l x ih =>
    obtain ⟨hl, hx⟩ := admissible_concat.1 h
    have hnot : x ∉ l := (mem_available.1 hx).2.1
    exact (ih hl).append (List.nodup_singleton x) (by simpa using hnot)

theorem Admissible.subset (h : Admissible nodes pairs order) : order ⊆ nodes := by
  intro x hx
  obtain ⟨l, r, rfl⟩ := List.append_of_mem hx
  exact (mem_available.1 (h l x r rfl)).1

/-- A node of an admissible order has all its predecessors in it. -/
theorem Admissible.pending_eq_zero (h : Admissible nodes pairs order) (hx : x ∈ order) :
    pending pairs order x = 0 := by
  obtain ⟨l, r, rfl⟩ := List.append_of_mem hx
  have hpending := (mem_available.1 (h l x r rfl)).2.2
  rw [pending_eq_zero_iff] at hpending ⊢
  exact fun p hp hpx => List.mem_append_left _ (hpending p hp hpx)

private theorem idxOf_append_cons {l r : List α} (hx : x ∉ l) : (l ++ x :: r).idxOf x = l.length := by
  simp [List.idxOf_append, hx]

/-- The linear extensions are the admissible orders with all the nodes. -/
theorem isLinearExtension_iff (hn : nodes.Nodup) (hpairs : ∀ p ∈ pairs, p.1 ∈ nodes ∧ p.2 ∈ nodes) :
    IsLinearExtension nodes pairs order ↔ Admissible nodes pairs order ∧ order.length = nodes.length := by
  constructor
  · intro h
    refine ⟨?_, h.perm.length_eq⟩
    rintro l x r rfl
    have hnodup : (l ++ x :: r).Nodup := h.perm.nodup_iff.2 hn
    have hx : x ∉ l := fun hxl => (List.nodup_append.1 hnodup).2.2 x hxl x List.mem_cons_self rfl
    refine mem_available.2 ⟨h.perm.subset (by simp), hx, pending_eq_zero_iff.2 ?_⟩
    rintro p hp rfl
    have hlt := h.before p hp
    rw [idxOf_append_cons hx, List.idxOf_append] at hlt
    by_contra hp1
    rw [if_neg hp1] at hlt
    omega
  · rintro ⟨h, hlen⟩
    have hperm : order.Perm nodes := (h.nodup.subperm h.subset).perm_of_length_le hlen.ge
    refine ⟨hperm, ?_⟩
    intro p hp
    obtain ⟨l, r, hl⟩ := List.append_of_mem (hperm.mem_iff.2 (hpairs p hp).2)
    have havail := mem_available.1 (h l p.2 r hl)
    have hp1 : p.1 ∈ l := pending_eq_zero_iff.1 havail.2.2 p hp rfl
    have hlt := List.idxOf_lt_length_of_mem hp1
    rw [hl, idxOf_append_cons havail.2.1, List.idxOf_append, if_pos hp1]
    exact hlt

/-! ### Cycles -/

/-- Along the pairs the positions of a linear extension grow. -/
theorem IsLinearExtension.not_cyclic (h : IsLinearExtension nodes pairs order) : ¬ Cyclic pairs := by
  rintro ⟨x, hx⟩
  have hlt : ∀ {a b}, Relation.TransGen (fun a b => (a, b) ∈ pairs) a b → order.idxOf a < order.idxOf b := by
    intro a b hab
    induction hab with
    | single hab => exact h.before _ hab
    | tail _ hbc ih => exact ih.trans (h.before _ hbc)
  exact lt_irrefl _ (hlt hx)

/-- Without a cycle, some node may come next as long as a node is missing. -/
theorem exists_mem_available (hpairs : ∀ p ∈ pairs, p.1 ∈ nodes ∧ p.2 ∈ nodes) (hacyclic : ¬ Cyclic pairs)
    (hmissing : ∃ x ∈ nodes, x ∉ placed) : ∃ x, x ∈ available nodes pairs placed := by
  let R : nodes.toFinset → nodes.toFinset → Prop := fun a b =>
    Relation.TransGen (fun a b => (a, b) ∈ pairs) a.1 b.1
  have : IsTrans nodes.toFinset R := ⟨fun _ _ _ h h' => h.trans h'⟩
  have : Std.Irrefl R := ⟨fun a h => hacyclic ⟨a.1, h⟩⟩
  have hwf : WellFounded R := Finite.wellFounded_of_trans_of_irrefl R
  obtain ⟨x, hx, hxp⟩ := hmissing
  obtain ⟨m, hm, hmin⟩ := hwf.has_min {a | a.1 ∉ placed} ⟨⟨x, List.mem_toFinset.2 hx⟩, hxp⟩
  refine ⟨m.1, mem_available.2 ⟨List.mem_toFinset.1 m.2, hm, pending_eq_zero_iff.2 ?_⟩⟩
  -- a predecessor that is missing would be smaller
  intro p hp hpm
  by_contra hp1
  refine hmin ⟨p.1, List.mem_toFinset.2 (hpairs p hp).1⟩ hp1 (Relation.TransGen.single ?_)
  show (p.1, m.1) ∈ pairs
  rw [← hpm]
  exact hp

/-! ### The list of the linear extensions -/

theorem prefix_of_mem_completions (h : order ∈ completions rank nodes pairs n placed) : placed <+: order := by
  induction n generalizing placed with
  | zero => rw [List.mem_singleton.1 h]
  | succ n ih =>
    obtain ⟨x, -, hx⟩ := List.mem_flatMap.1 h
    exact (List.prefix_append _ _).trans (ih hx)

theorem mem_completions (hp : Admissible nodes pairs placed) :
    order ∈ completions rank nodes pairs n placed ↔
      Admissible nodes pairs order ∧ placed <+: order ∧ order.length = placed.length + n := by
  induction n generalizing placed with
  | zero =>
    simp only [completions, List.mem_singleton]
    constructor
    · rintro rfl
      exact ⟨hp, List.prefix_rfl, rfl⟩
    · rintro ⟨-, hpre, hlen⟩
      exact (hpre.eq_of_length hlen.symm).symm
  | succ n ih =>
    simp only [completions, List.mem_flatMap, mem_sortBy]
    constructor
    · rintro ⟨x, hx, hmem⟩
      obtain ⟨h, hpre, hlen⟩ := (ih (admissible_concat.2 ⟨hp, hx⟩)).1 hmem
      refine ⟨h, (List.prefix_append _ _).trans hpre, ?_⟩
      rw [hlen, List.length_append, List.length_singleton]
      omega
    · rintro ⟨h, ⟨t, rfl⟩, hlen⟩
      cases t with
      | nil =>
        rw [List.append_nil] at hlen
        omega
      | cons x t =>
        have hx : x ∈ available nodes pairs placed := h placed x t rfl
        refine ⟨x, hx, (ih (admissible_concat.2 ⟨hp, hx⟩)).2 ⟨h, ⟨t, by simp⟩, ?_⟩⟩
        rw [hlen, List.length_append, List.length_singleton]
        omega

theorem nodup_completions (hn : nodes.Nodup) : (completions rank nodes pairs n placed).Nodup := by
  induction n generalizing placed with
  | zero => exact List.nodup_singleton placed
  | succ n ih =>
    refine List.nodup_flatMap.2 ⟨fun x _ => ih, ?_⟩
    have hnodup : (sortBy rank (available nodes pairs placed)).Nodup :=
      (sortBy_perm _ _).nodup_iff.2 (hn.filter _)
    refine hnodup.imp ?_
    -- two branches differ in the node after `placed`
    intro x y hxy o hx hy
    obtain ⟨t, rfl⟩ := prefix_of_mem_completions hx
    obtain ⟨u, hu⟩ := prefix_of_mem_completions hy
    simp only [List.append_assoc, List.singleton_append, List.append_cancel_left_eq, List.cons.injEq] at hu
    exact hxy hu.1.symm

/-- From the empty order, the completions are the linear extensions. -/
theorem mem_completions_nil (hn : nodes.Nodup) (hpairs : ∀ p ∈ pairs, p.1 ∈ nodes ∧ p.2 ∈ nodes) :
    order ∈ completions rank nodes pairs nodes.length [] ↔ IsLinearExtension nodes pairs order := by
  rw [mem_completions admissible_nil, isLinearExtension_iff hn hpairs]
  simp

theorem ncard_linearExtensions (rank : α → ℕ) (hn : nodes.Nodup)
    (hpairs : ∀ p ∈ pairs, p.1 ∈ nodes ∧ p.2 ∈ nodes) :
    {o | IsLinearExtension nodes pairs o}.ncard = (completions rank nodes pairs nodes.length []).length := by
  have hset : {o | IsLinearExtension nodes pairs o} =
      ((completions rank nodes pairs nodes.length []).toFinset : Set (List α)) := by
    ext o
    simp only [Set.mem_ofPred_eq, Finset.mem_coe, List.mem_toFinset, mem_completions_nil hn hpairs]
  rw [hset, Set.ncard_coe_finset, List.toFinset_card_of_nodup (nodup_completions hn)]

/-! ### The order that takes the least rank -/

theorem greedyOrder_admissible (hp : Admissible nodes pairs placed) :
    Admissible nodes pairs (greedyOrder rank nodes pairs n placed) := by
  induction n generalizing placed with
  | zero => exact hp
  | succ n ih =>
    unfold greedyOrder
    split
    · exact hp
    · next x _ hx =>
      have hmem : x ∈ sortBy rank (available nodes pairs placed) := by simp [hx]
      exact ih (admissible_concat.2 ⟨hp, mem_sortBy.1 hmem⟩)

/-- Without a cycle the greedy order does not stop early. -/
theorem length_greedyOrder (hn : nodes.Nodup) (hpairs : ∀ p ∈ pairs, p.1 ∈ nodes ∧ p.2 ∈ nodes)
    (hacyclic : ¬ Cyclic pairs) (hp : Admissible nodes pairs placed) (hlen : placed.length + n ≤ nodes.length) :
    (greedyOrder rank nodes pairs n placed).length = placed.length + n := by
  induction n generalizing placed with
  | zero => rfl
  | succ n ih =>
    have hmissing : ∃ x ∈ nodes, x ∉ placed := by
      by_contra hall
      push Not at hall
      have hle := (hn.subperm hall).length_le
      omega
    obtain ⟨y, hy⟩ := exists_mem_available hpairs hacyclic hmissing
    unfold greedyOrder
    split
    · next hnil =>
      have hmem : y ∈ sortBy rank (available nodes pairs placed) := mem_sortBy.2 hy
      rw [hnil] at hmem
      exact absurd hmem List.not_mem_nil
    · next x _ hx =>
      have hmem : x ∈ sortBy rank (available nodes pairs placed) := by simp [hx]
      have hlen' : (placed ++ [x]).length = placed.length + 1 := by simp
      rw [ih (admissible_concat.2 ⟨hp, mem_sortBy.1 hmem⟩) (by omega)]
      omega

/-- The greedy order reaches all the nodes exactly when there is no cycle. -/
theorem length_greedyOrder_eq_iff (hn : nodes.Nodup) (hpairs : ∀ p ∈ pairs, p.1 ∈ nodes ∧ p.2 ∈ nodes) :
    (greedyOrder rank nodes pairs nodes.length []).length = nodes.length ↔ ¬ Cyclic pairs := by
  constructor
  · intro hlen
    exact ((isLinearExtension_iff hn hpairs).2 ⟨greedyOrder_admissible admissible_nil, hlen⟩).not_cyclic
  · intro hacyclic
    rw [length_greedyOrder hn hpairs hacyclic admissible_nil (by simp)]
    simp

/-- A greedy order with all the nodes is the first completion. -/
theorem head?_completions (h : (greedyOrder rank nodes pairs n placed).length = placed.length + n) :
    (completions rank nodes pairs n placed).head? = some (greedyOrder rank nodes pairs n placed) := by
  induction n generalizing placed with
  | zero => rfl
  | succ n ih =>
    unfold greedyOrder at h ⊢
    unfold completions
    split at h
    · omega
    · next x rest hx =>
      have hlen : (greedyOrder rank nodes pairs n (placed ++ [x])).length = (placed ++ [x]).length + n := by
        rw [h, List.length_append, List.length_singleton]
        omega
      rw [hx, List.flatMap_cons, List.head?_append, ih hlen, Option.some_or]

theorem completions_eq_nil_iff (hn : nodes.Nodup) (hpairs : ∀ p ∈ pairs, p.1 ∈ nodes ∧ p.2 ∈ nodes) :
    completions rank nodes pairs nodes.length [] = [] ↔ Cyclic pairs := by
  constructor
  · intro hnil
    by_contra hacyclic
    have hlen : (greedyOrder rank nodes pairs nodes.length []).length = ([] : List α).length + nodes.length := by
      rw [(length_greedyOrder_eq_iff hn hpairs).2 hacyclic, List.length_nil, Nat.zero_add]
    have hhead := head?_completions hlen
    rw [hnil] at hhead
    cases hhead
  · intro hcyclic
    refine List.eq_nil_iff_forall_not_mem.2 ?_
    intro o ho
    exact ((mem_completions_nil hn hpairs).1 ho).not_cyclic hcyclic

end LinearExtensions

end ArdOssie
