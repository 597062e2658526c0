import ArdOssie.Library.LinearExtensions
import ArdOssie.Semantic.LayoutModels

/-!
# The two orderings of the regions

The reading order of a layout takes the regions one after the other, always the first region without a predecessor
left.  The candidates for the order of the regions are found by a search with a limit.  Both are read off the list of
the linear extensions of the edges: the search returns its first elements, the reading order is its head.
-/

namespace ArdOssie

/-- `following_counts[following] -= 1` -/
def decrementCount (counts : RegionId → ℕ) (following : RegionId) : RegionId → ℕ :=
  Function.update counts following (counts following - 1)

/-- The recursion `visit` of `_bounded_topological_orders`, at most `n` regions deep.  The check in front of an
iteration is the one the loop makes after the iteration before it. -/
def visitOrders (regionIds : List RegionId) (outgoing : RegionId → List RegionId) (limit : ℕ) :
    ℕ → List RegionId → (RegionId → ℕ) → List (List RegionId) → List (List RegionId)
  | n, order, counts, results =>
    if limit ≤ results.length then results
    else if order.length = regionIds.length then results ++ [order]
    else match n with
      | 0 => results
      | n + 1 =>
        let ready := sortBy (fun i => regionIds.idxOf i) (regionIds.filter fun i => i ∉ order ∧ counts i = 0)
        ready.foldl (fun results i => if limit ≤ results.length then results else
          visitOrders regionIds outgoing limit n (order ++ [i]) ((outgoing i).foldl decrementCount counts) results)
          results

/-- `_bounded_topological_orders` -/
def boundedTopologicalOrders (layout : LayoutFields) (limit : ℕ) : PyResult (List (List RegionId)) := do
  let regionIds := layout.regions.map (·.regionId)
  let outgoing := fun i => (layout.orderEdges.filter fun e => e.beforeRegionId = i).map (·.afterRegionId)
  let incoming := fun i => (layout.orderEdges.filter fun e => e.afterRegionId = i).length
  let results := visitOrders regionIds outgoing limit regionIds.length [] incoming []
  raiseIf (results = []) (.valueError "READING_ORDER_CYCLE")
  return results

/-- The edges as pairs of a region and one that comes after it. -/
def edgePairs (edges : List ReadingOrderEdge) : List (RegionId × RegionId) :=
  edges.map fun e => (e.beforeRegionId, e.afterRegionId)

section Orders

variable {regionIds : List RegionId} {edges : List ReadingOrderEdge} {order : List RegionId} {i x : RegionId}
  {counts : RegionId → ℕ}

/-! ### The counts of the predecessors -/

private theorem foldl_decrementCount (following : List RegionId) :
    following.foldl decrementCount counts x = counts x - following.count x := by
  induction following generalizing counts with
  | nil => rfl
  | cons f following ih =>
    rw [List.foldl_cons, ih, List.count_cons]
    by_cases hf : f = x
    · subst hf
      simp only [decrementCount, Function.update_self, beq_self_eq_true, if_true]
      omega
    · have hne : x ≠ f := fun h => hf h.symm
      simp [decrementCount, Function.update_of_ne hne, hf]

private theorem pending_nil : pending (edgePairs edges) [] x = (edges.filter fun e => e.afterRegionId = x).length := by
  simp only [pending, edgePairs, List.filter_map, List.length_map]
  congr 1
  apply List.filter_congr
  intro e _
  simp

private theorem count_outgoing :
    ((edges.filter fun e => e.beforeRegionId = i).map (·.afterRegionId)).count x =
      ((edgePairs edges).filter fun p => p.1 = i ∧ p.2 = x).length := by
  induction edges with
  | nil => rfl
  | cons e edges ih =>
    simp only [edgePairs, List.map_cons, List.filter_cons, decide_eq_true_eq] at ih ⊢
    by_cases hb : e.beforeRegionId = i
    · by_cases ha : e.afterRegionId = x
      · simp [hb, ha, ih]
      · simp [hb, ha, ih]
    · simp [hb, ih]

/-- Placing a region takes its edges off the counts. -/
private theorem pending_concat (hi : i ∉ order) :
    pending (edgePairs edges) order x = pending (edgePairs edges) (order ++ [i]) x +
      ((edges.filter fun e => e.beforeRegionId = i).map (·.afterRegionId)).count x := by
  rw [count_outgoing]
  simp only [pending]
  induction edgePairs edges with
  | nil => rfl
  | cons p pairs ih =>
    simp only [List.filter_cons, decide_eq_true_eq, List.mem_append, List.mem_singleton] at ih ⊢
    by_cases hp2 : p.2 = x
    · by_cases hp1 : p.1 = i
      · simp [hp2, hp1, hi] at ih ⊢
        omega
      · by_cases hmem : p.1 ∈ order
        · simp [hp2, hp1, hmem] at ih ⊢
          omega
        · simp [hp2, hp1, hmem] at ih ⊢
          omega
    · simp [hp2] at ih ⊢
      omega

private theorem counts_concat (hi : i ∉ order) :
    ((edges.filter fun e => e.beforeRegionId = i).map (·.afterRegionId)).foldl decrementCount
      (pending (edgePairs edges) order) = pending (edgePairs edges) (order ++ [i]) := by
  funext x
  rw [foldl_decrementCount, pending_concat hi, Nat.add_sub_cancel]

/-! ### The search with a limit -/

/-- A loop that stops at the limit and whose rounds append what fits appends what fits of all the rounds. -/
private theorem foldl_take {β γ : Type} {limit : ℕ} {f : List γ → β → List γ} {g : β → List γ} (l : List β)
    (results : List γ)
    (hf : ∀ b ∈ l, ∀ results, results.length < limit →
      f results b = results ++ (g b).take (limit - results.length)) :
    l.foldl (fun results b => if limit ≤ results.length then results else f results b) results =
      results ++ (l.flatMap g).take (limit - results.length) := by
  induction l generalizing results with
  | nil => simp
  | cons b l ih =>
    have ih' := fun results => ih results fun b' hb' => hf b' (List.mem_cons_of_mem b hb')
    rw [List.foldl_cons, ih', List.flatMap_cons, List.take_append]
    split
    · next hlimit => simp [Nat.sub_eq_zero_of_le hlimit]
    · next hlimit =>
      rw [hf b List.mem_cons_self results (by omega), List.append_assoc, List.length_append, List.length_take]
      congr 3
      omega

variable {limit n : ℕ}

/-- The search appends the first completions of the order, as many as the limit leaves. -/
theorem visitOrders_eq (results : List (List RegionId)) (hlen : order.length + n = regionIds.length) :
    visitOrders regionIds (fun i => (edges.filter fun e => e.beforeRegionId = i).map (·.afterRegionId)) limit n order
        (pending (edgePairs edges) order) results =
      results ++ (completions (fun i => regionIds.idxOf i) regionIds (edgePairs edges) n order).take
        (limit - results.length) := by
  induction n generalizing order results with
  | zero =>
    unfold visitOrders completions
    split
    · next hlimit => simp [Nat.sub_eq_zero_of_le hlimit]
    · next hlimit =>
      rw [if_pos (by omega), List.take_of_length_le]
      rw [List.length_singleton]
      omega
  | succ n ih =>
    unfold visitOrders completions
    split
    · next hlimit => simp [Nat.sub_eq_zero_of_le hlimit]
    · rw [if_neg (by omega)]
      refine foldl_take _ _ ?_
      intro i hi results _
      have hi' : i ∉ order := (mem_available.1 (mem_sortBy.1 hi)).2.1
      rw [counts_concat hi']
      exact ih results (by rw [List.length_append, List.length_singleton]; omega)

/-! ### The regions in the order of their ranks -/

private theorem sortBy_idxOf_eq {l l' : List RegionId} (hl : l.Nodup) (hl' : l'.Nodup) (hsub : l ⊆ regionIds)
    (hmem : ∀ x, x ∈ l ↔ x ∈ l') (hsorted : l'.Pairwise fun a b => regionIds.idxOf a ≤ regionIds.idxOf b) :
    l' = sortBy (fun i => regionIds.idxOf i) l := by
  have hperm : l'.Perm (sortBy (fun i => regionIds.idxOf i) l) :=
    ((List.perm_ext_iff_of_nodup hl' hl).2 fun x => (hmem x).symm).trans (sortBy_perm _ _).symm
  refine hperm.eq_of_pairwise ?_ hsorted (sortBy_pairwise_le _ _)
  intro a b ha _ hab hba
  exact (List.idxOf_inj (hsub ((hmem a).2 ha))).1 (le_antisymm hab hba)

/-- What the loop over the successors of a region has done to the counts and the ready regions. -/
private structure Released (regionIds : List RegionId) (counts : RegionId → ℕ) (ready : List RegionId)
    (state : (RegionId → ℕ) × List RegionId) : Prop where
  nodup : state.2.Nodup
  sorted : state.2.Pairwise fun a b => regionIds.idxOf a ≤ regionIds.idxOf b
  mem : ∀ x, x ∈ state.2 ↔ x ∈ ready ∨ counts x ≠ 0 ∧ state.1 x = 0
  le : ∀ x, state.1 x ≤ counts x

private theorem foldl_releaseRegion {ready : List RegionId} (following : List RegionId)
    (state : (RegionId → ℕ) × List RegionId) (hready : ∀ x ∈ ready, counts x = 0)
    (hcount : ∀ x, following.count x ≤ state.1 x) (h : Released regionIds counts ready state) :
    Released regionIds counts ready (following.foldl (releaseRegion fun i => regionIds.idxOf i) state) ∧
      ∀ x, (following.foldl (releaseRegion fun i => regionIds.idxOf i) state).1 x = state.1 x - following.count x := by
  induction following generalizing state with
  | nil => exact ⟨h, fun x => rfl⟩
  | cons f following ih =>
    have hf : 0 < state.1 f := by
      have hle := hcount f
      rw [List.count_cons_self] at hle
      omega
    have hcounts : ∀ x, (releaseRegion (fun i => regionIds.idxOf i) state f).1 x =
        state.1 x - if x = f then 1 else 0 := by
      intro x
      by_cases hx : x = f
      · subst hx
        simp [releaseRegion]
      · simp [releaseRegion, hx]
    have hnext : Released regionIds counts ready (releaseRegion (fun i => regionIds.idxOf i) state f) := by
      have hle : ∀ x, (releaseRegion (fun i => regionIds.idxOf i) state f).1 x ≤ counts x := fun x => by
        have hlex := h.le x
        rw [hcounts]
        omega
      by_cases hone : state.1 f = 1
      · -- the last predecessor is done: the region becomes ready
        have hnew : f ∉ state.2 := by
          rw [h.mem]
          rintro (hfr | ⟨-, hzero⟩)
          · have := hready f hfr
            have := h.le f
            omega
          · omega
        have hstate : (releaseRegion (fun i => regionIds.idxOf i) state f).2 =
            sortBy (fun i => regionIds.idxOf i) (state.2 ++ [f]) := by
          simp [releaseRegion, hone]
        refine ⟨?_, ?_, ?_, hle⟩
        · rw [hstate, (sortBy_perm _ _).nodup_iff]
          exact h.nodup.append (List.nodup_singleton f) (by simpa using hnew)
        · rw [hstate]
          exact sortBy_pairwise_le _ _
        · intro x
          rw [hstate, mem_sortBy, List.mem_append, List.mem_singleton, h.mem, hcounts]
          by_cases hx : x = f
          · subst hx
            have := h.le x
            simp only [or_true, if_true, true_iff]
            right
            omega
          · simp [hx]
      · -- other predecessors remain, and the ready regions stay as they are
        have hstate : (releaseRegion (fun i => regionIds.idxOf i) state f).2 = state.2 := by
          simp only [releaseRegion, Function.update_self]
          rw [if_neg (by omega)]
        refine ⟨hstate ▸ h.nodup, hstate ▸ h.sorted, ?_, hle⟩
        intro x
        rw [hstate, h.mem, hcounts]
        by_cases hx : x = f
        · subst hx
          simp only [if_true]
          constructor
          · rintro (hxr | ⟨-, hzero⟩)
            · exact Or.inl hxr
            · omega
          · rintro (hxr | ⟨-, hzero⟩)
            · exact Or.inl hxr
            · omega
        · simp [hx]
    have hcount' : ∀ x, following.count x ≤ (releaseRegion (fun i => regionIds.idxOf i) state f).1 x := by
      intro x
      have hle := hcount x
      rw [List.count_cons] at hle
      rw [hcounts]
      by_cases hx : x = f
      · subst hx
        simp only [beq_self_eq_true, if_true] at hle ⊢
        omega
      · have hfx : (f == x) = false := by simpa using fun h : f = x => hx h.symm
        simp only [hfx, hx, if_false] at hle ⊢
        simpa using hle
    obtain ⟨hrel, hval⟩ := ih _ hcount' hnext
    rw [List.foldl_cons]
    refine ⟨hrel, ?_⟩
    intro x
    rw [hval, hcounts, List.count_cons]
    by_cases hx : x = f
    · subst hx
      simp only [beq_self_eq_true, if_true]
      omega
    · have hfx : (f == x) = false := by simpa using fun h : f = x => hx h.symm
      simp [hfx, hx]

/-- One round of `_ordered_region_ids` places the first ready region and leaves the regions that may come next. -/
private theorem release_available {rest : List RegionId} (hn : regionIds.Nodup)
    (hedges : ∀ p ∈ edgePairs edges, p.1 ∈ regionIds ∧ p.2 ∈ regionIds)
    (hp : Admissible regionIds (edgePairs edges) order)
    (hready : sortBy (fun i => regionIds.idxOf i) (available regionIds (edgePairs edges) order) = i :: rest) :
    (sortBy (fun i => regionIds.idxOf i)
        ((edges.filter fun e => e.beforeRegionId = i).map (·.afterRegionId))).foldl
        (releaseRegion fun i => regionIds.idxOf i) (pending (edgePairs edges) order, rest) =
      (pending (edgePairs edges) (order ++ [i]),
        sortBy (fun i => regionIds.idxOf i) (available regionIds (edgePairs edges) (order ++ [i]))) := by
  have hmem : ∀ x, x ∈ i :: rest ↔ x ∈ available regionIds (edgePairs edges) order := fun x => by
    rw [← hready, mem_sortBy]
  have hnodup : (i :: rest).Nodup := by
    rw [← hready, (sortBy_perm _ _).nodup_iff]
    exact hn.filter _
  have hsorted : (i :: rest).Pairwise fun a b => regionIds.idxOf a ≤ regionIds.idxOf b := by
    rw [← hready]
    exact sortBy_pairwise_le _ _
  have hi := mem_available.1 ((hmem i).1 List.mem_cons_self)
  have hrest : ∀ x ∈ rest, pending (edgePairs edges) order x = 0 := fun x hx =>
    (mem_available.1 ((hmem x).1 (List.mem_cons_of_mem i hx))).2.2
  have hsum : ∀ x, pending (edgePairs edges) order x = pending (edgePairs edges) (order ++ [i]) x +
      (sortBy (fun i => regionIds.idxOf i)
        ((edges.filter fun e => e.beforeRegionId = i).map (·.afterRegionId))).count x := fun x => by
    rw [(sortBy_perm _ _).count_eq]
    exact pending_concat hi.2.1
  obtain ⟨hreleased, hcounts⟩ := foldl_releaseRegion _ (pending (edgePairs edges) order, rest) hrest
    (fun x => (Nat.le_add_left _ _).trans (hsum x).ge)
    ⟨hnodup.of_cons, hsorted.of_cons, fun x => by simp +contextual, fun x => le_rfl⟩
  have hfirst := funext fun x => (hcounts x).trans (Nat.sub_eq_of_eq_add (hsum x))
  refine Prod.ext hfirst (sortBy_idxOf_eq (hn.filter _) hreleased.nodup
    (fun _ hx => (mem_available.1 hx).1) ?_ hreleased.sorted)
  intro x
  rw [hreleased.mem, congrFun hfirst x, mem_available, List.mem_append, List.mem_singleton, not_or]
  have hx := hsum x
  constructor
  · rintro ⟨hxn, ⟨hxo, hxi⟩, hzero⟩
    by_cases hpending : pending (edgePairs edges) order x = 0
    · have hxr := (hmem x).2 (mem_available.2 ⟨hxn, hxo, hpending⟩)
      exact Or.inl ((List.mem_cons.1 hxr).resolve_left hxi)
    · exact Or.inr ⟨hpending, hzero⟩
  · rintro (hxr | ⟨hpending, hzero⟩)
    · obtain ⟨hxn, hxo, hzero⟩ := mem_available.1 ((hmem x).1 (List.mem_cons_of_mem i hxr))
      have hxi : x ≠ i := fun h => (List.nodup_cons.1 hnodup).1 (h ▸ hxr)
      exact ⟨hxn, ⟨hxo, hxi⟩, by omega⟩
    · have hxo : x ∉ order := fun h => hpending (hp.pending_eq_zero h)
      have hxi : x ≠ i := fun h => hpending (h ▸ hi.2.2)
      refine ⟨?_, ⟨hxo, hxi⟩, hzero⟩
      -- some edge ends in the region
      by_contra hxn
      refine hpending (pending_eq_zero_iff.2 ?_)
      intro p hpmem hpx
      exact absurd (hpx ▸ (hedges p hpmem).2) hxn

/-- The loop of `_ordered_region_ids` computes the greedy order. -/
theorem orderRegions_eq {n : ℕ} (hn : regionIds.Nodup)
    (hedges : ∀ p ∈ edgePairs edges, p.1 ∈ regionIds ∧ p.2 ∈ regionIds)
    (hp : Admissible regionIds (edgePairs edges) order) :
    order ++ orderRegions (fun i => regionIds.idxOf i)
        (fun i => (edges.filter fun e => e.beforeRegionId = i).map (·.afterRegionId)) n
        (pending (edgePairs edges) order)
        (sortBy (fun i => regionIds.idxOf i) (available regionIds (edgePairs edges) order)) =
      greedyOrder (fun i => regionIds.idxOf i) regionIds (edgePairs edges) n order := by
  induction n generalizing order with
  | zero => simp [orderRegions, greedyOrder]
  | succ n ih =>
    unfold greedyOrder
    cases hready : sortBy (fun i => regionIds.idxOf i) (available regionIds (edgePairs edges) order) with
    | nil => simp [orderRegions]
    | cons i rest =>
      have hi : i ∈ sortBy (fun i => regionIds.idxOf i) (available regionIds (edgePairs edges) order) := by
        simp [hready]
      have hstep := ih (admissible_concat.2 ⟨hp, mem_sortBy.1 hi⟩)
      unfold orderRegions
      simp only [release_available hn hedges hp hready]
      rw [← hstep, List.append_assoc, List.singleton_append]

end Orders

/-! ### The two orderings agree -/

section Agreement

variable {regions : List LayoutRegion} {edges : List ReadingOrderEdge}

/-- What the two searches are given: regions with different ids, and edges between them. -/
structure OrderInput (regions : List LayoutRegion) (edges : List ReadingOrderEdge) : Prop where
  nodup : (regions.map (·.regionId)).Nodup
  edges_mem : ∀ e ∈ edges, e.beforeRegionId ∈ regions.map (·.regionId) ∧ e.afterRegionId ∈ regions.map (·.regionId)

private theorem OrderInput.pairs_mem (h : OrderInput regions edges) :
    ∀ p ∈ edgePairs edges, p.1 ∈ regions.map (·.regionId) ∧ p.2 ∈ regions.map (·.regionId) := by
  intro p hp
  obtain ⟨e, he, rfl⟩ := List.mem_map.1 hp
  exact h.edges_mem e he

/-- The order before the check of its length. -/
private def firstOrder (regions : List LayoutRegion) (edges : List ReadingOrderEdge) : List RegionId :=
  greedyOrder (fun i => (regions.map (·.regionId)).idxOf i) (regions.map (·.regionId)) (edgePairs edges)
    (regions.map (·.regionId)).length []

private theorem orderedRegionIds_eq (h : OrderInput regions edges) :
    orderedRegionIds regions edges =
      if (firstOrder regions edges).length = regions.length then .ok (firstOrder regions edges)
      else .error (.valueError "READING_ORDER_CYCLE") := by
  have hcounts : pending (edgePairs edges) [] = fun x => (edges.filter fun e => e.afterRegionId = x).length :=
    funext fun x => pending_nil
  have havailable : available (regions.map (·.regionId)) (edgePairs edges) [] =
      (regions.map (·.regionId)).filter fun i => (edges.filter fun e => e.afterRegionId = i).length = 0 := by
    refine List.filter_congr fun i _ => ?_
    simp [hcounts]
  have hloop := @orderRegions_eq (regions.map (·.regionId)) edges [] regions.length h.nodup h.pairs_mem
    admissible_nil
  rw [List.nil_append, hcounts, havailable] at hloop
  have hfirst : firstOrder regions edges = greedyOrder (fun i => (regions.map (·.regionId)).idxOf i)
      (regions.map (·.regionId)) (edgePairs edges) regions.length [] := by
    rw [firstOrder, List.length_map]
  rw [hfirst, ← hloop]
  unfold orderedRegionIds
  split
  · next hlen => simp only [raiseIf, hlen, ne_eq, not_true_eq_false, if_false]; rfl
  · next hlen => simp only [raiseIf, hlen, ne_eq, not_false_eq_true, if_true]; rfl

/-- The linear extensions in the order of the search. -/
private def allOrders (layout : LayoutFields) : List (List RegionId) :=
  completions (fun i => (layout.regions.map (·.regionId)).idxOf i) (layout.regions.map (·.regionId))
    (edgePairs layout.orderEdges) (layout.regions.map (·.regionId)).length []

private theorem boundedTopologicalOrders_eq (layout : LayoutFields) (limit : ℕ) :
    boundedTopologicalOrders layout limit =
      if (allOrders layout).take limit = [] then .error (.valueError "READING_ORDER_CYCLE")
      else .ok ((allOrders layout).take limit) := by
  have hcounts : pending (edgePairs layout.orderEdges) [] =
      fun x => (layout.orderEdges.filter fun e => e.afterRegionId = x).length := funext fun x => pending_nil
  have hvisit := @visitOrders_eq (layout.regions.map (·.regionId)) layout.orderEdges [] limit
    (layout.regions.map (·.regionId)).length [] (Nat.zero_add _)
  rw [hcounts, List.nil_append, List.length_nil, Nat.sub_zero, ← allOrders] at hvisit
  simp only [boundedTopologicalOrders, hvisit, raiseIf]
  split
  · rfl
  · rfl

/-- The reading order is refused exactly when the edges have a cycle, and the search is refused then or when nothing is
asked for.  Otherwise the search returns different linear extensions, as many as there are up to the limit, and the
first of them is the reading order. -/
theorem boundedTopologicalOrders_agree {layout : LayoutFields} (h : OrderInput layout.regions layout.orderEdges)
    (limit : ℕ) :
    (orderedRegionIds layout.regions layout.orderEdges = .error (.valueError "READING_ORDER_CYCLE") ↔
      Cyclic (edgePairs layout.orderEdges)) ∧
    (boundedTopologicalOrders layout limit = .error (.valueError "READING_ORDER_CYCLE") ↔
      Cyclic (edgePairs layout.orderEdges) ∨ limit = 0) ∧
    (¬ Cyclic (edgePairs layout.orderEdges) → limit ≠ 0 → ∃ orders first,
      boundedTopologicalOrders layout limit = .ok orders ∧
      orders.length = min limit
        {o | IsLinearExtension (layout.regions.map (·.regionId)) (edgePairs layout.orderEdges) o}.ncard ∧
      orders.Nodup ∧
      (∀ o ∈ orders, IsLinearExtension (layout.regions.map (·.regionId)) (edgePairs layout.orderEdges) o) ∧
      orderedRegionIds layout.regions layout.orderEdges = .ok first ∧ orders.head? = some first) := by
  have hlength : (firstOrder layout.regions layout.orderEdges).length = layout.regions.length ↔
      ¬ Cyclic (edgePairs layout.orderEdges) := by
    have hiff : (firstOrder layout.regions layout.orderEdges).length = (layout.regions.map (·.regionId)).length ↔
      ¬ Cyclic (edgePairs layout.orderEdges) := length_greedyOrder_eq_iff h.nodup h.pairs_mem
    rwa [List.length_map] at hiff
  have hnil : allOrders layout = [] ↔ Cyclic (edgePairs layout.orderEdges) :=
    completions_eq_nil_iff h.nodup h.pairs_mem
  have hempty : (allOrders layout).take limit = [] ↔ Cyclic (edgePairs layout.orderEdges) ∨ limit = 0 := by
    rw [List.take_eq_nil_iff, hnil, or_comm]
  rw [orderedRegionIds_eq h, boundedTopologicalOrders_eq]
  refine ⟨?_, ?_, ?_⟩
  · rw [← not_iff_not, ← hlength]
    split
    · next hlen => simp [hlen]
    · next hlen => simp [hlen]
  · rw [← hempty]
    split
    · next htake => simp [htake]
    · next htake => simp [htake]
  · intro hacyclic hlimit
    have hlen := hlength.2 hacyclic
    refine ⟨(allOrders layout).take limit, firstOrder layout.regions layout.orderEdges,
      if_neg fun htake => (hempty.1 htake).elim hacyclic hlimit, ?_, ?_, ?_, if_pos hlen, ?_⟩
    · rw [List.length_take, ncard_linearExtensions _ h.nodup h.pairs_mem, allOrders]
    · exact (nodup_completions h.nodup).sublist (List.take_sublist _ _)
    · exact fun o ho => (mem_completions_nil h.nodup h.pairs_mem).1 (List.mem_of_mem_take ho)
    · rw [List.head?_take, if_neg hlimit]
      exact head?_completions (by rw [← firstOrder, hlen, List.length_nil, List.length_map, Nat.zero_add])

end Agreement

/-! ### Two regions -/

def orderedRegion (i : RegionId) : LayoutRegion :=
  ⟨i, 1, SourceBox.page, [⟨0⟩], [⟨0⟩], [⟨0⟩], 0, none, false, Nat.one_pos, Identifier.first_ne_nil,
    Identifier.first_ne_nil, Identifier.first_ne_nil⟩

/-- Two regions with the given edges. -/
def twoRegions (edges : List ReadingOrderEdge) : LayoutFields where
  sourceHash := sha256 []
  pageCount := 1
  lines := []
  regions := [orderedRegion ⟨0⟩, orderedRegion ⟨1⟩]
  orderEdges := edges

/-- Two regions in any order, and a third one after both. -/
def joinedRegions : LayoutFields :=
  { twoRegions [⟨⟨0⟩, ⟨2⟩, .sameColumn⟩, ⟨⟨1⟩, ⟨2⟩, .sameColumn⟩] with
    regions := [orderedRegion ⟨0⟩, orderedRegion ⟨1⟩, orderedRegion ⟨2⟩] }

theorem boundedTopologicalOrders_agree_free :
    ((orderedRegionIds joinedRegions.regions joinedRegions.orderEdges = .error (.valueError "READING_ORDER_CYCLE") ↔
        Cyclic (edgePairs joinedRegions.orderEdges)) ∧
      (boundedTopologicalOrders joinedRegions 5 = .error (.valueError "READING_ORDER_CYCLE") ↔
        Cyclic (edgePairs joinedRegions.orderEdges) ∨ 5 = 0) ∧
      (¬ Cyclic (edgePairs joinedRegions.orderEdges) → 5 ≠ 0 → ∃ orders first,
        boundedTopologicalOrders joinedRegions 5 = .ok orders ∧
        orders.length = min 5 {o | IsLinearExtension (joinedRegions.regions.map (·.regionId))
          (edgePairs joinedRegions.orderEdges) o}.ncard ∧
        orders.Nodup ∧
        (∀ o ∈ orders, IsLinearExtension (joinedRegions.regions.map (·.regionId))
          (edgePairs joinedRegions.orderEdges) o) ∧
        orderedRegionIds joinedRegions.regions joinedRegions.orderEdges = .ok first ∧ orders.head? = some first)) ∧
      boundedTopologicalOrders joinedRegions 5 = .ok [[⟨0⟩, ⟨1⟩, ⟨2⟩], [⟨1⟩, ⟨0⟩, ⟨2⟩]] :=
  ⟨boundedTopologicalOrders_agree ⟨by decide, by decide⟩ 5, rfl⟩

/-- With the limit zero, and with a cycle, the search raises instead of returning no order. -/
theorem no_order_raises :
    (OrderInput (twoRegions []).regions (twoRegions []).orderEdges ∧
      ¬ ∃ orders, boundedTopologicalOrders (twoRegions []) 0 = .ok orders ∧
        orders.length = min 0 {o | IsLinearExtension ((twoRegions []).regions.map (·.regionId))
          (edgePairs (twoRegions []).orderEdges) o}.ncard) ∧
    boundedTopologicalOrders (twoRegions [⟨⟨0⟩, ⟨1⟩, .sameColumn⟩, ⟨⟨1⟩, ⟨0⟩, .sameColumn⟩]) 5 =
      .error (.valueError "READING_ORDER_CYCLE") := by
  have hzero : boundedTopologicalOrders (twoRegions []) 0 = .error (.valueError "READING_ORDER_CYCLE") := rfl
  refine ⟨⟨⟨by decide, by decide⟩, ?_⟩, rfl⟩
  rintro ⟨orders, horders, -⟩
  rw [hzero] at horders
  cases horders

end ArdOssie
