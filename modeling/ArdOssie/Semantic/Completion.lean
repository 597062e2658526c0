import ArdOssie.Semantic.Degradation

/-!
# The completed document

The last stage orders the blocks of the document together with the blocks of the recorded plan that did not become
blocks.  It looks every span of these up, so it fails exactly when the plan names a span that the document does not
have; a plan that was validated never does, a recorded plan that was rejected may.
-/

namespace ArdOssie

variable {platform : Platform} {native : NativeDocument}

/-! ### The order of the entries -/

section Entries

variable {blocks : List SemanticBlock} {planBlocks : List RepairBlock} {paired : List (ℕ × ℕ)}

/-- Every block is paired with at most one plan block. -/
structure PairsSound (blocks : List SemanticBlock) (paired : List (ℕ × ℕ)) : Prop where
  nodup : (paired.map Prod.snd).Nodup
  bounds : ∀ p ∈ paired, p.2 < blocks.length

private theorem PairsSound.step (h : PairsSound blocks paired) (appliedOrders : List ℕ) (entry : RepairBlock × ℕ) :
    PairsSound blocks (pairPlanBlock blocks appliedOrders paired entry) := by
  unfold pairPlanBlock
  dsimp only
  split
  · exact h
  split
  · rename_i index hfind
    have hfree := List.find?_some hfind
    have hmem := List.mem_of_find?_eq_some hfind
    rw [decide_eq_true_eq] at hfree
    refine ⟨?_, fun p hp => ?_⟩
    · rw [List.map_append, List.nodup_append]
      refine ⟨h.nodup, by simp, ?_⟩
      rintro i hi _ hj rfl
      obtain rfl : i = index := by simpa using hj
      exact hfree.1 hi
    · rcases List.mem_append.1 hp with hp | hp
      · exact h.bounds p hp
      · obtain rfl := List.mem_singleton.1 hp
        exact (List.getElem?_eq_some_iff.1 (List.mem_zipIdx_iff_getElem?.1 hmem)).1
  · exact h

/-- The pairing loop keeps the pairs sound. -/
theorem pairedPlan_sound (blocks : List SemanticBlock) (record : RepairRecordFields) :
    PairsSound blocks (pairedPlan blocks record) := by
  unfold pairedPlan
  split
  · exact ⟨by simp, by simp⟩
  · rename_i plan _
    have hrun : ∀ (entries : List (RepairBlock × ℕ)) (paired : List (ℕ × ℕ)), PairsSound blocks paired →
        PairsSound blocks (entries.foldl (pairPlanBlock blocks record.appliedOrders) paired) := by
      intro entries
      induction entries with
      | nil => exact fun paired h => h
      | cons entry entries ih => exact fun paired h => ih _ (h.step _ _)
    exact hrun _ _ ⟨by simp, by simp⟩

/-- Without applied orders nothing is paired. -/
theorem pairedPlan_nil {record : RepairRecordFields} (h : record.appliedOrders = []) :
    pairedPlan blocks record = [] := by
  unfold pairedPlan
  split
  · rfl
  · rename_i plan _
    have hrun : ∀ entries : List (RepairBlock × ℕ),
        entries.foldl (pairPlanBlock blocks record.appliedOrders) [] = [] := by
      intro entries
      induction entries with
      | nil => rfl
      | cons entry entries ih =>
        rw [List.foldl_cons]
        simpa [pairPlanBlock, h] using ih
    exact hrun _

/-- Plan blocks have different entries. -/
theorem PairsSound.planEntry_inj (h : PairsSound blocks paired) {i j : ℕ}
    (hij : planEntry paired i = planEntry paired j) : i = j := by
  unfold planEntry at hij
  cases hi : paired.find? fun p => p.1 = i with
  | none =>
    cases hj : paired.find? fun p => p.1 = j with
    | none =>
      rw [hi, hj] at hij
      exact FinalEntry.plan.inj hij
    | some q =>
      rw [hi, hj] at hij
      cases hij
  | some p =>
    cases hj : paired.find? fun p => p.1 = j with
    | none =>
      rw [hi, hj] at hij
      cases hij
    | some q =>
      rw [hi, hj] at hij
      have hpq : p = q := List.inj_on_of_nodup_map h.nodup (List.mem_of_find?_eq_some hi)
        (List.mem_of_find?_eq_some hj) (FinalEntry.final.inj hij)
      have hpi : p.1 = i := by simpa using List.find?_some hi
      have hqj : q.1 = j := by simpa using List.find?_some hj
      exact hpi.symm.trans ((congrArg Prod.fst hpq).trans hqj)

/-- The entries before they are sorted. -/
def finalEntries (blocks : List SemanticBlock) (planBlocks : List RepairBlock) (paired : List (ℕ × ℕ)) :
    List FinalEntry :=
  (List.range blocks.length).map FinalEntry.final ++
    ((List.range planBlocks.length).filter fun index => decide (index ∉ paired.map Prod.fst)).map FinalEntry.plan

private theorem final_mem {index : ℕ} (h : index < blocks.length) :
    FinalEntry.final index ∈ finalEntries blocks planBlocks paired :=
  List.mem_append_left _ (List.mem_map.2 ⟨index, List.mem_range.2 h, rfl⟩)

/-- The entry of a plan block is among the entries. -/
theorem PairsSound.planEntry_mem (h : PairsSound blocks paired) {index : ℕ} (hindex : index < planBlocks.length) :
    planEntry paired index ∈ finalEntries blocks planBlocks paired := by
  unfold planEntry
  cases hfind : paired.find? fun p => p.1 = index with
  | some p => exact final_mem (h.bounds p (List.mem_of_find?_eq_some hfind))
  | none =>
    refine List.mem_append_right _ (List.mem_map.2 ⟨index, ?_, rfl⟩)
    rw [List.mem_filter, List.mem_range, decide_eq_true_eq]
    refine ⟨hindex, fun hmem => ?_⟩
    obtain ⟨p, hp, rfl⟩ := List.mem_map.1 hmem
    exact List.find?_eq_none.1 hfind p hp (by simp)

private theorem firstOrdinal_total {ids : List SpanId} {default : ℕ} (h : ∀ i ∈ ids, i ∈ native.spanIds) :
    ∃ ordinal, firstOrdinal native ids default = .ok ordinal := by
  obtain ⟨spans, hspans, -⟩ := NativeDocument.getItems_total h
  exact ⟨_, bind_eq_ok.2 ⟨spans, hspans, rfl⟩⟩

private theorem firstOrdinal_unknown {ids : List SpanId} {default : ℕ} (h : ∃ i ∈ ids, i ∉ native.spanIds) :
    firstOrdinal native ids default = .error .keyError := by
  have hitems : ids.mapM (Dict.getItem native.spanCatalog) = .error .keyError := by
    refine mapM_eq_error (fun i _ => ?_) ?_
    · unfold Dict.getItem
      cases native.spanCatalog.lookup i with
      | none => exact Or.inr rfl
      | some s => exact Or.inl ⟨s, rfl⟩
    · obtain ⟨i, hi, hunknown⟩ := h
      refine ⟨i, hi, ?_⟩
      unfold Dict.getItem
      rw [NativeDocument.lookup_spanCatalog_eq_none hunknown]
  unfold firstOrdinal
  rw [hitems]
  rfl

private theorem entrySourceKey_final (planBlocks : List RepairBlock)
    (hknown : ∀ i ∈ blockSpanIds blocks, i ∈ native.spanIds) {index : ℕ}
    (hindex : index < blocks.length) : ∃ key, entrySourceKey native blocks planBlocks (.final index) = .ok key := by
  have hids : ∀ i ∈ blocks[index].spanIds, i ∈ native.spanIds := fun i hi =>
    hknown i (List.mem_flatMap.2 ⟨_, List.getElem_mem hindex, hi⟩)
  obtain ⟨ordinal, h⟩ := firstOrdinal_total hids
  simp only [entrySourceKey, List.getElem?_eq_getElem hindex]
  exact ⟨_, bind_eq_ok.2 ⟨ordinal, h, rfl⟩⟩

private theorem entrySourceKey_plan (blocks : List SemanticBlock) {index : ℕ} (hindex : index < planBlocks.length)
    (hknown : ∀ i ∈ planBlocks[index].allocations, i ∈ native.spanIds) :
    ∃ key, entrySourceKey native blocks planBlocks (.plan index) = .ok key := by
  obtain ⟨ordinal, h⟩ := firstOrdinal_total hknown
  simp only [entrySourceKey, List.getElem?_eq_getElem hindex]
  exact ⟨_, bind_eq_ok.2 ⟨ordinal, h, rfl⟩⟩

private theorem entrySourceKey_unknown {index : ℕ} (hindex : index < planBlocks.length)
    (h : ∃ i ∈ planBlocks[index].allocations, i ∉ native.spanIds) :
    entrySourceKey native blocks planBlocks (.plan index) = .error .keyError := by
  simp only [entrySourceKey, List.getElem?_eq_getElem hindex, firstOrdinal_unknown h]
  rfl

/-- With known spans the entries can be sorted. -/
theorem orderedEntries_total (hblocks : ∀ i ∈ blockSpanIds blocks, i ∈ native.spanIds)
    (hplan : ∀ i ∈ planAllocations planBlocks, i ∈ native.spanIds) :
    ∃ ordered, orderedEntries native blocks planBlocks paired = .ok ordered ∧
      ordered.Perm (finalEntries blocks planBlocks paired) := by
  have hkeys : ∀ entry ∈ finalEntries blocks planBlocks paired, ∃ key,
      entrySourceKey native blocks planBlocks entry = .ok key := by
    intro entry hentry
    rcases List.mem_append.1 hentry with hentry | hentry
    · obtain ⟨index, hindex, rfl⟩ := List.mem_map.1 hentry
      exact entrySourceKey_final planBlocks hblocks (List.mem_range.1 hindex)
    · obtain ⟨index, hindex, rfl⟩ := List.mem_map.1 hentry
      have hlt := List.mem_range.1 (List.mem_filter.1 hindex).1
      refine entrySourceKey_plan blocks hlt fun i hi => hplan i ?_
      exact List.mem_flatMap.2 ⟨_, List.getElem_mem hlt, hi⟩
  have hkeyed : ∃ keyed, ((finalEntries blocks planBlocks paired).mapM fun entry => do
      return (← entrySourceKey native blocks planBlocks entry, entry) : PyResult _) = .ok keyed := by
    refine mapM_total fun entry hentry => ?_
    obtain ⟨key, hkey⟩ := hkeys entry hentry
    exact ⟨(key, entry), bind_eq_ok.2 ⟨key, hkey, rfl⟩⟩
  obtain ⟨keyed, hkeyed⟩ := hkeyed
  have hsnd : keyed.map Prod.snd = finalEntries blocks planBlocks paired := by
    have hall := mapM_eq_ok.1 hkeyed
    clear hkeyed hkeys
    generalize finalEntries blocks planBlocks paired = entries at hall ⊢
    induction hall with
    | nil => rfl
    | @cons entry p _ _ h _ ih =>
      obtain ⟨key, -, h⟩ := bind_eq_ok.1 h
      cases pure_eq_ok.1 h
      rw [List.map_cons, ih]
  refine ⟨_, bind_eq_ok.2 ⟨keyed, hkeyed, rfl⟩, ?_⟩
  rw [← hsnd]
  exact (sortBy_perm _ _).map _

/-- An unknown span of an unpaired plan block cannot be looked up. -/
theorem orderedEntries_unknown (hblocks : ∀ i ∈ blockSpanIds blocks, i ∈ native.spanIds)
    (hplan : ∃ i ∈ planAllocations planBlocks, i ∉ native.spanIds) :
    orderedEntries native blocks planBlocks [] = .error .keyError := by
  have hkeyed : ((finalEntries blocks planBlocks []).mapM fun entry => do
      return (← entrySourceKey native blocks planBlocks entry, entry) : PyResult _) = .error .keyError := by
    refine mapM_eq_error (fun entry hentry => ?_) ?_
    · rcases List.mem_append.1 hentry with hentry | hentry
      · obtain ⟨index, hindex, rfl⟩ := List.mem_map.1 hentry
        obtain ⟨key, hkey⟩ := entrySourceKey_final planBlocks hblocks (List.mem_range.1 hindex)
        exact Or.inl ⟨_, bind_eq_ok.2 ⟨key, hkey, rfl⟩⟩
      · obtain ⟨index, hindex, rfl⟩ := List.mem_map.1 hentry
        have hlt := List.mem_range.1 (List.mem_filter.1 hindex).1
        by_cases hknown : ∀ i ∈ planBlocks[index].allocations, i ∈ native.spanIds
        · obtain ⟨key, hkey⟩ := entrySourceKey_plan blocks hlt hknown
          exact Or.inl ⟨_, bind_eq_ok.2 ⟨key, hkey, rfl⟩⟩
        · push Not at hknown
          rw [entrySourceKey_unknown hlt hknown]
          exact Or.inr rfl
    · obtain ⟨i, hi, hunknown⟩ := hplan
      obtain ⟨b, hb, hi⟩ := List.mem_flatMap.1 hi
      obtain ⟨index, hlt, rfl⟩ := List.getElem_of_mem hb
      refine ⟨.plan index, List.mem_append_right _ (List.mem_map.2 ⟨index, by simpa using hlt, rfl⟩), ?_⟩
      rw [entrySourceKey_unknown hlt ⟨i, hi, hunknown⟩]
      rfl
  unfold orderedEntries
  dsimp only
  exact (congrArg (· >>= _) hkeyed).trans rfl

end Entries

/-! ### The document and its record -/

section Completed

variable {blocks : List SemanticBlock} {excluded : List ExcludedSpan} {ordered : List FinalEntry}

private theorem zipIdx_flatMap (blocks : List SemanticBlock) :
    (blocks.zipIdx.flatMap fun p => p.1.spanIds) = blockSpanIds blocks := by
  rw [blockSpanIds]
  conv_rhs => rw [← List.zipIdx_map_fst 0 blocks, List.flatMap_map]

/-- The document with the blocks in the order of the entries. -/
theorem normalized_total (hfinal : ∀ index < blocks.length, FinalEntry.final index ∈ ordered)
    (hnodup : (blockSpanIds blocks ++ excluded.map (·.spanId)).Nodup) :
    ∃ document, ReconciledDocument.make ((sortBy Prod.snd (blocks.zipIdx.map fun (block, index) =>
        (block, ordered.idxOf (FinalEntry.final index)))).map fun (block, order) => block.withOrder order) excluded =
          .ok document ∧
      (blockSpanIds document.blocks).Perm (blockSpanIds blocks) ∧ document.excludedSpans = excluded := by
  set numbered := blocks.zipIdx.map fun (block, index) => (block, ordered.idxOf (FinalEntry.final index))
    with hnumbered
  set normalized := (sortBy Prod.snd numbered).map fun (block, order) => block.withOrder order with hnormalized
  have hids : (blockSpanIds normalized).Perm (blockSpanIds blocks) := by
    have hsorted : blockSpanIds normalized = (sortBy Prod.snd numbered).flatMap fun p => p.1.spanIds := by
      rw [hnormalized, blockSpanIds, List.flatMap_map]
      exact List.flatMap_congr fun p _ => SemanticBlock.spanIds_withOrder _ _
    rw [hsorted, ← zipIdx_flatMap]
    refine ((sortBy_perm _ _).flatMap_right _).trans ?_
    rw [hnumbered, List.flatMap_map]
  have horders : (normalized.map (·.order)).Nodup := by
    have hmap : normalized.map (·.order) = (sortBy Prod.snd numbered).map Prod.snd := by
      rw [hnormalized, List.map_map]
      exact List.map_congr_left fun p _ => SemanticBlock.order_withOrder _ _
    rw [hmap, nodup_map_sortBy, hnumbered, List.map_map]
    have hindex : blocks.zipIdx.Pairwise fun p q => p.2 ≠ q.2 := by
      have h : (blocks.zipIdx.map Prod.snd).Nodup := by
        rw [List.zipIdx_map_snd]
        exact List.nodup_range'
      exact List.pairwise_map.1 h
    refine List.pairwise_map.2 (hindex.imp_of_mem fun {p q} hp _ hpq heq => hpq ?_)
    have hlt : p.2 < blocks.length := (List.getElem?_eq_some_iff.1 (List.mem_zipIdx_iff_getElem?.1 hp)).1
    exact FinalEntry.final.inj ((List.idxOf_inj (hfinal p.2 hlt)).1 heq)
  have hall : (blockSpanIds normalized ++ excluded.map (·.spanId)).Nodup :=
    (hids.append_right _).nodup_iff.2 hnodup
  obtain ⟨hblocks, hexcluded, hdisjoint⟩ := List.nodup_append.1 hall
  have hfree : ∀ i ∈ blockSpanIds normalized, i ∉ excluded.map (·.spanId) := fun i hi hmem => hdisjoint i hi i hmem rfl
  refine ⟨⟨normalized, excluded, horders, hexcluded, hblocks, hfree⟩, ?_, hids, rfl⟩
  unfold ReconciledDocument.make
  rw [dif_pos horders, dif_pos hexcluded, dif_pos hblocks, dif_pos hfree]
  rfl

/-- The record can be renumbered. -/
theorem remapRecord_total {record : RepairRecord platform} {plan : RepairPlan} {paired : List (ℕ × ℕ)}
    (hplan : record.plan = some plan) (horders : record.OrdersKnown) (hpairs : PairsSound blocks paired)
    (hentries : ∀ index < plan.blocks.length, planEntry paired index ∈ ordered) :
    ∃ updated, remapRecord platform record plan paired ordered = .ok updated := by
  set remapped := plan.blocks.zipIdx.map fun p =>
    (p.1.order, ({ p.1 with order := ordered.idxOf (planEntry paired p.2) } : RepairBlock)) with hremapped
  -- different plan blocks get different orders
  have hdistinct : (remapped.map fun p => p.2.order).Nodup := by
    rw [hremapped, List.map_map]
    have hindex : plan.blocks.zipIdx.Pairwise fun p q => p.2 ≠ q.2 := by
      have h : (plan.blocks.zipIdx.map Prod.snd).Nodup := by
        rw [List.zipIdx_map_snd]
        exact List.nodup_range'
      exact List.pairwise_map.1 h
    refine List.pairwise_map.2 (hindex.imp_of_mem fun {p q} hp _ hpq heq => hpq ?_)
    have hlt : p.2 < plan.blocks.length := (List.getElem?_eq_some_iff.1 (List.mem_zipIdx_iff_getElem?.1 hp)).1
    exact hpairs.planEntry_inj ((List.idxOf_inj (hentries p.2 hlt)).1 heq)
  set planOrderByOld := Dict.ofList (remapped.map fun p => (p.1, p.2.order)) with hdict
  have hinj : ∀ {m n k : ℕ}, planOrderByOld.lookup m = some k → planOrderByOld.lookup n = some k → m = n := by
    intro m n k hm hn
    obtain ⟨p, hp, hpk⟩ := List.mem_map.1 (Dict.mem_of_lookup_ofList hm)
    obtain ⟨q, hq, hqk⟩ := List.mem_map.1 (Dict.mem_of_lookup_ofList hn)
    obtain ⟨hpm, hpk⟩ : p.1 = m ∧ p.2.order = k := Prod.mk.inj hpk
    obtain ⟨hqn, hqk⟩ : q.1 = n ∧ q.2.order = k := Prod.mk.inj hqk
    have hpq : p = q := List.inj_on_of_nodup_map hdistinct hp hq (hpk.trans hqk.symm)
    rw [← hpm, ← hqn, hpq]
  have hlookup : ∀ orders : List ℕ, (∀ n ∈ orders, n ∈ plan.blocks.map (·.order)) →
      ∃ orders', orders.mapM (Dict.getItem planOrderByOld) = .ok orders' := by
    intro orders hknown
    refine mapM_total fun n hn => ?_
    have hkey : n ∈ (remapped.map fun p => (p.1, p.2.order)).map Prod.fst := by
      have hkeys : (remapped.map fun p => (p.1, p.2.order)).map Prod.fst = plan.blocks.map (·.order) := by
        rw [hremapped, List.map_map, List.map_map]
        conv_rhs => rw [← List.zipIdx_map_fst 0 plan.blocks, List.map_map]
        rfl
      rw [hkeys]
      exact hknown n hn
    obtain ⟨k, hk⟩ := Dict.exists_lookup_ofList hkey
    exact ⟨k, Dict.getItem_eq_ok.2 hk⟩
  have hinj' : ∀ m n k, Dict.getItem planOrderByOld m = .ok k → Dict.getItem planOrderByOld n = .ok k → m = n :=
    fun m n k hm hn => hinj (Dict.getItem_eq_ok.1 hm) (Dict.getItem_eq_ok.1 hn)
  -- the plan with the new orders is valid
  have hvalid : ∀ b ∈ sortBy (·.order) (remapped.map Prod.snd), b.validateStructure = .ok () := by
    intro b hb
    obtain ⟨p, hp, rfl⟩ := List.mem_map.1 (mem_sortBy.1 hb)
    obtain ⟨⟨b, index⟩, hmem, rfl⟩ := List.mem_map.1 hp
    exact plan.blocks_valid b (List.fst_mem_of_mem_zipIdx hmem)
  have hallocations : (planAllocations (sortBy (·.order) (remapped.map Prod.snd))).Nodup := by
    have hperm : (planAllocations (sortBy (·.order) (remapped.map Prod.snd))).Perm (planAllocations plan.blocks) := by
      refine ((sortBy_perm _ _).flatMap_right _).trans (List.Perm.of_eq ?_)
      rw [hremapped, List.map_map, List.flatMap_map, planAllocations]
      conv_rhs => rw [← List.zipIdx_map_fst 0 plan.blocks, List.flatMap_map]
      rfl
    exact hperm.nodup_iff.2 plan.allocations_nodup
  obtain ⟨applied, happlied⟩ := hlookup record.appliedOrders fun n hn => horders plan hplan n (Or.inl hn)
  obtain ⟨rejected, hrejected⟩ := hlookup record.rejectedOrders fun n hn => horders plan hplan n (Or.inr hn)
  have hfields : RepairRecordFields.Valid platform { record.toRepairRecordFields with
      plan := some ⟨_, hvalid, hallocations⟩
      appliedOrders := sortBy id applied
      rejectedOrders := sortBy id rejected
      planHash := some (RepairPlan.hash platform ⟨_, hvalid, hallocations⟩) } := by
    refine ⟨?_, ?_, ?_, fun _ => ⟨rfl, rfl⟩, ?_⟩
    · exact (sortBy_perm id applied).nodup_iff.2 (nodup_of_mapM_eq_ok hinj' happlied record.valid.applied_nodup)
    · exact (sortBy_perm id rejected).nodup_iff.2 (nodup_of_mapM_eq_ok hinj' hrejected record.valid.rejected_nodup)
    · intro k hk hk'
      obtain ⟨m, hm, hmk⟩ := mem_of_mapM_eq_ok happlied (mem_sortBy.1 hk)
      obtain ⟨n, hn, hnk⟩ := mem_of_mapM_eq_ok hrejected (mem_sortBy.1 hk')
      exact record.valid.orders_disjoint m hm (hinj' m n k hmk hnk ▸ hn)
    · rintro _ ⟨⟩
      exact ⟨_, rfl, rfl⟩
  refine ⟨⟨_, hfields⟩, ?_⟩
  unfold remapRecord
  dsimp only
  rw [← hremapped, ← hdict, happlied, hrejected]
  refine bind_eq_ok.2 ⟨⟨_, hvalid, hallocations⟩, ?_, ?_⟩
  · unfold RepairPlan.validate
    rw [dif_pos hvalid, dif_pos hallocations]
    rfl
  · exact RepairRecord.make_of_valid hfields

private theorem finalEntries_mem {planBlocks : List RepairBlock} {paired : List (ℕ × ℕ)}
    (hordered : ordered.Perm (finalEntries blocks planBlocks paired)) :
    ∀ index < blocks.length, FinalEntry.final index ∈ ordered := fun _ hindex => hordered.mem_iff.2 (final_mem hindex)

/-- With a plan of known spans the document is completed. -/
theorem completedDocumentAndRepair_total {record : Option (RepairRecord platform)}
    (hperm : (blockSpanIds blocks ++ excluded.map (·.spanId)).Perm native.spanIds)
    (hsound : ∀ r ∈ record, RecordSound platform native r)
    (hknown : ∀ r ∈ record, ∀ plan ∈ r.plan, ∀ i ∈ plan.spanIds, i ∈ native.spanIds) :
    ∃ document record', completedDocumentAndRepair platform native blocks excluded record = .ok (document, record') ∧
      (blockSpanIds document.blocks ++ document.excludedSpans.map (·.spanId)).Perm native.spanIds := by
  have hblocks : ∀ i ∈ blockSpanIds blocks, i ∈ native.spanIds := fun i hi => hperm.mem_iff.1 (by simp [hi])
  have hnodup := hperm.nodup_iff.2 native.spanIds_nodup
  -- the document, for every list of plan blocks with known spans
  have hdocument : ∀ (planBlocks : List RepairBlock) (paired : List (ℕ × ℕ)),
      (∀ i ∈ planAllocations planBlocks, i ∈ native.spanIds) → ∃ ordered document,
        orderedEntries native blocks planBlocks paired = .ok ordered ∧
        ordered.Perm (finalEntries blocks planBlocks paired) ∧
        ReconciledDocument.make ((sortBy Prod.snd (blocks.zipIdx.map fun (block, index) =>
          (block, ordered.idxOf (FinalEntry.final index)))).map fun (block, order) => block.withOrder order) excluded =
            .ok document ∧
        (blockSpanIds document.blocks ++ document.excludedSpans.map (·.spanId)).Perm native.spanIds := by
    intro planBlocks paired hplan
    obtain ⟨ordered, hordered, hentries⟩ := orderedEntries_total hblocks hplan
    obtain ⟨document, hdocument, hids, hexcluded⟩ := normalized_total (finalEntries_mem hentries) hnodup
    refine ⟨ordered, document, hordered, hentries, hdocument, ?_⟩
    rw [hexcluded]
    exact (hids.append_right _).trans hperm
  cases record with
  | none =>
    obtain ⟨ordered, document, hordered, -, hmake, hids⟩ := hdocument [] [] (by simp [planAllocations])
    refine ⟨document, none, ?_, hids⟩
    exact bind_eq_ok.2 ⟨ordered, hordered, bind_eq_ok.2 ⟨document, hmake, rfl⟩⟩
  | some r =>
    cases hplan : r.plan with
    | none =>
      have hpaired : pairedPlan blocks r.toRepairRecordFields = [] := by simp [pairedPlan, hplan]
      obtain ⟨ordered, document, hordered, -, hmake, hids⟩ := hdocument [] [] (by simp [planAllocations])
      refine ⟨document, some r, ?_, hids⟩
      unfold completedDocumentAndRepair
      simp only [Option.bind_some, hplan, Option.map_some, Option.getD_some, hpaired, Option.map_none, Option.getD_none]
      exact bind_eq_ok.2 ⟨ordered, hordered, bind_eq_ok.2 ⟨document, hmake, rfl⟩⟩
    | some plan =>
      obtain ⟨ordered, document, hordered, hentries, hmake, hids⟩ := hdocument plan.blocks
        (pairedPlan blocks r.toRepairRecordFields) (hknown r rfl plan hplan)
      have hpairs := pairedPlan_sound blocks r.toRepairRecordFields
      obtain ⟨updated, hupdated⟩ := remapRecord_total hplan (hsound r rfl).ordersKnown hpairs
        fun index hindex => hentries.mem_iff.2 (hpairs.planEntry_mem hindex)
      refine ⟨document, some updated, ?_, hids⟩
      unfold completedDocumentAndRepair
      simp only [Option.bind_some, hplan, Option.map_some, Option.getD_some]
      refine bind_eq_ok.2 ⟨ordered, hordered, bind_eq_ok.2 ⟨document, hmake, ?_⟩⟩
      exact bind_eq_ok.2 ⟨updated, hupdated, rfl⟩

/-- A recorded plan that names an unknown span stops the completion. -/
theorem completedDocumentAndRepair_unknown {record : Option (RepairRecord platform)}
    (hperm : (blockSpanIds blocks ++ excluded.map (·.spanId)).Perm native.spanIds)
    (hsound : ∀ r ∈ record, RecordSound platform native r)
    (hunknown : ∃ r ∈ record, ∃ plan ∈ r.plan, ∃ i ∈ plan.spanIds, i ∉ native.spanIds) :
    completedDocumentAndRepair platform native blocks excluded record = .error .keyError := by
  obtain ⟨r, hr, plan, hplan, hspan⟩ := hunknown
  obtain rfl : record = some r := hr
  have hplan : r.plan = some plan := hplan
  have hblocks : ∀ i ∈ blockSpanIds blocks, i ∈ native.spanIds := fun i hi => hperm.mem_iff.1 (by simp [hi])
  have hpaired := @pairedPlan_nil blocks r.toRepairRecordFields ((hsound r rfl).unknown ⟨plan, hplan, hspan⟩)
  unfold completedDocumentAndRepair
  simp only [Option.bind_some, hplan, Option.map_some, Option.getD_some, hpaired]
  rw [orderedEntries_unknown hblocks hspan]
  rfl

end Completed

/-! ### The whole degradation -/

section Whole

variable {skeleton : StructureDocument} {reconciled : ReconciliationResult} {planner : Option RepairPlanner}
  {trusted : Option (RepairRecord platform)}

/-- How the degradation ends: with the error of the provider, with a failed lookup, or with a document in which every
span occurs exactly once. -/
theorem repairAndDegrade_cases (h : reconcileStructure platform native skeleton = .ok reconciled) :
    (RepairRaises platform native skeleton reconciled planner trusted ∧
        ∃ code, repairAndDegrade platform native skeleton reconciled planner trusted = .error (.providerError code)) ∨
      ¬ RepairRaises platform native skeleton reconciled planner trusted ∧
        (RepairRecordsUnknownSpan platform native skeleton reconciled planner trusted ∧
            repairAndDegrade platform native skeleton reconciled planner trusted = .error .keyError ∨
          ¬ RepairRecordsUnknownSpan platform native skeleton reconciled planner trusted ∧
            ∃ document record,
              repairAndDegrade platform native skeleton reconciled planner trusted = .ok (document, record) ∧
              (blockSpanIds document.blocks ++ document.excludedSpans.map (·.spanId)).Perm native.spanIds) := by
  unfold repairAndDegrade
  rcases @applyRepair_spec platform native skeleton reconciled planner trusted h with
    ⟨hraises, code, herror⟩ | ⟨hraises, blocks, excluded, reason, record, happly, hspec⟩
  · refine Or.inl ⟨hraises, code, ?_⟩
    rw [herror]
    rfl
  refine Or.inr ⟨hraises, ?_⟩
  obtain ⟨enforced, enforcedExcluded, henforce, hallocates⟩ := enforceNativeTables_total reason hspec.allocates
  obtain ⟨kept, hkept, hperm⟩ := keepRemaining_total reason hallocates
  simp only [happly, henforce, hkept, bind, Except.bind]
  by_cases hunknown : RepairRecordsUnknownSpan platform native skeleton reconciled planner trusted
  · exact Or.inl ⟨hunknown, completedDocumentAndRepair_unknown hperm hspec.sound (hspec.unknown_iff.1 hunknown)⟩
  · refine Or.inr ⟨hunknown, completedDocumentAndRepair_total hperm hspec.sound ?_⟩
    intro r hr plan hplan i hi
    by_contra hi'
    exact hunknown (hspec.unknown_iff.2 ⟨r, hr, plan, hplan, i, hi, hi'⟩)

/-- The degradation completes every document unless it raises the error of the provider again or records a plan that
was not validated and names an unknown span. -/
theorem repairAndDegrade_completes_iff (h : reconcileStructure platform native skeleton = .ok reconciled) :
    (∃ document record coverage,
      repairAndDegrade platform native skeleton reconciled planner trusted = .ok (document, record) ∧
      (blockSpanIds document.blocks ++ document.excludedSpans.map (·.spanId)).Perm native.spanIds ∧
      validateSourceCoverage native document = .ok coverage) ↔
    ¬ RepairRaises platform native skeleton reconciled planner trusted ∧
      ¬ RepairRecordsUnknownSpan platform native skeleton reconciled planner trusted := by
  rcases @repairAndDegrade_cases platform native skeleton reconciled planner trusted h with
    ⟨hraises, code, herror⟩ | ⟨hraises, ⟨hunknown, herror⟩ | ⟨hunknown, document, record, hok, hperm⟩⟩
  · refine ⟨?_, fun hcondition => (hcondition.1 hraises).elim⟩
    rintro ⟨document, record, coverage, hok, -⟩
    rw [herror] at hok
    cases hok
  · refine ⟨?_, fun hcondition => (hcondition.2 hunknown).elim⟩
    rintro ⟨document, record, coverage, hok, -⟩
    rw [herror] at hok
    cases hok
  · obtain ⟨coverage, hcoverage⟩ := validateSourceCoverage_ok hperm
    exact ⟨fun _ => ⟨hraises, hunknown⟩, fun _ => ⟨document, record, coverage, hok, hperm, hcoverage⟩⟩

end Whole

/-! ### Plans of a planner -/

/-- A paragraph of the span with the given ordinal. -/
def plannedParagraph (ordinal : ℕ) : RepairBlock where
  kind := .paragraph
  order := 0
  spanIds := [reportId ordinal]
  headingLevel := none
  listKind := none
  listDepth := none
  rowCount := none
  columnCount := none
  cells := []
  exclusionKind := none
  confidence := 1
  headingLevel_mem := headingLevel_none
  listDepth_le := by simp
  rowCount_mem := by simp
  columnCount_mem := by simp
  cells_le := by simp
  confidence_mem := one_mem_unit

/-- A span on a page of its own. -/
private def pagedSpan (ordinal : ℕ) (letter : Char) : SourceSpan :=
  { reportSpan ordinal letter with page := some (ordinal + 1), page_pos := by simp }

/-- A paragraph and a second span, on two pages. -/
def pagedDocument : NativeDocument :=
  { paragraphDocument with
    extractionMode := .pdfEmbedded
    pageCount := 2
    spans := [pagedSpan 0 'a', pagedSpan 1 'b']
    spanIds_nodup := by decide +kernel
    ordinals_nodup := by decide
    span_identity := by simp [pagedSpan, reportSpan, reportId, paragraphDocument]
    groups_known := by simp [pagedSpan, reportSpan, reportId, paragraphDocument]
    tables_known := by simp [pagedSpan, reportSpan, reportId, paragraphDocument] }

/-- A planner whose provider answers for the first page, with the paragraph of the first page for the second one, and
then with the paragraph of the second page. -/
def pagedPlanner : RepairPlanner where
  provider := fun call => .ok (.conforming [plannedParagraph (call - 1)])
  capabilities := .ok (some "provider".toList, some "model".toList)
  confidenceThreshold := 4 / 5
  propagateProviderErrors := true
  threshold_mem := by norm_num

theorem repairAndDegrade_paragraph : ∃ reconciled document record coverage,
    reconcileStructure .ascii pagedDocument ⟨[]⟩ = .ok reconciled ∧ reconciled.unresolvedSpanIds.length = 2 ∧
      repairAndDegrade .ascii pagedDocument ⟨[]⟩ reconciled (some pagedPlanner) none = .ok (document, some record) ∧
      record.outcome = .applied ∧ record.validationCodes = ["SEMANTIC_REPAIR_UNKNOWN_SPAN"] ∧
      (blockSpanIds document.blocks ++ document.excludedSpans.map (·.spanId)).Perm pagedDocument.spanIds ∧
      validateSourceCoverage pagedDocument document = .ok coverage ∧
      ¬ RepairRaises .ascii pagedDocument ⟨[]⟩ reconciled (some pagedPlanner) none ∧
      ¬ RepairRecordsUnknownSpan .ascii pagedDocument ⟨[]⟩ reconciled (some pagedPlanner) none := by
  have hrun : (reconcileStructure .ascii pagedDocument ⟨[]⟩).toOption.any (fun reconciled =>
      reconciled.unresolvedSpanIds.length = 2 ∧
        (repairAndDegrade .ascii pagedDocument ⟨[]⟩ reconciled (some pagedPlanner) none).toOption.any (fun result =>
          result.2.any fun record => record.outcome = .applied ∧
            record.validationCodes = ["SEMANTIC_REPAIR_UNKNOWN_SPAN"])) = true := by
    decide +kernel
  obtain ⟨reconciled, hreconciled, hread⟩ := exists_of_any_toOption hrun
  obtain ⟨hunresolved, hrepaired⟩ := of_decide_eq_true hread
  obtain ⟨⟨document, _ | record⟩, hdegraded, hrecord⟩ := exists_of_any_toOption hrepaired
  · cases hrecord
  obtain ⟨houtcome, hcodes⟩ := of_decide_eq_true hrecord
  -- the degradation ends neither with an error of the provider nor with a failed lookup
  obtain ⟨-, code, herror⟩ | ⟨-, ⟨-, herror⟩ | ⟨-, _, _, hok, hperm⟩⟩ :=
    @repairAndDegrade_cases _ _ _ _ (some pagedPlanner) none hreconciled
  · exact absurd (hdegraded.symm.trans herror) (by simp)
  · exact absurd (hdegraded.symm.trans herror) (by simp)
  cases hdegraded.symm.trans hok
  obtain ⟨coverage, hcoverage⟩ := validateSourceCoverage_ok hperm
  have hcondition := (repairAndDegrade_completes_iff hreconciled).1 ⟨_, _, coverage, hdegraded, hperm, hcoverage⟩
  exact ⟨reconciled, document, record, coverage, hreconciled, hunresolved, hdegraded, houtcome, hcodes, hperm, hcoverage,
    hcondition⟩

/-- A paragraph of a span that a document of one span does not have. -/
def unknownSpanBlock : RepairBlock := plannedParagraph 1

/-- A planner whose provider answers every call with the unknown paragraph. -/
def unknownSpanPlanner : RepairPlanner where
  provider := fun _ => .ok (.conforming [unknownSpanBlock])
  capabilities := .error "PROVIDER_UNAVAILABLE"
  confidenceThreshold := 4 / 5
  propagateProviderErrors := false
  threshold_mem := by norm_num

/-- Both answers are rejected, the second one is recorded, and the lookup of its span fails. -/
theorem repairAndDegrade_unknown_span : ∃ reconciled,
    reconcileStructure .ascii paragraphDocument ⟨[]⟩ = .ok reconciled ∧
      repairAndDegrade .ascii paragraphDocument ⟨[]⟩ reconciled (some unknownSpanPlanner) none = .error .keyError := by
  have hrun : (do
      let reconciled ← reconcileStructure .ascii paragraphDocument ⟨[]⟩
      return raised (repairAndDegrade .ascii paragraphDocument ⟨[]⟩ reconciled (some unknownSpanPlanner) none)
        : PyResult (Option PyError)) = .ok (some .keyError) := by
    decide +kernel
  obtain ⟨reconciled, hreconciled, h⟩ := bind_eq_ok.1 hrun
  exact ⟨reconciled, hreconciled, raised_eq_some.1 (pure_eq_ok.1 h)⟩

end ArdOssie
