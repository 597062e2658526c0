import ArdOssie.Semantic.Parser
import ArdOssie.Semantic.Reconciliation
import ArdOssie.Semantic.RepairRuns
import Mathlib.Data.List.Flatten
import Mathlib.Data.List.Perm.Subperm
import Mathlib.Data.List.SplitBy

/-!
# Degradation

Every stage after the reconciliation keeps each span in at most one place, and the lossless blocks take what is left:
a completed document has every span exactly once.  The one stage that can fail is the last one, when the recorded plan
names a span that the document does not have.
-/

namespace ArdOssie

variable {platform : Platform} {native : NativeDocument}

/-- Every span has at most one place among some blocks and exclusions. -/
structure Allocates (native : NativeDocument) (blocks : List SemanticBlock) (excluded : List ExcludedSpan) : Prop where
  nodup : (blockSpanIds blocks ++ excluded.map (·.spanId)).Nodup
  known : ∀ i ∈ blockSpanIds blocks ++ excluded.map (·.spanId), i ∈ native.spanIds

theorem Allocates.of_subperm {blocks : List SemanticBlock} {excluded : List ExcludedSpan}
    (h : (blockSpanIds blocks ++ excluded.map (·.spanId)).Subperm native.spanIds) :
    Allocates native blocks excluded := by
  refine ⟨?_, fun i hi => h.subset hi⟩
  obtain ⟨l, hperm, hsublist⟩ := h
  exact hperm.nodup_iff.1 (native.spanIds_nodup.sublist hsublist)

theorem blockSpanIds_append (blocks blocks' : List SemanticBlock) :
    blockSpanIds (blocks ++ blocks') = blockSpanIds blocks ++ blockSpanIds blocks' := List.flatMap_append

/-! ### The spans of a validated plan -/

section Plans

variable {threshold : ℚ} {context : RepairContext} {v : ValidatedPlan}

/-- The blocks of a validated plan have the spans of its blocks that are no exclusions. -/
private theorem blockSpanIds_validated (hv : PlanAccepted platform threshold context v) :
    blockSpanIds v.blocks = planAllocations (v.plan.blocks.filter fun b => decide (b.kind ≠ .exclude)) := by
  obtain ⟨semantics, hsemantics, hblocks⟩ := hv.blocks
  rw [hblocks]
  have hvalid := v.plan.blocks_valid
  have hnonempty := hv.nonempty
  generalize v.plan.blocks = blocks at hsemantics hvalid hnonempty
  have hall := mapM_eq_ok.1 hsemantics
  clear hsemantics hblocks
  induction hall with
  | nil => rfl
  | @cons b semantic blocks semantics h _ ih =>
    have ih := ih (fun b hb => hvalid b (by simp [hb])) fun b hb => hnonempty b (by simp [hb])
    obtain ⟨semantic', h', hbecomes⟩ := RepairBlock.semanticBlock_total (hvalid b (by simp)) (hnonempty b (by simp))
    rw [h] at h'
    cases h'
    cases semantic with
    | none =>
      have hk : b.kind = .exclude := by
        by_contra hk
        simpa using hbecomes.isSome_iff.2 hk
      rw [List.reduceOption_cons_of_none, List.filter_cons_of_neg (by simp [hk]), ih]
    | some block =>
      have hk : b.kind ≠ .exclude := hbecomes.isSome_iff.1 rfl
      rw [List.reduceOption_cons_of_some, List.filter_cons_of_pos (by simp [hk]), blockSpanIds, planAllocations,
        List.flatMap_cons, List.flatMap_cons, hbecomes.spanIds block rfl]
      exact congrArg _ ih

private theorem appliedExclusions_sublist {record : RepairRecord platform} {plan : RepairPlan}
    (hplan : record.plan = some plan) : ((appliedExclusions platform record).map (·.spanId)).Sublist
      (planAllocations (plan.blocks.filter fun b => decide (b.kind = .exclude))) := by
  simp only [appliedExclusions, hplan]
  induction plan.blocks with
  | nil => exact List.Sublist.refl _
  | cons b blocks ih =>
    rw [List.flatMap_cons, List.map_append]
    by_cases hk : b.kind = .exclude
    · rw [List.filter_cons_of_pos (by simp [hk]), planAllocations, List.flatMap_cons]
      refine List.Sublist.append ?_ ih
      have hallocations : b.allocations = b.spanIds := by simp [RepairBlock.allocations, hk]
      rw [hallocations]
      split
      · split
        · simp [Function.comp_def]
        · simp
      · simp
    · rw [List.filter_cons_of_neg (by simp [hk])]
      refine List.Sublist.trans ?_ ih
      simp only [hk, false_and, if_false]
      split <;> simp

/-- What is kept of a validated plan has its spans at most once. -/
private theorem kept_subperm (hv : PlanAccepted platform threshold context v) (keep : SemanticBlock → Bool)
    {record : RepairRecord platform} (hplan : record.plan = some v.plan) :
    (blockSpanIds (v.blocks.filter keep) ++ (appliedExclusions platform record).map (·.spanId)).Subperm
      context.orderedSpanIds := by
  have hfilter : (v.blocks.filter keep).Sublist v.blocks := List.filter_sublist
  have hsublist := (hfilter.flatMap SemanticBlock.spanIds).append (appliedExclusions_sublist hplan)
  refine hsublist.subperm.trans (List.Perm.subperm ?_)
  rw [← hv.spanIds]
  change (blockSpanIds v.blocks ++ _).Perm _
  rw [blockSpanIds_validated hv, planAllocations, planAllocations, ← List.flatMap_append]
  refine List.Perm.flatMap_right _ ?_
  have h := List.filter_append_perm (fun b : RepairBlock => decide (b.kind ≠ .exclude)) v.plan.blocks
  simpa using h

end Plans

/-! ### Native tables -/

section Tables

variable {table : NativeTable}

theorem NativeTable.mem_spanIds {i : SpanId} : i ∈ table.spanIds ↔ i ∈ table.cellSpanIds := List.mem_eraseDups

theorem NativeDocument.tableSpanIds_known (htable : table ∈ native.tables) : ∀ i ∈ table.spanIds, i ∈ native.spanIds := by
  intro i hi
  obtain ⟨c, hc, hi⟩ := List.mem_flatMap.1 (NativeTable.mem_spanIds.1 hi)
  exact native.tables_known table htable c hc i hi

/-- The identifiers of known spans have spans. -/
theorem NativeDocument.getItems_total {ids : List SpanId} (h : ∀ i ∈ ids, i ∈ native.spanIds) :
    ∃ spans, ids.mapM (Dict.getItem native.spanCatalog) = .ok spans ∧ spans.map (·.spanId) = ids ∧
      ∀ s ∈ spans, s ∈ native.spans := by
  induction ids with
  | nil => exact ⟨[], rfl, rfl, by simp⟩
  | cons i ids ih =>
    obtain ⟨s, hs, rfl⟩ := List.mem_map.1 (h i (by simp))
    obtain ⟨spans, hspans, hids, hmem⟩ := ih fun j hj => h j (by simp [hj])
    refine ⟨s :: spans, mapM_eq_ok.2 (List.Forall₂.cons ?_ (mapM_eq_ok.1 hspans)), by simp [hids], ?_⟩
    · exact Dict.getItem_eq_ok.2 (NativeDocument.lookup_spanCatalog hs)
    · intro t ht
      rcases List.mem_cons.1 ht with rfl | ht
      · exact hs
      · exact hmem t ht

/-- The region of a table consists of spans of the document. -/
theorem crossingTableRegion_total (htable : table ∈ native.tables) :
    ∃ crossing, crossingTableRegion native table = .ok crossing ∧
      ∀ region ∈ crossing, ∀ i ∈ region, i ∈ native.spanIds := by
  unfold crossingTableRegion
  by_cases hempty : table.spanIds = []
  · rw [if_pos hempty]
    exact ⟨none, rfl, by simp⟩
  rw [if_neg hempty]
  obtain ⟨spans, hspans, hids, -⟩ := NativeDocument.getItems_total (native.tableSpanIds_known htable)
  have hne : spans.map (·.ordinal) ≠ [] := by
    rintro hnil
    rw [List.map_eq_nil_iff] at hnil
    exact hempty (by rw [← hids, hnil]; rfl)
  obtain ⟨first, hfirst⟩ := Option.ne_none_iff_exists'.1 (mt List.min?_eq_none_iff.1 hne)
  obtain ⟨last, hlast⟩ := Option.ne_none_iff_exists'.1 (mt List.max?_eq_none_iff.1 hne)
  rw [hspans]
  simp only [bind, Except.bind, hfirst, hlast]
  refine ⟨_, rfl, fun region hregion i hi => ?_⟩
  split at hregion
  · cases hregion
  · cases hregion
    obtain ⟨s, hs, rfl⟩ := List.mem_map.1 hi
    rw [List.mem_filter, NativeDocument.orderedSpans, mem_sortBy] at hs
    exact List.mem_map.2 ⟨s, hs.1, rfl⟩

/-- The orders that a record names are orders of its plan. -/
def RepairRecordFields.OrdersKnown (record : RepairRecordFields) : Prop :=
  ∀ plan ∈ record.plan, ∀ n, n ∈ record.appliedOrders ∨ n ∈ record.rejectedOrders → n ∈ plan.blocks.map (·.order)

private theorem invalidTableOrders_total (plan : RepairPlan) (htable : table ∈ native.tables) :
    ∃ orders, invalidTableOrders native plan table = .ok orders ∧ ∀ n ∈ orders, n ∈ plan.blocks.map (·.order) := by
  unfold invalidTableOrders
  split
  · exact ⟨[], rfl, by simp⟩
  obtain ⟨crossing, hcrossing, -⟩ := crossingTableRegion_total htable
  rw [hcrossing]
  refine ⟨_, rfl, fun n hn => ?_⟩
  split at hn
  · cases hn
  · obtain ⟨b, hb, rfl⟩ := List.mem_map.1 hn
    exact List.mem_map.2 ⟨b, List.mem_of_mem_filter hb, rfl⟩

/-- Rejecting orders of a plan keeps a valid record. -/
private theorem rejectRepairOrders_total (record : RepairRecord platform) (invalidOrders : List ℕ) :
    ∃ updated, rejectRepairOrders platform record invalidOrders = .ok updated ∧ updated.plan = record.plan ∧
      updated.appliedOrders.Sublist record.appliedOrders ∧
      ∀ n ∈ updated.rejectedOrders, n ∈ record.rejectedOrders ∨ n ∈ invalidOrders := by
  have hrejected : ∀ n, n ∈ sortBy id (record.rejectedOrders ++ invalidOrders).eraseDups ↔
      n ∈ record.rejectedOrders ∨ n ∈ invalidOrders := by
    intro n
    rw [mem_sortBy, List.mem_eraseDups, List.mem_append]
  have hvalid : RepairRecordFields.Valid platform { record.toRepairRecordFields with
      outcome := .rejected
      validationCodes := record.validationCodes ++ ["SEMANTIC_REPAIR_TABLE_INVALID"]
      appliedOrders := record.appliedOrders.filter fun order => decide (order ∉ invalidOrders)
      rejectedOrders := sortBy id (record.rejectedOrders ++ invalidOrders).eraseDups } := by
    refine ⟨record.valid.applied_nodup.filter _, ?_, ?_, ?_, record.valid.planHash_eq⟩
    · exact (sortBy_perm id _).nodup_iff.2 (nodup_eraseDups _)
    · intro n hn hn'
      rw [List.mem_filter, decide_eq_true_eq] at hn
      exact ((hrejected n).1 hn').elim (record.valid.orders_disjoint n hn.1) hn.2
    · rintro (h | h) <;> cases h
  unfold rejectRepairOrders
  rw [RepairRecord.make_of_valid hvalid]
  exact ⟨_, rfl, rfl, List.filter_sublist, fun n hn => (hrejected n).1 hn⟩

/-- The check of the native tables drops blocks and moves orders to the rejected ones. -/
theorem validateNativeTableRepairs_total (native : NativeDocument) (blocks : List SemanticBlock) {record : RepairRecord platform}
    (hrecord : record.OrdersKnown) :
    ∃ keep updated, validateNativeTableRepairs platform native blocks record = .ok (blocks.filter keep, updated) ∧
      updated.plan = record.plan ∧ updated.appliedOrders.Sublist record.appliedOrders ∧ updated.OrdersKnown := by
  unfold validateNativeTableRepairs
  cases hplan : record.plan with
  | none =>
    exact ⟨fun _ => true, record, by rw [List.filter_true]; rfl, hplan, List.Sublist.refl _, hrecord⟩
  | some plan =>
    obtain ⟨orders, horders⟩ := mapM_total fun table (htable : table ∈ native.tables) =>
      (invalidTableOrders_total plan htable).imp fun _ h => h.1
    have hknown : ∀ n ∈ orders.flatten, n ∈ plan.blocks.map (·.order) := by
      intro n hn
      obtain ⟨l, hl, hn⟩ := List.mem_flatten.1 hn
      obtain ⟨table, htable, h⟩ := mem_of_mapM_eq_ok horders hl
      obtain ⟨l', hl', hall⟩ := invalidTableOrders_total plan htable
      rw [h] at hl'
      cases hl'
      exact hall n hn
    simp only [horders, bind, Except.bind]
    by_cases hnone : orders.flatten = []
    · rw [if_pos hnone]
      exact ⟨fun _ => true, record, by rw [List.filter_true]; rfl, hplan, List.Sublist.refl _, hrecord⟩
    · obtain ⟨updated, hupdated, hupdatedPlan, happlied, hrejected⟩ := rejectRepairOrders_total record orders.flatten
      rw [if_neg hnone, hupdated]
      refine ⟨_, updated, rfl, hupdatedPlan.trans hplan, happlied, ?_⟩
      intro plan' hplan' n hn
      rw [hupdatedPlan, hplan] at hplan'
      cases hplan'
      rcases hn with hn | hn
      · exact hrecord plan hplan n (Or.inl (happlied.subset hn))
      · exact (hrejected n hn).elim (fun hn => hrecord plan hplan n (Or.inr hn)) (hknown n)

end Tables

/-! ### The repair of the unresolved spans -/

section Repair

variable (platform native) (skeleton : StructureDocument) (reconciled : ReconciliationResult)
  (planner : Option RepairPlanner) (trusted : Option (RepairRecord platform))

/-- The planner is told to raise provider errors again, and the repair meets one. -/
def RepairRaises : Prop :=
  ∃ p, planner = some p ∧ reconciled.unresolvedSpanIds ≠ [] ∧
    p.RaisesProviderError platform (repairContext native reconciled.unresolvedSpanIds).1 skeleton trusted

/-- The repair records a plan that was not validated and that names a span that the document does not have. -/
def RepairRecordsUnknownSpan : Prop :=
  ∃ p, planner = some p ∧ reconciled.unresolvedSpanIds ≠ [] ∧
    p.EndsWithUnknownSpan platform (repairContext native reconciled.unresolvedSpanIds).1 skeleton trusted

/-- What the later stages need to know about a record. -/
structure RecordSound (record : RepairRecord platform) : Prop where
  ordersKnown : record.OrdersKnown
  unknown : (∃ plan ∈ record.plan, ∃ i ∈ plan.spanIds, i ∉ native.spanIds) → record.appliedOrders = []

/-- The outcome of `applyRepair`. -/
structure RepairApplied (blocks : List SemanticBlock) (excluded : List ExcludedSpan)
    (record : Option (RepairRecord platform)) : Prop where
  allocates : Allocates native blocks excluded
  sound : ∀ r ∈ record, RecordSound platform native r
  unknown_iff : RepairRecordsUnknownSpan platform native skeleton reconciled planner trusted ↔
    ∃ r ∈ record, ∃ plan ∈ r.plan, ∃ i ∈ plan.spanIds, i ∉ native.spanIds

variable {platform native skeleton reconciled planner trusted}

/-- The reconciled blocks and exclusions, without a repair. -/
private theorem repairApplied_none (h : reconcileStructure platform native skeleton = .ok reconciled)
    (hno : planner = none ∨ reconciled.unresolvedSpanIds = []) :
    RepairApplied platform native skeleton reconciled planner trusted reconciled.blocks reconciled.excludedSpans
      none := by
  obtain ⟨hperm, -, -⟩ := reconcileStructure_partition h
  refine ⟨Allocates.of_subperm (List.Subperm.trans (List.Sublist.subperm ?_) hperm.subperm), by simp, ?_⟩
  · exact (List.sublist_append_left _ _).append (List.Sublist.refl _)
  · simp only [Option.not_mem_none, false_and, exists_false, iff_false]
    rintro ⟨p, hp, hne, -⟩
    rcases hno with hno | hno
    · rw [hno] at hp
      cases hp
    · exact hne hno

/-- What is kept of a repair takes its spans from the unresolved ones. -/
private theorem allocates_append (h : reconcileStructure platform native skeleton = .ok reconciled)
    {accepted : List SemanticBlock} {excluded : List ExcludedSpan}
    (hsubperm : (blockSpanIds accepted ++ excluded.map (·.spanId)).Subperm reconciled.unresolvedSpanIds) :
    Allocates native (reconciled.blocks ++ accepted) (reconciled.excludedSpans ++ excluded) := by
  obtain ⟨hperm, -, -⟩ := reconcileStructure_partition h
  refine Allocates.of_subperm (List.Subperm.trans ?_ hperm.subperm)
  rw [blockSpanIds_append, List.map_append]
  have hmove : (blockSpanIds reconciled.blocks ++ blockSpanIds accepted ++
      (reconciled.excludedSpans.map (·.spanId) ++ excluded.map (·.spanId))).Perm
      (blockSpanIds reconciled.blocks ++ (blockSpanIds accepted ++ excluded.map (·.spanId)) ++
        reconciled.excludedSpans.map (·.spanId)) := by
    rw [List.append_assoc, List.append_assoc, List.append_assoc]
    exact ((List.perm_append_comm.append_left _).append_left _)
  exact hmove.subperm.trans
    (List.Subperm.append (List.Subperm.append (List.Subperm.refl _) hsubperm) (List.Subperm.refl _))

/-- How the repair of the unresolved spans ends. -/
theorem applyRepair_spec (h : reconcileStructure platform native skeleton = .ok reconciled) :
    (RepairRaises platform native skeleton reconciled planner trusted ∧
        ∃ code, applyRepair platform native skeleton reconciled planner trusted = .error (.providerError code)) ∨
      ¬ RepairRaises platform native skeleton reconciled planner trusted ∧
        ∃ blocks excluded reason record,
          applyRepair platform native skeleton reconciled planner trusted = .ok (blocks, excluded, reason, record) ∧
          RepairApplied platform native skeleton reconciled planner trusted blocks excluded record := by
  unfold applyRepair
  cases planner with
  | none => exact Or.inr ⟨by simp [RepairRaises], _, _, _, none, rfl, repairApplied_none h (Or.inl rfl)⟩
  | some p =>
    by_cases hempty : reconciled.unresolvedSpanIds = []
    · refine Or.inr ⟨by simp [RepairRaises, hempty], reconciled.blocks, reconciled.excludedSpans,
        degradationReason native, none, ?_, repairApplied_none h (Or.inr hempty)⟩
      simp only [if_pos hempty]
      rfl
    obtain ⟨hperm, hnodup, -⟩ := reconcileStructure_partition h
    have hunresolved : reconciled.unresolvedSpanIds.Nodup := hnodup.of_append_left.of_append_right
    have hknown : ∀ i ∈ reconciled.unresolvedSpanIds, i ∈ native.spanIds := fun i hi =>
      hperm.mem_iff.1 (by simp [hi])
    have hcontext := repairContext_eq hunresolved hknown
    have hraises : RepairRaises platform native skeleton reconciled (some p) trusted ↔
        p.RaisesProviderError platform (repairContext native reconciled.unresolvedSpanIds).1 skeleton trusted := by
      simp [RepairRaises, hempty]
    have hrecords : RepairRecordsUnknownSpan platform native skeleton reconciled (some p) trusted ↔
        p.EndsWithUnknownSpan platform (repairContext native reconciled.unresolvedSpanIds).1 skeleton trusted := by
      simp [RepairRecordsUnknownSpan, hempty]
    rw [hraises]
    simp only [if_neg hempty]
    rcases repair_spec p hunresolved hknown skeleton trusted (congrArg Prod.fst hcontext) with
      ⟨hraise, code, herror⟩ | ⟨hraise, app, happ, hend⟩
    · refine Or.inl ⟨hraise, code, ?_⟩
      simp only [herror, hraise.1]
      rfl
    refine Or.inr ⟨hraise, ?_⟩
    have hids : (repairContext native reconciled.unresolvedSpanIds).1.orderedSpanIds.Perm
        reconciled.unresolvedSpanIds := by
      rw [hcontext]
      exact requestedSpans_perm hunresolved hknown
    rcases hend with ⟨⟨v, haccepted⟩, hend⟩ | ⟨recorded, hrefused, hend⟩
    · -- the accepted plan has the unresolved spans
      have horders : app.record.OrdersKnown := by
        intro plan hplan n hn
        rw [haccepted.plan] at hplan
        cases hplan
        rw [haccepted.appliedOrders, haccepted.rejectedOrders] at hn
        simpa using hn
      obtain ⟨keep, updated, hupdated, hplan, happlied, hupdatedOrders⟩ :=
        validateNativeTableRepairs_total native app.blocks horders
      have hplan : updated.plan = some v.plan := hplan.trans haccepted.plan
      have hplanKnown : ∀ plan ∈ updated.plan, ∀ i ∈ plan.spanIds, i ∈ native.spanIds := by
        intro plan hplan' i hi
        rw [hplan] at hplan'
        cases hplan'
        rw [haccepted.accepted.spanIds] at hi
        exact hknown i (hids.mem_iff.1 hi)
      refine ⟨reconciled.blocks ++ app.blocks.filter keep, reconciled.excludedSpans ++ appliedExclusions platform updated,
        repairReason (degradationReason native) updated.outcome, some updated, ?_, ?_, ?_, ?_⟩
      · simp only [happ, hupdated, bind, Except.bind]
        rfl
      · rw [haccepted.blocks]
        exact allocates_append h ((kept_subperm haccepted.accepted keep hplan).trans hids.subperm)
      · rintro _ ⟨⟩
        exact ⟨hupdatedOrders, fun ⟨plan, hplan', i, hi, hunknown⟩ => (hunknown (hplanKnown plan hplan' i hi)).elim⟩
      · rw [hrecords]
        refine ⟨fun h => (hend h).elim, ?_⟩
        rintro ⟨_, ⟨⟩, plan, hplan', i, hi, hunknown⟩
        exact (hunknown (hplanKnown plan hplan' i hi)).elim
    · -- a refused repair leaves no blocks and applies nothing
      have horders : app.record.OrdersKnown := by
        intro plan hplan n hn
        rw [hrefused.plan] at hplan
        rw [hrefused.appliedOrders, hrefused.rejectedOrders, hplan] at hn
        simpa using hn
      obtain ⟨keep, updated, hupdated, hplan, happlied, hupdatedOrders⟩ :=
        validateNativeTableRepairs_total native app.blocks horders
      have hplan : updated.plan = recorded := hplan.trans hrefused.plan
      have happlied : updated.appliedOrders = [] := by
        rw [hrefused.appliedOrders] at happlied
        exact List.sublist_nil.1 happlied
      have hexclusions : appliedExclusions platform updated = [] := by
        unfold appliedExclusions
        split
        · rfl
        · rw [List.flatMap_eq_nil_iff]
          intro b _
          split <;> simp [happlied]
      refine ⟨reconciled.blocks ++ app.blocks.filter keep, reconciled.excludedSpans ++ appliedExclusions platform updated,
        repairReason (degradationReason native) updated.outcome, some updated, ?_, ?_, ?_, ?_⟩
      · simp only [happ, hupdated, bind, Except.bind]
        rfl
      · rw [hrefused.blocks, hexclusions]
        exact allocates_append h (by simp [blockSpanIds])
      · rintro _ ⟨⟩
        exact ⟨hupdatedOrders, fun _ => happlied⟩
      · rw [hrecords, hend]
        simp [hplan]

end Repair

/-! ### The enforcement of native tables -/

section Enforcement

variable {reason : LosslessReason} {table : NativeTable}

private theorem enforceBlankTable_total {s : EnforceState} (htable : table.spanIds = [])
    (hs : Allocates native s.active s.excluded) :
    ∃ s', enforceBlankTable native s table = .ok s' ∧ Allocates native s'.active s'.excluded := by
  unfold enforceBlankTable
  split
  · exact ⟨_, rfl, hs⟩
  dsimp only
  generalize availableOrder _ _ = order
  have hcells : table.cellSpanIds = [] := by
    rw [List.eq_nil_iff_forall_not_mem]
    intro i hi
    rw [← NativeTable.mem_spanIds, htable] at hi
    cases hi
  set cells : List TableCellBlock := table.cells.map fun c => ⟨c.region, c.spanIds, c.columnHeader, c.withinLimits⟩
    with hdef
  have hregions : cells.map (·.region) = table.cells.map (·.region) := by
    rw [hdef, List.map_map]
    rfl
  have hgrid := table.grid
  rw [← hregions] at hgrid
  obtain ⟨block, hblock, -, hblockCells⟩ := TableBlock.make_ok order hgrid
  have hspans : (SemanticBlock.table block).spanIds = [] := by
    rw [SemanticBlock.spanIds, hblockCells, hdef, List.flatMap_map]
    exact hcells
  refine ⟨_, bind_eq_ok.2 ⟨.table block, bind_eq_ok.2 ⟨block, hblock, rfl⟩, rfl⟩, ?_⟩
  have hblocks : blockSpanIds (s.active ++ [.table block]) = blockSpanIds s.active := by
    rw [blockSpanIds_append, blockSpanIds, blockSpanIds, List.flatMap_singleton, hspans, List.append_nil]
  exact ⟨by rw [hblocks]; exact hs.nodup, by rw [hblocks]; exact hs.known⟩

private theorem replaceRegion_total {s : EnforceState} {regionIds : List SpanId}
    (hs : Allocates native s.active s.excluded) :
    ∃ s', replaceRegion native reason s table regionIds = .ok s' ∧ Allocates native s'.active s'.excluded := by
  set active := s.active.filter fun b => !b.spanIds.any (· ∈ regionIds) with hactive
  set excluded := s.excluded.filter fun e => decide (e.spanId ∉ regionIds) with hexcluded
  set region := (native.orderedSpans.filter fun s => decide (s.spanId ∈ regionIds)).map (·.spanId) with hregion
  have hkept : Allocates native active excluded := by
    have hsublist : (blockSpanIds active ++ excluded.map (·.spanId)).Sublist
        (blockSpanIds s.active ++ s.excluded.map (·.spanId)) :=
      (List.filter_sublist.flatMap _).append (List.filter_sublist.map _)
    exact ⟨hs.nodup.sublist hsublist, fun i hi => hs.known i (hsublist.subset hi)⟩
  have hfree : ∀ i ∈ blockSpanIds active ++ excluded.map (·.spanId), i ∉ regionIds := by
    intro i hi hmem
    rcases List.mem_append.1 hi with hi | hi
    · obtain ⟨b, hb, hi⟩ := List.mem_flatMap.1 hi
      have hb := (List.mem_filter.1 hb).2
      simp only [Bool.not_eq_true', List.any_eq_false, decide_eq_true_eq] at hb
      exact hb i hi hmem
    · obtain ⟨e, he, rfl⟩ := List.mem_map.1 hi
      exact (of_decide_eq_true (List.mem_filter.1 he).2) hmem
  have hregionNodup : region.Nodup :=
    (orderedSpans_spanIds_perm.nodup_iff.2 native.spanIds_nodup).sublist (List.filter_sublist.map _)
  have hregionMem : ∀ i ∈ region, i ∈ regionIds ∧ i ∈ native.spanIds := by
    intro i hi
    obtain ⟨t, ht, rfl⟩ := List.mem_map.1 hi
    rw [List.mem_filter, NativeDocument.orderedSpans, mem_sortBy, decide_eq_true_eq] at ht
    exact ⟨ht.2, List.mem_map.2 ⟨t, ht.1, rfl⟩⟩
  unfold replaceRegion
  dsimp only
  rw [← hactive, ← hexcluded, ← hregion]
  by_cases hempty : region = []
  · rw [if_pos hempty]
    exact ⟨_, rfl, hkept⟩
  rw [if_neg hempty]
  generalize availableOrder _ _ = order
  simp only [LosslessBlock.make, dif_pos hempty]
  refine ⟨_, rfl, ?_⟩
  have hblocks : ∀ block : LosslessBlock, block.spanIds = region →
      Allocates native (active ++ [.lossless block]) excluded := by
    intro block hblock
    have hids : blockSpanIds (active ++ [.lossless block]) = blockSpanIds active ++ region := by
      rw [blockSpanIds_append]
      simp [blockSpanIds, SemanticBlock.spanIds, hblock]
    have hperm : (blockSpanIds active ++ region ++ excluded.map (·.spanId)).Perm
        (blockSpanIds active ++ excluded.map (·.spanId) ++ region) := by
      rw [List.append_assoc, List.append_assoc]
      exact List.perm_append_comm.append_left _
    rw [← hids] at hperm
    refine ⟨hperm.nodup_iff.2 ?_, fun i hi => ?_⟩
    · rw [List.nodup_append]
      exact ⟨hkept.nodup, hregionNodup, fun i hi j hj hij => hfree i hi (hij ▸ (hregionMem j hj).1)⟩
    · rcases List.mem_append.1 (hperm.mem_iff.1 hi) with hi | hi
      · exact hkept.known i hi
      · exact (hregionMem i hi).2
  exact hblocks _ rfl

private theorem enforceTable_total (reason : LosslessReason) {s : EnforceState} (htable : table ∈ native.tables)
    (hs : Allocates native s.active s.excluded) :
    ∃ s', enforceTable native reason s table = .ok s' ∧ Allocates native s'.active s'.excluded := by
  obtain ⟨crossing, hcrossing, -⟩ := crossingTableRegion_total htable
  unfold enforceTable
  rw [hcrossing]
  simp only [bind, Except.bind]
  split_ifs with hempty hkeeps hmatches
  · exact enforceBlankTable_total hempty hs
  · exact ⟨s, rfl, hs⟩
  · exact ⟨s, rfl, hs⟩
  · exact replaceRegion_total hs

/-- The enforcement of the native tables does not raise, and every span still has at most one place. -/
theorem enforceNativeTables_total (reason : LosslessReason) {blocks : List SemanticBlock}
    {excluded : List ExcludedSpan} (h : Allocates native blocks excluded) :
    ∃ blocks' excluded', enforceNativeTables native reason blocks excluded = .ok (blocks', excluded') ∧
      Allocates native blocks' excluded' := by
  have hrun : ∀ (tables : List NativeTable) (s : EnforceState), (∀ t ∈ tables, t ∈ native.tables) →
      Allocates native s.active s.excluded → ∃ s', tables.foldlM (enforceTable native reason) s = .ok s' ∧
        Allocates native s'.active s'.excluded := by
    intro tables
    induction tables with
    | nil => exact fun s _ hs => ⟨s, rfl, hs⟩
    | cons table tables ih =>
      intro s htables hs
      obtain ⟨s₁, h₁, hs₁⟩ := enforceTable_total reason (htables table (by simp)) hs
      obtain ⟨s', h', hs'⟩ := ih s₁ (fun t ht => htables t (by simp [ht])) hs₁
      exact ⟨s', by rw [List.foldlM_cons, h₁]; exact h', hs'⟩
  obtain ⟨s, hs, hallocates⟩ := hrun native.tables ⟨blocks, excluded, blocks.map (·.order), []⟩ (fun t ht => ht) h
  exact ⟨s.active, s.excluded, bind_eq_ok.2 ⟨s, hs, rfl⟩, hallocates⟩

end Enforcement

/-! ### The lossless blocks -/

section Fallback

variable {reason : LosslessReason}

private theorem contiguousSpanIds_flatten (spans : List SourceSpan) :
    (contiguousSpanIds spans).flatten = spans.map (·.spanId) := by
  rw [contiguousSpanIds, ← List.map_flatten, List.flatten_splitBy]

private theorem contiguousSpanIds_ne_nil {spans : List SourceSpan} : ∀ ids ∈ contiguousSpanIds spans, ids ≠ [] := by
  intro ids hids hnil
  obtain ⟨run, hrun, rfl⟩ := List.mem_map.1 hids
  rw [List.map_eq_nil_iff] at hnil
  subst hnil
  exact List.nil_notMem_splitBy _ _ hrun

/-- The lossless blocks of some paragraphs have their spans. -/
private theorem appendLossless_total (reason : LosslessReason) {paragraphs : List (ℕ × List SpanId)}
    (h : ∀ p ∈ paragraphs, p.2 ≠ []) (s : List SemanticBlock × List ℕ) :
    ∃ s', paragraphs.foldlM (appendLossless reason) s = .ok s' ∧
      blockSpanIds s'.1 = blockSpanIds s.1 ++ paragraphs.flatMap Prod.snd := by
  induction paragraphs generalizing s with
  | nil => exact ⟨s, rfl, by simp⟩
  | cons p paragraphs ih =>
    have hne := h p (by simp)
    obtain ⟨s', hs', hids⟩ := ih (fun q hq => h q (by simp [hq]))
      (s.1 ++ [.lossless ⟨availableOrder p.1 s.2, p.2, reason, hne⟩], s.2 ++ [availableOrder p.1 s.2])
    have hstep : appendLossless reason s p = .ok
        (s.1 ++ [.lossless ⟨availableOrder p.1 s.2, p.2, reason, hne⟩], s.2 ++ [availableOrder p.1 s.2]) := by
      simp only [appendLossless, LosslessBlock.make, dif_pos hne]
      rfl
    refine ⟨s', by rw [List.foldlM_cons, hstep]; exact hs', ?_⟩
    rw [hids, blockSpanIds_append, List.flatMap_cons, List.append_assoc]
    simp [blockSpanIds, SemanticBlock.spanIds]

private theorem locatedRuns_total {spans : List SourceSpan} (hknown : ∀ s ∈ spans, s ∈ native.spans) :
    ∃ runs, locatedRuns native spans = .ok runs ∧ (∀ p ∈ runs, p.2 ≠ []) ∧
      runs.flatMap Prod.snd = spans.map (·.spanId) := by
  have hitem : ∀ ids ∈ contiguousSpanIds spans, ∃ i rest, ids = i :: rest ∧
      ∃ s, Dict.getItem native.spanCatalog i = .ok s := by
    intro ids hids
    obtain ⟨i, rest, rfl⟩ := List.exists_cons_of_ne_nil (contiguousSpanIds_ne_nil ids hids)
    have hi : i ∈ spans.map (·.spanId) := by
      rw [← contiguousSpanIds_flatten]
      exact List.mem_flatten.2 ⟨_, hids, by simp⟩
    obtain ⟨s, hs, rfl⟩ := List.mem_map.1 hi
    exact ⟨s.spanId, rest, rfl, s, Dict.getItem_eq_ok.2 (NativeDocument.lookup_spanCatalog (hknown s hs))⟩
  have hruns : ∃ runs, locatedRuns native spans = .ok runs := by
    refine mapM_total fun ids hids => ?_
    obtain ⟨i, rest, rfl, s, hs⟩ := hitem ids hids
    exact ⟨_, bind_eq_ok.2 ⟨s, hs, rfl⟩⟩
  obtain ⟨runs, hruns⟩ := hruns
  have hsnd : runs.map Prod.snd = contiguousSpanIds spans := by
    have hall := mapM_eq_ok.1 hruns
    clear hruns hitem
    generalize contiguousSpanIds spans = L at hall ⊢
    induction hall with
    | nil => rfl
    | @cons ids p _ _ h _ ih =>
      have hids : p.2 = ids := by
        cases ids with
        | nil => cases h
        | cons i rest =>
          obtain ⟨s, -, h⟩ := bind_eq_ok.1 h
          cases pure_eq_ok.1 h
          rfl
      rw [List.map_cons, hids, ih]
  refine ⟨runs, hruns, fun p hp => ?_, ?_⟩
  · have hmem : p.2 ∈ contiguousSpanIds spans := by
      rw [← hsnd]
      exact List.mem_map.2 ⟨p, hp, rfl⟩
    exact contiguousSpanIds_ne_nil p.2 hmem
  · rw [List.flatMap_def, hsnd, contiguousSpanIds_flatten]

/-- The paragraphs have spans that remain, each of them once. -/
private theorem ordinaryParagraphs_total (remainingIds nativeTableIds : List SpanId) :
    ∃ paragraphs, ordinaryParagraphs native remainingIds nativeTableIds = .ok paragraphs ∧
      (∀ p ∈ paragraphs, p.2 ≠ []) ∧ (paragraphs.flatMap Prod.snd).Nodup ∧
      ∀ i ∈ paragraphs.flatMap Prod.snd, i ∈ remainingIds := by
  set groups := (sortBy (·.order) native.groups).filter fun g => decide (g.kind ≠ .table) with hgroups
  set free : SpanId → Bool := fun i => decide (i ∈ remainingIds ∧ i ∉ nativeTableIds) with hfree
  have hgroupSublist : groups.Sublist (sortBy (·.order) native.groups) := List.filter_sublist
  have hgroupKnown : ∀ g ∈ groups, ∀ i ∈ g.spanIds, i ∈ native.spanIds := fun g hg =>
    native.groups_known g (mem_sortBy.1 (hgroupSublist.subset hg))
  -- each group gives the runs of its free spans
  have hgrouped : ∀ gs : List NativeGroup, (∀ g ∈ gs, ∀ i ∈ g.spanIds, i ∈ native.spanIds) →
      ∃ grouped : List (List (ℕ × List SpanId)), (gs.mapM fun group => do
          let spans ← (group.spanIds.filter free).mapM (Dict.getItem native.spanCatalog)
          return (contiguousSpanIds spans).map fun ids => (group.order, ids) : PyResult _) = .ok grouped ∧
        (∀ p ∈ grouped.flatten, p.2 ≠ []) ∧
        grouped.flatten.flatMap Prod.snd = gs.flatMap fun g => g.spanIds.filter free := by
    intro gs
    induction gs with
    | nil => exact fun _ => ⟨[], rfl, by simp, rfl⟩
    | cons g gs ih =>
      intro hgs
      obtain ⟨grouped, h, hne, hids⟩ := ih fun g' hg' => hgs g' (by simp [hg'])
      obtain ⟨spans, hspans, hspanIds, -⟩ := @NativeDocument.getItems_total native (g.spanIds.filter free)
        fun i hi => hgs g (by simp) i (List.mem_of_mem_filter hi)
      refine ⟨((contiguousSpanIds spans).map fun ids => (g.order, ids)) :: grouped, ?_, ?_, ?_⟩
      · rw [List.mapM_cons, hspans, h]
        rfl
      · intro p hp
        rw [List.flatten_cons, List.mem_append, List.mem_map] at hp
        rcases hp with ⟨ids, hids, rfl⟩ | hp
        · exact contiguousSpanIds_ne_nil ids hids
        · exact hne p hp
      · rw [List.flatten_cons, List.flatMap_append, hids, List.flatMap_cons, List.flatMap_map]
        congr 1
        rw [← hspanIds, ← contiguousSpanIds_flatten]
        simp [List.flatMap_def]
  obtain ⟨grouped, hmap, hne, hids⟩ := hgrouped groups hgroupKnown
  set orphans := native.orderedSpans.filter fun s => decide (s.spanId ∈ remainingIds ∧ s.spanId ∉ nativeTableIds ∧
    s.spanId ∉ grouped.flatten.flatMap Prod.snd) with horphans
  have horphanSublist : orphans.Sublist native.orderedSpans := List.filter_sublist
  have horphanKnown : ∀ s ∈ orphans, s ∈ native.spans := fun s hs => mem_sortBy.1 (horphanSublist.subset hs)
  obtain ⟨runs, hruns, hrunsNe, hrunIds⟩ := locatedRuns_total horphanKnown
  refine ⟨grouped.flatten ++ runs, ?_, ?_, ?_, ?_⟩
  · unfold ordinaryParagraphs
    dsimp only
    rw [← hgroups, hmap]
    exact bind_eq_ok.2 ⟨grouped, rfl, bind_eq_ok.2 ⟨runs, hruns, rfl⟩⟩
  · intro p hp
    rcases List.mem_append.1 hp with hp | hp
    · exact hne p hp
    · exact hrunsNe p hp
  · rw [List.flatMap_append, List.nodup_append, hrunIds]
    refine ⟨?_, ?_, ?_⟩
    · rw [hids]
      have hnodup : ((sortBy (·.order) native.groups).flatMap (·.spanIds)).Nodup :=
        ((sortBy_perm _ _).flatMap_right _).nodup_iff.2 native.groupSpanIds_nodup
      refine (hnodup.sublist (hgroupSublist.flatMap _)).sublist ?_
      exact List.Sublist.flatMap_right _ fun g _ => List.filter_sublist
    · exact (orderedSpans_spanIds_perm.nodup_iff.2 native.spanIds_nodup).sublist (horphanSublist.map _)
    · rintro i hi _ hj rfl
      obtain ⟨s, hs, rfl⟩ := List.mem_map.1 hj
      exact (of_decide_eq_true (List.mem_filter.1 hs).2).2.2 hi
  · intro i hi
    rw [List.flatMap_append, List.mem_append, hids, hrunIds] at hi
    rcases hi with hi | hi
    · obtain ⟨g, -, hi⟩ := List.mem_flatMap.1 hi
      exact (of_decide_eq_true (List.mem_filter.1 hi).2).1
    · obtain ⟨s, hs, rfl⟩ := List.mem_map.1 hi
      exact (of_decide_eq_true (List.mem_filter.1 hs).2).1

/-- The lossless blocks take every span that is left: each span has exactly one place. -/
theorem keepRemaining_total (reason : LosslessReason) {blocks : List SemanticBlock} {excluded : List ExcludedSpan}
    (h : Allocates native blocks excluded) :
    ∃ blocks', keepRemaining native reason blocks excluded = .ok blocks' ∧
      (blockSpanIds blocks' ++ excluded.map (·.spanId)).Perm native.spanIds := by
  set remainingIds := native.spanIds.filter fun i =>
    decide (i ∉ blockSpanIds blocks ∧ i ∉ excluded.map (·.spanId)) with hremaining
  have hmemRemaining : ∀ i, i ∈ remainingIds ↔
      i ∈ native.spanIds ∧ i ∉ blockSpanIds blocks ∧ i ∉ excluded.map (·.spanId) := by
    intro i
    rw [hremaining, List.mem_filter, decide_eq_true_eq]
  obtain ⟨paragraphs, hparagraphs, hne, hkeptNodup, hkept⟩ := @ordinaryParagraphs_total native remainingIds
    (native.tables.flatMap (·.cellSpanIds))
  obtain ⟨s, hs, hids⟩ := appendLossless_total reason hne (blocks, blocks.map (·.order))
  set kept := paragraphs.flatMap Prod.snd with hkeptDef
  set left := native.orderedSpans.filter fun span => decide (span.spanId ∈ remainingIds ∧ span.spanId ∉ kept)
    with hleft
  have hleftSublist : left.Sublist native.orderedSpans := List.filter_sublist
  have hmemLeft : ∀ i, i ∈ left.map (·.spanId) ↔ i ∈ remainingIds ∧ i ∉ kept := by
    intro i
    rw [List.mem_map]
    constructor
    · rintro ⟨t, ht, rfl⟩
      exact of_decide_eq_true (List.mem_filter.1 ht).2
    · rintro ⟨hi, hfree⟩
      obtain ⟨t, ht, rfl⟩ := List.mem_map.1 ((hmemRemaining i).1 hi).1
      exact ⟨t, List.mem_filter.2 ⟨mem_sortBy.2 ht, by simp [hi, hfree]⟩, rfl⟩
  obtain ⟨rest, hrest, hrestNe, hrestIds⟩ := locatedRuns_total fun t (ht : t ∈ left) =>
    mem_sortBy.1 (hleftSublist.subset ht)
  obtain ⟨s', hs', hids'⟩ := appendLossless_total reason hrestNe s
  refine ⟨s'.1, ?_, ?_⟩
  · unfold keepRemaining
    dsimp only
    rw [← hremaining, hparagraphs]
    refine bind_eq_ok.2 ⟨paragraphs, rfl, bind_eq_ok.2 ⟨s, hs, bind_eq_ok.2 ⟨rest, hrest, ?_⟩⟩⟩
    exact bind_eq_ok.2 ⟨s', hs', rfl⟩
  rw [hids', hids, hrestIds]
  obtain ⟨hblocksNodup, hexcludedNodup, hdisjoint⟩ := List.nodup_append.1 h.nodup
  have hleftNodup : (left.map (·.spanId)).Nodup :=
    (orderedSpans_spanIds_perm.nodup_iff.2 native.spanIds_nodup).sublist (hleftSublist.map _)
  refine (List.perm_ext_iff_of_nodup ?_ native.spanIds_nodup).2 fun i => ?_
  · -- the four parts have no span in common
    have hnotRemaining : ∀ i, i ∈ blockSpanIds blocks ∨ i ∈ excluded.map (·.spanId) → i ∉ remainingIds := by
      intro i hi hmem
      exact hi.elim ((hmemRemaining i).1 hmem).2.1 ((hmemRemaining i).1 hmem).2.2
    simp only [List.nodup_append, List.mem_append, hmemLeft]
    refine ⟨⟨⟨hblocksNodup, hkeptNodup, ?_⟩, hleftNodup, ?_⟩, hexcludedNodup, ?_⟩
    · rintro i hi _ hj rfl
      exact hnotRemaining i (Or.inl hi) (hkept i hj)
    · rintro i (hi | hi) _ hj rfl
      · exact hnotRemaining i (Or.inl hi) hj.1
      · exact hj.2 hi
    · rintro i ((hi | hi) | hi) _ hj rfl
      · exact hdisjoint i hi i hj rfl
      · exact hnotRemaining i (Or.inr hj) (hkept i hi)
      · exact hnotRemaining i (Or.inr hj) hi.1
  · -- every span is in a block, kept in a paragraph, left over, or excluded
    show i ∈ _ ↔ i ∈ native.spanIds
    simp only [List.mem_append, hmemLeft]
    constructor
    · rintro (((hi | hi) | hi) | hi)
      · exact h.known i (by simp [hi])
      · exact ((hmemRemaining i).1 (hkept i hi)).1
      · exact ((hmemRemaining i).1 hi.1).1
      · exact h.known i (List.mem_append_right _ hi)
    · intro hi
      by_cases hallocated : i ∈ blockSpanIds blocks
      · exact Or.inl (Or.inl (Or.inl hallocated))
      by_cases hexcluded : i ∈ excluded.map (·.spanId)
      · exact Or.inr hexcluded
      have hremains := (hmemRemaining i).2 ⟨hi, hallocated, hexcluded⟩
      by_cases hmem : i ∈ kept
      · exact Or.inl (Or.inl (Or.inr hmem))
      · exact Or.inl (Or.inr ⟨hremains, hmem⟩)

end Fallback

end ArdOssie
