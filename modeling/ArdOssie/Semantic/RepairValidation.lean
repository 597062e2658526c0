import ArdOssie.Library.Results
import ArdOssie.Semantic.RepairPlanner
import Mathlib.Data.List.ReduceOption

/-!
# The validation of repair plans

A validated plan allocates exactly the requested spans, in the order of their ordinals, and every one of its blocks
becomes a semantic block with the same spans.  The validation itself never raises: whatever a provider answers is
accepted or rejected with a code.
-/

namespace ArdOssie

/-! ### Contexts -/

section Contexts

variable {native : NativeDocument}

/-- The context of a list of spans. -/
def contextOf (native : NativeDocument) (spans : List SourceSpan) : RepairContext :=
  ⟨native, spans.map (·.spanId), spans.map (·.textHash)⟩

/-- The requested spans of a document in the order of their ordinals. -/
def requestedSpans (native : NativeDocument) (requested : List SpanId) : List SourceSpan :=
  native.orderedSpans.filter fun s => decide (s.spanId ∈ requested)

theorem mem_requestedSpans {requested : List SpanId} {s : SourceSpan} :
    s ∈ requestedSpans native requested ↔ s ∈ native.spans ∧ s.spanId ∈ requested := by
  rw [requestedSpans, NativeDocument.orderedSpans, List.mem_filter, mem_sortBy, decide_eq_true_eq]

theorem requestedSpans_pairwise (native : NativeDocument) (requested : List SpanId) :
    (requestedSpans native requested).Pairwise fun s t => s.ordinal < t.ordinal :=
  (sortBy_pairwise_lt native.ordinals_nodup).sublist List.filter_sublist

/-- A span is determined by its identifier. -/
theorem NativeDocument.eq_of_spanId_eq {s t : SourceSpan} (hs : s ∈ native.spans) (ht : t ∈ native.spans)
    (h : s.spanId = t.spanId) : s = t := by
  have hs := NativeDocument.lookup_spanCatalog hs
  rw [h, NativeDocument.lookup_spanCatalog ht] at hs
  exact (Option.some_inj.1 hs).symm

private theorem nodup_spanIds_of_pairwise {spans : List SourceSpan} (hknown : ∀ s ∈ spans, s ∈ native.spans)
    (hsorted : spans.Pairwise fun s t => s.ordinal < t.ordinal) : (spans.map (·.spanId)).Nodup := by
  refine List.Nodup.map_on (fun s hs t ht h => ?_) (hsorted.imp fun h heq => ?_)
  · exact NativeDocument.eq_of_spanId_eq (hknown s hs) (hknown t ht) h
  · rw [heq] at h
    exact lt_irrefl _ h

/-- The requested spans of the identifiers of an ordered list of spans are this list. -/
theorem requestedSpans_map {spans : List SourceSpan} (hknown : ∀ s ∈ spans, s ∈ native.spans)
    (hsorted : spans.Pairwise fun s t => s.ordinal < t.ordinal) :
    requestedSpans native (spans.map (·.spanId)) = spans := by
  have hnodup : ∀ {L : List SourceSpan}, L.Pairwise (fun s t => s.ordinal < t.ordinal) → L.Nodup := by
    intro L hL
    refine hL.imp fun h heq => ?_
    rw [heq] at h
    exact lt_irrefl _ h
  refine eq_of_pairwise_key_lt (requestedSpans_pairwise _ _) hsorted ?_
  rw [List.perm_ext_iff_of_nodup (hnodup (requestedSpans_pairwise _ _)) (hnodup hsorted)]
  intro s
  rw [mem_requestedSpans, List.mem_map]
  constructor
  · rintro ⟨hs, t, ht, heq⟩
    exact NativeDocument.eq_of_spanId_eq (hknown t ht) hs heq ▸ ht
  · intro hs
    exact ⟨hknown s hs, s, hs, rfl⟩

/-- The requested spans have the requested identifiers. -/
theorem requestedSpans_perm {requested : List SpanId} (hnodup : requested.Nodup)
    (hknown : ∀ i ∈ requested, i ∈ native.spanIds) :
    ((requestedSpans native requested).map (·.spanId)).Perm requested := by
  have hspans : ∀ s ∈ requestedSpans native requested, s ∈ native.spans := fun s hs => (mem_requestedSpans.1 hs).1
  rw [List.perm_ext_iff_of_nodup (nodup_spanIds_of_pairwise hspans (requestedSpans_pairwise native requested)) hnodup]
  intro i
  rw [List.mem_map]
  constructor
  · rintro ⟨s, hs, rfl⟩
    exact (mem_requestedSpans.1 hs).2
  · intro hi
    obtain ⟨s, hs, rfl⟩ := List.mem_map.1 (hknown i hi)
    exact ⟨s, mem_requestedSpans.2 ⟨hs, hi⟩, rfl⟩

private theorem lookups_eq {requested : List SpanId} (hknown : ∀ i ∈ requested, i ∈ native.spanIds) :
    (requested.map native.spanCatalog.lookup).reduceOption.map (·.spanId) = requested := by
  induction requested with
  | nil => rfl
  | cons i requested ih =>
    obtain ⟨s, hs, rfl⟩ := List.mem_map.1 (hknown i (by simp))
    rw [List.map_cons, NativeDocument.lookup_spanCatalog hs, List.reduceOption_cons_of_some, List.map_cons,
      ih fun j hj => hknown j (by simp [hj])]

private theorem lookups_known {requested : List SpanId} :
    ∀ s ∈ (requested.map native.spanCatalog.lookup).reduceOption, s ∈ native.spans := by
  intro s hs
  rw [List.reduceOption_mem_iff, List.mem_map] at hs
  obtain ⟨i, -, hs⟩ := hs
  exact (NativeDocument.lookup_spanCatalog_eq_some.1 hs).1

/-- A request without repetitions whose spans are known has a context. -/
theorem repairContext_eq {requested : List SpanId} (hnodup : requested.Nodup)
    (hknown : ∀ i ∈ requested, i ∈ native.spanIds) :
    repairContext native requested = (contextOf native (requestedSpans native requested), none) := by
  have hids := lookups_eq hknown
  have hlength := congrArg List.length hids
  rw [List.length_map] at hlength
  set known := (requested.map native.spanCatalog.lookup).reduceOption with hdef
  have hsorted : sortBy (·.ordinal) known = requestedSpans native requested := by
    have hordinals : (known.map (·.ordinal)).Nodup := by
      refine List.Nodup.map_on (fun s hs t ht h => ?_) (List.Nodup.of_map (·.spanId) (by rw [hids]; exact hnodup))
      exact List.inj_on_of_nodup_map native.ordinals_nodup (lookups_known s hs) (lookups_known t ht) h
    have h := @requestedSpans_map native (sortBy (·.ordinal) known)
      (fun s hs => lookups_known s (mem_sortBy.1 hs)) (sortBy_pairwise_lt hordinals)
    rw [← h]
    refine List.filter_congr fun s _ => ?_
    rw [decide_eq_decide, ((sortBy_perm (·.ordinal) known).map (·.spanId)).mem_iff, hids]
  unfold repairContext
  dsimp only
  rw [← hdef, hsorted, if_neg (by simpa using hnodup), if_neg (by simpa using hlength)]
  rfl

/-- A request has a context only when it has no repetitions and its spans are known. -/
theorem repairContext_eq_none {requested : List SpanId} {context : RepairContext}
    (h : repairContext native requested = (context, none)) :
    requested.Nodup ∧ (∀ i ∈ requested, i ∈ native.spanIds) ∧
      context = contextOf native (requestedSpans native requested) := by
  have hvalid : requested.Nodup ∧ ∀ i ∈ requested, i ∈ native.spanIds := by
    unfold repairContext at h
    dsimp only at h
    split at h
    · cases h
    rename_i hnodup
    split at h
    · cases h
    rename_i hlength
    refine ⟨not_not.1 hnodup, fun i hi => ?_⟩
    have hsome := List.reduceOption_length_eq_iff.1 ((not_not.1 hlength).trans (List.length_map _).symm)
    obtain ⟨s, hs⟩ := Option.isSome_iff_exists.1 (hsome _ (List.mem_map.2 ⟨i, hi, rfl⟩))
    obtain ⟨hmem, rfl⟩ := NativeDocument.lookup_spanCatalog_eq_some.1 hs
    exact List.mem_map.2 ⟨s, hmem, rfl⟩
  refine ⟨hvalid.1, hvalid.2, ?_⟩
  rw [repairContext_eq hvalid.1 hvalid.2] at h
  exact (congrArg Prod.fst h).symm

theorem contextOf_nodup {spans : List SourceSpan} (hknown : ∀ s ∈ spans, s ∈ native.spans)
    (hsorted : spans.Pairwise fun s t => s.ordinal < t.ordinal) : (contextOf native spans).orderedSpanIds.Nodup :=
  nodup_spanIds_of_pairwise hknown hsorted

end Contexts

/-! ### The order of a plan -/

section Orders

variable {context : RepairContext}

/-- The position of a span is its index in the context. -/
theorem RepairContext.lookup_positions (hnodup : context.orderedSpanIds.Nodup) {i : SpanId} {n : ℕ} :
    context.positions.lookup i = some n ↔ context.orderedSpanIds[n]? = some i := by
  rw [← List.mem_zipIdx_iff_getElem? (x := (i, n))]
  constructor
  · exact Dict.mem_of_lookup_ofList
  · intro h
    exact Dict.lookup_ofList (by rw [List.zipIdx_map_fst]; exact hnodup) h

private theorem forall₂_getElem?_range {α : Type} {l l' : List α} :
    List.Forall₂ (fun a n => l'[n]? = some a) l (List.range l'.length) ↔ l = l' := by
  rw [List.forall₂_iff_get]
  constructor
  · rintro ⟨hlength, h⟩
    rw [List.length_range] at hlength
    refine List.ext_getElem hlength fun n h1 h2 => ?_
    have := h n h1 (by simpa using h2)
    simpa [h2, eq_comm] using this
  · rintro rfl
    exact ⟨by simp, fun n h1 h2 => by simp [h1]⟩

private theorem orders_increasing_iff {orders : List ℕ} :
    ¬ (orders ≠ sortBy id orders ∨ ¬ orders.Nodup) ↔ orders.Pairwise (· < ·) := by
  rw [not_or, not_not, not_not]
  constructor
  · rintro ⟨hsorted, hnodup⟩
    rw [hsorted]
    exact sortBy_pairwise_lt (by simpa using hnodup)
  · intro h
    exact ⟨(sortBy_eq_self (h.imp le_of_lt)).symm, h.imp ne_of_lt⟩

/-- A plan of requested spans is in order when its orders increase and it lists the spans of the context. -/
theorem ordersValid_eq (hnodup : context.orderedSpanIds.Nodup) {plan : RepairPlan}
    (hknown : ∀ i ∈ plan.spanIds, i ∈ context.orderedSpanIds) :
    ordersValid plan context =
      .ok (decide ((plan.blocks.map (·.order)).Pairwise (· < ·) ∧ plan.spanIds = context.orderedSpanIds)) := by
  have hpositions : ∃ positions, plan.spanIds.mapM (Dict.getItem context.positions) = .ok positions := by
    refine mapM_total fun i hi => ?_
    obtain ⟨n, hn⟩ := List.getElem?_of_mem (hknown i hi)
    exact ⟨n, Dict.getItem_eq_ok.2 ((RepairContext.lookup_positions hnodup).2 hn)⟩
  obtain ⟨positions, hpositions⟩ := hpositions
  have hids : positions = List.range context.orderedSpanIds.length ↔ plan.spanIds = context.orderedSpanIds := by
    have hlookup : ∀ {ns : List ℕ}, plan.spanIds.mapM (Dict.getItem context.positions) = .ok ns ↔
        List.Forall₂ (fun i n => context.orderedSpanIds[n]? = some i) plan.spanIds ns := by
      intro ns
      simp only [mapM_eq_ok, Dict.getItem_eq_ok, RepairContext.lookup_positions hnodup]
    rw [← forall₂_getElem?_range (l := plan.spanIds), ← hlookup, hpositions, Except.ok.injEq]
  unfold ordersValid
  dsimp only
  by_cases horders : (plan.blocks.map (·.order)).Pairwise (· < ·)
  · rw [if_neg (orders_increasing_iff.2 horders), hpositions]
    simp only [horders, true_and, ← hids]
    rfl
  · rw [if_pos (not_not.1 (mt orders_increasing_iff.1 horders))]
    simp only [horders, false_and, decide_false]
    rfl

end Orders

/-! ### The blocks of a plan -/

section Blocks

private theorem occupyCells_prefix (p q : String) {rows columns : ℕ} {cells : List CellRegion}
    {occupied result : List ℕ} (h : occupyCells p rows columns cells occupied = .ok result) :
    occupyCells q rows columns cells occupied = .ok result := by
  induction cells generalizing occupied with
  | nil => exact h
  | cons cell cells ih =>
    unfold occupyCells at h ⊢
    simp only [bind_eq_ok, raiseIf_eq_ok] at h ⊢
    obtain ⟨u₁, h₁, u₂, h₂, u₃, h₃, h⟩ := h
    exact ⟨u₁, h₁, u₂, h₂, u₃, h₃, ih h⟩

/-- The prefix of the error codes does not decide whether a grid is valid. -/
theorem validateGrid_prefix (p q : String) {cells : List CellRegion} {rows columns : ℕ}
    (h : validateGrid cells rows columns p = .ok ()) : validateGrid cells rows columns q = .ok () := by
  unfold validateGrid at h ⊢
  simp only [bind_eq_ok, raiseIf_eq_ok] at h ⊢
  obtain ⟨u₁, h₁, u₂, h₂, u₃, h₃, u₄, h₄, u₅, h₅, occupied, h₆, h₇⟩ := h
  exact ⟨u₁, h₁, u₂, h₂, u₃, h₃, u₄, h₄, u₅, h₅, occupied, occupyCells_prefix p q h₆, h₇⟩

/-- A valid grid has a cell. -/
theorem cells_ne_of_validateGrid {p : String} {cells : List CellRegion} {rows columns : ℕ}
    (h : validateGrid cells rows columns p = .ok ()) : cells ≠ [] := by
  rintro rfl
  unfold validateGrid at h
  simp only [bind_eq_ok, raiseIf_eq_ok] at h
  obtain ⟨_, hpos, _, -, _, -, _, -, _, -, occupied, hoccupied, hlength⟩ := h
  obtain rfl := pure_eq_ok.1 hoccupied
  rw [List.length_nil, not_not, eq_comm, Nat.mul_eq_zero] at hlength
  exact hpos hlength

/-- What the validator of a block says about the fields of its kind. -/
theorem RepairBlock.validateStructure_spec {b : RepairBlock} (h : b.validateStructure = .ok ()) :
    (b.kind = .table → ∃ rows columns, b.rowCount = some rows ∧ b.columnCount = some columns ∧ b.spanIds = [] ∧
        validateGrid (b.cells.map (·.region)) rows columns "REPAIR_BLOCK" = .ok ()) ∧
      (b.kind = .heading → ∃ level, b.headingLevel = some level) ∧
      (b.kind = .listItem → ∃ kind depth, b.listKind = some kind ∧ b.listDepth = some depth) := by
  unfold validateStructure at h
  simp only [bind_eq_ok, raiseIf_eq_ok] at h
  obtain ⟨_, htable, _, hheading, _, hlist, -⟩ := h
  refine ⟨fun hk => ?_, fun hk => ?_, fun hk => ?_⟩
  · unfold validateTableFields at htable
    rw [if_pos hk] at htable
    split at htable
    · rename_i rows columns hrows hcolumns
      simp only [bind_eq_ok, raiseIf_eq_ok] at htable
      obtain ⟨_, -, _, hspans, hgrid⟩ := htable
      exact ⟨rows, columns, hrows, hcolumns, not_not.1 hspans, hgrid⟩
    · cases htable
  · rw [if_pos hk] at hheading
    push Not at hheading
    obtain ⟨level, hlevel, -⟩ := hheading
    exact ⟨level, hlevel⟩
  · rw [if_pos hk, not_or] at hlist
    obtain ⟨kind, hkind⟩ := Option.ne_none_iff_exists'.1 hlist.1
    obtain ⟨depth, hdepth⟩ := Option.ne_none_iff_exists'.1 hlist.2
    exact ⟨kind, depth, hkind, hdepth⟩

/-- The semantic block of a repair block has its order and its spans; an exclusion has none. -/
structure RepairBlock.Becomes (b : RepairBlock) (semantic : Option SemanticBlock) : Prop where
  isSome_iff : semantic.isSome ↔ b.kind ≠ .exclude
  order : ∀ block ∈ semantic, block.order = b.order
  spanIds : ∀ block ∈ semantic, block.spanIds = b.allocations

/-- A table with a valid grid has a block. -/
theorem TableBlock.make_ok (order : ℕ) {rows columns : ℕ} {cells : List TableCellBlock} {p : String}
    (h : validateGrid (cells.map (·.region)) rows columns p = .ok ()) :
    ∃ block, TableBlock.make order rows columns cells = .ok block ∧ block.order = order ∧ block.cells = cells := by
  have hne : cells ≠ [] := by
    have := cells_ne_of_validateGrid h
    simpa using this
  have hgrid := validateGrid_prefix p "TABLE_BLOCK" h
  unfold TableBlock.make
  rw [dif_pos hne]
  split
  · exact ⟨_, rfl, rfl, rfl⟩
  · rename_i e he
    rw [hgrid] at he
    cases he

/-- A valid block becomes a semantic block, unless it is an exclusion. -/
theorem RepairBlock.semanticBlock_total {b : RepairBlock} (hvalid : b.validateStructure = .ok ())
    (hne : b.kind ≠ .table → b.spanIds ≠ []) : ∃ semantic, b.semanticBlock = .ok semantic ∧ b.Becomes semantic := by
  obtain ⟨htable, hheading, hlist⟩ := validateStructure_spec hvalid
  unfold semanticBlock
  cases hk : b.kind with
  | heading =>
    obtain ⟨level, hlevel⟩ := hheading hk
    have hmake : (1 ≤ level ∧ level ≤ 6) ∧ b.spanIds ≠ [] := ⟨b.headingLevel_mem level hlevel, hne (by simp [hk])⟩
    simp only [hlevel, HeadingBlock.make, dif_pos hmake]
    exact ⟨_, rfl, by simp [hk], by rintro _ ⟨⟩; rfl, by rintro _ ⟨⟩; simp [allocations, hk, SemanticBlock.spanIds]⟩
  | paragraph =>
    simp only [ParagraphBlock.make, dif_pos (hne (by simp [hk]))]
    exact ⟨_, rfl, by simp [hk], by rintro _ ⟨⟩; rfl, by rintro _ ⟨⟩; simp [allocations, hk, SemanticBlock.spanIds]⟩
  | listItem =>
    obtain ⟨kind, depth, hkind, hdepth⟩ := hlist hk
    have hmake : depth ≤ maxListDepth ∧ b.spanIds ≠ [] := ⟨b.listDepth_le depth hdepth, hne (by simp [hk])⟩
    simp only [hkind, hdepth, ListItemBlock.make, dif_pos hmake]
    exact ⟨_, rfl, by simp [hk], by rintro _ ⟨⟩; rfl, by rintro _ ⟨⟩; simp [allocations, hk, SemanticBlock.spanIds]⟩
  | table =>
    obtain ⟨rows, columns, hrows, hcolumns, -, hgrid⟩ := htable hk
    have hregions : (b.cells.map (·.toBlock)).map (·.region) = b.cells.map (·.region) := by
      rw [List.map_map]
      rfl
    rw [← hregions] at hgrid
    obtain ⟨block, hblock, horder, hcells⟩ := TableBlock.make_ok b.order hgrid
    simp only [hrows, hcolumns, hblock]
    refine ⟨_, rfl, by simp [hk], by rintro _ ⟨⟩; exact horder, ?_⟩
    rintro _ ⟨⟩
    simp only [SemanticBlock.spanIds, hcells, allocations, hk, if_true, List.flatMap_map]
    rfl
  | exclude => exact ⟨none, rfl, by simp [hk], by simp, by simp⟩

end Blocks

/-! ### Exclusions -/

section Exclusions

variable {platform : Platform} {native : NativeDocument} {catalog : Dict SpanId SourceSpan}

private theorem spanText_total {ids : List SpanId} (h : ∀ i ∈ ids, ∃ s, catalog.lookup i = some s) :
    ∃ text, spanText catalog ids = .ok text := by
  obtain ⟨spans, hspans⟩ := mapM_total fun i hi => (h i hi).imp fun _ hs => Dict.getItem_eq_ok.2 hs
  exact ⟨_, bind_eq_ok.2 ⟨spans, hspans, rfl⟩⟩

private theorem edgeKey_total (platform : Platform) {a : AssignedBlock} (h : ∀ i ∈ a.spanIds, ∃ s, catalog.lookup i = some s) :
    ∃ key, edgeKey platform catalog a = .ok key := by
  obtain ⟨text, htext⟩ := spanText_total h
  unfold edgeKey
  split
  · dsimp only
    split
    · exact ⟨_, rfl⟩
    · exact ⟨_, bind_eq_ok.2 ⟨text, htext, rfl⟩⟩
  · exact ⟨_, rfl⟩

/-- The exclusion of repeated edges does not raise when the catalog has the spans of the assignments. -/
theorem excludeRepeatedEdges_total {assignments : List AssignedBlock}
    (h : ∀ a ∈ assignments, ∀ i ∈ a.spanIds, ∃ s, catalog.lookup i = some s) :
    ∃ result, excludeRepeatedEdges platform native assignments catalog = .ok result := by
  unfold excludeRepeatedEdges
  split
  · exact ⟨_, rfl⟩
  have hentries : ∃ entries, (assignments.zipIdx.mapM fun p => (do
      return (← edgeKey platform catalog p.1).map fun key => (key, p.2, p.1) : PyResult _)) = .ok entries := by
    refine mapM_total fun ⟨a, index⟩ ha => ?_
    obtain ⟨key, hkey⟩ := edgeKey_total platform (h a (List.fst_mem_of_mem_zipIdx ha))
    exact ⟨_, bind_eq_ok.2 ⟨key, hkey, rfl⟩⟩
  obtain ⟨entries, hentries⟩ := hentries
  exact ⟨_, bind_eq_ok.2 ⟨_, bind_eq_ok.2 ⟨entries, hentries, rfl⟩, rfl⟩⟩

/-- The exclusions that the document itself shows. -/
theorem verifiedExclusions_total (platform : Platform) (native : NativeDocument) : ∃ result,
    excludeRepeatedEdges platform native (spanAssignments native) native.spanCatalog = .ok result := by
  refine excludeRepeatedEdges_total fun a ha i hi => ?_
  obtain ⟨s, hs, rfl⟩ := List.mem_map.1 ha
  obtain rfl := List.mem_singleton.1 hi
  rw [NativeDocument.orderedSpans, mem_sortBy] at hs
  exact ⟨s, NativeDocument.lookup_spanCatalog hs⟩

theorem exclusionsValid_total (platform : Platform) (native : NativeDocument) (plan : RepairPlan) :
    ∃ valid, exclusionsValid platform plan native = .ok valid := by
  unfold exclusionsValid
  dsimp only
  split
  · exact ⟨_, rfl⟩
  · obtain ⟨⟨retained, excluded⟩, h⟩ := verifiedExclusions_total platform native
    exact ⟨_, bind_eq_ok.2 ⟨_, h, rfl⟩⟩

/-- The exclusions of a plan are valid when each of them is. -/
theorem exclusionsValid_iff {plan : RepairPlan} {retained : List AssignedBlock} {excluded : List ExcludedSpan}
    (h : excludeRepeatedEdges platform native (spanAssignments native) native.spanCatalog = .ok (retained, excluded)) :
    exclusionsValid platform plan native = .ok true ↔ ∀ p ∈ requestedExclusions plan.blocks,
      (Dict.ofList (excluded.map fun e => (e.spanId, e.kind)) : Dict SpanId ExclusionKind).lookup p.1 = p.2 := by
  unfold exclusionsValid
  dsimp only
  split
  · rename_i hnone
    simp [hnone, pure_eq_ok]
  · simp [h, bind, Except.bind, pure_eq_ok]

end Exclusions

/-! ### Validated plans -/

/-- What the validation of a plan establishes. -/
structure PlanAccepted (platform : Platform) (threshold : ℚ) (context : RepairContext) (v : ValidatedPlan) :
    Prop where
  spanIds : v.plan.spanIds = context.orderedSpanIds
  nonempty : ∀ b ∈ v.plan.blocks, b.kind ≠ .table → b.spanIds ≠ []
  orders : (v.plan.blocks.map (·.order)).Pairwise (· < ·)
  tables : tablesValid v.plan.blocks = true
  exclusions : exclusionsValid platform v.plan context.native = .ok true
  confidence : ∀ b ∈ v.plan.blocks, threshold ≤ b.confidence
  blocks : ∃ semantics, v.plan.blocks.mapM (·.semanticBlock) = .ok semantics ∧ v.blocks = semantics.reduceOption

section Validation

variable {platform : Platform} {threshold : ℚ} {context : RepairContext}

theorem RepairPlan.semanticBlocks_total {plan : RepairPlan}
    (hne : ∀ b ∈ plan.blocks, b.kind ≠ .table → b.spanIds ≠ []) :
    ∃ semantics, plan.blocks.mapM (·.semanticBlock) = .ok semantics := by
  refine mapM_total fun b hb => ?_
  obtain ⟨semantic, hsemantic, -⟩ := RepairBlock.semanticBlock_total (plan.blocks_valid b hb) (hne b hb)
  exact ⟨semantic, hsemantic⟩

private theorem confidence_iff {blocks : List RepairBlock} :
    (¬ (blocks.any fun b => b.confidence < threshold) = true) ↔ ∀ b ∈ blocks, threshold ≤ b.confidence := by
  simp

private theorem checkPlan_total (hnodup : context.orderedSpanIds.Nodup) {plan : RepairPlan}
    (hknown : ∀ i ∈ plan.spanIds, i ∈ context.orderedSpanIds)
    (hne : ∀ b ∈ plan.blocks, b.kind ≠ .table → b.spanIds ≠ []) :
    ∃ check, checkPlan platform threshold context plan = .ok check := by
  obtain ⟨semantics, hsemantics⟩ := RepairPlan.semanticBlocks_total hne
  obtain ⟨valid, hvalid⟩ := exclusionsValid_total platform context.native plan
  simp only [checkPlan, ordersValid_eq hnodup hknown, hvalid, hsemantics, bind, Except.bind]
  split_ifs <;> exact ⟨_, rfl⟩

private theorem checkPlan_validated (hnodup : context.orderedSpanIds.Nodup) {plan : RepairPlan}
    (hknown : ∀ i ∈ plan.spanIds, i ∈ context.orderedSpanIds)
    (hne : ∀ b ∈ plan.blocks, b.kind ≠ .table → b.spanIds ≠ []) {check : PlanCheck} {v : ValidatedPlan}
    (h : checkPlan platform threshold context plan = .ok check) (hv : check.validated = some v) :
    PlanAccepted platform threshold context v := by
  unfold checkPlan at h
  rw [ordersValid_eq hnodup hknown] at h
  obtain ⟨orders, horders, h⟩ := bind_eq_ok.1 h
  cases horders
  -- a check that fails leaves no validated plan
  split at h
  · cases pure_eq_ok.1 h
    cases hv
  rename_i horders
  split at h
  · cases pure_eq_ok.1 h
    cases hv
  rename_i htables
  obtain ⟨exclusions, hexclusions, h⟩ := bind_eq_ok.1 h
  split at h
  · cases pure_eq_ok.1 h
    cases hv
  rename_i hvalid
  split at h
  · cases pure_eq_ok.1 h
    cases hv
  rename_i hconfidence
  obtain ⟨semantics, hsemantics, h⟩ := bind_eq_ok.1 h
  cases pure_eq_ok.1 h
  cases hv
  simp only [Bool.not_eq_true', decide_eq_false_iff_not, not_not] at horders
  simp only [Bool.not_eq_true', Bool.not_eq_false] at htables hvalid
  subst hvalid
  exact ⟨horders.2, hne, horders.1, htables, hexclusions, confidence_iff.1 hconfidence, semantics, hsemantics,
    rfl⟩

private theorem checkPlan_of_accepted (hnodup : context.orderedSpanIds.Nodup) {v : ValidatedPlan}
    (hv : PlanAccepted platform threshold context v) :
    checkPlan platform threshold context v.plan = .ok ⟨some v, none, some v.plan⟩ := by
  obtain ⟨semantics, hsemantics, hblocks⟩ := hv.blocks
  unfold checkPlan
  rw [ordersValid_eq hnodup fun i hi => hv.spanIds ▸ hi, decide_eq_true ⟨hv.orders, hv.spanIds⟩, hv.exclusions,
    hsemantics]
  simp only [bind, Except.bind, Bool.not_true, Bool.false_eq_true, if_false, hv.tables,
    if_neg (confidence_iff.2 hv.confidence), ← hblocks]
  rfl

private theorem validate_blocks {blocks : List RepairBlock} {plan : RepairPlan}
    (h : RepairPlan.validate blocks = .ok plan) : plan.blocks = blocks := by
  unfold RepairPlan.validate at h
  split at h
  · split at h
    · cases h
      rfl
    · cases h
  · cases h

private theorem nonempty_iff {blocks : List RepairBlock} :
    (¬ hasEmptyNonTableSpanIds blocks = true) ↔ ∀ b ∈ blocks, b.kind ≠ .table → b.spanIds ≠ [] := by
  simp [hasEmptyNonTableSpanIds]

/-- The validation of a response gives a check, whatever the response is. -/
theorem validatePlan_total (platform : Platform) (threshold : ℚ) (hnodup : context.orderedSpanIds.Nodup)
    (response : RepairResponse) : ∃ check, validatePlan platform threshold context response = .ok check := by
  cases response with
  | notObject => exact ⟨_, rfl⟩
  | malformed first rest => exact ⟨_, rfl⟩
  | conforming blocks =>
    unfold validatePlan
    dsimp only
    split_ifs with hempty hunknown hmissing hdistinct
    · exact ⟨_, rfl⟩
    · exact ⟨_, rfl⟩
    · exact ⟨_, rfl⟩
    · unfold RepairPlan.validate
      by_cases hvalid : ∀ b ∈ blocks, b.validateStructure = .ok ()
      · rw [dif_pos hvalid, dif_pos hdistinct]
        have hknown : ∀ i ∈ planAllocations blocks, i ∈ context.orderedSpanIds := by simpa using hunknown
        exact @checkPlan_total platform threshold context hnodup ⟨blocks, hvalid, hdistinct⟩ hknown
          (nonempty_iff.1 hempty)
      · rw [dif_neg hvalid]
        exact ⟨_, rfl⟩
    · exact ⟨_, rfl⟩

/-- A response is validated only when it is a list of blocks that make an acceptable plan. -/
theorem validatePlan_validated (hnodup : context.orderedSpanIds.Nodup) {response : RepairResponse} {check : PlanCheck}
    {v : ValidatedPlan} (h : validatePlan platform threshold context response = .ok check)
    (hv : check.validated = some v) : PlanAccepted platform threshold context v := by
  cases response with
  | notObject =>
    cases pure_eq_ok.1 h
    cases hv
  | malformed first rest =>
    cases pure_eq_ok.1 h
    cases hv
  | conforming blocks =>
    unfold validatePlan at h
    dsimp only at h
    split_ifs at h with hempty hunknown hmissing hdistinct
    · cases pure_eq_ok.1 h
      cases hv
    · cases pure_eq_ok.1 h
      cases hv
    · cases pure_eq_ok.1 h
      cases hv
    · split at h
      · cases pure_eq_ok.1 h
        cases hv
      · cases h
      · rename_i plan hplan
        have hblocks := validate_blocks hplan
        have hknown : ∀ i ∈ planAllocations blocks, i ∈ context.orderedSpanIds := by simpa using hunknown
        rw [← hblocks] at hknown hempty
        exact checkPlan_validated hnodup hknown (nonempty_iff.1 hempty) h hv
    · cases pure_eq_ok.1 h
      cases hv

/-- The blocks of an acceptable plan are validated again. -/
theorem validatePlan_of_accepted (hnodup : context.orderedSpanIds.Nodup) {v : ValidatedPlan}
    (hv : PlanAccepted platform threshold context v) :
    validatePlan platform threshold context (.conforming v.plan.blocks) = .ok ⟨some v, none, some v.plan⟩ := by
  have hids : planAllocations v.plan.blocks = context.orderedSpanIds := hv.spanIds
  have hvalidate : RepairPlan.validate v.plan.blocks = .ok v.plan := by
    unfold RepairPlan.validate
    rw [dif_pos v.plan.blocks_valid, dif_pos v.plan.allocations_nodup]
    rfl
  unfold validatePlan
  dsimp only
  rw [if_neg (nonempty_iff.2 hv.nonempty), hids, if_neg (by simp), if_neg (by simp), if_neg (not_not.2 hnodup),
    hvalidate]
  exact checkPlan_of_accepted hnodup hv

end Validation

end ArdOssie
