import ArdOssie.Semantic.RepairPlanner
import ArdOssie.Semantic.Render

/-!
# Repair and degradation

`repairAndDegrade` completes a reconciled document: it applies the repair of the unresolved spans, enforces the native
tables, and keeps what is left in lossless blocks.
-/

namespace ArdOssie

/-! ### Native tables -/

/-- `_native_table_span_ids` -/
def NativeTable.spanIds (table : NativeTable) : List SpanId := table.cellSpanIds.eraseDups

/-- The fields of a cell that the comparison with a native table reads. -/
def NativeTableCell.content (c : NativeTableCell) : CellRegion × List SpanId × Bool :=
  (c.region, c.spanIds, c.columnHeader)

def RepairCell.content (c : RepairCell) : CellRegion × List SpanId × Bool := (c.region, c.spanIds, c.columnHeader)

def TableCellBlock.content (c : TableCellBlock) : CellRegion × List SpanId × Bool :=
  (c.region, c.spanIds, c.columnHeader)

/-- `_repair_table_matches_native` -/
def repairTableMatchesNative (block : RepairBlock) (table : NativeTable) : Bool :=
  decide (block.kind = .table ∧ block.rowCount = some table.rowCount ∧ block.columnCount = some table.columnCount ∧
    block.cells.map (·.content) = table.cells.map (·.content))

/-- `_table_block_matches_native` -/
def tableBlockMatchesNative (block : SemanticBlock) (table : NativeTable) : Bool :=
  match block with
  | .table block => decide (block.rowCount = table.rowCount ∧ block.columnCount = table.columnCount ∧
      block.cells.map (·.content) = table.cells.map (·.content))
  | _ => false

/-- `_native_table_block` -/
def nativeTableBlock (table : NativeTable) (order : ℕ) : PyResult SemanticBlock := do
  return .table (← TableBlock.make order table.rowCount table.columnCount
    (table.cells.map fun c => ⟨c.region, c.spanIds, c.columnHeader, c.withinLimits⟩))

/-- `_crossing_table_region`: the spans from the first to the last one of a table, when others lie between them. -/
def crossingTableRegion (native : NativeDocument) (table : NativeTable) : PyResult (Option (List SpanId)) := do
  if table.spanIds = [] then return none
  let spans ← table.spanIds.mapM (Dict.getItem native.spanCatalog)
  match (spans.map (·.ordinal)).min?, (spans.map (·.ordinal)).max? with
  | some first, some last =>
    let region := (native.orderedSpans.filter fun s => decide (first ≤ s.ordinal ∧ s.ordinal ≤ last)).map (·.spanId)
    return if (∀ i ∈ region, i ∈ table.spanIds) ∧ ∀ i ∈ table.spanIds, i ∈ region then none else some region
  | _, _ => throw (.valueError "min() arg is an empty sequence")

/-- `_native_table_group_order` -/
def nativeTableGroupOrder (native : NativeDocument) (tableOrder : ℕ) : ℕ :=
  ((native.groups.find? fun g => decide (g.kind = .table ∧ g.tableIndex = some tableOrder)).map (·.order)).getD
    tableOrder

/-- `_available_order` -/
def availableOrder (preferred : ℕ) (used : List ℕ) : ℕ :=
  if preferred ∉ used then preferred
  else
    let candidate := (used.max?.map (· + 1)).getD 0
    ((List.range' candidate (used.length + 1)).find? fun order => decide (order ∉ used)).getD candidate

/-- `_contiguous_span_ids`: the runs of spans with consecutive ordinals. -/
def contiguousSpanIds (spans : List SourceSpan) : List (List SpanId) :=
  (spans.splitBy fun s t => t.ordinal = s.ordinal + 1).map fun run => run.map (·.spanId)

section Repairs

variable (platform : Platform) (native : NativeDocument)

/-- The orders of the plan blocks that touch a table without matching it. -/
def invalidTableOrders (plan : RepairPlan) (table : NativeTable) : PyResult (List ℕ) := do
  if table.spanIds = [] then return []
  let crossing ← crossingTableRegion native table
  let ownershipIds := crossing.getD table.spanIds
  let touching := plan.blocks.filter fun b => b.allocations.any (· ∈ ownershipIds)
  let valid := crossing.isNone && touching.length = 1 && touching.all fun b => repairTableMatchesNative b table
  return if valid then [] else touching.map (·.order)

/-- `_reject_repair_orders` -/
def rejectRepairOrders (record : RepairRecord platform) (invalidOrders : List ℕ) : PyResult (RepairRecord platform) :=
  RepairRecord.make platform { record.toRepairRecordFields with
    outcome := .rejected
    validationCodes := record.validationCodes ++ ["SEMANTIC_REPAIR_TABLE_INVALID"]
    appliedOrders := record.appliedOrders.filter fun order => decide (order ∉ invalidOrders)
    rejectedOrders := sortBy id (record.rejectedOrders ++ invalidOrders).eraseDups }

/-- `_validate_native_table_repairs` -/
def validateNativeTableRepairs (blocks : List SemanticBlock) (record : RepairRecord platform) :
    PyResult (List SemanticBlock × RepairRecord platform) :=
  match record.plan with
  | none => return (blocks, record)
  | some plan => do
    let invalidOrders := (← native.tables.mapM (invalidTableOrders native plan)).flatten
    if invalidOrders = [] then return (blocks, record)
    let updated ← rejectRepairOrders platform record invalidOrders
    return (blocks.filter fun b => decide (b.order ∉ invalidOrders), updated)

/-- `_applied_exclusions` -/
def appliedExclusions (record : RepairRecord platform) : List ExcludedSpan :=
  match record.plan with
  | none => []
  | some plan => plan.blocks.flatMap fun b =>
      match b.exclusionKind with
      | some kind => if b.kind = .exclude ∧ b.order ∈ record.appliedOrders then b.spanIds.map (⟨·, kind⟩) else []
      | none => []

end Repairs

/-! ### Enforcement of native tables -/

/-- The state of the loop of `_enforce_native_tables`. -/
structure EnforceState where
  active : List SemanticBlock
  excluded : List ExcludedSpan
  usedOrders : List ℕ
  claimedBlankBlocks : List ℕ

section Enforcement

variable (native : NativeDocument) (reason : LosslessReason)

/-- A table without spans claims a block of its own. -/
def enforceBlankTable (s : EnforceState) (table : NativeTable) : PyResult EnforceState :=
  match s.active.zipIdx.find? fun (block, index) =>
      decide (index ∉ s.claimedBlankBlocks ∧ block.isTable ∧ block.spanIds = []) && tableBlockMatchesNative block table
    with
  | some (_, index) => return { s with claimedBlankBlocks := s.claimedBlankBlocks ++ [index] }
  | none => do
    let order := availableOrder (nativeTableGroupOrder native table.order) s.usedOrders
    let block ← nativeTableBlock table order
    return { s with
      active := s.active ++ [block]
      usedOrders := s.usedOrders ++ [order]
      claimedBlankBlocks := s.claimedBlankBlocks ++ [s.active.length] }

/-- Replace the blocks that touch a region by a lossless block. -/
def replaceRegion (s : EnforceState) (table : NativeTable) (regionIds : List SpanId) : PyResult EnforceState := do
  let active := s.active.filter fun b => !b.spanIds.any (· ∈ regionIds)
  let excluded := s.excluded.filter fun e => decide (e.spanId ∉ regionIds)
  let usedOrders := active.map (·.order)
  let orderedRegion := (native.orderedSpans.filter fun s => decide (s.spanId ∈ regionIds)).map (·.spanId)
  if orderedRegion = [] then return ⟨active, excluded, usedOrders, s.claimedBlankBlocks⟩
  let order := availableOrder (nativeTableGroupOrder native table.order) usedOrders
  let block ← LosslessBlock.make order orderedRegion reason
  return ⟨active ++ [.lossless block], excluded, usedOrders ++ [order], s.claimedBlankBlocks⟩

/-- Whether a lossless block has all spans of a region. -/
def SemanticBlock.keepsRegion (regionIds : List SpanId) : SemanticBlock → Bool
  | .lossless block => regionIds.all (· ∈ block.spanIds)
  | _ => false

/-- One pass of the loop of `_enforce_native_tables`. -/
def enforceTable (s : EnforceState) (table : NativeTable) : PyResult EnforceState := do
  let crossing ← crossingTableRegion native table
  if table.spanIds = [] then enforceBlankTable native s table
  else
    let regionIds := crossing.getD table.spanIds
    let touching := s.active.filter fun b => b.spanIds.any (· ∈ regionIds)
    if s.active.any (·.keepsRegion regionIds) then return s
    else if touching.length = 1 ∧ crossing = none ∧ touching.all (tableBlockMatchesNative · table) then return s
    else replaceRegion native reason s table regionIds

/-- `_enforce_native_tables` -/
def enforceNativeTables (blocks : List SemanticBlock) (excluded : List ExcludedSpan) :
    PyResult (List SemanticBlock × List ExcludedSpan) := do
  let s ← native.tables.foldlM (enforceTable native reason) ⟨blocks, excluded, blocks.map (·.order), []⟩
  return (s.active, s.excluded)

end Enforcement

/-! ### Lossless blocks -/

section Fallback

variable (native : NativeDocument)

/-- The runs of some spans, each with the ordinal of its first span. -/
def locatedRuns (spans : List SourceSpan) : PyResult (List (ℕ × List SpanId)) :=
  (contiguousSpanIds spans).mapM fun ids => do
    match ids with
    | [] => throw .indexError
    | i :: _ => return ((← Dict.getItem native.spanCatalog i).ordinal, ids)

/-- `_ordinary_paragraphs` -/
def ordinaryParagraphs (remainingIds nativeTableIds : List SpanId) : PyResult (List (ℕ × List SpanId)) := do
  let groups := (sortBy (·.order) native.groups).filter fun g => g.kind ≠ .table
  let grouped ← groups.mapM fun group => do
    let spans ← (group.spanIds.filter fun i => decide (i ∈ remainingIds ∧ i ∉ nativeTableIds)).mapM
      (Dict.getItem native.spanCatalog)
    return (contiguousSpanIds spans).map fun ids => (group.order, ids)
  let paragraphs := grouped.flatten
  let groupedIds := paragraphs.flatMap Prod.snd
  let orphanSpans := native.orderedSpans.filter fun s =>
    decide (s.spanId ∈ remainingIds ∧ s.spanId ∉ nativeTableIds ∧ s.spanId ∉ groupedIds)
  let orphans ← locatedRuns native orphanSpans
  return paragraphs ++ orphans

/-- Append a lossless block for some spans. -/
def appendLossless (reason : LosslessReason) (s : List SemanticBlock × List ℕ) (paragraph : ℕ × List SpanId) :
    PyResult (List SemanticBlock × List ℕ) := do
  let order := availableOrder paragraph.1 s.2
  let block ← LosslessBlock.make order paragraph.2 reason
  return (s.1 ++ [.lossless block], s.2 ++ [order])

/-- The end of `_repair_and_degrade`: keep the spans that are neither allocated nor excluded. -/
def keepRemaining (reason : LosslessReason) (blocks : List SemanticBlock) (excluded : List ExcludedSpan) :
    PyResult (List SemanticBlock) := do
  let remainingIds := native.spanIds.filter fun i =>
    decide (i ∉ blockSpanIds blocks ∧ i ∉ excluded.map (·.spanId))
  let nativeTableIds := native.tables.flatMap (·.cellSpanIds)
  let paragraphs ← ordinaryParagraphs native remainingIds nativeTableIds
  let s ← paragraphs.foldlM (appendLossless reason) (blocks, blocks.map (·.order))
  let keptIds := paragraphs.flatMap Prod.snd
  let left := native.orderedSpans.filter fun span =>
    decide (span.spanId ∈ remainingIds ∧ span.spanId ∉ keptIds)
  let rest ← locatedRuns native left
  let s ← rest.foldlM (appendLossless reason) s
  return s.1

end Fallback

/-! ### The completed document -/

/-- An entry of the final order: a block of the document, or a block of the plan that did not become one. -/
inductive FinalEntry where
  | final (index : ℕ)
  | plan (index : ℕ)
  deriving DecidableEq

/-- The kind of a repair block that becomes a semantic block. -/
def SemanticBlock.repairKind : SemanticBlock → Option RepairKind
  | heading _ => some .heading
  | paragraph _ => some .paragraph
  | listItem _ => some .listItem
  | table _ => some .table
  | lossless _ => none

section Completion

variable (platform : Platform) (native : NativeDocument)

/-- One pass of the pairing loop: the applied plan blocks with the indices of the blocks they have become. -/
def pairPlanBlock (blocks : List SemanticBlock) (appliedOrders : List ℕ) (paired : List (ℕ × ℕ))
    (entry : RepairBlock × ℕ) : List (ℕ × ℕ) :=
  let (block, planIndex) := entry
  if block.order ∉ appliedOrders ∨ block.kind = .exclude then paired
  else
    match blocks.zipIdx.find? fun (semantic, index) => decide (index ∉ paired.map Prod.snd ∧
        semantic.order = block.order ∧ semantic.repairKind = some block.kind ∧
        semantic.spanIds = block.allocations) with
    | some (_, index) => paired ++ [(planIndex, index)]
    | none => paired

/-- The pairs of plan indices and block indices. -/
def pairedPlan (blocks : List SemanticBlock) (record : RepairRecordFields) : List (ℕ × ℕ) :=
  match record.plan with
  | none => []
  | some plan => plan.blocks.zipIdx.foldl (pairPlanBlock blocks record.appliedOrders) []

/-- The least ordinal of some spans. -/
def firstOrdinal (ids : List SpanId) (default : ℕ) : PyResult ℕ := do
  let spans ← ids.mapM (Dict.getItem native.spanCatalog)
  return ((spans.map (·.ordinal)).min?).getD default

/-- `entry_source_key` -/
def entrySourceKey (blocks : List SemanticBlock) (planBlocks : List RepairBlock) (entry : FinalEntry) :
    PyResult (ℕ ×ₗ ℕ ×ₗ ℕ) :=
  match entry with
  | .final index =>
    match blocks[index]? with
    | none => throw .indexError
    | some block => do
      return toLex (← firstOrdinal native block.spanIds block.order, toLex (block.order, 0))
  | .plan index =>
    match planBlocks[index]? with
    | none => throw .indexError
    | some block => do
      return toLex (← firstOrdinal native block.allocations block.order, toLex (block.order, 1))

/-- The entries in the order of the document. -/
def orderedEntries (blocks : List SemanticBlock) (planBlocks : List RepairBlock) (paired : List (ℕ × ℕ)) :
    PyResult (List FinalEntry) := do
  let finals := (List.range blocks.length).map FinalEntry.final
  let plans := ((List.range planBlocks.length).filter fun index => decide (index ∉ paired.map Prod.fst)).map
    FinalEntry.plan
  let keyed ← (finals ++ plans).mapM fun entry => do
    return (← entrySourceKey native blocks planBlocks entry, entry)
  return (sortBy Prod.fst keyed).map Prod.snd

/-- The entry of a plan block: the block it has become, or its own. -/
def planEntry (paired : List (ℕ × ℕ)) (planIndex : ℕ) : FinalEntry :=
  match paired.find? fun p => p.1 = planIndex with
  | some p => .final p.2
  | none => .plan planIndex

/-- The record with the orders of the document. -/
def remapRecord (record : RepairRecord platform) (plan : RepairPlan) (paired : List (ℕ × ℕ))
    (ordered : List FinalEntry) : PyResult (RepairRecord platform) := do
  let remapped := plan.blocks.zipIdx.map fun (block, planIndex) =>
    (block.order, { block with order := ordered.idxOf (planEntry paired planIndex) })
  let planOrderByOld := Dict.ofList (remapped.map fun (old, block) => (old, block.order))
  let remappedPlan ← RepairPlan.validate (sortBy (·.order) (remapped.map Prod.snd))
  let appliedOrders ← record.appliedOrders.mapM (Dict.getItem planOrderByOld)
  let rejectedOrders ← record.rejectedOrders.mapM (Dict.getItem planOrderByOld)
  RepairRecord.make platform { record.toRepairRecordFields with
    plan := some remappedPlan
    appliedOrders := sortBy id appliedOrders
    rejectedOrders := sortBy id rejectedOrders
    planHash := some (remappedPlan.hash platform) }

/-- `_completed_document_and_repair` -/
def completedDocumentAndRepair (blocks : List SemanticBlock) (excluded : List ExcludedSpan)
    (record : Option (RepairRecord platform)) : PyResult (ReconciledDocument × Option (RepairRecord platform)) := do
  let plan := record.bind (·.plan)
  let paired := (record.map fun r => pairedPlan blocks r.toRepairRecordFields).getD []
  let ordered ← orderedEntries native blocks ((plan.map (·.blocks)).getD []) paired
  let normalized := (sortBy Prod.snd (blocks.zipIdx.map fun (block, index) =>
    (block, ordered.idxOf (FinalEntry.final index)))).map fun (block, order) => block.withOrder order
  let document ← ReconciledDocument.make normalized excluded
  match record, plan with
  | some record, some plan => do
    let record ← remapRecord platform record plan paired ordered
    return (document, some record)
  | _, _ => return (document, record)

/-- The reason of a lossless block after a repair with the given outcome. -/
def repairReason (reason : LosslessReason) : RepairOutcome → LosslessReason
  | .rejected => .repairRejected
  | .applied | .reused => .structureUnresolved
  | .degraded => reason

/-- The reason of a lossless block without a repair. -/
def degradationReason (native : NativeDocument) : LosslessReason :=
  if native.extractionMode = .ocr then .structureUnresolved else .providerUnavailable

/-- The blocks, the exclusions, the reason and the record after the repair of the unresolved spans. -/
def applyRepair (skeleton : StructureDocument) (reconciled : ReconciliationResult) (planner : Option RepairPlanner)
    (trusted : Option (RepairRecord platform)) :
    PyResult (List SemanticBlock × List ExcludedSpan × LosslessReason × Option (RepairRecord platform)) :=
  match planner with
  | none => return (reconciled.blocks, reconciled.excludedSpans, degradationReason native, none)
  | some planner =>
    if reconciled.unresolvedSpanIds = [] then
      return (reconciled.blocks, reconciled.excludedSpans, degradationReason native, none)
    else
      match repair platform planner native skeleton reconciled.unresolvedSpanIds trusted with
      | .error (.providerError code) =>
        if planner.propagateProviderErrors then throw (.providerError code)
        else return (reconciled.blocks, reconciled.excludedSpans, degradationReason native, none)
      | .error e => throw e
      | .ok app => do
        let (accepted, record) ← validateNativeTableRepairs platform native app.blocks app.record
        return (reconciled.blocks ++ accepted, reconciled.excludedSpans ++ appliedExclusions platform record,
          repairReason (degradationReason native) record.outcome, some record)

/-- `_repair_and_degrade` -/
def repairAndDegrade (skeleton : StructureDocument) (reconciled : ReconciliationResult)
    (planner : Option RepairPlanner) (trusted : Option (RepairRecord platform)) :
    PyResult (ReconciledDocument × Option (RepairRecord platform)) := do
  let (blocks, excluded, reason, record) ← applyRepair platform native skeleton reconciled planner trusted
  let (blocks, excluded) ← enforceNativeTables native reason blocks excluded
  let blocks ← keepRemaining native reason blocks excluded
  completedDocumentAndRepair platform native blocks excluded record

end Completion

end ArdOssie
