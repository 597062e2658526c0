import ArdOssie.Library.Intervals
import ArdOssie.Semantic.RepairModels
import ArdOssie.Semantic.Structure

/-!
# Structure repair

The planner asks a provider for a plan over the unresolved spans, validates it and asks once more when it is rejected.
A document with several evidence batches is repaired batch by batch; the plans of the batches are then merged and the
merged plan is validated again.  The provider is given by its answers in the order of the calls.
-/

namespace ArdOssie

/-- `SEMANTIC_PARSER_VERSION` -/
def semanticParserVersion : Text := "semantic-structure-v1".toList

/-- `REPAIR_PROMPT_VERSION` -/
def repairPromptVersion : Text := "semantic-structure-repair-v3".toList

/-- `semantic_structure_repair_schema` -/
def repairSchema : Json :=
  let bounded := fun (low high : ℕ) => Json.record
    [("type", .lit "integer"), ("minimum", .nat low), ("maximum", .nat high)]
  let nullableBounded := fun (low high : ℕ) => Json.record
    [("type", .arr [.lit "integer", .lit "null"]), ("minimum", .nat low), ("maximum", .nat high)]
  let spanIds := Json.record [("type", .lit "array"),
    ("items", .record [("type", .lit "string"), ("pattern", .lit "^span_[0-9a-f]{16}$")])]
  let closed := fun (properties : List (String × Json)) => Json.record
    [("type", .lit "object"), ("properties", .record properties),
      ("required", .arr (properties.map fun p => .lit p.1)), ("additionalProperties", .bool false)]
  let cell := closed
    [("start_row", bounded 0 maxTableRows), ("end_row", bounded 1 maxTableRows),
      ("start_column", bounded 0 maxTableColumns), ("end_column", bounded 1 maxTableColumns),
      ("span_ids", spanIds), ("column_header", .record [("type", .lit "boolean")])]
  let block := closed
    [("kind", .record [("type", .lit "string"), ("enum", .arr
        [.lit "heading", .lit "paragraph", .lit "list_item", .lit "table", .lit "exclude"])]),
      ("order", .record [("type", .lit "integer"), ("minimum", .nat 0)]), ("span_ids", spanIds),
      ("heading_level", nullableBounded 1 6),
      ("list_kind", .record [("enum", .arr [.lit "ordered", .lit "unordered", .null])]),
      ("list_depth", nullableBounded 0 maxListDepth), ("row_count", nullableBounded 1 maxTableRows),
      ("column_count", nullableBounded 1 maxTableColumns),
      ("cells", .record [("type", .lit "array"), ("items", cell), ("maxItems", .nat maxTableCells)]),
      ("exclusion_kind", .record [("enum", .arr
        [.lit "page_header", .lit "page_footer", .lit "page_number", .null])]),
      ("confidence", .record [("type", .lit "number"), ("minimum", .nat 0), ("maximum", .nat 1)])]
  closed [("blocks", .record [("type", .lit "array"), ("items", block)])]

/-- An error of the schema validation: the validator that failed, and whether its path has a field of a table. -/
structure SchemaError where
  validator : String
  tablePath : Bool
  deriving DecidableEq, Repr

/-- A response of the provider: not an object, an object that violates the schema, or a list of blocks. -/
inductive RepairResponse where
  | notObject
  | malformed (first : SchemaError) (rest : List SchemaError)
  | conforming (blocks : List RepairBlock)

/-- `_schema_error_code` -/
def schemaErrorCode (errors : List SchemaError) : String :=
  if errors.any fun e =>
      e.validator ∉ ["additionalProperties", "required", "type", "enum"] && e.tablePath then
    "SEMANTIC_REPAIR_TABLE_INVALID"
  else "SEMANTIC_REPAIR_SCHEMA_INVALID"

/-! ### Contexts -/

/-- The requested spans of a document, in the order of their ordinals. -/
structure RepairContext where
  native : NativeDocument
  orderedSpanIds : List SpanId
  orderedSpanHashes : List Sha256

/-- `_repair_context` -/
def repairContext (native : NativeDocument) (requested : List SpanId) : RepairContext × Option String :=
  let known := (requested.map native.spanCatalog.lookup).reduceOption
  let ordered := sortBy (·.ordinal) known
  let context : RepairContext := ⟨native, ordered.map (·.spanId), ordered.map (·.textHash)⟩
  if ¬ requested.Nodup then (context, some "SEMANTIC_REPAIR_DUPLICATE_SPAN")
  else if known.length ≠ requested.length then (context, some "SEMANTIC_REPAIR_UNKNOWN_SPAN")
  else (context, none)

/-- The position of every requested span. -/
def RepairContext.positions (context : RepairContext) : Dict SpanId ℕ := Dict.ofList context.orderedSpanIds.zipIdx

/-! ### Validation of a plan -/

structure ValidatedPlan where
  plan : RepairPlan
  blocks : List SemanticBlock

/-- The outcome of the validation: the plan with its blocks, or the code of the rejection, and the plan when it
could be read. -/
structure PlanCheck where
  validated : Option ValidatedPlan
  code : Option String
  plan : Option RepairPlan

/-- `_parse_plan` -/
def parsePlan (blocks : List RepairBlock) : Option RepairPlan := (RepairPlan.validate blocks).toOption

/-- `_is_table_model_error` -/
def isTableModelError (codes : List String) : Bool :=
  codes.any fun code =>
    "REPAIR_BLOCK_TABLE".toList.isPrefixOf code.toList || "REPAIR_BLOCK_CELL".toList.isPrefixOf code.toList

/-- `_has_empty_non_table_span_ids` -/
def hasEmptyNonTableSpanIds (blocks : List RepairBlock) : Bool :=
  blocks.any fun b => b.kind ≠ .table && b.spanIds.isEmpty

/-- `_orders_valid` -/
def ordersValid (plan : RepairPlan) (context : RepairContext) : PyResult Bool := do
  let orders := plan.blocks.map (·.order)
  if orders ≠ sortBy id orders ∨ ¬ orders.Nodup then return false
  let positions ← plan.spanIds.mapM (Dict.getItem context.positions)
  return positions = List.range context.orderedSpanIds.length

/-- The corners of a cell in the order of the comparison. -/
def RepairCell.coordinates (c : RepairCell) : ℕ ×ₗ ℕ ×ₗ ℕ ×ₗ ℕ :=
  toLex (c.region.startRow, toLex (c.region.startColumn, toLex (c.region.endRow, c.region.endColumn)))

/-- `_tables_valid` -/
def tablesValid (blocks : List RepairBlock) : Bool :=
  blocks.all fun b => b.kind ≠ .table ||
    (b.cells.all (fun c => !c.spanIds.isEmpty) &&
      decide (b.cells.map (·.coordinates) = sortBy id (b.cells.map (·.coordinates))))

/-- The excluded spans of a list of blocks with the kinds of their exclusion. -/
def requestedExclusions (blocks : List RepairBlock) : List (SpanId × Option ExclusionKind) :=
  (blocks.filter fun b => b.kind = .exclude).flatMap fun b => b.spanIds.map fun i => (i, b.exclusionKind)

/-- The native spans as one assignment each. -/
def spanAssignments (native : NativeDocument) : List AssignedBlock :=
  native.orderedSpans.map fun span =>
    ⟨.paragraph ⟨span.ordinal, [span.spanId], by simp⟩, [span.spanId], span.page, span.bbox, span.bbox.toList⟩

/-- `_exclusions_valid` -/
def exclusionsValid (platform : Platform) (plan : RepairPlan) (native : NativeDocument) : PyResult Bool := do
  let requested := requestedExclusions plan.blocks
  if requested = [] then return true
  let (_, excluded) ← excludeRepeatedEdges platform native (spanAssignments native) native.spanCatalog
  let verified := Dict.ofList (excluded.map fun e => (e.spanId, e.kind))
  return requested.all fun p => verified.lookup p.1 = p.2

/-- `TableCellBlock(...)` for the cells of a repair block. -/
def RepairCell.toBlock (c : RepairCell) : TableCellBlock := ⟨c.region, c.spanIds, c.columnHeader, c.withinLimits⟩

/-- `_semantic_block`; an excluded block has none. -/
def RepairBlock.semanticBlock (b : RepairBlock) : PyResult (Option SemanticBlock) :=
  match b.kind with
  | .heading =>
    match b.headingLevel with
    | none => throw .assertionError
    | some level => do return some (.heading (← HeadingBlock.make b.order level b.spanIds))
  | .paragraph => do return some (.paragraph (← ParagraphBlock.make b.order b.spanIds))
  | .listItem =>
    match b.listKind, b.listDepth with
    | some listKind, some depth => do
      return some (.listItem (← ListItemBlock.make b.order listKind depth b.spanIds))
    | _, _ => throw .assertionError
  | .table =>
    match b.rowCount, b.columnCount with
    | some rows, some columns => do
      return some (.table (← TableBlock.make b.order rows columns (b.cells.map (·.toBlock))))
    | _, _ => throw .assertionError
  | .exclude => return none

/-- The part of `_validate_plan` after the plan could be read. -/
def checkPlan (platform : Platform) (threshold : ℚ) (context : RepairContext) (plan : RepairPlan) :
    PyResult PlanCheck := do
  if !(← ordersValid plan context) then return ⟨none, some "SEMANTIC_REPAIR_ORDER_INVALID", some plan⟩
  if !tablesValid plan.blocks then return ⟨none, some "SEMANTIC_REPAIR_TABLE_INVALID", some plan⟩
  if !(← exclusionsValid platform plan context.native) then
    return ⟨none, some "SEMANTIC_REPAIR_EXCLUSION_INVALID", some plan⟩
  if plan.blocks.any fun b => b.confidence < threshold then
    return ⟨none, some "SEMANTIC_REPAIR_CONFIDENCE_LOW", some plan⟩
  let blocks ← plan.blocks.mapM (·.semanticBlock)
  return ⟨some ⟨plan, blocks.reduceOption⟩, none, some plan⟩

/-- `_validate_plan` -/
def validatePlan (platform : Platform) (threshold : ℚ) (context : RepairContext) (response : RepairResponse) :
    PyResult PlanCheck :=
  match response with
  | .notObject => return ⟨none, some "SEMANTIC_REPAIR_SCHEMA_INVALID", none⟩
  | .malformed first rest => return ⟨none, some (schemaErrorCode (first :: rest)), none⟩
  | .conforming blocks =>
    let allocations := planAllocations blocks
    if hasEmptyNonTableSpanIds blocks then
      return ⟨none, some "SEMANTIC_REPAIR_SCHEMA_INVALID", parsePlan blocks⟩
    else if allocations.any (· ∉ context.orderedSpanIds) then
      return ⟨none, some "SEMANTIC_REPAIR_UNKNOWN_SPAN", parsePlan blocks⟩
    else if context.orderedSpanIds.any (· ∉ allocations) then
      return ⟨none, some "SEMANTIC_REPAIR_MISSING_SPAN", parsePlan blocks⟩
    else if ¬ allocations.Nodup then return ⟨none, some "SEMANTIC_REPAIR_DUPLICATE_SPAN", none⟩
    else
      match RepairPlan.validate blocks with
      | .error (.validationError codes) =>
        return ⟨none, some (if isTableModelError codes then "SEMANTIC_REPAIR_TABLE_INVALID"
          else "SEMANTIC_REPAIR_SCHEMA_INVALID"), none⟩
      | .error e => throw e
      | .ok plan => checkPlan platform threshold context plan

/-! ### Evidence batches -/

/-- The runs of consecutive requested spans without a page; `start` is the beginning of the current run. -/
def pagelessIntervals : List (Option ℕ) → ℕ → Option ℕ → List (ℕ × ℕ)
  | [], _, none => []
  | [], index, some start => [(start, index - 1)]
  | none :: pages, index, start => pagelessIntervals pages (index + 1) (some (start.getD index))
  | some _ :: pages, index, none => pagelessIntervals pages (index + 1) none
  | some _ :: pages, index, some start => (start, index - 1) :: pagelessIntervals pages (index + 1) none

/-- The interval from the least to the greatest of a list of positions. -/
def positionInterval (positions : List ℕ) : Option (ℕ × ℕ) :=
  match positions.min?, positions.max? with
  | some low, some high => some (low, high)
  | _, _ => none

/-- The positions of every page, from the first to the last one. -/
def pageIntervals (pages : List (Option ℕ)) : List (ℕ × ℕ) :=
  ((groupByKey Prod.fst (pages.zipIdx.map fun (page, index) => page.map fun p => (p, index)).reduceOption).map
    fun group => positionInterval (group.2.map Prod.snd)).reduceOption

/-- The requested positions of every native table, from the first to the last one. -/
def tableIntervals (context : RepairContext) : List (ℕ × ℕ) :=
  (context.native.tables.map fun table =>
    positionInterval (table.cellSpanIds.map context.positions.lookup).reduceOption).reduceOption

structure RepairBatch where
  context : RepairContext
  skeleton : StructureDocument

/-- The batch of the spans from one position to another. -/
def evidenceBatch (context : RepairContext) (skeleton : StructureDocument) (p : ℕ × ℕ) : PyResult RepairBatch := do
  let spanIds := (context.orderedSpanIds.take (p.2 + 1)).drop p.1
  let batch := repairContext context.native spanIds
  raiseIf (batch.2 ≠ none) .assertionError
  let batchSpans ← spanIds.mapM (Dict.getItem context.native.spanCatalog)
  let batchPages := batchSpans.map (·.page)
  return ⟨batch.1, ⟨skeleton.blocks.filter fun b => decide (b.page ∈ batchPages)⟩⟩

/-- `_evidence_batches` -/
def evidenceBatches (context : RepairContext) (skeleton : StructureDocument) : PyResult (List RepairBatch) := do
  if context.orderedSpanIds = [] then return []
  let spans ← context.orderedSpanIds.mapM (Dict.getItem context.native.spanCatalog)
  let pages := spans.map (·.page)
  let intervals := pagelessIntervals pages 0 none ++ pageIntervals pages ++ tableIntervals context
  let merged := Intervals.mergeSorted (sortBy toLex intervals)
  let covered := merged.flatMap fun p => List.range' p.1 (p.2 + 1 - p.1)
  raiseIf (covered ≠ List.range context.orderedSpanIds.length) .assertionError
  merged.mapM (evidenceBatch context skeleton)

/-- The position of the first span of a block. -/
def firstPosition (context : RepairContext) (block : RepairBlock) : PyResult ℕ :=
  match block.allocations with
  | [] => throw .assertionError
  | i :: _ => Dict.getItem context.positions i

/-- `_merge_batch_plans` -/
def mergeBatchPlans (context : RepairContext) (plans : List ValidatedPlan) : PyResult RepairPlan := do
  let blocks := plans.flatMap (·.plan.blocks)
  let keyed ← blocks.mapM fun b => do return (← firstPosition context b, b)
  let ordered := (sortBy Prod.fst keyed).map Prod.snd
  RepairPlan.validate (ordered.zipIdx.map fun (b, order) => { b with order := order })

end ArdOssie
