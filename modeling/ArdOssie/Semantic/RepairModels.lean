import ArdOssie.CanonicalHash
import ArdOssie.Semantic.Models

/-!
# Repair plans

A repair plan maps span identifiers to blocks.  The fields of a block are within the limits that the response schema
and the record share; the rules that combine the fields of a block are checked by `RepairBlock.validateStructure`.
-/

namespace ArdOssie

inductive RepairKind where
  | heading
  | paragraph
  | listItem
  | table
  | exclude
  deriving DecidableEq, Repr

@[ext]
structure RepairCell where
  region : CellRegion
  spanIds : List SpanId
  columnHeader : Bool
  withinLimits : region.WithinLimits

instance : DecidableEq RepairCell := fun _ _ => decidable_of_iff _ RepairCell.ext_iff.symm

structure RepairBlock where
  kind : RepairKind
  order : ℕ
  spanIds : List SpanId
  headingLevel : Option ℕ
  listKind : Option ListKind
  listDepth : Option ℕ
  rowCount : Option ℕ
  columnCount : Option ℕ
  cells : List RepairCell
  exclusionKind : Option ExclusionKind
  confidence : ℚ
  headingLevel_mem : ∀ n ∈ headingLevel, 1 ≤ n ∧ n ≤ 6
  listDepth_le : ∀ n ∈ listDepth, n ≤ maxListDepth
  rowCount_mem : ∀ n ∈ rowCount, 1 ≤ n ∧ n ≤ maxTableRows
  columnCount_mem : ∀ n ∈ columnCount, 1 ≤ n ∧ n ≤ maxTableColumns
  cells_le : cells.length ≤ maxTableCells
  confidence_mem : 0 ≤ confidence ∧ confidence ≤ 1
  deriving DecidableEq

namespace RepairBlock

/-- `_repair_block_span_ids`: the spans of a block; those of a table cell by cell. -/
def allocations (b : RepairBlock) : List SpanId :=
  if b.kind = .table then b.cells.flatMap (·.spanIds) else b.spanIds

/-- The checks of the table fields of a repair block. -/
def validateTableFields (b : RepairBlock) : PyResult Unit :=
  if b.kind = .table then
    match b.rowCount, b.columnCount with
    | some rows, some columns => do
      raiseIf (rows = 0 ∨ columns = 0) (.valueError "REPAIR_BLOCK_TABLE_DIMENSIONS_INVALID")
      raiseIf (b.spanIds ≠ []) (.valueError "REPAIR_BLOCK_TABLE_SPANS_INVALID")
      validateGrid (b.cells.map (·.region)) rows columns "REPAIR_BLOCK"
    | _, _ => throw (.valueError "REPAIR_BLOCK_TABLE_DIMENSIONS_REQUIRED")
  else
    raiseIf (b.rowCount ≠ none ∨ b.columnCount ≠ none ∨ b.cells ≠ [])
      (.valueError "REPAIR_BLOCK_TABLE_FIELDS_INVALID")

/-- The validator of a repair block. -/
def validateStructure (b : RepairBlock) : PyResult Unit := do
  b.validateTableFields
  raiseIf (if b.kind = .heading then ∀ n ∈ b.headingLevel, ¬ (1 ≤ n ∧ n ≤ 6) else b.headingLevel ≠ none)
    (.valueError "REPAIR_BLOCK_HEADING_LEVEL_INVALID")
  raiseIf (if b.kind = .listItem then b.listKind = none ∨ b.listDepth = none
      else b.listKind ≠ none ∨ b.listDepth ≠ none)
    (.valueError "REPAIR_BLOCK_LIST_METADATA_INVALID")
  raiseIf (b.kind = .exclude ∧ b.exclusionKind = none) (.valueError "REPAIR_BLOCK_EXCLUSION_KIND_REQUIRED")
  raiseIf (b.kind ≠ .exclude ∧ b.exclusionKind ≠ none) (.valueError "REPAIR_BLOCK_EXCLUSION_KIND_INVALID")

end RepairBlock

/-- The spans that a list of blocks allocates, block by block. -/
def planAllocations (blocks : List RepairBlock) : List SpanId := blocks.flatMap (·.allocations)

/-- A plan of valid blocks in which no span is allocated twice. -/
structure RepairPlan where
  blocks : List RepairBlock
  blocks_valid : ∀ b ∈ blocks, b.validateStructure = .ok ()
  allocations_nodup : (planAllocations blocks).Nodup
  deriving DecidableEq

/-- `_plan_span_ids` -/
def RepairPlan.spanIds (plan : RepairPlan) : List SpanId := planAllocations plan.blocks

/-- The code of the error of a failed check. -/
def errorCode : PyResult Unit → Option String
  | .error (.valueError code) => some code
  | _ => none

/-- `RepairPlan.model_validate`: the errors of all blocks, then the check of the allocations. -/
def RepairPlan.validate (blocks : List RepairBlock) : PyResult RepairPlan :=
  if hb : ∀ b ∈ blocks, b.validateStructure = .ok () then
    if ha : (planAllocations blocks).Nodup then return ⟨blocks, hb, ha⟩
    else throw (.validationError ["REPAIR_PLAN_SPAN_ALLOCATIONS_NOT_UNIQUE"])
  else throw (.validationError ((blocks.map fun b => errorCode b.validateStructure).reduceOption))

/-! ### The hash of a plan -/

def RepairKind.text : RepairKind → String
  | heading => "heading"
  | paragraph => "paragraph"
  | listItem => "list_item"
  | table => "table"
  | exclude => "exclude"

def ListKind.text : ListKind → String
  | ordered => "ordered"
  | unordered => "unordered"

def ExclusionKind.text : ExclusionKind → String
  | pageHeader => "page_header"
  | pageFooter => "page_footer"
  | pageNumber => "page_number"

/-- The identifiers of spans as a JSON value. -/
def spanIdsJson (ids : List SpanId) : Json := .arr (ids.map fun i => .str i.text)

/-- The offsets of a cell as JSON fields. -/
def CellRegion.jsonFields (r : CellRegion) : List (String × Json) :=
  [("start_row", .nat r.startRow), ("end_row", .nat r.endRow), ("start_column", .nat r.startColumn),
    ("end_column", .nat r.endColumn)]

/-- `RepairPlan.model_dump(mode="json")` -/
def RepairPlan.toJson (plan : RepairPlan) : Json :=
  .record [("blocks", .arr (plan.blocks.map fun b => .record
    [("kind", .lit b.kind.text), ("order", .nat b.order), ("span_ids", spanIdsJson b.spanIds),
      ("heading_level", .opt .nat b.headingLevel), ("list_kind", .opt (fun k => .lit k.text) b.listKind),
      ("list_depth", .opt .nat b.listDepth), ("row_count", .opt .nat b.rowCount),
      ("column_count", .opt .nat b.columnCount),
      ("cells", .arr (b.cells.map fun c => .record (c.region.jsonFields ++
        [("span_ids", spanIdsJson c.spanIds), ("column_header", .bool c.columnHeader)]))),
      ("exclusion_kind", .opt (fun k => .lit k.text) b.exclusionKind), ("confidence", .float b.confidence)]))]

/-- The canonical hash of a plan. -/
def RepairPlan.hash (platform : Platform) (plan : RepairPlan) : Sha256 := canonicalHash platform plan.toJson

/-! ### Repair records -/

inductive RepairOutcome where
  | applied
  | reused
  | rejected
  | degraded
  deriving DecidableEq, Repr

/-- The fields of a repair record. -/
structure RepairRecordFields where
  sourceHash : Sha256
  orderedSpanHashes : List Sha256
  parserVersion : Text
  promptVersion : Text
  schemaHash : Sha256
  provider : Text
  model : Text
  outcome : RepairOutcome
  plan : Option RepairPlan
  providerErrorCode : Option String
  validationCodes : List String
  appliedOrders : List ℕ
  rejectedOrders : List ℕ
  planHash : Option Sha256

/-- The rules that combine the fields of a repair record. -/
structure RepairRecordFields.Valid (platform : Platform) (r : RepairRecordFields) : Prop where
  applied_nodup : r.appliedOrders.Nodup
  rejected_nodup : r.rejectedOrders.Nodup
  orders_disjoint : ∀ n ∈ r.appliedOrders, n ∉ r.rejectedOrders
  plan_required : r.outcome = .applied ∨ r.outcome = .reused → r.plan.isSome ∧ r.planHash.isSome
  planHash_eq : ∀ h ∈ r.planHash, ∃ plan ∈ r.plan, h = plan.hash platform

/-- The audit record of a structure repair. -/
structure RepairRecord (platform : Platform) extends RepairRecordFields where
  valid : toRepairRecordFields.Valid platform

/-- The constructor of a repair record with its validator. -/
def RepairRecord.make (platform : Platform) (r : RepairRecordFields) : PyResult (RepairRecord platform) :=
  if h₁ : r.appliedOrders.Nodup ∧ r.rejectedOrders.Nodup then
    if h₂ : ∀ n ∈ r.appliedOrders, n ∉ r.rejectedOrders then
      if h₃ : r.outcome = .applied ∨ r.outcome = .reused → r.plan.isSome ∧ r.planHash.isSome then
        if h₄ : ∀ h ∈ r.planHash, ∃ plan ∈ r.plan, h = plan.hash platform then
          return ⟨r, ⟨h₁.1, h₁.2, h₂, h₃, h₄⟩⟩
        else throw (.validationError ["REPAIR_RECORD_PLAN_HASH_INVALID"])
      else throw (.validationError ["REPAIR_RECORD_PLAN_REQUIRED"])
    else throw (.validationError ["REPAIR_RECORD_ORDERS_OVERLAP"])
  else throw (.validationError ["REPAIR_RECORD_ORDERS_NOT_UNIQUE"])

theorem RepairRecord.make_of_valid {platform : Platform} {r : RepairRecordFields} (h : r.Valid platform) :
    RepairRecord.make platform r = .ok ⟨r, h⟩ := by
  unfold RepairRecord.make
  rw [dif_pos ⟨h.applied_nodup, h.rejected_nodup⟩, dif_pos h.orders_disjoint, dif_pos h.plan_required,
    dif_pos h.planHash_eq]
  rfl

end ArdOssie
