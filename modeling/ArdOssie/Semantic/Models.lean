import ArdOssie.Text
import ArdOssie.Library.Lists
import ArdOssie.Semantic.SourceBox

/-!
# The native document and its blocks

The records that the extraction, the reconciliation and the repair exchange.  The fields of a record that its
validator constrains come with the constraint; a constructor that validates its arguments returns in `PyResult`.
-/

namespace ArdOssie

/-- `MAX_TABLE_ROWS` -/
def maxTableRows : ℕ := 10000

/-- `MAX_TABLE_COLUMNS` -/
def maxTableColumns : ℕ := 256

/-- `MAX_TABLE_GRID_AREA` -/
def maxTableGridArea : ℕ := 100000

/-- `MAX_TABLE_CELLS` -/
def maxTableCells : ℕ := 100000

/-- `MAX_LIST_DEPTH` -/
def maxListDepth : ℕ := 32

inductive ExtractionMode where
  | pdfEmbedded
  | docxXml
  | ocr
  deriving DecidableEq, Repr

inductive ListKind where
  | ordered
  | unordered
  deriving DecidableEq, Repr

/-- The kinds of excluded source text. -/
inductive ExclusionKind where
  | pageHeader
  | pageFooter
  | pageNumber
  deriving DecidableEq, Repr

/-- A piece of source text with its place in the document. -/
@[ext]
structure SourceSpan where
  spanId : SpanId
  ordinal : ℕ
  page : Option ℕ
  bbox : Option SourceBox
  text : Text
  textHash : Sha256
  paragraphBreakBefore : Bool
  page_pos : ∀ p ∈ page, 1 ≤ p
  text_ne : text ≠ []
  textHash_eq : textHash = sha256 text

instance : DecidableEq SourceSpan := fun _ _ => decidable_of_iff _ SourceSpan.ext_iff.symm

inductive NativeGroupKind where
  | paragraph
  | listItem
  | table
  | caption
  | textBox
  | altText
  deriving DecidableEq, Repr

/-- A group of spans that the source format keeps together. -/
structure NativeGroup where
  order : ℕ
  kind : NativeGroupKind
  spanIds : List SpanId
  page : Option ℕ
  bbox : Option SourceBox
  tableIndex : Option ℕ
  page_pos : ∀ p ∈ page, 1 ≤ p
  deriving DecidableEq

/-! ### Table grids -/

/-- The rectangle of rows and columns that a table cell covers. -/
structure CellRegion where
  startRow : ℕ
  endRow : ℕ
  startColumn : ℕ
  endColumn : ℕ
  deriving DecidableEq, Repr

namespace CellRegion

/-- The grid positions of a region, row by row. -/
def positions (columnCount : ℕ) (r : CellRegion) : List ℕ :=
  (List.range' r.startRow (r.endRow - r.startRow)).flatMap fun row =>
    (List.range' r.startColumn (r.endColumn - r.startColumn)).map fun column => row * columnCount + column

/-- The constraints on the fields of a cell. -/
def WithinLimits (r : CellRegion) : Prop :=
  (r.startRow ≤ maxTableRows ∧ 0 < r.endRow ∧ r.endRow ≤ maxTableRows) ∧
    r.startColumn ≤ maxTableColumns ∧ 0 < r.endColumn ∧ r.endColumn ≤ maxTableColumns

instance (r : CellRegion) : Decidable r.WithinLimits := inferInstanceAs (Decidable (_ ∧ _))

end CellRegion

/-- Mark the positions of the cells, one cell after the other. -/
def occupyCells (errorPrefix : String) (rowCount columnCount : ℕ) :
    List CellRegion → List ℕ → PyResult (List ℕ)
  | [], occupied => return occupied
  | cell :: cells, occupied => do
    raiseIf (cell.endRow ≤ cell.startRow ∨ cell.endColumn ≤ cell.startColumn)
      (.valueError (errorPrefix ++ "_CELL_OFFSETS_INVALID"))
    raiseIf (rowCount < cell.endRow ∨ columnCount < cell.endColumn)
      (.valueError (errorPrefix ++ "_CELL_OFFSETS_OUT_OF_BOUNDS"))
    raiseIf (∃ position ∈ cell.positions columnCount, position ∈ occupied)
      (.valueError (errorPrefix ++ "_CELL_REGIONS_OVERLAP"))
    occupyCells errorPrefix rowCount columnCount cells (occupied ++ cell.positions columnCount)

/-- `_validate_grid`: the cells of a table cover every position of its grid exactly once. -/
@[irreducible] def validateGrid (cells : List CellRegion) (rowCount columnCount : ℕ) (errorPrefix : String) : PyResult Unit := do
  raiseIf (rowCount = 0 ∨ columnCount = 0) (.valueError "TABLE_DIMENSIONS_INVALID")
  raiseIf (maxTableRows < rowCount) (.valueError "TABLE_ROWS_LIMIT_EXCEEDED")
  raiseIf (maxTableColumns < columnCount) (.valueError "TABLE_COLUMNS_LIMIT_EXCEEDED")
  raiseIf (maxTableGridArea < rowCount * columnCount) (.valueError "TABLE_GRID_AREA_LIMIT_EXCEEDED")
  raiseIf (maxTableCells < cells.length) (.valueError "TABLE_CELL_COUNT_LIMIT_EXCEEDED")
  let occupied ← occupyCells errorPrefix rowCount columnCount cells []
  raiseIf (occupied.length ≠ rowCount * columnCount) (.valueError (errorPrefix ++ "_CELL_GRID_NOT_PARTITIONED"))

theorem CellRegion.unit_withinLimits : CellRegion.WithinLimits ⟨0, 1, 0, 1⟩ := by decide

theorem CellRegion.unit_span : (⟨0, 1, 0, 1⟩ : CellRegion).startRow < (⟨0, 1, 0, 1⟩ : CellRegion).endRow ∧
    (⟨0, 1, 0, 1⟩ : CellRegion).startColumn < (⟨0, 1, 0, 1⟩ : CellRegion).endColumn := by decide

theorem headingLevel_none : ∀ n ∈ (none : Option ℕ), 1 ≤ n ∧ n ≤ 6 := by simp

theorem listDepth_none : ∀ n ∈ (none : Option ℕ), 1 ≤ n ∧ n ≤ maxListDepth := by simp

/-- A cell of a native table. -/
structure NativeTableCell where
  region : CellRegion
  spanIds : List SpanId
  columnHeader : Bool
  bbox : Option SourceBox
  withinLimits : region.WithinLimits
  deriving DecidableEq

/-- A table of the source format. -/
structure NativeTable where
  order : ℕ
  rowCount : ℕ
  columnCount : ℕ
  cells : List NativeTableCell
  grid : validateGrid (cells.map (·.region)) rowCount columnCount "NATIVE_TABLE" = .ok ()
  deriving DecidableEq

/-- The spans of a native table, cell by cell. -/
def NativeTable.cellSpanIds (t : NativeTable) : List SpanId := t.cells.flatMap (·.spanIds)

/-- The text of a source as its format gives it. -/
structure NativeDocument where
  sourceHash : Sha256
  extractionMode : ExtractionMode
  pageCount : ℕ
  spans : List SourceSpan
  groups : List NativeGroup
  tables : List NativeTable
  spanIds_nodup : (spans.map (·.spanId)).Nodup
  ordinals_nodup : (spans.map (·.ordinal)).Nodup
  span_identity : ∀ s ∈ spans, s.spanId = makeSpanId sourceHash s.ordinal
  groupOrders_nodup : (groups.map (·.order)).Nodup
  groupSpanIds_nodup : (groups.flatMap (·.spanIds)).Nodup
  tableOrders_nodup : (tables.map (·.order)).Nodup
  groups_known : ∀ g ∈ groups, ∀ i ∈ g.spanIds, i ∈ spans.map (·.spanId)
  groups_nonempty : ∀ g ∈ groups, g.kind ≠ .table → g.spanIds ≠ []
  groups_table : ∀ g ∈ groups, if g.kind = .table then ∃ i ∈ g.tableIndex, i < tables.length else g.tableIndex = none
  tables_known : ∀ t ∈ tables, ∀ c ∈ t.cells, ∀ i ∈ c.spanIds, i ∈ spans.map (·.spanId)

namespace NativeDocument

/-- `span_catalog` -/
def spanCatalog (native : NativeDocument) : Dict SpanId SourceSpan :=
  Dict.ofList (native.spans.map fun s => (s.spanId, s))

/-- The identifiers of the spans. -/
def spanIds (native : NativeDocument) : List SpanId := native.spans.map (·.spanId)

/-- The spans in the order of their ordinals. -/
def orderedSpans (native : NativeDocument) : List SourceSpan := sortBy (·.ordinal) native.spans

theorem lookup_spanCatalog {native : NativeDocument} {s : SourceSpan} (h : s ∈ native.spans) :
    native.spanCatalog.lookup s.spanId = some s :=
  Dict.lookup_ofList (by simpa [Function.comp_def] using native.spanIds_nodup) (List.mem_map.2 ⟨s, h, rfl⟩)

theorem lookup_spanCatalog_eq_none {native : NativeDocument} {i : SpanId} (h : i ∉ native.spanIds) :
    native.spanCatalog.lookup i = none :=
  Dict.lookup_ofList_eq_none (by simpa [spanIds, Function.comp_def] using h)

/-- The catalog holds exactly the spans of the document. -/
theorem lookup_spanCatalog_eq_some {native : NativeDocument} {i : SpanId} {s : SourceSpan} :
    native.spanCatalog.lookup i = some s ↔ s ∈ native.spans ∧ s.spanId = i := by
  constructor
  · intro h
    by_cases hi : i ∈ native.spanIds
    · obtain ⟨s', hs', rfl⟩ := List.mem_map.1 hi
      rw [lookup_spanCatalog hs', Option.some_inj] at h
      exact ⟨h ▸ hs', by rw [h]⟩
    · rw [lookup_spanCatalog_eq_none hi] at h
      cases h
  · rintro ⟨h, rfl⟩
    exact lookup_spanCatalog h

end NativeDocument

/-! ### Semantic blocks -/

/-- A validation error hides the code of the check that failed. -/
def validated {α : Type} : PyResult α → PyResult α
  | .error (.valueError code) => .error (.validationError [code])
  | r => r

structure TableCellBlock where
  region : CellRegion
  spanIds : List SpanId
  columnHeader : Bool
  withinLimits : region.WithinLimits
  deriving DecidableEq

structure HeadingBlock where
  order : ℕ
  level : ℕ
  spanIds : List SpanId
  level_mem : 1 ≤ level ∧ level ≤ 6
  spanIds_ne : spanIds ≠ []
  deriving DecidableEq

structure ParagraphBlock where
  order : ℕ
  spanIds : List SpanId
  spanIds_ne : spanIds ≠ []
  deriving DecidableEq

structure ListItemBlock where
  order : ℕ
  listKind : ListKind
  depth : ℕ
  spanIds : List SpanId
  depth_le : depth ≤ maxListDepth
  spanIds_ne : spanIds ≠ []
  deriving DecidableEq

structure TableBlock where
  order : ℕ
  rowCount : ℕ
  columnCount : ℕ
  cells : List TableCellBlock
  cells_ne : cells ≠ []
  grid : validateGrid (cells.map (·.region)) rowCount columnCount "TABLE_BLOCK" = .ok ()
  deriving DecidableEq

inductive LosslessReason where
  | structureUnresolved
  | providerUnavailable
  | repairRejected
  deriving DecidableEq, Repr

structure LosslessBlock where
  order : ℕ
  spanIds : List SpanId
  reason : LosslessReason
  spanIds_ne : spanIds ≠ []
  deriving DecidableEq

/-- A block of a document whose text is given by references to source spans. -/
inductive SemanticBlock where
  | heading (block : HeadingBlock)
  | paragraph (block : ParagraphBlock)
  | listItem (block : ListItemBlock)
  | table (block : TableBlock)
  | lossless (block : LosslessBlock)
  deriving DecidableEq

namespace SemanticBlock

def order : SemanticBlock → ℕ
  | heading b => b.order
  | paragraph b => b.order
  | listItem b => b.order
  | table b => b.order
  | lossless b => b.order

/-- The spans of a block; those of a table cell by cell. -/
def spanIds : SemanticBlock → List SpanId
  | heading b => b.spanIds
  | paragraph b => b.spanIds
  | listItem b => b.spanIds
  | table b => b.cells.flatMap (·.spanIds)
  | lossless b => b.spanIds

/-- `model_copy(update={"order": order})` -/
def withOrder (order : ℕ) : SemanticBlock → SemanticBlock
  | heading b => heading { b with order := order }
  | paragraph b => paragraph { b with order := order }
  | listItem b => listItem { b with order := order }
  | table b => table { b with order := order }
  | lossless b => lossless { b with order := order }

/-- Whether the block is a table. -/
def isTable : SemanticBlock → Bool
  | table _ => true
  | _ => false

@[simp] theorem order_withOrder (n : ℕ) (b : SemanticBlock) : (b.withOrder n).order = n := by cases b <;> rfl

@[simp] theorem spanIds_withOrder (n : ℕ) (b : SemanticBlock) : (b.withOrder n).spanIds = b.spanIds := by
  cases b <;> rfl

end SemanticBlock

def TableCellBlock.make (region : CellRegion) (spanIds : List SpanId) (columnHeader : Bool) :
    PyResult TableCellBlock :=
  if h : region.WithinLimits then return ⟨region, spanIds, columnHeader, h⟩
  else throw (.validationError [])

def HeadingBlock.make (order level : ℕ) (spanIds : List SpanId) : PyResult HeadingBlock :=
  if h : (1 ≤ level ∧ level ≤ 6) ∧ spanIds ≠ [] then return ⟨order, level, spanIds, h.1, h.2⟩
  else throw (.validationError [])

def ParagraphBlock.make (order : ℕ) (spanIds : List SpanId) : PyResult ParagraphBlock :=
  if h : spanIds ≠ [] then return ⟨order, spanIds, h⟩
  else throw (.validationError [])

def ListItemBlock.make (order : ℕ) (listKind : ListKind) (depth : ℕ) (spanIds : List SpanId) :
    PyResult ListItemBlock :=
  if h : depth ≤ maxListDepth ∧ spanIds ≠ [] then return ⟨order, listKind, depth, spanIds, h.1, h.2⟩
  else throw (.validationError [])

def TableBlock.make (order rowCount columnCount : ℕ) (cells : List TableCellBlock) : PyResult TableBlock :=
  if h : cells ≠ [] then
    match hg : validateGrid (cells.map (·.region)) rowCount columnCount "TABLE_BLOCK" with
    | .ok () => return ⟨order, rowCount, columnCount, cells, h, hg⟩
    | .error e => validated (.error e)
  else throw (.validationError [])

def LosslessBlock.make (order : ℕ) (spanIds : List SpanId) (reason : LosslessReason) : PyResult LosslessBlock :=
  if h : spanIds ≠ [] then return ⟨order, spanIds, reason, h⟩
  else throw (.validationError [])

/-- A span left out of the document. -/
structure ExcludedSpan where
  spanId : SpanId
  kind : ExclusionKind
  deriving DecidableEq

/-- `_allocated_span_ids`, `_block_span_ids`: the spans of a list of blocks. -/
def blockSpanIds (blocks : List SemanticBlock) : List SpanId := blocks.flatMap (·.spanIds)

/-- A document of blocks in which no span is used twice. -/
structure ReconciledDocument where
  blocks : List SemanticBlock
  excludedSpans : List ExcludedSpan
  orders_nodup : (blocks.map (·.order)).Nodup
  excluded_nodup : (excludedSpans.map (·.spanId)).Nodup
  allocations_nodup : (blockSpanIds blocks).Nodup
  disjoint : ∀ i ∈ blockSpanIds blocks, i ∉ excludedSpans.map (·.spanId)

/-- The constructor of a reconciled document with its validator. -/
def ReconciledDocument.make (blocks : List SemanticBlock) (excludedSpans : List ExcludedSpan) :
    PyResult ReconciledDocument :=
  if ho : (blocks.map (·.order)).Nodup then
    if he : (excludedSpans.map (·.spanId)).Nodup then
      if ha : (blockSpanIds blocks).Nodup then
        if hd : ∀ i ∈ blockSpanIds blocks, i ∉ excludedSpans.map (·.spanId) then
          return ⟨blocks, excludedSpans, ho, he, ha, hd⟩
        else throw (.validationError ["RECONCILED_DOCUMENT_SPAN_EXCLUDED"])
      else throw (.validationError ["RECONCILED_DOCUMENT_SPAN_ALLOCATIONS_NOT_UNIQUE"])
    else throw (.validationError ["RECONCILED_DOCUMENT_EXCLUDED_SPANS_NOT_UNIQUE"])
  else throw (.validationError ["RECONCILED_DOCUMENT_BLOCK_ORDERS_NOT_UNIQUE"])

end ArdOssie
