import ArdOssie.Library.SequenceMatcher
import ArdOssie.Semantic.Models
import ArdOssie.Semantic.RectangleMatches

/-!
# Structure hints reconciled against the native spans

A skeleton of structural hints is matched against the native document.  A hint of an ordinary block takes a range of
consecutive native groups, a table hint a native table group or, in a PDF, the spans inside its geometry.  Spans are
claimed once: `reconcileStructure` keeps the list of allocated spans and a cursor into the native groups.
-/

namespace ArdOssie

/-- `OVERLAP_WEIGHT` -/
def overlapWeight : ℚ := 55 / 100

/-- `TEXT_SIMILARITY_WEIGHT` -/
def textSimilarityWeight : ℚ := 35 / 100

/-- `ORDER_WEIGHT` -/
def orderWeight : ℚ := 10 / 100

/-- `ACCEPTANCE_SCORE` -/
def acceptanceScore : ℚ := 72 / 100

/-- `PAGE_EDGE_BAND` -/
def pageEdgeBand : ℚ := 10 / 100

/-- `REPEAT_RATIO` -/
def repeatRatio : ℚ := 60 / 100

/-! ### Hints and assignments -/

structure StructureCell where
  region : CellRegion
  textHint : Text
  columnHeader : Bool
  bbox : Option SourceBox
  deriving DecidableEq

structure StructureTable where
  rowCount : ℕ
  columnCount : ℕ
  cells : List StructureCell
  deriving DecidableEq

inductive StructureKind where
  | heading
  | paragraph
  | listItem
  | table
  deriving DecidableEq, Repr

structure StructureBlock where
  kind : StructureKind
  order : ℕ
  page : Option ℕ
  bbox : Option SourceBox
  textHint : Text
  headingLevel : Option ℕ
  listKind : Option ListKind
  listDepth : Option ℕ
  table : Option StructureTable
  deriving DecidableEq

structure StructureDocument where
  blocks : List StructureBlock
  deriving DecidableEq

structure ReconciliationResult where
  blocks : List SemanticBlock
  unresolvedSpanIds : List SpanId
  excludedSpans : List ExcludedSpan

/-- A block with the spans it claims and their geometry. -/
structure AssignedBlock where
  semantic : SemanticBlock
  spanIds : List SpanId
  page : Option ℕ
  bbox : Option SourceBox
  sourceBoxes : List SourceBox

/-- A range of groups with its score against a hint. -/
structure GroupMatch where
  firstIndex : ℕ
  lastIndex : ℕ
  groups : List NativeGroup
  spanIds : List SpanId
  page : Option ℕ
  bbox : Option SourceBox
  score : ℚ

/-! ### Scores -/

/-- `_comparison_projection` -/
def comparisonProjection (platform : Platform) (value : Text) : Text :=
  (platform.casefold (platform.nfc value)).withoutWhitespace

/-- The text of a list of spans. -/
def spanText (catalog : Dict SpanId SourceSpan) (spanIds : List SpanId) : PyResult Text := do
  let spans ← spanIds.mapM (Dict.getItem catalog)
  return spans.flatMap (·.text)

/-- `_groups_location`: the page and the box of a list of groups, unless they lie on different pages. -/
def groupsLocation (groups : List NativeGroup) (catalog : Dict SpanId SourceSpan) :
    PyResult (Option (Option ℕ × Option SourceBox)) := do
  let members ← groups.mapM fun group => do return (group, ← group.spanIds.mapM (Dict.getItem catalog))
  let pages := (members.flatMap fun (group, spans) => (group.page :: spans.map (·.page)).reduceOption).eraseDups
  if 1 < pages.length then return none
  let boxes := members.flatMap fun (group, spans) => (group.bbox :: spans.map (·.bbox)).reduceOption
  return some (pages.head?, unionBoxes boxes)

/-- `_score_candidate`: the weighted mean of the similarity of the texts, the distance of the orders and, when both
boxes are known, their overlap. -/
def scoreCandidate (platform : Platform) (text textHint : Text) (candidateOrder structureOrder : ℕ)
    (page : Option ℕ) (bbox : Option SourceBox) (structurePage : Option ℕ) (structureBbox : Option SourceBox) :
    Option ℚ :=
  if page.isSome ∧ structurePage.isSome ∧ page ≠ structurePage then none
  else
    let similarity :=
      SequenceMatcher.ratio (comparisonProjection platform text) (comparisonProjection platform textHint)
    let distance : ℚ := 1 / (1 + ((candidateOrder : ℤ) - structureOrder).natAbs)
    let scores := [(textSimilarityWeight, similarity), (orderWeight, distance)]
    let mean := fun scores : List (ℚ × ℚ) =>
      (scores.map fun s => s.1 * s.2).sum / (scores.map Prod.fst).sum
    match bbox, structureBbox with
    | some bbox, some structureBbox =>
      let overlap := boxOverlapScore bbox structureBbox
      if overlap ≤ 0 then none else some (mean (scores ++ [(overlapWeight, overlap)]))
    | _, _ => some (mean scores)

/-! ### Ordinary blocks -/

/-- `_ordinary_group_compatible` -/
def ordinaryGroupCompatible (group : NativeGroup) (hint : StructureBlock) : Bool :=
  match group.kind with
  | .table | .altText | .textBox => false
  | .caption => hint.kind = .paragraph
  | _ => true

/-- A range is better when its score is higher, then when it starts and ends earlier. -/
def GroupMatch.better (m best : GroupMatch) : Bool :=
  decide (toLex (-m.score, toLex (m.firstIndex, m.lastIndex)) <
    toLex (-best.score, toLex (best.firstIndex, best.lastIndex)))

section MatchGroups

variable (platform : Platform) (catalog : Dict SpanId SourceSpan) (hint : StructureBlock)
  (allocated : List SpanId) (allowGroupRanges : Bool)

/-- The inner loop of `_match_groups`: extend the range that begins at `start` group by group. -/
def extendMatch (start : ℕ) : List NativeGroup → ℕ → List NativeGroup → List SpanId → Option GroupMatch →
    PyResult (Option GroupMatch)
  | [], _, _, _, best => return best
  | group :: rest, last, candidateGroups, candidateIds, best => do
    if start < last ∧ !allowGroupRanges then return best
    if !ordinaryGroupCompatible group hint then return best
    if group.spanIds.any (· ∈ allocated) then return best
    let candidateGroups := candidateGroups ++ [group]
    let candidateIds := candidateIds ++ group.spanIds
    if ¬ candidateIds.Nodup then return best
    match ← groupsLocation candidateGroups catalog with
    | none => return best
    | some (page, bbox) =>
      let candidateText ← spanText catalog candidateIds
      let candidateOrder := (candidateGroups.head?.getD group).order
      match scoreCandidate platform candidateText hint.textHint candidateOrder hint.order page bbox
          hint.page hint.bbox with
      | none => extendMatch start rest (last + 1) candidateGroups candidateIds best
      | some score =>
        if score < acceptanceScore then extendMatch start rest (last + 1) candidateGroups candidateIds best
        else
          let found : GroupMatch := ⟨start, last, candidateGroups, candidateIds, page, bbox, score⟩
          let best := match best with
            | none => some found
            | some best => some (if found.better best then found else best)
          extendMatch start rest (last + 1) candidateGroups candidateIds best

/-- The outer loop of `_match_groups`: try every beginning of a range. -/
def matchGroupsFrom : List NativeGroup → ℕ → Option GroupMatch → PyResult (Option GroupMatch)
  | [], _, best => return best
  | group :: rest, start, best => do
    if !ordinaryGroupCompatible group hint then matchGroupsFrom rest (start + 1) best
    else
      let best ← extendMatch platform catalog hint allocated allowGroupRanges start (group :: rest) start [] []
        best
      matchGroupsFrom rest (start + 1) best

/-- `_match_groups` -/
def matchGroups (groups : List NativeGroup) (cursor : ℕ) : PyResult (Option GroupMatch) :=
  matchGroupsFrom platform catalog hint allocated allowGroupRanges (groups.drop cursor) cursor none

end MatchGroups

/-- `_semantic_block` -/
def semanticBlock (hint : StructureBlock) (order : ℕ) (spanIds : List SpanId) : PyResult SemanticBlock :=
  match hint.kind with
  | .heading => do
    return .heading (← HeadingBlock.make order (max 1 (min 6 (hint.headingLevel.getD 1))) spanIds)
  | .listItem => do
    return .listItem (← ListItemBlock.make order (hint.listKind.getD .unordered)
      (hint.listDepth.getD 0) spanIds)
  | _ => do return .paragraph (← ParagraphBlock.make order spanIds)

/-- `_assigned_block` -/
def assignedBlock (semantic : SemanticBlock) (spanIds : List SpanId) (page : Option ℕ) (bbox : Option SourceBox)
    (catalog : Dict SpanId SourceSpan) (additionalBoxes : List SourceBox) : PyResult AssignedBlock := do
  let spans ← spanIds.mapM (Dict.getItem catalog)
  return ⟨semantic, spanIds, page, bbox, bbox.toList ++ additionalBoxes ++ (spans.map (·.bbox)).reduceOption⟩

/-! ### Tables -/

/-- `TableCellBlock(...)` for the cells of a native table. -/
def NativeTableCell.toBlock (cell : NativeTableCell) : TableCellBlock :=
  ⟨cell.region, cell.spanIds, cell.columnHeader, cell.withinLimits⟩

/-- A table is better when its score is higher, then when it comes first. -/
def betterTable (score : ℚ) (index : ℕ) : Option (ℚ × ℕ × NativeGroup) → Bool
  | none => true
  | some (bestScore, bestIndex, _) => decide (toLex (-score, index) < toLex (-bestScore, bestIndex))

/-- The loop of `_match_table`: the best native table group from a position on. -/
def matchTableFrom (platform : Platform) (catalog : Dict SpanId SourceSpan) (hint : StructureBlock)
    (allocated : List SpanId) : List NativeGroup → ℕ → Option (ℚ × ℕ × NativeGroup) →
    PyResult (Option (ℚ × ℕ × NativeGroup))
  | [], _, best => return best
  | group :: rest, index, best => do
    if group.kind ≠ .table ∨ group.spanIds.any (· ∈ allocated) then
      matchTableFrom platform catalog hint allocated rest (index + 1) best
    else
      match ← groupsLocation [group] catalog with
      | none => matchTableFrom platform catalog hint allocated rest (index + 1) best
      | some (page, bbox) =>
        let candidateText ← spanText catalog group.spanIds
        match scoreCandidate platform candidateText hint.textHint group.order hint.order page bbox hint.page
            hint.bbox with
        | none => matchTableFrom platform catalog hint allocated rest (index + 1) best
        | some score =>
          if score < acceptanceScore then matchTableFrom platform catalog hint allocated rest (index + 1) best
          else
            matchTableFrom platform catalog hint allocated rest (index + 1)
              (if betterTable score index best then some (score, index, group) else best)

/-- `_match_table` for a source format that marks its tables. -/
def matchNativeTable (platform : Platform) (native : NativeDocument) (groups : List NativeGroup)
    (catalog : Dict SpanId SourceSpan) (hint : StructureBlock) (cursor : ℕ) (allocated : List SpanId) :
    PyResult (Option (AssignedBlock × ℕ)) := do
  match ← matchTableFrom platform catalog hint allocated (groups.drop cursor) cursor none with
  | none => return none
  | some (_, index, group) =>
    match group.tableIndex.bind (native.tables[·]?) with
    | none => return none
    | some nativeTable =>
      if nativeTable.cells = [] then return none
      let spanIds := nativeTable.cellSpanIds
      if ¬ spanIds.Nodup ∨ ¬ (∀ i, i ∈ spanIds ++ group.spanIds → i ∈ spanIds ∧ i ∈ group.spanIds) then return none
      let order := if native.extractionMode = .docxXml then group.order else hint.order
      let semantic ← TableBlock.make order nativeTable.rowCount nativeTable.columnCount
        (nativeTable.cells.map (·.toBlock))
      match ← groupsLocation [group] catalog with
      | none => return none
      | some (page, bbox) =>
        let assignment ← assignedBlock (.table semantic) spanIds page bbox catalog
          (nativeTable.cells.map (·.bbox)).reduceOption
        return some (assignment, index + 1)

/-- The groups of a page that have a box, by index. -/
def groupLocations (groups : List NativeGroup) (catalog : Dict SpanId SourceSpan) (cursor page : ℕ) :
    PyResult (List (ℕ × SourceBox)) := do
  let located ← ((groups.drop cursor).zipIdx cursor).mapM fun (group, index) => do
    match ← groupsLocation [group] catalog with
    | some (some groupPage, some bbox) => return if groupPage = page then some (index, bbox) else none
    | _ => return none
  return located.reduceOption

/-- Distribute the spans over the cells that contain them; `none` when a span lies in no cell or in two. -/
def mapSpansToCells (cellMatches : Dict ℕ (List ℕ)) : List (SourceSpan × ℕ) → List (List SpanId) →
    PyResult (Option (List (List SpanId)))
  | [], mapped => return some mapped
  | (span, index) :: rest, mapped => do
    match ← Dict.getItem cellMatches index with
    | [destination] =>
      if destination < mapped.length then
        mapSpansToCells cellMatches rest (mapped.modify destination (· ++ [span.spanId]))
      else throw .indexError
    | _ => return none

/-- The cells of a hinted table with the spans mapped to them. -/
def mappedCells : List StructureCell → List (List SpanId) → PyResult (List TableCellBlock)
  | cell :: cells, spanIds :: mapped => do
    let block ← TableCellBlock.make cell.region spanIds cell.columnHeader
    return block :: (← mappedCells cells mapped)
  | _, _ => return []

/-- The spans of a PDF that lie in the geometry of a table, with the indexes of the native groups there. -/
structure TableGeometry where
  groupIndices : List ℕ
  geometryIds : List SpanId
  tableSpans : List SourceSpan

/-- The first part of `_match_pdf_table`: the spans that a table hint may claim. -/
def tableGeometry (native : NativeDocument) (groups : List NativeGroup) (catalog : Dict SpanId SourceSpan)
    (table : StructureTable) (tableBox : SourceBox) (page cursor : ℕ) (allocated : List SpanId) :
    PyResult TableGeometry := do
  let geometry := tableBox :: (table.cells.map (·.bbox)).reduceOption
  let geometryItems := geometry.zipIdx.map fun (box, index) => (index, box)
  let locations ← groupLocations groups catalog cursor page
  let groupMatches ← boundedRectangleMatches geometryItems locations 1
  let groupHits ← locations.mapM fun (index, _) => do
    return if (← Dict.getItem groupMatches index) = [] then none else some index
  let groupIndices := groupHits.reduceOption
  let groupIds := groupIndices.flatMap fun index => (groups[index]?.map (·.spanIds)).getD []
  let sourceQueries := native.spans.zipIdx.filterMap fun (span, index) =>
    if span.spanId ∉ allocated ∧ span.page = some page then span.bbox.map fun box => (index, box) else none
  let sourceMatches ← boundedRectangleMatches geometryItems sourceQueries 1
  let sourceHits ← sourceQueries.mapM fun (index, _) => do
    return if (← Dict.getItem sourceMatches index) = [] then none else native.spans[index]?.map (·.spanId)
  let geometryIds := sourceHits.reduceOption
  let candidateIds := groupIds ++ geometryIds
  return ⟨groupIndices, geometryIds,
    native.orderedSpans.filter fun span => decide (span.spanId ∈ candidateIds ∧ span.spanId ∉ allocated)⟩

/-- `_match_pdf_table` -/
def matchPdfTable (platform : Platform) (native : NativeDocument) (groups : List NativeGroup)
    (catalog : Dict SpanId SourceSpan) (hint : StructureBlock) (table : StructureTable) (cursor : ℕ)
    (allocated : List SpanId) : PyResult (Option (AssignedBlock × ℕ)) := do
  match hint.bbox <|> unionBoxes (table.cells.map (·.bbox)).reduceOption, hint.page with
  | some tableBox, some page =>
    let found ← tableGeometry native groups catalog table tableBox page cursor allocated
    if found.tableSpans = [] then return none
    if found.tableSpans.any fun span =>
        span.page ≠ some page || span.bbox = none || span.spanId ∉ found.geometryIds then return none
    let cellMatches ← boundedRectangleMatches
      (table.cells.zipIdx.filterMap fun (cell, index) => cell.bbox.map fun box => (index, box))
      (found.tableSpans.zipIdx.filterMap fun (span, index) => span.bbox.map fun box => (index, box)) 2
    match ← mapSpansToCells cellMatches found.tableSpans.zipIdx (table.cells.map fun _ => []) with
    | none => return none
    | some mapped =>
      let spanIds := found.tableSpans.map (·.spanId)
      let orders := ((groups.drop cursor).filter fun group => group.spanIds.any (· ∈ spanIds)).map (·.order)
      let score := scoreCandidate platform (found.tableSpans.flatMap (·.text)) hint.textHint
        (orders.min?.getD hint.order) hint.order (some page) (some tableBox) (some page) (some tableBox)
      if score.all (· < acceptanceScore) then return none
      let cells ← mappedCells table.cells mapped
      let semantic ← TableBlock.make hint.order table.rowCount table.columnCount cells
      let assignment ← assignedBlock (.table semantic) spanIds (some page) (some tableBox) catalog
        (table.cells.map (·.bbox)).reduceOption
      return some (assignment, (found.groupIndices.max?.map (· + 1)).getD cursor)
  | _, _ => return none

/-- `_match_table` -/
def matchTable (platform : Platform) (native : NativeDocument) (groups : List NativeGroup)
    (catalog : Dict SpanId SourceSpan) (hint : StructureBlock) (cursor : ℕ) (allocated : List SpanId) :
    PyResult (Option (AssignedBlock × ℕ)) :=
  match hint.table with
  | none => return none
  | some table =>
    if native.extractionMode = .pdfEmbedded then
      matchPdfTable platform native groups catalog hint table cursor allocated
    else matchNativeTable platform native groups catalog hint cursor allocated

/-! ### Repeated page edges -/

/-- The edges of a page where a header or a footer may stand. -/
inductive PageEdge where
  | top
  | bottom
  deriving DecidableEq, Repr

/-- `_PAGE_NUMBER.fullmatch`: a number, or a number of a number. -/
def isPageNumber (platform : Platform) (text : Text) : Bool :=
  let afterNumber := fun t : Text =>
    let t := t.dropWhile Text.isSpace
    if (t.takeWhile platform.isDecimal).isEmpty then none
    else some ((t.dropWhile platform.isDecimal).dropWhile Text.isSpace)
  match afterNumber text with
  | none => false
  | some [] => true
  | some ('/' :: t) => afterNumber t = some []
  | some _ => false

/-- The text that stands for a page number in the comparison of edges. -/
def pageNumberSignature : Text := "<PAGE_NUMBER>".toList

/-- The edge and the comparison text of an assignment at a page edge. -/
def edgeKey (platform : Platform) (catalog : Dict SpanId SourceSpan) (assignment : AssignedBlock) :
    PyResult (Option (PageEdge × Text)) :=
  match assignment.page, assignment.bbox with
  | some _, some bbox => do
    let edge :=
      if 1 - pageEdgeBand ≤ bbox.bottom then some PageEdge.top
      else if bbox.top ≤ pageEdgeBand then some PageEdge.bottom
      else none
    match edge with
    | none => return none
    | some edge =>
      let text ← spanText catalog assignment.spanIds
      let signature := if isPageNumber platform text then pageNumberSignature else comparisonProjection platform text
      return if signature = [] then none else some (edge, signature)
  | _, _ => return none

/-- `_overlaps_other_assignment` -/
def overlapsOtherAssignment (ownIndex : ℕ) (candidate : AssignedBlock) (assignments : List AssignedBlock) : Bool :=
  assignments.zipIdx.any fun (other, index) =>
    index ≠ ownIndex && other.page = candidate.page &&
      candidate.bbox.any fun box => other.sourceBoxes.any fun otherBox => boxesOverlap box otherBox

/-- The kind of exclusion of an edge with the given comparison text. -/
def edgeExclusionKind (key : PageEdge × Text) : ExclusionKind :=
  if key.2 = pageNumberSignature then .pageNumber
  else match key.1 with
    | .top => .pageHeader
    | .bottom => .pageFooter

/-- The assignments at page edges that are repeated on enough pages, with the kind of their exclusion. -/
def repeatedEdges (platform : Platform) (native : NativeDocument) (assignments : List AssignedBlock)
    (catalog : Dict SpanId SourceSpan) : PyResult (List (ℕ × AssignedBlock × ExclusionKind)) := do
  let threshold := max 2 (native.pageCount * repeatRatio).ceil.toNat
  let entries ← assignments.zipIdx.mapM fun (assignment, index) => do
    return (← edgeKey platform catalog assignment).map fun key => (key, index, assignment)
  return (groupByKey Prod.fst entries.reduceOption).flatMap fun (key, items) =>
    if (items.map fun (_, _, assignment) => assignment.page).eraseDups.length < threshold then []
    else items.filterMap fun (_, index, assignment) =>
      if overlapsOtherAssignment index assignment assignments then none
      else some (index, assignment, edgeExclusionKind key)

/-- `_exclude_repeated_edges` -/
def excludeRepeatedEdges (platform : Platform) (native : NativeDocument) (assignments : List AssignedBlock)
    (catalog : Dict SpanId SourceSpan) : PyResult (List AssignedBlock × List ExcludedSpan) := do
  if native.pageCount < 2 then return (assignments, [])
  let removed ← repeatedEdges platform native assignments catalog
  let excludedById := Dict.ofList (removed.flatMap fun (_, assignment, kind) =>
    assignment.spanIds.map fun spanId => (spanId, (⟨spanId, kind⟩ : ExcludedSpan)))
  let retained := (assignments.zipIdx.filter fun (_, index) => index ∉ removed.map Prod.fst).map Prod.fst
  return (retained, native.orderedSpans.filterMap fun span => excludedById.lookup span.spanId)

/-! ### Reconciliation -/

/-- The spans claimed so far, the blocks that claim them, and the position in the native groups. -/
structure ReconcileState where
  allocated : List SpanId
  assignments : List AssignedBlock
  cursor : ℕ

/-- The assignment of one hint with the cursor after it, if the hint finds a match. -/
def assignHint (platform : Platform) (native : NativeDocument) (groups : List NativeGroup)
    (catalog : Dict SpanId SourceSpan) (s : ReconcileState) (hint : StructureBlock) :
    PyResult (Option (AssignedBlock × ℕ)) := do
  if hint.kind = .table then matchTable platform native groups catalog hint s.cursor s.allocated
  else
    match ← matchGroups platform catalog hint s.allocated (native.extractionMode = .pdfEmbedded) groups s.cursor with
    | none => return none
    | some found =>
      let blockOrder :=
        if native.extractionMode = .docxXml then (found.groups.head?.map (·.order)).getD hint.order else hint.order
      let semantic ← semanticBlock hint blockOrder found.spanIds
      let assignment ← assignedBlock semantic found.spanIds found.page found.bbox catalog []
      return some (assignment, found.lastIndex + 1)

/-- One pass of the loop of `reconcile_structure`. -/
def reconcileStep (platform : Platform) (native : NativeDocument) (groups : List NativeGroup)
    (catalog : Dict SpanId SourceSpan) (s : ReconcileState) (hint : StructureBlock) : PyResult ReconcileState := do
  match ← assignHint platform native groups catalog s hint with
  | none => return s
  | some (assignment, cursor) =>
    if assignment.spanIds.any (· ∈ s.allocated) then return { s with cursor := cursor }
    else return ⟨s.allocated ++ assignment.spanIds, s.assignments ++ [assignment], cursor⟩

/-- `reconcile_structure` -/
def reconcileStructure (platform : Platform) (native : NativeDocument) (skeleton : StructureDocument) :
    PyResult ReconciliationResult := do
  let catalog := native.spanCatalog
  let groups := sortBy (·.order) native.groups
  let s ← (sortBy (·.order) skeleton.blocks).foldlM (reconcileStep platform native groups catalog) ⟨[], [], 0⟩
  let (assignments, excluded) ← excludeRepeatedEdges platform native s.assignments catalog
  let unresolved := native.orderedSpans.filter fun span =>
    decide (span.spanId ∉ s.allocated ∧ span.spanId ∉ excluded.map (·.spanId))
  return ⟨(sortBy (·.semantic.order) assignments).map (·.semantic), unresolved.map (·.spanId), excluded⟩

end ArdOssie
