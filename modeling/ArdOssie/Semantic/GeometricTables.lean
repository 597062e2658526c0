import ArdOssie.Library.Binary64
import ArdOssie.Library.Components
import ArdOssie.Semantic.HintedTables
import ArdOssie.Semantic.Structure

/-!
# Tables from the geometry of lines

The rows of a table are the groups of lines that overlap vertically, its columns the clusters of their left edges.  Every
line takes a span of columns of its row; a second candidate splits the cells that span several columns.
-/

namespace ArdOssie

open Text (isSpace withoutWhitespace)

/-! ### Rows -/

/-- `_vertical_overlap` -/
def verticalOverlap (first second : SourceBox) : Bool := max first.bottom second.bottom < min first.top second.top

section Rows

variable (lines : List LayoutLine)

/-- Two lines, by their indices, overlap vertically. -/
def linesOverlap (i j : ℕ) : Bool :=
  match lines[i]?, lines[j]? with
  | some first, some second => verticalOverlap first.bbox second.bbox
  | _, _ => false

/-- The key of a row; coordinates lie between `0` and `1`. -/
def rowKey (group : List LayoutLine) : ℚ ×ₗ ℚ :=
  toLex (-(group.map (·.bbox.top)).foldl max 0, (group.map (·.bbox.left)).foldl min 1)

/-- `_row_groups`: the lines are remaining indices, and a row is a component of them. -/
def rowGroups : List (List LayoutLine) :=
  sortBy rowKey ((Components.components (linesOverlap lines) lines.length (List.range lines.length)).map fun component =>
    (sortBy id component).filterMap fun i => lines[i]?)

/-- `row_by_line` -/
def rowByLine : Dict LineId ℕ :=
  Dict.ofList ((rowGroups lines).zipIdx.flatMap fun entry => entry.1.map fun line => (line.lineId, entry.2))

end Rows

/-! ### Columns -/

/-- `median`, for at least one value -/
def median (values : List ℚ) : ℚ :=
  let sorted := sortBy id values
  if values.length % 2 = 1 then sorted.getD (values.length / 2) 0
  else binary64 (binary64 (sorted.getD (values.length / 2 - 1) 0 + sorted.getD (values.length / 2) 0) / 2)

/-- A position starts a cluster or joins the last one. -/
def addPosition (clusters : List (List ℚ)) (position : ℚ) : List (List ℚ) :=
  match clusters.getLast? with
  | none => [[position]]
  | some last =>
    if binary64 (4 / 100) < binary64 (position - median last) then clusters ++ [[position]]
    else clusters.dropLast ++ [last ++ [position]]

/-- `_column_anchors` without a hint; with one its value is not used. -/
def columnAnchors (lines : List LayoutLine) : List ℚ :=
  ((sortBy id (lines.map (·.bbox.left))).foldl addPosition []).map median

/-- `_nearest_anchor`, for at least one anchor -/
def nearestAnchor (position : ℚ) (anchors : List ℚ) : ℕ :=
  (maxBy (fun index => -|binary64 (anchors.getD index 0 - position)|) (List.range anchors.length)).getD 0

/-! ### Cells -/

/-- The cell of a line in its row. -/
def lineRegion (columnAnchors : List ℚ) (columnCount row : ℕ) (line : LayoutLine) : CellRegion :=
  let startColumn := nearestAnchor line.bbox.left columnAnchors
  let endColumn := max (startColumn + 1)
    (columnAnchors.countP fun anchor => anchor < binary64 (line.bbox.right - binary64 (2 / 100)))
  ⟨row, row + 1, startColumn, min columnCount endColumn⟩

/-- The coordinates of a cell as they are sorted. -/
def CellRegion.coordinates (r : CellRegion) : ℕ ×ₗ ℕ ×ₗ ℕ ×ₗ ℕ :=
  toLex (r.startRow, toLex (r.endRow, toLex (r.startColumn, r.endColumn)))

/-- The specifications of the cells that lines fall into. -/
def groupedSpecs (entries : List (CellRegion × List AtomId)) : List CellSpec :=
  (sortBy (fun group => group.1.coordinates) (groupByKey Prod.fst entries)).map fun group =>
    ⟨group.1, group.2.flatMap Prod.snd, group.1.startRow = 0⟩

/-- `_geometric_cell_specs` with the rows and the columns of the lines -/
def geometricCellSpecs (lines : List LayoutLine) : PyResult (List CellSpec) := do
  let anchors := columnAnchors lines
  let entries ← lines.mapM fun line => do
    let row ← (rowByLine lines).getItem line.lineId
    return (lineRegion anchors anchors.length row line, line.atomIds)
  return groupedSpecs entries

/-- `_geometry_table_candidate` -/
def geometryTableCandidate (platform : Platform) (region : LayoutRegion) (lines : List LayoutLine)
    (catalog : Dict AtomId EvidenceAtom) (tableHint : Option StructureTable) : PyResult TableCandidate := do
  let rowCount := tableHint.elim (rowGroups lines).length (·.rowCount)
  let columnCount := tableHint.elim (columnAnchors lines).length (·.columnCount)
  raiseIf (rowCount = 0 ∨ columnCount = 0) (.valueError "TABLE_GRID_DIMENSIONS_INVALID")
  match tableHint with
  | some hint =>
    let cellSpecs ← hintedCellSpecs catalog lines hint
    let cells ← completeCells platform region.regionId cellSpecs rowCount columnCount
    let hinted ← applyCellTextHints catalog cells hint
    makeTableCandidate platform region rowCount columnCount hinted ⟨94 / 100, Score.percent94_mem⟩
      (Dict.ofList [("geometry_grid".toList, 82 / 100), ("docling_grid_agreement".toList, 94 / 100)])
  | none =>
    let cellSpecs ← geometricCellSpecs lines
    let cells ← completeCells platform region.regionId cellSpecs rowCount columnCount
    makeTableCandidate platform region rowCount columnCount cells ⟨82 / 100, Score.percent82_mem⟩
      (Dict.ofList [("geometry_grid".toList, 82 / 100), ("docling_grid_agreement".toList, 0)])

/-! ### Spacing -/

/-- A word of one Hangul syllable among the words of a text. -/
def hasSuspiciousHangulSpacing (value : Text) : Bool :=
  (value.splitOnP isSpace).any fun token =>
    match token with
    | [c] => isHangul c
    | _ => false

section LanguageSpacing

variable (scorer : SpacingScorer)

/-- The text of a cell with other spacing. -/
def spacedCellText (cell : TableCellCandidate) : Option Text :=
  match cell.renderedText with
  | none => none
  | some source =>
    if Text.strip source = [] ∨ hasSuspiciousHangulSpacing source = false then none
    else (scorer.propose source [source]).find? fun proposal =>
      withoutWhitespace proposal = withoutWhitespace source ∧ proposal ≠ source

/-- `_language_spacing_table_candidate` -/
def languageSpacingTableCandidate (platform : Platform) (region : LayoutRegion) (candidate : TableCandidate) :
    Option SpacingScorer → PyResult (Option TableCandidate)
  | none => return none
  | some scorer => do
    if candidate.cells.all fun cell => (spacedCellText scorer cell).isNone then return none
    else
      let cells := candidate.cells.map fun cell =>
        { cell with renderedText := spacedCellText scorer cell <|> cell.renderedText }
      let spaced ← makeTableCandidate platform region candidate.rowCount candidate.columnCount cells
        ⟨95 / 100, Score.percent95_mem⟩ (candidate.features.insert "cell_spacing_language".toList (95 / 100))
      return some spaced

end LanguageSpacing

/-! ### Split cells -/

section Split

variable (catalog : Dict AtomId EvidenceAtom) (anchors : List ℚ)

/-- The column of an atom in a cell that spans several. -/
def atomColumn (region : CellRegion) (atom : EvidenceAtom) : ℕ :=
  match atom.bbox with
  | none => region.startColumn
  | some bbox =>
    let center := binary64 (binary64 (bbox.left + bbox.right) / 2)
    min (region.endColumn - 1) (max region.startColumn (nearestAnchor center anchors))

/-- The cells of a column each, with the atoms of the columns. -/
def columnCells (spec : CellSpec) (columns : List ℕ) : List CellSpec :=
  (List.range' spec.region.startColumn (spec.region.endColumn - spec.region.startColumn)).map fun column =>
    ⟨⟨spec.region.startRow, spec.region.endRow, column, column + 1⟩,
      ((columns.zip spec.atomIds).filter fun entry => entry.1 = column).map Prod.snd, spec.columnHeader⟩

/-- The cells that a cell is split into, when its atoms are in several of its columns. -/
def splitCell (spec : CellSpec) : PyResult (Option (List CellSpec)) := do
  if spec.region.endColumn - spec.region.startColumn ≤ 1 then return none
  else
    let columns ← spec.atomIds.mapM fun i => do
      let atom ← catalog.getItem i
      return atomColumn anchors spec.region atom
    if columns.eraseDups.length ≤ 1 then return none else return some (columnCells spec columns)

end Split

/-- `_split_spanning_cells` -/
def splitSpanningCells (platform : Platform) (region : LayoutRegion) (candidate : TableCandidate)
    (catalog : Dict AtomId EvidenceAtom) (lines : List LayoutLine) : PyResult (Option TableCandidate) := do
  let split ← candidate.cells.mapM fun cell => splitCell catalog (columnAnchors lines) cell.spec
  if split.all (·.isNone) then return none
  else
    let specs := (candidate.cells.zip split).flatMap fun entry => entry.2.getD [entry.1.spec]
    let cells ← completeCells platform region.regionId specs candidate.rowCount candidate.columnCount
    let made ← makeTableCandidate platform region candidate.rowCount candidate.columnCount cells
      (Score.clamp (candidate.score.val - 6 / 100)) (candidate.features.insert "split_boundary_variant".toList (76 / 100))
    return some made

/-! ### The candidate set -/

/-- `_overlaps` -/
def regionOverlaps (region : LayoutRegion) (box : SourceBox) : Bool :=
  max region.bbox.left box.left < min region.bbox.right box.right ∧
    max region.bbox.bottom box.bottom < min region.bbox.top box.top

/-- `_matching_table_hint` -/
def matchingTableHint (region : LayoutRegion) (hints : StructureDocument) : Option StructureTable :=
  (maxBy (fun block : StructureBlock => -(block.order : ℤ)) (hints.blocks.filter fun block =>
    block.kind = .table ∧ block.table ≠ none ∧ block.page = some region.page ∧
      block.bbox.any (regionOverlaps region))).bind (·.table)

/-- `{line.line_id: line for line in layout.lines}` -/
def LayoutDocument.lineCatalog (layout : LayoutDocument) : Dict LineId LayoutLine :=
  Dict.ofList (layout.lines.map fun line => (line.lineId, line))

instance : DecidableEq LayoutRegion := fun _ _ => decidable_of_iff _ LayoutRegion.ext_iff.symm

section Build

variable (platform : Platform)

/-- The candidate that a hint proves. -/
def provenTableCandidate (isWord : Char → Bool) (region : LayoutRegion) (catalog : Dict AtomId EvidenceAtom) :
    Option StructureTable → PyResult (Option TableCandidate)
  | some tableHint => invariantHintTableCandidate platform isWord region tableHint catalog
  | none => .ok none

/-- The candidate of the geometry with the one that the hint proves, if there is one. -/
def withProven (geometry : TableCandidate) : Option TableCandidate → List TableCandidate
  | none => [geometry]
  | some proven => if proven.candidateId = geometry.candidateId then [proven] else [geometry, proven]

/-- The candidates of a table with or without a hint. -/
def tableCandidates (isWord : Char → Bool) (region : LayoutRegion) (lines : List LayoutLine)
    (catalog : Dict AtomId EvidenceAtom) (scorer : Option SpacingScorer) (tableHint : Option StructureTable) :
    PyResult (List TableCandidate) := do
  let geometry ← geometryTableCandidate platform region lines catalog tableHint
  let proven ← provenTableCandidate platform isWord region catalog tableHint
  let languageSpacing ← languageSpacingTableCandidate platform region geometry scorer
  let split ← splitSpanningCells platform region geometry catalog lines
  return withProven geometry proven ++
    (languageSpacing.toList ++ split.toList.filter fun c => c.candidateId ≠ geometry.candidateId)

/-- The set of the best candidates. -/
def bestTables (sourceHash : Sha256) (regionId : RegionId) (candidates : List TableCandidate) : PyResult CandidateSet :=
  let ordered := (sortBy (fun c : TableCandidate => toLex (-c.score.val, c.candidateId.value)) candidates).take 5
  CandidateSet.make (makeCandidateSetId platform sourceHash regionId (ordered.map (·.candidateId))) sourceHash regionId
    .table (ordered.map .table)

/-- `build_table_candidate_set` -/
def buildTableCandidateSet (isWord : Char → Bool) (region : LayoutRegion) (evidence : EvidenceDocument)
    (layout : LayoutDocument) (hints : StructureDocument) (scorer : Option SpacingScorer) : PyResult CandidateSet := do
  raiseIf (evidence.sourceHash ≠ layout.sourceHash) (.valueError "TABLE_SOURCE_HASH_MISMATCH")
  raiseIf (layout.regionCatalog.lookup region.regionId ≠ some region) (.valueError "TABLE_REGION_UNKNOWN")
  let catalog := evidence.atomCatalog
  raiseIf (¬ (region.atomIds.Nodup ∧ ∀ i ∈ region.atomIds, (catalog.lookup i).isSome))
    (.valueError "TABLE_REGION_ATOM_INVALID")
  let lines ← region.lineIds.mapM fun i =>
    (layout.lineCatalog.getItem i).mapError fun _ => .valueError "TABLE_REGION_LINE_UNKNOWN"
  raiseIf (lines.isEmpty) (.valueError "TABLE_REGION_LINES_EMPTY")
  let candidates ← tableCandidates platform isWord region lines catalog scorer (matchingTableHint region hints)
  bestTables platform layout.sourceHash region.regionId candidates

end Build

section Proofs

variable {lines : List LayoutLine}

/-! ### Every line has a row -/

private theorem filterMap_range_getElem? {α : Type} (l : List α) :
    (List.range l.length).filterMap (fun i => l[i]?) = l := by
  have hmap : (List.range l.length).map (fun i => l[i]?) = l.map some := by
    refine List.ext_getElem (by simp) fun i hi hi' => ?_
    rw [List.length_map] at hi'
    rw [List.getElem_map, List.getElem_range, List.getElem?_eq_getElem hi', List.getElem_map]
  calc (List.range l.length).filterMap (fun i => l[i]?)
      = ((List.range l.length).map fun i => l[i]?).filterMap id := by rw [List.filterMap_map]; rfl
    _ = l := by rw [hmap, List.filterMap_map]; exact List.filterMap_some

/-- The rows hold every line once. -/
theorem flatten_rowGroups_perm (lines : List LayoutLine) : (rowGroups lines).flatten.Perm lines := by
  have hcomponents := @Components.components_perm _ _ (linesOverlap lines) _ lines.length
    (List.length_range.le : (List.range lines.length).length ≤ _) List.nodup_range
  have hlines := hcomponents.filterMap fun i => lines[i]?
  rw [filterMap_range_getElem?, List.filterMap_flatten, ← List.flatMap_def] at hlines
  unfold rowGroups
  refine ((sortBy_perm _ _).flatten).trans ?_
  rw [← List.flatMap_def]
  exact (List.Perm.flatMap_left _ fun component _ => (sortBy_perm id component).filterMap _).trans hlines

/-- A line is in a row with a number. -/
private theorem mem_rowEntries {group : List LayoutLine} {row : ℕ} (hgroup : (rowGroups lines)[row]? = some group)
    {line : LayoutLine} (hline : line ∈ group) : (line.lineId, row) ∈ (rowGroups lines).zipIdx.flatMap fun entry =>
      entry.1.map fun line => (line.lineId, entry.2) :=
  List.mem_flatMap.2 ⟨(group, row), List.mk_mem_zipIdx_iff_getElem?.2 hgroup, List.mem_map_of_mem hline⟩

/-- Every line is in a row. -/
theorem exists_row {line : LayoutLine} (hline : line ∈ lines) :
    ∃ row, (rowByLine lines).lookup line.lineId = some row ∧ row < (rowGroups lines).length := by
  obtain ⟨group, hgroup, hin⟩ := List.mem_flatten.1 ((flatten_rowGroups_perm lines).mem_iff.2 hline)
  obtain ⟨index, hindex⟩ := List.mem_iff_getElem?.1 hgroup
  obtain ⟨row, hrow⟩ := Dict.exists_lookup_ofList (List.mem_map_of_mem (f := Prod.fst) (mem_rowEntries hindex hin))
  refine ⟨row, hrow, ?_⟩
  obtain ⟨entry, hentry, hmem⟩ := List.mem_flatMap.1 (Dict.mem_of_lookup_ofList hrow)
  obtain ⟨_, _, heq⟩ := List.mem_map.1 hmem
  obtain ⟨-, rfl⟩ := Prod.mk.inj heq
  exact (List.getElem?_eq_some_iff.1 (List.mk_mem_zipIdx_iff_getElem?.1 hentry)).1

theorem linesOverlap_symm (i j : ℕ) : linesOverlap lines i j = linesOverlap lines j i := by
  unfold linesOverlap verticalOverlap
  cases lines[i]? with
  | none => cases lines[j]? <;> rfl
  | some first =>
    cases lines[j]? with
    | none => rfl
    | some second =>
      dsimp only
      rw [max_comm, min_comm]

/-- Two lines that overlap vertically are in the same row. -/
theorem lookup_rowByLine_eq (hids : (lines.map (·.lineId)).Nodup) {first second : LayoutLine} (hfirst : first ∈ lines)
    (hsecond : second ∈ lines) (h : verticalOverlap first.bbox second.bbox = true) :
    (rowByLine lines).lookup first.lineId = (rowByLine lines).lookup second.lineId := by
  obtain ⟨i, hi⟩ := List.mem_iff_getElem?.1 hfirst
  obtain ⟨j, hj⟩ := List.mem_iff_getElem?.1 hsecond
  have hin {k : ℕ} {line : LayoutLine} (hk : lines[k]? = some line) : k ∈ List.range lines.length :=
    List.mem_range.2 (List.getElem?_eq_some_iff.1 hk).1
  have hrelated : linesOverlap lines i j = true := by
    unfold linesOverlap
    rw [hi, hj]
    exact h
  obtain ⟨component, hcomponent, hmem⟩ := List.mem_flatten.1 ((@Components.components_perm _ _ (linesOverlap lines) _
    lines.length (List.length_range.le : (List.range lines.length).length ≤ _) List.nodup_range).mem_iff.2 (hin hi))
  have hmem' := Components.mem_of_related linesOverlap_symm List.nodup_range (hin hj) hrelated hcomponent hmem
  -- both lines are in the group of one component, which has one number
  obtain ⟨row, hrow⟩ := List.mem_iff_getElem?.1 ((@mem_sortBy _ _ _ rowKey _ _).2 (List.mem_map_of_mem hcomponent))
  have hkeys : ((rowGroups lines).zipIdx.flatMap fun entry => entry.1.map fun line => (line.lineId, entry.2)).map
      Prod.fst = (rowGroups lines).flatten.map (·.lineId) := by
    rw [List.map_flatMap, List.map_flatten, ← List.flatMap_def]
    simp only [List.map_map, Function.comp_def]
    conv_rhs => rw [← List.zipIdx_map_fst 0 (rowGroups lines)]
    rw [List.flatMap_map]
  have hnodup := ((flatten_rowGroups_perm lines).map (·.lineId)).nodup_iff.2 hids
  rw [← hkeys] at hnodup
  have hlookup {k : ℕ} {line : LayoutLine} (hk : lines[k]? = some line) (hmem : k ∈ component) :
      (rowByLine lines).lookup line.lineId = some row :=
    Dict.lookup_ofList hnodup (mem_rowEntries hrow (List.mem_filterMap.2 ⟨k, mem_sortBy.2 hmem, hk⟩))
  rw [hlookup hi hmem, hlookup hj hmem']

/-! ### Every line has columns -/

private theorem addPosition_ne_nil (clusters : List (List ℚ)) (position : ℚ) : addPosition clusters position ≠ [] := by
  unfold addPosition
  split
  · exact List.cons_ne_nil _ _
  · split
    · exact List.append_ne_nil_of_right_ne_nil _ (List.cons_ne_nil _ _)
    · exact List.append_ne_nil_of_right_ne_nil _ (List.cons_ne_nil _ _)

theorem columnAnchors_ne_nil (hlines : lines ≠ []) : columnAnchors lines ≠ [] := by
  unfold columnAnchors
  rw [ne_eq, List.map_eq_nil_iff]
  have hsorted : sortBy id (lines.map (·.bbox.left)) ≠ [] := by
    rw [ne_eq, ← List.length_eq_zero_iff, length_sortBy, List.length_map, List.length_eq_zero_iff]
    exact hlines
  cases h : sortBy id (lines.map (·.bbox.left)) with
  | nil => exact absurd h hsorted
  | cons position positions =>
    rw [List.foldl_cons]
    exact @foldl_keeps _ _ addPosition (fun clusters => clusters ≠ []) _ _ (fun _ _ _ _ => addPosition_ne_nil _ _)
      (addPosition_ne_nil _ _)

theorem nearestAnchor_lt (position : ℚ) {anchors : List ℚ} (h : anchors ≠ []) :
    nearestAnchor position anchors < anchors.length := by
  unfold nearestAnchor
  have hrange : List.range anchors.length ≠ [] := by
    rw [ne_eq, List.range_eq_nil, List.length_eq_zero_iff]
    exact h
  obtain ⟨index, hindex⟩ := @exists_maxBy _ _ _ (fun index => -|binary64 (anchors.getD index 0 - position)|) _ hrange
  rw [hindex]
  exact List.mem_range.1 (maxBy_mem hindex)

theorem lineRegion_columns {anchors : List ℚ} (h : anchors ≠ []) (row : ℕ) (line : LayoutLine) :
    (lineRegion anchors anchors.length row line).startColumn < (lineRegion anchors anchors.length row line).endColumn ∧
      (lineRegion anchors anchors.length row line).endColumn ≤ anchors.length := by
  have hstart := nearestAnchor_lt line.bbox.left h
  unfold lineRegion
  dsimp only
  omega

/-! ### The specified cells -/

/-- The row of a line. -/
def rowOf (lines : List LayoutLine) (line : LayoutLine) : ℕ := ((rowByLine lines).lookup line.lineId).getD 0

/-- The cell that a line falls into. -/
def tableRegion (lines : List LayoutLine) (line : LayoutLine) : CellRegion :=
  lineRegion (columnAnchors lines) (columnAnchors lines).length (rowOf lines line) line

/-- The cells that the lines fall into. -/
def tableSpecs (lines : List LayoutLine) : List CellSpec :=
  groupedSpecs (lines.map fun line => (tableRegion lines line, line.atomIds))

theorem geometricCellSpecs_eq (lines : List LayoutLine) : geometricCellSpecs lines = .ok (tableSpecs lines) := by
  have hentries : (lines.mapM fun line => do
      let row ← (rowByLine lines).getItem line.lineId
      return (lineRegion (columnAnchors lines) (columnAnchors lines).length row line, line.atomIds) : PyResult _) =
        .ok (lines.map fun line => (tableRegion lines line, line.atomIds)) := by
    refine mapM_eq_map fun line hline => ?_
    obtain ⟨row, hrow, -⟩ := exists_row hline
    rw [Dict.getItem_eq_ok.2 hrow, tableRegion, rowOf, hrow]
    rfl
  unfold geometricCellSpecs
  dsimp only
  rw [hentries]
  rfl

section Grouped

variable {entries : List (CellRegion × List AtomId)}

theorem nodup_region_groupedSpecs : ((groupedSpecs entries).map (·.region)).Nodup := by
  unfold groupedSpecs
  rw [List.map_map]
  exact nodup_map_sortBy.2 (nodup_keys_groupByKey Prod.fst entries)

theorem mem_region_groupedSpecs {r : CellRegion} : r ∈ (groupedSpecs entries).map (·.region) ↔ r ∈ entries.map Prod.fst := by
  unfold groupedSpecs
  rw [List.map_map]
  have hkeys : r ∈ (groupByKey Prod.fst entries).map Prod.fst ↔ r ∈ entries.map Prod.fst := by
    simp [groupByKey, Function.comp_def]
  rw [← hkeys]
  exact ((sortBy_perm _ _).map _).mem_iff

theorem atomIds_groupedSpecs_perm : ((groupedSpecs entries).flatMap (·.atomIds)).Perm (entries.flatMap Prod.snd) := by
  unfold groupedSpecs
  rw [List.flatMap_map]
  refine ((sortBy_perm _ _).flatMap_right _).trans ?_
  rw [← List.flatMap_assoc]
  exact (flatMap_groupByKey_perm Prod.fst entries).flatMap_right _

end Grouped

end Proofs

end ArdOssie
