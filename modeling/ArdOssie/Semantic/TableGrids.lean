import ArdOssie.Semantic.Candidates
import ArdOssie.Semantic.LayoutModels
import Mathlib.Algebra.Order.BigOperators.Group.List

/-!
# Cells and candidates of a table

The completion of some cells to a grid and the candidate of a table with its checks.
-/

namespace ArdOssie

/-! ### Cells -/

/-- The coordinates of a cell, its atoms and whether it is a header. -/
structure CellSpec where
  region : CellRegion
  atomIds : List AtomId
  columnHeader : Bool
  deriving DecidableEq

def CellRegion.jsonCoordinates (r : CellRegion) : List (String × Json) :=
  [("start_row", .nat r.startRow), ("end_row", .nat r.endRow), ("start_column", .nat r.startColumn),
    ("end_column", .nat r.endColumn)]

/-- The coordinates in the order of the cells. -/
def CellRegion.place (r : CellRegion) : ℕ ×ₗ ℕ ×ₗ ℕ ×ₗ ℕ :=
  toLex (r.startRow, toLex (r.startColumn, toLex (r.endRow, r.endColumn)))

/-- A position of a grid as the region of a cell. -/
def CellRegion.single (row column : ℕ) : CellRegion := ⟨row, row + 1, column, column + 1⟩

section Cells

variable (platform : Platform) (regionId : RegionId)

/-- `make_cell_id` with the payload of `_complete_cells` -/
def makeCellId (spec : CellSpec) : CellId :=
  ⟨(canonicalHash platform (.record [("region_id", regionId.json),
    ("payload", .record (spec.region.jsonCoordinates ++
      [("atom_ids", .arr (spec.atomIds.map (·.json)))]))])).prefix16⟩

/-- The conditions of a cell. -/
def CellSpec.Valid (spec : CellSpec) : Prop :=
  spec.region.WithinLimits ∧
    (spec.region.startRow < spec.region.endRow ∧ spec.region.startColumn < spec.region.endColumn) ∧ spec.atomIds.Nodup

instance CellSpec.decidableValid (spec : CellSpec) : Decidable spec.Valid := inferInstanceAs (Decidable (_ ∧ _ ∧ _))

/-- The code of the condition that a cell violates; a limit of a field has none. -/
def CellSpec.errorCodes (spec : CellSpec) : List String :=
  if ¬ spec.region.WithinLimits then []
  else if ¬ (spec.region.startRow < spec.region.endRow ∧ spec.region.startColumn < spec.region.endColumn) then
    ["TABLE_CELL_SPAN_INVALID"]
  else ["TABLE_CELL_ATOMS_DUPLICATE"]

/-- `TableCellCandidate(…)` -/
def CellSpec.cell (spec : CellSpec) : PyResult TableCellCandidate :=
  if h : spec.Valid then
    .ok ⟨makeCellId platform regionId spec, spec.region, spec.atomIds, spec.columnHeader, none, h.1, h.2.1, h.2.2⟩
  else .error (.validationError spec.errorCodes)

/-- The positions of a grid that the cells leave free. -/
def freePlaces (specs : List CellSpec) (rowCount columnCount : ℕ) : List (ℕ × ℕ) :=
  (gridPlaces rowCount columnCount).filter fun p => p ∉ specs.flatMap fun spec => spec.region.places

/-- The cells with an empty one for every free position. -/
def completeSpecs (specs : List CellSpec) (rowCount columnCount : ℕ) : List CellSpec :=
  specs ++ (freePlaces specs rowCount columnCount).map fun p => ⟨.single p.1 p.2, [], p.1 = 0⟩

/-- `_complete_cells` -/
def completeCells (specs : List CellSpec) (rowCount columnCount : ℕ) : PyResult (List TableCellCandidate) :=
  (sortBy (fun spec => spec.region.place) (completeSpecs specs rowCount columnCount)).mapM fun spec =>
    spec.cell platform regionId

variable {platform regionId}

theorem CellSpec.cell_eq_ok {spec : CellSpec} {cell : TableCellCandidate} (h : spec.cell platform regionId = .ok cell) :
    cell.region = spec.region ∧ cell.atomIds = spec.atomIds := by
  unfold CellSpec.cell at h
  split at h
  · cases h
    exact ⟨rfl, rfl⟩
  · cases h

section Complete

variable {specs : List CellSpec} {rowCount columnCount : ℕ} {cells : List TableCellCandidate}
  (h : completeCells platform regionId specs rowCount columnCount = .ok cells)

include h

/-- Every specified cell is there. -/
theorem exists_cell_of_completeCells {spec : CellSpec} (hspec : spec ∈ specs) :
    ∃ cell ∈ cells, cell.region = spec.region ∧ cell.atomIds = spec.atomIds := by
  have hin : spec ∈ sortBy (fun spec => spec.region.place) (completeSpecs specs rowCount columnCount) :=
    mem_sortBy.2 (List.mem_append_left _ hspec)
  obtain ⟨cell, hcell, hmade⟩ := exists_of_forall₂_left (mapM_eq_ok.1 h) hin
  exact ⟨cell, hcell, CellSpec.cell_eq_ok hmade⟩

/-- The other cells are empty. -/
theorem exists_spec_of_completeCells {cell : TableCellCandidate} (hcell : cell ∈ cells) :
    (∃ spec ∈ specs, cell.region = spec.region ∧ cell.atomIds = spec.atomIds) ∨ cell.atomIds = [] := by
  obtain ⟨spec, hin, hmade⟩ := exists_of_forall₂_right (mapM_eq_ok.1 h) hcell
  rcases List.mem_append.1 (mem_sortBy.1 hin) with hspec | hfree
  · exact Or.inl ⟨spec, hspec, CellSpec.cell_eq_ok hmade⟩
  · obtain ⟨p, -, rfl⟩ := List.mem_map.1 hfree
    exact Or.inr (CellSpec.cell_eq_ok hmade).2

end Complete

end Cells

/-! ### Candidates -/

def TableCellCandidate.json (cell : TableCellCandidate) : Json :=
  .record ([("cell_id", cell.cellId.json)] ++ cell.region.jsonCoordinates ++
    [("atom_ids", .arr (cell.atomIds.map (·.json))), ("column_header", .bool cell.columnHeader),
      ("rendered_text", .opt .str cell.renderedText)])

/-- The conditions of the cells of a table with given atoms. -/
structure TableValid (rowCount columnCount : ℕ) (cells : List TableCellCandidate) (atomIds : List AtomId) : Prop where
  rowCount_mem : 0 < rowCount ∧ rowCount ≤ maxTableRows
  columnCount_mem : 0 < columnCount ∧ columnCount ≤ maxTableColumns
  cells_mem : 1 ≤ cells.length ∧ cells.length ≤ maxTableCells
  atomIds_ne : atomIds ≠ []
  area_le : rowCount * columnCount ≤ maxTableGridArea
  cells_within : ∀ c ∈ cells, c.region.endRow ≤ rowCount ∧ c.region.endColumn ≤ columnCount
  cellIds_nodup : (cells.map (·.cellId)).Nodup
  allocations_nodup : (cells.flatMap (·.atomIds)).Nodup
  allocations_complete : cells.flatMap (·.atomIds) ⊆ atomIds ∧ atomIds ⊆ cells.flatMap (·.atomIds)
  grid : TableGridComplete cells rowCount columnCount

section Table

variable (rowCount columnCount : ℕ) (cells : List TableCellCandidate) (atomIds : List AtomId)

/-- `validate_table` and the limits of the fields -/
def validateTable : PyResult Unit := do
  raiseIf (¬ ((0 < rowCount ∧ rowCount ≤ maxTableRows) ∧ (0 < columnCount ∧ columnCount ≤ maxTableColumns) ∧
    (1 ≤ cells.length ∧ cells.length ≤ maxTableCells) ∧ atomIds ≠ [])) (.validationError [])
  raiseIf (maxTableGridArea < rowCount * columnCount) (.validationError ["TABLE_GRID_AREA_LIMIT"])
  raiseIf (¬ ∀ c ∈ cells, c.region.endRow ≤ rowCount ∧ c.region.endColumn ≤ columnCount)
    (.validationError ["TABLE_CELL_OUT_OF_BOUNDS"])
  raiseIf (¬ (cells.map (·.cellId)).Nodup) (.validationError ["TABLE_CELL_IDS_DUPLICATE"])
  raiseIf (¬ (cells.flatMap (·.atomIds)).Nodup) (.validationError ["TABLE_ATOM_ALLOCATION_DUPLICATE"])
  raiseIf (¬ (cells.flatMap (·.atomIds) ⊆ atomIds ∧ atomIds ⊆ cells.flatMap (·.atomIds)))
    (.validationError ["TABLE_ATOM_ALLOCATION_INCOMPLETE"])
  raiseIf (¬ (cells.flatMap (·.region.places)).Nodup) (.validationError ["TABLE_GRID_OVERLAP"])
  raiseIf (¬ TableGridComplete cells rowCount columnCount) (.validationError ["TABLE_GRID_NOT_PARTITIONED"])

variable {rowCount columnCount cells atomIds}

theorem validateTable_eq_ok :
    validateTable rowCount columnCount cells atomIds = .ok () ↔ TableValid rowCount columnCount cells atomIds := by
  unfold validateTable
  simp only [raiseIf_bind_eq_ok, raiseIf_eq_ok, not_not, not_lt]
  constructor
  · rintro ⟨⟨hrows, hcolumns, hcells, hne⟩, harea, hwithin, hids, hnodup, hcomplete, -, hgrid⟩
    exact ⟨hrows, hcolumns, hcells, hne, harea, hwithin, hids, hnodup, hcomplete, hgrid⟩
  · intro h
    exact ⟨⟨h.rowCount_mem, h.columnCount_mem, h.cells_mem, h.atomIds_ne⟩, h.area_le, h.cells_within, h.cellIds_nodup,
      h.allocations_nodup, h.allocations_complete, h.grid.1, h.grid⟩

end Table

/-- `_make_table_candidate` -/
def makeTableCandidate (platform : Platform) (region : LayoutRegion) (rowCount columnCount : ℕ)
    (cells : List TableCellCandidate) (score : Score) (features : Dict Text ℚ) : PyResult TableCandidate :=
  match h : validateTable rowCount columnCount cells region.atomIds with
  | .error e => .error e
  | .ok () =>
    have hvalid := validateTable_eq_ok.1 h
    .ok
      { candidateId := makeCandidateId platform "table" region.regionId (.record
          [("row_count", .nat rowCount), ("column_count", .nat columnCount), ("cells", .arr (cells.map (·.json)))])
        regionId := region.regionId
        score := score
        features := features
        rowCount := rowCount
        columnCount := columnCount
        cells := cells
        atomIds := region.atomIds
        rowCount_mem := hvalid.rowCount_mem
        columnCount_mem := hvalid.columnCount_mem
        cells_mem := hvalid.cells_mem
        atomIds_ne := hvalid.atomIds_ne
        area_le := hvalid.area_le
        cells_within := hvalid.cells_within
        cellIds_nodup := hvalid.cellIds_nodup
        allocations_nodup := hvalid.allocations_nodup
        allocations_complete := fun _ =>
          ⟨fun hi => hvalid.allocations_complete.1 hi, fun hi => hvalid.allocations_complete.2 hi⟩
        grid := hvalid.grid }

theorem makeTableCandidate_eq_ok {platform : Platform} {region : LayoutRegion} {rowCount columnCount : ℕ}
    {cells : List TableCellCandidate} {score : Score} {features : Dict Text ℚ} {candidate : TableCandidate}
    (h : makeTableCandidate platform region rowCount columnCount cells score features = .ok candidate) :
    TableValid rowCount columnCount cells region.atomIds ∧ candidate.cells = cells ∧
      candidate.rowCount = rowCount ∧ candidate.columnCount = columnCount ∧ candidate.atomIds = region.atomIds ∧
      candidate.features = features := by
  unfold makeTableCandidate at h
  split at h
  · cases h
  · rename_i hvalid
    cases h
    exact ⟨validateTable_eq_ok.1 hvalid, rfl, rfl, rfl, rfl, rfl⟩

theorem regionId_of_makeTableCandidate {platform : Platform} {region : LayoutRegion} {rowCount columnCount : ℕ}
    {cells : List TableCellCandidate} {score : Score} {features : Dict Text ℚ} {candidate : TableCandidate}
    (h : makeTableCandidate platform region rowCount columnCount cells score features = .ok candidate) :
    candidate.regionId = region.regionId := by
  unfold makeTableCandidate at h
  split at h
  · cases h
  · cases h
    rfl

/-! ### Specifications that fit a grid -/

section Fit

variable {platform : Platform} {regionId : RegionId} {specs : List CellSpec} {rowCount columnCount : ℕ}
  {cells : List TableCellCandidate} {atomIds : List AtomId}

theorem CellRegion.places_single (row column : ℕ) : (CellRegion.single row column).places = [(row, column)] := by
  simp [CellRegion.single, CellRegion.places]

/-- The cells that complete a grid are made exactly for valid specifications. -/
theorem completeCells_total_iff : (∃ cells, completeCells platform regionId specs rowCount columnCount = .ok cells) ↔
    ∀ spec ∈ completeSpecs specs rowCount columnCount, spec.Valid := by
  unfold completeCells
  rw [mapM_total_iff]
  refine ⟨fun h spec hspec => ?_, fun h spec hspec => ?_⟩
  · obtain ⟨cell, hcell⟩ := h spec (mem_sortBy.2 hspec)
    unfold CellSpec.cell at hcell
    split at hcell
    · assumption
    · cases hcell
  · unfold CellSpec.cell
    rw [dif_pos (h spec (mem_sortBy.1 hspec))]
    exact ⟨_, rfl⟩

/-- What a cell keeps of its specification. -/
def TableCellCandidate.spec (cell : TableCellCandidate) : CellSpec := ⟨cell.region, cell.atomIds, cell.columnHeader⟩

theorem spec_of_cell_eq_ok {spec : CellSpec} {cell : TableCellCandidate} (h : spec.cell platform regionId = .ok cell) :
    cell.spec = spec ∧ cell.cellId = makeCellId platform regionId spec ∧ cell.renderedText = none := by
  unfold CellSpec.cell at h
  split at h
  · cases h
    exact ⟨rfl, rfl, rfl⟩
  · cases h

theorem specs_of_completeCells (h : completeCells platform regionId specs rowCount columnCount = .ok cells) :
    cells.map (·.spec) = sortBy (fun spec => spec.region.place) (completeSpecs specs rowCount columnCount) ∧
      cells.map (·.cellId) = (sortBy (fun spec => spec.region.place) (completeSpecs specs rowCount columnCount)).map
        (makeCellId platform regionId) ∧ ∀ cell ∈ cells, cell.renderedText = none := by
  have hall := mapM_eq_ok.1 h
  generalize sortBy (fun spec => spec.region.place) (completeSpecs specs rowCount columnCount) = sorted at hall
  clear h
  induction hall with
  | nil => exact ⟨rfl, rfl, fun _ h => absurd h List.not_mem_nil⟩
  | cons hfirst _ ih =>
    obtain ⟨hspec, hid, htext⟩ := spec_of_cell_eq_ok hfirst
    obtain ⟨hspecs, hids, htexts⟩ := ih
    refine ⟨?_, ?_, List.forall_mem_cons.2 ⟨htext, htexts⟩⟩
    · rw [List.map_cons, hspec, hspecs]
    · rw [List.map_cons, hid, hids, List.map_cons]

/-- The specifications of cells that make a table of a grid with given atoms. -/
structure SpecsFit (platform : Platform) (regionId : RegionId) (specs : List CellSpec) (rowCount columnCount : ℕ)
    (atomIds : List AtomId) : Prop where
  rowCount_mem : 0 < rowCount ∧ rowCount ≤ maxTableRows
  columnCount_mem : 0 < columnCount ∧ columnCount ≤ maxTableColumns
  area_le : rowCount * columnCount ≤ maxTableGridArea
  atomIds_ne : atomIds ≠ []
  within : ∀ spec ∈ specs, spec.region.startRow < spec.region.endRow ∧ spec.region.endRow ≤ rowCount ∧
    spec.region.startColumn < spec.region.endColumn ∧ spec.region.endColumn ≤ columnCount
  ids : ((completeSpecs specs rowCount columnCount).map (makeCellId platform regionId)).Nodup
  allocations_nodup : (specs.flatMap (·.atomIds)).Nodup
  allocations_complete : specs.flatMap (·.atomIds) ⊆ atomIds ∧ atomIds ⊆ specs.flatMap (·.atomIds)
  places_nodup : (specs.flatMap (·.region.places)).Nodup

theorem flatMap_atomIds_completeSpecs :
    (completeSpecs specs rowCount columnCount).flatMap (·.atomIds) = specs.flatMap (·.atomIds) := by
  simp [completeSpecs, List.flatMap_map]

theorem flatMap_places_completeSpecs : (completeSpecs specs rowCount columnCount).flatMap (·.region.places) =
    specs.flatMap (·.region.places) ++ freePlaces specs rowCount columnCount := by
  simp [completeSpecs, List.flatMap_map, CellRegion.places_single]

/-- The cells have the specifications, the atoms and the places of the completed specifications. -/
theorem perms_of_completeCells (h : completeCells platform regionId specs rowCount columnCount = .ok cells) :
    (cells.map (·.spec)).Perm (completeSpecs specs rowCount columnCount) ∧
      (cells.flatMap (·.atomIds)).Perm (specs.flatMap (·.atomIds)) ∧
      (cells.flatMap (·.region.places)).Perm ((completeSpecs specs rowCount columnCount).flatMap (·.region.places)) := by
  have hperm := (specs_of_completeCells h).1 ▸ sortBy_perm _ (completeSpecs specs rowCount columnCount)
  have hatoms := hperm.flatMap_right (·.atomIds)
  have hplaces := hperm.flatMap_right (·.region.places)
  rw [List.flatMap_map, flatMap_atomIds_completeSpecs] at hatoms
  rw [List.flatMap_map] at hplaces
  exact ⟨hperm, hatoms, hplaces⟩

/-- A grid of cells covers its positions, each one once, when the specified cells do not overlap. -/
theorem nodup_places_completeSpecs (h : (specs.flatMap (·.region.places)).Nodup) :
    ((completeSpecs specs rowCount columnCount).flatMap (·.region.places)).Nodup := by
  rw [flatMap_places_completeSpecs]
  refine List.nodup_append'.2 ⟨h, ?_, ?_⟩
  · exact nodup_gridPlaces.filter _
  · intro p hp hfree
    exact of_decide_eq_true (List.mem_filter.1 hfree).2 hp

theorem mem_places_completeSpecs {p : ℕ × ℕ} (hp : p ∈ gridPlaces rowCount columnCount) :
    p ∈ (completeSpecs specs rowCount columnCount).flatMap (·.region.places) := by
  rw [flatMap_places_completeSpecs]
  by_cases hspec : p ∈ specs.flatMap (·.region.places)
  · exact List.mem_append_left _ hspec
  · exact List.mem_append_right _ (List.mem_filter.2 ⟨hp, decide_eq_true hspec⟩)

/-- Specifications that cover the grid are complete. -/
theorem completeSpecs_eq_self (h : ∀ p ∈ gridPlaces rowCount columnCount, p ∈ specs.flatMap (·.region.places)) :
    completeSpecs specs rowCount columnCount = specs := by
  have hfree : freePlaces specs rowCount columnCount = [] := by
    refine List.filter_eq_nil_iff.2 fun p hp => ?_
    rw [decide_eq_true_eq, not_not]
    exact h p hp
  rw [completeSpecs, hfree, List.map_nil, List.append_nil]

theorem within_completeSpecs (h : ∀ spec ∈ specs, spec.region.startRow < spec.region.endRow ∧
    spec.region.endRow ≤ rowCount ∧ spec.region.startColumn < spec.region.endColumn ∧
      spec.region.endColumn ≤ columnCount) :
    ∀ spec ∈ completeSpecs specs rowCount columnCount, spec.region.startRow < spec.region.endRow ∧
      spec.region.endRow ≤ rowCount ∧ spec.region.startColumn < spec.region.endColumn ∧
        spec.region.endColumn ≤ columnCount := by
  intro spec hspec
  rcases List.mem_append.1 hspec with hspec | hfree
  · exact h spec hspec
  · obtain ⟨p, hp, rfl⟩ := List.mem_map.1 hfree
    obtain ⟨hrow, hcolumn⟩ := mem_gridPlaces.1 (List.mem_filter.1 hp).1
    exact ⟨Nat.lt_succ_self _, hrow, Nat.lt_succ_self _, hcolumn⟩

/-- Specifications that fit, and those of the free places, are valid. -/
theorem SpecsFit.valid (h : SpecsFit platform regionId specs rowCount columnCount atomIds) :
    ∀ spec ∈ completeSpecs specs rowCount columnCount, spec.Valid := by
  intro spec hspec
  obtain ⟨hrow, hrow', hcolumn, hcolumn'⟩ := within_completeSpecs h.within spec hspec
  have hrows := h.rowCount_mem.2
  have hcolumns := h.columnCount_mem.2
  have hatoms := h.allocations_nodup
  rw [← @flatMap_atomIds_completeSpecs specs rowCount columnCount] at hatoms
  refine ⟨⟨?_, ?_⟩, ⟨hrow, hcolumn⟩, (List.nodup_flatMap.1 hatoms).1 spec hspec⟩
  · omega
  · omega

/-- There are at most as many separate cells as places. -/
theorem length_le_of_nodup_places (hnodup : (cells.flatMap (·.region.places)).Nodup)
    (hsub : ∀ p ∈ cells.flatMap (·.region.places), p ∈ gridPlaces rowCount columnCount) :
    cells.length ≤ rowCount * columnCount := by
  have hplace (cell : TableCellCandidate) : 1 ≤ cell.region.places.length := by
    have hfirst : (cell.region.startRow, cell.region.startColumn) ∈ cell.region.places :=
      CellRegion.mem_places.2 ⟨⟨le_rfl, cell.span.1⟩, le_rfl, cell.span.2⟩
    exact List.length_pos_of_mem hfirst
  calc cells.length = (cells.map fun _ => 1).sum := by simp
    _ ≤ (cells.map fun cell => cell.region.places.length).sum := List.sum_le_sum fun cell _ => hplace cell
    _ = (cells.flatMap (·.region.places)).length := by rw [List.length_flatMap]
    _ ≤ (gridPlaces rowCount columnCount).length := (List.subperm_of_subset hnodup hsub).length_le
    _ = rowCount * columnCount := length_gridPlaces

/-- Specifications give a table exactly when they fit. -/
theorem exists_table_iff_specsFit : (∃ cells, completeCells platform regionId specs rowCount columnCount = .ok cells ∧
    TableValid rowCount columnCount cells atomIds) ↔
      SpecsFit platform regionId specs rowCount columnCount atomIds := by
  constructor
  · rintro ⟨cells, hcells, hvalid⟩
    obtain ⟨-, hids, -⟩ := specs_of_completeCells hcells
    obtain ⟨-, hatoms, hplaces⟩ := perms_of_completeCells hcells
    rw [flatMap_places_completeSpecs] at hplaces
    refine ⟨hvalid.rowCount_mem, hvalid.columnCount_mem, hvalid.area_le, hvalid.atomIds_ne, ?_, ?_, ?_, ?_, ?_⟩
    · intro spec hspec
      obtain ⟨cell, hcell, hregion, -⟩ := exists_cell_of_completeCells hcells hspec
      obtain ⟨hrow, hcolumn⟩ := hvalid.cells_within cell hcell
      rw [← hregion]
      exact ⟨cell.span.1, hrow, cell.span.2, hcolumn⟩
    · have h := hvalid.cellIds_nodup
      rw [hids] at h
      exact nodup_map_sortBy.1 h
    · exact hatoms.nodup_iff.1 hvalid.allocations_nodup
    · exact ⟨fun i hi => hvalid.allocations_complete.1 (hatoms.mem_iff.2 hi),
        fun i hi => hatoms.mem_iff.1 (hvalid.allocations_complete.2 hi)⟩
    · exact (List.nodup_append'.1 (hplaces.nodup_iff.1 hvalid.grid.1)).1
  · intro h
    have hwithin := within_completeSpecs h.within
    obtain ⟨cells, hcells⟩ := completeCells_total_iff.2 h.valid
    obtain ⟨-, hids, -⟩ := specs_of_completeCells hcells
    obtain ⟨hperm, hatoms, hplaces⟩ := perms_of_completeCells hcells
    -- a place is in a cell of the specifications or was free and got a cell of its own
    have hin (cell : TableCellCandidate) (hcell : cell ∈ cells) := hwithin cell.spec
      (hperm.mem_iff.1 (List.mem_map_of_mem hcell))
    have hplacesNodup := hplaces.nodup_iff.2 (nodup_places_completeSpecs h.places_nodup)
    have hsub : ∀ p ∈ cells.flatMap (·.region.places), p ∈ gridPlaces rowCount columnCount := by
      intro p hp
      obtain ⟨cell, hcell, hp⟩ := List.mem_flatMap.1 hp
      obtain ⟨-, hrow, -, hcolumn⟩ := hin cell hcell
      have hp := CellRegion.mem_places.1 hp
      exact mem_gridPlaces.2 ⟨hp.1.2.trans_le hrow, hp.2.2.trans_le hcolumn⟩
    have hcover : ∀ p ∈ gridPlaces rowCount columnCount, p ∈ cells.flatMap (·.region.places) :=
      fun p hp => hplaces.mem_iff.2 (mem_places_completeSpecs hp)
    refine ⟨cells, hcells, h.rowCount_mem, h.columnCount_mem, ⟨?_, ?_⟩, h.atomIds_ne, h.area_le, ?_, ?_, ?_, ?_,
      hplacesNodup, hsub, hcover⟩
    · have hfirst := hcover (0, 0) (mem_gridPlaces.2 ⟨h.rowCount_mem.1, h.columnCount_mem.1⟩)
      obtain ⟨cell, hcell, -⟩ := List.mem_flatMap.1 hfirst
      exact List.length_pos_of_mem hcell
    · exact (length_le_of_nodup_places hplacesNodup hsub).trans h.area_le
    · intro cell hcell
      obtain ⟨-, hrow, -, hcolumn⟩ := hin cell hcell
      exact ⟨hrow, hcolumn⟩
    · rw [hids]
      exact nodup_map_sortBy.2 h.ids
    · exact hatoms.nodup_iff.2 h.allocations_nodup
    · exact ⟨fun i hi => h.allocations_complete.1 (hatoms.mem_iff.1 hi),
        fun i hi => hatoms.mem_iff.2 (h.allocations_complete.2 hi)⟩

theorem exists_makeTableCandidate_iff {region : LayoutRegion} {score : Score} {features : Dict Text ℚ} :
    (∃ candidate, makeTableCandidate platform region rowCount columnCount cells score features = .ok candidate) ↔
      TableValid rowCount columnCount cells region.atomIds := by
  refine ⟨fun ⟨_, h⟩ => (makeTableCandidate_eq_ok h).1, fun h => ?_⟩
  unfold makeTableCandidate
  split
  · rename_i herror
    rw [validateTable_eq_ok.2 h] at herror
    cases herror
  · exact ⟨_, rfl⟩

end Fit

end ArdOssie
