import ArdOssie.Semantic.GeometricTables

/-!
# Table candidates without a hint

Without a hint the candidates of a table are made exactly when the lines of a row take up the same columns or separate
ones, the grid is within the limits and its atoms are those of the region.
-/

namespace ArdOssie

/-! ### Lines of a row -/

/-- Two lines of one row take up the same columns or separate ones. -/
def SpansApart (lines : List LayoutLine) : Prop :=
  ∀ first ∈ lines, ∀ second ∈ lines, rowOf lines first = rowOf lines second →
    tableRegion lines first = tableRegion lines second ∨
      (tableRegion lines first).endColumn ≤ (tableRegion lines second).startColumn ∨
      (tableRegion lines second).endColumn ≤ (tableRegion lines first).startColumn

section Geometry

variable {platform : Platform} {region : LayoutRegion} {lines : List LayoutLine} {catalog : Dict AtomId EvidenceAtom}

theorem tableRegion_within (hlines : lines ≠ []) {line : LayoutLine} (hline : line ∈ lines) :
    (tableRegion lines line).startRow < (tableRegion lines line).endRow ∧
      (tableRegion lines line).endRow ≤ (rowGroups lines).length ∧
      (tableRegion lines line).startColumn < (tableRegion lines line).endColumn ∧
      (tableRegion lines line).endColumn ≤ (columnAnchors lines).length := by
  obtain ⟨row, hrow, hlt⟩ := exists_row hline
  have hrowOf : rowOf lines line = row := by rw [rowOf, hrow, Option.getD_some]
  obtain ⟨hcolumn, hcolumn'⟩ := lineRegion_columns (columnAnchors_ne_nil hlines) (rowOf lines line) line
  refine ⟨Nat.lt_succ_self _, ?_, hcolumn, hcolumn'⟩
  show rowOf lines line + 1 ≤ _
  omega

/-- The places of cells of one row each are separate. -/
private theorem disjoint_places_iff {first second : CellRegion} (hfirst : first.endRow = first.startRow + 1)
    (hsecond : second.endRow = second.startRow + 1) (hcolumns : first.startColumn < first.endColumn)
    (hcolumns' : second.startColumn < second.endColumn) :
    List.Disjoint first.places second.places ↔ first.startRow ≠ second.startRow ∨
      first.endColumn ≤ second.startColumn ∨ second.endColumn ≤ first.startColumn := by
  constructor
  · intro h
    by_contra hmeet
    push Not at hmeet
    refine h (a := (first.startRow, max first.startColumn second.startColumn)) ?_ ?_
    · refine CellRegion.mem_places.2 ⟨⟨le_rfl, ?_⟩, le_max_left _ _, ?_⟩
      · omega
      · omega
    · refine CellRegion.mem_places.2 ⟨⟨?_, ?_⟩, le_max_right _ _, ?_⟩
      · omega
      · omega
      · omega
  · intro h p hp hq
    have hp := CellRegion.mem_places.1 hp
    have hq := CellRegion.mem_places.1 hq
    omega

/-- Cells with separate regions have separate places when they are pairwise disjoint. -/
private theorem nodup_flatMap_places_iff {specs : List CellSpec} (hspecs : (specs.map (·.region)).Nodup) :
    (specs.flatMap (·.region.places)).Nodup ↔
      ∀ r ∈ specs.map (·.region), ∀ r' ∈ specs.map (·.region), r = r' ∨ List.Disjoint r.places r'.places := by
  rw [List.nodup_flatMap]
  constructor
  · rintro ⟨-, hpairwise⟩ r hr r' hr'
    obtain ⟨spec, hspec, rfl⟩ := List.mem_map.1 hr
    obtain ⟨spec', hspec', rfl⟩ := List.mem_map.1 hr'
    have hsymm : Std.Symm (Function.onFun List.Disjoint fun spec : CellSpec => spec.region.places) :=
      ⟨fun _ _ h _ ha hb => h hb ha⟩
    by_cases heq : spec.region = spec'.region
    · exact Or.inl heq
    · exact Or.inr (hpairwise.forall hspec hspec' fun h => heq (congrArg _ h))
  · intro h
    refine ⟨fun spec _ => CellRegion.nodup_places _, ?_⟩
    refine (hspecs.of_map _).pairwise_of_forall_ne fun spec hspec spec' hspec' hne => ?_
    have hregion : spec.region ≠ spec'.region := fun heq => hne (List.inj_on_of_nodup_map hspecs hspec hspec' heq)
    exact (h _ (List.mem_map_of_mem hspec) _ (List.mem_map_of_mem hspec')).resolve_left hregion

/-- The cells of the lines do not overlap exactly when the lines of a row are apart. -/
theorem nodup_places_tableSpecs_iff (hlines : lines ≠ []) :
    ((tableSpecs lines).flatMap (·.region.places)).Nodup ↔ SpansApart lines := by
  rw [tableSpecs, nodup_flatMap_places_iff nodup_region_groupedSpecs]
  simp only [mem_region_groupedSpecs, List.map_map, List.forall_mem_map, Function.comp_apply]
  refine forall₂_congr fun first hfirst => forall₂_congr fun second hsecond => ?_
  obtain ⟨-, -, hcolumns, -⟩ := tableRegion_within hlines hfirst
  obtain ⟨-, -, hcolumns', -⟩ := tableRegion_within hlines hsecond
  -- the cell of a line has one row, so that only columns of the same row can meet
  rw [disjoint_places_iff rfl rfl hcolumns hcolumns']
  show _ ∨ rowOf lines first ≠ rowOf lines second ∨ _ ↔ _
  constructor
  · rintro (heq | hrow | hcolumn) hsame
    · exact Or.inl heq
    · exact absurd hsame hrow
    · exact Or.inr hcolumn
  · intro h
    by_cases hrow : rowOf lines first = rowOf lines second
    · exact (h hrow).imp_right Or.inr
    · exact Or.inr (Or.inl hrow)

/-- What the geometry of lines must satisfy for a table. -/
structure LinesFit (platform : Platform) (region : LayoutRegion) (lines : List LayoutLine) : Prop where
  rows_le : (rowGroups lines).length ≤ maxTableRows
  columns_le : (columnAnchors lines).length ≤ maxTableColumns
  area_le : (rowGroups lines).length * (columnAnchors lines).length ≤ maxTableGridArea
  apart : SpansApart lines
  atoms_nodup : (lines.flatMap (·.atomIds)).Nodup
  atoms_complete : lines.flatMap (·.atomIds) ⊆ region.atomIds ∧ region.atomIds ⊆ lines.flatMap (·.atomIds)
  ids : ((completeSpecs (tableSpecs lines) (rowGroups lines).length (columnAnchors lines).length).map
    (makeCellId platform region.regionId)).Nodup

theorem specsFit_tableSpecs_iff (hlines : lines ≠ []) :
    SpecsFit platform region.regionId (tableSpecs lines) (rowGroups lines).length (columnAnchors lines).length
      region.atomIds ↔ LinesFit platform region lines := by
  have hatoms : ((tableSpecs lines).flatMap (·.atomIds)).Perm (lines.flatMap (·.atomIds)) := by
    have h := @atomIds_groupedSpecs_perm (lines.map fun line => (tableRegion lines line, line.atomIds))
    rwa [List.flatMap_map] at h
  constructor
  · intro h
    refine ⟨h.rowCount_mem.2, h.columnCount_mem.2, h.area_le, (nodup_places_tableSpecs_iff hlines).1 h.places_nodup,
      hatoms.nodup_iff.1 h.allocations_nodup, ⟨?_, ?_⟩, h.ids⟩
    · exact fun i hi => h.allocations_complete.1 (hatoms.mem_iff.2 hi)
    · exact fun i hi => hatoms.mem_iff.1 (h.allocations_complete.2 hi)
  · intro h
    have hwithin : ∀ spec ∈ tableSpecs lines, spec.region.startRow < spec.region.endRow ∧
        spec.region.endRow ≤ (rowGroups lines).length ∧ spec.region.startColumn < spec.region.endColumn ∧
          spec.region.endColumn ≤ (columnAnchors lines).length := by
      intro spec hspec
      have hregion := mem_region_groupedSpecs.1 (List.mem_map_of_mem (f := CellSpec.region) hspec)
      rw [List.map_map] at hregion
      obtain ⟨line, hline, heq⟩ := List.mem_map.1 hregion
      rw [← heq]
      exact tableRegion_within hlines hline
    refine ⟨⟨?_, h.rows_le⟩, ⟨?_, h.columns_le⟩, h.area_le, region.atomIds_ne, hwithin, h.ids,
      hatoms.nodup_iff.2 h.atoms_nodup, ⟨?_, ?_⟩, (nodup_places_tableSpecs_iff hlines).2 h.apart⟩
    · obtain ⟨line, hline⟩ := List.exists_mem_of_ne_nil _ hlines
      obtain ⟨row, -, hrow⟩ := exists_row hline
      omega
    · exact List.length_pos_of_ne_nil (columnAnchors_ne_nil hlines)
    · exact fun i hi => h.atoms_complete.1 (hatoms.mem_iff.1 hi)
    · exact fun i hi => hatoms.mem_iff.2 (h.atoms_complete.2 hi)

/-- The specifications of the cells of the grid in their order. -/
def gridSpecs (lines : List LayoutLine) : List CellSpec :=
  sortBy (fun spec => spec.region.place)
    (completeSpecs (tableSpecs lines) (rowGroups lines).length (columnAnchors lines).length)

/-- A candidate with the grid of the lines. -/
structure GridOf (region : LayoutRegion) (lines : List LayoutLine) (candidate : TableCandidate) : Prop where
  regionId_eq : candidate.regionId = region.regionId
  rowCount_eq : candidate.rowCount = (rowGroups lines).length
  columnCount_eq : candidate.columnCount = (columnAnchors lines).length
  atomIds_eq : candidate.atomIds = region.atomIds
  specs_eq : candidate.cells.map (·.spec) = gridSpecs lines
  text_none : ∀ cell ∈ candidate.cells, cell.renderedText = none

theorem geometryTableCandidate_none : geometryTableCandidate platform region lines catalog none = (do
    raiseIf ((rowGroups lines).length = 0 ∨ (columnAnchors lines).length = 0)
      (.valueError "TABLE_GRID_DIMENSIONS_INVALID")
    let cells ← completeCells platform region.regionId (tableSpecs lines) (rowGroups lines).length
      (columnAnchors lines).length
    makeTableCandidate platform region (rowGroups lines).length (columnAnchors lines).length cells
      ⟨82 / 100, by norm_num⟩
      (Dict.ofList [("geometry_grid".toList, 82 / 100), ("docling_grid_agreement".toList, 0)])) := by
  unfold geometryTableCandidate
  dsimp only
  rw [geometricCellSpecs_eq]
  rfl

theorem geometryTableCandidate_eq_ok (hlines : lines ≠ []) {candidate : TableCandidate}
    (h : geometryTableCandidate platform region lines catalog none = .ok candidate) :
    LinesFit platform region lines ∧ GridOf region lines candidate := by
  rw [geometryTableCandidate_none, raiseIf_bind_eq_ok] at h
  obtain ⟨-, h⟩ := h
  obtain ⟨cells, hcells, hmade⟩ := bind_eq_ok.1 h
  obtain ⟨hvalid, hcandidate, hrows, hcolumns, hatoms, -⟩ := makeTableCandidate_eq_ok hmade
  obtain ⟨hspecs, -, htext⟩ := specs_of_completeCells hcells
  refine ⟨(specsFit_tableSpecs_iff hlines).1 (exists_table_iff_specsFit.1 ⟨cells, hcells, hvalid⟩), ?_⟩
  refine ⟨regionId_of_makeTableCandidate hmade, hrows, hcolumns, hatoms, ?_, ?_⟩
  · rw [hcandidate, hspecs, gridSpecs]
  · rw [hcandidate]
    exact htext

theorem exists_geometryTableCandidate (hlines : lines ≠ []) (h : LinesFit platform region lines) :
    ∃ candidate, geometryTableCandidate platform region lines catalog none = .ok candidate := by
  have hfit := (specsFit_tableSpecs_iff hlines).2 h
  obtain ⟨cells, hcells, hvalid⟩ := exists_table_iff_specsFit.2 hfit
  rw [geometryTableCandidate_none]
  obtain ⟨candidate, hcandidate⟩ := (@exists_makeTableCandidate_iff platform _ _ _ region ⟨82 / 100, by norm_num⟩
    (Dict.ofList [("geometry_grid".toList, 82 / 100), ("docling_grid_agreement".toList, 0)])).2 hvalid
  refine ⟨candidate, raiseIf_bind_eq_ok.2 ⟨?_, ?_⟩⟩
  · rintro (hzero | hzero)
    · exact hfit.rowCount_mem.1.ne' hzero
    · exact hfit.columnCount_mem.1.ne' hzero
  · rw [hcells, ok_bind, hcandidate]

/-- Without a text there is no other spacing. -/
theorem languageSpacing_eq_none {candidate : TableCandidate} (h : ∀ cell ∈ candidate.cells, cell.renderedText = none)
    (scorer : Option SpacingScorer) : languageSpacingTableCandidate platform region candidate scorer = .ok none := by
  cases scorer with
  | none => rfl
  | some scorer =>
    unfold languageSpacingTableCandidate
    dsimp only
    rw [if_pos]
    · rfl
    · refine List.all_eq_true.2 fun cell hcell => ?_
      rw [spacedCellText, h cell hcell]
      rfl

end Geometry

/-! ### Split cells -/

section Split

variable (catalog : Dict AtomId EvidenceAtom) (anchors : List ℚ)

/-- The columns of the atoms of a cell. -/
def splitColumns (spec : CellSpec) : List ℕ :=
  spec.atomIds.map fun i => ((catalog.lookup i).map (atomColumn anchors spec.region)).getD 0

/-- The cells that a cell of known atoms is split into. -/
def splitOf (spec : CellSpec) : Option (List CellSpec) :=
  if spec.region.endColumn - spec.region.startColumn ≤ 1 then none
  else if (splitColumns catalog anchors spec).eraseDups.length ≤ 1 then none
  else some (columnCells spec (splitColumns catalog anchors spec))

/-- The cells after the split. -/
def splitSpecs (specs : List CellSpec) : List CellSpec :=
  specs.flatMap fun spec => (splitOf catalog anchors spec).getD [spec]

variable {catalog anchors} {spec : CellSpec} {specs : List CellSpec}

theorem splitCell_eq (hknown : ∀ i ∈ spec.atomIds, (catalog.lookup i).isSome) :
    splitCell catalog anchors spec = .ok (splitOf catalog anchors spec) := by
  have hcolumns : (spec.atomIds.mapM fun i => do
      let atom ← catalog.getItem i
      return atomColumn anchors spec.region atom : PyResult _) = .ok (splitColumns catalog anchors spec) := by
    refine mapM_eq_map fun i hi => ?_
    obtain ⟨atom, hatom⟩ := Option.isSome_iff_exists.1 (hknown i hi)
    rw [Dict.getItem_eq_ok.2 hatom, hatom]
    rfl
  unfold splitCell splitOf
  split
  · rfl
  · rw [hcolumns, ok_bind]
    split
    · rfl
    · rfl

private theorem atomColumn_mem {region : CellRegion} (hspan : region.startColumn < region.endColumn)
    (atom : EvidenceAtom) :
    region.startColumn ≤ atomColumn anchors region atom ∧ atomColumn anchors region atom < region.endColumn := by
  unfold atomColumn
  split
  · exact ⟨le_rfl, hspan⟩
  · dsimp only
    omega

private theorem splitColumns_mem (hspan : spec.region.startColumn < spec.region.endColumn)
    (hknown : ∀ i ∈ spec.atomIds, (catalog.lookup i).isSome) :
    ∀ column ∈ splitColumns catalog anchors spec,
      spec.region.startColumn ≤ column ∧ column < spec.region.endColumn := by
  intro column hcolumn
  obtain ⟨i, hi, rfl⟩ := List.mem_map.1 hcolumn
  obtain ⟨atom, hatom⟩ := Option.isSome_iff_exists.1 (hknown i hi)
  rw [hatom]
  exact atomColumn_mem hspan atom

private theorem columnCells_atomIds_perm {columns : List ℕ} (hlength : columns.length = spec.atomIds.length)
    (hin : ∀ column ∈ columns, spec.region.startColumn ≤ column ∧ column < spec.region.endColumn) :
    ((columnCells spec columns).flatMap (·.atomIds)).Perm spec.atomIds := by
  have hkeys : ∀ entry ∈ columns.zip spec.atomIds, entry.1 ∈
      List.range' spec.region.startColumn (spec.region.endColumn - spec.region.startColumn) := by
    intro entry hentry
    have hcolumn := hin entry.1 (List.of_mem_zip hentry).1
    rw [List.mem_range'_1]
    omega
  have hperm := (flatMap_filter_perm List.nodup_range' hkeys).map Prod.snd
  rw [List.map_snd_zip hlength.ge, List.map_flatMap] at hperm
  rw [columnCells, List.flatMap_map]
  exact hperm

private theorem columnCells_places_perm (spec : CellSpec) (columns : List ℕ) :
    ((columnCells spec columns).flatMap (·.region.places)).Perm spec.region.places := by
  rw [columnCells, List.flatMap_map]
  refine (List.perm_ext_iff_of_nodup ?_ (CellRegion.nodup_places _)).2 fun p => ?_
  · refine List.nodup_flatMap.2 ⟨fun _ _ => CellRegion.nodup_places _, ?_⟩
    refine List.Pairwise.imp ?_ (List.nodup_range' (s := spec.region.startColumn)
      (n := spec.region.endColumn - spec.region.startColumn))
    intro column column' hne p hp hq
    have hp := CellRegion.mem_places.1 hp
    have hq := CellRegion.mem_places.1 hq
    dsimp only at hp hq
    omega
  · rw [List.mem_flatMap, CellRegion.mem_places]
    constructor
    · rintro ⟨column, hcolumn, hp⟩
      have hp := CellRegion.mem_places.1 hp
      rw [List.mem_range'_1] at hcolumn
      dsimp only at hp
      omega
    · intro hp
      refine ⟨p.2, List.mem_range'_1.2 (by omega), CellRegion.mem_places.2 ?_⟩
      dsimp only
      omega

private theorem splitOf_atomIds_perm (hspan : spec.region.startColumn < spec.region.endColumn)
    (hknown : ∀ i ∈ spec.atomIds, (catalog.lookup i).isSome) :
    (((splitOf catalog anchors spec).getD [spec]).flatMap (·.atomIds)).Perm spec.atomIds := by
  have hsingle : ([spec].flatMap (·.atomIds)).Perm spec.atomIds := by
    rw [List.flatMap_singleton]
  unfold splitOf
  split
  · exact hsingle
  · split
    · exact hsingle
    · exact columnCells_atomIds_perm (List.length_map _) (splitColumns_mem hspan hknown)

private theorem splitOf_places_perm (spec : CellSpec) :
    (((splitOf catalog anchors spec).getD [spec]).flatMap (·.region.places)).Perm spec.region.places := by
  have hsingle : ([spec].flatMap (·.region.places)).Perm spec.region.places := by
    rw [List.flatMap_singleton]
  unfold splitOf
  split
  · exact hsingle
  · split
    · exact hsingle
    · exact columnCells_places_perm spec _

theorem splitSpecs_atomIds_perm (h : ∀ spec ∈ specs, spec.region.startColumn < spec.region.endColumn)
    (hknown : ∀ spec ∈ specs, ∀ i ∈ spec.atomIds, (catalog.lookup i).isSome) :
    ((splitSpecs catalog anchors specs).flatMap (·.atomIds)).Perm (specs.flatMap (·.atomIds)) := by
  rw [splitSpecs, List.flatMap_assoc]
  exact List.Perm.flatMap_left _ fun spec hspec => splitOf_atomIds_perm (h spec hspec) (hknown spec hspec)

theorem splitSpecs_places_perm (specs : List CellSpec) :
    ((splitSpecs catalog anchors specs).flatMap (·.region.places)).Perm (specs.flatMap (·.region.places)) := by
  rw [splitSpecs, List.flatMap_assoc]
  exact List.Perm.flatMap_left _ fun spec _ => splitOf_places_perm spec

/-- A split cell lies in the rows and the columns of its cell. -/
theorem exists_of_mem_splitSpecs (h : ∀ spec ∈ specs, spec.region.startColumn < spec.region.endColumn)
    {part : CellSpec} (hpart : part ∈ splitSpecs catalog anchors specs) :
    ∃ spec ∈ specs, part.region.startRow = spec.region.startRow ∧ part.region.endRow = spec.region.endRow ∧
      part.region.startColumn < part.region.endColumn ∧ part.region.endColumn ≤ spec.region.endColumn := by
  obtain ⟨spec, hspec, hpart⟩ := List.mem_flatMap.1 hpart
  have hsingle : part ∈ [spec] → part.region.startRow = spec.region.startRow ∧
      part.region.endRow = spec.region.endRow ∧ part.region.startColumn < part.region.endColumn ∧
        part.region.endColumn ≤ spec.region.endColumn := by
    intro hmem
    rw [List.mem_singleton.1 hmem]
    exact ⟨rfl, rfl, h spec hspec, le_rfl⟩
  refine ⟨spec, hspec, ?_⟩
  unfold splitOf at hpart
  split at hpart
  · exact hsingle hpart
  · split at hpart
    · exact hsingle hpart
    · obtain ⟨column, hcolumn, rfl⟩ := List.mem_map.1 hpart
      rw [List.mem_range'_1] at hcolumn
      refine ⟨rfl, rfl, Nat.lt_succ_self _, ?_⟩
      dsimp only
      omega

end Split

section Candidates

variable {platform : Platform} {region : LayoutRegion} {lines : List LayoutLine} {catalog : Dict AtomId EvidenceAtom}
  {candidate : TableCandidate}

/-- The cells of the second candidate. -/
def splitGridSpecs (catalog : Dict AtomId EvidenceAtom) (lines : List LayoutLine) : List CellSpec :=
  splitSpecs catalog (columnAnchors lines) (gridSpecs lines)

private theorem gridSpecs_perm (lines : List LayoutLine) : (gridSpecs lines).Perm
    (completeSpecs (tableSpecs lines) (rowGroups lines).length (columnAnchors lines).length) := sortBy_perm _ _

private theorem gridSpecs_known (hlines : lines ≠ []) (h : LinesFit platform region lines)
    (hknown : ∀ i ∈ region.atomIds, (catalog.lookup i).isSome) :
    ∀ spec ∈ gridSpecs lines, ∀ i ∈ spec.atomIds, (catalog.lookup i).isSome := by
  intro spec hspec i hi
  refine hknown i (((specsFit_tableSpecs_iff hlines).2 h).allocations_complete.1 ?_)
  rw [← @flatMap_atomIds_completeSpecs _ (rowGroups lines).length (columnAnchors lines).length]
  exact List.mem_flatMap.2 ⟨spec, (gridSpecs_perm lines).mem_iff.1 hspec, hi⟩

private theorem gridSpecs_within (hlines : lines ≠ []) (h : LinesFit platform region lines) :
    ∀ spec ∈ gridSpecs lines, spec.region.startRow < spec.region.endRow ∧
      spec.region.endRow ≤ (rowGroups lines).length ∧ spec.region.startColumn < spec.region.endColumn ∧
        spec.region.endColumn ≤ (columnAnchors lines).length :=
  fun spec hspec => within_completeSpecs ((specsFit_tableSpecs_iff hlines).2 h).within spec
    ((gridSpecs_perm lines).mem_iff.1 hspec)

/-- The split cells fit the grid of the lines when they have different identifiers. -/
theorem specsFit_splitGridSpecs_iff (hlines : lines ≠ []) (h : LinesFit platform region lines)
    (hknown : ∀ i ∈ region.atomIds, (catalog.lookup i).isSome) :
    SpecsFit platform region.regionId (splitGridSpecs catalog lines) (rowGroups lines).length
      (columnAnchors lines).length region.atomIds ↔
        ((splitGridSpecs catalog lines).map (makeCellId platform region.regionId)).Nodup := by
  have hfit := (specsFit_tableSpecs_iff hlines).2 h
  have hwithin := gridSpecs_within hlines h
  have hspan := fun spec hspec => (hwithin spec hspec).2.2.1
  have hatoms : ((splitGridSpecs catalog lines).flatMap (·.atomIds)).Perm ((tableSpecs lines).flatMap (·.atomIds)) := by
    refine (splitSpecs_atomIds_perm hspan (gridSpecs_known hlines h hknown)).trans ?_
    rw [← @flatMap_atomIds_completeSpecs (tableSpecs lines) (rowGroups lines).length (columnAnchors lines).length]
    exact (gridSpecs_perm lines).flatMap_right _
  have hplaces : ((splitGridSpecs catalog lines).flatMap (·.region.places)).Perm ((completeSpecs (tableSpecs lines)
      (rowGroups lines).length (columnAnchors lines).length).flatMap (·.region.places)) :=
    (splitSpecs_places_perm _).trans ((gridSpecs_perm lines).flatMap_right _)
  -- the parts of the cells take up the whole grid, so no free place is completed
  have hself := completeSpecs_eq_self fun p hp => hplaces.mem_iff.2 (mem_places_completeSpecs hp)
  constructor
  · intro hsplit
    have hids := hsplit.ids
    rwa [hself] at hids
  · intro hids
    refine ⟨hfit.rowCount_mem, hfit.columnCount_mem, hfit.area_le, hfit.atomIds_ne, ?_, ?_,
      hatoms.nodup_iff.2 hfit.allocations_nodup, ⟨?_, ?_⟩,
      hplaces.nodup_iff.2 (nodup_places_completeSpecs hfit.places_nodup)⟩
    · intro part hpart
      obtain ⟨spec, hspec, hstart, hend, hcolumn, hle⟩ := exists_of_mem_splitSpecs hspan hpart
      obtain ⟨hrow, hrow', -, hcolumn'⟩ := hwithin spec hspec
      rw [hstart, hend]
      exact ⟨hrow, hrow', hcolumn, hle.trans hcolumn'⟩
    · rwa [hself]
    · exact fun i hi => hfit.allocations_complete.1 (hatoms.mem_iff.1 hi)
    · exact fun i hi => hatoms.mem_iff.2 (hfit.allocations_complete.2 hi)

private theorem flatMap_zip_map {α β γ : Type} (l : List α) (f : α → β) (g : α × β → List γ) :
    (l.zip (l.map f)).flatMap g = l.flatMap fun a => g (a, f a) := by
  induction l with
  | nil => rfl
  | cons a l ih => rw [List.map_cons, List.zip_cons_cons, List.flatMap_cons, List.flatMap_cons, ih]

/-- The second candidate of a grid has the split cells; there is none when no cell is split. -/
theorem splitSpanningCells_eq (hgrid : GridOf region lines candidate)
    (hknown : ∀ spec ∈ gridSpecs lines, ∀ i ∈ spec.atomIds, (catalog.lookup i).isSome) :
    splitSpanningCells platform region candidate catalog lines =
      if (gridSpecs lines).all fun spec => (splitOf catalog (columnAnchors lines) spec).isNone then .ok none
      else do
        let cells ← completeCells platform region.regionId (splitGridSpecs catalog lines) (rowGroups lines).length
          (columnAnchors lines).length
        let made ← makeTableCandidate platform region (rowGroups lines).length (columnAnchors lines).length cells
          (Score.clamp (candidate.score.val - 6 / 100))
          (candidate.features.insert "split_boundary_variant".toList (76 / 100))
        return some made := by
  have hsplit : (candidate.cells.mapM fun cell => splitCell catalog (columnAnchors lines) cell.spec) =
      .ok (candidate.cells.map fun cell => splitOf catalog (columnAnchors lines) cell.spec) := by
    refine mapM_eq_map fun cell hcell => splitCell_eq (hknown _ ?_)
    rw [← hgrid.specs_eq]
    exact List.mem_map_of_mem hcell
  unfold splitSpanningCells
  rw [hsplit, ok_bind, flatMap_zip_map, hgrid.rowCount_eq, hgrid.columnCount_eq, splitGridSpecs, splitSpecs,
    ← hgrid.specs_eq, List.flatMap_map, List.all_map, List.all_map]
  rfl

theorem exists_splitSpanningCells_iff (hlines : lines ≠ []) (h : LinesFit platform region lines)
    (hgrid : GridOf region lines candidate) (hknown : ∀ i ∈ region.atomIds, (catalog.lookup i).isSome) :
    (∃ split, splitSpanningCells platform region candidate catalog lines = .ok split) ↔
      ((splitGridSpecs catalog lines).map (makeCellId platform region.regionId)).Nodup := by
  rw [splitSpanningCells_eq hgrid (gridSpecs_known hlines h hknown)]
  split
  · rename_i hnone
    have hself : splitGridSpecs catalog lines = gridSpecs lines := by
      have hall := List.all_eq_true.1 hnone
      have hsingle : ∀ spec ∈ gridSpecs lines, (splitOf catalog (columnAnchors lines) spec).getD [spec] = [spec] := by
        intro spec hspec
        rw [Option.isNone_iff_eq_none.1 (hall spec hspec), Option.getD_none]
      rw [splitGridSpecs, splitSpecs, List.flatMap_congr hsingle, List.flatMap_singleton']
    rw [hself]
    exact ⟨fun _ => nodup_map_sortBy.2 h.ids, fun _ => ⟨none, rfl⟩⟩
  · rw [← specsFit_splitGridSpecs_iff hlines h hknown, ← exists_table_iff_specsFit]
    constructor
    · rintro ⟨split, hsplit⟩
      obtain ⟨cells, hcells, hsplit⟩ := bind_eq_ok.1 hsplit
      obtain ⟨made, hmade, -⟩ := bind_eq_ok.1 hsplit
      exact ⟨cells, hcells, (makeTableCandidate_eq_ok hmade).1⟩
    · rintro ⟨cells, hcells, hvalid⟩
      obtain ⟨made, hmade⟩ := exists_makeTableCandidate_iff.2 hvalid
      exact ⟨some made, by rw [hcells, ok_bind, hmade, ok_bind]; rfl⟩

theorem of_splitSpanningCells_eq_ok (hgrid : GridOf region lines candidate)
    (hknown : ∀ spec ∈ gridSpecs lines, ∀ i ∈ spec.atomIds, (catalog.lookup i).isSome) {split : TableCandidate}
    (h : splitSpanningCells platform region candidate catalog lines = .ok (some split)) :
    split.regionId = region.regionId ∧ split.atomIds = region.atomIds := by
  rw [splitSpanningCells_eq hgrid hknown] at h
  split at h
  · cases h
  · obtain ⟨cells, -, h⟩ := bind_eq_ok.1 h
    obtain ⟨made, hmade, h⟩ := bind_eq_ok.1 h
    cases pure_eq_ok.1 h
    obtain ⟨-, -, -, -, hatoms, -⟩ := makeTableCandidate_eq_ok hmade
    exact ⟨regionId_of_makeTableCandidate hmade, hatoms⟩

end Candidates

/-! ### The candidate set -/

/-- The lines of a region. -/
def LayoutDocument.regionLines (layout : LayoutDocument) (region : LayoutRegion) : List LayoutLine :=
  region.lineIds.filterMap layout.lineCatalog.lookup

section Build

variable {platform : Platform} {isWord : Char → Bool} {region : LayoutRegion} {layout : LayoutDocument}
  {lines : List LayoutLine} {catalog : Dict AtomId EvidenceAtom} {scorer : Option SpacingScorer}

private theorem exists_line (hregion : region ∈ layout.regions) :
    ∀ i ∈ region.lineIds, ∃ line, layout.lineCatalog.lookup i = some line := by
  intro i hi
  have hvalid := layout.validated
  simp only [LayoutFields.validate, raiseIf_bind_eq_ok, not_not] at hvalid
  have hin := hvalid.2.2.1.1 i (List.mem_flatMap.2 ⟨region, hregion, hi⟩)
  refine Dict.exists_lookup_ofList ?_
  rw [List.map_map]
  exact hin

/-- Every line of a region of the layout is known. -/
theorem regionLines_eq (hregion : region ∈ layout.regions) :
    (region.lineIds.mapM fun i =>
      (layout.lineCatalog.getItem i).mapError fun _ => PyError.valueError "TABLE_REGION_LINE_UNKNOWN") =
        .ok (layout.regionLines region) ∧ layout.regionLines region ≠ [] := by
  have hlines := exists_line hregion
  constructor
  · unfold LayoutDocument.regionLines
    generalize region.lineIds = ids at hlines
    induction ids with
    | nil => rfl
    | cons i ids ih =>
      obtain ⟨line, hline⟩ := hlines i List.mem_cons_self
      rw [List.mapM_cons, Dict.getItem_eq_ok.2 hline, ih fun j hj => hlines j (List.mem_cons_of_mem _ hj),
        List.filterMap_cons, hline]
      rfl
  · obtain ⟨i, hi⟩ := List.exists_mem_of_ne_nil _ region.lineIds_ne
    obtain ⟨line, hline⟩ := hlines i hi
    exact List.ne_nil_of_mem (List.mem_filterMap.2 ⟨i, hi, hline⟩)

/-- One or two candidates of the region with different identifiers. -/
structure SingleOrSplit (region : LayoutRegion) (candidates : List TableCandidate) : Prop where
  length_mem : 1 ≤ candidates.length ∧ candidates.length ≤ 2
  ids_nodup : (candidates.map (·.candidateId)).Nodup
  scope : ∀ candidate ∈ candidates, candidate.regionId = region.regionId ∧ candidate.atomIds = region.atomIds

theorem tableCandidates_none : tableCandidates platform isWord region lines catalog scorer none = (do
    let geometry ← geometryTableCandidate platform region lines catalog none
    let languageSpacing ← languageSpacingTableCandidate platform region geometry scorer
    let split ← splitSpanningCells platform region geometry catalog lines
    return geometry :: (languageSpacing.toList ++
      split.toList.filter fun c => c.candidateId ≠ geometry.candidateId)) := rfl

theorem tableCandidates_spec (hlines : lines ≠ [])
    (hknown : ∀ i ∈ region.atomIds, (catalog.lookup i).isSome) {candidates : List TableCandidate}
    (h : tableCandidates platform isWord region lines catalog scorer none = .ok candidates) :
    SingleOrSplit region candidates := by
  rw [tableCandidates_none] at h
  obtain ⟨geometry, hgeometry, h⟩ := bind_eq_ok.1 h
  obtain ⟨hfit, hgrid⟩ := geometryTableCandidate_eq_ok hlines hgeometry
  rw [languageSpacing_eq_none hgrid.text_none, ok_bind] at h
  obtain ⟨split, hsplit, h⟩ := bind_eq_ok.1 h
  cases pure_eq_ok.1 h
  have hscope : geometry.regionId = region.regionId ∧ geometry.atomIds = region.atomIds :=
    ⟨hgrid.regionId_eq, hgrid.atomIds_eq⟩
  have hsingle : SingleOrSplit region [geometry] :=
    ⟨⟨le_rfl, Nat.le_succ 1⟩, List.nodup_singleton _, fun c hc => List.mem_singleton.1 hc ▸ hscope⟩
  cases split with
  | none => exact hsingle
  | some second =>
    have hsecond := of_splitSpanningCells_eq_ok hgrid (gridSpecs_known hlines hfit hknown) hsplit
    -- a second candidate with the same identifier is left out
    by_cases hid : second.candidateId = geometry.candidateId
    · have hnone : [second].filter (fun c => decide (c.candidateId ≠ geometry.candidateId)) = [] := by
        simp [hid]
      rw [Option.toList_none, Option.toList_some, hnone, List.nil_append]
      exact hsingle
    · have hsome : [second].filter (fun c => decide (c.candidateId ≠ geometry.candidateId)) = [second] := by
        simp [hid]
      rw [Option.toList_none, Option.toList_some, hsome, List.nil_append]
      refine ⟨⟨Nat.le_succ 1, le_rfl⟩, ?_, ?_⟩
      · exact List.nodup_cons.2 ⟨fun hin => hid (List.mem_singleton.1 hin).symm, List.nodup_singleton _⟩
      · intro c hc
        rcases List.mem_cons.1 hc with rfl | hc
        · exact hscope
        · exact List.mem_singleton.1 hc ▸ hsecond

theorem exists_tableCandidates_iff (hlines : lines ≠ [])
    (hknown : ∀ i ∈ region.atomIds, (catalog.lookup i).isSome) :
    (∃ candidates, tableCandidates platform isWord region lines catalog scorer none = .ok candidates) ↔
      LinesFit platform region lines ∧
        ((splitGridSpecs catalog lines).map (makeCellId platform region.regionId)).Nodup := by
  rw [tableCandidates_none]
  constructor
  · rintro ⟨candidates, h⟩
    obtain ⟨geometry, hgeometry, h⟩ := bind_eq_ok.1 h
    obtain ⟨hfit, hgrid⟩ := geometryTableCandidate_eq_ok hlines hgeometry
    rw [languageSpacing_eq_none hgrid.text_none, ok_bind] at h
    obtain ⟨split, hsplit, -⟩ := bind_eq_ok.1 h
    exact ⟨hfit, (exists_splitSpanningCells_iff hlines hfit hgrid hknown).1 ⟨split, hsplit⟩⟩
  · rintro ⟨hfit, hids⟩
    obtain ⟨geometry, hgeometry⟩ := exists_geometryTableCandidate hlines hfit
    obtain ⟨-, hgrid⟩ := geometryTableCandidate_eq_ok hlines hgeometry
    obtain ⟨split, hsplit⟩ := (exists_splitSpanningCells_iff hlines hfit hgrid hknown).2 hids
    rw [hgeometry, ok_bind, languageSpacing_eq_none hgrid.text_none, ok_bind, hsplit, ok_bind]
    exact ⟨_, rfl⟩

/-- One or two candidates of a region make a candidate set. -/
theorem exists_bestTables {candidates : List TableCandidate} (h : SingleOrSplit region candidates) (hash : Sha256) :
    ∃ set, bestTables platform hash region.regionId candidates = .ok set := by
  have hlength := h.length_mem
  unfold bestTables CandidateSet.make
  dsimp only
  rw [List.take_of_length_le (by rw [length_sortBy]; omega), dif_pos, dif_pos, dif_pos]
  · exact ⟨_, rfl⟩
  · intro c hc
    obtain ⟨table, htable, rfl⟩ := List.mem_map.1 hc
    exact ⟨(h.scope table (mem_sortBy.1 htable)).1, rfl⟩
  · rw [List.map_map]
    exact nodup_map_sortBy.2 h.ids_nodup
  · rw [List.length_map, length_sortBy]
    omega

theorem exists_of_bestTables_eq_ok {candidates : List TableCandidate} {hash : Sha256} {set : CandidateSet}
    (h : bestTables platform hash region.regionId candidates = .ok set) :
    ∀ c ∈ set.candidates, ∃ table ∈ candidates, c = .table table := by
  obtain ⟨-, -, -, -, heq⟩ := make_eq_ok_iff_candidates.1 h
  intro c hc
  rw [heq] at hc
  obtain ⟨table, htable, rfl⟩ := List.mem_map.1 hc
  exact ⟨table, mem_sortBy.1 (List.mem_of_mem_take htable), rfl⟩

/-- The tables of a candidate set partition their grids and the atoms of the region. -/
def TablesExact (region : LayoutRegion) (set : CandidateSet) : Prop :=
  ∀ c ∈ set.candidates, ∃ table, c = .table table ∧
    TableGridComplete table.cells table.rowCount table.columnCount ∧
    (∀ i ∈ region.atomIds, (table.cells.flatMap (·.atomIds)).count i = 1) ∧
    ∀ i ∈ table.cells.flatMap (·.atomIds), i ∈ region.atomIds

private theorem tablesExact_of_scope {set : CandidateSet} (h : ∀ c ∈ set.candidates, ∃ table, c = .table table ∧
    table.atomIds = region.atomIds) : TablesExact region set := by
  intro c hc
  obtain ⟨table, rfl, hatoms⟩ := h c hc
  refine ⟨table, rfl, table.grid, fun i hi => ?_, fun i hi => ?_⟩
  · exact List.count_eq_one_of_mem table.allocations_nodup ((table.allocations_complete i).2 (hatoms ▸ hi))
  · exact hatoms ▸ (table.allocations_complete i).1 hi

/-- The condition for the tables of a region. -/
structure TableBuildable (platform : Platform) (region : LayoutRegion) (evidence : EvidenceDocument)
    (layout : LayoutDocument) : Prop where
  atoms_nodup : region.atomIds.Nodup
  known : ∀ i ∈ region.atomIds, (evidence.atomCatalog.lookup i).isSome
  fit : LinesFit platform region (layout.regionLines region)
  splitIds : ((splitGridSpecs evidence.atomCatalog (layout.regionLines region)).map
    (makeCellId platform region.regionId)).Nodup

/-- Without a hint a returned candidate set has exact tables only, and a candidate set is returned exactly when the lines
of the region make a table. -/
theorem buildTableCandidateSet_iff {evidence : EvidenceDocument} {hints : StructureDocument}
    (hsource : evidence.sourceHash = layout.sourceHash) (hregion : region ∈ layout.regions)
    (hhint : matchingTableHint region hints = none) (isWord : Char → Bool) (scorer : Option SpacingScorer) :
    (∀ set, buildTableCandidateSet platform isWord region evidence layout hints scorer = .ok set →
      TablesExact region set) ∧
      ((∃ set, buildTableCandidateSet platform isWord region evidence layout hints scorer = .ok set) ↔
        TableBuildable platform region evidence layout) := by
  obtain ⟨hlines, hne⟩ := regionLines_eq hregion
  have hlookup : layout.regionCatalog.lookup region.regionId = some region :=
    layout.lookup_regionCatalog.2 ⟨hregion, rfl⟩
  have hempty : ¬ (layout.regionLines region).isEmpty = true := by
    rw [List.isEmpty_iff]
    exact hne
  -- the checks of the region leave the atoms and the candidates
  have hbuild (set : CandidateSet) :
      buildTableCandidateSet platform isWord region evidence layout hints scorer = .ok set ↔
        (region.atomIds.Nodup ∧ ∀ i ∈ region.atomIds, (evidence.atomCatalog.lookup i).isSome) ∧
          ∃ candidates, tableCandidates platform isWord region (layout.regionLines region) evidence.atomCatalog
            scorer none = .ok candidates ∧ bestTables platform layout.sourceHash region.regionId candidates = .ok set := by
    unfold buildTableCandidateSet
    dsimp only
    rw [raiseIf_bind_eq_ok, raiseIf_bind_eq_ok, raiseIf_bind_eq_ok, hlines, ok_bind, raiseIf_bind_eq_ok, hhint,
      bind_eq_ok, not_not, not_not, not_not]
    exact ⟨fun h => ⟨h.2.2.1, h.2.2.2.2⟩, fun h => ⟨hsource, hlookup, h.1, hempty, h.2⟩⟩
  refine ⟨fun set hset => ?_, fun ⟨set, hset⟩ => ?_, fun h => ?_⟩
  · obtain ⟨⟨-, hknown⟩, candidates, hcandidates, hmade⟩ := (hbuild set).1 hset
    have hspec := tableCandidates_spec hne hknown hcandidates
    refine tablesExact_of_scope fun c hc => ?_
    obtain ⟨table, htable, rfl⟩ := exists_of_bestTables_eq_ok hmade c hc
    exact ⟨table, rfl, (hspec.scope table htable).2⟩
  · obtain ⟨⟨hnodup, hknown⟩, candidates, hcandidates, -⟩ := (hbuild set).1 hset
    obtain ⟨hfit, hids⟩ := (exists_tableCandidates_iff hne hknown).1 ⟨candidates, hcandidates⟩
    exact ⟨hnodup, hknown, hfit, hids⟩
  · obtain ⟨candidates, hcandidates⟩ :=
      (@exists_tableCandidates_iff platform isWord region _ evidence.atomCatalog scorer hne h.known).2 ⟨h.fit, h.splitIds⟩
    obtain ⟨set, hset⟩ :=
      exists_bestTables (tableCandidates_spec hne h.known hcandidates) layout.sourceHash
    exact ⟨set, (hbuild set).2 ⟨⟨h.atoms_nodup, h.known⟩, candidates, hcandidates, hset⟩⟩

end Build

/-! ### Two lines of a row -/

theorem buildTableCandidateSet_iff_letters :
    (∀ set, buildTableCandidateSet .ascii isPlainAlnum letterPairRegion spacedLetters letterPairLayout ⟨[]⟩ none =
      .ok set → TablesExact letterPairRegion set) ∧
      ((∃ set, buildTableCandidateSet .ascii isPlainAlnum letterPairRegion spacedLetters letterPairLayout ⟨[]⟩ none =
        .ok set) ↔ TableBuildable .ascii letterPairRegion spacedLetters letterPairLayout) :=
  buildTableCandidateSet_iff rfl (List.mem_singleton.2 rfl) rfl _ none

/-- A line that reaches over the left edge of the next one. -/
private def wideBox : SourceBox :=
  ⟨1 / 8, 3 / 4, 5 / 8, 7 / 8, by norm_num, by norm_num, by norm_num, by norm_num, by norm_num, by norm_num⟩

private theorem nextBox_left_nonneg : (0 : ℚ) ≤ 1 / 2 := by norm_num

private def nextBox : SourceBox :=
  ⟨1 / 2, 3 / 4, 7 / 8, 7 / 8, nextBox_left_nonneg, by norm_num, by norm_num, by norm_num, by norm_num, by norm_num⟩

private theorem overlappingPair_ne_nil {stem : String} : [(⟨0⟩ : Identifier stem), ⟨1⟩] ≠ [] := List.cons_ne_nil _ _

private def overlappingRegion : LayoutRegion :=
  ⟨⟨0⟩, 1, SourceBox.page, [⟨0⟩, ⟨1⟩], [⟨0⟩, ⟨1⟩, ⟨2⟩], [⟨0⟩], 0, none, false, Nat.one_pos,
    overlappingPair_ne_nil, Identifier.three_ne_nil, Identifier.first_ne_nil⟩

private def overlappingFields : LayoutFields where
  sourceHash := sha256 []
  pageCount := 1
  lines := [⟨⟨0⟩, 1, wideBox, [⟨0⟩, ⟨1⟩], [⟨0⟩], Score.zero, 1, Nat.one_pos, overlappingPair_ne_nil,
      Identifier.first_ne_nil, one_mem_height⟩,
    ⟨⟨1⟩, 1, nextBox, [⟨2⟩], [⟨0⟩], Score.zero, 1, Nat.one_pos, by decide, Identifier.first_ne_nil, one_mem_height⟩]
  regions := [overlappingRegion]
  orderEdges := []

private def overlappingLayout : LayoutDocument := ⟨overlappingFields, Nat.one_pos, rfl⟩

/-- The first of two lines of a row takes up both columns, the second one the second column. -/
theorem overlapping_lines_raise :
    overlappingRegion ∈ overlappingLayout.regions ∧ matchingTableHint overlappingRegion ⟨[]⟩ = none ∧
      buildTableCandidateSet .ascii isPlainAlnum overlappingRegion spacedLetters overlappingLayout ⟨[]⟩ none =
        .error (.validationError ["TABLE_GRID_OVERLAP"]) :=
  ⟨List.mem_singleton.2 rfl, rfl, raised_eq_some.1 (by decide +kernel)⟩

end ArdOssie
