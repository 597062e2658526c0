import ArdOssie.Semantic.CanonicalAssembly
import ArdOssie.Semantic.SpacingSets

/-!
# The soundness of the validation

What a document whose report is publishable keeps of its source: the visible atoms once, their characters in order, the
whitespace atoms once, the order of the layout, the grids of its tables and the proofs of its exclusions.
-/

namespace ArdOssie

open Text (withoutWhitespace)

/-! ### What is kept -/

/-- The place where a cell begins. -/
def CellRegion.first (r : CellRegion) : ℕ × ℕ := (r.startRow, r.startColumn)

/-- The atoms of the cells of a table, row by row. -/
def CanonicalBlock.rowAtomIds (block : CanonicalBlock) (rowCount columnCount : ℕ) : List AtomId :=
  (gridPlaces rowCount columnCount).flatMap fun p => (block.cells.filter fun c => c.region.first = p).flatMap (·.atomIds)

/-- The cells of a table cover its grid once, they have the atoms of the block once and the characters of their atoms,
and the text of the table has the characters of the cells row by row. -/
structure CanonicalBlock.TableKept (catalog : Dict AtomId EvidenceAtom) (block : CanonicalBlock)
    (rowCount columnCount : ℕ) : Prop where
  places : (block.cells.flatMap (·.region.places)).Perm (gridPlaces rowCount columnCount)
  atoms : (block.cells.flatMap (·.atomIds)).Perm block.atomIds
  cell_text : ∀ c ∈ block.cells, withoutWhitespace c.text = atomTextSequence catalog c.atomIds
  text : withoutWhitespace block.text = atomTextSequence catalog (block.rowAtomIds rowCount columnCount)

/-- A canonical document keeps its source. -/
structure SourceKept (evidence : EvidenceFields) (document : CanonicalSemanticDocument)
    (layout : Option LayoutDocument) : Prop where
  visible_once : ∀ a ∈ evidence.atoms, a.isSpace = false → document.references.count a.atomId = 1
  block_text : ∀ b ∈ document.blocks, b.kind ≠ .table →
    withoutWhitespace b.text = atomTextSequence evidence.atomCatalog b.atomIds
  caption_text : ∀ f ∈ document.figures,
    withoutWhitespace (f.caption.getD []) = atomTextSequence evidence.atomCatalog f.captionAtomIds
  table : ∀ b ∈ document.blocks, b.kind = .table → ∃ rowCount columnCount, b.rowCount = some rowCount ∧
    b.columnCount = some columnCount ∧ b.TableKept evidence.atomCatalog rowCount columnCount
  whitespace_once : ∀ a ∈ evidence.atoms, a.isSpace = true →
    (document.whitespaceDispositions.map (·.atomId)).count a.atomId = 1
  region_order : ∀ l ∈ layout, document.regionOrder.Perm (l.regions.map (·.regionId)) ∧
    ∀ e ∈ l.orderEdges, document.regionOrder.idxOf e.beforeRegionId < document.regionOrder.idxOf e.afterRegionId
  exclusion : ∀ e ∈ document.excludedEvidence, ∃ l ∈ layout, ∃ r ∈ l.regions, r.regionId = e.regionId ∧
    r.repeatedEdge = true ∧ r.hint = some e.reason.expectedHint ∧ e.atomIds = r.atomIds

/-! ### References -/

namespace CanonicalSemanticDocument

variable {document : CanonicalSemanticDocument} {evidence : EvidenceFields}

private theorem duplicateCount_eq_zero (h : document.duplicateCount = 0) : document.references.Nodup := by
  refine List.nodup_iff_count_le_one.2 fun i => ?_
  by_cases hi : i ∈ document.references
  · have hzero : document.references.count i - 1 = 0 :=
      List.sum_eq_zero_iff_forall_eq_nat.1 h _ (List.mem_map_of_mem (List.mem_eraseDups.2 hi))
    omega
  · rw [List.count_eq_zero_of_not_mem hi]
    exact Nat.zero_le 1

private theorem missingIds_eq_nil (h : document.missingIds evidence = []) :
    ∀ i ∈ evidence.visibleAtomIds, i ∈ document.references := by
  intro i hi
  by_contra hnot
  have hmem : i ∈ document.missingIds evidence :=
    List.mem_eraseDups.2 (List.mem_filter.2 ⟨hi, decide_eq_true hnot⟩)
  rw [h] at hmem
  cases hmem

end CanonicalSemanticDocument

/-! ### Tables -/

section Tables

variable {rowCount columnCount : ℕ}

/-- The visible characters of the lines of a matrix are those of its places. -/
private theorem withoutWhitespace_matrixOf (f : ℕ × ℕ → Text) :
    withoutWhitespace (['\n'].intercalate ((matrixOf rowCount columnCount f).map ['\t'].intercalate)) =
      (gridPlaces rowCount columnCount).flatMap fun p => withoutWhitespace (f p) := by
  rw [withoutWhitespace_intercalate (by decide), List.flatMap_map, matrixOf, List.flatMap_map, gridPlaces, List.flatMap_assoc]
  refine List.flatMap_congr fun row _ => ?_
  rw [withoutWhitespace_intercalate (by decide), List.flatMap_map, List.flatMap_map]

private theorem atomTextSequence_flatMap {α : Type} (catalog : Dict AtomId EvidenceAtom) (l : List α)
    (f : α → List AtomId) :
    atomTextSequence catalog (l.flatMap f) = l.flatMap fun a => atomTextSequence catalog (f a) := List.flatMap_assoc

private theorem withoutWhitespace_flatMap {α : Type} (l : List α) (f : α → Text) :
    withoutWhitespace (l.flatMap f) = l.flatMap fun a => withoutWhitespace (f a) := List.filter_flatMap ..

/-- Separate cells begin at separate places. -/
private theorem nodup_first {cells : List CanonicalCell} (h : (cells.flatMap (·.region.places)).Nodup) :
    (cells.map (·.region.first)).Nodup := by
  rw [List.nodup_flatMap] at h
  refine List.Pairwise.map _ ?_ h.2
  intro c c' hdisjoint heq
  have hmem (c : CanonicalCell) : c.region.first ∈ c.region.places :=
    CellRegion.mem_places.2 ⟨⟨le_rfl, c.span.1⟩, le_rfl, c.span.2⟩
  exact hdisjoint (hmem c) (heq ▸ hmem c')

/-- The plain text of separate cells has their characters row by row. -/
private theorem withoutWhitespace_tablePlainText {cells : List CanonicalCell} {text : Text}
    (hplaces : (cells.flatMap (·.region.places)).Perm (gridPlaces rowCount columnCount))
    (h : tablePlainText rowCount columnCount cells = .ok text) :
    withoutWhitespace text = (gridPlaces rowCount columnCount).flatMap fun p =>
      (cells.filter fun c => c.region.first = p).flatMap fun c => withoutWhitespace c.text := by
  have hfirst : ∀ a ∈ cells.map fun c => (c.region.first, c.text), a.1 ∈ gridPlaces rowCount columnCount := by
    intro a ha
    obtain ⟨c, hc, rfl⟩ := List.mem_map.1 ha
    exact hplaces.mem_iff.1 (List.mem_flatMap.2
      ⟨c, hc, CellRegion.mem_places.2 ⟨⟨le_rfl, c.span.1⟩, le_rfl, c.span.2⟩⟩)
  have hnodup : ((cells.map fun c => (c.region.first, c.text)).map Prod.fst).Nodup := by
    rw [List.map_map]
    exact nodup_first (hplaces.nodup_iff.2 nodup_gridPlaces)
  have hmatrix := foldlM_setValue_nodup _ hfirst hnodup
  rw [← replicate_eq_matrixOf, List.foldlM_map] at hmatrix
  obtain ⟨rows, hrows, h⟩ := bind_eq_ok.1 h
  cases pure_eq_ok.1 h
  cases hmatrix.symm.trans hrows
  rw [withoutWhitespace_matrixOf]
  refine List.flatMap_congr fun p _ => ?_
  rw [List.filter_map, List.flatMap_map, withoutWhitespace_flatMap]
  rfl

/-- A table that passes its check and whose characters agree with its atoms is kept. -/
private theorem CanonicalBlock.tableKept {catalog : Dict AtomId EvidenceAtom} {block : CanonicalBlock}
    (hvalid : validTable block = true) (hkind : block.kind = .table) (hatoms : block.atomIds.Nodup)
    (hmatch : block.mismatch catalog = .ok false) :
    ∃ rowCount columnCount, block.rowCount = some rowCount ∧ block.columnCount = some columnCount ∧
      block.TableKept catalog rowCount columnCount := by
  unfold validTable at hvalid
  split at hvalid
  case h_2 => cases hvalid
  case h_1 rowCount columnCount hrow hcolumn =>
    obtain ⟨-, hcellAtoms, hsub, hall, hin, hplaces, hcover⟩ := of_decide_eq_true hvalid
    have hgrid : (block.cells.flatMap (·.region.places)).Perm (gridPlaces rowCount columnCount) :=
      (List.perm_ext_iff_of_nodup hplaces nodup_gridPlaces).2 fun p =>
        ⟨fun hp => mem_gridPlaces.2 (hin p hp), hcover p⟩
    unfold CanonicalBlock.mismatch at hmatch
    rw [if_pos hkind, hrow, hcolumn] at hmatch
    obtain ⟨text, htext, hmatch⟩ := bind_eq_ok.1 hmatch
    have hfalse := pure_eq_ok.1 hmatch
    rw [Bool.or_eq_false_iff, decide_eq_false_iff_not, not_not, List.any_eq_false] at hfalse
    have hcells : ∀ c ∈ block.cells, withoutWhitespace c.text = atomTextSequence catalog c.atomIds := by
      intro c hc
      simpa using hfalse.2 c hc
    refine ⟨rowCount, columnCount, hrow, hcolumn, hgrid,
      (List.perm_ext_iff_of_nodup hcellAtoms hatoms).2 fun i => ⟨hsub i, hall i⟩, hcells, ?_⟩
    rw [hfalse.1, withoutWhitespace_tablePlainText hgrid htext, CanonicalBlock.rowAtomIds, atomTextSequence_flatMap]
    refine List.flatMap_congr fun p _ => ?_
    rw [atomTextSequence_flatMap]
    exact List.flatMap_congr fun c hc => hcells c (List.mem_filter.1 hc).1

end Tables

/-! ### A publishable document -/

private theorem findingIf_eq_nil {condition : Bool} {code message : String} :
    findingIf condition code message = [] ↔ condition = false := by
  cases condition <;> simp [findingIf]

private theorem findings_of_publishable {platform : Platform} {evidence : EvidenceFields}
    {document : CanonicalSemanticDocument} {findings : List ValidationFinding}
    (h : (canonicalReport platform evidence document findings).publishable = true) : findings = [] := by
  by_contra hne
  have hstatus : canonicalStatus document findings = .failed := if_pos hne
  simp [canonicalReport, hstatus] at h

private theorem sourceKept_of_findings {evidence : EvidenceFields} {document : CanonicalSemanticDocument}
    {layout : Option LayoutDocument} {mismatch : Bool} {rendered : Text}
    (hmismatch : characterMismatch evidence.atomCatalog document = .ok mismatch)
    (h : canonicalFindings evidence document layout mismatch rendered = []) : SourceKept evidence document layout := by
  simp only [canonicalFindings, List.append_eq_nil_iff, findingIf_eq_nil] at h
  obtain ⟨⟨⟨⟨⟨⟨⟨⟨⟨⟨-, -⟩, hduplicate⟩, hmissing⟩, hcharacters⟩, hwhitespace⟩, hexclusion⟩, horder⟩, htable⟩, -⟩, -⟩ := h
  have hnodup : document.references.Nodup := by
    refine CanonicalSemanticDocument.duplicateCount_eq_zero ?_
    simpa using hduplicate
  have hallocated : ∀ i ∈ evidence.visibleAtomIds, i ∈ document.references := by
    refine CanonicalSemanticDocument.missingIds_eq_nil ?_
    simpa using hmissing
  rw [decide_eq_false_iff_not, not_not] at hwhitespace
  obtain ⟨-, hspaces, hspacesNodup⟩ := hwhitespace
  subst hcharacters
  obtain ⟨b, hblocks, hfigures⟩ := bind_eq_ok.1 hmismatch
  have hfalse := pure_eq_ok.1 hfigures
  rw [Bool.or_eq_false_iff, List.any_eq_false] at hfalse
  rw [hfalse.1] at hblocks
  have hmatch := of_anyM_eq_false hblocks
  have hatoms : ∀ b ∈ document.blocks, b.atomIds.Nodup := by
    have hsub : (document.blocks.flatMap (·.atomIds)).Nodup := by
      rw [CanonicalSemanticDocument.references, CanonicalSemanticDocument.allocatedIds, List.append_assoc] at hnodup
      exact hnodup.of_append_left
    exact (List.nodup_flatMap.1 hsub).1
  refine ⟨?_, ?_, ?_, ?_, ?_, ?_, ?_⟩
  · intro a ha hvisible
    exact List.count_eq_one_of_mem hnodup (hallocated _ (List.mem_map_of_mem
      (List.mem_filter.2 ⟨ha, by rw [hvisible]; rfl⟩)))
  · intro b hb hkind
    have h := hmatch b hb
    rw [CanonicalBlock.mismatch, if_neg hkind] at h
    simpa using h
  · intro f hf
    simpa using hfalse.2 f hf
  · intro b hb hkind
    rw [List.any_eq_false] at htable
    have hvalid : validTable b = true := by simpa [hkind] using htable b hb
    exact CanonicalBlock.tableKept hvalid hkind (hatoms b hb) (hmatch b hb)
  · intro a ha hspace
    exact List.count_eq_one_of_mem hspacesNodup (hspaces _ (List.mem_map_of_mem (List.mem_filter.2 ⟨ha, hspace⟩)))
  · intro l hl
    cases hl
    have hvalid : validRegionOrder document.regionOrder l = true := by simpa using horder
    obtain ⟨horderNodup, hsub, hall, hedges⟩ := of_decide_eq_true hvalid
    refine ⟨(List.perm_ext_iff_of_nodup horderNodup l.regionIds_nodup).2 fun i => ⟨hsub i, fun hi => ?_⟩, hedges⟩
    obtain ⟨r, hr, rfl⟩ := List.mem_map.1 hi
    exact hall r hr
  · intro e he
    have hne : document.excludedEvidence ≠ [] := List.ne_nil_of_mem he
    have hvalid : layout.any (validExclusions document.excludedEvidence) = true := by simpa [hne] using hexclusion
    obtain ⟨l, rfl, hvalid⟩ := (Option.any_eq_true _ _).1 hvalid
    have he := List.all_eq_true.1 hvalid e he
    cases hlookup : l.regionCatalog.lookup e.regionId with
    | none => simp [hlookup] at he
    | some r =>
      simp only [hlookup, decide_eq_true_eq] at he
      obtain ⟨hrepeated, hhint, hids⟩ := he
      obtain ⟨hr, hid⟩ := l.lookup_regionCatalog.1 hlookup
      exact ⟨l, rfl, r, hr, hid, hrepeated, hhint, hids.symm⟩

/-- A document whose report is publishable keeps its source. -/
theorem validateCanonical_sound {platform : Platform} {evidence : EvidenceFields}
    {document : CanonicalSemanticDocument} {layout : Option LayoutDocument} {report : SemanticValidationReport}
    (h : validateCanonical platform evidence document layout = .ok report) (hpublishable : report.publishable = true) :
    SourceKept evidence document layout := by
  obtain ⟨mismatch, hmismatch, h⟩ := bind_eq_ok.1 h
  obtain ⟨rendered, -, h⟩ := bind_eq_ok.1 h
  cases pure_eq_ok.1 h
  exact sourceKept_of_findings hmismatch (findings_of_publishable hpublishable)

/-! ### A table read backwards -/

/-- A table of the letters `A` and `B` in one row, whose block lists the atom of `B` first. -/
def reversedPairDocument : CanonicalSemanticDocument where
  sourceHash := sha256 []
  regionOrder := [⟨0⟩]
  blocks := [{
    blockId := ⟨0⟩
    order := 0
    regionId := ⟨0⟩
    page := 1
    kind := .table
    text := "A\tB".toList
    atomIds := [⟨2⟩, ⟨0⟩]
    headingLevel := none
    listKind := none
    listDepth := none
    rowCount := some 1
    columnCount := some 2
    cells := [⟨⟨0⟩, ⟨0, 1, 0, 1⟩, ['A'], [⟨0⟩], false, CellRegion.unit_withinLimits, CellRegion.unit_span⟩,
      ⟨⟨1⟩, ⟨0, 1, 1, 2⟩, ['B'], [⟨2⟩], false, by decide, by decide⟩]
    decisionIds := []
    page_pos := Nat.one_pos
    headingLevel_mem := headingLevel_none
    listDepth_mem := listDepth_none
    rowCount_mem := by decide
    columnCount_mem := by decide
    cells_le := by decide
    heading_iff := CanonicalBlock.table_heading_iff
    list_iff := CanonicalBlock.table_list_iff
    table_iff := by decide
    cells_iff := by decide }]
  figures := []
  excludedEvidence := []
  whitespaceDispositions := [⟨⟨1⟩, .layoutOnly, .space, ⟨0⟩⟩]
  continuations := []
  decisions := []

private theorem exists_reversedPairReport : ∃ report,
    validateCanonical .ascii spacedLetters.toEvidenceFields reversedPairDocument (some letterPairLayout) = .ok report ∧
      report.publishable = true := by
  exact exists_of_any_toOption (by decide +kernel)

theorem validateCanonical_sound_pair : ∃ report,
    validateCanonical .ascii spacedLetters.toEvidenceFields reversedPairDocument (some letterPairLayout) = .ok report ∧
      report.publishable = true ∧
      SourceKept spacedLetters.toEvidenceFields reversedPairDocument (some letterPairLayout) := by
  obtain ⟨report, h, hpublishable⟩ := exists_reversedPairReport
  exact ⟨report, h, hpublishable, validateCanonical_sound h hpublishable⟩

/-- The atoms of a table block need not be in the order of its text. -/
theorem reversed_pair_publishable : ∃ report,
    validateCanonical .ascii spacedLetters.toEvidenceFields reversedPairDocument (some letterPairLayout) = .ok report ∧
      report.publishable = true ∧
      ∃ b ∈ reversedPairDocument.blocks, withoutWhitespace b.text = ['A', 'B'] ∧
        atomTextSequence spacedLetters.atomCatalog b.atomIds = ['B', 'A'] := by
  obtain ⟨report, h, hpublishable⟩ := exists_reversedPairReport
  exact ⟨report, h, hpublishable, _, List.mem_singleton.2 rfl, by decide +kernel, by decide +kernel⟩

end ArdOssie
