import ArdOssie.Semantic.CanonicalValidation

/-!
# The assembly of a canonical document

The canonical document of a layout: its regions in reading order, the repeated edges excluded, and every other region
as a block or a figure with the candidates that were selected for it.
-/

namespace ArdOssie

/-! ### Selected candidates -/

/-- The candidate as a block candidate. -/
def Candidate.block? : Candidate → Option BlockCandidate
  | .block c => some c
  | _ => none

/-- The candidate as a reading order. -/
def Candidate.readingOrder? : Candidate → Option ReadingOrderCandidate
  | .readingOrder c => some c
  | _ => none

/-- The candidate as a continuation. -/
def Candidate.continuation? : Candidate → Option ContinuationCandidate
  | .continuation c => some c
  | _ => none

/-- The decisions by candidate set. -/
abbrev Decisions := Dict CandidateSetId DecisionRecord

/-- The generated candidate of a decision that selects it. -/
def selectedGenerated (candidateSet : CandidateSet) (decision : DecisionRecord) : Option SpacingCandidate :=
  match decision.generatedCandidate with
  | some (.candidate generated) =>
    if some generated.candidateId = decision.selectedCandidateId ∧ generated.regionId = candidateSet.regionId ∧
      candidateSet.decisionType = .spacing then some generated else none
  | _ => none

/-- The candidate of the set that a decision selects. -/
def selectedMember (candidateSet : CandidateSet) (decision : DecisionRecord) : Option Candidate :=
  decision.selectedCandidateId.bind fun i => candidateSet.candidates.find? fun c => c.candidateId = i

/-- `_selected_candidate`; a set has a candidate. -/
def selectedCandidate (candidateSet : CandidateSet) (decisions : Decisions) : Option Candidate :=
  let decision := decisions.lookup candidateSet.candidateSetId
  (decision.bind fun d => (selectedGenerated candidateSet d).map .spacing) <|>
    (decision.bind (selectedMember candidateSet)) <|>
    maxBy (fun c => toLex (c.score, c.candidateId.value)) candidateSet.candidates

/-! ### Texts of regions and cells -/

section Atoms

variable (catalog : Dict AtomId EvidenceAtom)

/-- `atom_catalog[atom_id]` for a list of identifiers. -/
def catalogAtoms (atomIds : List AtomId) : PyResult (List EvidenceAtom) := atomIds.mapM catalog.getItem

/-- The state of the whitespace between two visible atoms of a cell. -/
def sourceState (atoms : List EvidenceAtom) (left right : AtomId) : BoundaryState :=
  let ids := atoms.map (·.atomId)
  let source := (atoms.take (ids.idxOf right)).drop (ids.idxOf left + 1)
  if source.any fun a => a.kind = .lineBreak then .hardBreak else if source.any (·.isSpace) then .space else .none

/-- The texts of visible atoms with the separators between them. -/
def joinVisible (state : AtomId → AtomId → BoundaryState) : List EvidenceAtom → Text
  | [] => []
  | [a] => a.text
  | a :: b :: rest => a.text ++ ((state a.atomId b.atomId).separator ++ joinVisible state (b :: rest))

/-- `_project_cell_spacing` -/
def projectCellSpacing (atomIds : List AtomId) (spacing : Option SpacingCandidate) : PyResult Text := do
  let atoms ← catalogAtoms catalog atomIds
  let selected : Dict (AtomId × AtomId) BoundaryState :=
    Dict.ofList ((spacing.elim [] (·.boundaries)).map fun b => ((b.leftAtomId, b.rightAtomId), b.state))
  let state := fun left right => (selected.lookup (left, right)).getD (sourceState atoms left right)
  return joinVisible state (atoms.filter fun a => !a.isSpace)

/-- The cell of a canonical table for a cell of a candidate. -/
def canonicalCell (spacing : Option SpacingCandidate) (cell : TableCellCandidate) : PyResult CanonicalCell := do
  let text ←
    match spacing, cell.renderedText with
    | none, some text => .ok text
    | spacing, _ => projectCellSpacing catalog cell.atomIds spacing
  let atoms ← catalogAtoms catalog cell.atomIds
  return ⟨cell.cellId, cell.region, text, (atoms.filter fun a => !a.isSpace).map (·.atomId), cell.columnHeader,
    cell.withinLimits, cell.span⟩

/-- `_canonical_cells` -/
def canonicalCells (table : TableCandidate) (spacing : Option SpacingCandidate) : PyResult (List CanonicalCell) :=
  table.cells.mapM (canonicalCell catalog spacing)

/-- The state that a whitespace atom has in the source. -/
def EvidenceAtom.whitespaceState (atom : EvidenceAtom) : BoundaryState :=
  if atom.text = ['\n'] then .hardBreak else .space

/-- The disposition of one whitespace atom. -/
def whitespaceDisposition (spacing : Option SpacingCandidate) (decisionId : DecisionId) (atom : EvidenceAtom) :
    WhitespaceDisposition :=
  let boundaryByAtom : Dict AtomId SpacingBoundary :=
    Dict.ofList ((spacing.elim [] (·.boundaries)).flatMap fun b => b.sourceWhitespaceAtomIds.map fun i => (i, b))
  match boundaryByAtom.lookup atom.atomId with
  | none => ⟨atom.atomId, if spacing.isSome then .layoutOnly else .retained, atom.whitespaceState, decisionId⟩
  | some boundary =>
    ⟨atom.atomId, if boundary.state = atom.whitespaceState then .retained else .normalized, boundary.state, decisionId⟩

/-- `_whitespace_dispositions` -/
def whitespaceDispositions (region : LayoutRegion) (spacing : Option SpacingCandidate)
    (decision : Option DecisionRecord) : PyResult (List WhitespaceDisposition) := do
  let atoms ← catalogAtoms catalog region.atomIds
  return (atoms.filter (·.isSpace)).map (whitespaceDisposition spacing ((decision.map (·.decisionId)).getD ⟨0⟩))

/-- `_layout_only_whitespace` -/
def layoutOnlyWhitespace (region : LayoutRegion) (decisionId : DecisionId) : PyResult (List WhitespaceDisposition) := do
  let atoms ← catalogAtoms catalog region.atomIds
  return (atoms.filter (·.isSpace)).map fun a => ⟨a.atomId, .layoutOnly, .none, decisionId⟩

end Atoms

/-! ### Blocks -/

/-- `CanonicalBlock(…)` with its checks. -/
def CanonicalBlock.make (blockId : BlockId) (order : ℕ) (region : LayoutRegion) (kind : CanonicalBlockKind) (text : Text)
    (atomIds : List AtomId) (candidate : Option BlockCandidate) (table : Option TableCandidate)
    (cells : List CanonicalCell) (decisionIds : List DecisionId) : PyResult CanonicalBlock :=
  let headingLevel := if kind = .heading then candidate.bind (·.headingLevel) else none
  let listKind := if kind = .listItem then candidate.bind (·.listKind) else none
  let listDepth := if kind = .listItem then candidate.bind (·.listDepth) else none
  let rowCount := table.map (·.rowCount)
  let columnCount := table.map (·.columnCount)
  if h : (∀ n ∈ headingLevel, 1 ≤ n ∧ n ≤ 6) ∧ (∀ n ∈ listDepth, 1 ≤ n ∧ n ≤ maxListDepth) ∧
      (∀ n ∈ rowCount, 0 < n ∧ n ≤ maxTableRows) ∧ (∀ n ∈ columnCount, 0 < n ∧ n ≤ maxTableColumns) ∧
      cells.length ≤ maxTableCells ∧ (headingLevel ≠ none ↔ kind = .heading) ∧
      (listKind ≠ none ∧ listDepth ≠ none ↔ kind = .listItem) ∧
      (rowCount ≠ none ∧ columnCount ≠ none ↔ kind = .table) ∧ (cells ≠ [] ↔ kind = .table) then
    .ok ⟨blockId, order, region.regionId, region.page, kind, text, atomIds, headingLevel, listKind, listDepth, rowCount,
      columnCount, cells, decisionIds, region.page_pos, h.1, h.2.1, h.2.2.1, h.2.2.2.1, h.2.2.2.2.1, h.2.2.2.2.2.1,
      h.2.2.2.2.2.2.1, h.2.2.2.2.2.2.2.1, h.2.2.2.2.2.2.2.2⟩
  else .error (.validationError [])

/-- What the assembly has collected. -/
structure Assembly where
  blocks : List CanonicalBlock
  figures : List CanonicalFigure
  excludedEvidence : List ExcludedEvidence
  whitespaceDispositions : List WhitespaceDisposition

/-- The kind of a canonical block for a block candidate and the table that was selected for it. -/
def canonicalKind (kind : BlockKind) (table : Option TableCandidate) : CanonicalBlockKind :=
  match kind with
  | .heading => .heading
  | .paragraph => .paragraph
  | .listItem => .listItem
  | .caption => .caption
  | .figure => .paragraph
  | .table => if table.isSome then .table else .paragraph

/-- The reason to exclude a repeated edge. -/
def LayoutRegion.exclusionReason (region : LayoutRegion) : Option ExclusionReason :=
  if region.repeatedEdge then
    match region.hint with
    | some .pageHeader => some .repeatedPageHeader
    | some .pageFooter => some .repeatedPageFooter
    | some .pageNumber => some .pageNumber
    | _ => none
  else none

section Assemble

variable (platform : Platform)

/-- The candidate sets by region and kind, the decisions and the atoms that a region is assembled from. -/
structure AssemblySource where
  sets : Dict (RegionId × CandidateKind) CandidateSet
  decisions : Decisions
  catalog : Dict AtomId EvidenceAtom

namespace AssemblySource

variable (source : AssemblySource)

/-- The set of a region and kind. -/
def scopedSet (regionId : RegionId) (kind : CandidateKind) : Option CandidateSet := source.sets.lookup (regionId, kind)

/-- The selected candidate of a region and kind. -/
def selected (regionId : RegionId) (kind : CandidateKind) : Option Candidate :=
  (source.scopedSet regionId kind).bind fun s => selectedCandidate s source.decisions

/-- The decision of a region and kind. -/
def decisionOf (regionId : RegionId) (kind : CandidateKind) : Option DecisionRecord :=
  (source.scopedSet regionId kind).bind fun s => source.decisions.lookup s.candidateSetId

/-- The selected spacing of a region. -/
def spacingOf (regionId : RegionId) : Option SpacingCandidate := (source.selected regionId .spacing).bind (·.spacing?)

/-- The selected block of a region. -/
def blockOf (regionId : RegionId) : Option BlockCandidate := (source.selected regionId .block).bind (·.block?)

/-- A block of a region. -/
def assembleBlock (region : LayoutRegion) (order : ℕ) (text : Text) (atomIds : List AtomId) : PyResult CanonicalBlock := do
  let regionId := region.regionId
  let block := source.blockOf regionId
  let kind := (block.map (·.blockKind)).getD .paragraph
  let table := if kind = .table then (source.selected regionId .table).bind (·.table?) else none
  let decisionIds := ([source.decisionOf regionId .spacing, source.decisionOf regionId .block,
    source.decisionOf regionId .table].filterMap id).map (·.decisionId)
  let cells ←
    match table with
    | some table => canonicalCells source.catalog table (source.spacingOf regionId)
    | none => .ok []
  let blockText ←
    match table with
    | some table => tablePlainText table.rowCount table.columnCount cells
    | none => .ok text
  let canonicalKind := canonicalKind kind table
  let digest := canonicalHash platform (.record
    [("region_id", regionId.json), ("kind", .lit canonicalKind.text), ("atom_ids", atomIdsJson atomIds)])
  CanonicalBlock.make ⟨digest.prefix16⟩ order region canonicalKind blockText atomIds block table cells decisionIds

/-- A figure of a region. -/
def assembleFigure (region : LayoutRegion) (atomIds : List AtomId) : CanonicalFigure :=
  let digest := canonicalHash platform (.record [("region_id", region.regionId.json), ("atom_ids", atomIdsJson atomIds)])
  { figureId := ⟨digest.prefix16⟩, regionId := region.regionId, page := region.page, bbox := region.bbox, caption := none,
    captionAtomIds := [],
    decisionIds := ([source.decisionOf region.regionId .spacing, source.decisionOf region.regionId .block].filterMap
      id).map (·.decisionId),
    page_pos := region.page_pos }

/-- A region that is not excluded. -/
def assembleContent (s : Assembly) (region : LayoutRegion) : PyResult Assembly := do
  let atoms ← catalogAtoms source.catalog region.atomIds
  let spacing := source.spacingOf region.regionId
  let text := (spacing.map (·.renderedText)).getD (atoms.flatMap (·.text))
  let atomIds := (atoms.filter fun a => !a.isSpace).map (·.atomId)
  let whitespace ←
    whitespaceDispositions source.catalog region spacing (source.decisionOf region.regionId .spacing)
  if (source.blockOf region.regionId).map (·.blockKind) = some .figure then
    return { s with
      figures := s.figures ++ [source.assembleFigure platform region atomIds]
      whitespaceDispositions := s.whitespaceDispositions ++ whitespace }
  else do
    let block ← source.assembleBlock platform region s.blocks.length text atomIds
    return { s with
      blocks := s.blocks ++ [block]
      whitespaceDispositions := s.whitespaceDispositions ++ whitespace }

/-- A region that is excluded as a repeated edge. -/
def assembleExclusion (s : Assembly) (region : LayoutRegion) (reason : ExclusionReason) : PyResult Assembly := do
  let whitespace ← layoutOnlyWhitespace source.catalog region ⟨0⟩
  return { s with
    excludedEvidence := s.excludedEvidence ++ [⟨region.regionId, region.atomIds, reason, region.atomIds_ne⟩]
    whitespaceDispositions := s.whitespaceDispositions ++ whitespace }

/-- One pass of the loop over the regions. -/
def assembleRegion (regions : Dict RegionId LayoutRegion) (s : Assembly) (regionId : RegionId) : PyResult Assembly := do
  let region ← regions.getItem regionId
  match region.exclusionReason with
  | some reason => source.assembleExclusion s region reason
  | none => source.assembleContent platform s region

end AssemblySource

/-- The continuation that a candidate set decides. -/
def assembleContinuation (decisions : Decisions) (candidateSet : CandidateSet) : Option CanonicalContinuation :=
  if candidateSet.decisionType ≠ .continuation then none
  else
    match (selectedCandidate candidateSet decisions).bind (·.continuation?),
      decisions.lookup candidateSet.candidateSetId with
    | some candidate, some decision =>
      if candidate.continuePrevious then
        some ⟨candidate.previousRegionId, candidate.currentRegionId, decision.decisionId⟩ else none
    | _, _ => none

/-- The decisions by candidate set; a later one replaces an earlier one. -/
def decisionsBySet (decisions : List DecisionRecord) : Decisions :=
  Dict.ofList (decisions.map fun d => (d.candidateSetId, d))

/-- The order of the regions: that of the layout, or the selected one. -/
def readingOrder (layout : LayoutDocument) (candidateSets : List CandidateSet) (decisions : List DecisionRecord) :
    PyResult (List RegionId) := do
  let order ← layout.topologicalRegionOrder
  let selected := (candidateSets.find? fun s => s.decisionType = .readingOrder).bind fun s =>
    (selectedCandidate s (decisionsBySet decisions)).bind (·.readingOrder?)
  return (selected.map (·.regionIds)).getD order

/-- `assemble_canonical` -/
def assembleCanonical (evidence : EvidenceDocument) (layout : LayoutDocument) (candidateSets : List CandidateSet)
    (decisions : List DecisionRecord) : PyResult (CanonicalSemanticDocument × SemanticValidationReport) := do
  raiseIf (evidence.sourceHash ≠ layout.sourceHash) (.valueError "CANONICAL_SOURCE_HASH_MISMATCH")
  let source : AssemblySource :=
    { sets := Dict.ofList (candidateSets.map fun s => ((s.regionId, s.decisionType), s))
      decisions := decisionsBySet decisions
      catalog := evidence.atomCatalog }
  let order ← readingOrder layout candidateSets decisions
  let result ← order.foldlM (source.assembleRegion platform layout.regionCatalog) ⟨[], [], [], []⟩
  let document : CanonicalSemanticDocument :=
    { sourceHash := evidence.sourceHash
      regionOrder := order
      blocks := result.blocks
      figures := result.figures
      excludedEvidence := result.excludedEvidence
      whitespaceDispositions := result.whitespaceDispositions
      continuations := candidateSets.filterMap (assembleContinuation source.decisions)
      decisions := decisions }
  let report ← validateCanonical platform evidence.toEvidenceFields document (some layout)
  return (document, report)

end Assemble

/-! ### The atoms of a catalog -/

theorem EvidenceDocument.getItem_atomCatalog (evidence : EvidenceDocument) {i : AtomId} {a : EvidenceAtom} :
    evidence.atomCatalog.getItem i = .ok a ↔ a ∈ evidence.atoms ∧ a.atomId = i := by
  have hkeys : ((evidence.atoms.map fun a => (a.atomId, a)).map Prod.fst).Nodup := by
    rw [List.map_map]
    exact evidence.valid.atomIds
  rw [Dict.getItem_eq_ok, EvidenceFields.atomCatalog]
  constructor
  · intro hlookup
    have hmem := Dict.mem_of_lookup_ofList hlookup
    simp only [List.mem_map, Prod.mk.injEq] at hmem
    obtain ⟨a', ha', hid, rfl⟩ := hmem
    exact ⟨ha', hid⟩
  · rintro ⟨ha, rfl⟩
    exact Dict.lookup_ofList hkeys (List.mem_map_of_mem ha)

/-- The atoms of identifiers are found when the identifiers are known. -/
theorem EvidenceDocument.exists_catalogAtoms_iff (evidence : EvidenceDocument) {ids : List AtomId} :
    (∃ atoms, catalogAtoms evidence.atomCatalog ids = .ok atoms) ↔ ∀ i ∈ ids, i ∈ evidence.atoms.map (·.atomId) := by
  rw [catalogAtoms, mapM_total_iff]
  refine forall₂_congr fun i _ => ?_
  simp only [evidence.getItem_atomCatalog, List.mem_map]

/-! ### The excluded evidence -/

/-- The exclusion of a repeated edge. -/
def LayoutRegion.exclusion (region : LayoutRegion) : Option ExcludedEvidence :=
  region.exclusionReason.map fun reason => ⟨region.regionId, region.atomIds, reason, region.atomIds_ne⟩

section Exclusions

variable {platform : Platform} {source : AssemblySource} {regions : Dict RegionId LayoutRegion}

/-- One region adds its exclusion, whose atoms are known. -/
private theorem assembleRegion_exclusion {s s' : Assembly} {i : RegionId}
    (h : source.assembleRegion platform regions s i = .ok s') :
    ∃ region, regions.lookup i = some region ∧
      s'.excludedEvidence = s.excludedEvidence ++ region.exclusion.toList ∧
      (region.exclusion ≠ none → ∃ atoms, catalogAtoms source.catalog region.atomIds = .ok atoms) := by
  obtain ⟨region, hregion, h⟩ := bind_eq_ok.1 h
  refine ⟨region, Dict.getItem_eq_ok.1 hregion, ?_⟩
  unfold LayoutRegion.exclusion
  cases hreason : region.exclusionReason with
  | some reason =>
    rw [hreason] at h
    obtain ⟨whitespace, hwhitespace, h⟩ := bind_eq_ok.1 h
    obtain ⟨atoms, hatoms, -⟩ := bind_eq_ok.1 hwhitespace
    cases pure_eq_ok.1 h
    exact ⟨rfl, fun _ => ⟨atoms, hatoms⟩⟩
  | none =>
    rw [hreason] at h
    obtain ⟨atoms, -, h⟩ := bind_eq_ok.1 h
    obtain ⟨whitespace, -, h⟩ := bind_eq_ok.1 h
    refine ⟨?_, fun hne => absurd rfl hne⟩
    split at h
    · cases pure_eq_ok.1 h
      simp
    · obtain ⟨block, -, h⟩ := bind_eq_ok.1 h
      cases pure_eq_ok.1 h
      simp

private theorem assembleRegions_exclusions {order : List RegionId} {s s' : Assembly}
    (h : order.foldlM (source.assembleRegion platform regions) s = .ok s') :
    s'.excludedEvidence = s.excludedEvidence ++ (order.filterMap fun i => (regions.lookup i).bind (·.exclusion)) ∧
      ∀ i ∈ order, ∃ region, regions.lookup i = some region ∧
        (region.exclusion ≠ none → ∃ atoms, catalogAtoms source.catalog region.atomIds = .ok atoms) := by
  induction order generalizing s with
  | nil =>
    cases pure_eq_ok.1 h
    simp
  | cons i order ih =>
    rw [List.foldlM_cons, bind_eq_ok] at h
    obtain ⟨s₁, h₁, h⟩ := h
    obtain ⟨region, hlookup, hexcluded, hknown⟩ := assembleRegion_exclusion h₁
    obtain ⟨hrest, hall⟩ := ih h
    refine ⟨?_, List.forall_mem_cons.2 ⟨⟨region, hlookup, hknown⟩, hall⟩⟩
    rw [hrest, hexcluded, List.filterMap_cons, hlookup, Option.bind_some, List.append_assoc]
    cases hexclusion : region.exclusion with
    | none => simp only [Option.toList_none, List.nil_append]
    | some e => simp only [Option.toList_some, List.singleton_append]

end Exclusions

section Assembled

variable {platform : Platform} {evidence : EvidenceDocument} {layout : LayoutDocument}
  {candidateSets : List CandidateSet} {decisions : List DecisionRecord} {document : CanonicalSemanticDocument}
  {report : SemanticValidationReport}

/-- An assembled document excludes the repeated edges of its reading order, whose atoms are known, and is validated. -/
theorem assembleCanonical_spec
    (h : assembleCanonical platform evidence layout candidateSets decisions = .ok (document, report)) :
    readingOrder layout candidateSets decisions = .ok document.regionOrder ∧
      document.excludedEvidence =
        (document.regionOrder.filterMap fun i => (layout.regionCatalog.lookup i).bind (·.exclusion)) ∧
      (∀ i ∈ document.excludedIds, i ∈ evidence.atoms.map (·.atomId)) ∧
      validateCanonical platform evidence.toEvidenceFields document (some layout) = .ok report := by
  obtain ⟨-, h⟩ := raiseIf_bind_eq_ok.1 h
  obtain ⟨order, horder, h⟩ := bind_eq_ok.1 h
  obtain ⟨result, hresult, h⟩ := bind_eq_ok.1 h
  obtain ⟨validated, hvalidated, h⟩ := bind_eq_ok.1 h
  cases pure_eq_ok.1 h
  obtain ⟨hexcluded, hregions⟩ := assembleRegions_exclusions hresult
  rw [List.nil_append] at hexcluded
  refine ⟨horder, hexcluded, ?_, hvalidated⟩
  intro i hi
  obtain ⟨e, he, hi⟩ := List.mem_flatMap.1 hi
  have hmem : e ∈ result.excludedEvidence := he
  rw [hexcluded, List.mem_filterMap] at hmem
  obtain ⟨regionId, hregionId, he⟩ := hmem
  obtain ⟨region, hlookup, hknown⟩ := hregions regionId hregionId
  rw [hlookup, Option.bind_some] at he
  have hids : e.atomIds = region.atomIds := by
    obtain ⟨reason, -, rfl⟩ := Option.map_eq_some_iff.1 he
    rfl
  exact evidence.exists_catalogAtoms_iff.1 (hknown (by rw [he]; simp)) i (hids ▸ hi)

end Assembled

end ArdOssie
