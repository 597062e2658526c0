import ArdOssie.Semantic.LayoutModels
import ArdOssie.Semantic.MarkdownLayouts
import ArdOssie.Semantic.Render
import ArdOssie.Semantic.RepairModels

/-!
# The validation of canonical documents

The invariants of a canonical document: it is bound to its source, its blocks, figures and exclusions use every
visible atom once, its texts have the characters of their atoms, its tables are complete, its order keeps the edges of
the layout, and its rendering is Markdown.  A violated invariant is a finding of the report.
-/

namespace ArdOssie

open Text (withoutWhitespace)

inductive SemanticPipelineStatus where
  | verified
  | reviewPending
  | reviewRequired
  | failed
  deriving DecidableEq, Repr

structure ValidationFinding where
  code : String
  message : String
  deriving DecidableEq, Repr

structure SemanticValidationReport where
  status : SemanticPipelineStatus
  publishable : Bool
  sourceHash : Sha256
  canonicalHash : Sha256
  findings : List ValidationFinding
  characterCoverage : ℚ
  missingAtomCount : ℕ
  duplicateAtomCount : ℕ
  degradedBlockCount : ℕ
  modelCallCount : ℕ
  coverage_mem : 0 ≤ characterCoverage ∧ characterCoverage ≤ 1

/-! ### The content of a document -/

def CanonicalBlockKind.text : CanonicalBlockKind → String
  | heading => "heading"
  | paragraph => "paragraph"
  | listItem => "list_item"
  | table => "table"
  | caption => "caption"

def ExclusionReason.text : ExclusionReason → String
  | repeatedPageHeader => "repeated_page_header"
  | repeatedPageFooter => "repeated_page_footer"
  | pageNumber => "page_number"

def WhitespaceOutcome.text : WhitespaceOutcome → String
  | retained => "retained"
  | normalized => "normalized"
  | layoutOnly => "layout_only"

def SourceBox.json (b : SourceBox) : Json :=
  .record [("left", .float b.left), ("bottom", .float b.bottom), ("right", .float b.right), ("top", .float b.top)]

/-- The identifiers of atoms as a JSON value. -/
def atomIdsJson (ids : List AtomId) : Json := .arr (ids.map (·.json))

def CanonicalCell.json (c : CanonicalCell) : Json :=
  .record ([("cell_id", c.cellId.json)] ++ c.region.jsonFields ++
    [("text", .str c.text), ("atom_ids", atomIdsJson c.atomIds), ("column_header", .bool c.columnHeader)])

/-- A block without its decisions. -/
def CanonicalBlock.contentJson (b : CanonicalBlock) : Json :=
  .record [("block_id", b.blockId.json), ("order", .nat b.order), ("region_id", b.regionId.json), ("page", .nat b.page),
    ("kind", .lit b.kind.text), ("text", .str b.text), ("atom_ids", atomIdsJson b.atomIds),
    ("heading_level", .opt .nat b.headingLevel), ("list_kind", .opt (fun k => .lit k.text) b.listKind),
    ("list_depth", .opt .nat b.listDepth), ("row_count", .opt .nat b.rowCount),
    ("column_count", .opt .nat b.columnCount), ("cells", .arr (b.cells.map (·.json)))]

/-- A figure without its decisions. -/
def CanonicalFigure.contentJson (f : CanonicalFigure) : Json :=
  .record [("figure_id", f.figureId.json), ("region_id", f.regionId.json), ("page", .nat f.page), ("bbox", f.bbox.json),
    ("caption", .opt .str f.caption), ("caption_atom_ids", atomIdsJson f.captionAtomIds)]

def ExcludedEvidence.json (e : ExcludedEvidence) : Json :=
  .record [("region_id", e.regionId.json), ("atom_ids", atomIdsJson e.atomIds), ("reason", .lit e.reason.text),
    ("proven_repeated_edge", .bool true)]

/-- `_canonical_content_payload` -/
def CanonicalSemanticDocument.contentJson (d : CanonicalSemanticDocument) : Json :=
  .record [("schema_version", .lit "canonical-semantic-v2"), ("source_hash", .str d.sourceHash.hexdigest),
    ("region_order", .arr (d.regionOrder.map (·.json))), ("blocks", .arr (d.blocks.map (·.contentJson))),
    ("figures", .arr (d.figures.map (·.contentJson))), ("excluded_evidence", .arr (d.excludedEvidence.map (·.json))),
    ("whitespace_dispositions", .arr (d.whitespaceDispositions.map fun w => .record
      [("atom_id", w.atomId.json), ("outcome", .lit w.outcome.text), ("boundary_state", .lit w.boundaryState.text)])),
    ("continuations", .arr (d.continuations.map fun c => .record
      [("previous_region_id", c.previousRegionId.json), ("current_region_id", c.currentRegionId.json)]))]

/-! ### The references to atoms -/

/-- `{atom.atom_id: atom for atom in evidence.atoms}` -/
def EvidenceFields.atomCatalog (e : EvidenceFields) : Dict AtomId EvidenceAtom :=
  Dict.ofList (e.atoms.map fun a => (a.atomId, a))

/-- `source_non_whitespace` -/
def EvidenceFields.visibleAtomIds (e : EvidenceFields) : List AtomId :=
  (e.atoms.filter fun a => !a.isSpace).map (·.atomId)

/-- `source_whitespace` -/
def EvidenceFields.whitespaceAtomIds (e : EvidenceFields) : List AtomId := (e.atoms.filter (·.isSpace)).map (·.atomId)

namespace CanonicalSemanticDocument

variable (d : CanonicalSemanticDocument)

/-- `excluded_ids` -/
def excludedIds : List AtomId := d.excludedEvidence.flatMap (·.atomIds)

/-- `allocated_ids` -/
def allocatedIds : List AtomId := d.blocks.flatMap (·.atomIds) ++ d.figures.flatMap (·.captionAtomIds)

/-- `all_references` -/
def references : List AtomId := d.allocatedIds ++ d.excludedIds

/-- `duplicate_count` -/
def duplicateCount : ℕ := (d.references.eraseDups.map fun i => d.references.count i - 1).sum

/-- `missing_ids` -/
def missingIds (evidence : EvidenceFields) : List AtomId :=
  (evidence.visibleAtomIds.filter fun i => i ∉ d.references).eraseDups

end CanonicalSemanticDocument

/-! ### The checks -/

section Checks

variable (catalog : Dict AtomId EvidenceAtom)

/-- `_atom_text_sequence` -/
def atomTextSequence (atomIds : List AtomId) : Text :=
  atomIds.flatMap fun i =>
    match catalog.lookup i with
    | some atom => if atom.isSpace then [] else atom.text
    | none => []

/-- `_table_plain_text` -/
def tablePlainText (rowCount columnCount : ℕ) (cells : List CanonicalCell) : PyResult Text := do
  let rows ← cells.foldlM (fun rows c => setValue rows (c.region.startRow, c.region.startColumn) c.text)
    (List.replicate rowCount (List.replicate columnCount []))
  return ['\n'].intercalate (rows.map ['\t'].intercalate)

/-- A block has other characters than its atoms. -/
def CanonicalBlock.mismatch (block : CanonicalBlock) : PyResult Bool :=
  if block.kind = .table then do
    let text ← tablePlainText (block.rowCount.getD 0) (block.columnCount.getD 0) block.cells
    return block.text ≠ text || block.cells.any fun c => withoutWhitespace c.text ≠ atomTextSequence catalog c.atomIds
  else .ok (withoutWhitespace block.text ≠ atomTextSequence catalog block.atomIds)

/-- `character_mismatch` -/
def characterMismatch (document : CanonicalSemanticDocument) : PyResult Bool := do
  let blocks ← document.blocks.anyM (CanonicalBlock.mismatch catalog)
  return blocks || document.figures.any fun f =>
    withoutWhitespace (f.caption.getD []) ≠ atomTextSequence catalog f.captionAtomIds

end Checks

/-- `_valid_region_order` -/
def validRegionOrder (order : List RegionId) (layout : LayoutDocument) : Bool :=
  order.Nodup ∧ (∀ i ∈ order, i ∈ layout.regions.map (·.regionId)) ∧ (∀ r ∈ layout.regions, r.regionId ∈ order) ∧
    ∀ e ∈ layout.orderEdges, order.idxOf e.beforeRegionId < order.idxOf e.afterRegionId

/-- `_valid_table` -/
def validTable (block : CanonicalBlock) : Bool :=
  match block.rowCount, block.columnCount with
  | some rowCount, some columnCount =>
    let cellAtomIds := block.cells.flatMap (·.atomIds)
    let occupied := block.cells.flatMap (·.region.places)
    rowCount * columnCount ≤ maxTableGridArea ∧ cellAtomIds.Nodup ∧ (∀ i ∈ cellAtomIds, i ∈ block.atomIds) ∧
      (∀ i ∈ block.atomIds, i ∈ cellAtomIds) ∧ (∀ p ∈ occupied, p.1 < rowCount ∧ p.2 < columnCount) ∧
      occupied.Nodup ∧ ∀ p ∈ gridPlaces rowCount columnCount, p ∈ occupied
  | _, _ => false

/-- The part of the narrower of two boxes that they share horizontally is at least three quarters of it. -/
def alignedBoxes (previous current : SourceBox) : Bool :=
  let overlap := max 0 (min previous.right current.right - max previous.left current.left)
  let minimumWidth := min (previous.right - previous.left) (current.right - current.left)
  0 < minimumWidth ∧ 3 / 4 ≤ overlap / minimumWidth

/-- `_valid_continuation` -/
def validContinuation (continuation : CanonicalContinuation) (order : List RegionId) (layout : LayoutDocument) : Bool :=
  let previousIndex := order.idxOf continuation.previousRegionId
  let currentIndex := order.idxOf continuation.currentRegionId
  let between := (order.take currentIndex).drop (previousIndex + 1)
  match layout.regionCatalog.lookup continuation.previousRegionId,
    layout.regionCatalog.lookup continuation.currentRegionId with
  | some previous, some current =>
    (continuation.previousRegionId ∈ order ∧ continuation.currentRegionId ∈ order) ∧
      current.page = previous.page + 1 ∧ previousIndex < currentIndex ∧
      (∀ i ∈ between, ∀ r ∈ layout.regionCatalog.lookup i, r.repeatedEdge = true) ∧
      alignedBoxes previous.bbox current.bbox
  | _, _ => false

/-- `expected_hint` -/
def ExclusionReason.expectedHint : ExclusionReason → LayoutHint
  | repeatedPageHeader => .pageHeader
  | repeatedPageFooter => .pageFooter
  | pageNumber => .pageNumber

/-- `_valid_exclusions` -/
def validExclusions (exclusions : List ExcludedEvidence) (layout : LayoutDocument) : Bool :=
  exclusions.all fun exclusion =>
    match layout.regionCatalog.lookup exclusion.regionId with
    | some region => region.repeatedEdge ∧ region.hint = some exclusion.reason.expectedHint ∧
        region.atomIds = exclusion.atomIds
    | none => false

/-- `_current_model_call_count` -/
def currentModelCallCount (decision : DecisionRecord) : ℕ :=
  if decision.source = .cache then 0
  else if decision.attempts ≠ [] then
    (decision.attempts.map fun a => 1 + a.providerRetryCount + a.providerRepairCount).sum
  else if decision.source ∈ [.model, .provider, .recovered] then 1 else 0

/-! ### The report -/

private theorem roundHalfEven_mem {x : ℚ} {n : ℤ} (h : 0 ≤ x ∧ x ≤ n) : 0 ≤ roundHalfEven x ∧ roundHalfEven x ≤ n := by
  have hlow : 0 ≤ ⌊x⌋ := Int.floor_nonneg.2 h.1
  have hle : (⌊x⌋ : ℚ) ≤ x := Int.floor_le x
  have hhigh : ⌊x⌋ ≤ n := by
    have : (⌊x⌋ : ℚ) ≤ n := hle.trans h.2
    exact_mod_cast this
  have hnext : 0 < x - ⌊x⌋ → ⌊x⌋ + 1 ≤ n := by
    intro hpos
    have : (⌊x⌋ : ℚ) < n := by linarith [h.2]
    exact_mod_cast this
  unfold roundHalfEven
  dsimp only
  split_ifs with h₁ h₂ h₃
  · exact ⟨hlow, hhigh⟩
  · exact ⟨by omega, hnext (by linarith)⟩
  · exact ⟨hlow, hhigh⟩
  · exact ⟨by omega, hnext (by linarith)⟩

/-- A ratio is rounded to a ratio. -/
theorem roundSixDigits_mem {x : ℚ} (h : 0 ≤ x ∧ x ≤ 1) : 0 ≤ roundSixDigits x ∧ roundSixDigits x ≤ 1 := by
  have hround : 0 ≤ roundHalfEven (x * 1000000) ∧ roundHalfEven (x * 1000000) ≤ 1000000 :=
    roundHalfEven_mem ⟨by linarith [h.1], by push_cast; linarith [h.2]⟩
  have hlow : (0 : ℚ) ≤ roundHalfEven (x * 1000000) := by exact_mod_cast hround.1
  have hhigh : (roundHalfEven (x * 1000000) : ℚ) ≤ 1000000 := by exact_mod_cast hround.2
  unfold roundSixDigits
  constructor
  · positivity
  · rw [div_le_one (by norm_num)]
    exact hhigh

/-- The part of a list that a test keeps. -/
theorem length_filter_div_mem {α : Type} (l : List α) (q : α → Bool) :
    0 ≤ ((l.filter q).length / l.length : ℚ) ∧ ((l.filter q).length / l.length : ℚ) ≤ 1 := by
  refine ⟨by positivity, div_le_one_of_le₀ ?_ (by positivity)⟩
  exact_mod_cast List.length_filter_le q l

/-- A finding when a condition holds. -/
def findingIf (condition : Bool) (code message : String) : List ValidationFinding :=
  if condition then [⟨code, message⟩] else []

section Validate

variable (platform : Platform) (evidence : EvidenceFields) (document : CanonicalSemanticDocument)
  (layout : Option LayoutDocument)

/-- The findings of the checks, in the order of the checks. -/
def canonicalFindings (mismatch : Bool) (rendered : Text) : List ValidationFinding :=
  let dispositions := document.whitespaceDispositions.map (·.atomId)
  findingIf (evidence.sourceHash ≠ document.sourceHash || layout.any fun l => l.sourceHash ≠ evidence.sourceHash)
      "INVARIANT_SOURCE_BINDING" "Canonical source binding does not match evidence." ++
    findingIf (document.references.any fun i => i ∉ evidence.atoms.map (·.atomId))
      "INVARIANT_EVIDENCE_REFERENCE" "Unknown evidence atom reference." ++
    findingIf (document.duplicateCount ≠ 0)
      "INVARIANT_ATOM_ALLOCATION_DUPLICATE" "Evidence atoms are allocated more than once." ++
    findingIf (document.missingIds evidence ≠ [])
      "INVARIANT_ATOM_ALLOCATION_MISSING" "Evidence atoms are not allocated." ++
    findingIf mismatch
      "INVARIANT_CHARACTER_LOSS" "Canonical output differs from authoritative source characters." ++
    findingIf (¬ ((∀ i ∈ dispositions, i ∈ evidence.whitespaceAtomIds) ∧
        (∀ i ∈ evidence.whitespaceAtomIds, i ∈ dispositions) ∧ dispositions.Nodup))
      "INVARIANT_WHITESPACE_ACCOUNTING" "Source whitespace is not accounted for exactly once." ++
    findingIf (document.excludedEvidence ≠ [] && !(layout.any (validExclusions document.excludedEvidence)))
      "INVARIANT_EXCLUSION_PROOF" "Excluded evidence lacks repeated-edge layout proof." ++
    findingIf (layout.any fun l => !validRegionOrder document.regionOrder l)
      "INVARIANT_READING_ORDER" "Canonical order violates the layout DAG." ++
    findingIf (document.blocks.any fun b => b.kind = .table && !validTable b)
      "INVARIANT_TABLE_GRID" "Canonical table grid is incomplete or overlapping." ++
    findingIf (layout.any fun l => document.continuations.any fun c => !validContinuation c document.regionOrder l)
      "INVARIANT_CONTINUATION" "Cross-page continuation is not source-adjacent." ++
    findingIf (rendered = [] || hasRawHtml rendered)
      "INVARIANT_MARKDOWN_OUTPUT" "Markdown is empty or contains raw HTML."

/-- The decisions with an outcome. -/
def CanonicalSemanticDocument.decisionsWith (outcome : DecisionOutcome) : List DecisionRecord :=
  document.decisions.filter fun r => r.outcome = outcome

/-- The status of a document with findings. -/
def canonicalStatus (findings : List ValidationFinding) : SemanticPipelineStatus :=
  if findings ≠ [] then .failed
  else if document.decisionsWith .reviewRequired ≠ [] then .reviewRequired
  else if document.decisionsWith .deferredReview ≠ [] then .reviewPending
  else .verified

/-- `coverage` -/
def characterCoverage : ℚ :=
  if evidence.visibleAtomIds = [] then 1
  else (evidence.visibleAtomIds.filter fun i => i ∈ document.references).length / evidence.visibleAtomIds.length

private theorem characterCoverage_mem :
    0 ≤ characterCoverage evidence document ∧ characterCoverage evidence document ≤ 1 := by
  unfold characterCoverage
  split
  · exact ⟨zero_le_one, le_rfl⟩
  · exact length_filter_div_mem _ _

/-- The report of a document with findings. -/
def canonicalReport (findings : List ValidationFinding) : SemanticValidationReport where
  status := canonicalStatus document findings
  publishable := canonicalStatus document findings ∈ [SemanticPipelineStatus.verified, .reviewPending]
  sourceHash := evidence.sourceHash
  canonicalHash := ArdOssie.canonicalHash platform document.contentJson
  findings := findings
  characterCoverage := roundSixDigits (characterCoverage evidence document)
  missingAtomCount := (document.missingIds evidence).length
  duplicateAtomCount := document.duplicateCount
  degradedBlockCount :=
    ((document.decisionsWith .reviewRequired ++ document.decisionsWith .deferredReview).map (·.regionId)).eraseDups.length
  modelCallCount := (document.decisions.map currentModelCallCount).sum
  coverage_mem := roundSixDigits_mem (characterCoverage_mem evidence document)

/-- `validate_canonical` -/
def validateCanonical : PyResult SemanticValidationReport := do
  let mismatch ← characterMismatch evidence.atomCatalog document
  let rendered ← renderCanonicalMarkdown platform document
  return canonicalReport platform evidence document (canonicalFindings evidence document layout mismatch rendered)

end Validate

/-! ### When the validation returns -/

private theorem exists_tablePlainText {rowCount columnCount : ℕ} {cells : List CanonicalCell}
    (h : ∀ c ∈ cells, c.region.Inside rowCount columnCount) :
    ∃ text, tablePlainText rowCount columnCount cells = .ok text := by
  have hplaces : ∀ a ∈ cells.map fun c => ((c.region.startRow, c.region.startColumn), c.text),
      a.1 ∈ gridPlaces rowCount columnCount := by
    intro a ha
    obtain ⟨c, hc, rfl⟩ := List.mem_map.1 ha
    have hinside := h c hc
    unfold CellRegion.Inside at hinside
    exact mem_gridPlaces.2 ⟨by dsimp only; omega, by dsimp only; omega⟩
  obtain ⟨rows, hrows⟩ := (exists_foldlM_setValue_iff _ fun _ => []).2 hplaces
  rw [← replicate_eq_matrixOf, List.foldlM_map] at hrows
  exact ⟨_, bind_eq_ok.2 ⟨rows, hrows, rfl⟩⟩

private theorem exists_characterMismatch (catalog : Dict AtomId EvidenceAtom) {document : CanonicalSemanticDocument}
    (h : ∀ block ∈ document.blocks, block.CellsInGrid) : ∃ b, characterMismatch catalog document = .ok b := by
  have hblocks : ∀ block ∈ document.blocks, ∃ b, CanonicalBlock.mismatch catalog block = .ok b := by
    intro block hblock
    unfold CanonicalBlock.mismatch
    split
    · obtain ⟨text, htext⟩ := exists_tablePlainText (h block hblock)
      exact ⟨_, bind_eq_ok.2 ⟨text, htext, rfl⟩⟩
    · exact ⟨_, rfl⟩
  obtain ⟨b, hb⟩ := anyM_total hblocks
  exact ⟨_, bind_eq_ok.2 ⟨b, hb, rfl⟩⟩

/-- The validation returns a report when the document is rendered. -/
theorem exists_validateCanonical_iff (platform : Platform) (evidence : EvidenceFields)
    (document : CanonicalSemanticDocument) (layout : Option LayoutDocument) :
    (∃ report, validateCanonical platform evidence document layout = .ok report) ↔
      ∃ markdown, renderCanonicalMarkdown platform document = .ok markdown := by
  constructor
  · rintro ⟨report, h⟩
    obtain ⟨mismatch, -, h⟩ := bind_eq_ok.1 h
    obtain ⟨rendered, hrendered, -⟩ := bind_eq_ok.1 h
    exact ⟨rendered, hrendered⟩
  · rintro ⟨rendered, hrendered⟩
    obtain ⟨text, htext, -⟩ := (exists_renderCanonicalMarkdown_iff platform document).1 ⟨rendered, hrendered⟩
    have hcells := (exists_renderCanonicalText_iff id document).1 ⟨text, htext⟩
    obtain ⟨mismatch, hmismatch⟩ := exists_characterMismatch evidence.atomCatalog hcells
    exact ⟨_, bind_eq_ok.2 ⟨mismatch, hmismatch, bind_eq_ok.2 ⟨rendered, hrendered, rfl⟩⟩⟩

private theorem exists_plain_iff {x : PyResult Text} :
    (∃ text, x = .ok text ∧ spacedTag.occursIn text = false) ↔
      (∃ text, x = .ok text) ∧ ∀ text, x = .ok text → spacedTag.occursIn text = false := by
  cases x <;> simp

/-- Escaping is enough exactly when the plain layout has no bracket, name and space before the next bracket closes:
for a text, for a canonical document whose cells are inside of their grids, for a reconciled document whose spans are
known, and for the validation of a canonical document. -/
theorem escaping_sufficient_iff (platform : Platform) :
    (∀ value : Text, (hasRawHtml (escapeMarkdown value) = false ∧
      (htmlEntity platform).occursIn (escapeMarkdown value) = false) ↔ spacedTag.occursIn value = false) ∧
    (∀ document : CanonicalSemanticDocument, (∃ markdown, renderCanonicalMarkdown platform document = .ok markdown) ↔
      (∀ block ∈ document.blocks, block.CellsInGrid) ∧
        ∀ text, renderCanonicalText id document = .ok text → spacedTag.occursIn text = false) ∧
    (∀ (document : ReconciledDocument) (spans : Dict SpanId SourceSpan),
      (∃ markdown, renderSemanticMarkdown platform document spans = .ok markdown) ↔
        (∀ i ∈ blockSpanIds document.blocks, (spans.lookup i).isSome) ∧
          ∀ text, renderSemanticText id document spans = .ok text → spacedTag.occursIn text = false) ∧
    ∀ (evidence : EvidenceDocument) (document : CanonicalSemanticDocument) (layout : Option LayoutDocument),
      (∃ report, validateCanonical platform evidence.toEvidenceFields document layout = .ok report) ↔
        (∀ block ∈ document.blocks, block.CellsInGrid) ∧
          ∀ text, renderCanonicalText id document = .ok text → spacedTag.occursIn text = false := by
  have hcanonical : ∀ document : CanonicalSemanticDocument,
      (∃ markdown, renderCanonicalMarkdown platform document = .ok markdown) ↔
        (∀ block ∈ document.blocks, block.CellsInGrid) ∧
          ∀ text, renderCanonicalText id document = .ok text → spacedTag.occursIn text = false := by
    intro document
    rw [exists_renderCanonicalMarkdown_iff, exists_plain_iff, exists_renderCanonicalText_iff]
  refine ⟨fun value => ?_, hcanonical, fun document spans => ?_, fun evidence document layout => ?_⟩
  · have hspelled : Spelled true value (escapeMarkdown value) := (Spelled.escapeMarkdown value).weaken
    rw [hspelled.no_htmlEntity platform, ← Bool.not_eq_true, hspelled.hasRawHtml_iff, Bool.not_eq_true]
    exact and_iff_left rfl
  · rw [exists_renderSemanticMarkdown_iff, exists_plain_iff, exists_renderSemanticText_iff]
  · exact (exists_validateCanonical_iff platform _ document layout).trans (hcanonical document)

/-- A document of one paragraph with a tag in its text. -/
def spacedTagDocument : CanonicalSemanticDocument where
  sourceHash := sha256 []
  regionOrder := [⟨0⟩]
  blocks := [{
    blockId := ⟨0⟩
    order := 0
    regionId := ⟨0⟩
    page := 1
    kind := .paragraph
    text := "<b x>".toList
    atomIds := []
    headingLevel := none
    listKind := none
    listDepth := none
    rowCount := none
    columnCount := none
    cells := []
    decisionIds := []
    page_pos := Nat.one_pos
    headingLevel_mem := headingLevel_none
    listDepth_mem := listDepth_none
    rowCount_mem := by simp
    columnCount_mem := by simp
    cells_le := by decide
    heading_iff := by decide
    list_iff := by decide
    table_iff := by decide
    cells_iff := by decide }]
  figures := []
  excludedEvidence := []
  whitespaceDispositions := []
  continuations := []
  decisions := []

/-- A tag with a space after its name is found behind its backslashes: the document is not rendered and the validation
raises. -/
theorem spaced_tag_raises :
    hasRawHtml (escapeMarkdown "<b x>".toList) = true ∧
      renderCanonicalMarkdown Platform.ascii spacedTagDocument = .error (.valueError "SEMANTIC_RAW_HTML_OUTPUT") ∧
      ∀ evidence : EvidenceDocument,
        validateCanonical Platform.ascii evidence.toEvidenceFields spacedTagDocument none =
          .error (.valueError "SEMANTIC_RAW_HTML_OUTPUT") := by
  have hrender : renderCanonicalMarkdown Platform.ascii spacedTagDocument =
      .error (.valueError "SEMANTIC_RAW_HTML_OUTPUT") := raised_eq_some.1 (by decide +kernel)
  have hcells : ∀ block ∈ spacedTagDocument.blocks, block.CellsInGrid := by
    intro block hblock
    cases List.mem_singleton.1 hblock
    exact cellsInGrid_of_kind (by decide)
  refine ⟨by decide +kernel, hrender, fun evidence => ?_⟩
  obtain ⟨mismatch, hmismatch⟩ := exists_characterMismatch evidence.atomCatalog hcells
  rw [validateCanonical, hmismatch, ok_bind, hrender]
  rfl

end ArdOssie
