import ArdOssie.Semantic.CanonicalAssembly

/-!
# The fidelity report of a canonical document

The counts of a canonical document against its evidence and the checks that a fidelity report makes of its counts and
of its status.  For an assembled document the report exists under a condition on the validation, on the exclusions and
on the decisions.
-/

namespace ArdOssie

inductive FidelityStatus where
  | pass
  | warn
  | fail
  deriving DecidableEq, Repr

structure RemovedElementAudit where
  kind : ExclusionKind
  page : ℕ
  bbox : Option SourceBox
  textHash : Sha256
  page_pos : 1 ≤ page

structure SpanProvenanceAudit where
  page : ℕ
  bbox : Option SourceBox
  textHash : Sha256
  page_pos : 1 ≤ page

structure DegradedBlockAudit where
  order : ℕ
  reason : LosslessReason
  spans : List SpanProvenanceAudit
  spans_ne : spans ≠ []

inductive TableFidelityStatus where
  | resolved
  | repaired
  | degraded
  deriving DecidableEq, Repr

structure TableFidelityResult where
  order : ℕ
  rowCount : ℕ
  columnCount : ℕ
  matchedCellCount : ℕ
  totalCellCount : ℕ
  status : TableFidelityStatus

inductive PatchOutcome where
  | applied
  | reused
  | rejected
  deriving DecidableEq, Repr

/-- The fields of a fidelity report; of the corrections of a page, the outcomes of its patches. -/
structure FidelityFields where
  sourceHash : Sha256
  extractionMode : ExtractionMode
  pageCount : ℕ
  status : FidelityStatus
  headingCount : ℕ
  paragraphCount : ℕ
  listItemCount : ℕ
  tableCount : ℕ
  rowCount : ℕ
  cellCount : ℕ
  sourceSpanCount : ℕ
  preservedSpanCount : ℕ
  excludedSpanCount : ℕ
  unmatchedSpanCount : ℕ
  duplicatedSpanCount : ℕ
  degradedBlockCount : ℕ
  sourceTextCoverage : ℚ
  removedElements : List RemovedElementAudit
  degradedBlocks : List DegradedBlockAudit
  tableResults : List TableFidelityResult
  ocrCorrections : List (List PatchOutcome) := []
  ocrCorrectionAppliedCount : ℕ := 0
  ocrCorrectionRejectedCount : ℕ := 0
  warningCodes : List String

namespace FidelityFields

variable (f : FidelityFields)

/-- The coverage that the counts give. -/
def coverage : ℚ :=
  if f.sourceSpanCount = 0 then 1 else (f.preservedSpanCount + f.excludedSpanCount : ℚ) / f.sourceSpanCount

/-- The check of the status. -/
def validateStatus : PyResult Unit :=
  if f.unmatchedSpanCount ≠ 0 ∨ f.duplicatedSpanCount ≠ 0 then
    raiseIf (f.status ≠ .fail) (.validationError ["FIDELITY_STATUS_FAIL_REQUIRED"])
  else if f.degradedBlockCount ≠ 0 ∨ f.warningCodes ≠ [] ∨ (f.extractionMode = .ocr ∧ f.ocrCorrections = []) then
    raiseIf (f.status ≠ .warn) (.validationError ["FIDELITY_STATUS_WARN_REQUIRED"])
  else raiseIf (f.status ≠ .pass) (.validationError ["FIDELITY_STATUS_PASS_REQUIRED"])

/-- The constraints on the fields and `validate_fidelity`. -/
def validate : PyResult Unit := do
  raiseIf (f.sourceTextCoverage < 0 ∨ 1 < f.sourceTextCoverage ∨ 1000 < f.warningCodes.length) (.validationError [])
  raiseIf (f.degradedBlockCount ≠ f.degradedBlocks.length) (.validationError ["FIDELITY_DEGRADED_BLOCK_COUNT_INVALID"])
  raiseIf (f.sourceSpanCount ≠ f.preservedSpanCount + f.excludedSpanCount + f.unmatchedSpanCount)
    (.validationError ["FIDELITY_SPAN_COUNTS_INVALID"])
  raiseIf (f.sourceTextCoverage ≠ f.coverage) (.validationError ["FIDELITY_COVERAGE_INVALID"])
  raiseIf (f.ocrCorrectionAppliedCount ≠ (f.ocrCorrections.flatten.filter (· ≠ .rejected)).length ∨
    f.ocrCorrectionRejectedCount ≠ (f.ocrCorrections.flatten.filter (· = .rejected)).length ∨
    ¬ f.warningCodes.Nodup) (.validationError ["FIDELITY_OCR_CORRECTION_COUNTS_INVALID"])
  f.validateStatus

end FidelityFields

structure SemanticFidelityReport extends FidelityFields where
  valid : toFidelityFields.validate = .ok ()

/-- `SemanticFidelityReport(…)` -/
def SemanticFidelityReport.make (f : FidelityFields) : PyResult SemanticFidelityReport :=
  match h : f.validate with
  | .ok () => .ok ⟨f, h⟩
  | .error e => .error e

theorem SemanticFidelityReport.make_eq_ok {f : FidelityFields} {r : SemanticFidelityReport} :
    SemanticFidelityReport.make f = .ok r ↔ r.toFidelityFields = f := by
  unfold SemanticFidelityReport.make
  constructor
  · intro h
    split at h
    · cases h
      rfl
    · cases h
  · rintro rfl
    split
    · rfl
    · rename_i e he
      rw [r.valid] at he
      cases he

theorem SemanticFidelityReport.exists_make_iff {f : FidelityFields} {P : SemanticFidelityReport → Prop}
    (hP : ∀ r : SemanticFidelityReport, r.toFidelityFields = f → P r) :
    (∃ r, SemanticFidelityReport.make f = .ok r ∧ P r) ↔ f.validate = .ok () := by
  constructor
  · rintro ⟨r, hr, -⟩
    rw [← make_eq_ok.1 hr]
    exact r.valid
  · intro h
    exact ⟨⟨f, h⟩, make_eq_ok.2 rfl, hP _ rfl⟩

/-! ### The report of a canonical document -/

section Report

variable (evidence : EvidenceDocument) (document : CanonicalSemanticDocument) (validation : SemanticValidationReport)

/-- `_atom_text` -/
def atomText (atomId : AtomId) : PyResult Text :=
  match evidence.atoms.find? fun a => a.atomId = atomId with
  | some atom => .ok atom.text
  | none => .error .stopIteration

/-- The excluded atom when it is visible. -/
def visibleExcluded (atomId : AtomId) : PyResult (Option AtomId) := do
  let text ← atomText evidence atomId
  return if text.all Text.isSpace then none else some atomId

/-- `excluded_ids` of the report -/
def reportExcludedIds : PyResult (List AtomId) := do
  let ids ← document.excludedIds.mapM (visibleExcluded evidence)
  return (ids.filterMap id).eraseDups

/-- The decisions for review. -/
def CanonicalSemanticDocument.reviews : List DecisionRecord :=
  document.decisions.filter fun r => r.outcome ∈ [DecisionOutcome.reviewRequired, .deferredReview]

/-- The hash of the texts of atoms. -/
def atomsHash (atoms : List EvidenceAtom) : Sha256 := sha256 (atoms.flatMap (·.text))

/-- The audit of a decision for review whose region has atoms. -/
def degradedBlock (p : DecisionRecord × ℕ) : PyResult (Option DegradedBlockAudit) := do
  let regionAtoms : Dict RegionId (List AtomId) := Dict.ofList (evidence.regions.map fun r => (r.regionId, r.atomIds))
  let atoms ← catalogAtoms evidence.atomCatalog ((regionAtoms.lookup p.1.regionId).getD [])
  return atoms.head?.map fun first =>
    ⟨p.2, if p.1.source = .unavailable then .providerUnavailable else .repairRejected,
      [⟨first.page, first.bbox, atomsHash atoms, first.page_pos⟩], List.cons_ne_nil _ _⟩

/-- `degraded_blocks` -/
def degradedBlocks : PyResult (List DegradedBlockAudit) := do
  let blocks ← document.reviews.zipIdx.mapM (degradedBlock evidence)
  return blocks.filterMap id

/-- The kind of an excluded element. -/
def ExclusionReason.kind : ExclusionReason → ExclusionKind
  | repeatedPageHeader => .pageHeader
  | repeatedPageFooter => .pageFooter
  | pageNumber => .pageNumber

/-- The audit of one exclusion. -/
def removedElement (item : ExcludedEvidence) : PyResult RemovedElementAudit := do
  let atoms ← catalogAtoms evidence.atomCatalog item.atomIds
  match atoms with
  | [] => .error .indexError
  | first :: _ => return ⟨item.reason.kind, first.page, first.bbox, atomsHash atoms, first.page_pos⟩

/-- `warning_codes` -/
def CanonicalSemanticDocument.warningCodes : List String := (document.decisions.flatMap (·.validationCodes)).eraseDups

/-- `extraction_mode` of the report -/
def reportExtractionMode : ExtractionMode := if evidence.extractionMode = .pdfEmbedded then .pdfEmbedded else .ocr

/-- `status` of the report -/
def fidelityStatus : FidelityStatus :=
  if validation.status = .failed then .fail
  else if validation.status ∈ [SemanticPipelineStatus.reviewRequired, .reviewPending] ∨
    reportExtractionMode evidence = .ocr ∨ document.warningCodes ≠ [] then .warn
  else .pass

/-- `unmatched` -/
def unmatchedCount (total : ℕ) : ℕ :=
  if validation.status = .failed ∧ ¬ (validation.missingAtomCount ≠ 0 ∨ validation.duplicateAtomCount ≠ 0) then min 1 total
  else validation.missingAtomCount

/-- The result of a table. -/
def tableResult (block : CanonicalBlock) : TableFidelityResult where
  order := block.order
  rowCount := block.rowCount.getD 0
  columnCount := block.columnCount.getD 0
  matchedCellCount := (block.cells.filter fun c => c.atomIds ≠ []).length
  totalCellCount := block.cells.length
  status := if validation.status = .verified then .resolved else .degraded

/-- The fields of the report. -/
def reportFields (excluded : List AtomId) (degraded : List DegradedBlockAudit) (removed : List RemovedElementAudit) :
    FidelityFields :=
  let total := evidence.visibleAtomIds.length
  let unmatched := unmatchedCount validation total
  let preserved := total - excluded.length - unmatched
  let kindCount := fun kinds : List CanonicalBlockKind => (document.blocks.filter fun b => b.kind ∈ kinds).length
  let tables := document.blocks.filter fun b => b.kind = .table
  { sourceHash := evidence.sourceHash
    extractionMode := reportExtractionMode evidence
    pageCount := evidence.pageCount
    status := fidelityStatus evidence document validation
    headingCount := kindCount [.heading]
    paragraphCount := kindCount [.paragraph, .caption]
    listItemCount := kindCount [.listItem]
    tableCount := tables.length
    rowCount := (tables.map fun b => b.rowCount.getD 0).sum
    cellCount := (tables.map fun b => b.cells.length).sum
    sourceSpanCount := total
    preservedSpanCount := preserved
    excludedSpanCount := excluded.length
    unmatchedSpanCount := unmatched
    duplicatedSpanCount := validation.duplicateAtomCount
    degradedBlockCount := degraded.length
    sourceTextCoverage := if total = 0 then 1 else (preserved + excluded.length : ℚ) / total
    removedElements := removed
    degradedBlocks := degraded
    tableResults := tables.map (tableResult validation)
    warningCodes := document.warningCodes }

/-- `canonical_fidelity_report` -/
def canonicalFidelityReport : PyResult SemanticFidelityReport := do
  let excluded ← reportExcludedIds evidence document
  let degraded ← degradedBlocks evidence document
  let removed ← document.excludedEvidence.mapM (removedElement evidence)
  SemanticFidelityReport.make (reportFields evidence document validation excluded degraded removed)

end Report

/-- The validation of a replay whose Markdown differs from the trusted bytes. -/
def SemanticValidationReport.replayMismatch (validation : SemanticValidationReport) : SemanticValidationReport :=
  { validation with
    status := .failed
    publishable := false
    findings := validation.findings ++ [⟨"SEMANTIC_SOURCE_REPLAY_MISMATCH",
      "Compatible semantic replay differs from the trusted canonical bytes."⟩] }

/-! ### The parts of the report -/

section Parts

variable {evidence : EvidenceDocument} {document : CanonicalSemanticDocument}

private theorem atomText_of_mem {a : EvidenceAtom} (ha : a ∈ evidence.atoms) :
    atomText evidence a.atomId = .ok a.text := by
  unfold atomText
  cases hfind : evidence.atoms.find? fun b => b.atomId = a.atomId with
  | none => exact absurd (decide_eq_true rfl) (List.find?_eq_none.1 hfind a ha)
  | some b =>
    have hid : b.atomId = a.atomId := of_decide_eq_true (List.find?_some hfind :)
    rw [List.inj_on_of_nodup_map evidence.valid.atomIds (List.mem_of_find?_eq_some hfind) ha hid]

private theorem mem_visibleAtomIds {a : EvidenceAtom} (ha : a ∈ evidence.atoms) :
    a.atomId ∈ evidence.visibleAtomIds ↔ a.isSpace = false := by
  simp only [EvidenceFields.visibleAtomIds, List.mem_map, List.mem_filter, Bool.not_eq_true']
  constructor
  · rintro ⟨b, ⟨hb, hspace⟩, hid⟩
    rw [← List.inj_on_of_nodup_map evidence.valid.atomIds hb ha hid]
    exact hspace
  · intro hspace
    exact ⟨a, ⟨ha, hspace⟩, rfl⟩

private theorem reportExcludedIds_eq (hknown : ∀ i ∈ document.excludedIds, i ∈ evidence.atoms.map (·.atomId)) :
    reportExcludedIds evidence document =
      .ok (document.excludedIds.filter fun i => i ∈ evidence.visibleAtomIds).eraseDups := by
  have hmap : document.excludedIds.mapM (visibleExcluded evidence) =
      .ok (document.excludedIds.map fun i => if i ∈ evidence.visibleAtomIds then some i else none) := by
    refine mapM_eq_map fun i hi => ?_
    obtain ⟨a, ha, rfl⟩ := List.mem_map.1 (hknown i hi)
    rw [visibleExcluded, atomText_of_mem ha, ok_bind]
    by_cases hspace : a.isSpace = true
    · have hvisible : a.atomId ∉ evidence.visibleAtomIds := fun h => by
        rw [(mem_visibleAtomIds ha).1 h] at hspace
        cases hspace
      rw [if_neg hvisible, if_pos (show a.text.all Text.isSpace = true from hspace)]
      rfl
    · rw [if_pos ((mem_visibleAtomIds ha).2 (Bool.eq_false_iff.2 hspace)),
        if_neg (show ¬ a.text.all Text.isSpace = true from hspace)]
      rfl
  rw [reportExcludedIds, hmap, ok_bind, List.filterMap_map, Function.id_comp]
  have hfilter : ∀ l : List AtomId, (l.filterMap fun i => if i ∈ evidence.visibleAtomIds then some i else none) =
      l.filter fun i => i ∈ evidence.visibleAtomIds := by
    intro l
    induction l with
    | nil => rfl
    | cons i l ih =>
      by_cases hi : i ∈ evidence.visibleAtomIds
      · simp [hi, ih]
      · simp [hi, ih]
  rw [hfilter]
  rfl

/-- A decision for review is audited when it names a region of the evidence. -/
private theorem degradedBlock_spec (p : DecisionRecord × ℕ) :
    ∃ b, degradedBlock evidence p = .ok b ∧ (b = none ↔ p.1.regionId ∉ evidence.regions.map (·.regionId)) := by
  unfold degradedBlock
  dsimp only
  by_cases hregion : p.1.regionId ∈ evidence.regions.map (·.regionId)
  · obtain ⟨region, hmem, hid⟩ := List.mem_map.1 hregion
    have hkeys : ((evidence.regions.map fun r => (r.regionId, r.atomIds)).map Prod.fst).Nodup := by
      rw [List.map_map]
      exact evidence.valid.regionIds
    have hlookup := Dict.lookup_ofList hkeys (List.mem_map_of_mem hmem)
    rw [← hid, hlookup, Option.getD_some]
    have hknown : ∀ i ∈ region.atomIds, i ∈ evidence.atoms.map (·.atomId) := fun i hi =>
      (evidence.valid.owners i).1 (List.mem_flatMap.2 ⟨region, hmem, hi⟩)
    obtain ⟨atoms, hatoms⟩ := evidence.exists_catalogAtoms_iff.2 hknown
    have hlength := (mapM_eq_ok.1 hatoms).length_eq
    rw [hatoms, ok_bind]
    cases atoms with
    | nil =>
      have hne := (evidence.valid.resolved rfl region hmem).2
      exact absurd (List.length_eq_zero_iff.1 hlength) hne
    | cons a atoms => exact ⟨_, rfl, iff_of_false (by simp) fun h => h (List.mem_map_of_mem hmem)⟩
  · have hlookup : (Dict.ofList (evidence.regions.map fun r => (r.regionId, r.atomIds))).lookup p.1.regionId = none := by
      refine Dict.lookup_ofList_eq_none ?_
      rw [List.map_map]
      exact hregion
    rw [hlookup]
    exact ⟨none, rfl, iff_of_true rfl hregion⟩

private theorem exists_degradedBlocks (evidence : EvidenceDocument) (document : CanonicalSemanticDocument) :
    ∃ blocks, degradedBlocks evidence document = .ok blocks ∧
      (blocks = [] ↔ ∀ r ∈ document.reviews, r.regionId ∉ evidence.regions.map (·.regionId)) := by
  obtain ⟨blocks, hblocks⟩ := @mapM_total _ _ _ (degradedBlock evidence) document.reviews.zipIdx fun p _ =>
    (degradedBlock_spec p).imp fun b hb => hb.1
  refine ⟨blocks.filterMap id, by rw [degradedBlocks, hblocks]; rfl, ?_⟩
  have hspec : ∀ p b, degradedBlock evidence p = .ok b → (b = none ↔ p.1.regionId ∉ evidence.regions.map (·.regionId)) := by
    intro p b hb
    obtain ⟨b', hb', hnone⟩ := @degradedBlock_spec evidence p
    rw [hb] at hb'
    cases hb'
    exact hnone
  rw [List.filterMap_eq_nil_iff]
  constructor
  · intro h r hr
    rw [← List.zipIdx_map_fst 0 document.reviews] at hr
    obtain ⟨p, hp, rfl⟩ := List.mem_map.1 hr
    obtain ⟨b, hb, heq⟩ := exists_of_mapM_eq_ok hblocks hp
    exact (hspec p b heq).1 (h b hb)
  · intro h b hb
    obtain ⟨p, hp, heq⟩ := mem_of_mapM_eq_ok hblocks hb
    have hr : p.1 ∈ document.reviews := by
      rw [← List.zipIdx_map_fst 0 document.reviews]
      exact List.mem_map_of_mem hp
    exact (hspec p b heq).2 (h p.1 hr)

private theorem exists_removedElements
    (hknown : ∀ i ∈ document.excludedIds, i ∈ evidence.atoms.map (·.atomId)) :
    ∃ removed, document.excludedEvidence.mapM (removedElement evidence) = .ok removed := by
  refine mapM_total fun item hitem => ?_
  obtain ⟨atoms, hatoms⟩ := evidence.exists_catalogAtoms_iff.2 fun i hi =>
    hknown i (List.mem_flatMap.2 ⟨item, hitem, hi⟩)
  have hlength := (mapM_eq_ok.1 hatoms).length_eq
  rw [removedElement, hatoms, ok_bind]
  cases atoms with
  | nil => exact absurd (List.length_eq_zero_iff.1 hlength) item.atomIds_ne
  | cons a atoms => exact ⟨_, rfl⟩

/-! ### The counts -/

private theorem visibleAtomIds_nodup (evidence : EvidenceDocument) : evidence.visibleAtomIds.Nodup :=
  evidence.valid.atomIds.sublist (List.filter_sublist.map _)

private theorem missing_excluded_le (evidence : EvidenceDocument) (document : CanonicalSemanticDocument) :
    (document.excludedIds.filter fun i => i ∈ evidence.visibleAtomIds).eraseDups.length +
      (document.missingIds evidence.toEvidenceFields).length ≤ evidence.visibleAtomIds.length := by
  rw [← List.length_append]
  refine List.Subperm.length_le (List.subperm_of_subset ?_ ?_)
  · refine List.nodup_append.2 ⟨nodup_eraseDups _, nodup_eraseDups _, ?_⟩
    rintro i hi j hj rfl
    simp only [CanonicalSemanticDocument.missingIds, List.mem_eraseDups, List.mem_filter, decide_eq_true_eq] at hi hj
    exact hj.2 (List.mem_append_right _ hi.1)
  · intro i hi
    simp only [CanonicalSemanticDocument.missingIds, List.mem_append, List.mem_eraseDups, List.mem_filter,
      decide_eq_true_eq] at hi
    exact hi.elim And.right And.left

private theorem excluded_lt_iff (evidence : EvidenceDocument) (document : CanonicalSemanticDocument) :
    (document.excludedIds.filter fun i => i ∈ evidence.visibleAtomIds).eraseDups.length <
      evidence.visibleAtomIds.length ↔ ∃ i ∈ evidence.visibleAtomIds, i ∉ document.excludedIds := by
  have hsub : (document.excludedIds.filter fun i => i ∈ evidence.visibleAtomIds).eraseDups ⊆ evidence.visibleAtomIds := by
    intro i hi
    simp only [List.mem_eraseDups, List.mem_filter, decide_eq_true_eq] at hi
    exact hi.2
  have hsubperm := List.subperm_of_subset (nodup_eraseDups _) hsub
  constructor
  · intro hlt
    by_contra hall
    push Not at hall
    refine absurd hlt (not_lt.2 (List.Subperm.length_le (List.subperm_of_subset (visibleAtomIds_nodup evidence) ?_)))
    intro i hi
    simp only [List.mem_eraseDups, List.mem_filter, decide_eq_true_eq]
    exact ⟨hall i hi, hi⟩
  · rintro ⟨i, hi, hnot⟩
    refine lt_of_le_of_ne hsubperm.length_le fun heq => hnot ?_
    have hmem := (hsubperm.perm_of_length_le heq.ge).mem_iff.2 hi
    simp only [List.mem_eraseDups, List.mem_filter, decide_eq_true_eq] at hmem
    exact hmem.1

end Parts

/-! ### The validation of a document -/

/-- What a report needs to know about a validation. -/
structure ValidatedAs (evidence : EvidenceDocument) (document : CanonicalSemanticDocument)
    (v : SemanticValidationReport) : Prop where
  missing : v.missingAtomCount = (document.missingIds evidence.toEvidenceFields).length
  clean : v.status ≠ .failed → v.missingAtomCount = 0 ∧ v.duplicateAtomCount = 0
  reviewed : v.status ≠ .failed →
    (v.status ∈ [SemanticPipelineStatus.reviewRequired, .reviewPending] ↔ document.reviews ≠ [])

private theorem reviews_eq_nil_iff {document : CanonicalSemanticDocument} : document.reviews = [] ↔
    document.decisionsWith .reviewRequired = [] ∧ document.decisionsWith .deferredReview = [] := by
  simp only [CanonicalSemanticDocument.reviews, CanonicalSemanticDocument.decisionsWith, List.filter_eq_nil_iff,
    decide_eq_true_eq, List.mem_cons, List.not_mem_nil, or_false]
  exact ⟨fun h => ⟨fun r hr hout => h r hr (Or.inl hout), fun r hr hout => h r hr (Or.inr hout)⟩,
    fun h r hr hout => hout.elim (h.1 r hr) (h.2 r hr)⟩

private theorem mem_findingIf {condition : Bool} {code message : String} (h : condition = true) :
    ⟨code, message⟩ ∈ findingIf condition code message := by
  rw [findingIf, if_pos h]
  exact List.mem_singleton_self _

section Validated

variable {evidence : EvidenceDocument} {document : CanonicalSemanticDocument} {v : SemanticValidationReport}

theorem validatedAs_of_validateCanonical {platform : Platform} {layout : Option LayoutDocument}
    (h : validateCanonical platform evidence.toEvidenceFields document layout = .ok v) :
    ValidatedAs evidence document v := by
  obtain ⟨mismatch, -, h⟩ := bind_eq_ok.1 h
  obtain ⟨rendered, -, h⟩ := bind_eq_ok.1 h
  cases pure_eq_ok.1 h
  clear h
  generalize hfindings : canonicalFindings evidence.toEvidenceFields document layout mismatch rendered = findings
  have hstatus : canonicalStatus document findings ≠ .failed → findings = [] := by
    intro hne
    by_contra hfindings
    exact hne (if_pos hfindings)
  refine ⟨rfl, fun hne => ?_, fun hne => ?_⟩
  · have hnil := hstatus hne
    rw [hnil] at hfindings
    simp only [canonicalFindings, List.append_eq_nil_iff] at hfindings
    have hempty : ∀ {condition : Bool} {code message : String}, findingIf condition code message = [] →
        condition = false := by
      intro condition code message hnil
      rw [Bool.eq_false_iff]
      intro hcondition
      have hmem := @mem_findingIf condition code message hcondition
      rw [hnil] at hmem
      cases hmem
    obtain ⟨⟨⟨⟨⟨⟨⟨⟨⟨⟨-, -⟩, hduplicate⟩, hmissing⟩, -⟩, -⟩, -⟩, -⟩, -⟩, -⟩, -⟩ := hfindings
    have hzero : document.duplicateCount = 0 := by simpa using hempty hduplicate
    refine ⟨?_, hzero⟩
    have hnone := hempty hmissing
    rw [decide_eq_false_iff_not, not_not] at hnone
    exact List.length_eq_zero_iff.2 hnone
  · have hnil := hstatus hne
    show canonicalStatus document findings ∈ _ ↔ _
    rw [hnil, canonicalStatus, if_neg (not_not.2 rfl)]
    refine Iff.trans ?_ (not_congr reviews_eq_nil_iff).symm
    by_cases hrequired : document.decisionsWith .reviewRequired = []
    · by_cases hdeferred : document.decisionsWith .deferredReview = []
      · simp [hrequired, hdeferred]
      · simp [hrequired, hdeferred]
    · simp [hrequired]

theorem ValidatedAs.replayMismatch (h : ValidatedAs evidence document v) :
    ValidatedAs evidence document v.replayMismatch :=
  ⟨h.missing, fun hne => absurd rfl hne, fun hne => absurd rfl hne⟩

/-! ### When the report exists -/

/-- The condition for a report: a failed validation without a missing or a repeated atom leaves a visible atom that is
not excluded, a review of embedded text without a code names a region of the evidence, and the codes are within the
limit of the report. -/
def FidelityReportable (evidence : EvidenceDocument) (document : CanonicalSemanticDocument)
    (v : SemanticValidationReport) : Prop :=
  (v.status = .failed → v.missingAtomCount = 0 → v.duplicateAtomCount = 0 →
    ∃ i ∈ evidence.visibleAtomIds, i ∉ document.excludedIds) ∧
  (v.status ∈ [SemanticPipelineStatus.reviewRequired, .reviewPending] → evidence.extractionMode = .pdfEmbedded →
    (∀ r ∈ document.decisions, r.validationCodes = []) →
      ∃ r ∈ document.reviews, r.regionId ∈ evidence.regions.map (·.regionId)) ∧
  (document.decisions.flatMap (·.validationCodes)).eraseDups.length ≤ 1000

private theorem warningCodes_eq_nil_iff :
    document.warningCodes = [] ↔ ∀ r ∈ document.decisions, r.validationCodes = [] := by
  have hnil : ∀ l : List String, l.eraseDups = [] ↔ l = [] := by
    intro l
    constructor
    · intro h
      rw [List.eq_nil_iff_forall_not_mem] at h ⊢
      exact fun a ha => h a (List.mem_eraseDups.2 ha)
    · rintro rfl
      rfl
  rw [CanonicalSemanticDocument.warningCodes, hnil, List.flatMap_eq_nil_iff]

private theorem validate_reportFields_iff {excluded : List AtomId} {degraded : List DegradedBlockAudit}
    {removed : List RemovedElementAudit} (hle : excluded.length ≤ evidence.visibleAtomIds.length) :
    (reportFields evidence document v excluded degraded removed).validate = .ok () ↔
      document.warningCodes.length ≤ 1000 ∧
        excluded.length + unmatchedCount v evidence.visibleAtomIds.length ≤ evidence.visibleAtomIds.length ∧
        (reportFields evidence document v excluded degraded removed).validateStatus = .ok () := by
  set fields := reportFields evidence document v excluded degraded removed with hfields
  have hcoverage : fields.sourceTextCoverage = fields.coverage := rfl
  have hcounts : fields.sourceSpanCount = fields.preservedSpanCount + fields.excludedSpanCount +
      fields.unmatchedSpanCount ↔
      excluded.length + unmatchedCount v evidence.visibleAtomIds.length ≤ evidence.visibleAtomIds.length := by
    show evidence.visibleAtomIds.length = evidence.visibleAtomIds.length - excluded.length -
      unmatchedCount v evidence.visibleAtomIds.length + excluded.length +
      unmatchedCount v evidence.visibleAtomIds.length ↔ _
    omega
  have hbounds : 0 ≤ fields.coverage ∧ fields.coverage ≤ 1 := by
    have hsum : fields.preservedSpanCount + fields.excludedSpanCount ≤ fields.sourceSpanCount := by
      show evidence.visibleAtomIds.length - excluded.length - unmatchedCount v evidence.visibleAtomIds.length +
        excluded.length ≤ evidence.visibleAtomIds.length
      omega
    have hsum' : (fields.preservedSpanCount + fields.excludedSpanCount : ℚ) ≤ fields.sourceSpanCount := by
      exact_mod_cast hsum
    rw [FidelityFields.coverage]
    split
    · exact ⟨zero_le_one, le_rfl⟩
    · exact ⟨by positivity, div_le_one_of_le₀ hsum' (by positivity)⟩
  have hcodes : fields.warningCodes = document.warningCodes := rfl
  have hnodup : document.warningCodes.Nodup := nodup_eraseDups _
  have happlied : fields.ocrCorrectionAppliedCount = (fields.ocrCorrections.flatten.filter (· ≠ .rejected)).length := rfl
  have hrejected : fields.ocrCorrectionRejectedCount = (fields.ocrCorrections.flatten.filter (· = .rejected)).length := rfl
  have hdegraded : fields.degradedBlockCount = fields.degradedBlocks.length := rfl
  simp only [FidelityFields.validate, raiseIf_bind_eq_ok, not_or, not_not, hbounds, not_lt, hdegraded, hcounts,
    hcoverage, happlied, hrejected, hnodup, true_and, hcodes]

private theorem unmatchedCount_failed {total : ℕ} (hstatus : v.status = .failed) (hmissing : v.missingAtomCount = 0)
    (hduplicate : v.duplicateAtomCount = 0) : unmatchedCount v total = min 1 total := by
  unfold unmatchedCount
  rw [if_pos ⟨hstatus, by omega⟩]

private theorem unmatchedCount_counted {total : ℕ}
    (h : v.status ≠ .failed ∨ v.missingAtomCount ≠ 0 ∨ v.duplicateAtomCount ≠ 0) :
    unmatchedCount v total = v.missingAtomCount := by
  unfold unmatchedCount
  rw [if_neg fun hfailed => ?_]
  exact h.elim (fun h => h hfailed.1) hfailed.2

/-- The check of the status of the report. -/
private theorem validateStatus_iff {excluded : List AtomId} {degraded : List DegradedBlockAudit}
    {removed : List RemovedElementAudit} (hv : ValidatedAs evidence document v)
    (hdegraded : degraded ≠ [] → document.reviews ≠ []) :
    (reportFields evidence document v excluded degraded removed).validateStatus = .ok () ↔
      (v.status = .failed → v.missingAtomCount = 0 → v.duplicateAtomCount = 0 →
        evidence.visibleAtomIds.length ≠ 0) ∧
      (v.status ∈ [SemanticPipelineStatus.reviewRequired, .reviewPending] → evidence.extractionMode = .pdfEmbedded →
        document.warningCodes = [] → degraded ≠ []) := by
  unfold FidelityFields.validateStatus
  show (if unmatchedCount v evidence.visibleAtomIds.length ≠ 0 ∨ v.duplicateAtomCount ≠ 0 then
      raiseIf (fidelityStatus evidence document v ≠ .fail) _
    else if degraded.length ≠ 0 ∨ document.warningCodes ≠ [] ∨
        (reportExtractionMode evidence = .ocr ∧ ([] : List (List PatchOutcome)) = []) then
      raiseIf (fidelityStatus evidence document v ≠ .warn) _
    else raiseIf (fidelityStatus evidence document v ≠ .pass) _) = .ok () ↔ _
  have hmode : reportExtractionMode evidence = .ocr ↔ evidence.extractionMode ≠ .pdfEmbedded := by
    unfold reportExtractionMode
    split <;> simp_all
  by_cases hfailed : v.status = .failed
  · have hfail : fidelityStatus evidence document v = .fail := if_pos hfailed
    have hreview : v.status ∉ [SemanticPipelineStatus.reviewRequired, .reviewPending] := by
      rw [hfailed]
      decide
    rw [hfail]
    by_cases hcounted : v.missingAtomCount = 0 ∧ v.duplicateAtomCount = 0
    · rw [unmatchedCount_failed hfailed hcounted.1 hcounted.2]
      by_cases htotal : evidence.visibleAtomIds.length = 0
      · rw [if_neg (by omega)]
        refine iff_of_false ?_ fun h => h.1 hfailed hcounted.1 hcounted.2 htotal
        split <;> simp [raiseIf]
      · rw [if_pos (by omega)]
        exact iff_of_true (raiseIf_eq_ok.2 (not_not.2 rfl)) ⟨fun _ _ _ => htotal, fun h => absurd h hreview⟩
    · rw [unmatchedCount_counted (by omega), if_pos (by omega)]
      exact iff_of_true (raiseIf_eq_ok.2 (not_not.2 rfl))
        ⟨fun _ h₁ h₂ => absurd ⟨h₁, h₂⟩ hcounted, fun h => absurd h hreview⟩
  · obtain ⟨hmissing, hduplicate⟩ := hv.clean hfailed
    have hreviewed := hv.reviewed hfailed
    rw [unmatchedCount_counted (Or.inl hfailed), if_neg (by omega), fidelityStatus, if_neg hfailed]
    by_cases hwarn : document.warningCodes ≠ [] ∨ reportExtractionMode evidence = .ocr
    · rw [if_pos (Or.inr (hwarn.imp_right fun h => ⟨h, rfl⟩)), if_pos (by tauto)]
      refine iff_of_true (raiseIf_eq_ok.2 (not_not.2 rfl)) ⟨fun h => absurd h hfailed, fun _ hembedded hcodes => ?_⟩
      rcases hwarn with hwarn | hwarn
      · exact absurd hcodes hwarn
      · exact absurd hembedded (hmode.1 hwarn)
    · rw [not_or, not_not] at hwarn
      have hembedded : evidence.extractionMode = .pdfEmbedded := by
        by_contra hne
        exact hwarn.2 (hmode.2 hne)
      by_cases hnil : degraded = []
      · rw [if_neg (by simp [hnil, hwarn])]
        by_cases hreview : v.status ∈ [SemanticPipelineStatus.reviewRequired, .reviewPending]
        · rw [if_pos (Or.inl hreview)]
          refine iff_of_false (by simp [raiseIf]) fun h => h.2 hreview hembedded hwarn.1 hnil
        · rw [if_neg (by tauto)]
          exact iff_of_true (raiseIf_eq_ok.2 (not_not.2 rfl))
            ⟨fun h => absurd h hfailed, fun h => absurd h hreview⟩
      · have hlength : degraded.length ≠ 0 := fun h => hnil (List.length_eq_zero_iff.1 h)
        rw [if_pos (Or.inl hlength), if_pos (Or.inl (hreviewed.2 (hdegraded hnil)))]
        exact iff_of_true (raiseIf_eq_ok.2 (not_not.2 rfl)) ⟨fun h => absurd h hfailed, fun _ _ _ => hnil⟩

/-- The report of a canonical document exists under its condition, and then its status is the status of the
validation. -/
theorem exists_canonicalFidelityReport_iff (hv : ValidatedAs evidence document v)
    (hknown : ∀ i ∈ document.excludedIds, i ∈ evidence.atoms.map (·.atomId)) :
    (∃ report, canonicalFidelityReport evidence document v = .ok report ∧
      (report.status = .fail ↔ v.status = .failed)) ↔ FidelityReportable evidence document v := by
  obtain ⟨degraded, hdegraded, hnil⟩ := exists_degradedBlocks evidence document
  obtain ⟨removed, hremoved⟩ := exists_removedElements hknown
  have hle := missing_excluded_le evidence document
  have hlt := excluded_lt_iff evidence document
  rw [canonicalFidelityReport, reportExcludedIds_eq hknown, ok_bind, hdegraded, ok_bind, hremoved, ok_bind]
  generalize (document.excludedIds.filter fun i => i ∈ evidence.visibleAtomIds).eraseDups = excluded at hle hlt
  have hregions : degraded ≠ [] ↔ ∃ r ∈ document.reviews, r.regionId ∈ evidence.regions.map (·.regionId) := by
    rw [ne_eq, hnil]
    push Not
    rfl
  have hreviews : degraded ≠ [] → document.reviews ≠ [] := by
    intro hne
    obtain ⟨r, hr, -⟩ := hregions.1 hne
    exact List.ne_nil_of_mem hr
  have hstatus : ∀ report : SemanticFidelityReport,
      report.toFidelityFields = reportFields evidence document v excluded degraded removed →
        (report.status = .fail ↔ v.status = .failed) := by
    intro report hreport
    rw [hreport]
    show fidelityStatus evidence document v = .fail ↔ _
    unfold fidelityStatus
    split_ifs with hfailed <;> simp [hfailed]
  have hcounts : (excluded.length + unmatchedCount v evidence.visibleAtomIds.length ≤ evidence.visibleAtomIds.length ∧
      (v.status = .failed → v.missingAtomCount = 0 → v.duplicateAtomCount = 0 → evidence.visibleAtomIds.length ≠ 0)) ↔
      (v.status = .failed → v.missingAtomCount = 0 → v.duplicateAtomCount = 0 →
        excluded.length < evidence.visibleAtomIds.length) := by
    by_cases hcase : v.status = .failed ∧ v.missingAtomCount = 0 ∧ v.duplicateAtomCount = 0
    · obtain ⟨hfailed, hmissing, hduplicate⟩ := hcase
      rw [unmatchedCount_failed hfailed hmissing hduplicate]
      simp only [hfailed, hmissing, hduplicate, true_implies]
      omega
    · rw [unmatchedCount_counted (by tauto), hv.missing]
      rw [hv.missing] at hcase
      exact iff_of_true ⟨hle, fun h₁ h₂ h₃ => absurd ⟨h₁, h₂, h₃⟩ hcase⟩ fun h₁ h₂ h₃ => absurd ⟨h₁, h₂, h₃⟩ hcase
  rw [SemanticFidelityReport.exists_make_iff hstatus, validate_reportFields_iff (by omega),
    validateStatus_iff hv hreviews, FidelityReportable, warningCodes_eq_nil_iff, hregions, ← hlt, ← hcounts,
    CanonicalSemanticDocument.warningCodes]
  tauto

end Validated

/-- For an assembled document, with its validation or with that of a replay mismatch, the report exists and has the
status of the validation exactly under its condition. -/
theorem canonicalFidelityReport_iff {platform : Platform} {evidence : EvidenceDocument} {layout : LayoutDocument}
    {candidateSets : List CandidateSet} {decisions : List DecisionRecord} {document : CanonicalSemanticDocument}
    {validation : SemanticValidationReport}
    (h : assembleCanonical platform evidence layout candidateSets decisions = .ok (document, validation)) :
    ∀ v ∈ [validation, validation.replayMismatch],
      (∃ report, canonicalFidelityReport evidence document v = .ok report ∧
        (report.status = .fail ↔ v.status = .failed)) ↔ FidelityReportable evidence document v := by
  obtain ⟨-, -, hknown, hvalidated⟩ := assembleCanonical_spec h
  have hv := validatedAs_of_validateCanonical hvalidated
  intro v hmem
  refine exists_canonicalFidelityReport_iff ?_ hknown
  rcases List.mem_cons.1 hmem with rfl | hmem
  · exact hv
  · cases List.mem_singleton.1 hmem
    exact hv.replayMismatch

/-! ### A page with one line -/

/-- The evidence of one letter at the top of a page. -/
def letterFields : EvidenceFields where
  sourceHash := sha256 []
  extractionMode := .pdfEmbedded
  pageCount := 1
  atoms := [⟨⟨0⟩, 0, 1, some SourceBox.page, ['A'], .character, .embedded, 0, 0, Score.one, Nat.one_pos, letter_ne_nil,
    letter_length_le, AtomKind.allows_letter⟩]
  hypotheses := []
  regions := [⟨⟨0⟩, 1, SourceBox.page, [⟨0⟩], [], .embedded, false, Nat.one_pos, RegionAuthority.embedded_review,
    EvidenceRegion.first_nonempty⟩]

def letterEvidence : EvidenceDocument := ⟨letterFields, Nat.one_pos, by decide⟩

/-- The layout of the letter, as a region of the given kind. -/
def letterLayoutFields (hint : Option LayoutHint) (repeatedEdge : Bool) : LayoutFields where
  sourceHash := sha256 []
  pageCount := 1
  lines := [⟨⟨0⟩, 1, SourceBox.page, [⟨0⟩], [⟨0⟩], Score.zero, 1, Nat.one_pos, Identifier.first_ne_nil,
    Identifier.first_ne_nil, one_mem_height⟩]
  regions := [⟨⟨0⟩, 1, SourceBox.page, [⟨0⟩], [⟨0⟩], [⟨0⟩], 0, hint, repeatedEdge, Nat.one_pos,
    Identifier.first_ne_nil, Identifier.first_ne_nil, Identifier.first_ne_nil⟩]
  orderEdges := []

def letterLayout (hint : Option LayoutHint) (repeatedEdge : Bool) : LayoutDocument :=
  ⟨letterLayoutFields hint repeatedEdge, Nat.one_pos, rfl⟩

/-- The whole width of a page between two heights. -/
def bandBox (bottom top : ℚ) (h : 0 ≤ bottom ∧ bottom ≤ top ∧ top ≤ 1) : SourceBox :=
  { SourceBox.page with bottom := bottom, top := top, bottom_nonneg := h.1, top_le_one := h.2.2, bottom_le_top := h.2.1 }

def headBand : SourceBox := bandBox (19 / 20) 1 (by norm_num)

/-- The letters of two pages with a header, and with text on the first one: numbers, pages counted from zero, boxes. -/
def headedPlaces : List (Fin (2 ^ 64) × ℕ × SourceBox) :=
  [(0, 0, headBand), (1, 0, bandBox (2 / 5) (3 / 5) (by norm_num)), (2, 1, headBand)]

/-- The evidence of two pages with a header. -/
def headedFields : EvidenceFields where
  sourceHash := sha256 []
  extractionMode := .pdfEmbedded
  pageCount := 2
  atoms := headedPlaces.map fun p => ⟨⟨p.1⟩, p.1, p.2.1 + 1, some p.2.2, ['A'], .character, .embedded, 0, p.1, Score.one,
    Nat.le_add_left _ _, letter_ne_nil, letter_length_le, AtomKind.allows_letter⟩
  hypotheses := []
  regions := headedPlaces.map fun p => ⟨⟨p.1⟩, p.2.1 + 1, p.2.2, [⟨p.1⟩], [], .embedded, false, Nat.le_add_left _ _,
    RegionAuthority.embedded_review, Or.inl (List.cons_ne_nil _ _)⟩

def headedEvidence : EvidenceDocument := ⟨headedFields, by decide, by decide +kernel⟩

/-- The layout of the two pages, with their headers as they are marked. -/
def headedLayoutFields (hint : Option LayoutHint) (repeatedEdge : Bool) : LayoutFields where
  sourceHash := sha256 []
  pageCount := 2
  lines := headedPlaces.map fun p => ⟨⟨p.1⟩, p.2.1 + 1, p.2.2, [⟨p.1⟩], [⟨p.1⟩], Score.zero, 1, Nat.le_add_left _ _,
    List.cons_ne_nil _ _, List.cons_ne_nil _ _, one_mem_height⟩
  regions := headedPlaces.map fun p => ⟨⟨p.1⟩, p.2.1 + 1, p.2.2, [⟨p.1⟩], [⟨p.1⟩], [⟨p.1⟩], 0,
    if p.2.2 = headBand then hint else none, p.2.2 = headBand && repeatedEdge, Nat.le_add_left _ _,
    List.cons_ne_nil _ _, List.cons_ne_nil _ _, List.cons_ne_nil _ _⟩
  orderEdges := []

def headedLayout : LayoutDocument := ⟨headedLayoutFields (some .pageHeader) true, by decide, by decide +kernel⟩

theorem canonicalFidelityReport_iff_letter : ∃ document validation,
    assembleCanonical Platform.ascii headedEvidence headedLayout [] [] = .ok (document, validation) ∧
      validation.status = .verified ∧ document.excludedIds.length = 2 ∧
      ∀ v ∈ [validation, validation.replayMismatch],
        ((∃ report, canonicalFidelityReport headedEvidence document v = .ok report ∧
          (report.status = .fail ↔ v.status = .failed)) ↔
          FidelityReportable headedEvidence document v) := by
  obtain ⟨⟨document, validation⟩, hassembled, hread⟩ := exists_of_any_toOption
    (show (assembleCanonical Platform.ascii headedEvidence headedLayout [] []).toOption.any
      (fun r => r.2.status = .verified ∧ r.1.excludedIds.length = 2) = true by decide +kernel)
  obtain ⟨hstatus, hexcluded⟩ := of_decide_eq_true hread
  exact ⟨document, validation, hassembled, hstatus, hexcluded, canonicalFidelityReport_iff hassembled⟩

/-- When the whole text of a document is excluded as a page header, its fidelity report is not built. -/
theorem excluded_letter_raises : ∃ document validation,
    assembleCanonical Platform.ascii letterEvidence (letterLayout (some .pageHeader) true) [] [] =
      .ok (document, validation) ∧
    validation.status = .failed ∧
    canonicalFidelityReport letterEvidence document validation =
      .error (.validationError ["FIDELITY_SPAN_COUNTS_INVALID"]) := by
  obtain ⟨⟨document, validation⟩, hassembled, hresult⟩ := exists_of_any_toOption
    (show (assembleCanonical Platform.ascii letterEvidence (letterLayout (some .pageHeader) true) [] []).toOption.any
      (fun r => r.2.status = .failed ∧ raised (canonicalFidelityReport letterEvidence r.1 r.2) =
        some (.validationError ["FIDELITY_SPAN_COUNTS_INVALID"])) = true by decide +kernel)
  obtain ⟨hstatus, hraised⟩ := of_decide_eq_true hresult
  exact ⟨document, validation, hassembled, hstatus, raised_eq_some.1 hraised⟩

end ArdOssie