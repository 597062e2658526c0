import ArdOssie.Semantic.DecisionRecords

/-!
# Canonical documents

The records of the canonical form of a document: blocks, figures, excluded evidence, the outcome of every whitespace
atom and the continuations across pages.
-/

namespace ArdOssie

abbrev BlockId := Identifier "block_"

abbrev FigureId := Identifier "figure_"

@[ext]
structure CanonicalCell where
  cellId : CellId
  region : CellRegion
  text : Text
  atomIds : List AtomId
  columnHeader : Bool
  withinLimits : region.WithinLimits
  span : region.startRow < region.endRow ∧ region.startColumn < region.endColumn

instance : DecidableEq CanonicalCell := fun _ _ => decidable_of_iff _ CanonicalCell.ext_iff.symm

inductive CanonicalBlockKind where
  | heading
  | paragraph
  | listItem
  | table
  | caption
  deriving DecidableEq

@[ext]
structure CanonicalBlock where
  blockId : BlockId
  order : ℕ
  regionId : RegionId
  page : ℕ
  kind : CanonicalBlockKind
  text : Text
  atomIds : List AtomId
  headingLevel : Option ℕ
  listKind : Option ListKind
  listDepth : Option ℕ
  rowCount : Option ℕ
  columnCount : Option ℕ
  cells : List CanonicalCell
  decisionIds : List DecisionId
  page_pos : 1 ≤ page
  headingLevel_mem : ∀ n ∈ headingLevel, 1 ≤ n ∧ n ≤ 6
  listDepth_mem : ∀ n ∈ listDepth, 1 ≤ n ∧ n ≤ maxListDepth
  rowCount_mem : ∀ n ∈ rowCount, 0 < n ∧ n ≤ maxTableRows
  columnCount_mem : ∀ n ∈ columnCount, 0 < n ∧ n ≤ maxTableColumns
  cells_le : cells.length ≤ maxTableCells
  heading_iff : headingLevel ≠ none ↔ kind = .heading
  list_iff : listKind ≠ none ∧ listDepth ≠ none ↔ kind = .listItem
  table_iff : rowCount ≠ none ∧ columnCount ≠ none ↔ kind = .table
  cells_iff : cells ≠ [] ↔ kind = .table

instance : DecidableEq CanonicalBlock := fun _ _ => decidable_of_iff _ CanonicalBlock.ext_iff.symm

theorem CanonicalBlock.table_heading_iff : (none : Option ℕ) ≠ none ↔ CanonicalBlockKind.table = .heading := by decide

theorem CanonicalBlock.table_list_iff :
    (none : Option ListKind) ≠ none ∧ (none : Option ℕ) ≠ none ↔ CanonicalBlockKind.table = .listItem := by decide

@[ext]
structure CanonicalFigure where
  figureId : FigureId
  regionId : RegionId
  page : ℕ
  bbox : SourceBox
  caption : Option Text
  captionAtomIds : List AtomId
  decisionIds : List DecisionId
  page_pos : 1 ≤ page

instance : DecidableEq CanonicalFigure := fun _ _ => decidable_of_iff _ CanonicalFigure.ext_iff.symm

inductive ExclusionReason where
  | repeatedPageHeader
  | repeatedPageFooter
  | pageNumber
  deriving DecidableEq

structure ExcludedEvidence where
  regionId : RegionId
  atomIds : List AtomId
  reason : ExclusionReason
  atomIds_ne : atomIds ≠ []
  deriving DecidableEq

inductive WhitespaceOutcome where
  | retained
  | normalized
  | layoutOnly
  deriving DecidableEq

structure WhitespaceDisposition where
  atomId : AtomId
  outcome : WhitespaceOutcome
  boundaryState : BoundaryState
  decisionId : DecisionId
  deriving DecidableEq

structure CanonicalContinuation where
  previousRegionId : RegionId
  currentRegionId : RegionId
  decisionId : DecisionId
  deriving DecidableEq

structure CanonicalSemanticDocument where
  sourceHash : Sha256
  regionOrder : List RegionId
  blocks : List CanonicalBlock
  figures : List CanonicalFigure
  excludedEvidence : List ExcludedEvidence
  whitespaceDispositions : List WhitespaceDisposition
  continuations : List CanonicalContinuation
  decisions : List DecisionRecord

end ArdOssie
