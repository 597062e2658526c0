import ArdOssie.Library.Results
import ArdOssie.Semantic.Evidence
import ArdOssie.Semantic.Models

/-!
# Candidates

The candidates of a decision: renderings of the whitespace of a region, recognised texts, block roles, reading orders,
continuations and table structures.  A candidate set holds one to five candidates of one kind and one region.
-/

namespace ArdOssie

open Text (isSpace withoutWhitespace)

abbrev CandidateId := Identifier "candidate_"

abbrev CandidateSetId := Identifier "candidate_set_"

abbrev CellId := Identifier "cell_"

/-- What every candidate carries. -/
structure CandidateHeader where
  candidateId : CandidateId
  regionId : RegionId
  score : Score
  features : Dict Text ℚ

/-- The features as a JSON object. -/
def featuresJson (features : Dict Text ℚ) : Json :=
  .obj (features.entries.map fun e => (e.1, .float e.2))

/-! ### Spacing -/

inductive BoundaryState where
  | none
  | space
  | hardBreak
  deriving DecidableEq, Repr

namespace BoundaryState

/-- The text between two characters with a boundary of this state. -/
def separator : BoundaryState → Text
  | none => []
  | space => [' ']
  | hardBreak => ['\n']

/-- The state of the boundary that a piece of whitespace renders. -/
def ofGap (gap : Text) : BoundaryState := if '\n' ∈ gap then hardBreak else if gap ≠ [] then space else none

def text : BoundaryState → String
  | none => "none"
  | space => "space"
  | hardBreak => "hard_break"

end BoundaryState

structure SpacingBoundary where
  leftAtomId : AtomId
  rightAtomId : AtomId
  state : BoundaryState
  sourceWhitespaceAtomIds : List AtomId
  deriving DecidableEq

def SpacingBoundary.json (b : SpacingBoundary) : Json :=
  .record [("left_atom_id", b.leftAtomId.json), ("right_atom_id", b.rightAtomId.json), ("state", .lit b.state.text),
    ("source_whitespace_atom_ids", .arr (b.sourceWhitespaceAtomIds.map (·.json)))]

/-- `_render_boundaries` -/
def renderBoundaries : Text → List SpacingBoundary → Text
  | [], _ => []
  | c :: t, [] => c :: renderBoundaries t []
  | c :: t, b :: bs => c :: (b.state.separator ++ renderBoundaries t bs)

/-- The fields of a spacing candidate. -/
structure SpacingFields extends CandidateHeader where
  renderedText : Text
  characterSequence : Text
  atomIds : List AtomId
  boundaries : List SpacingBoundary
  mutableBoundaryIndexes : Option (List ℤ)

namespace SpacingFields

/-- The boundary with a given index. -/
def boundary (f : SpacingFields) (i : ℤ) : Option SpacingBoundary :=
  if 0 ≤ i then f.boundaries[i.toNat]? else none

/-- The checks of the mutable boundaries. -/
def validateMutable (f : SpacingFields) : PyResult Unit :=
  match f.mutableBoundaryIndexes with
  | none => return
  | some indexes => do
    raiseIf (sortBy id indexes.eraseDups ≠ indexes ∨ ∃ i ∈ indexes, f.boundary i = none)
      (.validationError ["CANDIDATE_MUTABLE_BOUNDARIES_INVALID"])
    raiseIf (∃ i ∈ indexes, ∃ b ∈ f.boundary i, b.state = .hardBreak)
      (.validationError ["CANDIDATE_MUTABLE_HARD_BOUNDARY"])

/-- The validator of a spacing candidate. -/
def validate (f : SpacingFields) : PyResult Unit := do
  raiseIf (f.characterSequence = [] ∨ f.atomIds = []) (.validationError [])
  raiseIf (f.characterSequence.any isSpace) (.validationError ["CANDIDATE_CHARACTER_SEQUENCE_INVALID"])
  raiseIf (withoutWhitespace f.renderedText ≠ f.characterSequence)
    (.validationError ["CANDIDATE_CHARACTER_CONSERVATION_FAILED"])
  raiseIf (f.atomIds.length ≠ f.characterSequence.length ∨ ¬ f.atomIds.Nodup)
    (.validationError ["CANDIDATE_ATOM_SEQUENCE_INVALID"])
  raiseIf (f.boundaries.length ≠ f.atomIds.length - 1) (.validationError ["CANDIDATE_BOUNDARY_SEQUENCE_INVALID"])
  raiseIf (f.boundaries.map (fun b => (b.leftAtomId, b.rightAtomId)) ≠ f.atomIds.zip f.atomIds.tail)
    (.validationError ["CANDIDATE_BOUNDARY_SEQUENCE_INVALID"])
  raiseIf (renderBoundaries f.characterSequence f.boundaries ≠ f.renderedText)
    (.validationError ["CANDIDATE_BOUNDARY_RENDER_INVALID"])
  f.validateMutable

end SpacingFields

/-- A valid spacing candidate has an atom for every character and renders its boundaries. -/
theorem SpacingFields.validate_eq_ok {f : SpacingFields} :
    f.validate = .ok () ↔
      (f.characterSequence ≠ [] ∧ f.atomIds ≠ []) ∧ (∀ c ∈ f.characterSequence, isSpace c = false) ∧
        withoutWhitespace f.renderedText = f.characterSequence ∧
        (f.atomIds.length = f.characterSequence.length ∧ f.atomIds.Nodup) ∧
        f.boundaries.length = f.atomIds.length - 1 ∧
        f.boundaries.map (fun b => (b.leftAtomId, b.rightAtomId)) = f.atomIds.zip f.atomIds.tail ∧
        renderBoundaries f.characterSequence f.boundaries = f.renderedText ∧ f.validateMutable = .ok () := by
  unfold validate
  simp only [bind_eq_ok, raiseIf_eq_ok]
  simp [not_or]

structure SpacingCandidate extends SpacingFields where
  valid : toSpacingFields.validate = .ok ()

/-- `SpacingCandidate(...)` -/
def SpacingCandidate.make (f : SpacingFields) : PyResult SpacingCandidate :=
  match h : f.validate with
  | .ok () => .ok ⟨f, h⟩
  | .error e => .error e

/-! ### The other kinds -/

structure RecognitionCandidate extends CandidateHeader where
  hypothesisId : HypothesisId
  text : Text
  engine : Text
  text_ne : text ≠ []
  engine_ne : engine ≠ []

inductive BlockKind where
  | heading
  | paragraph
  | listItem
  | table
  | caption
  | figure
  deriving DecidableEq, Repr

structure BlockCandidate extends CandidateHeader where
  blockKind : BlockKind
  atomIds : List AtomId
  headingLevel : Option ℕ
  listKind : Option ListKind
  listDepth : Option ℕ
  atomIds_ne : atomIds ≠ []
  headingLevel_mem : ∀ n ∈ headingLevel, 1 ≤ n ∧ n ≤ 6
  listDepth_mem : ∀ n ∈ listDepth, 1 ≤ n ∧ n ≤ 8
  atomIds_nodup : atomIds.Nodup
  heading_iff : headingLevel ≠ none ↔ blockKind = .heading
  list_iff : listKind ≠ none ∧ listDepth ≠ none ↔ blockKind = .listItem

structure ReadingOrderCandidate extends CandidateHeader where
  regionIds : List RegionId
  regionIds_ne : regionIds ≠ []
  regionIds_nodup : regionIds.Nodup

structure ContinuationCandidate extends CandidateHeader where
  previousRegionId : RegionId
  currentRegionId : RegionId
  continuePrevious : Bool
  scope : regionId = currentRegionId
  pair : previousRegionId ≠ currentRegionId

@[ext]
structure TableCellCandidate where
  cellId : CellId
  region : CellRegion
  atomIds : List AtomId
  columnHeader : Bool
  renderedText : Option Text
  withinLimits : region.WithinLimits
  span : region.startRow < region.endRow ∧ region.startColumn < region.endColumn
  atomIds_nodup : atomIds.Nodup

instance : DecidableEq TableCellCandidate := fun _ _ => decidable_of_iff _ TableCellCandidate.ext_iff.symm

/-- The grid positions of a cell. -/
def CellRegion.places (r : CellRegion) : List (ℕ × ℕ) :=
  (List.range' r.startRow (r.endRow - r.startRow)).flatMap fun row =>
    (List.range' r.startColumn (r.endColumn - r.startColumn)).map fun column => (row, column)

/-- The positions of a grid. -/
def gridPlaces (rowCount columnCount : ℕ) : List (ℕ × ℕ) :=
  (List.range rowCount).flatMap fun row => (List.range columnCount).map fun column => (row, column)

section Places

variable {rowCount columnCount : ℕ}

theorem CellRegion.mem_places {r : CellRegion} {p : ℕ × ℕ} :
    p ∈ r.places ↔ (r.startRow ≤ p.1 ∧ p.1 < r.endRow) ∧ r.startColumn ≤ p.2 ∧ p.2 < r.endColumn := by
  obtain ⟨row, column⟩ := p
  simp only [CellRegion.places, List.mem_flatMap, List.mem_map, List.mem_range'_1, Prod.mk.injEq]
  constructor
  · rintro ⟨_, hrow, _, hcolumn, rfl, rfl⟩
    omega
  · intro h
    exact ⟨row, by omega, column, by omega, rfl, rfl⟩

theorem mem_gridPlaces {p : ℕ × ℕ} : p ∈ gridPlaces rowCount columnCount ↔ p.1 < rowCount ∧ p.2 < columnCount := by
  obtain ⟨row, column⟩ := p
  simp [gridPlaces]

theorem length_gridPlaces : (gridPlaces rowCount columnCount).length = rowCount * columnCount := by
  simp [gridPlaces, List.length_flatMap]

theorem CellRegion.nodup_places (r : CellRegion) : r.places.Nodup := by
  refine List.nodup_flatMap.2 ⟨fun row _ => ?_, ?_⟩
  · exact List.Nodup.map (fun _ _ h => (Prod.mk.inj h).2) List.nodup_range'
  · refine List.Pairwise.imp ?_ (List.nodup_range' (s := r.startRow) (n := r.endRow - r.startRow))
    intro a b hab p hp hq
    obtain ⟨_, _, rfl⟩ := List.mem_map.1 hp
    obtain ⟨_, _, heq⟩ := List.mem_map.1 hq
    exact hab (Prod.mk.inj heq).1.symm

theorem nodup_gridPlaces : (gridPlaces rowCount columnCount).Nodup := by
  have h : gridPlaces rowCount columnCount = CellRegion.places ⟨0, rowCount, 0, columnCount⟩ := by
    simp [gridPlaces, CellRegion.places, List.range_eq_range']
  rw [h]
  exact CellRegion.nodup_places _

end Places

/-- `assert_table_grid_complete`: the cells cover every position of the grid exactly once. -/
def TableGridComplete (cells : List TableCellCandidate) (rowCount columnCount : ℕ) : Prop :=
  (cells.flatMap (·.region.places)).Nodup ∧
    (∀ p ∈ cells.flatMap (·.region.places), p ∈ gridPlaces rowCount columnCount) ∧
    ∀ p ∈ gridPlaces rowCount columnCount, p ∈ cells.flatMap (·.region.places)

instance (cells : List TableCellCandidate) (rowCount columnCount : ℕ) :
    Decidable (TableGridComplete cells rowCount columnCount) := inferInstanceAs (Decidable (_ ∧ _ ∧ _))

structure TableCandidate extends CandidateHeader where
  rowCount : ℕ
  columnCount : ℕ
  cells : List TableCellCandidate
  atomIds : List AtomId
  rowCount_mem : 0 < rowCount ∧ rowCount ≤ maxTableRows
  columnCount_mem : 0 < columnCount ∧ columnCount ≤ maxTableColumns
  cells_mem : 1 ≤ cells.length ∧ cells.length ≤ maxTableCells
  atomIds_ne : atomIds ≠ []
  area_le : rowCount * columnCount ≤ maxTableGridArea
  cells_within : ∀ c ∈ cells, c.region.endRow ≤ rowCount ∧ c.region.endColumn ≤ columnCount
  cellIds_nodup : (cells.map (·.cellId)).Nodup
  allocations_nodup : (cells.flatMap (·.atomIds)).Nodup
  allocations_complete : ∀ i, i ∈ cells.flatMap (·.atomIds) ↔ i ∈ atomIds
  grid : TableGridComplete cells rowCount columnCount

/-! ### Candidate sets -/

inductive Candidate where
  | spacing (candidate : SpacingCandidate)
  | recognition (candidate : RecognitionCandidate)
  | block (candidate : BlockCandidate)
  | readingOrder (candidate : ReadingOrderCandidate)
  | continuation (candidate : ContinuationCandidate)
  | table (candidate : TableCandidate)

inductive CandidateKind where
  | spacing
  | recognition
  | block
  | readingOrder
  | continuation
  | table
  deriving DecidableEq, Repr

def CandidateKind.text : CandidateKind → String
  | spacing => "spacing"
  | recognition => "recognition"
  | block => "block"
  | readingOrder => "reading_order"
  | continuation => "continuation"
  | table => "table"

namespace Candidate

def header : Candidate → CandidateHeader
  | spacing c => c.toCandidateHeader
  | recognition c => c.toCandidateHeader
  | block c => c.toCandidateHeader
  | readingOrder c => c.toCandidateHeader
  | continuation c => c.toCandidateHeader
  | table c => c.toCandidateHeader

def kind : Candidate → CandidateKind
  | spacing _ => .spacing
  | recognition _ => .recognition
  | block _ => .block
  | readingOrder _ => .readingOrder
  | continuation _ => .continuation
  | table _ => .table

abbrev candidateId (c : Candidate) : CandidateId := c.header.candidateId

abbrev score (c : Candidate) : Score := c.header.score

/-- The candidate as a spacing candidate. -/
def spacing? : Candidate → Option SpacingCandidate
  | spacing c => some c
  | _ => none

/-- The candidate as a table candidate. -/
def table? : Candidate → Option TableCandidate
  | table c => some c
  | _ => none

end Candidate

structure CandidateSet where
  candidateSetId : CandidateSetId
  sourceHash : Sha256
  regionId : RegionId
  decisionType : CandidateKind
  candidates : List Candidate
  candidates_mem : 1 ≤ candidates.length ∧ candidates.length ≤ 5
  candidateIds_nodup : (candidates.map (·.candidateId)).Nodup
  candidates_scope : ∀ c ∈ candidates, c.header.regionId = regionId ∧ c.kind = decisionType

/-- The spacing candidates of a set. -/
def CandidateSet.spacingCandidates (s : CandidateSet) : List SpacingCandidate := s.candidates.filterMap (·.spacing?)

/-- The features of a table whose structure is proven. -/
def invariantProvenTableFeatures : List Text :=
  ["atom_bbox_cell_agreement", "cell_character_multiset", "structure_hint_text"].map String.toList

/-- `is_invariant_proven_table` -/
def isInvariantProvenTable (c : Candidate) : Bool :=
  match c with
  | .table t => invariantProvenTableFeatures.all fun feature => t.features.lookup feature = some 1
  | _ => false

/-! ### Building a spacing candidate -/

/-- `make_candidate_id` -/
def makeCandidateId (platform : Platform) (kind : String) (regionId : RegionId) (payload : Json) : CandidateId :=
  ⟨(canonicalHash platform (.record [("kind", .lit kind), ("region_id", regionId.json), ("payload", payload)])).prefix16⟩

/-- The whitespace after each character up to the next one; `gap` was read since the last character. -/
def gapsAfter (gap : Text) : Text → List Text
  | [] => []
  | c :: t => if isSpace c then gapsAfter (gap ++ [c]) t else gap :: gapsAfter [] t

/-- The whitespace between consecutive characters of a text. -/
def gaps (t : Text) : List Text :=
  match t.dropWhile isSpace with
  | [] => []
  | _ :: t => gapsAfter [] t

/-- `_boundaries_from_rendered` -/
def boundariesFromRendered (renderedText : Text) (atomIds : List AtomId) (sourceWhitespace : List (List AtomId)) :
    PyResult (List SpacingBoundary) := do
  raiseIf ((withoutWhitespace renderedText).length ≠ atomIds.length ∨ sourceWhitespace.length ≠ atomIds.length - 1)
    (.valueError "CANDIDATE_BOUNDARY_SEQUENCE_INVALID")
  return ((gaps renderedText).zip ((atomIds.zip atomIds.tail).zip sourceWhitespace)).map fun (gap, pair, whitespace) =>
    ⟨pair.1, pair.2, .ofGap gap, whitespace⟩

/-- The JSON value of the mutable boundary indexes. -/
def indexesJson (indexes : List ℤ) : Json := .arr (indexes.map .int)

/-- `make_spacing_candidate` -/
def makeSpacingCandidate (platform : Platform) (regionId : RegionId) (renderedText characterSequence : Text)
    (atomIds : List AtomId) (sourceWhitespace : List (List AtomId)) (score : Score) (features : Dict Text ℚ)
    (mutableBoundaryIndexes : Option (List ℤ)) : PyResult SpacingCandidate := do
  let boundaries ← boundariesFromRendered renderedText atomIds sourceWhitespace
  let identity := [("rendered_text", Json.str renderedText), ("atom_ids", .arr (atomIds.map (·.json))),
      ("boundaries", .arr (boundaries.map (·.json)))] ++
    (mutableBoundaryIndexes.map fun indexes => ("mutable_boundary_indexes", indexesJson indexes)).toList
  SpacingCandidate.make
    { candidateId := makeCandidateId platform "spacing" regionId (.record identity), regionId, score, features,
      renderedText, characterSequence, atomIds, boundaries, mutableBoundaryIndexes }

end ArdOssie
