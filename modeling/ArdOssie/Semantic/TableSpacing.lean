import ArdOssie.Semantic.SpacingSets

/-!
# Spacing candidates of a table

The candidates for the whitespace of a table: the cells as they are and the cells after repair, one line for each
cell.  A cell that spells a qualified identifier loses its whitespace; in other cells a scorer may join fragments of
Korean words.
-/

namespace ArdOssie

open Text (isSpace withoutWhitespace)

/-- A scorer; `supports_join` may be missing. -/
structure SpacingScorer where
  propose : Text → List Text → List Text
  supportsJoin : Option (Text → Text → Bool)

/-! ### States -/

/-- `_spacing_states` -/
def spacingStates (value : Text) : List BoundaryState := (gaps value).map .ofGap

/-- `_render_spacing_states` -/
def renderSpacingStates : Text → List BoundaryState → Text
  | [], _ => []
  | c :: t, [] => c :: renderSpacingStates t []
  | c :: t, state :: states => c :: (state.separator ++ renderSpacingStates t states)

/-- The places at which two lists of states differ. -/
def changedStates (before after : List BoundaryState) : List ℕ :=
  (List.range before.length).filter fun i => before[i]? ≠ after[i]?

/-- `_changed_boundary_indexes`, for texts with the same characters. -/
def changedBoundaryIndexes (source repaired : Text) : List ℕ :=
  changedStates (spacingStates source) (spacingStates repaired)

/-- `_qualified_identifier_repair` -/
def qualifiedIdentifierRepair (value : Text) : Option Text :=
  let dense := withoutWhitespace value
  if dense ≠ value ∧ qualifiedIdentifier.matchesAll dense then some dense else none

/-! ### Proposals for a cell -/

/-- `chr(0xE000 + number)` -/
def identifierSentinel (number : ℕ) : Char := Char.ofNat (0xe000 + number)

/-- The text with a sentinel for every inline identifier; the first `skip` characters belong to an identifier that
was already replaced. -/
def maskFrom : ℕ → ℕ → Option Char → Text → Text
  | _, _, _, [] => []
  | number, skip + 1, _, c :: t => maskFrom number skip (some c) t
  | number, 0, previous, c :: t =>
    match identifier.matchLength ⟨previous, c :: t⟩ with
    | some (n + 1) => identifierSentinel number :: maskFrom (number + 1) n (some c) t
    | _ => c :: maskFrom number 0 (some c) t

/-- `protected` -/
def protectedIdentifiers (value : Text) : List (Char × Text) :=
  (identifier.findAll value).zipIdx.map fun (found, number) => (identifierSentinel number, found.2)

/-- The proposal with its identifiers. -/
def restoreIdentifiers (identifiers : List (Char × Text)) (proposal : Text) : Text :=
  identifiers.foldl (fun t entry => t.flatMap fun c => if c = entry.1 then entry.2 else [c]) proposal

section Scorer

variable (scorer : SpacingScorer)

/-- The proposals that keep every identifier. -/
def restoredProposals (value : Text) : List Text :=
  let masked := maskFrom 0 0 none value
  (scorer.propose masked [masked]).filterMap fun proposal =>
    if (protectedIdentifiers value).any fun entry => entry.1 ∉ proposal then none
    else some (restoreIdentifiers (protectedIdentifiers value) proposal)

/-- The number of sentinels that `chr` knows. -/
def sentinelCount : ℕ := 0x102000

/-- `_protected_language_proposals` -/
def protectedLanguageProposals (value : Text) : PyResult (List Text) := do
  raiseIf (sentinelCount < (protectedIdentifiers value).length) (.valueError "chr() arg not in range(0x110000)")
  return restoredProposals scorer value

/-- A syllable from `가` to `힣`. -/
def isHangul (c : Char) : Bool := 0xac00 ≤ c.toNat && c.toNat ≤ 0xd7a3

/-- `_hangul_pair_at_boundary` -/
def hangulPairAtBoundary (value : Text) (index : ℕ) : Bool :=
  ((withoutWhitespace value)[index]?).any isHangul && ((withoutWhitespace value)[index + 1]?).any isHangul

/-- The texts before and after each run of whitespace; `gap` was read after `before`. -/
def whitespaceRuns (before gap : Text) : Text → List (Text × Text)
  | [] => if gap = [] then [] else [(before, [])]
  | c :: t =>
    if isSpace c then whitespaceRuns before (gap ++ [c]) t
    else (if gap = [] then [] else [(before, c :: t)]) ++ whitespaceRuns (before ++ gap ++ [c]) [] t

/-- Whether a proposal for two fragments joins them. -/
def joinsFragments (left right proposal : Text) : Bool :=
  let normalized := (canonicalizeWhitespace proposal).strip
  normalized ≠ [] && withoutWhitespace normalized = left ++ right &&
    (spacingStates normalized)[left.length - 1]? = some .none

/-- The boundary at a run of whitespace, when the scorer supports its removal. -/
def supportedRemoval (removalIndexes : List ℕ) (run : Text × Text) : PyResult (Option ℕ) := do
  let characters := (withoutWhitespace run.1).length
  if characters = 0 ∨ characters - 1 ∉ removalIndexes then return none
  let left := (run.1.reverse.takeWhile isHangul).reverse
  let right := run.2.takeWhile isHangul
  if left = [] ∨ right = [] then return none
  if right = ['수'] ∧ 1 < left.length then return none
  let morphologySupport := scorer.supportsJoin.any fun supports => supports left right
  if 1 < left.length ∧ 1 < right.length ∧ ¬ morphologySupport then return none
  if morphologySupport then return some (characters - 1)
  let proposals ← protectedLanguageProposals scorer (left ++ ' ' :: right)
  return if proposals.any (joinsFragments left right) then some (characters - 1) else none

/-- `_supported_fragment_removals` -/
def supportedFragmentRemovals (value : Text) (removalIndexes : List ℕ) : PyResult (List ℕ) := do
  let supported ← (whitespaceRuns [] [] value).mapM (supportedRemoval scorer removalIndexes)
  return supported.filterMap id

end Scorer

/-! ### The repair of a cell -/

/-- A cell with visible atoms, as it is and after repair. -/
structure CellPart where
  characters : List EvidenceAtom
  current : Text
  repaired : Text
  indexes : List ℕ
  byLanguage : Bool

section Repair

variable (platform : Platform) (isWord : Char → Bool) (regionId : RegionId) (scorer : SpacingScorer)

/-- `_looks_like_formula`; `isWord` are the characters of `\w`. -/
def looksLikeFormula (value : Text) : Bool :=
  '=' ∈ value || Regex.occursIn (.seq (.notBehind isWord) (.seq (.char fun c => 'A' ≤ c && c ≤ 'Z')
    (.seq (.star (.char fun c => ('A' ≤ c && c ≤ 'Z') || ('0' ≤ c && c ≤ '9') || c == '_'))
      (.seq (.star (.char isSpace)) (.char fun c => c == '('))))) value

/-- `_text_spacing_defects` -/
def textSpacingDefects (renderedText : Text) (characters : List EvidenceAtom) : PyResult (List String) := do
  let atomIds := characters.map (·.atomId)
  let candidate ← makeSpacingCandidate platform regionId renderedText (atomsText characters) atomIds
    (List.replicate (atomIds.length - 1) []) ⟨1 / 2, by norm_num⟩ (Dict.ofList [("table_cell_probe".toList, 1)]) none
  return spacingDefectCodes platform candidate

/-- A proposal of the scorer in normal form. -/
def normalizedProposal (proposal : Text) : Text := punctuationRules (canonicalizeWhitespace proposal).strip

/-- The boundaries that a proposal removes between syllables. -/
def hangulRemovals (value normalized : Text) : List ℕ :=
  (changedBoundaryIndexes value normalized).filter fun i =>
    (spacingStates value)[i]? = some .space ∧ (spacingStates normalized)[i]? = some .none ∧ hangulPairAtBoundary value i

/-- The states of a value with the authorised ones of a proposal. -/
def mergedStates (value normalized : Text) (authorized : List ℕ) : List BoundaryState :=
  (spacingStates value).zipIdx.map fun (state, i) =>
    if i ∈ authorized then ((spacingStates normalized)[i]?).getD state else state

/-- The repair of a value by a proposal without defects. -/
def repairFromProposal (value normalized : Text) (characters : List EvidenceAtom) :
    PyResult (Option (Text × List ℕ)) := do
  let authorized ← supportedFragmentRemovals scorer value (hangulRemovals value normalized)
  if authorized = [] then return none
  let repaired := renderSpacingStates (withoutWhitespace value) (mergedStates value normalized authorized)
  let defects ← textSpacingDefects platform regionId repaired characters
  if defects ≠ [] then return none
  return some (repaired, sortBy id authorized.eraseDups)

/-- The loop of `_first_language_repair`. -/
def languageRepairLoop (value : Text) (characters : List EvidenceAtom) :
    List Text → PyResult (Option (Text × List ℕ))
  | [] => return none
  | proposal :: rest => do
    let normalized := normalizedProposal proposal
    if normalized = [] ∨ withoutWhitespace normalized ≠ atomsText characters then languageRepairLoop value characters rest
    else
      let defects ← textSpacingDefects platform regionId normalized characters
      if defects ≠ [] then languageRepairLoop value characters rest
      else if normalized = value then return none
      else repairFromProposal platform regionId scorer value normalized characters

/-- `_first_language_repair` -/
def firstLanguageRepair (value : Text) (characters : List EvidenceAtom) : PyResult (Option (Text × List ℕ)) := do
  let proposals ← protectedLanguageProposals scorer value
  languageRepairLoop platform regionId scorer value characters proposals

/-- `current` -/
def currentText (cell : TableCellCandidate) (atoms : List EvidenceAtom) : Text :=
  let sequence := atomsText (visibleAtoms atoms)
  let rendered := (cell.renderedText.getD []).strip
  let current := if withoutWhitespace rendered ≠ sequence then (atomsText atoms).strip else rendered
  if withoutWhitespace current ≠ sequence then sequence else current

/-- The part of a cell with visible atoms. -/
def repairCell (current : Text) (characters : List EvidenceAtom) : PyResult CellPart := do
  match qualifiedIdentifierRepair current with
  | some dense => return ⟨characters, current, dense, changedBoundaryIndexes current dense, false⟩
  | none =>
    if looksLikeFormula isWord current then return ⟨characters, current, current, [], false⟩
    match ← firstLanguageRepair platform regionId scorer current characters with
    | some (repaired, indexes) => return ⟨characters, current, repaired, indexes, true⟩
    | none => return ⟨characters, current, current, [], false⟩

/-- The place of a cell in the order of the cells. -/
def cellPlace (cell : TableCellCandidate) : ℕ ×ₗ ℕ ×ₗ ℕ ×ₗ ℕ ×ₗ Fin (2 ^ 64) :=
  toLex (cell.region.startRow, toLex (cell.region.startColumn, toLex (cell.region.endRow,
    toLex (cell.region.endColumn, cell.cellId.value))))

/-- The loop over the cells. -/
def cellPart (catalog : Dict AtomId EvidenceAtom) (cell : TableCellCandidate) : PyResult (Option CellPart) := do
  let atoms ← catalogAtoms catalog cell.atomIds
  if visibleAtoms atoms = [] then return none
  let part ← repairCell platform isWord regionId scorer (currentText cell atoms) (visibleAtoms atoms)
  return some part

end Repair

/-! ### The composite -/

/-- `mutable_indexes`, the first part starting at `start` -/
def compositeIndexes (start : ℕ) : List CellPart → List ℕ
  | [] => []
  | part :: parts =>
    part.indexes.map (start + ·) ++ compositeIndexes (start + part.characters.length) parts

/-- The texts of the cells, one line for each. -/
def joinCells (texts : List Text) : Text := List.intercalate ['\n'] texts

section Build

variable (platform : Platform) (isWord : Char → Bool)

/-- A candidate of the composite. -/
def compositeCandidate (regionId : RegionId) (parts : List CellPart) (renderedText : Text) (score : Score)
    (features : List (String × ℚ)) : PyResult SpacingCandidate :=
  let characters := parts.flatMap (·.characters)
  makeSpacingCandidate platform regionId renderedText (atomsText characters) (characters.map (·.atomId))
    (List.replicate ((characters.map (·.atomId)).length - 1) []) score
    (Dict.ofList (features.map fun (name, value) => (name.toList, value)))
    (some ((compositeIndexes 0 parts).map Int.ofNat))

/-- The score of the repaired composite. -/
def repairedScore (parts : List CellPart) : Score :=
  if parts.any fun part => part.byLanguage && part.indexes ≠ [] then ⟨78 / 100, by norm_num⟩
  else ⟨95 / 100, Score.percent95_mem⟩

/-- The set of the composite of the parts. -/
def compositeSet (sourceHash : Sha256) (regionId : RegionId) (parts : List CellPart) : PyResult (Option CandidateSet) := do
  if compositeIndexes 0 parts = [] ∨ parts.map (·.current) = parts.map (·.repaired) then return none
  let source ← compositeCandidate platform regionId parts (joinCells (parts.map (·.current))) ⟨45 / 100, by norm_num⟩
    [("source_spacing", 45 / 100), ("table_cell_composite", 1)]
  let repaired ← compositeCandidate platform regionId parts (joinCells (parts.map (·.repaired))) (repairedScore parts)
    [("table_cell_composite", 1), ("table_cell_repair", (repairedScore parts).val)]
  if spacingDefectCodes platform repaired ≠ [] then return none
  let candidates := sortBy (fun c : SpacingCandidate => toLex (-c.score.val, c.candidateId.value)) [source, repaired]
  let set ← CandidateSet.make (makeCandidateSetId platform sourceHash regionId (candidates.map (·.candidateId)))
    sourceHash regionId .spacing (candidates.map .spacing)
  return some set

/-- The parts of the cells with visible atoms. -/
def tableParts (table : TableCandidate) (evidence : EvidenceDocument) (scorer : SpacingScorer) :
    PyResult (List CellPart) := do
  let parts ← (sortBy cellPlace table.cells).mapM
    (cellPart platform isWord table.regionId scorer evidence.atomCatalog)
  return parts.filterMap id

/-- `build_table_spacing_candidate_set` -/
def buildTableSpacingCandidateSet (table : TableCandidate) (evidence : EvidenceDocument) (scorer : SpacingScorer) :
    PyResult (Option CandidateSet) := do
  raiseIf (∃ i ∈ table.atomIds, i ∉ evidence.atoms.map (·.atomId)) (.valueError "TABLE_SPACING_ATOM_UNKNOWN")
  let parts ← tableParts platform isWord table evidence scorer
  compositeSet platform evidence.sourceHash table.regionId parts

end Build

end ArdOssie
