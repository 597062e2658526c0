import ArdOssie.Semantic.CanonicalAssembly
import ArdOssie.Semantic.SpacingText

/-!
# Spacing candidates

The candidates for the whitespace of a region: the spacing of the source, a spacing from the boxes of the characters,
the source after the punctuation rules, no whitespace at all, and what a scorer proposes.  Proposals with the same
canonical text are one; those with the characters of the region become candidates and the five best ones are kept.
-/

namespace ArdOssie

open Text (isSpace withoutWhitespace)

/-! ### Proposals -/

/-- A canonical text with the features that proposed it. -/
abbrev SpacingProposal := Text × Dict Text ℚ

/-- `_add_proposal` -/
def addProposal (proposals : List SpacingProposal) (text : Text) (feature : String) (score : ℚ) :
    List SpacingProposal :=
  let normalized := (canonicalizeWhitespace text).strip
  if normalized = [] then proposals
  else if normalized ∈ proposals.map Prod.fst then
    proposals.map fun p => if p.1 = normalized then (p.1, p.2.insert feature.toList score) else p
  else proposals ++ [(normalized, Dict.ofList [(feature.toList, score)])]

/-- `min(0.99, max(features.values()) + 0.04 * (len(features) - 1))`, which lies between zero and one. -/
def proposalScore (features : Dict Text ℚ) : Score :=
  Score.clamp (min (99 / 100)
    ((features.entries.map (·.2)).max?.getD 0 + 4 / 100 * (features.entries.length - 1 : ℕ)))

/-- The atoms that are not whitespace. -/
def visibleAtoms (ordered : List EvidenceAtom) : List EvidenceAtom := ordered.filter fun a => !a.isSpace

/-- The joined texts of atoms. -/
def atomsText (atoms : List EvidenceAtom) : Text := atoms.flatMap (·.text)

/-- `position` -/
def atomPosition (ordered : List EvidenceAtom) (i : AtomId) : ℕ :=
  ((Dict.ofList (ordered.zipIdx.map fun (a, k) => (a.atomId, k))).lookup i).getD 0

/-- `_source_whitespace` -/
def sourceWhitespace (ordered characters : List EvidenceAtom) : List (List AtomId) :=
  (characters.zip characters.tail).map fun (first, second) =>
    (((ordered.take (atomPosition ordered second.atomId)).drop (atomPosition ordered first.atomId + 1)).filter
      (·.isSpace)).map (·.atomId)

section Geometry

variable (catalog : Dict AtomId EvidenceAtom)

/-- `typical_width` -/
def typicalWidth (characters : List EvidenceAtom) : ℚ :=
  let widths := characters.filterMap fun a =>
    a.bbox.bind fun b => if b.left < b.right then some (b.right - b.left) else none
  (sortBy id widths).getD (widths.length / 2) 0

/-- `geometric_gap` -/
def geometricGap (atom following : EvidenceAtom) : ℚ :=
  match atom.bbox, following.bbox with
  | some b, some b' => b'.left - b.right
  | _, _ => 0

/-- The whitespace between two characters by their boxes and the whitespace atoms between them. -/
def geometrySeparator (width : ℚ) (atom following : EvidenceAtom) (sourceGap : List AtomId) : Text :=
  if sourceGap.any fun i => (catalog.lookup i).any fun a => a.kind = .lineBreak then ['\n']
  else if 0 < width ∧ width * (60 / 100) ≤ geometricGap atom following then [' ']
  else []

/-- The loop of `_geometry_text`. -/
def geometryTextFrom (width : ℚ) : List EvidenceAtom → List (List AtomId) → Text
  | [], _ => []
  | [atom], _ => atom.text
  | atom :: following :: rest, gaps =>
    atom.text ++ geometrySeparator catalog width atom following (gaps.headD []) ++
      geometryTextFrom width (following :: rest) gaps.tail

/-- `_geometry_text` -/
def geometryText (characters : List EvidenceAtom) (sourceWhitespace : List (List AtomId)) : Text :=
  geometryTextFrom catalog (typicalWidth characters) characters sourceWhitespace

/-- `proposal_features` -/
def spacingProposals (propose : Text → List Text → List Text) (ordered : List EvidenceAtom) (lineChunks : List Text) :
    List SpacingProposal :=
  let characters := visibleAtoms ordered
  let sourceText := canonicalizeWhitespace (atomsText ordered)
  let proposals := addProposal [] sourceText "source_spacing" (45 / 100)
  let proposals := addProposal proposals (geometryText catalog characters (sourceWhitespace ordered characters))
    "geometry" (62 / 100)
  let proposals := addProposal proposals (punctuationRules sourceText) "punctuation_rules" (70 / 100)
  let proposals := addProposal proposals (atomsText characters) "dense" (20 / 100)
  (propose sourceText lineChunks).foldl
    (fun proposals proposal => addProposal proposals (punctuationRules proposal) "kiwi" (88 / 100)) proposals

end Geometry

/-! ### The candidate set -/

section Build

variable (platform : Platform)

/-- `make_candidate_set_id` -/
def makeCandidateSetId (sourceHash : Sha256) (regionId : RegionId) (candidateIds : List CandidateId) : CandidateSetId :=
  ⟨(canonicalHash platform (.record [("source_hash", .str sourceHash.hexdigest), ("region_id", regionId.json),
    ("candidate_ids", .arr (candidateIds.map (·.json)))])).prefix16⟩

/-- `CandidateSet(…)` -/
def CandidateSet.make (candidateSetId : CandidateSetId) (sourceHash : Sha256) (regionId : RegionId)
    (decisionType : CandidateKind) (candidates : List Candidate) : PyResult CandidateSet :=
  if hmem : 1 ≤ candidates.length ∧ candidates.length ≤ 5 then
    if hnodup : (candidates.map (·.candidateId)).Nodup then
      if hscope : ∀ c ∈ candidates, c.header.regionId = regionId ∧ c.kind = decisionType then
        .ok ⟨candidateSetId, sourceHash, regionId, decisionType, candidates, hmem, hnodup, hscope⟩
      else .error (.validationError ["CANDIDATE_SET_SCOPE_INVALID"])
    else .error (.validationError ["CANDIDATE_IDS_NOT_UNIQUE"])
  else .error (.validationError [])

/-- The candidate of a proposal. -/
def makeProposedCandidate (regionId : RegionId) (ordered : List EvidenceAtom) (proposal : SpacingProposal) :
    PyResult SpacingCandidate :=
  let characters := visibleAtoms ordered
  makeSpacingCandidate platform regionId proposal.1 (atomsText characters) (characters.map (·.atomId))
    (sourceWhitespace ordered characters) (proposalScore proposal.2) proposal.2 none

/-- The proposals with the characters of the region. -/
def conservingProposals (ordered : List EvidenceAtom) (proposals : List SpacingProposal) : List SpacingProposal :=
  proposals.filter fun p => withoutWhitespace p.1 = atomsText (visibleAtoms ordered)

/-- `build_spacing_candidate_set` -/
def buildSpacingCandidateSet (region : LayoutRegion) (evidence : EvidenceDocument) (layout : LayoutDocument)
    (propose : Text → List Text → List Text) : PyResult CandidateSet := do
  raiseIf (region.regionId ∉ layout.regions.map (·.regionId)) (.valueError "SPACING_REGION_UNKNOWN")
  let catalog := evidence.atomCatalog
  let ordered ← catalogAtoms catalog region.atomIds
  raiseIf (visibleAtoms ordered = []) (.valueError "SPACING_REGION_EMPTY")
  let lineAtoms ← (layout.lines.filter fun line => line.lineId ∈ region.lineIds).mapM fun line =>
    catalogAtoms catalog line.atomIds
  let proposals := spacingProposals catalog propose ordered (lineAtoms.map atomsText)
  let candidates ← (conservingProposals ordered proposals).mapM (makeProposedCandidate platform region.regionId ordered)
  let orderedCandidates := (sortBy (fun c : SpacingCandidate => toLex (-c.score.val, c.candidateId.value)) candidates).take 5
  raiseIf (orderedCandidates = []) (.valueError "SPACING_CANDIDATES_EMPTY")
  CandidateSet.make (makeCandidateSetId platform evidence.sourceHash region.regionId
    (orderedCandidates.map (·.candidateId))) evidence.sourceHash region.regionId .spacing
    (orderedCandidates.map .spacing)

end Build

end ArdOssie
