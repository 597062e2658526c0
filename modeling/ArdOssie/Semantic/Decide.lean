import ArdOssie.Semantic.TrustedDecisions

/-!
# Deciding over a candidate set

`decide` in its order: the candidates that the scores or proven tables settle, the trusted records, and the votes of
the provider with their repetitions.
-/

namespace ArdOssie

section Json

/-- `candidate.model_dump(mode="json")` -/
def Candidate.json (candidate : Candidate) : Json :=
  .record <| [("kind", .lit candidate.kind.text), ("candidate_id", candidate.candidateId.json),
    ("region_id", candidate.header.regionId.json), ("score", candidate.score.json),
    ("features", featuresJson candidate.header.features)] ++
    match candidate with
    | .spacing c => [("rendered_text", .str c.renderedText), ("character_sequence", .str c.characterSequence),
        ("atom_ids", .arr (c.atomIds.map (·.json))), ("boundaries", .arr (c.boundaries.map (·.json))),
        ("mutable_boundary_indexes", .opt indexesJson c.mutableBoundaryIndexes)]
    | .recognition c => [("hypothesis_id", c.hypothesisId.json), ("text", .str c.text), ("engine", .str c.engine)]
    | .block c => [("block_kind", .lit c.blockKind.text), ("atom_ids", .arr (c.atomIds.map (·.json))),
        ("heading_level", .opt .nat c.headingLevel), ("list_kind", .opt (fun k => .lit k.text) c.listKind),
        ("list_depth", .opt .nat c.listDepth)]
    | .readingOrder c => [("region_ids", .arr (c.regionIds.map (·.json)))]
    | .continuation c => [("previous_region_id", c.previousRegionId.json),
        ("current_region_id", c.currentRegionId.json), ("continue_previous", .bool c.continuePrevious)]
    | .table c => [("row_count", .nat c.rowCount), ("column_count", .nat c.columnCount),
        ("atom_ids", .arr (c.atomIds.map (·.json))),
        ("cells", .arr (c.cells.map fun cell => .record
          [("cell_id", cell.cellId.json), ("start_row", .nat cell.region.startRow),
            ("end_row", .nat cell.region.endRow), ("start_column", .nat cell.region.startColumn),
            ("end_column", .nat cell.region.endColumn), ("atom_ids", .arr (cell.atomIds.map (·.json))),
            ("column_header", .bool cell.columnHeader), ("rendered_text", .opt .str cell.renderedText)]))]

/-- `candidate_set.model_dump(mode="json")` -/
def CandidateSet.json (s : CandidateSet) : Json :=
  .record [("candidate_set_id", s.candidateSetId.json), ("source_hash", .str s.sourceHash.hexdigest),
    ("region_id", s.regionId.json), ("decision_type", .lit s.decisionType.text),
    ("candidates", .arr (s.candidates.map (·.json)))]

end Json

section Deterministic

variable (platform : Platform)

/-- `_table_structure_signature` -/
def tableStructureSignature (t : TableCandidate) : Sha256 :=
  canonicalHash platform (.record [("row_count", .nat t.rowCount), ("column_count", .nat t.columnCount),
    ("cells", .arr (t.cells.map fun cell => .record
      [("start_row", .nat cell.region.startRow), ("end_row", .nat cell.region.endRow),
        ("start_column", .nat cell.region.startColumn), ("end_column", .nat cell.region.endColumn),
        ("atom_ids", .arr (cell.atomIds.map (·.json))), ("column_header", .bool cell.columnHeader)]))])

/-- The verdict for a candidate that needs no provider. -/
def deterministicVerdict (c : Candidate) (confidence : Score) : Verdict :=
  { selectedCandidateId := some c.candidateId, outcome := .selected, source := .deterministic, confidence }

/-- The selection among the tables whose structure is proven, when they have one structure. -/
def provenVerdict (candidates : List Candidate) : Option Verdict :=
  let proven := candidates.filter isInvariantProvenTable
  let signatures := ((proven.filterMap (·.table?)).map (tableStructureSignature platform)).eraseDups
  if signatures.length = 1 then
    (maxBy (fun c => toLex (c.score, c.candidateId.value)) proven).map fun c => deterministicVerdict c Score.one
  else none

/-- The best candidate has no defect of spacing. -/
def isDefectFree (c : Candidate) : Bool :=
  match c.spacing? with
  | some c => (spacingDefectCodes platform c).isEmpty
  | none => true

/-- The selection of the best candidate by its score. -/
def scoreVerdict (policy : AdjudicationPolicy) (candidates : List Candidate) : Option Verdict :=
  match candidates with
  | [] => none
  | best :: rest =>
    let runnerScore : ℚ := (rest.head?.map (·.score.val)).getD 0
    if policy.autoAcceptScore ≤ best.score ∧ policy.autoAcceptMargin.val ≤ best.score.val - runnerScore ∧
        isDefectFree platform best then
      some (deterministicVerdict best best.score)
    else none

/-- The selection that needs no provider. -/
def settledVerdict (policy : AdjudicationPolicy) (candidates : List Candidate) : Option Verdict :=
  (provenVerdict platform candidates).orElse fun _ => scoreVerdict platform policy candidates

end Deterministic

section Votes

variable (platform : Platform) (provider : Provider) (b : Ballot)

/-- The part of `decide` after two votes for different candidates. -/
def breakTie (first second : CandidateId) (attempts : List AdjudicationAttempt) (calls : ℕ) :
    PyResult (DecisionRecord × ℕ) := do
  let (tiebreak, calls) ← runVotePhase platform provider b .tiebreak attempts (attempts.length + 1) calls
  let attempts := attempts ++ tiebreak.attempts
  match tiebreak.choice with
  | none => return (← deferredCandidateRecord platform b attempts tiebreak.validationCodes, calls)
  | some choice =>
    match mostCommon [first, second, choice.candidateId] with
    | none => throw .indexError
    | some (majorityId, majorityCount) =>
      if ¬ b.isLow choice.confidence ∧ b.policy.consensusVotesRequired ≤ majorityCount ∧
          choice.candidateId = majorityId then
        return (← record platform b.scope
          { selectedCandidateId := some majorityId, outcome := .selected, source := .recovered,
            confidence := choice.confidence, validationCodes := ["LLM_LOW_CONFIDENCE_RECOVERED"],
            retryCount := tiebreak.retryCount, repairCount := tiebreak.repairCount, recoveryStatus := .recovered,
            attempts, consensusMethod := .twoOfThree, consensusCandidateId := some majorityId,
            recoveryCount := 2 }, calls)
      else return (← deferredCandidateRecord platform b attempts ["LLM_CONSENSUS_NOT_REACHED"], calls)

/-- The part of `decide` after a vote of low confidence. -/
def recoverVote (primary : VotePhaseResult) (first : CandidateChoice) (calls : ℕ) :
    PyResult (DecisionRecord × ℕ) := do
  let (recovery, calls) ← runVotePhase platform provider b .recovery primary.attempts (primary.attempts.length + 1) calls
  let attempts := primary.attempts ++ recovery.attempts
  match recovery.choice with
  | none => return (← deferredCandidateRecord platform b attempts recovery.validationCodes, calls)
  | some second =>
    if b.isLow second.confidence then
      return (← deferredCandidateRecord platform b attempts ["LLM_CONFIDENCE_RECOVERY_EXHAUSTED"], calls)
    else if second.candidateId ≠ first.candidateId then
      if b.policy.maxConfidenceRecoveryAttempts < 2 then
        return (← deferredCandidateRecord platform b attempts ["LLM_CONSENSUS_NOT_REACHED"], calls)
      else breakTie platform provider b first.candidateId second.candidateId attempts calls
    else
      return (← record platform b.scope
        { selectedCandidateId := some second.candidateId, outcome := .selected, source := .recovered,
          confidence := second.confidence, validationCodes := ["LLM_LOW_CONFIDENCE_RECOVERED"],
          retryCount := recovery.retryCount, repairCount := recovery.repairCount, recoveryStatus := .recovered,
          attempts, consensusMethod := .sameCandidate, consensusCandidateId := some second.candidateId,
          recoveryCount := 1 }, calls)

/-- The spacing candidate of a vote that is to be repaired. -/
def repairedCandidate (selected : Candidate) (choice : CandidateChoice) : Option SpacingCandidate :=
  selected.spacing?.filter fun c => b.isLow choice.confidence || !(spacingDefectCodes platform c).isEmpty

/-- The part of `decide` that asks the provider. -/
def decideByVotes (calls : ℕ) : PyResult (DecisionRecord × ℕ) := do
  -- the votes record the errors of the provider themselves
  let (primary, calls) ← runVotePhase platform provider b .primary [] 1 calls
  match primary.choice with
  | none => return (← deferredCandidateRecord platform b primary.attempts primary.validationCodes, calls)
  | some choice =>
    match b.candidates.find? fun c => c.candidateId = choice.candidateId with
    | none => throw .stopIteration
    | some selected =>
      match repairedCandidate platform b selected choice with
      | some anchor => runSpacingRepair platform provider b anchor primary calls
      | none =>
        if ¬ b.isLow choice.confidence then
          return (← record platform b.scope
            { selectedCandidateId := some choice.candidateId, outcome := .selected, source := .model,
              confidence := choice.confidence, retryCount := primary.retryCount, repairCount := primary.repairCount,
              attempts := primary.attempts }, calls)
        else if b.policy.maxConfidenceRecoveryAttempts < 1 then
          return (← deferredCandidateRecord platform b primary.attempts ["LLM_CONFIDENCE_TOO_LOW"], calls)
        else recoverVote platform provider b primary choice calls

end Votes

section Decide

variable (platform : Platform)

/-- The candidates of a set that are offered, the best one first. -/
def rankedCandidates (policy : AdjudicationPolicy) (candidateSet : CandidateSet) : List Candidate :=
  (sortBy (fun c => toLex (-c.score.val, c.candidateId.value)) candidateSet.candidates).take policy.maxCandidates

namespace CandidateAdjudicator

variable (adjudicator : CandidateAdjudicator)

/-- What the adjudicator votes on for a candidate set. -/
def ballot (candidateSet : CandidateSet) (evidenceHash : Option Sha256) : Ballot :=
  let (provider, model) := providerIdentity adjudicator.provider
  let evidenceHash := evidenceHash.getD (canonicalHash platform candidateSet.json)
  { candidateSet
    candidates := rankedCandidates adjudicator.policy candidateSet
    policy := adjudicator.policy
    scope :=
      { requestHash := requestHashOf platform candidateSet evidenceHash provider model adjudicator.policy
        sourceHash := candidateSet.sourceHash
        evidenceHash
        candidateSetId := candidateSet.candidateSetId
        regionId := candidateSet.regionId
        decisionType := candidateSet.decisionType.text.toList
        provider
        model } }

/-- `CandidateAdjudicator.decide`, without a page crop; it returns the number of calls of the provider so far. -/
def decide (candidateSet : CandidateSet) (evidenceHash : Option Sha256) (calls : ℕ) :
    PyResult (DecisionRecord × ℕ) := do
  let b := adjudicator.ballot platform candidateSet evidenceHash
  raiseIf (b.candidates = []) (.valueError "ADJUDICATION_CANDIDATES_EMPTY")
  match settledVerdict platform b.policy b.candidates with
  | some verdict => return (← record platform b.scope verdict, calls)
  | none =>
    match ← findTrusted platform b adjudicator.trusted with
    | some trusted => return (cachedRecord platform trusted, calls)
    | none =>
      match adjudicator.provider with
      | none => return (← deferredCandidateRecord platform b [] ["LLM_PROVIDER_UNAVAILABLE"], calls)
      | some provider => decideByVotes platform provider b calls

end CandidateAdjudicator

end Decide

end ArdOssie
