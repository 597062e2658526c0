import ArdOssie.Semantic.DecisionRecords
import ArdOssie.Semantic.RepairModels
import ArdOssie.Semantic.SpacingRepair

/-!
# Adjudication

`decide` selects a candidate of a set: by the scores alone, from a trusted record of an earlier decision, or by asking
a provider.  A vote of low confidence is repeated; for a set of spacing candidates the provider is then asked to
propose a new rendering and to verify it.  The functions that may ask the provider take and return the number of its
calls so far.
-/

namespace ArdOssie

structure CandidateChoice where
  candidateId : CandidateId
  confidence : Score

structure SpacingRepairProposal where
  renderedText : Text
  confidence : Score

structure SpacingVerification where
  candidateId : CandidateId
  confidence : Score
  validationCodes : List String
  validationCodes_valid : CodesValid validationCodes

/-- A provider: its identity, and its answers to each of the three requests by the number of the call. -/
structure Provider where
  name : Text
  model : Text
  choice : ℕ → ProviderAnswer CandidateChoice
  proposal : ℕ → ProviderAnswer SpacingRepairProposal
  verification : ℕ → ProviderAnswer SpacingVerification

structure CandidateAdjudicator where
  provider : Option Provider
  policy : AdjudicationPolicy
  trusted : List DecisionRecord

/-- `str(error)`; of the text of a validation error only the beginning is modelled. -/
def PyError.text : PyError → String
  | .valueError code => code
  | .validationError _ => "1 validation error for SpacingCandidate"
  | .providerError code => code
  | _ => ""

/-- `isinstance(error, ValueError)` -/
def PyError.isValueError : PyError → Bool
  | .valueError _ => true
  | .validationError _ => true
  | _ => false

/-! ### Requests -/

section Requests

variable (platform : Platform)

/-- `PROMPT_VERSION` -/
def promptVersion : String := "semantic-candidate-adjudication-v2"

/-- `candidate_choice_schema` -/
def candidateChoiceSchema : Json :=
  .record [("type", .lit "object"),
    ("properties", .record
      [("candidate_id", .record [("type", .lit "string"), ("pattern", .lit "^candidate_[0-9a-f]{16}$")]),
        ("confidence", .record [("type", .lit "number"), ("minimum", .nat 0), ("maximum", .nat 1)])]),
    ("required", .arr [.lit "candidate_id", .lit "confidence"]), ("additionalProperties", .bool false)]

/-- `policy.model_dump(mode="json")` -/
def AdjudicationPolicy.json (p : AdjudicationPolicy) : Json :=
  .record [("auto_accept_score", p.autoAcceptScore.json), ("auto_accept_margin", p.autoAcceptMargin.json),
    ("minimum_model_confidence", p.minimumModelConfidence.json), ("max_candidates", .nat p.maxCandidates),
    ("max_schema_attempts", .nat p.maxSchemaAttempts),
    ("max_confidence_recovery_attempts", .nat p.maxConfidenceRecoveryAttempts),
    ("consensus_votes_required", .nat p.consensusVotesRequired)]

/-- `_provider_identity` -/
def providerIdentity : Option Provider → Text × Text
  | none => ("none".toList, "none".toList)
  | some provider => (provider.name, provider.model)

/-- `_request_hash`, without a page crop. -/
def requestHashOf (candidateSet : CandidateSet) (evidenceHash : Sha256) (provider model : Text)
    (policy : AdjudicationPolicy) : Sha256 :=
  canonicalHash platform (.record
    [("source_hash", .str candidateSet.sourceHash.hexdigest), ("evidence_hash", .str evidenceHash.hexdigest),
      ("region_id", candidateSet.regionId.json), ("candidate_set_id", candidateSet.candidateSetId.json),
      ("prompt_hash", .str (canonicalHash platform (.lit promptVersion)).hexdigest),
      ("schema_hash", .str (canonicalHash platform candidateChoiceSchema).hexdigest),
      ("provider", .str provider), ("model", .str model), ("policy", policy.json), ("page_crop_hash", .null)])

/-- `_attempt_request_hash` -/
def attemptRequestHash (baseRequestHash : Sha256) (phase : AttemptPhase) (messages : List Json) (attemptIndex : ℕ) :
    Sha256 :=
  canonicalHash platform (.record
    [("base_request_hash", .str baseRequestHash.hexdigest), ("phase", .lit phase.text),
      ("attempt_index", .nat attemptIndex),
      ("messages_hash", .str (canonicalHash platform (.arr messages)).hexdigest)])

/-- The fields of a table candidate in the summary. -/
def tableSummary (t : TableCandidate) : List (String × Json) :=
  [("row_count", .nat t.rowCount), ("column_count", .nat t.columnCount),
    ("cells", .arr (t.cells.map fun cell => .record
      [("row", .arr [.nat cell.region.startRow, .nat cell.region.endRow]),
        ("column", .arr [.nat cell.region.startColumn, .nat cell.region.endColumn]),
        ("column_header", .bool cell.columnHeader), ("has_text", .bool (!cell.atomIds.isEmpty))])),
    ("cell_renderings", .arr ((t.cells.filterMap fun cell =>
      match cell.renderedText with
      | some (c :: text) => some (.record [("cell_id", cell.cellId.json), ("rendering", .str ((c :: text).take 96))])
      | _ => none).take 32))]

def BlockKind.text : BlockKind → String
  | heading => "heading"
  | paragraph => "paragraph"
  | listItem => "list_item"
  | table => "table"
  | caption => "caption"
  | figure => "figure"

/-- `_candidate_summary` -/
def candidateSummary (candidate : Candidate) : Json :=
  .record <| [("candidate_id", candidate.candidateId.json), ("score", candidate.score.json),
    ("features", featuresJson candidate.header.features)] ++
    match candidate with
    | .spacing c => [("rendering", .str c.renderedText)]
    | .recognition c => [("rendering", .str c.text), ("engine", .str c.engine)]
    | .block c => [("block_kind", .lit c.blockKind.text), ("heading_level", .opt .nat c.headingLevel),
        ("list_kind", .opt (fun k => .lit k.text) c.listKind), ("list_depth", .opt .nat c.listDepth)]
    | .readingOrder c => [("region_order", .arr (c.regionIds.map (·.json)))]
    | .continuation c => [("continue_previous", .bool c.continuePrevious)]
    | .table c => tableSummary c

/-- The additional rules of a repeated vote. -/
def recoveryRules : AttemptPhase → List (String × Json)
  | .recovery => [("recovery_rules", .arr
      [.lit "Reassess the exact differences among candidates independently.",
        .lit ("For spacing, consider Korean morphology, particles, compounds, " ++ "punctuation, and identifiers."),
        .lit "Do not raise confidence merely because this is a recovery request."])]
  | .tiebreak => [("recovery_rules", .arr
      [.lit "Prior valid votes disagree; make an independent selection.",
        .lit "Do not prefer a candidate because it appeared in a prior vote."])]
  | _ => []

/-- `_messages` -/
def voteMessages (candidateSet : CandidateSet) (candidates : List Candidate) (phase : AttemptPhase)
    (priorVotes : List AdjudicationAttempt) : List Json :=
  let instruction := Json.record <|
    [("task", .lit "Select exactly one allowlisted candidate ID."),
      ("decision_type", .lit candidateSet.decisionType.text), ("phase", .lit phase.text),
      ("rules", .arr [.lit "Do not transcribe or rewrite text.", .lit "Return only candidate_id and confidence."])] ++
      recoveryRules phase
  let request := Json.record
    [("phase", .lit phase.text), ("candidate_set_id", candidateSet.candidateSetId.json),
      ("region_id", candidateSet.regionId.json), ("candidates", .arr (candidates.map candidateSummary)),
      ("prior_votes", .arr ((priorVotes.filter fun a => a.candidateId.isSome).map fun a => .record
        [("phase", .lit a.phase.text), ("candidate_id", .opt Identifier.json a.candidateId),
          ("confidence", a.confidence.json), ("validation_codes", codesJson a.validationCodes)]))]
  [messageJson "system" (instruction.dumps platform), messageJson "user" (request.dumps platform)]

/-- `_corrective_messages` -/
def correctiveMessages (original : List Json) (code : String) : List Json :=
  messageJson "system" (Json.dumps platform (.record [("validation_code", .lit code),
    ("instruction", .lit "Choose only an ID present in the request allowlist.")])) :: original

/-- The messages of a vote, corrected when the vote before it named an unknown candidate. -/
def activeMessages (original : List Json) : Option String → List Json
  | none => original
  | some code => correctiveMessages platform original code

end Requests

/-! ### Votes -/

/-- `_VotePhaseResult` -/
structure VotePhaseResult where
  choice : Option CandidateChoice
  attempts : List AdjudicationAttempt
  validationCodes : List String
  retryCount : ℕ
  repairCount : ℕ

/-- What is fixed while the candidates of a set are voted on. -/
structure Ballot where
  candidateSet : CandidateSet
  candidates : List Candidate
  policy : AdjudicationPolicy
  scope : DecisionScope

/-- The identifiers that a vote may name. -/
def Ballot.allowlist (b : Ballot) : List CandidateId := b.candidates.map (·.candidateId)

/-- The spacing candidates that are voted on. -/
def Ballot.spacingCandidates (b : Ballot) : List SpacingCandidate := b.candidates.filterMap (·.spacing?)

/-- A confidence below the one that the policy asks for. -/
def Ballot.isLow (b : Ballot) (confidence : Score) : Bool := confidence < b.policy.minimumModelConfidence

/-- The status of a vote for an allowlisted candidate. -/
def Ballot.voteStatus (b : Ballot) (confidence : Score) : AttemptStatus :=
  if b.isLow confidence then .lowConfidence else .accepted

/-- The codes of a vote for an allowlisted candidate. -/
def Ballot.voteCodes (b : Ballot) (confidence : Score) : List String :=
  if b.isLow confidence then ["LLM_CONFIDENCE_TOO_LOW"] else []

section Votes

variable (platform : Platform) (provider : Provider) (b : Ballot)

/-- The votes of `_run_vote_phase` from one on; `codes` and `attempts` are those of the votes before. -/
def voteFrom (phase : AttemptPhase) (messages : List Json) :
    (remaining attemptIndex : ℕ) → (codes : List String) → (attempts : List AdjudicationAttempt) → (calls : ℕ) →
    PyResult (VotePhaseResult × ℕ)
  | 0, _, _, _, _ => throw .assertionError
  | remaining + 1, attemptIndex, codes, attempts, calls =>
    let attemptHash := attemptRequestHash platform b.scope.requestHash phase
      (activeMessages platform messages codes.getLast?) attemptIndex
    match generateStructured provider.choice calls with
    | (.error error, calls) => do
      let attempt ← AdjudicationAttempt.make
        { attemptIndex, phase, requestHash := attemptHash, status := .providerRejected, validationCodes := [error.code],
          providerRetryCount := error.retryCount, providerRepairCount := error.repairCount }
      return (⟨none, attempts ++ [attempt], [error.code], error.retryCount, error.repairCount⟩, calls)
    | (.ok result, calls) =>
      let choice := result.structured
      if choice.candidateId ∉ b.allowlist then do
        let attempt ← AdjudicationAttempt.make
          { attemptIndex, phase, requestHash := attemptHash, confidence := choice.confidence,
            status := .candidateUnknown, validationCodes := ["LLM_CANDIDATE_UNKNOWN"],
            providerRetryCount := result.retryCount, providerRepairCount := result.repairCount }
        let codes := codes ++ ["LLM_CANDIDATE_UNKNOWN"]
        if 0 < remaining then voteFrom phase messages remaining (attemptIndex + 1) codes (attempts ++ [attempt]) calls
        else return (⟨none, attempts ++ [attempt], codes, result.retryCount, result.repairCount⟩, calls)
      else do
        let attempt ← AdjudicationAttempt.make
          { attemptIndex, phase, requestHash := attemptHash, candidateId := some choice.candidateId,
            confidence := choice.confidence, status := b.voteStatus choice.confidence,
            validationCodes := b.voteCodes choice.confidence, providerRetryCount := result.retryCount,
            providerRepairCount := result.repairCount }
        return (⟨some choice, attempts ++ [attempt], b.voteCodes choice.confidence, result.retryCount,
          result.repairCount⟩, calls)

/-- `_run_vote_phase` -/
def runVotePhase (phase : AttemptPhase) (priorVotes : List AdjudicationAttempt) (startIndex calls : ℕ) :
    PyResult (VotePhaseResult × ℕ) :=
  voteFrom platform provider b phase (voteMessages platform b.candidateSet b.candidates phase priorVotes)
    b.policy.maxSchemaAttempts startIndex [] [] calls

end Votes

/-! ### Records without a selection -/

section Deferred

variable (platform : Platform)

/-- The candidate that stands in for a selection, with its score. -/
def fallbackCandidate (candidateSet : CandidateSet) : PyResult CandidateHeader :=
  if candidateSet.decisionType = .spacing then do
    return (← fallbackSpacingCandidate platform candidateSet).toCandidateHeader
  else
    match maxBy (fun c => toLex (c.score, c.candidateId.value)) candidateSet.candidates with
    | some c => return c.header
    | none => throw (.valueError "max() iterable argument is empty")

/-- The source of a record without any candidate. -/
def unselectedSource (provider : Text) (attempts : List AdjudicationAttempt) : DecisionSource :=
  if provider = "none".toList then .unavailable
  else if attempts.getLast?.any fun a => a.status = .providerRejected then .provider
  else .model

/-- The code of a deferred record. -/
def deferredCode (candidateSet : CandidateSet) : String :=
  if candidateSet.decisionType = .spacing then "LLM_SPACING_REPAIR_DEFERRED" else "LLM_CANDIDATE_SELECTION_DEFERRED"

/-- `_deferred_candidate_record` -/
def deferredCandidateRecord (b : Ballot) (attempts : List AdjudicationAttempt) (validationCodes : List String) :
    PyResult DecisionRecord :=
  match fallbackCandidate platform b.candidateSet with
  | .ok fallback =>
    record platform b.scope
      { selectedCandidateId := some fallback.candidateId, outcome := .deferredReview, source := .fallback,
        confidence := fallback.score,
        validationCodes := (validationCodes ++ [deferredCode b.candidateSet]).eraseDups,
        recoveryStatus := .deferredReview, attempts }
  | .error error =>
    if error.isValueError then
      record platform b.scope
        { selectedCandidateId := none, outcome := .reviewRequired, source := unselectedSource b.scope.provider attempts,
          confidence := Score.zero, validationCodes := (validationCodes ++ [error.text]).eraseDups,
          recoveryStatus := .reviewRequired, attempts }
    else throw error

end Deferred

/-! ### Spacing repair -/

section Spacing

variable (platform : Platform) (provider : Provider) (b : Ballot)

/-- The candidate of a proposal that has no defect. -/
def proposedCandidate (anchor : SpacingCandidate) (proposal : SpacingRepairProposal) : PyResult SpacingCandidate := do
  let generated ← buildGeneratedCandidate platform anchor proposal.renderedText proposal.confidence
  match spacingDefectCodes platform generated with
  | [] => return generated
  | code :: _ => throw (.valueError code)

/-- The codes of a verification, completed by the reasons for which it does not accept the generated candidate. -/
def verificationCodes (verification : SpacingVerification) (generated : SpacingCandidate) : List String :=
  let codes := verification.validationCodes.filter (· ≠ "VALID")
  let codes := if b.isLow verification.confidence ∧ "LLM_CONFIDENCE_TOO_LOW" ∉ codes then
    codes ++ ["LLM_CONFIDENCE_TOO_LOW"] else codes
  if verification.candidateId ≠ generated.candidateId ∧ codes.length < 4 then
    codes ++ ["LLM_GENERATED_CANDIDATE_REJECTED"]
  else codes

/-- The part of `_run_spacing_repair` after the proposal was accepted. -/
def verifySpacingRepair (primary : VotePhaseResult) (generation : AdjudicationAttempt) (proposal : SpacingRepairProposal)
    (generated : SpacingCandidate) (calls : ℕ) : PyResult (DecisionRecord × ℕ) := do
  let messages ← spacingVerificationMessages platform b.candidateSet b.spacingCandidates generated
  let attemptIndex := primary.attempts.length + 2
  let requestHash := attemptRequestHash platform b.scope.requestHash .verification messages attemptIndex
  match generateStructured provider.verification calls with
  | (.error error, calls) => do
    let attempt ← AdjudicationAttempt.make
      { attemptIndex, phase := .verification, requestHash, status := .providerRejected,
        validationCodes := [error.code], providerRetryCount := error.retryCount,
        providerRepairCount := error.repairCount }
    return (← deferredCandidateRecord platform b (primary.attempts ++ [generation, attempt]) [error.code], calls)
  | (.ok result, calls) => do
    let verification := result.structured
    let codes := verificationCodes b verification generated
    let accepted := !b.isLow proposal.confidence && !b.isLow verification.confidence &&
      decide (verification.candidateId = generated.candidateId) && codes.isEmpty
    let attempt ← AdjudicationAttempt.make
      { attemptIndex, phase := .verification, requestHash, candidateId := some verification.candidateId,
        confidence := verification.confidence,
        status := if accepted then .accepted else if b.isLow verification.confidence then .lowConfidence
          else .validationRejected
        validationCodes := codes, providerRetryCount := result.retryCount, providerRepairCount := result.repairCount }
    let attempts := primary.attempts ++ [generation, attempt]
    if accepted then
      return (← record platform b.scope
        { selectedCandidateId := some generated.candidateId, outcome := .selected, source := .generated,
          confidence := min proposal.confidence verification.confidence,
          validationCodes := ["LLM_SPACING_REPAIR_APPLIED"], recoveryStatus := .generated, attempts,
          generatedCandidate := some (.candidate generated) }, calls)
    else return (← deferredCandidateRecord platform b attempts [], calls)

/-- `_run_spacing_repair` -/
def runSpacingRepair (anchor : SpacingCandidate) (primary : VotePhaseResult) (calls : ℕ) :
    PyResult (DecisionRecord × ℕ) := do
  let messages ← spacingGenerationMessages platform b.candidateSet b.spacingCandidates anchor
  let attemptIndex := primary.attempts.length + 1
  let requestHash := attemptRequestHash platform b.scope.requestHash .generation messages attemptIndex
  match generateStructured provider.proposal calls with
  | (.error error, calls) => do
    let attempt ← AdjudicationAttempt.make
      { attemptIndex, phase := .generation, requestHash, status := .providerRejected,
        validationCodes := [error.code], providerRetryCount := error.retryCount,
        providerRepairCount := error.repairCount }
    return (← deferredCandidateRecord platform b (primary.attempts ++ [attempt]) [error.code], calls)
  | (.ok result, calls) =>
    let proposal := result.structured
    match proposedCandidate platform anchor proposal with
    | .error error =>
      if error.isValueError then do
        let attempt ← AdjudicationAttempt.make
          { attemptIndex, phase := .generation, requestHash, confidence := proposal.confidence,
            status := .validationRejected, validationCodes := [error.text],
            providerRetryCount := result.retryCount, providerRepairCount := result.repairCount }
        return (← deferredCandidateRecord platform b (primary.attempts ++ [attempt]) [], calls)
      else throw error
    | .ok generated => do
      let attempt ← AdjudicationAttempt.make
        { attemptIndex, phase := .generation, requestHash, candidateId := some generated.candidateId,
          confidence := proposal.confidence, status := b.voteStatus proposal.confidence,
          validationCodes := b.voteCodes proposal.confidence, providerRetryCount := result.retryCount,
          providerRepairCount := result.repairCount }
      verifySpacingRepair platform provider b primary attempt proposal generated calls

end Spacing

end ArdOssie
