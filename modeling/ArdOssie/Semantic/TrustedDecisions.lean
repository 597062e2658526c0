import ArdOssie.Semantic.Adjudication

/-!
# Trusted decisions

A record of an earlier decision may be reused when it answers the same request and its attempts are the ones that the
same request would have led to.  A record without the texts of its generated candidate is completed first.
-/

namespace ArdOssie

section Materialize

variable (platform : Platform)

/-- The candidate of a snapshot, when its texts are those of the candidates of the set. -/
def materializeSnapshot (candidateSet : CandidateSet) (s : GeneratedSpacingSnapshot) : Option SpacingCandidate :=
  if candidateSet.decisionType ≠ .spacing ∨ s.regionId ≠ candidateSet.regionId then none
  else
    match candidateSet.spacingCandidates with
    | [] => none
    | first :: rest =>
      let characterSequence := first.characterSequence
      let renderedText := renderBoundaries characterSequence s.boundaries
      if (∃ c ∈ rest, c.characterSequence ≠ characterSequence) ∨
          textHash characterSequence ≠ s.characterSequenceHash ∨ textHash renderedText ≠ s.renderedTextHash then none
      else
        -- an atom that is no identifier is refused by the validators of the candidate and of its boundaries
        match s.atomIds.mapM (Identifier.parse "atom_") with
        | none => none
        | some atomIds =>
          match makeSpacingCandidate platform s.regionId renderedText characterSequence atomIds
              (s.boundaries.map (·.sourceWhitespaceAtomIds)) s.score s.features s.mutableBoundaryIndexes with
          | .error _ => none
          | .ok c => if c.candidateId = s.candidateId then some c else none

/-- The record with another generated candidate. -/
def DecisionRecord.withGenerated (decision : DecisionRecord) (g : GeneratedCandidate) : DecisionRecord :=
  { decision with
    generatedCandidate := some g
    verdict_valid := ⟨decision.verdict_valid.codes, decision.verdict_valid.retryCount_le,
      decision.verdict_valid.repairCount_le, decision.verdict_valid.attempts_le,
      decision.verdict_valid.recoveryCount_le⟩ }

/-- `_materialize_generated_candidate` -/
def materializeGeneratedCandidate (decision : DecisionRecord) (candidateSet : CandidateSet) : Option DecisionRecord :=
  match decision.generatedCandidate with
  | some (.snapshot s) =>
    (materializeSnapshot platform candidateSet s).map fun c => decision.withGenerated (.candidate c)
  | _ => some decision

end Materialize

/-! ### The requests of the attempts -/

section Requests

variable (platform : Platform) (b : Ballot)

/-- The votes of one phase answer the requests of this phase. -/
def voteHashesMatch (phase : AttemptPhase) (messages : List Json) : Option String → List AdjudicationAttempt → Bool
  | _, [] => true
  | correction, a :: rest =>
    a.requestHash = attemptRequestHash platform b.scope.requestHash phase
      (activeMessages platform messages correction) a.attemptIndex &&
    voteHashesMatch phase messages (if a.status = .candidateUnknown then a.validationCodes.getLast? else none) rest

/-- The votes of one phase follow the `prior` ones in the attempts; the attempts after them remain. -/
def votePhaseMatches (attempts : List AdjudicationAttempt) (phase : AttemptPhase)
    (prior remaining : List AdjudicationAttempt) : Option (List AdjudicationAttempt × List AdjudicationAttempt) :=
  let phaseAttempts := attempts.filter fun a => a.phase = phase
  if phaseAttempts = [] then some (prior, remaining)
  else if remaining.take phaseAttempts.length ≠ phaseAttempts then none
  else if voteHashesMatch platform b phase (voteMessages platform b.candidateSet b.candidates phase prior) none
      phaseAttempts then
    some (prior ++ phaseAttempts, remaining.drop phaseAttempts.length)
  else none

/-- The spacing candidate that the last vote of the first phase names. -/
def repairAnchor (prior : List AdjudicationAttempt) : Option SpacingCandidate := do
  let vote ← prior.reverse.find? fun a => a.phase = .primary && a.candidateId.isSome
  b.spacingCandidates.find? fun c => some c.candidateId = vote.candidateId

/-- The attempts after the votes answer the requests of a spacing repair. -/
def repairHashesMatch (generatedCandidate : Option GeneratedCandidate) (prior : List AdjudicationAttempt) :
    List AdjudicationAttempt → PyResult Bool
  | [] => return true
  | generation :: rest =>
    if b.candidateSet.decisionType ≠ .spacing ∨ ∃ c ∈ b.candidates, c.spacing?.isNone then return false
    else
      match repairAnchor b prior with
      | none => return false
      | some anchor =>
        if generation.phase ≠ .generation then return false
        else do
          let messages ← spacingGenerationMessages platform b.candidateSet b.spacingCandidates anchor
          if generation.requestHash ≠
              attemptRequestHash platform b.scope.requestHash .generation messages generation.attemptIndex then
            return false
          else
            match rest, generatedCandidate with
            | [], _ => return true
            | [verification], some (.candidate generated) =>
              if verification.phase ≠ .verification then return false
              else do
                let messages ← spacingVerificationMessages platform b.candidateSet b.spacingCandidates generated
                return decide (verification.requestHash =
                  attemptRequestHash platform b.scope.requestHash .verification messages verification.attemptIndex)
            | _, _ => return false

/-- The votes of the three phases in their order. -/
def votesMatch (attempts : List AdjudicationAttempt) :
    Option (List AdjudicationAttempt × List AdjudicationAttempt) := do
  let (prior, remaining) ← votePhaseMatches platform b attempts .primary [] attempts
  let (prior, remaining) ← votePhaseMatches platform b attempts .recovery prior remaining
  votePhaseMatches platform b attempts .tiebreak prior remaining

/-- `_attempt_request_hashes_match` -/
def attemptRequestHashesMatch (decision : DecisionRecord) : PyResult Bool :=
  if decision.attempts = [] then return true
  else if decision.attempts.map (·.attemptIndex) ≠ List.range' 1 decision.attempts.length then return false
  else
    match votesMatch platform b decision.attempts with
    | none => return false
    | some (prior, remaining) => repairHashesMatch platform b decision.generatedCandidate prior remaining

end Requests

/-! ### The audit of the attempts -/

section Audit

variable (b : Ballot)

/-- The attempts are of the first phase, and all but the last one named an unknown candidate. -/
def primaryAttemptsValid (attempts : List AdjudicationAttempt) : Bool :=
  attempts.all (fun a => a.phase = .primary) && attempts.dropLast.all fun a => a.status = .candidateUnknown

/-- The counts of a record are those of its attempts. -/
def countsMatch (decision : DecisionRecord) : Bool :=
  decision.retryCount = attemptRetries decision.attempts && decision.repairCount = attemptRepairs decision.attempts

/-- The identifier is allowlisted. -/
def Ballot.allows (candidateId : Option CandidateId) : Bool := candidateId.any (· ∈ b.allowlist)

/-- `_generated_audit_matches` -/
def generatedAuditMatches (decision : DecisionRecord) : Bool :=
  match decision.generatedCandidate, decision.attempts.reverse with
  | some (.candidate generated), verification :: generation :: primary :: earlier =>
    decide (decision.source = .generated ∨ decision.source = .cache) &&
    primaryAttemptsValid (primary :: earlier).reverse && b.allows primary.candidateId &&
    decide (primary.status = b.voteStatus primary.confidence) &&
    decide (primary.validationCodes = b.voteCodes primary.confidence) &&
    decide (generation.phase = .generation ∧ verification.phase = .verification) &&
    decide (generation.status = .accepted ∧ verification.status = .accepted) &&
    decide (generation.candidateId = some generated.candidateId) &&
    decide (verification.candidateId = some generated.candidateId) &&
    !b.isLow generation.confidence && !b.isLow verification.confidence &&
    decide (generation.validationCodes = [] ∧ verification.validationCodes = []) &&
    decide (decision.confidence = min generation.confidence verification.confidence) &&
    decide (decision.validationCodes = ["LLM_SPACING_REPAIR_APPLIED"]) && countsMatch decision
  | _, _ => false

/-- `_primary_audit_matches` -/
def primaryAuditMatches (decision : DecisionRecord) : Bool :=
  match decision.attempts.getLast? with
  | none => false
  | some terminal =>
    decide (decision.source = .model ∨ decision.source = .cache) && primaryAttemptsValid decision.attempts &&
    decide (terminal.status = .accepted) && b.allows terminal.candidateId &&
    decide (terminal.candidateId = decision.selectedCandidateId) && !b.isLow terminal.confidence &&
    decide (terminal.confidence = decision.confidence) && decide (terminal.validationCodes = []) &&
    decide (decision.validationCodes = []) && countsMatch decision

/-- The vote of one phase: its last attempt, all before it having named an unknown candidate. -/
def phaseVote (attempts : List AdjudicationAttempt) (phase : AttemptPhase) : Option AdjudicationAttempt :=
  let phaseAttempts := attempts.filter fun a => a.phase = phase
  match phaseAttempts.filter fun a => a.status = .accepted ∨ a.status = .lowConfidence with
  | [vote] =>
    if phaseAttempts.getLast? = some vote ∧ (∀ a ∈ phaseAttempts.dropLast, a.status = .candidateUnknown) ∧
        b.allows vote.candidateId ∧ vote.status = b.voteStatus vote.confidence then
      some vote
    else none
  | _ => none

/-- `Counter(values).most_common(1)[0]` -/
def mostCommon {α : Type} [DecidableEq α] (values : List α) : Option (α × ℕ) :=
  maxBy Prod.snd (values.eraseDups.map fun v => (v, values.count v))

/-- The expected phases of a recovered record. -/
def expectedPhases : ConsensusMethod → List AttemptPhase
  | .sameCandidate => [.primary, .recovery]
  | _ => [.primary, .recovery, .tiebreak]

/-- The last vote of a recovered record, when its votes lead to the consensus that it states. -/
def consensusVote (decision : DecisionRecord) : Option AdjudicationAttempt := do
  let primary ← phaseVote b decision.attempts .primary
  let recovery ← phaseVote b decision.attempts .recovery
  if primary.status ≠ .lowConfidence ∨ recovery.status ≠ .accepted then none
  else if decision.consensusMethod = .sameCandidate then
    if primary.candidateId = recovery.candidateId ∧ decision.recoveryCount = 1 then some recovery else none
  else
    let tiebreak ← phaseVote b decision.attempts .tiebreak
    let majority ← mostCommon [primary.candidateId, recovery.candidateId, tiebreak.candidateId]
    if primary.candidateId ≠ recovery.candidateId ∧ tiebreak.status = .accepted ∧ decision.recoveryCount = 2 ∧
        b.policy.consensusVotesRequired ≤ majority.2 ∧ tiebreak.candidateId = majority.1 then
      some tiebreak
    else none

/-- `_recovery_audit_matches` -/
def recoveryAuditMatches (decision : DecisionRecord) : Bool :=
  decide (decision.attempts.map (·.attemptIndex) = List.range' 1 decision.attempts.length) &&
  decide (decision.attempts.map (·.requestHash)).Nodup &&
  decide ((decision.attempts.map (·.phase)).eraseDups = expectedPhases decision.consensusMethod) &&
  match consensusVote b decision with
  | none => false
  | some terminal =>
    decide (terminal.candidateId = decision.consensusCandidateId) &&
    decide (terminal.confidence = decision.confidence) &&
    decide (decision.validationCodes = ["LLM_LOW_CONFIDENCE_RECOVERED"]) && countsMatch decision

end Audit

/-! ### Reuse -/

section Reuse

variable (platform : Platform) (b : Ballot)

/-- `_decision_identity_matches` -/
def decisionIdentityMatches (decision : DecisionRecord) : Bool :=
  decision.decisionId = decisionIdOf platform decision.toDecisionScope decision.toVerdict

/-- A generated candidate that every candidate of the set shares its scope with. -/
def generatedIsCurrent (decision : DecisionRecord) : Bool :=
  match decision.generatedCandidate with
  | some (.candidate generated) =>
    decide (some generated.candidateId = decision.selectedCandidateId) &&
    decide (generated.regionId = b.candidateSet.regionId) && decide (b.candidateSet.decisionType = .spacing) &&
    (b.candidateSet.candidates.all fun c => c.spacing?.any fun c =>
      c.characterSequence = generated.characterSequence &&
        c.mutableBoundaryIndexes = generated.mutableBoundaryIndexes) &&
    (spacingDefectCodes platform generated).isEmpty
  | _ => false

/-- The record answers the request. -/
def answersRequest (decision : DecisionRecord) : Bool :=
  decide (decision.requestHash = b.scope.requestHash ∧ decision.sourceHash = b.scope.sourceHash ∧
    decision.evidenceHash = b.scope.evidenceHash ∧ decision.candidateSetId = b.scope.candidateSetId ∧
    decision.regionId = b.scope.regionId ∧ decision.provider = b.scope.provider ∧ decision.model = b.scope.model ∧
    decision.outcome = .selected) &&
  (b.allows decision.selectedCandidateId || generatedIsCurrent platform b decision)

/-- The attempts of the record lead to its verdict. -/
def auditMatches (decision : DecisionRecord) : Bool :=
  (match decision.recoveryStatus with
  | .generated => generatedAuditMatches b decision
  | .recovered =>
    decide (decision.consensusMethod = .sameCandidate ∨ decision.consensusMethod = .twoOfThree) &&
    decide (decision.consensusCandidateId = decision.selectedCandidateId) && b.allows decision.consensusCandidateId &&
    !decision.attempts.isEmpty && recoveryAuditMatches b decision
  | _ => decide (decision.consensusMethod = .none) && decide (decision.recoveryCount = 0) &&
      primaryAuditMatches b decision) &&
  decisionIdentityMatches platform decision

/-- `_trusted_decision_matches` -/
def trustedDecisionMatches (decision : DecisionRecord) : PyResult Bool :=
  if !answersRequest platform b decision then return false
  else do
    if !(← attemptRequestHashesMatch platform b decision) then return false
    else return auditMatches platform b decision

/-- The first trusted record that may be reused. -/
def findTrusted : List DecisionRecord → PyResult (Option DecisionRecord)
  | [] => return none
  | item :: rest =>
    match materializeGeneratedCandidate platform item b.candidateSet with
    | none => findTrusted rest
    | some current => do
      if ← trustedDecisionMatches platform b current then return some current
      else findTrusted rest

/-- `_cached_record` -/
def cachedRecord (trusted : DecisionRecord) : DecisionRecord :=
  { trusted with
    source := .cache
    decisionId := decisionIdOf platform trusted.toDecisionScope { trusted.toVerdict with source := .cache }
    verdict_valid := ⟨trusted.verdict_valid.codes, trusted.verdict_valid.retryCount_le,
      trusted.verdict_valid.repairCount_le, trusted.verdict_valid.attempts_le,
      trusted.verdict_valid.recoveryCount_le⟩ }

end Reuse

end ArdOssie
