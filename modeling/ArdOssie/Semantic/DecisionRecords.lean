import ArdOssie.Llm.Service
import ArdOssie.Semantic.Candidates

/-!
# Decision records

The record of a decision over a candidate set: what was selected and why, every attempt that a provider was asked
for, and the hash that identifies the record.
-/

namespace ArdOssie

abbrev DecisionId := Identifier "decision_"

structure AdjudicationPolicy where
  autoAcceptScore : Score
  autoAcceptMargin : Score
  minimumModelConfidence : Score
  maxCandidates : ℕ
  maxSchemaAttempts : ℕ
  maxConfidenceRecoveryAttempts : ℕ
  consensusVotesRequired : ℕ
  maxCandidates_mem : 1 ≤ maxCandidates ∧ maxCandidates ≤ 5
  maxSchemaAttempts_mem : 1 ≤ maxSchemaAttempts ∧ maxSchemaAttempts ≤ 2
  maxConfidenceRecoveryAttempts_le : maxConfidenceRecoveryAttempts ≤ 2
  consensusVotesRequired_eq : consensusVotesRequired = 2

/-- `AdjudicationPolicy()` -/
def AdjudicationPolicy.default : AdjudicationPolicy :=
  ⟨⟨82 / 100, Score.percent82_mem⟩, ⟨12 / 100, by norm_num⟩, ⟨80 / 100, by norm_num⟩, 5, 2, 2, 2, by decide, by decide,
    by decide, rfl⟩

inductive AttemptPhase where
  | primary
  | recovery
  | tiebreak
  | generation
  | verification
  deriving DecidableEq, Repr

def AttemptPhase.text : AttemptPhase → String
  | primary => "primary"
  | recovery => "recovery"
  | tiebreak => "tiebreak"
  | generation => "generation"
  | verification => "verification"

inductive AttemptStatus where
  | accepted
  | lowConfidence
  | candidateUnknown
  | providerRejected
  | validationRejected
  deriving DecidableEq, Repr

def AttemptStatus.text : AttemptStatus → String
  | accepted => "accepted"
  | lowConfidence => "low_confidence"
  | candidateUnknown => "candidate_unknown"
  | providerRejected => "provider_rejected"
  | validationRejected => "validation_rejected"

/-- `tuple[ValidationCode, ...] = Field(max_length=4)` -/
def CodesValid (codes : List String) : Prop := codes.length ≤ 4 ∧ ∀ code ∈ codes, isErrorCode code

instance (codes : List String) : Decidable (CodesValid codes) := inferInstanceAs (Decidable (_ ∧ _))

/-- The fields of an attempt. -/
structure AttemptFields where
  attemptIndex : ℕ
  phase : AttemptPhase
  requestHash : Sha256
  candidateId : Option CandidateId := none
  confidence : Score := Score.zero
  status : AttemptStatus
  validationCodes : List String := []
  providerRetryCount : ℕ := 0
  providerRepairCount : ℕ := 0
  deriving DecidableEq

/-- The constraints on the fields of an attempt. -/
def AttemptFields.Valid (f : AttemptFields) : Prop :=
  (1 ≤ f.attemptIndex ∧ f.attemptIndex ≤ 6) ∧ CodesValid f.validationCodes ∧
    f.providerRetryCount ≤ 2 ∧ f.providerRepairCount ≤ 2

instance (f : AttemptFields) : Decidable f.Valid := inferInstanceAs (Decidable (_ ∧ _ ∧ _))

structure AdjudicationAttempt extends AttemptFields where
  valid : toAttemptFields.Valid
  deriving DecidableEq

/-- `AdjudicationAttempt(...)` -/
def AdjudicationAttempt.make (f : AttemptFields) : PyResult AdjudicationAttempt :=
  if h : f.Valid then .ok ⟨f, h⟩ else .error (.validationError [])

/-- `attempt.model_dump(mode="json")` -/
def AdjudicationAttempt.json (a : AdjudicationAttempt) : Json :=
  .record [("attempt_index", .nat a.attemptIndex), ("phase", .lit a.phase.text),
    ("request_hash", .str a.requestHash.hexdigest), ("candidate_id", .opt Identifier.json a.candidateId),
    ("confidence", a.confidence.json), ("status", .lit a.status.text),
    ("validation_codes", .arr (a.validationCodes.map .lit)), ("provider_retry_count", .nat a.providerRetryCount),
    ("provider_repair_count", .nat a.providerRepairCount)]

/-- A generated candidate without its texts. -/
structure GeneratedSpacingSnapshot where
  candidateId : CandidateId
  regionId : RegionId
  atomIds : List Text
  boundaries : List SpacingBoundary
  mutableBoundaryIndexes : Option (List ℤ)
  score : Score
  features : Dict Text ℚ
  renderedTextHash : Sha256
  characterSequenceHash : Sha256
  atomIds_ne : atomIds ≠ []

inductive GeneratedCandidate where
  | candidate (c : SpacingCandidate)
  | snapshot (s : GeneratedSpacingSnapshot)

inductive DecisionOutcome where
  | selected
  | reviewRequired
  | deferredReview
  deriving DecidableEq, Repr

def DecisionOutcome.text : DecisionOutcome → String
  | selected => "selected"
  | reviewRequired => "review_required"
  | deferredReview => "deferred_review"

inductive DecisionSource where
  | deterministic
  | model
  | recovered
  | cache
  | unavailable
  | provider
  | generated
  | fallback
  deriving DecidableEq, Repr

def DecisionSource.text : DecisionSource → String
  | deterministic => "deterministic"
  | model => "model"
  | recovered => "recovered"
  | cache => "cache"
  | unavailable => "unavailable"
  | provider => "provider"
  | generated => "generated"
  | fallback => "fallback"

inductive RecoveryStatus where
  | notNeeded
  | recovered
  | reviewRequired
  | generated
  | deferredReview
  deriving DecidableEq, Repr

def RecoveryStatus.text : RecoveryStatus → String
  | notNeeded => "not_needed"
  | recovered => "recovered"
  | reviewRequired => "review_required"
  | generated => "generated"
  | deferredReview => "deferred_review"

inductive ConsensusMethod where
  | none
  | sameCandidate
  | twoOfThree
  deriving DecidableEq, Repr

def ConsensusMethod.text : ConsensusMethod → String
  | none => "none"
  | sameCandidate => "same_candidate"
  | twoOfThree => "two_of_three"

/-- The part of a record that a decision reaches. -/
structure Verdict where
  selectedCandidateId : Option CandidateId
  outcome : DecisionOutcome
  source : DecisionSource
  confidence : Score
  validationCodes : List String := []
  retryCount : ℕ := 0
  repairCount : ℕ := 0
  recoveryStatus : RecoveryStatus := .notNeeded
  attempts : List AdjudicationAttempt := []
  consensusMethod : ConsensusMethod := .none
  consensusCandidateId : Option CandidateId := none
  recoveryCount : ℕ := 0
  generatedCandidate : Option GeneratedCandidate := none

/-- The constraints on the fields of a verdict. -/
structure Verdict.Valid (v : Verdict) : Prop where
  codes : CodesValid v.validationCodes
  retryCount_le : v.retryCount ≤ 12
  repairCount_le : v.repairCount ≤ 12
  attempts_le : v.attempts.length ≤ 6
  recoveryCount_le : v.recoveryCount ≤ 2

/-- The request that a decision answers, with the identity of the provider. -/
structure DecisionScope where
  requestHash : Sha256
  sourceHash : Sha256
  evidenceHash : Sha256
  candidateSetId : CandidateSetId
  regionId : RegionId
  decisionType : Text
  provider : Text
  model : Text

/-- The constraints on the texts of a record. -/
structure DecisionScope.Valid (s : DecisionScope) : Prop where
  decisionType_mem : 1 ≤ s.decisionType.length ∧ s.decisionType.length ≤ 40
  provider_mem : 1 ≤ s.provider.length ∧ s.provider.length ≤ 100
  model_mem : 1 ≤ s.model.length ∧ s.model.length ≤ 200

instance (v : Verdict) : Decidable v.Valid :=
  decidable_of_iff (CodesValid v.validationCodes ∧ v.retryCount ≤ 12 ∧ v.repairCount ≤ 12 ∧ v.attempts.length ≤ 6 ∧
    v.recoveryCount ≤ 2) ⟨fun ⟨h, h', h₁, h₂, h₃⟩ => ⟨h, h', h₁, h₂, h₃⟩, fun ⟨h, h', h₁, h₂, h₃⟩ => ⟨h, h', h₁, h₂, h₃⟩⟩

instance (s : DecisionScope) : Decidable s.Valid :=
  decidable_of_iff ((1 ≤ s.decisionType.length ∧ s.decisionType.length ≤ 40) ∧
    (1 ≤ s.provider.length ∧ s.provider.length ≤ 100) ∧ (1 ≤ s.model.length ∧ s.model.length ≤ 200))
    ⟨fun ⟨h, h', h₁⟩ => ⟨h, h', h₁⟩, fun ⟨h, h', h₁⟩ => ⟨h, h', h₁⟩⟩

structure DecisionRecord extends DecisionScope, Verdict where
  decisionId : DecisionId
  scope_valid : toDecisionScope.Valid
  verdict_valid : toVerdict.Valid

section Identity

variable (platform : Platform)

/-- `_text_hash` -/
def textHash (t : Text) : Sha256 := sha256 t

/-- The atoms, hashes and boundaries that identify a generated candidate. -/
def generatedIdentityJson (candidateId : CandidateId) (regionId : RegionId) (atomIds : List Text)
    (boundaries : List SpacingBoundary) (mutableBoundaryIndexes : Option (List ℤ)) (score : Score)
    (features : Dict Text ℚ) (renderedTextHash characterSequenceHash : Sha256) : Json :=
  .record [("candidate_id", candidateId.json), ("region_id", regionId.json), ("atom_ids", .arr (atomIds.map .str)),
    ("boundaries", .arr (boundaries.map (·.json))),
    ("mutable_boundary_indexes", .opt indexesJson mutableBoundaryIndexes), ("score", score.json),
    ("features", featuresJson features), ("rendered_text_hash", .str renderedTextHash.hexdigest),
    ("character_sequence_hash", .str characterSequenceHash.hexdigest)]

/-- `_generated_candidate_identity_payload` -/
def generatedCandidateIdentityPayload : GeneratedCandidate → Json
  | .candidate c => generatedIdentityJson c.candidateId c.regionId (c.atomIds.map (·.text)) c.boundaries
      c.mutableBoundaryIndexes c.score c.features (textHash c.renderedText) (textHash c.characterSequence)
  | .snapshot s => generatedIdentityJson s.candidateId s.regionId s.atomIds s.boundaries s.mutableBoundaryIndexes
      s.score s.features s.renderedTextHash s.characterSequenceHash

/-- `_decision_id` -/
def decisionIdOf (scope : DecisionScope) (v : Verdict) : DecisionId :=
  ⟨(canonicalHash platform (.record
    [("request_hash", .str scope.requestHash.hexdigest),
      ("selected_candidate_id", .opt Identifier.json v.selectedCandidateId), ("outcome", .lit v.outcome.text),
      ("source", .lit v.source.text), ("validation_codes", .arr (v.validationCodes.map .lit)),
      ("confidence", v.confidence.json), ("provider", .str scope.provider), ("model", .str scope.model),
      ("retry_count", .nat v.retryCount), ("repair_count", .nat v.repairCount),
      ("attempts", .arr (v.attempts.map (·.json))), ("recovery_status", .lit v.recoveryStatus.text),
      ("consensus_method", .lit v.consensusMethod.text),
      ("consensus_candidate_id", .opt Identifier.json v.consensusCandidateId),
      ("recovery_count", .nat v.recoveryCount),
      ("generated_candidate", .opt generatedCandidateIdentityPayload v.generatedCandidate)])).prefix16⟩

/-- The retries of a list of attempts. -/
def attemptRetries (attempts : List AdjudicationAttempt) : ℕ := (attempts.map (·.providerRetryCount)).sum

/-- The repairs of a list of attempts. -/
def attemptRepairs (attempts : List AdjudicationAttempt) : ℕ := (attempts.map (·.providerRepairCount)).sum

/-- The verdict with the counts of its attempts, when it has any. -/
def Verdict.counted (v : Verdict) : Verdict :=
  if v.attempts = [] then v
  else { v with retryCount := attemptRetries v.attempts, repairCount := attemptRepairs v.attempts }

/-- `_record` -/
def record (scope : DecisionScope) (v : Verdict) : PyResult DecisionRecord :=
  if h : scope.Valid ∧ v.counted.Valid then
    .ok { toDecisionScope := scope, toVerdict := v.counted, decisionId := decisionIdOf platform scope v.counted,
          scope_valid := h.1, verdict_valid := h.2 }
  else .error (.validationError [])

end Identity

/-- `GeneratedSpacingSnapshot(...)` of a candidate. -/
def SpacingCandidate.snapshot (c : SpacingCandidate) : GeneratedSpacingSnapshot where
  candidateId := c.candidateId
  regionId := c.regionId
  atomIds := c.atomIds.map (·.text)
  boundaries := c.boundaries
  mutableBoundaryIndexes := c.mutableBoundaryIndexes
  score := c.score
  features := c.features
  renderedTextHash := textHash c.renderedText
  characterSequenceHash := textHash c.characterSequence
  atomIds_ne := by
    have h := (SpacingFields.validate_eq_ok.1 c.valid).1.2
    simpa using h

/-- `diagnostic_decision_record`: the record without the texts of its generated candidate. -/
def diagnosticDecisionRecord (decision : DecisionRecord) : DecisionRecord :=
  match decision.generatedCandidate with
  | some (.candidate c) =>
    { decision with
      generatedCandidate := some (.snapshot c.snapshot)
      verdict_valid := ⟨decision.verdict_valid.codes, decision.verdict_valid.retryCount_le,
        decision.verdict_valid.repairCount_le, decision.verdict_valid.attempts_le,
        decision.verdict_valid.recoveryCount_le⟩ }
  | _ => decision

end ArdOssie
