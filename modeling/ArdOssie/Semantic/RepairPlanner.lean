import ArdOssie.Semantic.Repair

/-!
# The repair planner

`repair` runs the planner on the unresolved spans of a document.  The `i`-th call of the provider in a run has the
answer `provider i`, a response or the code of a provider error.
-/

namespace ArdOssie

/-- The answers of a provider, in the order of the calls. -/
abbrev RepairProvider := ℕ → Except String RepairResponse

/-- `SemanticStructureRepairPlanner` -/
structure RepairPlanner where
  provider : RepairProvider
  /-- What `capabilities()` gives for the provider and the model. -/
  capabilities : Except String (Option Text × Option Text)
  confidenceThreshold : ℚ
  propagateProviderErrors : Bool
  threshold_mem : 0 ≤ confidenceThreshold ∧ confidenceThreshold ≤ 1

/-- The text that stands for a missing name. -/
def unknownName : Text := "unknown".toList

/-- `_provider_identity` -/
def RepairPlanner.identity (planner : RepairPlanner) : Text × Text :=
  match planner.capabilities with
  | .error _ => (unknownName, unknownName)
  | .ok (provider, model) =>
    let name := fun t : Option Text => if t.getD [] = [] then unknownName else t.getD []
    (name provider, name model)

structure RepairApplication (platform : Platform) where
  blocks : List SemanticBlock
  record : RepairRecord platform

section Applications

variable (platform : Platform) (context : RepairContext) (identity : Text × Text)

/-- The fields of a record for a context. -/
def recordFields (outcome : RepairOutcome) (plan : Option RepairPlan) (providerErrorCode : Option String)
    (validationCodes : List String) (appliedOrders rejectedOrders : List ℕ) : RepairRecordFields where
  sourceHash := context.native.sourceHash
  orderedSpanHashes := context.orderedSpanHashes
  parserVersion := semanticParserVersion
  promptVersion := repairPromptVersion
  schemaHash := canonicalHash platform repairSchema
  provider := identity.1
  model := identity.2
  outcome := outcome
  plan := plan
  providerErrorCode := providerErrorCode
  validationCodes := validationCodes
  appliedOrders := appliedOrders
  rejectedOrders := rejectedOrders
  planHash := plan.map (·.hash platform)

/-- `_application` -/
def application (validated : ValidatedPlan) (outcome : RepairOutcome) (validationCodes : List String) :
    PyResult (RepairApplication platform) := do
  let record ← RepairRecord.make platform (recordFields platform context identity outcome (some validated.plan) none
    validationCodes (validated.plan.blocks.map (·.order)) [])
  return ⟨validated.blocks, record⟩

/-- `_empty_application` -/
def emptyApplication (outcome : RepairOutcome) (validationCodes : List String) (providerErrorCode : Option String)
    (plan : Option RepairPlan) : PyResult (RepairApplication platform) := do
  let rejectedOrders := ((plan.map fun p => p.blocks.map (·.order)).getD []).eraseDups
  let record ← RepairRecord.make platform (recordFields platform context identity outcome plan providerErrorCode
    validationCodes [] rejectedOrders)
  return ⟨[], record⟩

end Applications

section Repair

variable (platform : Platform) (planner : RepairPlanner) (context : RepairContext)

/-- The reaction to a provider error: raise it again, or give the repair up. -/
def providerFailed (validationCodes : List String) (plan : Option RepairPlan) (code : String) :
    PyResult (RepairApplication platform) :=
  if planner.propagateProviderErrors then throw (.providerError code)
  else emptyApplication platform context planner.identity .degraded validationCodes (some code) plan

/-- `_reuse_trusted_plan` -/
def reuseTrustedPlan (trusted : Option (RepairRecord platform)) : PyResult (Option ValidatedPlan) :=
  match trusted with
  | none => return none
  | some record =>
    match record.plan with
    | none => return none
    | some plan => do
      if record.sourceHash ≠ context.native.sourceHash ∨ record.orderedSpanHashes ≠ context.orderedSpanHashes ∨
          record.parserVersion ≠ semanticParserVersion ∨ record.promptVersion ≠ repairPromptVersion ∨
          record.schemaHash ≠ canonicalHash platform repairSchema then return none
      if record.planHash ≠ some (plan.hash platform) then return none
      let check ← validatePlan platform planner.confidenceThreshold context (.conforming plan.blocks)
      return check.validated

/-- The part of `repair` for a single evidence batch: at most two calls. -/
def repairSingleBatch : PyResult (RepairApplication platform) :=
  match planner.provider 0 with
  | .error code => providerFailed platform planner context [] none code
  | .ok response => do
    let first ← validatePlan platform planner.confidenceThreshold context response
    match first.validated with
    | some validated => application platform context planner.identity validated .applied []
    | none =>
      let firstCode := first.code.getD "SEMANTIC_REPAIR_SCHEMA_INVALID"
      match planner.provider 1 with
      | .error code => providerFailed platform planner context [firstCode] first.plan code
      | .ok retry => do
        let second ← validatePlan platform planner.confidenceThreshold context retry
        match second.validated with
        | some validated => application platform context planner.identity validated .applied [firstCode]
        | none =>
          emptyApplication platform context planner.identity .rejected
            [firstCode, second.code.getD "SEMANTIC_REPAIR_SCHEMA_INVALID"] none second.plan

/-- What the batches have given so far. -/
structure BatchState where
  validated : Dict ℕ ValidatedPlan
  failed : List (ℕ × RepairBatch)
  validationCodes : List String

/-- The first round: one call for each batch. -/
def firstRound : List (RepairBatch × ℕ) → BatchState → PyResult (RepairApplication platform ⊕ BatchState)
  | [], s => return .inr s
  | (batch, index) :: rest, s =>
    match planner.provider index with
    | .error code => do return .inl (← providerFailed platform planner context s.validationCodes none code)
    | .ok response => do
      let check ← validatePlan platform planner.confidenceThreshold batch.context response
      match check.validated with
      | some validated => firstRound rest { s with validated := s.validated.insert index validated }
      | none =>
        firstRound rest { s with
          failed := s.failed ++ [(index, batch)]
          validationCodes := s.validationCodes ++ [check.code.getD "SEMANTIC_REPAIR_SCHEMA_INVALID"] }

/-- The second round: one more call for each failed batch; `call` is the number of the next call. -/
def secondRound : List (ℕ × RepairBatch) → ℕ → BatchState → PyResult (RepairApplication platform ⊕ BatchState)
  | [], _, s => return .inr s
  | (index, batch) :: rest, call, s =>
    match planner.provider call with
    | .error code => do return .inl (← providerFailed platform planner context s.validationCodes none code)
    | .ok retry => do
      let check ← validatePlan platform planner.confidenceThreshold batch.context retry
      match check.validated with
      | some validated => secondRound rest (call + 1) { s with validated := s.validated.insert index validated }
      | none =>
        secondRound rest (call + 1) { s with
          validationCodes := s.validationCodes ++ [check.code.getD "SEMANTIC_REPAIR_SCHEMA_INVALID"] }

/-- The end of `_repair_evidence_batches`: merge the plans of the batches and validate the merged plan. -/
def mergeAndValidate (validated : List ValidatedPlan) (validationCodes : List String) :
    PyResult (RepairApplication platform) := do
  let merged ← mergeBatchPlans context validated
  let check ← validatePlan platform planner.confidenceThreshold context (.conforming merged.blocks)
  match check.validated with
  | some validated => application platform context planner.identity validated .applied validationCodes
  | none =>
    emptyApplication platform context planner.identity .rejected
      (validationCodes ++ [check.code.getD "SEMANTIC_REPAIR_SCHEMA_INVALID"]) none check.plan

/-- `_repair_evidence_batches` -/
def repairEvidenceBatches (batches : List RepairBatch) : PyResult (RepairApplication platform) := do
  match ← firstRound platform planner context batches.zipIdx ⟨∅, [], []⟩ with
  | .inl result => return result
  | .inr s =>
    match ← secondRound platform planner context s.failed batches.length s with
    | .inl result => return result
    | .inr s =>
      if s.validated.keys.length ≠ batches.length then
        emptyApplication platform context planner.identity .rejected s.validationCodes none none
      else do
        let validated ← (List.range batches.length).mapM (Dict.getItem s.validated)
        mergeAndValidate platform planner context validated s.validationCodes

/-- `repair` -/
def repair (native : NativeDocument) (skeleton : StructureDocument) (unresolved : List SpanId)
    (trusted : Option (RepairRecord platform)) : PyResult (RepairApplication platform) :=
  match repairContext native unresolved with
  | (context, some code) =>
    emptyApplication platform context planner.identity .rejected [code] none none
  | (context, none) => do
    match ← reuseTrustedPlan platform planner context trusted, trusted with
    | some validated, some record =>
      application platform context (record.provider, record.model) validated .reused []
    | _, _ =>
      if context.orderedSpanIds = [] then
        application platform context planner.identity ⟨⟨[], by simp, by simp [planAllocations]⟩, []⟩ .applied []
      else do
        let batches ← evidenceBatches context skeleton
        if 1 < batches.length then repairEvidenceBatches platform planner context batches
        else repairSingleBatch platform planner context

end Repair

end ArdOssie
