import ArdOssie.Adapters.GitHubSettings

/-!
# Repository bootstrap

The bootstrap brings the labels, the permissions of the actions, two environments, the variables and the secret of the
provider and the protection of the main branch to a desired state.  It plans from what it reads, changes what differs,
and plans once more.  The review protection is a second step that asks for one review.
-/

namespace ArdOssie

namespace Bootstrap

open GitHubCli

/-! ### The desired state -/

/-- `_LABELS` -/
def labels : List LabelState :=
  [("ard:submission", "1d76db", "Public AI Ready Data submission"),
    ("ard:approved", "0e8a16", "Maintainer approved public ingestion"),
    ("ard:processing", "fbca04", "ARD ingestion and conversion in progress"),
    ("ard:failed", "d93f0b", "ARD ingestion or conversion failed"),
    ("ard:pr-created", "5319e7", "Draft product PR created")].map fun l => ⟨l.1.toList, l.2.1.toList, l.2.2.toList⟩

/-- `_ACTIONS` -/
def actions : ActionsPermissionState := ⟨"read".toList, true⟩

/-- `_PROTECTION` -/
def protection : BranchProtectionState where
  requiredStatuses := ["ard/changeset".toList, "ard/quality-gate".toList]
  strict := true
  enforceAdmins := true
  requiredApprovingReviewCount := 0
  requireConversationResolution := true
  allowForcePushes := false
  allowDeletions := false
  requirePullRequest := true

/-- `_SECRET_NAME` -/
def secretName : Text := "ARD_LLM_API_KEY".toList

def main : Text := "main".toList

def llmName : Text := "ard-llm".toList

def productionName : Text := "production-linkage".toList

/-- The environment with a name whose deployments from main the owner reviews. -/
def ownerEnvironment (name : Text) (owner : EnvironmentReviewer) : EnvironmentState := ⟨name, [owner], false, 0, [main]⟩

/-- `_llm_environment` -/
def llmEnvironment (owner : EnvironmentReviewer) : EnvironmentState := ownerEnvironment llmName owner

/-- `_production_environment` -/
def productionEnvironment (owner : EnvironmentReviewer) : EnvironmentState := ownerEnvironment productionName owner

/-- The review count that the bootstrap keeps. -/
def reviewCount (current : Option BranchProtectionState) : ℕ :=
  match current with
  | some state => if state.requiredApprovingReviewCount ∈ [0, 1] then state.requiredApprovingReviewCount else 0
  | none => 0

/-- `_bootstrap_protection` -/
def bootstrapProtection (current : Option BranchProtectionState) : BranchProtectionState :=
  { protection with requiredApprovingReviewCount := reviewCount current }

structure BootstrapConfig where
  profile : Text
  baseUrl : Text
  azureEndpoint : Option Text
  gcpProjectId : Option Text
  maxAttachmentBytes : ℕ

/-- `BootstrapConfig.variables` -/
def BootstrapConfig.providerVariables (config : BootstrapConfig) : List (Text × Text) :=
  [("ARD_LLM_PROFILE".toList, config.profile), ("ARD_LLM_BASE_URL".toList, config.baseUrl),
    ("ARD_MAX_ATTACHMENT_BYTES".toList, Text.decimal config.maxAttachmentBytes)] ++
    (config.azureEndpoint.toList.map fun endpoint => ("ARD_AZURE_OPENAI_ENDPOINT".toList, endpoint)) ++
    config.gcpProjectId.toList.map fun project => ("ARD_GCP_PROJECT_ID".toList, project)

/-! ### The plan -/

inductive BootstrapAction where
  | create
  | update
  | noop
  deriving DecidableEq

structure BootstrapItem where
  target : Text
  action : BootstrapAction
  deriving DecidableEq

structure BootstrapPlan where
  repository : Text
  ownerLogin : Text
  ownerId : ℕ
  config : BootstrapConfig
  secretPresent : Bool
  items : List BootstrapItem

/-- `_desired_action` -/
def desiredAction {α : Type} [DecidableEq α] (current : Option α) (desired : α) : BootstrapAction :=
  match current with
  | none => .create
  | some state => if state = desired then .noop else .update

/-- `_require_repository` -/
def requireRepository (repositoryName : Text) : GitHubSession RepositoryState := do
  let repository ← call .getRepository
  Session.ofResult (failIf (repository.fullName ≠ repositoryName ∨ repository.isPublic = false ∨
      repository.archived = true ∨ repository.defaultBranch ≠ main)
    ⟨.configuration, "REPOSITORY_MISMATCH", "bootstrap requires the exact public main repository".toList⟩)
  Session.ofResult (failIf (repository.permission ≠ "admin".toList)
    ⟨.configuration, "ADMIN_PERMISSION_REQUIRED", "bootstrap requires repository admin permission".toList⟩)
  pure repository

/-- The login in front of the slash. -/
def ownerLogin (repositoryName : Text) : Text := repositoryName.takeWhile (· ≠ '/')

/-- The drift of the environment of the provider. -/
def llmDrift (config : BootstrapConfig) (owner : EnvironmentReviewer) (current : Option EnvironmentState)
    (llmVariables : Text → Option Text) (secretNames : Text → Bool) : Prop :=
  current ≠ some (llmEnvironment owner) ∨ (∃ v ∈ config.providerVariables, llmVariables v.1 ≠ some v.2) ∨
    secretNames secretName = false

instance decidableLlmDrift (config : BootstrapConfig) (owner : EnvironmentReviewer) (current : Option EnvironmentState)
    (llmVariables : Text → Option Text) (secretNames : Text → Bool) :
    Decidable (llmDrift config owner current llmVariables secretNames) := by
  unfold llmDrift
  infer_instance

/-- The items of a plan, from what was read. -/
def planItems (config : BootstrapConfig) (owner : EnvironmentReviewer) (currentLabels : Text → Option LabelState)
    (currentActions : ActionsPermissionState) (currentLlm : Option EnvironmentState) (llmVariables : Text → Option Text)
    (secretNames : Text → Bool) (currentProduction : Option EnvironmentState)
    (currentProtection : Option BranchProtectionState) : List BootstrapItem :=
  (labels.map fun desired => ⟨"label:".toList ++ desired.name, desiredAction (currentLabels desired.name) desired⟩) ++
    [⟨"actions:workflow-permissions".toList, if currentActions = actions then .noop else .update⟩,
      ⟨"environment:ard-llm".toList, if currentLlm = none then .create
        else if llmDrift config owner currentLlm llmVariables secretNames then .update else .noop⟩,
      ⟨"environment:production-linkage".toList, desiredAction currentProduction (productionEnvironment owner)⟩,
      ⟨"branch:main".toList, desiredAction currentProtection (bootstrapProtection currentProtection)⟩]

/-- A read that is made only under a condition. -/
def readIf (p : Prop) [Decidable p] (c : SettingsCall) (default : c.Value) : GitHubSession c.Value :=
  if p then call c else pure default

/-- `GitHubBootstrapService.plan` -/
def plan (repositoryName : Text) (config : BootstrapConfig) : GitHubSession BootstrapPlan := do
  let repository ← requireRepository repositoryName
  let owner ← call (.getUser (ownerLogin repository.fullName))
  let currentLabels ← call .listLabels
  let currentActions ← call .getActions
  let currentLlm ← getEnvironment llmName
  let llmVariables ← readIf (currentLlm ≠ none) (.listVariables llmName) fun _ => none
  let secretNames ← readIf (currentLlm ≠ none) (.listSecretNames llmName) fun _ => false
  let currentProduction ← getEnvironment productionName
  let currentProtection ← call (.getProtection main)
  pure ⟨repository.fullName, owner.login, owner.id, config, secretNames secretName,
    planItems config owner currentLabels currentActions currentLlm llmVariables secretNames currentProduction
      currentProtection⟩

/-! ### The changes -/

/-- `mutations.append(…)` -/
def record (mutation : GitHubSession MutationRecord) : GitHubSession Unit := do
  let made ← mutation
  modify fun mutations => mutations ++ [made]

/-- A change that is made only under a condition. -/
def recordIf (p : Prop) [Decidable p] (mutation : GitHubSession MutationRecord) : GitHubSession Unit :=
  if p then record mutation else pure ()

/-- The loop over the labels. -/
def applyLabels (currentLabels : Text → Option LabelState) : List LabelState → GitHubSession Unit
  | [] => pure ()
  | desired :: rest => do
    recordIf (currentLabels desired.name ≠ some desired)
      (upsertLabel desired.name desired.color desired.description)
    applyLabels currentLabels rest

/-- The loop over the variables. -/
def applyVariables (currentVariables : Text → Option Text) : List (Text × Text) → GitHubSession Unit
  | [] => pure ()
  | (name, value) :: rest => do
    recordIf (currentVariables name ≠ some value) (setVariable name value llmName)
    applyVariables currentVariables rest

/-- An environment is changed when it differs. -/
def applyEnvironment (state : EnvironmentState) : GitHubSession Unit := do
  let current ← getEnvironment state.name
  recordIf (current ≠ some state) (upsertEnvironment state)

inductive SecretOutcome where
  | replaced
  | present
  | created
  deriving DecidableEq

structure BootstrapOutputs where
  repository : Text
  items : List BootstrapItem
  secret : SecretOutcome

structure BootstrapResult where
  status : WorkflowStatus
  outputs : BootstrapOutputs
  mutations : List MutationRecord

/-- What a run of the bootstrap is asked to apply; a provider of the key is given by the key that it asks for. -/
structure BootstrapRun where
  plan : BootstrapPlan
  apiKey : Option Text
  apiKeyProvider : Option Text
  replaceSecret : Bool

namespace BootstrapRun

/-- The key is set when it is needed. -/
def applySecret (run : BootstrapRun) (needsSecret : Bool) : GitHubSession Unit :=
  if needsSecret = true then do
    let key := (run.apiKey.or run.apiKeyProvider).getD []
    Session.ofResult (failIf (key = [])
      ⟨.configuration, "LLM_API_KEY_REQUIRED", "hidden LLM API key input was empty".toList⟩)
    record (setEnvironmentSecret llmName secretName key)
  else pure ()

/-- The protection of the main branch is changed when it differs. -/
def applyProtection : GitHubSession Unit := do
  let current ← call (.getProtection main)
  recordIf (current ≠ some (bootstrapProtection current)) (setBranchProtection main (bootstrapProtection current))

/-- The body of the `try` statement of `apply`. -/
def converge (run : BootstrapRun) (repositoryName : Text) (owner : EnvironmentReviewer) (needsSecret : Bool) :
    GitHubSession Unit := do
  let currentLabels ← call .listLabels
  applyLabels currentLabels labels
  let currentActions ← call .getActions
  recordIf (currentActions ≠ actions) (setActionsPermissions repositoryName actions)
  applyEnvironment (llmEnvironment owner)
  let currentVariables ← call (.listVariables llmName)
  applyVariables currentVariables (sortBy toLex run.plan.config.providerVariables)
  applyEnvironment (productionEnvironment owner)
  run.applySecret needsSecret
  applyProtection
  let postcondition ← Bootstrap.plan repositoryName run.plan.config
  Session.ofResult (failIf ((postcondition.items.filter fun item => item.action ≠ .noop) ≠ [])
    ⟨.partialFailure, "BOOTSTRAP_POSTCONDITION_FAILED",
      "repository bootstrap did not reach the desired state".toList⟩)

/-- The `except` clauses of `apply`. -/
def asPartial (error : WorkflowError) : GitHubSession Unit := do
  let mutations ← get
  throw (if error.exitCode = .partialFailure ∨ mutations = [] then error
    else ⟨.partialFailure, "BOOTSTRAP_PARTIAL", "repository bootstrap did not converge".toList⟩)

/-- `GitHubBootstrapService.apply` -/
def apply (run : BootstrapRun) (repositoryName : Text) : GitHubSession BootstrapResult := do
  Session.ofResult (failIf (run.plan.repository ≠ repositoryName)
    (.security "BOOTSTRAP_PLAN_REPOSITORY_MISMATCH" "bootstrap plan targets another repository".toList))
  let current ← Bootstrap.plan repositoryName run.plan.config
  let needsSecret := !current.secretPresent || run.replaceSecret
  Session.ofResult (failIf (needsSecret = true ∧ run.apiKey = none ∧ run.apiKeyProvider = none)
    ⟨.configuration, "LLM_API_KEY_REQUIRED", "bootstrap requires a hidden LLM API key input".toList⟩)
  tryCatch (run.converge repositoryName ⟨"User".toList, current.ownerId, current.ownerLogin⟩ needsSecret) asPartial
  let mutations ← get
  let secret : SecretOutcome := if run.replaceSecret = true then .replaced
    else if current.secretPresent = true then .present else .created
  let status : WorkflowStatus := if ∃ m ∈ mutations, m.action ≠ "noop" then .success else .noop
  pure ⟨status, ⟨current.repository, current.items, secret⟩, mutations⟩

end BootstrapRun

/-! ### Review protection -/

/-- The logins that may review, in order. -/
def eligibleReviewers (fold : Text → Text) (owner : Text) (collaborators : List CollaboratorState) : List Text :=
  sortBy id ((collaborators.filter fun c => fold c.login ≠ fold owner ∧
    fold c.permission ∈ ["write".toList, "maintain".toList, "admin".toList]).map (·.login))

structure ReviewProtectionResult where
  status : WorkflowStatus
  eligibleReviewers : List Text

/-- `GitHubBootstrapService.enable_review_protection` -/
def enableReviewProtection (fold : Text → Text) (repositoryName : Text) : GitHubSession ReviewProtectionResult := do
  let repository ← requireRepository repositoryName
  let collaborators ← call .listCollaborators
  let eligible := eligibleReviewers fold (ownerLogin repository.fullName) collaborators
  Session.ofResult (failIf (eligible = [])
    ⟨.configuration, "ELIGIBLE_REVIEWER_NOT_FOUND",
      "a non-owner writer is required before enabling reviews".toList⟩)
  match ← call (.getProtection main) with
  | none => throw ⟨.configuration, "BRANCH_PROTECTION_REQUIRED", "bootstrap branch protection must exist first".toList⟩
  | some current => do
    Session.ofResult (failIf (current.requiredApprovingReviewCount ∉ [0, 1] ∨
        { current with requiredApprovingReviewCount := 0 } ≠ protection)
      ⟨.configuration, "BRANCH_PROTECTION_DRIFT", "review transition requires the bootstrap protection contract".toList⟩)
    if current.requiredApprovingReviewCount = 1 then pure ⟨.noop, eligible⟩
    else do
      record (setBranchProtection main { current with requiredApprovingReviewCount := 1 })
      pure ⟨.success, eligible⟩

end Bootstrap

end ArdOssie
