import ArdOssie.Application.Contracts
import ArdOssie.Library.Guarantees
import ArdOssie.Library.KeyedList
import ArdOssie.Release.Publication

/-!
# The settings of a GitHub repository

The labels, the permissions of the actions, the environments and the branch protections of a repository, and the calls
with which the adapter reads and changes them.  A call may fail, before it took effect or after it.
-/

namespace ArdOssie

/-! ### What the adapter reads -/

structure LabelState where
  name : Text
  color : Text
  description : Text
  deriving DecidableEq

structure ActionsPermissionState where
  defaultWorkflowPermissions : Text
  canApprovePullRequestReviews : Bool
  deriving DecidableEq

structure EnvironmentReviewer where
  kind : Text
  id : ℕ
  login : Text
  deriving DecidableEq

structure EnvironmentState where
  name : Text
  reviewers : List EnvironmentReviewer
  preventSelfReview : Bool
  waitTimer : ℕ
  branchPatterns : List Text
  deriving DecidableEq

structure BranchProtectionState where
  requiredStatuses : List Text
  strict : Bool
  enforceAdmins : Bool
  requiredApprovingReviewCount : ℕ
  requireConversationResolution : Bool
  allowForcePushes : Bool
  allowDeletions : Bool
  requirePullRequest : Bool
  deriving DecidableEq

structure RepositoryState where
  fullName : Text
  isPublic : Bool
  archived : Bool
  defaultBranch : Text
  permission : Text
  deriving DecidableEq

structure CollaboratorState where
  login : Text
  permission : Text
  deriving DecidableEq

/-! ### The service -/

/-- The deployment policies of an environment: patterns with their ids.  A pattern for branches may also be one for
tags. -/
abbrev BranchPolicies := List (Text × ℕ)

/-- An environment of the repository, with its name as it was given; it has policies once its branches are restricted by
patterns. -/
structure EnvironmentSettings where
  name : Text
  reviewers : List (Text × ℕ)
  preventSelfReview : Bool
  waitTimer : ℕ
  policies : Option BranchPolicies

/-- What `GET …/environments/<name>` answers. -/
structure EnvironmentPayload where
  name : Text
  reviewers : List EnvironmentReviewer
  preventSelfReview : Bool
  waitTimer : ℕ
  customBranchPolicies : Bool

/-- What a protection asks of pull requests. -/
structure ReviewsPayload where
  dismissStaleReviews : Bool
  requireCodeOwnerReviews : Bool
  requiredApprovingReviewCount : ℕ

/-- A branch protection as GitHub keeps it; restrictions name who may push. -/
structure ProtectionPayload where
  allowDeletions : Bool
  allowForcePushes : Bool
  enforceAdmins : Bool
  requiredConversationResolution : Bool
  requiredPullRequestReviews : Option ReviewsPayload
  contexts : List Text
  strict : Bool
  restrictions : Option (List Text)

/-- The settings that calls change.  Labels and environments are found without regard to case: they stand under their
names in lower case, and the calls here give names in lower case. -/
structure RepositorySettings where
  labels : Text → Option LabelState
  actions : ActionsPermissionState
  environments : Text → Option EnvironmentSettings
  envVariables : Text → Text → Option Text
  secrets : Text → Text → Option Text
  protections : Text → Option ProtectionPayload

/-- What GitHub knows besides: the repository, its collaborators, the accounts, and which of them may review. -/
structure GitHubHost where
  repository : RepositoryState
  collaborators : List CollaboratorState
  userId : Text → ℕ
  login : Text → ℕ → Text
  accepts : Text × ℕ → Bool

namespace GitHubHost

variable (host : GitHubHost)

def reviewer (kind : Text) (id : ℕ) : EnvironmentReviewer := ⟨kind, id, host.login kind id⟩

/-- The account with a login. -/
def user (login : Text) : EnvironmentReviewer := host.reviewer "User".toList (host.userId login)

def payload (e : EnvironmentSettings) : EnvironmentPayload :=
  ⟨e.name, e.reviewers.map fun r => host.reviewer r.1 r.2, e.preventSelfReview, e.waitTimer, e.policies.isSome⟩

end GitHubHost

namespace BranchPolicies

def delete (policies : BranchPolicies) (policy : Text × ℕ) : BranchPolicies := policies.filter (· ≠ policy)

/-- A new policy; a pattern that is there keeps its policy. -/
def add (policies : BranchPolicies) (pattern : Text) (id : ℕ) : BranchPolicies :=
  if pattern ∈ policies.map Prod.fst then policies else policies ++ [(pattern, id)]

end BranchPolicies

/-- What the adapter reads of a protection. -/
def ProtectionPayload.state (p : ProtectionPayload) : BranchProtectionState where
  requiredStatuses := sortBy id p.contexts
  strict := p.strict
  enforceAdmins := p.enforceAdmins
  requiredApprovingReviewCount := p.requiredPullRequestReviews.elim 0 ReviewsPayload.requiredApprovingReviewCount
  requireConversationResolution := p.requiredConversationResolution
  allowForcePushes := p.allowForcePushes
  allowDeletions := p.allowDeletions
  requirePullRequest := p.requiredPullRequestReviews.isSome

/-- The protection that the adapter writes: it also dismisses stale reviews, does not ask for code owners and lets
everybody push. -/
def BranchProtectionState.payload (state : BranchProtectionState) : ProtectionPayload where
  allowDeletions := state.allowDeletions
  allowForcePushes := state.allowForcePushes
  enforceAdmins := state.enforceAdmins
  requiredConversationResolution := state.requireConversationResolution
  requiredPullRequestReviews :=
    if state.requirePullRequest = true then some ⟨true, false, state.requiredApprovingReviewCount⟩ else none
  contexts := sortBy id state.requiredStatuses
  strict := state.strict
  restrictions := none

namespace RepositorySettings

variable (w : RepositorySettings)

/-- The branch policies of an environment. -/
def policies (environment : Text) : Option BranchPolicies := (w.environments environment).bind (·.policies)

/-- What the adapter reads of the labels: each by its name as it was given. -/
def listedLabels (name : Text) : Option LabelState := (w.labels name).filter fun label => label.name = name

theorem listedLabels_eq_some {w : RepositorySettings} {label : LabelState} :
    w.listedLabels label.name = some label ↔ w.labels label.name = some label := by
  simp [listedLabels, Option.filter_eq_some_iff]

/-- What the adapter reads of the protection of a branch. -/
def protection (branch : Text) : Option BranchProtectionState := (w.protections branch).map ProtectionPayload.state

def setLabel (label : LabelState) : RepositorySettings :=
  { w with labels := Function.update w.labels label.name (some label) }

def setEnvironment (name : Text) (e : EnvironmentSettings) : RepositorySettings :=
  { w with environments := Function.update w.environments name (some e) }

/-- The branch policies of an environment change. -/
def changePolicies (name : Text) (change : BranchPolicies → BranchPolicies) : RepositorySettings :=
  { w with
    environments := Function.update w.environments name
      ((w.environments name).map fun e => { e with policies := e.policies.map change }) }

def setVariable (environment name value : Text) : RepositorySettings :=
  { w with
    envVariables := Function.update w.envVariables environment
      (Function.update (w.envVariables environment) name (some value)) }

def setSecret (environment name value : Text) : RepositorySettings :=
  { w with
    secrets := Function.update w.secrets environment (Function.update (w.secrets environment) name (some value)) }

def setProtection (branch : Text) (payload : ProtectionPayload) : RepositorySettings :=
  { w with protections := Function.update w.protections branch (some payload) }

end RepositorySettings

/-! ### Calls -/

inductive SettingsCall where
  | getRepository
  | getUser (login : Text)
  | listCollaborators
  | listLabels
  | createLabel (label : LabelState)
  | updateLabel (label : LabelState)
  | getActions
  | putActions (state : ActionsPermissionState)
  | getEnvironment (name : Text)
  | listBranchPolicies (environment : Text)
  | putEnvironment (name : Text) (reviewers : List (Text × ℕ)) (preventSelfReview : Bool) (waitTimer : ℕ)
  | deleteBranchPolicy (environment : Text) (policy : Text × ℕ)
  | createBranchPolicy (environment pattern : Text)
  | listVariables (environment : Text)
  | setVariable (environment name value : Text)
  | listSecretNames (environment : Text)
  | setSecret (environment name value : Text)
  | getProtection (branch : Text)
  | putProtection (branch : Text) (payload : ProtectionPayload)

namespace SettingsCall

/-- What a call returns if it does not fail. -/
abbrev Value : SettingsCall → Type
  | getRepository => RepositoryState
  | getUser _ => EnvironmentReviewer
  | listCollaborators => List CollaboratorState
  | listLabels => Text → Option LabelState
  | getActions => ActionsPermissionState
  | getEnvironment _ => Option EnvironmentPayload
  | listBranchPolicies _ => BranchPolicies
  | listVariables _ => Text → Option Text
  | listSecretNames _ => Text → Bool
  | getProtection _ => Option BranchProtectionState
  | _ => Unit

/-- The calls that change nothing. -/
def isRead : SettingsCall → Bool
  | getRepository | getUser _ | listCollaborators | listLabels | getActions | getEnvironment _ | listBranchPolicies _
  | listVariables _ | listSecretNames _ | getProtection _ => true
  | _ => false

/-- The calls that GitHub does not refuse: what they are about is there, a new label is new, reviewers may review. -/
def Possible (host : GitHubHost) : SettingsCall → RepositorySettings → Prop
  | createLabel label, w => w.labels label.name = none
  | updateLabel label, w => (w.labels label.name).isSome
  | listBranchPolicies environment, w | listVariables environment, w | setVariable environment _ _, w
  | listSecretNames environment, w | setSecret environment _ _, w => (w.environments environment).isSome
  | putEnvironment _ reviewers _ _, _ => ∀ r ∈ reviewers, host.accepts r = true
  | deleteBranchPolicy environment policy, w => ∃ policies ∈ w.policies environment, policy ∈ policies
  | createBranchPolicy environment _, w => (w.policies environment).isSome
  | _, _ => True

/-- The answer of a call that does not fail. -/
def answer (host : GitHubHost) (w : RepositorySettings) : (c : SettingsCall) → c.Value
  | getRepository => host.repository
  | getUser login => host.user login
  | listCollaborators => host.collaborators
  | listLabels => w.listedLabels
  | getActions => w.actions
  | getEnvironment name => (w.environments name).map host.payload
  | listBranchPolicies environment => (w.policies environment).getD []
  | listVariables environment => w.envVariables environment
  | listSecretNames environment => fun name => (w.secrets environment name).isSome
  | getProtection branch => w.protection branch
  | createLabel _ | updateLabel _ | putActions _ | putEnvironment .. | deleteBranchPolicy .. | createBranchPolicy ..
  | setVariable .. | setSecret .. | putProtection .. => ()

/-- The settings after a call that took effect; `id` is the id of a policy that it creates. -/
def after (id : ℕ) (w : RepositorySettings) : SettingsCall → RepositorySettings
  | createLabel label | updateLabel label => w.setLabel label
  | putActions state => { w with actions := state }
  | putEnvironment name reviewers preventSelfReview waitTimer =>
    w.setEnvironment name ⟨((w.environments name).map EnvironmentSettings.name).getD name, reviewers, preventSelfReview,
      waitTimer, some ((w.policies name).getD [])⟩
  | deleteBranchPolicy environment policy => w.changePolicies environment fun policies => policies.delete policy
  | createBranchPolicy environment pattern => w.changePolicies environment fun policies => policies.add pattern id
  | setVariable environment name value => w.setVariable environment name value
  | setSecret environment name value => w.setSecret environment name value
  | putProtection branch payload => w.setProtection branch payload
  | _ => w

theorem after_eq_of_isRead {c : SettingsCall} (h : c.isRead = true) (id : ℕ) (w : RepositorySettings) :
    c.after id w = w := by
  cases c <;> first | rfl | cases h

end SettingsCall

abbrev SettingsAnswer (c : SettingsCall) : Type := Except WorkflowError c.Value

/-- One call.  GitHub refuses what is not possible; where there are faults, a call may also fail without a reason,
before it took effect or after it. -/
inductive SettingsExec (host : GitHubHost) (faults : Prop) :
    (c : SettingsCall) → RepositorySettings → SettingsAnswer c → RepositorySettings → Prop where
  | answered (c : SettingsCall) (w : RepositorySettings) (id : ℕ) (h : c.Possible host w) :
      SettingsExec host faults c w (.ok (c.answer host w)) (c.after id w)
  | refused (c : SettingsCall) (w : RepositorySettings) (error : WorkflowError) (h : ¬ c.Possible host w) :
      SettingsExec host faults c w (.error error) w
  | failed (c : SettingsCall) (w : RepositorySettings) (error : WorkflowError) (h : faults) :
      SettingsExec host faults c w (.error error) w
  | lost (c : SettingsCall) (w : RepositorySettings) (id : ℕ) (error : WorkflowError) (h : faults)
      (hc : c.Possible host w) : SettingsExec host faults c w (.error error) (c.after id w)

namespace SettingsExec

variable {host : GitHubHost} {faults : Prop} {c : SettingsCall} {w w' : RepositorySettings}

theorem ok_cases {v : c.Value} (h : SettingsExec host faults c w (.ok v) w') :
    c.Possible host w ∧ v = c.answer host w ∧ ∃ id, w' = c.after id w := by
  cases h with
  | answered id h => exact ⟨h, rfl, id, rfl⟩

/-- The settings after a call are those before it, or the call took effect. -/
theorem world_cases {r : SettingsAnswer c} (h : SettingsExec host faults c w r w') :
    w' = w ∨ c.Possible host w ∧ ∃ id, w' = c.after id w := by
  cases h with
  | answered id h => exact Or.inr ⟨h, id, rfl⟩
  | refused error h => exact Or.inl rfl
  | failed error h => exact Or.inl rfl
  | lost id error h hc => exact Or.inr ⟨hc, id, rfl⟩

/-- Without faults only what is not possible fails. -/
theorem error_cases {error : WorkflowError} (h : SettingsExec host faults c w (.error error) w') :
    faults ∨ ¬ c.Possible host w := by
  cases h with
  | refused _ h => exact Or.inr h
  | failed _ h => exact Or.inl h
  | lost id _ h hc => exact Or.inl h

theorem read_world {r : SettingsAnswer c} (h : SettingsExec host faults c w r w') (hread : c.isRead = true) :
    w' = w := by
  rcases h.world_cases with h | ⟨-, id, h⟩
  · exact h
  · rw [h, SettingsCall.after_eq_of_isRead hread]

/-- What happens without faults may happen with faults. -/
theorem withFaults {r : SettingsAnswer c} (h : SettingsExec host False c w r w') : SettingsExec host True c w r w' := by
  cases h with
  | answered id h => exact .answered c w id h
  | refused error h => exact .refused c w error h
  | failed error h => exact h.elim
  | lost id error h hc => exact h.elim

theorem total (host : GitHubHost) (faults : Prop) (c : SettingsCall) (w : RepositorySettings) :
    ∃ r w', SettingsExec host faults c w r w' := by
  by_cases h : c.Possible host w
  · exact ⟨_, _, .answered c w 0 h⟩
  · exact ⟨_, _, .refused c w (.transient "GITHUB_API_FAILED" []) h⟩

end SettingsExec

/-! ### The adapter -/

/-- A session keeps the mutations that it made. -/
abbrev GitHubSession := Session SettingsAnswer (List MutationRecord) WorkflowError

namespace GitHubCli

def call (c : SettingsCall) : GitHubSession c.Value := Session.ask c

/-- `upsert_label` -/
def upsertLabel (name color description : Text) : GitHubSession MutationRecord := do
  let desired : LabelState := ⟨name, color, description⟩
  let labels ← call .listLabels
  if labels name = some desired then
    pure ⟨"label", name, "noop", none⟩
  else if labels name = none then do
    call (.createLabel desired)
    pure ⟨"label", name, "create", none⟩
  else do
    call (.updateLabel desired)
    pure ⟨"label", name, "update", none⟩

/-- `set_actions_permissions` -/
def setActionsPermissions (repository : Text) (state : ActionsPermissionState) : GitHubSession MutationRecord := do
  call (.putActions state)
  pure ⟨"actions_permissions", repository, "set", none⟩

/-- `policy_ids` -/
abbrev PolicyIds := KeyedList (Prod.fst : Text × ℕ → Text)

/-- Of the policies with one pattern the last one counts. -/
def policyIds (policies : BranchPolicies) : PolicyIds := KeyedList.ofList Prod.fst policies

/-- The state that the adapter makes of an environment and its policies. -/
def environmentState (payload : EnvironmentPayload) (policies : PolicyIds) : EnvironmentState :=
  ⟨payload.name, sortBy (fun r => toLex (r.kind, r.id)) payload.reviewers, payload.preventSelfReview, payload.waitTimer,
    sortBy id (policies.items.map Prod.fst)⟩

/-- `_environment_with_policy_ids` -/
def environmentWithPolicyIds (name : Text) : GitHubSession (Option EnvironmentState × PolicyIds) := do
  match ← call (.getEnvironment name) with
  | none => pure (none, .empty _)
  | some payload => do
    let policies ← if payload.customBranchPolicies then call (.listBranchPolicies name) else pure []
    pure (some (environmentState payload (policyIds policies)), policyIds policies)

/-- `get_environment` -/
def getEnvironment (name : Text) : GitHubSession (Option EnvironmentState) := do
  let found ← environmentWithPolicyIds name
  pure found.1

/-- The policies whose patterns are not wanted are deleted. -/
def deletePolicies (name : Text) (desired : List Text) : List (Text × ℕ) → GitHubSession Unit
  | [] => pure ()
  | policy :: policies =>
    if policy.1 ∈ desired then deletePolicies name desired policies
    else do
      call (.deleteBranchPolicy name policy)
      deletePolicies name desired policies

def createPolicies (name : Text) : List Text → GitHubSession Unit
  | [] => pure ()
  | pattern :: patterns => do
    call (.createBranchPolicy name pattern)
    createPolicies name patterns

/-- `upsert_environment` -/
def upsertEnvironment (state : EnvironmentState) : GitHubSession MutationRecord := do
  let found ← environmentWithPolicyIds state.name
  if found.1 = some state then
    pure ⟨"environment", "environment:".toList ++ state.name, "noop", none⟩
  else do
    call (.putEnvironment state.name (state.reviewers.map fun r => (r.kind, r.id)) state.preventSelfReview
      state.waitTimer)
    deletePolicies state.name state.branchPatterns (sortBy toLex found.2.items)
    createPolicies state.name
      (sortBy id (state.branchPatterns.dedup.filter fun pattern => pattern ∉ found.2.items.map Prod.fst))
    pure ⟨"environment", "environment:".toList ++ state.name, "upsert", none⟩

/-- `set_variable` -/
def setVariable (name value environment : Text) : GitHubSession MutationRecord := do
  call (.setVariable environment name value)
  pure ⟨"variable", environment ++ ':' :: name, "set", none⟩

/-- `set_environment_secret` -/
def setEnvironmentSecret (environment name value : Text) : GitHubSession MutationRecord := do
  call (.setSecret environment name value)
  pure ⟨"environment_secret", environment ++ ':' :: name, "set", none⟩

/-- `set_branch_protection` -/
def setBranchProtection (branch : Text) (state : BranchProtectionState) : GitHubSession MutationRecord := do
  call (.putProtection branch state.payload)
  pure ⟨"branch_protection", "branch:".toList ++ branch, "set", none⟩

end GitHubCli

end ArdOssie
