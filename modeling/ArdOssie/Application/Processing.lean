import ArdOssie.Library.Guarantees
import ArdOssie.Release.Publication

/-!
# Processing a pull request

Processing checks the head of a tracking pull request, runs the pipeline, writes the artifacts back in a commit, and
publishes two statuses and a dispatch for the head.  A failure after the commit leaves a partial result, from which a
reconciliation publishes what is missing; it calls GitHub up to four times.
-/

namespace ArdOssie

namespace Processing

/-! ### The repository -/

/-- `PullRequestState` -/
structure TrackingPull where
  headBranch : Text
  headSha : GitCommitSha
  baseBranch : Text
  draft : Bool

structure WorkflowDispatch where
  workflow : Text
  ref : Text
  inputs : List (Text × Text)

/-- `CommitResult` -/
structure CommitResult where
  sha : GitCommitSha
  created : Bool

/-- The files of the working tree, by their paths. -/
abbrev Worktree := Text → Option (List UInt8)

/-- The checkout, the remote, and the calls of GitHub that failed since the last one that did not. -/
structure World where
  defaultBranch : Text
  checkout : GitCommitSha
  worktree : Worktree
  branches : Text → Option GitCommitSha
  pulls : ℕ → Option TrackingPull
  statuses : GitCommitSha → Text → Option Text
  dispatches : List WorkflowDispatch
  streak : ℕ

inductive Call where
  | defaultBranch
  | getPr (number : ℕ)
  | currentSha
  | remoteBranchSha (branch : Text)
  | processProduct (written : Worktree → Worktree)
  | commitAllowedPaths (productKey : Text)
  | push (branch : Text)
  | getStatus (sha : GitCommitSha) (context : Text)
  | setStatus (sha : GitCommitSha) (context state description targetUrl : Text)
  | dispatchWorkflow (dispatch : WorkflowDispatch)

namespace Call

abbrev Value : Call → Type
  | defaultBranch => Text
  | getPr _ => TrackingPull
  | currentSha => GitCommitSha
  | remoteBranchSha _ => Option GitCommitSha
  | commitAllowedPaths _ => CommitResult
  | getStatus .. => Option Text
  | _ => Unit

/-- The calls of GitHub; the others are commands of git and the pipeline. -/
def isGitHub : Call → Bool
  | currentSha | remoteBranchSha _ | processProduct _ | commitAllowedPaths _ | push _ => false
  | _ => true

/-- The calls that change nothing. -/
def isRead : Call → Bool
  | defaultBranch | getPr _ | currentSha | remoteBranchSha _ | getStatus .. => true
  | _ => false

/-- The answer of a call that does not fail.  A commit is made only when there are changes: `fresh` is its SHA. -/
def answer (fresh : Option GitCommitSha) (w : World) : (c : Call) → Option c.Value
  | defaultBranch => some w.defaultBranch
  | getPr number => w.pulls number
  | currentSha => some w.checkout
  | remoteBranchSha branch => some (w.branches branch)
  | commitAllowedPaths _ => some ⟨fresh.getD w.checkout, fresh.isSome⟩
  | getStatus sha context => some (w.statuses sha context)
  | processProduct _ | push _ | setStatus .. | dispatchWorkflow _ => some ()

/-- The repository after a call that took effect. -/
def after (fresh : Option GitCommitSha) (w : World) : Call → World
  | processProduct written => { w with worktree := written w.worktree }
  | commitAllowedPaths _ => { w with checkout := fresh.getD w.checkout }
  | push branch =>
    { w with
      branches := Function.update w.branches branch (some w.checkout)
      pulls := fun number => (w.pulls number).map fun pull =>
        if pull.headBranch = branch then { pull with headSha := w.checkout } else pull }
  | setStatus sha context state _ _ =>
    { w with statuses := Function.update w.statuses sha (Function.update (w.statuses sha) context (some state)) }
  | dispatchWorkflow dispatch => { w with dispatches := w.dispatches ++ [dispatch] }
  | _ => w

end Call

abbrev Answer (c : Call) : Type := Except WorkflowError c.Value

/-- One call; it may fail as `mayFail` says, before it took effect or after it. -/
inductive Exec (mayFail : Call → World → WorkflowError → Prop) : (c : Call) → World → Answer c → World → Prop where
  | answered (c : Call) (w : World) (fresh : Option GitCommitSha) (v : c.Value) (h : c.answer fresh w = some v) :
      Exec mayFail c w (.ok v) { c.after fresh w with streak := 0 }
  | refused (c : Call) (w : World) (error : WorkflowError) (h : ∀ fresh, c.answer fresh w = none) :
      Exec mayFail c w (.error error) w
  | failed (c : Call) (w : World) (error : WorkflowError) (h : mayFail c w error) :
      Exec mayFail c w (.error error) { w with streak := w.streak + 1 }
  | lost (c : Call) (w : World) (fresh : Option GitCommitSha) (error : WorkflowError) (h : mayFail c w error) :
      Exec mayFail c w (.error error) { c.after fresh w with streak := w.streak + 1 }

/-- An answer comes after the call took effect. -/
theorem Exec.ok_cases {mayFail : Call → World → WorkflowError → Prop} {c : Call} {w w' : World} {v : c.Value}
    (h : Exec mayFail c w (.ok v) w') :
    ∃ fresh, c.answer fresh w = some v ∧ w' = { c.after fresh w with streak := 0 } := by
  cases h
  exact ⟨_, by assumption, rfl⟩

/-- A call that fails took effect, or nothing changed but the count of the failures. -/
theorem Exec.error_cases {mayFail : Call → World → WorkflowError → Prop} {c : Call} {w w' : World} {e : WorkflowError}
    (h : Exec mayFail c w (.error e) w') :
    ((∀ fresh, c.answer fresh w = none) ∧ w' = w) ∨ mayFail c w e ∧
      (w' = { w with streak := w.streak + 1 } ∨ ∃ fresh, w' = { c.after fresh w with streak := w.streak + 1 }) := by
  cases h
  · exact Or.inl ⟨by assumption, rfl⟩
  · exact Or.inr ⟨by assumption, Or.inl rfl⟩
  · exact Or.inr ⟨by assumption, Or.inr ⟨_, rfl⟩⟩

/-! ### Processing -/

/-- The outputs that a processing run reports. -/
structure Outputs where
  currentHead : GitCommitSha
  expectedHead : GitCommitSha
  productId : Text
  productKey : Text
  version : ℕ
  changesetId : Option Text

/-- The variables of a run, and the outputs that its exception carries. -/
structure RunState where
  mutations : List MutationRecord
  currentHead : GitCommitSha
  partialOutputs : Option Outputs

abbrev ProcessingSession := Session Answer RunState WorkflowError

def call (c : Call) : ProcessingSession c.Value := Session.ask c

/-- A processing request with its resolved repository and the root of the file system port, with what the checkout says
about its changeset before and after the pipeline, with what the pipeline leaves in the working tree, and what it ends
with: the product and its version. -/
structure ProcessingRun where
  repository : Text
  root : Text
  productKey : Text
  branch : Text
  prNumber : ℕ
  expectedHead : GitCommitSha
  allowWriteback : Bool
  targetUrl : Text
  binding : Workflow (Option Text)
  written : Worktree → Worktree
  processed : Workflow (Text × Version)
  bindingAfter : Workflow (Option Text)

def changesetContext : Text := "ard/changeset".toList

def qualityContext : Text := "ard/quality-gate".toList

def changesetState (changesetId : Option Text) : Text :=
  if changesetId.isSome = true then "pending".toList else "success".toList

def changesetDescription (changesetId : Option Text) : Text :=
  match changesetId with
  | some id => "Waiting for ".toList ++ id
  | none => "No shared-table changeset required".toList

/-- The dispatch of a changeset. -/
def changesetDispatch (prNumber : ℕ) (ref : Text) (outputs : Outputs) (changesetId : Text) : WorkflowDispatch :=
  ⟨"ard-changeset.yml".toList, ref, [("changeset_id".toList, changesetId),
    ("head_sha".toList, outputs.currentHead.text), ("mode".toList, "ready".toList),
    ("pr_number".toList, Text.decimal prNumber), ("product_id".toList, outputs.productId),
    ("version".toList, Text.decimal outputs.version)]⟩

def record (mutation : MutationRecord) : ProcessingSession Unit :=
  modify fun s => { s with mutations := s.mutations ++ [mutation] }

/-- `set_status` -/
def setStatus (sha : GitCommitSha) (context state description targetUrl : Text) : ProcessingSession MutationRecord := do
  call (.setStatus sha context state description targetUrl)
  pure ⟨"status", sha.text ++ ':' :: context, "set", none⟩

/-- `dispatch_workflow` -/
def dispatchWorkflow (dispatch : WorkflowDispatch) : ProcessingSession MutationRecord := do
  call (.dispatchWorkflow dispatch)
  pure ⟨"workflow", dispatch.workflow ++ ':' :: dispatch.ref, "dispatch", none⟩

namespace ProcessingRun

variable (run : ProcessingRun)

/-- `_require_expected_head` -/
def requireExpectedHead (pull : TrackingPull) (expectedBase : Text) : ProcessingSession GitCommitSha := do
  let current ← call .currentSha
  let remote ← call (.remoteBranchSha run.branch)
  Session.ofResult (failIf (current ≠ run.expectedHead ∨ remote ≠ some run.expectedHead ∨
      pull.headSha ≠ run.expectedHead ∨ pull.headBranch ≠ run.branch ∨ pull.draft = false)
    (.security "PROCESSING_HEAD_MISMATCH"
      "checkout, remote branch, and pull request head must match the validated SHA".toList))
  Session.ofResult (failIf (pull.baseBranch ≠ expectedBase)
    (.security "PROCESSING_BASE_BRANCH_MISMATCH"
      "pull request base must match the repository default branch".toList))
  pure current

def pushIf (created : Bool) : ProcessingSession Unit := if created = true then call (.push run.branch) else pure ()

/-- The artifacts are committed and pushed. -/
def writeBack : ProcessingSession Unit := do
  let commit ← call (.commitAllowedPaths run.productKey)
  modify fun s => { s with
    mutations := s.mutations ++ [⟨"commit", commit.sha.text, if commit.created = true then "create" else "noop", none⟩]
    currentHead := commit.sha }
  run.pushIf commit.created
  let remote ← call (.remoteBranchSha run.branch)
  Session.ofResult (failIf (remote ≠ some commit.sha)
    (.security "PROCESSING_REMOTE_HEAD_MISMATCH" "remote branch does not match the processing commit".toList))

def writeBackIf : ProcessingSession Unit := if run.allowWriteback = true then run.writeBack else pure ()

/-- What the run reports. -/
def outputs (product : Text × Version) (changesetId : Option Text) (head : GitCommitSha) : Outputs :=
  ⟨head, run.expectedHead, product.1, run.productKey, product.2.val, changesetId⟩

/-- The changeset of the product is dispatched, if there is one. -/
def dispatchChangeset (ref : Text) (outputs : Outputs) : ProcessingSession Unit :=
  match outputs.changesetId with
  | none => pure ()
  | some changesetId => do
    let mutation ← dispatchWorkflow (changesetDispatch run.prNumber ref outputs changesetId)
    record mutation

/-- The body of the `try` statement of `run`. -/
def publish (defaultBranch : Text) (product : Text × Version) (changesetId : Option Text) : ProcessingSession Unit := do
  run.writeBackIf
  let s ← get
  let changesetMutation ← setStatus s.currentHead changesetContext (changesetState changesetId)
    (changesetDescription changesetId) run.targetUrl
  record changesetMutation
  let qualityMutation ← setStatus s.currentHead qualityContext "success".toList "ARD validation passed".toList
    run.targetUrl
  record qualityMutation
  run.dispatchChangeset defaultBranch (run.outputs product changesetId s.currentHead)

def postCommitCode : String := "PROCESSING_POST_COMMIT_FAILED"

/-- The `except` clauses of `run`: an exception after the commit carries the outputs. -/
def asPartial (product : Text × Version) (changesetId : Option Text) (error : WorkflowError) :
    ProcessingSession Unit := do
  let s ← get
  if error.exitCode = .partialFailure ∨ ¬ ∃ m ∈ s.mutations, m.resource = "commit" then throw error
  else do
    modify fun s => { s with partialOutputs := some (run.outputs product changesetId s.currentHead) }
    throw ⟨.partialFailure, postCommitCode, "processing commit succeeded but publication did not converge".toList⟩

/-- `ProcessingService.run` -/
def process : ProcessingSession Outputs := do
  Session.ofResult (failIf (run.repository ≠ run.root)
    (.security "PROCESSING_REPOSITORY_MISMATCH"
      "processing request repository does not match the filesystem port".toList))
  let defaultBranch ← call .defaultBranch
  let pull ← call (.getPr run.prNumber)
  let head ← run.requireExpectedHead pull defaultBranch
  let requested ← Session.ofResult run.binding
  Session.ofResult (failIf (∃ c ∈ requested, run.branch ≠ "ard/".toList ++ c ++ '-' :: run.productKey)
    (.security "PROCESSING_CHANGESET_BRANCH_MISMATCH"
      "changeset processing requires the canonical tracking branch".toList))
  call (.processProduct run.written)
  let product ← Session.ofResult run.processed
  let changesetId ← Session.ofResult run.bindingAfter
  Session.ofResult (failIf (changesetId ≠ requested)
    (.security "PROCESSING_CHANGESET_BINDING_CHANGED" "processing changed the product changeset binding".toList))
  let again ← call (.getPr run.prNumber)
  let current ← run.requireExpectedHead again defaultBranch
  Session.ofResult (failIf (current ≠ head)
    (.security "PROCESSING_HEAD_CHANGED" "processing branch changed while the provider was running".toList))
  tryCatch (run.publish defaultBranch product changesetId) (run.asPartial product changesetId)
  let s ← get
  pure (run.outputs product changesetId s.currentHead)

/-- The program of a run. -/
def program : Program Answer (Except WorkflowError Outputs × RunState) :=
  Session.program run.process ⟨[], run.expectedHead, none⟩

end ProcessingRun

/-! ### Reconciliation -/

/-- `int(exit_code)` -/
def exitValue : ExitCode → ℕ
  | .validation => 10
  | .configuration => 20
  | .transient => 30
  | .conflict => 40
  | .security => 50
  | .partialFailure => 70

/-- The result file of a processing run that failed; `outputs` is there when all required outputs are. -/
structure Envelope where
  invocationId : Option Text
  failureExitCode : Option ℕ
  outputs : Option Outputs
  codes : List String
  mutations : List MutationRecord

/-- The result file that the command writes for a run that raised. -/
def envelope (invocationId : Text) (error : WorkflowError) (s : RunState) : Envelope :=
  ⟨some invocationId, some (exitValue error.exitCode), s.partialOutputs, [error.code],
    if s.partialOutputs.isSome = true then s.mutations else []⟩

/-- A reconciliation request with its resolved repository and the root of the file system port, with the result file
that it loads and the failure that the file records otherwise. -/
structure Reconciliation where
  repository : Text
  root : Text
  branch : Text
  prNumber : ℕ
  invocationId : Text
  targetUrl : Text
  prior : Workflow Envelope
  recordedFailure : WorkflowError

/-- `_retry` with the attempts that are left. -/
def retry {α : Type} (operation : ProcessingSession α) : ℕ → ProcessingSession α
  | 0 => throw ⟨.transient, "AssertionError", "retry loop exhausted without returning".toList⟩
  | attempts + 1 => tryCatch operation fun error =>
    if error.exitCode = .transient ∧ attempts ≠ 0 then retry operation attempts else throw error

/-- `retry_attempts` -/
def retryAttempts : ℕ := 4

/-- `_ensure_status` -/
def ensureStatus (sha : GitCommitSha) (context state description targetUrl : Text) : ProcessingSession Unit := do
  let existing ← retry (call (.getStatus sha context)) retryAttempts
  if existing = some state then pure ()
  else do
    let mutation ← retry (setStatus sha context state description targetUrl) retryAttempts
    record mutation

/-- The commit is in the journal of the run. -/
def Journaled (mutations : List MutationRecord) (outputs : Outputs) : Prop :=
  (∃ m ∈ mutations, m.resource = "commit" ∧ m.target = outputs.currentHead.text) ∧
    (outputs.currentHead = outputs.expectedHead ∨
      ∃ m ∈ mutations, (m.resource = "commit" ∧ m.target = outputs.currentHead.text) ∧ m.action = "create")

instance decidableJournaled (mutations : List MutationRecord) (outputs : Outputs) :
    Decidable (Journaled mutations outputs) := by
  unfold Journaled
  infer_instance

namespace Reconciliation

variable (request : Reconciliation)

def invalid : WorkflowError := .security "PROCESSING_RECONCILE_RESULT_INVALID" "partial result is not valid".toList

def headMismatch : WorkflowError :=
  .security "PROCESSING_RECONCILE_HEAD_MISMATCH" "partial result is not tied to the current PR head".toList

def dispatchChangeset (ref : Text) (outputs : Outputs) : ProcessingSession Unit :=
  match outputs.changesetId with
  | none => pure ()
  | some changesetId => do
    let mutation ← retry (dispatchWorkflow (changesetDispatch request.prNumber ref outputs changesetId)) retryAttempts
    record mutation

/-- `ProcessingReconcileService.run` -/
def reconcile : ProcessingSession Outputs := do
  Session.ofResult (failIf (request.repository ≠ request.root)
    (.security "PROCESSING_RECONCILE_REPOSITORY_MISMATCH"
      "reconciliation repository does not match filesystem port".toList))
  let prior ← Session.ofResult request.prior
  Session.ofResult (failIf (prior.invocationId ≠ some request.invocationId)
    (.security "PROCESSING_RECONCILE_INVOCATION_MISMATCH"
      "process result was not produced by this workflow invocation".toList))
  Session.ofResult (failIf (ProcessingRun.postCommitCode ∉ prior.codes) request.recordedFailure)
  Session.ofResult (failIf (prior.codes ≠ [ProcessingRun.postCommitCode] ∨
    prior.failureExitCode ≠ some (exitValue .partialFailure)) invalid)
  let outputs ← Session.ofResult (require prior.outputs invalid)
  Session.ofResult (failIf (outputs.version < 1) invalid)
  let pull ← retry (call (.getPr request.prNumber)) retryAttempts
  let current ← call .currentSha
  Session.ofResult (failIf (current ≠ outputs.currentHead) headMismatch)
  let remote ← call (.remoteBranchSha request.branch)
  Session.ofResult (failIf (remote ≠ some outputs.currentHead ∨ pull.headSha ≠ outputs.currentHead ∨
    pull.headBranch ≠ request.branch ∨ pull.draft = false) headMismatch)
  Session.ofResult (failIf (¬ Journaled prior.mutations outputs)
    (.security "PROCESSING_RECONCILE_COMMIT_MISSING" "partial result does not journal the processing commit".toList))
  ensureStatus outputs.currentHead changesetContext (changesetState outputs.changesetId)
    (changesetDescription outputs.changesetId) request.targetUrl
  ensureStatus outputs.currentHead qualityContext "success".toList "ARD validation passed".toList request.targetUrl
  request.dispatchChangeset pull.baseBranch outputs
  pure outputs

/-- The program of a reconciliation. -/
def program : Program Answer (Except WorkflowError Outputs × RunState) :=
  Session.program request.reconcile ⟨[], ⟨List.replicate 40 '0', rfl, Or.inl rfl⟩, none⟩

end Reconciliation

end Processing

end ArdOssie
