import ArdOssie.Application.Processing
import Mathlib.Data.Finset.Sort

/-!
# Finalization

A finalizer ends every workflow: it moves the labels of the issue, keeps one comment on the pull request up to date, and
settles the statuses of the head.  It is run again when it fails, so that what it did before must not be in the way.
-/

namespace ArdOssie

namespace Finalizing

/-! ### Issues, pull requests and statuses -/

structure Comment where
  id : ℕ
  body : Text

structure Board where
  labels : ℕ → Finset Text
  comments : ℕ → KeyedList Comment.id
  statuses : Text → Text → Option Text

inductive Call where
  | getLabels (issue : ℕ)
  | putLabels (issue : ℕ) (labels : Finset Text)
  | listComments (pull : ℕ)
  | postComment (pull : ℕ) (body : Text)
  | patchComment (pull id : ℕ) (body : Text)
  | getStatus (sha context : Text)
  | setStatus (sha context state description targetUrl : Text)

namespace Call

abbrev Value : Call → Type
  | getLabels _ => Finset Text
  | listComments _ => KeyedList Comment.id
  | postComment .. => ℕ
  | getStatus .. => Option Text
  | _ => Unit

/-- The calls that change nothing. -/
def isRead : Call → Bool
  | getLabels _ | listComments _ | getStatus .. => true
  | _ => false

/-- The answer of a call that does not fail; `fresh` is the id of a new comment. -/
def answer (fresh : ℕ) (w : Board) : (c : Call) → c.Value
  | getLabels issue => w.labels issue
  | listComments pull => w.comments pull
  | postComment .. => fresh
  | getStatus sha context => w.statuses sha context
  | putLabels .. | patchComment .. | setStatus .. => ()

/-- The board after a call that took effect. -/
def after (fresh : ℕ) (w : Board) : Call → Board
  | putLabels issue labels => { w with labels := Function.update w.labels issue labels }
  | postComment pull body =>
    { w with comments := Function.update w.comments pull ((w.comments pull).put ⟨fresh, body⟩) }
  | patchComment pull id body =>
    { w with comments := Function.update w.comments pull ((w.comments pull).put ⟨id, body⟩) }
  | setStatus sha context state _ _ =>
    { w with statuses := Function.update w.statuses sha (Function.update (w.statuses sha) context (some state)) }
  | _ => w

/-- A comment that is new has an id of its own. -/
def IsFresh (fresh : ℕ) (w : Board) : Call → Prop
  | postComment pull _ => (w.comments pull).get fresh = none
  | _ => True

end Call

abbrev Answer (c : Call) : Type := Except WorkflowError c.Value

/-- One call; where there are faults it may fail, before it took effect or after it. -/
inductive Exec (faults : Prop) : (c : Call) → Board → Answer c → Board → Prop where
  | answered (c : Call) (w : Board) (fresh : ℕ) (h : c.IsFresh fresh w) :
      Exec faults c w (.ok (c.answer fresh w)) (c.after fresh w)
  | failed (c : Call) (w : Board) (error : WorkflowError) (h : faults) : Exec faults c w (.error error) w
  | lost (c : Call) (w : Board) (fresh : ℕ) (error : WorkflowError) (h : faults) (hfresh : c.IsFresh fresh w) :
      Exec faults c w (.error error) (c.after fresh w)

/-! ### The adapter -/

/-- A session keeps its mutations. -/
abbrev FinalSession := Session Answer (List MutationRecord) WorkflowError

def call (c : Call) : FinalSession c.Value := Session.ask c

def record (mutations : List MutationRecord) : FinalSession Unit := modify fun made => made ++ mutations

def marker : Text := "<!-- ard:finalize -->".toList

def rendered (body : Text) : Text := marker ++ '\n' :: body

def Comment.isManaged (c : Comment) : Bool := marker.isPrefixOf c.body

def labelMutation (issue : ℕ) (action : String) (label : Text) : MutationRecord :=
  ⟨"label", "issue:".toList ++ Text.decimal issue ++ ':' :: label, action, none⟩

def movedLabels (add remove current : Finset Text) : Finset Text := current \ remove ∪ add

/-- `set_issue_labels` -/
def setIssueLabels (issue : ℕ) (add remove : Finset Text) : FinalSession (List MutationRecord) := do
  let current ← call (.getLabels issue)
  if movedLabels add remove current = current then pure []
  else do
    call (.putLabels issue (movedLabels add remove current))
    pure ((current \ movedLabels add remove current).sort.map (labelMutation issue "remove") ++
      (movedLabels add remove current \ current).sort.map (labelMutation issue "add"))

def commentMutation (pull : ℕ) (action : String) (id : ℕ) : MutationRecord :=
  ⟨"comment", "pr:".toList ++ Text.decimal pull ++ ":ard:finalize".toList, action, some (Text.decimal id)⟩

def multipleComments : WorkflowError := .conflict "MULTIPLE_MANAGED_COMMENTS" "ard:finalize".toList

/-- `upsert_pr_comment` -/
def upsertPrComment (pull : ℕ) (body : Text) : FinalSession MutationRecord := do
  let comments ← call (.listComments pull)
  match comments.items.filter Comment.isManaged with
  | [] => do
    let id ← call (.postComment pull (rendered body))
    pure (commentMutation pull "create" id)
  | [c] =>
    if c.body = rendered body then pure (commentMutation pull "noop" c.id)
    else do
      call (.patchComment pull c.id (rendered body))
      pure (commentMutation pull "update" c.id)
  | _ => throw multipleComments

/-- `set_status` -/
def setStatus (sha context state description targetUrl : Text) : FinalSession MutationRecord := do
  call (.setStatus sha context state description targetUrl)
  pure ⟨"status", sha ++ ':' :: context, "set", none⟩

/-! ### The service -/

inductive UpstreamResult where
  | success
  | failure
  | cancelled
  | skipped
  deriving DecidableEq

def UpstreamResult.text : UpstreamResult → Text
  | success => "success".toList
  | failure => "failure".toList
  | cancelled => "cancelled".toList
  | skipped => "skipped".toList

/-- What the finalizer reads of the result file of the workflow. -/
structure PriorResult where
  command : Text
  status : WorkflowStatus
  currentHead : Option Text
  expectedHead : Option Text

/-- `FinalizeRequest`, with its resolved repository and the root of the file system port, and with what loading the result
file of the workflow ends with. -/
structure Finalization where
  repository : Text
  root : Text
  upstreamResult : UpstreamResult
  prior : Workflow (Option PriorResult)
  issueNumber : Option ℕ
  prNumber : Option ℕ
  expectedHead : Option Text
  targetUrl : Text
  publishSuccessStatuses : Bool
  authoritativeStatuses : Bool

structure FinalResult where
  status : WorkflowStatus
  succeeded : Bool
  head : Option Text
  mutations : List MutationRecord

def processingLabel : Text := "ard:processing".toList

def failedLabel : Text := "ard:failed".toList

def changesetContext : Text := "ard/changeset".toList

def qualityContext : Text := "ard/quality-gate".toList

/-- `_SHA` -/
def isHead (t : Text) : Bool := t.all isLowerHex && t.length == 40

namespace Finalization

variable (request : Finalization)

def succeeded (prior : Option PriorResult) : Bool :=
  request.upstreamResult = .success ∧ ∀ p ∈ prior, p.status = .success ∨ p.status = .noop

/-- The head that the result file names. -/
def priorHead (prior : Option PriorResult) : Option Text := prior.bind fun p => p.currentHead.or p.expectedHead

/-- `_known_head` -/
def knownHead (prior : Option PriorResult) : Workflow (Option Text) := do
  let known := request.expectedHead.toList ++ (priorHead prior).toList
  failIf (∃ t ∈ known, isHead t = false) (.validation "INVALID_FINALIZE_HEAD" "result contains an invalid SHA".toList)
  failIf (1 < known.eraseDups.length)
    (.security "FINALIZE_HEAD_MISMATCH" "request and prior result disagree on the exact head".toList)
  pure known.head?

def stateText (succeeded : Bool) : Text := if succeeded = true then "success".toList else "failure".toList

/-- `_summary` -/
def summary (prior : Option PriorResult) : Text :=
  "ARD workflow finalization: **".toList ++ stateText (request.succeeded prior) ++ "**.\n\nUpstream job: `".toList ++
    request.upstreamResult.text ++ "`. Result command: `".toList ++
      (prior.elim "unavailable".toList PriorResult.command) ++ "`.".toList

def addedLabels (succeeded : Bool) : Finset Text := if succeeded = true then ∅ else {failedLabel}

def removedLabels (succeeded : Bool) : Finset Text :=
  if succeeded = true then {processingLabel, failedLabel} else {processingLabel}

def updateLabels (succeeded : Bool) : FinalSession Unit :=
  match request.issueNumber with
  | none => pure ()
  | some issue => do
    let mutations ← setIssueLabels issue (addedLabels succeeded) (removedLabels succeeded)
    record mutations

def updateComment (prior : Option PriorResult) : FinalSession Unit :=
  match request.prNumber with
  | none => pure ()
  | some pull => do
    let mutation ← upsertPrComment pull (request.summary prior)
    record [mutation]

/-- A status that the finalizer leaves as it is. -/
def Settled (succeeded : Bool) (existing : Option Text) : Prop :=
  existing = some (stateText succeeded) ∨
    succeeded = false ∧ request.authoritativeStatuses = false ∧
      (existing = some "success".toList ∨ existing = some "failure".toList)

instance decidableSettled (succeeded : Bool) (existing : Option Text) :
    Decidable (request.Settled succeeded existing) := by
  unfold Settled
  infer_instance

def statusDescription (succeeded : Bool) : Text :=
  if succeeded = true then "Repository validation passed".toList
  else "ARD workflow did not complete successfully".toList

def updateStatus (succeeded : Bool) (sha context : Text) : FinalSession Unit := do
  let existing ← call (.getStatus sha context)
  if request.Settled succeeded existing then pure ()
  else do
    let mutation ← setStatus sha context (stateText succeeded) (statusDescription succeeded) request.targetUrl
    record [mutation]

/-- The head whose statuses are published. -/
def publishedHead (succeeded : Bool) (head : Option Text) : Option Text :=
  if succeeded = false ∨ request.publishSuccessStatuses = true then head else none

def updateStatuses (succeeded : Bool) (head : Option Text) : FinalSession Unit :=
  match request.publishedHead succeeded head with
  | none => pure ()
  | some sha => do
    request.updateStatus succeeded sha changesetContext
    request.updateStatus succeeded sha qualityContext

def repositoryMismatch : WorkflowError :=
  .security "FINALIZE_REPOSITORY_MISMATCH" "finalizer repository does not match filesystem port".toList

/-- `FinalizeService.run` -/
def finalize : FinalSession FinalResult := do
  Session.ofResult (failIf (request.repository ≠ request.root) repositoryMismatch)
  let prior ← Session.ofResult request.prior
  let head ← Session.ofResult (request.knownHead prior)
  request.updateLabels (request.succeeded prior)
  request.updateComment prior
  request.updateStatuses (request.succeeded prior) head
  let mutations ← get
  pure ⟨if ∃ m ∈ mutations, m.action ≠ "noop" then .success else .noop, request.succeeded prior, head, mutations⟩

/-- The program of a finalization. -/
def program : Program Answer (Except WorkflowError FinalResult × List MutationRecord) :=
  Session.program request.finalize []

end Finalization

end Finalizing

end ArdOssie
