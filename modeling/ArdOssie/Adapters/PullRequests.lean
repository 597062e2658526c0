import ArdOssie.Application.Contracts
import ArdOssie.Library.KeyedList
import ArdOssie.Registry.ChangeSets

/-!
# Pull requests

The pull requests of the repository and what may happen to them.  A branch has one open pull request at most; there
may be several closed ones, and every pull request keeps the head that it had last.
-/

namespace ArdOssie

/-- `PullRequestState` with the state of the pull request. -/
structure PullRequest where
  number : ℕ
  headBranch : Text
  headSha : GitCommitSha
  baseBranch : Text
  draft : Bool
  isOpen : Bool
  deriving DecidableEq

/-- The pull requests of the repository. -/
structure PullRequests where
  all : KeyedList PullRequest.number
  single : ∀ a ∈ all.items, ∀ b ∈ all.items, a.isOpen = true → b.isOpen = true → a.headBranch = b.headBranch → a = b

namespace PullRequests

def getPr (s : PullRequests) (number : ℕ) : Option PullRequest := s.all.get number

def findOpenPr (s : PullRequests) (branch : Text) : Option PullRequest :=
  s.all.items.find? fun p => p.isOpen && p.headBranch = branch

/-- The pull request that is found is the open one of the branch. -/
theorem findOpenPr_eq_some {s : PullRequests} {branch : Text} {p : PullRequest} :
    s.findOpenPr branch = some p ↔ p ∈ s.all.items ∧ p.isOpen = true ∧ p.headBranch = branch := by
  unfold findOpenPr
  constructor
  · intro h
    have hp := List.find?_some h
    rw [Bool.and_eq_true, decide_eq_true_eq] at hp
    exact ⟨List.mem_of_find?_eq_some h, hp⟩
  · rintro ⟨hmem, hopen, hbranch⟩
    cases h : s.all.items.find? fun p => p.isOpen && p.headBranch = branch with
    | none =>
      have hnot := List.find?_eq_none.1 h p hmem
      rw [hopen, hbranch, decide_eq_true rfl] at hnot
      exact absurd rfl hnot
    | some q =>
      have hq := List.find?_some h
      rw [Bool.and_eq_true, decide_eq_true_eq] at hq
      rw [s.single q (List.mem_of_find?_eq_some h) p hmem hq.1 hopen (hq.2.trans hbranch.symm)]

/-- What may happen to the pull requests: one is opened, the branch of open ones is pushed to, one is closed, and a
closed one is opened again with the head that its branch has then. -/
inductive Step (s s' : PullRequests) : Prop where
  | idle (h : s'.all.items = s.all.items)
  | opened (p : PullRequest) (hnew : s.getPr p.number = none) (h : s'.all.items = s.all.items ++ [p])
  | pushed (branch : Text) (sha : GitCommitSha) (h : s'.all.items = s.all.items.map fun p =>
      if p.isOpen = true ∧ p.headBranch = branch then { p with headSha := sha } else p)
  | closed (number : ℕ) (h : s'.all.items = s.all.items.map fun p =>
      if p.number = number then { p with isOpen := false } else p)
  | reopened (number : ℕ) (sha : GitCommitSha) (h : s'.all.items = s.all.items.map fun p =>
      if p.number = number then { p with isOpen := true, headSha := sha } else p)

/-- The pull requests over time. -/
structure History where
  state : ℕ → PullRequests
  step : ∀ n, Step (state n) (state (n + 1))

namespace History

variable (history : History)

/-- `get_pr`, answered at a time or failed. -/
def getPr (answered : Workflow ℕ) (number : ℕ) : Workflow PullRequest := do
  let time ← answered
  require ((history.state time).getPr number) (.transient "GITHUB_API_FAILED" (Text.decimal number))

/-- `find_open_pr`, answered at a time or failed. -/
def findOpenPr (answered : Workflow ℕ) (branch : Text) : Workflow (Option PullRequest) := do
  let time ← answered
  pure ((history.state time).findOpenPr branch)

/-- The pull request that is found was the open one of the branch at that time. -/
theorem findOpenPr_eq_ok {answered : Workflow ℕ} {branch : Text} {p : PullRequest}
    (h : history.findOpenPr answered branch = .ok (some p)) :
    ∃ time, answered = .ok time ∧ p ∈ (history.state time).all.items ∧ p.isOpen = true ∧ p.headBranch = branch := by
  obtain ⟨time, htime, h⟩ := bind_eq_ok.1 h
  exact ⟨time, htime, findOpenPr_eq_some.1 (pure_eq_ok.1 h)⟩

end History

end PullRequests

end ArdOssie
