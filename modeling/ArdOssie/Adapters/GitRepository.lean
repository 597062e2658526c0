import ArdOssie.Adapters.GitTrees

/-!
# Commands of git

What the commands of `GitCli` do to a repository that is checked out.  A command that fails for a reason outside the
repository has its error given with it.
-/

namespace ArdOssie

structure GitCommit where
  tree : GitTree
  parents : List GitCommitSha

abbrev GitCommits := Dict GitCommitSha GitCommit

/-- `CommitResult` -/
structure CommitResult where
  sha : GitCommitSha
  created : Bool

/-- What git decides: how it merges a file that both sides changed, which merge base it takes of two commits of which
none is an ancestor of the other, the names of new commits, and which paths match a path with wildcards; and, by the
files of a working tree and by its configuration, which paths it ignores and how it converts a file that it adds. -/
structure GitRules where
  combine : Option GitEntry → Option GitEntry → Option GitEntry → Option (Option GitEntry)
  mergeBase : GitCommits → GitCommitSha → GitCommitSha → Option GitCommitSha
  newSha : GitCommits → GitCommit → GitCommitSha
  wildcard : List Text → List Text → Bool
  /-- The names before the first one with a wildcard are taken as they are. -/
  wildcard_literal : ∀ p q, wildcard p q = true →
    p.takeWhile (fun part => part.all fun c => c ∉ ['*', '?', '[', '\\']) <+: q
  ignored : GitTree → List Text → Bool
  clean : GitTree → List Text → GitEntry → GitEntry

namespace GitRules

variable (rules : GitRules)

/-- A name without wildcards. -/
def isLiteral (part : Text) : Bool := part.all fun c => c ∉ ['*', '?', '[', '\\']

/-- The path of a command selects a path: the same one, one below it, or one that it matches. -/
def selects (p q : List Text) : Bool := decide (p <+: q) || !p.all isLiteral && rules.wildcard p q

/-- The working tree as `git status` and `git add` see it. -/
def seen (head worktree : GitTree) : GitTree :=
  GitTree.seen (rules.ignored worktree) (rules.clean worktree) head worktree

/-- In no working tree is the path ignored or its file converted. -/
structure Plain (p : List Text) : Prop where
  visible : ∀ worktree, rules.ignored worktree p = false
  unconverted : ∀ worktree e, rules.clean worktree p e = e

variable {rules}

theorem seen_of_plain {p : List Text} (h : rules.Plain p) (head worktree : GitTree) :
    (rules.seen head worktree).entry p = worktree.entry p :=
  GitTree.seen_of_plain (h.visible worktree) (h.unconverted worktree)

/-- What is selected starts with the literal names. -/
theorem literal_of_selects {p q : List Text} (h : rules.selects p q = true) : p.takeWhile isLiteral <+: q := by
  unfold selects at h
  rw [Bool.or_eq_true, Bool.and_eq_true, decide_eq_true_eq] at h
  rcases h with hbelow | ⟨-, hwildcard⟩
  · exact (List.takeWhile_prefix _).trans hbelow
  · exact rules.wildcard_literal p q hwildcard

theorem selects_self (p : List Text) : rules.selects p p = true := by
  unfold selects
  rw [decide_eq_true List.prefix_rfl, Bool.true_or]

end GitRules

/-- A repository with the files of its working tree, and the commits that it has pushed to the branches of the
remote. -/
structure GitRepository where
  commits : GitCommits
  head : GitCommitSha
  worktree : GitTree
  published : List (Text × GitCommitSha)

namespace GitRepository

variable (rules : GitRules) (root : List Text) (hroot : ProperPath root) (fault : Workflow Unit)
  (repository : GitRepository)

def parents (sha : GitCommitSha) : List GitCommitSha := (repository.commits.lookup sha).elim [] GitCommit.parents

/-- The tree of a revision. -/
def treeAt (revision : GitCommitSha) (error : WorkflowError) : Workflow GitTree :=
  require ((repository.commits.lookup revision).map GitCommit.tree) error

/-- The files of the working tree under the path policy. -/
def checkout : Checkout := (repository.worktree.workspace root hroot).checkout

/-- `git merge-base --is-ancestor` -/
def isAncestor (ancestor descendant : GitCommitSha) : Bool :=
  ancestorWithin repository.parents ancestor repository.commits.entries.length descendant

/-- `git merge-base` -/
def mergeBase (head base : GitCommitSha) : Option GitCommitSha :=
  if repository.isAncestor base head = true then some base else rules.mergeBase repository.commits head base

/-- `GitCli.is_worktree_clean` -/
def isWorktreeClean : Workflow Bool := do
  fault
  let tree ← repository.treeAt repository.head (.transient "STATUS_FAILED" [])
  pure (tree.changes (rules.seen tree repository.worktree)).isEmpty

/-- `GitCli.changed_paths`; every path that the head changed is listed. -/
def changedPaths (base head : GitCommitSha) : Workflow (List (List Text)) := do
  fault
  let mergeBase ← require (repository.mergeBase rules head base)
    (.conflict "MERGE_BASE_NOT_FOUND" "merge base unavailable".toList)
  let before ← repository.treeAt mergeBase (.transient "CHANGED_PATHS_FAILED" [])
  let after ← repository.treeAt head (.transient "CHANGED_PATHS_FAILED" [])
  let paths ← (before.changes after).mapM fun p => (repository.checkout root hroot).resolveWrite ⟨false, p⟩
  pure paths.eraseDups

/-- A new commit of a tree, which is then the head. -/
def record (tree : GitTree) (parents : List GitCommitSha) (error : WorkflowError) : Workflow GitRepository := do
  let commit : GitCommit := ⟨tree, parents⟩
  let sha := rules.newSha repository.commits commit
  failIf (sha ∈ repository.commits) error
  pure { repository with commits := repository.commits.insert sha commit, head := sha }

/-- `GitCli.merge_revision` -/
def mergeRevision (revision : GitCommitSha) : Workflow (CommitResult × GitRepository) := do
  fault
  if repository.isAncestor revision repository.head = true then
    -- the head has everything of the revision already
    pure (⟨repository.head, false⟩, repository)
  else do
    let conflict := WorkflowError.conflict "BASE_SYNC_MERGE_CONFLICT" "base merge failed".toList
    let mergeBase ← require (repository.mergeBase rules repository.head revision) conflict
    let base ← repository.treeAt mergeBase conflict
    let ours ← repository.treeAt repository.head conflict
    let theirs ← repository.treeAt revision conflict
    let tree ← require (GitTree.merge rules.combine base ours theirs) conflict
    let repository ← repository.record rules tree [repository.head, revision] conflict
    -- what the merge has not changed stays in the working tree, also when it is not tracked
    let worktree := GitTree.restore (fun p => ours.entry p ≠ tree.entry p) tree repository.worktree
    pure (⟨repository.head, true⟩, { repository with worktree := worktree })

/-- Some of the paths selects a path. -/
def selected (paths : List (List Text)) (q : List Text) : Bool := paths.any fun p => rules.selects p q

/-- `GitCli.restore_paths` -/
def restorePaths (revision : GitCommitSha) (paths : List FilePath) : Workflow GitRepository := do
  let relative ← paths.mapM (repository.checkout root hroot).resolveWrite
  if relative = [] then pure repository
  else do
    let error := WorkflowError.transient "BASE_SYNC_RESTORE_FAILED" []
    fault
    let source ← repository.treeAt revision error
    let tracked ← repository.treeAt repository.head error
    -- every path has to select something in the source or in the index
    failIf (∃ p ∈ relative, ∀ q ∈ source.paths ++ tracked.paths, rules.selects p q = true →
      source.entry q = none ∧ tracked.entry q = none) error
    -- a path that is neither in the source nor in the index stays as it is
    let restored (q : List Text) : Bool :=
      selected rules relative q && decide (source.entry q ≠ none ∨ tracked.entry q ≠ none)
    pure { repository with worktree := GitTree.restore restored source repository.worktree }

/-- `GitCli._commit_paths` -/
def commitPaths (allowed : Checkout → FilePath → Workflow Bool) (conflictCode : String) :
    Workflow (CommitResult × GitRepository) := do
  fault
  let checkout := repository.checkout root hroot
  let tree ← repository.treeAt repository.head (.transient "STATUS_FAILED" [])
  let seen := rules.seen tree repository.worktree
  let changed := tree.changes seen
  if changed = [] then pure (⟨repository.head, false⟩, repository)
  else do
    let _ ← changed.mapM fun item => do
      let relative ← checkout.resolveWrite ⟨false, item⟩
      let isAllowed ← allowed checkout ⟨false, relative⟩
      failIf (isAllowed = false) (.conflict conflictCode (['/'].intercalate relative))
    let repository ← repository.record rules seen [repository.head] (.transient "COMMIT_FAILED" [])
    pure (⟨repository.head, true⟩, repository)

/-- `GitCli.push` -/
def push (branch : Text) : Workflow GitRepository := do
  fault
  pure { repository with published := repository.published ++ [(branch, repository.head)] }

/-! ### Effects -/

variable {rules root hroot fault repository} {repository' : GitRepository} {sha : GitCommitSha} {tree : GitTree}
  {error : WorkflowError}

theorem treeAt_eq_ok : repository.treeAt sha error = .ok tree ↔
    ∃ commit, repository.commits.lookup sha = some commit ∧ commit.tree = tree := by
  unfold treeAt
  rw [require_eq_ok, Option.map_eq_some_iff]

theorem treeAt_unique {error' : WorkflowError} {tree' : GitTree} (h : repository.treeAt sha error = .ok tree)
    (h' : repository.treeAt sha error' = .ok tree') : tree = tree' := by
  obtain ⟨commit, hcommit, rfl⟩ := treeAt_eq_ok.1 h
  obtain ⟨commit', hcommit', rfl⟩ := treeAt_eq_ok.1 h'
  rw [Option.some_inj.1 (hcommit.symm.trans hcommit')]

/-- Commits stay as they are. -/
def Extends (repository repository' : GitRepository) : Prop :=
  ∀ sha commit, repository.commits.lookup sha = some commit → repository'.commits.lookup sha = some commit

theorem Extends.trans {repository'' : GitRepository} (h : repository.Extends repository')
    (h' : repository'.Extends repository'') : repository.Extends repository'' :=
  fun sha commit hcommit => h' sha commit (h sha commit hcommit)

theorem Extends.treeAt {error' : WorkflowError} (h : repository.Extends repository')
    (htree : repository.treeAt sha error = .ok tree) : repository'.treeAt sha error' = .ok tree := by
  obtain ⟨commit, hcommit, hsame⟩ := treeAt_eq_ok.1 htree
  exact treeAt_eq_ok.2 ⟨commit, h sha commit hcommit, hsame⟩

/-- The files of the head and those of the working tree. -/
structure IsAt (repository : GitRepository) (tree : GitTree) : Prop where
  head : ∃ commit, repository.commits.lookup repository.head = some commit ∧ ∀ p, commit.tree.entry p = tree.entry p
  worktree : ∀ p, repository.worktree.entry p = tree.entry p

/-- What is recorded is the head then. -/
theorem record_eq_ok {parents : List GitCommitSha} (h : repository.record rules tree parents error = .ok repository') :
    repository.Extends repository' ∧ (∃ commit, repository'.commits.lookup repository'.head = some commit ∧
      commit.tree = tree) ∧ repository'.worktree = repository.worktree ∧
      repository'.published = repository.published := by
  unfold record at h
  obtain ⟨hnew, h⟩ := failIf_bind_eq_ok.1 h
  cases pure_eq_ok.1 h
  refine ⟨fun sha commit hcommit => ?_, ⟨_, AList.lookup_insert _, rfl⟩, rfl, rfl⟩
  refine (AList.lookup_insert_ne ?_).trans hcommit
  rintro rfl
  refine hnew (AList.lookup_isSome.1 ?_)
  rw [hcommit]
  rfl

theorem resolveWrite_of_proper {checkout : Checkout} {p relative : List Text} (hproper : ProperPath p)
    (h : checkout.resolveWrite ⟨false, p⟩ = .ok relative) : relative = p :=
  Checkout.resolveWrite_relative (fun hmem => (hproper _ hmem).1 rfl) h

private theorem proper_of_mem_changes {before after : GitTree} {p : List Text} (h : p ∈ before.changes after) :
    ProperPath p := by
  have hne := GitTree.mem_changes.1 h
  by_cases hbefore : before.entry p = none
  · exact (after.proper p fun hafter => hne (hbefore.trans hafter.symm)).2
  · exact (before.proper p hbefore).2

/-- Every path that differs from the merge base is listed. -/
theorem changedPaths_eq_ok {base head : GitCommitSha} {paths : List (List Text)}
    (h : repository.changedPaths rules root hroot fault base head = .ok paths) :
    ∃ mergeBase before after, repository.mergeBase rules head base = some mergeBase ∧
      (∀ error, repository.treeAt mergeBase error = .ok before) ∧ (∀ error, repository.treeAt head error = .ok after) ∧
      (∀ p, before.entry p ≠ after.entry p → p ∈ paths) ∧ ∀ p ∈ paths, ProperPath p := by
  unfold changedPaths at h
  obtain ⟨_, -, h⟩ := bind_eq_ok.1 h
  obtain ⟨mergeBase, hmergeBase, h⟩ := bind_eq_ok.1 h
  obtain ⟨before, hbefore, h⟩ := bind_eq_ok.1 h
  obtain ⟨after, hafter, h⟩ := bind_eq_ok.1 h
  obtain ⟨relative, hrelative, h⟩ := bind_eq_ok.1 h
  cases pure_eq_ok.1 h
  refine ⟨mergeBase, before, after, require_eq_ok.1 hmergeBase, fun _ => treeAt_eq_ok.2 (treeAt_eq_ok.1 hbefore),
    fun _ => treeAt_eq_ok.2 (treeAt_eq_ok.1 hafter), fun p hne => ?_, fun p hp => ?_⟩
  · have hmem := GitTree.mem_changes.2 hne
    obtain ⟨q, hq, hresolve⟩ := exists_of_mapM_eq_ok hrelative hmem
    rw [List.mem_eraseDups, ← resolveWrite_of_proper (proper_of_mem_changes hmem) hresolve]
    exact hq
  · rw [List.mem_eraseDups] at hp
    obtain ⟨q, hq, hresolve⟩ := mem_of_mapM_eq_ok hrelative hp
    rw [resolveWrite_of_proper (proper_of_mem_changes hq) hresolve]
    exact proper_of_mem_changes hq

/-- After a merge, what the head had not changed since the merge base is as in the revision. -/
theorem mergeRevision_eq_ok {revision mergeBase : GitCommitSha} {before ours : GitTree} {result : CommitResult}
    (hat : repository.IsAt ours)
    (hbase : repository.mergeBase rules repository.head revision = some mergeBase)
    (hbefore : ∀ error, repository.treeAt mergeBase error = .ok before)
    (h : repository.mergeRevision rules fault revision = .ok (result, repository')) :
    repository.Extends repository' ∧ repository'.published = repository.published ∧ ∃ merged,
      repository'.IsAt merged ∧ ∃ theirs, (∀ error, repository.treeAt revision error = .ok theirs) ∧
        ∀ p, ours.entry p = before.entry p → merged.entry p = theirs.entry p := by
  unfold mergeRevision at h
  obtain ⟨_, -, h⟩ := bind_eq_ok.1 h
  split at h
  · rename_i hancestor
    cases pure_eq_ok.1 h
    -- the revision is the merge base, and the head has what it has
    unfold GitRepository.mergeBase at hbase
    rw [if_pos hancestor] at hbase
    cases hbase
    exact ⟨fun _ _ hcommit => hcommit, rfl, ours, hat, before, hbefore, fun p hp => hp⟩
  · obtain ⟨mergeBase', hmergeBase, h⟩ := bind_eq_ok.1 h
    cases hbase.symm.trans (require_eq_ok.1 hmergeBase)
    obtain ⟨base, htree, h⟩ := bind_eq_ok.1 h
    cases treeAt_unique htree (hbefore (.conflict "" []))
    obtain ⟨head, hhead, h⟩ := bind_eq_ok.1 h
    obtain ⟨theirs, htheirs, h⟩ := bind_eq_ok.1 h
    obtain ⟨tree, hmerge, h⟩ := bind_eq_ok.1 h
    obtain ⟨repository₁, hrecord, h⟩ := bind_eq_ok.1 h
    cases pure_eq_ok.1 h
    obtain ⟨hextends, ⟨commit₁, hcommit₁, rfl⟩, hworktree, hpublished⟩ := record_eq_ok hrecord
    have hours : ∀ p, head.entry p = ours.entry p := by
      obtain ⟨commit, hcommit, hsame⟩ := hat.head
      obtain ⟨commit', hcommit', rfl⟩ := treeAt_eq_ok.1 hhead
      cases hcommit.symm.trans hcommit'
      exact hsame
    refine ⟨hextends, hpublished, commit₁.tree, ⟨⟨commit₁, hcommit₁, fun _ => rfl⟩, fun p => ?_⟩, theirs,
      fun _ => treeAt_eq_ok.2 (treeAt_eq_ok.1 htheirs), fun p hp => ?_⟩
    · dsimp only
      by_cases hchanged : head.entry p = commit₁.tree.entry p
      · rcases @GitTree.restore_other commit₁.tree repository₁.worktree p
          (fun q => head.entry q ≠ commit₁.tree.entry q) (by simpa using hchanged) with hstays | ⟨hblocked, hnone⟩
        · rw [hstays, hworktree, hat.worktree, ← hours, hchanged]
        · -- what is in the way of another path is not in the merge
          rw [hnone]
          obtain ⟨q, -, hq, hexists, hway⟩ := hblocked
          by_contra hne
          have hpq : p = q := by
            rcases hway with hpq | hqp
            · exact commit₁.tree.leaf p q (Ne.symm hne) hexists hpq
            · exact (commit₁.tree.leaf q p hexists (Ne.symm hne) hqp).symm
          exact of_decide_eq_true hq (hpq ▸ hchanged)
      · exact GitTree.restore_selected (decide_eq_true hchanged)
    · refine GitTree.merge_eq_theirs (require_eq_ok.1 hmerge) ?_
      rw [hours, hp]

/-- What is restored: the selected paths are as in the source; another path stays, but for one that is in the way. -/
theorem restorePaths_eq_ok {revision : GitCommitSha} {paths : List FilePath} {current : GitTree}
    (hat : repository.IsAt current)
    (h : repository.restorePaths rules root hroot fault revision paths = .ok repository') :
    repository'.commits = repository.commits ∧ repository'.head = repository.head ∧
      repository'.published = repository.published ∧
      ∃ relative, paths.mapM (repository.checkout root hroot).resolveWrite = .ok relative ∧
        ∀ source, (∀ error, repository.treeAt revision error = .ok source) →
          (∀ q, selected rules relative q = true → repository'.worktree.entry q = source.entry q) ∧
          ∀ q, selected rules relative q = false → repository'.worktree.entry q = current.entry q ∨
            GitTree.Blocked (selected rules relative) source q ∧ repository'.worktree.entry q = none := by
  unfold restorePaths at h
  obtain ⟨relative, hrelative, h⟩ := bind_eq_ok.1 h
  split at h
  · rename_i hnil
    cases pure_eq_ok.1 h
    refine ⟨rfl, rfl, rfl, relative, hrelative, fun source _ => ⟨fun q hq => ?_, fun q _ => Or.inl (hat.worktree q)⟩⟩
    rw [hnil] at hq
    cases hq
  · obtain ⟨_, -, h⟩ := bind_eq_ok.1 h
    obtain ⟨source, hsource, h⟩ := bind_eq_ok.1 h
    obtain ⟨tracked, htracked, h⟩ := bind_eq_ok.1 h
    obtain ⟨-, h⟩ := failIf_bind_eq_ok.1 h
    cases pure_eq_ok.1 h
    refine ⟨rfl, rfl, rfl, relative, hrelative, fun source' hsource' => ?_⟩
    cases treeAt_unique hsource (hsource' (.conflict "" []))
    have hsame : ∀ q, tracked.entry q = repository.worktree.entry q := by
      obtain ⟨commit, hcommit, hentries⟩ := hat.head
      obtain ⟨commit', hcommit', rfl⟩ := treeAt_eq_ok.1 htracked
      cases hcommit.symm.trans hcommit'
      exact fun q => (hentries q).trans (hat.worktree q).symm
    have hother := fun q => @GitTree.restore_other source repository.worktree q fun q =>
      selected rules relative q && decide (source.entry q ≠ none ∨ tracked.entry q ≠ none)
    dsimp only
    refine ⟨fun q hq => ?_, fun q hq => ?_⟩
    · by_cases hthere : source.entry q ≠ none ∨ tracked.entry q ≠ none
      · refine GitTree.restore_selected ?_
        rw [hq, decide_eq_true hthere]
        rfl
      · rw [not_or, not_not, not_not] at hthere
        rcases hother q (by simp [hthere]) with hstays | ⟨-, hnone⟩
        · rw [hstays, ← hsame, hthere.1, hthere.2]
        · rw [hnone, hthere.1]
    · rcases hother q (by simp [hq]) with hstays | ⟨⟨r, hr, hselected, hrest⟩, hnone⟩
      · exact Or.inl (hstays.trans (hat.worktree q))
      · exact Or.inr ⟨⟨r, hr, (Bool.and_eq_true_iff.1 hselected).1, hrest⟩, hnone⟩

/-- After a commit, the head is what git saw of the working tree, and every path at which it differed from the head was
allowed. -/
theorem commitPaths_eq_ok {tree : GitTree} {allowed : Checkout → FilePath → Workflow Bool} {conflictCode : String}
    {result : CommitResult}
    (hhead : ∃ commit, repository.commits.lookup repository.head = some commit ∧
      ∀ p, commit.tree.entry p = tree.entry p)
    (h : repository.commitPaths rules root hroot fault allowed conflictCode = .ok (result, repository')) :
    repository.Extends repository' ∧ repository'.published = repository.published ∧ result.sha = repository'.head ∧
      repository'.worktree = repository.worktree ∧ ∃ commit commit',
        repository.commits.lookup repository.head = some commit ∧
        repository'.commits.lookup repository'.head = some commit' ∧
        (∀ p, commit'.tree.entry p = (rules.seen commit.tree repository.worktree).entry p) ∧
        ∀ p, tree.entry p ≠ commit'.tree.entry p → ProperPath p ∧
          allowed (repository.checkout root hroot) ⟨false, p⟩ = .ok true := by
  obtain ⟨commit, hcommit, hsame⟩ := hhead
  unfold commitPaths at h
  obtain ⟨_, -, h⟩ := bind_eq_ok.1 h
  obtain ⟨before, hbefore, h⟩ := bind_eq_ok.1 h
  obtain ⟨commit₁, hcommit₁, rfl⟩ := treeAt_eq_ok.1 hbefore
  cases hcommit.symm.trans hcommit₁
  dsimp only at h
  split at h
  · rename_i hnil
    cases pure_eq_ok.1 h
    have hclean : ∀ p, commit.tree.entry p = (rules.seen commit.tree repository.worktree).entry p := by
      intro p
      by_contra hne
      have hmem := GitTree.mem_changes.2 hne
      rw [hnil] at hmem
      exact List.not_mem_nil hmem
    exact ⟨fun _ _ hcommit => hcommit, rfl, rfl, rfl, commit, commit, hcommit, hcommit, hclean,
      fun p hne => absurd (hsame p).symm hne⟩
  · obtain ⟨checked, hchecked, h⟩ := bind_eq_ok.1 h
    obtain ⟨repository₁, hrecord, h⟩ := bind_eq_ok.1 h
    cases pure_eq_ok.1 h
    obtain ⟨hextends, ⟨commit', hcommit', htree⟩, hworktree, hpublished⟩ := record_eq_ok hrecord
    refine ⟨hextends, hpublished, rfl, hworktree, commit, commit', hcommit, hcommit', fun p => by rw [htree],
      fun p hne => ?_⟩
    have hmem : p ∈ commit.tree.changes (rules.seen commit.tree repository.worktree) := by
      rw [GitTree.mem_changes, hsame, ← htree]
      exact hne
    obtain ⟨_, -, hcheck⟩ := exists_of_mapM_eq_ok hchecked hmem
    obtain ⟨relative, hrelative, hcheck⟩ := bind_eq_ok.1 hcheck
    cases resolveWrite_of_proper (proper_of_mem_changes hmem) hrelative
    obtain ⟨isAllowed, hallowed, hcheck⟩ := bind_eq_ok.1 hcheck
    have htrue := failIf_eq_ok.1 hcheck
    rw [Bool.not_eq_false] at htrue
    exact ⟨proper_of_mem_changes hmem, by rw [hallowed, htrue]⟩

/-- After a commit of what git sees as it is, the head is the working tree. -/
theorem isAt_of_commitPaths {tree : GitTree} {allowed : Checkout → FilePath → Workflow Bool} {conflictCode : String}
    {result : CommitResult}
    (hhead : ∃ commit, repository.commits.lookup repository.head = some commit ∧
      ∀ p, commit.tree.entry p = tree.entry p)
    (hseen : ∀ p, repository.worktree.entry p = tree.entry p ∨ repository.worktree.entry p = none ∨ rules.Plain p)
    (h : repository.commitPaths rules root hroot fault allowed conflictCode = .ok (result, repository')) :
    repository'.IsAt repository.worktree := by
  obtain ⟨-, -, -, hworktree, commit, commit', hcommit, hcommit', hentries, -⟩ := commitPaths_eq_ok hhead h
  obtain ⟨commit₁, hcommit₁, hsame⟩ := hhead
  cases hcommit.symm.trans hcommit₁
  refine ⟨⟨commit', hcommit', fun p => (hentries p).trans ?_⟩, fun p => by rw [hworktree]⟩
  rcases hseen p with htree | hnone | hplain
  · exact GitTree.seen_of_head (htree.trans (hsame p).symm)
  · exact GitTree.seen_of_none hnone
  · exact GitRules.seen_of_plain hplain _ _

/-- What is reached from a commit is an ancestor of it. -/
theorem ancestor_of_isAncestor {ancestor descendant : GitCommitSha}
    (h : repository.isAncestor ancestor descendant = true) : Ancestor repository.parents ancestor descendant :=
  ancestor_of_ancestorWithin h

end GitRepository

end ArdOssie
