import ArdOssie.Adapters.GitRepository
import ArdOssie.Adapters.PathPolicies
import ArdOssie.Adapters.PullRequests
import ArdOssie.Application.Intake
import ArdOssie.Library.FileTrees

/-!
# Synchronisation with the base

Before a product is processed again, the base is merged into the branch of its issue.  The approved intake is then
restored from the head of the branch, and what the branch had changed otherwise from the base.
-/

namespace ArdOssie

/-- `IssueRequest` -/
structure IssueRequest where
  number : ℕ
  defaultBranch : Text
  intake : IssueIntake

def IssueRequest.branch (request : IssueRequest) : Text :=
  let changeset := request.intake.changesetId.getD []
  "ard/".toList ++ (if changeset = [] then "issue-".toList ++ Text.decimal request.number else changeset) ++ ['-'] ++
    request.intake.productKey.text

/-- What a synchronisation uses: the answers of the remote and of GitHub, and the errors of commands that fail, each by
its place in the run; the codecs of the registry; and what a preparation of the intake uses. -/
structure BaseSync (platform : Platform) where
  intake : IntakeEnvironment
  root : List Text
  root_proper : ProperPath root
  rules : GitRules
  newId : ℕ → ProductId
  staging : ℕ → List Text
  staging_proper : ∀ n, ProperPath (staging n)
  findOpenPr : ℕ → Text → Workflow (Option PullRequest)
  remoteBranchSha : ℕ → Text → Workflow (Option GitCommitSha)
  fault : ℕ → Workflow Unit
  loadProduct : List ℕ → Option (ProductRecord platform)
  loadMappings : List ℕ → Option (List ProductTableRef)
  loadTable : List ℕ → Option (TableRecord platform)

/-- The result of a run: the status and the outputs. -/
structure BaseSyncOutputs where
  created : Bool
  branch : Text
  productKey : ProductKey
  prNumber : ℕ
  expectedHead : GitCommitSha
  productId : ProductId
  mutations : List GitCommitSha

/-- The two ways of a run: a branch with nothing but the marker of a changeset gets its first intake. -/
inductive BaseSyncResult where
  | populated (outputs : BaseSyncOutputs)
  | synchronized (outputs : BaseSyncOutputs)

/-- `any(not allowed(path) for path in paths)` raises. -/
def requireAll (allowed : FilePath → Workflow Bool) (error : WorkflowError) : List FilePath → Workflow Unit
  | [] => pure ()
  | path :: paths => do
    let isAllowed ← allowed path
    failIf (isAllowed = false) error
    requireAll allowed error paths

/-- `require_managed_pr` of an open pull request -/
def requireManagedPr (pullRequest : PullRequest) (branch base : Text) : Workflow Unit :=
  failIf (pullRequest.headBranch ≠ branch ∨ pullRequest.baseBranch ≠ base ∨ pullRequest.draft = false)
    (.security "ISSUE_BASE_SYNC_PULL_REQUEST_MISMATCH" "existing pull request is not the managed Draft PR".toList)

private def pathNotAllowed (message : String) : WorkflowError :=
  .security "ISSUE_BASE_SYNC_PATH_NOT_ALLOWED" message.toList

private def headMismatch (message : String) : WorkflowError :=
  .security "ISSUE_BASE_SYNC_HEAD_MISMATCH" message.toList

private def baseMoved (message : String) : WorkflowError := .security "ISSUE_BASE_SYNC_BASE_MOVED" message.toList

private def registryMismatch (message : String) : WorkflowError :=
  .security "ISSUE_BASE_SYNC_OUTPUT_REGISTRY_MISMATCH" message.toList

/-- A record of the registry. -/
def readRegistry {α : Type} (load : List ℕ → Option α) (checkout : Checkout) (folder name : Text) (message : String) :
    Workflow α :=
  let invalid := WorkflowError.security "ISSUE_BASE_SYNC_OUTPUT_REGISTRY_INVALID" message.toList
  match checkout.resolveRead ⟨false, ["registry".toList, folder, name ++ ".json".toList]⟩ with
  | .error _ => .error invalid
  | .ok path =>
    match checkout.entry path with
    | some (.file content) => require (load content) invalid
    | _ => .error invalid

namespace BaseSync

variable {platform : Platform} (sync : BaseSync platform) (request : IssueRequest)

/-! ### Checks -/

/-- `self.git.remote_branch_sha(branch) != expected` raises. -/
def requireRemote (n : ℕ) (branch : Text) (expected : GitCommitSha) (error : WorkflowError) : Workflow Unit := do
  let found ← sync.remoteBranchSha n branch
  failIf (found ≠ some expected) error

/-- `_require_same_managed_pr` -/
def requireSameManagedPr (n : ℕ) (expected : PullRequest) : Workflow Unit := do
  let found ← sync.findOpenPr n request.branch
  let live ← require found (.security "ISSUE_BASE_SYNC_PR_REQUIRED" "managed Draft PR is missing".toList)
  requireManagedPr live request.branch request.defaultBranch
  failIf (live.number ≠ expected.number)
    (.security "ISSUE_BASE_SYNC_PULL_REQUEST_MISMATCH"
      "managed Draft PR identity moved during synchronization".toList)
  failIf (live.headSha ≠ expected.headSha) (headMismatch "managed Draft PR head moved during synchronization")

private def ownedTables (checkout : Checkout) (productId : ProductId) :
    List LinkId → List ProductTableRef → Workflow (List TableId)
  | _, [] => pure []
  | linkIds, mapping :: mappings => do
    failIf (mapping.productId ≠ productId ∨ mapping.linkId ∈ linkIds)
      (registryMismatch "candidate Registry mapping ownership is inconsistent")
    let table ← readRegistry sync.loadTable checkout "tables".toList mapping.tableId.text
      "candidate Registry table ownership is missing or invalid"
    failIf (table.tableId ≠ mapping.tableId ∨ table.version ≠ mapping.tableVersion)
      (registryMismatch "candidate Registry table identity is inconsistent")
    let tableIds ← ownedTables checkout productId (mapping.linkId :: linkIds) mappings
    pure (mapping.tableId :: tableIds)

/-- `_load_registry_ownership` -/
def loadRegistryOwnership (checkout : Checkout) (productKey : ProductKey) (productId : ProductId) :
    Workflow (List TableId) := do
  let invalid := "candidate output Registry ownership is missing or invalid"
  let product ← readRegistry sync.loadProduct checkout "products".toList productId.text invalid
  let mappings ← readRegistry sync.loadMappings checkout "mappings".toList productId.text invalid
  failIf (product.productId ≠ productId ∨ product.productKey ≠ productKey)
    (registryMismatch "candidate Registry product identity does not match approved intake")
  sync.ownedTables checkout productId [] mappings

/-! ### The run -/

/-- The checks of the candidate before it is read: its pull request and the paths that it changed. -/
def checkCandidate (baseSha : GitCommitSha) (repository : GitRepository) :
    Workflow (PullRequest × List (List Text)) := do
  let found ← sync.findOpenPr 0 request.branch
  let pullRequest ← require found (.security "ISSUE_BASE_SYNC_PR_REQUIRED" "managed Draft PR is missing".toList)
  requireManagedPr pullRequest request.branch request.defaultBranch
  let clean ← repository.isWorktreeClean sync.rules (sync.fault 0)
  failIf (clean = false) (.security "ISSUE_BASE_SYNC_WORKTREE_DIRTY" "candidate worktree is not clean".toList)
  failIf (repository.head ≠ pullRequest.headSha) (headMismatch "candidate checkout does not match the live PR head")
  sync.requireRemote 0 request.branch pullRequest.headSha
    (headMismatch "remote branch does not match the live PR head")
  sync.requireRemote 1 request.defaultBranch baseSha (baseMoved "default branch moved after routing")
  let changed ← repository.changedPaths sync.rules sync.root sync.root_proper (sync.fault 1) baseSha
    pullRequest.headSha
  pure (pullRequest, changed)

/-- The candidate changed nothing but the marker of its changeset. -/
def isMarkerOnly (changed : List (List Text)) : Bool :=
  match request.intake.changesetId with
  | none => false
  | some changesetId =>
    let marker := request.intake.productRoot ++ ["changesets".toList, changesetId ++ ".json".toList]
    changed.all (fun path => path = marker) && decide (marker ∈ changed)

/-- `prepare_existing_intake` on the working tree -/
def existingIntake (n : ℕ) (repository : GitRepository) : Service IntakeManifest :=
  request.intake.prepareExistingIntake sync.intake (sync.newId n) request.number
    (repository.worktree.workspace sync.root sync.root_proper) (sync.staging n) (sync.staging_proper n)

/-- The changed paths outside the intake, all of which may be reset. -/
def resetPaths (manifest : IntakeManifest) (changed : List (List Text)) (repository : GitRepository) :
    Workflow (List (List Text)) := do
  let productKey := request.intake.productKey
  let checkout := repository.checkout sync.root sync.root_proper
  let judged ← changed.mapM fun path => do
    let isIntake ← checkout.isIntakeWriteAllowed productKey ⟨false, path⟩
    pure (path, isIntake)
  let paths := (judged.filter fun judgement => judgement.2 = false).map Prod.fst
  requireAll (checkout.isWritebackAllowed productKey)
    (pathNotAllowed "candidate contains a path outside the reprocessing boundary") (paths.map (FilePath.mk false))
  if paths = [] then pure paths
  else do
    let tableIds ← sync.loadRegistryOwnership checkout productKey manifest.productId
    requireAll (checkout.isBaseSyncResetAllowed productKey manifest.productId tableIds)
      (pathNotAllowed "candidate contains unrelated derived output") (paths.map (FilePath.mk false))
    pure paths

/-- The paths of the approved intake. -/
def intakePaths (manifest : IntakeManifest) : List FilePath :=
  ⟨false, request.intake.configPath⟩ :: ⟨false, request.intake.manifestPath⟩ :: manifest.files.map fun item =>
    let relative := FilePath.ofText item.relativePath
    if relative.absolute then relative else ⟨false, request.intake.productRoot ++ relative.parts⟩

/-- The live pull request and the branches before and after the synchronisation. -/
def requireUnmoved (n : ℕ) (pullRequest : PullRequest) (baseSha : GitCommitSha) (stage : String) : Workflow Unit := do
  sync.requireSameManagedPr request n pullRequest
  sync.requireRemote (2 * n) request.branch pullRequest.headSha (headMismatch ("remote branch moved during " ++ stage))
  sync.requireRemote (2 * n + 1) request.defaultBranch baseSha (baseMoved ("default branch moved during " ++ stage))

/-- The merge and the two restored parts: the results of the three commits and the repository. -/
def mergeAndRestore (baseSha headSha : GitCommitSha) (intakePaths resetPaths : List FilePath)
    (repository : GitRepository) : Service ((CommitResult × CommitResult × CommitResult) × GitRepository) := do
  let productKey := request.intake.productKey
  let (merge, repository) ← (repository.mergeRevision sync.rules (sync.fault 2) baseSha).mapError .workflow
  let repository ← (repository.restorePaths sync.rules sync.root sync.root_proper (sync.fault 3) headSha
    intakePaths).mapError .workflow
  let (preserved, repository) ← (repository.commitPaths sync.rules sync.root sync.root_proper (sync.fault 4)
    (fun checkout => checkout.isIntakeWriteAllowed productKey) "INTAKE_PATH_NOT_ALLOWED").mapError .workflow
  let _ ← sync.existingIntake request 1 repository
  let repository ← (repository.restorePaths sync.rules sync.root sync.root_proper (sync.fault 5) baseSha
    resetPaths).mapError .workflow
  let (reset, repository) ← (repository.commitPaths sync.rules sync.root sync.root_proper (sync.fault 6)
    (fun checkout => checkout.isWritebackAllowed productKey) "WRITEBACK_PATH_NOT_ALLOWED").mapError .workflow
  pure ((merge, preserved, reset), repository)

/-- The synchronised head is checked and published. -/
def publish (pullRequest : PullRequest) (baseSha finalSha : GitCommitSha) (repository : GitRepository) :
    Workflow GitRepository := do
  failIf (repository.isAncestor baseSha finalSha = false)
    (.security "ISSUE_BASE_SYNC_ANCESTRY_MISMATCH"
      "trusted base is not an ancestor of synchronized head".toList)
  let clean ← repository.isWorktreeClean sync.rules (sync.fault 7)
  failIf (clean = false)
    (.security "ISSUE_BASE_SYNC_WORKTREE_DIRTY" "candidate worktree is dirty after synchronization".toList)
  sync.requireUnmoved request 2 pullRequest baseSha "synchronization"
  let repository ← repository.push (sync.fault 8) request.branch
  sync.requireRemote 6 request.branch finalSha (headMismatch "published branch does not match synchronized head")
  pure repository

/-- `IssueBaseSyncService.run` of a loaded request, with `_populate_pristine_tracking` for a branch that has nothing but
the marker. -/
def run (populate : PullRequest → GitRepository → Service (BaseSyncOutputs × GitRepository)) (baseSha : GitCommitSha)
    (repository : GitRepository) : Service (BaseSyncResult × GitRepository) := do
  let (pullRequest, changed) ← (sync.checkCandidate request baseSha repository).mapError .workflow
  if isMarkerOnly request changed = true then do
    let (outputs, repository) ← populate pullRequest repository
    pure (.populated outputs, repository)
  else do
    let manifest ← sync.existingIntake request 0 repository
    let reset ← (sync.resetPaths request manifest changed repository).mapError .workflow
    let intake := intakePaths request manifest
    (requireAll ((repository.checkout sync.root sync.root_proper).isIntakeWriteAllowed request.intake.productKey)
      (pathNotAllowed "approved intake contains a path outside the preservation boundary") intake).mapError .workflow
    (sync.requireUnmoved request 1 pullRequest baseSha "candidate validation").mapError .workflow
    let ((merge, preserved, reset), repository) ← sync.mergeAndRestore request baseSha pullRequest.headSha intake
      (reset.map (FilePath.mk false)) repository
    let repository ← (sync.publish request pullRequest baseSha reset.sha repository).mapError .workflow
    pure (.synchronized {
      created := merge.created || reset.created
      branch := request.branch
      productKey := request.intake.productKey
      prNumber := pullRequest.number
      expectedHead := reset.sha
      productId := manifest.productId
      mutations := ([merge, preserved, reset].filter CommitResult.created).map CommitResult.sha }, repository)

end BaseSync

/-! ### Paths -/

section Paths

variable {rules : GitRules} {productKey : ProductKey} {p q r : List Text}

/-- A product key has no wildcards. -/
private theorem isLiteral_productKey (key : ProductKey) : GitRules.isLiteral key.text = true := by
  unfold GitRules.isLiteral
  rw [List.all_eq_true]
  intro c hc
  have hwild : (['*', '?', '[', '\\'].all fun d =>
      d ≠ '-' && !(('a' ≤ d && d ≤ 'z') || ('0' ≤ d && d ≤ '9'))) = true := by decide
  refine decide_eq_true fun hmem => ?_
  have hplain := List.all_eq_true.1 hwild c hmem
  rw [Bool.and_eq_true, decide_eq_true_eq, Bool.not_eq_true'] at hplain
  rcases char_of_productKey key hc with hdash | hletter
  · exact hplain.1 hdash
  · rw [hplain.2] at hletter
    cases hletter

private theorem unrelated_of_starts {u v : List Text} (h : Unrelated u v) (hu : u <+: p) (hv : v <+: q) :
    Unrelated p q :=
  ⟨fun hpq => h.not_prefix (hu.trans hpq) hv, fun hqp => h.not_prefix hu (hv.trans hqp)⟩

/-- What a path to reset selects lies in the registry or below the outputs of the product. -/
private theorem starts_of_selects {productId : ProductId} {tableIds : List TableId}
    (hreset : isResetPath productKey productId tableIds r = true) (hselects : rules.selects r q = true) :
    (∃ area ∈ ["generated".toList, "quality".toList], ["products".toList, productKey.text, area] <+: q) ∨
      ["registry".toList] <+: q := by
  have hliteral := GitRules.literal_of_selects hselects
  rcases isResetPath_cases hreset with houtput | hregistry
  · obtain ⟨area, harea, rest, rfl⟩ := isOutputPath_cases houtput
    have hareas : ∀ area ∈ ["generated".toList, "quality".toList], GitRules.isLiteral area = true := by decide
    have hall : ∀ part ∈ ["products".toList, productKey.text, area], GitRules.isLiteral part = true := by
      intro part hpart
      rcases List.mem_cons.1 hpart with rfl | hpart
      · decide
      rcases List.mem_cons.1 hpart with rfl | hpart
      · exact isLiteral_productKey productKey
      · rw [List.mem_singleton.1 hpart]
        exact hareas area harea
    rw [List.takeWhile_append_of_pos hall] at hliteral
    exact Or.inl ⟨area, harea, (List.prefix_append _ _).trans hliteral⟩
  · right
    cases r with
    | nil => cases hregistry
    | cons part rest =>
      cases Option.some_inj.1 hregistry
      have hpart : GitRules.isLiteral "registry".toList = true := by decide
      rw [List.takeWhile_cons_of_pos hpart] at hliteral
      exact (List.prefix_append ["registry".toList] _).trans hliteral

private theorem starts_of_isIntakePath (h : isIntakePath productKey p = true) :
    ∃ name ∈ ["product.yaml".toList, "intake-manifest.json".toList, "sources".toList],
      ["products".toList, productKey.text, name] <+: p := by
  rcases isIntakePath_cases h with rfl | rfl | ⟨hsources, -⟩
  · exact ⟨_, by decide, List.prefix_rfl⟩
  · exact ⟨_, by decide, List.prefix_rfl⟩
  · exact ⟨_, by decide, hsources⟩

/-- An intake path and what a path to reset selects are not related. -/
private theorem unrelated_of_selects {productId : ProductId} {tableIds : List TableId}
    (hintake : isIntakePath productKey p = true) (hreset : isResetPath productKey productId tableIds r = true)
    (hselects : rules.selects r q = true) : Unrelated p q := by
  obtain ⟨name, hname, hp⟩ := starts_of_isIntakePath hintake
  rcases starts_of_selects hreset hselects with ⟨area, harea, hq⟩ | hq
  · have hnames : ∀ name ∈ ["product.yaml".toList, "intake-manifest.json".toList, "sources".toList],
        ∀ area ∈ ["generated".toList, "quality".toList], name ≠ area := by decide
    have hne : ["products".toList, productKey.text, name] ≠ ["products".toList, productKey.text, area] := by
      intro heq
      injection heq with _ heq
      injection heq with _ heq
      injection heq with heq
      exact hnames name hname area harea heq
    refine unrelated_of_starts ⟨fun h => hne ?_, fun h => hne.symm ?_⟩ hp hq
    · exact h.eq_of_length rfl
    · exact h.eq_of_length rfl
  · have hroots : "products".toList ≠ "registry".toList := by decide
    refine unrelated_of_starts ⟨fun h => ?_, fun h => ?_⟩ hp hq
    · exact hroots (List.cons_prefix_cons.1 h).1
    · exact hroots (List.cons_prefix_cons.1 h).1.symm

theorem requireAll_eq_ok {allowed : FilePath → Workflow Bool} {error : WorkflowError} {paths : List FilePath}
    (h : requireAll allowed error paths = .ok ()) : ∀ path ∈ paths, allowed path = .ok true := by
  induction paths with
  | nil => exact fun _ hmem => absurd hmem List.not_mem_nil
  | cons path paths ih =>
    obtain ⟨isAllowed, hallowed, h⟩ := bind_eq_ok.1 h
    obtain ⟨htrue, h⟩ := failIf_bind_eq_ok.1 h
    rw [Bool.not_eq_false] at htrue
    intro path' hmem
    rcases List.mem_cons.1 hmem with rfl | hmem
    · rw [hallowed, htrue]
    · exact ih h path' hmem

/-- A proper path is judged by its own parts. -/
private theorem judged_of_proper {checkout : Checkout} {judge : List Text → Bool} {b : Bool} (hp : ProperPath p)
    (h : (checkout.resolveWrite ⟨false, p⟩ >>= fun parts => pure (judge parts)) = .ok b) : b = judge p := by
  obtain ⟨parts, hparts, h⟩ := bind_eq_ok.1 h
  cases pure_eq_ok.1 h
  rw [GitRepository.resolveWrite_of_proper hp hparts]

end Paths

namespace BaseSync

variable {platform : Platform} {sync : BaseSync platform} {request : IssueRequest}

/-- The changed paths that are reset: all outside the intake, none of which belongs to another product. -/
private theorem resetPaths_eq_ok {manifest : IntakeManifest} {changed reset : List (List Text)}
    {repository : GitRepository} (hproper : ∀ p ∈ changed, ProperPath p)
    (h : sync.resetPaths request manifest changed repository = .ok reset) :
    (∀ p ∈ changed, isIntakePath request.intake.productKey p = false → p ∈ reset) ∧ (∀ p ∈ reset, ProperPath p) ∧
      ∃ tableIds, ∀ p ∈ reset, isResetPath request.intake.productKey manifest.productId tableIds p = true := by
  unfold resetPaths at h
  obtain ⟨judged, hjudged, h⟩ := bind_eq_ok.1 h
  obtain ⟨_, -, h⟩ := bind_eq_ok.1 h
  have hjudgement : ∀ p ∈ changed, ∀ judgement, (do
      let isIntake ← (repository.checkout sync.root sync.root_proper).isIntakeWriteAllowed request.intake.productKey
        ⟨false, p⟩
      pure (p, isIntake)) = Except.ok judgement → judgement = (p, isIntakePath request.intake.productKey p) := by
    intro p hp judgement hcheck
    obtain ⟨isIntake, hisIntake, hcheck⟩ := bind_eq_ok.1 hcheck
    cases pure_eq_ok.1 hcheck
    rw [judged_of_proper (hproper p hp) hisIntake]
  have hkept : ∀ p ∈ changed, isIntakePath request.intake.productKey p = false →
      p ∈ (judged.filter fun judgement => judgement.2 = false).map Prod.fst := by
    intro p hp hintake
    obtain ⟨judgement, hmem, hcheck⟩ := exists_of_mapM_eq_ok hjudged hp
    cases hjudgement p hp judgement hcheck
    exact List.mem_map.2 ⟨_, List.mem_filter.2 ⟨hmem, decide_eq_true hintake⟩, rfl⟩
  have hchanged : ∀ p ∈ (judged.filter fun judgement => judgement.2 = false).map Prod.fst, ProperPath p := by
    intro p hp
    obtain ⟨judgement, hmem, rfl⟩ := List.mem_map.1 hp
    obtain ⟨p, hp, hcheck⟩ := mem_of_mapM_eq_ok hjudged (List.mem_filter.1 hmem).1
    rw [hjudgement p hp judgement hcheck]
    exact hproper p hp
  split at h
  · rename_i hnil
    cases pure_eq_ok.1 h
    refine ⟨hkept, hchanged, [], fun p hp => ?_⟩
    rw [hnil] at hp
    exact absurd hp List.not_mem_nil
  · obtain ⟨tableIds, -, h⟩ := bind_eq_ok.1 h
    obtain ⟨_, hall, h⟩ := bind_eq_ok.1 h
    cases pure_eq_ok.1 h
    refine ⟨hkept, hchanged, tableIds, fun p hp => ?_⟩
    have hallowed := requireAll_eq_ok hall ⟨false, p⟩ (List.mem_map_of_mem hp)
    exact (judged_of_proper (hchanged p hp) hallowed).symm

/-! ### The synchronised tree -/

/-- The paths that the approved intake consists of. -/
private def IsRecorded (request : IssueRequest) (manifest : IntakeManifest) (p : List Text) : Prop :=
  p = request.intake.configPath ∨ p = request.intake.manifestPath ∨
    ∃ item ∈ manifest.files, p = request.intake.productRoot ++ (FilePath.ofText item.relativePath).parts

/-- Every recorded path is among the ones to restore, under its own name. -/
private theorem mem_of_isRecorded {n : ℕ} {manifest : IntakeManifest} {repository repository' : GitRepository}
    {relative : List (List Text)} (hmanifest : sync.existingIntake request n repository = .ok manifest)
    (hrelative : (intakePaths request manifest).mapM (repository'.checkout sync.root sync.root_proper).resolveWrite =
      .ok relative) {p : List Text} (hp : IsRecorded request manifest p) : p ∈ relative := by
  obtain ⟨-, hsafe, -⟩ := IssueIntake.recorded_of_prepareExistingIntake hmanifest
  have hdots : "..".toList ∉ p ∧ FilePath.mk false p ∈ intakePaths request manifest := by
    unfold intakePaths
    rcases hp with rfl | rfl | ⟨item, hitem, rfl⟩
    · exact ⟨fun hmem => (IssueIntake.proper_configPath _ hmem).1 rfl, List.mem_cons_self⟩
    · exact ⟨fun hmem => (IssueIntake.proper_manifestPath _ hmem).1 rfl, List.mem_cons_of_mem _ List.mem_cons_self⟩
    · obtain ⟨habsolute, hparts, -⟩ := hsafe item hitem
      constructor
      · rw [List.mem_append, not_or]
        refine ⟨fun hmem => ?_, hparts⟩
        exact (@IssueIntake.proper_configPath request.intake _ (List.mem_append_left _ hmem)).1 rfl
      · refine List.mem_cons_of_mem _ (List.mem_cons_of_mem _ (List.mem_map.2 ⟨item, hitem, ?_⟩))
        dsimp only
        rw [habsolute, if_neg (by decide)]
  obtain ⟨q, hq, hresolve⟩ := exists_of_mapM_eq_ok hrelative hdots.2
  rw [← Checkout.resolveWrite_relative hdots.1 hresolve]
  exact hq

private theorem entry_of_entry (sync : BaseSync platform) {t : GitTree} {p : List Text} {e : GitEntry}
    (h : t.entry p = some e) : (t.workspace sync.root sync.root_proper).entry p ≠ none ∧
      (t.workspace sync.root sync.root_proper).entry p ≠ some .directory := by
  have hentry : (t.workspace sync.root sync.root_proper).entry p = some e.fileEntry := GitTree.fileEntry_of_some h
  rw [hentry]
  refine ⟨Option.some_ne_none _, ?_⟩
  cases e with
  | file content executable => exact nofun
  | link target => exact nofun

/-- Where the recorded paths are those of an approved intake, all intake paths are: the sources have nothing else. -/
private theorem intake_of_recorded {n m : ℕ} {manifest manifest' : IntakeManifest}
    {repository repository' : GitRepository} (hmanifest : sync.existingIntake request n repository = .ok manifest)
    (hmanifest' : sync.existingIntake request m repository' = .ok manifest')
    (hrecorded : ∀ p, IsRecorded request manifest p →
      repository'.worktree.entry p = repository.worktree.entry p) {p : List Text}
    (hp : isIntakePath request.intake.productKey p = true) :
    repository'.worktree.entry p = repository.worktree.entry p := by
  obtain ⟨⟨content, hcontent, hload⟩, -, hsources⟩ := IssueIntake.recorded_of_prepareExistingIntake hmanifest
  obtain ⟨⟨content', hcontent', hload'⟩, -, hsources'⟩ := IssueIntake.recorded_of_prepareExistingIntake hmanifest'
  have hsame : manifest' = manifest := by
    obtain ⟨executable, hfile⟩ := GitTree.entry_of_file hcontent
    have hfile' := GitTree.fileEntry_of_some ((hrecorded _ (Or.inr (Or.inl rfl))).trans hfile)
    cases hfile'.symm.trans hcontent'
    exact Option.some_inj.1 (hload'.symm.trans hload)
  subst hsame
  -- a file below the sources is a recorded one, in both trees
  rcases isIntakePath_cases hp with rfl | rfl | ⟨hbelow, hne⟩
  · exact hrecorded _ (Or.inl rfl)
  · exact hrecorded _ (Or.inr (Or.inl rfl))
  · cases hentry' : repository'.worktree.entry p with
    | some e =>
      obtain ⟨hsome, hdirectory⟩ := sync.entry_of_entry hentry'
      obtain ⟨item, hitem, hpath⟩ := hsources' p hbelow hne hsome hdirectory
      rw [← hentry']
      exact hrecorded p (Or.inr (Or.inr ⟨item, hitem, hpath⟩))
    | none =>
      cases hentry : repository.worktree.entry p with
      | none => rfl
      | some e =>
        obtain ⟨hsome, hdirectory⟩ := sync.entry_of_entry hentry
        obtain ⟨item, hitem, hpath⟩ := hsources p hbelow hne hsome hdirectory
        rw [← hentry, ← hentry']
        exact hrecorded p (Or.inr (Or.inr ⟨item, hitem, hpath⟩))

/-- A path outside the intake is as in the merge when the restored intake has been committed. -/
private theorem outside_of_commit {tree : GitTree} {repository repository' : GitRepository} {fault : Workflow Unit}
    {result : CommitResult} {productKey : ProductKey}
    (hhead : ∃ commit, repository.commits.lookup repository.head = some commit ∧
      ∀ p, commit.tree.entry p = tree.entry p)
    (h : repository.commitPaths sync.rules sync.root sync.root_proper fault
      (fun checkout => checkout.isIntakeWriteAllowed productKey) "INTAKE_PATH_NOT_ALLOWED" = .ok (result, repository'))
    {p : List Text} (hp : isIntakePath productKey p = false) : ∃ commit,
      repository'.commits.lookup repository'.head = some commit ∧ commit.tree.entry p = tree.entry p := by
  obtain ⟨-, -, -, -, -, commit', -, hcommit', -, hallowed⟩ := GitRepository.commitPaths_eq_ok hhead h
  refine ⟨commit', hcommit', ?_⟩
  by_contra hne
  obtain ⟨hproper, hcheck⟩ := hallowed p (Ne.symm hne)
  rw [← judged_of_proper hproper hcheck] at hp
  cases hp

/-- What a synchronisation may write: the places of the intake, and what the candidate has changed. -/
def IsTouched (productKey : ProductKey) (before after : GitTree) (p : List Text) : Prop :=
  (∃ name ∈ ["product.yaml".toList, "intake-manifest.json".toList, "sources".toList],
    ["products".toList, productKey.text, name] <+: p) ∨ before.entry p ≠ after.entry p

/-- What the recorded paths select lies at a place of the intake. -/
private theorem starts_of_selected {n : ℕ} {manifest : IntakeManifest} {repository repository' : GitRepository}
    {relative : List (List Text)} (hmanifest : sync.existingIntake request n repository = .ok manifest)
    (hrelative : (intakePaths request manifest).mapM (repository'.checkout sync.root sync.root_proper).resolveWrite =
      .ok relative) {q : List Text} (hq : GitRepository.selected sync.rules relative q = true) :
    ∃ name ∈ ["product.yaml".toList, "intake-manifest.json".toList, "sources".toList],
      ["products".toList, request.intake.productKey.text, name] <+: q := by
  obtain ⟨r, hr, hselects⟩ := List.any_eq_true.1 hq
  have hnames : ∀ name ∈ ["product.yaml".toList, "intake-manifest.json".toList, "sources".toList],
      GitRules.isLiteral name = true := by decide
  -- the first three names of a recorded path have no wildcards
  have hstarts : ∃ name ∈ ["product.yaml".toList, "intake-manifest.json".toList, "sources".toList], ∃ rest,
      r = ["products".toList, request.intake.productKey.text, name] ++ rest := by
    obtain ⟨path, hpath, hresolve⟩ := mem_of_mapM_eq_ok hrelative hr
    obtain ⟨-, hsafe, -⟩ := IssueIntake.recorded_of_prepareExistingIntake hmanifest
    unfold intakePaths at hpath
    rcases List.mem_cons.1 hpath with rfl | hpath
    · refine ⟨"product.yaml".toList, by decide, [], ?_⟩
      exact Checkout.resolveWrite_relative (fun hmem => (IssueIntake.proper_configPath _ hmem).1 rfl) hresolve
    rcases List.mem_cons.1 hpath with rfl | hpath
    · refine ⟨"intake-manifest.json".toList, by decide, [], ?_⟩
      exact Checkout.resolveWrite_relative (fun hmem => (IssueIntake.proper_manifestPath _ hmem).1 rfl) hresolve
    · obtain ⟨item, hitem, rfl⟩ := List.mem_map.1 hpath
      obtain ⟨habsolute, hdots, hhead⟩ := hsafe item hitem
      dsimp only at hresolve
      rw [habsolute, if_neg (by decide)] at hresolve
      obtain ⟨rest, hrest⟩ := List.head?_eq_some_iff.1 hhead
      refine ⟨"sources".toList, by decide, rest, ?_⟩
      rw [Checkout.resolveWrite_relative ?_ hresolve, hrest]
      · rfl
      · rw [List.mem_append, not_or]
        refine ⟨fun hmem => ?_, hdots⟩
        exact (@IssueIntake.proper_configPath request.intake _ (List.mem_append_left _ hmem)).1 rfl
  obtain ⟨name, hname, rest, rfl⟩ := hstarts
  have hall : ∀ part ∈ ["products".toList, request.intake.productKey.text, name], GitRules.isLiteral part = true := by
    intro part hpart
    rcases List.mem_cons.1 hpart with rfl | hpart
    · decide
    rcases List.mem_cons.1 hpart with rfl | hpart
    · exact isLiteral_productKey request.intake.productKey
    · rw [List.mem_singleton.1 hpart]
      exact hnames name hname
  have hliteral := GitRules.literal_of_selects hselects
  rw [List.takeWhile_append_of_pos hall] at hliteral
  exact ⟨name, hname, (List.prefix_append _ _).trans hliteral⟩

/-- The tree that is left: the intake of the head, and the base for the rest. -/
private theorem mergeAndRestore_eq_ok {baseSha headSha mergeBase : GitCommitSha} {before after : GitTree}
    {manifest : IntakeManifest} {changed reset : List (List Text)} {tableIds : List TableId}
    {results : CommitResult × CommitResult × CommitResult} {repository repository' : GitRepository}
    (hat : repository.IsAt after) (hheadSha : repository.head = headSha)
    (hmergeBase : repository.mergeBase sync.rules headSha baseSha = some mergeBase)
    (hbefore : ∀ error, repository.treeAt mergeBase error = .ok before)
    (hafter : ∀ error, repository.treeAt headSha error = .ok after)
    (hplain : ∀ p, IsTouched request.intake.productKey before after p → sync.rules.Plain p)
    (hchanged : ∀ p, before.entry p ≠ after.entry p → p ∈ changed)
    (hmanifest : sync.existingIntake request 0 repository = .ok manifest)
    (hkept : ∀ p ∈ changed, isIntakePath request.intake.productKey p = false → p ∈ reset)
    (hproper : ∀ p ∈ reset, ProperPath p)
    (hreset : ∀ p ∈ reset, isResetPath request.intake.productKey manifest.productId tableIds p = true)
    (h : sync.mergeAndRestore request baseSha headSha (intakePaths request manifest) (reset.map (FilePath.mk false))
      repository = .ok (results, repository')) :
    repository.Extends repository' ∧ repository'.published = repository.published ∧
      results.2.2.sha = repository'.head ∧ ∃ theirs, (∀ error, repository.treeAt baseSha error = .ok theirs) ∧
        ∃ commit, repository'.commits.lookup repository'.head = some commit ∧ ∀ p, commit.tree.entry p =
          if isIntakePath request.intake.productKey p = true then after.entry p else theirs.entry p := by
  subst hheadSha
  unfold mergeAndRestore at h
  obtain ⟨⟨merge, repository₁⟩, hmerge, h⟩ := bind_eq_ok.1 h
  obtain ⟨repository₂, hintake, h⟩ := bind_eq_ok.1 h
  obtain ⟨⟨preserved, repository₃⟩, hpreserved, h⟩ := bind_eq_ok.1 h
  obtain ⟨manifest', hmanifest', h⟩ := bind_eq_ok.1 h
  obtain ⟨repository₄, hrestore, h⟩ := bind_eq_ok.1 h
  obtain ⟨⟨resetResult, repository₅⟩, hcommit, h⟩ := bind_eq_ok.1 h
  cases pure_eq_ok.1 h
  have hmerge := mapError_eq_ok.1 hmerge
  have hintake := mapError_eq_ok.1 hintake
  have hpreserved := mapError_eq_ok.1 hpreserved
  have hrestore := mapError_eq_ok.1 hrestore
  have hcommit := mapError_eq_ok.1 hcommit
  obtain ⟨hextends₁, hpublished₁, merged, hat₁, theirs, htheirs, hmerged⟩ :=
    GitRepository.mergeRevision_eq_ok hat hmergeBase hbefore hmerge
  obtain ⟨hcommits₂, hhead₂, hpublished₂, relative, hrelative, hrestored⟩ :=
    GitRepository.restorePaths_eq_ok hat₁ hintake
  obtain ⟨hselected, hother⟩ := hrestored after fun error => hextends₁.treeAt (hafter error)
  have hhead₂ : ∃ commit, repository₂.commits.lookup repository₂.head = some commit ∧
      ∀ p, commit.tree.entry p = merged.entry p := by
    rw [hcommits₂, hhead₂]
    exact hat₁.head
  -- the commit takes the restored intake as it is
  have hseen₂ : ∀ p, repository₂.worktree.entry p = merged.entry p ∨ repository₂.worktree.entry p = none ∨
      sync.rules.Plain p := by
    intro p
    by_cases hp : GitRepository.selected sync.rules relative p = true
    · exact Or.inr (Or.inr (hplain p (Or.inl (starts_of_selected hmanifest hrelative hp))))
    · exact (hother p (Bool.eq_false_iff.2 hp)).imp id fun hway => Or.inl hway.2
  have hat₃ := GitRepository.isAt_of_commitPaths hhead₂ hseen₂ hpreserved
  obtain ⟨hextends₃, hpublished₃, -, hworktree₃, -⟩ := GitRepository.commitPaths_eq_ok hhead₂ hpreserved
  have houtside : ∀ p, isIntakePath request.intake.productKey p = false →
      repository₂.worktree.entry p = merged.entry p := by
    intro p hp
    obtain ⟨commit, hlookup, hentry⟩ := outside_of_commit hhead₂ hpreserved hp
    obtain ⟨commit', hlookup', hentries⟩ := hat₃.head
    cases hlookup.symm.trans hlookup'
    rw [← hentries, hentry]
  obtain ⟨hcommits₄, hhead₄, hpublished₄, relative', hrelative', hrestored'⟩ :=
    GitRepository.restorePaths_eq_ok hat₃ hrestore
  have hextends : repository.Extends repository₃ := by
    refine hextends₁.trans (GitRepository.Extends.trans ?_ hextends₃)
    intro sha commit hlookup
    rw [hcommits₂]
    exact hlookup
  obtain ⟨hselected', hother'⟩ := hrestored' theirs fun error => hextends.treeAt (htheirs error)
  have hhead₄ : ∃ commit, repository₄.commits.lookup repository₄.head = some commit ∧
      ∀ p, commit.tree.entry p = repository₂.worktree.entry p := by
    rw [hcommits₄, hhead₄]
    exact hat₃.head
  -- what is reset and not seen as it is, is as it was
  have hseen₄ : ∀ p, repository₄.worktree.entry p = repository₂.worktree.entry p ∨
      repository₄.worktree.entry p = none ∨ sync.rules.Plain p := by
    intro p
    by_cases hp : GitRepository.selected sync.rules relative' p = true
    · by_cases htouched : IsTouched request.intake.productKey before after p
      · exact Or.inr (Or.inr (hplain p htouched))
      · obtain ⟨hplace, hsame⟩ := not_or.1 htouched
        have hintake : isIntakePath request.intake.productKey p = false :=
          Bool.eq_false_iff.2 fun hintake => hplace (starts_of_isIntakePath hintake)
        left
        rw [hselected' p hp, houtside p hintake, hmerged p (not_not.1 hsame).symm]
    · exact (hother' p (Bool.eq_false_iff.2 hp)).imp id fun hway => Or.inl hway.2
  have hat₅ := GitRepository.isAt_of_commitPaths hhead₄ hseen₄ hcommit
  obtain ⟨hextends₅, hpublished₅, hsha, -⟩ := GitRepository.commitPaths_eq_ok hhead₄ hcommit
  -- the paths to reset are resolved to themselves
  have hresolved : ∀ p, p ∈ relative' ↔ p ∈ reset := by
    intro p
    constructor
    · intro hp
      obtain ⟨path, hpath, hresolve⟩ := mem_of_mapM_eq_ok hrelative' hp
      obtain ⟨q, hq, rfl⟩ := List.mem_map.1 hpath
      rw [GitRepository.resolveWrite_of_proper (hproper q hq) hresolve]
      exact hq
    · intro hp
      obtain ⟨q, hq, hresolve⟩ := exists_of_mapM_eq_ok hrelative' (List.mem_map_of_mem hp)
      rw [← GitRepository.resolveWrite_of_proper (hproper p hp) hresolve]
      exact hq
  have hunrelated : ∀ p q, isIntakePath request.intake.productKey p = true →
      GitRepository.selected sync.rules relative' q = true → Unrelated p q := by
    intro p q hp hq
    obtain ⟨r, hr, hselects⟩ := List.any_eq_true.1 hq
    exact unrelated_of_selects hp (hreset r ((hresolved r).1 hr)) hselects
  have hin : ∀ p, isIntakePath request.intake.productKey p = true →
      repository₂.worktree.entry p = repository.worktree.entry p := by
    intro p hp
    rw [← hworktree₃]
    refine intake_of_recorded hmanifest hmanifest' (fun q hq => ?_) hp
    rw [hworktree₃, hselected q, hat.worktree]
    exact List.any_eq_true.2 ⟨q, mem_of_isRecorded hmanifest hrelative hq, GitRules.selects_self q⟩
  refine ⟨?_, ?_, hsha, theirs, htheirs, ?_⟩
  · refine hextends.trans (GitRepository.Extends.trans ?_ hextends₅)
    intro sha commit hlookup
    rw [hcommits₄]
    exact hlookup
  · rw [hpublished₅, hpublished₄, hpublished₃, hpublished₂, hpublished₁]
  · obtain ⟨commit, hlookup, hentries⟩ := hat₅.head
    refine ⟨commit, hlookup, fun p => ?_⟩
    rw [hentries]
    by_cases hp : isIntakePath request.intake.productKey p = true
    · rw [if_pos hp, ← hat.worktree, ← hin p hp]
      have hfree : GitRepository.selected sync.rules relative' p = false := by
        by_contra hselects
        rw [Bool.not_eq_false] at hselects
        exact (hunrelated p p hp hselects).1 List.prefix_rfl
      rcases hother' p hfree with hstays | ⟨⟨q, -, hq, -, hway⟩, -⟩
      · exact hstays
      · exact absurd hway (not_or.2 (hunrelated p q hp hq))
    · rw [if_neg hp]
      rw [Bool.not_eq_true] at hp
      by_cases hselects : GitRepository.selected sync.rules relative' p = true
      · exact hselected' p hselects
      · -- the head has not changed the path, so that the merge has it from the base
        rw [Bool.not_eq_true] at hselects
        have hunchanged : before.entry p = after.entry p := by
          by_contra hne
          have hmem := (hresolved p).2 (hkept p (hchanged p hne) hp)
          rw [GitRepository.selected, List.any_eq_false] at hselects
          exact hselects p hmem (GitRules.selects_self p)
        have hbase : repository₂.worktree.entry p = theirs.entry p := by
          rw [houtside p hp]
          exact hmerged p hunchanged.symm
        rcases hother' p hselects with hstays | ⟨⟨q, -, hq, hexists, hway⟩, hnone⟩
        · rw [hstays, hbase]
        · rw [hnone]
          by_contra hne
          have hpq : p = q := by
            rcases hway with hpq | hqp
            · exact theirs.leaf p q (Ne.symm hne) hexists hpq
            · exact (theirs.leaf q p hexists (Ne.symm hne) hqp).symm
          rw [hpq, hq] at hselects
          cases hselects

/-- The candidate is the head of its pull request, and the paths that it changed are known. -/
private theorem checkCandidate_eq_ok {baseSha : GitCommitSha} {repository : GitRepository}
    {pullRequest : PullRequest} {changed : List (List Text)}
    (h : sync.checkCandidate request baseSha repository = .ok (pullRequest, changed)) :
    repository.head = pullRequest.headSha ∧
      repository.changedPaths sync.rules sync.root sync.root_proper (sync.fault 1) baseSha pullRequest.headSha =
        .ok changed := by
  unfold checkCandidate at h
  obtain ⟨_, -, h⟩ := bind_eq_ok.1 h
  obtain ⟨_, -, h⟩ := bind_eq_ok.1 h
  obtain ⟨_, -, h⟩ := bind_eq_ok.1 h
  obtain ⟨_, -, h⟩ := bind_eq_ok.1 h
  obtain ⟨-, h⟩ := failIf_bind_eq_ok.1 h
  obtain ⟨hhead, h⟩ := failIf_bind_eq_ok.1 h
  obtain ⟨_, -, h⟩ := bind_eq_ok.1 h
  obtain ⟨_, -, h⟩ := bind_eq_ok.1 h
  obtain ⟨_, hchanged, h⟩ := bind_eq_ok.1 h
  cases pure_eq_ok.1 h
  exact ⟨not_not.1 hhead, hchanged⟩

/-- What is published is the head, which has the base among its ancestors. -/
private theorem publish_eq_ok {pullRequest : PullRequest} {baseSha finalSha : GitCommitSha}
    {repository repository' : GitRepository}
    (h : sync.publish request pullRequest baseSha finalSha repository = .ok repository') :
    Ancestor repository.parents baseSha finalSha ∧
      repository' = { repository with published := repository.published ++ [(request.branch, repository.head)] } := by
  unfold publish at h
  obtain ⟨hancestor, h⟩ := failIf_bind_eq_ok.1 h
  obtain ⟨_, -, h⟩ := bind_eq_ok.1 h
  obtain ⟨_, h⟩ := failIf_bind_eq_ok.1 h
  obtain ⟨_, -, h⟩ := bind_eq_ok.1 h
  obtain ⟨pushed, hpush, h⟩ := bind_eq_ok.1 h
  obtain ⟨_, -, h⟩ := bind_eq_ok.1 h
  cases pure_eq_ok.1 h
  unfold GitRepository.push at hpush
  obtain ⟨_, -, hpush⟩ := bind_eq_ok.1 hpush
  cases pure_eq_ok.1 hpush
  rw [Bool.not_eq_false] at hancestor
  exact ⟨GitRepository.ancestor_of_isAncestor hancestor, rfl⟩

/-- What a synchronisation has published: a head that has the base among its ancestors and whose tree is that of the
base, but for the intake paths of the product, which are those of the candidate.  The intake of the candidate is
approved, and its sources are the recorded ones. -/
structure IsSynchronized (sync : BaseSync platform) (request : IssueRequest) (baseSha finalSha : GitCommitSha)
    (repository repository' : GitRepository) (base candidate pushed : GitCommit) : Prop where
  base_at : repository.commits.lookup baseSha = some base
  candidate_at : repository.commits.lookup repository.head = some candidate
  pushed_at : repository'.commits.lookup finalSha = some pushed
  published : repository'.published = repository.published ++ [(request.branch, finalSha)]
  ancestor : Ancestor repository'.parents baseSha finalSha
  tree : ∀ p, pushed.tree.entry p =
    if isIntakePath request.intake.productKey p = true then candidate.tree.entry p else base.tree.entry p
  approved : ∃ manifest, sync.existingIntake request 0 repository = .ok manifest ∧
    ∀ p, request.intake.sources <+: p → p ≠ request.intake.sources → candidate.tree.entry p ≠ none →
      ∃ item ∈ manifest.files, p = request.intake.productRoot ++ (FilePath.ofText item.relativePath).parts

/-- The working tree is a checkout of the candidate, and git neither ignores nor converts what the synchronisation may
write. -/
structure IsPlainCheckout (sync : BaseSync platform) (request : IssueRequest) (baseSha : GitCommitSha)
    (repository : GitRepository) : Prop where
  checkout : ∀ candidate, repository.commits.lookup repository.head = some candidate →
    ∀ p, repository.worktree.entry p = candidate.tree.entry p
  plain : ∀ mergeBase before candidate, repository.mergeBase sync.rules repository.head baseSha = some mergeBase →
    repository.commits.lookup mergeBase = some before → repository.commits.lookup repository.head = some candidate →
      ∀ p, IsTouched request.intake.productKey before.tree candidate.tree p → sync.rules.Plain p

section Warehouse

open IssueIntake

/-- A tree of some files. -/
private def treeOf (files : List (List Text × GitEntry)) (h : (∀ p ∈ files.map Prod.fst, p ≠ [] ∧ ProperPath p) ∧
    ∀ p ∈ files.map Prod.fst, ∀ q ∈ files.map Prod.fst, p <+: q → p = q) : GitTree :=
  have hmem : ∀ p, files.lookup p ≠ none → p ∈ files.map Prod.fst := by
    intro p hp
    by_contra hnot
    refine hp (List.lookup_eq_none_iff.2 fun file hfile => bne_iff_ne.2 fun heq => hnot ?_)
    exact heq ▸ List.mem_map_of_mem hfile
  { entry := fun p => files.lookup p
    paths := files.map Prod.fst
    complete := hmem
    proper := fun p hp => h.1 p (hmem p hp)
    leaf := fun p q hp hq => h.2 p (hmem p hp) q (hmem q hq) }

private def textFile (content : String) : GitEntry := .file (Text.utf8 content.toList) false

private def readme (content : String) : List Text × GitEntry := (["README.md".toList], textFile content)

private def intakeEnv : IntakeEnvironment :=
  warehouseEnv [.obj (createWarehouse.mergedConfig warehouseId [])] (warehouseManifest createWarehouse)

private def intakeFiles : List (List Text × GitEntry) :=
  (createWarehouse.configPath,
      .file (jsonBytes (.obj (createWarehouse.mergedConfig warehouseId []))) false) ::
    (createWarehouse.manifestPath, .file (jsonBytes (manifestJson (warehouseManifest createWarehouse))) false) ::
    AttachmentRole.all.map fun role => (createWarehouse.destination role,
      .file (Text.utf8 (createWarehouse.attachments role).filename) false)

private def registryPath (folder : String) : List Text :=
  ["registry".toList, folder.toList, warehouseId.text ++ ".json".toList]

/-- The product as it was registered for the candidate. -/
private def outputFiles : List (List Text × GitEntry) :=
  [(createWarehouse.productRoot ++ ["generated".toList, "terms.md".toList], textFile "Terms"),
    (registryPath "products", textFile "product"), (registryPath "mappings", textFile "[]")]

private def oldTree : GitTree := treeOf [readme "Products"] (by decide +kernel)

private def baseTree : GitTree :=
  treeOf [readme "All products", (["LICENSE".toList], textFile "License")] (by decide +kernel)

private def candidateTree : GitTree := treeOf (readme "Products" :: (intakeFiles ++ outputFiles)) (by decide +kernel)

private theorem synchronizedSha_hex (c : Char) (hc : isLowerHex c = true) :
    (List.replicate 40 c).all isLowerHex = true := by
  simp [hc]

private theorem synchronizedSha_length (c : Char) :
    (List.replicate 40 c).length = 40 ∨ (List.replicate 40 c).length = 64 :=
  Or.inl (List.length_replicate ..)

private def exampleSha (c : Char) (hc : isLowerHex c = true) : GitCommitSha where
  text := List.replicate 40 c
  hex := synchronizedSha_hex c hc
  length := synchronizedSha_length c

private def oldSha : GitCommitSha := exampleSha 'a' (Eq.refl true)

private def baseSha : GitCommitSha := exampleSha 'b' (Eq.refl true)

private def candidateSha : GitCommitSha := exampleSha 'c' (by decide)

private def mergeSha : GitCommitSha := exampleSha 'd' (by decide)

private def resetSha : GitCommitSha := exampleSha 'e' (by decide)

private def candidateRepository : GitRepository where
  commits := Dict.ofList [(oldSha, ⟨oldTree, []⟩), (baseSha, ⟨baseTree, [oldSha]⟩),
    (candidateSha, ⟨candidateTree, [oldSha]⟩)]
  head := candidateSha
  worktree := candidateTree
  published := []

private def warehouseRequest : IssueRequest := ⟨7, "main".toList, createWarehouse⟩

private def warehousePr : PullRequest :=
  ⟨12, warehouseRequest.branch, candidateSha, "main".toList, true, true⟩

private def plainPlatform : Platform := ⟨id, id, Char.isDigit, fun _ => []⟩

private def warehouseProduct : ProductRecord plainPlatform where
  productId := warehouseId
  productKey := createWarehouse.productKey
  version := ⟨1, one_isVersion⟩
  status := .active
  displayName := none
  aliases := []
  canonicalHash := none
  metrics := []
  relationships := []
  metrics_unique := by decide
  relationships_unique := by decide

private def warehouseSync : BaseSync plainPlatform where
  intake := intakeEnv
  root := checkoutRoot
  root_proper := checkoutRoot_proper
  rules := {
    combine := fun _ ours theirs => if ours = theirs then some ours else none
    mergeBase := fun _ _ _ => some oldSha
    newSha := fun commits _ => if commits.entries.length = 3 then mergeSha else resetSha
    wildcard := fun _ _ => false
    wildcard_literal := fun _ _ h => nomatch h
    ignored := fun _ p => p.head? = some ".cache".toList
    clean := fun _ _ e => e }
  newId _ := warehouseId
  staging _ := temporaryRoot
  staging_proper _ := by decide
  findOpenPr _ _ := .ok (some warehousePr)
  remoteBranchSha n branch :=
    .ok (some (if branch = "main".toList then baseSha else if n = 6 then resetSha else candidateSha))
  fault _ := .ok ()
  loadProduct content := if content = Text.utf8 "product".toList then some warehouseProduct else none
  loadMappings content := if content = Text.utf8 "[]".toList then some [] else none
  loadTable _ := none

private def noMarker : PullRequest → GitRepository → Service (BaseSyncOutputs × GitRepository) :=
  fun _ _ => .error (.workflow (.security "ISSUE_BASE_SYNC_TRACKING_MARKER_INVALID" []))

private def isSynchronization : Service (BaseSyncResult × GitRepository) → Bool
  | .ok (.synchronized _, _) => true
  | _ => false

private theorem warehouse_isPlainCheckout :
    warehouseSync.IsPlainCheckout warehouseRequest baseSha candidateRepository := by
  have hcandidate : candidateRepository.commits.lookup candidateRepository.head = some ⟨candidateTree, [oldSha]⟩ := rfl
  refine ⟨fun candidate h p => ?_, fun mergeBase before candidate hmergeBase hbefore h p htouched => ?_⟩
  · cases hcandidate.symm.trans h
    rfl
  · cases hcandidate.symm.trans h
    have hold : candidateRepository.mergeBase warehouseSync.rules candidateRepository.head baseSha = some oldSha := by
      decide +kernel
    cases hold.symm.trans hmergeBase
    have hprevious : candidateRepository.commits.lookup oldSha = some ⟨oldTree, []⟩ := rfl
    cases hprevious.symm.trans hbefore
    refine ⟨fun worktree => decide_eq_false ?_, fun _ _ => rfl⟩
    rcases htouched with ⟨name, -, rest, rfl⟩ | hne
    · exact fun hhead => absurd (Option.some.inj hhead) (by decide)
    · have hchanges : ∀ q ∈ oldTree.changes candidateTree, q.head? ≠ some ".cache".toList := by decide +kernel
      exact hchanges p (GitTree.mem_changes.2 hne)

/-- An output that an ignore rule of the repository matches. -/
private def draft : List Text × GitEntry :=
  (createWarehouse.productRoot ++ ["generated".toList, "draft.md".toList], textFile "Draft")

private def draftBaseTree : GitTree := treeOf [readme "All products", draft] (by decide +kernel)

private def draftRepository : GitRepository where
  commits := Dict.ofList [(oldSha, ⟨treeOf [readme "Products", draft] (by decide +kernel), []⟩),
    (baseSha, ⟨draftBaseTree, [oldSha]⟩), (candidateSha, ⟨candidateTree, [oldSha]⟩)]
  head := candidateSha
  worktree := candidateTree
  published := []

private def draftSync : BaseSync plainPlatform :=
  { warehouseSync with rules := { warehouseSync.rules with ignored := fun _ p => p = draft.1 } }

private def losesDraft : Service (BaseSyncResult × GitRepository) → Bool
  | .ok (.synchronized outputs, repository) =>
    (repository.commits.lookup outputs.expectedHead).any fun pushed => (pushed.tree.entry draft.1).isNone
  | _ => false

end Warehouse

end BaseSync

end ArdOssie
