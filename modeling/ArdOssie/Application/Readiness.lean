import ArdOssie.Adapters.PullRequests
import ArdOssie.Registry.Store

/-!
# Readiness of changesets

A ready request records the head of a product's tracking pull request in the changeset, verifies the recorded heads of
all products, and sets the status of every open tracking pull request.  The recorded heads are verified on the pull
requests with the recorded numbers, while the statuses go to the heads of the pull requests that are open then.
-/

namespace ArdOssie

/-! ### Evidence at a tracking head -/

section Readiness

variable {platform : Platform}

/-- The parsers of the evidence; a text that is not valid has no value. -/
structure EvidenceCodec (platform : Platform) where
  /-- `ProductRecord.model_validate_json` -/
  product : Text → Option (ProductRecord platform)
  /-- `yaml.safe_load` -/
  yaml : Text → Option Json
  /-- `json.loads` -/
  json : Text → Option Json

/-- `git.read_text_at` -/
abbrev ReadTextAt := GitCommitSha → List Text → Workflow Text

variable (codec : EvidenceCodec platform)

private def headInvalid : WorkflowError :=
  .security "CHANGESET_TRACKING_HEAD_INVALID" "tracking PR head does not contain valid product evidence".toList

/-- The record, the config and the marker belong to the product and the changeset. -/
def EvidenceMatches (currentProduct product : ProductRecord platform) (changesetId : ChangeSetId) (config marker : Json) :
    Prop :=
  product.productId = currentProduct.productId ∧ product.productKey = currentProduct.productKey ∧
    config.isObject = true ∧ (config.field "product_id").isText currentProduct.productId.text = true ∧
    (config.field "product_key").isText currentProduct.productKey.text = true ∧
    (config.field "version").isNat product.version = true ∧
    (config.field "changeset_id").isText changesetId.text = true ∧ marker.isObject = true ∧
    (marker.field "changeset_id").isText changesetId.text = true ∧
    (marker.field "product_id").isText currentProduct.productId.text = true ∧
    (marker.field "status").isText "required".toList = true

instance (currentProduct product : ProductRecord platform) (changesetId : ChangeSetId) (config marker : Json) :
    Decidable (EvidenceMatches currentProduct product changesetId config marker) :=
  inferInstanceAs (Decidable (_ ∧ _))

/-- `_tracking_product_at_head` -/
def trackingProductAtHead (read : ReadTextAt) (headSha : GitCommitSha) (currentProduct : ProductRecord platform)
    (changesetId : ChangeSetId) : Workflow (ProductRecord platform) := do
  let productKey := currentProduct.productKey.text
  let record ← read headSha ["registry".toList, "products".toList, currentProduct.productId.text ++ ".json".toList]
  let product ← require (codec.product record) headInvalid
  let productYaml ← read headSha ["products".toList, productKey, "product.yaml".toList]
  let config ← require (codec.yaml productYaml) headInvalid
  let markerText ← read headSha
    ["products".toList, productKey, "changesets".toList, changesetId.text ++ ".json".toList]
  let marker ← require (codec.json markerText) headInvalid
  failIf (¬ EvidenceMatches currentProduct product changesetId config marker)
    (.security "CHANGESET_TRACKING_HEAD_MISMATCH"
      "tracking PR head evidence does not match the changeset product".toList)
  pure product

/-! ### Ready requests -/

/-- A `ChangesetRequest` of mode `ready`, which has all of these fields. -/
structure ReadyRequest where
  changesetId : ChangeSetId
  productId : Text
  version : Version
  prNumber : ℕ
  prNumber_pos : 0 < prNumber
  headSha : GitCommitSha
  headSha_short : headSha.text.length = 40
  baseBranch : Text

def coordinationBranch (changesetId : ChangeSetId) : Text := "ard/changeset-".toList ++ changesetId.text

def trackingBranch (changesetId : ChangeSetId) (productKey : ProductKey) : Text :=
  "ard/".toList ++ changesetId.text ++ '-' :: productKey.text

/-- What git answers while an existing branch is checked out. -/
structure BranchAnswers where
  existingHead : Workflow (Option GitCommitSha)
  switched : Workflow Unit
  currentSha : Workflow GitCommitSha
  changedPaths : Workflow (List (List Text))
  baseHead : Workflow (Option GitCommitSha)
  isAncestor : Workflow Bool

/-- `_switch_existing_scoped_branch` -/
def switchExistingScopedBranch (answers : BranchAnswers) (expectedPaths : List (List Text)) (code : String) :
    Workflow Unit := do
  let existingHead ← answers.existingHead
  answers.switched
  match existingHead with
  | none => pure ()
  | some head =>
    let current ← answers.currentSha
    failIf (current ≠ head) (.security code "existing branch checkout is not its remote head".toList)
    let changed ← answers.changedPaths
    let unexpected := WorkflowError.security code "existing managed branch contains unexpected committed paths".toList
    if (∀ p ∈ changed, p ∈ expectedPaths) ∧ ∀ p ∈ expectedPaths, p ∈ changed then pure ()
    else if changed = [] then
      match ← answers.baseHead with
      | none => .error unexpected
      | some _ => failIf ((← answers.isAncestor) = false) unexpected
    else .error unexpected

/-- What git and GitHub answer while the record is published. -/
structure PublishAnswers where
  committed : Workflow Bool
  pushed : Workflow Unit
  openPr : Workflow (Option PullRequest)
  createdPr : Workflow PullRequest
  remoteHead : Workflow (Option GitCommitSha)
  currentSha : Workflow GitCommitSha
  qualityGate : Workflow Unit
  changesetStatus : Workflow Unit

/-- `_ensure_pr` -/
def ensurePr (answers : PublishAnswers) (branch base : Text) : Workflow PullRequest := do
  match ← answers.openPr with
  | some existing =>
    let remoteHead ← answers.remoteHead
    let mismatch := WorkflowError.security "CHANGESET_PULL_REQUEST_MISMATCH"
      "managed changeset PR has unexpected properties".toList
    failIf (existing.baseBranch ≠ base ∨ existing.draft = false ∨ some existing.headSha ≠ remoteHead) mismatch
    failIf (some (← answers.currentSha) ≠ remoteHead) mismatch
    pure existing
  | none =>
    let created ← answers.createdPr
    let remoteHead ← answers.remoteHead
    let mismatch := WorkflowError.security "CHANGESET_PULL_REQUEST_MISMATCH"
      "created changeset PR has unexpected properties".toList
    failIf (created.baseBranch ≠ base ∨ created.draft = false ∨ created.headBranch ≠ branch ∨
      some created.headSha ≠ remoteHead) mismatch
    failIf (some (← answers.currentSha) ≠ remoteHead) mismatch
    pure created

/-- What a ready run reads: every call is answered at a time of its own. -/
structure ReadyRun (platform : Platform) where
  request : ReadyRequest
  branch : BranchAnswers
  registry : Registry platform
  pullRequest : Workflow ℕ
  readAtRequest : ReadTextAt
  publish : PublishAnswers
  /-- The pull request and the files of each recorded product. -/
  verified : ℕ → Workflow ℕ
  readVerified : ℕ → ReadTextAt
  /-- The open pull request of each required product, and the outcome of its status. -/
  lookup : ℕ → Workflow ℕ
  posted : ℕ → Workflow Unit

namespace ReadyRun

variable (history : PullRequests.History) (run : ReadyRun platform)

/-- `_ready` up to the readiness that it records, and whether that is new. -/
def recordReadiness : Service (ChangeSetRecord × Bool) := do
  let changesetId := run.request.changesetId
  (switchExistingScopedBranch run.branch
    [["registry".toList, "changesets".toList, changesetId.text ++ ".json".toList]]
    "CHANGESET_COORDINATION_PATH_MISMATCH").mapError .workflow
  let record ← (require (run.registry.getChangeset changesetId)
    (.validation "CHANGESET_NOT_FOUND" "changeset does not exist".toList)).mapError .workflow
  let product ← (require ((EntityId.parse "prd_" run.request.productId).bind run.registry.getProduct)
    (.validation "CHANGESET_PRODUCT_NOT_FOUND" "ready product does not exist".toList)).mapError .workflow
  let pullRequest ← (history.getPr run.pullRequest run.request.prNumber).mapError .workflow
  (failIf (pullRequest.headBranch ≠ trackingBranch changesetId product.productKey ∨
      pullRequest.headSha ≠ run.request.headSha)
    (.security "CHANGESET_READY_HEAD_MISMATCH"
      "ready PR does not match the product tracking branch".toList)).mapError .workflow
  let trackingProduct ←
    (trackingProductAtHead codec run.readAtRequest pullRequest.headSha product changesetId).mapError .workflow
  (failIf (trackingProduct.version ≠ run.request.version)
    (.conflict "CHANGESET_VERSION_NOT_TRACKING_HEAD"
      "ready version does not match the exact tracking PR head".toList)).mapError .workflow
  let desired : ProductReadiness :=
    ⟨run.request.version, run.request.prNumber, run.request.headSha, run.request.prNumber_pos⟩
  match record.readyProducts.lookup product.productId with
  | some current =>
    (failIf (current ≠ desired) (.conflict "CHANGESET_READINESS_CONFLICT"
      "product readiness is already recorded for another head".toList)).mapError .workflow
    pure (record, false)
  | none =>
    let record ← (record.markReady product.productId desired).mapError .valueError
    pure (record, true)

/-- `_ready` between the recorded readiness and the tracking statuses. -/
def publishReadiness (stateChanged : Bool) : Workflow Unit := do
  if stateChanged = true then
    let created ← run.publish.committed
    if created = true then run.publish.pushed
  let _ ← ensurePr run.publish (coordinationBranch run.request.changesetId) run.request.baseBranch
  run.publish.qualityGate
  run.publish.changesetStatus

/-- The body of the loop of `_verified_ready_count`: whether the product is counted. -/
def countsReady (record : ChangeSetRecord) (entry : (_ : ProductId) × ProductReadiness) (i : ℕ) : Workflow Bool :=
  match run.registry.getProduct entry.1 with
  | none => pure false
  | some product => do
    let pullRequest ← history.getPr (run.verified i) entry.2.prNumber
    if pullRequest.headSha ≠ entry.2.headSha then pure false
    else
      match trackingProductAtHead codec (run.readVerified i) pullRequest.headSha product record.changesetId with
      | .ok trackingProduct => pure (trackingProduct.version = entry.2.version)
      | .error error =>
        if error.exitCode = .conflict ∨ error.exitCode = .security ∨ error.exitCode = .validation then pure false
        else .error error

/-- `_verified_ready_count` -/
def verifiedReadyCount (record : ChangeSetRecord) : Workflow ℕ := do
  let counted ← record.readyProducts.entries.zipIdx.mapM fun e => run.countsReady codec history record e.1 e.2
  pure (counted.count true)

inductive StatusState where
  | success
  | pending
  deriving DecidableEq

/-- A call of `set_status` in the context `ard/changeset`. -/
structure StatusPost where
  sha : GitCommitSha
  state : StatusState
  description : Text
  deriving DecidableEq

/-- The loop of `_reconcile_tracking_statuses`: the calls of `set_status`, and how the loop ends. -/
def postStatuses (record : ChangeSetRecord) (state : StatusState) (description : Text) :
    ℕ → List ProductId → List StatusPost × Workflow Unit
  | _, [] => ([], .ok ())
  | i, productId :: rest =>
    match run.registry.getProduct productId with
    | none => postStatuses record state description (i + 1) rest
    | some product =>
      match history.findOpenPr (run.lookup i) (trackingBranch record.changesetId product.productKey) with
      | .error error => ([], .error error)
      | .ok none => postStatuses record state description (i + 1) rest
      | .ok (some pullRequest) =>
        match run.posted i with
        | .error error => ([⟨pullRequest.headSha, state, description⟩], .error error)
        | .ok () =>
          let after := postStatuses record state description (i + 1) rest
          (⟨pullRequest.headSha, state, description⟩ :: after.1, after.2)

/-- `_reconcile_tracking_statuses` -/
def reconcileTrackingStatuses (record : ChangeSetRecord) : List StatusPost × Workflow Unit :=
  match run.verifiedReadyCount codec history record with
  | .error error => ([], .error error)
  | .ok ready =>
    let required := record.requiredProductIds
    let title := "Changeset ".toList ++ record.changesetId.text
    if ready = required.length then
      run.postStatuses history record .success (title ++ " is ready".toList) 0 required
    else
      run.postStatuses history record .pending
        (title ++ ": ".toList ++ Text.decimal ready ++ '/' :: Text.decimal required.length ++ " products ready".toList)
        0 required

/-- `_ready`: the statuses that it posts for tracking branches, and the record that it returns. -/
def ready : List StatusPost × Service ChangeSetRecord :=
  match run.recordReadiness codec history with
  | .error error => ([], .error error)
  | .ok (record, stateChanged) =>
    match run.publishReadiness stateChanged with
    | .error error => ([], .error (.workflow error))
    | .ok () =>
      let posted := run.reconcileTrackingStatuses codec history record
      (posted.1, (posted.2.map fun _ => record).mapError .workflow)

/-! ### Recorded readiness -/

/-- The records of changesets: built, and then changed by ready runs. -/
inductive Recorded : ChangeSetRecord → Prop where
  | created (changesetId : ChangeSetId) (tableIds : List TableId) (requiredProductIds : List ProductId) :
      Recorded (buildChangeset changesetId tableIds requiredProductIds)
  | ready (run : ReadyRun platform) {record record' : ChangeSetRecord} {stateChanged : Bool} (h : Recorded record)
      (hloaded : run.registry.getChangeset run.request.changesetId = some record)
      (hready : run.recordReadiness codec history = .ok (record', stateChanged)) : Recorded record'

variable {codec} {history} {run}

/-- A run records the readiness of a required product, or leaves the record as it was. -/
theorem recordReadiness_eq_ok {record' : ChangeSetRecord} {stateChanged : Bool}
    (h : run.recordReadiness codec history = .ok (record', stateChanged)) :
    ∃ record, run.registry.getChangeset run.request.changesetId = some record ∧
      (record' = record ∨ ∃ productId readiness, productId ∈ record.requiredProductIds ∧
        record' = { record with readyProducts := record.readyProducts.insert productId readiness }) := by
  unfold recordReadiness at h
  obtain ⟨-, -, h⟩ := bind_eq_ok.1 h
  obtain ⟨record, hrecord, h⟩ := bind_eq_ok.1 h
  obtain ⟨product, -, h⟩ := bind_eq_ok.1 h
  obtain ⟨pullRequest, -, h⟩ := bind_eq_ok.1 h
  obtain ⟨-, -, h⟩ := bind_eq_ok.1 h
  obtain ⟨trackingProduct, -, h⟩ := bind_eq_ok.1 h
  obtain ⟨-, -, h⟩ := bind_eq_ok.1 h
  refine ⟨record, require_eq_ok.1 (mapError_eq_ok.1 hrecord), ?_⟩
  dsimp only at h
  split at h
  · obtain ⟨-, -, h⟩ := bind_eq_ok.1 h
    cases pure_eq_ok.1 h
    exact Or.inl rfl
  · obtain ⟨marked, hmarked, h⟩ := bind_eq_ok.1 h
    cases pure_eq_ok.1 h
    exact Or.inr ⟨_, _, ChangeSetRecord.markReady_eq_ok.1 (mapError_eq_ok.1 hmarked)⟩

/-- The required products are distinct, and only they are ready. -/
structure RecordInvariant (record : ChangeSetRecord) : Prop where
  nodup : record.requiredProductIds.Nodup
  required : ∀ productId ∈ record.readyProducts.keys, productId ∈ record.requiredProductIds

private theorem RecordInvariant.recordReadiness {record record' : ChangeSetRecord} {stateChanged : Bool}
    (hrecord : RecordInvariant record) (hloaded : run.registry.getChangeset run.request.changesetId = some record)
    (h : run.recordReadiness codec history = .ok (record', stateChanged)) : RecordInvariant record' := by
  obtain ⟨loaded, hget, hcases⟩ := recordReadiness_eq_ok h
  have hsame : loaded = record := Option.some_inj.1 (hget.symm.trans hloaded)
  subst hsame
  rcases hcases with rfl | ⟨productId, readiness, hrequired, rfl⟩
  · exact hrecord
  · refine ⟨hrecord.nodup, fun p hp => ?_⟩
    have hkeys : p = productId ∨ p ∈ loaded.readyProducts.keys := by
      have hmem := AList.mem_keys.2 hp
      rwa [AList.mem_insert] at hmem
    rcases hkeys with rfl | hp
    · exact hrequired
    · exact hrecord.required p hp

/-- The invariant holds of every recorded changeset. -/
theorem Recorded.invariant {record : ChangeSetRecord} (h : Recorded codec history record) :
    RecordInvariant record := by
  induction h with
  | created changesetId tableIds requiredProductIds =>
    refine ⟨nodup_buildChangeset_required changesetId tableIds requiredProductIds, ?_⟩
    intro productId hp
    cases hp
  | ready run _ hloaded hready ih => exact ih.recordReadiness hloaded hready

/-! ### Verified heads -/

section Verified

variable (codec) (history) (run)

/-- The commit is the recorded ready head of a required product, and the run found the evidence of the product at it. -/
def Verified (record : ChangeSetRecord) (productId : ProductId) (sha : GitCommitSha) : Prop :=
  productId ∈ record.requiredProductIds ∧
    ∃ i readiness product pullRequest trackingProduct,
      record.readyProducts.entries[i]? = some ⟨productId, readiness⟩ ∧ readiness.headSha = sha ∧
        run.registry.getProduct productId = some product ∧
        history.getPr (run.verified i) readiness.prNumber = .ok pullRequest ∧ pullRequest.headSha = sha ∧
        trackingProductAtHead codec (run.readVerified i) sha product record.changesetId = .ok trackingProduct ∧
        trackingProduct.version = readiness.version

/-- All required products are verified. -/
def AllVerified (record : ChangeSetRecord) : Prop :=
  ∀ productId ∈ record.requiredProductIds, ∃ sha, run.Verified codec history record productId sha

/-- Every success is posted on a verified head, with all required products verified. -/
def PostsVerified : Prop :=
  ∀ record stateChanged, run.recordReadiness codec history = .ok (record, stateChanged) →
    ∀ post ∈ (run.ready codec history).1, post.state = .success →
      (∃ productId, run.Verified codec history record productId post.sha) ∧ run.AllVerified codec history record

/-- The loop over the required products goes on after this one. -/
def Passes (record : ChangeSetRecord) (i : ℕ) (productId : ProductId) : Prop :=
  ∀ product, run.registry.getProduct productId = some product →
    ∃ found, history.findOpenPr (run.lookup i) (trackingBranch record.changesetId product.productKey) = .ok found ∧
      (found ≠ none → run.posted i = .ok ())

/-- The loop finds this pull request open for the product at this place. -/
def FindsOpen (record : ChangeSetRecord) (required : List ProductId) (k i : ℕ) (pullRequest : PullRequest) : Prop :=
  ∃ productId product, required[i]? = some productId ∧ run.registry.getProduct productId = some product ∧
    history.findOpenPr (run.lookup (k + i)) (trackingBranch record.changesetId product.productKey) =
      .ok (some pullRequest) ∧
    ∀ j < i, ∀ productId', required[j]? = some productId' → run.Passes history record (k + j) productId'

/-- When all required products are verified and the record is published, every open pull request that is looked up has
a head that is recorded as ready for a required product. -/
def HeadsRecorded : Prop :=
  ∀ record stateChanged, run.recordReadiness codec history = .ok (record, stateChanged) →
    run.publishReadiness stateChanged = .ok () → run.AllVerified codec history record →
      ∀ i pullRequest, run.FindsOpen history record record.requiredProductIds 0 i pullRequest →
        ∃ productId ∈ record.requiredProductIds, ∃ readiness,
          record.readyProducts.lookup productId = some readiness ∧ readiness.headSha = pullRequest.headSha

end Verified

theorem countsReady_eq_true {record : ChangeSetRecord} {entry : (_ : ProductId) × ProductReadiness} {i : ℕ} :
    run.countsReady codec history record entry i = .ok true ↔
      ∃ product pullRequest trackingProduct, run.registry.getProduct entry.1 = some product ∧
        history.getPr (run.verified i) entry.2.prNumber = .ok pullRequest ∧
        pullRequest.headSha = entry.2.headSha ∧
        trackingProductAtHead codec (run.readVerified i) entry.2.headSha product record.changesetId =
          .ok trackingProduct ∧ trackingProduct.version = entry.2.version := by
  unfold countsReady
  constructor
  · intro h
    split at h
    · cases pure_eq_ok.1 h
    · rename_i product hproduct
      obtain ⟨pullRequest, hpullRequest, h⟩ := bind_eq_ok.1 h
      by_cases hhead : pullRequest.headSha = entry.2.headSha
      · rw [if_neg (not_not.2 hhead), hhead] at h
        split at h
        · rename_i trackingProduct htracking
          exact ⟨product, pullRequest, trackingProduct, hproduct, hpullRequest, hhead, htracking,
            of_decide_eq_true (pure_eq_ok.1 h)⟩
        · split at h
          · cases pure_eq_ok.1 h
          · cases h
      · rw [if_pos hhead] at h
        cases pure_eq_ok.1 h
  · rintro ⟨product, pullRequest, trackingProduct, hproduct, hpullRequest, hhead, htracking, hversion⟩
    rw [hproduct]
    dsimp only
    rw [hpullRequest, ok_bind, if_neg (not_not.2 hhead), hhead, htracking]
    exact pure_eq_ok.2 (decide_eq_true hversion)

/-- A product is verified exactly if its recorded readiness is counted. -/
private theorem verified_iff {record : ChangeSetRecord} {productId : ProductId} {sha : GitCommitSha} :
    run.Verified codec history record productId sha ↔ productId ∈ record.requiredProductIds ∧
      ∃ i readiness, record.readyProducts.entries[i]? = some ⟨productId, readiness⟩ ∧ readiness.headSha = sha ∧
        run.countsReady codec history record ⟨productId, readiness⟩ i = .ok true := by
  unfold Verified
  simp only [countsReady_eq_true]
  refine and_congr_right fun _ => ?_
  constructor
  · rintro ⟨i, readiness, product, pullRequest, trackingProduct, hentry, hsha, hproduct, hpullRequest, hhead,
      htracking, hversion⟩
    subst hsha
    exact ⟨i, readiness, hentry, rfl, product, pullRequest, trackingProduct, hproduct, hpullRequest, hhead, htracking,
      hversion⟩
  · rintro ⟨i, readiness, hentry, hsha, product, pullRequest, trackingProduct, hproduct, hpullRequest, hhead,
      htracking, hversion⟩
    subst hsha
    exact ⟨i, readiness, product, pullRequest, trackingProduct, hentry, rfl, hproduct, hpullRequest, hhead, htracking,
      hversion⟩

/-- The count is that of all required products exactly if all of them are verified. -/
theorem verifiedReadyCount_eq_length {record : ChangeSetRecord} (hrecord : RecordInvariant record) :
    run.verifiedReadyCount codec history record = .ok record.requiredProductIds.length ↔
      run.AllVerified codec history record := by
  have hkeys : record.readyProducts.keys.Nodup := record.readyProducts.nodupKeys
  have hlength : record.readyProducts.keys.length = record.readyProducts.entries.length := List.length_map _
  have hsubperm : record.readyProducts.keys.Subperm record.requiredProductIds :=
    List.subperm_of_subset hkeys hrecord.required
  constructor
  · -- the count reaches the length only if every recorded product counts
    intro h
    obtain ⟨counted, hcounted, h⟩ := bind_eq_ok.1 h
    have hcount := pure_eq_ok.1 h
    have hall := mapM_eq_ok.1 hcounted
    have hcountedLength : counted.length = record.readyProducts.entries.length := by
      rw [← hall.length_eq, List.length_zipIdx]
    have hle : counted.count true ≤ counted.length := List.count_le_length
    have hfew := hsubperm.length_le
    have htrue : counted.count true = counted.length := by omega
    have hperm : record.readyProducts.keys.Perm record.requiredProductIds :=
      hsubperm.perm_of_length_le (by omega)
    intro productId hrequired
    obtain ⟨⟨_, readiness⟩, hentry, rfl⟩ := List.mem_map.1 (hperm.mem_iff.2 hrequired)
    obtain ⟨i, hi⟩ := List.mem_iff_getElem?.1 hentry
    have hzip : ((⟨_, readiness⟩ : (_ : ProductId) × ProductReadiness), i) ∈ record.readyProducts.entries.zipIdx :=
      List.mem_zipIdx_iff_getElem?.2 hi
    obtain ⟨b, hb, hready⟩ := exists_of_mapM_eq_ok hcounted hzip
    have hone : b = true := (List.count_eq_length.1 htrue b hb).symm
    exact ⟨readiness.headSha, verified_iff.2 ⟨hrequired, i, readiness, hi, rfl, hone ▸ hready⟩⟩
  · -- every recorded product is required and so counts once
    intro hverified
    have hentries : ∀ e ∈ record.readyProducts.entries.zipIdx,
        run.countsReady codec history record e.1 e.2 = .ok true := by
      rintro ⟨⟨productId, readiness⟩, i⟩ he
      have hi := List.mem_zipIdx_iff_getElem?.1 he
      have hrequired := hrecord.required productId
        (List.mem_map.2 ⟨⟨productId, readiness⟩, List.mem_of_getElem? hi, rfl⟩)
      obtain ⟨sha, h⟩ := hverified productId hrequired
      obtain ⟨-, i', readiness', hi', -, hready⟩ := verified_iff.1 h
      have hsame : i' = i := by
        have hkey : record.readyProducts.keys[i']? = record.readyProducts.keys[i]? := by
          show (record.readyProducts.entries.map Sigma.fst)[i']? = (record.readyProducts.entries.map Sigma.fst)[i]?
          rw [List.getElem?_map, List.getElem?_map, hi, hi']
          rfl
        have hlt : i' < record.readyProducts.keys.length := by
          rw [hlength]
          exact (List.getElem?_eq_some_iff.1 hi').1
        exact (List.getElem?_inj hlt hkeys).1 hkey
      subst hsame
      rw [Option.some_inj.1 (hi'.symm.trans hi)] at hready
      exact hready
    have hrequired : ∀ productId ∈ record.requiredProductIds, productId ∈ record.readyProducts.keys := by
      intro productId hp
      obtain ⟨sha, h⟩ := hverified productId hp
      obtain ⟨-, i, readiness, hi, -⟩ := verified_iff.1 h
      exact List.mem_map.2 ⟨⟨productId, readiness⟩, List.mem_of_getElem? hi, rfl⟩
    have hperm : record.readyProducts.keys.Perm record.requiredProductIds :=
      hsubperm.antisymm (List.subperm_of_subset hrecord.nodup hrequired)
    have hmap : record.readyProducts.entries.zipIdx.mapM (fun e => run.countsReady codec history record e.1 e.2) =
        .ok (List.replicate record.readyProducts.entries.length true) := by
      rw [mapM_eq_ok, List.forall₂_iff_get]
      refine ⟨by simp, fun i h₁ h₂ => ?_⟩
      rw [hentries _ (List.get_mem _ _)]
      simp
    unfold verifiedReadyCount
    rw [hmap, ok_bind, List.count_replicate_self, ← hlength, hperm.length_eq]
    rfl

/-- What the loop finds after the first product, it finds only if it passes the product. -/
private theorem findsOpen_succ {record : ChangeSetRecord} {productId : ProductId} {rest : List ProductId} {k i : ℕ}
    {pullRequest : PullRequest} :
    run.FindsOpen history record (productId :: rest) k (i + 1) pullRequest ↔
      run.Passes history record k productId ∧ run.FindsOpen history record rest (k + 1) i pullRequest := by
  unfold FindsOpen
  have hplace : k + (i + 1) = k + 1 + i := by omega
  simp only [List.getElem?_cons_succ, hplace]
  constructor
  · rintro ⟨p, product, hp, hproduct, hfound, hpasses⟩
    refine ⟨hpasses 0 (Nat.succ_pos i) productId rfl, p, product, hp, hproduct, hfound, fun j hj q hq => ?_⟩
    have hnext := hpasses (j + 1) (Nat.succ_lt_succ hj) q hq
    rwa [show k + (j + 1) = k + 1 + j by omega] at hnext
  · rintro ⟨hfirst, p, product, hp, hproduct, hfound, hpasses⟩
    refine ⟨p, product, hp, hproduct, hfound, fun j hj q hq => ?_⟩
    cases j with
    | zero =>
      cases hq
      exact hfirst
    | succ j =>
      rw [show k + (j + 1) = k + 1 + j by omega]
      exact hpasses j (Nat.lt_of_succ_lt_succ hj) q hq

private theorem findsOpen_zero {record : ChangeSetRecord} {productId : ProductId} {rest : List ProductId} {k : ℕ}
    {pullRequest : PullRequest} :
    run.FindsOpen history record (productId :: rest) k 0 pullRequest ↔
      ∃ product, run.registry.getProduct productId = some product ∧
        history.findOpenPr (run.lookup k) (trackingBranch record.changesetId product.productKey) =
          .ok (some pullRequest) := by
  unfold FindsOpen
  constructor
  · rintro ⟨p, product, hp, hproduct, hfound, -⟩
    cases hp
    exact ⟨product, hproduct, hfound⟩
  · rintro ⟨product, hproduct, hfound⟩
    exact ⟨productId, product, rfl, hproduct, hfound, fun j hj => absurd hj (Nat.not_lt_zero j)⟩

private theorem exists_findsOpen_cons {record : ChangeSetRecord} {productId : ProductId} {rest : List ProductId}
    {k : ℕ} {P : PullRequest → Prop} :
    (∃ i pullRequest, run.FindsOpen history record (productId :: rest) k i pullRequest ∧ P pullRequest) ↔
      (∃ pullRequest, run.FindsOpen history record (productId :: rest) k 0 pullRequest ∧ P pullRequest) ∨
        run.Passes history record k productId ∧
          ∃ i pullRequest, run.FindsOpen history record rest (k + 1) i pullRequest ∧ P pullRequest := by
  constructor
  · rintro ⟨i, pullRequest, hfinds, hP⟩
    cases i with
    | zero => exact Or.inl ⟨pullRequest, hfinds, hP⟩
    | succ i =>
      obtain ⟨hpasses, hfinds⟩ := findsOpen_succ.1 hfinds
      exact Or.inr ⟨hpasses, i, pullRequest, hfinds, hP⟩
  · rintro (⟨pullRequest, hfinds, hP⟩ | ⟨hpasses, i, pullRequest, hfinds, hP⟩)
    · exact ⟨0, pullRequest, hfinds, hP⟩
    · exact ⟨i + 1, pullRequest, findsOpen_succ.2 ⟨hpasses, hfinds⟩, hP⟩

/-- The statuses are posted on the heads of the open pull requests that the loop finds. -/
theorem mem_postStatuses {record : ChangeSetRecord} {state : StatusState} {description : Text} {k : ℕ}
    {required : List ProductId} {post : StatusPost} :
    post ∈ (run.postStatuses history record state description k required).1 ↔
      ∃ i pullRequest, run.FindsOpen history record required k i pullRequest ∧
        post = ⟨pullRequest.headSha, state, description⟩ := by
  induction required generalizing k with
  | nil =>
    refine ⟨fun h => absurd h List.not_mem_nil, ?_⟩
    rintro ⟨i, pullRequest, ⟨p, product, hp, -⟩, -⟩
    cases hp
  | cons productId rest ih =>
    rw [exists_findsOpen_cons]
    simp only [findsOpen_zero, ← ih, Passes]
    rw [postStatuses]
    cases hproduct : run.registry.getProduct productId with
    | none => simp
    | some product =>
      cases hfound : history.findOpenPr (run.lookup k) (trackingBranch record.changesetId product.productKey) with
      | error e => simp [hfound]
      | ok found =>
        cases found with
        | none => simp [hfound]
        | some pullRequest =>
          cases hposted : run.posted k with
          | error e => simp [hfound]
          | ok u => simp [hfound]

private theorem mem_ready {record : ChangeSetRecord} {stateChanged : Bool} (hrecord : RecordInvariant record)
    (hrun : run.recordReadiness codec history = .ok (record, stateChanged)) {sha : GitCommitSha} :
    (∃ post ∈ (run.ready codec history).1, post.state = .success ∧ post.sha = sha) ↔
      run.publishReadiness stateChanged = .ok () ∧ run.AllVerified codec history record ∧
        ∃ i pullRequest, run.FindsOpen history record record.requiredProductIds 0 i pullRequest ∧
          pullRequest.headSha = sha := by
  unfold ready
  rw [hrun]
  cases hpublish : run.publishReadiness stateChanged with
  | error e => simp [hpublish]
  | ok u =>
    simp only [hpublish, true_and]
    rw [← verifiedReadyCount_eq_length hrecord]
    unfold reconcileTrackingStatuses
    cases hcount : run.verifiedReadyCount codec history record with
    | error e => simp
    | ok count =>
      by_cases hall : count = record.requiredProductIds.length
      · simp only [hall, if_true, true_and]
        constructor
        · rintro ⟨post, hpost, -, rfl⟩
          obtain ⟨i, pullRequest, hfinds, rfl⟩ := mem_postStatuses.1 hpost
          exact ⟨i, pullRequest, hfinds, rfl⟩
        · rintro ⟨i, pullRequest, hfinds, rfl⟩
          exact ⟨_, mem_postStatuses.2 ⟨i, pullRequest, hfinds, rfl⟩, rfl, rfl⟩
      · simp only [Except.ok.injEq, hall, false_and, iff_false]
        rintro ⟨post, hpost, hsuccess, -⟩
        obtain ⟨i, pullRequest, -, rfl⟩ := mem_postStatuses.1 hpost
        cases hsuccess

/-- In every history of the pull requests, the run of a ready request on a recorded changeset posts successes only on
verified heads exactly if every open pull request that it then finds on a tracking branch has a recorded head. -/
theorem ready_posts_verified_iff
    (hloaded : ∀ record, run.registry.getChangeset run.request.changesetId = some record →
      Recorded codec history record) :
    run.PostsVerified codec history ↔ run.HeadsRecorded codec history := by
  have hinvariant : ∀ record stateChanged, run.recordReadiness codec history = .ok (record, stateChanged) →
      RecordInvariant record := by
    intro record stateChanged hrun
    obtain ⟨loaded, hget, -⟩ := recordReadiness_eq_ok hrun
    exact (hloaded loaded hget).invariant.recordReadiness hget hrun
  constructor
  · intro hposts record stateChanged hrun hpublish hall i pullRequest hfinds
    obtain ⟨post, hpost, hsuccess, hsha⟩ := (mem_ready (hinvariant record stateChanged hrun) hrun).2
      ⟨hpublish, hall, i, pullRequest, hfinds, rfl⟩
    obtain ⟨productId, hrequired, j, readiness, -, -, -, hentry, hhead, -⟩ :=
      (hposts record stateChanged hrun post hpost hsuccess).1
    refine ⟨productId, hrequired, readiness, ?_, hhead.trans hsha⟩
    exact AList.mem_lookup_iff.2 (List.mem_of_getElem? hentry)
  · intro hheads record stateChanged hrun post hpost hsuccess
    obtain ⟨hpublish, hall, i, pullRequest, hfinds, hsha⟩ := (mem_ready (hinvariant record stateChanged hrun) hrun).1
      ⟨post, hpost, hsuccess, rfl⟩
    refine ⟨?_, hall⟩
    obtain ⟨productId, hrequired, readiness, hlookup, hhead⟩ :=
      hheads record stateChanged hrun hpublish hall i pullRequest hfinds
    obtain ⟨sha, hverified⟩ := hall productId hrequired
    obtain ⟨-, j, readiness', -, -, -, hentry, hsha', -⟩ := id hverified
    have hsame : readiness' = readiness :=
      Option.some_inj.1 ((AList.mem_lookup_iff.2 (List.mem_of_getElem? hentry)).symm.trans hlookup)
    refine ⟨productId, ?_⟩
    rw [← hsha, ← hhead, ← hsame, hsha']
    exact hverified

end ReadyRun

/-! ### A pull request that replaces the recorded one -/

namespace ReadyRun

private def exampleId : ChangeSetId := ⟨"cst_0198f6c2-8ac7-7f31-a48e-1c3d82e9a701".toList, by decide⟩

private def exampleProduct : ProductRecord .ascii where
  productId := ⟨"prd_0198f6c2-8ac7-7f31-a48e-1c3d82e9a702".toList, by decide⟩
  productKey := ⟨"sales".toList, by decide⟩
  version := ⟨2, two_isVersion⟩
  status := .active
  displayName := none
  aliases := []
  canonicalHash := none
  metrics := []
  relationships := []
  metrics_unique := namedIdsUnique_nil
  relationships_unique := namedIdsUnique_nil

private def exampleSha (c : Char) (hc : isLowerHex c = true) : GitCommitSha where
  text := List.replicate 40 c
  hex := by simp [hc]
  length := Or.inl (List.length_replicate ..)

private def recordedSha : GitCommitSha := exampleSha 'a' (by decide)

private def otherSha : GitCommitSha := exampleSha 'b' (by decide)

private def exampleFields : List (String × Json) :=
  [("product_id", .str exampleProduct.productId.text), ("product_key", .lit "sales"), ("version", .nat 2)]

private def exampleConfig : Json := .record (exampleFields ++ [("changeset_id", .str exampleId.text)])

private def exampleMarker : Json :=
  .record [("changeset_id", .str exampleId.text), ("product_id", .str exampleProduct.productId.text),
    ("status", .lit "required")]

private def exampleText (v : Json) : Text := v.dumps .ascii

private def exampleCodec : EvidenceCodec .ascii where
  product t := if t = exampleText (.record exampleFields) then some exampleProduct else none
  yaml t := if t = exampleText exampleConfig then some exampleConfig else none
  json t := if t = exampleText exampleMarker then some exampleMarker else none

/-- The evidence is at the recorded head only. -/
private def exampleRead : ReadTextAt := fun sha path =>
  if sha ≠ recordedSha then .error (.conflict "REVISION_FILE_NOT_FOUND" [])
  else if path.head? = some "registry".toList then .ok (exampleText (.record exampleFields))
  else if path.getLast? = some "product.yaml".toList then .ok (exampleText exampleConfig)
  else .ok (exampleText exampleMarker)

private def examplePr (number : ℕ) (headSha : GitCommitSha) (isOpen : Bool) : PullRequest :=
  ⟨number, trackingBranch exampleId exampleProduct.productKey, headSha, "main".toList, true, isOpen⟩

private def openedFirst : PullRequests := ⟨⟨[examplePr 1 recordedSha true], by decide⟩, by decide⟩

private def closedFirst : PullRequests := ⟨⟨[examplePr 1 recordedSha false], by decide⟩, by decide⟩

private def openedSecond : PullRequests :=
  ⟨⟨[examplePr 1 recordedSha false, examplePr 2 otherSha true], by decide⟩, by decide⟩

/-- The first pull request is closed, and a second one is opened for another head of the branch. -/
private def exampleHistory : PullRequests.History where
  state
    | 0 => openedFirst
    | 1 => closedFirst
    | _ => openedSecond
  step
    | 0 => .closed 1 (by decide)
    | 1 => .opened (examplePr 2 otherSha true) (by decide) (by decide)
    | _ + 2 => .idle rfl

private def exampleRegistry : Registry .ascii :=
  { Registry.new .ascii with
    products := (KeyedList.empty _).put exampleProduct
    changesets := (KeyedList.empty _).put (buildChangeset exampleId [] [exampleProduct.productId]) }

/-- A ready request for the first pull request, all of whose calls are answered at one time. -/
private def exampleRun (time : ℕ) : ReadyRun .ascii where
  request := ⟨exampleId, exampleProduct.productId.text, ⟨2, by decide⟩, 1, by decide, recordedSha, by decide,
    "main".toList⟩
  branch := ⟨.ok none, .ok (), .ok otherSha, .ok [], .ok none, .ok false⟩
  registry := exampleRegistry
  pullRequest := .ok time
  readAtRequest := exampleRead
  publish := ⟨.ok true, .ok (), .ok none,
    .ok ⟨3, coordinationBranch exampleId, otherSha, "main".toList, true, true⟩, .ok (some otherSha), .ok otherSha,
    .ok (), .ok ()⟩
  verified _ := .ok time
  readVerified _ := exampleRead
  lookup _ := .ok time
  posted _ := .ok ()

private theorem exampleRun_recorded (time : ℕ) : ∀ record,
    (exampleRun time).registry.getChangeset (exampleRun time).request.changesetId = some record →
      Recorded exampleCodec exampleHistory record := by
  intro record h
  have hrecord : exampleRegistry.getChangeset exampleId =
      some (buildChangeset exampleId [] [exampleProduct.productId]) := KeyedList.get_put_self _ _
  rw [← Option.some_inj.1 (hrecord.symm.trans h)]
  exact .created exampleId [] [exampleProduct.productId]

/-- The recorded pull request is closed, and success is posted on the head of the one that replaces it. -/
theorem ready_posts_other_head :
    (∀ record, (exampleRun 2).registry.getChangeset (exampleRun 2).request.changesetId = some record →
      Recorded exampleCodec exampleHistory record) ∧
      ¬ (exampleRun 2).PostsVerified exampleCodec exampleHistory := by
  refine ⟨exampleRun_recorded 2, fun hposts => ?_⟩
  have hrun : ((exampleRun 2).recordReadiness exampleCodec exampleHistory).toOption.any (fun r =>
      r.1.readyProducts.entries.all (fun e => e.2.headSha = recordedSha) &&
        ((exampleRun 2).ready exampleCodec exampleHistory).1.any fun post =>
          post.state = .success && post.sha = otherSha) = true := by decide +kernel
  obtain ⟨⟨record, stateChanged⟩, hrecord, htest⟩ := exists_of_any_toOption hrun
  rw [Bool.and_eq_true, List.all_eq_true, List.any_eq_true] at htest
  obtain ⟨hentries, post, hpost, hpostTest⟩ := htest
  rw [Bool.and_eq_true, decide_eq_true_eq, decide_eq_true_eq] at hpostTest
  obtain ⟨⟨productId, -, i, readiness, -, -, -, hentry, hsha, -⟩, -⟩ :=
    hposts record stateChanged hrecord post hpost hpostTest.1
  have hhead := of_decide_eq_true (hentries _ (List.mem_of_getElem? hentry))
  rw [hsha, hpostTest.2] at hhead
  exact absurd hhead (by decide)

/-- While the recorded pull request is open, success is posted on its verified head. -/
theorem ready_posts_recorded_head :
    (∃ post ∈ ((exampleRun 0).ready exampleCodec exampleHistory).1, post.state = .success) ∧
      (exampleRun 0).PostsVerified exampleCodec exampleHistory := by
  have hrun : ((exampleRun 0).recordReadiness exampleCodec exampleHistory).toOption.any (fun r =>
      r.1.requiredProductIds = [exampleProduct.productId] &&
        (r.1.readyProducts.lookup exampleProduct.productId).any (fun r => r.headSha = recordedSha) &&
          ((exampleRun 0).ready exampleCodec exampleHistory).1.any fun post => post.state = .success) = true := by
    decide +kernel
  obtain ⟨⟨record, stateChanged⟩, hrecord, htest⟩ := exists_of_any_toOption hrun
  simp only [Bool.and_eq_true, decide_eq_true_eq, List.any_eq_true, Option.any_eq_true] at htest
  obtain ⟨⟨hrequired, readiness, hlookup, hhead⟩, post, hpost, hsuccess⟩ := htest
  refine ⟨⟨post, hpost, hsuccess⟩, (ready_posts_verified_iff (exampleRun_recorded 0)).2 ?_⟩
  intro record' stateChanged' hrecord' _ _ i pullRequest hfinds
  cases hrecord.symm.trans hrecord'
  obtain ⟨_, _, _, _, hfound, _⟩ := hfinds
  obtain ⟨time, htime, hmem, _⟩ := exampleHistory.findOpenPr_eq_ok hfound
  cases htime
  have hsame : pullRequest = examplePr 1 recordedSha true := List.mem_singleton.1 hmem
  rw [hsame]
  exact ⟨exampleProduct.productId, by simp [hrequired], readiness, hlookup, hhead⟩

end ReadyRun

end Readiness

end ArdOssie
