import ArdOssie.Application.Contracts
import ArdOssie.Library.KeyedList
import ArdOssie.Library.Programs
import ArdOssie.Registry.ChangeSets

/-!
# Release publication

A publication looks its tags up in its checkout, creates the ones that are missing there, pushes the new ones, and
uploads the bundle to the release of the product tag.  Runs interleave with each other and may fail at every remote
call.
-/

namespace ArdOssie

/-! ### The remote repository -/

/-- A release asset with the digest that the remote reports. -/
abbrev ReleaseAssets := KeyedList (Prod.fst : Text × Option Sha256 → Text)

/-- `ReleaseState` -/
structure ReleaseState where
  id : ℕ
  tag : Text
  title : Text
  draft : Bool
  prerelease : Bool
  assets : ReleaseAssets

/-- The tags of the checkouts, and the tags and releases of the remote. -/
structure ReleaseRemote where
  localTags : ℕ → Text → Option GitCommitSha
  remoteTags : Text → Option GitCommitSha
  releases : Text → Option ReleaseState

namespace ReleaseRemote

variable (w : ReleaseRemote)

/-- The release of the tag has the asset. -/
def HasAsset (tag : Text) (asset : Text × Option Sha256) : Prop :=
  ∃ release, w.releases tag = some release ∧ asset ∈ release.assets.items

def setLocalTag (checkout : ℕ) (tag : Text) (target : GitCommitSha) : ReleaseRemote :=
  { w with
    localTags := Function.update w.localTags checkout
      (Function.update (w.localTags checkout) tag (some target)) }

/-- The tags of the checkout replace those of the remote. -/
def pushed (checkout : ℕ) (tags : List Text) : ReleaseRemote :=
  { w with remoteTags := fun tag => if tag ∈ tags then w.localTags checkout tag else w.remoteTags tag }

def setRelease (tag : Text) (release : ReleaseState) : ReleaseRemote :=
  { w with releases := Function.update w.releases tag (some release) }

/-- A release for a tag that does not exist creates the tag at the head of the default branch. -/
def createTag (tag : Text) (defaultHead : GitCommitSha) : ReleaseRemote :=
  { w with remoteTags := Function.update w.remoteTags tag (some ((w.remoteTags tag).getD defaultHead)) }

def patched (id : ℕ) (title : Text) : ReleaseRemote :=
  { w with
    releases := fun tag => (w.releases tag).map fun release =>
      if release.id = id then { release with title := title, draft := false, prerelease := false } else release }

/-- Tags of the remote come into the checkout; a tag that the checkout has stays. -/
def fetched (checkout : ℕ) : ReleaseRemote :=
  { w with
    localTags := Function.update w.localTags checkout fun tag => (w.localTags checkout tag).or (w.remoteTags tag) }

end ReleaseRemote

/-! ### Calls -/

/-- The calls of a publication.  The lookup of a tag by a publication and the one inside `create_annotated_tag` are one
command; they are two calls here because a publication of a commit draws its conclusions from the first. -/
inductive ReleaseCall where
  | tagTarget (checkout : ℕ) (tag : Text) (current : GitCommitSha)
  | revParseTag (checkout : ℕ) (tag : Text)
  | configureIdentity (checkout : ℕ) (key : String)
  | annotateTag (checkout : ℕ) (tag : Text) (target : GitCommitSha)
  | pushTags (checkout : ℕ) (tags : List Text)
  | getRelease (tag : Text)
  | patchRelease (id : ℕ) (title : Text)
  | createRelease (tag title : Text)
  | uploadAsset (tag name : Text) (digest : Sha256)

/-- What a call returns if it does not fail. -/
abbrev ReleaseCall.Value : ReleaseCall → Type
  | tagTarget .. => Option GitCommitSha
  | revParseTag .. => Option GitCommitSha
  | getRelease _ => Option ReleaseState
  | createRelease .. => ℕ
  | _ => Unit

abbrev ReleaseAnswer (c : ReleaseCall) : Type := Workflow c.Value

/-- One call.  A call that fails may have had its effect; a push may have had it for some of the tags. -/
inductive ReleaseExec : (c : ReleaseCall) → ReleaseRemote → ReleaseAnswer c → ReleaseRemote → Prop where
  /-- `git rev-parse --verify refs/tags/<tag>^{commit}` in the checkout. -/
  | tagTarget (checkout : ℕ) (tag : Text) (current : GitCommitSha) (r : Workflow (Option GitCommitSha))
      (w : ReleaseRemote) (hok : ∀ target, r = .ok target → target = w.localTags checkout tag) :
      ReleaseExec (.tagTarget checkout tag current) w r w
  | revParseTag (checkout : ℕ) (tag : Text) (r : Workflow (Option GitCommitSha)) (w : ReleaseRemote)
      (hok : ∀ target, r = .ok target → target = w.localTags checkout tag) :
      ReleaseExec (.revParseTag checkout tag) w r w
  | configureIdentity (checkout : ℕ) (key : String) (r : Workflow Unit) (w : ReleaseRemote) :
      ReleaseExec (.configureIdentity checkout key) w r w
  /-- `git tag --annotate` does not replace a tag. -/
  | annotateTag (checkout : ℕ) (tag : Text) (target : GitCommitSha) (r : Workflow Unit) (w : ReleaseRemote)
      (hnone : w.localTags checkout tag = none) :
      ReleaseExec (.annotateTag checkout tag target) w r (w.setLocalTag checkout tag target)
  | annotateFailed (checkout : ℕ) (tag : Text) (target : GitCommitSha) (error : WorkflowError) (w : ReleaseRemote) :
      ReleaseExec (.annotateTag checkout tag target) w (.error error) w
  /-- The remote accepts new tags, and tags that it has with the same target. -/
  | pushTags (checkout : ℕ) (tags accepted : List Text) (r : Workflow Unit) (w : ReleaseRemote)
      (haccepted : ∀ tag ∈ accepted, ∃ target, w.localTags checkout tag = some target ∧
        (w.remoteTags tag = none ∨ w.remoteTags tag = some target))
      (hok : r = .ok () → ∀ tag ∈ tags, tag ∈ accepted) :
      ReleaseExec (.pushTags checkout tags) w r (w.pushed checkout accepted)
  | getRelease (tag : Text) (r : Workflow (Option ReleaseState)) (w : ReleaseRemote)
      (hok : ∀ release, r = .ok release → release = w.releases tag) : ReleaseExec (.getRelease tag) w r w
  | patchRelease (id : ℕ) (title : Text) (r : Workflow Unit) (w : ReleaseRemote) :
      ReleaseExec (.patchRelease id title) w r (w.patched id title)
  | patchFailed (id : ℕ) (title : Text) (error : WorkflowError) (w : ReleaseRemote) :
      ReleaseExec (.patchRelease id title) w (.error error) w
  | createRelease (tag title : Text) (id : ℕ) (r : Workflow ℕ) (w : ReleaseRemote) (defaultHead : GitCommitSha)
      (hnone : w.releases tag = none) (hok : ∀ created, r = .ok created → created = id) :
      ReleaseExec (.createRelease tag title) w r
        ((w.createTag tag defaultHead).setRelease tag ⟨id, tag, title, false, false, .empty _⟩)
  | createFailed (tag title : Text) (error : WorkflowError) (w : ReleaseRemote) :
      ReleaseExec (.createRelease tag title) w (.error error) w
  /-- A release has one asset of a name; a failed upload may leave one without a digest. -/
  | uploadAsset (tag name : Text) (digest : Sha256) (uploaded : Option Sha256) (r : Workflow Unit) (w : ReleaseRemote)
      (release : ReleaseState) (hrelease : w.releases tag = some release) (hnone : release.assets.get name = none)
      (huploaded : uploaded = some digest ∨ uploaded = none) (hok : r = .ok () → uploaded = some digest) :
      ReleaseExec (.uploadAsset tag name digest) w r
        (w.setRelease tag { release with assets := release.assets.put (name, uploaded) })
  | uploadFailed (tag name : Text) (digest : Sha256) (error : WorkflowError) (w : ReleaseRemote) :
      ReleaseExec (.uploadAsset tag name digest) w (.error error) w

/-- What changes without a publication: a checkout fetches. -/
inductive ReleaseFetch (w : ReleaseRemote) : ReleaseRemote → Prop where
  | fetched (checkout : ℕ) : ReleaseFetch w (w.fetched checkout)

/-! ### The program -/

abbrev Publishing := ExceptT WorkflowError (Program ReleaseAnswer)

/-- One call of a publication. -/
def ask (c : ReleaseCall) : Publishing c.Value := ExceptT.mk (Program.perform c)

/-- A result that does not depend on the remote. -/
def given {α : Type} (r : Workflow α) : Publishing α := ExceptT.mk (Program.done r)

/-- `MutationRecord` -/
structure MutationRecord where
  resource : String
  target : Text
  action : String
  resultId : Option Text

/-- The plan, the current commit and the verified bundle of a publication. -/
structure PreparedRelease where
  productKey : Text
  productVersion : Version
  productTag : Text
  tableTags : List Text
  assetName : Text
  artifactSha256 : Sha256

/-- A request in a checkout: what it prepares there, and whether the bundle is unchanged when the tags were looked up. -/
structure PublicationRun where
  checkout : ℕ
  current : GitCommitSha
  prepared : Workflow PreparedRelease
  bundleUnchanged : Workflow Unit

def PreparedRelease.tags (plan : PreparedRelease) : List Text := plan.productTag :: plan.tableTags

/-- `_verify_existing_release` -/
def verifyExistingRelease (plan : PreparedRelease) (release : Option ReleaseState) : Workflow Unit :=
  match release with
  | none => pure ()
  | some release => do
    failIf (release.tag ≠ plan.productTag)
      (.conflict "RELEASE_TAG_CONFLICT" "existing release is attached to another tag".toList)
    let digests := (release.assets.items.filter fun asset => asset.1 = plan.assetName).map Prod.snd
    failIf (1 < digests.length)
      (.conflict "MULTIPLE_RELEASE_ASSETS" ("release has duplicate assets: ".toList ++ plan.assetName))
    failIf (∃ digest ∈ digests.head?, digest ≠ some plan.artifactSha256)
      (.conflict "RELEASE_ASSET_CONFLICT" ("release asset digest differs: ".toList ++ plan.assetName))

/-- `GitCli.create_annotated_tag` -/
def createAnnotatedTag (checkout : ℕ) (tag : Text) (target : GitCommitSha) : Publishing Unit := do
  match ← ask (.revParseTag checkout tag) with
  | some existing =>
    given (failIf (existing ≠ target)
      (.conflict "TAG_TARGET_CONFLICT" (tag ++ " already targets ".toList ++ existing.text)))
  | none => do
    ask (.configureIdentity checkout "user.name")
    ask (.configureIdentity checkout "user.email")
    ask (.annotateTag checkout tag target)
    let found ← ask (.revParseTag checkout tag)
    given (failIf (found ≠ some target) (.transient "TAG_VERIFICATION_FAILED" tag))

/-- `GitCli.push_tags` -/
def pushTags (checkout : ℕ) (tags : List Text) : Publishing Unit :=
  if tags = [] then pure () else ask (.pushTags checkout tags)

/-- `GitHubCli.upsert_release` -/
def upsertRelease (tag title name : Text) (digest : Sha256) : Publishing MutationRecord := do
  let existing ← ask (.getRelease tag)
  let upload (releaseId : ℕ) : Publishing MutationRecord := do
    ask (.uploadAsset tag name digest)
    pure ⟨"release", tag, "upload", some (Text.decimal releaseId ++ ':' :: digest.hexdigest)⟩
  match existing with
  | none => do
    let releaseId ← ask (.createRelease tag title)
    upload releaseId
  | some release => do
    let digests := (release.assets.items.filter fun asset => asset.1 = name).map Prod.snd
    given (failIf (1 < digests.length) (.conflict "MULTIPLE_RELEASE_ASSETS" name))
    given (failIf (∃ found ∈ digests.head?, found ≠ some digest) (.conflict "RELEASE_ASSET_CONFLICT" name))
    let metadataChanged := release.title ≠ title ∨ release.draft = true ∨ release.prerelease = true
    if metadataChanged then ask (.patchRelease release.id title)
    if digests ≠ [] then
      pure ⟨"release", tag, if metadataChanged then "update" else "noop", some (Text.decimal release.id)⟩
    else upload release.id

namespace PublicationRun

variable (run : PublicationRun)

/-- The targets of the tags in the checkout. -/
def existingTargets : List Text → Publishing (List (Text × Option GitCommitSha))
  | [] => pure []
  | tag :: tags => do
    let target ← ask (.tagTarget run.checkout tag run.current)
    let targets ← existingTargets tags
    pure ((tag, target) :: targets)

/-- The tags without a target are created. -/
def createTags (targets : Dict Text (Option GitCommitSha)) : List Text → Publishing (List Text)
  | [] => pure []
  | tag :: tags =>
    if targets.lookup tag ≠ some none then createTags targets tags
    else do
      createAnnotatedTag run.checkout tag run.current
      let newTags ← createTags targets tags
      pure (tag :: newTags)

/-- A failure after the first remote step. -/
def asPartial (error : WorkflowError) : Publishing MutationRecord :=
  throw (if error.exitCode = .partialFailure then error
    else ⟨.partialFailure, "RELEASE_PUBLICATION_PARTIAL", "release publication began but did not converge".toList⟩)

/-- `ReleasePublicationService.run`: the mutations of a run that succeeds. -/
def publish : Publishing (List MutationRecord) := do
  let plan ← given run.prepared
  let targets ← run.existingTargets plan.tags
  let targets := Dict.ofList targets
  given (failIf (targets.entries.any (fun e => e.2.any (· ≠ run.current)) = true)
    (.conflict "TAG_TARGET_CONFLICT" "immutable tag targets another commit".toList))
  let existing ← ask (.getRelease plan.productTag)
  given (verifyExistingRelease plan existing)
  given run.bundleUnchanged
  let newTags ← run.createTags targets plan.tags
  let released ← tryCatch (do
    pushTags run.checkout newTags
    upsertRelease plan.productTag (plan.productKey ++ " v".toList ++ Text.decimal plan.productVersion) plan.assetName
      plan.artifactSha256) asPartial
  pure (newTags.map (fun tag => ⟨"tag", tag, "create", none⟩) ++ [released])

end PublicationRun

/-! ### What a step leaves -/

/-- Tags of checkouts and of the remote keep their targets, and assets stay with their digests. -/
structure ReleaseRemote.Grows (w w' : ReleaseRemote) : Prop where
  localTags : ∀ checkout tag target, w.localTags checkout tag = some target → w'.localTags checkout tag = some target
  remoteTags : ∀ tag target, w.remoteTags tag = some target → w'.remoteTags tag = some target
  assets : ∀ tag asset, w.HasAsset tag asset → w'.HasAsset tag asset

namespace ReleaseRemote

theorem Grows.refl (w : ReleaseRemote) : w.Grows w := ⟨fun _ _ _ h => h, fun _ _ h => h, fun _ _ h => h⟩

theorem Grows.trans {w w' w'' : ReleaseRemote} (h : w.Grows w') (h' : w'.Grows w'') : w.Grows w'' where
  localTags checkout tag target ht := h'.localTags checkout tag target (h.localTags checkout tag target ht)
  remoteTags tag target ht := h'.remoteTags tag target (h.remoteTags tag target ht)
  assets tag asset ha := h'.assets tag asset (h.assets tag asset ha)

variable {w : ReleaseRemote}

private theorem grows_setLocalTag {checkout : ℕ} {tag : Text} {target : GitCommitSha}
    (hnone : w.localTags checkout tag = none) : w.Grows (w.setLocalTag checkout tag target) := by
  refine ⟨fun checkout' tag' target' h => ?_, fun _ _ h => h, fun _ _ h => h⟩
  show Function.update w.localTags checkout _ checkout' tag' = some target'
  by_cases hcheckout : checkout' = checkout
  · subst hcheckout
    rw [Function.update_self]
    by_cases htag : tag' = tag
    · subst htag
      rw [hnone] at h
      cases h
    · rw [Function.update_of_ne htag, h]
  · rw [Function.update_of_ne hcheckout, h]

private theorem grows_pushed {checkout : ℕ} {accepted : List Text}
    (haccepted : ∀ tag ∈ accepted, ∃ target, w.localTags checkout tag = some target ∧
      (w.remoteTags tag = none ∨ w.remoteTags tag = some target)) : w.Grows (w.pushed checkout accepted) := by
  refine ⟨fun _ _ _ h => h, fun tag target h => ?_, fun _ _ h => h⟩
  show (if tag ∈ accepted then w.localTags checkout tag else w.remoteTags tag) = some target
  split
  · rename_i htag
    obtain ⟨target', hlocal, hnone | hsame⟩ := haccepted tag htag
    · rw [hnone] at h
      cases h
    · rw [hlocal, ← hsame, h]
  · exact h

private theorem grows_createTag {tag : Text} {defaultHead : GitCommitSha} : w.Grows (w.createTag tag defaultHead) := by
  refine ⟨fun _ _ _ h => h, fun tag' target h => ?_, fun _ _ h => h⟩
  show Function.update w.remoteTags tag _ tag' = some target
  by_cases htag : tag' = tag
  · subst htag
    rw [Function.update_self, h, Option.getD_some]
  · rw [Function.update_of_ne htag, h]

/-- A release may be replaced by one that has its assets. -/
private theorem grows_setRelease {tag : Text} {release : ReleaseState}
    (hassets : ∀ old, w.releases tag = some old → ∀ asset ∈ old.assets.items, asset ∈ release.assets.items) :
    w.Grows (w.setRelease tag release) := by
  refine ⟨fun _ _ _ h => h, fun _ _ h => h, fun tag' asset ⟨old, hold, hasset⟩ => ?_⟩
  by_cases htag : tag' = tag
  · subst htag
    exact ⟨release, Function.update_self .., hassets old hold asset hasset⟩
  · exact ⟨old, (Function.update_of_ne htag ..).trans hold, hasset⟩

private theorem grows_patched {id : ℕ} {title : Text} : w.Grows (w.patched id title) := by
  refine ⟨fun _ _ _ h => h, fun _ _ h => h, fun tag asset ⟨old, hold, hasset⟩ => ?_⟩
  have hpatched := congrArg (Option.map fun release : ReleaseState =>
    if release.id = id then { release with title := title, draft := false, prerelease := false } else release) hold
  refine ⟨_, hpatched, ?_⟩
  dsimp only
  split
  · exact hasset
  · exact hasset

private theorem grows_fetched {checkout : ℕ} : w.Grows (w.fetched checkout) := by
  refine ⟨fun checkout' tag target h => ?_, fun _ _ h => h, fun _ _ h => h⟩
  show Function.update w.localTags checkout _ checkout' tag = some target
  by_cases hcheckout : checkout' = checkout
  · subst hcheckout
    rw [Function.update_self, h, Option.some_or]
  · rw [Function.update_of_ne hcheckout, h]

/-- No call undoes a tag or an asset. -/
theorem grows_of_exec {c : ReleaseCall} {r : ReleaseAnswer c} {w' : ReleaseRemote} (h : ReleaseExec c w r w') :
    w.Grows w' := by
  cases h with
  | tagTarget | revParseTag | configureIdentity | annotateFailed | getRelease | patchFailed | createFailed
  | uploadFailed => exact Grows.refl w
  | annotateTag _ _ _ _ _ hnone => exact grows_setLocalTag hnone
  | pushTags _ _ _ _ _ haccepted => exact grows_pushed haccepted
  | patchRelease => exact grows_patched
  | createRelease tag title id _ _ defaultHead hnone =>
    refine grows_createTag.trans (grows_setRelease fun old hold => ?_)
    have hsome : w.releases tag = some old := hold
    rw [hnone] at hsome
    cases hsome
  | uploadAsset tag name digest uploaded _ _ release hrelease hnone =>
    refine grows_setRelease fun old hold asset hasset => ?_
    rw [Option.some_inj.1 (hold.symm.trans hrelease)] at hasset
    exact KeyedList.mem_put.2 (Or.inr ⟨hasset, KeyedList.get_eq_none.1 hnone asset hasset⟩)

theorem grows_of_fetch {w' : ReleaseRemote} (h : ReleaseFetch w w') : w.Grows w' := by
  cases h
  exact grows_fetched

end ReleaseRemote

/-! ### Publications whose tags are pushed -/

/-- A tag that a publication of a commit finds in its checkout at that commit is on the remote at that commit. -/
def LookupPushed : ReleaseCall → ReleaseRemote → Prop
  | .tagTarget checkout tag current, w =>
    w.localTags checkout tag = some current → w.remoteTags tag = some current
  | _, _ => True

/-- A call whose lookups find pushed tags only. -/
def ReleaseExecPushed (c : ReleaseCall) (w : ReleaseRemote) (r : ReleaseAnswer c) (w' : ReleaseRemote) : Prop :=
  ReleaseExec c w r w' ∧ LookupPushed c w

theorem rely_release : Program.Rely ReleaseExec ReleaseFetch ReleaseRemote.Grows where
  refl := ReleaseRemote.Grows.refl
  trans := ReleaseRemote.Grows.trans
  call := ReleaseRemote.grows_of_exec
  environment := ReleaseRemote.grows_of_fetch

theorem rely_releasePushed : Program.Rely ReleaseExecPushed ReleaseFetch ReleaseRemote.Grows where
  refl := ReleaseRemote.Grows.refl
  trans := ReleaseRemote.Grows.trans
  call h := ReleaseRemote.grows_of_exec h.1
  environment := ReleaseRemote.grows_of_fetch

section Ensures

open Program

variable {α : Type}

/-- What a publication ensures when all lookups find pushed tags. -/
abbrev Secures (p : Publishing α) (w : ReleaseRemote) (Q : α → ReleaseRemote → Prop) : Prop :=
  EnsuresOk ReleaseExecPushed ReleaseRemote.Grows p w Q

private theorem secures_ask {c : ReleaseCall} {w : ReleaseRemote} {Q : c.Value → ReleaseRemote → Prop}
    (h : ∀ w₁ a w₂ w₃, ReleaseExecPushed c w₁ (.ok a) w₂ → w₂.Grows w₃ → Q a w₃) : Secures (ask c) w Q := by
  refine ensures_perform fun w₁ r w₂ w₃ hexec hw a ha => ?_
  subst ha
  exact h w₁ a w₂ w₃ hexec hw

private theorem secures_given {r : Workflow α} {w : ReleaseRemote} {Q : α → ReleaseRemote → Prop}
    (h : ∀ a w', r = .ok a → w.Grows w' → Q a w') : Secures (given r) w Q :=
  fun w' hw a ha => h a w' ha hw

private theorem secures_then {β : Type} {p : Publishing α} {f : α → Publishing β} {w : ReleaseRemote}
    {P : α → ReleaseRemote → Prop} {Q : β → ReleaseRemote → Prop} (h : Secures p w P)
    (hf : ∀ a w', w.Grows w' → P a w' → Secures (f a) w' Q) : Secures (p >>= f) w Q :=
  ensuresOk_bind rely_releasePushed h hf

/-- After a computation of which nothing is needed. -/
private theorem secures_skip {β : Type} {p : Publishing α} {f : α → Publishing β} {w : ReleaseRemote}
    {Q : β → ReleaseRemote → Prop} (hf : ∀ a w', w.Grows w' → Secures (f a) w' Q)
    (hp : Secures p w fun _ _ => True) : Secures (p >>= f) w Q :=
  secures_then hp fun a w' hw _ => hf a w' hw

private theorem secures_ask_true {c : ReleaseCall} {w : ReleaseRemote} : Secures (ask c) w fun _ _ => True :=
  secures_ask fun _ _ _ _ _ _ => trivial

private theorem secures_given_true {r : Workflow α} {w : ReleaseRemote} : Secures (given r) w fun _ _ => True :=
  secures_given fun _ _ _ _ => trivial

/-- A tag that is created has its target in the checkout. -/
theorem createAnnotatedTag_secures (checkout : ℕ) (tag : Text) (target : GitCommitSha) (w : ReleaseRemote) :
    Secures (createAnnotatedTag checkout tag target) w fun _ w' => w'.localTags checkout tag = some target := by
  have hlookup : ∀ w, Secures (ask (.revParseTag checkout tag)) w fun (found : Option GitCommitSha) w' =>
      ∀ existing, found = some existing → w'.localTags checkout tag = some existing := by
    intro w
    refine secures_ask fun w₁ found w₂ w₃ hexec hgrows existing hfound => ?_
    cases hexec.1 with
    | revParseTag _ _ _ _ hok => exact hgrows.localTags checkout tag existing ((hok found rfl) ▸ hfound)
  unfold createAnnotatedTag
  refine secures_then (hlookup w) fun found w₁ _ hfound => ?_
  cases found with
  | some existing =>
    refine secures_given fun _ w₂ hok hgrows => ?_
    have hsame : existing = target := not_not.1 (failIf_eq_ok.1 hok)
    exact hgrows.localTags checkout tag target (hfound target (congrArg some hsame))
  | none =>
    refine secures_skip (fun _ w₂ _ => ?_) secures_ask_true
    refine secures_skip (fun _ w₃ _ => ?_) secures_ask_true
    refine secures_skip (fun _ w₄ _ => ?_) secures_ask_true
    refine secures_then (hlookup w₄) fun found w₅ _ hfound => ?_
    refine secures_given fun _ w₆ hok hgrows => ?_
    exact hgrows.localTags checkout tag target (hfound target (not_not.1 (failIf_eq_ok.1 hok)))

/-- An upserted release has the asset with the digest. -/
theorem upsertRelease_secures (tag title name : Text) (digest : Sha256) (w : ReleaseRemote) :
    Secures (upsertRelease tag title name digest) w fun _ w' => w'.HasAsset tag (name, some digest) := by
  have hupload : ∀ w (result : MutationRecord), Secures (do
      ask (.uploadAsset tag name digest)
      pure result) w fun _ w' => w'.HasAsset tag (name, some digest) := by
    intro w result
    refine secures_then (P := fun _ w' => w'.HasAsset tag (name, some digest)) ?_ fun _ w₁ _ hasset =>
      ensuresOk_pure fun w₂ hgrows => hgrows.assets tag _ hasset
    refine secures_ask fun w₁ _ w₂ w₃ hexec hgrows => ?_
    cases hexec.1 with
    | uploadAsset _ _ _ uploaded _ _ release hrelease hnone _ hok =>
      refine hgrows.assets tag _ ⟨_, Function.update_self .., ?_⟩
      rw [hok rfl]
      exact KeyedList.mem_put.2 (Or.inl rfl)
  unfold upsertRelease
  refine secures_then (P := fun (found : Option ReleaseState) w' => ∀ release, found = some release →
    ∀ asset ∈ release.assets.items, w'.HasAsset tag asset) ?_ fun found w₁ _ hfound => ?_
  · refine secures_ask fun w₁ found w₂ w₃ hexec hgrows release hrelease asset hasset => ?_
    cases hexec.1 with
    | getRelease _ _ _ hok =>
      exact hgrows.assets tag asset ⟨release, (hok found rfl) ▸ hrelease, hasset⟩
  · cases found with
    | none => exact secures_skip (fun _ w₂ _ => hupload w₂ _) secures_ask_true
    | some release =>
      dsimp only
      refine secures_skip (fun _ w₂ hw₂ => ?_) secures_given_true
      refine secures_then (P := fun _ _ => ¬ ∃ found ∈ ((release.assets.items.filter fun asset =>
        asset.1 = name).map Prod.snd).head?, found ≠ some digest) ?_ fun _ w₃ hw₃ hdigest => ?_
      · exact secures_given fun _ _ hok _ => failIf_eq_ok.1 hok
      · have hend : ∀ action w₄, w₁.Grows w₄ → Secures (if ((release.assets.items.filter fun asset =>
            asset.1 = name).map Prod.snd) ≠ [] then
              pure (MutationRecord.mk "release" tag action (some (Text.decimal release.id)))
            else do
              ask (.uploadAsset tag name digest)
              pure (MutationRecord.mk "release" tag "upload"
                (some (Text.decimal release.id ++ ':' :: digest.hexdigest))))
            w₄ fun _ w' => w'.HasAsset tag (name, some digest) := by
          intro action w₄ hw₄
          by_cases hmatching : ((release.assets.items.filter fun asset => asset.1 = name).map Prod.snd) = []
          · rw [if_neg (not_not.2 hmatching)]
            exact hupload w₄ _
          · rw [if_pos hmatching]
            refine ensuresOk_pure fun w₅ hw₅ => ?_
            obtain ⟨asset, rest, hlist⟩ := List.exists_cons_of_ne_nil fun hnil =>
              hmatching (congrArg (List.map Prod.snd) hnil)
            rw [hlist] at hdigest
            have hasset : asset ∈ release.assets.items.filter fun asset => asset.1 = name := hlist ▸ List.mem_cons_self
            rw [List.mem_filter, decide_eq_true_eq] at hasset
            have hsame : asset = (name, some digest) := by
              refine Prod.ext hasset.2 ?_
              by_contra hne
              exact hdigest ⟨asset.2, rfl, hne⟩
            rw [← hsame]
            exact (hw₄.trans hw₅).assets tag asset (hfound release rfl asset hasset.1)
        split
        · exact secures_skip (fun _ w₄ hw₄ => hend _ w₄ (hw₂.trans (hw₃.trans hw₄))) secures_ask_true
        · exact hend _ w₃ (hw₂.trans hw₃)

namespace PublicationRun

variable (run : PublicationRun)

/-- The tags that are found at the current commit are on the remote at that commit. -/
theorem existingTargets_secures (tags : List Text) (w : ReleaseRemote) :
    Secures (run.existingTargets tags) w fun targets w' => targets.map Prod.fst = tags ∧
      ∀ tag, (tag, some run.current) ∈ targets → w'.remoteTags tag = some run.current := by
  induction tags generalizing w with
  | nil => exact ensuresOk_pure fun w' _ => ⟨rfl, fun tag h => absurd h List.not_mem_nil⟩
  | cons tag tags ih =>
    refine secures_then (P := fun (found : Option GitCommitSha) w' => found = some run.current →
      w'.remoteTags tag = some run.current) ?_ fun found w₁ _ hfound => ?_
    · refine secures_ask fun w₁ found w₂ w₃ hexec hgrows hfound => ?_
      have hpushed := hexec.2
      cases hexec.1 with
      | tagTarget _ _ _ _ _ hok =>
        exact hgrows.remoteTags tag run.current (hpushed ((hok found rfl) ▸ hfound))
    · refine secures_then (ih w₁) fun targets w₂ hw₂ htargets => ensuresOk_pure fun w₃ hw₃ => ?_
      refine ⟨by rw [List.map_cons, htargets.1], fun tag' hmem => ?_⟩
      rcases List.mem_cons.1 hmem with heq | hmem
      · obtain ⟨rfl, hcurrent⟩ := Prod.ext_iff.1 heq
        exact (hw₂.trans hw₃).remoteTags _ run.current (hfound hcurrent.symm)
      · exact hw₃.remoteTags tag' run.current (htargets.2 tag' hmem)

/-- The new tags are the ones without a target, and the checkout has them. -/
theorem createTags_secures (targets : Dict Text (Option GitCommitSha)) (tags : List Text) (w : ReleaseRemote) :
    Secures (run.createTags targets tags) w fun newTags w' =>
      (∀ tag ∈ newTags, w'.localTags run.checkout tag = some run.current) ∧
        ∀ tag ∈ tags, targets.lookup tag = some none → tag ∈ newTags := by
  induction tags generalizing w with
  | nil => exact ensuresOk_pure fun w' _ => ⟨fun _ h => absurd h List.not_mem_nil, fun _ h => absurd h List.not_mem_nil⟩
  | cons tag tags ih =>
    unfold createTags
    by_cases hnew : targets.lookup tag = some none
    · rw [if_neg (not_not.2 hnew)]
      refine secures_then (createAnnotatedTag_secures run.checkout tag run.current w) fun _ w₁ _ htag => ?_
      refine secures_then (ih w₁) fun newTags w₂ hw₂ hnewTags => ensuresOk_pure fun w₃ hw₃ => ?_
      constructor
      · intro tag' hmem
        rcases List.mem_cons.1 hmem with rfl | hmem
        · exact (hw₂.trans hw₃).localTags run.checkout _ run.current htag
        · exact hw₃.localTags run.checkout tag' run.current (hnewTags.1 tag' hmem)
      · intro tag' hmem hnone
        rcases List.mem_cons.1 hmem with rfl | hmem
        · exact List.mem_cons_self
        · exact List.mem_cons_of_mem _ (hnewTags.2 tag' hmem hnone)
    · rw [if_pos hnew]
      refine (ih w).mono fun r w' hr newTags hok => ?_
      refine ⟨(hr newTags hok).1, fun tag' hmem hnone => ?_⟩
      rcases List.mem_cons.1 hmem with rfl | hmem
      · exact absurd hnone hnew
      · exact (hr newTags hok).2 tag' hmem hnone

/-- Every tag of the plan is on the remote at the current commit, and the release has the verified bundle. -/
def Published (plan : PreparedRelease) (w : ReleaseRemote) : Prop :=
  (∀ tag ∈ plan.tags, w.remoteTags tag = some run.current) ∧
    w.HasAsset plan.productTag (plan.assetName, some plan.artifactSha256)

/-- The tags that are pushed reach the remote. -/
private theorem pushTags_secures {newTags : List Text} {w : ReleaseRemote}
    (hlocal : ∀ tag ∈ newTags, w.localTags run.checkout tag = some run.current) :
    Secures (pushTags run.checkout newTags) w fun _ w' =>
      ∀ tag ∈ newTags, w'.remoteTags tag = some run.current := by
  unfold pushTags
  by_cases hnil : newTags = []
  · rw [if_pos hnil, hnil]
    exact ensuresOk_pure fun _ _ tag h => absurd h List.not_mem_nil
  · rw [if_neg hnil]
    refine fun w₁ hw r w₂ hexec w₃ hw₃ a ha tag htag => hw₃.remoteTags tag run.current ?_
    subst ha
    cases hexec.1 with
    | pushTags _ _ accepted _ _ _ hok =>
      show (if tag ∈ accepted then w₁.localTags run.checkout tag else w₁.remoteTags tag) = some run.current
      rw [if_pos (hok rfl tag htag)]
      exact hw.localTags run.checkout tag run.current (hlocal tag htag)

/-- A publication that succeeds has published its plan. -/
theorem publish_secures (w : ReleaseRemote) :
    Secures run.publish w fun _ w' => ∃ plan, run.prepared = .ok plan ∧ run.Published plan w' := by
  unfold publish
  refine secures_then (P := fun plan _ => run.prepared = .ok plan) (secures_given fun _ _ h _ => h)
    fun plan w₁ _ hplan => ?_
  refine secures_then (run.existingTargets_secures plan.tags w₁) fun targets w₂ _ ⟨hkeys, htargets⟩ => ?_
  refine secures_then (P := fun _ _ => ¬ (Dict.ofList targets).entries.any
    (fun e => e.2.any (· ≠ run.current)) = true) (secures_given fun _ _ h _ => failIf_eq_ok.1 h)
    fun _ w₃ hw₃ hcurrent => ?_
  refine secures_skip (fun _ w₄ hw₄ => ?_) secures_ask_true
  refine secures_skip (fun _ w₅ hw₅ => ?_) secures_given_true
  refine secures_skip (fun _ w₆ hw₆ => ?_) secures_given_true
  refine secures_then (run.createTags_secures (Dict.ofList targets) plan.tags w₆)
    fun newTags w₇ hw₇ ⟨hlocal, hnew⟩ => ?_
  -- the tags that are not new have been found on the remote
  have hfound : ∀ tag ∈ plan.tags, tag ∉ newTags → w₇.remoteTags tag = some run.current := by
    intro tag htag hold
    obtain ⟨target, hlookup⟩ := Dict.exists_lookup_ofList (l := targets) (hkeys ▸ htag)
    cases target with
    | none => exact absurd (hnew tag htag hlookup) hold
    | some target =>
      have hsame : target = run.current := by
        by_contra hne
        refine hcurrent (List.any_eq_true.2 ⟨⟨tag, some target⟩, AList.mem_lookup_iff.1 hlookup, ?_⟩)
        simpa using hne
      rw [hsame] at hlookup
      have hremote := htargets tag (Dict.mem_of_lookup_ofList hlookup)
      exact (((hw₃.trans hw₄).trans (hw₅.trans hw₆)).trans hw₇).remoteTags tag run.current hremote
  refine secures_then (P := fun _ w' => run.Published plan w') ?_ fun _ w₈ _ hpublished =>
    ensuresOk_pure fun w₉ hw₉ => ⟨plan, hplan, ?_⟩
  · refine ensuresOk_tryCatch rely_releasePushed ?_ ?_ fun _ _ => ensuresOk_throw
    · refine secures_then (run.pushTags_secures hlocal) fun _ w₈ hw₈ hpushed => ?_
      refine ((upsertRelease_secures _ _ _ _ w₈).and_later rely_releasePushed).mono fun r w₉ hr result hok => ?_
      refine ⟨fun tag htag => ?_, hr.1 result hok⟩
      by_cases hmem : tag ∈ newTags
      · exact hr.2.remoteTags tag run.current (hpushed tag hmem)
      · exact (hw₈.trans hr.2).remoteTags tag run.current (hfound tag htag hmem)
    · exact fun _ w w' hw h => ⟨fun tag htag => hw.remoteTags tag run.current (h.1 tag htag), hw.assets _ _ h.2⟩
  · exact ⟨fun tag htag => hw₉.remoteTags tag run.current (hpublished.1 tag htag), hw₉.assets _ _ hpublished.2⟩

end PublicationRun

/-! ### Interleaved publications -/

/-- Publications in one repository. -/
abbrev Publications := System ReleaseAnswer (Workflow (List MutationRecord)) ReleaseRemote ℕ

/-- The given runs, none of which has made a call. -/
def Publications.start (w : ReleaseRemote) (runs : ℕ → PublicationRun) : Publications :=
  ⟨w, fun i => (runs i).publish.run⟩

/-- Tags of the remote keep their targets, and assets stay and keep their digests. -/
structure ReleaseRemote.Immutable (w w' : ReleaseRemote) : Prop where
  tags : ∀ tag target, w.remoteTags tag = some target → w'.remoteTags tag = some target
  assets : ∀ tag asset, w.HasAsset tag asset → w'.HasAsset tag asset
  digests : ∀ tag name digest digest', w.HasAsset tag (name, digest) → w'.HasAsset tag (name, digest') →
    digest' = digest

theorem ReleaseRemote.Grows.immutable {w w' : ReleaseRemote} (h : w.Grows w') : w.Immutable w' where
  tags := h.remoteTags
  assets := h.assets
  digests tag name digest digest' hasset hasset' := by
    obtain ⟨release, hrelease, hmem⟩ := h.assets tag _ hasset
    obtain ⟨release', hrelease', hmem'⟩ := hasset'
    have hsame : release = release' := Option.some_inj.1 (hrelease.symm.trans hrelease')
    subst hsame
    exact congrArg Prod.snd (release.assets.eq_of_key_eq hmem' hmem rfl)

/-- In every interleaving of any number of runs, with any failures, tags and assets are immutable; and if every tag that
a run finds in its checkout at its commit is on the remote, then a run that has succeeded has published its plan. -/
theorem publications_converge (w : ReleaseRemote) (runs : ℕ → PublicationRun) :
    (∀ s s', System.Steps ReleaseExec ReleaseFetch (Publications.start w runs) s →
      System.Steps ReleaseExec ReleaseFetch s s' → s.world.Immutable s'.world) ∧
    ∀ s, System.Steps ReleaseExecPushed ReleaseFetch (Publications.start w runs) s →
      ∀ i mutations, s.programs i = .done (.ok mutations) →
        ∃ plan, (runs i).prepared = .ok plan ∧ (runs i).Published plan s.world := by
  constructor
  · intro s s' _ hsteps
    exact (System.later_of_steps rely_release hsteps).immutable
  · intro s hsteps i mutations hdone
    have hall : ∀ i, Ensures ReleaseExecPushed ReleaseRemote.Grows ((Publications.start w runs).programs i) w
        fun r w' => ∀ mutations : List MutationRecord, r = .ok mutations →
          ∃ plan, (runs i).prepared = .ok plan ∧ (runs i).Published plan w' :=
      fun i => (runs i).publish_secures w
    exact System.of_steps rely_releasePushed hsteps hall hdone mutations rfl

end Ensures

/-! ### A push that fails -/

section Example

open Program

private theorem publishedCommit_hex (c : Char) (hc : isLowerHex c = true) : (List.replicate 40 c).all isLowerHex = true := by
  simp [hc]

private theorem publishedCommit_length (c : Char) : (List.replicate 40 c).length = 40 ∨ (List.replicate 40 c).length = 64 :=
  Or.inl (List.length_replicate ..)

private def publishedCommit (c : Char) (hc : isLowerHex c = true) : GitCommitSha where
  text := List.replicate 40 c
  hex := publishedCommit_hex c hc
  length := publishedCommit_length c

private def currentCommit : GitCommitSha := publishedCommit 'a' (Eq.refl true)

private def examplePlan : PreparedRelease where
  productKey := "sales".toList
  productVersion := ⟨2, two_isVersion⟩
  productTag := "product/prd_0198f6c2-8ac7-7f31-a48e-1c3d82e9a702/v2".toList
  tableTags := ["table/tbl_0198f6c2-8ac7-7f31-a48e-1c3d82e9a703/v1".toList]
  assetName := "prd_0198f6c2-8ac7-7f31-a48e-1c3d82e9a702-v2.zip".toList
  artifactSha256 := ⟨0⟩

private def exampleTableTag : Text := "table/tbl_0198f6c2-8ac7-7f31-a48e-1c3d82e9a703/v1".toList

/-- A run of the plan in the one checkout. -/
private def exampleRun : PublicationRun := ⟨0, currentCommit, .ok examplePlan, .ok ()⟩

private def emptyRemote : ReleaseRemote := ⟨fun _ _ => none, fun _ => none, fun _ => none⟩

/-- The checkout has both tags. -/
private def taggedRemote : ReleaseRemote :=
  (emptyRemote.setLocalTag 0 examplePlan.productTag currentCommit).setLocalTag 0 exampleTableTag currentCommit

private def partialFailure : WorkflowError :=
  ⟨.partialFailure, "RELEASE_PUBLICATION_PARTIAL", "release publication began but did not converge".toList⟩

private def pushFailed : WorkflowError := .transient "TAG_PUSH_FAILED" "tag push failed".toList

/-- The first run creates both tags, and its push fails. -/
private theorem alone_firstRun :
    Alone ReleaseExec exampleRun.publish.run emptyRemote (.error partialFailure) (taggedRemote.pushed 0 []) := by
  refine .call (.ok none) (.tagTarget 0 _ _ _ _ fun _ h => ?_) ?_
  · cases h
    rfl
  refine .call (.ok none) (.tagTarget 0 _ _ _ _ fun _ h => ?_) ?_
  · cases h
    rfl
  refine .call (.ok none) (.getRelease _ _ _ fun _ h => ?_) ?_
  · cases h
    rfl
  refine .call (.ok none) (.revParseTag 0 _ _ _ fun _ h => ?_) ?_
  · cases h
    rfl
  refine .call (.ok ()) (.configureIdentity 0 _ _ _) ?_
  refine .call (.ok ()) (.configureIdentity 0 _ _ _) ?_
  refine .call (.ok ()) (.annotateTag 0 _ currentCommit _ _ rfl) ?_
  refine .call (.ok (some currentCommit)) (.revParseTag 0 _ _ _ fun _ h => ?_) ?_
  · cases h
    rfl
  refine .call (.ok none) (.revParseTag 0 _ _ _ fun _ h => ?_) ?_
  · cases h
    rfl
  refine .call (.ok ()) (.configureIdentity 0 _ _ _) ?_
  refine .call (.ok ()) (.configureIdentity 0 _ _ _) ?_
  refine .call (.ok ()) (.annotateTag 0 _ currentCommit _ _ rfl) ?_
  refine .call (.ok (some currentCommit)) (.revParseTag 0 _ _ _ fun _ h => ?_) ?_
  · cases h
    rfl
  refine .call (.error pushFailed) (.pushTags 0 _ [] _ _ ?_ fun h => ?_) ?_
  · intro tag h
    cases h
  · cases h
  exact .done _ _

private def exampleRelease : ReleaseState where
  id := 1
  tag := examplePlan.productTag
  title := examplePlan.productKey ++ " v".toList ++ Text.decimal 2
  draft := false
  prerelease := false
  assets := .empty _

/-- The remote with the release of the plan and its asset. -/
private def releasedRemote (w : ReleaseRemote) : ReleaseRemote :=
  ((w.createTag examplePlan.productTag currentCommit).setRelease examplePlan.productTag exampleRelease).setRelease
    examplePlan.productTag
    { exampleRelease with assets := exampleRelease.assets.put (examplePlan.assetName, some ⟨0⟩) }

private def uploadMutation : MutationRecord :=
  ⟨"release", examplePlan.productTag, "upload", some (Text.decimal 1 ++ ':' :: Sha256.hexdigest ⟨0⟩)⟩

/-- The second run in the checkout finds both tags there, pushes nothing and succeeds. -/
private theorem alone_secondRun : Alone ReleaseExec exampleRun.publish.run (taggedRemote.pushed 0 [])
    (.ok [uploadMutation]) (releasedRemote (taggedRemote.pushed 0 [])) := by
  refine .call (.ok (some currentCommit)) (.tagTarget 0 _ _ _ _ fun _ h => ?_) ?_
  · cases h
    rfl
  refine .call (.ok (some currentCommit)) (.tagTarget 0 _ _ _ _ fun _ h => ?_) ?_
  · cases h
    rfl
  refine .call (.ok none) (.getRelease _ _ _ fun _ h => ?_) ?_
  · cases h
    rfl
  refine .call (.ok none) (.getRelease _ _ _ fun _ h => ?_) ?_
  · cases h
    rfl
  refine .call (.ok 1) (.createRelease _ _ 1 _ _ currentCommit rfl fun _ h => ?_) ?_
  · cases h
    rfl
  refine .call (.ok ()) (.uploadAsset _ _ ⟨0⟩ (some ⟨0⟩) _ _ _ rfl rfl (Or.inl rfl) fun _ => rfl) ?_
  exact .done _ _

/-- After a push that failed, the run in the same checkout succeeds without the tag of the table on the remote. -/
theorem publication_not_pushed :
    ∃ (s : Publications) (mutations : List MutationRecord),
      System.Steps ReleaseExec ReleaseFetch (Publications.start emptyRemote fun _ => exampleRun) s ∧
        s.programs 1 = .done (.ok mutations) ∧
          ¬ ∃ plan, exampleRun.prepared = .ok plan ∧ exampleRun.Published plan s.world := by
  have hfirst := alone_firstRun.steps ReleaseFetch (fun _ : ℕ => exampleRun.publish.run) 0 rfl
  have hdone : Function.update (Function.update (fun _ : ℕ => exampleRun.publish.run) 0
      (.done (.error partialFailure))) 1 (.done (.ok [uploadMutation])) 1 = .done (.ok [uploadMutation]) :=
    Function.update_self ..
  refine ⟨_, _, hfirst.trans (alone_secondRun.steps _ _ 1 (Function.update_of_ne (by decide) ..)), hdone, ?_⟩
  rintro ⟨plan, hplan, htags, -⟩
  cases hplan
  have htag : (releasedRemote (taggedRemote.pushed 0 [])).remoteTags exampleTableTag = some currentCommit :=
    htags exampleTableTag (by decide)
  exact absurd htag (by decide)

/-- A run whose push succeeds has published its plan. -/
theorem publication_pushed :
    ∃ (s : Publications) (mutations : List MutationRecord), s.programs 0 = .done (.ok mutations) ∧
      ∃ plan, exampleRun.prepared = .ok plan ∧ exampleRun.Published plan s.world := by
  have hrun : Alone ReleaseExecPushed exampleRun.publish.run emptyRemote
      (.ok (examplePlan.tags.map (fun tag => ⟨"tag", tag, "create", none⟩) ++ [uploadMutation]))
      (releasedRemote (taggedRemote.pushed 0 examplePlan.tags)) := by
    refine .call (.ok none) ⟨.tagTarget 0 _ _ _ _ fun _ h => ?_, fun h => ?_⟩ ?_
    · cases h
      rfl
    · cases h
    refine .call (.ok none) ⟨.tagTarget 0 _ _ _ _ fun _ h => ?_, fun h => ?_⟩ ?_
    · cases h
      rfl
    · cases h
    refine .call (.ok none) ⟨.getRelease _ _ _ fun _ h => ?_, trivial⟩ ?_
    · cases h
      rfl
    refine .call (.ok none) ⟨.revParseTag 0 _ _ _ fun _ h => ?_, trivial⟩ ?_
    · cases h
      rfl
    refine .call (.ok ()) ⟨.configureIdentity 0 _ _ _, trivial⟩ ?_
    refine .call (.ok ()) ⟨.configureIdentity 0 _ _ _, trivial⟩ ?_
    refine .call (.ok ()) ⟨.annotateTag 0 _ currentCommit _ _ rfl, trivial⟩ ?_
    refine .call (.ok (some currentCommit)) ⟨.revParseTag 0 _ _ _ fun _ h => ?_, trivial⟩ ?_
    · cases h
      rfl
    refine .call (.ok none) ⟨.revParseTag 0 _ _ _ fun _ h => ?_, trivial⟩ ?_
    · cases h
      rfl
    refine .call (.ok ()) ⟨.configureIdentity 0 _ _ _, trivial⟩ ?_
    refine .call (.ok ()) ⟨.configureIdentity 0 _ _ _, trivial⟩ ?_
    refine .call (.ok ()) ⟨.annotateTag 0 _ currentCommit _ _ rfl, trivial⟩ ?_
    refine .call (.ok (some currentCommit)) ⟨.revParseTag 0 _ _ _ fun _ h => ?_, trivial⟩ ?_
    · cases h
      rfl
    refine .call (.ok ()) ⟨.pushTags 0 _ examplePlan.tags _ _ ?_ fun _ tag h => h, trivial⟩ ?_
    · intro tag htag
      have hlocal : ∀ tag ∈ examplePlan.tags, taggedRemote.localTags 0 tag = some currentCommit := by decide
      exact ⟨currentCommit, hlocal tag htag, Or.inl rfl⟩
    refine .call (.ok none) ⟨.getRelease _ _ _ fun _ h => ?_, trivial⟩ ?_
    · cases h
      rfl
    refine .call (.ok 1) ⟨.createRelease _ _ 1 _ _ currentCommit rfl fun _ h => ?_, trivial⟩ ?_
    · cases h
      rfl
    refine .call (.ok ()) ⟨.uploadAsset _ _ ⟨0⟩ (some ⟨0⟩) _ _ _ rfl rfl (Or.inl rfl) fun _ => rfl, trivial⟩ ?_
    exact .done _ _
  have hsteps := hrun.steps ReleaseFetch (fun _ : ℕ => exampleRun.publish.run) 0 rfl
  have hdone : ∀ r, Function.update (fun _ : ℕ => exampleRun.publish.run) 0 (.done r) 0 = .done r :=
    fun r => Function.update_self ..
  exact ⟨_, _, hdone _, (publications_converge emptyRemote fun _ => exampleRun).2 _ hsteps 0 _ (hdone _)⟩

end Example

end ArdOssie
