import ArdOssie.Adapters.Filesystem
import ArdOssie.Registry.Store

/-!
# Release detection

The products and tables that a range of merged commits releases.  Changed artifacts name products, changesets and
tables; a changeset whose products are all at their readiness version brings its products and tables, and the tables of
a changeset whose products are not there yet are taken out again.
-/

namespace ArdOssie

variable {platform : Platform}

/-- What the service reads: the checkout, the YAML reader, the answers of git and the registry directory, `none` when it
is malformed. -/
structure ReleaseWorld (platform : Platform) where
  checkout : Checkout
  loadYaml : List ℕ → Option Json
  currentSha : Workflow Text
  changedPaths : Text → Text → Workflow (Text × List FilePath)
  registry : Option (Registry platform)

structure ReleaseDetectionRequest where
  repository : List Text
  before : Text
  current : Text

/-- What a changed path names. -/
inductive ChangedArtifact where
  | generated (productKey : Text)
  | changeset (stem : Text)
  | table (stem : Text)
  | other

/-- `parts[2].endswith(".json")` and the name without the suffix -/
def jsonStem (name : Text) : Option Text :=
  if ".json".toList <:+ name then some (name.take (name.length - 5)) else none

/-- The tests of the changed path in `ReleaseDetectionService.run` -/
def changedArtifact : List Text → ChangedArtifact
  | top :: second :: third :: rest =>
    if rest ≠ [] ∧ top = "products".toList ∧ third = "generated".toList then .generated second
    else if rest = [] ∧ top = "registry".toList then
      match jsonStem third with
      | none => .other
      | some stem =>
        if second = "changesets".toList then .changeset stem
        else if second = "tables".toList then .table stem
        else .other
    else .other
  | _ => .other

/-- The sets that the loop over the changed paths fills. -/
structure References where
  directProducts : List ProductKey
  changesetIds : List ChangeSetId
  tableIds : List TableId
  deriving DecidableEq

namespace ReleaseWorld

variable (world : ReleaseWorld platform)

/-- `_safe_relative` -/
def safeRelative (path : FilePath) : Workflow (List Text) := do
  let relative ← world.checkout.resolveWrite path
  failIf (path.absolute ∨ "..".toList ∈ path.parts ∨ relative ≠ path.parts)
    (.security "RELEASE_CHANGED_PATH_UNSAFE" "changed release path is outside the repository".toList)
  pure relative

/-- `_require_current_artifact` -/
def requireCurrentArtifact (relative : List Text) : Workflow Unit := do
  let path ← world.checkout.resolveWrite ⟨false, relative⟩
  failIf (world.checkout.isFile path = false)
    (.conflict "RELEASE_ARTIFACT_DELETED"
      ("changed release artifact is absent at current head: ".toList ++ (relative.intersperse ['/']).flatten))

/-- The product of a key, the last one in the order of the identifiers. -/
def productByKey (registry : Registry platform) (productKey : ProductKey) : Option (ProductRecord platform) :=
  (registry.allProducts.filter fun p => p.productKey = productKey).getLast?

/-- The configuration file of a product as a value. -/
def readConfig (productKey : ProductKey) : Workflow Json := do
  let path ← world.checkout.resolveWrite ⟨false, ["products".toList, productKey.text, "product.yaml".toList]⟩
  failIf (world.checkout.isFile path = false)
    (.conflict "RELEASE_PRODUCT_CONFIG_MISSING" ("release product config is missing: ".toList ++ productKey.text))
  let path ← world.checkout.resolveRead ⟨false, path⟩
  let content := match world.checkout.entry path with
    | some (.file content) => world.loadYaml content
    | _ => none
  require content
    (.conflict "RELEASE_PRODUCT_CONFIG_INVALID" ("release product config is malformed: ".toList ++ productKey.text))

/-- The changeset that a configuration names. -/
def configChangeset (product : ProductRecord platform) (config : Json) : Workflow (Option ChangeSetId) :=
  match config.field "changeset_id" with
  | .null => pure none
  | .str [] => pure none
  | .str t => do
    let changesetId ← require (EntityId.parse "cst_" t)
      (.conflict "CHANGESET_REFERENCE_INVALID"
        ("release product has an invalid changeset: ".toList ++ product.productKey.text))
    pure (some changesetId)
  | _ => .error (.conflict "CHANGESET_REFERENCE_INVALID"
      ("release product has an invalid changeset: ".toList ++ product.productKey.text))

/-- `_product_changeset` -/
def productChangeset (product : ProductRecord platform) : Workflow (Option ChangeSetId) := do
  let config ← world.readConfig product.productKey
  failIf (¬ (config.isObject = true ∧ (config.field "product_id").isText product.productId.text = true ∧
      (config.field "product_key").isText product.productKey.text = true ∧
      (config.field "version").isNat product.version.val = true))
    (.conflict "RELEASE_PRODUCT_CONFIG_MISMATCH"
      ("release product config does not match registry: ".toList ++ product.productKey.text))
  configChangeset product config

/-- `_require_table` -/
def requireTable (registry : Registry platform) (tableId : TableId) : Workflow Unit :=
  failIf (registry.getTable tableId = none)
    (.conflict "RELEASE_TABLE_NOT_FOUND" ("release table is missing from registry: ".toList ++ tableId.text))

/-- A changed generated artifact. -/
def referenceProduct (registry : Registry platform) (refs : References) (relative : List Text) (key : Text) :
    Workflow References := do
  let productKey ← require (ProductKey.parse key)
    (.conflict "RELEASE_PRODUCT_KEY_INVALID" "changed generated artifact has a non-canonical product key".toList)
  world.requireCurrentArtifact relative
  let product ← require (productByKey registry productKey)
    (.conflict "RELEASE_PRODUCT_NOT_FOUND" ("release product is missing from registry: ".toList ++ productKey.text))
  let changeset ← world.productChangeset product
  match changeset with
  | none => pure { refs with directProducts := refs.directProducts ++ [productKey] }
  | some changesetId => pure { refs with changesetIds := refs.changesetIds ++ [changesetId] }

/-- One round of the loop over the changed paths. -/
def reference (registry : Registry platform) (refs : References) (path : FilePath) : Workflow References := do
  let relative ← world.safeRelative path
  match changedArtifact relative with
  | .generated key => world.referenceProduct registry refs relative key
  | .changeset stem => do
    let changesetId ← require (EntityId.parse "cst_" stem)
      (.conflict "CHANGESET_REFERENCE_INVALID" "changed changeset path is not canonical".toList)
    pure { refs with changesetIds := refs.changesetIds ++ [changesetId] }
  | .table stem => do
    let tableId ← require (EntityId.parse "tbl_" stem)
      (.conflict "TABLE_REFERENCE_INVALID" "changed table path is not canonical".toList)
    requireTable registry tableId
    pure { refs with tableIds := refs.tableIds ++ [tableId] }
  | .other => pure refs

/-- The references of the changed paths. -/
def references (registry : Registry platform) (paths : List FilePath) : Workflow References :=
  paths.foldlM (world.reference registry) ⟨[], [], []⟩

end ReleaseWorld

/-! ### Changesets -/

/-- The product and the readiness of a required product; its version must not be behind. -/
def resolveReadiness (registry : Registry platform) (changeset : ChangeSetRecord) (productId : ProductId) :
    Workflow (ProductRecord platform × ProductReadiness) := do
  let missing := WorkflowError.conflict "CHANGESET_REGISTRY_REFERENCE_MISSING"
    ("changeset references a missing product: ".toList ++ productId.text)
  let product ← require (registry.getProduct productId) missing
  let readiness ← require (changeset.readyProducts.lookup productId) missing
  failIf (readiness.version < product.version)
    (.conflict "CHANGESET_VERSION_NOT_CURRENT"
      (productId.text ++ ":v".toList ++ Text.decimal readiness.version.val ++ " < v".toList ++
        Text.decimal product.version.val))
  pure (product, readiness)

/-- `_expand_changeset`: the products and tables that are added, or `none` for a version that is still to come. -/
def expandChangeset (registry : Registry platform) (changeset : ChangeSetRecord) :
    Workflow (Option (List ProductKey × List TableId)) := do
  let resolved ← changeset.requiredProductIds.mapM (resolveReadiness registry changeset)
  if resolved.any fun p => p.1.version < p.2.version then
    pure none
  else do
    forM changeset.tableIds (ReleaseWorld.requireTable registry)
    pure (some (resolved.map fun p => p.1.productKey, changeset.tableIds))

/-- The products, the tables and the deferred tables of the expansion. -/
structure Expansion where
  products : List ProductKey
  tables : List TableId
  deferred : List TableId

/-- One round of the loop over the changesets. -/
def expandReference (registry : Registry platform) (e : Expansion) (changesetId : ChangeSetId) :
    Workflow Expansion := do
  let changeset ← require (registry.getChangeset changesetId)
    (.conflict "CHANGESET_NOT_FOUND" ("release changeset is missing: ".toList ++ changesetId.text))
  if changeset.status ≠ .ready then
    pure e
  else do
    let expanded ← expandChangeset registry changeset
    match expanded with
    | none => pure { e with deferred := e.deferred ++ changeset.tableIds }
    | some (products, tables) => pure { e with products := e.products ++ products, tables := e.tables ++ tables }

/-- The output of `ReleaseDetectionService.run`; the status is `NOOP` when nothing is released. -/
structure ReleaseDetection where
  before : Text
  current : Text
  mergeBase : Text
  products : List ProductKey
  tables : List TableId
  noop : Bool
  deriving DecidableEq

/-- The output of the references. -/
def expandReferences (registry : Registry platform) (refs : References) : Workflow (List ProductKey × List TableId) := do
  let e ← (sortedSet refs.changesetIds).foldlM (expandReference registry)
    (Expansion.mk refs.directProducts refs.tableIds [])
  pure (sortedSet e.products, sortedSet (e.tables.filter fun t => t ∉ e.deferred))

namespace ReleaseWorld

/-- `ReleaseDetectionService.run` -/
def detect (world : ReleaseWorld platform) (request : ReleaseDetectionRequest) : Workflow ReleaseDetection := do
  failIf (request.repository ≠ world.checkout.root)
    (.security "RELEASE_DETECTION_REPOSITORY_MISMATCH"
      "release detection repository does not match filesystem port".toList)
  let sha ← world.currentSha
  failIf (sha ≠ request.current)
    (.security "RELEASE_DETECTION_HEAD_MISMATCH"
      "release detection must run at the exact merged commit".toList)
  let changed ← world.changedPaths request.before request.current
  let registry ← require world.registry (.conflict "RELEASE_REGISTRY_INVALID" "release registry is malformed".toList)
  let refs ← world.references registry changed.2
  let output ← expandReferences registry refs
  pure ⟨request.before, request.current, changed.1, output.1, output.2, output.1 = [] ∧ output.2 = []⟩

end ReleaseWorld

end ArdOssie
