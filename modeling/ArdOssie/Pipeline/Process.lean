import ArdOssie.Pipeline.Duplicates
import ArdOssie.Pipeline.TableRecords

/-!
# Processing a product

A run builds the records of a product and of its tables from the registry, collects the findings that block it, and
otherwise writes the product, the tables and the mappings of the product.  A change of a table that several products
map needs a changeset.
-/

namespace ArdOssie

structure QualityFinding where
  code : String
  message : Text
  path : Option Text
  deriving DecidableEq

/-- What the documents, the provider and the earlier product contribute to a product. -/
structure ProductParts where
  canonicalHash : Sha256
  metrics : List MetricRecord
  relationships : List RelationshipRecord
  findings : List QualityFinding
  warnings : List QualityFinding

structure ProcessInput where
  config : ProductConfig
  dictionary : List DictionaryTable
  parts : ProductParts
  prNumber : Option ℤ
  warningsAsErrors : Bool

section Process

variable {platform : Platform}

/-! ### Records -/

/-- A key that does not match its pattern fails the validation of the record. -/
def requireProductKey (t : Text) : PyResult ProductKey :=
  if h : isProductKey t = true then .ok ⟨t, h⟩ else .error (.validationError ["product_key"])

/-- `ProductRecord(...)` -/
def ProductRecord.make (config : ProductConfig) (existing : Option (ProductRecord platform)) (parts : ProductParts) :
    PyResult (ProductRecord platform) := do
  let productKey ← requireProductKey config.productKey
  if hmetrics : NamedIdsUnique platform parts.metrics then
    if hrelationships : NamedIdsUnique platform parts.relationships then
      pure ⟨config.productId, productKey, config.version, .active, some config.displayName,
        (existing.map fun item => item.aliases).getD [], some parts.canonicalHash, parts.metrics, parts.relationships,
        hmetrics, hrelationships⟩
    else .error (.validationError ["relationship names and IDs must be unique within a product"])
  else .error (.validationError ["metric names and IDs must be unique within a product"])

/-- A table record, its intermediate form and its version decision. -/
abbrev BuiltTable (platform : Platform) := TableRecord platform × TableIR × VersionDecision

/-! ### Findings -/

/-- `_duplicate_reports` -/
def duplicateReports (operation : Operation) (product : ProductRecord platform) (tables : List (TableRecord platform))
    (registry : Registry platform) : List DuplicateReport :=
  let noChange := (registry.getProduct product.productId).filter fun existing =>
    operation = .create ∧ existing.canonicalHash = product.canonicalHash
  let report := match noChange with
    | some existing => productReport .noChange "PRODUCT_NO_CHANGE" (some existing.productId)
    | none => classifyProduct product registry.allProducts operation []
  report :: tables.map fun table => classifyTable table registry.allTables

/-- `_hard_findings` -/
def hardFindings (duplicates : List DuplicateReport) (versions : List VersionDecision) : List QualityFinding :=
  (duplicates.filter fun item => item.decision = .block).map (fun item =>
      ⟨item.code, ("Duplicate check blocked " ++ item.entityType.text).toList, none⟩) ++
    (versions.filter fun item => item.outcome = .block).map fun item =>
      ⟨item.code, "Numeric version transition is invalid".toList, none⟩

/-- The tables of a run that are registered, change, and are mapped by several products. -/
def sharedTables (registry : Registry platform) (built : List (BuiltTable platform)) : List (TableRecord platform) :=
  (built.filter fun b => b.2.2.changed = true ∧ registry.getTable b.1.tableId ≠ none ∧
    (analyzeTableChange b.1.tableId registry.allMappings).shared = true).map Prod.fst

/-- The findings on shared tables and the changeset that is to cover them. -/
def changesetFindings (config : ProductConfig) (changesetId : Text) (shared : List (TableRecord platform))
    (registry : Registry platform) (prNumber : Option ℤ) : List QualityFinding :=
  match (EntityId.parse "cst_" changesetId).bind registry.getChangeset with
  | none => [⟨"CHANGESET_NOT_FOUND", "Changeset ".toList ++ changesetId ++ " does not exist".toList, none⟩]
  | some changeset =>
    (if config.productId ∉ changeset.requiredProductIds then
      [⟨"CHANGESET_PRODUCT_NOT_REQUIRED", "Product ".toList ++ config.productId.text ++ " is not required by ".toList ++
        changesetId, none⟩] else []) ++
    (shared.filter fun table => table.tableId ∉ changeset.tableIds).map (fun table =>
      ⟨"CHANGESET_TABLE_NOT_INCLUDED", "Table ".toList ++ table.tableId.text ++ " is not included by ".toList ++
        changesetId, none⟩) ++
    if prNumber.all fun n => n < 1 then
      [⟨"CHANGESET_PR_NUMBER_REQUIRED", "A positive PR number is required to mark changeset readiness".toList, none⟩]
    else []

/-- `_shared_table_findings` -/
def sharedTableFindings (config : ProductConfig) (built : List (BuiltTable platform)) (registry : Registry platform)
    (prNumber : Option ℤ) : List QualityFinding :=
  let shared := sharedTables registry built
  if shared = [] then []
  else
    match truthy config.changesetId with
    | none => shared.map fun table => ⟨"SHARED_TABLE_CHANGESET_REQUIRED",
        "Shared table ".toList ++ table.tableId.text ++ " must use a changeset".toList, none⟩
    | some changesetId => changesetFindings config changesetId shared registry prNumber

/-- The version decision on the product itself. -/
def planProduct (config : ProductConfig) (existing : Option (ProductRecord platform)) (canonicalHash : Sha256) :
    PyResult VersionDecision :=
  let changed := existing.all fun item => item.canonicalHash ≠ some canonicalHash
  let base := match config.baseVersion with
    | some version => some version.val
    | none => existing.map fun item => item.version.val
  planVersion (existing.map fun item => item.version.val) changed base (some config.version.val)

/-- All findings that block a run. -/
def hardErrors (input : ProcessInput) (product : ProductRecord platform) (version : VersionDecision)
    (built : List (BuiltTable platform)) (registry : Registry platform) : List QualityFinding :=
  hardFindings (duplicateReports input.config.operation product (built.map Prod.fst) registry)
      (version :: built.map fun b => b.2.2) ++
    sharedTableFindings input.config built registry input.prNumber ++ input.parts.findings ++
    if input.warningsAsErrors = true ∧ input.parts.warnings ≠ [] then
      [⟨"WARNINGS_AS_ERRORS", "Quality warnings are configured as hard failures".toList, none⟩]
    else []

/-! ### Mappings -/

/-- The mapping of a product that a run replaces. -/
def existingMapping (registry : Registry platform) (productId : ProductId) (tableId : TableId) (usage : Usage) :
    Option ProductTableRef :=
  (registry.allMappings.filter fun m => m.productId = productId ∧ m.tableId = tableId ∧ m.usage = usage).getLast?

/-- `_build_mappings` -/
def buildMappings (newIds : NewIds) (productId : ProductId) (built : List (BuiltTable platform))
    (drafts : List TableDraft) (registry : Registry platform) : List ProductTableRef :=
  (built.zip drafts).zipIdx.map fun (p, i) =>
    let existing := existingMapping registry productId p.1.1.tableId p.2.config.usage
    ⟨(existing.map ProductTableRef.linkId).getD (newIds.link i), productId, p.1.1.tableId, p.1.1.version,
      p.2.config.usage, p.2.config.required, none⟩

/-! ### The run -/

/-- The records of a run are written to a copy of the registry. -/
def writeRecords (registry : Registry platform) (product : ProductRecord platform)
    (tables : List (TableRecord platform)) (mappings : List ProductTableRef) : PyResult (Registry platform) := do
  let staged ← registry.load.writeProduct product
  let staged ← tables.foldlM Registry.writeTable staged
  staged.writeMappings product.productId mappings

/-- `process_product` on the registry. -/
def processProduct (lower : Text → Text) (newIds : NewIds) (input : ProcessInput)
    (registry : Registry platform) : PyResult (Registry platform) := do
  raiseIf (input.config.operation = .retire) (.valueError "RETIRE_NOT_SUPPORTED")
  let existing := registry.getProduct input.config.productId
  let drafts ← resolveTables lower newIds input.config input.dictionary registry
  let built ← buildTableRecords registry drafts
  let product ← ProductRecord.make input.config existing input.parts
  let version ← planProduct input.config existing input.parts.canonicalHash
  let errors := hardErrors input product version built registry
  raiseIf (errors ≠ []) (.valueError ("; ".intercalate (errors.map QualityFinding.code)))
  writeRecords registry product (built.map Prod.fst)
    (buildMappings newIds input.config.productId built drafts registry)

end Process

end ArdOssie
