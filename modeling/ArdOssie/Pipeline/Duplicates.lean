import ArdOssie.Registry.ChangeSets

/-!
# Duplicate checks

Before a product is written, it and its tables are compared with all that is registered: an identifier, a key, a
locator or a content that belongs to another record blocks the run.
-/

namespace ArdOssie

inductive DuplicateDecision where
  | block
  | create
  | noChange
  | reuse
  | update
  | warn
  deriving DecidableEq

inductive EntityType where
  | product
  | table
  deriving DecidableEq

def EntityType.text : EntityType → String
  | .product => "product"
  | .table => "table"

structure DuplicateReport where
  entityType : EntityType
  decision : DuplicateDecision
  code : String
  targetId : Option Text
  candidateIds : List Text
  deriving DecidableEq

variable {platform : Platform}

/-- `_product_report` -/
def productReport (decision : DuplicateDecision) (code : String) (target : Option ProductId) : DuplicateReport :=
  ⟨.product, decision, code, target.map EntityId.text, []⟩

/-- `_table_report` -/
def tableReport (decision : DuplicateDecision) (code : String) (target : Option TableId) : DuplicateReport :=
  ⟨.table, decision, code, target.map EntityId.text, []⟩

/-- `classify_product` of a product that is to be updated. -/
def classifyUpdate (candidate : ProductRecord platform) : Option (ProductRecord platform) → DuplicateReport
  | none => productReport .block "PRODUCT_ID_NOT_FOUND" none
  | some item =>
    if item.status = .retired ∧ candidate.status = .active then
      productReport .block "RETIRED_ID_REUSE" (some item.productId)
    else if candidate.productKey ≠ item.productKey then
      productReport .block "PRODUCT_ID_KEY_CONFLICT" (some item.productId)
    else if candidate.canonicalHash = item.canonicalHash then
      productReport .noChange "PRODUCT_NO_CHANGE" (some item.productId)
    else productReport .update "PRODUCT_UPDATE" (some item.productId)

/-- `classify_product` of a product whose identifier is new. -/
def classifyCreate (candidate : ProductRecord platform) (existing : List (ProductRecord platform))
    (semanticCandidateIds : List Text) : DuplicateReport :=
  match existing.find? fun item => item.productKey = candidate.productKey with
  | some item => productReport .block "PRODUCT_KEY_CONFLICT" (some item.productId)
  | none =>
    match existing.find? fun item => candidate.productKey ∈ item.aliases with
    | some item => productReport .block "PRODUCT_ALIAS_CONFLICT" (some item.productId)
    | none =>
      match existing.find? fun item => candidate.canonicalHash ≠ none ∧ candidate.canonicalHash = item.canonicalHash with
      | some item => productReport .block "PRODUCT_CONTENT_DUPLICATE" (some item.productId)
      | none =>
        if sortedSet semanticCandidateIds ≠ [] then
          { productReport .warn "POSSIBLE_DUPLICATE" none with candidateIds := sortedSet semanticCandidateIds }
        else productReport .create "PRODUCT_CREATE" none

/-- `classify_product` -/
def classifyProduct (candidate : ProductRecord platform) (existing : List (ProductRecord platform))
    (operation : Operation) (semanticCandidateIds : List Text) : DuplicateReport :=
  let idMatch := existing.find? fun item => item.productId = candidate.productId
  if operation ≠ .create then classifyUpdate candidate idMatch
  else
    match idMatch with
    | some item => productReport .block "PRODUCT_ID_CONFLICT" (some item.productId)
    | none => classifyCreate candidate existing semanticCandidateIds

/-- `classify_table` of a table whose identifier is registered. -/
def classifyRegistered (candidate item : TableRecord platform) : DuplicateReport :=
  if item.status = .retired ∧ candidate.status = .active then
    tableReport .block "RETIRED_ID_REUSE" (some item.tableId)
  else if item.locator.key ≠ candidate.locator.key then
    tableReport .block "TABLE_ID_LOCATOR_CONFLICT" (some item.tableId)
  else if item.canonicalHash = candidate.canonicalHash then
    tableReport .noChange "TABLE_NO_CHANGE" (some item.tableId)
  else tableReport .update "TABLE_UPDATE" (some item.tableId)

/-- The tables with the physical schema of a table. -/
def schemaMatches (candidate : TableRecord platform) (existing : List (TableRecord platform)) : List TableId :=
  sortBy id ((existing.filter fun item =>
    candidate.schemaHash ≠ none ∧ candidate.schemaHash = item.schemaHash).map TableRecord.tableId)

/-- `classify_table` -/
def classifyTable (candidate : TableRecord platform) (existing : List (TableRecord platform)) : DuplicateReport :=
  match existing.find? fun item => item.tableId = candidate.tableId with
  | some item => classifyRegistered candidate item
  | none =>
    match existing.find? fun item => item.locator.key = candidate.locator.key with
    | some item =>
      if item.status = .retired then tableReport .block "RETIRED_ID_REUSE" (some item.tableId)
      else tableReport .reuse "TABLE_LOCATOR_REUSE" (some item.tableId)
    | none =>
      match schemaMatches candidate existing with
      | [] => tableReport .create "TABLE_CREATE" none
      | matched => { tableReport .warn "POSSIBLE_CLONE" none with candidateIds := matched.map EntityId.text }

end ArdOssie
