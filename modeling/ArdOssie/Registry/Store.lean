import ArdOssie.Library.KeyedList
import ArdOssie.Library.Results
import ArdOssie.Registry.ChangeSets

/-!
# The registry

The registry keeps the records of products, tables, mappings and changesets, and two lookup indexes that are written
anew after every write of a product or of a table.
-/

namespace ArdOssie

section Store

variable (platform : Platform)

abbrev ProductRecords := KeyedList fun p : ProductRecord platform => p.productId

abbrev TableRecords := KeyedList fun t : TableRecord platform => t.tableId

abbrev MappingRecords := KeyedList fun m : ProductId × List ProductTableRef => m.1

abbrev ChangeSetRecords := KeyedList ChangeSetRecord.changesetId

/-- A lookup index: a JSON object from keys to identifiers. -/
abbrev Index (κ ι : Type) := KeyedList fun e : κ × ι => e.1

/-- The registry directory: the records and the index files; an index file that does not exist is an empty index. -/
structure Registry where
  products : ProductRecords platform
  tables : TableRecords platform
  mappings : MappingRecords
  changesets : ChangeSetRecords
  productKeys : Index ProductKey ProductId
  tableLocators : Index Text TableId

end Store

variable {platform : Platform}

/-- The object from product keys to products. -/
def productKeyIndex (products : List (ProductRecord platform)) : Index ProductKey ProductId :=
  KeyedList.ofList _ ((sortBy (fun p => p.productKey) products).map fun p => (p.productKey, p.productId))

/-- The object from locator keys to tables. -/
def tableLocatorIndex (tables : List (TableRecord platform)) : Index Text TableId :=
  KeyedList.ofList _ ((sortBy (fun t => t.locator.key) tables).map fun t => (t.locator.key, t.tableId))

namespace Registry

/-- A new registry. -/
def new (platform : Platform) : Registry platform :=
  ⟨.empty _, .empty _, .empty _, .empty _, .empty _, .empty _⟩

/-- `Registry.load`: the record files are read in the order of their names. -/
def load (r : Registry platform) : Registry platform :=
  { r with
    products := r.products.reorder (sortBy (fun p => p.productId) r.products.items) (sortBy_perm _ _)
    tables := r.tables.reorder (sortBy (fun t => t.tableId) r.tables.items) (sortBy_perm _ _)
    mappings := r.mappings.reorder (sortBy (fun m => m.1) r.mappings.items) (sortBy_perm _ _)
    changesets := r.changesets.reorder (sortBy (fun c => c.changesetId) r.changesets.items) (sortBy_perm _ _) }

def getProduct (r : Registry platform) (productId : ProductId) : Option (ProductRecord platform) :=
  r.products.get productId

def getTable (r : Registry platform) (tableId : TableId) : Option (TableRecord platform) := r.tables.get tableId

def getChangeset (r : Registry platform) (changesetId : ChangeSetId) : Option ChangeSetRecord :=
  r.changesets.get changesetId

/-- `Registry.products` -/
def allProducts (r : Registry platform) : List (ProductRecord platform) :=
  sortBy (fun p => p.productId) r.products.items

/-- `Registry.tables` -/
def allTables (r : Registry platform) : List (TableRecord platform) := sortBy (fun t => t.tableId) r.tables.items

/-- `Registry.mappings` -/
def allMappings (r : Registry platform) : List ProductTableRef :=
  (sortBy (fun m => m.1) r.mappings.items).flatMap Prod.snd

/-- `IdentityConflict` -/
def identityConflict (code : String) (detail : Text) : PyError :=
  .valueError (code ++ ": " ++ String.ofList detail)

/-- `Registry._write_indexes` -/
def writeIndexes (r : Registry platform) : Registry platform :=
  { r with
    productKeys := productKeyIndex r.products.items
    tableLocators := tableLocatorIndex r.tables.items }

/-- A record of a retired identifier may not become active again. -/
def retiredReuse (previous : Option EntityStatus) (status : EntityStatus) : Prop :=
  previous = some .retired ∧ status = .active

instance (previous : Option EntityStatus) (status : EntityStatus) : Decidable (retiredReuse previous status) :=
  inferInstanceAs (Decidable (_ ∧ _))

/-- The product whose key or alias the key of a record repeats. -/
def conflictingProduct (r : Registry platform) (record : ProductRecord platform) : Option (ProductRecord platform) :=
  r.products.items.find? fun item =>
    item.productId ≠ record.productId ∧ (item.productKey = record.productKey ∨ record.productKey ∈ item.aliases)

/-- `Registry.write_product` -/
def writeProduct (r : Registry platform) (record : ProductRecord platform) : PyResult (Registry platform) := do
  raiseIf (retiredReuse ((r.getProduct record.productId).map fun p => p.status) record.status)
    (identityConflict "RETIRED_ID_REUSE" record.productId.text)
  match r.conflictingProduct record with
  | some conflicting =>
    .error (identityConflict "PRODUCT_KEY_CONFLICT"
      (record.productKey.text ++ " -> ".toList ++ conflicting.productId.text))
  | none => pure { r with products := r.products.put record }.writeIndexes

/-- The other table at the locator of a record. -/
def conflictingTable (r : Registry platform) (record : TableRecord platform) : Option (TableRecord platform) :=
  r.tables.items.find? fun item => item.tableId ≠ record.tableId ∧ item.locator.key = record.locator.key

/-- `Registry.write_table` -/
def writeTable (r : Registry platform) (record : TableRecord platform) : PyResult (Registry platform) := do
  raiseIf (retiredReuse ((r.getTable record.tableId).map fun t => t.status) record.status)
    (identityConflict "RETIRED_ID_REUSE" record.tableId.text)
  match r.conflictingTable record with
  | some conflicting =>
    .error (identityConflict "TABLE_LOCATOR_CONFLICT"
      (record.locator.key ++ " -> ".toList ++ conflicting.tableId.text))
  | none => pure { r with tables := r.tables.put record }.writeIndexes

/-- The checks of one mapping of a product. -/
def checkMapping (r : Registry platform) (productId : ProductId) (mapping : ProductTableRef) : PyResult Unit := do
  raiseIf (mapping.productId ≠ productId)
    (identityConflict "MAPPING_PRODUCT_MISMATCH" (mapping.productId.text ++ " != ".toList ++ productId.text))
  match r.getTable mapping.tableId with
  | none => .error (identityConflict "MAPPING_TABLE_NOT_FOUND" mapping.tableId.text)
  | some table =>
    raiseIf (mapping.tableVersion ≠ table.version)
      (identityConflict "MAPPING_TABLE_VERSION_MISMATCH" mapping.tableId.text)

/-- `Registry.write_mappings` -/
def writeMappings (r : Registry platform) (productId : ProductId) (mappings : List ProductTableRef) :
    PyResult (Registry platform) := do
  raiseIf (r.getProduct productId = none) (identityConflict "MAPPING_PRODUCT_NOT_FOUND" productId.text)
  let records := sortBy (fun m => m.linkId) mappings
  forM records (r.checkMapping productId)
  pure { r with mappings := r.mappings.put (productId, records) }

/-- `Registry.write_changeset` -/
def writeChangeset (r : Registry platform) (record : ChangeSetRecord) : Registry platform :=
  { r with changesets := r.changesets.put record }

@[simp] theorem getProduct_load (r : Registry platform) (productId : ProductId) :
    r.load.getProduct productId = r.getProduct productId :=
  KeyedList.get_reorder (sortBy_perm _ _) _

@[simp] theorem getTable_load (r : Registry platform) (tableId : TableId) :
    r.load.getTable tableId = r.getTable tableId :=
  KeyedList.get_reorder (sortBy_perm _ _) _

/-! ### What a write does -/

theorem writeProduct_eq_ok {r r' : Registry platform} {record : ProductRecord platform} :
    r.writeProduct record = .ok r' ↔
      ¬ retiredReuse ((r.getProduct record.productId).map fun p => p.status) record.status ∧
        (∀ item ∈ r.products.items, item.productId ≠ record.productId → record.productKey ∉ item.names) ∧
          r' = { r with products := r.products.put record }.writeIndexes := by
  have hfree : r.conflictingProduct record = none ↔
      ∀ item ∈ r.products.items, item.productId ≠ record.productId → record.productKey ∉ item.names := by
    simp only [conflictingProduct, List.find?_eq_none, ProductRecord.names, List.mem_cons, decide_eq_true_eq,
      not_and, eq_comm (a := record.productKey)]
  unfold writeProduct
  rw [raiseIf_bind_eq_ok]
  refine and_congr_right fun _ => ?_
  cases hconflict : r.conflictingProduct record with
  | none =>
    simp only [pure_eq_ok]
    exact ⟨fun h => ⟨hfree.1 hconflict, h.symm⟩, fun h => h.2.symm⟩
  | some item =>
    have hne := mt hfree.2 (by rw [hconflict]; simp)
    exact ⟨fun h => (nomatch h), fun h => absurd h.1 hne⟩

theorem writeTable_eq_ok {r r' : Registry platform} {record : TableRecord platform} :
    r.writeTable record = .ok r' ↔
      ¬ retiredReuse ((r.getTable record.tableId).map fun t => t.status) record.status ∧
        (∀ item ∈ r.tables.items, item.tableId ≠ record.tableId → item.locator.key ≠ record.locator.key) ∧
          r' = { r with tables := r.tables.put record }.writeIndexes := by
  have hfree : r.conflictingTable record = none ↔
      ∀ item ∈ r.tables.items, item.tableId ≠ record.tableId → item.locator.key ≠ record.locator.key := by
    simp only [conflictingTable, List.find?_eq_none, decide_eq_true_eq, not_and]
  unfold writeTable
  rw [raiseIf_bind_eq_ok]
  refine and_congr_right fun _ => ?_
  cases hconflict : r.conflictingTable record with
  | none =>
    simp only [pure_eq_ok]
    exact ⟨fun h => ⟨hfree.1 hconflict, h.symm⟩, fun h => h.2.symm⟩
  | some item =>
    have hne := mt hfree.2 (by rw [hconflict]; simp)
    exact ⟨fun h => (nomatch h), fun h => absurd h.1 hne⟩

theorem checkMapping_eq_ok {r : Registry platform} {productId : ProductId} {mapping : ProductTableRef} :
    r.checkMapping productId mapping = .ok () ↔ mapping.productId = productId ∧
      ∃ table, r.getTable mapping.tableId = some table ∧ mapping.tableVersion = table.version := by
  unfold checkMapping
  rw [raiseIf_bind_eq_ok, not_not]
  refine and_congr_right fun _ => ?_
  cases htable : r.getTable mapping.tableId with
  | none => simp
  | some table => simp [raiseIf_eq_ok]

theorem writeMappings_eq_ok {r r' : Registry platform} {productId : ProductId} {mappings : List ProductTableRef} :
    r.writeMappings productId mappings = .ok r' ↔ r.getProduct productId ≠ none ∧
      (∀ mapping ∈ mappings, mapping.productId = productId ∧
        ∃ table, r.getTable mapping.tableId = some table ∧ mapping.tableVersion = table.version) ∧
      r' = { r with mappings := r.mappings.put (productId, sortBy (fun m => m.linkId) mappings) } := by
  unfold writeMappings
  rw [raiseIf_bind_eq_ok, bind_eq_ok]
  refine and_congr_right fun _ => ?_
  simp only [pure_eq_ok, forM_eq_ok, mem_sortBy, checkMapping_eq_ok]
  constructor
  · rintro ⟨_, hall, h⟩
    exact ⟨hall, h.symm⟩
  · rintro ⟨hall, h⟩
    exact ⟨(), hall, h.symm⟩

end Registry

end ArdOssie
