import ArdOssie.Library.Results
import ArdOssie.Pipeline.Versions
import ArdOssie.Registry.Store

/-!
# Table drafts

A table of the dictionary is matched with the table that is registered at its locator, and its columns with the
columns of that table, by name or by alias.  A registered column that no dictionary column matches is retired.
-/

namespace ArdOssie

/-! ### The dictionary and the configuration -/

inductive SourceRole where
  | productHtml
  | semanticDocument
  | dictionaryExcel
  deriving DecidableEq

/-- Where a fact was found. -/
structure Evidence where
  sourceHash : Sha256
  role : SourceRole
  locator : List (Text × Json)
  excerpt : Option Text

/-- A column of the dictionary; its reader strips the name. -/
structure DictionaryColumn where
  ordinal : ℕ
  name : Text
  stripped : Text.strip name = name
  logicalName : Option Text
  dataType : Text
  nullable : Bool
  primaryKey : Bool
  foreignKey : Option Text
  description : Option Text
  formula : Option Text
  comment : Option Text
  evidence : Evidence

structure DictionaryTable where
  locator : Text
  description : Option Text
  columns : List DictionaryColumn

structure TableConfig where
  locator : Text
  tableId : Option Text
  version : Option Version
  baseVersion : Option Version
  usage : Usage
  required : Bool

/-- `TableConfig(locator=locator)` -/
def TableConfig.default (locator : Text) : TableConfig := ⟨locator, none, none, none, .source, true⟩

structure ProductConfig where
  operation : Operation
  productId : ProductId
  productKey : Text
  version : Version
  baseVersion : Option Version
  displayName : Text
  description : Option Text
  synonyms : List Text
  changesetId : Option Text
  tables : List TableConfig

/-- A column of a processed table. -/
structure ColumnIR where
  columnId : ColumnId
  ordinal : ℕ
  name : Text
  logicalName : Option Text
  dataType : Text
  nullable : Bool
  primaryKey : Bool
  unique : Bool
  description : Option Text
  foreignKey : Option Text
  formula : Option Text
  comment : Option Text
  synonyms : List Text
  evidence : List Evidence

structure TableDraft where
  config : TableConfig
  tableId : Text
  locator : TableLocator
  description : Option Text
  columns : List ColumnIR
  columnRecords : List ColumnRecord

/-- The identifiers that `new_id` gives, by the place that asks for one. -/
structure NewIds where
  table : ℕ → TableId
  column : ℕ → ℕ → ColumnId
  link : ℕ → LinkId

/-! ### Locators -/

section Locators

variable (lower : Text → Text)

/-- `TableLocator.normalize_part` -/
def normalizePart (value : Text) : PyResult LocatorPart :=
  if h : lower value.strip ≠ [] ∧ '|' ∉ lower value.strip then .ok ⟨lower value.strip, h.1, h.2⟩
  else .error (.validationError ["table locator parts must be non-empty and cannot contain '|'"])

/-- `_parse_locator` -/
def parseLocator (value : Text) : PyResult TableLocator :=
  match value.splitOn '|' with
  | [sourceSystemId, catalog, schemaName, tableName] => do
    let sourceSystemId ← normalizePart lower sourceSystemId
    let catalog ← normalizePart lower catalog
    let schemaName ← normalizePart lower schemaName
    let tableName ← normalizePart lower tableName
    pure ⟨sourceSystemId, catalog, schemaName, tableName⟩
  | _ => .error (.valueError "table locator must be platform|catalog|schema|table")

end Locators

/-! ### Columns -/

section Columns

variable (platform : Platform)

/-- `ColumnRecord(...)` -/
def ColumnRecord.make (columnId : ColumnId) (name : Text) (aliases : List Text) (status : EntityStatus) :
    PyResult ColumnRecord :=
  if h : name.strip ≠ [] then .ok ⟨columnId, name.strip, aliases, status, Text.strip_strip name, h⟩
  else .error (.validationError ["column name must be non-empty"])

/-- A name is, up to case, the name or an alias of a column. -/
def ColumnRecord.Answers (c : ColumnRecord) (name : Text) : Prop :=
  platform.casefold name = platform.casefold c.name ∨ platform.casefold name ∈ c.aliases.map platform.casefold

instance (c : ColumnRecord) (name : Text) : Decidable (c.Answers platform name) := inferInstanceAs (Decidable (_ ∨ _))

/-- The registered column that a dictionary column matches: the first one that answers to its name. -/
def matchedColumn (existing : List ColumnRecord) (name : Text) : Option ColumnRecord :=
  existing.find? fun c => c.Answers platform name

/-- `ColumnIR(...)` in `_resolve_tables` -/
def DictionaryColumn.ir (column : DictionaryColumn) (columnId : ColumnId) : ColumnIR where
  columnId := columnId
  ordinal := column.ordinal
  name := column.name
  logicalName := column.logicalName
  dataType := column.dataType
  nullable := column.nullable
  primaryKey := column.primaryKey
  unique := false
  description := column.description
  foreignKey := column.foreignKey
  formula := column.formula
  comment := column.comment
  synonyms := []
  evidence := [column.evidence]

/-- One round of the loop over the columns of a dictionary table. -/
def resolveColumn (existing : List ColumnRecord) (newId : ColumnId) (column : DictionaryColumn) :
    PyResult (ColumnRecord × ColumnIR) :=
  match matchedColumn platform existing column.name with
  | some matched => do
    raiseIf (matched.status = .retired)
      (.valueError ("RETIRED_COLUMN_REUSE: " ++ String.ofList matched.columnId.text))
    let record ← ColumnRecord.make matched.columnId column.name matched.aliases .active
    pure (record, column.ir matched.columnId)
  | none => do
    let record ← ColumnRecord.make newId column.name [] .active
    pure (record, column.ir newId)

/-- `previous.model_copy(update={"status": EntityStatus.RETIRED})` -/
def ColumnRecord.retire (c : ColumnRecord) : ColumnRecord := { c with status := .retired }

/-- The columns of a dictionary table, and the records of them and of the retired columns. -/
def resolveColumns (existing : List ColumnRecord) (newId : ℕ → ColumnId) (columns : List DictionaryColumn) :
    PyResult (List ColumnRecord × List ColumnIR) := do
  let resolved ← columns.zipIdx.mapM fun (column, i) => resolveColumn platform existing (newId i) column
  let matchedIds := resolved.map fun p => p.1.columnId
  let retired := (existing.filter fun previous => previous.columnId ∉ matchedIds).map ColumnRecord.retire
  pure (resolved.map Prod.fst ++ retired, resolved.map Prod.snd)

end Columns

/-! ### Tables -/

section Tables

variable {platform : Platform} (lower : Text → Text) (newIds : NewIds)

/-- A text that is not empty: a value that counts as true. -/
def truthy : Option Text → Option Text
  | some [] => none
  | value => value

/-- The configuration of the table at a locator: `config_by_locator.get(locator, TableConfig(locator=locator))`; of two
configurations with one locator the later one. -/
def tableConfigOf (configs : List TableConfig) (locator : Text) : TableConfig :=
  ((configs.filter fun c => lower c.locator = locator).getLast?).getD (.default locator)

/-- The table that is registered at a locator. -/
def registeredAt (registry : Registry platform) (locator : TableLocator) : Option (TableRecord platform) :=
  registry.allTables.find? fun item => item.locator.key = locator.key

/-- A configured identifier must be the registered one. -/
def checkTableId (existing : Option (TableRecord platform)) (configured : Option Text) (locator : TableLocator) :
    PyResult Unit :=
  match existing, configured with
  | some item, some tableId =>
    raiseIf (item.tableId.text ≠ tableId) (Registry.identityConflict "TABLE_LOCATOR_CONFLICT"
      (locator.key ++ " -> ".toList ++ item.tableId.text))
  | _, _ => .ok ()

/-- One round of the loop over the tables of the dictionary. -/
def resolveTable (configs : List TableConfig) (registry : Registry platform) (i : ℕ) (table : DictionaryTable) :
    PyResult TableDraft := do
  let config := tableConfigOf lower configs table.locator
  let locator ← parseLocator lower table.locator
  let existing := registeredAt registry locator
  checkTableId existing (truthy config.tableId) locator
  let tableId := ((truthy config.tableId).or (existing.map fun item => item.tableId.text)).getD (newIds.table i).text
  let existingColumns := (existing.map fun item => item.columns).getD []
  let resolved ← resolveColumns platform existingColumns (newIds.column i) table.columns
  pure ⟨config, tableId, locator, table.description, resolved.2, resolved.1⟩

theorem registeredAt_eq_some {registry : Registry platform} {locator : TableLocator} {t : TableRecord platform}
    (h : registeredAt registry locator = some t) : t ∈ registry.tables.items ∧ t.locator = locator :=
  ⟨mem_sortBy.1 (List.mem_of_find?_eq_some h), TableLocator.key_injective (of_decide_eq_true (List.find?_some h :))⟩

/-- A draft is made of its configuration, its locator, the identifier and the columns. -/
theorem resolveTable_eq_ok {lower : Text → Text} {newIds : NewIds} {configs : List TableConfig}
    {registry : Registry platform} {i : ℕ} {table : DictionaryTable} {draft : TableDraft} :
    resolveTable lower newIds configs registry i table = .ok draft ↔
      ∃ locator resolved, parseLocator lower table.locator = .ok locator ∧
        checkTableId (registeredAt registry locator) (truthy (tableConfigOf lower configs table.locator).tableId)
          locator = .ok () ∧
        resolveColumns platform (((registeredAt registry locator).map fun item => item.columns).getD [])
          (newIds.column i) table.columns = .ok resolved ∧
        draft = ⟨tableConfigOf lower configs table.locator,
          ((truthy (tableConfigOf lower configs table.locator).tableId).or
            ((registeredAt registry locator).map fun item => item.tableId.text)).getD (newIds.table i).text,
          locator, table.description, resolved.2, resolved.1⟩ := by
  unfold resolveTable
  simp only [bind_eq_ok, pure_eq_ok]
  constructor
  · rintro ⟨locator, hlocator, _, hcheck, resolved, hresolved, rfl⟩
    exact ⟨locator, resolved, hlocator, hcheck, hresolved, rfl⟩
  · rintro ⟨locator, resolved, hlocator, hcheck, hresolved, rfl⟩
    exact ⟨locator, hlocator, (), hcheck, resolved, hresolved, rfl⟩

/-- `_resolve_tables` -/
def resolveTables (config : ProductConfig) (dictionary : List DictionaryTable) (registry : Registry platform) :
    PyResult (List TableDraft) := do
  let locators := config.tables.map fun item => lower item.locator
  raiseIf (¬ locators.Nodup) (.valueError "DUPLICATE_TABLE_CONFIG")
  let unknown := sortBy id (locators.filter fun locator => locator ∉ dictionary.map DictionaryTable.locator)
  match unknown with
  | locator :: _ => .error (.valueError ("CONFIG_TABLE_NOT_IN_DICTIONARY: " ++ String.ofList locator))
  | [] => dictionary.zipIdx.mapM fun (table, i) => resolveTable lower newIds config.tables registry i table

end Tables

end ArdOssie
