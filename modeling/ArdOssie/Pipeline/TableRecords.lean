import ArdOssie.Pipeline.Drafts

/-!
# Table records

A draft becomes the new record of its table.  The table counts as changed when the canonical hash of its locator,
columns and description differs from the registered one.
-/

namespace ArdOssie

/-! ### JSON forms -/

def SourceRole.text : SourceRole → String
  | .productHtml => "product_html"
  | .semanticDocument => "semantic_document"
  | .dictionaryExcel => "dictionary_excel"

/-- `Evidence.model_dump(mode="json")` -/
def Evidence.json (e : Evidence) : Json :=
  .record [("source_hash", .str e.sourceHash.hexdigest), ("role", .lit e.role.text), ("locator", .obj e.locator),
    ("excerpt", .opt .str e.excerpt)]

/-- `ColumnIR.model_dump(mode="json")` -/
def ColumnIR.json (c : ColumnIR) : Json :=
  .record [("column_id", .str c.columnId.text), ("ordinal", .nat c.ordinal), ("name", .str c.name),
    ("logical_name", .opt .str c.logicalName), ("data_type", .str c.dataType), ("nullable", .bool c.nullable),
    ("primary_key", .bool c.primaryKey), ("unique", .bool c.unique), ("description", .opt .str c.description),
    ("foreign_key", .opt .str c.foreignKey), ("formula", .opt .str c.formula), ("comment", .opt .str c.comment),
    ("synonyms", .arr (c.synonyms.map .str)), ("evidence", .arr (c.evidence.map Evidence.json))]

/-- `TableLocator.model_dump(mode="json")` -/
def TableLocator.json (l : TableLocator) : Json :=
  .record [("source_system_id", .str l.sourceSystemId.text), ("catalog", .str l.catalog.text),
    ("schema_name", .str l.schemaName.text), ("table_name", .str l.tableName.text)]

/-- `SEMANTIC_ONLY_FIELDS` -/
def semanticOnlyFields : List Text :=
  ["description", "display_name", "examples", "logical_name", "synonyms"].map String.toList

/-- `schema_hash` -/
def schemaHash (platform : Platform) (value : Json) : Sha256 :=
  sha256 ((value.normalize platform (Json.volatileFields ++ semanticOnlyFields)).dumps platform)

namespace TableDraft

/-- The columns without their meaning. -/
def physicalJson (draft : TableDraft) : Json :=
  .arr (draft.columns.map fun item => .record [("ordinal", .nat item.ordinal), ("name", .str item.name),
    ("data_type", .str item.dataType), ("nullable", .bool item.nullable), ("primary_key", .bool item.primaryKey)])

/-- The content that the canonical hash of a table covers. -/
def contentJson (draft : TableDraft) : Json :=
  .record [("locator", draft.locator.json), ("columns", .arr (draft.columns.map ColumnIR.json)),
    ("description", .opt .str draft.description)]

def contentHash (platform : Platform) (draft : TableDraft) : Sha256 := ArdOssie.canonicalHash platform draft.contentJson

end TableDraft

/-! ### Records -/

structure TableIR where
  tableId : TableId
  tableVersion : Version
  datasetName : Text
  source : Text
  description : Option Text
  columns : List ColumnIR
  nonempty : columns ≠ []

section Build

variable {platform : Platform}

/-- A version that is out of its bounds fails the validation of the record. -/
def requireVersion (n : ℕ) : PyResult Version :=
  if h : 1 ≤ n ∧ n ≤ 999 then .ok ⟨n, h⟩ else .error (.validationError ["version"])

theorem requireVersion_eq_ok {n : ℕ} {v : Version} : requireVersion n = .ok v ↔ v.val = n := by
  unfold requireVersion
  split
  · rename_i h
    rw [Except.ok.injEq, Subtype.ext_iff, eq_comm]
  · rename_i h
    exact ⟨fun h => (nomatch h), fun hv => absurd (hv ▸ v.2) h⟩

/-- An identifier that does not match its pattern fails the validation of the record. -/
def requireTableId (t : Text) : PyResult TableId :=
  match EntityId.parse "tbl_" t with
  | some i => .ok i
  | none => .error (.validationError ["table_id"])

theorem requireTableId_eq_ok {t : Text} {i : TableId} : requireTableId t = .ok i ↔ i.text = t := by
  rw [← EntityId.parse_eq_some]
  unfold requireTableId
  cases EntityId.parse "tbl_" t <;> simp

/-- `TableRecord(...)` -/
def TableRecord.make (tableId : Text) (locator : TableLocator) (version : ℕ) (aliases : List Text)
    (columns : List ColumnRecord) (schemaHash canonicalHash : Sha256) : PyResult (TableRecord platform) := do
  let tableId ← requireTableId tableId
  let version ← requireVersion version
  if h : (columns.map ColumnRecord.columnId).Nodup ∧ (columns.map fun c => platform.casefold c.name).Nodup then
    pure ⟨tableId, locator, version, .active, aliases, columns, some schemaHash, some canonicalHash, h.1, h.2⟩
  else .error (.validationError ["column names and IDs must be unique within a table"])

/-- What a built record holds. -/
theorem TableRecord.make_eq_ok {tableId : Text} {locator : TableLocator} {version : ℕ} {aliases : List Text}
    {columns : List ColumnRecord} {schemaHash canonicalHash : Sha256} {record : TableRecord platform}
    (h : TableRecord.make tableId locator version aliases columns schemaHash canonicalHash = .ok record) :
    record.tableId.text = tableId ∧ record.locator = locator ∧ record.version.val = version ∧
      record.status = .active ∧ record.columns = columns ∧ record.canonicalHash = some canonicalHash := by
  unfold TableRecord.make at h
  obtain ⟨i, hi, h⟩ := bind_eq_ok.1 h
  obtain ⟨v, hv, h⟩ := bind_eq_ok.1 h
  split at h
  · cases pure_eq_ok.1 h
    exact ⟨requireTableId_eq_ok.1 hi, rfl, requireVersion_eq_ok.1 hv, rfl, rfl, rfl⟩
  · cases h

/-- A record is built from every identifier, every version and all columns that are distinct. -/
theorem TableRecord.make_of_valid (tableId : TableId) (locator : TableLocator) (version : Version)
    (aliases : List Text) {columns : List ColumnRecord} (hids : (columns.map ColumnRecord.columnId).Nodup)
    (hnames : (columns.map fun c => platform.casefold c.name).Nodup) (schemaHash canonicalHash : Sha256) :
    TableRecord.make tableId.text locator version.val aliases columns schemaHash canonicalHash =
      .ok ⟨tableId, locator, version, .active, aliases, columns, some schemaHash, some canonicalHash, hids, hnames⟩ := by
  unfold TableRecord.make
  rw [requireTableId_eq_ok.2 (rfl : tableId.text = tableId.text), requireVersion_eq_ok.2 (rfl : version.val = version.val)]
  exact dif_pos (And.intro hids hnames)

/-- `TableIR(...)` -/
def TableIR.make (tableId : TableId) (version : Version) (locator : TableLocator) (description : Option Text)
    (columns : List ColumnIR) : PyResult TableIR :=
  if h : columns ≠ [] then
    .ok ⟨tableId, version, locator.tableName.text,
      locator.catalog.text ++ '.' :: (locator.schemaName.text ++ '.' :: locator.tableName.text), description, columns, h⟩
  else .error (.validationError ["columns"])

/-- The table is new, or its content differs from the registered content. -/
def TableDraft.changed (draft : TableDraft) (existing : Option (TableRecord platform)) : Bool :=
  match existing with
  | none => true
  | some item => item.canonicalHash ≠ some (draft.contentHash platform)

/-- The version that the configuration asks for, or the next one. -/
def TableDraft.proposedVersion (draft : TableDraft) (existing : Option (TableRecord platform)) : ℕ :=
  match draft.config.version, existing with
  | some version, _ => version.val
  | none, none => 1
  | none, some item => item.version.val + if draft.changed existing then 1 else 0

/-- The base version of the configuration, or the registered one. -/
def TableDraft.baseVersion (draft : TableDraft) (existing : Option (TableRecord platform)) : Option ℕ :=
  match draft.config.baseVersion with
  | some version => some version.val
  | none => existing.map fun item => item.version.val

/-- The registered table with the identifier of a draft. -/
def TableDraft.registered (draft : TableDraft) (registry : Registry platform) : Option (TableRecord platform) :=
  (EntityId.parse "tbl_" draft.tableId).bind registry.getTable

/-- One round of `_build_table_records`. -/
def buildTableRecord (registry : Registry platform) (draft : TableDraft) :
    PyResult (TableRecord platform × TableIR × VersionDecision) := do
  let existing := draft.registered registry
  let decision ← planVersion (existing.map fun item => item.version.val) (draft.changed existing)
    (draft.baseVersion existing) (some (draft.proposedVersion existing))
  let record ← TableRecord.make draft.tableId draft.locator (draft.proposedVersion existing)
    ((existing.map fun item => item.aliases).getD []) draft.columnRecords (schemaHash platform draft.physicalJson)
    (draft.contentHash platform)
  let ir ← TableIR.make record.tableId record.version draft.locator draft.description draft.columns
  pure (record, ir, decision)

/-- What a built record, its intermediate form and its version decision hold. -/
theorem buildTableRecord_eq_ok {registry : Registry platform} {draft : TableDraft}
    {built : TableRecord platform × TableIR × VersionDecision} (h : buildTableRecord registry draft = .ok built) :
    built.2.2 = versionDecision ((draft.registered registry).map fun item => item.version.val)
        (draft.changed (draft.registered registry)) (draft.baseVersion (draft.registered registry))
        (some (draft.proposedVersion (draft.registered registry))) ∧
      built.1.tableId.text = draft.tableId ∧ built.1.locator = draft.locator ∧
      built.1.version.val = draft.proposedVersion (draft.registered registry) ∧ built.1.status = .active ∧
      built.1.columns = draft.columnRecords ∧ built.1.canonicalHash = some (draft.contentHash platform) ∧
      draft.columns ≠ [] := by
  unfold buildTableRecord at h
  obtain ⟨decision, hdecision, h⟩ := bind_eq_ok.1 h
  obtain ⟨record, hrecord, h⟩ := bind_eq_ok.1 h
  obtain ⟨ir, hir, h⟩ := bind_eq_ok.1 h
  cases pure_eq_ok.1 h
  obtain ⟨hid, hlocator, hversion, hstatus, hcolumns, hhash⟩ := TableRecord.make_eq_ok hrecord
  refine ⟨planVersion_eq_ok hdecision, hid, hlocator, hversion, hstatus, hcolumns, hhash, ?_⟩
  intro hnil
  unfold TableIR.make at hir
  rw [dif_neg (not_not.2 hnil)] at hir
  cases hir

/-- `_build_table_records` -/
def buildTableRecords (registry : Registry platform) (drafts : List TableDraft) :
    PyResult (List (TableRecord platform × TableIR × VersionDecision)) :=
  drafts.mapM (buildTableRecord registry)

end Build

end ArdOssie
