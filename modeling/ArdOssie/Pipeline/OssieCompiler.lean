import ArdOssie.JsonText
import ArdOssie.Library.Schemas
import ArdOssie.Pipeline.Metrics
import ArdOssie.Pipeline.Relationships
import ArdOssie.Pipeline.TableRecords

/-!
# The OSSIE compiler

The compiler turns a product into an OSSIE document and validates the document with the schema of OSSIE 0.1.1.  The
tables, the relationships and the metrics are in the order of their identifiers, the fields of a dataset in the order
of their ordinals; an optional text is left out when it is empty.
-/

namespace ArdOssie

namespace Ossie

structure TableIR extends ArdOssie.TableIR where
  synonyms : List Text
  uniqueKeys : List (List Text)

structure RelationshipIR extends ArdOssie.RelationshipIR where
  description : Option Text
  fromColumns_ne : fromColumns ≠ []
  toColumns_ne : toColumns ≠ []

/-- A metric; its dialect is always `ANSI_SQL`. -/
structure MetricIR extends ArdOssie.MetricIR where
  instructions : Option Text
  examples : List Text

/-- The fields of a product that the compiler reads. -/
structure ProductIR where
  productId : ProductId
  productKey : ProductKey
  version : Version
  description : Option Text
  synonyms : List Text
  instructions : Option Text
  examples : List Text
  tables : List TableIR
  relationships : List RelationshipIR
  metrics : List MetricIR
  tables_ne : tables ≠ []

/-! ### The schema -/

/-- What a JSON value is for a schema. -/
def view : Json → DocumentView Text Json
  | .str t => .text t
  | .bool b => .boolean b
  | .arr items => .array items
  | .obj fields => .object fields
  | _ => .other

def textChoice (values : List String) : Schema Text := .oneText (values.map String.toList)

/-- An object with the given properties; `additionalProperties` is false. -/
def closedObject (properties : List (String × Schema Text)) (required : List String) : Schema Text :=
  .object (properties.map fun p => (p.1.toList, p.2)) (required.map String.toList) false

def dialect : Schema Text := textChoice ["ANSI_SQL", "SNOWFLAKE", "MDX", "TABLEAU", "DATABRICKS", "MAQL"]

def vendor : Schema Text := textChoice ["COMMON", "SNOWFLAKE", "SALESFORCE", "DBT", "DATABRICKS", "GOODDATA"]

def aiContextObject : Schema Text :=
  .object ([("instructions", .text), ("synonyms", .array .text 0), ("examples", .array .text 0)].map fun p =>
    (p.1.toList, p.2)) [] true

def aiContextSchema : Schema Text := .oneOf [.text, aiContextObject]

def customExtension : Schema Text :=
  closedObject [("vendor_name", vendor), ("data", .text)] ["vendor_name", "data"]

def dialectExpression : Schema Text :=
  closedObject [("dialect", dialect), ("expression", .text)] ["dialect", "expression"]

def expressionSchema : Schema Text := closedObject [("dialects", .array dialectExpression 1)] ["dialects"]

def dimension : Schema Text := closedObject [("is_time", .boolean)] []

def fieldSchema : Schema Text :=
  closedObject [("name", .text), ("expression", expressionSchema), ("dimension", dimension), ("label", .text),
    ("description", .text), ("ai_context", aiContextSchema), ("custom_extensions", .array customExtension 0)]
    ["name", "expression"]

def datasetSchema : Schema Text :=
  closedObject [("name", .text), ("source", .text), ("primary_key", .array .text 0),
    ("unique_keys", .array (.array .text 0) 0), ("description", .text), ("ai_context", aiContextSchema),
    ("fields", .array fieldSchema 0), ("custom_extensions", .array customExtension 0)] ["name", "source"]

def relationshipSchema : Schema Text :=
  closedObject [("name", .text), ("from", .text), ("to", .text), ("from_columns", .array .text 1),
    ("to_columns", .array .text 1), ("ai_context", aiContextSchema), ("custom_extensions", .array customExtension 0)]
    ["name", "from", "to", "from_columns", "to_columns"]

def metricSchema : Schema Text :=
  closedObject [("name", .text), ("expression", expressionSchema), ("description", .text),
    ("ai_context", aiContextSchema), ("custom_extensions", .array customExtension 0)] ["name", "expression"]

def semanticModelSchema : Schema Text :=
  closedObject [("name", .text), ("description", .text), ("ai_context", aiContextSchema),
    ("datasets", .array datasetSchema 1), ("relationships", .array relationshipSchema 0),
    ("metrics", .array metricSchema 0), ("custom_extensions", .array customExtension 0)] ["name", "datasets"]

/-- `load_ossie_011_schema()` -/
def ossieSchema : Schema Text :=
  closedObject [("version", textChoice ["0.1.1"]), ("dialects", .array dialect 0), ("vendors", .array vendor 0),
    ("semantic_model", .array semanticModelSchema 0)] ["version", "semantic_model"]

/-! ### The compiler -/

/-- An entry of a dictionary that is set only when there is a value. -/
def entry (key : String) (value : Option Json) : List (String × Json) := value.toList.map fun v => (key, v)

/-- The value of an optional text that is not empty. -/
def given : Option Text → Option Json
  | none => none
  | some t => if t = [] then none else some (.str t)

def texts (items : List Text) : Json := .arr (items.map .str)

/-- The value of a list that is not empty. -/
def givenTexts (items : List Text) : Option Json := if items = [] then none else some (texts items)

/-- `_ai_context`, and nothing when it is empty. -/
def aiContext (synonyms : List Text) (instructions : Option Text) (examples : List Text) : Option Json :=
  let context := entry "synonyms" (givenTexts synonyms) ++ entry "instructions" (given instructions) ++
    entry "examples" (givenTexts examples)
  if context = [] then none else some (Json.record context)

section Compile

variable (platform : Platform)

/-- `_extension` -/
def extension (kind : String) (objectId : Text) (version : Option ℕ) (attributes : List (String × Json)) : Json :=
  Json.record [("vendor_name", .lit "COMMON"), ("data", .str (Json.dumps platform (Json.record
    ([("id", .str objectId), ("kind", .lit kind), ("namespace", .lit "ai_ready_data")] ++
      entry "version" (version.map Json.nat) ++ attributes))))]

/-- `{"dialects": [{"dialect": "ANSI_SQL", "expression": …}]}` -/
def expression (t : Text) : Json :=
  Json.record [("dialects", .arr [Json.record [("dialect", .lit "ANSI_SQL"), ("expression", .str t)]])]

/-- `_compile_field` -/
def compileField (column : ColumnIR) : Json :=
  Json.record ([("name", .str column.name), ("expression", expression column.name),
    ("custom_extensions", .arr [extension platform "column" column.columnId.text none
      [("data_type", .str column.dataType), ("nullable", .bool column.nullable)]])] ++
    entry "label" (given column.logicalName) ++ entry "description" (given column.description) ++
    entry "ai_context" (aiContext column.synonyms none []))

/-- The fields of a table in the order of their ordinals. -/
def TableIR.orderedColumns (table : TableIR) : List ColumnIR :=
  sortBy (fun c => toLex (c.ordinal, c.columnId)) table.columns

def TableIR.primaryKey (table : TableIR) : List Text := (table.columns.filter (·.primaryKey)).map (·.name)

/-- `_compile_dataset` -/
def compileDataset (table : TableIR) : Json :=
  Json.record ([("name", .str table.datasetName), ("source", .str table.source),
    ("fields", .arr (table.orderedColumns.map (compileField platform))),
    ("custom_extensions", .arr [extension platform "table" table.tableId.text (some table.tableVersion.val) []])] ++
    entry "primary_key" (givenTexts table.primaryKey) ++
    entry "unique_keys" (if table.uniqueKeys = [] then none else some (.arr (table.uniqueKeys.map texts))) ++
    entry "description" (given table.description) ++ entry "ai_context" (aiContext table.synonyms none []))

/-- `_compile_metric` -/
def compileMetric (metric : MetricIR) : Json :=
  Json.record ([("name", .str metric.name), ("expression", expression metric.expression),
    ("custom_extensions", .arr [extension platform "metric" metric.metricId.text none []])] ++
    entry "description" (given metric.description) ++
    entry "ai_context" (aiContext metric.synonyms metric.instructions metric.examples))

/-- The payload of a relationship between the datasets with the given names. -/
def relationshipPayload (relationship : RelationshipIR) (source target : Text) : Json :=
  Json.record ([("name", .str relationship.name), ("from", .str source), ("to", .str target),
    ("from_columns", texts relationship.fromColumns), ("to_columns", texts relationship.toColumns),
    ("custom_extensions", .arr [extension platform "relationship" relationship.relationshipId.text none []])] ++
    entry "ai_context" ((given relationship.description).map fun d => Json.record [("instructions", d)]))

/-- One round of the loop over the relationships. -/
def compileRelationship (tableNames : Dict Text Text) (relationship : RelationshipIR) : PyResult Json := do
  raiseIf (tableNames.lookup relationship.fromTableId = none ∨ tableNames.lookup relationship.toTableId = none)
    (.valueError ("OSSIE_UNRESOLVED_REFERENCE: " ++ String.ofList relationship.relationshipId.text))
  let source ← tableNames.getItem relationship.fromTableId
  let target ← tableNames.getItem relationship.toTableId
  return relationshipPayload platform relationship source target

def ProductIR.orderedTables (product : ProductIR) : List TableIR := sortBy (fun t => t.tableId) product.tables

def ProductIR.tableNames (product : ProductIR) : Dict Text Text :=
  Dict.ofList (product.orderedTables.map fun t => (t.tableId.text, t.datasetName))

/-- The semantic model with the compiled relationships. -/
def semanticModel (product : ProductIR) (relationships : List Json) : Json :=
  Json.record ([("name", .str product.productKey.text),
    ("datasets", .arr (product.orderedTables.map (compileDataset platform))), ("relationships", .arr relationships),
    ("metrics", .arr ((sortBy (fun m => m.metricId) product.metrics).map (compileMetric platform))),
    ("custom_extensions",
      .arr [extension platform "product" product.productId.text (some product.version.val) []])] ++
    entry "description" (given product.description) ++
    entry "ai_context" (aiContext product.synonyms product.instructions product.examples))

def document (model : Json) : Json :=
  Json.record [("version", .lit "0.1.1"), ("dialects", .arr [.lit "ANSI_SQL"]), ("vendors", .arr [.lit "COMMON"]),
    ("semantic_model", .arr [model])]

/-- `compile_ossie` -/
def compileOssie (product : ProductIR) : PyResult Json := do
  let relationships ← (sortBy (fun r => r.relationshipId) product.relationships).mapM
    (compileRelationship platform product.tableNames)
  let compiled := document (semanticModel platform product relationships)
  raiseIf (ossieSchema.accepts view compiled = false) (.validationError [])
  return compiled

end Compile

/-! ### The schema accepts what is compiled -/

section Valid

variable {platform : Platform}

private abbrev Valid (schema : Schema Text) (v : Json) : Prop := schema.accepts view v = true

private theorem valid_str (t : Text) : Valid .text (.str t) := Schema.accepts_text rfl

private theorem valid_texts {items : List Text} {n : ℕ} (h : n ≤ items.length) :
    Valid (.array .text n) (texts items) := by
  refine (Schema.accepts_array rfl).2 ⟨by simpa using h, ?_⟩
  intro v hv
  obtain ⟨t, -, rfl⟩ := List.mem_map.1 hv
  exact valid_str t

/-- The rule for an array whose items are made of the elements of a list. -/
private theorem valid_map {α : Type} {f : α → Json} {schema : Schema Text} {l : List α} {n : ℕ} (hn : n ≤ l.length)
    (h : ∀ a ∈ l, Valid schema (f a)) : Valid (.array schema n) (.arr (l.map f)) := by
  refine (Schema.accepts_array rfl).2 ⟨by simpa using hn, ?_⟩
  intro v hv
  obtain ⟨a, ha, rfl⟩ := List.mem_map.1 hv
  exact h a ha

private theorem valid_singleton {schema : Schema Text} {v : Json} (h : Valid schema v) {n : ℕ} (hn : n ≤ 1) :
    Valid (.array schema n) (.arr [v]) :=
  (Schema.accepts_array rfl).2 ⟨by simpa using hn, fun w hw => List.mem_singleton.1 hw ▸ h⟩

/-- Each entry has the schema of its property, if it has one. -/
private def EntriesValid (properties : List (String × Schema Text)) (additional : Bool)
    (fields : List (String × Json)) : Prop :=
  ∀ f ∈ fields, ((properties.lookup f.1).elim (additional = true) fun s => Valid s f.2)

private theorem valid_record {properties : List (String × Schema Text)} {required : List String} {additional : Bool}
    {fields : List (String × Json)} (hrequired : ∀ name ∈ required, name ∈ fields.map Prod.fst)
    (hfields : EntriesValid properties additional fields) :
    Valid (.object (properties.map fun p => (p.1.toList, p.2)) (required.map String.toList) additional)
      (Json.record fields) := by
  refine (Schema.accepts_object rfl).2 ⟨?_, ?_⟩
  · intro name hname
    obtain ⟨key, hkey, rfl⟩ := List.mem_map.1 hname
    obtain ⟨f, hf, rfl⟩ := List.mem_map.1 (hrequired key hkey)
    rw [List.map_map]
    exact List.mem_map.2 ⟨f, hf, rfl⟩
  · intro field hfield
    obtain ⟨f, hf, rfl⟩ := List.mem_map.1 hfield
    have hvalid := hfields f hf
    dsimp only
    rw [lookup_map_of_injective fun _ _ h => String.toList_inj.1 h]
    cases h : properties.lookup f.1 with
    | none => simpa [h] using hvalid
    | some s => simpa [h] using hvalid

@[simp] private theorem entriesValid_nil {properties : List (String × Schema Text)} {additional : Bool} :
    EntriesValid properties additional [] := by simp [EntriesValid]

@[simp] private theorem entriesValid_cons {properties : List (String × Schema Text)} {additional : Bool} {key : String}
    {v : Json} {fields : List (String × Json)} :
    EntriesValid properties additional ((key, v) :: fields) ↔
      ((properties.lookup key).elim (additional = true) fun s => Valid s v) ∧
        EntriesValid properties additional fields := by
  simp [EntriesValid]

@[simp] private theorem entriesValid_append {properties : List (String × Schema Text)} {additional : Bool}
    {fields fields' : List (String × Json)} :
    EntriesValid properties additional (fields ++ fields') ↔
      EntriesValid properties additional fields ∧ EntriesValid properties additional fields' := by
  simp [EntriesValid, or_imp, forall_and]

private theorem entriesValid_entry {properties : List (String × Schema Text)} {additional : Bool} {key : String}
    {value : Option Json} {s : Schema Text} (hkey : properties.lookup key = some s) (h : ∀ v ∈ value, Valid s v) :
    EntriesValid properties additional (entry key value) := by
  intro f hf
  obtain ⟨v, hv, rfl⟩ := List.mem_map.1 hf
  rw [hkey]
  exact h v (Option.mem_toList.1 hv)

private theorem valid_given {t : Option Text} : ∀ v ∈ given t, Valid .text v := by
  intro v hv
  unfold given at hv
  split at hv
  · cases hv
  · split at hv
    · cases hv
    · cases hv
      exact valid_str _

private theorem valid_givenTexts {items : List Text} : ∀ v ∈ givenTexts items, Valid (.array .text 0) v := by
  intro v hv
  unfold givenTexts at hv
  split at hv
  · cases hv
  · cases hv
    exact valid_texts (Nat.zero_le _)

private theorem valid_context {fields : List (String × Json)}
    (h : EntriesValid [("instructions", .text), ("synonyms", .array .text 0), ("examples", .array .text 0)] true
      fields) :
    Valid aiContextSchema (Json.record fields) := by
  have hrequired : ∀ name ∈ ([] : List String), name ∈ fields.map Prod.fst := List.forall_mem_nil _
  have hobject : Valid aiContextObject (Json.record fields) := valid_record hrequired h
  exact Schema.accepts_oneOf_text (by simp [Json.record, view]) hobject

private theorem valid_aiContext {synonyms examples : List Text} {instructions : Option Text} :
    ∀ v ∈ aiContext synonyms instructions examples, Valid aiContextSchema v := by
  intro v hv
  unfold aiContext at hv
  dsimp only at hv
  split at hv
  · cases hv
  · cases hv
    refine valid_context ?_
    simp only [entriesValid_append]
    exact ⟨⟨entriesValid_entry rfl valid_givenTexts, entriesValid_entry rfl valid_given⟩,
      entriesValid_entry rfl valid_givenTexts⟩

private theorem valid_lit {values : List String} {s : String} (h : s ∈ values) : Valid (textChoice values) (.lit s) :=
  (Schema.accepts_oneText rfl).2 (List.mem_map.2 ⟨s, h, rfl⟩)

private theorem valid_extension (kind : String) (objectId : Text) (version : Option ℕ)
    (attributes : List (String × Json)) :
    Valid customExtension (extension platform kind objectId version attributes) := by
  refine valid_record (by simp) ?_
  simp only [entriesValid_cons, entriesValid_nil, and_true]
  exact ⟨valid_lit (by simp), valid_str _⟩

private theorem valid_extensions (kind : String) (objectId : Text) (version : Option ℕ)
    (attributes : List (String × Json)) :
    Valid (.array customExtension 0) (.arr [extension platform kind objectId version attributes]) :=
  valid_singleton (valid_extension kind objectId version attributes) (Nat.zero_le _)

private theorem valid_expression (t : Text) : Valid expressionSchema (expression t) := by
  have hdialect : Valid dialectExpression (Json.record [("dialect", .lit "ANSI_SQL"), ("expression", .str t)]) := by
    refine valid_record (by simp) ?_
    simp only [entriesValid_cons, entriesValid_nil, and_true]
    exact ⟨valid_lit (by simp), valid_str t⟩
  refine valid_record (by simp) ?_
  simp only [entriesValid_cons, entriesValid_nil, and_true]
  exact valid_singleton hdialect le_rfl

private theorem valid_field (column : ColumnIR) : Valid fieldSchema (compileField platform column) := by
  refine valid_record (by simp) ?_
  simp only [entriesValid_cons, entriesValid_nil, entriesValid_append, and_true]
  exact ⟨⟨⟨⟨valid_str _, valid_expression _, valid_extensions ..⟩, entriesValid_entry rfl valid_given⟩,
    entriesValid_entry rfl valid_given⟩, entriesValid_entry rfl valid_aiContext⟩

private theorem valid_uniqueKeys {keys : List (List Text)} :
    ∀ v ∈ (if keys = [] then none else some (Json.arr (keys.map texts))), Valid (.array (.array .text 0) 0) v := by
  intro v hv
  split at hv
  · cases hv
  · cases hv
    exact valid_map (Nat.zero_le _) fun key _ => valid_texts (Nat.zero_le _)

private theorem valid_dataset (table : TableIR) : Valid datasetSchema (compileDataset platform table) := by
  refine valid_record (by simp) ?_
  simp only [entriesValid_cons, entriesValid_nil, entriesValid_append, and_true]
  exact ⟨⟨⟨⟨⟨valid_str _, valid_str _, valid_map (Nat.zero_le _) fun c _ => valid_field c, valid_extensions ..⟩,
    entriesValid_entry rfl valid_givenTexts⟩, entriesValid_entry rfl valid_uniqueKeys⟩,
    entriesValid_entry rfl valid_given⟩, entriesValid_entry rfl valid_aiContext⟩

private theorem valid_metric (metric : MetricIR) : Valid metricSchema (compileMetric platform metric) := by
  refine valid_record (by simp) ?_
  simp only [entriesValid_cons, entriesValid_nil, entriesValid_append, and_true]
  exact ⟨⟨⟨valid_str _, valid_expression _, valid_extensions ..⟩, entriesValid_entry rfl valid_given⟩,
    entriesValid_entry rfl valid_aiContext⟩

private theorem valid_relationship (relationship : RelationshipIR) (source target : Text) :
    Valid relationshipSchema (relationshipPayload platform relationship source target) := by
  refine valid_record (by simp) ?_
  simp only [entriesValid_cons, entriesValid_nil, entriesValid_append, and_true]
  refine ⟨⟨valid_str _, valid_str _, valid_str _, valid_texts (List.length_pos_iff.2 relationship.fromColumns_ne),
    valid_texts (List.length_pos_iff.2 relationship.toColumns_ne), valid_extensions ..⟩, entriesValid_entry rfl ?_⟩
  intro v hv
  obtain ⟨d, hd, rfl⟩ := Option.mem_map.1 hv
  refine valid_context ?_
  simp only [entriesValid_cons, entriesValid_nil, and_true]
  exact valid_given d hd

private theorem valid_document {product : ProductIR} {relationships : List Json}
    (h : ∀ r ∈ relationships, Valid relationshipSchema r) :
    Valid ossieSchema (document (semanticModel platform product relationships)) := by
  have hmodel : Valid semanticModelSchema (semanticModel platform product relationships) := by
    have htables : 1 ≤ product.orderedTables.length := by
      rw [ProductIR.orderedTables, length_sortBy]
      exact List.length_pos_iff.2 product.tables_ne
    refine valid_record (by simp) ?_
    simp only [entriesValid_cons, entriesValid_nil, entriesValid_append, and_true]
    exact ⟨⟨⟨valid_str _, valid_map htables fun t _ => valid_dataset t,
      (Schema.accepts_array rfl).2 ⟨Nat.zero_le _, h⟩, valid_map (Nat.zero_le _) fun m _ => valid_metric m,
      valid_extensions ..⟩, entriesValid_entry rfl valid_given⟩, entriesValid_entry rfl valid_aiContext⟩
  refine valid_record (by simp) ?_
  simp only [entriesValid_cons, entriesValid_nil, and_true]
  exact ⟨valid_lit (by simp), valid_singleton (valid_lit (by simp)) (Nat.zero_le _),
    valid_singleton (valid_lit (by simp)) (Nat.zero_le _), valid_singleton hmodel (Nat.zero_le _)⟩

end Valid

section Compiled

variable {platform : Platform}

/-! ### Compiled products -/

/-- Both ends of every relationship are tables of the product. -/
def ProductIR.Resolved (product : ProductIR) : Prop :=
  ∀ r ∈ product.relationships, r.fromTableId ∈ product.tables.map (fun t => t.tableId.text) ∧
    r.toTableId ∈ product.tables.map (fun t => t.tableId.text)

/-- The name of the dataset of a table, and the empty text for no table. -/
def ProductIR.tableName (product : ProductIR) (tableId : Text) : Text := (product.tableNames.lookup tableId).getD []

/-- The relationships in the order of their identifiers. -/
def ProductIR.orderedRelationships (product : ProductIR) : List RelationshipIR :=
  sortBy (fun r => r.relationshipId) product.relationships

private theorem exists_lookup_tableNames {product : ProductIR} {tableId : Text} :
    (∃ name, product.tableNames.lookup tableId = some name) ↔
      tableId ∈ product.tables.map fun t => t.tableId.text := by
  constructor
  · rintro ⟨name, h⟩
    obtain ⟨t, ht, heq⟩ := List.mem_map.1 (Dict.mem_of_lookup_ofList h)
    exact List.mem_map.2 ⟨t, mem_sortBy.1 ht, congrArg Prod.fst heq⟩
  · intro h
    obtain ⟨t, ht, rfl⟩ := List.mem_map.1 h
    refine Dict.exists_lookup_ofList ?_
    rw [List.map_map]
    exact List.mem_map.2 ⟨t, mem_sortBy.2 ht, rfl⟩

/-- A relationship compiles exactly when both its ends are tables of the product. -/
private theorem compileRelationship_eq_ok {product : ProductIR} {r : RelationshipIR} {v : Json} :
    compileRelationship platform product.tableNames r = .ok v ↔
      (r.fromTableId ∈ product.tables.map (fun t => t.tableId.text) ∧
        r.toTableId ∈ product.tables.map fun t => t.tableId.text) ∧
      relationshipPayload platform r (product.tableName r.fromTableId) (product.tableName r.toTableId) = v := by
  rw [← exists_lookup_tableNames, ← exists_lookup_tableNames]
  unfold compileRelationship ProductIR.tableName Dict.getItem
  rw [raiseIf_bind_eq_ok]
  cases product.tableNames.lookup r.fromTableId with
  | none => simp
  | some source =>
    cases product.tableNames.lookup r.toTableId with
    | none => simp
    | some target => simp [pure, Except.pure, bind, Except.bind]

private theorem mapM_compileRelationship_eq_ok {product : ProductIR} {vs : List Json} :
    (product.orderedRelationships.mapM (compileRelationship platform product.tableNames)) = .ok vs ↔
      product.Resolved ∧ vs = product.orderedRelationships.map fun r =>
        relationshipPayload platform r (product.tableName r.fromTableId) (product.tableName r.toTableId) := by
  rw [mapM_eq_ok]
  simp only [compileRelationship_eq_ok]
  rw [List.forall₂_and_left, ← List.forall₂_map_left_iff, List.forall₂_eq_eq_eq, eq_comm (b := vs)]
  simp only [ProductIR.orderedRelationships, mem_sortBy]
  rfl

/-- A product compiles exactly when its relationships are between its tables, and the document is then the one that
the schema was asked about. -/
theorem compileOssie_eq_ok {product : ProductIR} {d : Json} :
    compileOssie platform product = .ok d ↔ product.Resolved ∧
      d = document (semanticModel platform product (product.orderedRelationships.map fun r =>
        relationshipPayload platform r (product.tableName r.fromTableId) (product.tableName r.toTableId))) := by
  unfold compileOssie
  rw [bind_eq_ok]
  constructor
  · rintro ⟨vs, hvs, h⟩
    obtain ⟨hresolved, rfl⟩ := mapM_compileRelationship_eq_ok.1 hvs
    exact ⟨hresolved, (Except.ok.inj (raiseIf_bind_eq_ok.1 h).2).symm⟩
  · rintro ⟨hresolved, rfl⟩
    refine ⟨_, mapM_compileRelationship_eq_ok.2 ⟨hresolved, rfl⟩, raiseIf_bind_eq_ok.2 ⟨?_, rfl⟩⟩
    rw [valid_document, Bool.true_eq_false]
    · exact not_false
    · intro v hv
      obtain ⟨r, -, rfl⟩ := List.mem_map.1 hv
      exact valid_relationship r _ _

/-- The schema never rejects what the compiler makes of a product: a product compiles exactly when both ends of every
relationship are tables of the product. -/
theorem compileOssie_total_iff (platform : Platform) (product : ProductIR) :
    (∃ d, compileOssie platform product = .ok d) ↔ ∀ r ∈ product.relationships,
      r.fromTableId ∈ product.tables.map (fun t => t.tableId.text) ∧
        r.toTableId ∈ product.tables.map fun t => t.tableId.text := by
  constructor
  · rintro ⟨d, h⟩
    exact (compileOssie_eq_ok.1 h).1
  · intro h
    exact ⟨_, compileOssie_eq_ok.2 ⟨h, rfl⟩⟩

end Compiled

end Ossie

end ArdOssie
