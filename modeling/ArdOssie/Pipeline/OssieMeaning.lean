import ArdOssie.Pipeline.OssieCompiler

/-!
# What an OSSIE document says

What the OSSIE document says of a product, and no more: the order of tables, relationships and metrics and empty
optional texts say nothing, a relationship knows its ends by the names of their datasets, and what the compiler does not
write is left out.  Two products have the same document exactly when they agree in this.
-/

namespace ArdOssie

namespace Ossie

/-! ### What is written of a product -/

/-- An optional text that is not empty. -/
def present (t : Option Text) : Option Text := t.filter (· ≠ [])

structure FieldMeaning where
  columnId : ColumnId
  name : Text
  dataType : Text
  nullable : Bool
  label : Option Text
  description : Option Text
  synonyms : List Text

structure DatasetMeaning where
  tableId : TableId
  version : Version
  name : Text
  source : Text
  fields : List FieldMeaning
  primaryKey : List Text
  uniqueKeys : List (List Text)
  description : Option Text
  synonyms : List Text

/-- A relationship between datasets, which it knows by their names. -/
structure RelationshipMeaning where
  relationshipId : RelationshipId
  name : Text
  source : Text
  target : Text
  fromColumns : List Text
  toColumns : List Text
  description : Option Text

structure MetricMeaning where
  metricId : MetricId
  name : Text
  expression : Text
  description : Option Text
  synonyms : List Text
  instructions : Option Text
  examples : List Text

/-- What an OSSIE document says; the order of the datasets, the relationships and the metrics says nothing. -/
structure ModelMeaning where
  productId : ProductId
  productKey : ProductKey
  version : Version
  description : Option Text
  synonyms : List Text
  instructions : Option Text
  examples : List Text
  datasets : Multiset DatasetMeaning
  relationships : Multiset RelationshipMeaning
  metrics : Multiset MetricMeaning

def fieldMeaning (c : ColumnIR) : FieldMeaning :=
  ⟨c.columnId, c.name, c.dataType, c.nullable, present c.logicalName, present c.description, c.synonyms⟩

def TableIR.meaning (t : TableIR) : DatasetMeaning :=
  ⟨t.tableId, t.tableVersion, t.datasetName, t.source, t.orderedColumns.map fieldMeaning, t.primaryKey, t.uniqueKeys,
    present t.description, t.synonyms⟩

def RelationshipIR.meaning (product : ProductIR) (r : RelationshipIR) : RelationshipMeaning :=
  ⟨r.relationshipId, r.name, product.tableName r.fromTableId, product.tableName r.toTableId, r.fromColumns,
    r.toColumns, present r.description⟩

def MetricIR.meaning (m : MetricIR) : MetricMeaning :=
  ⟨m.metricId, m.name, m.expression, present m.description, m.synonyms, present m.instructions, m.examples⟩

def ProductIR.meaning (p : ProductIR) : ModelMeaning :=
  ⟨p.productId, p.productKey, p.version, present p.description, p.synonyms, present p.instructions, p.examples,
    p.tables.map TableIR.meaning, p.relationships.map (RelationshipIR.meaning p), p.metrics.map MetricIR.meaning⟩

/-! ### Reading records -/

section Reading

variable {platform : Platform}

private theorem record_inj {fields fields' : List (String × Json)} :
    Json.record fields = Json.record fields' ↔ fields = fields' := by
  constructor
  · intro h
    refine List.map_injective_iff.2 ?_ (Json.obj.inj h)
    intro p q hpq
    obtain ⟨hkey, hvalue⟩ := Prod.ext_iff.1 hpq
    exact Prod.ext (String.toList_inj.1 hkey) hvalue
  · exact congrArg Json.record

@[simp] private theorem lookup_entry (key key' : String) (value : Option Json) :
    (entry key value).lookup key' = if key' = key then value else none := by
  cases value with
  | none => simp [entry]
  | some v =>
    by_cases h : key' = key
    · simp [entry, h]
    · simp [entry, h]

/-- Equal records have the same value under every key. -/
private theorem lookup_eq_of_record_eq {fields fields' : List (String × Json)}
    (h : Json.record fields = Json.record fields') (key : String) : fields.lookup key = fields'.lookup key := by
  rw [record_inj.1 h]

private theorem given_inj {t t' : Option Text} : given t = given t' ↔ present t = present t' := by
  unfold given present
  cases t <;> cases t' <;> simp only [Option.filter_some] <;> split_ifs <;> simp_all

private theorem str_injective : Function.Injective Json.str := fun _ _ h => Json.str.inj h

private theorem texts_inj {l l' : List Text} : texts l = texts l' ↔ l = l' := by
  unfold texts
  rw [Json.arr.injEq, (List.map_injective_iff.2 str_injective).eq_iff]

private theorem givenTexts_inj {l l' : List Text} : givenTexts l = givenTexts l' ↔ l = l' := by
  unfold givenTexts
  split <;> split <;> simp_all [texts_inj, eq_comm]

private theorem someRecord_inj {fields fields' : List (String × Json)} :
    ((if fields = [] then none else some (Json.record fields)) =
      if fields' = [] then none else some (Json.record fields')) ↔ fields = fields' := by
  split <;> split <;> simp_all [record_inj, eq_comm]

private theorem aiContext_inj {synonyms synonyms' examples examples' : List Text}
    {instructions instructions' : Option Text} :
    aiContext synonyms instructions examples = aiContext synonyms' instructions' examples' ↔
      synonyms = synonyms' ∧ present instructions = present instructions' ∧ examples = examples' := by
  rw [← givenTexts_inj, ← given_inj, ← givenTexts_inj (l := examples)]
  unfold aiContext
  rw [someRecord_inj]
  constructor
  · intro h
    have hlookup := fun key => congrArg (List.lookup key) h
    simp only [List.lookup_append, lookup_entry] at hlookup
    exact ⟨by simpa using hlookup "synonyms", by simpa using hlookup "instructions", by simpa using hlookup "examples"⟩
  · rintro ⟨hs, hi, he⟩
    rw [hs, hi, he]

/-! ### Extensions -/

private theorem dumps_record_inj (hp : platform.Documented) {fields fields' : List (String × Json)}
    (hkeys : fields.map Prod.fst = fields'.map Prod.fst) (hnodup : (fields.map Prod.fst).Nodup) :
    Json.dumps platform (Json.record fields) = Json.dumps platform (Json.record fields') ↔
      fields.map (fun p => (p.1.toList, Json.dumps platform p.2)) =
        fields'.map fun p => (p.1.toList, Json.dumps platform p.2) := by
  have hmap : ∀ fields : List (String × Json),
      (fields.map fun p => (p.1.toList, p.2)).map Prod.fst = (fields.map Prod.fst).map String.toList := by
    simp
  unfold Json.record
  rw [Json.dumps_obj_iff hp, Json.dumpsFields_eq_map, Json.dumpsFields_eq_map, List.map_map, List.map_map]
  · rfl
  · rw [hmap, hmap, hkeys]
  · rw [hmap]
    exact hnodup.map fun _ _ h => String.toList_inj.1 h

private theorem dumps_str_inj {t t' : Text} :
    Json.dumps platform (.str t) = Json.dumps platform (.str t') ↔ t = t' := by
  rw [Json.dumps, Json.dumps, Json.quote_injective.eq_iff]

private theorem dumps_nat_inj {n n' : ℕ} : Json.dumps platform (.nat n) = Json.dumps platform (.nat n') ↔ n = n' := by
  have hdumps : ∀ n : ℕ, Json.dumps platform (.nat n) = Nat.toDigits 10 n := by
    intro n
    rw [Json.nat, Json.dumps, if_neg (by omega)]
    rfl
  rw [hdumps, hdumps]
  constructor
  · intro h
    have hvalue := congrArg (fun digits => Nat.ofDigitChars 10 digits 0) h
    rwa [Nat.ofDigitChars_toDigits (by decide) (by decide), Nat.ofDigitChars_toDigits (by decide) (by decide)] at hvalue
  · exact fun h => h ▸ rfl

private theorem dumps_bool_inj {b b' : Bool} :
    Json.dumps platform (.bool b) = Json.dumps platform (.bool b') ↔ b = b' := by
  rw [Json.dumps, Json.dumps]
  revert b b'
  decide

private theorem extension_inj_iff {kind : String} {objectId objectId' : Text} {version version' : Option ℕ}
    {attributes attributes' : List (String × Json)} :
    extension platform kind objectId version attributes = extension platform kind objectId' version' attributes' ↔
      Json.dumps platform (Json.record ([("id", .str objectId), ("kind", .lit kind),
        ("namespace", .lit "ai_ready_data")] ++ entry "version" (version.map Json.nat) ++ attributes)) =
      Json.dumps platform (Json.record ([("id", .str objectId'), ("kind", .lit kind),
        ("namespace", .lit "ai_ready_data")] ++ entry "version" (version'.map Json.nat) ++ attributes')) := by
  unfold extension
  rw [record_inj]
  simp

private theorem plainExtension_inj (hp : platform.Documented) {kind : String} {objectId objectId' : Text} :
    extension platform kind objectId none [] = extension platform kind objectId' none [] ↔ objectId = objectId' := by
  rw [extension_inj_iff]
  refine (dumps_record_inj hp (by simp [entry]) (by simp [entry])).trans ?_
  simp [entry, dumps_str_inj]

private theorem versionExtension_inj (hp : platform.Documented) {kind : String} {objectId objectId' : Text}
    {version version' : ℕ} :
    extension platform kind objectId (some version) [] = extension platform kind objectId' (some version') [] ↔
      objectId = objectId' ∧ version = version' := by
  rw [extension_inj_iff]
  refine (dumps_record_inj hp (by simp [entry]) (by simp [entry])).trans ?_
  simp [entry, dumps_str_inj, dumps_nat_inj]

private theorem columnExtension_inj (hp : platform.Documented) {objectId objectId' dataType dataType' : Text}
    {nullable nullable' : Bool} :
    extension platform "column" objectId none [("data_type", .str dataType), ("nullable", .bool nullable)] =
        extension platform "column" objectId' none [("data_type", .str dataType'), ("nullable", .bool nullable')] ↔
      objectId = objectId' ∧ dataType = dataType' ∧ nullable = nullable' := by
  rw [extension_inj_iff]
  refine (dumps_record_inj hp (by simp [entry]) (by simp [entry])).trans ?_
  simp [entry, dumps_str_inj, dumps_bool_inj]

/-! ### One object -/

private theorem expression_inj {t t' : Text} : expression t = expression t' ↔ t = t' := by
  unfold expression
  rw [record_inj]
  simp [record_inj]

private theorem compileField_inj (hp : platform.Documented) (c c' : ColumnIR) :
    compileField platform c = compileField platform c' ↔ fieldMeaning c = fieldMeaning c' := by
  rw [fieldMeaning, fieldMeaning, FieldMeaning.mk.injEq, ← EntityId.text_injective.eq_iff]
  unfold compileField
  constructor
  · intro h
    have hlookup := lookup_eq_of_record_eq h
    simp only [List.lookup_append, lookup_entry, List.lookup_cons, List.lookup_nil] at hlookup
    have hname : c.name = c'.name := by simpa using hlookup "name"
    have hextension := (columnExtension_inj hp).1 (by simpa using hlookup "custom_extensions")
    have hlabel : present c.logicalName = present c'.logicalName := given_inj.1 (by simpa using hlookup "label")
    have hdescription : present c.description = present c'.description :=
      given_inj.1 (by simpa using hlookup "description")
    have hcontext := aiContext_inj.1 (by simpa using hlookup "ai_context")
    exact ⟨hextension.1, hname, hextension.2.1, hextension.2.2, hlabel, hdescription, hcontext.1⟩
  · rintro ⟨hid, hname, htype, hnull, hlabel, hdescription, hsynonyms⟩
    rw [hid, hname, htype, hnull, given_inj.2 hlabel, given_inj.2 hdescription, hsynonyms]

private theorem uniqueKeys_inj {keys keys' : List (List Text)} :
    ((if keys = [] then none else some (Json.arr (keys.map texts))) =
      if keys' = [] then none else some (Json.arr (keys'.map texts))) ↔ keys = keys' := by
  have hinj : Function.Injective texts := fun _ _ h => texts_inj.1 h
  split <;> split <;> simp_all [(List.map_injective_iff.2 hinj).eq_iff, eq_comm]

private theorem compileDataset_inj (hp : platform.Documented) (t t' : TableIR) :
    compileDataset platform t = compileDataset platform t' ↔ t.meaning = t'.meaning := by
  rw [TableIR.meaning, TableIR.meaning, DatasetMeaning.mk.injEq, ← EntityId.text_injective.eq_iff]
  have hfields : t.orderedColumns.map (compileField platform) = t'.orderedColumns.map (compileField platform) ↔
      t.orderedColumns.map fieldMeaning = t'.orderedColumns.map fieldMeaning :=
    map_eq_map_iff_of_iff (compileField_inj hp)
  unfold compileDataset
  constructor
  · intro h
    have hlookup := lookup_eq_of_record_eq h
    simp only [List.lookup_append, lookup_entry, List.lookup_cons, List.lookup_nil] at hlookup
    have hname : t.datasetName = t'.datasetName := by simpa using hlookup "name"
    have hsource : t.source = t'.source := by simpa using hlookup "source"
    have hcolumns := hfields.1 (by simpa using hlookup "fields")
    have hextension := (versionExtension_inj hp).1 (by simpa using hlookup "custom_extensions")
    have hprimary : t.primaryKey = t'.primaryKey := givenTexts_inj.1 (by simpa using hlookup "primary_key")
    have hunique : t.uniqueKeys = t'.uniqueKeys := uniqueKeys_inj.1 (by simpa using hlookup "unique_keys")
    have hdescription : present t.description = present t'.description :=
      given_inj.1 (by simpa using hlookup "description")
    have hcontext := aiContext_inj.1 (by simpa using hlookup "ai_context")
    exact ⟨hextension.1, Subtype.ext hextension.2, hname, hsource, hcolumns, hprimary, hunique, hdescription,
      hcontext.1⟩
  · rintro ⟨hid, hversion, hname, hsource, hcolumns, hprimary, hunique, hdescription, hsynonyms⟩
    rw [hid, hversion, hname, hsource, hfields.2 hcolumns, hprimary, hunique, given_inj.2 hdescription, hsynonyms]

private theorem compileMetric_inj (hp : platform.Documented) (m m' : MetricIR) :
    compileMetric platform m = compileMetric platform m' ↔ m.meaning = m'.meaning := by
  rw [MetricIR.meaning, MetricIR.meaning, MetricMeaning.mk.injEq, ← EntityId.text_injective.eq_iff]
  unfold compileMetric
  constructor
  · intro h
    have hlookup := lookup_eq_of_record_eq h
    simp only [List.lookup_append, lookup_entry, List.lookup_cons, List.lookup_nil] at hlookup
    have hname : m.name = m'.name := by simpa using hlookup "name"
    have hexpression : m.expression = m'.expression := expression_inj.1 (by simpa using hlookup "expression")
    have hextension := (plainExtension_inj hp).1 (by simpa using hlookup "custom_extensions")
    have hdescription : present m.description = present m'.description :=
      given_inj.1 (by simpa using hlookup "description")
    have hcontext := aiContext_inj.1 (by simpa using hlookup "ai_context")
    exact ⟨hextension, hname, hexpression, hdescription, hcontext.1, hcontext.2.1, hcontext.2.2⟩
  · rintro ⟨hid, hname, hexpression, hdescription, hsynonyms, hinstructions, hexamples⟩
    rw [hid, hname, hexpression, given_inj.2 hdescription, aiContext_inj.2 ⟨hsynonyms, hinstructions, hexamples⟩]

private theorem instructions_inj {t t' : Option Text} :
    ((given t).map fun d => Json.record [("instructions", d)]) =
      ((given t').map fun d => Json.record [("instructions", d)]) ↔ present t = present t' := by
  have hinj : Function.Injective fun d => Json.record [("instructions", d)] := by
    intro d d' h
    simpa using record_inj.1 h
  rw [(Option.map_injective hinj).eq_iff, given_inj]

private theorem relationshipPayload_inj (hp : platform.Documented) (p p' : ProductIR) (r r' : RelationshipIR) :
    relationshipPayload platform r (p.tableName r.fromTableId) (p.tableName r.toTableId) =
        relationshipPayload platform r' (p'.tableName r'.fromTableId) (p'.tableName r'.toTableId) ↔
      r.meaning p = r'.meaning p' := by
  rw [RelationshipIR.meaning, RelationshipIR.meaning, RelationshipMeaning.mk.injEq, ← EntityId.text_injective.eq_iff]
  unfold relationshipPayload
  constructor
  · intro h
    have hlookup := lookup_eq_of_record_eq h
    simp only [List.lookup_append, lookup_entry, List.lookup_cons, List.lookup_nil] at hlookup
    have hname : r.name = r'.name := by simpa using hlookup "name"
    have hsource : p.tableName r.fromTableId = p'.tableName r'.fromTableId := by simpa using hlookup "from"
    have htarget : p.tableName r.toTableId = p'.tableName r'.toTableId := by simpa using hlookup "to"
    have hfrom : r.fromColumns = r'.fromColumns := texts_inj.1 (by simpa using hlookup "from_columns")
    have hto : r.toColumns = r'.toColumns := texts_inj.1 (by simpa using hlookup "to_columns")
    have hextension := (plainExtension_inj hp).1 (by simpa using hlookup "custom_extensions")
    have hdescription : present r.description = present r'.description :=
      instructions_inj.1 (by simpa using hlookup "ai_context")
    exact ⟨hextension, hname, hsource, htarget, hfrom, hto, hdescription⟩
  · rintro ⟨hid, hname, hsource, htarget, hfrom, hto, hdescription⟩
    rw [hid, hname, hsource, htarget, hfrom, hto, instructions_inj.2 hdescription]

/-! ### Products -/

/-- The identifiers of the tables, of the relationships and of the metrics are distinct. -/
structure ProductIR.Distinct (p : ProductIR) : Prop where
  tables : (p.tables.map fun t => t.tableId).Nodup
  relationships : (p.relationships.map fun r => r.relationshipId).Nodup
  metrics : (p.metrics.map fun m => m.metricId).Nodup

/-- Lists that are compiled in the order of their keys are compiled to the same values exactly when they mean the
same in any order. -/
private theorem sorted_map_inj {α μ κ : Type} [LinearOrder κ] (key : α → κ) (name : μ → κ) {f f' : α → Json}
    {g g' : α → μ} (hname : name ∘ g = key) (hname' : name ∘ g' = key) (h : ∀ a b, f a = f' b ↔ g a = g' b)
    {l : List α} (hl : (l.map key).Nodup) (l' : List α) :
    (sortBy key l).map f = (sortBy key l').map f' ↔ (↑(l.map g) : Multiset μ) = ↑(l'.map g') := by
  have hnodup : ((l.map g).map name).Nodup := by rwa [List.map_map, hname]
  have hmap : (sortBy key l).map g = sortBy name (l.map g) := by rw [sortBy_map, hname]
  have hmap' : (sortBy key l').map g' = sortBy name (l'.map g') := by rw [sortBy_map, hname']
  rw [map_eq_map_iff_of_iff h, hmap, hmap', sortBy_eq_sortBy_iff hnodup, Multiset.coe_eq_coe]

private theorem document_inj {model model' : Json} : document model = document model' ↔ model = model' := by
  unfold document
  rw [record_inj]
  simp

/-- The documents of two products are equal exactly when the products agree in what the compiler writes of them. -/
theorem compileOssie_eq_iff (hp : platform.Documented) {p p' : ProductIR} (hdistinct : p.Distinct) {d d' : Json}
    (h : compileOssie platform p = .ok d) (h' : compileOssie platform p' = .ok d') :
    d = d' ↔ p.meaning = p'.meaning := by
  obtain ⟨-, rfl⟩ := compileOssie_eq_ok.1 h
  obtain ⟨-, rfl⟩ := compileOssie_eq_ok.1 h'
  have htables := sorted_map_inj (fun t : TableIR => t.tableId) DatasetMeaning.tableId rfl rfl (compileDataset_inj hp)
    hdistinct.tables p'.tables
  have hrelationships := sorted_map_inj (fun r : RelationshipIR => r.relationshipId) RelationshipMeaning.relationshipId
    rfl rfl (relationshipPayload_inj hp p p') hdistinct.relationships p'.relationships
  have hmetrics := sorted_map_inj (fun m : MetricIR => m.metricId) MetricMeaning.metricId rfl rfl (compileMetric_inj hp)
    hdistinct.metrics p'.metrics
  rw [document_inj, ProductIR.meaning, ProductIR.meaning, ModelMeaning.mk.injEq, ← EntityId.text_injective.eq_iff,
    ← ProductKey.text_injective.eq_iff, ← htables, ← hrelationships, ← hmetrics]
  unfold semanticModel ProductIR.orderedTables ProductIR.orderedRelationships
  constructor
  · intro h
    have hlookup := lookup_eq_of_record_eq h
    simp only [List.lookup_append, lookup_entry, List.lookup_cons, List.lookup_nil] at hlookup
    have hname : p.productKey.text = p'.productKey.text := by simpa using hlookup "name"
    have hextension := (versionExtension_inj hp).1 (by simpa using hlookup "custom_extensions")
    have hdescription : present p.description = present p'.description :=
      given_inj.1 (by simpa using hlookup "description")
    have hcontext := aiContext_inj.1 (by simpa using hlookup "ai_context")
    exact ⟨hextension.1, hname, Subtype.ext hextension.2, hdescription, hcontext.1, hcontext.2.1, hcontext.2.2,
      by simpa using hlookup "datasets", by simpa using hlookup "relationships", by simpa using hlookup "metrics"⟩
  · rintro ⟨hid, hkey, hversion, hdescription, hsynonyms, hinstructions, hexamples, hd, hr, hm⟩
    rw [hid, hkey, hversion, given_inj.2 hdescription, aiContext_inj.2 ⟨hsynonyms, hinstructions, hexamples⟩, hd, hr,
      hm]

/-! ### An example -/

private def marketColumn : ColumnIR :=
  ⟨⟨"col_0198f6ca-2a11-78d1-8672-67d49e69f171".toList, by decide⟩, 1, "price".toList, some [], "DECIMAL".toList, true,
    false, false, none, none, none, none, [], []⟩

private def marketTable : TableIR :=
  ⟨⟨⟨"tbl_0198f6ca-2a11-78d1-8672-67d49e69f172".toList, by decide⟩, ⟨1, one_isVersion⟩, "prices".toList,
    "db.market.prices".toList, none, [marketColumn], List.cons_ne_nil _ _⟩, [], []⟩

private def marketProduct (description : Option Text) : ProductIR :=
  ⟨⟨"prd_0198f6ca-2a11-78d1-8672-67d49e69f173".toList, by decide⟩, ⟨"market".toList, by decide⟩, ⟨1, one_isVersion⟩,
    description, [], none, [], [marketTable], [], [], List.cons_ne_nil _ _⟩

private theorem marketProduct_compiles (description : Option Text) :
    ∃ d, compileOssie Platform.ascii (marketProduct description) = .ok d :=
  (compileOssie_total_iff _ _).2 (List.forall_mem_nil _)

/-- A description that is empty and no description give one document. -/
theorem compileOssie_eq_emptyDescription : ∃ d d', compileOssie Platform.ascii (marketProduct (some [])) = .ok d ∧
    compileOssie Platform.ascii (marketProduct none) = .ok d' ∧
      (d = d' ↔ (marketProduct (some [])).meaning = (marketProduct none).meaning) := by
  obtain ⟨d, h⟩ := marketProduct_compiles (some [])
  obtain ⟨d', h'⟩ := marketProduct_compiles none
  have hdistinct : (marketProduct (some [])).Distinct :=
    ⟨List.nodup_singleton _, List.nodup_nil, List.nodup_nil⟩
  exact ⟨d, d', h, h', compileOssie_eq_iff Json.documented_ascii hdistinct h h'⟩

end Reading

end Ossie

end ArdOssie
