import ArdOssie.JsonText
import ArdOssie.Pipeline.Columns

/-!
# Processing a table again

The columns of a record are those of the dictionary it was built from, in their order, and the retired ones.  A
dictionary with the same column names finds them again, and the table counts as unchanged exactly if the content that
is hashed is the same: this content covers the places in the workbook where the columns were found.
-/

namespace ArdOssie

variable {platform : Platform}

/-! ### The columns of a registered table -/

/-- The records of some dictionary columns, followed by retired columns. -/
structure RegisteredAs (active retired : List ColumnRecord) (columns : List DictionaryColumn) : Prop where
  active : List.Forall₂ (fun (column : DictionaryColumn) (a : ColumnRecord) =>
    a.name = column.name ∧ a.status = .active) columns active
  retired : ∀ c ∈ retired, c.status = .retired

/-- A resolved dictionary registers its columns. -/
theorem registeredAs_of_resolve {existing : List ColumnRecord} {newId : ℕ → ColumnId} {columns : List DictionaryColumn}
    {resolved : List ColumnRecord × List ColumnIR} (h : resolveColumns platform existing newId columns = .ok resolved) :
    ∃ active retired, resolved.1 = active ++ retired ∧ RegisteredAs active retired columns ∧
      resolved.2 = (columns.zip active).map fun p => p.1.ir p.2.columnId := by
  obtain ⟨pairs, hrecords, hirs, hall⟩ := resolveColumns_eq_ok h
  have hcolumns : List.Forall₂ (fun (column : DictionaryColumn) (pair : ColumnRecord × ColumnIR) =>
      (pair.1.name = column.name ∧ pair.1.status = .active) ∧ pair.2 = column.ir pair.1.columnId) columns pairs := by
    rw [← List.zipIdx_map_fst 0 columns, List.forall₂_map_left_iff]
    exact hall.imp fun p pair hpair => ⟨⟨hpair.1.name, hpair.1.active⟩, hpair.2⟩
  refine ⟨pairs.map Prod.fst, _, hrecords, ⟨?_, ?_⟩, ?_⟩
  · exact List.forall₂_map_right_iff.2 (hcolumns.imp fun _ _ hpair => hpair.1)
  · intro c hc
    obtain ⟨d, -, rfl⟩ := List.mem_map.1 hc
    rfl
  · rw [hirs]
    clear h hrecords hirs hall
    induction hcolumns with
    | nil => rfl
    | cons hpair _ ih => simp [hpair.2, ih]

section Repeat

variable {active retired : List ColumnRecord} {columns : List DictionaryColumn}

private theorem make_registered {a : ColumnRecord} {column : DictionaryColumn} (hname : a.name = column.name)
    (hactive : a.status = .active) : ColumnRecord.make a.columnId column.name a.aliases .active = .ok a := by
  have hne : column.name.strip ≠ [] := by
    rw [column.stripped, ← hname]
    exact a.nonempty
  unfold ColumnRecord.make
  rw [dif_pos hne]
  obtain ⟨columnId, name, aliases, status, stripped, nonempty⟩ := a
  simp only [Except.ok.injEq, ColumnRecord.mk.injEq, true_and]
  exact ⟨column.stripped.trans hname.symm, hactive.symm⟩

private theorem retired_again (hvalid : ColumnsValid platform (active ++ retired))
    (hretired : ∀ c ∈ retired, c.status = .retired) :
    ((active ++ retired).filter fun c => c.columnId ∉ active.map ColumnRecord.columnId).map ColumnRecord.retire =
      retired := by
  have hdisjoint : (active.map ColumnRecord.columnId).Disjoint (retired.map ColumnRecord.columnId) :=
    List.disjoint_of_nodup_append (by rw [← List.map_append]; exact hvalid.1)
  have hnone : active.filter (fun c => c.columnId ∉ active.map ColumnRecord.columnId) = [] := by
    refine List.filter_eq_nil_iff.2 fun c hc => ?_
    simpa using ⟨c, hc, rfl⟩
  have hall : retired.filter (fun c => c.columnId ∉ active.map ColumnRecord.columnId) = retired := by
    refine List.filter_eq_self.2 fun c hc => decide_eq_true fun hmem => ?_
    exact hdisjoint hmem (List.mem_map_of_mem hc)
  rw [List.filter_append, hnone, hall, List.nil_append]
  refine (List.map_congr_left fun c hc => ?_).trans (List.map_id retired)
  show { c with status := EntityStatus.retired } = c
  rw [← hretired c hc]

/-- A dictionary with the names of the registered columns finds them again and changes no record. -/
theorem resolveColumns_again (hvalid : ColumnsValid platform (active ++ retired))
    (hregistered : RegisteredAs active retired columns)
    (hunshadowed : NamesUnshadowed platform (active ++ retired) columns) (newId : ℕ → ColumnId) :
    resolveColumns platform (active ++ retired) newId columns =
      .ok (active ++ retired, (columns.zip active).map fun p => p.1.ir p.2.columnId) := by
  have hone : ∀ column ∈ columns, ∀ a ∈ active, a.name = column.name → a.status = .active → ∀ i,
      resolveColumn platform (active ++ retired) i column = .ok (a, column.ir a.columnId) := by
    intro column hcolumn a ha hname hactive i
    have hmatched := matchedColumn_of_unshadowed hvalid hunshadowed hcolumn (List.mem_append_left _ ha) hactive hname
    unfold resolveColumn
    rw [hmatched]
    refine raiseIf_bind_eq_ok.2 ⟨by rw [hactive]; decide, ?_⟩
    rw [make_registered hname hactive]
    rfl
  have hpairs : ∀ (columns' : List DictionaryColumn) (active' : List ColumnRecord), columns' ⊆ columns →
      active' ⊆ active → List.Forall₂ (fun (column : DictionaryColumn) (a : ColumnRecord) =>
        a.name = column.name ∧ a.status = .active) columns' active' →
      List.Forall₂ (fun column pair => ∀ i : ℕ,
        resolveColumn platform (active ++ retired) (newId i) column = .ok pair) columns'
        ((columns'.zip active').map fun p => (p.2, p.1.ir p.2.columnId)) := by
    intro columns' active' hc ha hall
    induction hall with
    | nil => exact .nil
    | cons hpair _ ih =>
      obtain ⟨hcolumn, hc⟩ := List.cons_subset.1 hc
      obtain ⟨hrecord, ha⟩ := List.cons_subset.1 ha
      exact .cons (fun i => hone _ hcolumn _ hrecord hpair.1 hpair.2 _) (ih hc ha)
  have hmap := mapM_zipIdx_eq_ok (f := fun p => resolveColumn platform (active ++ retired) (newId p.2) p.1)
    (hpairs columns active (List.Subset.refl _) (List.Subset.refl _) hregistered.active) 0
  have hfst : ((columns.zip active).map fun p => (p.2, p.1.ir p.2.columnId)).map Prod.fst = active := by
    rw [List.map_map]
    exact List.map_snd_zip (le_of_eq hregistered.active.length_eq.symm)
  unfold resolveColumns
  rw [bind_eq_ok]
  refine ⟨_, hmap, ?_⟩
  have hids : ((columns.zip active).map fun p => (p.2, p.1.ir p.2.columnId)).map (fun p => p.1.columnId) =
      active.map ColumnRecord.columnId := by
    have hmapped := congrArg (List.map ColumnRecord.columnId) hfst
    rwa [List.map_map] at hmapped
  rw [pure_eq_ok, hids, hfst, retired_again hvalid hregistered.retired, List.map_map]
  rfl

/-- When a dictionary with the names of the registered columns is accepted again, every name matches its own column. -/
private theorem matchedColumn_again (hregistered : RegisteredAs active retired columns) {newId : ℕ → ColumnId}
    {pairs : List (ColumnRecord × ColumnIR)}
    (hpairs : List.Forall₂ (fun (p : DictionaryColumn × ℕ) pair =>
      ResolvedAs platform (active ++ retired) (newId p.2) p.1 pair.1 ∧ pair.2 = p.1.ir pair.1.columnId)
        columns.zipIdx pairs)
    (hids : (pairs.map fun p => p.1.columnId).Nodup) (j : ℕ) (hc : j < columns.length) (ha : j < active.length) :
    matchedColumn platform (active ++ retired) columns[j].name = some active[j] := by
  have hlength : pairs.length = columns.length := by rw [← hpairs.length_eq, List.length_zipIdx]
  have hid : ∀ (i : ℕ) (hi : i < columns.length) (hi' : i < pairs.length) (m : ColumnRecord),
      matchedColumn platform (active ++ retired) columns[i].name = some m → pairs[i].1.columnId = m.columnId := by
    intro i hi hi' m hm
    have hresolved := (hpairs.get (i := i) (by simpa using hi) hi').1
    simp only [List.get_eq_getElem, List.getElem_zipIdx] at hresolved
    rcases hresolved.origin with ⟨m', hm', -, hmid, -⟩ | ⟨hnone, -⟩
    · rw [hmid, Option.some_inj.1 (hm'.symm.trans hm)]
    · rw [hnone] at hm
      cases hm
  induction j using Nat.strong_induction_on with
  | _ j ih =>
    have hname : active[j].name = columns[j].name := (hregistered.active.get hc ha).1
    have hanswers : active[j].Answers platform columns[j].name := Or.inl (by rw [hname])
    obtain ⟨m, hm⟩ : ∃ m, matchedColumn platform (active ++ retired) columns[j].name = some m := by
      rw [← Option.isSome_iff_exists]
      unfold matchedColumn
      rw [List.find?_isSome]
      exact ⟨active[j], List.mem_append_left _ (List.getElem_mem ha), decide_eq_true hanswers⟩
    obtain ⟨-, i, hi, hmi, hfirst⟩ := List.find?_eq_some_iff_getElem.1 hm
    have hij : i ≤ j := by
      by_contra hlt
      have hno := hfirst j (Nat.lt_of_not_le hlt)
      rw [List.getElem_append_left ha] at hno
      simp [hanswers] at hno
    rcases Nat.lt_or_eq_of_le hij with hlt | rfl
    · have hai : i < active.length := Nat.lt_trans hlt ha
      have hci : i < columns.length := Nat.lt_trans hlt hc
      have hm' : m = active[i] := by rw [← hmi, List.getElem_append_left hai]
      have hsame : pairs[i].1.columnId = pairs[j].1.columnId := by
        rw [hid i hci (hlength ▸ hci) _ (ih i hlt hci hai), hid j hc (hlength ▸ hc) _ hm, hm']
      have hi' : i < (pairs.map fun p => p.1.columnId).length := by simpa [hlength] using hci
      have hj' : j < (pairs.map fun p => p.1.columnId).length := by simpa [hlength] using hc
      have hval : i = j := (@List.Nodup.getElem_inj_iff _ _ hids i hi' j hj').1 (by simpa using hsame)
      omega
    · rw [hm, ← hmi, List.getElem_append_left ha]

/-- A dictionary with the names of the registered columns is accepted again only if it finds them unshadowed. -/
theorem unshadowed_of_again (hvalid : ColumnsValid platform (active ++ retired))
    (hregistered : RegisteredAs active retired columns) {newId : ℕ → ColumnId}
    {resolved : List ColumnRecord × List ColumnIR}
    (h : resolveColumns platform (active ++ retired) newId columns = .ok resolved)
    (hids : (resolved.1.map ColumnRecord.columnId).Nodup) :
    NamesUnshadowed platform (active ++ retired) columns := by
  obtain ⟨pairs, hrecords, -, hpairs⟩ := resolveColumns_eq_ok h
  have hids' : (pairs.map fun p => p.1.columnId).Nodup := by
    rw [hrecords, List.map_append, List.map_map] at hids
    exact (List.nodup_append.1 hids).1
  intro column hcolumn before c after hsplit hactive hname
  obtain ⟨j, hj, rfl⟩ := List.getElem_of_mem hcolumn
  have ha : j < active.length := hregistered.active.length_eq ▸ hj
  have hmatched := matchedColumn_again hregistered hpairs hids' j hj ha
  have hc : c = active[j] := by
    refine hvalid.eq_of_name (hsplit ▸ List.mem_append_right _ List.mem_cons_self)
      (List.mem_append_left _ (List.getElem_mem ha)) ?_
    exact hname.trans (hregistered.active.get hj ha).1.symm
  rw [hsplit] at hvalid hmatched
  exact not_alias_of_matched hvalid (hc ▸ hmatched)

end Repeat

/-! ### Content -/

/-- Two dictionary columns with the same definition, found at any places. -/
def SameDefinition (c c' : DictionaryColumn) : Prop := c' = { c with evidence := c'.evidence }

/-- The canonical text of the evidence of a column. -/
def evidenceText (platform : Platform) (c : DictionaryColumn) : Text := c.evidence.json.canonicalText platform

private theorem columnText_iff (hp : platform.Documented) {c c' : DictionaryColumn} (h : SameDefinition c c')
    (columnId : ColumnId) :
    (c.ir columnId).json.canonicalText platform = (c'.ir columnId).json.canonicalText platform ↔
      evidenceText platform c = evidenceText platform c' := by
  have hkeys : Json.PlainKeys ["column_id", "ordinal", "name", "logical_name", "data_type", "nullable", "primary_key",
      "unique", "description", "foreign_key", "formula", "comment", "synonyms", "evidence"] := by decide +kernel
  rw [h]
  refine (Json.canonicalText_record_iff hp ?_ ?_).trans ?_
  · rfl
  · exact hkeys
  simp [DictionaryColumn.ir, Json.canonicalText_arr_iff hp, evidenceText]

private theorem columnTexts_iff (hp : platform.Documented) {columns columns' : List DictionaryColumn}
    (h : List.Forall₂ SameDefinition columns columns') {active : List ColumnRecord}
    (hlength : columns.length = active.length) :
    ((columns.zip active).map fun p => (p.1.ir p.2.columnId).json.canonicalText platform) =
        ((columns'.zip active).map fun p => (p.1.ir p.2.columnId).json.canonicalText platform) ↔
      columns.map (evidenceText platform) = columns'.map (evidenceText platform) := by
  induction h generalizing active with
  | nil => simp
  | @cons c c' columns columns' hsame _ ih =>
    cases active with
    | nil => cases hlength
    | cons a active =>
      have hlength' : columns.length = active.length := Nat.succ.inj hlength
      simp only [List.zip_cons_cons, List.map_cons, List.cons.injEq, columnText_iff hp hsame, ih hlength']

/-- Two drafts that differ in the evidence of their columns only have one content exactly if the evidence is the same. -/
theorem contentText_iff (hp : platform.Documented) {draft draft' : TableDraft} {columns columns' : List DictionaryColumn}
    {active : List ColumnRecord} (h : List.Forall₂ SameDefinition columns columns')
    (hlength : columns.length = active.length) (hlocator : draft'.locator = draft.locator)
    (hdescription : draft'.description = draft.description)
    (hcolumns : draft.columns = (columns.zip active).map fun p => p.1.ir p.2.columnId)
    (hcolumns' : draft'.columns = (columns'.zip active).map fun p => p.1.ir p.2.columnId) :
    draft.contentJson.canonicalText platform = draft'.contentJson.canonicalText platform ↔
      columns.map (evidenceText platform) = columns'.map (evidenceText platform) := by
  have hkeys : Json.PlainKeys ["locator", "columns", "description"] := by decide +kernel
  rw [← columnTexts_iff hp h hlength]
  refine (Json.canonicalText_record_iff hp ?_ ?_).trans ?_
  · rfl
  · exact hkeys
  simp [hlocator, hdescription, hcolumns, hcolumns', Json.canonicalText_arr_iff hp, List.map_map, Function.comp_def]

/-! ### Change detection -/

/-- The configuration asks for no other identifier and no other version than the registered ones. -/
structure TableConfig.AsksNothing (config : TableConfig) (t : TableRecord platform) : Prop where
  tableId : ∀ i, truthy config.tableId = some i → i = t.tableId.text
  version : ∀ v, config.version = some v → v = t.version
  baseVersion : ∀ v, config.baseVersion = some v → v = t.version

/-- Processing the table succeeds, reports it unchanged and allows it at the version of `t`. -/
def Unchanged (lower : Text → Text) (newIds : NewIds) (configs : List TableConfig) (registry : Registry platform)
    (i : ℕ) (table : DictionaryTable) (t : TableRecord platform) : Prop :=
  ∃ draft built, resolveTable lower newIds configs registry i table = .ok draft ∧
    buildTableRecord registry draft = .ok built ∧ built.2.2.changed = false ∧ built.2.2.outcome = .allow ∧
      built.1.version = t.version

/-- Two dictionary tables with the same locator, description and column definitions. -/
structure SameTable (table table' : DictionaryTable) : Prop where
  locator : table'.locator = table.locator
  description : table'.description = table.description
  columns : List.Forall₂ SameDefinition table.columns table'.columns

section Detection

variable {lower : Text → Text} {newIds newIds' : NewIds} {configs configs' : List TableConfig}
  {registry registry' : Registry platform} {i i' : ℕ} {table table' : DictionaryTable} {draft : TableDraft}
  {built : TableRecord platform × TableIR × VersionDecision}

private theorem registered_of_registeredAt {t : TableRecord platform}
    (ht : registeredAt registry t.locator = some t) {draft : TableDraft} (hid : draft.tableId = t.tableId.text) :
    draft.registered registry = some t := by
  unfold TableDraft.registered
  rw [hid, EntityId.parse_text, Option.bind_some]
  exact KeyedList.get_key (registeredAt_eq_some ht).1

private theorem checkTableId_eq_ok {t : TableRecord platform} {configured : Option Text} {locator : TableLocator} :
    checkTableId (some t) configured locator = .ok () ↔ ∀ i, configured = some i → i = t.tableId.text := by
  cases configured with
  | none => exact ⟨fun _ _ hi => (nomatch hi), fun _ => rfl⟩
  | some i =>
    refine raiseIf_eq_ok.trans ⟨fun h j hj => ?_, fun h => not_not.2 (h i rfl).symm⟩
    cases hj
    exact (not_not.1 h).symm

/-- The draft of a table that is registered with the columns of its dictionary. -/
private theorem resolveTable_again {t : TableRecord platform} (ht : registeredAt registry t.locator = some t)
    (hconfig : ∀ i, truthy (tableConfigOf lower configs table.locator).tableId = some i → i = t.tableId.text)
    (hlocator : parseLocator lower table.locator = .ok t.locator) {active retired : List ColumnRecord}
    (hcolumns : t.columns = active ++ retired) (hregistered : RegisteredAs active retired table.columns)
    (hunshadowed : NamesUnshadowed platform t.columns table.columns) :
    resolveTable lower newIds configs registry i table =
      .ok ⟨tableConfigOf lower configs table.locator, t.tableId.text, t.locator, table.description,
        (table.columns.zip active).map fun p => p.1.ir p.2.columnId, t.columns⟩ := by
  have hvalid : ColumnsValid platform t.columns := ⟨t.columnIds_nodup, t.columnNames_nodup⟩
  refine resolveTable_eq_ok.2 ⟨t.locator, (t.columns, (table.columns.zip active).map fun p => p.1.ir p.2.columnId),
    hlocator, ?_, ?_, ?_⟩
  · rw [ht]
    exact checkTableId_eq_ok.2 hconfig
  · rw [ht]
    show resolveColumns platform t.columns _ _ = _
    rw [hcolumns] at hvalid hunshadowed ⊢
    exact resolveColumns_again hvalid hregistered hunshadowed _
  · rw [ht]
    congr 1
    cases hid : truthy (tableConfigOf lower configs table.locator).tableId with
    | none => rfl
    | some i => exact (hconfig i hid).symm

/-- An unchanged table is allowed at its version. -/
private theorem buildTableRecord_again {t : TableRecord platform} (ht : registeredAt registry t.locator = some t)
    {draft : TableDraft} (hid : draft.tableId = t.tableId.text) (hconfig : draft.config.AsksNothing t)
    (hrecords : draft.columnRecords = t.columns) (hne : draft.columns ≠ [])
    (hhash : t.canonicalHash = some (draft.contentHash platform)) :
    ∃ built, buildTableRecord registry draft = .ok built ∧ built.2.2.changed = false ∧ built.2.2.outcome = .allow ∧
      built.1.version = t.version := by
  have hregistered := registered_of_registeredAt ht hid
  have hchanged : draft.changed (some t) = false := by simp [TableDraft.changed, hhash]
  have hproposed : draft.proposedVersion (some t) = t.version.val := by
    unfold TableDraft.proposedVersion
    rw [hchanged]
    cases hv : draft.config.version with
    | none => rfl
    | some v => exact congrArg Subtype.val (hconfig.version v hv)
  have hbase : draft.baseVersion (some t) = some t.version.val := by
    unfold TableDraft.baseVersion
    cases hv : draft.config.baseVersion with
    | none => rfl
    | some v => exact congrArg (fun v : Version => some v.val) (hconfig.baseVersion v hv)
  have hbounds : ∀ n ∈ some t.version.val, 1 ≤ n ∧ n ≤ 999 := by simpa using t.version.2
  have hir : ∃ ir, TableIR.make t.tableId t.version draft.locator draft.description draft.columns = .ok ir :=
    ⟨_, dif_pos hne⟩
  obtain ⟨ir, hir⟩ := hir
  have hbuilt : buildTableRecord registry draft =
      .ok (⟨t.tableId, draft.locator, t.version, .active, t.aliases, t.columns, some (schemaHash platform
        draft.physicalJson), some (draft.contentHash platform), t.columnIds_nodup, t.columnNames_nodup⟩, ir,
        versionDecision (some t.version.val) false (some t.version.val) (some t.version.val)) := by
    unfold buildTableRecord
    simp only [hregistered, hchanged, hproposed, hbase, hid, hrecords, Option.map_some, Option.getD_some,
      planVersion_of_bounds hbounds hbounds hbounds, ok_bind,
      TableRecord.make_of_valid t.tableId draft.locator t.version _ t.columnIds_nodup t.columnNames_nodup, hir]
    rfl
  exact ⟨_, hbuilt, rfl, versionDecision_allow_iff.2 ⟨rfl, by simp⟩, rfl⟩

/-- What a configuration may ask for when its unchanged table is allowed. -/
private theorem asksNothing_of_allow {t : TableRecord platform} {draft : TableDraft}
    (hid : ∀ i, truthy draft.config.tableId = some i → i = t.tableId.text)
    (hallow : (versionDecision (some t.version.val) false (draft.baseVersion (some t))
      (some (draft.proposedVersion (some t)))).outcome = .allow) : draft.config.AsksNothing t := by
  obtain ⟨hbase, hproposed⟩ := versionDecision_allow_iff.1 hallow
  have hproposed : draft.proposedVersion (some t) = t.version.val := by simpa using hproposed
  refine ⟨hid, fun v hv => ?_, fun v hv => ?_⟩
  · unfold TableDraft.proposedVersion at hproposed
    rw [hv] at hproposed
    exact Subtype.ext hproposed
  · unfold TableDraft.baseVersion at hbase
    rw [hv] at hbase
    exact Subtype.ext (Option.some_inj.1 hbase)

/-- A draft with the columns of another dictionary under the same identifiers. -/
def TableDraft.reread (draft : TableDraft) (columns : List DictionaryColumn) : TableDraft :=
  { draft with columns := (columns.zip draft.columns).map fun p => p.1.ir p.2.columnId }

/-- Two contents with different canonical texts have one hash. -/
def ContentCollision (platform : Platform) (draft draft' : TableDraft) : Prop :=
  draft.contentJson.canonicalText platform ≠ draft'.contentJson.canonicalText platform ∧
    draft.contentHash platform = draft'.contentHash platform

private theorem contentHash_eq_iff {draft draft' : TableDraft} :
    draft.contentHash platform = draft'.contentHash platform ↔
      draft.contentJson.canonicalText platform = draft'.contentJson.canonicalText platform ∨
        ContentCollision platform draft draft' := by
  constructor
  · intro h
    by_cases htext : draft.contentJson.canonicalText platform = draft'.contentJson.canonicalText platform
    · exact Or.inl htext
    · exact Or.inr ⟨htext, h⟩
  · intro h
    rcases h with htext | hcollision
    · exact congrArg sha256 htext
    · exact hcollision.2

private theorem reread_columns {draft : TableDraft} {columns columns' : List DictionaryColumn}
    {active : List ColumnRecord} (hcolumns : draft.columns = (columns.zip active).map fun p => p.1.ir p.2.columnId)
    (hlength : columns.length = active.length) :
    (draft.reread columns').columns = (columns'.zip active).map fun p => p.1.ir p.2.columnId := by
  unfold TableDraft.reread
  rw [hcolumns]
  refine List.ext_getElem (by simp [hlength]) fun k hk hk' => ?_
  simp [DictionaryColumn.ir]

private theorem RegisteredAs.sameDefinition {active retired : List ColumnRecord}
    {columns columns' : List DictionaryColumn} (h : RegisteredAs active retired columns)
    (hsame : List.Forall₂ SameDefinition columns columns') : RegisteredAs active retired columns' := by
  refine ⟨?_, h.retired⟩
  obtain ⟨hactive, -⟩ := h
  induction hsame generalizing active with
  | nil => exact hactive
  | cons hdefinition _ ih =>
    cases hactive with
    | cons hrecord hrest =>
      refine .cons ⟨?_, hrecord.2⟩ (ih hrest)
      rw [hdefinition]
      exact hrecord.1

/-- Processing a table again reports it unchanged exactly if no configuration asks for another identifier or version,
no alias shadows a name, and the columns were found at the same places of the same workbook, up to a collision. -/
theorem unchanged_again_iff (hp : platform.Documented)
    (hdraft : resolveTable lower newIds configs registry i table = .ok draft)
    (hbuilt : buildTableRecord registry draft = .ok built)
    (hregistered : registeredAt registry' built.1.locator = some built.1) (hsame : SameTable table table') :
    Unchanged lower newIds' configs' registry' i' table' built.1 ↔
      (tableConfigOf lower configs' table'.locator).AsksNothing built.1 ∧
        NamesUnshadowed platform built.1.columns table'.columns ∧
          (table.columns.map (evidenceText platform) = table'.columns.map (evidenceText platform) ∨
            ContentCollision platform draft (draft.reread table'.columns)) := by
  obtain ⟨locator, resolved, hlocator, -, hresolved, hdraftEq⟩ := resolveTable_eq_ok.1 hdraft
  obtain ⟨-, -, hbuiltLocator, -, -, hbuiltColumns, hbuiltHash, hne⟩ := buildTableRecord_eq_ok hbuilt
  obtain ⟨active, retired, hsplit, hactive, hirs⟩ := registeredAs_of_resolve hresolved
  have hdraftLocator : draft.locator = locator := by rw [hdraftEq]
  have hdraftColumns : draft.columns = (table.columns.zip active).map fun p => p.1.ir p.2.columnId := by
    rw [hdraftEq, ← hirs]
  have hcolumns : built.1.columns = active ++ retired := by
    rw [hbuiltColumns, hdraftEq]
    exact hsplit
  have hvalid : ColumnsValid platform built.1.columns := ⟨built.1.columnIds_nodup, built.1.columnNames_nodup⟩
  have hlength : table.columns.length = active.length := hactive.active.length_eq
  have hagain := hactive.sameDefinition hsame.columns
  have hparsed : parseLocator lower table'.locator = .ok built.1.locator := by
    rw [hsame.locator, hbuiltLocator, hdraftLocator]
    exact hlocator
  -- the draft of the second run, when it succeeds
  obtain ⟨next, hnext⟩ : ∃ next : TableDraft, next = ⟨tableConfigOf lower configs' table'.locator,
    built.1.tableId.text, built.1.locator, table'.description,
    (table'.columns.zip active).map fun p => p.1.ir p.2.columnId, built.1.columns⟩ := ⟨_, rfl⟩
  have hnextId : next.tableId = built.1.tableId.text := by rw [hnext]
  have hnextColumns : next.columns = (draft.reread table'.columns).columns := by
    rw [reread_columns hdraftColumns hlength, hnext]
  have hnextRegistered : next.registered registry' = some built.1 := registered_of_registeredAt hregistered hnextId
  have hnextNe : next.columns ≠ [] := by
    have hcount : next.columns.length = draft.columns.length := by
      rw [hnext, hdraftColumns]
      simp [hsame.columns.length_eq]
    rw [← List.length_pos_iff, hcount, List.length_pos_iff]
    exact hne
  have hcontent : next.contentJson = (draft.reread table'.columns).contentJson := by
    unfold TableDraft.contentJson
    rw [hnextColumns, hnext, hbuiltLocator, hsame.description, hdraftEq]
    rfl
  have hchanged : next.changed (some built.1) = false ↔
      table.columns.map (evidenceText platform) = table'.columns.map (evidenceText platform) ∨
        ContentCollision platform draft (draft.reread table'.columns) := by
    have hhash : next.changed (some built.1) = false ↔ draft.contentHash platform =
        (draft.reread table'.columns).contentHash platform := by
      unfold TableDraft.contentHash
      rw [← hcontent]
      simp [TableDraft.changed, hbuiltHash, TableDraft.contentHash]
    have htext := contentText_iff hp hsame.columns hlength
      (show (draft.reread table'.columns).locator = draft.locator from rfl) rfl hdraftColumns
      (reread_columns hdraftColumns hlength)
    rw [hhash, contentHash_eq_iff, htext]
  constructor
  · rintro ⟨draft', built', hdraft', hbuilt', hunchanged, hallow, -⟩
    obtain ⟨locator', resolved', hlocator', hcheck', hresolved', hdraftEq'⟩ := resolveTable_eq_ok.1 hdraft'
    cases hparsed.symm.trans hlocator'
    rw [hregistered] at hcheck' hresolved'
    have hresolved' : resolveColumns platform built.1.columns _ _ = .ok resolved' := hresolved'
    have hids := checkTableId_eq_ok.1 hcheck'
    have hrecords : built'.1.columns = resolved'.1 := by
      rw [(buildTableRecord_eq_ok hbuilt').2.2.2.2.2.1, hdraftEq']
    have hunshadowed : NamesUnshadowed platform built.1.columns table'.columns := by
      rw [hcolumns] at hvalid ⊢
      refine unshadowed_of_again hvalid hagain (hcolumns ▸ hresolved') ?_
      rw [← hrecords]
      exact built'.1.columnIds_nodup
    have hsecond : draft' = next :=
      Except.ok.inj (hdraft'.symm.trans (hnext ▸ resolveTable_again hregistered hids hparsed hcolumns hagain hunshadowed))
    subst hsecond
    have hdecision := (buildTableRecord_eq_ok hbuilt').1
    rw [hdecision, hnextRegistered, versionDecision_changed] at hunchanged
    rw [hdecision, hnextRegistered, hunchanged] at hallow
    refine ⟨?_, hunshadowed, hchanged.1 hunchanged⟩
    have hasks := asksNothing_of_allow (by rw [hnext]; exact hids) hallow
    rwa [hnext] at hasks
  · rintro ⟨hasks, hunshadowed, hsameContent⟩
    have hsecond : resolveTable lower newIds' configs' registry' i' table' = .ok next :=
      hnext ▸ resolveTable_again hregistered hasks.tableId hparsed hcolumns hagain hunshadowed
    have hhash : built.1.canonicalHash = some (next.contentHash platform) := by
      simpa [TableDraft.changed] using hchanged.2 hsameContent
    obtain ⟨built', hbuilt', hresult⟩ := buildTableRecord_again hregistered hnextId (by rw [hnext]; exact hasks)
      (by rw [hnext]) hnextNe hhash
    exact ⟨next, built', hsecond, hbuilt', hresult⟩

end Detection

/-! ### A table that another workbook repeats -/

/-- A table with one column, found in the given cells of a workbook. -/
private def ordersTable (workbook cells : Text) : DictionaryTable :=
  ⟨"wms|main|sales|orders".toList, none, [⟨1, "id".toList, by decide, none, "string".toList, false, true, none, none,
    none, none, ⟨sha256 workbook, .dictionaryExcel,
      [("sheet".toList, .str "Columns".toList), ("range".toList, .str cells)], some "id".toList⟩⟩]⟩

private def ordersIds : NewIds :=
  ⟨fun _ => ⟨"tbl_0198f6ca-2a11-78d1-8672-67d49e69f140".toList, Eq.refl true⟩,
    fun _ _ => ⟨"col_0198f6ca-2a11-78d1-8672-67d49e69f141".toList, Eq.refl true⟩,
    fun _ => ⟨"lnk_0198f6ca-2a11-78d1-8672-67d49e69f142".toList, Eq.refl true⟩⟩

private def processOrders (registry : Registry .ascii) (table : DictionaryTable) :
    PyResult (TableRecord .ascii × TableIR × VersionDecision) :=
  resolveTable id ordersIds [] registry 0 table >>= buildTableRecord registry

private def ordersRegistry (record : TableRecord .ascii) : Registry .ascii :=
  { Registry.new .ascii with tables := (Registry.new .ascii).tables.put record }

private theorem processOrders_first : ∃ built,
    processOrders (.new .ascii) (ordersTable ['a'] "A2:I2".toList) = .ok built ∧
      registeredAt (ordersRegistry built.1) built.1.locator = some built.1 ∧
        ∀ c ∈ built.1.columns, c.aliases = [] := by
  have hrun : (processOrders (.new .ascii) (ordersTable ['a'] "A2:I2".toList)).toOption.any
      (fun built => registeredAt (ordersRegistry built.1) built.1.locator = some built.1 ∧
        ∀ c ∈ built.1.columns, c.aliases = []) = true := by decide +kernel
  obtain ⟨built, hbuilt, hrest⟩ := exists_of_any_toOption hrun
  exact ⟨built, hbuilt, of_decide_eq_true hrest⟩

/-- The same table at the same place of a workbook with other bytes counts as changed. -/
theorem unchanged_again_workbook : ∃ built,
    processOrders (.new .ascii) (ordersTable ['a'] "A2:I2".toList) = .ok built ∧
      registeredAt (ordersRegistry built.1) built.1.locator = some built.1 ∧
        SameTable (ordersTable ['a'] "A2:I2".toList) (ordersTable ['b'] "A2:I2".toList) ∧
          ¬ Unchanged id ordersIds [] (ordersRegistry built.1) 0 (ordersTable ['b'] "A2:I2".toList) built.1 := by
  obtain ⟨built, hbuilt, hregistered, -⟩ := processOrders_first
  refine ⟨built, hbuilt, hregistered, ⟨rfl, rfl, .cons rfl .nil⟩, ?_⟩
  rintro ⟨draft, again, hdraft, hagain, hunchanged, -⟩
  have hrun : (processOrders (.new .ascii) (ordersTable ['a'] "A2:I2".toList) >>= fun built =>
      processOrders (ordersRegistry built.1) (ordersTable ['b'] "A2:I2".toList)).toOption.any
        (fun again => again.2.2.changed) = true := by decide +kernel
  have hsecond : processOrders (ordersRegistry built.1) (ordersTable ['b'] "A2:I2".toList) = .ok again :=
    bind_eq_ok.2 ⟨draft, hdraft, hagain⟩
  rw [hbuilt, ok_bind, hsecond] at hrun
  have hchanged : again.2.2.changed = true := hrun
  rw [hunchanged] at hchanged
  cases hchanged

/-- The same workbook leaves the table unchanged. -/
theorem unchanged_again_orders : ∃ built,
    processOrders (.new .ascii) (ordersTable ['a'] "A2:I2".toList) = .ok built ∧
      Unchanged id ordersIds [] (ordersRegistry built.1) 0 (ordersTable ['a'] "A2:I2".toList) built.1 := by
  obtain ⟨built, hbuilt, hregistered, haliases⟩ := processOrders_first
  obtain ⟨draft, hdraft, hrecord⟩ := bind_eq_ok.1 hbuilt
  refine ⟨built, hbuilt, (unchanged_again_iff Json.documented_ascii hdraft hrecord hregistered
    ⟨rfl, rfl, .cons rfl .nil⟩).2 ⟨⟨?_, ?_, ?_⟩, ?_, Or.inl rfl⟩⟩
  · intro i hi
    cases hi
  · intro v hv
    cases hv
  · intro v hv
    cases hv
  · intro column _ before c after hsplit _ _ e he
    rw [haliases e (hsplit ▸ List.mem_append_left _ he)]
    exact List.not_mem_nil

end ArdOssie
