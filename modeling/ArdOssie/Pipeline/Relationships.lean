import ArdOssie.Library.KeyedList
import ArdOssie.Pipeline.NamedRecords
import ArdOssie.Pipeline.Process

/-!
# Relationships

A column that names its foreign key becomes a relationship to the table and the column that the name resolves to.  The
relationship is named after both ends; by this name it is matched with the records of the product, and the records
that no relationship matches are retired.
-/

namespace ArdOssie

structure RelationshipIR where
  relationshipId : RelationshipId
  name : Text
  fromTableId : Text
  toTableId : Text
  fromColumns : List Text
  toColumns : List Text
  evidence : List Evidence

/-- A foreign key with its ends. -/
structure ForeignKey where
  source : TableDraft
  column : ColumnIR
  target : TableDraft
  targetColumn : ColumnIR

/-- The name of the relationship of a foreign key. -/
def ForeignKey.name (k : ForeignKey) : Text :=
  k.source.locator.tableName.text ++ '_' :: (k.column.name ++ "_to_".toList ++
    (k.target.locator.tableName.text ++ '_' :: k.targetColumn.name))

/-- The variables of the loops of `_build_relationships`. -/
structure RelationshipState where
  recordsById : KeyedList fun r : RelationshipRecord => r.id
  relationships : List RelationshipIR
  findings : List QualityFinding

/-- `value.rsplit(".", 1)`, when the value has a dot. -/
def rsplitDot (value : Text) : Option (Text × Text) :=
  let last := value.reverse.takeWhile (· ≠ '.')
  if last.length = value.length then none else some ((value.reverse.drop (last.length + 1)).reverse, last.reverse)

/-- The names that a foreign key may give to a table. -/
def TableDraft.targetNames (draft : TableDraft) : List Text :=
  [draft.locator.tableName.text, draft.locator.catalog.text ++ '.' :: (draft.locator.schemaName.text ++ '.' ::
    draft.locator.tableName.text), draft.locator.key].eraseDups

section Build

variable (platform : Platform)

/-- `target_names.get(key, [])` -/
def targetsOf (drafts : List TableDraft) (key : Text) : List TableDraft :=
  drafts.flatMap fun draft => (draft.targetNames.filter fun name => platform.casefold name = key).map fun _ => draft

/-- The target of the foreign key of a column, or the finding that there is none. -/
def resolveForeignKey (drafts : List TableDraft) (source : TableDraft) (column : ColumnIR) :
    Option (Except QualityFinding ForeignKey) :=
  let path := "tables.".toList ++ source.tableId ++ ".columns.".toList ++ column.columnId.text ++ ".foreign_key".toList
  match truthy column.foreignKey with
  | none => none
  | some foreignKey => some <|
    let notFound : QualityFinding := ⟨"FOREIGN_KEY_TARGET_NOT_FOUND",
      "Foreign key target is not in this product: ".toList ++ foreignKey, some path⟩
    match rsplitDot foreignKey with
    | none => .error ⟨"FOREIGN_KEY_FORMAT_INVALID", "Foreign key must be table.column: ".toList ++ foreignKey, some path⟩
    | some (targetName, targetColumnName) =>
      match targetsOf platform drafts (platform.casefold targetName) with
      | _ :: _ :: _ => .error ⟨"FOREIGN_KEY_TARGET_AMBIGUOUS",
          "Foreign key target must use a qualified table name: ".toList ++ foreignKey, some path⟩
      | [] => .error notFound
      | [target] =>
        match target.columns.find? fun item => platform.casefold item.name = platform.casefold targetColumnName with
        | none => .error notFound
        | some targetColumn => .ok ⟨source, column, target, targetColumn⟩

/-- The record that a foreign key matches is retired. -/
def MatchesRetired (existing : List RelationshipRecord) (k : ForeignKey) : Prop :=
  ∃ m ∈ answeringRecord platform existing k.name, m.status = .retired

instance decidableMatchesRetired (existing : List RelationshipRecord) (k : ForeignKey) :
    Decidable (MatchesRetired platform existing k) := inferInstanceAs (Decidable (∃ m ∈ _, _))

/-- The fields of a relationship that fail its validation. -/
def malformedEnds (k : ForeignKey) : List String :=
  ([("from_table_id", k.source.tableId), ("to_table_id", k.target.tableId)].filter fun p =>
    (EntityId.parse "tbl_" p.2).isNone).map Prod.fst

/-- One round of the loops of `_build_relationships`. -/
def buildRelationship (drafts : List TableDraft) (existing : List RelationshipRecord) (s : RelationshipState)
    (source : TableDraft) (column : ColumnIR) (newId : RelationshipId) : PyResult RelationshipState :=
  match resolveForeignKey platform drafts source column with
  | none => .ok s
  | some (.error finding) => .ok { s with findings := s.findings ++ [finding] }
  | some (.ok k) =>
    let matched := answeringRecord platform existing k.name
    if MatchesRetired platform existing k then
      .ok { s with findings := s.findings ++ [⟨"RETIRED_RELATIONSHIP_REUSE",
        "Retired relationship ID cannot be reused: ".toList ++ (matched.map fun m => m.id.text).getD [], none⟩] }
    else do
      let record := reconciledRecord platform existing k.name newId
      raiseIf (malformedEnds k ≠ []) (.validationError (malformedEnds k))
      return { s with
        recordsById := s.recordsById.put record
        relationships := s.relationships ++ [⟨record.id, k.name, k.source.tableId, k.target.tableId, [k.column.name],
          [k.targetColumn.name], k.column.evidence⟩] }

/-- The columns of the drafts, each with its table. -/
def draftColumns (drafts : List TableDraft) : List ((TableDraft × ColumnIR) × ℕ) :=
  (drafts.flatMap fun draft => draft.columns.map fun column => (draft, column)).zipIdx

/-- `_build_relationships`; `newId i` is the identifier that `new_id` gives for the column `i` of all columns. -/
def buildRelationships (drafts : List TableDraft) (existingProduct : Option (ProductRecord platform))
    (newId : ℕ → RelationshipId) : PyResult (List RelationshipIR × List RelationshipRecord × List QualityFinding) := do
  let existing := (existingProduct.map fun p => p.relationships).getD []
  let s ← (draftColumns drafts).foldlM
    (fun s p => buildRelationship platform drafts existing s p.1.1 p.1.2 (newId p.2)) ⟨KeyedList.empty _, [], []⟩
  let retired := (existing.filter fun r => r.id ∉ s.recordsById.items.map NamedRecord.id).map
    fun r => { r with status := .retired }
  return (sortBy (fun r => r.relationshipId) s.relationships, sortBy (fun r => r.id) (s.recordsById.items ++ retired),
    s.findings)

/-- The foreign keys that become relationships, each with the place of its column. -/
def resolvedKeys (drafts : List TableDraft) (existing : List RelationshipRecord)
    (columns : List ((TableDraft × ColumnIR) × ℕ)) : List (ForeignKey × ℕ) :=
  columns.filterMap fun p =>
    match resolveForeignKey platform drafts p.1.1 p.1.2 with
    | some (.ok k) => if MatchesRetired platform existing k then none else some (k, p.2)
    | _ => none

end Build

/-! ### A run of the loops -/

section Run

variable {platform : Platform} {drafts : List TableDraft} {existing : List RelationshipRecord}
  {newId : ℕ → RelationshipId}

/-- The names of the foreign keys, with the identifiers for new records. -/
private def keyNames (newId : ℕ → RelationshipId) (keys : List (ForeignKey × ℕ)) : List (Text × RelationshipId) :=
  keys.map fun k => (k.1.name, newId k.2)

/-- What the loops have written. -/
private structure RelationshipRun (platform : Platform) (existing : List RelationshipRecord)
    (assigned : List (Text × RelationshipId)) (s s' : RelationshipState) : Prop where
  records : s'.recordsById = (assigned.map fun a => reconciledRecord platform existing a.1 a.2).foldl
    KeyedList.put s.recordsById
  ids : s'.relationships.map (·.relationshipId) =
    s.relationships.map (·.relationshipId) ++ assigned.map fun a => (reconciledRecord platform existing a.1 a.2).id
  names : s'.relationships.map (·.name) = s.relationships.map (·.name) ++ assigned.map Prod.fst

private theorem filterMap_one {α β : Type} (f : α → Option β) (a : α) : [a].filterMap f = (f a).toList := by
  cases h : f a with
  | none => simp [h]
  | some b => simp [h]

private theorem relationshipRun_step {s s' : RelationshipState} {p : (TableDraft × ColumnIR) × ℕ}
    (h : buildRelationship platform drafts existing s p.1.1 p.1.2 (newId p.2) = .ok s') :
    RelationshipRun platform existing (keyNames newId (resolvedKeys platform drafts existing [p])) s s' := by
  have hkeys : resolvedKeys platform drafts existing [p] =
      (match resolveForeignKey platform drafts p.1.1 p.1.2 with
        | some (.ok k) => if MatchesRetired platform existing k then none else some (k, p.2)
        | _ => none).toList := filterMap_one _ _
  rw [hkeys]
  unfold buildRelationship at h
  split at h
  · next hnone =>
    cases h
    rw [hnone]
    exact ⟨rfl, by simp [keyNames], by simp [keyNames]⟩
  · next hfinding =>
    cases h
    rw [hfinding]
    exact ⟨rfl, by simp [keyNames], by simp [keyNames]⟩
  · next k hkey =>
    rw [hkey]
    dsimp only at h ⊢
    split at h
    · next hretired =>
      cases h
      rw [if_pos hretired]
      exact ⟨rfl, by simp [keyNames], by simp [keyNames]⟩
    · next hactive =>
      obtain ⟨-, h⟩ := raiseIf_bind_eq_ok.1 h
      cases pure_eq_ok.1 h
      rw [if_neg hactive]
      exact ⟨rfl, by simp [keyNames], by simp [keyNames]⟩

private theorem relationshipRun_append {l l' : List (Text × RelationshipId)} {s s₁ s' : RelationshipState}
    (h : RelationshipRun platform existing l s s₁) (h' : RelationshipRun platform existing l' s₁ s') :
    RelationshipRun platform existing (l ++ l') s s' := by
  refine ⟨?_, ?_, ?_⟩
  · rw [h'.records, h.records, List.map_append, List.foldl_append]
  · rw [h'.ids, h.ids, List.map_append, List.append_assoc]
  · rw [h'.names, h.names, List.map_append, List.append_assoc]

private theorem relationshipRun_of_foldlM {columns : List ((TableDraft × ColumnIR) × ℕ)} {s s' : RelationshipState}
    (h : columns.foldlM (fun s p => buildRelationship platform drafts existing s p.1.1 p.1.2 (newId p.2)) s = .ok s') :
    RelationshipRun platform existing (keyNames newId (resolvedKeys platform drafts existing columns)) s s' := by
  induction columns generalizing s with
  | nil =>
    cases pure_eq_ok.1 h
    exact ⟨rfl, by simp [resolvedKeys, keyNames], by simp [resolvedKeys, keyNames]⟩
  | cons p columns ih =>
    rw [List.foldlM_cons] at h
    obtain ⟨s₁, hstep, hrest⟩ := bind_eq_ok.1 h
    have happend : keyNames newId (resolvedKeys platform drafts existing (p :: columns)) =
        keyNames newId (resolvedKeys platform drafts existing [p]) ++
          keyNames newId (resolvedKeys platform drafts existing columns) := by
      unfold keyNames resolvedKeys
      rw [← List.map_append, ← List.filterMap_append, List.singleton_append]
    rw [happend]
    exact relationshipRun_append (relationshipRun_step hstep) (ih hrest)

end Run

/-! ### The reconciled relationships -/

section Reconciled

variable {platform : Platform} {drafts : List TableDraft} {existingProduct : Option (ProductRecord platform)}
  {newId : ℕ → RelationshipId} {built : List RelationshipIR × List RelationshipRecord × List QualityFinding}

/-- The relationships of the existing product. -/
def existingRelationships (existingProduct : Option (ProductRecord platform)) : List RelationshipRecord :=
  (existingProduct.map fun p => p.relationships).getD []

/-- Two relationships with other ends. -/
def RelationshipIR.Differs (r r' : RelationshipIR) : Prop :=
  r.fromTableId ≠ r'.fromTableId ∨ r.fromColumns ≠ r'.fromColumns ∨ r.toTableId ≠ r'.toTableId ∨
    r.toColumns ≠ r'.toColumns

/-- The relationships are the active records, every existing record is there, and relationships with other ends have
other identifiers and names, so that the records are valid. -/
structure RelationshipsReconciled (platform : Platform) (existing : List RelationshipRecord)
    (relationships : List RelationshipIR) (records : List RelationshipRecord) : Prop where
  distinct : (relationships.map (·.relationshipId)).Nodup
  active : ∀ i, i ∈ relationships.map (·.relationshipId) ↔ ∃ r ∈ records, r.id = i ∧ r.status = .active
  kept : ∀ e ∈ existing, ∃ r ∈ records, r.id = e.id ∧
    r.status = if e.id ∈ relationships.map (·.relationshipId) then .active else .retired
  separate : ∀ r ∈ relationships, ∀ r' ∈ relationships, r.Differs r' →
    r.relationshipId ≠ r'.relationshipId ∧ platform.casefold r.name ≠ platform.casefold r'.name
  unique : NamedIdsUnique platform records

/-- The foreign keys have different names and match different records, and a name that a record takes over is given up
by its record. -/
structure KeysSeparate (platform : Platform) (existing : List RelationshipRecord) (keys : List ForeignKey) : Prop where
  names : (keys.map fun k => platform.casefold k.name).Nodup
  records : (keys.filterMap fun k => answeringRecord platform existing k.name).Nodup
  replaced : NamesReplaced platform existing (keys.map ForeignKey.name)

theorem existingRelationships_unique : NamedIdsUnique platform (existingRelationships existingProduct) := by
  cases existingProduct with
  | none => exact ⟨List.nodup_nil, List.nodup_nil⟩
  | some p => exact p.relationships_unique

/-- The records that `_build_relationships` returns, before they are sorted. -/
private def withRetired (existing : List RelationshipRecord) (d : KeyedList fun r : RelationshipRecord => r.id) :
    List RelationshipRecord :=
  d.items ++ (existing.filter fun r => r.id ∉ d.items.map NamedRecord.id).map fun r => { r with status := .retired }

section Written

variable {existing : List RelationshipRecord} {assigned : List (Text × RelationshipId)}

/-- The records that the loops write. -/
private def written (platform : Platform) (existing : List RelationshipRecord)
    (assigned : List (Text × RelationshipId)) : KeyedList fun r : RelationshipRecord => r.id :=
  (assigned.map fun a => reconciledRecord platform existing a.1 a.2).foldl KeyedList.put (KeyedList.empty _)

private theorem mem_written_ids {i : RelationshipId} : i ∈ (written platform existing assigned).items.map NamedRecord.id ↔
    ∃ a ∈ assigned, (reconciledRecord platform existing a.1 a.2).id = i := by
  unfold written
  rw [show (NamedRecord.id : RelationshipRecord → RelationshipId) = fun r => r.id from rfl,
    KeyedList.mem_keys_foldl_put]
  simp

private theorem mem_written {r : RelationshipRecord} (h : r ∈ (written platform existing assigned).items) :
    ∃ a ∈ assigned, r = reconciledRecord platform existing a.1 a.2 := by
  rcases KeyedList.mem_foldl_put.1 h with ⟨before, after, hsplit, -⟩ | ⟨hr, -⟩
  · have hmem : r ∈ assigned.map fun a => reconciledRecord platform existing a.1 a.2 := by rw [hsplit]; simp
    obtain ⟨a, ha, rfl⟩ := List.mem_map.1 hmem
    exact ⟨a, ha, rfl⟩
  · exact absurd hr List.not_mem_nil

private theorem mem_withRetired {d : KeyedList fun r : RelationshipRecord => r.id} {r : RelationshipRecord} :
    r ∈ withRetired existing d ↔ r ∈ d.items ∨
      ∃ e ∈ existing, e.id ∉ d.items.map NamedRecord.id ∧ r = { e with status := .retired } := by
  unfold withRetired
  simp only [List.mem_append, List.mem_map, List.mem_filter, decide_eq_true_eq, and_assoc]
  refine or_congr_right (exists_congr fun e => and_congr_right fun _ => and_congr_right fun _ => eq_comm)

private theorem nodup_withRetired {d : KeyedList fun r : RelationshipRecord => r.id}
    (hids : (existing.map NamedRecord.id).Nodup) : ((withRetired existing d).map NamedRecord.id).Nodup := by
  unfold withRetired
  rw [List.map_append, List.map_map]
  refine List.Nodup.append d.nodup (hids.sublist (List.filter_sublist.map _)) ?_
  intro i hi hi'
  obtain ⟨e, he, rfl⟩ := List.mem_map.1 hi'
  exact of_decide_eq_true (List.mem_filter.1 he).2 hi

private theorem reconciled_withRetired :
    Reconciled platform existing assigned (withRetired existing (written platform existing assigned)) := by
  intro i name
  rw [← exists_last_written_iff]
  constructor
  · rintro ⟨r, hr, hid, hname⟩
    rcases mem_withRetired.1 hr with hr | ⟨e, he, hnone, rfl⟩
    · rcases KeyedList.mem_foldl_put.1 hr with hlast | ⟨hr, -⟩
      · exact Or.inl ⟨r, hlast, hid, hname⟩
      · exact absurd hr List.not_mem_nil
    · exact Or.inr ⟨e, he, hid, hname, fun a ha h => hnone (mem_written_ids.2 ⟨a, ha, h.trans hid.symm⟩)⟩
  · rintro (⟨r, hlast, hid, hname⟩ | ⟨e, he, rfl, rfl, hnone⟩)
    · exact ⟨r, mem_withRetired.2 (Or.inl (KeyedList.mem_foldl_put.2 (Or.inl hlast))), hid, hname⟩
    · refine ⟨_, mem_withRetired.2 (Or.inr ⟨e, he, fun hmem => ?_, rfl⟩), rfl, rfl⟩
      obtain ⟨a, ha, hid⟩ := mem_written_ids.1 hmem
      exact hnone a ha hid

end Written

private theorem resolvedKeys_snd {existing : List RelationshipRecord} (columns : List ((TableDraft × ColumnIR) × ℕ)) :
    ((resolvedKeys platform drafts existing columns).map Prod.snd).Sublist (columns.map Prod.snd) := by
  induction columns with
  | nil => exact List.Sublist.refl _
  | cons p columns ih =>
    unfold resolvedKeys at ih ⊢
    rw [List.filterMap_cons, List.map_cons]
    split
    · exact ih.cons _
    · next q hq =>
      have hsnd : q.2 = p.2 := by
        split at hq
        · split at hq
          · cases hq
          · cases hq
            rfl
        · cases hq
      rw [List.map_cons, hsnd]
      exact ih.cons_cons _

private theorem keyNames_fresh {existing : List RelationshipRecord}
    (hfresh : FreshIds existing ((List.range (draftColumns drafts).length).map newId)) :
    FreshIds existing ((keyNames newId (resolvedKeys platform drafts existing (draftColumns drafts))).map Prod.snd) := by
  have hrange : (draftColumns drafts).map Prod.snd = List.range (draftColumns drafts).length := by
    unfold draftColumns
    rw [List.zipIdx_map_snd, List.range_eq_range', List.length_zipIdx]
  have hsub : ((keyNames newId (resolvedKeys platform drafts existing (draftColumns drafts))).map Prod.snd).Sublist
      ((List.range (draftColumns drafts).length).map newId) := by
    unfold keyNames
    rw [List.map_map, ← hrange, List.map_map]
    have h : (((resolvedKeys platform drafts existing (draftColumns drafts)).map Prod.snd).map newId).Sublist
        (((draftColumns drafts).map Prod.snd).map newId) := (resolvedKeys_snd _).map newId
    rwa [List.map_map, List.map_map] at h
  exact ⟨hfresh.nodup.sublist hsub, fun i hi => hfresh.unused i (hsub.subset hi)⟩

private theorem reconciled_of_perm {existing : List RelationshipRecord} {relationships relationships' : List RelationshipIR}
    {records records' : List RelationshipRecord} (hrelationships : relationships.Perm relationships')
    (hrecords : records.Perm records') (h : RelationshipsReconciled platform existing relationships records) :
    RelationshipsReconciled platform existing relationships' records' := by
  have hmem : ∀ i, i ∈ relationships'.map (·.relationshipId) ↔ i ∈ relationships.map (·.relationshipId) := fun i =>
    (hrelationships.map _).mem_iff.symm
  refine ⟨(hrelationships.map _).nodup_iff.1 h.distinct, ?_, ?_, ?_,
    (hrecords.map _).nodup_iff.1 h.unique.1, (hrecords.map _).nodup_iff.1 h.unique.2⟩
  · intro i
    simp only [hmem, h.active, hrecords.mem_iff]
  · intro e he
    simp only [hmem, ← hrecords.mem_iff]
    exact h.kept e he
  · intro r hr r' hr'
    exact h.separate r (hrelationships.mem_iff.2 hr) r' (hrelationships.mem_iff.2 hr')

section Core

variable {existing : List RelationshipRecord} {assigned : List (Text × RelationshipId)}
  {relationships : List RelationshipIR}

private theorem keys_of_reconciled (hunique : NamedIdsUnique platform existing)
    (hnew : FreshIds existing (assigned.map Prod.snd))
    (hids : relationships.map (·.relationshipId) =
      assigned.map fun a => (reconciledRecord platform existing a.1 a.2).id)
    (h : RelationshipsReconciled platform existing relationships
      (withRetired existing (written platform existing assigned))) :
    (assigned.map fun a => platform.casefold a.1).Nodup ∧
      (assigned.filterMap fun a => answeringRecord platform existing a.1).Nodup ∧
        NamesReplaced platform existing (assigned.map Prod.fst) := by
  have hdistinct : ((assigned.map fun a => reconciledRecord platform existing a.1 a.2).map NamedRecord.id).Nodup := by
    rw [List.map_map]
    exact hids ▸ h.distinct
  -- every written record stays, so that its name differs from the others
  have hstays : ∀ a ∈ assigned, reconciledRecord platform existing a.1 a.2 ∈
      withRetired existing (written platform existing assigned) := by
    intro a ha
    have hid : (reconciledRecord platform existing a.1 a.2).id ∈
        (written platform existing assigned).items.map NamedRecord.id := mem_written_ids.2 ⟨a, ha, rfl⟩
    obtain ⟨r, hr, hrid⟩ := List.mem_map.1 hid
    obtain ⟨a', ha', rfl⟩ := mem_written hr
    have heq := List.inj_on_of_nodup_map hdistinct (List.mem_map_of_mem ha') (List.mem_map_of_mem ha) hrid
    rw [← heq]
    exact mem_withRetired.2 (Or.inl hr)
  have hnames : (assigned.map fun a => platform.casefold a.1).Nodup := by
    have hwritten : ((assigned.map fun a => reconciledRecord platform existing a.1 a.2).map
        fun r => platform.casefold r.name).Nodup := by
      refine hdistinct.of_map.map_on ?_
      intro r hr r' hr' hname
      obtain ⟨a, ha, rfl⟩ := List.mem_map.1 hr
      obtain ⟨a', ha', rfl⟩ := List.mem_map.1 hr'
      exact List.inj_on_of_nodup_map h.unique.2 (hstays a ha) (hstays a' ha') hname
    simpa only [List.map_map, Function.comp_def, reconciledRecord_name] using hwritten
  exact ⟨hnames, (nodup_writtenIds_iff hunique.1 hnew).1 hdistinct,
    (nodup_names_iff hunique hnew hnames h.unique.1 reconciled_withRetired).1 h.unique.2⟩

private theorem reconciled_of_keys (hunique : NamedIdsUnique platform existing)
    (hnew : FreshIds existing (assigned.map Prod.snd))
    (hids : relationships.map (·.relationshipId) =
      assigned.map fun a => (reconciledRecord platform existing a.1 a.2).id)
    (hnames : relationships.map (·.name) = assigned.map Prod.fst)
    (hkeys : (assigned.map fun a => platform.casefold a.1).Nodup)
    (hmatched : (assigned.filterMap fun a => answeringRecord platform existing a.1).Nodup)
    (hreplaced : NamesReplaced platform existing (assigned.map Prod.fst)) :
    RelationshipsReconciled platform existing relationships
      (withRetired existing (written platform existing assigned)) := by
  have hdistinct : (relationships.map (·.relationshipId)).Nodup := by
    have h := (nodup_writtenIds_iff hunique.1 hnew).2 hmatched
    rw [List.map_map] at h
    exact hids ▸ h
  have hmem : ∀ i, i ∈ relationships.map (·.relationshipId) ↔
      i ∈ (written platform existing assigned).items.map NamedRecord.id := by
    intro i
    rw [hids, mem_written_ids, List.mem_map]
  have hcasefold : (relationships.map fun r => platform.casefold r.name).Nodup := by
    have h : relationships.map (fun r => platform.casefold r.name) = assigned.map fun a => platform.casefold a.1 := by
      have hmap := congrArg (List.map platform.casefold) hnames
      simpa only [List.map_map, Function.comp_def] using hmap
    rw [h]
    exact hkeys
  refine ⟨hdistinct, ?_, ?_, ?_, nodup_withRetired hunique.1,
    (nodup_names_iff hunique hnew hkeys (nodup_withRetired hunique.1) reconciled_withRetired).2 hreplaced⟩
  · intro i
    rw [hmem]
    constructor
    · intro hi
      obtain ⟨r, hr, rfl⟩ := List.mem_map.1 hi
      obtain ⟨a, ha, rfl⟩ := mem_written hr
      exact ⟨_, mem_withRetired.2 (Or.inl hr), rfl, reconciledRecord_status⟩
    · rintro ⟨r, hr, rfl, hstatus⟩
      rcases mem_withRetired.1 hr with hr | ⟨e, -, -, rfl⟩
      · exact List.mem_map_of_mem hr
      · cases hstatus
  · intro e he
    by_cases hwritten : e.id ∈ (written platform existing assigned).items.map NamedRecord.id
    · obtain ⟨r, hr, hrid⟩ := List.mem_map.1 hwritten
      obtain ⟨a, ha, rfl⟩ := mem_written hr
      rw [if_pos ((hmem e.id).2 hwritten)]
      exact ⟨_, mem_withRetired.2 (Or.inl hr), hrid, reconciledRecord_status⟩
    · rw [if_neg fun h => hwritten ((hmem e.id).1 h)]
      exact ⟨_, mem_withRetired.2 (Or.inr ⟨e, he, hwritten, rfl⟩), rfl, rfl⟩
  · intro r hr r' hr' hdiffers
    have hne : r ≠ r' := by
      rintro rfl
      unfold RelationshipIR.Differs at hdiffers
      simp at hdiffers
    exact ⟨fun h => hne (List.inj_on_of_nodup_map hdistinct hr hr' h),
      fun h => hne (List.inj_on_of_nodup_map hcasefold hr hr' h)⟩

end Core

/-- The relationships are reconciled exactly when the foreign keys are separate. -/
theorem buildRelationships_iff (h : buildRelationships platform drafts existingProduct newId = .ok built)
    (hfresh : FreshIds (existingRelationships existingProduct) ((List.range (draftColumns drafts).length).map newId)) :
    RelationshipsReconciled platform (existingRelationships existingProduct) built.1 built.2.1 ↔
      KeysSeparate platform (existingRelationships existingProduct)
        ((resolvedKeys platform drafts (existingRelationships existingProduct) (draftColumns drafts)).map Prod.fst) := by
  have hunique : NamedIdsUnique platform (existingRelationships existingProduct) := existingRelationships_unique
  unfold buildRelationships at h
  rw [← existingRelationships] at h
  obtain ⟨s, hs, h⟩ := bind_eq_ok.1 h
  cases pure_eq_ok.1 h
  have hrun := relationshipRun_of_foldlM hs
  have hnew : FreshIds _ ((keyNames newId (resolvedKeys platform drafts (existingRelationships existingProduct)
      (draftColumns drafts))).map Prod.snd) := keyNames_fresh hfresh
  have hrecords : s.recordsById.items ++ _ = withRetired (existingRelationships existingProduct) _ :=
    congrArg (withRetired (existingRelationships existingProduct)) hrun.records
  rw [hrecords]
  constructor
  · intro hreconciled
    obtain ⟨hnames, hmatched, hreplaced⟩ := keys_of_reconciled hunique hnew hrun.ids
      (reconciled_of_perm (sortBy_perm _ _) (sortBy_perm _ _) hreconciled)
    unfold keyNames at hnames hmatched hreplaced
    refine ⟨?_, ?_, ?_⟩
    · simpa only [List.map_map, Function.comp_def] using hnames
    · simpa only [List.filterMap_map, Function.comp_def] using hmatched
    · simpa only [List.map_map, Function.comp_def] using hreplaced
  · rintro ⟨hnames, hmatched, hreplaced⟩
    refine reconciled_of_perm (sortBy_perm _ _).symm (sortBy_perm _ _).symm
      (reconciled_of_keys hunique hnew hrun.ids hrun.names ?_ ?_ ?_)
    · unfold keyNames
      simpa only [List.map_map, Function.comp_def] using hnames
    · unfold keyNames
      simpa only [List.filterMap_map, Function.comp_def] using hmatched
    · unfold keyNames
      simpa only [List.map_map, Function.comp_def] using hreplaced

end Reconciled

/-! ### Orders of two schemas -/

private def orderColumn (name : String) (foreignKey : Option Text) : ColumnIR :=
  ⟨⟨"col_0198f6ca-2a11-78d1-8672-67d49e69f170".toList, by decide⟩, 1, name.toList, none, "string".toList, false, false,
    false, none, foreignKey, none, none, [], [⟨sha256 [], .dictionaryExcel, [], none⟩]⟩

private def schemaDraft (tableId : String) (schemaName tableName : LocatorPart) (columns : List ColumnIR) : TableDraft where
  config := .default []
  tableId := tableId.toList
  locator := ⟨.wms, .main, schemaName, tableName⟩
  description := none
  columns := columns
  columnRecords := []

private def ordersPart : LocatorPart := .orders

private def customersPart : LocatorPart := ⟨"customers".toList, by decide, by decide⟩

/-- The customers, and the orders of the given schemas that refer to them. -/
def customerOrders (schemas : List (String × LocatorPart)) : List TableDraft :=
  (schemas.map fun s => schemaDraft s.1 s.2 ordersPart [orderColumn "customer_id" (some "customers.id".toList)]) ++
    [schemaDraft "tbl_0198f6ca-2a11-78d1-8672-67d49e69f171" customersPart customersPart [orderColumn "id" none]]

private def salesOrders : String × LocatorPart :=
  ("tbl_0198f6ca-2a11-78d1-8672-67d49e69f172", .sales)

private def storeOrders : String × LocatorPart :=
  ("tbl_0198f6ca-2a11-78d1-8672-67d49e69f173", ⟨"stores".toList, by decide, by decide⟩)

private def orderIds (i : ℕ) : RelationshipId :=
  if i = 0 then ⟨"rel_0198f6ca-2a11-78d1-8672-67d49e69f174".toList, by decide⟩
  else ⟨"rel_0198f6ca-2a11-78d1-8672-67d49e69f175".toList, by decide⟩

/-- Orders with a customer and a payer, who are both customers. -/
def paidOrders : List TableDraft :=
  [schemaDraft "tbl_0198f6ca-2a11-78d1-8672-67d49e69f172" .sales ordersPart
      [orderColumn "customer_id" (some "customers.id".toList), orderColumn "payer_id" (some "customers.id".toList)],
    schemaDraft "tbl_0198f6ca-2a11-78d1-8672-67d49e69f171" customersPart customersPart [orderColumn "id" none]]

/-- The relationship of the customer under an older name, and one that is no longer there. -/
private def knownRelationships : List RelationshipRecord :=
  [⟨⟨"rel_0198f6ca-2a11-78d1-8672-67d49e69f176".toList, by decide⟩, "orders_of_customers".toList,
      ["orders_customer_id_to_customers_id".toList], .active⟩,
    ⟨⟨"rel_0198f6ca-2a11-78d1-8672-67d49e69f177".toList, by decide⟩, "orders_clerk_id_to_clerks_id".toList, [], .active⟩]

private def knownProduct : ProductRecord .ascii :=
  ⟨⟨"prd_0198f6c2-8ac7-7f31-a48e-1c3d82e9a63b".toList, by decide⟩, ⟨"sales-order".toList, by decide⟩, ⟨1, one_isVersion⟩,
    .active, none, [], none, [], knownRelationships, namedIdsUnique_nil, by decide⟩

private def columnIds (i : ℕ) : RelationshipId :=
  if i = 2 then ⟨"rel_0198f6ca-2a11-78d1-8672-67d49e69f178".toList, by decide⟩ else orderIds i

theorem buildRelationships_iff_sales : ∃ built,
    buildRelationships .ascii paidOrders (some knownProduct) columnIds = .ok built ∧ built.1.length = 2 ∧
      built.2.1.length = 3 ∧
      (RelationshipsReconciled .ascii knownRelationships built.1 built.2.1 ↔
        KeysSeparate .ascii knownRelationships ((resolvedKeys .ascii paidOrders knownRelationships
          (draftColumns paidOrders)).map Prod.fst)) := by
  have hrun : (buildRelationships .ascii paidOrders (some knownProduct) columnIds).toOption.any
      (fun built => built.1.length = 2 ∧ built.2.1.length = 3) = true := by decide +kernel
  obtain ⟨built, hbuilt, hlengths⟩ := exists_of_any_toOption hrun
  obtain ⟨hrelationships, hrecords⟩ := of_decide_eq_true hlengths
  exact ⟨built, hbuilt, hrelationships, hrecords, buildRelationships_iff hbuilt ⟨by decide, by decide⟩⟩

/-- Two tables of one name in different schemas that refer to the same column: their relationships have one name. -/
theorem schemas_share_name : ∃ built,
    buildRelationships .ascii (customerOrders [salesOrders, storeOrders]) none orderIds = .ok built ∧
      built.1.length = 2 ∧ ¬ RelationshipsReconciled .ascii [] built.1 built.2.1 := by
  have hrun : (buildRelationships .ascii (customerOrders [salesOrders, storeOrders]) none orderIds).toOption.any
      (fun built => built.1.length = 2 ∧ ¬ NamedIdsUnique .ascii built.2.1) = true := by decide +kernel
  obtain ⟨built, hbuilt, hnames⟩ := exists_of_any_toOption hrun
  have hboth := of_decide_eq_true hnames
  exact ⟨built, hbuilt, hboth.1, fun h => hboth.2 h.unique⟩

end ArdOssie
