import ArdOssie.Pipeline.TableRecords

/-!
# Column identity

What happens to the columns of a table when it is processed again and again.  A column keeps its identifier, a retired
column stays retired and the names of a record stay distinct; a dictionary column keeps the identifier of the active
column with exactly its name unless an earlier column has that name among its aliases.
-/

namespace ArdOssie

variable {platform : Platform}

/-! ### One step -/

/-- The dictionary columns of a processing step and the identifiers for new columns. -/
structure ColumnDraft where
  newId : ℕ → ColumnId
  columns : List DictionaryColumn

/-- `TableRecord.validate_columns` -/
def ColumnsValid (platform : Platform) (columns : List ColumnRecord) : Prop :=
  (columns.map ColumnRecord.columnId).Nodup ∧ (columns.map fun c => platform.casefold c.name).Nodup

instance (columns : List ColumnRecord) : Decidable (ColumnsValid platform columns) :=
  inferInstanceAs (Decidable (_ ∧ _))

/-- The columns of the record that a step writes. -/
def stepColumns (platform : Platform) (existing : List ColumnRecord) (draft : ColumnDraft) :
    PyResult (List ColumnRecord) := do
  let resolved ← resolveColumns platform existing draft.newId draft.columns
  raiseIf (¬ ColumnsValid platform resolved.1)
    (.validationError ["column names and IDs must be unique within a table"])
  pure resolved.1

/-- The columns of a run of steps. -/
def runColumns (platform : Platform) (existing : List ColumnRecord) (drafts : List ColumnDraft) :
    PyResult (List ColumnRecord) := drafts.foldlM (stepColumns platform) existing

theorem ColumnsValid.eq_of_id {columns : List ColumnRecord} (h : ColumnsValid platform columns) {c d : ColumnRecord}
    (hc : c ∈ columns) (hd : d ∈ columns) (hid : c.columnId = d.columnId) : c = d :=
  List.inj_on_of_nodup_map h.1 hc hd hid

theorem ColumnsValid.eq_of_name {columns : List ColumnRecord} (h : ColumnsValid platform columns)
    {c d : ColumnRecord} (hc : c ∈ columns) (hd : d ∈ columns) (hname : c.name = d.name) : c = d :=
  List.inj_on_of_nodup_map h.2 hc hd (congrArg platform.casefold hname)

theorem matchedColumn_mem {existing : List ColumnRecord} {name : Text} {c : ColumnRecord}
    (h : matchedColumn platform existing name = some c) : c ∈ existing ∧ c.Answers platform name :=
  ⟨List.mem_of_find?_eq_some h, of_decide_eq_true (List.find?_some h :)⟩

private theorem make_eq_ok {columnId : ColumnId} {name : Text} {aliases : List Text} {status : EntityStatus}
    {c : ColumnRecord} (h : ColumnRecord.make columnId name aliases status = .ok c) :
    c.columnId = columnId ∧ c.name = name.strip ∧ c.aliases = aliases ∧ c.status = status := by
  unfold ColumnRecord.make at h
  split at h
  · cases h
    exact ⟨rfl, rfl, rfl, rfl⟩
  · cases h

/-- The record of a dictionary column: that of the matched column, or a new one. -/
structure ResolvedAs (platform : Platform) (existing : List ColumnRecord) (newId : ColumnId)
    (column : DictionaryColumn) (record : ColumnRecord) : Prop where
  name : record.name = column.name
  active : record.status = .active
  origin : (∃ m, matchedColumn platform existing column.name = some m ∧ m.status = .active ∧
      record.columnId = m.columnId ∧ record.aliases = m.aliases) ∨
    matchedColumn platform existing column.name = none ∧ record.columnId = newId ∧ record.aliases = []

theorem resolveColumn_eq_ok {existing : List ColumnRecord} {newId : ColumnId} {column : DictionaryColumn}
    {pair : ColumnRecord × ColumnIR} (h : resolveColumn platform existing newId column = .ok pair) :
    ResolvedAs platform existing newId column pair.1 ∧ pair.2 = column.ir pair.1.columnId := by
  unfold resolveColumn at h
  split at h
  · rename_i m hm
    obtain ⟨hactive, h⟩ := raiseIf_bind_eq_ok.1 h
    obtain ⟨record, hrecord, h⟩ := bind_eq_ok.1 h
    cases pure_eq_ok.1 h
    obtain ⟨hid, hname, haliases, hstatus⟩ := make_eq_ok hrecord
    have hm' : m.status = .active := by
      cases hs : m.status with
      | active => rfl
      | retired => exact absurd hs hactive
    exact ⟨⟨hname.trans column.stripped, hstatus, Or.inl ⟨m, hm, hm', hid, haliases⟩⟩, by rw [hid]⟩
  · rename_i hnone
    obtain ⟨record, hrecord, h⟩ := bind_eq_ok.1 h
    cases pure_eq_ok.1 h
    obtain ⟨hid, hname, haliases, hstatus⟩ := make_eq_ok hrecord
    exact ⟨⟨hname.trans column.stripped, hstatus, Or.inr ⟨hnone, hid, haliases⟩⟩, by rw [hid]⟩

/-- The records of a step: those of the dictionary columns, and the retired columns that none of them matches. -/
theorem resolveColumns_eq_ok {existing : List ColumnRecord} {newId : ℕ → ColumnId} {columns : List DictionaryColumn}
    {resolved : List ColumnRecord × List ColumnIR} (h : resolveColumns platform existing newId columns = .ok resolved) :
    ∃ pairs : List (ColumnRecord × ColumnIR),
      resolved.1 = pairs.map Prod.fst ++ (existing.filter fun c =>
        c.columnId ∉ pairs.map fun p => p.1.columnId).map ColumnRecord.retire ∧
      resolved.2 = pairs.map Prod.snd ∧
      List.Forall₂ (fun (p : DictionaryColumn × ℕ) pair => ResolvedAs platform existing (newId p.2) p.1 pair.1 ∧
        pair.2 = p.1.ir pair.1.columnId) columns.zipIdx pairs := by
  unfold resolveColumns at h
  obtain ⟨pairs, hpairs, h⟩ := bind_eq_ok.1 h
  cases pure_eq_ok.1 h
  exact ⟨pairs, rfl, rfl, (mapM_eq_ok.1 hpairs).imp fun _ _ hpair => resolveColumn_eq_ok hpair⟩

/-- A record of a step is that of a dictionary column, or a retired copy of an unmatched column. -/
private theorem mem_stepColumns {existing records : List ColumnRecord} {draft : ColumnDraft}
    (h : stepColumns platform existing draft = .ok records) :
    ColumnsValid platform records ∧ ∃ active : List ColumnRecord,
      records = active ++ (existing.filter fun c => c.columnId ∉ active.map ColumnRecord.columnId).map
        ColumnRecord.retire ∧
      (∀ r ∈ active, ∃ column ∈ draft.columns, ∃ i, ResolvedAs platform existing (draft.newId i) column r) ∧
      ∀ column ∈ draft.columns, ∃ r ∈ active, ∃ i, ResolvedAs platform existing (draft.newId i) column r := by
  unfold stepColumns at h
  obtain ⟨resolved, hresolved, h⟩ := bind_eq_ok.1 h
  obtain ⟨hvalid, h⟩ := raiseIf_bind_eq_ok.1 h
  cases pure_eq_ok.1 h
  obtain ⟨pairs, hrecords, -, hall⟩ := resolveColumns_eq_ok hresolved
  refine ⟨not_not.1 hvalid, pairs.map Prod.fst, ?_, ?_, ?_⟩
  · rw [hrecords, List.map_map]
    rfl
  · intro r hr
    obtain ⟨pair, hpair, rfl⟩ := List.mem_map.1 hr
    obtain ⟨p, hp, hresolved⟩ := exists_of_forall₂_right hall hpair
    exact ⟨p.1, List.fst_mem_of_mem_zipIdx hp, p.2, hresolved.1⟩
  · intro column hcolumn
    obtain ⟨i, hi⟩ := List.mem_iff_getElem?.1 hcolumn
    have hmem : (column, i) ∈ draft.columns.zipIdx := List.mk_mem_zipIdx_iff_getElem?.2 hi
    obtain ⟨pair, hpair, hresolved⟩ := exists_of_forall₂_left hall hmem
    exact ⟨pair.1, List.mem_map_of_mem hpair, i, hresolved.1⟩

/-! ### Stability -/

/-- What a step may do to the columns: every identifier stays, a retired column stays retired, an active column answered
to its name before the step, and an active column keeps its identifier when a dictionary column has its name. -/
structure ColumnsStable (platform : Platform) (existing : List ColumnRecord) (draft : ColumnDraft)
    (records : List ColumnRecord) : Prop where
  kept : ∀ c ∈ existing, ∃ r ∈ records, r.columnId = c.columnId ∧ (c.status = .retired → r.status = .retired)
  owner : ∀ c ∈ existing, ∀ r ∈ records, r.columnId = c.columnId → r.status = .active →
    ∃ column ∈ draft.columns, r.name = column.name ∧ c.Answers platform column.name
  exact_name : ∀ column ∈ draft.columns, ∀ c ∈ existing, c.status = .active → c.name = column.name →
    ∃ r ∈ records, r.columnId = c.columnId ∧ r.status = .active ∧ r.name = column.name
  ids : (records.map ColumnRecord.columnId).Nodup
  names : ((records.filter fun r => r.status = .active).map ColumnRecord.name).Nodup

/-- No dictionary column has the name of an active column that is, up to case, an alias of an earlier column. -/
def NamesUnshadowed (platform : Platform) (existing : List ColumnRecord) (columns : List DictionaryColumn) : Prop :=
  ∀ column ∈ columns, ∀ before c after, existing = before ++ c :: after → c.status = .active →
    c.name = column.name → ∀ e ∈ before, platform.casefold column.name ∉ e.aliases.map platform.casefold

variable {existing records : List ColumnRecord} {draft : ColumnDraft}

/-- Every column of a step stays, and a retired one stays retired. -/
private theorem kept_of_step (hexisting : ColumnsValid platform existing)
    (hfresh : ∀ i, ∀ c ∈ existing, draft.newId i ≠ c.columnId)
    (h : stepColumns platform existing draft = .ok records) :
    ∀ c ∈ existing, ∃ r ∈ records, r.columnId = c.columnId ∧ (c.status = .retired → r.status = .retired) := by
  obtain ⟨-, active, rfl, hactive, -⟩ := mem_stepColumns h
  intro c hc
  by_cases hmatched : c.columnId ∈ active.map ColumnRecord.columnId
  · obtain ⟨r, hr, hid⟩ := List.mem_map.1 hmatched
    refine ⟨r, List.mem_append_left _ hr, hid, ?_⟩
    intro hretired
    obtain ⟨column, -, i, hresolved⟩ := hactive r hr
    rcases hresolved.origin with ⟨m, hm, hmactive, hmid, -⟩ | ⟨-, hnew, -⟩
    · have hsame : m = c := hexisting.eq_of_id (matchedColumn_mem hm).1 hc (hmid.symm.trans hid)
      rw [hsame, hretired] at hmactive
      cases hmactive
    · exact absurd (hnew.symm.trans hid) (hfresh i c hc)
  · refine ⟨c.retire, List.mem_append_right _ ?_, rfl, fun _ => rfl⟩
    exact List.mem_map_of_mem (List.mem_filter.2 ⟨hc, decide_eq_true hmatched⟩)

private theorem owner_of_step (hexisting : ColumnsValid platform existing)
    (hfresh : ∀ i, ∀ c ∈ existing, draft.newId i ≠ c.columnId)
    (h : stepColumns platform existing draft = .ok records) :
    ∀ c ∈ existing, ∀ r ∈ records, r.columnId = c.columnId → r.status = .active →
      ∃ column ∈ draft.columns, r.name = column.name ∧ c.Answers platform column.name := by
  obtain ⟨-, active, rfl, hactive, -⟩ := mem_stepColumns h
  intro c hc r hr hid hstatus
  rcases List.mem_append.1 hr with hr | hr
  · obtain ⟨column, hcolumn, i, hresolved⟩ := hactive r hr
    refine ⟨column, hcolumn, hresolved.name, ?_⟩
    rcases hresolved.origin with ⟨m, hm, -, hmid, -⟩ | ⟨-, hnew, -⟩
    · obtain ⟨hmem, hanswers⟩ := matchedColumn_mem hm
      rwa [hexisting.eq_of_id hmem hc (hmid.symm.trans hid)] at hanswers
    · exact absurd (hnew.symm.trans hid) (hfresh i c hc)
  · obtain ⟨e, -, rfl⟩ := List.mem_map.1 hr
    cases hstatus

/-- The first column that answers to the name of an active column is that column. -/
theorem matchedColumn_of_unshadowed (hexisting : ColumnsValid platform existing) {columns : List DictionaryColumn}
    {column : DictionaryColumn}
    (hunshadowed : NamesUnshadowed platform existing columns) (hcolumn : column ∈ columns)
    {c : ColumnRecord} (hc : c ∈ existing) (hactive : c.status = .active) (hname : c.name = column.name) :
    matchedColumn platform existing column.name = some c := by
  obtain ⟨before, after, rfl⟩ := List.append_of_mem hc
  unfold matchedColumn
  have hbefore : before.find? (fun e => e.Answers platform column.name) = none := by
    refine List.find?_eq_none.2 fun e he => ?_
    rw [decide_eq_true_eq]
    rintro (hsame | halias)
    · have hec : e = c := List.inj_on_of_nodup_map hexisting.2 (List.mem_append_left _ he) hc (by rw [hname, hsame])
      have hdisjoint := List.disjoint_of_nodup_append (List.Nodup.of_map _ hexisting.1)
      exact hdisjoint he (hec ▸ List.mem_cons_self)
    · exact hunshadowed column hcolumn before c after rfl hactive hname e he halias
  rw [List.find?_append, hbefore, Option.none_or, List.find?_cons_of_pos]
  exact decide_eq_true (Or.inl (by rw [hname]))

private theorem exact_name_of_unshadowed (hexisting : ColumnsValid platform existing)
    (h : stepColumns platform existing draft = .ok records)
    (hunshadowed : NamesUnshadowed platform existing draft.columns) :
    ∀ column ∈ draft.columns, ∀ c ∈ existing, c.status = .active → c.name = column.name →
      ∃ r ∈ records, r.columnId = c.columnId ∧ r.status = .active ∧ r.name = column.name := by
  obtain ⟨-, active, rfl, -, hcolumns⟩ := mem_stepColumns h
  intro column hcolumn c hc hactive hname
  obtain ⟨r, hr, i, hresolved⟩ := hcolumns column hcolumn
  have hmatched := matchedColumn_of_unshadowed hexisting hunshadowed hcolumn hc hactive hname
  refine ⟨r, List.mem_append_left _ hr, ?_, hresolved.active, ?_⟩
  · rcases hresolved.origin with ⟨m, hm, -, hmid, -⟩ | ⟨hnone, -⟩
    · rw [hmid, Option.some_inj.1 (hm.symm.trans hmatched)]
    · rw [hnone] at hmatched
      cases hmatched
  · exact hresolved.name

/-- No column before the matched one has the name among its aliases. -/
theorem not_alias_of_matched {before after : List ColumnRecord} {c : ColumnRecord} {name : Text}
    (hvalid : ColumnsValid platform (before ++ c :: after))
    (hmatched : matchedColumn platform (before ++ c :: after) name = some c) :
    ∀ e ∈ before, platform.casefold name ∉ e.aliases.map platform.casefold := by
  intro e he halias
  obtain ⟨m, hm⟩ : ∃ m, before.find? (fun e => e.Answers platform name) = some m := by
    rw [← Option.isSome_iff_exists, List.find?_isSome]
    exact ⟨e, he, decide_eq_true (Or.inr halias)⟩
  unfold matchedColumn at hmatched
  rw [List.find?_append, hm, Option.some_or, Option.some_inj] at hmatched
  have hdisjoint := List.disjoint_of_nodup_append (List.Nodup.of_map _ hvalid.1)
  exact hdisjoint (List.mem_of_find?_eq_some hm) (hmatched ▸ List.mem_cons_self)

private theorem unshadowed_of_exact_name (hexisting : ColumnsValid platform existing)
    (h : stepColumns platform existing draft = .ok records)
    (hexact : ∀ column ∈ draft.columns, ∀ c ∈ existing, c.status = .active → c.name = column.name →
      ∃ r ∈ records, r.columnId = c.columnId ∧ r.status = .active ∧ r.name = column.name) :
    NamesUnshadowed platform existing draft.columns := by
  obtain ⟨hvalid, active, hrecords, -, hcolumns⟩ := mem_stepColumns h
  rintro column hcolumn before c after rfl hactive hname
  have hc : c ∈ before ++ c :: after := List.mem_append_right _ List.mem_cons_self
  obtain ⟨r, hr, i, hresolved⟩ := hcolumns column hcolumn
  obtain ⟨r', hr', hid', -, hname'⟩ := hexact column hcolumn c hc hactive hname
  have hrname : r.name = r'.name := by rw [hresolved.name, hname']
  have hsame : r = r' := hvalid.eq_of_name (by rw [hrecords]; exact List.mem_append_left _ hr) hr' hrname
  have hanswers : c.Answers platform column.name := Or.inl (by rw [hname])
  rcases hresolved.origin with ⟨m, hm, -, hmid, -⟩ | ⟨hnone, -⟩
  · have hmc : m = c := hexisting.eq_of_id (matchedColumn_mem hm).1 hc (by rw [← hmid, hsame, hid'])
    exact not_alias_of_matched hexisting (hmc ▸ hm)
  · exact absurd (decide_eq_true hanswers) (List.find?_eq_none.1 hnone c hc)

/-- An accepted step is stable exactly if it finds the names of the active columns unshadowed. -/
theorem columnsStable_iff (hexisting : ColumnsValid platform existing)
    (hfresh : ∀ i, ∀ c ∈ existing, draft.newId i ≠ c.columnId)
    (h : stepColumns platform existing draft = .ok records) :
    ColumnsStable platform existing draft records ↔ NamesUnshadowed platform existing draft.columns := by
  constructor
  · intro hstable
    exact unshadowed_of_exact_name hexisting h hstable.exact_name
  · intro hunshadowed
    obtain ⟨hvalid, -⟩ := mem_stepColumns h
    refine ⟨kept_of_step hexisting hfresh h, owner_of_step hexisting hfresh h,
      exact_name_of_unshadowed hexisting h hunshadowed, hvalid.1, ?_⟩
    refine List.Nodup.of_map platform.casefold ?_
    rw [List.map_map]
    exact List.Sublist.nodup (List.filter_sublist.map _) hvalid.2

/-! ### Runs -/

section Runs

variable {initial final : List ColumnRecord} {drafts : List ColumnDraft}

theorem runColumns_append {w w' : List ColumnDraft} :
    runColumns platform initial (w ++ w') = .ok final ↔
      ∃ s, runColumns platform initial w = .ok s ∧ runColumns platform s w' = .ok final := by
  unfold runColumns
  rw [List.foldlM_append, bind_eq_ok]

theorem runColumns_cons {x : ColumnDraft} {w : List ColumnDraft} :
    runColumns platform initial (x :: w) = .ok final ↔
      ∃ s, stepColumns platform initial x = .ok s ∧ runColumns platform s w = .ok final := by
  unfold runColumns
  rw [List.foldlM_cons, bind_eq_ok]

private theorem runColumns_valid (hinitial : ColumnsValid platform initial)
    (h : runColumns platform initial drafts = .ok final) : ColumnsValid platform final :=
  foldlM_invariant (P := fun _ => ColumnsValid platform) (fun _ _ _ _ _ hstep => (mem_stepColumns hstep).1) h hinitial

/-- The identifiers that `new_id` gives in a run are not identifiers of columns that are there. -/
def IdsFresh (platform : Platform) (initial : List ColumnRecord) (drafts : List ColumnDraft) : Prop :=
  ∀ w x w' s, drafts = w ++ x :: w' → runColumns platform initial w = .ok s →
    ∀ i, ∀ c ∈ s, x.newId i ≠ c.columnId

private theorem IdsFresh.tail {x : ColumnDraft} {s : List ColumnRecord} (h : IdsFresh platform initial (x :: drafts))
    (hx : stepColumns platform initial x = .ok s) : IdsFresh platform s drafts := by
  intro w y w' t hw ht
  exact h (x :: w) y w' t (by rw [hw]; rfl) (runColumns_cons.2 ⟨s, hx, ht⟩)

/-- Every column of the start is there at the end, and a retired one is retired. -/
private theorem kept_of_run (hinitial : ColumnsValid platform initial) (hfresh : IdsFresh platform initial drafts)
    (h : runColumns platform initial drafts = .ok final) :
    ∀ c ∈ initial, ∃ r ∈ final, r.columnId = c.columnId ∧ (c.status = .retired → r.status = .retired) := by
  induction drafts generalizing initial with
  | nil =>
    cases pure_eq_ok.1 h
    exact fun c hc => ⟨c, hc, rfl, id⟩
  | cons x drafts ih =>
    obtain ⟨s, hs, h⟩ := runColumns_cons.1 h
    intro c hc
    obtain ⟨d, hd, hdc, hdretired⟩ := kept_of_step hinitial (hfresh [] x drafts initial rfl rfl) hs c hc
    obtain ⟨r, hr, hrd, hrretired⟩ := ih (mem_stepColumns hs).1 (hfresh.tail hs) h d hd
    exact ⟨r, hr, hrd.trans hdc, fun hretired => hrretired (hdretired hretired)⟩

private theorem IdsFresh.suffix {w w' : List ColumnDraft} {s : List ColumnRecord}
    (h : IdsFresh platform initial (w ++ w')) (hw : runColumns platform initial w = .ok s) :
    IdsFresh platform s w' := by
  intro v y v' t hv ht
  exact h (w ++ v) y v' t (by rw [hv, List.append_assoc]) (runColumns_append.2 ⟨s, hw, ht⟩)

/-- In a run of accepted steps every step is stable, and every column that is there at some time stays and stays retired,
exactly if every step finds the names of the active columns unshadowed. -/
theorem runColumns_stable_iff (hinitial : ColumnsValid platform initial) (hfresh : IdsFresh platform initial drafts)
    (hrun : runColumns platform initial drafts = .ok final) :
    ((∀ w x w' s s', drafts = w ++ x :: w' → runColumns platform initial w = .ok s →
        stepColumns platform s x = .ok s' → ColumnsStable platform s x s') ∧
      ∀ w w' s, drafts = w ++ w' → runColumns platform initial w = .ok s → ∀ c ∈ s,
        ∃ r ∈ final, r.columnId = c.columnId ∧ (c.status = .retired → r.status = .retired)) ↔
      ∀ w x w' s, drafts = w ++ x :: w' → runColumns platform initial w = .ok s →
        NamesUnshadowed platform s x.columns := by
  constructor
  · rintro ⟨hstable, -⟩ w x w' s hw hs
    rw [hw] at hrun
    obtain ⟨s₀, hs₀, hrun⟩ := runColumns_append.1 hrun
    cases hs.symm.trans hs₀
    obtain ⟨s', hs', -⟩ := runColumns_cons.1 hrun
    have hvalid := runColumns_valid hinitial hs
    exact (columnsStable_iff hvalid (hfresh w x w' s hw hs) hs').1 (hstable w x w' s s' hw hs hs')
  · intro hunshadowed
    constructor
    · intro w x w' s s' hw hs hs'
      have hvalid := runColumns_valid hinitial hs
      exact (columnsStable_iff hvalid (hfresh w x w' s hw hs) hs').2 (hunshadowed w x w' s hw hs)
    · intro w w' s hw hs
      subst hw
      obtain ⟨s₀, hs₀, hrun⟩ := runColumns_append.1 hrun
      cases hs.symm.trans hs₀
      exact kept_of_run (runColumns_valid hinitial hs) (hfresh.suffix hs) hrun

end Runs

/-! ### The steps of the pipeline -/

/-- The record that is built from a draft has the columns of a step on the columns that are registered at its locator. -/
theorem stepColumns_of_build {lower : Text → Text} {newIds : NewIds} {configs : List TableConfig}
    {registry : Registry platform} {i : ℕ} {table : DictionaryTable} {draft : TableDraft}
    {built : TableRecord platform × TableIR × VersionDecision}
    (hdraft : resolveTable lower newIds configs registry i table = .ok draft)
    (hbuilt : buildTableRecord registry draft = .ok built) :
    stepColumns platform (((registeredAt registry draft.locator).map fun item => item.columns).getD [])
      ⟨newIds.column i, table.columns⟩ = .ok built.1.columns := by
  obtain ⟨locator, resolved, -, -, hresolved, rfl⟩ := resolveTable_eq_ok.1 hdraft
  obtain ⟨-, -, -, -, -, hcolumns, -⟩ := buildTableRecord_eq_ok hbuilt
  have hcolumns : built.1.columns = resolved.1 := hcolumns
  have hvalid : ColumnsValid platform resolved.1 :=
    hcolumns ▸ ⟨built.1.columnIds_nodup, built.1.columnNames_nodup⟩
  unfold stepColumns
  rw [bind_eq_ok]
  refine ⟨resolved, hresolved, raiseIf_bind_eq_ok.2 ⟨not_not.2 hvalid, ?_⟩⟩
  rw [hcolumns]
  rfl

private def exampleEvidence : Evidence := ⟨sha256 [], .dictionaryExcel, [], none⟩

private def exampleColumn (name : Text) : DictionaryColumn :=
  ⟨1, name.strip, Text.strip_strip name, none, "string".toList, false, false, none, none, none, none, exampleEvidence⟩

private def firstId : ColumnId := ⟨"col_0198f6ca-2a11-78d1-8672-67d49e69f141".toList, by decide⟩

private def secondId : ColumnId := ⟨"col_0198f6ca-2a11-78d1-8672-67d49e69f142".toList, by decide⟩

/-- A column `X` with the alias `B`, and a column `B` with the alias `Y`. -/
private def aliasedColumns : List ColumnRecord :=
  [⟨firstId, ['X'], [['B']], .active, by decide, by decide⟩, ⟨secondId, ['B'], [['Y']], .active, by decide, by decide⟩]

/-- The columns after the draft `B`, `Y`. -/
private def crossedColumns : List ColumnRecord :=
  [⟨firstId, ['B'], [['B']], .active, by decide, by decide⟩, ⟨secondId, ['Y'], [['Y']], .active, by decide, by decide⟩]

private def exampleDraft (names : List Text) : ColumnDraft :=
  ⟨fun _ => ⟨"col_0198f6ca-2a11-78d1-8672-67d49e69f143".toList, by decide⟩, names.map exampleColumn⟩

/-- The draft `B`, `Y` is accepted, and the identifier of the column `B` passes to `Y`. -/
theorem stepColumns_crossed :
    ColumnsValid .ascii aliasedColumns ∧
      runColumns .ascii aliasedColumns [exampleDraft [['B'], ['Y']]] = .ok crossedColumns ∧
        ¬ ColumnsStable .ascii aliasedColumns (exampleDraft [['B'], ['Y']]) crossedColumns := by
  refine ⟨by decide, by decide +kernel, ?_⟩
  intro h
  obtain ⟨r, hr, hid, -, hname⟩ := h.exact_name (exampleColumn ['B']) (List.mem_map_of_mem List.mem_cons_self)
    ⟨secondId, ['B'], [['Y']], .active, by decide, by decide⟩ (by decide) rfl rfl
  have hall : ∀ r ∈ crossedColumns, r.columnId = secondId → r.name ≠ ['B'] := by decide
  exact hall r hr hid hname

/-- The columns after the draft `B`, `Y` on the first column alone. -/
private def renamedColumns : List ColumnRecord :=
  [⟨firstId, ['B'], [['B']], .active, by decide, by decide⟩,
    ⟨⟨"col_0198f6ca-2a11-78d1-8672-67d49e69f143".toList, by decide⟩, ['Y'], [], .active, by decide, by decide⟩]

/-- A column that is renamed to its alias while a new column arrives. -/
theorem runColumns_stable_renamed :
    ColumnsStable .ascii (aliasedColumns.take 1) (exampleDraft [['B'], ['Y']])
      renamedColumns := by
  have hvalid : ColumnsValid .ascii (aliasedColumns.take 1) := by decide
  have hstep : stepColumns .ascii (aliasedColumns.take 1) (exampleDraft [['B'], ['Y']]) =
      .ok renamedColumns := by decide +kernel
  have hrun := (runColumns_cons (w := [])).2 ⟨_, hstep, rfl⟩
  have hsingle : ∀ w x w', [exampleDraft [['B'], ['Y']]] = w ++ x :: w' → w = [] ∧ x = exampleDraft [['B'], ['Y']] := by
    intro w x w' hw
    cases w with
    | nil => exact ⟨rfl, (List.cons.inj hw).1.symm⟩
    | cons y w => simp at hw
  refine ((runColumns_stable_iff hvalid ?_ hrun).2 ?_).1 [] _ [] _ _ rfl rfl hstep
  · intro w x w' s hw hs i c hc
    obtain ⟨rfl, rfl⟩ := hsingle w x w' hw
    cases pure_eq_ok.1 hs
    have hall : ∀ c ∈ aliasedColumns.take 1, (exampleDraft [['B'], ['Y']]).newId 0 ≠ c.columnId := by decide
    exact hall c hc
  · intro w x w' s hw hs column hcolumn before c after hsplit hactive hname e he
    obtain ⟨rfl, rfl⟩ := hsingle w x w' hw
    cases pure_eq_ok.1 hs
    cases before with
    | nil => cases he
    | cons b before => simp [aliasedColumns] at hsplit

end ArdOssie
