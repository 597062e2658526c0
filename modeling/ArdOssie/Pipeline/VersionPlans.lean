import ArdOssie.Pipeline.TableRecords

/-!
# Version plans of tables

The records of a product's tables are planned with the version that the configuration declares, or with the next one.
A table that is changed at version 999 without a declared version would be planned with version 1000; every other
draft gets a decision.
-/

namespace ArdOssie

section Plans

variable {platform : Platform} {registry : Registry platform} {draft : TableDraft}

/-- The registered version of the table of a draft. -/
def TableDraft.currentVersion (draft : TableDraft) (registry : Registry platform) : Option ℕ :=
  (draft.registered registry).map fun item => item.version.val

/-- The call of `plan_version` in `_build_table_records`. -/
def TableDraft.plan (draft : TableDraft) (registry : Registry platform) : PyResult VersionDecision :=
  planVersion (draft.currentVersion registry) (draft.changed (draft.registered registry))
    (draft.baseVersion (draft.registered registry)) (some (draft.proposedVersion (draft.registered registry)))

/-- What the models of a table require of a draft. -/
structure TableDraft.Recordable (platform : Platform) (draft : TableDraft) : Prop where
  tableId : ∃ i : TableId, i.text = draft.tableId
  columnIds : (draft.columnRecords.map ColumnRecord.columnId).Nodup
  columnNames : (draft.columnRecords.map fun c => platform.casefold c.name).Nodup
  columns : draft.columns ≠ []

/-- A changed table at version 999 whose next version is not declared. -/
def TableDraft.PastLimit (draft : TableDraft) (registry : Registry platform) : Prop :=
  draft.config.version = none ∧ draft.currentVersion registry = some 999 ∧
    draft.changed (draft.registered registry) = true

private theorem currentVersion_bounds : ∀ n ∈ draft.currentVersion registry, 1 ≤ n ∧ n ≤ 999 := by
  intro n hn
  obtain ⟨item, -, rfl⟩ := Option.map_eq_some_iff.1 hn
  exact item.version.2

private theorem baseVersion_bounds : ∀ n ∈ draft.baseVersion (draft.registered registry), 1 ≤ n ∧ n ≤ 999 := by
  intro n hn
  unfold TableDraft.baseVersion at hn
  split at hn
  · next version _ =>
    cases hn
    exact version.2
  · exact currentVersion_bounds n hn

private theorem proposedVersion_bounds (h : ¬ draft.PastLimit registry) :
    1 ≤ draft.proposedVersion (draft.registered registry) ∧
      draft.proposedVersion (draft.registered registry) ≤ 999 := by
  unfold TableDraft.proposedVersion
  split
  · next version _ => exact version.2
  · decide
  · next item hversion hitem =>
    have hbounds := item.version.2
    by_cases hchanged : draft.changed (draft.registered registry) = true
    · rw [if_pos hchanged]
      have hcurrent : draft.currentVersion registry = some item.version.val := by
        rw [TableDraft.currentVersion, hitem, Option.map_some]
      have hlimit : item.version.val ≠ 999 := fun hlast => h ⟨hversion, by rw [hcurrent, hlast], hchanged⟩
      omega
    · rw [if_neg hchanged]
      omega

/-- The planner answers on every draft that is not past the limit. -/
theorem plan_eq (h : ¬ draft.PastLimit registry) :
    draft.plan registry = .ok (versionDecision (draft.currentVersion registry)
      (draft.changed (draft.registered registry)) (draft.baseVersion (draft.registered registry))
      (some (draft.proposedVersion (draft.registered registry)))) := by
  refine planVersion_of_bounds currentVersion_bounds baseVersion_bounds ?_ _
  intro n hn
  cases hn
  exact proposedVersion_bounds h

/-- A draft that is not past the limit is recorded unless a model refuses it. -/
theorem exists_buildTableRecord_iff (h : ¬ draft.PastLimit registry) :
    (∃ built, buildTableRecord registry draft = .ok built) ↔ draft.Recordable platform := by
  constructor
  · rintro ⟨built, hbuilt⟩
    obtain ⟨-, hid, -, -, -, hcolumns, -, hne⟩ := buildTableRecord_eq_ok hbuilt
    refine ⟨⟨built.1.tableId, hid⟩, ?_, ?_, hne⟩
    · rw [← hcolumns]
      exact built.1.columnIds_nodup
    · rw [← hcolumns]
      exact built.1.columnNames_nodup
  · rintro ⟨⟨i, hi⟩, hids, hnames, hne⟩
    have hplan := plan_eq h
    unfold TableDraft.plan TableDraft.currentVersion at hplan
    unfold buildTableRecord
    dsimp only
    rw [hplan, ok_bind, ← hi]
    have hrecord := @TableRecord.make_of_valid platform i draft.locator
      ⟨draft.proposedVersion (draft.registered registry), proposedVersion_bounds h⟩
      (((draft.registered registry).map fun item => item.aliases).getD []) draft.columnRecords hids hnames
      (schemaHash platform draft.physicalJson) (draft.contentHash platform)
    rw [hrecord, ok_bind, TableIR.make, dif_pos hne]
    exact ⟨_, rfl⟩

/-- The new version of a table is the one its state asks for: the first one of a new table, the registered one without a
change and the next one after a change. -/
def TableDraft.ProposesExpected (draft : TableDraft) (registry : Registry platform) : Prop :=
  match draft.currentVersion registry with
  | none => draft.proposedVersion (draft.registered registry) = 1
  | some current => draft.proposedVersion (draft.registered registry) =
      if draft.changed (draft.registered registry) then current + 1 else current

private theorem plan_allow_iff (h : ¬ draft.PastLimit registry) :
    (versionDecision (draft.currentVersion registry) (draft.changed (draft.registered registry))
      (draft.baseVersion (draft.registered registry))
      (some (draft.proposedVersion (draft.registered registry)))).outcome = .allow ↔
      draft.baseVersion (draft.registered registry) = draft.currentVersion registry ∧
        draft.ProposesExpected registry := by
  unfold TableDraft.ProposesExpected
  cases hcurrent : draft.currentVersion registry with
  | none =>
    show (if _ then _ else _ : VersionOutcome × String).1 = _ ↔ _
    by_cases hbase : draft.baseVersion (draft.registered registry) = none
    · rw [if_neg (not_not.2 hbase)]
      by_cases hproposed : draft.proposedVersion (draft.registered registry) = 1
      · simp [hbase, hproposed]
      · simp [hproposed]
    · rw [if_pos hbase]
      simp [hbase]
  | some current =>
    rw [versionDecision_allow_iff]
    dsimp only
    refine and_congr_right fun _ => ?_
    by_cases hchanged : draft.changed (draft.registered registry) = true
    · -- the next version of a table at version 999 is never proposed
      have hbounds := proposedVersion_bounds h
      rw [if_pos hchanged, if_pos hchanged]
      simp only [reduceCtorEq, Option.some.injEq, false_or]
      constructor
      · exact fun hplan => hplan.2
      · intro hproposed
        exact ⟨by omega, hproposed⟩
    · rw [if_neg hchanged, if_neg hchanged]
      simp

/-- Unless a draft is past the limit, its version is planned and only the models of a table refuse to record it.  The
plan is allowed exactly on the current base and for the expected version; a change at version 999 is blocked at the
limit when its base is the current one. -/
theorem buildTableRecords_plans (registry : Registry platform) (drafts : List TableDraft)
    (h : ∀ draft ∈ drafts, ¬ draft.PastLimit registry) :
    ((∃ built, buildTableRecords registry drafts = .ok built) ↔ ∀ draft ∈ drafts, draft.Recordable platform) ∧
    ∀ draft ∈ drafts, ∃ decision, draft.plan registry = .ok decision ∧
      (∀ built, buildTableRecord registry draft = .ok built → built.2.2 = decision) ∧
      (decision.outcome = .allow ↔ draft.baseVersion (draft.registered registry) = draft.currentVersion registry ∧
        draft.ProposesExpected registry) ∧
      (draft.currentVersion registry = some 999 → draft.changed (draft.registered registry) = true →
        decision.outcome = .block ∧ decision.code =
          if draft.baseVersion (draft.registered registry) = some 999 then "VERSION_LIMIT_REACHED"
          else "VERSION_STALE") := by
  constructor
  · unfold buildTableRecords
    rw [mapM_total_iff]
    exact forall₂_congr fun draft hdraft => exists_buildTableRecord_iff (h draft hdraft)
  · intro draft hdraft
    refine ⟨_, plan_eq (h draft hdraft), fun built hbuilt => (buildTableRecord_eq_ok hbuilt).1,
      plan_allow_iff (h draft hdraft), ?_⟩
    intro hcurrent hchanged
    rw [hcurrent, hchanged]
    by_cases hbase : draft.baseVersion (draft.registered registry) = some 999
    · simp [versionDecision, transitionOutcome, nextVersion, hbase]
    · simp [versionDecision, transitionOutcome, hbase]

end Plans

/-! ### A table at the last version -/

private def lastLocator : TableLocator := ⟨.wms, .main, .sales, .orders⟩

private def lastTableId : TableId := ⟨"tbl_0198f6ca-2a11-78d1-8672-67d49e69f150".toList, by decide⟩

private def lastColumnId : ColumnId := ⟨"col_0198f6ca-2a11-78d1-8672-67d49e69f151".toList, by decide⟩

private def lastRecord : TableRecord .ascii :=
  ⟨lastTableId, lastLocator, ⟨999, by decide⟩, .active, [], [], none, none, List.nodup_nil, List.nodup_nil⟩

/-- A registry with one table at version 999. -/
def lastRegistry : Registry .ascii :=
  { Registry.new .ascii with tables := (Registry.new .ascii).tables.put lastRecord }

private theorem lastColumn_stripped : Text.strip "id".toList = "id".toList := by decide

/-- A draft of that table with one column. -/
def lastDraft (version baseVersion : Option Version) : TableDraft where
  config := ⟨"wms|main|sales|orders".toList, none, version, baseVersion, .source, true⟩
  tableId := lastTableId.text
  locator := lastLocator
  description := none
  columns := [⟨lastColumnId, 1, "id".toList, none, "string".toList, false, true, false, none, none, none, none, [], []⟩]
  columnRecords := [⟨lastColumnId, "id".toList, [], .active, lastColumn_stripped, by decide⟩]

theorem buildTableRecords_plans_last :
    ((∃ built, buildTableRecords lastRegistry [lastDraft (some ⟨999, by decide⟩) none] = .ok built) ↔
      ∀ draft ∈ [lastDraft (some ⟨999, by decide⟩) none], draft.Recordable .ascii) ∧
    ∀ draft ∈ [lastDraft (some ⟨999, by decide⟩) none], ∃ decision, draft.plan lastRegistry = .ok decision ∧
      (∀ built, buildTableRecord lastRegistry draft = .ok built → built.2.2 = decision) ∧
      (decision.outcome = .allow ↔
        draft.baseVersion (draft.registered lastRegistry) = draft.currentVersion lastRegistry ∧
          draft.ProposesExpected lastRegistry) ∧
      (draft.currentVersion lastRegistry = some 999 → draft.changed (draft.registered lastRegistry) = true →
        decision.outcome = .block ∧ decision.code =
          if draft.baseVersion (draft.registered lastRegistry) = some 999 then "VERSION_LIMIT_REACHED"
          else "VERSION_STALE") :=
  buildTableRecords_plans lastRegistry _ fun draft hdraft hpast => by
    rw [List.mem_singleton.1 hdraft] at hpast
    exact absurd hpast.1 (by decide)

/-- A changed table at version 999: without a declared version the next one is out of its bounds, and on another base
the plan is stale. -/
theorem version_limit_not_reached :
    (lastDraft none none).Recordable .ascii ∧
      buildTableRecords lastRegistry [lastDraft none none] =
        .error (.valueError "proposed_version must be between 1 and 999") ∧
      ((lastDraft (some ⟨999, by decide⟩) (some ⟨1, by decide⟩)).plan lastRegistry).map (·.code) =
        .ok "VERSION_STALE" :=
  ⟨⟨⟨lastTableId, rfl⟩, by decide, by decide, List.cons_ne_nil _ _⟩, rfl, rfl⟩

end ArdOssie
