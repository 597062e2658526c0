import ArdOssie.Pipeline.Process

/-!
# Shared tables

A mapping carries the version of its table.  A run rewrites the mappings of its own product only, so that the mapping
of another product falls behind when the run changes its table.  The check for shared tables counts the products that
map a table before the run, and overlooks a product that attaches to the table of one other product.
-/

namespace ArdOssie

variable {platform : Platform}

/-- Every mapping would be accepted again: it belongs to its product and carries the version of its table. -/
def Registry.MappingsCurrent (r : Registry platform) : Prop :=
  ∀ e ∈ r.mappings.items, ∀ m ∈ e.2, r.checkMapping e.1 m = .ok ()

instance (r : Registry platform) : Decidable r.MappingsCurrent := inferInstanceAs (Decidable (∀ e ∈ _, _))

/-- No changed table of a run is mapped by exactly one product, another one than that of the run. -/
def OwnTables (registry : Registry platform) (productId : ProductId) (built : List (BuiltTable platform)) : Prop :=
  ∀ b ∈ built, b.2.2.changed = true → registry.getTable b.1.tableId ≠ none →
    ∀ q, (analyzeTableChange b.1.tableId registry.allMappings).requiredProductIds = [q] → q = productId

/-! ### What a run writes -/

theorem writeTables_eq_ok {tables : List (TableRecord platform)} {r r' : Registry platform}
    (h : tables.foldlM Registry.writeTable r = .ok r') :
    r'.mappings = r.mappings ∧ ∀ i, i ∉ tables.map TableRecord.tableId → r'.getTable i = r.getTable i := by
  induction tables generalizing r with
  | nil =>
    cases pure_eq_ok.1 h
    exact ⟨rfl, fun i _ => rfl⟩
  | cons t tables ih =>
    rw [List.foldlM_cons] at h
    obtain ⟨s, hs, h⟩ := bind_eq_ok.1 h
    obtain ⟨-, -, rfl⟩ := Registry.writeTable_eq_ok.1 hs
    obtain ⟨hmappings, htables⟩ := ih h
    refine ⟨hmappings, fun i hi => ?_⟩
    simp only [List.map_cons, List.mem_cons, not_or] at hi
    rw [htables i hi.2]
    exact KeyedList.get_put_ne hi.1

/-- The mappings of a run name the tables that it builds, at their versions. -/
theorem exists_mem_buildMappings {newIds : NewIds} {productId : ProductId} {registry : Registry platform}
    {built : List (BuiltTable platform)} {drafts : List TableDraft} (hlength : built.length = drafts.length)
    {b : BuiltTable platform} (hb : b ∈ built) :
    ∃ m ∈ buildMappings newIds productId built drafts registry,
      m.tableId = b.1.tableId ∧ m.tableVersion = b.1.version := by
  obtain ⟨i, hi, rfl⟩ := List.getElem_of_mem hb
  have hd : i < drafts.length := hlength ▸ hi
  have hmem : ((built[i], drafts[i]), i) ∈ (built.zip drafts).zipIdx := by
    rw [List.mk_mem_zipIdx_iff_getElem?]
    simp [hi, hd]
  exact ⟨_, List.mem_map_of_mem hmem, rfl, rfl⟩

/-- A run replaces the mappings of its product by mappings that are current, and touches no table that it does not
build. -/
structure WritesOwn (r r' : Registry platform) (productId : ProductId) (mappings : List ProductTableRef)
    (built : List (BuiltTable platform)) : Prop where
  entries : ∀ e, e ∈ r'.mappings.items ↔ e = (productId, sortBy (fun m => m.linkId) mappings) ∨
    e ∈ r.mappings.items ∧ e.1 ≠ productId
  checked : ∀ m ∈ mappings, r'.checkMapping productId m = .ok ()
  kept : ∀ i, i ∉ built.map (fun b => b.1.tableId) → r'.getTable i = r.getTable i

theorem writeRecords_eq_ok {r r' : Registry platform} {product : ProductRecord platform}
    {built : List (BuiltTable platform)} {mappings : List ProductTableRef}
    (h : writeRecords r product (built.map Prod.fst) mappings = .ok r') :
    WritesOwn r r' product.productId mappings built := by
  unfold writeRecords at h
  obtain ⟨s, hs, hrest⟩ := bind_eq_ok.1 h
  obtain ⟨u, hu, hlast⟩ := bind_eq_ok.1 hrest
  obtain ⟨-, -, rfl⟩ := Registry.writeProduct_eq_ok.1 hs
  obtain ⟨hmappings, htables⟩ := writeTables_eq_ok hu
  obtain ⟨-, hchecked, rfl⟩ := Registry.writeMappings_eq_ok.1 hlast
  refine ⟨fun e => ?_, fun m hm => Registry.checkMapping_eq_ok.2 (hchecked m hm), fun i hi => ?_⟩
  · show e ∈ (u.mappings.put _).items ↔ _
    rw [KeyedList.mem_put, hmappings]
    show e = _ ∨ e ∈ sortBy _ r.mappings.items ∧ _ ↔ _
    rw [mem_sortBy]
  · have hkept := htables i (by simpa [List.map_map] using hi)
    show u.getTable i = _
    rw [hkept]
    exact Registry.getTable_load r i

theorem ProductRecord.make_eq_ok {config : ProductConfig} {existing : Option (ProductRecord platform)}
    {parts : ProductParts} {record : ProductRecord platform} (h : ProductRecord.make config existing parts = .ok record) :
    record.productId = config.productId := by
  unfold ProductRecord.make at h
  obtain ⟨productKey, -, h⟩ := bind_eq_ok.1 h
  split_ifs at h
  cases pure_eq_ok.1 h
  rfl

/-- Without findings every version is allowed. -/
theorem allow_of_hardErrors {input : ProcessInput} {product : ProductRecord platform} {version : VersionDecision}
    {built : List (BuiltTable platform)} {r : Registry platform} (h : hardErrors input product version built r = []) :
    ∀ b ∈ built, b.2.2.outcome = .allow := by
  intro b hb
  unfold hardErrors hardFindings at h
  simp only [List.append_eq_nil_iff, List.map_eq_nil_iff, List.filter_eq_nil_iff, decide_eq_true_eq] at h
  have hne : b.2.2.outcome ≠ .block := h.1.1.1.2 b.2.2 (List.mem_cons_of_mem _ (List.mem_map_of_mem hb))
  cases houtcome : b.2.2.outcome with
  | allow => rfl
  | block => exact absurd houtcome hne

/-- What a successful run decides and writes. -/
theorem processProduct_eq_ok {lower : Text → Text} {newIds : NewIds} {input : ProcessInput} {r r' : Registry platform}
    {drafts : List TableDraft} {built : List (BuiltTable platform)}
    (hdrafts : resolveTables lower newIds input.config input.dictionary r = .ok drafts)
    (hbuilt : buildTableRecords r drafts = .ok built) (h : processProduct lower newIds input r = .ok r') :
    (∀ b ∈ built, b.2.2.outcome = .allow) ∧ WritesOwn r r' input.config.productId
      (buildMappings newIds input.config.productId built drafts r) built := by
  unfold processProduct at h
  obtain ⟨-, h⟩ := raiseIf_bind_eq_ok.1 h
  simp only [hdrafts, hbuilt, ok_bind] at h
  obtain ⟨product, hproduct, h⟩ := bind_eq_ok.1 h
  obtain ⟨version, -, h⟩ := bind_eq_ok.1 h
  obtain ⟨herrors, h⟩ := raiseIf_bind_eq_ok.1 h
  have hid : product.productId = input.config.productId := ProductRecord.make_eq_ok hproduct
  refine ⟨allow_of_hardErrors (not_not.1 herrors), ?_⟩
  have hwritten := writeRecords_eq_ok h
  rwa [hid] at hwritten

/-! ### Versions of the tables -/

/-- An allowed table that is registered moves by one version exactly when it changes. -/
theorem version_of_allow {drafts : List TableDraft} {built : List (BuiltTable platform)} {r : Registry platform}
    (hbuilt : buildTableRecords r drafts = .ok built) {b : BuiltTable platform} (hb : b ∈ built)
    (hallow : b.2.2.outcome = .allow) {t : TableRecord platform} (ht : r.getTable b.1.tableId = some t) :
    b.1.version = t.version ↔ b.2.2.changed = false := by
  obtain ⟨draft, -, hdraft⟩ := mem_of_mapM_eq_ok hbuilt hb
  obtain ⟨hdecision, hid, -, hversion, -⟩ := buildTableRecord_eq_ok hdraft
  have hregistered : draft.registered r = some t := by
    unfold TableDraft.registered
    rw [← hid, EntityId.parse_text]
    exact ht
  rw [hregistered] at hdecision hversion
  rw [hdecision] at hallow ⊢
  rw [versionDecision_changed, Subtype.ext_iff, hversion]
  cases hchanged : draft.changed (some t) with
  | false =>
    rw [hchanged] at hallow
    have hkeep := keep_of_allow hallow
    simpa using hkeep
  | true =>
    rw [hchanged] at hallow
    have hadvance := advance_of_allow hallow
    simp [hadvance]

/-! ### Mappings stay current -/

private theorem mem_requiredProductIds {r : Registry platform} {e : ProductId × List ProductTableRef}
    (he : e ∈ r.mappings.items) {m : ProductTableRef} (hm : m ∈ e.2) :
    m.productId ∈ (analyzeTableChange m.tableId r.allMappings).requiredProductIds := by
  have hall : m ∈ r.allMappings := List.mem_flatMap.2 ⟨e, mem_sortBy.2 he, hm⟩
  refine mem_sortedSet.2 (List.mem_map_of_mem (List.mem_filter.2 ⟨hall, decide_eq_true rfl⟩))

private theorem exists_of_mem_requiredProductIds {r : Registry platform} {tableId : TableId} {q : ProductId}
    (h : q ∈ (analyzeTableChange tableId r.allMappings).requiredProductIds) :
    ∃ e ∈ r.mappings.items, ∃ m ∈ e.2, m.tableId = tableId ∧ m.productId = q := by
  obtain ⟨m, hm, rfl⟩ := List.mem_map.1 (mem_sortedSet.1 h)
  obtain ⟨hall, htable⟩ := List.mem_filter.1 hm
  obtain ⟨e, he, hme⟩ := List.mem_flatMap.1 hall
  exact ⟨e, mem_sortBy.1 he, m, hme, of_decide_eq_true htable, rfl⟩

private theorem eq_singleton_of_not_shared {r : Registry platform} {tableId : TableId} {q : ProductId}
    (hshared : ¬ (analyzeTableChange tableId r.allMappings).shared = true)
    (h : q ∈ (analyzeTableChange tableId r.allMappings).requiredProductIds) :
    (analyzeTableChange tableId r.allMappings).requiredProductIds = [q] := by
  have hlength : (analyzeTableChange tableId r.allMappings).requiredProductIds.length ≤ 1 := by
    simpa [analyzeTableChange] using hshared
  obtain ⟨q', hq'⟩ := List.length_eq_one_iff.1 (le_antisymm hlength (List.length_pos_of_mem h))
  rw [hq', List.mem_singleton] at h
  rw [hq', h]

/-- A run that needs no changeset keeps all mappings current exactly if none of its changed tables is mapped by exactly
one product, another one than that of the run. -/
theorem mappingsCurrent_process_iff {lower : Text → Text} {newIds : NewIds} {input : ProcessInput}
    {r r' : Registry platform} {drafts : List TableDraft} {built : List (BuiltTable platform)} (hr : r.MappingsCurrent)
    (hdrafts : resolveTables lower newIds input.config input.dictionary r = .ok drafts)
    (hbuilt : buildTableRecords r drafts = .ok built) (h : processProduct lower newIds input r = .ok r')
    (hshared : sharedTables r built = []) :
    r'.MappingsCurrent ↔ OwnTables r input.config.productId built := by
  obtain ⟨hallow, hwritten⟩ := processProduct_eq_ok hdrafts hbuilt h
  have hlength : built.length = drafts.length := (mapM_eq_ok.1 hbuilt).length_eq.symm
  -- the table of a built record has the version of that record
  have hafter : ∀ b ∈ built, ∃ t, r'.getTable b.1.tableId = some t ∧ t.version = b.1.version := by
    intro b hb
    have hmapping : ∃ m ∈ buildMappings newIds input.config.productId built drafts r,
        m.tableId = b.1.tableId ∧ m.tableVersion = b.1.version := exists_mem_buildMappings hlength hb
    obtain ⟨m, hm, hid, hversion⟩ := hmapping
    obtain ⟨-, t, ht, htversion⟩ := Registry.checkMapping_eq_ok.1 (hwritten.checked m hm)
    exact ⟨t, hid ▸ ht, htversion.symm.trans hversion⟩
  constructor
  · intro hcurrent b hb hchanged hregistered q hq
    by_contra hne
    obtain ⟨e, he, m, hm, hid, rfl⟩ := exists_of_mem_requiredProductIds (hq ▸ List.mem_singleton.2 rfl)
    obtain ⟨hfiled, t, ht, hversion⟩ := Registry.checkMapping_eq_ok.1 (hr e he m hm)
    have he' : e ∈ r'.mappings.items := (hwritten.entries e).2 (Or.inr ⟨he, hfiled ▸ hne⟩)
    obtain ⟨-, t', ht', hversion'⟩ := Registry.checkMapping_eq_ok.1 (hcurrent e he' m hm)
    obtain ⟨t'', ht'', hbuiltVersion⟩ := hafter b hb
    rw [hid] at ht ht'
    have hsame : t' = t'' := Option.some_inj.1 (ht'.symm.trans ht'')
    have hkept : b.1.version = t.version := by rw [← hbuiltVersion, ← hsame, ← hversion', hversion]
    have hunchanged := (version_of_allow hbuilt hb (hallow b hb) ht).1 hkept
    rw [hchanged] at hunchanged
    cases hunchanged
  · intro hown e he m hm
    rcases (hwritten.entries e).1 he with rfl | ⟨hold, hother⟩
    · exact hwritten.checked m (mem_sortBy.1 hm)
    · obtain ⟨hfiled, t, ht, hversion⟩ := Registry.checkMapping_eq_ok.1 (hr e hold m hm)
      refine Registry.checkMapping_eq_ok.2 ⟨hfiled, ?_⟩
      by_cases hmem : m.tableId ∈ built.map fun b => b.1.tableId
      · obtain ⟨b, hb, hid⟩ := List.mem_map.1 hmem
        obtain ⟨t', ht', hbuiltVersion⟩ := hafter b hb
        rw [← hid] at ht
        have hunchanged : b.2.2.changed = false := by
          by_contra hchanged
          rw [Bool.not_eq_false] at hchanged
          have hregistered : r.getTable b.1.tableId ≠ none := by rw [ht]; simp
          have hrequired := mem_requiredProductIds hold hm
          rw [← hid, hfiled] at hrequired
          have hnot : ¬ (analyzeTableChange b.1.tableId r.allMappings).shared = true := by
            intro hsharedTable
            have hmember : b.1 ∈ sharedTables r built := List.mem_map_of_mem
              (List.mem_filter.2 ⟨hb, decide_eq_true ⟨hchanged, hregistered, hsharedTable⟩⟩)
            rw [hshared] at hmember
            cases hmember
          exact hother (hown b hb hchanged hregistered e.1 (eq_singleton_of_not_shared hnot hrequired))
        refine ⟨t', hid ▸ ht', ?_⟩
        rw [hversion, hbuiltVersion]
        exact ((version_of_allow hbuilt hb (hallow b hb) ht).2 hunchanged).symm
      · exact ⟨t, (hwritten.kept m.tableId hmem).trans ht, hversion⟩

/-! ### A product that attaches to the table of another one -/

/-- A table with one column of the given type. -/
private theorem stockColumn_stripped : Text.strip "id".toList = "id".toList := by decide

private def stockTable (dataType : Text) : DictionaryTable :=
  ⟨"wms|main|sales|stock".toList, none, [⟨1, "id".toList, stockColumn_stripped, none, dataType, false, true, none, none,
    none, none, ⟨sha256 [], .dictionaryExcel, [], none⟩⟩]⟩

private def stockIds : NewIds :=
  ⟨fun _ => ⟨"tbl_0198f6ca-2a11-78d1-8672-67d49e69f140".toList, Eq.refl true⟩,
    fun _ _ => ⟨"col_0198f6ca-2a11-78d1-8672-67d49e69f141".toList, Eq.refl true⟩,
    fun _ => ⟨"lnk_0198f6ca-2a11-78d1-8672-67d49e69f142".toList, Eq.refl true⟩⟩

private def stockInput (productId : ProductId) (productKey : Text) (operation : Operation) (version : Version)
    (dataType : Text) : ProcessInput :=
  ⟨⟨operation, productId, productKey, version, none, productKey, none, [], none, []⟩, [stockTable dataType],
    ⟨sha256 (productKey ++ dataType), [], [], [], []⟩, none, false⟩

private def stockId : ProductId := ⟨"prd_0198f6c2-8ac7-7f31-a48e-1c3d82e9a631".toList, by decide⟩

private def shopId : ProductId := ⟨"prd_0198f6c2-8ac7-7f31-a48e-1c3d82e9a632".toList, by decide⟩

private def stockRun (input : ProcessInput) (r : Registry .ascii) : PyResult (Registry .ascii) :=
  processProduct id stockIds input r

private def createStock : ProcessInput :=
  stockInput stockId "stock".toList .create ⟨1, one_isVersion⟩ "string".toList

private def createShop : ProcessInput :=
  stockInput shopId "shop".toList .create ⟨1, one_isVersion⟩ "integer".toList

private def updateStock : ProcessInput :=
  stockInput stockId "stock".toList .update ⟨2, two_isVersion⟩ "integer".toList

/-- The tables that a run needs a changeset for. -/
private def changesetTables (input : ProcessInput) (r : Registry .ascii) : PyResult (List (TableRecord .ascii)) := do
  let drafts ← resolveTables id stockIds input.config input.dictionary r
  let built ← buildTableRecords r drafts
  pure (sharedTables r built)

/-- A new product changes the table that one other product maps: the run needs no changeset, and the mapping of the
other product stays at the old version. -/
theorem process_attached_table : ∃ r r', stockRun createStock (.new .ascii) = .ok r ∧ r.MappingsCurrent ∧
    changesetTables createShop r = .ok [] ∧ stockRun createShop r = .ok r' ∧ ¬ r'.MappingsCurrent := by
  have hrun : (stockRun createStock (.new .ascii)).toOption.any (fun r => r.MappingsCurrent ∧
      changesetTables createShop r = .ok [] ∧
        (stockRun createShop r).toOption.any (fun r' => ¬ r'.MappingsCurrent)) = true := by decide +kernel
  obtain ⟨r, hfirst, hrest⟩ := exists_of_any_toOption hrun
  obtain ⟨hcurrent, hchangeset, hsecond⟩ := of_decide_eq_true hrest
  obtain ⟨r', hshop, hstale⟩ := exists_of_any_toOption hsecond
  exact ⟨r, r', hfirst, hcurrent, hchangeset, hshop, of_decide_eq_true hstale⟩

/-- A product that changes a table of its own keeps its mapping current. -/
theorem process_own_table : ∃ r r', stockRun createStock (.new .ascii) = .ok r ∧
    stockRun updateStock r = .ok r' ∧ r'.MappingsCurrent := by
  have hrun : (stockRun createStock (.new .ascii)).toOption.any (fun r => r.MappingsCurrent ∧
      (stockRun updateStock r).toOption.isSome ∧
        (resolveTables id stockIds updateStock.config updateStock.dictionary r).toOption.any (fun drafts =>
          (buildTableRecords r drafts).toOption.any (fun built => sharedTables r built = [] ∧
            ∀ b ∈ built, (analyzeTableChange b.1.tableId r.allMappings).requiredProductIds = [stockId]))) = true := by
    decide +kernel
  obtain ⟨r, hfirst, hrest⟩ := exists_of_any_toOption hrun
  obtain ⟨hcurrent, hsecond, htables⟩ := of_decide_eq_true hrest
  obtain ⟨drafts, hdrafts, hrecords⟩ := exists_of_any_toOption htables
  obtain ⟨built, hbuilt, hshared⟩ := exists_of_any_toOption hrecords
  obtain ⟨hnone, hproducts⟩ := of_decide_eq_true hshared
  cases hr' : stockRun updateStock r with
  | error e =>
    rw [hr'] at hsecond
    cases hsecond
  | ok r' =>
    refine ⟨r, r', hfirst, hr', (mappingsCurrent_process_iff hcurrent hdrafts hbuilt hr' hnone).2 ?_⟩
    intro b hb _ _ q hq
    rw [hproducts b hb] at hq
    exact (List.singleton_inj.1 hq).symm

end ArdOssie
