import ArdOssie.Release.Detection

/-!
# What release detection gives out

The members of the output, by the state of the changesets that the changed paths refer to, and the two overlaps of
changesets under which a changeset is not released as a whole.
-/

namespace ArdOssie

variable {platform : Platform} {registry : Registry platform}

namespace ChangeSetRecord

/-- Every required product is at its readiness version. -/
def AtReadiness (registry : Registry platform) (c : ChangeSetRecord) : Prop :=
  ∀ p ∈ c.requiredProductIds, ∃ product readiness, registry.getProduct p = some product ∧
    c.readyProducts.lookup p = some readiness ∧ readiness.version = product.version

def Released (registry : Registry platform) (c : ChangeSetRecord) : Prop := c.status = .ready ∧ c.AtReadiness registry

def Deferred (registry : Registry platform) (c : ChangeSetRecord) : Prop :=
  c.status = .ready ∧ ¬ c.AtReadiness registry

/-- The key of a required product. -/
def RequiresKey (registry : Registry platform) (c : ChangeSetRecord) (k : ProductKey) : Prop :=
  ∃ p ∈ c.requiredProductIds, ∃ product, registry.getProduct p = some product ∧ product.productKey = k

end ChangeSetRecord

/-- The changesets that the references name. -/
def References.Names (refs : References) (registry : Registry platform) (c : ChangeSetRecord) : Prop :=
  ∃ changesetId ∈ refs.changesetIds, registry.getChangeset changesetId = some c

/-! ### One changeset -/

private theorem resolveReadiness_eq_ok {c : ChangeSetRecord} {p : ProductId}
    {pair : ProductRecord platform × ProductReadiness} :
    resolveReadiness registry c p = .ok pair ↔ registry.getProduct p = some pair.1 ∧
      c.readyProducts.lookup p = some pair.2 ∧ ¬ pair.2.version < pair.1.version := by
  unfold resolveReadiness
  simp only [bind_eq_ok, require_eq_ok, failIf_eq_ok, exists_const, pure_eq_ok]
  constructor
  · rintro ⟨product, hproduct, readiness, hreadiness, hversion, rfl⟩
    exact ⟨hproduct, hreadiness, hversion⟩
  · rintro ⟨hproduct, hreadiness, hversion⟩
    exact ⟨pair.1, hproduct, pair.2, hreadiness, hversion, rfl⟩

private theorem atReadiness_iff {c : ChangeSetRecord} {resolved : List (ProductRecord platform × ProductReadiness)}
    (h : c.requiredProductIds.mapM (resolveReadiness registry c) = .ok resolved) :
    c.AtReadiness registry ↔ ∀ pair ∈ resolved, ¬ pair.1.version < pair.2.version := by
  constructor
  · intro hready pair hpair
    obtain ⟨p, hp, hpair⟩ := mem_of_mapM_eq_ok h hpair
    obtain ⟨hproduct, hreadiness, -⟩ := resolveReadiness_eq_ok.1 hpair
    obtain ⟨product, readiness, hproduct', hreadiness', hversion⟩ := hready p hp
    cases hproduct.symm.trans hproduct'
    cases hreadiness.symm.trans hreadiness'
    rw [hversion]
    exact lt_irrefl _
  · intro hall p hp
    obtain ⟨pair, hpair, hresolved⟩ := exists_of_mapM_eq_ok h hp
    obtain ⟨hproduct, hreadiness, hversion⟩ := resolveReadiness_eq_ok.1 hresolved
    exact ⟨pair.1, pair.2, hproduct, hreadiness, le_antisymm (not_lt.1 (hall pair hpair)) (not_lt.1 hversion)⟩

private theorem expandChangeset_none {c : ChangeSetRecord} (h : expandChangeset registry c = .ok none) :
    ¬ c.AtReadiness registry := by
  unfold expandChangeset at h
  obtain ⟨resolved, hresolved, h⟩ := bind_eq_ok.1 h
  intro hready
  have hall := (atReadiness_iff hresolved).1 hready
  rw [if_neg (by simpa using hall)] at h
  obtain ⟨_, _, h⟩ := bind_eq_ok.1 h
  exact absurd (pure_eq_ok.1 h) (by simp)

private theorem expandChangeset_some {c : ChangeSetRecord} {products : List ProductKey} {tables : List TableId}
    (h : expandChangeset registry c = .ok (some (products, tables))) :
    c.AtReadiness registry ∧ (∀ k, k ∈ products ↔ c.RequiresKey registry k) ∧ tables = c.tableIds := by
  unfold expandChangeset at h
  obtain ⟨resolved, hresolved, h⟩ := bind_eq_ok.1 h
  by_cases hfuture : resolved.any fun p => p.1.version < p.2.version
  · rw [if_pos hfuture] at h
    exact absurd (pure_eq_ok.1 h) (by simp)
  · rw [if_neg hfuture] at h
    obtain ⟨_, _, h⟩ := bind_eq_ok.1 h
    cases pure_eq_ok.1 h
    refine ⟨(atReadiness_iff hresolved).2 (by simpa using hfuture), ?_, rfl⟩
    intro k
    constructor
    · intro hk
      obtain ⟨pair, hpair, rfl⟩ := List.mem_map.1 hk
      obtain ⟨p, hp, hpair⟩ := mem_of_mapM_eq_ok hresolved hpair
      exact ⟨p, hp, pair.1, (resolveReadiness_eq_ok.1 hpair).1, rfl⟩
    · rintro ⟨p, hp, product, hproduct, rfl⟩
      obtain ⟨pair, hpair, hresolved⟩ := exists_of_mapM_eq_ok hresolved hp
      cases hproduct.symm.trans (resolveReadiness_eq_ok.1 hresolved).1
      exact List.mem_map_of_mem hpair

/-- A round of the expansion adds a released changeset and remembers the tables of a deferred one. -/
private theorem expandReference_eq_ok {e e' : Expansion} {changesetId : ChangeSetId}
    (h : expandReference registry e changesetId = .ok e') :
    ∃ c, registry.getChangeset changesetId = some c ∧
      (∀ k, k ∈ e'.products ↔ k ∈ e.products ∨ c.Released registry ∧ c.RequiresKey registry k) ∧
      (∀ t, t ∈ e'.tables ↔ t ∈ e.tables ∨ c.Released registry ∧ t ∈ c.tableIds) ∧
      ∀ t, t ∈ e'.deferred ↔ t ∈ e.deferred ∨ c.Deferred registry ∧ t ∈ c.tableIds := by
  unfold expandReference at h
  obtain ⟨c, hc, h⟩ := bind_eq_ok.1 h
  refine ⟨c, require_eq_ok.1 hc, ?_⟩
  by_cases hstatus : c.status = .ready
  · rw [if_neg (not_not.2 hstatus)] at h
    obtain ⟨expanded, hexpanded, h⟩ := bind_eq_ok.1 h
    cases expanded with
    | none =>
      cases pure_eq_ok.1 h
      have hready := expandChangeset_none hexpanded
      simp [ChangeSetRecord.Released, ChangeSetRecord.Deferred, hready, hstatus]
    | some pair =>
      cases pure_eq_ok.1 h
      obtain ⟨hready, hproducts, htables⟩ := expandChangeset_some hexpanded
      simp [ChangeSetRecord.Released, ChangeSetRecord.Deferred, hready, hstatus, hproducts, htables]
  · rw [if_pos hstatus] at h
    cases pure_eq_ok.1 h
    simp [ChangeSetRecord.Released, ChangeSetRecord.Deferred, hstatus]

/-! ### All changesets -/

/-- The rounds of the expansion add the released changesets and remember the tables of the deferred ones. -/
private theorem foldlM_expandReference_eq_ok {ids : List ChangeSetId} {e e' : Expansion}
    (h : ids.foldlM (expandReference registry) e = .ok e') :
    (∀ k, k ∈ e'.products ↔ k ∈ e.products ∨
      ∃ i ∈ ids, ∃ c, registry.getChangeset i = some c ∧ c.Released registry ∧ c.RequiresKey registry k) ∧
    (∀ t, t ∈ e'.tables ↔ t ∈ e.tables ∨
      ∃ i ∈ ids, ∃ c, registry.getChangeset i = some c ∧ c.Released registry ∧ t ∈ c.tableIds) ∧
    ∀ t, t ∈ e'.deferred ↔ t ∈ e.deferred ∨
      ∃ i ∈ ids, ∃ c, registry.getChangeset i = some c ∧ c.Deferred registry ∧ t ∈ c.tableIds := by
  induction ids generalizing e with
  | nil =>
    rw [List.foldlM_nil, pure_eq_ok] at h
    subst h
    simp
  | cons i ids ih =>
    rw [List.foldlM_cons, bind_eq_ok] at h
    obtain ⟨e₁, h₁, h⟩ := h
    obtain ⟨c, hc, hproducts, htables, hdeferred⟩ := expandReference_eq_ok h₁
    obtain ⟨hproducts', htables', hdeferred'⟩ := ih h
    refine ⟨fun k => ?_, fun t => ?_, fun t => ?_⟩
    · rw [hproducts', hproducts]
      simp [hc, or_assoc]
    · rw [htables', htables]
      simp [hc, or_assoc]
    · rw [hdeferred', hdeferred]
      simp [hc, or_assoc]

variable {refs : References} {products : List ProductKey} {tables : List TableId}

/-- The products of the output are the directly changed ones and those of the released changesets; the tables are the
changed ones and those of the released changesets, without the tables of a deferred one. -/
theorem expandReferences_eq_ok (h : expandReferences registry refs = .ok (products, tables)) :
    (∀ k, k ∈ products ↔ k ∈ refs.directProducts ∨
      ∃ c, refs.Names registry c ∧ c.Released registry ∧ c.RequiresKey registry k) ∧
    ∀ t, t ∈ tables ↔
      (t ∈ refs.tableIds ∨ ∃ c, refs.Names registry c ∧ c.Released registry ∧ t ∈ c.tableIds) ∧
        ¬ ∃ c, refs.Names registry c ∧ c.Deferred registry ∧ t ∈ c.tableIds := by
  unfold expandReferences at h
  obtain ⟨e, he, h⟩ := bind_eq_ok.1 h
  cases pure_eq_ok.1 h
  obtain ⟨hproducts, htables, hdeferred⟩ := foldlM_expandReference_eq_ok he
  have hnames : ∀ P : ChangeSetRecord → Prop,
      (∃ i ∈ sortedSet refs.changesetIds, ∃ c, registry.getChangeset i = some c ∧ P c) ↔
        ∃ c, refs.Names registry c ∧ P c := by
    intro P
    constructor
    · rintro ⟨i, hi, c, hc, hP⟩
      exact ⟨c, ⟨i, mem_sortedSet.1 hi, hc⟩, hP⟩
    · rintro ⟨c, ⟨i, hi, hc⟩, hP⟩
      exact ⟨i, mem_sortedSet.2 hi, c, hc, hP⟩
  constructor
  · intro k
    rw [mem_sortedSet, hproducts, hnames]
  · intro t
    rw [mem_sortedSet, List.mem_filter, htables, hnames, decide_eq_true_eq, hdeferred, hnames]
    simp

/-! ### Products that are changed on their own -/

/-- The changeset that a configuration names, if it is well formed. -/
private def namedChangeset (config : Json) : Option ChangeSetId :=
  match config.field "changeset_id" with
  | .str t => EntityId.parse "cst_" t
  | _ => none

private theorem configChangeset_eq_ok {product : ProductRecord platform} {config : Json} {a : Option ChangeSetId}
    (h : ReleaseWorld.configChangeset product config = .ok a) : a = namedChangeset config := by
  unfold ReleaseWorld.configChangeset at h
  unfold namedChangeset
  generalize config.field "changeset_id" = value at h ⊢
  split at h
  · rw [← pure_eq_ok.1 h]
  · rw [← pure_eq_ok.1 h]
    rfl
  · obtain ⟨i, hi, h⟩ := bind_eq_ok.1 h
    rw [← pure_eq_ok.1 h]
    exact (require_eq_ok.1 hi).symm
  · cases h

/-- Two products with one key are bound to the same changeset. -/
private theorem productChangeset_unique {world : ReleaseWorld platform} {product product' : ProductRecord platform}
    {a b : Option ChangeSetId} (hkey : product.productKey = product'.productKey)
    (ha : world.productChangeset product = .ok a) (hb : world.productChangeset product' = .ok b) : a = b := by
  unfold ReleaseWorld.productChangeset at ha hb
  obtain ⟨config, hconfig, ha⟩ := bind_eq_ok.1 ha
  obtain ⟨config', hconfig', hb⟩ := bind_eq_ok.1 hb
  rw [hkey] at hconfig
  cases hconfig.symm.trans hconfig'
  rw [configChangeset_eq_ok (failIf_bind_eq_ok.1 ha).2, configChangeset_eq_ok (failIf_bind_eq_ok.1 hb).2]

private theorem referenceProduct_direct {world : ReleaseWorld platform} {refs refs' : References}
    {relative : List Text} {key : Text} (h : world.referenceProduct registry refs relative key = .ok refs')
    {k : ProductKey} (hk : k ∈ refs'.directProducts) :
    k ∈ refs.directProducts ∨ ∃ product, product.productKey = k ∧ world.productChangeset product = .ok none := by
  unfold ReleaseWorld.referenceProduct at h
  obtain ⟨productKey, -, h⟩ := bind_eq_ok.1 h
  obtain ⟨_, -, h⟩ := bind_eq_ok.1 h
  obtain ⟨product, hproduct, h⟩ := bind_eq_ok.1 h
  obtain ⟨changeset, hchangeset, h⟩ := bind_eq_ok.1 h
  have hproductKey : product.productKey = productKey := by
    have hmem := List.mem_of_getLast? (require_eq_ok.1 hproduct)
    exact of_decide_eq_true (List.mem_filter.1 hmem).2
  cases changeset with
  | none =>
    cases pure_eq_ok.1 h
    rcases List.mem_append.1 hk with hk | hk
    · exact Or.inl hk
    · exact Or.inr ⟨product, hproductKey.trans (List.mem_singleton.1 hk).symm, hchangeset⟩
  | some changesetId =>
    cases pure_eq_ok.1 h
    exact Or.inl hk

/-- A product that is changed on its own is bound to no changeset. -/
private theorem references_direct {world : ReleaseWorld platform} {paths : List FilePath}
    (h : world.references registry paths = .ok refs) :
    ∀ k ∈ refs.directProducts, ∃ product, product.productKey = k ∧ world.productChangeset product = .ok none := by
  refine foldlM_invariant (P := fun _ refs => ∀ k ∈ refs.directProducts,
    ∃ product, product.productKey = k ∧ world.productChangeset product = .ok none) ?_ h (by simp)
  intro path _ refs refs' hrefs hstep k hk
  unfold ReleaseWorld.reference at hstep
  obtain ⟨relative, -, hstep⟩ := bind_eq_ok.1 hstep
  split at hstep
  · exact (referenceProduct_direct hstep hk).elim (hrefs k) id
  · obtain ⟨_, -, hstep⟩ := bind_eq_ok.1 hstep
    cases pure_eq_ok.1 hstep
    exact hrefs k hk
  · obtain ⟨_, -, hstep⟩ := bind_eq_ok.1 hstep
    obtain ⟨_, -, hstep⟩ := bind_eq_ok.1 hstep
    cases pure_eq_ok.1 hstep
    exact hrefs k hk
  · cases pure_eq_ok.1 hstep
    exact hrefs k hk

/-! ### Atomicity -/

/-- A released changeset is in the output as a whole.  A table all of whose changesets are blocked or deferred is not in
the output, nor is a product whose configuration names such a changeset and that no released changeset requires. -/
structure ReleaseAtomic (world : ReleaseWorld platform) (registry : Registry platform) (refs : References)
    (products : List ProductKey) (tables : List TableId) : Prop where
  released_products : ∀ c, refs.Names registry c → c.Released registry → ∀ k, c.RequiresKey registry k → k ∈ products
  released_tables : ∀ c, refs.Names registry c → c.Released registry → ∀ t ∈ c.tableIds, t ∈ tables
  withheld_tables : ∀ t, (∃ c, refs.Names registry c ∧ t ∈ c.tableIds) →
    (∀ c, refs.Names registry c → t ∈ c.tableIds → ¬ c.Released registry) → t ∉ tables
  withheld_products : ∀ product c, world.productChangeset product = .ok (some c.changesetId) →
    refs.Names registry c → ¬ c.Released registry →
      (∀ c', refs.Names registry c' → c'.Released registry → ¬ c'.RequiresKey registry product.productKey) →
        product.productKey ∉ products

/-- No table of a released changeset is one of a deferred changeset, and every changed table of a blocked changeset is
one of a released or of a deferred changeset. -/
structure ReleaseSeparated (registry : Registry platform) (refs : References) : Prop where
  released_deferred : ∀ c c', refs.Names registry c → refs.Names registry c' → c.Released registry →
    c'.Deferred registry → ∀ t ∈ c.tableIds, t ∉ c'.tableIds
  blocked_changed : ∀ t ∈ refs.tableIds, ∀ c, refs.Names registry c → c.status = .blocked → t ∈ c.tableIds →
    ∃ c', refs.Names registry c' ∧ (c'.Released registry ∨ c'.Deferred registry) ∧ t ∈ c'.tableIds

private theorem atomic_of_separated {world : ReleaseWorld platform} {paths : List FilePath}
    (hrefs : world.references registry paths = .ok refs)
    (houtput : expandReferences registry refs = .ok (products, tables)) (h : ReleaseSeparated registry refs) :
    ReleaseAtomic world registry refs products tables := by
  obtain ⟨hproducts, htables⟩ := expandReferences_eq_ok houtput
  refine ⟨?_, ?_, ?_, ?_⟩
  · intro c hc hreleased k hk
    exact (hproducts k).2 (Or.inr ⟨c, hc, hreleased, hk⟩)
  · intro c hc hreleased t ht
    refine (htables t).2 ⟨Or.inr ⟨c, hc, hreleased, ht⟩, ?_⟩
    rintro ⟨c', hc', hdeferred, ht'⟩
    exact h.released_deferred c c' hc hc' hreleased hdeferred t ht ht'
  · rintro t ⟨c, hc, ht⟩ hwithheld hmem
    obtain ⟨hmem, hnone⟩ := (htables t).1 hmem
    have hblocked : c.status = .blocked := by
      cases hstatus : c.status with
      | blocked => rfl
      | ready =>
        by_cases hready : c.AtReadiness registry
        · exact absurd ⟨hstatus, hready⟩ (hwithheld c hc ht)
        · exact absurd ⟨c, hc, ⟨hstatus, hready⟩, ht⟩ hnone
    rcases hmem with hmem | ⟨c', hc', hreleased, ht'⟩
    · obtain ⟨c', hc', hreleased | hdeferred, ht'⟩ := h.blocked_changed t hmem c hc hblocked ht
      · exact hwithheld c' hc' ht' hreleased
      · exact hnone ⟨c', hc', hdeferred, ht'⟩
    · exact hwithheld c' hc' ht' hreleased
  · intro product c hbound _ _ hrequired hmem
    rcases (hproducts product.productKey).1 hmem with hdirect | ⟨c', hc', hreleased, hrequires⟩
    · obtain ⟨product', hkey, hunbound⟩ := references_direct hrefs _ hdirect
      have hsame := productChangeset_unique hkey hunbound hbound
      cases hsame
    · exact hrequired c' hc' hreleased hrequires

private theorem separated_of_atomic {world : ReleaseWorld platform}
    (houtput : expandReferences registry refs = .ok (products, tables))
    (h : ReleaseAtomic world registry refs products tables) : ReleaseSeparated registry refs := by
  obtain ⟨-, htables⟩ := expandReferences_eq_ok houtput
  refine ⟨?_, ?_⟩
  · intro c c' hc hc' hreleased hdeferred t ht ht'
    exact ((htables t).1 (h.released_tables c hc hreleased t ht)).2 ⟨c', hc', hdeferred, ht'⟩
  · intro t hchanged c hc hblocked ht
    by_contra hnone
    refine h.withheld_tables t ⟨c, hc, ht⟩ ?_ ((htables t).2 ⟨Or.inl hchanged, ?_⟩)
    · intro c' hc' ht' hreleased
      exact hnone ⟨c', hc', Or.inl hreleased, ht'⟩
    · rintro ⟨c', hc', hdeferred, ht'⟩
      exact hnone ⟨c', hc', Or.inr hdeferred, ht'⟩

/-- A successful detection treats the changesets as wholes exactly if those that the changed paths refer to are
separated. -/
theorem detect_atomic_iff {world : ReleaseWorld platform} {request : ReleaseDetectionRequest} {out : ReleaseDetection}
    (h : world.detect request = .ok out) :
    ∃ changed registry refs, world.changedPaths request.before request.current = .ok changed ∧
      world.registry = some registry ∧ world.references registry changed.2 = .ok refs ∧
        (ReleaseAtomic world registry refs out.products out.tables ↔ ReleaseSeparated registry refs) := by
  unfold ReleaseWorld.detect at h
  obtain ⟨-, h⟩ := failIf_bind_eq_ok.1 h
  obtain ⟨sha, -, h⟩ := bind_eq_ok.1 h
  obtain ⟨-, h⟩ := failIf_bind_eq_ok.1 h
  obtain ⟨changed, hchanged, h⟩ := bind_eq_ok.1 h
  obtain ⟨registry, hregistry, h⟩ := bind_eq_ok.1 h
  obtain ⟨refs, hrefs, h⟩ := bind_eq_ok.1 h
  obtain ⟨output, houtput, h⟩ := bind_eq_ok.1 h
  cases pure_eq_ok.1 h
  refine ⟨changed, registry, refs, hchanged, require_eq_ok.1 hregistry, hrefs, ?_⟩
  exact ⟨separated_of_atomic houtput, atomic_of_separated hrefs houtput⟩

private def exampleTable : TableRecord .ascii where
  tableId := ⟨"tbl_0198f6ca-2a11-78d1-8672-67d49e69f14c".toList, by decide⟩
  locator := ⟨⟨"dw".toList, by decide, by decide⟩, .sales,
    ⟨"public".toList, by decide, by decide⟩, .orders⟩
  version := ⟨2, two_isVersion⟩
  status := .active
  aliases := []
  columns := []
  schemaHash := none
  canonicalHash := none
  columnIds_nodup := by decide
  columnNames_nodup := by decide

/-- A changeset whose only product is not ready. -/
private def exampleChangeset : ChangeSetRecord where
  changesetId := ⟨"cst_0198f6d0-1111-7222-8333-444455556666".toList, by decide⟩
  tableIds := [exampleTable.tableId]
  requiredProductIds := [⟨"prd_0198f6c2-8ac7-7f31-a48e-1c3d82e9a631".toList, Eq.refl true⟩]
  readyProducts := ∅

private def exampleRegistry : Registry .ascii :=
  { Registry.new .ascii with
    tables := (KeyedList.empty _).put exampleTable, changesets := (KeyedList.empty _).put exampleChangeset }

private def exampleCommit : Text := List.replicate 40 'a'

/-- A merge that changed the given files of the registry. -/
private def exampleWorld (paths : List (List Text)) : ReleaseWorld .ascii where
  checkout := ⟨["repository".toList], fun _ => none⟩
  loadYaml := fun _ => none
  currentSha := .ok exampleCommit
  changedPaths := fun before _ => .ok (before, paths.map (FilePath.mk false))
  registry := some exampleRegistry

private def exampleRequest : ReleaseDetectionRequest := ⟨["repository".toList], exampleCommit, exampleCommit⟩

private def examplePaths : List (List Text) :=
  [["registry".toList, "tables".toList, exampleTable.tableId.text ++ ".json".toList],
    ["registry".toList, "changesets".toList, exampleChangeset.changesetId.text ++ ".json".toList]]

private def exampleDetection (tables : List TableId) : ReleaseDetection :=
  ⟨exampleCommit, exampleCommit, exampleCommit, [], tables, tables = []⟩

/-- The table of a blocked changeset is given out with the merge that changed both. -/
theorem detect_blocked_table :
    (exampleWorld examplePaths).detect exampleRequest = .ok (exampleDetection [exampleTable.tableId]) ∧
      (exampleWorld examplePaths).references exampleRegistry (examplePaths.map (FilePath.mk false)) =
        .ok ⟨[], [exampleChangeset.changesetId], [exampleTable.tableId]⟩ ∧
          ¬ ReleaseAtomic (exampleWorld examplePaths) exampleRegistry
            ⟨[], [exampleChangeset.changesetId], [exampleTable.tableId]⟩ [] [exampleTable.tableId] := by
  refine ⟨by decide +kernel, by decide +kernel, ?_⟩
  intro h
  have hname : ∀ c, References.Names ⟨[], [exampleChangeset.changesetId], [exampleTable.tableId]⟩ exampleRegistry c →
      c = exampleChangeset := by
    rintro c ⟨i, hi, hc⟩
    rw [List.mem_singleton.1 hi] at hc
    exact (Option.some_inj.1 hc).symm
  refine h.withheld_tables exampleTable.tableId ⟨exampleChangeset, ⟨_, List.mem_singleton.2 rfl, rfl⟩, ?_⟩ ?_ ?_
  · exact List.mem_singleton.2 rfl
  · intro c hc _ hreleased
    rw [hname c hc] at hreleased
    exact absurd hreleased.1 (by decide)
  · exact List.mem_singleton.2 rfl

/-- A merge that changed only the table. -/
theorem detect_atomic_iff_table : ∃ changed registry refs,
    (exampleWorld (examplePaths.take 1)).changedPaths exampleRequest.before exampleRequest.current = .ok changed ∧
      (exampleWorld (examplePaths.take 1)).registry = some registry ∧
        (exampleWorld (examplePaths.take 1)).references registry changed.2 = .ok refs ∧
          (ReleaseAtomic (exampleWorld (examplePaths.take 1)) registry refs [] [exampleTable.tableId] ↔
            ReleaseSeparated registry refs) := by
  have hdetect : (exampleWorld (examplePaths.take 1)).detect exampleRequest =
      .ok (exampleDetection [exampleTable.tableId]) := by decide +kernel
  exact detect_atomic_iff hdetect

end ArdOssie
