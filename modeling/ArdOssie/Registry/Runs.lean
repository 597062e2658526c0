import ArdOssie.Registry.Store

/-!
# Runs of registry writes

A key or an alias resolves to at most one product, a locator to at most one table, the indexes are those of the current
records, and a retired identifier stays retired.  A write checks the key of a product against the other products, but
not its aliases: the first property holds exactly in the runs whose products bring no alias of another product.
-/

namespace ArdOssie

variable {platform : Platform}

/-- A write of the registry, or a new start from its files. -/
inductive RegistryWrite (platform : Platform) where
  | product (record : ProductRecord platform)
  | table (record : TableRecord platform)
  | mappings (productId : ProductId) (mappings : List ProductTableRef)
  | changeset (record : ChangeSetRecord)
  | load

namespace Registry

/-- The effect of a write. -/
def write (r : Registry platform) : RegistryWrite platform → PyResult (Registry platform)
  | .product record => r.writeProduct record
  | .table record => r.writeTable record
  | .mappings productId mappings => r.writeMappings productId mappings
  | .changeset record => pure (r.writeChangeset record)
  | .load => pure r.load

/-- The writes are accepted one after the other, from a new registry to `r`. -/
def Accepted (writes : List (RegistryWrite platform)) (r : Registry platform) : Prop :=
  writes.foldlM write (new platform) = .ok r

theorem accepted_append {w w' : List (RegistryWrite platform)} {r : Registry platform} :
    Accepted (w ++ w') r ↔ ∃ s, Accepted w s ∧ w'.foldlM write s = .ok r := by
  unfold Accepted
  rw [List.foldlM_append, bind_eq_ok]

theorem accepted_concat {w : List (RegistryWrite platform)} {x : RegistryWrite platform} {r : Registry platform} :
    Accepted (w ++ [x]) r ↔ ∃ s, Accepted w s ∧ s.write x = .ok r := by
  rw [accepted_append]
  simp

/-! ### The invariants -/

/-- Every product and every table has its own names, and the indexes are those of the records. -/
structure Consistent (r : Registry platform) : Prop where
  products : ∀ p ∈ r.products.items, ∀ q ∈ r.products.items, ∀ k, k ∈ p.names → k ∈ q.names → p = q
  tables : ∀ t ∈ r.tables.items, ∀ u ∈ r.tables.items, t.locator.key = u.locator.key → t = u
  productKeys : r.productKeys = productKeyIndex r.products.items
  tableLocators : r.tableLocators = tableLocatorIndex r.tables.items

def ProductRetired (r : Registry platform) (productId : ProductId) : Prop :=
  ∃ p, r.getProduct productId = some p ∧ p.status = .retired

def TableRetired (r : Registry platform) (tableId : TableId) : Prop :=
  ∃ t, r.getTable tableId = some t ∧ t.status = .retired

/-- No alias of a record is a key or an alias of another product. -/
def AliasesFree (r : Registry platform) (record : ProductRecord platform) : Prop :=
  ∀ item ∈ r.products.items, item.productId ≠ record.productId → ∀ a ∈ record.aliases, a ∉ item.names

theorem consistent_new : (new platform).Consistent where
  products := by simp [new]
  tables := by simp [new]
  productKeys := rfl
  tableLocators := rfl

/-! ### Steps -/

private theorem consistent_writeProduct {r r' : Registry platform} {record : ProductRecord platform}
    (hr : r.Consistent) (hfree : r.AliasesFree record) (h : r.writeProduct record = .ok r') : r'.Consistent := by
  obtain ⟨-, hkey, rfl⟩ := writeProduct_eq_ok.1 h
  have hnames : ∀ q ∈ r.products.items, q.productId ≠ record.productId → ∀ k ∈ record.names, k ∉ q.names := by
    intro q hq hne k hk
    rcases List.mem_cons.1 hk with rfl | hk
    · exact hkey q hq hne
    · exact hfree q hq hne k hk
  refine ⟨?_, hr.tables, rfl, rfl⟩
  intro p hp q hq k hkp hkq
  rcases KeyedList.mem_put.1 hp with rfl | ⟨hp', hpne⟩ <;> rcases KeyedList.mem_put.1 hq with rfl | ⟨hq', hqne⟩
  · rfl
  · exact absurd hkq (hnames q hq' hqne k hkp)
  · exact absurd hkp (hnames p hp' hpne k hkq)
  · exact hr.products p hp' q hq' k hkp hkq

private theorem consistent_writeTable {r r' : Registry platform} {record : TableRecord platform}
    (hr : r.Consistent) (h : r.writeTable record = .ok r') : r'.Consistent := by
  obtain ⟨-, hlocator, rfl⟩ := writeTable_eq_ok.1 h
  refine ⟨hr.products, ?_, rfl, rfl⟩
  intro t ht u hu hkey
  rcases KeyedList.mem_put.1 ht with rfl | ⟨ht', htne⟩ <;> rcases KeyedList.mem_put.1 hu with rfl | ⟨hu', hune⟩
  · rfl
  · exact absurd hkey.symm (hlocator u hu' hune)
  · exact absurd hkey (hlocator t ht' htne)
  · exact hr.tables t ht' u hu' hkey

/-- The index of a list with distinct keys does not depend on its order. -/
private theorem index_eq_of_perm {α κ ι : Type} [LinearOrder κ] [DecidableEq κ] {key : α → κ} {f : α → ι} {l l' : List α}
    (hl : (l.map key).Nodup) (h : l'.Perm l) :
    KeyedList.ofList (fun e : κ × ι => e.1) ((sortBy key l').map fun a => (key a, f a)) =
      KeyedList.ofList _ ((sortBy key l).map fun a => (key a, f a)) := by
  have hl' : (l'.map key).Nodup := ((h.map key).nodup_iff).2 hl
  have hperm : (sortBy key l').Perm (sortBy key l) := ((sortBy_perm _ _).trans h).trans (sortBy_perm _ _).symm
  rw [eq_of_pairwise_key_lt (sortBy_pairwise_lt hl') (sortBy_pairwise_lt hl) hperm]

private theorem consistent_load {r : Registry platform} (hr : r.Consistent) : r.load.Consistent := by
  have hproductKeys : (r.products.items.map fun p => p.productKey).Nodup := by
    refine (List.nodup_map_iff_inj_on (r.products.nodup.of_map _)).2 ?_
    intro p hp q hq h
    exact hr.products p hp q hq p.productKey List.mem_cons_self (h ▸ List.mem_cons_self)
  have hlocators : (r.tables.items.map fun t => t.locator.key).Nodup := by
    refine (List.nodup_map_iff_inj_on (r.tables.nodup.of_map _)).2 ?_
    exact fun t ht u hu h => hr.tables t ht u hu h
  refine ⟨?_, ?_, ?_, ?_⟩
  · intro p hp q hq
    exact hr.products p (mem_sortBy.1 hp) q (mem_sortBy.1 hq)
  · intro t ht u hu
    exact hr.tables t (mem_sortBy.1 ht) u (mem_sortBy.1 hu)
  · have hperm : r.load.products.items.Perm r.products.items := sortBy_perm _ _
    have hindex : productKeyIndex r.load.products.items = productKeyIndex r.products.items :=
      index_eq_of_perm (f := fun p : ProductRecord platform => p.productId) hproductKeys hperm
    exact hr.productKeys.trans hindex.symm
  · have hperm : r.load.tables.items.Perm r.tables.items := sortBy_perm _ _
    have hindex : tableLocatorIndex r.load.tables.items = tableLocatorIndex r.tables.items :=
      index_eq_of_perm (f := fun t : TableRecord platform => t.tableId) hlocators hperm
    exact hr.tableLocators.trans hindex.symm

/-- A write keeps the invariants if a product that it writes has free aliases. -/
theorem Consistent.write {r r' : Registry platform} {x : RegistryWrite platform} (hr : r.Consistent)
    (hfree : ∀ record, x = .product record → r.AliasesFree record) (h : r.write x = .ok r') : r'.Consistent := by
  cases x with
  | product record => exact consistent_writeProduct hr (hfree record rfl) h
  | table record => exact consistent_writeTable hr h
  | mappings productId mappings =>
    obtain ⟨-, -, rfl⟩ := writeMappings_eq_ok.1 h
    exact ⟨hr.products, hr.tables, hr.productKeys, hr.tableLocators⟩
  | changeset record =>
    cases pure_eq_ok.1 h
    exact ⟨hr.products, hr.tables, hr.productKeys, hr.tableLocators⟩
  | load =>
    cases pure_eq_ok.1 h
    exact consistent_load hr

private theorem status_put {α κ : Type} [DecidableEq κ] {key : α → κ} {status : α → EntityStatus} {d : KeyedList key}
    {a : α} (ha : ¬ retiredReuse ((d.get (key a)).map status) (status a)) {k : κ}
    (h : ∃ b, d.get k = some b ∧ status b = .retired) : ∃ b, (d.put a).get k = some b ∧ status b = .retired := by
  obtain ⟨b, hb, hstatus⟩ := h
  rw [KeyedList.get_put]
  by_cases hk : k = key a
  · refine ⟨a, if_pos hk, ?_⟩
    cases hactive : status a with
    | retired => rfl
    | active => exact absurd ⟨by rw [← hk, hb, Option.map_some, hstatus], hactive⟩ ha
  · exact ⟨b, by rw [if_neg hk, hb], hstatus⟩

/-- A write keeps a retired product retired. -/
theorem ProductRetired.write {r r' : Registry platform} {x : RegistryWrite platform} {productId : ProductId}
    (hr : r.ProductRetired productId) (h : r.write x = .ok r') : r'.ProductRetired productId := by
  cases x with
  | product record =>
    obtain ⟨hreuse, -, rfl⟩ := writeProduct_eq_ok.1 h
    exact status_put hreuse hr
  | table record =>
    obtain ⟨-, -, rfl⟩ := writeTable_eq_ok.1 h
    exact hr
  | mappings id mappings =>
    obtain ⟨-, -, rfl⟩ := writeMappings_eq_ok.1 h
    exact hr
  | changeset record =>
    cases pure_eq_ok.1 h
    exact hr
  | load =>
    cases pure_eq_ok.1 h
    obtain ⟨p, hp, hstatus⟩ := hr
    exact ⟨p, (getProduct_load r productId).trans hp, hstatus⟩

/-- A write keeps a retired table retired. -/
theorem TableRetired.write {r r' : Registry platform} {x : RegistryWrite platform} {tableId : TableId}
    (hr : r.TableRetired tableId) (h : r.write x = .ok r') : r'.TableRetired tableId := by
  cases x with
  | product record =>
    obtain ⟨-, -, rfl⟩ := writeProduct_eq_ok.1 h
    exact hr
  | table record =>
    obtain ⟨hreuse, -, rfl⟩ := writeTable_eq_ok.1 h
    exact status_put hreuse hr
  | mappings id mappings =>
    obtain ⟨-, -, rfl⟩ := writeMappings_eq_ok.1 h
    exact hr
  | changeset record =>
    cases pure_eq_ok.1 h
    exact hr
  | load =>
    cases pure_eq_ok.1 h
    obtain ⟨t, ht, hstatus⟩ := hr
    exact ⟨t, (getTable_load r tableId).trans ht, hstatus⟩

/-! ### Runs -/

/-- A property that every write keeps is kept by a run. -/
private theorem foldlM_write_keeps {P : Registry platform → Prop}
    (hstep : ∀ r x r', P r → r.write x = .ok r' → P r') {writes : List (RegistryWrite platform)}
    {r r' : Registry platform} (h : writes.foldlM write r = .ok r') (hr : P r) : P r' :=
  foldlM_invariant (P := fun _ => P) (fun x _ s s' hs hx => hstep s x s' hs hx) h hr

private theorem consistent_of_free {writes : List (RegistryWrite platform)} {r : Registry platform}
    (h : Accepted writes r)
    (hfree : ∀ w record w' s, writes = w ++ .product record :: w' → Accepted w s → s.AliasesFree record) :
    r.Consistent := by
  induction writes using List.reverseRecOn generalizing r with
  | nil =>
    cases pure_eq_ok.1 h
    exact consistent_new
  | append_singleton writes x ih =>
    obtain ⟨s, hs, hx⟩ := accepted_concat.1 h
    have hconsistent : s.Consistent := by
      refine ih hs fun w record w' s' hw hs' => hfree w record (w' ++ [x]) s' ?_ hs'
      rw [hw, List.append_assoc, List.cons_append]
    refine hconsistent.write (fun record hx => hfree writes record [] s ?_ hs) hx
    rw [hx]

/-- In a run of accepted writes from a new registry, every state has unambiguous names, locators and indexes, and what
is retired there is retired at the end, exactly if every product that is written has free aliases. -/
theorem accepted_consistent_iff {writes : List (RegistryWrite platform)} {r : Registry platform}
    (h : Accepted writes r) :
    (∀ w w' s, writes = w ++ w' → Accepted w s → s.Consistent ∧
        (∀ productId, s.ProductRetired productId → r.ProductRetired productId) ∧
          ∀ tableId, s.TableRetired tableId → r.TableRetired tableId) ↔
      ∀ w record w' s, writes = w ++ .product record :: w' → Accepted w s → s.AliasesFree record := by
  constructor
  · intro hall w record w' s hw hs item hitem hne a ha hname
    rw [hw, ← List.singleton_append, ← List.append_assoc] at h
    obtain ⟨s', hs', -⟩ := accepted_append.1 h
    have hconsistent : s'.Consistent := by
      refine (hall (w ++ [.product record]) w' s' ?_ hs').1
      rw [hw, List.append_assoc, List.singleton_append]
    obtain ⟨s₀, hs₀, hwrite⟩ := accepted_concat.1 hs'
    cases hs.symm.trans hs₀
    obtain ⟨-, -, rfl⟩ := writeProduct_eq_ok.1 hwrite
    have hsame : item = record :=
      hconsistent.products item (KeyedList.mem_put.2 (Or.inr ⟨hitem, hne⟩)) record (KeyedList.mem_put.2 (Or.inl rfl))
        a hname (List.mem_cons_of_mem _ ha)
    exact hne (congrArg _ hsame)
  · intro hfree w w' s hw hs
    subst hw
    obtain ⟨s₀, hs₀, hrest⟩ := accepted_append.1 h
    cases hs.symm.trans hs₀
    refine ⟨?_, ?_, ?_⟩
    · refine consistent_of_free hs fun w₁ record w₂ s₁ hw hs₁ => hfree w₁ record (w₂ ++ w') s₁ ?_ hs₁
      rw [hw, List.append_assoc, List.cons_append]
    · intro productId
      exact foldlM_write_keeps (fun _ _ _ => ProductRetired.write) hrest
    · intro tableId
      exact foldlM_write_keeps (fun _ _ _ => TableRetired.write) hrest

/-- A product with the given identifier, key and aliases. -/
private def plainProduct (productId : ProductId) (productKey : ProductKey) (aliases : List ProductKey)
    (status : EntityStatus) : ProductRecord .ascii :=
  ⟨productId, productKey, ⟨1, one_isVersion⟩, status, none, aliases, none, [], [], namedIdsUnique_nil, namedIdsUnique_nil⟩

private def salesProduct : ProductRecord .ascii :=
  plainProduct ⟨"prd_0198f6c2-8ac7-7f31-a48e-1c3d82e9a631".toList, Eq.refl true⟩ ⟨"sales-order".toList, Eq.refl true⟩ []
    .active

/-- A product whose alias is the key of the first one. -/
private def ordersProduct : ProductRecord .ascii :=
  plainProduct ⟨"prd_0198f6c2-8ac7-7f31-a48e-1c3d82e9a632".toList, Eq.refl true⟩ ⟨"orders".toList, Eq.refl true⟩
    [⟨"sales-order".toList, Eq.refl true⟩] .active

private def writtenProducts (products : List (ProductRecord .ascii)) : Registry .ascii :=
  products.foldl (fun r p => { r with products := r.products.put p }.writeIndexes) (new .ascii)

private theorem accepted_sales : Accepted [.product salesProduct] (writtenProducts [salesProduct]) := by
  refine (accepted_concat (w := [])).2 ⟨new .ascii, rfl, ?_⟩
  exact writeProduct_eq_ok.2 ⟨by decide, by decide, rfl⟩

/-- Both writes are accepted, and `sales-order` then resolves to two products. -/
theorem accepted_alias_collision :
    Accepted [.product salesProduct, .product ordersProduct] (writtenProducts [salesProduct, ordersProduct]) ∧
      ¬ (writtenProducts [salesProduct, ordersProduct]).Consistent := by
  constructor
  · refine (accepted_concat (w := [.product salesProduct])).2 ⟨_, accepted_sales, ?_⟩
    exact writeProduct_eq_ok.2 ⟨by decide, by decide, rfl⟩
  · intro h
    have hsame : salesProduct = ordersProduct :=
      h.products salesProduct (by decide) ordersProduct (by decide) salesProduct.productKey (by decide) (by decide)
    exact absurd hsame (by decide)

private def clerksProduct : ProductRecord .ascii :=
  plainProduct ⟨"prd_0198f6c2-8ac7-7f31-a48e-1c3d82e9a633".toList, Eq.refl true⟩ ⟨"clerks".toList, Eq.refl true⟩
    [⟨"staff".toList, Eq.refl true⟩] .active

private def ordersTableRecord : TableRecord .ascii :=
  ⟨⟨"tbl_0198f6ca-2a11-78d1-8672-67d49e69f171".toList, Eq.refl true⟩, ⟨.wms, .main, .sales, .orders⟩,
    ⟨1, one_isVersion⟩, .active, [], [], none, none, List.nodup_nil, List.nodup_nil⟩

private def salesAliases : List ProductKey := [⟨"sales".toList, Eq.refl true⟩]

/-- Two products with aliases and a table; one of the products is retired before everything is read again. -/
private def retiringWrites : List (RegistryWrite .ascii) :=
  [.product { salesProduct with aliases := salesAliases }, .product clerksProduct, .table ordersTableRecord,
    .product { clerksProduct with status := .retired }, .load]

private theorem aliasesFree_of_all {w : List (RegistryWrite .ascii)} {record : ProductRecord .ascii} {s : Registry .ascii}
    (h : (w.foldlM write (new .ascii)).toOption.all (fun s => decide (∀ item ∈ s.products.items,
      item.productId ≠ record.productId → ∀ a ∈ record.aliases, a ∉ item.names)) = true) (hs : Accepted w s) :
    s.AliasesFree record := by
  rw [show w.foldlM write (new .ascii) = .ok s from hs] at h
  have hfree := decide_eq_true_eq.mp h
  exact hfree

theorem accepted_consistent_sales : ∃ r, Accepted retiringWrites r ∧ r.Consistent ∧ r.products.items.length = 2 ∧
    r.tables.items.length = 1 ∧ r.ProductRetired clerksProduct.productId := by
  have hrun : (retiringWrites.foldlM write (new .ascii)).toOption.any (fun r => r.products.items.length = 2 ∧
      r.tables.items.length = 1 ∧ (r.getProduct clerksProduct.productId).any fun p => p.status = .retired) = true := by
    decide +kernel
  obtain ⟨r, hr, hread⟩ := exists_of_any_toOption hrun
  obtain ⟨hproducts, htables, hretired⟩ := of_decide_eq_true hread
  obtain ⟨p, hp, hstatus⟩ := (Option.any_eq_true _ _).1 hretired
  refine ⟨r, hr, ?_, hproducts, htables, p, hp, of_decide_eq_true hstatus⟩
  refine ((accepted_consistent_iff hr).2 ?_ _ [] _ (List.append_nil _).symm hr).1
  intro w record w' s hw hs
  rcases w with _ | ⟨first, _ | ⟨second, _ | ⟨third, _ | ⟨fourth, _ | ⟨fifth, w⟩⟩⟩⟩⟩
  all_goals
    simp only [retiringWrites, List.nil_append, List.cons_append, List.cons.injEq, RegistryWrite.product.injEq,
      reduceCtorEq, false_and, and_false, List.nil_eq, List.append_eq_nil_iff] at hw
  · obtain ⟨rfl, -⟩ := hw
    exact aliasesFree_of_all (by decide +kernel) hs
  · obtain ⟨rfl, rfl, -⟩ := hw
    exact aliasesFree_of_all (by decide +kernel) hs
  · obtain ⟨rfl, rfl, rfl, rfl, -⟩ := hw
    exact aliasesFree_of_all (by decide +kernel) hs

end Registry

end ArdOssie
