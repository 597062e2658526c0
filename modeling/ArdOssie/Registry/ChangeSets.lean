import ArdOssie.Registry.Records

/-!
# Changesets

A changeset names the shared tables that change together and the products that must be ready before they may.
-/

namespace ArdOssie

abbrev ChangeSetId := EntityId "cst_"

/-- `^(?:[0-9a-f]{40}|[0-9a-f]{64})$` -/
structure GitCommitSha where
  text : Text
  hex : text.all isLowerHex = true
  length : text.length = 40 ∨ text.length = 64
  deriving DecidableEq

inductive ChangeSetStatus where
  | blocked
  | ready
  deriving DecidableEq

structure ImpactReport where
  tableId : TableId
  requiredProductIds : List ProductId
  shared : Bool
  deriving DecidableEq

structure ProductReadiness where
  version : Version
  prNumber : ℕ
  headSha : GitCommitSha
  prNumber_pos : 0 < prNumber
  deriving DecidableEq

structure ChangeSetRecord where
  changesetId : ChangeSetId
  tableIds : List TableId
  requiredProductIds : List ProductId
  readyProducts : Dict ProductId ProductReadiness
  deriving DecidableEq

namespace ChangeSetRecord

/-- The ready products are the required ones. -/
def AllReady (c : ChangeSetRecord) : Prop :=
  (∀ p ∈ c.readyProducts.keys, p ∈ c.requiredProductIds) ∧ ∀ p ∈ c.requiredProductIds, p ∈ c.readyProducts.keys

instance (c : ChangeSetRecord) : Decidable c.AllReady := inferInstanceAs (Decidable (_ ∧ _))

/-- `ChangeSetRecord.status` -/
def status (c : ChangeSetRecord) : ChangeSetStatus := if c.AllReady then .ready else .blocked

/-- `ChangeSetRecord.mark_ready` -/
def markReady (c : ChangeSetRecord) (productId : ProductId) (readiness : ProductReadiness) :
    PyResult ChangeSetRecord :=
  if productId ∈ c.requiredProductIds then
    .ok { c with readyProducts := c.readyProducts.insert productId readiness }
  else
    .error (.valueError ("product is not required by changeset: " ++ String.ofList productId.text))

theorem markReady_eq_ok {c c' : ChangeSetRecord} {productId : ProductId} {readiness : ProductReadiness} :
    c.markReady productId readiness = .ok c' ↔ productId ∈ c.requiredProductIds ∧
      c' = { c with readyProducts := c.readyProducts.insert productId readiness } := by
  unfold markReady
  split <;> simp_all [eq_comm]

end ChangeSetRecord

/-- The elements of a list without repetitions, in order: `sorted(set(l))`. -/
def sortedSet {α : Type} [LinearOrder α] (l : List α) : List α := sortBy id l.eraseDups

@[simp] theorem mem_sortedSet {α : Type} [LinearOrder α] {l : List α} {a : α} : a ∈ sortedSet l ↔ a ∈ l := by
  simp [sortedSet]

theorem nodup_sortedSet {α : Type} [LinearOrder α] (l : List α) : (sortedSet l).Nodup :=
  (sortBy_perm id l.eraseDups).nodup_iff.2 (nodup_eraseDups l)

/-- `analyze_table_change` -/
def analyzeTableChange (tableId : TableId) (mappings : List ProductTableRef) : ImpactReport :=
  let products := sortedSet ((mappings.filter fun m => m.tableId = tableId).map ProductTableRef.productId)
  ⟨tableId, products, 1 < products.length⟩

/-- `build_changeset` with an allocated identifier. -/
def buildChangeset (changesetId : ChangeSetId) (tableIds : List TableId) (requiredProductIds : List ProductId) :
    ChangeSetRecord :=
  ⟨changesetId, sortedSet tableIds, sortedSet requiredProductIds, ∅⟩

/-- The required products of a built changeset are distinct. -/
theorem nodup_buildChangeset_required (changesetId : ChangeSetId) (tableIds : List TableId)
    (requiredProductIds : List ProductId) :
    (buildChangeset changesetId tableIds requiredProductIds).requiredProductIds.Nodup :=
  nodup_sortedSet requiredProductIds

end ArdOssie
