import ArdOssie.Library.Lists
import ArdOssie.Semantic.EvidenceDocuments
import Mathlib.Data.Prod.Lex

/-!
# Layout documents

The lines and the regions of the pages of a document, and the edges of the reading order.  The regions are ordered by
repeatedly taking the first one without a predecessor.
-/

namespace ArdOssie

abbrev LineId := Identifier "line_"

structure LayoutLine where
  lineId : LineId
  page : ℕ
  bbox : SourceBox
  atomIds : List AtomId
  evidenceRegionIds : List RegionId
  baseline : Score
  medianHeight : ℚ
  page_pos : 1 ≤ page
  atomIds_ne : atomIds ≠ []
  evidenceRegionIds_ne : evidenceRegionIds ≠ []
  medianHeight_mem : 0 < medianHeight ∧ medianHeight ≤ 1

inductive LayoutHint where
  | heading
  | paragraph
  | listItem
  | table
  | caption
  | figure
  | pageHeader
  | pageFooter
  | pageNumber
  deriving DecidableEq

@[ext]
structure LayoutRegion where
  regionId : RegionId
  page : ℕ
  bbox : SourceBox
  lineIds : List LineId
  atomIds : List AtomId
  evidenceRegionIds : List RegionId
  column : ℕ
  hint : Option LayoutHint
  repeatedEdge : Bool
  page_pos : 1 ≤ page
  lineIds_ne : lineIds ≠ []
  atomIds_ne : atomIds ≠ []
  evidenceRegionIds_ne : evidenceRegionIds ≠ []

inductive EdgeReason where
  | sameColumn
  | nextColumn
  | nextPage
  deriving DecidableEq

structure ReadingOrderEdge where
  beforeRegionId : RegionId
  afterRegionId : RegionId
  reason : EdgeReason
  deriving DecidableEq

/-! ### The order of the regions -/

section Order

variable (rank : RegionId → ℕ)

/-- One predecessor of a region is done; without a predecessor left the region is ready. -/
def releaseRegion (state : (RegionId → ℕ) × List RegionId) (following : RegionId) : (RegionId → ℕ) × List RegionId :=
  let incoming := Function.update state.1 following (state.1 following - 1)
  (incoming, if incoming following = 0 then sortBy rank (state.2 ++ [following]) else state.2)

/-- The loop of `_ordered_region_ids`, with one round for every region. -/
def orderRegions (outgoing : RegionId → List RegionId) : ℕ → (RegionId → ℕ) → List RegionId → List RegionId
  | 0, _, _ => []
  | _ + 1, _, [] => []
  | rounds + 1, incoming, current :: ready =>
    let state := (sortBy rank (outgoing current)).foldl (releaseRegion rank) (incoming, ready)
    current :: orderRegions outgoing rounds state.1 state.2

end Order

/-- `_ordered_region_ids` -/
def orderedRegionIds (regions : List LayoutRegion) (edges : List ReadingOrderEdge) : PyResult (List RegionId) := do
  let regionIds := regions.map (·.regionId)
  let outgoing := fun i => (edges.filter fun e => e.beforeRegionId = i).map (·.afterRegionId)
  let incoming := fun i => (edges.filter fun e => e.afterRegionId = i).length
  let rank := fun i => regionIds.idxOf i
  let ready := sortBy rank (regionIds.filter fun i => incoming i = 0)
  let ordered := orderRegions rank outgoing regions.length incoming ready
  raiseIf (ordered.length ≠ regions.length) (.valueError "READING_ORDER_CYCLE")
  return ordered

/-- The fields of a layout. -/
structure LayoutFields where
  sourceHash : Sha256
  pageCount : ℕ
  lines : List LayoutLine
  regions : List LayoutRegion
  orderEdges : List ReadingOrderEdge

/-- `validate_layout` -/
def LayoutFields.validate (l : LayoutFields) : PyResult Unit := do
  let lineIds : List LineId := l.lines.map (·.lineId)
  let regionIds : List RegionId := l.regions.map (·.regionId)
  let ownedLines : List LineId := l.regions.flatMap (·.lineIds)
  raiseIf (¬ lineIds.Nodup) (.valueError "LAYOUT_LINES_NOT_UNIQUE")
  raiseIf (¬ regionIds.Nodup) (.valueError "LAYOUT_REGIONS_NOT_UNIQUE")
  raiseIf (¬ ((∀ i ∈ ownedLines, i ∈ lineIds) ∧ (∀ i ∈ lineIds, i ∈ ownedLines) ∧ ownedLines.Nodup))
    (.valueError "LAYOUT_LINE_OWNERSHIP_INVALID")
  raiseIf (∃ e ∈ l.orderEdges, e.beforeRegionId ∉ regionIds ∨ e.afterRegionId ∉ regionIds ∨
    e.beforeRegionId = e.afterRegionId) (.valueError "READING_ORDER_EDGE_INVALID")
  (orderedRegionIds l.regions l.orderEdges).map fun _ => ()

structure LayoutDocument extends LayoutFields where
  pageCount_pos : 1 ≤ pageCount
  validated : toLayoutFields.validate = .ok ()

namespace LayoutDocument

variable (layout : LayoutDocument)

/-- `topological_region_order` -/
def topologicalRegionOrder : PyResult (List RegionId) := orderedRegionIds layout.regions layout.orderEdges

/-- `{item.region_id: item for item in layout.regions}` -/
def regionCatalog : Dict RegionId LayoutRegion := Dict.ofList (layout.regions.map fun r => (r.regionId, r))

theorem regionIds_nodup : (layout.regions.map (·.regionId)).Nodup := by
  have h := layout.validated
  simp only [LayoutFields.validate, raiseIf_bind_eq_ok, not_not] at h
  exact h.2.1

theorem lookup_regionCatalog {i : RegionId} {r : LayoutRegion} :
    layout.regionCatalog.lookup i = some r ↔ r ∈ layout.regions ∧ r.regionId = i := by
  have hkeys : ((layout.regions.map fun r => (r.regionId, r)).map Prod.fst).Nodup := by
    rw [List.map_map]
    exact layout.regionIds_nodup
  constructor
  · intro hlookup
    have hmem := Dict.mem_of_lookup_ofList hlookup
    simp only [List.mem_map, Prod.mk.injEq] at hmem
    obtain ⟨r', hr', hid, rfl⟩ := hmem
    exact ⟨hr', hid⟩
  · rintro ⟨hr, rfl⟩
    exact Dict.lookup_ofList hkeys (List.mem_map_of_mem hr)

end LayoutDocument

end ArdOssie
