import ArdOssie.Semantic.FidelityReport
import ArdOssie.Semantic.Structure

/-!
# Repeated page edges

The last part of the normalisation of a layout: the regions at the top and the bottom of the pages whose text is on
enough pages are marked, the regions are sorted and connected.  A marked region is excluded from the canonical
document, and the number of pages that is enough falls to one on a document of one page.
-/

namespace ArdOssie

open Text (withoutWhitespace)

/-- The hint of a repeated edge. -/
def PageEdge.hint : PageEdge → LayoutHint
  | top => .pageHeader
  | bottom => .pageFooter

section Marking

variable (platform : Platform) (evidence : EvidenceDocument) (pageEdgeBand repeatRatio : ℚ)

/-- The text of a region without whitespace and with its case folded. -/
def regionSignature (region : LayoutRegion) : PyResult Text := do
  let atoms ← catalogAtoms evidence.atomCatalog region.atomIds
  return platform.casefold (withoutWhitespace (atoms.flatMap (·.text)))

/-- The edge of the page that a region lies in. -/
def edgeBandOf (region : LayoutRegion) : Option PageEdge :=
  if 1 - pageEdgeBand ≤ region.bbox.top then some .top
  else if region.bbox.bottom ≤ pageEdgeBand then some .bottom
  else none

/-- `keyed` -/
def keyedRegions (signatures : List (LayoutRegion × Text)) : List ((PageEdge × Text) × RegionId) :=
  signatures.filterMap fun p => (edgeBandOf pageEdgeBand p.1).map fun edge => ((edge, p.2), p.1.regionId)

/-- `page_by_region` -/
def pageByRegion (signatures : List (LayoutRegion × Text)) : Dict RegionId ℕ :=
  Dict.ofList (signatures.map fun p => (p.1.regionId, p.1.page))

/-- `repeated` -/
def repeatedRegions (signatures : List (LayoutRegion × Text)) : Dict RegionId PageEdge :=
  Dict.ofList ((groupByKey Prod.fst (keyedRegions pageEdgeBand signatures)).flatMap fun g =>
    if evidence.pageCount * repeatRatio ≤
        ((g.2.filterMap fun m => (pageByRegion signatures).lookup m.2).eraseDups.length : ℚ) then
      g.2.map fun m => (m.2, g.1.1)
    else [])

/-- A region with its mark. -/
def markRegion (regionText : Dict RegionId Text) (repeated : Dict RegionId PageEdge) (region : LayoutRegion) :
    LayoutRegion :=
  let numbered := isPageNumber platform ((regionText.lookup region.regionId).getD [])
  match repeated.lookup region.regionId with
  | none =>
    if region.bbox.bottom ≤ pageEdgeBand ∧ numbered then { region with hint := some .pageNumber, repeatedEdge := true }
    else region
  | some edge => { region with hint := some (if numbered then .pageNumber else edge.hint), repeatedEdge := true }

/-- `_mark_repeated_edges` -/
def markRepeatedEdges (regions : List LayoutRegion) : PyResult (List LayoutRegion) := do
  let texts ← regions.mapM (regionSignature platform evidence)
  let signatures := regions.zip texts
  let regionText := Dict.ofList (signatures.map fun p => (p.1.regionId, p.2))
  return regions.map
    (markRegion platform pageEdgeBand regionText (repeatedRegions evidence pageEdgeBand repeatRatio signatures))

/-- `_reading_key` -/
def readingKey (region : LayoutRegion) : ℕ ×ₗ ℕ ×ₗ ℚ ×ₗ ℚ ×ₗ Fin (2 ^ 64) :=
  toLex (region.page, toLex (region.column, toLex (-region.bbox.top, toLex (region.bbox.left, region.regionId.value))))

/-- The reason of the edge between two regions in reading order. -/
def edgeReason (first second : LayoutRegion) : EdgeReason :=
  if first.page ≠ second.page then .nextPage
  else if first.column ≠ second.column then .nextColumn
  else .sameColumn

/-- `_reading_order_edges` -/
def readingOrderEdges (regions : List LayoutRegion) : List ReadingOrderEdge :=
  (regions.zip regions.tail).map fun p => ⟨p.1.regionId, p.2.regionId, edgeReason p.1 p.2⟩

/-- `LayoutDocument(…)` -/
def LayoutDocument.make (fields : LayoutFields) (hcount : 1 ≤ fields.pageCount) : PyResult LayoutDocument :=
  match h : fields.validate with
  | .ok () => .ok ⟨fields, hcount, h⟩
  | .error e => .error e

/-- `normalize_layout` from the marking of repeated edges on. -/
def finishLayout (lines : List LayoutLine) (regions : List LayoutRegion) : PyResult LayoutDocument := do
  let marked ← markRepeatedEdges platform evidence pageEdgeBand repeatRatio regions
  let sorted := sortBy readingKey marked
  LayoutDocument.make ⟨evidence.sourceHash, evidence.pageCount, lines, sorted, readingOrderEdges sorted⟩
    evidence.pageCount_pos

end Marking

theorem LayoutDocument.make_eq_ok {fields : LayoutFields} {hcount : 1 ≤ fields.pageCount} {layout : LayoutDocument}
    (h : LayoutDocument.make fields hcount = .ok layout) : layout.toLayoutFields = fields := by
  unfold LayoutDocument.make at h
  split at h
  · cases h
    rfl
  · cases h

/-! ### What a mark leaves -/

section Mark

variable {platform : Platform} {evidence : EvidenceDocument} {pageEdgeBand : ℚ} {regionText : Dict RegionId Text}
  {repeated : Dict RegionId PageEdge} {region : LayoutRegion}

private theorem markRegion_frame :
    (markRegion platform pageEdgeBand regionText repeated region).regionId = region.regionId ∧
      (markRegion platform pageEdgeBand regionText repeated region).page = region.page ∧
      (markRegion platform pageEdgeBand regionText repeated region).bbox = region.bbox ∧
      (markRegion platform pageEdgeBand regionText repeated region).atomIds = region.atomIds := by
  unfold markRegion
  dsimp only
  split
  · split <;> exact ⟨rfl, rfl, rfl, rfl⟩
  · exact ⟨rfl, rfl, rfl, rfl⟩

private theorem edgeBandOf_markRegion :
    edgeBandOf pageEdgeBand (markRegion platform pageEdgeBand regionText repeated region) =
      edgeBandOf pageEdgeBand region := by
  unfold edgeBandOf
  rw [markRegion_frame.2.2.1]

private theorem regionSignature_markRegion :
    regionSignature platform evidence (markRegion platform pageEdgeBand regionText repeated region) =
      regionSignature platform evidence region := by
  unfold regionSignature
  rw [markRegion_frame.2.2.2]

/-- The edge of an exclusion as a header or a footer. -/
def ExclusionReason.edge : ExclusionReason → Option PageEdge
  | repeatedPageHeader => some .top
  | repeatedPageFooter => some .bottom
  | pageNumber => none

/-- A region is excluded as a header or a footer when its edge is repeated and its text is not a page number. -/
private theorem exclusionReason_markRegion (hplain : region.repeatedEdge = false) {edge : PageEdge} :
    (∃ reason, (markRegion platform pageEdgeBand regionText repeated region).exclusionReason = some reason ∧
      reason.edge = some edge) ↔
      repeated.lookup region.regionId = some edge ∧
        isPageNumber platform ((regionText.lookup region.regionId).getD []) = false := by
  unfold markRegion
  dsimp only
  cases hlookup : repeated.lookup region.regionId with
  | none =>
    refine iff_of_false ?_ (by simp)
    rintro ⟨reason, hreason, hedge⟩
    dsimp only at hreason
    split at hreason
    · cases hreason
      cases hedge
    · rw [LayoutRegion.exclusionReason, hplain] at hreason
      cases hreason
  | some edge' =>
    dsimp only
    by_cases hnumbered : isPageNumber platform ((regionText.lookup region.regionId).getD []) = true
    · refine iff_of_false ?_ (by simp [hnumbered])
      rintro ⟨reason, hreason, hedge⟩
      rw [if_pos hnumbered] at hreason
      cases hreason
      cases hedge
    · rw [if_neg hnumbered]
      simp only [Bool.not_eq_true] at hnumbered
      simp only [hnumbered, and_true, Option.some_inj]
      cases edge' with
      | top => simp [LayoutRegion.exclusionReason, PageEdge.hint, ExclusionReason.edge]
      | bottom => simp [LayoutRegion.exclusionReason, PageEdge.hint, ExclusionReason.edge]

end Mark

/-! ### Repeated texts -/

section Repeated

variable {evidence : EvidenceDocument} {pageEdgeBand repeatRatio : ℚ} {signatures : List (LayoutRegion × Text)}

/-- The pages of the regions with a text in an edge band. -/
def pagesWith (pageEdgeBand : ℚ) (signatures : List (LayoutRegion × Text)) (edge : PageEdge) (text : Text) : List ℕ :=
  (signatures.filter fun q => edgeBandOf pageEdgeBand q.1 = some edge ∧ q.2 = text).map fun q => q.1.page

private theorem mem_keyedRegions {edge : PageEdge} {text : Text} {i : RegionId} :
    ((edge, text), i) ∈ keyedRegions pageEdgeBand signatures ↔
      ∃ q ∈ signatures, edgeBandOf pageEdgeBand q.1 = some edge ∧ q.2 = text ∧ q.1.regionId = i := by
  simp only [keyedRegions, List.mem_filterMap, Option.map_eq_some_iff, Prod.mk.injEq]
  constructor
  · rintro ⟨q, hq, edge', hedge, ⟨rfl, rfl⟩, rfl⟩
    exact ⟨q, hq, hedge, rfl, rfl⟩
  · rintro ⟨q, hq, hedge, rfl, rfl⟩
    exact ⟨q, hq, edge, hedge, ⟨rfl, rfl⟩, rfl⟩

private theorem lookup_pageByRegion (hids : (signatures.map fun q => q.1.regionId).Nodup) {q : LayoutRegion × Text}
    (hq : q ∈ signatures) : (pageByRegion signatures).lookup q.1.regionId = some q.1.page := by
  refine Dict.lookup_ofList ?_ (List.mem_map_of_mem hq)
  rw [List.map_map]
  exact hids

/-- The pages of a group of regions. -/
private theorem groupPages_eq (hids : (signatures.map fun q => q.1.regionId).Nodup) (edge : PageEdge) (text : Text) :
    (((keyedRegions pageEdgeBand signatures).filter fun m => m.1 = (edge, text)).filterMap fun m =>
      (pageByRegion signatures).lookup m.2) = pagesWith pageEdgeBand signatures edge text := by
  have hall : ∀ q ∈ signatures, (pageByRegion signatures).lookup q.1.regionId = some q.1.page := fun q hq =>
    lookup_pageByRegion hids hq
  generalize pageByRegion signatures = pages at hall
  clear hids
  unfold keyedRegions pagesWith
  induction signatures with
  | nil => rfl
  | cons q signatures ih =>
    rw [List.forall_mem_cons] at hall
    have hrest := ih hall.2
    cases hedge : edgeBandOf pageEdgeBand q.1 with
    | none => simpa [List.filterMap_cons, hedge] using hrest
    | some edge' =>
      by_cases hkey : edge' = edge ∧ q.2 = text
      · simp [hedge, hkey, hall.1, hrest]
      · simpa [List.filterMap_cons, hedge, hkey] using hrest

/-- A region is repeated at an edge when it lies there and its text is there on enough pages. -/
private theorem lookup_repeatedRegions (hids : (signatures.map fun q => q.1.regionId).Nodup)
    {q : LayoutRegion × Text} (hq : q ∈ signatures) {edge : PageEdge} :
    (repeatedRegions evidence pageEdgeBand repeatRatio signatures).lookup q.1.regionId = some edge ↔
      edgeBandOf pageEdgeBand q.1 = some edge ∧
        evidence.pageCount * repeatRatio ≤ ((pagesWith pageEdgeBand signatures edge q.2).eraseDups.length : ℚ) := by
  have hmem : ∀ edge', (q.1.regionId, edge') ∈ ((groupByKey Prod.fst (keyedRegions pageEdgeBand signatures)).flatMap
      fun g => if evidence.pageCount * repeatRatio ≤
          ((g.2.filterMap fun m => (pageByRegion signatures).lookup m.2).eraseDups.length : ℚ) then
        g.2.map fun m => (m.2, g.1.1) else []) ↔ edgeBandOf pageEdgeBand q.1 = some edge' ∧
        evidence.pageCount * repeatRatio ≤ ((pagesWith pageEdgeBand signatures edge' q.2).eraseDups.length : ℚ) := by
    intro edge'
    simp only [groupByKey, List.mem_flatMap, List.mem_map, List.mem_eraseDups]
    constructor
    · rintro ⟨_, ⟨⟨edge'', text⟩, -, rfl⟩, hmem⟩
      rw [groupPages_eq hids] at hmem
      split at hmem
      · rename_i hpages
        obtain ⟨⟨key, i⟩, hm, heq⟩ := List.mem_map.1 hmem
        obtain ⟨hm, hkey⟩ := List.mem_filter.1 hm
        obtain ⟨hi, rfl⟩ := Prod.mk.inj heq
        dsimp only at hi
        subst hi
        have hkey' : key = (edge'', text) := of_decide_eq_true hkey
        subst hkey'
        obtain ⟨p, hp, hedge, rfl, hid⟩ := mem_keyedRegions.1 hm
        have heq : p = q := List.inj_on_of_nodup_map hids hp hq hid
        subst heq
        exact ⟨hedge, hpages⟩
      · cases hmem
    · rintro ⟨hedge, hpages⟩
      have hkeyed : ((edge', q.2), q.1.regionId) ∈ keyedRegions pageEdgeBand signatures :=
        mem_keyedRegions.2 ⟨q, hq, hedge, rfl, rfl⟩
      refine ⟨_, ⟨(edge', q.2), ⟨_, hkeyed, rfl⟩, rfl⟩, ?_⟩
      rw [groupPages_eq hids, if_pos hpages]
      exact List.mem_map.2 ⟨_, List.mem_filter.2 ⟨hkeyed, decide_eq_true rfl⟩, rfl⟩
  rw [← hmem, repeatedRegions]
  constructor
  · exact fun h => Dict.mem_of_lookup_ofList h
  · intro h
    obtain ⟨edge', hlookup⟩ := Dict.exists_lookup_ofList (List.mem_map_of_mem (f := Prod.fst) h)
    have h' := (hmem edge').1 (Dict.mem_of_lookup_ofList hlookup)
    have hedges := ((hmem edge).1 h).1.symm.trans h'.1
    rw [Option.some_inj] at hedges
    rw [hedges]
    exact hlookup

end Repeated

/-! ### Exclusions -/

section Exclusions

variable {platform : Platform} {evidence : EvidenceDocument} {pageEdgeBand repeatRatio : ℚ}
  {lines : List LayoutLine} {regions : List LayoutRegion} {layout : LayoutDocument}

/-- Regions with a text lie in an edge band on two pages. -/
def OnTwoPages (platform : Platform) (evidence : EvidenceDocument) (pageEdgeBand : ℚ) (regions : List LayoutRegion)
    (edge : PageEdge) (text : Text) : Prop :=
  ∃ r ∈ regions, ∃ r' ∈ regions, r.page ≠ r'.page ∧
    (edgeBandOf pageEdgeBand r = some edge ∧ regionSignature platform evidence r = .ok text) ∧
    edgeBandOf pageEdgeBand r' = some edge ∧ regionSignature platform evidence r' = .ok text

private theorem exists_two_pages {α : Type} {l : List α} {f : α → ℕ} (h : 2 ≤ (l.map f).eraseDups.length) :
    ∃ a ∈ l, ∃ b ∈ l, f a ≠ f b := by
  have hnodup := nodup_eraseDups (l.map f)
  cases hdups : (l.map f).eraseDups with
  | nil => simp [hdups] at h
  | cons m rest =>
    cases rest with
    | nil => simp [hdups] at h
    | cons n rest =>
      rw [hdups] at hnodup
      have hne : m ≠ n := fun heq => (List.nodup_cons.1 hnodup).1 (by simp [heq])
      have hm : m ∈ l.map f := List.mem_eraseDups.1 (by rw [hdups]; simp)
      have hn : n ∈ l.map f := List.mem_eraseDups.1 (by rw [hdups]; simp)
      obtain ⟨a, ha, rfl⟩ := List.mem_map.1 hm
      obtain ⟨b, hb, rfl⟩ := List.mem_map.1 hn
      exact ⟨a, ha, b, hb, hne⟩

/-- The regions of a finished layout: each is the mark of a region, and the mark tells whether it is excluded. -/
private theorem finishLayout_spec (hplain : ∀ r ∈ regions, r.repeatedEdge = false)
    (h : finishLayout platform evidence pageEdgeBand repeatRatio lines regions = .ok layout) :
    ∃ signatures : List (LayoutRegion × Text),
      (∀ q ∈ signatures, regionSignature platform evidence q.1 = .ok q.2 ∧
        ∃ r ∈ layout.regions, r.page = q.1.page ∧ edgeBandOf pageEdgeBand r = edgeBandOf pageEdgeBand q.1 ∧
          regionSignature platform evidence r = .ok q.2) ∧
      ∀ r ∈ layout.regions, ∃ text, regionSignature platform evidence r = .ok text ∧
        (∀ edge, edgeBandOf pageEdgeBand r = some edge → r.page ∈ pagesWith pageEdgeBand signatures edge text) ∧
        ∀ edge, (∃ reason, r.exclusionReason = some reason ∧ reason.edge = some edge) ↔
          (edgeBandOf pageEdgeBand r = some edge ∧ evidence.pageCount * repeatRatio ≤
            ((pagesWith pageEdgeBand signatures edge text).eraseDups.length : ℚ)) ∧
            isPageNumber platform text = false := by
  obtain ⟨marked, hmarked, h⟩ := bind_eq_ok.1 h
  obtain ⟨texts, htexts, hmarked⟩ := bind_eq_ok.1 hmarked
  have hfields := LayoutDocument.make_eq_ok h
  cases pure_eq_ok.1 hmarked
  have hall := mapM_eq_ok.1 htexts
  have hfst : (regions.zip texts).map Prod.fst = regions := List.map_fst_zip (hall.length_eq.le)
  have hsignature : ∀ q ∈ regions.zip texts, regionSignature platform evidence q.1 = .ok q.2 :=
    fun q hq => List.forall₂_zip hall hq
  have hregions : layout.regions.Perm (regions.map (markRegion platform pageEdgeBand
      (Dict.ofList ((regions.zip texts).map fun p => (p.1.regionId, p.2)))
      (repeatedRegions evidence pageEdgeBand repeatRatio (regions.zip texts)))) := by
    rw [hfields]
    exact sortBy_perm _ _
  have hids : ((regions.zip texts).map fun q => q.1.regionId).Nodup := by
    have hnodup := (hregions.map (·.regionId)).nodup_iff.1 layout.regionIds_nodup
    rw [List.map_map] at hnodup
    have hmap : (regions.zip texts).map (fun q => q.1.regionId) = regions.map (·.regionId) := by
      conv_rhs => rw [← hfst]
      rw [List.map_map]
      rfl
    rw [hmap]
    refine (List.map_congr_left fun r _ => ?_) ▸ hnodup
    exact markRegion_frame.1
  refine ⟨regions.zip texts, fun q hq => ⟨hsignature q hq, ?_⟩, fun r' hr' => ?_⟩
  · have hr : q.1 ∈ regions := hfst ▸ List.mem_map_of_mem hq
    refine ⟨_, hregions.mem_iff.2 (List.mem_map_of_mem hr), markRegion_frame.2.1, edgeBandOf_markRegion, ?_⟩
    rw [regionSignature_markRegion]
    exact hsignature q hq
  · obtain ⟨r, hr, rfl⟩ := List.mem_map.1 (hregions.mem_iff.1 hr')
    rw [← hfst] at hr
    obtain ⟨q, hq, rfl⟩ := List.mem_map.1 hr
    have hmem : q.1 ∈ regions := hfst ▸ List.mem_map_of_mem hq
    have htext : (Dict.ofList ((regions.zip texts).map fun p => (p.1.regionId, p.2))).lookup q.1.regionId = some q.2 := by
      refine Dict.lookup_ofList ?_ (List.mem_map_of_mem hq)
      rw [List.map_map]
      exact hids
    refine ⟨q.2, by rw [regionSignature_markRegion]; exact hsignature q hq, fun edge hedge => ?_, fun edge => ?_⟩
    · rw [edgeBandOf_markRegion] at hedge
      rw [markRegion_frame.2.1]
      exact List.mem_map.2 ⟨q, List.mem_filter.2 ⟨hq, decide_eq_true ⟨hedge, rfl⟩⟩, rfl⟩
    rw [exclusionReason_markRegion (hplain q.1 hmem), htext, Option.getD_some, lookup_repeatedRegions hids hq,
      edgeBandOf_markRegion]

/-- In a finished layout, repeated headers and footers need two pages exactly when the number of pages that is enough
is above one, or when the regions of the reading order in an edge band have a page number or a text on two pages. -/
theorem exclusions_on_two_pages_iff {candidateSets : List CandidateSet} {decisions : List DecisionRecord}
    {document : CanonicalSemanticDocument} {report : SemanticValidationReport} {order : List RegionId}
    (hplain : ∀ r ∈ regions, r.repeatedEdge = false)
    (hlayout : finishLayout platform evidence pageEdgeBand repeatRatio lines regions = .ok layout)
    (horder : readingOrder layout candidateSets decisions = .ok order)
    (hassembled : assembleCanonical platform evidence layout candidateSets decisions = .ok (document, report)) :
    (∀ e ∈ document.excludedEvidence, ∀ edge, e.reason.edge = some edge →
      ∃ r ∈ layout.regions, r.regionId = e.regionId ∧ edgeBandOf pageEdgeBand r = some edge ∧
        ∃ text, regionSignature platform evidence r = .ok text ∧
          OnTwoPages platform evidence pageEdgeBand layout.regions edge text) ↔
      (1 < evidence.pageCount * repeatRatio ∨
        ∀ r ∈ layout.regions, r.regionId ∈ order → ∀ edge text, edgeBandOf pageEdgeBand r = some edge →
          regionSignature platform evidence r = .ok text → isPageNumber platform text = false →
            OnTwoPages platform evidence pageEdgeBand layout.regions edge text) := by
  obtain ⟨signatures, hsignatures, hspec⟩ := finishLayout_spec hplain hlayout
  obtain ⟨horder', hexcluded, -, -⟩ := assembleCanonical_spec hassembled
  rw [horder] at horder'
  cases horder'
  have hmem : ∀ e, e ∈ document.excludedEvidence ↔
      ∃ r ∈ layout.regions, r.regionId ∈ document.regionOrder ∧ r.exclusion = some e := by
    intro e
    rw [hexcluded, List.mem_filterMap]
    constructor
    · rintro ⟨i, hi, he⟩
      obtain ⟨r, hlookup, hexclusion⟩ := Option.bind_eq_some_iff.1 he
      obtain ⟨hr, rfl⟩ := layout.lookup_regionCatalog.1 hlookup
      exact ⟨r, hr, hi, hexclusion⟩
    · rintro ⟨r, hr, hi, he⟩
      exact ⟨r.regionId, hi, Option.bind_eq_some_iff.2 ⟨r, layout.lookup_regionCatalog.2 ⟨hr, rfl⟩, he⟩⟩
  have hpages : ∀ {edge text}, 2 ≤ (pagesWith pageEdgeBand signatures edge text).eraseDups.length →
      OnTwoPages platform evidence pageEdgeBand layout.regions edge text := by
    intro edge text htwo
    obtain ⟨q, hmem, q', hmem', hne⟩ := exists_two_pages htwo
    obtain ⟨hq, hkey⟩ := List.mem_filter.1 hmem
    obtain ⟨hq', hkey'⟩ := List.mem_filter.1 hmem'
    obtain ⟨hedge, rfl⟩ := of_decide_eq_true hkey
    obtain ⟨hedge', htext⟩ := of_decide_eq_true hkey'
    obtain ⟨-, r, hr, hpage, hband, hsignature⟩ := hsignatures q hq
    obtain ⟨-, r', hr', hpage', hband', hsignature'⟩ := hsignatures q' hq'
    refine ⟨r, hr, r', hr', by rw [hpage, hpage']; exact hne, ⟨hband.trans hedge, hsignature⟩, hband'.trans hedge', ?_⟩
    rw [hsignature', htext]
  constructor
  · intro hproperty
    by_contra hcondition
    rw [not_or, not_lt] at hcondition
    refine hcondition.2 fun r hr hi edge text hband htext hnumber => ?_
    obtain ⟨text', htext', hpage, hiff⟩ := hspec r hr
    obtain rfl : text' = text := by simpa using htext'.symm.trans htext
    have hone : 1 ≤ (pagesWith pageEdgeBand signatures edge text').eraseDups.length :=
      List.length_pos_of_mem (List.mem_eraseDups.2 (hpage edge hband))
    obtain ⟨reason, hreason, hedge⟩ := (hiff edge).2 ⟨⟨hband, hcondition.1.trans (by exact_mod_cast hone)⟩, hnumber⟩
    have he : r.exclusion = some ⟨r.regionId, r.atomIds, reason, r.atomIds_ne⟩ := by
      rw [LayoutRegion.exclusion, hreason]
      rfl
    obtain ⟨r', hr', hid, -, text'', htext'', htwo⟩ := hproperty _ ((hmem _).2 ⟨r, hr, hi, he⟩) edge hedge
    have heq : r' = r := List.inj_on_of_nodup_map layout.regionIds_nodup hr' hr hid
    subst heq
    obtain rfl : text'' = text' := by simpa using htext''.symm.trans htext
    exact htwo
  · intro hcondition e he edge hedge
    obtain ⟨r, hr, hi, he⟩ := (hmem e).1 he
    obtain ⟨reason, hreason, rfl⟩ := Option.map_eq_some_iff.1 he
    obtain ⟨text, htext, -, hiff⟩ := hspec r hr
    obtain ⟨⟨hband, hcount⟩, hnumber⟩ := (hiff edge).1 ⟨reason, hreason, hedge⟩
    refine ⟨r, hr, rfl, hband, text, htext, ?_⟩
    rcases hcondition with hcondition | hcondition
    · refine hpages ?_
      have hlt : (1 : ℚ) < ((pagesWith pageEdgeBand signatures edge text).eraseDups.length : ℚ) := hcondition.trans_le hcount
      exact_mod_cast hlt
    · exact hcondition r hr hi edge text hband htext hnumber

end Exclusions

/-! ### A header on one page -/

/-- The layout of the letter, before the repeated edges are marked. -/
def letterRegions : List LayoutRegion := (letterLayoutFields none false).regions

def letterLines : List LayoutLine := (letterLayoutFields none false).lines

/-- A letter at the top of the only page is excluded as a repeated header, without a second page for it. -/
theorem header_on_one_page : ∃ layout document report,
    finishLayout Platform.ascii letterEvidence (1 / 10) (3 / 5) letterLines letterRegions = .ok layout ∧
      assembleCanonical Platform.ascii letterEvidence layout [] [] = .ok (document, report) ∧
      (∃ e ∈ document.excludedEvidence, e.regionId = ⟨0⟩ ∧ e.reason = .repeatedPageHeader) ∧
      ∀ edge text, ¬ OnTwoPages Platform.ascii letterEvidence (1 / 10) layout.regions edge text := by
  obtain ⟨layout, hlayout, hresult⟩ := exists_of_any_toOption
    (show (finishLayout Platform.ascii letterEvidence (1 / 10) (3 / 5) letterLines letterRegions).toOption.any
      (fun layout => decide (∀ r ∈ layout.regions, r.page = 1) &&
        (assembleCanonical Platform.ascii letterEvidence layout [] []).toOption.any fun result =>
          decide (∃ e ∈ result.1.excludedEvidence, e.regionId = ⟨0⟩ ∧ e.reason = .repeatedPageHeader)) = true by
      decide +kernel)
  rw [Bool.and_eq_true] at hresult
  obtain ⟨⟨document, report⟩, hassembled, hexcluded⟩ := exists_of_any_toOption hresult.2
  refine ⟨layout, document, report, hlayout, hassembled, of_decide_eq_true hexcluded, ?_⟩
  have hpages := of_decide_eq_true hresult.1
  rintro edge text ⟨r, hr, r', hr', hne, -⟩
  exact hne ((hpages r hr).trans (hpages r' hr').symm)

theorem exclusions_on_two_pages_iff_letter : ∃ layout order document report,
    finishLayout Platform.ascii headedEvidence (1 / 10) (3 / 5) (headedLayoutFields none false).lines
        (headedLayoutFields none false).regions = .ok layout ∧
      readingOrder layout [] [] = .ok order ∧
      assembleCanonical Platform.ascii headedEvidence layout [] [] = .ok (document, report) ∧
      document.excludedEvidence.length = 2 ∧
      ((∀ e ∈ document.excludedEvidence, ∀ edge, e.reason.edge = some edge →
        ∃ r ∈ layout.regions, r.regionId = e.regionId ∧ edgeBandOf (1 / 10) r = some edge ∧
          ∃ text, regionSignature Platform.ascii headedEvidence r = .ok text ∧
            OnTwoPages Platform.ascii headedEvidence (1 / 10) layout.regions edge text) ↔
        (1 < (headedEvidence.pageCount : ℚ) * (3 / 5) ∨
          ∀ r ∈ layout.regions, r.regionId ∈ order → ∀ edge text, edgeBandOf (1 / 10) r = some edge →
            regionSignature Platform.ascii headedEvidence r = .ok text → isPageNumber Platform.ascii text = false →
              OnTwoPages Platform.ascii headedEvidence (1 / 10) layout.regions edge text)) := by
  obtain ⟨layout, hlayout, hresult⟩ := exists_of_any_toOption
    (show (finishLayout Platform.ascii headedEvidence (1 / 10) (3 / 5) (headedLayoutFields none false).lines
        (headedLayoutFields none false).regions).toOption.any
      (fun layout => (readingOrder layout [] []).toOption.any (fun _ => true) &&
        (assembleCanonical Platform.ascii headedEvidence layout [] []).toOption.any fun r =>
          decide (r.1.excludedEvidence.length = 2)) = true by
      decide +kernel)
  rw [Bool.and_eq_true] at hresult
  obtain ⟨order, horder, -⟩ := exists_of_any_toOption hresult.1
  obtain ⟨⟨document, report⟩, hassembled, hexcluded⟩ := exists_of_any_toOption hresult.2
  exact ⟨layout, order, document, report, hlayout, horder, hassembled, of_decide_eq_true hexcluded,
    exclusions_on_two_pages_iff (by decide +kernel) hlayout horder hassembled⟩

end ArdOssie
