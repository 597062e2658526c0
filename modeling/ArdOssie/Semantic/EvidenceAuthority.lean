import ArdOssie.Semantic.EvidenceSources

/-!
# The authority of evidence

Extracted evidence is resolved to an evidence document: the regions of the embedded text are kept, and a region that
only text recognition saw is dropped, attached to an embedded region or turned into atoms, by the share of it that
embedded text covers.
-/

namespace ArdOssie

open Text (normalizeLineEnds)

/-- `OCR_DUPLICATE_OVERLAP` -/
def ocrDuplicateOverlap : ℚ := binary64 (60 / 100)

/-- `OCR_SUPPLEMENT_OVERLAP` -/
def ocrSupplementOverlap : ℚ := binary64 (20 / 100)

private theorem ocrSupplementOverlap_pos : 0 < ocrSupplementOverlap := by decide +kernel

private theorem ocrSupplementOverlap_lt : ocrSupplementOverlap < ocrDuplicateOverlap := by decide +kernel

/-- `_box_overlap_fraction`: the share of the subject that lies in the other box. -/
def boxOverlapFraction (subject other : SourceBox) : ℚ :=
  let width := max 0 (binary64 (min subject.right other.right - max subject.left other.left))
  let height := max 0 (binary64 (min subject.top other.top - max subject.bottom other.bottom))
  let subjectArea := binary64 (binary64 (subject.right - subject.left) * binary64 (subject.top - subject.bottom))
  if subjectArea ≤ 0 then 0 else binary64 (binary64 (width * height) / subjectArea)

/-- `_maximum_embedded_overlap` -/
def maximumEmbeddedOverlap (region : EvidenceRegion) (embedded : List EvidenceRegion) : ℚ × Option RegionId :=
  let overlaps := (embedded.filter fun c => c.page = region.page).map fun c =>
    (boxOverlapFraction region.bbox c.bbox, c.regionId)
  match maxBy (fun item => toLex (item.1, item.2.value)) overlaps with
  | some (overlap, regionId) => (overlap, some regionId)
  | none => (0, none)

/-- `_atom_kind` -/
def atomKind (c : Char) : AtomKind :=
  if c = '\n' then .lineBreak else if Text.isSpace c then .whitespace else .character

theorem atomKind_allows (c : Char) : (atomKind c).Allows [c] := by
  unfold atomKind
  by_cases hbreak : c = '\n'
  · simp [hbreak, AtomKind.Allows]
  · by_cases hspace : Text.isSpace c = true
    · simp [hbreak, hspace, AtomKind.Allows]
    · simp [hbreak, hspace, AtomKind.Allows]

theorem normalizeLineEnds_ne_nil {t : Text} (h : t ≠ []) : normalizeLineEnds t ≠ [] := by
  unfold normalizeLineEnds
  split
  · exact absurd rfl h
  · exact List.cons_ne_nil _ _
  · exact List.cons_ne_nil _ _

/-- `_region_order_key` -/
def regionOrderKey (region : EvidenceRegion) : ℕ ×ₗ ℚ ×ₗ ℚ ×ₗ Fin (2 ^ 64) :=
  toLex (region.page, toLex (-region.bbox.top, toLex (region.bbox.left, region.regionId.value)))

/-- The key of the order of the atoms of one region. -/
def atomOrderKey (atom : EvidenceAtom) : ℕ ×ₗ ℕ ×ₗ ℕ :=
  toLex (atom.sourceObject, toLex (atom.sourceIndex, atom.ordinal))

/-- `[atom.model_copy(update={"ordinal": ordinal}) for ordinal, atom in enumerate(…)]` -/
def numberAtoms (atoms : List EvidenceAtom) : List EvidenceAtom := atoms.zipIdx.map fun p => p.1.numbered p.2

/-- The extraction mode of a document with these regions. -/
def resolvedMode (regions : List EvidenceRegion) : EvidenceExtractionMode :=
  if regions ≠ [] ∧ ∀ r ∈ regions, r.authority = .embedded then .pdfEmbedded
  else if regions ≠ [] ∧ ∀ r ∈ regions, r.authority = .ocr then .pdfOcr
  else .pdfMixed

/-- `current.model_copy(…)` with the hypotheses of an attached region. -/
def EvidenceRegion.attach (current : EvidenceRegion) (hypothesisIds : List HypothesisId) : EvidenceRegion :=
  { current with
    hypothesisIds := (current.hypothesisIds ++ hypothesisIds).eraseDups
    requiresReview := true
    review := fun _ => rfl
    nonempty := by
      refine current.nonempty.imp_right fun h hnil => ?_
      obtain ⟨i, rest, hids⟩ := List.exists_cons_of_ne_nil h
      rw [hids, List.cons_append, List.eraseDups_cons] at hnil
      cases hnil }

/-- `region.model_copy(…)` with the atoms of its hypothesis. -/
def EvidenceRegion.materialize (region : EvidenceRegion) (h : region.hypothesisIds ≠ []) (atomIds : List AtomId)
    (requiresReview : Bool) : EvidenceRegion :=
  { region with
    atomIds
    authority := .ocr
    requiresReview
    review := fun h => by cases h
    nonempty := Or.inr h }

/-- The region has hypotheses and no atoms. -/
def EvidenceRegion.IsOcrOnly (region : EvidenceRegion) : Prop := region.hypothesisIds ≠ [] ∧ region.atomIds = []

instance (region : EvidenceRegion) : Decidable region.IsOcrOnly := inferInstanceAs (Decidable (_ ∧ _))

/-- `source_atoms` -/
def EvidenceFields.sourceAtoms (e : EvidenceFields) : Dict AtomId EvidenceAtom :=
  Dict.ofList (e.atoms.map fun a => (a.atomId, a))

/-- `embedded` before the loop. -/
def EvidenceFields.embedded (e : EvidenceFields) : List EvidenceRegion :=
  e.regions.filter fun r => decide (r.authority = .embedded ∧ r.atomIds ≠ [])

/-- The variables of the loop over the regions. -/
structure Resolution where
  embedded : List EvidenceRegion
  selectedRegions : List EvidenceRegion
  selectedAtoms : Dict AtomId EvidenceAtom

section Resolve

variable (platform : Platform) (extracted : EvidenceFields) (selections : Dict RegionId HypothesisId)

/-- The identifier of an atom of a hypothesis. -/
def ocrAtomId (region : EvidenceRegion) (hypothesis : RecognitionHypothesis) (sourceIndex : ℕ) : AtomId :=
  makeEvidenceId platform "atom_" [extracted.sourceHash.hexdigest, region.regionId.text, hypothesis.hypothesisId.text,
    Text.decimal sourceIndex]

/-- `_materialize_ocr_atoms` -/
def materializeOcrAtoms (region : EvidenceRegion) (hypothesis : RecognitionHypothesis) (sourceObject : ℕ) :
    List EvidenceAtom :=
  (normalizeLineEnds hypothesis.text).zipIdx.map fun p =>
    { atomId := ocrAtomId platform extracted region hypothesis p.2
      ordinal := p.2
      page := region.page
      bbox := some region.bbox
      text := [p.1]
      kind := atomKind p.1
      authority := .ocr
      sourceObject
      sourceIndex := p.2
      confidence := hypothesis.confidence
      page_pos := region.page_pos
      text_ne := List.cons_ne_nil _ _
      length_le := by simp
      kind_allows := atomKind_allows p.1 }

/-- The hypothesis whose text a region gets. -/
def chosenHypothesis (region : EvidenceRegion) : PyResult RecognitionHypothesis :=
  match selections.lookup region.regionId with
  | some chosenId => extracted.hypothesisCatalog.getItem chosenId
  | none => do
    let items ← region.hypothesisIds.mapM extracted.hypothesisCatalog.getItem
    match maxBy (fun h => toLex (h.confidence.val, h.hypothesisId.value)) items with
    | some chosen => pure chosen
    | none => throw (.valueError "max() iterable argument is empty")

/-- The body of the loop over the regions. -/
def resolveRegion (s : Resolution) (region : EvidenceRegion) : PyResult Resolution :=
  if honly : region.IsOcrOnly then
    let (overlap, embeddedRegionId) := maximumEmbeddedOverlap region s.embedded
    if ocrDuplicateOverlap ≤ overlap then pure s
    else match if ocrSupplementOverlap < overlap then embeddedRegionId else none with
      | some regionId =>
        match s.embedded.find? fun r => r.regionId = regionId with
        | some current =>
          let updated := current.attach region.hypothesisIds
          let replace := fun item : EvidenceRegion => if item.regionId = regionId then updated else item
          pure { s with embedded := s.embedded.map replace, selectedRegions := s.selectedRegions.map replace }
        | none => throw .keyError
      | none => do
        let chosen ← chosenHypothesis extracted selections region
        let materialized := materializeOcrAtoms platform extracted region chosen s.selectedRegions.length
        let requiresReview := decide (1 < region.hypothesisIds.length ∧ selections.lookup region.regionId = none)
        pure
          { s with
            selectedAtoms := (materialized.map fun a => (a.atomId, a)).foldl (fun d p => d.insert p.1 p.2) s.selectedAtoms
            selectedRegions := s.selectedRegions ++
              [region.materialize honly.1 (materialized.map (·.atomId)) requiresReview] }
  else pure s

/-- The selections name hypotheses of their regions. -/
def SelectionsValid : Prop :=
  ∀ p ∈ selections.entries, ∃ region ∈ extracted.regions, region.regionId = p.1 ∧ p.2 ∈ region.hypothesisIds

instance : Decidable (SelectionsValid extracted selections) :=
  inferInstanceAs (Decidable (∀ p ∈ selections.entries, ∃ region ∈ extracted.regions, _))

/-- The atoms of a region in their order. -/
def regionAtoms (selectedAtoms : Dict AtomId EvidenceAtom) (region : EvidenceRegion) : PyResult (List EvidenceAtom) := do
  let atoms ← region.atomIds.mapM selectedAtoms.getItem
  return sortBy atomOrderKey atoms

end Resolve

/-- The fields of the document with these regions, and with the atoms of each. -/
def resolvedFields (extracted : EvidenceFields) (orderedRegions : List EvidenceRegion)
    (blocks : List (List EvidenceAtom)) : EvidenceFields where
  sourceHash := extracted.sourceHash
  extractionMode := resolvedMode orderedRegions
  pageCount := extracted.pageCount
  atoms := numberAtoms blocks.flatten
  hypotheses := extracted.hypotheses.filter fun h => h.hypothesisId ∈ orderedRegions.flatMap (·.hypothesisIds)
  regions := orderedRegions

/-- `resolve_evidence_authority` -/
def resolveEvidenceAuthority (platform : Platform) (extracted : ExtractedEvidence)
    (selections : Dict RegionId HypothesisId) : PyResult EvidenceDocument := do
  raiseIf (¬ SelectionsValid extracted.toEvidenceFields selections) (.valueError "EVIDENCE_HYPOTHESIS_SELECTION_INVALID")
  let s ← extracted.regions.foldlM (resolveRegion platform extracted.toEvidenceFields selections)
    ⟨extracted.embedded, extracted.embedded, extracted.sourceAtoms⟩
  let orderedRegions := sortBy regionOrderKey s.selectedRegions
  let blocks ← orderedRegions.mapM (regionAtoms s.selectedAtoms)
  EvidenceDocument.make (resolvedFields extracted.toEvidenceFields orderedRegions blocks) extracted.pageCount_pos

/-! ### Regions attached for review -/

/-- The best share of a region that embedded text covers. -/
def EvidenceFields.overlap (e : EvidenceFields) (region : EvidenceRegion) : ℚ :=
  (maximumEmbeddedOverlap region e.embedded).1

namespace EvidenceRegion

/-- The fields of an embedded region that the overlap is measured with. -/
def outline (r : EvidenceRegion) : RegionId × ℕ × SourceBox := (r.regionId, r.page, r.bbox)

@[simp] theorem attach_outline (r : EvidenceRegion) (ids : List HypothesisId) : (r.attach ids).outline = r.outline := rfl

@[simp] theorem attach_regionId (r : EvidenceRegion) (ids : List HypothesisId) :
    (r.attach ids).regionId = r.regionId := rfl

theorem mem_attach {r : EvidenceRegion} {ids : List HypothesisId} {i : HypothesisId} :
    i ∈ (r.attach ids).hypothesisIds ↔ i ∈ r.hypothesisIds ∨ i ∈ ids := by
  show i ∈ (r.hypothesisIds ++ ids).eraseDups ↔ _
  rw [List.mem_eraseDups, List.mem_append]

end EvidenceRegion

/-- The overlap depends on the outlines of the embedded regions. -/
private theorem maximumEmbeddedOverlap_congr (region : EvidenceRegion) {l l' : List EvidenceRegion}
    (h : l.map (·.outline) = l'.map (·.outline)) : maximumEmbeddedOverlap region l = maximumEmbeddedOverlap region l' := by
  have hoverlaps : ∀ l : List EvidenceRegion, (l.filter fun c => c.page = region.page).map (fun c =>
      (boxOverlapFraction region.bbox c.bbox, c.regionId)) =
      ((l.map (·.outline)).filter fun o => o.2.1 = region.page).map fun o =>
        (boxOverlapFraction region.bbox o.2.2, o.1) := by
    intro l
    rw [List.filter_map, List.map_map]
    rfl
  unfold maximumEmbeddedOverlap
  rw [hoverlaps, hoverlaps, h]

/-- The region with the best overlap is an embedded one. -/
private theorem mem_of_maximumEmbeddedOverlap {region : EvidenceRegion} {l : List EvidenceRegion} {i : RegionId}
    (h : (maximumEmbeddedOverlap region l).2 = some i) : i ∈ l.map (·.regionId) := by
  unfold maximumEmbeddedOverlap at h
  dsimp only at h
  split at h
  · rename_i overlap j hbest
    cases h
    have hmem := maxBy_mem hbest
    simp only [List.mem_map, List.mem_filter, Prod.mk.injEq] at hmem
    obtain ⟨c, hc, -, rfl⟩ := hmem
    exact List.mem_map_of_mem hc.1
  · cases h

/-- Without an embedded region on the page nothing is covered. -/
private theorem exists_of_maximumEmbeddedOverlap_pos {region : EvidenceRegion} {l : List EvidenceRegion}
    (h : 0 < (maximumEmbeddedOverlap region l).1) : ∃ i, (maximumEmbeddedOverlap region l).2 = some i := by
  unfold maximumEmbeddedOverlap at h ⊢
  dsimp only at h ⊢
  split at h
  · exact ⟨_, rfl⟩
  · exact absurd h (lt_irrefl _)

section Attached

variable {platform : Platform} {extracted : EvidenceFields} {selections : Dict RegionId HypothesisId}

/-- The embedded regions of the loop are those before it, and they are selected. -/
private structure Outlined (extracted : EvidenceFields) (s : Resolution) : Prop where
  outlines : s.embedded.map (·.outline) = extracted.embedded.map (·.outline)
  selected : ∀ r ∈ s.embedded, r ∈ s.selectedRegions

private theorem Outlined.regionIds {s : Resolution} (hs : Outlined extracted s) :
    s.embedded.map (·.regionId) = extracted.embedded.map (·.regionId) := by
  have h := congrArg (List.map Prod.fst) hs.outlines
  rw [List.map_map, List.map_map] at h
  exact h

private theorem nodup_embedded (hv : extracted.Valid false) : (extracted.embedded.map (·.regionId)).Nodup :=
  hv.regionIds.sublist (List.filter_sublist.map _)

/-- A successful step skips the region, attaches it or adds it. -/
private theorem resolveRegion_cases {s s' : Resolution} {region : EvidenceRegion} (hs : Outlined extracted s)
    (h : resolveRegion platform extracted selections s region = .ok s') :
    s' = s ∨
    (∃ current ∈ s.embedded, region.IsOcrOnly ∧ (maximumEmbeddedOverlap region extracted.embedded).2 = some current.regionId ∧
      let replace := fun item : EvidenceRegion =>
        if item.regionId = current.regionId then current.attach region.hypothesisIds else item
      s' = { s with embedded := s.embedded.map replace, selectedRegions := s.selectedRegions.map replace }) ∨
    s'.embedded = s.embedded ∧ ∃ m, s'.selectedRegions = s.selectedRegions ++ [m] := by
  unfold resolveRegion at h
  rw [maximumEmbeddedOverlap_congr region hs.outlines] at h
  split at h
  · rename_i honly
    dsimp only at h
    split at h
    · exact Or.inl (pure_eq_ok.1 h).symm
    · split at h
      · rename_i i hi
        have hbest : (maximumEmbeddedOverlap region extracted.embedded).2 = some i := by
          split at hi
          · exact hi
          · cases hi
        split at h
        · rename_i current hcurrent
          have hid : current.regionId = i := by simpa using List.find?_some hcurrent
          subst hid
          exact Or.inr (Or.inl ⟨current, List.mem_of_find?_eq_some hcurrent, honly, hbest, (pure_eq_ok.1 h).symm⟩)
        · cases h
      · obtain ⟨chosen, -, h⟩ := bind_eq_ok.1 h
        cases pure_eq_ok.1 h
        exact Or.inr (Or.inr ⟨rfl, _, rfl⟩)
  · exact Or.inl (pure_eq_ok.1 h).symm

private theorem Outlined.step (hv : extracted.Valid false) {s s' : Resolution} {region : EvidenceRegion}
    (hs : Outlined extracted s) (h : resolveRegion platform extracted selections s region = .ok s') :
    Outlined extracted s' := by
  rcases resolveRegion_cases hs h with rfl | ⟨current, hcurrent, -, -, rfl⟩ | ⟨hembedded, m, hselected⟩
  · exact hs
  · refine ⟨?_, fun r hr => ?_⟩
    · rw [List.map_map, ← hs.outlines]
      refine List.map_congr_left fun item hitem => ?_
      have hnodup : (s.embedded.map (·.regionId)).Nodup := hs.regionIds ▸ nodup_embedded hv
      by_cases hid : item.regionId = current.regionId
      · have heq : item = current := List.inj_on_of_nodup_map hnodup hitem hcurrent hid
        simp [heq]
      · simp [hid]
    · obtain ⟨item, hitem, rfl⟩ := List.mem_map.1 hr
      exact List.mem_map_of_mem (hs.selected item hitem)
  · refine ⟨hembedded ▸ hs.outlines, fun r hr => ?_⟩
    rw [hselected]
    exact List.mem_append_left _ (hs.selected r (hembedded ▸ hr))

/-- An embedded region with an identifier lists some hypotheses. -/
private def Lists (i : RegionId) (ids : List HypothesisId) (s : Resolution) : Prop :=
  ∃ r ∈ s.embedded, r.regionId = i ∧ ∀ j ∈ ids, j ∈ r.hypothesisIds

private theorem Lists.step (hv : extracted.Valid false) {s s' : Resolution} {region : EvidenceRegion} {i : RegionId}
    {ids : List HypothesisId} (hs : Outlined extracted s) (hlists : Lists i ids s)
    (h : resolveRegion platform extracted selections s region = .ok s') : Lists i ids s' := by
  obtain ⟨r, hr, hid, hids⟩ := hlists
  rcases resolveRegion_cases hs h with rfl | ⟨current, hcurrent, -, -, rfl⟩ | ⟨hembedded, -⟩
  · exact ⟨r, hr, hid, hids⟩
  · refine ⟨_, List.mem_map_of_mem hr, ?_⟩
    by_cases hsame : r.regionId = current.regionId
    · have hnodup : (s.embedded.map (·.regionId)).Nodup := hs.regionIds ▸ nodup_embedded hv
      have heq : r = current := List.inj_on_of_nodup_map hnodup hr hcurrent hsame
      rw [if_pos hsame]
      exact ⟨by rw [EvidenceRegion.attach_regionId, ← heq, hid], fun j hj =>
        EvidenceRegion.mem_attach.2 (Or.inl (heq ▸ hids j hj))⟩
    · rw [if_neg hsame]
      exact ⟨hid, hids⟩
  · exact ⟨r, hembedded ▸ hr, hid, hids⟩

/-- The region is covered too little to be a duplicate and too much to be a supplement. -/
def EvidenceFields.IsBetween (e : EvidenceFields) (region : EvidenceRegion) : Prop :=
  ocrSupplementOverlap < e.overlap region ∧ e.overlap region < ocrDuplicateOverlap

instance (e : EvidenceFields) (region : EvidenceRegion) : Decidable (e.IsBetween region) :=
  inferInstanceAs (Decidable (_ ∧ _))

private theorem lists_of_between {s s' : Resolution} {region : EvidenceRegion} (hs : Outlined extracted s)
    (honly : region.IsOcrOnly) (hbetween : extracted.IsBetween region)
    (h : resolveRegion platform extracted selections s region = .ok s') :
    ∃ i ∈ extracted.embedded.map (·.regionId), Lists i region.hypothesisIds s' := by
  have hpos : 0 < (maximumEmbeddedOverlap region extracted.embedded).1 :=
    lt_trans ocrSupplementOverlap_pos hbetween.1
  obtain ⟨i, hi⟩ := exists_of_maximumEmbeddedOverlap_pos hpos
  refine ⟨i, mem_of_maximumEmbeddedOverlap hi, ?_⟩
  unfold resolveRegion at h
  rw [dif_pos honly, maximumEmbeddedOverlap_congr region hs.outlines] at h
  dsimp only at h
  have hduplicate : ¬ ocrDuplicateOverlap ≤ (maximumEmbeddedOverlap region extracted.embedded).1 :=
    not_le.2 hbetween.2
  have hsupplement : ocrSupplementOverlap < (maximumEmbeddedOverlap region extracted.embedded).1 := hbetween.1
  rw [if_neg hduplicate, if_pos hsupplement, hi] at h
  dsimp only at h
  split at h
  · rename_i current hcurrent
    have hid : current.regionId = i := by simpa using List.find?_some hcurrent
    cases pure_eq_ok.1 h
    refine ⟨_, List.mem_map_of_mem (List.mem_of_find?_eq_some hcurrent), ?_⟩
    rw [if_pos hid]
    exact ⟨hid, fun j hj => EvidenceRegion.mem_attach.2 (Or.inr hj)⟩
  · cases h

/-- After the loop some embedded region lists the hypotheses of an attached region. -/
private theorem lists_of_run (hv : extracted.Valid false) {s s' : Resolution} {regions : List EvidenceRegion}
    (hs : Outlined extracted s) (h : regions.foldlM (resolveRegion platform extracted selections) s = .ok s') :
    Outlined extracted s' ∧ (∀ i ids, Lists i ids s → Lists i ids s') ∧
      ∀ r ∈ regions, r.IsOcrOnly → extracted.IsBetween r →
        ∃ i ∈ extracted.embedded.map (·.regionId), Lists i r.hypothesisIds s' := by
  induction regions generalizing s with
  | nil =>
    cases pure_eq_ok.1 h
    exact ⟨hs, fun _ _ => id, by simp⟩
  | cons r regions ih =>
    rw [List.foldlM_cons] at h
    obtain ⟨s₁, hstep, hrest⟩ := bind_eq_ok.1 h
    obtain ⟨houtlined, hkeep, hlater⟩ := ih (hs.step hv hstep) hrest
    refine ⟨houtlined, fun i ids hlists => hkeep i ids (hlists.step hv hs hstep), fun r' hr' honly hbetween => ?_⟩
    rcases List.mem_cons.1 hr' with rfl | hr'
    · obtain ⟨i, hi, hlists⟩ := lists_of_between hs honly hbetween hstep
      exact ⟨i, hi, hkeep i _ hlists⟩
    · exact hlater r' hr' honly hbetween

end Attached

/-! ### Supplementary regions -/

/-- A region that gets the atoms of a hypothesis. -/
structure Supplement where
  region : EvidenceRegion
  chosen : RecognitionHypothesis
  sourceObject : ℕ
  onlyOcr : region.IsOcrOnly

/-- The region is hardly covered by embedded text. -/
def EvidenceFields.IsSupplement (e : EvidenceFields) (region : EvidenceRegion) : Prop :=
  region.IsOcrOnly ∧ e.overlap region ≤ ocrSupplementOverlap

instance (e : EvidenceFields) (region : EvidenceRegion) : Decidable (e.IsSupplement region) :=
  inferInstanceAs (Decidable (_ ∧ _))

section Supplements

variable (platform : Platform) (extracted : EvidenceFields) (selections : Dict RegionId HypothesisId)

namespace Supplement

def atoms (m : Supplement) : List EvidenceAtom := materializeOcrAtoms platform extracted m.region m.chosen m.sourceObject

def result (m : Supplement) : EvidenceRegion :=
  m.region.materialize m.onlyOcr.1 ((m.atoms platform extracted).map (·.atomId))
    (decide (1 < m.region.hypothesisIds.length ∧ selections.lookup m.region.regionId = none))

end Supplement

/-- The state of the loop after some supplements. -/
def supplemented (ms : List Supplement) : Resolution where
  embedded := extracted.embedded
  selectedRegions := extracted.embedded ++ ms.map (·.result platform extracted selections)
  selectedAtoms := ((ms.flatMap (·.atoms platform extracted)).map fun a => (a.atomId, a)).foldl
    (fun d p => d.insert p.1 p.2) extracted.sourceAtoms

variable {platform extracted selections}

theorem getItem_of_hypothesis (hv : extracted.Valid false) {r : EvidenceRegion} (hr : r ∈ extracted.regions)
    {i : HypothesisId} (hi : i ∈ r.hypothesisIds) :
    ∃ h ∈ extracted.hypotheses, h.hypothesisId = i ∧ h.regionId = r.regionId ∧ h.page = r.page ∧
      extracted.hypothesisCatalog.getItem i = .ok h := by
  obtain ⟨h, hh, hid, hregion, hpage⟩ := hv.hypotheses r hr i hi
  exact ⟨h, hh, hid, hregion, hpage, (EvidenceFields.getItem_hypothesisCatalog hv.hypothesisIds).2 ⟨hh, hid⟩⟩

/-- Every region with hypotheses has a chosen one. -/
theorem exists_chosenHypothesis (hv : extracted.Valid false) (hsel : SelectionsValid extracted selections)
    {r : EvidenceRegion} (hr : r ∈ extracted.regions) (hne : r.hypothesisIds ≠ []) :
    ∃ h, chosenHypothesis extracted selections r = .ok h := by
  unfold chosenHypothesis
  split
  · rename_i i hi
    obtain ⟨r', hr', hid, hmem⟩ := hsel ⟨r.regionId, i⟩ (AList.mem_lookup_iff.1 hi)
    obtain ⟨h, -, -, -, -, hget⟩ := getItem_of_hypothesis hv hr' hmem
    exact ⟨h, hget⟩
  · obtain ⟨items, hitems⟩ := mapM_total (f := extracted.hypothesisCatalog.getItem) (l := r.hypothesisIds) fun i hi => by
      obtain ⟨h, -, -, -, -, hget⟩ := getItem_of_hypothesis hv hr hi
      exact ⟨h, hget⟩
    have hitems_ne : items ≠ [] := by
      rintro rfl
      exact hne (List.length_eq_zero_iff.1 (mapM_eq_ok.1 hitems).length_eq)
    obtain ⟨best, hbest⟩ := @exists_maxBy _ _ _ (fun h : RecognitionHypothesis =>
      toLex (h.confidence.val, h.hypothesisId.value)) _ hitems_ne
    rw [hitems]
    refine ⟨best, ?_⟩
    simp only [ok_bind]
    rw [hbest]
    rfl

/-- A step of the loop without an attached region. -/
private theorem resolveRegion_supplemented (platform : Platform) (hv : extracted.Valid false) (hsel : SelectionsValid extracted selections)
    (ms : List Supplement) {r : EvidenceRegion} (hr : r ∈ extracted.regions)
    (hno : r.IsOcrOnly → ¬ extracted.IsBetween r) :
    ∃ ms' : List Supplement, resolveRegion platform extracted selections (supplemented platform extracted selections ms) r =
        .ok (supplemented platform extracted selections (ms ++ ms')) ∧
      ms'.map (·.region) = [r].filter (fun r => extracted.IsSupplement r) ∧
      ∀ m ∈ ms', chosenHypothesis extracted selections m.region = .ok m.chosen := by
  unfold resolveRegion
  by_cases honly : r.IsOcrOnly
  · rw [dif_pos honly]
    dsimp only
    by_cases hduplicate : ocrDuplicateOverlap ≤ extracted.overlap r
    · refine ⟨[], ?_, ?_, by simp⟩
      · rw [List.append_nil]
        exact if_pos hduplicate
      · have hnot : ¬ extracted.IsSupplement r := by
          intro h
          have hlt := ocrSupplementOverlap_lt
          exact absurd (hduplicate.trans h.2) (not_le.2 hlt)
        simp [hnot]
    · have hsupplement : ¬ ocrSupplementOverlap < extracted.overlap r := fun h =>
        hno honly ⟨h, not_le.1 hduplicate⟩
      obtain ⟨chosen, hchosen⟩ := exists_chosenHypothesis hv hsel hr honly.1
      refine ⟨[⟨r, chosen, (supplemented platform extracted selections ms).selectedRegions.length, honly⟩], ?_, ?_, ?_⟩
      · refine (if_neg hduplicate).trans ?_
        have hnone : (if ocrSupplementOverlap < (maximumEmbeddedOverlap r
            (supplemented platform extracted selections ms).embedded).1 then
            (maximumEmbeddedOverlap r (supplemented platform extracted selections ms).embedded).2 else none) = none :=
          if_neg hsupplement
        rw [hnone, hchosen]
        simp only [ok_bind]
        refine congrArg Except.ok ?_
        simp [supplemented, Supplement.result, Supplement.atoms, List.foldl_append]
      · have hyes : extracted.IsSupplement r := ⟨honly, not_lt.1 hsupplement⟩
        simp [hyes]
      · intro m hm
        rw [List.mem_singleton.1 hm]
        exact hchosen
  · rw [dif_neg honly]
    refine ⟨[], by rw [List.append_nil]; rfl, ?_, by simp⟩
    have hnot : ¬ extracted.IsSupplement r := fun h => honly h.1
    simp [hnot]

/-- Without an attached region the loop keeps the embedded regions and adds the supplements. -/
private theorem run_supplemented (platform : Platform) (hv : extracted.Valid false) (hsel : SelectionsValid extracted selections)
    {regions : List EvidenceRegion} (hregions : ∀ r ∈ regions, r ∈ extracted.regions)
    (hno : ∀ r ∈ regions, r.IsOcrOnly → ¬ extracted.IsBetween r) (ms : List Supplement) :
    ∃ ms' : List Supplement, regions.foldlM (resolveRegion platform extracted selections)
        (supplemented platform extracted selections ms) = .ok (supplemented platform extracted selections (ms ++ ms')) ∧
      ms'.map (·.region) = regions.filter (fun r => extracted.IsSupplement r) ∧
      ∀ m ∈ ms', chosenHypothesis extracted selections m.region = .ok m.chosen := by
  induction regions generalizing ms with
  | nil => exact ⟨[], by simp [pure, Except.pure], by simp, by simp⟩
  | cons r regions ih =>
    obtain ⟨ms₁, hstep, hregions₁, hchosen₁⟩ := resolveRegion_supplemented platform hv hsel ms
      (hregions r (by simp)) (hno r (by simp))
    obtain ⟨ms₂, hrun, hregions₂, hchosen₂⟩ := ih (fun r hr => hregions r (by simp [hr]))
      (fun r hr => hno r (by simp [hr])) (ms ++ ms₁)
    refine ⟨ms₁ ++ ms₂, ?_, ?_, ?_⟩
    · rw [List.foldlM_cons, hstep, ok_bind, hrun, List.append_assoc]
    · rw [List.map_append, hregions₁, hregions₂, ← List.filter_append]
      rfl
    · intro m hm
      rcases List.mem_append.1 hm with hm | hm
      · exact hchosen₁ m hm
      · exact hchosen₂ m hm

end Supplements

/-! ### The resolved document -/

section Document

variable (platform : Platform) (extracted : ExtractedEvidence) (selections : Dict RegionId HypothesisId)
  (d : EvidenceDocument)

/-- The region is left out as a duplicate of embedded text. -/
def IsDropped (r : EvidenceRegion) : Prop :=
  ocrDuplicateOverlap ≤ extracted.overlap r ∧ r.regionId ∉ d.regions.map (·.regionId)

/-- The hypotheses of the region are left to the review of an embedded region. -/
def IsAttached (r : EvidenceRegion) : Prop :=
  extracted.IsBetween r ∧ ∃ e ∈ d.regions, e.authority = .embedded ∧ e.requiresReview = true ∧
    ∀ i ∈ r.hypothesisIds, i ∈ e.hypothesisIds

/-- The region has the atoms of its chosen hypothesis. -/
def IsMaterialized (r : EvidenceRegion) : Prop :=
  extracted.overlap r ≤ ocrSupplementOverlap ∧
    ∃ chosen, chosenHypothesis extracted.toEvidenceFields selections r = .ok chosen ∧
      ∃ m ∈ d.regions, m.regionId = r.regionId ∧ m.authority = .ocr ∧ m.hypothesisIds = r.hypothesisIds ∧
        List.Forall₂ (fun i c => ∃ a ∈ d.atoms, a.atomId = i ∧ a.authority = .ocr ∧ a.text = [c]) m.atomIds
          (normalizeLineEnds chosen.text)

/-- The document keeps every embedded atom once, numbers its atoms in order, and treats every region that only text
recognition saw in one way. -/
structure ResolvesEvidence : Prop where
  embeddedOnce : ∀ a ∈ extracted.atoms, a.authority = .embedded →
    (d.atoms.map (·.numbered 0)).count (a.numbered 0) = 1
  ordinals : d.atoms.map (·.ordinal) = List.range d.atoms.length
  outcomes : ∀ r ∈ extracted.regions, r.IsOcrOnly →
    IsDropped extracted d r ∧ ¬ IsAttached extracted d r ∧ ¬ IsMaterialized extracted selections d r ∨
    ¬ IsDropped extracted d r ∧ IsAttached extracted d r ∧ ¬ IsMaterialized extracted selections d r ∨
    ¬ IsDropped extracted d r ∧ ¬ IsAttached extracted d r ∧ IsMaterialized extracted selections d r

/-- The identifiers of the atoms that a supplementary region gets. -/
def suppliedIds (r : EvidenceRegion) : List AtomId :=
  match chosenHypothesis extracted.toEvidenceFields selections r with
  | .ok chosen => (List.range (normalizeLineEnds chosen.text).length).map
      (ocrAtomId platform extracted.toEvidenceFields r chosen)
  | .error _ => []

/-- No region is attached, embedded regions own the embedded atoms, and no two atoms get one identifier. -/
structure Resolvable : Prop where
  unattached : ∀ r ∈ extracted.regions, r.IsOcrOnly → ¬ extracted.IsBetween r
  embeddedOwned : ∀ a ∈ extracted.atoms, a.authority = .embedded → ∃ r ∈ extracted.embedded, a.atomId ∈ r.atomIds
  distinctIds : (extracted.embedded.flatMap (·.atomIds) ++
    (extracted.regions.filter fun r => extracted.IsSupplement r).flatMap
      (suppliedIds platform extracted selections)).Nodup

end Document

section Numbering

private theorem map_numberAtoms {β : Type} (f : EvidenceAtom → β) (hf : ∀ a n, f (a.numbered n) = f a)
    (atoms : List EvidenceAtom) : (numberAtoms atoms).map f = atoms.map f := by
  rw [numberAtoms, List.map_map]
  calc atoms.zipIdx.map (f ∘ fun p => p.1.numbered p.2)
      = atoms.zipIdx.map (f ∘ Prod.fst) := List.map_congr_left fun p _ => hf p.1 p.2
    _ = (atoms.zipIdx.map Prod.fst).map f := by rw [List.map_map]
    _ = atoms.map f := by rw [List.zipIdx_map_fst]

private theorem ordinals_numberAtoms (atoms : List EvidenceAtom) :
    (numberAtoms atoms).map (·.ordinal) = List.range atoms.length := by
  rw [numberAtoms, List.map_map]
  have h : ((fun a : EvidenceAtom => a.ordinal) ∘ fun p : EvidenceAtom × ℕ => p.1.numbered p.2) = Prod.snd := rfl
  rw [h, List.zipIdx_map_snd, List.range_eq_range']

private theorem mem_numberAtoms {atoms : List EvidenceAtom} {a : EvidenceAtom} (h : a ∈ atoms) :
    ∃ n, a.numbered n ∈ numberAtoms atoms := by
  obtain ⟨n, hn⟩ := List.mem_iff_getElem?.1 h
  exact ⟨n, List.mem_map.2 ⟨(a, n), List.mk_mem_zipIdx_iff_getElem?.2 hn, rfl⟩⟩

private theorem exists_of_mem_numberAtoms {atoms : List EvidenceAtom} {a : EvidenceAtom} (h : a ∈ numberAtoms atoms) :
    ∃ b ∈ atoms, ∃ n, a = b.numbered n := by
  obtain ⟨⟨b, n⟩, hmem, rfl⟩ := List.mem_map.1 h
  exact ⟨b, List.mem_of_getElem? (List.mk_mem_zipIdx_iff_getElem?.1 hmem), n, rfl⟩

end Numbering

section Blocks

variable {selectedAtoms : Dict AtomId EvidenceAtom} {regions : List EvidenceRegion} {blocks : List (List EvidenceAtom)}

private theorem regionAtoms_eq_ok {r : EvidenceRegion} {block : List EvidenceAtom}
    (h : regionAtoms selectedAtoms r = .ok block) :
    ∃ atoms, List.Forall₂ (fun i a => selectedAtoms.lookup i = some a) r.atomIds atoms ∧ block.Perm atoms := by
  obtain ⟨atoms, hatoms, h⟩ := bind_eq_ok.1 h
  cases pure_eq_ok.1 h
  exact ⟨atoms, (mapM_eq_ok.1 hatoms).imp fun _ _ => Dict.getItem_eq_ok.1, sortBy_perm _ _⟩

private theorem perm_blocks (hkeys : ∀ i a, selectedAtoms.lookup i = some a → a.atomId = i)
    (h : regions.mapM (regionAtoms selectedAtoms) = .ok blocks) :
    (blocks.flatten.map (·.atomId)).Perm (regions.flatMap (·.atomIds)) := by
  have hall := mapM_eq_ok.1 h
  clear h
  induction hall with
  | nil => exact List.Perm.nil
  | @cons r block regions blocks hblock _ ih =>
    obtain ⟨atoms, hatoms, hperm⟩ := regionAtoms_eq_ok hblock
    have hids : atoms.map (·.atomId) = r.atomIds := by
      rw [← List.forall₂_eq_eq_eq, List.forall₂_map_left_iff]
      exact (hatoms.imp hkeys).flip
    rw [List.flatten_cons, List.map_append, List.flatMap_cons, ← hids]
    exact (hperm.map _).append ih

private theorem mem_blocks (h : regions.mapM (regionAtoms selectedAtoms) = .ok blocks) {a : EvidenceAtom} :
    a ∈ blocks.flatten ↔ ∃ r ∈ regions, ∃ i ∈ r.atomIds, selectedAtoms.lookup i = some a := by
  have hall := mapM_eq_ok.1 h
  clear h
  induction hall with
  | nil => simp
  | @cons r block regions blocks hblock _ ih =>
    obtain ⟨atoms, hatoms, hperm⟩ := regionAtoms_eq_ok hblock
    have hmem : a ∈ block ↔ ∃ i ∈ r.atomIds, selectedAtoms.lookup i = some a := by
      rw [hperm.mem_iff]
      constructor
      · exact fun ha => exists_of_forall₂_right hatoms ha
      · rintro ⟨i, hi, hlookup⟩
        obtain ⟨a', ha', hlookup'⟩ := exists_of_forall₂_left hatoms hi
        rw [hlookup, Option.some_inj] at hlookup'
        exact hlookup' ▸ ha'
    rw [List.flatten_cons, List.mem_append, hmem]
    exact (or_congr_right ih).trans (by simp)

private theorem exists_blocks (h : ∀ r ∈ regions, ∀ i ∈ r.atomIds, ∃ a, selectedAtoms.lookup i = some a) :
    ∃ blocks, regions.mapM (regionAtoms selectedAtoms) = .ok blocks := by
  refine mapM_total fun r hr => ?_
  obtain ⟨atoms, hatoms⟩ := mapM_total (f := selectedAtoms.getItem) (l := r.atomIds) fun i hi => by
    obtain ⟨a, ha⟩ := h r hr i hi
    exact ⟨a, Dict.getItem_eq_ok.2 ha⟩
  exact ⟨_, by rw [regionAtoms, hatoms, ok_bind]; rfl⟩

end Blocks

section Lookups

variable {platform : Platform} {extracted : EvidenceFields} {selections : Dict RegionId HypothesisId}
  {ms : List Supplement}

private theorem supplement_ids (m : Supplement) : (m.atoms platform extracted).map (·.atomId) =
    (List.range (normalizeLineEnds m.chosen.text).length).map (ocrAtomId platform extracted m.region m.chosen) := by
  rw [Supplement.atoms, materializeOcrAtoms, List.map_map, List.range_eq_range',
    ← List.zipIdx_map_snd 0 (normalizeLineEnds m.chosen.text), List.map_map]
  rfl

private theorem supplement_ocr {m : Supplement} {a : EvidenceAtom} (h : a ∈ m.atoms platform extracted) :
    a.authority = .ocr ∧ a.page = m.region.page := by
  obtain ⟨p, -, rfl⟩ := List.mem_map.1 h
  exact ⟨rfl, rfl⟩

private theorem supplemented_atoms : (supplemented platform extracted selections ms).selectedAtoms =
    Dict.ofList ((extracted.atoms ++ ms.flatMap (·.atoms platform extracted)).map fun a => (a.atomId, a)) := by
  rw [Dict.ofList, List.map_append, List.foldl_append]
  rfl

private theorem of_lookup {i : AtomId} {a : EvidenceAtom}
    (h : (supplemented platform extracted selections ms).selectedAtoms.lookup i = some a) :
    a.atomId = i ∧ (a ∈ extracted.atoms ∨ ∃ m ∈ ms, a ∈ m.atoms platform extracted) := by
  rw [supplemented_atoms] at h
  have hmem := Dict.mem_of_lookup_ofList h
  simp only [List.mem_map, Prod.mk.injEq, List.mem_append, List.mem_flatMap] at hmem
  obtain ⟨b, hb, rfl, rfl⟩ := hmem
  exact ⟨rfl, hb⟩

private theorem exists_lookup {i : AtomId} (h : i ∈ extracted.atoms.map (·.atomId) ∨
    i ∈ ms.flatMap fun m => (m.atoms platform extracted).map (·.atomId)) :
    ∃ a, (supplemented platform extracted selections ms).selectedAtoms.lookup i = some a := by
  rw [supplemented_atoms]
  refine Dict.exists_lookup_ofList ?_
  rw [List.map_map]
  rcases h with h | h
  · obtain ⟨a, ha, rfl⟩ := List.mem_map.1 h
    exact List.mem_map.2 ⟨a, List.mem_append_left _ ha, rfl⟩
  · obtain ⟨m, hm, h⟩ := List.mem_flatMap.1 h
    obtain ⟨a, ha, rfl⟩ := List.mem_map.1 h
    exact List.mem_map.2 ⟨a, List.mem_append_right _ (List.mem_flatMap.2 ⟨m, hm, ha⟩), rfl⟩

private theorem keys_supplements : ((ms.flatMap (·.atoms platform extracted)).map fun a => (a.atomId, a)).map Prod.fst =
    ms.flatMap fun m => (m.atoms platform extracted).map (·.atomId) := by
  rw [List.map_map, List.map_flatMap]
  rfl

private theorem lookup_supplement (selections : Dict RegionId HypothesisId)
    (hids : (ms.flatMap fun m => (m.atoms platform extracted).map (·.atomId)).Nodup)
    {m : Supplement} (hm : m ∈ ms) {a : EvidenceAtom} (ha : a ∈ m.atoms platform extracted) :
    (supplemented platform extracted selections ms).selectedAtoms.lookup a.atomId = some a := by
  refine Dict.lookup_foldl_insert_of_mem ?_ _ ?_
  · rw [keys_supplements]
    exact hids
  · exact List.mem_map.2 ⟨a, List.mem_flatMap.2 ⟨m, hm, ha⟩, rfl⟩

private theorem lookup_source (hv : extracted.Valid false) {a : EvidenceAtom} (ha : a ∈ extracted.atoms)
    (hnot : a.atomId ∉ ms.flatMap fun m => (m.atoms platform extracted).map (·.atomId)) :
    (supplemented platform extracted selections ms).selectedAtoms.lookup a.atomId = some a := by
  refine (Dict.lookup_foldl_insert _ _ (by rw [keys_supplements]; exact hnot)).trans ?_
  refine Dict.lookup_ofList ?_ (List.mem_map.2 ⟨a, ha, rfl⟩)
  rw [List.map_map]
  exact hv.atomIds

private theorem flatMap_supplemented : (supplemented platform extracted selections ms).selectedRegions.flatMap (·.atomIds) =
    extracted.embedded.flatMap (·.atomIds) ++ ms.flatMap fun m => (m.atoms platform extracted).map (·.atomId) := by
  rw [supplemented, List.flatMap_append, List.flatMap_map]
  rfl

/-- The identifiers of the supplements are those of the supplementary regions. -/
private theorem flatMap_suppliedIds {extracted : ExtractedEvidence} {ms : List Supplement}
    (hregions : ms.map (·.region) = extracted.regions.filter (fun r => extracted.IsSupplement r))
    (hchosen : ∀ m ∈ ms, chosenHypothesis extracted.toEvidenceFields selections m.region = .ok m.chosen) :
    (extracted.regions.filter fun r => extracted.IsSupplement r).flatMap (suppliedIds platform extracted selections) =
      ms.flatMap fun m => (m.atoms platform extracted.toEvidenceFields).map (·.atomId) := by
  rw [← hregions, List.flatMap_map]
  refine List.flatMap_congr fun m hm => ?_
  rw [suppliedIds, hchosen m hm, supplement_ids]

end Lookups

section Resolved

variable {platform : Platform} {extracted : ExtractedEvidence} {selections : Dict RegionId HypothesisId}
  {d : EvidenceDocument}

private theorem resolve_eq_ok : resolveEvidenceAuthority platform extracted selections = .ok d ↔
    SelectionsValid extracted.toEvidenceFields selections ∧
    ∃ s blocks, extracted.regions.foldlM (resolveRegion platform extracted.toEvidenceFields selections)
        (supplemented platform extracted.toEvidenceFields selections []) = .ok s ∧
      (sortBy regionOrderKey s.selectedRegions).mapM (regionAtoms s.selectedAtoms) = .ok blocks ∧
      d.toEvidenceFields = resolvedFields extracted.toEvidenceFields (sortBy regionOrderKey s.selectedRegions) blocks := by
  have hinitial : (⟨extracted.embedded, extracted.embedded, extracted.sourceAtoms⟩ : Resolution) =
      supplemented platform extracted.toEvidenceFields selections [] := by simp [supplemented]
  rw [resolveEvidenceAuthority, raiseIf_bind_eq_ok, not_not, hinitial]
  refine and_congr_right fun _ => ?_
  simp only [bind_eq_ok]
  constructor
  · rintro ⟨s, hrun, blocks, hblocks, hd⟩
    exact ⟨s, blocks, hrun, hblocks, EvidenceDocument.make_eq_ok.1 hd⟩
  · rintro ⟨s, blocks, hrun, hblocks, hd⟩
    exact ⟨s, hrun, blocks, hblocks, EvidenceDocument.make_eq_ok.2 hd⟩

/-- A document is returned only if no region is attached. -/
private theorem unattached_of_resolve (h : resolveEvidenceAuthority platform extracted selections = .ok d) :
    ∀ r ∈ extracted.regions, r.IsOcrOnly → ¬ extracted.IsBetween r := by
  obtain ⟨-, s, blocks, hrun, -, hd⟩ := resolve_eq_ok.1 h
  have hv := extracted.valid
  have hinitial : Outlined extracted.toEvidenceFields (supplemented platform extracted.toEvidenceFields selections []) :=
    ⟨rfl, fun r hr => List.mem_append_left _ hr⟩
  obtain ⟨houtlined, -, hlists⟩ := lists_of_run hv hinitial hrun
  intro r hr honly hbetween
  obtain ⟨i, hi, e, he, rfl, hids⟩ := hlists r hr honly hbetween
  obtain ⟨j, rest, hj⟩ := List.exists_cons_of_ne_nil honly.1
  have hjr : j ∈ r.hypothesisIds := by simp [hj]
  have hed : e ∈ d.regions := by
    rw [hd]
    exact mem_sortBy.2 (houtlined.selected e he)
  -- the document and the extracted evidence give the hypothesis to different regions
  obtain ⟨h₁, hh₁, hid₁, hregion₁, -⟩ := d.valid.hypotheses e hed j (hids j hjr)
  obtain ⟨h₂, hh₂, hid₂, hregion₂, -⟩ := hv.hypotheses r hr j hjr
  have hh₁' : h₁ ∈ extracted.hypotheses := by
    rw [hd] at hh₁
    exact (List.mem_filter.1 hh₁).1
  have heq : h₁ = h₂ := List.inj_on_of_nodup_map hv.hypothesisIds hh₁' hh₂ (hid₁.trans hid₂.symm)
  obtain ⟨e₀, he₀, hid₀⟩ := List.mem_map.1 hi
  rw [EvidenceFields.embedded, List.mem_filter, decide_eq_true_eq] at he₀
  have hsame : e₀ = r := List.inj_on_of_nodup_map hv.regionIds he₀.1 hr (by rw [hid₀, ← hregion₁, heq, hregion₂])
  exact he₀.2.2 (hsame ▸ honly.2)

/-- A resolved document comes from the supplements, and its atoms are those of its regions. -/
private theorem supplements_of_resolve (h : resolveEvidenceAuthority platform extracted selections = .ok d) :
    ∃ ms blocks, ms.map (·.region) = extracted.regions.filter (fun r => extracted.IsSupplement r) ∧
      (∀ m ∈ ms, chosenHypothesis extracted.toEvidenceFields selections m.region = .ok m.chosen) ∧
      (sortBy regionOrderKey (supplemented platform extracted.toEvidenceFields selections ms).selectedRegions).mapM
        (regionAtoms (supplemented platform extracted.toEvidenceFields selections ms).selectedAtoms) = .ok blocks ∧
      d.toEvidenceFields = resolvedFields extracted.toEvidenceFields
        (sortBy regionOrderKey (supplemented platform extracted.toEvidenceFields selections ms).selectedRegions) blocks := by
  obtain ⟨hsel, s, blocks, hrun, hblocks, hd⟩ := resolve_eq_ok.1 h
  obtain ⟨ms, hms, hregions, hchosen⟩ := run_supplemented platform extracted.valid hsel (fun r hr => hr)
    (unattached_of_resolve h) []
  cases hrun.symm.trans hms
  exact ⟨ms, blocks, hregions, hchosen, hblocks, hd⟩

/-- The identifiers of the atoms of a document are those that its regions name. -/
private theorem perm_atomIds {regions : List EvidenceRegion} {ms : List Supplement} {blocks : List (List EvidenceAtom)}
    (hregions : regions.Perm (supplemented platform extracted.toEvidenceFields selections ms).selectedRegions)
    (hblocks : regions.mapM
      (regionAtoms (supplemented platform extracted.toEvidenceFields selections ms).selectedAtoms) = .ok blocks) :
    ((numberAtoms blocks.flatten).map (·.atomId)).Perm (extracted.embedded.flatMap (·.atomIds) ++
      ms.flatMap fun m => (m.atoms platform extracted.toEvidenceFields).map (·.atomId)) := by
  have hids := perm_blocks (fun i a h => (of_lookup h).1) hblocks
  rw [map_numberAtoms (·.atomId) (fun _ _ => rfl), ← flatMap_supplemented]
  exact hids.trans (hregions.flatMap_right _)

/-- Evidence that resolves as it should is resolvable. -/
private theorem resolvable_of_resolves (h : resolveEvidenceAuthority platform extracted selections = .ok d)
    (hd : ResolvesEvidence extracted selections d) : Resolvable platform extracted selections := by
  obtain ⟨ms, blocks, hregions, hchosen, hblocks, hfields⟩ := supplements_of_resolve h
  have hperm := perm_atomIds (sortBy_perm _ _) hblocks
  have hatoms : d.atoms = numberAtoms blocks.flatten := by rw [hfields]; rfl
  have hnodup : (extracted.embedded.flatMap (·.atomIds) ++
      ms.flatMap fun m => (m.atoms platform extracted.toEvidenceFields).map (·.atomId)).Nodup :=
    hperm.nodup_iff.1 (hatoms ▸ d.valid.atomIds)
  refine ⟨unattached_of_resolve h, fun a ha hauthority => ?_, ?_⟩
  · have hcount := hd.embeddedOnce a ha hauthority
    have hmem : a.numbered 0 ∈ d.atoms.map (·.numbered 0) := List.count_pos_iff.1 (by omega)
    obtain ⟨b, hb, hab⟩ := List.mem_map.1 hmem
    obtain ⟨b₀, hb₀, n, rfl⟩ := exists_of_mem_numberAtoms (hatoms ▸ hb)
    have hid : b₀.atomId = a.atomId := congrArg (·.atomId) hab
    have hocr : b₀.authority = .embedded := (congrArg (·.authority) hab).trans hauthority
    obtain ⟨r, hr, i, hi, hlookup⟩ := (mem_blocks hblocks).1 hb₀
    have hib : b₀.atomId = i := (of_lookup hlookup).1
    rw [mem_sortBy, supplemented, List.mem_append] at hr
    rcases hr with hr | hr
    · exact ⟨r, hr, by rw [← hid, hib]; exact hi⟩
    · obtain ⟨m, hm, rfl⟩ := List.mem_map.1 hr
      obtain ⟨c, hc, hci⟩ := List.mem_map.1 hi
      have hids := (List.nodup_append.1 hnodup).2.1
      have hlookup' := lookup_supplement selections hids hm hc
      rw [hci, hlookup, Option.some_inj] at hlookup'
      rw [hlookup', (supplement_ocr hc).1] at hocr
      cases hocr
  · rw [flatMap_suppliedIds hregions hchosen]
    exact hnodup

private theorem supplement_of_mem {ms : List Supplement}
    (hregions : ms.map (·.region) = extracted.regions.filter (fun r => extracted.IsSupplement r)) {m : Supplement}
    (hm : m ∈ ms) : m.region ∈ extracted.regions ∧ extracted.IsSupplement m.region := by
  have h : m.region ∈ ms.map (·.region) := List.mem_map_of_mem hm
  rw [hregions, List.mem_filter, decide_eq_true_eq] at h
  exact h

private theorem embedded_iff {r : EvidenceRegion} :
    r ∈ extracted.embedded ↔ r ∈ extracted.regions ∧ r.authority = .embedded ∧ r.atomIds ≠ [] := by
  rw [EvidenceFields.embedded, List.mem_filter, decide_eq_true_eq]

/-- Every selected region is a region of the source with atoms, as it was or supplemented. -/
private theorem origin_of_selected {ms : List Supplement}
    (hregions : ms.map (·.region) = extracted.regions.filter (fun r => extracted.IsSupplement r)) {r : EvidenceRegion}
    (hr : r ∈ (supplemented platform extracted.toEvidenceFields selections ms).selectedRegions) :
    ∃ r₀ ∈ extracted.regions, r.regionId = r₀.regionId ∧ r.page = r₀.page ∧ r.hypothesisIds = r₀.hypothesisIds ∧
      r.authority ≠ .ambiguous ∧ r.atomIds ≠ [] := by
  rcases List.mem_append.1 hr with hr | hr
  · obtain ⟨hmem, hauthority, hne⟩ := embedded_iff.1 hr
    exact ⟨r, hmem, rfl, rfl, rfl, by rw [hauthority]; decide, hne⟩
  · obtain ⟨m, hm, rfl⟩ := List.mem_map.1 hr
    refine ⟨m.region, (supplement_of_mem hregions hm).1, rfl, rfl, rfl, by simp [Supplement.result, EvidenceRegion.materialize], ?_⟩
    have hids : (m.result platform extracted.toEvidenceFields selections).atomIds =
        (m.atoms platform extracted.toEvidenceFields).map (·.atomId) := rfl
    rw [hids, supplement_ids]
    simpa using normalizeLineEnds_ne_nil m.chosen.text_ne

private theorem nodup_selected {ms : List Supplement}
    (hregions : ms.map (·.region) = extracted.regions.filter (fun r => extracted.IsSupplement r)) :
    ((supplemented platform extracted.toEvidenceFields selections ms).selectedRegions.map (·.regionId)).Nodup := by
  have hv := extracted.valid
  have hids : (ms.map (·.result platform extracted.toEvidenceFields selections)).map (·.regionId) =
      (extracted.regions.filter fun r => extracted.IsSupplement r).map (·.regionId) := by
    rw [← hregions, List.map_map, List.map_map]
    rfl
  rw [supplemented, List.map_append, hids, List.nodup_append]
  refine ⟨nodup_embedded hv, hv.regionIds.sublist (List.filter_sublist.map _), ?_⟩
  rintro i hi j hj rfl
  obtain ⟨e, he, rfl⟩ := List.mem_map.1 hi
  obtain ⟨r, hr, hid⟩ := List.mem_map.1 hj
  rw [List.mem_filter, decide_eq_true_eq] at hr
  have hsame : r = e := List.inj_on_of_nodup_map hv.regionIds hr.1 (embedded_iff.1 he).1 hid
  exact (embedded_iff.1 he).2.2 (hsame ▸ hr.2.1.2)

/-- The fields of the document with the supplements pass the checks. -/
private theorem valid_resolvedFields {regions : List EvidenceRegion} {ms : List Supplement}
    {blocks : List (List EvidenceAtom)}
    (hsupplements : ms.map (·.region) = extracted.regions.filter (fun r => extracted.IsSupplement r))
    (hregions : regions.Perm (supplemented platform extracted.toEvidenceFields selections ms).selectedRegions)
    (hblocks : regions.mapM
      (regionAtoms (supplemented platform extracted.toEvidenceFields selections ms).selectedAtoms) = .ok blocks)
    (hids : (extracted.embedded.flatMap (·.atomIds) ++
      ms.flatMap fun m => (m.atoms platform extracted.toEvidenceFields).map (·.atomId)).Nodup) :
    (resolvedFields extracted.toEvidenceFields regions blocks).Valid true := by
  have hv := extracted.valid
  have hperm := perm_atomIds hregions hblocks
  have howned : (regions.flatMap (·.atomIds)).Perm (extracted.embedded.flatMap (·.atomIds) ++
      ms.flatMap fun m => (m.atoms platform extracted.toEvidenceFields).map (·.atomId)) := by
    rw [← flatMap_supplemented]
    exact hregions.flatMap_right _
  -- every selected region is one of the evidence, perhaps with other atoms
  have horigin : ∀ r ∈ regions, ∃ r₀ ∈ extracted.regions, r.regionId = r₀.regionId ∧ r.page = r₀.page ∧
      r.hypothesisIds = r₀.hypothesisIds ∧ r.authority ≠ .ambiguous ∧ r.atomIds ≠ [] :=
    fun r hr => origin_of_selected hsupplements (hregions.mem_iff.1 hr)
  refine ⟨hperm.nodup_iff.2 hids, ?_, ?_, hv.hypothesisIds.sublist (List.filter_sublist.map _), ?_, ?_, ?_, ?_, ?_, ?_,
    howned.nodup_iff.2 hids, fun i => (howned.mem_iff.trans hperm.mem_iff.symm)⟩
  · show ((numberAtoms blocks.flatten).map (·.ordinal)).Nodup
    rw [ordinals_numberAtoms]
    exact List.nodup_range
  · exact ((hregions.map _).nodup_iff).2 (nodup_selected hsupplements)
  · -- an atom is one of the source, or it is on the page of its supplementary region
    intro a ha
    obtain ⟨b, hb, n, rfl⟩ := exists_of_mem_numberAtoms ha
    obtain ⟨r, hr, i, hi, hlookup⟩ := (mem_blocks hblocks).1 hb
    rcases (of_lookup hlookup).2 with hsource | ⟨m, hm, hatom⟩
    · exact hv.atomPages b hsource
    · show b.page ≤ extracted.pageCount
      rw [(supplement_ocr hatom).2]
      exact hv.regionPages _ (supplement_of_mem hsupplements hm).1
  · intro r hr
    obtain ⟨r₀, hr₀, -, hpage, -⟩ := horigin r hr
    show r.page ≤ extracted.pageCount
    rw [hpage]
    exact hv.regionPages r₀ hr₀
  · exact fun h hh => hv.hypothesisPages h (List.mem_filter.1 hh).1
  · intro _ r hr
    obtain ⟨-, -, -, -, -, hauthority, hne⟩ := horigin r hr
    exact ⟨hauthority, hne⟩
  · intro r hr i hi
    obtain ⟨r₀, hr₀, hid, hpage, hhyps, -⟩ := horigin r hr
    obtain ⟨h, hh, rfl, hregion, hpage'⟩ := hv.hypotheses r₀ hr₀ i (hhyps ▸ hi)
    refine ⟨h, List.mem_filter.2 ⟨hh, decide_eq_true ?_⟩, rfl, hregion.trans hid.symm, hpage'.trans hpage.symm⟩
    exact List.mem_flatMap.2 ⟨r, hr, hi⟩
  · intro h hh
    obtain ⟨hh, hmem⟩ := List.mem_filter.1 hh
    obtain ⟨r, hr, hi⟩ := List.mem_flatMap.1 (of_decide_eq_true hmem)
    obtain ⟨r₀, hr₀, hid, -, hhyps, -⟩ := horigin r hr
    obtain ⟨h', hh', hid', hregion, -⟩ := hv.hypotheses r₀ hr₀ _ (hhyps ▸ hi)
    have hsame : h' = h := List.inj_on_of_nodup_map hv.hypothesisIds hh' hh hid'
    rw [← hsame, hregion, ← hid]
    exact List.mem_map_of_mem hr

/-- A region that covers enough is not among the selected ones. -/
private theorem dropped_of_duplicate {ms : List Supplement}
    (hregions : ms.map (·.region) = extracted.regions.filter (fun r => extracted.IsSupplement r))
    (hd : d.regions.Perm (supplemented platform extracted.toEvidenceFields selections ms).selectedRegions)
    {r : EvidenceRegion} (hr : r ∈ extracted.regions) (honly : r.IsOcrOnly)
    (hduplicate : ocrDuplicateOverlap ≤ extracted.overlap r) : IsDropped extracted d r := by
  refine ⟨hduplicate, fun hmem => ?_⟩
  obtain ⟨x, hx, hid⟩ := List.mem_map.1 hmem
  rcases List.mem_append.1 (hd.mem_iff.1 hx) with hx | hx
  · obtain ⟨hx, -, hne⟩ := embedded_iff.1 hx
    have hsame : x = r := List.inj_on_of_nodup_map extracted.valid.regionIds hx hr hid
    exact hne (hsame ▸ honly.2)
  · obtain ⟨m, hm, rfl⟩ := List.mem_map.1 hx
    obtain ⟨hmr, hsupplement⟩ := supplement_of_mem hregions hm
    have hsame : m.region = r := List.inj_on_of_nodup_map extracted.valid.regionIds hmr hr hid
    exact absurd (hduplicate.trans (hsame ▸ hsupplement.2)) (not_le.2 ocrSupplementOverlap_lt)

/-- A region that covers little has the atoms of its hypothesis. -/
private theorem materialized_of_supplement {ms : List Supplement} {blocks : List (List EvidenceAtom)}
    (hregions : ms.map (·.region) = extracted.regions.filter (fun r => extracted.IsSupplement r))
    (hchosen : ∀ m ∈ ms, chosenHypothesis extracted.toEvidenceFields selections m.region = .ok m.chosen)
    (hd : d.regions.Perm (supplemented platform extracted.toEvidenceFields selections ms).selectedRegions)
    (hblocks : d.regions.mapM
      (regionAtoms (supplemented platform extracted.toEvidenceFields selections ms).selectedAtoms) = .ok blocks)
    (hatoms : d.atoms = numberAtoms blocks.flatten)
    (hids : (ms.flatMap fun m => (m.atoms platform extracted.toEvidenceFields).map (·.atomId)).Nodup)
    {r : EvidenceRegion} (hr : r ∈ extracted.regions) (hsupplement : extracted.IsSupplement r) :
    IsMaterialized extracted selections d r := by
  have hmem : r ∈ ms.map (·.region) := by
    rw [hregions]
    exact List.mem_filter.2 ⟨hr, decide_eq_true hsupplement⟩
  obtain ⟨m, hm, rfl⟩ := List.mem_map.1 hmem
  have hresult : m.result platform extracted.toEvidenceFields selections ∈ d.regions :=
    hd.mem_iff.2 (List.mem_append_right _ (List.mem_map_of_mem hm))
  refine ⟨hsupplement.2, m.chosen, hchosen m hm, _, hresult, rfl, rfl, rfl, ?_⟩
  have hatom : ∀ a ∈ m.atoms platform extracted.toEvidenceFields, ∃ b ∈ d.atoms, b.atomId = a.atomId ∧
      b.authority = .ocr ∧ b.text = a.text := by
    intro a ha
    have hlookup := lookup_supplement selections hids hm ha
    have hflat : a ∈ blocks.flatten := (mem_blocks hblocks).2 ⟨_, hresult, a.atomId, List.mem_map_of_mem ha, hlookup⟩
    obtain ⟨n, hn⟩ := mem_numberAtoms hflat
    exact ⟨a.numbered n, hatoms ▸ hn, rfl, (supplement_ocr ha).1, rfl⟩
  have hmap : (m.result platform extracted.toEvidenceFields selections).atomIds =
      (m.atoms platform extracted.toEvidenceFields).map (·.atomId) := rfl
  rw [hmap, List.forall₂_map_left_iff, Supplement.atoms, materializeOcrAtoms, List.forall₂_map_left_iff]
  conv => rhs; rw [← List.zipIdx_map_fst 0 (normalizeLineEnds m.chosen.text)]
  rw [List.forall₂_map_right_iff, List.forall₂_same]
  intro p hp
  exact hatom _ (List.mem_map_of_mem hp)

/-- Resolvable evidence resolves as it should. -/
private theorem resolves_of_resolvable (hsel : SelectionsValid extracted.toEvidenceFields selections)
    (h : Resolvable platform extracted selections) :
    ∃ d, resolveEvidenceAuthority platform extracted selections = .ok d ∧ ResolvesEvidence extracted selections d := by
  have hv := extracted.valid
  obtain ⟨ms, hrun, hregions, hchosen⟩ := run_supplemented platform hv hsel (fun r hr => hr) h.unattached []
  rw [List.nil_append] at hrun
  have hnodup := h.distinctIds
  rw [flatMap_suppliedIds hregions hchosen] at hnodup
  have hperm := sortBy_perm regionOrderKey (supplemented platform extracted.toEvidenceFields selections ms).selectedRegions
  have hlookups : ∀ r ∈ sortBy regionOrderKey
      (supplemented platform extracted.toEvidenceFields selections ms).selectedRegions, ∀ i ∈ r.atomIds,
      ∃ a, (supplemented platform extracted.toEvidenceFields selections ms).selectedAtoms.lookup i = some a := by
    intro r hr i hi
    refine exists_lookup ?_
    have howned : i ∈ (supplemented platform extracted.toEvidenceFields selections ms).selectedRegions.flatMap (·.atomIds) :=
      List.mem_flatMap.2 ⟨r, mem_sortBy.1 hr, hi⟩
    rw [flatMap_supplemented, List.mem_append] at howned
    refine howned.imp_left fun hi => ?_
    obtain ⟨e, he, hi⟩ := List.mem_flatMap.1 hi
    exact (hv.owners i).1 (List.mem_flatMap.2 ⟨e, (embedded_iff.1 he).1, hi⟩)
  obtain ⟨blocks, hblocks⟩ := exists_blocks hlookups
  obtain ⟨d, -, hd⟩ := EvidenceDocument.exists_make (valid_resolvedFields hregions hperm hblocks hnodup)
    extracted.pageCount_pos
  have hatoms : d.atoms = numberAtoms blocks.flatten := by rw [hd]; rfl
  have hdregions : d.regions = sortBy regionOrderKey
    (supplemented platform extracted.toEvidenceFields selections ms).selectedRegions := by rw [hd]; rfl
  refine ⟨d, resolve_eq_ok.2 ⟨hsel, _, blocks, hrun, hblocks, hd⟩, ?_, ?_, ?_⟩
  · -- an embedded atom is owned by an embedded region, and identifiers occur once
    intro a ha hauthority
    have hnodupAtoms : (d.atoms.map (·.numbered 0)).Nodup := by
      refine List.Nodup.of_map (·.atomId) ?_
      rw [List.map_map]
      exact d.valid.atomIds
    refine List.count_eq_one_of_mem hnodupAtoms ?_
    obtain ⟨e, he, hi⟩ := h.embeddedOwned a ha hauthority
    have hnot : a.atomId ∉ ms.flatMap fun m => (m.atoms platform extracted.toEvidenceFields).map (·.atomId) := fun hin =>
      (List.nodup_append.1 hnodup).2.2 _ (List.mem_flatMap.2 ⟨e, he, hi⟩) _ hin rfl
    have hflat : a ∈ blocks.flatten := (mem_blocks hblocks).2
      ⟨e, mem_sortBy.2 (List.mem_append_left _ he), a.atomId, hi, lookup_source hv ha hnot⟩
    obtain ⟨n, hn⟩ := mem_numberAtoms hflat
    exact List.mem_map.2 ⟨a.numbered n, hatoms ▸ hn, rfl⟩
  · rw [hatoms, ordinals_numberAtoms, numberAtoms, List.length_map, List.length_zipIdx]
  · -- no overlap is between the thresholds, so that the region is dropped or materialised
    intro r hr honly
    by_cases hduplicate : ocrDuplicateOverlap ≤ extracted.overlap r
    · refine Or.inl ⟨dropped_of_duplicate hregions (hdregions ▸ hperm) hr honly hduplicate, fun h => ?_, fun h => ?_⟩
      · exact absurd hduplicate (not_le.2 h.1.2)
      · exact absurd (hduplicate.trans h.1) (not_le.2 ocrSupplementOverlap_lt)
    · have hsupplement : extracted.IsSupplement r :=
        ⟨honly, not_lt.1 fun hlt => h.unattached r hr honly ⟨hlt, not_le.1 hduplicate⟩⟩
      refine Or.inr (Or.inr ⟨fun h => hduplicate h.1, fun h => absurd h.1.1 (not_lt.2 hsupplement.2), ?_⟩)
      exact materialized_of_supplement hregions hchosen (hdregions ▸ hperm) (by rw [hdregions]; exact hblocks) hatoms
        (List.nodup_append.1 hnodup).2.1 hr hsupplement

end Resolved

/-- Evidence resolves to a document that keeps every embedded atom once, numbers the atoms in order and drops, attaches
or materialises every region of text recognition exactly when it is resolvable. -/
theorem resolveEvidenceAuthority_iff (platform : Platform) (extracted : ExtractedEvidence)
    (selections : Dict RegionId HypothesisId) (hsel : SelectionsValid extracted.toEvidenceFields selections) :
    (∃ d, resolveEvidenceAuthority platform extracted selections = .ok d ∧ ResolvesEvidence extracted selections d) ↔
      Resolvable platform extracted selections :=
  ⟨fun ⟨_, h, hd⟩ => resolvable_of_resolves h hd, resolves_of_resolvable hsel⟩

/-- The left half of a page. -/
def leftPart : SourceBox :=
  { SourceBox.page with right := 1 / 2, right_le_one := by norm_num, left_le_right := by norm_num [SourceBox.page] }

/-- A region of embedded text with one atom. -/
def embeddedLeft : EvidenceRegion where
  regionId := ⟨0⟩
  page := 1
  bbox := leftPart
  atomIds := [⟨0⟩]
  hypothesisIds := []
  authority := .embedded
  requiresReview := false
  page_pos := Nat.one_pos
  review := RegionAuthority.embedded_review
  nonempty := EvidenceRegion.first_nonempty

/-- The text that an engine recognised on the whole page. -/
def wholePageText : RecognitionHypothesis where
  hypothesisId := ⟨0⟩
  regionId := ⟨1⟩
  page := 1
  bbox := .page
  text := ['A']
  engine := ['o', 'c', 'r']
  confidence := .one
  page_pos := Nat.one_pos
  text_ne := letter_ne_nil
  engine_ne := List.cons_ne_nil _ _

/-- The region of the whole page. -/
def wholePageRegion : EvidenceRegion where
  regionId := ⟨1⟩
  page := 1
  bbox := .page
  atomIds := []
  hypothesisIds := [⟨0⟩]
  authority := .ocr
  requiresReview := false
  page_pos := Nat.one_pos
  review h := by cases h
  nonempty := Or.inr (List.cons_ne_nil _ _)

/-- The right half of a page. -/
def rightPart : SourceBox :=
  { SourceBox.page with left := 1 / 2, left_nonneg := by norm_num, left_le_right := by norm_num [SourceBox.page] }

/-- What an engine recognised where the embedded text is. -/
def recognisedLeft : EvidenceRegion := { wholePageRegion with bbox := leftPart }

/-- What an engine recognised on the right of the page. -/
def recognisedRight : EvidenceRegion :=
  { wholePageRegion with
    regionId := ⟨2⟩
    bbox := rightPart
    hypothesisIds := [⟨1⟩]
    nonempty := Or.inr (List.cons_ne_nil _ _) }

/-- Evidence of embedded text on the left of a page and of recognised text on both halves. -/
def bothHalvesEvidence : ExtractedEvidence where
  sourceHash := sha256 []
  extractionMode := .pdfMixed
  pageCount := 1
  atoms := [embeddedAtom 0 'A' .character (some leftPart) AtomKind.allows_letter]
  hypotheses := [{ wholePageText with bbox := leftPart },
    { wholePageText with hypothesisId := ⟨1⟩, regionId := ⟨2⟩, bbox := rightPart }]
  regions := [embeddedLeft, recognisedLeft, recognisedRight]
  pageCount_pos := Nat.one_pos
  validated := by rfl

/-- Evidence of embedded text on the left of a page and of recognised text on the whole page. -/
def partlyCoveredEvidence : ExtractedEvidence where
  sourceHash := sha256 []
  extractionMode := .pdfMixed
  pageCount := 1
  atoms := [embeddedAtom 0 'A' .character (some leftPart) AtomKind.allows_letter]
  hypotheses := [wholePageText]
  regions := [embeddedLeft, wholePageRegion]
  pageCount_pos := Nat.one_pos
  validated := by rfl

/-- The left region is dropped, the right one becomes an atom. -/
theorem resolveEvidenceAuthority_bothHalves : ∃ d, resolveEvidenceAuthority .ascii bothHalvesEvidence ∅ = .ok d ∧
    ResolvesEvidence bothHalvesEvidence ∅ d :=
  (resolveEvidenceAuthority_iff .ascii bothHalvesEvidence ∅ (by decide)).2
    ⟨by decide +kernel, by decide +kernel, by decide +kernel⟩

/-- A recognised region that embedded text covers by half makes the resolution fail. -/
theorem resolveEvidenceAuthority_partlyCovered :
    SelectionsValid partlyCoveredEvidence.toEvidenceFields ∅ ∧
      ¬ ∃ d, resolveEvidenceAuthority .ascii partlyCoveredEvidence ∅ = .ok d ∧
        ResolvesEvidence partlyCoveredEvidence ∅ d := by
  refine ⟨by decide, fun ⟨d, hd, _⟩ => ?_⟩
  have hnot := unattached_of_resolve hd wholePageRegion (List.mem_cons_of_mem _ (List.mem_singleton.2 rfl)) (by decide)
  exact hnot (by decide +kernel)

end ArdOssie
