import ArdOssie.Library.Results
import ArdOssie.Semantic.Structure
import Mathlib.Data.List.Perm.Basic
import Mathlib.Data.List.ReduceOption

/-!
# Reconciliation partitions the source

Every assignment of the reconciliation claims native spans that no earlier assignment claims (`ReconcileInvariant`),
and the assignments of ordinary blocks take ranges of groups that follow each other.  The exclusion of repeated page
edges moves whole assignments to the excluded spans; what is left is unresolved.
-/

namespace ArdOssie

variable {platform : Platform} {native : NativeDocument} {catalog : Dict SpanId SourceSpan}

/-! ### Ranges of groups -/

/-- A match is a range of groups from the cursor on, and its spans are those of the groups. -/
structure GroupMatch.Sound (groups : List NativeGroup) (cursor : ℕ) (m : GroupMatch) : Prop where
  cursor_le : cursor ≤ m.firstIndex
  range : ∃ suffix, groups.drop m.firstIndex = m.groups ++ suffix
  last : m.lastIndex + 1 = m.firstIndex + m.groups.length
  nonempty : m.groups ≠ []
  spanIds_eq : m.spanIds = m.groups.flatMap (·.spanIds)
  nodup : m.spanIds.Nodup

private theorem extendMatch_sound {hint : StructureBlock} {allocated : List SpanId} {ranges : Bool}
    {groups : List NativeGroup} {cursor start : ℕ} (hstart : cursor ≤ start) {rest : List NativeGroup} {last : ℕ}
    {taken : List NativeGroup} {ids : List SpanId} {best result : Option GroupMatch}
    (hrange : groups.drop start = taken ++ rest) (hlast : last = start + taken.length)
    (hids : ids = taken.flatMap (·.spanIds)) (hbest : ∀ m ∈ best, m.Sound groups cursor)
    (h : extendMatch platform catalog hint allocated ranges start rest last taken ids best = .ok result) :
    ∀ m ∈ result, m.Sound groups cursor := by
  induction rest generalizing last taken ids best with
  | nil =>
    rw [extendMatch, pure_eq_ok] at h
    exact h ▸ hbest
  | cons group rest ih =>
    have stop : ∀ {r : Option GroupMatch}, (pure best : PyResult _) = .ok r → ∀ m ∈ r, m.Sound groups cursor :=
      fun hr => pure_eq_ok.1 hr ▸ hbest
    have hrange' : groups.drop start = (taken ++ [group]) ++ rest := by rw [hrange, List.append_assoc]; rfl
    have hlast' : last + 1 = start + (taken ++ [group]).length := by rw [List.length_append, hlast]; rfl
    have hids' : ids ++ group.spanIds = (taken ++ [group]).flatMap (·.spanIds) := by
      rw [hids, List.flatMap_append, List.flatMap_singleton]
    unfold extendMatch at h
    split at h
    · exact stop h
    split at h
    · exact stop h
    split at h
    · exact stop h
    dsimp only at h
    split at h
    · exact stop h
    rename_i hnodup
    rw [not_not] at hnodup
    obtain ⟨location, -, h⟩ := bind_eq_ok.1 h
    split at h
    · exact stop h
    rename_i page bbox
    obtain ⟨text, -, h⟩ := bind_eq_ok.1 h
    split at h
    · exact ih hrange' hlast' hids' hbest h
    rename_i score _
    split at h
    · exact ih hrange' hlast' hids' hbest h
    · refine ih hrange' hlast' hids' (fun m hm => ?_) h
      -- the new best range is the one just found, or the old one
      have hfound : GroupMatch.Sound groups cursor
          ⟨start, last, taken ++ [group], ids ++ group.spanIds, page, bbox, score⟩ :=
        ⟨hstart, ⟨rest, hrange'⟩, hlast', by simp, hids', hnodup⟩
      cases best with
      | none =>
        cases hm
        exact hfound
      | some old =>
        simp only [Option.mem_def, Option.some_inj] at hm
        subst hm
        split
        · exact hfound
        · exact hbest old rfl

private theorem matchGroupsFrom_sound {hint : StructureBlock} {allocated : List SpanId} {ranges : Bool}
    {groups : List NativeGroup} {cursor start : ℕ} (hstart : cursor ≤ start) {rest : List NativeGroup}
    (hrange : groups.drop start = rest) {best result : Option GroupMatch}
    (hbest : ∀ m ∈ best, m.Sound groups cursor)
    (h : matchGroupsFrom platform catalog hint allocated ranges rest start best = .ok result) :
    ∀ m ∈ result, m.Sound groups cursor := by
  induction rest generalizing start best with
  | nil =>
    rw [matchGroupsFrom, pure_eq_ok] at h
    exact h ▸ hbest
  | cons group rest ih =>
    have hnext : groups.drop (start + 1) = rest := by
      rw [← List.drop_drop, hrange, List.drop_one, List.tail_cons]
    unfold matchGroupsFrom at h
    split at h
    · exact ih (by omega) hnext hbest h
    · obtain ⟨best', hbest', h⟩ := bind_eq_ok.1 h
      exact ih (by omega) hnext
        (extendMatch_sound hstart (hrange.trans (List.nil_append _).symm) rfl rfl hbest hbest') h

private theorem matchGroups_sound {hint : StructureBlock} {allocated : List SpanId} {ranges : Bool}
    {groups : List NativeGroup} {cursor : ℕ} {m : GroupMatch}
    (h : matchGroups platform catalog hint allocated ranges groups cursor = .ok (some m)) : m.Sound groups cursor :=
  matchGroupsFrom_sound le_rfl rfl (by simp) h m rfl

/-! ### Assignments -/

/-- What an assignment claims: known spans, once each, and for an ordinary block those of a range of groups between
the old and the new cursor. -/
structure Claim (native : NativeDocument) (groups : List NativeGroup) (hint : StructureBlock) (cursor next : ℕ)
    (a : AssignedBlock) : Prop where
  known : ∀ i ∈ a.spanIds, i ∈ native.spanIds
  nodup : a.spanIds.Nodup
  perm : a.semantic.spanIds.Perm a.spanIds
  cursor_le : cursor ≤ next
  ordinary : a.semantic.isTable = false → ∃ first range suffix, cursor ≤ first ∧ range ≠ [] ∧
    groups.drop first = range ++ suffix ∧ next = first + range.length ∧ a.spanIds = range.flatMap (·.spanIds) ∧
    a.semantic.order =
      if native.extractionMode = .docxXml then (range.head?.map (·.order)).getD hint.order else hint.order

private theorem semanticBlock_spec {hint : StructureBlock} {order : ℕ} {ids : List SpanId} {b : SemanticBlock}
    (h : semanticBlock hint order ids = .ok b) : b.spanIds = ids ∧ b.order = order ∧ b.isTable = false := by
  unfold semanticBlock at h
  split at h
  · obtain ⟨heading, hheading, h⟩ := bind_eq_ok.1 h
    obtain rfl := pure_eq_ok.1 h
    unfold HeadingBlock.make at hheading
    split at hheading
    · obtain rfl := pure_eq_ok.1 hheading
      exact ⟨rfl, rfl, rfl⟩
    · exact absurd hheading throw_ne_ok
  · obtain ⟨item, hitem, h⟩ := bind_eq_ok.1 h
    obtain rfl := pure_eq_ok.1 h
    unfold ListItemBlock.make at hitem
    split at hitem
    · obtain rfl := pure_eq_ok.1 hitem
      exact ⟨rfl, rfl, rfl⟩
    · exact absurd hitem throw_ne_ok
  · obtain ⟨paragraph, hparagraph, h⟩ := bind_eq_ok.1 h
    obtain rfl := pure_eq_ok.1 h
    unfold ParagraphBlock.make at hparagraph
    split at hparagraph
    · obtain rfl := pure_eq_ok.1 hparagraph
      exact ⟨rfl, rfl, rfl⟩
    · exact absurd hparagraph throw_ne_ok

private theorem assignedBlock_spec {semantic : SemanticBlock} {ids : List SpanId} {page : Option ℕ}
    {bbox : Option SourceBox} {boxes : List SourceBox} {a : AssignedBlock}
    (h : assignedBlock semantic ids page bbox catalog boxes = .ok a) :
    a.semantic = semantic ∧ a.spanIds = ids := by
  obtain ⟨spans, -, h⟩ := bind_eq_ok.1 h
  obtain rfl := pure_eq_ok.1 h
  exact ⟨rfl, rfl⟩

private theorem tableBlock_make_spec {order rows columns : ℕ} {cells : List TableCellBlock} {b : TableBlock}
    (h : TableBlock.make order rows columns cells = .ok b) : b.cells = cells := by
  unfold TableBlock.make at h
  split at h
  · split at h
    · obtain rfl := pure_eq_ok.1 h
      rfl
    · unfold validated at h
      split at h <;> simp_all
  · exact absurd h throw_ne_ok

private theorem matchTableFrom_index {hint : StructureBlock} {allocated : List SpanId} {cursor index : ℕ}
    (hindex : cursor ≤ index) {rest : List NativeGroup} {best result : Option (ℚ × ℕ × NativeGroup)}
    (hbest : ∀ b ∈ best, cursor ≤ b.2.1)
    (h : matchTableFrom platform catalog hint allocated rest index best = .ok result) :
    ∀ b ∈ result, cursor ≤ b.2.1 := by
  induction rest generalizing index best with
  | nil =>
    rw [matchTableFrom, pure_eq_ok] at h
    exact h ▸ hbest
  | cons group rest ih =>
    unfold matchTableFrom at h
    split at h
    · exact ih (by omega) hbest h
    obtain ⟨location, -, h⟩ := bind_eq_ok.1 h
    split at h
    · exact ih (by omega) hbest h
    obtain ⟨text, -, h⟩ := bind_eq_ok.1 h
    split at h
    · exact ih (by omega) hbest h
    split at h
    · exact ih (by omega) hbest h
    · refine ih (by omega) (fun b hb => ?_) h
      split at hb
      · cases hb
        exact hindex
      · exact hbest b hb

private theorem matchNativeTable_claim {groups : List NativeGroup} {hint : StructureBlock} {cursor next : ℕ}
    {allocated : List SpanId} {a : AssignedBlock}
    (h : matchNativeTable platform native groups catalog hint cursor allocated = .ok (some (a, next))) :
    Claim native groups hint cursor next a := by
  obtain ⟨best, hbest, h⟩ := bind_eq_ok.1 h
  split at h
  · cases pure_eq_ok.1 h
  rename_i score index group
  split at h
  · cases pure_eq_ok.1 h
  rename_i table htable
  split at h
  · cases pure_eq_ok.1 h
  dsimp only at h
  split at h
  · cases pure_eq_ok.1 h
  rename_i hids
  simp only [not_or, not_not] at hids
  obtain ⟨block, hblock, h⟩ := bind_eq_ok.1 h
  obtain ⟨location, -, h⟩ := bind_eq_ok.1 h
  split at h
  · cases pure_eq_ok.1 h
  obtain ⟨assignment, hassigned, h⟩ := bind_eq_ok.1 h
  cases pure_eq_ok.1 h
  obtain ⟨hsemantic, hspans⟩ := assignedBlock_spec hassigned
  have hmem : table ∈ native.tables := by
    obtain ⟨i, -, hi⟩ := Option.bind_eq_some_iff.1 htable
    exact List.mem_of_getElem? hi
  have hcells := tableBlock_make_spec hblock
  refine ⟨fun i hi => ?_, by rw [hspans]; exact hids.1, ?_, ?_, fun h => ?_⟩
  · rw [hspans, NativeTable.cellSpanIds, List.mem_flatMap] at hi
    obtain ⟨cell, hcell, hi⟩ := hi
    exact native.tables_known table hmem cell hcell i hi
  · rw [hsemantic, hspans, SemanticBlock.spanIds, hcells, List.flatMap_map]
    exact List.Perm.refl _
  · have hindex : cursor ≤ index := matchTableFrom_index le_rfl (by simp) hbest _ rfl
    omega
  · rw [hsemantic] at h
    cases h

/-! ### Tables of a PDF -/

private theorem mapSpansToCells_spec {cellMatches : Dict ℕ (List ℕ)} {spans : List (SourceSpan × ℕ)}
    {mapped result : List (List SpanId)} (h : mapSpansToCells cellMatches spans mapped = .ok (some result)) :
    result.length = mapped.length ∧ result.flatten.Perm (mapped.flatten ++ spans.map fun p => p.1.spanId) := by
  induction spans generalizing mapped with
  | nil =>
    rw [mapSpansToCells, pure_eq_ok, Option.some_inj] at h
    simp [h]
  | cons p spans ih =>
    unfold mapSpansToCells at h
    obtain ⟨destinations, -, h⟩ := bind_eq_ok.1 h
    split at h
    · split at h
      · rename_i destination hlt
        obtain ⟨hlen, hperm⟩ := ih h
        rw [List.length_modify] at hlen
        refine ⟨hlen, hperm.trans ?_⟩
        -- the span joins the cell at its position
        have hsplit : mapped = mapped.take destination ++ mapped[destination] :: mapped.drop (destination + 1) := by
          rw [← List.drop_eq_getElem_cons hlt, List.take_append_drop]
        rw [List.modify_eq_take_cons_drop hlt]
        conv_rhs => rw [hsplit]
        simp only [List.flatten_append, List.flatten_cons, List.append_assoc, List.map_cons]
        refine List.Perm.append_left _ (List.Perm.append_left _ ?_)
        rw [List.singleton_append]
        exact List.perm_middle.symm
      · exact absurd h throw_ne_ok
    · cases pure_eq_ok.1 h

private theorem mappedCells_spec {cells : List StructureCell} {mapped : List (List SpanId)}
    {blocks : List TableCellBlock} (hlen : mapped.length = cells.length) (h : mappedCells cells mapped = .ok blocks) :
    blocks.flatMap (·.spanIds) = mapped.flatten := by
  induction cells generalizing mapped blocks with
  | nil =>
    rw [List.length_nil, List.length_eq_zero_iff] at hlen
    subst hlen
    rw [mappedCells.eq_def, pure_eq_ok] at h
    simp [← h]
  | cons cell cells ih =>
    cases mapped with
    | nil => simp at hlen
    | cons ids mapped =>
      obtain ⟨block, hblock, h⟩ := bind_eq_ok.1 h
      obtain ⟨rest, hrest, h⟩ := bind_eq_ok.1 h
      obtain rfl := pure_eq_ok.1 h
      have hids : block.spanIds = ids := by
        unfold TableCellBlock.make at hblock
        split at hblock
        · obtain rfl := pure_eq_ok.1 hblock
          rfl
        · exact absurd hblock throw_ne_ok
      rw [List.flatMap_cons, List.flatten_cons, hids, ih (by simpa using hlen) hrest]

private theorem groupLocations_index {groups : List NativeGroup} {cursor page : ℕ} {locations : List (ℕ × SourceBox)}
    (h : groupLocations groups catalog cursor page = .ok locations) : ∀ p ∈ locations, cursor ≤ p.1 := by
  obtain ⟨located, hlocated, h⟩ := bind_eq_ok.1 h
  obtain rfl := pure_eq_ok.1 h
  intro p hp
  rw [List.reduceOption_mem_iff] at hp
  obtain ⟨⟨group, index⟩, hmem, hp⟩ := mem_of_mapM_eq_ok hlocated hp
  obtain ⟨location, -, hp⟩ := bind_eq_ok.1 hp
  have hindex : cursor ≤ index := List.le_snd_of_mem_zipIdx hmem
  split at hp
  · have hp := pure_eq_ok.1 hp
    split at hp
    · rw [Option.some_inj] at hp
      rw [← hp]
      exact hindex
    · cases hp
  · cases pure_eq_ok.1 hp

private theorem tableGeometry_spec {groups : List NativeGroup} {table : StructureTable} {tableBox : SourceBox}
    {page cursor : ℕ} {allocated : List SpanId} {found : TableGeometry}
    (h : tableGeometry native groups catalog table tableBox page cursor allocated = .ok found) :
    (∀ index ∈ found.groupIndices, cursor ≤ index) ∧ found.tableSpans.Sublist native.orderedSpans := by
  obtain ⟨locations, hlocations, h⟩ := bind_eq_ok.1 h
  obtain ⟨groupMatches, -, h⟩ := bind_eq_ok.1 h
  obtain ⟨groupHits, hgroup, h⟩ := bind_eq_ok.1 h
  obtain ⟨sourceMatches, -, h⟩ := bind_eq_ok.1 h
  obtain ⟨sourceHits, -, h⟩ := bind_eq_ok.1 h
  obtain rfl := pure_eq_ok.1 h
  refine ⟨fun index hindex => ?_, List.filter_sublist⟩
  rw [List.reduceOption_mem_iff] at hindex
  obtain ⟨⟨index', box⟩, hmem, hhit⟩ := mem_of_mapM_eq_ok hgroup hindex
  obtain ⟨found, -, hhit⟩ := bind_eq_ok.1 hhit
  have hhit := pure_eq_ok.1 hhit
  split at hhit
  · cases hhit
  · rw [Option.some_inj] at hhit
    rw [← hhit]
    exact groupLocations_index hlocations _ hmem

theorem orderedSpans_spanIds_perm : (native.orderedSpans.map (·.spanId)).Perm native.spanIds :=
  (sortBy_perm _ _).map _

private theorem matchPdfTable_claim {groups : List NativeGroup} {hint : StructureBlock} {table : StructureTable}
    {cursor next : ℕ} {allocated : List SpanId} {a : AssignedBlock}
    (h : matchPdfTable platform native groups catalog hint table cursor allocated = .ok (some (a, next))) :
    Claim native groups hint cursor next a := by
  unfold matchPdfTable at h
  split at h
  swap
  · cases pure_eq_ok.1 h
  obtain ⟨found, hfound, h⟩ := bind_eq_ok.1 h
  split at h
  · cases pure_eq_ok.1 h
  split at h
  · cases pure_eq_ok.1 h
  obtain ⟨cellMatches, -, h⟩ := bind_eq_ok.1 h
  obtain ⟨mapped, hmapped, h⟩ := bind_eq_ok.1 h
  split at h
  · cases pure_eq_ok.1 h
  rename_i mapped
  dsimp only at h
  split at h
  · cases pure_eq_ok.1 h
  obtain ⟨cells, hcells, h⟩ := bind_eq_ok.1 h
  obtain ⟨block, hblock, h⟩ := bind_eq_ok.1 h
  obtain ⟨assignment, hassigned, h⟩ := bind_eq_ok.1 h
  cases pure_eq_ok.1 h
  obtain ⟨hsemantic, hspans⟩ := assignedBlock_spec hassigned
  obtain ⟨hindices, hsublist⟩ := tableGeometry_spec hfound
  obtain ⟨hlen, hperm⟩ := mapSpansToCells_spec hmapped
  have hids : (found.tableSpans.map (·.spanId)).Sublist (native.orderedSpans.map (·.spanId)) := hsublist.map _
  refine ⟨fun i hi => ?_, ?_, ?_, ?_, fun h => ?_⟩
  · rw [hspans] at hi
    exact orderedSpans_spanIds_perm.mem_iff.1 (hids.subset hi)
  · rw [hspans]
    exact (orderedSpans_spanIds_perm.nodup_iff.2 native.spanIds_nodup).sublist hids
  · rw [hsemantic, hspans, SemanticBlock.spanIds, tableBlock_make_spec hblock,
      mappedCells_spec (hlen.trans (List.length_map _)) hcells]
    refine hperm.trans (List.Perm.of_eq ?_)
    rw [List.map_const', List.flatten_replicate_nil, List.nil_append]
    conv_rhs => rw [← List.zipIdx_map_fst 0 found.tableSpans, List.map_map]
    rfl
  · cases hmax : found.groupIndices.max? with
    | none => simp
    | some last =>
      have := hindices last (List.max?_mem hmax)
      simp only [Option.map_some, Option.getD_some]
      omega
  · rw [hsemantic] at h
    cases h

/-! ### The loop over the hints -/

/-- The hint's assignment claims what a claim may. -/
theorem assignHint_claim {groups : List NativeGroup} {hint : StructureBlock} {s : ReconcileState} {next : ℕ}
    {a : AssignedBlock} (hgroups : groups.Perm native.groups)
    (h : assignHint platform native groups catalog s hint = .ok (some (a, next))) :
    Claim native groups hint s.cursor next a := by
  unfold assignHint at h
  split at h
  · unfold matchTable at h
    split at h
    · cases pure_eq_ok.1 h
    · split at h
      · exact matchPdfTable_claim h
      · exact matchNativeTable_claim h
  · obtain ⟨found, hfound, h⟩ := bind_eq_ok.1 h
    split at h
    · cases pure_eq_ok.1 h
    rename_i found
    obtain ⟨block, hblock, h⟩ := bind_eq_ok.1 h
    obtain ⟨assignment, hassigned, h⟩ := bind_eq_ok.1 h
    cases pure_eq_ok.1 h
    obtain ⟨hsemantic, hspans⟩ := assignedBlock_spec hassigned
    obtain ⟨hids, horder, -⟩ := semanticBlock_spec hblock
    obtain ⟨hcursor, ⟨suffix, hrange⟩, hlast, hne, hspanIds, hnodup⟩ := matchGroups_sound hfound
    refine ⟨fun i hi => ?_, by rw [hspans]; exact hnodup, by rw [hsemantic, hspans, hids], by omega, fun _ => ?_⟩
    · rw [hspans, hspanIds, List.mem_flatMap] at hi
      obtain ⟨group, hgroup, hi⟩ := hi
      have hmem : group ∈ groups := List.mem_of_mem_drop (hrange ▸ List.mem_append_left _ hgroup)
      exact native.groups_known group (hgroups.mem_iff.1 hmem) i hi
    · refine ⟨found.firstIndex, found.groups, suffix, hcursor, hne, hrange, hlast, hspans.trans hspanIds, ?_⟩
      rw [hsemantic, horder]

/-- A group and a block share a span. -/
def Touches (g : NativeGroup) (b : SemanticBlock) : Prop := ∃ i ∈ g.spanIds, i ∈ b.spanIds

/-- The groups of the first block come before the groups of the second one. -/
def GroupsBefore (native : NativeDocument) (b b' : SemanticBlock) : Prop :=
  ∀ g ∈ native.groups, ∀ g' ∈ native.groups, Touches g b → Touches g' b' → g.order < g'.order

/-- The assignments of ordinary blocks. -/
def ordinaryAssignments (assignments : List AssignedBlock) : List AssignedBlock :=
  assignments.filter fun a => !a.semantic.isTable

/-- The state of the loop before the hints `rest`. -/
structure ReconcileInvariant (native : NativeDocument) (groups : List NativeGroup) (rest : List StructureBlock)
    (s : ReconcileState) : Prop where
  allocated_eq : s.allocated = s.assignments.flatMap (·.spanIds)
  nodup : s.allocated.Nodup
  known : ∀ i ∈ s.allocated, i ∈ native.spanIds
  perm : ∀ a ∈ s.assignments, a.semantic.spanIds.Perm a.spanIds
  before : (ordinaryAssignments s.assignments).Pairwise fun a a' => GroupsBefore native a.semantic a'.semantic
  orders : (ordinaryAssignments s.assignments).Pairwise fun a a' => a.semantic.order ≤ a'.semantic.order
  taken : ∀ a ∈ ordinaryAssignments s.assignments, ∀ g ∈ native.groups, Touches g a.semantic →
    g ∈ groups.take s.cursor
  bound : ∀ a ∈ ordinaryAssignments s.assignments,
    if native.extractionMode = .docxXml then ∃ g ∈ groups.take s.cursor, a.semantic.order = g.order
    else ∀ hint ∈ rest, a.semantic.order ≤ hint.order
  sorted : rest.Pairwise fun hint hint' => hint.order ≤ hint'.order

section Loop

variable {groups : List NativeGroup} {rest : List StructureBlock} {hint : StructureBlock} {s : ReconcileState}

private theorem take_subset {m n : ℕ} (h : m ≤ n) : ∀ g ∈ groups.take m, g ∈ groups.take n :=
  fun _ hg => (List.take_prefix_take_left h).subset hg

/-- A hint that assigns nothing keeps the invariant. -/
private theorem ReconcileInvariant.skip (hs : ReconcileInvariant native groups (hint :: rest) s) {next : ℕ}
    (hnext : s.cursor ≤ next) : ReconcileInvariant native groups rest { s with cursor := next } where
  allocated_eq := hs.allocated_eq
  nodup := hs.nodup
  known := hs.known
  perm := hs.perm
  before := hs.before
  orders := hs.orders
  taken a ha g hg ht := take_subset hnext g (hs.taken a ha g hg ht)
  bound a ha := by
    have h := hs.bound a ha
    split at h
    · rename_i hmode
      obtain ⟨g, hg, ho⟩ := h
      simp only [hmode, ↓reduceIte]
      exact ⟨g, take_subset hnext g hg, ho⟩
    · rename_i hmode
      simp only [hmode, ↓reduceIte]
      exact fun hint' hh => h hint' (List.mem_cons_of_mem _ hh)
  sorted := (List.pairwise_cons.1 hs.sorted).2

/-- The groups that touch a claimed range of groups belong to the range. -/
private theorem Claim.touches_range {next : ℕ} {a : AssignedBlock} {range : List NativeGroup}
    (hc : Claim native groups hint s.cursor next a) (hrange : range ⊆ native.groups)
    (hids : a.spanIds = range.flatMap (·.spanIds)) : ∀ g ∈ native.groups, Touches g a.semantic → g ∈ range := by
  rintro g hg ⟨i, hi, hia⟩
  rw [hc.perm.mem_iff, hids, List.mem_flatMap] at hia
  obtain ⟨g', hg', hi'⟩ := hia
  rwa [eq_of_mem_flatMap_nodup native.groupSpanIds_nodup hg (hrange hg') hi hi']

/-- A hint with a new claim keeps the invariant. -/
private theorem ReconcileInvariant.assign (hgroups : groups.Perm native.groups)
    (hsorted : groups.Pairwise fun g g' => g.order < g'.order)
    (hs : ReconcileInvariant native groups (hint :: rest) s) {next : ℕ} {a : AssignedBlock}
    (hc : Claim native groups hint s.cursor next a) (hfree : ∀ i ∈ a.spanIds, i ∉ s.allocated) :
    ReconcileInvariant native groups rest ⟨s.allocated ++ a.spanIds, s.assignments ++ [a], next⟩ := by
  have hskip := hs.skip hc.cursor_le
  have hsplit : groups.take s.cursor ++ groups.drop s.cursor = groups := List.take_append_drop _ _
  have hlt : ∀ g ∈ groups.take s.cursor, ∀ g' ∈ groups.drop s.cursor, g.order < g'.order := by
    rw [← hsplit, List.pairwise_append] at hsorted
    exact hsorted.2.2
  -- what the range of an ordinary claim gives
  have hordinary : a.semantic.isTable = false → ∃ range, range ≠ [] ∧ range ⊆ groups.drop s.cursor ∧
      range ⊆ groups.take next ∧ (∀ g ∈ native.groups, Touches g a.semantic → g ∈ range) ∧
      a.semantic.order =
        if native.extractionMode = .docxXml then (range.head?.map (·.order)).getD hint.order else hint.order := by
    intro htable
    obtain ⟨first, range, suffix, hfirst, hne, hdrop, hnext, hids, horder⟩ := hc.ordinary htable
    have hsub : range ⊆ groups.drop first := hdrop ▸ List.subset_append_left _ _
    have htake : range ⊆ groups.take next := by
      intro g hg
      have h : groups.take next = groups.take first ++ range := by
        rw [hnext, List.take_add, hdrop, List.take_left]
      rw [h]
      exact List.mem_append_right _ hg
    refine ⟨range, hne, fun g hg => ?_, htake, ?_, horder⟩
    · exact (List.drop_sublist_drop_left _ hfirst).subset (hsub hg)
    · exact hc.touches_range (fun g hg => hgroups.mem_iff.1 (List.mem_of_mem_drop (hsub hg))) hids
  have happend : ∀ {R : AssignedBlock → AssignedBlock → Prop},
      (ordinaryAssignments s.assignments).Pairwise R →
      (a.semantic.isTable = false → ∀ a' ∈ ordinaryAssignments s.assignments, R a' a) →
      (ordinaryAssignments (s.assignments ++ [a])).Pairwise R := by
    intro R hR hnew
    unfold ordinaryAssignments at *
    rw [List.filter_append, List.pairwise_append]
    refine ⟨hR, by cases h : a.semantic.isTable <;> simp [h], fun a' ha' b hb => ?_⟩
    simp only [List.mem_filter, List.mem_singleton, Bool.not_eq_true'] at hb
    obtain ⟨rfl, hb⟩ := hb
    exact hnew hb a' ha'
  have hall : ∀ {p : AssignedBlock → Prop}, (∀ a' ∈ ordinaryAssignments s.assignments, p a') →
      (a.semantic.isTable = false → p a) → ∀ a' ∈ ordinaryAssignments (s.assignments ++ [a]), p a' := by
    intro p hp hnew a' ha'
    simp only [ordinaryAssignments, List.filter_append, List.mem_append] at ha'
    rcases ha' with ha' | ha'
    · exact hp a' ha'
    · simp only [List.mem_filter, List.mem_singleton, Bool.not_eq_true'] at ha'
      obtain ⟨rfl, ha'⟩ := ha'
      exact hnew ha'
  refine ⟨?_, ?_, fun i hi => ?_, fun a' ha' => ?_, happend hs.before fun htable a' ha' => ?_,
    happend hs.orders fun htable a' ha' => ?_, hall hskip.taken fun htable => ?_,
    hall hskip.bound fun htable => ?_, hskip.sorted⟩
  · simp [hs.allocated_eq]
  · rw [List.nodup_append]
    exact ⟨hs.nodup, hc.nodup, fun i hi j hj hij => hfree j hj (hij ▸ hi)⟩
  · rcases List.mem_append.1 hi with hi | hi
    · exact hs.known i hi
    · exact hc.known i hi
  · rcases List.mem_append.1 ha' with ha' | ha'
    · exact hs.perm a' ha'
    · rw [List.mem_singleton.1 ha']
      exact hc.perm
  · obtain ⟨range, -, hdrop, -, htouch, -⟩ := hordinary htable
    intro g hg g' hg' ht ht'
    exact hlt g (hs.taken a' ha' g hg ht) g' (hdrop (htouch g' hg' ht'))
  · obtain ⟨range, hne, hdrop, -, -, horder⟩ := hordinary htable
    have hbound := hs.bound a' ha'
    split at hbound
    · rename_i hmode
      obtain ⟨g, hg, ho⟩ := hbound
      simp only [hmode, ↓reduceIte] at horder
      cases range with
      | nil => exact absurd rfl hne
      | cons g' range =>
        rw [ho, horder]
        exact (hlt g hg g' (hdrop (by simp))).le
    · rename_i hmode
      simp only [hmode, ↓reduceIte] at horder
      rw [horder]
      exact hbound hint (by simp)
  · obtain ⟨range, -, -, htake, htouch, -⟩ := hordinary htable
    exact fun g hg ht => htake (htouch g hg ht)
  · obtain ⟨range, hne, -, htake, -, horder⟩ := hordinary htable
    split
    · rename_i hmode
      simp only [hmode, ↓reduceIte] at horder
      cases range with
      | nil => exact absurd rfl hne
      | cons g range => exact ⟨g, htake (by simp), horder⟩
    · rename_i hmode
      simp only [hmode, ↓reduceIte] at horder
      rw [horder]
      exact (List.pairwise_cons.1 hs.sorted).1

/-- One pass of the loop keeps the invariant. -/
private theorem reconcileStep_invariant (hgroups : groups.Perm native.groups)
    (hsorted : groups.Pairwise fun g g' => g.order < g'.order) {s' : ReconcileState}
    (hs : ReconcileInvariant native groups (hint :: rest) s)
    (h : reconcileStep platform native groups catalog s hint = .ok s') :
    ReconcileInvariant native groups rest s' := by
  obtain ⟨assigned, hassigned, h⟩ := bind_eq_ok.1 h
  split at h
  · exact pure_eq_ok.1 h ▸ hs.skip le_rfl
  rename_i a next
  have hc := assignHint_claim hgroups hassigned
  split at h
  · exact pure_eq_ok.1 h ▸ hs.skip hc.cursor_le
  · rename_i hfree
    refine pure_eq_ok.1 h ▸ hs.assign hgroups hsorted hc fun i hi hi' => hfree ?_
    exact List.any_eq_true.2 ⟨i, hi, by simpa using hi'⟩

end Loop

/-! ### The exclusion of repeated edges -/

private theorem mem_groupByKey {β κ : Type} [DecidableEq κ] {key : β → κ} {l : List β} {k : κ} {items : List β}
    (h : (k, items) ∈ groupByKey key l) : items ⊆ l := by
  obtain ⟨k', -, hk⟩ := List.mem_map.1 h
  cases hk
  exact List.filter_subset_self l

/-- The removed entries are assignments with their index. -/
private theorem mem_repeatedEdges {assignments : List AssignedBlock}
    {removed : List (ℕ × AssignedBlock × ExclusionKind)}
    (h : repeatedEdges platform native assignments catalog = .ok removed) {index : ℕ} {a : AssignedBlock}
    {kind : ExclusionKind} (hmem : (index, a, kind) ∈ removed) : (a, index) ∈ assignments.zipIdx := by
  obtain ⟨entries, hentries, h⟩ := bind_eq_ok.1 h
  obtain rfl := pure_eq_ok.1 h
  obtain ⟨⟨key, items⟩, hgroup, hmem⟩ := List.mem_flatMap.1 hmem
  dsimp only at hmem
  split at hmem
  · cases hmem
  obtain ⟨⟨key', index', a'⟩, hitem, hmem⟩ := List.mem_filterMap.1 hmem
  dsimp only at hmem
  split at hmem
  · cases hmem
  cases hmem
  have hentry := mem_groupByKey hgroup hitem
  rw [List.reduceOption_mem_iff] at hentry
  obtain ⟨⟨a'', index''⟩, hzip, hentry⟩ := mem_of_mapM_eq_ok hentries hentry
  obtain ⟨key'', -, hentry⟩ := bind_eq_ok.1 hentry
  have hentry := pure_eq_ok.1 hentry
  rw [Option.map_eq_some_iff] at hentry
  obtain ⟨_, -, hentry⟩ := hentry
  cases hentry
  exact hzip

private theorem map_filterMap_eq {β γ δ : Type} {f : β → Option γ} {g : γ → δ} {g' : β → δ}
    (h : ∀ b c, f b = some c → g c = g' b) (l : List β) :
    (l.filterMap f).map g = (l.filter fun b => (f b).isSome).map g' := by
  induction l with
  | nil => rfl
  | cons b l ih =>
    cases hb : f b with
    | none => simp [hb, ih]
    | some c => simp [hb, ih, h b c hb]

/-- The exclusion moves the spans of whole assignments to the excluded spans. -/
theorem excludeRepeatedEdges_spec {assignments retained : List AssignedBlock} {excluded : List ExcludedSpan}
    (hnodup : (assignments.flatMap (·.spanIds)).Nodup)
    (hknown : ∀ i ∈ assignments.flatMap (·.spanIds), i ∈ native.spanIds)
    (h : excludeRepeatedEdges platform native assignments catalog = .ok (retained, excluded)) :
    retained.Sublist assignments ∧
      (retained.flatMap (·.spanIds) ++ excluded.map (·.spanId)).Perm (assignments.flatMap (·.spanIds)) := by
  unfold excludeRepeatedEdges at h
  split at h
  · cases h
    exact ⟨List.Sublist.refl _, by simp⟩
  obtain ⟨removed, hremoved, h⟩ := bind_eq_ok.1 h
  cases h
  have hfst : assignments.zipIdx.map Prod.fst = assignments := List.zipIdx_map_fst _ _
  refine ⟨by conv_rhs => rw [← hfst]
             exact List.filter_sublist.map _, ?_⟩
  -- the assignments split into the retained and the removed ones
  set gone := (assignments.zipIdx.filter fun p => !decide (p.2 ∉ removed.map Prod.fst)).map Prod.fst with hgone
  have hsplit : (((assignments.zipIdx.filter fun p => decide (p.2 ∉ removed.map Prod.fst)).map Prod.fst).flatMap
      (·.spanIds) ++ gone.flatMap (·.spanIds)).Perm (assignments.flatMap (·.spanIds)) := by
    rw [← List.flatMap_append, ← List.map_append]
    conv_rhs => rw [← hfst]
    exact ((List.filter_append_perm _ _).map _).flatMap_right _
  refine List.Perm.trans (List.Perm.append_left _ ?_) hsplit
  set excludedById := Dict.ofList (removed.flatMap fun p =>
    p.2.1.spanIds.map fun spanId => (spanId, (⟨spanId, p.2.2⟩ : ExcludedSpan))) with hexcludedById
  have hvalue : ∀ (i : SpanId) (e : ExcludedSpan), excludedById.lookup i = some e →
      e.spanId = i ∧ ∃ index a kind, (index, a, kind) ∈ removed ∧ i ∈ a.spanIds := by
    intro i e he
    obtain ⟨⟨index, a, kind⟩, hmem, he⟩ := List.mem_flatMap.1 (Dict.mem_of_lookup_ofList he)
    obtain ⟨spanId, hspan, he⟩ := List.mem_map.1 he
    cases he
    exact ⟨rfl, index, a, kind, hmem, hspan⟩
  have hids : (native.orderedSpans.filterMap fun s => excludedById.lookup s.spanId).map (·.spanId) =
      (native.orderedSpans.filter fun s => (excludedById.lookup s.spanId).isSome).map (·.spanId) :=
    map_filterMap_eq (fun s e he => (hvalue _ e he).1) _
  rw [hids, List.perm_ext_iff_of_nodup]
  · intro i
    rw [List.mem_map]
    constructor
    · rintro ⟨s, hs, rfl⟩
      rw [List.mem_filter, Option.isSome_iff_exists] at hs
      obtain ⟨-, e, he⟩ := hs
      obtain ⟨-, index, a, kind, hmem, hi⟩ := hvalue _ e he
      refine List.mem_flatMap.2 ⟨a, List.mem_map.2 ⟨(a, index), List.mem_filter.2 ⟨?_, ?_⟩, rfl⟩, hi⟩
      · exact mem_repeatedEdges hremoved hmem
      · simpa using ⟨a, kind, hmem⟩
    · intro hi
      obtain ⟨a, ha, hia⟩ := List.mem_flatMap.1 hi
      obtain ⟨⟨a', index⟩, hp, rfl⟩ := List.mem_map.1 ha
      obtain ⟨hzip, hindex⟩ := List.mem_filter.1 hp
      have hi' : i ∈ native.spanIds := by
        refine hknown i (List.mem_flatMap.2 ⟨a', ?_, hia⟩)
        exact hfst ▸ List.mem_map.2 ⟨_, hzip, rfl⟩
      obtain ⟨s, hs, rfl⟩ := List.mem_map.1 hi'
      refine ⟨s, List.mem_filter.2 ⟨by rw [NativeDocument.orderedSpans, mem_sortBy]; exact hs, ?_⟩, rfl⟩
      rw [Option.isSome_iff_exists]
      refine Dict.exists_lookup_ofList ?_
      simp only [decide_not, Bool.not_not, decide_eq_true_eq, List.mem_map] at hindex
      obtain ⟨⟨index', a'', kind⟩, hmem, rfl⟩ := hindex
      have hsame : a'' = a' := by
        have h1 := List.mem_zipIdx_iff_getElem?.1 (mem_repeatedEdges hremoved hmem)
        have h2 := List.mem_zipIdx_iff_getElem?.1 hzip
        exact Option.some_inj.1 (h1.symm.trans h2)
      subst hsame
      exact List.mem_map.2 ⟨(s.spanId, ⟨s.spanId, kind⟩), List.mem_flatMap.2 ⟨_, hmem,
        List.mem_map.2 ⟨_, hia, rfl⟩⟩, rfl⟩
  · exact (orderedSpans_spanIds_perm.nodup_iff.2 native.spanIds_nodup).sublist (List.filter_sublist.map _)
  · exact (hsplit.nodup_iff.2 hnodup).of_append_right

/-! ### The partition -/

/-- The reconciliation partitions the source: every span is in exactly one block, unresolved or excluded, and no span
occurs twice; the groups of the ordinary blocks follow each other in source order. -/
theorem reconcileStructure_partition {skeleton : StructureDocument} {result : ReconciliationResult}
    (h : reconcileStructure platform native skeleton = .ok result) :
    (blockSpanIds result.blocks ++ result.unresolvedSpanIds ++ result.excludedSpans.map (·.spanId)).Perm
        native.spanIds ∧
      (blockSpanIds result.blocks ++ result.unresolvedSpanIds ++ result.excludedSpans.map (·.spanId)).Nodup ∧
      (result.blocks.filter fun b => !b.isTable).Pairwise (GroupsBefore native) := by
  obtain ⟨s, hs, h⟩ := bind_eq_ok.1 h
  obtain ⟨⟨retained, excluded⟩, hexcluded, h⟩ := bind_eq_ok.1 h
  obtain rfl := pure_eq_ok.1 h
  have hinv : ReconcileInvariant native (sortBy (·.order) native.groups) [] s := by
    refine foldlM_invariant (P := ReconcileInvariant native (sortBy (·.order) native.groups))
      (fun hint rest s s' hs h => ?_) hs ?_
    · exact reconcileStep_invariant (sortBy_perm _ _) (sortBy_pairwise_lt native.groupOrders_nodup) hs h
    · exact ⟨rfl, List.nodup_nil, by simp, by simp, List.Pairwise.nil, List.Pairwise.nil,
        by simp [ordinaryAssignments], by simp [ordinaryAssignments], sortBy_pairwise_le _ _⟩
  have hnodup := hinv.nodup
  have hknown := hinv.known
  rw [hinv.allocated_eq] at hnodup hknown
  obtain ⟨hsublist, hperm⟩ := excludeRepeatedEdges_spec hnodup hknown hexcluded
  -- the blocks have the spans of the retained assignments
  have hblocks : (blockSpanIds ((sortBy (·.semantic.order) retained).map (·.semantic))).Perm
      (retained.flatMap (·.spanIds)) := by
    rw [blockSpanIds, List.flatMap_map]
    refine ((sortBy_perm _ _).flatMap_right _).trans ?_
    exact List.Perm.flatMap_left _ fun a ha => hinv.perm a (hsublist.subset ha)
  -- the unresolved spans are those that no assignment claims
  have hunresolved : native.orderedSpans.filter (fun span =>
      decide (span.spanId ∉ s.allocated ∧ span.spanId ∉ excluded.map (·.spanId))) =
      native.orderedSpans.filter fun span => decide (span.spanId ∉ s.allocated) := by
    refine List.filter_congr fun span _ => ?_
    rw [decide_eq_decide, and_iff_left_iff_imp]
    intro hfree hmem
    exact hfree (hinv.allocated_eq ▸ hperm.mem_iff.1 (List.mem_append_right _ hmem))
  have hall : (blockSpanIds ((sortBy (·.semantic.order) retained).map (·.semantic)) ++
      (native.orderedSpans.filter fun span => decide (span.spanId ∉ s.allocated ∧
        span.spanId ∉ excluded.map (·.spanId))).map (·.spanId) ++ excluded.map (·.spanId)).Perm native.spanIds := by
    rw [hunresolved, List.append_assoc]
    refine (hblocks.append_right _).trans ((List.Perm.append_left _ List.perm_append_comm).trans ?_)
    rw [← List.append_assoc]
    refine (hperm.append_right _).trans ?_
    rw [← hinv.allocated_eq, List.perm_ext_iff_of_nodup]
    · intro i
      rw [List.mem_append, List.mem_map]
      constructor
      · rintro (hi | ⟨span, hspan, rfl⟩)
        · exact hinv.known i hi
        · rw [List.mem_filter, NativeDocument.orderedSpans, mem_sortBy] at hspan
          exact List.mem_map.2 ⟨span, hspan.1, rfl⟩
      · intro hi
        by_cases hallocated : i ∈ s.allocated
        · exact Or.inl hallocated
        · obtain ⟨span, hspan, rfl⟩ := List.mem_map.1 hi
          refine Or.inr ⟨span, ?_, rfl⟩
          rw [List.mem_filter, NativeDocument.orderedSpans, mem_sortBy, decide_eq_true_eq]
          exact ⟨hspan, hallocated⟩
    · rw [List.nodup_append]
      refine ⟨hinv.nodup, ?_, ?_⟩
      · exact (orderedSpans_spanIds_perm.nodup_iff.2 native.spanIds_nodup).sublist (List.filter_sublist.map _)
      · rintro i hi j hj rfl
        obtain ⟨span, hspan, rfl⟩ := List.mem_map.1 hj
        rw [List.mem_filter, decide_eq_true_eq] at hspan
        exact hspan.2 hi
    · exact native.spanIds_nodup
  refine ⟨hall, hall.nodup_iff.2 native.spanIds_nodup, ?_⟩
  -- sorting by the orders of the blocks does not move ordinary blocks
  have hordinary : (ordinaryAssignments retained).Sublist (ordinaryAssignments s.assignments) :=
    hsublist.filter _
  rw [List.filter_map, List.pairwise_map]
  have hsorted : (sortBy (·.semantic.order) retained).filter (fun a => !a.semantic.isTable) =
      ordinaryAssignments retained := filter_sortBy (hinv.orders.sublist hordinary)
  rw [show ((fun b : SemanticBlock => !b.isTable) ∘ fun a : AssignedBlock => a.semantic) =
    fun a => !a.semantic.isTable from rfl, hsorted]
  exact hinv.before.sublist hordinary

/-- A document of one paragraph. -/
def paragraphDocument : NativeDocument where
  sourceHash := sha256 []
  extractionMode := .docxXml
  pageCount := 0
  spans := [⟨makeSpanId (sha256 []) 0, 0, none, none, ['a'], sha256 ['a'], false, by simp, by simp, rfl⟩]
  groups := [⟨0, .paragraph, [makeSpanId (sha256 []) 0], none, none, none, by simp⟩]
  tables := []
  spanIds_nodup := by simp
  ordinals_nodup := by simp
  span_identity := by simp
  groupOrders_nodup := by simp
  groupSpanIds_nodup := by simp
  tableOrders_nodup := by simp
  groups_known := by simp
  groups_nonempty := by simp
  groups_table := by simp
  tables_known := by simp

def reportId (i : ℕ) : SpanId := makeSpanId (sha256 []) i

/-- A span of one letter. -/
def reportSpan (i : ℕ) (letter : Char) : SourceSpan :=
  ⟨reportId i, i, none, none, [letter], sha256 [letter], false, by simp, by simp, rfl⟩

private theorem reportTable_withinLimits : CellRegion.WithinLimits ⟨0, 1, 1, 2⟩ := by decide

private def reportTable : NativeTable where
  order := 0
  rowCount := 1
  columnCount := 2
  cells := [⟨⟨0, 1, 0, 1⟩, [reportId 1], true, none, by decide⟩,
    ⟨⟨0, 1, 1, 2⟩, [reportId 2], true, none, reportTable_withinLimits⟩]
  grid := by decide +kernel

/-- A document of a title, a table with two cells and a note. -/
def reportDocument : NativeDocument where
  sourceHash := sha256 []
  extractionMode := .docxXml
  pageCount := 0
  spans := [reportSpan 0 'r', reportSpan 1 'x', reportSpan 2 'y', reportSpan 3 'n']
  groups := [⟨0, .paragraph, [reportId 0], none, none, none, by simp⟩,
    ⟨1, .table, [reportId 1, reportId 2], none, none, some 0, by simp⟩,
    ⟨2, .paragraph, [reportId 3], none, none, none, by simp⟩]
  tables := [reportTable]
  spanIds_nodup := by decide +kernel
  ordinals_nodup := by decide
  span_identity := by simp [reportSpan, reportId]
  groupOrders_nodup := by decide
  groupSpanIds_nodup := by decide +kernel
  tableOrders_nodup := by simp
  groups_known := by simp [reportSpan]
  groups_nonempty := by simp
  groups_table := by simp
  tables_known := by simp [reportSpan, reportTable]

/-- Hints of a heading and of a table with the texts of the title and of the table. -/
def reportSkeleton : StructureDocument where
  blocks := [⟨.heading, 0, none, none, ['R'], some 1, none, none, none⟩,
    ⟨.table, 1, none, none, "X Y".toList, none, none, none,
      some ⟨1, 2, [⟨⟨0, 1, 0, 1⟩, ['X'], true, none⟩, ⟨⟨0, 1, 1, 2⟩, ['Y'], true, none⟩]⟩⟩]

/-- The title and the table go to blocks, and the note stays unresolved. -/
theorem reconcileStructure_paragraph :
    ∃ result, reconcileStructure .ascii reportDocument reportSkeleton = .ok result ∧
      result.blocks.map (·.isTable) = [false, true] ∧ result.unresolvedSpanIds.length = 1 ∧
      (blockSpanIds result.blocks ++ result.unresolvedSpanIds ++ result.excludedSpans.map (·.spanId)).Perm
        reportDocument.spanIds ∧
      (blockSpanIds result.blocks ++ result.unresolvedSpanIds ++ result.excludedSpans.map (·.spanId)).Nodup ∧
      (result.blocks.filter fun b => !b.isTable).Pairwise (GroupsBefore reportDocument) := by
  have hrun : (reconcileStructure .ascii reportDocument reportSkeleton).toOption.any (fun result =>
      result.blocks.map (·.isTable) = [false, true] ∧ result.unresolvedSpanIds.length = 1) = true := by decide +kernel
  obtain ⟨result, h, hread⟩ := exists_of_any_toOption hrun
  obtain ⟨hblocks, hunresolved⟩ := of_decide_eq_true hread
  exact ⟨result, h, hblocks, hunresolved, reconcileStructure_partition h⟩

end ArdOssie
