import ArdOssie.Semantic.RepairValidation

/-!
# Evidence batches

The batches cut the requested spans into consecutive pieces that keep pages, runs of spans without a page and native
tables together.  The plans of the batches compose: when each of them is validated, so is the merged plan.
-/

namespace ArdOssie

/-! ### The intervals that are kept together -/

section Intervals

/-- The position belongs to the current run or has no page. -/
private def Pageless (pages : List (Option ℕ)) (index : ℕ) (start : Option ℕ) (x : ℕ) : Prop :=
  (∃ s ∈ start, s ≤ x ∧ x < index) ∨ index ≤ x ∧ pages[x - index]? = some none

private theorem Pageless.tail {page : Option ℕ} {pages : List (Option ℕ)} {index : ℕ} {start start' : Option ℕ}
    {x : ℕ} (h : Pageless (page :: pages) index start x) (hx : index < x) :
    Pageless pages (index + 1) start' x := by
  rcases h with ⟨s, -, -, hlt⟩ | ⟨-, hpage⟩
  · omega
  · refine Or.inr ⟨hx, ?_⟩
    rwa [show x - index = x - (index + 1) + 1 by omega, List.getElem?_cons_succ] at hpage

/-- The intervals of the runs lie within the list. -/
theorem pagelessIntervals_bounds {pages : List (Option ℕ)} {index : ℕ} {start : Option ℕ}
    (hstart : ∀ s ∈ start, s < index) :
    ∀ p ∈ pagelessIntervals pages index start, p.1 ≤ p.2 ∧ p.2 < index + pages.length := by
  induction pages generalizing index start with
  | nil =>
    cases start with
    | none => simp [pagelessIntervals]
    | some s =>
      have := hstart s rfl
      simp only [pagelessIntervals, List.mem_singleton, List.length_nil, add_zero]
      rintro p rfl
      exact ⟨by simp only; omega, by simp only; omega⟩
  | cons page pages ih =>
    intro p hp
    rw [List.length_cons]
    cases page with
    | none =>
      have hnext : ∀ s ∈ some (start.getD index), s < index + 1 := by
        cases start with
        | none => simp
        | some s =>
          have := hstart s rfl
          simp only [Option.getD_some, Option.mem_some_iff, forall_eq']
          omega
      have := ih hnext p hp
      omega
    | some page =>
      cases start with
      | none =>
        have := @ih (index + 1) none (by simp) p hp
        omega
      | some s =>
        have := hstart s rfl
        rcases List.mem_cons.1 hp with rfl | hp
        · exact ⟨by simp only; omega, by simp only; omega⟩
        · have := @ih (index + 1) none (by simp) p hp
          omega

/-- A run of positions without a page lies in one interval. -/
theorem pagelessIntervals_contains {pages : List (Option ℕ)} {index : ℕ} {start : Option ℕ} {a b : ℕ} (hab : a ≤ b)
    (hstart : ∀ s ∈ start, s < index) (h : ∀ x, a ≤ x → x ≤ b → Pageless pages index start x) :
    ∃ p ∈ pagelessIntervals pages index start, p.1 ≤ a ∧ b ≤ p.2 := by
  induction pages generalizing index start with
  | nil =>
    rcases h a le_rfl hab with ⟨s, hs, hsa, -⟩ | ⟨-, hpage⟩
    · rcases h b hab le_rfl with ⟨_, -, -, hb⟩ | ⟨-, hpage⟩
      · cases hs
        exact ⟨(s, index - 1), by simp [pagelessIntervals], hsa, Nat.le_sub_one_of_lt hb⟩
      · simp at hpage
    · simp at hpage
  | cons page pages ih =>
    cases page with
    | none =>
      have hnext : ∀ s ∈ some (start.getD index), s < index + 1 := by
        rintro _ ⟨⟩
        cases start with
        | none => exact lt_add_one index
        | some s => exact (hstart s rfl).trans (lt_add_one index)
      refine ih hnext fun x hax hxb => ?_
      rcases lt_or_ge index x with hx | hx
      · exact (h x hax hxb).tail hx
      · refine Or.inl ⟨_, rfl, ?_, by omega⟩
        rcases h x hax hxb with ⟨s, hs, hsx, -⟩ | ⟨hix, -⟩
        · cases hs
          exact hsx
        · exact (Nat.lt_succ_iff.1 (hnext _ rfl)).trans hix
    | some page =>
      -- the position of this page is outside the run
      have houtside : ¬ (a ≤ index ∧ index ≤ b) := by
        rintro ⟨ha, hb⟩
        rcases h index ha hb with ⟨_, -, -, hlt⟩ | ⟨-, hpage⟩
        · exact lt_irrefl _ hlt
        · simp at hpage
      rcases lt_or_ge index a with ha | ha
      · obtain ⟨p, hp, hpa, hpb⟩ := @ih (index + 1) none (by simp) fun x hax hxb =>
          (h x hax hxb).tail (ha.trans_le hax)
        refine ⟨p, ?_, hpa, hpb⟩
        cases start with
        | none => exact hp
        | some s => exact List.mem_cons_of_mem _ hp
      · rcases h a le_rfl hab with ⟨s, hs, hsa, -⟩ | ⟨hia, -⟩
        · cases hs
          exact ⟨(s, index - 1), by simp [pagelessIntervals], hsa, by simp only; omega⟩
        · omega

/-- The interval of a list of positions goes from one of them to another and contains all of them. -/
theorem positionInterval_spec {positions : List ℕ} {p : ℕ × ℕ} (h : positionInterval positions = some p) :
    p.1 ∈ positions ∧ p.2 ∈ positions ∧ ∀ x ∈ positions, p.1 ≤ x ∧ x ≤ p.2 := by
  unfold positionInterval at h
  split at h
  · rename_i low high hlow hhigh
    cases h
    rw [List.min?_eq_some_iff] at hlow
    rw [List.max?_eq_some_iff] at hhigh
    exact ⟨hlow.1, hhigh.1, fun x hx => ⟨hlow.2 x hx, hhigh.2 x hx⟩⟩
  · cases h

theorem exists_positionInterval {positions : List ℕ} (h : positions ≠ []) :
    ∃ p, positionInterval positions = some p := by
  unfold positionInterval
  split
  · exact ⟨_, rfl⟩
  · rename_i hnone
    obtain ⟨low, hlow⟩ := Option.ne_none_iff_exists'.1 (mt List.min?_eq_none_iff.1 h)
    obtain ⟨high, hhigh⟩ := Option.ne_none_iff_exists'.1 (mt List.max?_eq_none_iff.1 h)
    exact (hnone low high hlow hhigh).elim

/-- The positions that carry a page, with the page. -/
private theorem mem_pagePositions {pages : List (Option ℕ)} {page index : ℕ} :
    (page, index) ∈ (pages.zipIdx.map fun (page, index) => page.map fun p => (p, index)).reduceOption ↔
      pages[index]? = some (some page) := by
  rw [List.reduceOption_mem_iff, List.mem_map]
  constructor
  · rintro ⟨⟨page', index'⟩, hmem, h⟩
    dsimp only at h
    rw [Option.map_eq_some_iff] at h
    obtain ⟨_, rfl, h⟩ := h
    cases h
    exact List.mem_zipIdx_iff_getElem?.1 hmem
  · intro h
    exact ⟨(some page, index), List.mem_zipIdx_iff_getElem?.2 h, rfl⟩

theorem pageIntervals_bounds {pages : List (Option ℕ)} :
    ∀ p ∈ pageIntervals pages, p.1 ≤ p.2 ∧ p.2 < pages.length := by
  intro p hp
  rw [pageIntervals, List.reduceOption_mem_iff, List.mem_map] at hp
  obtain ⟨⟨page, items⟩, hgroup, hp⟩ := hp
  obtain ⟨-, hhigh, hall⟩ := positionInterval_spec hp
  refine ⟨(hall _ hhigh).1, ?_⟩
  obtain ⟨⟨page', index⟩, hitem, rfl⟩ := List.mem_map.1 hhigh
  obtain ⟨_, -, hgroup⟩ := List.mem_map.1 hgroup
  cases hgroup
  have hpage := mem_pagePositions.1 (List.mem_of_mem_filter hitem)
  exact (List.getElem?_eq_some_iff.1 hpage).1

/-- The positions of a page lie in one interval. -/
theorem pageIntervals_contains {pages : List (Option ℕ)} {page : ℕ} (h : some page ∈ pages) :
    ∃ p ∈ pageIntervals pages, ∀ x, pages[x]? = some (some page) → p.1 ≤ x ∧ x ≤ p.2 := by
  set entries := (pages.zipIdx.map fun (page, index) => page.map fun p => (p, index)).reduceOption with hentries
  set items := entries.filter fun entry => entry.1 = page with hitems
  have hposition : ∀ x, pages[x]? = some (some page) → x ∈ items.map Prod.snd := by
    intro x hx
    exact List.mem_map.2 ⟨(page, x), List.mem_filter.2 ⟨mem_pagePositions.2 hx, by simp⟩, rfl⟩
  obtain ⟨x, hx⟩ := List.getElem?_of_mem h
  obtain ⟨p, hp⟩ := exists_positionInterval (List.ne_nil_of_mem (hposition x hx))
  refine ⟨p, ?_, fun y hy => (positionInterval_spec hp).2.2 y (hposition y hy)⟩
  rw [pageIntervals, List.reduceOption_mem_iff, List.mem_map]
  refine ⟨(page, items), List.mem_map.2 ⟨page, ?_, rfl⟩, hp⟩
  rw [List.mem_eraseDups, List.mem_map]
  exact ⟨(page, x), mem_pagePositions.2 hx, rfl⟩

variable {context : RepairContext}

private theorem mem_tablePositions {table : NativeTable} {x : ℕ} :
    x ∈ (table.cellSpanIds.map context.positions.lookup).reduceOption ↔
      ∃ i ∈ table.cellSpanIds, context.positions.lookup i = some x := by
  rw [List.reduceOption_mem_iff, List.mem_map]

theorem tableIntervals_bounds (hnodup : context.orderedSpanIds.Nodup) :
    ∀ p ∈ tableIntervals context, p.1 ≤ p.2 ∧ p.2 < context.orderedSpanIds.length := by
  intro p hp
  rw [tableIntervals, List.reduceOption_mem_iff, List.mem_map] at hp
  obtain ⟨table, -, hp⟩ := hp
  obtain ⟨-, hhigh, hall⟩ := positionInterval_spec hp
  refine ⟨(hall _ hhigh).1, ?_⟩
  obtain ⟨i, -, hi⟩ := mem_tablePositions.1 hhigh
  rw [RepairContext.lookup_positions hnodup] at hi
  exact (List.getElem?_eq_some_iff.1 hi).1

/-- The requested positions of a native table lie in one interval. -/
theorem tableIntervals_contains {table : NativeTable} (htable : table ∈ context.native.tables) {i : SpanId} {x : ℕ}
    (hi : i ∈ table.cellSpanIds) (hx : context.positions.lookup i = some x) :
    ∃ p ∈ tableIntervals context, ∀ j ∈ table.cellSpanIds, ∀ y, context.positions.lookup j = some y →
      p.1 ≤ y ∧ y ≤ p.2 := by
  obtain ⟨p, hp⟩ := exists_positionInterval (List.ne_nil_of_mem (mem_tablePositions.2 ⟨i, hi, hx⟩))
  refine ⟨p, ?_, fun j hj y hy => (positionInterval_spec hp).2.2 y (mem_tablePositions.2 ⟨j, hj, hy⟩)⟩
  rw [tableIntervals, List.reduceOption_mem_iff, List.mem_map]
  exact ⟨table, htable, hp⟩

end Intervals

/-! ### The batches of a context -/

section Batches

variable {native : NativeDocument} {spans : List SourceSpan}

/-- The intervals of `_evidence_batches` after the merge. -/
def mergedIntervals (context : RepairContext) (pages : List (Option ℕ)) : List (ℕ × ℕ) :=
  Intervals.mergeSorted (sortBy toLex (pagelessIntervals pages 0 none ++ pageIntervals pages ++ tableIntervals context))

/-- Two positions of a context that a batch must not separate. -/
def PositionsTogether (native : NativeDocument) (spans : List SourceSpan) (x y : ℕ) : Prop :=
  (∃ page, (spans.map (·.page))[x]? = some (some page) ∧ (spans.map (·.page))[y]? = some (some page)) ∨
    (∀ z, x ≤ z → z ≤ y → (spans.map (·.page))[z]? = some none) ∨
    ∃ table ∈ native.tables, (∃ i ∈ table.cellSpanIds, (spans.map (·.spanId))[x]? = some i) ∧
      ∃ i ∈ table.cellSpanIds, (spans.map (·.spanId))[y]? = some i

private theorem sorted_starts (L : List (ℕ × ℕ)) : (sortBy toLex L).Pairwise fun p q => p.1 ≤ q.1 := by
  refine (sortBy_pairwise_le toLex L).imp fun h => ?_
  rcases Prod.Lex.le_iff.1 h with h | h
  · exact h.le
  · exact h.1.le

private theorem intervals_bounds (hnodup : (contextOf native spans).orderedSpanIds.Nodup) :
    ∀ p ∈ pagelessIntervals (spans.map (·.page)) 0 none ++ pageIntervals (spans.map (·.page)) ++
      tableIntervals (contextOf native spans), p.1 ≤ p.2 ∧ p.2 < spans.length := by
  intro p hp
  rw [List.mem_append, List.mem_append] at hp
  rcases hp with (hp | hp) | hp
  · simpa using @pagelessIntervals_bounds _ 0 none (by simp) p hp
  · simpa using pageIntervals_bounds p hp
  · simpa [contextOf] using tableIntervals_bounds hnodup p hp

/-- Positions that belong together lie in one of the merged intervals. -/
theorem mergedIntervals_together (hnodup : (contextOf native spans).orderedSpanIds.Nodup) {x y : ℕ} (hxy : x ≤ y)
    (h : PositionsTogether native spans x y) :
    ∃ p ∈ mergedIntervals (contextOf native spans) (spans.map (·.page)), p.1 ≤ x ∧ y ≤ p.2 := by
  have hinterval : ∃ p ∈ pagelessIntervals (spans.map (·.page)) 0 none ++ pageIntervals (spans.map (·.page)) ++
      tableIntervals (contextOf native spans), p.1 ≤ x ∧ y ≤ p.2 := by
    rcases h with ⟨page, hx, hy⟩ | hpageless | ⟨table, htable, ⟨i, hi, hx⟩, j, hj, hy⟩
    · obtain ⟨p, hp, hall⟩ := pageIntervals_contains (List.mem_of_getElem? hx)
      exact ⟨p, by simp [hp], (hall x hx).1, (hall y hy).2⟩
    · obtain ⟨p, hp, hpx, hpy⟩ := @pagelessIntervals_contains (spans.map (·.page)) 0 none x y hxy (by simp)
        fun z hxz hzy => Or.inr ⟨Nat.zero_le z, hpageless z hxz hzy⟩
      exact ⟨p, by simp [hp], hpx, hpy⟩
    · have hx := (RepairContext.lookup_positions hnodup).2 hx
      have hy := (RepairContext.lookup_positions hnodup).2 hy
      obtain ⟨p, hp, hall⟩ := tableIntervals_contains htable hi hx
      exact ⟨p, by simp [hp], (hall i hi x hx).1, (hall j hj y hy).2⟩
  obtain ⟨i, hi, hix, hiy⟩ := hinterval
  obtain ⟨p, hp, h1, h2⟩ := Intervals.mergeSorted_contains (sorted_starts _) i (mem_sortBy.2 hi)
  exact ⟨p, hp, h1.trans hix, hiy.trans h2⟩

/-- The merged intervals cut the positions of a context into consecutive pieces. -/
theorem mergedIntervals_tiles (hnodup : (contextOf native spans).orderedSpanIds.Nodup) :
    Intervals.Tiles spans.length 0 (mergedIntervals (contextOf native spans) (spans.map (·.page))) := by
  refine Intervals.tiles_of_covers ?_ (Intervals.mergeSorted_separated (sorted_starts _)) (Nat.zero_le _) fun x => ?_
  · exact Intervals.mergeSorted_valid fun p hp => (intervals_bounds hnodup p (mem_sortBy.1 hp)).1
  constructor
  · intro hx
    obtain ⟨p, hp, -, hxp⟩ := (Intervals.covers_mergeSorted (sorted_starts _)).1 hx
    exact ⟨Nat.zero_le x, hxp.trans_lt (intervals_bounds hnodup p (mem_sortBy.1 hp)).2⟩
  · rintro ⟨-, hx⟩
    -- every position is together with itself, on its page or in its run
    have hself : PositionsTogether native spans x x := by
      cases hpage : spans[x].page with
      | none =>
        refine Or.inr (Or.inl fun z hxz hzx => ?_)
        obtain rfl := le_antisymm hzx hxz
        simp [hx, hpage]
      | some page => exact Or.inl ⟨page, by simp [hx, hpage], by simp [hx, hpage]⟩
    exact mergedIntervals_together hnodup le_rfl hself

/-- The spans of an interval of positions. -/
def slice (spans : List SourceSpan) (p : ℕ × ℕ) : List SourceSpan := (spans.take (p.2 + 1)).drop p.1

theorem slice_sublist (p : ℕ × ℕ) : (slice spans p).Sublist spans :=
  (List.drop_sublist _ _).trans (List.take_sublist _ _)

private theorem getItems_eq {L : List SourceSpan} (h : ∀ s ∈ L, s ∈ native.spans) :
    (L.map (·.spanId)).mapM (Dict.getItem native.spanCatalog) = .ok L := by
  rw [mapM_eq_ok, List.forall₂_map_left_iff, List.forall₂_same]
  exact fun s hs => Dict.getItem_eq_ok.2 (NativeDocument.lookup_spanCatalog (h s hs))

private theorem evidenceBatch_spec (hknown : ∀ s ∈ spans, s ∈ native.spans)
    (hsorted : spans.Pairwise fun s t => s.ordinal < t.ordinal) (skeleton : StructureDocument) (p : ℕ × ℕ) :
    ∃ batch, evidenceBatch (contextOf native spans) skeleton p = .ok batch ∧
      batch.context = contextOf native (slice spans p) := by
  have hknown' : ∀ s ∈ slice spans p, s ∈ native.spans := fun s hs => hknown s ((slice_sublist p).subset hs)
  have hsorted' := hsorted.sublist (slice_sublist p)
  have hids : ((contextOf native spans).orderedSpanIds.take (p.2 + 1)).drop p.1 = (slice spans p).map (·.spanId) := by
    rw [slice, List.map_drop, List.map_take]
    rfl
  have hcontext : repairContext native ((slice spans p).map (·.spanId)) =
      (contextOf native (slice spans p), none) := by
    have hspanIds : ∀ i ∈ (slice spans p).map (·.spanId), i ∈ native.spanIds := by
      intro i hi
      obtain ⟨s, hs, rfl⟩ := List.mem_map.1 hi
      exact List.mem_map.2 ⟨s, hknown' s hs, rfl⟩
    have h := repairContext_eq (contextOf_nodup hknown' hsorted') hspanIds
    rwa [show (contextOf native (slice spans p)).orderedSpanIds = (slice spans p).map (·.spanId) from rfl,
      requestedSpans_map hknown' hsorted'] at h
  unfold evidenceBatch
  dsimp only
  rw [hids, show (contextOf native spans).native = native from rfl, hcontext, getItems_eq hknown']
  exact ⟨_, rfl, rfl⟩

/-- The batches of a context are the contexts of consecutive pieces of its spans. -/
theorem evidenceBatches_spec (hknown : ∀ s ∈ spans, s ∈ native.spans)
    (hsorted : spans.Pairwise fun s t => s.ordinal < t.ordinal) (hne : spans ≠ []) (skeleton : StructureDocument) :
    ∃ batches, evidenceBatches (contextOf native spans) skeleton = .ok batches ∧
      List.Forall₂ (fun p batch => batch.context = contextOf native (slice spans p))
        (mergedIntervals (contextOf native spans) (spans.map (·.page))) batches := by
  have htiles := mergedIntervals_tiles (contextOf_nodup hknown hsorted)
  have hcovered : (mergedIntervals (contextOf native spans) (spans.map (·.page))).flatMap
      (fun p => List.range' p.1 (p.2 + 1 - p.1)) = List.range (contextOf native spans).orderedSpanIds.length := by
    rw [htiles.flatMap_range', List.range_eq_range']
    simp [contextOf]
  obtain ⟨batches, hbatches⟩ := mapM_total fun p
      (_ : p ∈ mergedIntervals (contextOf native spans) (spans.map (·.page))) =>
    (evidenceBatch_spec hknown hsorted skeleton p).imp fun _ h => h.1
  refine ⟨batches, ?_, (mapM_eq_ok.1 hbatches).imp fun p batch h => ?_⟩
  · unfold evidenceBatches
    rw [if_neg (by simpa [contextOf] using hne)]
    refine bind_eq_ok.2 ⟨spans, getItems_eq hknown, ?_⟩
    exact bind_eq_ok.2 ⟨(), raiseIf_eq_ok.2 (not_not.2 hcovered), hbatches⟩
  · obtain ⟨batch', hbatch', hcontext⟩ := evidenceBatch_spec hknown hsorted skeleton p
    rw [h] at hbatch'
    cases hbatch'
    exact hcontext

/-- The batches are consecutive pieces of the spans, and positions that belong together are in one batch. -/
structure BatchesCut (native : NativeDocument) (spans : List SourceSpan) (batches : List RepairBatch) : Prop where
  contexts : ∀ batch ∈ batches, ∃ p : ℕ × ℕ, p.1 ≤ p.2 ∧ p.2 < spans.length ∧
    batch.context = contextOf native (slice spans p)
  spanIds : batches.flatMap (·.context.orderedSpanIds) = spans.map (·.spanId)
  single : ∀ batch, batches = [batch] → batch.context = contextOf native spans
  together : ∀ x y, x ≤ y → PositionsTogether native spans x y → ∃ batch ∈ batches, ∃ p : ℕ × ℕ, p.1 ≤ x ∧ y ≤ p.2 ∧
    batch.context = contextOf native (slice spans p)

private theorem forall₂_context {L : List (ℕ × ℕ)} {batches : List RepairBatch}
    (h : List.Forall₂ (fun p batch => batch.context = contextOf native (slice spans p)) L batches) :
    (∀ batch ∈ batches, ∃ p ∈ L, batch.context = contextOf native (slice spans p)) ∧
      (∀ p ∈ L, ∃ batch ∈ batches, batch.context = contextOf native (slice spans p)) ∧
      batches.flatMap (·.context.orderedSpanIds) = (L.flatMap (slice spans)).map (·.spanId) := by
  induction h with
  | nil => simp
  | @cons p batch L batches h _ ih =>
    obtain ⟨h1, h2, h3⟩ := ih
    refine ⟨?_, ?_, ?_⟩
    · intro b hb
      rcases List.mem_cons.1 hb with rfl | hb
      · exact ⟨p, by simp, h⟩
      · obtain ⟨q, hq, hctx⟩ := h1 b hb
        exact ⟨q, by simp [hq], hctx⟩
    · intro q hq
      rcases List.mem_cons.1 hq with rfl | hq
      · exact ⟨batch, by simp, h⟩
      · obtain ⟨b, hb, hctx⟩ := h2 q hq
        exact ⟨b, by simp [hb], hctx⟩
    · rw [List.flatMap_cons, List.flatMap_cons, List.map_append, h3, h]
      rfl

/-- The evidence batches of a context cut its spans; the assertions of the code do not fail. -/
theorem evidenceBatches_cut (hknown : ∀ s ∈ spans, s ∈ native.spans)
    (hsorted : spans.Pairwise fun s t => s.ordinal < t.ordinal) (skeleton : StructureDocument) :
    ∃ batches, evidenceBatches (contextOf native spans) skeleton = .ok batches ∧ BatchesCut native spans batches := by
  rcases eq_or_ne spans [] with rfl | hne
  · refine ⟨[], by simp [evidenceBatches, contextOf, pure, Except.pure], by simp, rfl, by simp, fun x y hxy h => ?_⟩
    rcases h with ⟨page, hx, -⟩ | hpageless | ⟨table, -, ⟨i, -, hx⟩, -⟩
    · simp at hx
    · have := hpageless x le_rfl hxy
      simp at this
    · simp at hx
  obtain ⟨batches, hbatches, hall⟩ := evidenceBatches_spec hknown hsorted hne skeleton
  have hnodup := contextOf_nodup hknown hsorted
  have htiles := mergedIntervals_tiles hnodup
  obtain ⟨hcontexts, hintervals, hids⟩ := forall₂_context hall
  have hslices : (mergedIntervals (contextOf native spans) (spans.map (·.page))).flatMap (slice spans) = spans := by
    exact htiles.flatMap_slice.trans List.drop_zero
  refine ⟨batches, hbatches, fun batch hbatch => ?_, ?_, fun batch hbatch => ?_, fun x y hxy h => ?_⟩
  · obtain ⟨p, hp, hctx⟩ := hcontexts batch hbatch
    exact ⟨p, (htiles.bounds p hp).1, (htiles.bounds p hp).2, hctx⟩
  · rw [hids, hslices]
  · -- a single batch is cut by a single interval
    subst hbatch
    generalize mergedIntervals (contextOf native spans) (spans.map (·.page)) = L at hall hslices
    obtain _ | ⟨hctx, hnil⟩ := hall
    cases hnil
    rw [hctx]
    simpa using congrArg (contextOf native) hslices
  · obtain ⟨p, hp, hpx, hpy⟩ := mergedIntervals_together hnodup hxy h
    obtain ⟨batch, hbatch, hctx⟩ := hintervals p hp
    exact ⟨batch, hbatch, p, hpx, hpy, hctx⟩

end Batches

/-! ### The merged plan -/

section Merge

variable {platform : Platform} {threshold : ℚ} {context : RepairContext}

/-- The blocks with their indices as orders. -/
private def renumbered (blocks : List RepairBlock) : List RepairBlock :=
  blocks.zipIdx.map fun (b, order) => { b with order := order }

private theorem mem_renumbered {blocks : List RepairBlock} {b : RepairBlock} (h : b ∈ renumbered blocks) :
    ∃ b' ∈ blocks, ∃ n, b = { b' with order := n } := by
  obtain ⟨⟨b', n⟩, hmem, rfl⟩ := List.mem_map.1 h
  exact ⟨b', List.fst_mem_of_mem_zipIdx hmem, n, rfl⟩

private theorem renumbered_flatMap {γ : Type} {f : RepairBlock → List γ} (hf : ∀ b n, f { b with order := n } = f b)
    (blocks : List RepairBlock) : (renumbered blocks).flatMap f = blocks.flatMap f := by
  rw [renumbered, List.flatMap_map]
  conv_rhs => rw [← List.zipIdx_map_fst 0 blocks, List.flatMap_map]
  exact List.flatMap_congr fun p _ => hf p.1 p.2

private theorem renumbered_orders (blocks : List RepairBlock) :
    ((renumbered blocks).map (·.order)).Pairwise (· < ·) := by
  have h : (renumbered blocks).map (·.order) = List.range' 0 blocks.length := by
    rw [renumbered, List.map_map, ← List.zipIdx_map_snd 0 blocks]
    rfl
  rw [h]
  exact List.pairwise_lt_range'

/-- Every block of a validated plan has a span. -/
theorem PlanAccepted.allocations_ne {v : ValidatedPlan} (hv : PlanAccepted platform threshold context v) :
    ∀ b ∈ v.plan.blocks, b.allocations ≠ [] := by
  intro b hb
  unfold RepairBlock.allocations
  split
  · rename_i hk
    obtain ⟨rows, columns, -, -, -, hgrid⟩ := (RepairBlock.validateStructure_spec (v.plan.blocks_valid b hb)).1 hk
    have hcells : b.cells ≠ [] := by simpa using cells_ne_of_validateGrid hgrid
    obtain ⟨c, hc⟩ := List.exists_mem_of_ne_nil _ hcells
    have htable := List.all_eq_true.1 hv.tables b hb
    simp only [hk, ne_eq, not_true_eq_false, decide_false, Bool.false_or, Bool.and_eq_true, List.all_eq_true,
      Bool.not_eq_true', List.isEmpty_eq_false_iff] at htable
    obtain ⟨i, hi⟩ := List.exists_mem_of_ne_nil _ (htable.1 c hc)
    exact List.ne_nil_of_mem (List.mem_flatMap.2 ⟨c, hc, hi⟩)
  · rename_i hk
    exact hv.nonempty b hb hk

/-- The index of the first span of a block in the context. -/
private def firstIndex (context : RepairContext) (b : RepairBlock) : ℕ :=
  (b.allocations.map context.orderedSpanIds.idxOf).headD 0

private theorem firstPosition_eq (hnodup : context.orderedSpanIds.Nodup) {b : RepairBlock} (hne : b.allocations ≠ [])
    (hknown : ∀ i ∈ b.allocations, i ∈ context.orderedSpanIds) :
    firstPosition context b = .ok (firstIndex context b) := by
  obtain ⟨i, rest, hi⟩ := List.exists_cons_of_ne_nil hne
  have hmem : i ∈ context.orderedSpanIds := hknown i (by simp [hi])
  simp only [firstPosition, firstIndex, hi, List.map_cons, List.headD_cons]
  exact Dict.getItem_eq_ok.2 ((RepairContext.lookup_positions hnodup).2 (List.getElem?_idxOf hmem))

private theorem firstIndex_pairwise (hnodup : context.orderedSpanIds.Nodup) {blocks : List RepairBlock}
    (hids : planAllocations blocks = context.orderedSpanIds) (hne : ∀ b ∈ blocks, b.allocations ≠ []) :
    blocks.Pairwise fun b b' => firstIndex context b < firstIndex context b' := by
  have hindex : (planAllocations blocks).Pairwise
      fun i j => context.orderedSpanIds.idxOf i < context.orderedSpanIds.idxOf j := by
    rw [hids, List.pairwise_iff_getElem]
    intro m n hm hn hmn
    rwa [hnodup.idxOf_getElem, hnodup.idxOf_getElem]
  refine ((List.pairwise_flatMap.1 hindex).2).imp_of_mem fun {b b'} hb hb' h => ?_
  obtain ⟨i, rest, hi⟩ := List.exists_cons_of_ne_nil (hne b hb)
  obtain ⟨j, rest', hj⟩ := List.exists_cons_of_ne_nil (hne b' hb')
  simpa [firstIndex, hi, hj] using h i (by simp [hi]) j (by simp [hj])

/-- Every validated plan comes from a batch. -/
private theorem accepted_of_mem {batches : List RepairBatch} {plans : List ValidatedPlan}
    (h : List.Forall₂ (fun batch v => PlanAccepted platform threshold batch.context v) batches plans)
    {v : ValidatedPlan} (hv : v ∈ plans) : ∃ batch ∈ batches, PlanAccepted platform threshold batch.context v := by
  induction h with
  | nil => cases hv
  | cons h _ ih =>
    rcases List.mem_cons.1 hv with rfl | hv
    · exact ⟨_, by simp, h⟩
    · obtain ⟨batch, hbatch, h⟩ := ih hv
      exact ⟨batch, by simp [hbatch], h⟩

private theorem accepted_spanIds {batches : List RepairBatch} {plans : List ValidatedPlan}
    (h : List.Forall₂ (fun batch v => PlanAccepted platform threshold batch.context v) batches plans) :
    plans.flatMap (·.plan.spanIds) = batches.flatMap (·.context.orderedSpanIds) := by
  induction h with
  | nil => rfl
  | cons h _ ih => rw [List.flatMap_cons, List.flatMap_cons, h.spanIds, ih]

/-- The merge keeps the blocks of the batches in their order and counts them. -/
private theorem mergeBatchPlans_eq (hnodup : context.orderedSpanIds.Nodup) {plans : List ValidatedPlan}
    (hids : planAllocations (plans.flatMap (·.plan.blocks)) = context.orderedSpanIds)
    (hne : ∀ b ∈ plans.flatMap (·.plan.blocks), b.allocations ≠ []) :
    ∃ plan, mergeBatchPlans context plans = .ok plan ∧ plan.blocks = renumbered (plans.flatMap (·.plan.blocks)) := by
  set blocks := plans.flatMap (·.plan.blocks) with hblocks
  have hkeyed : (blocks.mapM fun b => do return (← firstPosition context b, b) : PyResult _) =
      .ok (blocks.map fun b => (firstIndex context b, b)) := by
    rw [mapM_eq_ok, List.forall₂_map_right_iff, List.forall₂_same]
    intro b hb
    refine bind_eq_ok.2 ⟨_, firstPosition_eq hnodup (hne b hb) fun i hi => ?_, rfl⟩
    exact hids ▸ List.mem_flatMap.2 ⟨b, hb, hi⟩
  -- the first positions increase, so the sort changes nothing
  have hsorted : (sortBy Prod.fst (blocks.map fun b => (firstIndex context b, b))).map Prod.snd = blocks := by
    rw [sortBy_eq_self]
    · simp [Function.comp_def]
    · rw [List.pairwise_map]
      exact (firstIndex_pairwise hnodup hids hne).imp le_of_lt
  have hvalid : ∀ b ∈ renumbered blocks, b.validateStructure = .ok () := by
    intro b hb
    obtain ⟨b', hb', n, rfl⟩ := mem_renumbered hb
    obtain ⟨v, -, hv⟩ := List.mem_flatMap.1 hb'
    exact v.plan.blocks_valid b' hv
  have hallocations : (planAllocations (renumbered blocks)).Nodup := by
    have h : planAllocations (renumbered blocks) = planAllocations blocks := renumbered_flatMap (fun _ _ => rfl) blocks
    rw [h, hids]
    exact hnodup
  refine ⟨⟨renumbered blocks, hvalid, hallocations⟩, ?_, rfl⟩
  unfold mergeBatchPlans
  dsimp only
  rw [← hblocks, hkeyed]
  refine bind_eq_ok.2 ⟨_, rfl, ?_⟩
  rw [hsorted]
  change RepairPlan.validate (renumbered blocks) = _
  unfold RepairPlan.validate
  rw [dif_pos hvalid, dif_pos hallocations]
  rfl

/-- The plans of batches that list the spans of a context make an acceptable plan. -/
theorem mergeBatchPlans_accepted (hnodup : context.orderedSpanIds.Nodup) {batches : List RepairBatch}
    (hnative : ∀ batch ∈ batches, batch.context.native = context.native)
    (hids : batches.flatMap (·.context.orderedSpanIds) = context.orderedSpanIds) {plans : List ValidatedPlan}
    (h : List.Forall₂ (fun batch v => PlanAccepted platform threshold batch.context v) batches plans) :
    ∃ v, mergeBatchPlans context plans = .ok v.plan ∧ PlanAccepted platform threshold context v := by
  set blocks := plans.flatMap (·.plan.blocks) with hblocks
  have hallocations : planAllocations blocks = context.orderedSpanIds := by
    rw [← hids, ← accepted_spanIds h, planAllocations, hblocks, List.flatMap_assoc]
    rfl
  -- what holds of the blocks of every batch holds of the merged blocks
  have hall : ∀ b ∈ blocks, ∃ v ∈ plans, b ∈ v.plan.blocks ∧
      ∃ batch ∈ batches, PlanAccepted platform threshold batch.context v := by
    intro b hb
    obtain ⟨v, hv, hb⟩ := List.mem_flatMap.1 hb
    exact ⟨v, hv, hb, accepted_of_mem h hv⟩
  have hne : ∀ b ∈ blocks, b.allocations ≠ [] := by
    intro b hb
    obtain ⟨v, -, hb, batch, -, hv⟩ := hall b hb
    exact hv.allocations_ne b hb
  obtain ⟨plan, hplan, hplanBlocks⟩ := mergeBatchPlans_eq hnodup hallocations hne
  have hnonempty : ∀ b ∈ plan.blocks, b.kind ≠ .table → b.spanIds ≠ [] := by
    rw [hplanBlocks]
    intro b hb
    obtain ⟨b', hb', n, rfl⟩ := mem_renumbered hb
    obtain ⟨v, -, hb', batch, -, hv⟩ := hall b' hb'
    exact hv.nonempty b' hb'
  obtain ⟨semantics, hsemantics⟩ := RepairPlan.semanticBlocks_total hnonempty
  refine ⟨⟨plan, semantics.reduceOption⟩, hplan, ?_⟩
  refine ⟨?_, hnonempty, ?_, ?_, ?_, ?_, semantics, hsemantics, rfl⟩
  · rw [← hallocations, RepairPlan.spanIds, hplanBlocks]
    exact renumbered_flatMap (fun _ _ => rfl) blocks
  · rw [hplanBlocks]
    exact renumbered_orders blocks
  · rw [hplanBlocks, tablesValid, List.all_eq_true]
    intro b hb
    obtain ⟨b', hb', n, rfl⟩ := mem_renumbered hb
    obtain ⟨v, -, hb', batch, -, hv⟩ := hall b' hb'
    exact List.all_eq_true.1 hv.tables b' hb'
  · obtain ⟨⟨retained, excluded⟩, hexcluded⟩ := verifiedExclusions_total platform context.native
    rw [exclusionsValid_iff hexcluded]
    intro p hp
    obtain ⟨b, hb, hp⟩ := List.mem_flatMap.1 hp
    obtain ⟨hb, hk⟩ := List.mem_filter.1 hb
    rw [hplanBlocks] at hb
    obtain ⟨b', hb', n, rfl⟩ := mem_renumbered hb
    obtain ⟨v, -, hb', batch, hbatch, hv⟩ := hall b' hb'
    have hexclusions := hv.exclusions
    rw [hnative batch hbatch, exclusionsValid_iff hexcluded] at hexclusions
    exact hexclusions p (List.mem_flatMap.2 ⟨b', List.mem_filter.2 ⟨hb', hk⟩, hp⟩)
  · rw [hplanBlocks]
    intro b hb
    obtain ⟨b', hb', n, rfl⟩ := mem_renumbered hb
    obtain ⟨v, -, hb', batch, -, hv⟩ := hall b' hb'
    exact hv.confidence b' hb'

end Merge

end ArdOssie
