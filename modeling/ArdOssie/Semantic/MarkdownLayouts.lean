import ArdOssie.Semantic.MarkdownHtml

/-!
# Layouts of documents

The plain and the escaped layout of a document side by side: both exist or none, and the escaped one spells the plain
one.  A rendering succeeds when the plain layout exists and has no tag with a space after its name.
-/

namespace ArdOssie

/-! ### Lists side by side -/

section Lists

variable {α β : Type} {R : α → β → Prop} {l : List α} {l' : List β}

private theorem forall₂_getElem? (h : List.Forall₂ R l l') (i : ℕ) :
    (l[i]? = none ∧ l'[i]? = none) ∨ ∃ a b, l[i]? = some a ∧ l'[i]? = some b ∧ R a b := by
  induction h generalizing i with
  | nil => exact Or.inl ⟨rfl, rfl⟩
  | cons hab _ ih =>
    cases i with
    | zero => exact Or.inr ⟨_, _, rfl, rfl, hab⟩
    | succ i => simpa using ih i

private theorem forall₂_set (h : List.Forall₂ R l l') (i : ℕ) {a : α} {b : β} (hab : R a b) :
    List.Forall₂ R (l.set i a) (l'.set i b) := by
  induction h generalizing i with
  | nil => exact .nil
  | cons hcd hrest ih =>
    cases i with
    | zero => exact .cons hab hrest
    | succ i => exact .cons hcd (ih i)

private theorem forall₂_zipIdx_filter (h : List.Forall₂ R l l') (q : ℕ → Bool) (k : ℕ) :
    List.Forall₂ R (((l.zipIdx k).filter fun p => q p.2).map Prod.fst)
      (((l'.zipIdx k).filter fun p => q p.2).map Prod.fst) := by
  induction h generalizing k with
  | nil => exact .nil
  | cons hab _ ih =>
    rw [List.zipIdx_cons, List.zipIdx_cons]
    by_cases hk : q k = true
    · rw [List.filter_cons_of_pos (by exact hk), List.filter_cons_of_pos (by exact hk), List.map_cons, List.map_cons]
      exact .cons hab (ih (k + 1))
    · rw [List.filter_cons_of_neg (by exact hk), List.filter_cons_of_neg (by exact hk)]
      exact ih (k + 1)

private theorem forall₂_map_both {γ δ : Type} {S : γ → δ → Prop} {f : α → γ} {g : β → δ} (h : List.Forall₂ R l l')
    (hfg : ∀ a b, R a b → S (f a) (g b)) : List.Forall₂ S (l.map f) (l'.map g) := by
  rw [List.forall₂_map_left_iff, List.forall₂_map_right_iff]
  exact h.imp hfg

private theorem forall₂_replicate {a : α} {b : β} (h : R a b) (n : ℕ) :
    List.Forall₂ R (List.replicate n a) (List.replicate n b) := by
  induction n with
  | zero => exact .nil
  | succ n ih => exact .cons h ih

end Lists

/-! ### Texts, lines and tables -/

/-- The second escape spells every text. -/
def SpellsTexts (e₁ e₂ : Text → Text) : Prop := ∀ t, Spelled false (e₁ t) (e₂ t)

theorem spellsTexts_escapeMarkdown : SpellsTexts id escapeMarkdown := Spelled.escapeMarkdown

abbrev SpelledTexts : List Text → List Text → Prop := List.Forall₂ (Spelled true)

section Layout

variable {e₁ e₂ : Text → Text} (he : SpellsTexts e₁ e₂)

include he

theorem spelled_escapeInline (value : Text) : Spelled true (escapeInline e₁ value) (escapeInline e₂ value) := by
  refine Spelled.intercalate (by decide) (by decide) ?_
  exact forall₂_map_both (List.forall₂_same.2 fun line _ => rfl) fun line line' h => h ▸ (he _).weaken

omit he in
private theorem spelled_itemStart {p r : Text} (h : Spelled true p r) (depth : ℕ) (kind : Option ListKind) :
    Spelled true (itemStart depth kind ++ p) (itemStart depth kind ++ r) := by
  have hspace : ∀ fresh, Spelled fresh ([' '] ++ p) ([' '] ++ r) := fun fresh => h.separate (by decide) (by decide)
  have hmarker : Spelled true ((if kind = some .ordered then "1.".toList else "-".toList) ++ ([' '] ++ p))
      ((if kind = some .ordered then "1.".toList else "-".toList) ++ ([' '] ++ r)) := by
    split
    · exact .plain (by decide) (by decide) (.plain (by decide) (by decide) (hspace _))
    · exact .plain (by decide) (by decide) (hspace _)
  rw [itemStart, List.append_assoc, List.append_assoc, List.append_assoc, List.append_assoc]
  by_cases hdepth : List.replicate (4 * depth) ' ' = []
  · rw [hdepth]
    exact hmarker
  · refine hmarker.separate hdepth ?_
    rw [List.all_replicate]
    split <;> decide

omit he in
private theorem spelled_headingStart {p r : Text} (h : Spelled true p r) (level : ℕ) :
    Spelled true (headingStart level ++ p) (headingStart level ++ r) := by
  refine h.separate (by simp [headingStart]) ?_
  rw [headingStart, List.all_append, List.all_replicate]
  split <;> decide

omit he in
private theorem spelled_tableLine {ps rs : List Text} (h : SpelledTexts ps rs) :
    Spelled true (tableLine ps) (tableLine rs) := by
  have hvalues : Spelled true (" | ".toList.intercalate ps) (" | ".toList.intercalate rs) :=
    Spelled.intercalate (by decide) (by decide) h
  have hend : Spelled false (" |".toList ++ []) (" |".toList ++ []) := Spelled.nil.separate (by decide) (by decide)
  exact (hvalues.separate (by decide) (by decide)).append hend

omit he in
private theorem alike_setValue {m m' : List (List Text)} (h : List.Forall₂ SpelledTexts m m') (place : ℕ × ℕ)
    {p r : Text} (hpr : Spelled true p r) :
    Alike (List.Forall₂ SpelledTexts) (setValue m place p) (setValue m' place r) := by
  unfold setValue
  rcases forall₂_getElem? h place.1 with ⟨hm, hm'⟩ | ⟨ps, rs, hm, hm', hvalues⟩
  · rw [hm, hm']
    exact .error _
  · rw [hm, hm']
    dsimp only
    rw [hvalues.length_eq]
    split
    · exact .ok (forall₂_set h _ (forall₂_set hvalues _ hpr))
    · exact .error _

private theorem alike_fillCell (cell : TextCell) {m m' : List (List Text)} (h : List.Forall₂ SpelledTexts m m') :
    Alike (List.Forall₂ SpelledTexts) (fillCell e₁ m cell) (fillCell e₂ m' cell) :=
  Alike.foldlM (fun place _ _ hm => alike_setValue hm place (he _).weaken) h _

omit he in
private theorem alike_tableLines {m m' : List (List Text)} (h : List.Forall₂ SpelledTexts m m') (header : Option ℕ)
    (columnCount : ℕ) :
    Alike (List.Forall₂ SpelledTexts) (tableLines m header columnCount) (tableLines m' header columnCount) := by
  have hrule : Spelled true "---".toList "---".toList :=
    .plain (by decide) (by decide) (.plain (by decide) (by decide) (.plain (by decide) (by decide) .nil))
  have hheader : Alike SpelledTexts (headerValues m header columnCount) (headerValues m' header columnCount) := by
    unfold headerValues
    cases header with
    | none => exact .ok (forall₂_replicate .nil _)
    | some row =>
      rcases forall₂_getElem? h row with ⟨hm, hm'⟩ | ⟨ps, rs, hm, hm', hvalues⟩
      · simp only [hm, hm']
        exact .error _
      · simp only [hm, hm']
        exact .ok hvalues
  refine hheader.bind fun ps rs hvalues => .ok ?_
  exact .cons hvalues (.cons (forall₂_replicate hrule _) (forall₂_zipIdx_filter h (fun i => header ≠ some i) 0))

private theorem alike_renderCells (rowCount columnCount : ℕ) (cells : List TextCell) :
    Alike (Spelled true) (renderCells e₁ rowCount columnCount cells) (renderCells e₂ rowCount columnCount cells) := by
  have hstart : List.Forall₂ SpelledTexts (List.replicate rowCount (List.replicate columnCount ([] : Text)))
      (List.replicate rowCount (List.replicate columnCount ([] : Text))) :=
    forall₂_replicate (forall₂_replicate .nil _) _
  refine (Alike.foldlM (fun cell _ _ hm => alike_fillCell he cell hm) hstart cells).bind fun m m' hm => ?_
  refine (alike_tableLines hm _ _).bind fun lines lines' hlines => .ok ?_
  refine Spelled.intercalate (by decide) (by decide) ?_
  exact forall₂_map_both hlines fun ps rs h => spelled_tableLine h

private theorem alike_renderCanonicalTable (block : CanonicalBlock) :
    Alike (Spelled true) (renderCanonicalTable e₁ block) (renderCanonicalTable e₂ block) := by
  unfold renderCanonicalTable
  split
  · exact alike_renderCells he _ _ _
  · exact .error _

private theorem alike_renderTable (block : TableBlock) (spans : Dict SpanId SourceSpan) :
    Alike (Spelled true) (renderTable e₁ block spans) (renderTable e₂ block spans) := by
  refine (Alike.refl _).bind fun _ _ _ => ?_
  refine (Alike.refl _).bind fun cells cells' h => ?_
  subst h
  exact alike_renderCells he _ _ _

/-! ### Documents -/

omit he in
/-- Two states of the rendering, side by side. -/
def RenderState.Spelled (s s' : RenderState) : Prop :=
  SpelledTexts s.chunks s'.chunks ∧ SpelledTexts s.listLines s'.listLines

omit he in
private theorem spelledTexts_concat {ps rs : List Text} {p r : Text} (h : SpelledTexts ps rs) (hpr : Spelled true p r) :
    SpelledTexts (ps ++ [p]) (rs ++ [r]) := List.rel_append h (.cons hpr .nil)

omit he in
private theorem RenderState.Spelled.flush {s s' : RenderState} (h : s.Spelled s') : s.flush.Spelled s'.flush := by
  have hlines : s.listLines = [] ↔ s'.listLines = [] := by
    rw [← List.length_eq_zero_iff, ← List.length_eq_zero_iff, h.2.length_eq]
  unfold RenderState.flush
  by_cases hnil : s.listLines = []
  · rw [if_pos hnil, if_pos (hlines.1 hnil)]
    exact h
  · rw [if_neg hnil, if_neg fun h => hnil (hlines.2 h)]
    exact ⟨spelledTexts_concat h.1 (Spelled.intercalate (by decide) (by decide) h.2), .nil⟩

omit he in
private theorem RenderState.Spelled.addChunk {s s' : RenderState} (h : s.Spelled s') {p r : Text}
    (hpr : ArdOssie.Spelled true p r) : (s.addChunk p).Spelled (s'.addChunk r) :=
  ⟨spelledTexts_concat h.flush.1 hpr, h.flush.2⟩

omit he in
private theorem RenderState.Spelled.addLine {s s' : RenderState} (h : s.Spelled s') {p r : Text}
    (hpr : ArdOssie.Spelled true p r) : (s.addLine p).Spelled (s'.addLine r) :=
  ⟨h.1, spelledTexts_concat h.2 hpr⟩

omit he in
private theorem spelled_newline : Spelled false ['\n'] ['\n'] := .plain (by decide) (by decide) .nil

omit he in
private theorem spelled_joinChunks {ps rs : List Text} (h : SpelledTexts ps rs) :
    Spelled true (joinChunks ps) (joinChunks rs) :=
  Spelled.intercalate (by decide) (by decide) (forall₂_map_both h fun p r hpr => hpr.rstrip)

omit he in
private theorem Alike.map {ε α β α' β' : Type} {R : α → β → Prop} {S : α' → β' → Prop} {x : Except ε α}
    {y : Except ε β} {f : α → α'} {g : β → β'} (h : Alike R x y) (hf : ∀ a b, R a b → S (f a) (g b)) :
    Alike S (x.map f) (y.map g) := by
  cases h with
  | error e => exact .error e
  | ok h => exact .ok (hf _ _ h)

private theorem alike_renderCanonicalBlock (block : CanonicalBlock) {s s' : RenderState} (h : s.Spelled s') :
    Alike RenderState.Spelled (renderCanonicalBlock e₁ s block) (renderCanonicalBlock e₂ s' block) := by
  have hinline := spelled_escapeInline he block.text
  unfold renderCanonicalBlock
  cases block.kind with
  | listItem => exact .ok (h.addLine (spelled_itemStart hinline _ _))
  | heading => exact .ok (h.addChunk (spelled_headingStart hinline _))
  | table => exact (alike_renderCanonicalTable he block).map fun p r hpr => h.addChunk hpr
  | paragraph => exact .ok (h.addChunk hinline)
  | caption => exact .ok (h.addChunk hinline)

/-- The layouts of a canonical document. -/
theorem alike_renderCanonicalText (document : CanonicalSemanticDocument) :
    Alike (Spelled true) (renderCanonicalText e₁ document) (renderCanonicalText e₂ document) := by
  have hstart : RenderState.Spelled ⟨[], []⟩ ⟨[], []⟩ := ⟨.nil, .nil⟩
  refine (Alike.foldlM (fun block _ _ hs => alike_renderCanonicalBlock he block hs) hstart _).bind fun s s' hs => ?_
  have hcaptions : SpelledTexts (renderCaptions e₁ document.figures) (renderCaptions e₂ document.figures) :=
    forall₂_map_both (List.forall₂_same.2 fun caption _ => rfl) fun c c' h => h ▸ spelled_escapeInline he c
  have hchunks := List.rel_append hs.flush.1 hcaptions
  have hfilter : SpelledTexts ((s.flush.chunks ++ renderCaptions e₁ document.figures).filter (· ≠ []))
      ((s'.flush.chunks ++ renderCaptions e₂ document.figures).filter (· ≠ [])) :=
    List.rel_filter (fun p r hpr => by simp [hpr.eq_nil_iff]) hchunks
  refine .ok ((spelled_joinChunks hfilter).append ?_)
  have hnil : s.flush.chunks ++ renderCaptions e₁ document.figures = [] ↔
      s'.flush.chunks ++ renderCaptions e₂ document.figures = [] := by
    rw [← List.length_eq_zero_iff, ← List.length_eq_zero_iff, hchunks.length_eq]
  by_cases hchunks : s.flush.chunks ++ renderCaptions e₁ document.figures = []
  · rw [if_pos hchunks, if_pos (hnil.1 hchunks)]
    exact .nil
  · rw [if_neg hchunks, if_neg fun h => hchunks (hnil.2 h)]
    exact spelled_newline

private theorem alike_renderSemanticBlock (spans : Dict SpanId SourceSpan) (block : SemanticBlock)
    {s s' : RenderState} (h : s.Spelled s') :
    Alike RenderState.Spelled (renderSemanticBlock e₁ spans s block) (renderSemanticBlock e₂ spans s' block) := by
  have hinline := spelled_escapeInline he
  cases block with
  | listItem block =>
    have hline : Alike (Spelled true) (renderListItem e₁ spans block) (renderListItem e₂ spans block) := by
      refine (Alike.refl _).bind fun _ _ _ => ?_
      refine (Alike.refl _).bind fun t t' ht => ?_
      subst ht
      exact .ok (spelled_itemStart (hinline t) _ _)
    exact hline.map fun p r hpr => h.addLine hpr
  | heading block =>
    refine (Alike.refl _).map fun t t' ht => ?_
    subst ht
    exact h.addChunk (spelled_headingStart (hinline t) _)
  | paragraph block => exact (Alike.refl _).map fun t t' ht => ht ▸ h.addChunk (hinline t)
  | table block => exact (alike_renderTable he block spans).map fun p r hpr => h.addChunk hpr
  | lossless block => exact (Alike.refl _).map fun t t' ht => ht ▸ h.addChunk (hinline t)

/-- The layouts of a reconciled document. -/
theorem alike_renderSemanticText (document : ReconciledDocument) (spans : Dict SpanId SourceSpan) :
    Alike (Spelled true) (renderSemanticText e₁ document spans) (renderSemanticText e₂ document spans) := by
  have hstart : RenderState.Spelled ⟨[], []⟩ ⟨[], []⟩ := ⟨.nil, .nil⟩
  refine (Alike.foldlM (fun block _ _ hs => alike_renderSemanticBlock he spans block hs) hstart _).bind
    fun s s' hs => .ok ?_
  exact (spelled_joinChunks hs.flush.1).append spelled_newline

end Layout

/-- A layout passes the checks when its plain form has no tag with a space after its name. -/
private theorem exists_checked_iff (platform : Platform) {x y : PyResult Text} (h : Alike (Spelled true) x y) :
    (∃ markdown, (y >>= checkMarkdown platform) = .ok markdown) ↔
      ∃ text, x = .ok text ∧ spacedTag.occursIn text = false := by
  cases h with
  | error e => simp [bind, Except.bind]
  | @ok p r hpr =>
    have hcheck : (∃ markdown, checkMarkdown platform r = .ok markdown) ↔ spacedTag.occursIn p = false := by
      rw [checkMarkdown, hpr.no_htmlEntity platform, ← Bool.not_eq_true, ← hpr.hasRawHtml_iff]
      simp only [raiseIf_bind_eq_ok, pure_eq_ok]
      simp
    simpa using hcheck

/-- A canonical document is rendered when its plain layout has no tag with a space after its name. -/
theorem exists_renderCanonicalMarkdown_iff (platform : Platform) (document : CanonicalSemanticDocument) :
    (∃ markdown, renderCanonicalMarkdown platform document = .ok markdown) ↔
      ∃ text, renderCanonicalText id document = .ok text ∧ spacedTag.occursIn text = false :=
  exists_checked_iff platform (alike_renderCanonicalText spellsTexts_escapeMarkdown document)

/-- A reconciled document is rendered when its plain layout has no tag with a space after its name. -/
theorem exists_renderSemanticMarkdown_iff (platform : Platform) (document : ReconciledDocument)
    (spans : Dict SpanId SourceSpan) :
    (∃ markdown, renderSemanticMarkdown platform document spans = .ok markdown) ↔
      ∃ text, renderSemanticText id document spans = .ok text ∧ spacedTag.occursIn text = false :=
  exists_checked_iff platform (alike_renderSemanticText spellsTexts_escapeMarkdown document spans)

/-! ### When a layout exists -/

/-- The cells of a block are inside of its grid. -/
def CanonicalBlock.CellsInGrid (block : CanonicalBlock) : Prop :=
  ∀ c ∈ block.cells, c.region.Inside (block.rowCount.getD 0) (block.columnCount.getD 0)

theorem cellsInGrid_of_kind {block : CanonicalBlock} (h : block.kind ≠ .table) : block.CellsInGrid := by
  intro c hc
  exact absurd (block.cells_iff.1 (List.ne_nil_of_mem hc)) h

section Existence

variable (escape : Text → Text)

private theorem exists_renderCanonicalTable_iff {block : CanonicalBlock} (h : block.kind = .table) :
    (∃ text, renderCanonicalTable escape block = .ok text) ↔ block.CellsInGrid := by
  obtain ⟨hrows, hcolumns⟩ := block.table_iff.2 h
  obtain ⟨rowCount, hrows⟩ := Option.ne_none_iff_exists'.1 hrows
  obtain ⟨columnCount, hcolumns⟩ := Option.ne_none_iff_exists'.1 hcolumns
  have hspan : ∀ cell ∈ block.cells.map (·.textCell), cell.region.startRow < cell.region.endRow ∧
      cell.region.startColumn < cell.region.endColumn := by
    intro cell hcell
    obtain ⟨c, -, rfl⟩ := List.mem_map.1 hcell
    exact c.span
  rw [renderCanonicalTable, CanonicalBlock.CellsInGrid, hrows, hcolumns]
  refine (exists_renderCells_iff escape hspan).trans ?_
  rw [List.forall_mem_map]
  rfl

private theorem exists_renderCanonicalBlock_iff (s : RenderState) (block : CanonicalBlock) :
    (∃ s', renderCanonicalBlock escape s block = .ok s') ↔ block.CellsInGrid := by
  by_cases htable : block.kind = .table
  · rw [renderCanonicalBlock, htable]
    exact exists_map_iff.trans (exists_renderCanonicalTable_iff escape htable)
  · refine iff_of_true ?_ (cellsInGrid_of_kind htable)
    unfold renderCanonicalBlock
    cases hkind : block.kind with
    | table => exact absurd hkind htable
    | _ => exact ⟨_, rfl⟩

/-- A canonical document has a layout when the cells of its tables are inside of their grids. -/
theorem exists_renderCanonicalText_iff (document : CanonicalSemanticDocument) :
    (∃ text, renderCanonicalText escape document = .ok text) ↔ ∀ block ∈ document.blocks, block.CellsInGrid := by
  have hfold := exists_foldlM_iff (exists_renderCanonicalBlock_iff escape) (sortBy (·.order) document.blocks) ⟨[], []⟩
  simp only [mem_sortBy] at hfold
  rw [← hfold, renderCanonicalText]
  constructor
  · rintro ⟨text, h⟩
    obtain ⟨s, hs, -⟩ := bind_eq_ok.1 h
    exact ⟨s, hs⟩
  · rintro ⟨s, hs⟩
    exact ⟨_, bind_eq_ok.2 ⟨s, hs, rfl⟩⟩

variable (spans : Dict SpanId SourceSpan)

private theorem exists_resolveText_iff (spanIds : List SpanId) :
    (∃ text, resolveText spans spanIds = .ok text) ↔ ∀ i ∈ spanIds, (spans.lookup i).isSome := by
  refine exists_foldlM_iff (fun t i => ?_) spanIds []
  cases spans.lookup i <;> simp

private theorem exists_resolveTableText_iff (spanIds : List SpanId) :
    (∃ text, resolveTableText spans spanIds = .ok text) ↔ ∀ i ∈ spanIds, (spans.lookup i).isSome := by
  refine exists_foldlM_iff (fun t i => ?_) spanIds []
  cases spans.lookup i <;> simp

private theorem exists_textCell_iff (cell : TableCellBlock) :
    (∃ c, cell.textCell spans = .ok c) ↔ ∀ i ∈ cell.spanIds, (spans.lookup i).isSome := by
  rw [← exists_resolveTableText_iff]
  constructor
  · rintro ⟨c, h⟩
    obtain ⟨text, htext, -⟩ := bind_eq_ok.1 h
    exact ⟨text, htext⟩
  · rintro ⟨text, htext⟩
    exact ⟨_, bind_eq_ok.2 ⟨text, htext, rfl⟩⟩

private theorem exists_renderTable_iff (block : TableBlock) :
    (∃ text, renderTable escape block spans = .ok text) ↔
      ∀ i ∈ block.cells.flatMap (·.spanIds), (spans.lookup i).isSome := by
  have hcells : (∃ cells, block.cells.mapM (TableCellBlock.textCell spans) = .ok cells) ↔
      ∀ i ∈ block.cells.flatMap (·.spanIds), (spans.lookup i).isSome := by
    rw [mapM_total_iff]
    simp only [exists_textCell_iff, List.mem_flatMap]
    exact ⟨fun h i ⟨c, hc, hi⟩ => h c hc i hi, fun h c hc i hi => h i ⟨c, hc, hi⟩⟩
  rw [← hcells]
  constructor
  · rintro ⟨text, h⟩
    rw [renderTable, block.grid, ok_bind] at h
    obtain ⟨cells, hcells, -⟩ := bind_eq_ok.1 h
    exact ⟨cells, hcells⟩
  · rintro ⟨cells, hcells⟩
    exact exists_renderTable_of_cells escape hcells

private theorem exists_renderListItem_iff (block : ListItemBlock) :
    (∃ text, renderListItem escape spans block = .ok text) ↔ ∀ i ∈ block.spanIds, (spans.lookup i).isSome := by
  rw [← exists_resolveText_iff, renderListItem]
  simp only [raiseIf_bind_eq_ok, not_lt, block.depth_le, true_and]
  constructor
  · rintro ⟨line, h⟩
    obtain ⟨text, htext, -⟩ := bind_eq_ok.1 h
    exact ⟨text, htext⟩
  · rintro ⟨text, htext⟩
    exact ⟨_, bind_eq_ok.2 ⟨text, htext, rfl⟩⟩

private theorem exists_renderSemanticBlock_iff (s : RenderState) (block : SemanticBlock) :
    (∃ s', renderSemanticBlock escape spans s block = .ok s') ↔ ∀ i ∈ block.spanIds, (spans.lookup i).isSome := by
  cases block with
  | listItem block => exact exists_map_iff.trans (exists_renderListItem_iff escape spans block)
  | table block => exact exists_map_iff.trans (exists_renderTable_iff escape spans block)
  | heading block => exact exists_map_iff.trans (exists_resolveText_iff spans _)
  | paragraph block => exact exists_map_iff.trans (exists_resolveText_iff spans _)
  | lossless block => exact exists_map_iff.trans (exists_resolveText_iff spans _)

/-- A reconciled document has a layout when its spans are known. -/
theorem exists_renderSemanticText_iff (document : ReconciledDocument) :
    (∃ text, renderSemanticText escape document spans = .ok text) ↔
      ∀ i ∈ blockSpanIds document.blocks, (spans.lookup i).isSome := by
  have hfold := exists_foldlM_iff (exists_renderSemanticBlock_iff escape spans)
    (sortBy (·.order) document.blocks) ⟨[], []⟩
  have hids : (∀ block ∈ document.blocks, ∀ i ∈ block.spanIds, (spans.lookup i).isSome) ↔
      ∀ i ∈ blockSpanIds document.blocks, (spans.lookup i).isSome := by
    simp only [blockSpanIds, List.mem_flatMap]
    exact ⟨fun h i ⟨block, hblock, hi⟩ => h block hblock i hi, fun h block hblock i hi => h i ⟨block, hblock, hi⟩⟩
  simp only [mem_sortBy] at hfold
  rw [← hids, ← hfold, renderSemanticText]
  constructor
  · rintro ⟨text, h⟩
    obtain ⟨s, hs, -⟩ := bind_eq_ok.1 h
    exact ⟨s, hs⟩
  · rintro ⟨s, hs⟩
    exact ⟨_, bind_eq_ok.2 ⟨s, hs, rfl⟩⟩

end Existence

end ArdOssie
