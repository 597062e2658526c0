import ArdOssie.Semantic.CanonicalModels
import ArdOssie.Semantic.Markdown
import Mathlib.Logic.Function.Basic

/-!
# Markdown tables

The rendering of a table: the values of the cells fill a matrix, and the lines of the matrix are written with the
header first.  Both kinds of table are rendered by one function; for cells that cover the grid without overlap the
lines can be read back.
-/

namespace ArdOssie

/-- A cell of a table with its text. -/
structure TextCell where
  region : CellRegion
  text : Text
  columnHeader : Bool

/-- `matrix[row][column] = value` -/
def setValue (matrix : List (List Text)) (place : ℕ × ℕ) (value : Text) : PyResult (List (List Text)) :=
  match matrix[place.1]? with
  | some values =>
    if place.2 < values.length then .ok (matrix.set place.1 (values.set place.2 value)) else .error .indexError
  | none => .error .indexError

section Render

variable (escape : Text → Text)

/-- The assignments of the values of the cells. -/
def fillCell (matrix : List (List Text)) (cell : TextCell) : PyResult (List (List Text)) :=
  cell.region.places.foldlM (fun matrix place => setValue matrix place (escape (singleLine cell.text))) matrix

/-- `min(header_rows)` -/
def headerRow (cells : List TextCell) : Option ℕ := ((cells.filter (·.columnHeader)).map (·.region.startRow)).min?

/-- The values of the header line. -/
def headerValues (matrix : List (List Text)) (header : Option ℕ) (columnCount : ℕ) : PyResult (List Text) :=
  match header with
  | some row =>
    match matrix[row]? with
    | some values => .ok values
    | none => .error .indexError
  | none => .ok (List.replicate columnCount [])

/-- The lines of a table, the header first. -/
def tableLines (matrix : List (List Text)) (header : Option ℕ) (columnCount : ℕ) : PyResult (List (List Text)) := do
  let values ← headerValues matrix header columnCount
  let dataRows := (matrix.zipIdx.filter fun p => header ≠ some p.2).map Prod.fst
  return values :: List.replicate columnCount "---".toList :: dataRows

/-- The common part of `_render_table` and `_render_canonical_table`. -/
def renderCells (rowCount columnCount : ℕ) (cells : List TextCell) : PyResult Text := do
  let matrix ← cells.foldlM (fillCell escape) (List.replicate rowCount (List.replicate columnCount []))
  let lines ← tableLines matrix (headerRow cells) columnCount
  return ['\n'].intercalate (lines.map tableLine)

/-- The text of the spans of a cell, with a line break before a new paragraph. -/
def resolveTableText (spans : Dict SpanId SourceSpan) (spanIds : List SpanId) : PyResult Text :=
  spanIds.foldlM (fun (t : Text) i =>
    match spans.lookup i with
    | some span => .ok (t ++ (if span.paragraphBreakBefore ∧ t ≠ [] then ['\n'] else []) ++ span.text)
    | none => .error (.valueError "SEMANTIC_SOURCE_TEXT_LOSS")) []

/-- A cell of a table block with the text of its spans. -/
def TableCellBlock.textCell (spans : Dict SpanId SourceSpan) (cell : TableCellBlock) : PyResult TextCell := do
  let text ← resolveTableText spans cell.spanIds
  return ⟨cell.region, text, cell.columnHeader⟩

/-- `_render_table` -/
def renderTable (block : TableBlock) (spans : Dict SpanId SourceSpan) : PyResult Text := do
  validateGrid (block.cells.map (·.region)) block.rowCount block.columnCount "TABLE_BLOCK"
  let cells ← block.cells.mapM (TableCellBlock.textCell spans)
  renderCells escape block.rowCount block.columnCount cells

/-- A cell of a canonical table. -/
def CanonicalCell.textCell (cell : CanonicalCell) : TextCell := ⟨cell.region, cell.text, cell.columnHeader⟩

/-- `_render_canonical_table` -/
def renderCanonicalTable (block : CanonicalBlock) : PyResult Text :=
  match block.rowCount, block.columnCount with
  | some rowCount, some columnCount => renderCells escape rowCount columnCount (block.cells.map (·.textCell))
  | _, _ => throw (.valueError "CANONICAL_TABLE_DIMENSIONS_MISSING")

end Render

/-! ### The matrix -/

/-- The matrix of a function on the places. -/
def matrixOf (rowCount columnCount : ℕ) (f : ℕ × ℕ → Text) : List (List Text) :=
  (List.range rowCount).map fun row => (List.range columnCount).map fun column => f (row, column)

section Matrix

variable {rowCount columnCount : ℕ}

theorem replicate_eq_matrixOf :
    List.replicate rowCount (List.replicate columnCount ([] : Text)) = matrixOf rowCount columnCount fun _ => [] := by
  simp [matrixOf, List.map_const']

private theorem getElem_matrixOf (f : ℕ × ℕ → Text) {row : ℕ} (h : row < rowCount) :
    (matrixOf rowCount columnCount f)[row]? = some ((List.range columnCount).map fun column => f (row, column)) := by
  simp [matrixOf, h]

private theorem setValue_matrixOf (f : ℕ × ℕ → Text) {p : ℕ × ℕ} (h : p ∈ gridPlaces rowCount columnCount)
    (value : Text) : setValue (matrixOf rowCount columnCount f) p value =
      .ok (matrixOf rowCount columnCount (Function.update f p value)) := by
  obtain ⟨hrow, hcolumn⟩ := mem_gridPlaces.1 h
  unfold setValue
  rw [getElem_matrixOf f hrow]
  simp only [List.length_map, List.length_range, hcolumn, ↓reduceIte]
  refine congrArg Except.ok (List.ext_getElem (by simp [matrixOf]) fun row h₁ h₂ => ?_)
  by_cases hr : row = p.1
  · subst hr
    refine List.ext_getElem (by simp [matrixOf]) fun column h₃ h₄ => ?_
    by_cases hc : column = p.2
    · subst hc
      simp [matrixOf]
    · have hne : (p.1, column) ≠ p := fun h => hc (by rw [← h])
      simp [matrixOf, Ne.symm hc, hne]
  · refine List.ext_getElem (by simp [matrixOf, Ne.symm hr]) fun column h₃ h₄ => ?_
    have hne : (row, column) ≠ p := fun h => hr (by rw [← h])
    simp [matrixOf, Ne.symm hr, hne]

private theorem setValue_of_outside (f : ℕ × ℕ → Text) {p : ℕ × ℕ} (h : p ∉ gridPlaces rowCount columnCount)
    (value : Text) : setValue (matrixOf rowCount columnCount f) p value = .error .indexError := by
  rw [mem_gridPlaces, not_and] at h
  unfold setValue
  by_cases hrow : p.1 < rowCount
  · rw [getElem_matrixOf f hrow]
    simp only [List.length_map, List.length_range, h hrow, ↓reduceIte]
  · have hnone : (matrixOf rowCount columnCount f)[p.1]? = none := by
      rw [List.getElem?_eq_none_iff, matrixOf, List.length_map, List.length_range]
      omega
    rw [hnone]

/-- The values of a list of assignments, the last one to a place counts. -/
private def assigned (l : List ((ℕ × ℕ) × Text)) (f : ℕ × ℕ → Text) : ℕ × ℕ → Text :=
  l.foldl (fun f a => Function.update f a.1 a.2) f

private theorem assigned_of_notMem {l : List ((ℕ × ℕ) × Text)} {f : ℕ × ℕ → Text} {p : ℕ × ℕ}
    (h : p ∉ l.map Prod.fst) : assigned l f p = f p := by
  induction l generalizing f with
  | nil => rfl
  | cons a l ih =>
    simp only [List.map_cons, List.mem_cons, not_or] at h
    show assigned l (Function.update f a.1 a.2) p = f p
    rw [ih h.2, Function.update_of_ne h.1]

private theorem assigned_of_mem {l : List ((ℕ × ℕ) × Text)} (hl : (l.map Prod.fst).Nodup) {f : ℕ × ℕ → Text}
    {p : ℕ × ℕ} {value : Text} (h : (p, value) ∈ l) : assigned l f p = value := by
  induction l generalizing f with
  | nil => cases h
  | cons a l ih =>
    obtain ⟨ha, hl⟩ := List.nodup_cons.1 hl
    show assigned l (Function.update f a.1 a.2) p = value
    rcases List.mem_cons.1 h with rfl | h
    · rw [assigned_of_notMem ha, Function.update_self]
    · exact ih hl h

private theorem foldlM_setValue (l : List ((ℕ × ℕ) × Text)) (h : ∀ a ∈ l, a.1 ∈ gridPlaces rowCount columnCount)
    (f : ℕ × ℕ → Text) :
    l.foldlM (fun matrix a => setValue matrix a.1 a.2) (matrixOf rowCount columnCount f) =
      .ok (matrixOf rowCount columnCount (assigned l f)) := by
  induction l generalizing f with
  | nil => rfl
  | cons a l ih =>
    rw [List.foldlM_cons, setValue_matrixOf f (h a (by simp)), ok_bind, ih fun a ha => h a (by simp [ha])]
    rfl

private theorem assigned_eq_flatMap {l : List ((ℕ × ℕ) × Text)} (hl : (l.map Prod.fst).Nodup) (p : ℕ × ℕ) :
    assigned l (fun _ => []) p = (l.filter fun a => a.1 = p).flatMap Prod.snd := by
  by_cases hp : p ∈ l.map Prod.fst
  · obtain ⟨⟨p, value⟩, ha, rfl⟩ := List.mem_map.1 hp
    have hone : (l.filter fun a => a.1 = p) = [(p, value)] := by
      refine List.perm_singleton.1 ((List.perm_ext_iff_of_nodup (hl.of_map.filter _) (List.nodup_singleton _)).2 ?_)
      intro b
      rw [List.mem_filter, decide_eq_true_eq, List.mem_singleton]
      constructor
      · rintro ⟨hb, heq⟩
        exact List.inj_on_of_nodup_map hl hb ha heq
      · rintro rfl
        exact ⟨ha, rfl⟩
    rw [assigned_of_mem hl ha, hone, List.flatMap_singleton]
  · have hnone : (l.filter fun a => a.1 = p) = [] := by
      refine List.filter_eq_nil_iff.2 fun a ha heq => hp ?_
      exact List.mem_map.2 ⟨a, ha, of_decide_eq_true heq⟩
    rw [assigned_of_notMem hp, hnone, List.flatMap_nil]

/-- Assignments to different places make the matrix of their values. -/
theorem foldlM_setValue_nodup (l : List ((ℕ × ℕ) × Text)) (h : ∀ a ∈ l, a.1 ∈ gridPlaces rowCount columnCount)
    (hl : (l.map Prod.fst).Nodup) :
    l.foldlM (fun matrix a => setValue matrix a.1 a.2) (matrixOf rowCount columnCount fun _ => []) =
      .ok (matrixOf rowCount columnCount fun p => (l.filter fun a => a.1 = p).flatMap Prod.snd) := by
  rw [foldlM_setValue l h, funext (assigned_eq_flatMap hl)]

/-- The assignments succeed when their places are in the grid. -/
theorem exists_foldlM_setValue_iff (l : List ((ℕ × ℕ) × Text)) (f : ℕ × ℕ → Text) :
    (∃ matrix, l.foldlM (fun matrix a => setValue matrix a.1 a.2) (matrixOf rowCount columnCount f) = .ok matrix) ↔
      ∀ a ∈ l, a.1 ∈ gridPlaces rowCount columnCount := by
  refine ⟨fun h => ?_, fun h => ⟨_, foldlM_setValue l h f⟩⟩
  induction l generalizing f with
  | nil => simp
  | cons a l ih =>
    rw [List.foldlM_cons] at h
    by_cases ha : a.1 ∈ gridPlaces rowCount columnCount
    · rw [setValue_matrixOf f ha] at h
      exact List.forall_mem_cons.2 ⟨ha, ih _ h⟩
    · obtain ⟨matrix, h⟩ := h
      rw [setValue_of_outside f ha] at h
      cases h

private theorem foldlM_fillCell (escape : Text → Text) (cells : List TextCell) (matrix : List (List Text)) :
    cells.foldlM (fillCell escape) matrix =
      (cells.flatMap fun cell => cell.region.places.map fun p => (p, escape (singleLine cell.text))).foldlM
        (fun matrix a => setValue matrix a.1 a.2) matrix := by
  induction cells generalizing matrix with
  | nil => rfl
  | cons cell cells ih =>
    rw [List.foldlM_cons, List.flatMap_cons, List.foldlM_append, List.foldlM_map]
    exact bind_congr fun matrix => ih matrix

/-- The cells of a table cover every place of its grid once. -/
def CoversGrid (rowCount columnCount : ℕ) (regions : List CellRegion) : Prop :=
  (regions.flatMap (·.places)).Perm (gridPlaces rowCount columnCount)

instance (rowCount columnCount : ℕ) (regions : List CellRegion) : Decidable (CoversGrid rowCount columnCount regions) :=
  inferInstanceAs (Decidable (List.Perm _ _))

/-- The text of the cell at a place. -/
def cellTextAt (cells : List TextCell) (p : ℕ × ℕ) : Text :=
  ((cells.find? fun cell => p ∈ cell.region.places).map (·.text)).getD []

/-- The matrix of cells that cover the grid has the value of the cell at every place. -/
theorem matrix_of_covers (escape : Text → Text) {cells : List TextCell}
    (h : CoversGrid rowCount columnCount (cells.map (·.region))) :
    cells.foldlM (fillCell escape) (List.replicate rowCount (List.replicate columnCount [])) =
      .ok (matrixOf rowCount columnCount fun p => escape (singleLine (cellTextAt cells p))) := by
  have hkeys : (cells.flatMap fun cell => cell.region.places.map fun p =>
      (p, escape (singleLine cell.text))).map Prod.fst = (cells.map (·.region)).flatMap (·.places) := by
    rw [List.map_flatMap, List.flatMap_map]
    refine List.flatMap_congr fun cell _ => ?_
    rw [List.map_map]
    exact List.map_id _
  rw [foldlM_fillCell, replicate_eq_matrixOf, foldlM_setValue]
  · refine congrArg Except.ok (List.map_congr_left fun row hrow => List.map_congr_left fun column hcolumn => ?_)
    have hplace : (row, column) ∈ (cells.map (·.region)).flatMap (·.places) :=
      h.mem_iff.2 (mem_gridPlaces.2 ⟨List.mem_range.1 hrow, List.mem_range.1 hcolumn⟩)
    rw [List.flatMap_map, List.mem_flatMap] at hplace
    obtain ⟨cell, hcell, hplace⟩ := hplace
    cases hfind : cells.find? fun cell => (row, column) ∈ cell.region.places with
    | none => exact absurd (decide_eq_true hplace) (List.find?_eq_none.1 hfind cell hcell)
    | some found =>
      have hfound : (row, column) ∈ found.region.places := of_decide_eq_true (List.find?_some hfind :)
      simp only [cellTextAt, hfind, Option.map_some, Option.getD_some]
      refine assigned_of_mem ?_ (List.mem_flatMap.2 ⟨found, List.mem_of_find?_eq_some hfind,
        List.mem_map.2 ⟨_, hfound, rfl⟩⟩)
      rw [hkeys]
      exact h.nodup_iff.2 nodup_gridPlaces
  · intro a ha
    have hmem : a.1 ∈ (cells.map (·.region)).flatMap (·.places) := by
      rw [← hkeys]
      exact List.mem_map_of_mem ha
    exact h.mem_iff.1 hmem

/-! ### Grids of tables -/

private theorem positions_eq (region : CellRegion) :
    region.positions columnCount = region.places.map fun p => p.1 * columnCount + p.2 := by
  rw [CellRegion.positions, CellRegion.places, List.map_flatMap]
  refine List.flatMap_congr fun row _ => ?_
  rw [List.map_map]
  rfl

/-- The cell is a rectangle inside of the grid. -/
def CellRegion.Inside (region : CellRegion) (rowCount columnCount : ℕ) : Prop :=
  (region.startRow < region.endRow ∧ region.startColumn < region.endColumn) ∧
    region.endRow ≤ rowCount ∧ region.endColumn ≤ columnCount

private theorem position_injOn {p q : ℕ × ℕ} (hp : p.2 < columnCount) (hq : q.2 < columnCount)
    (h : p.1 * columnCount + p.2 = q.1 * columnCount + q.2) : p = q := by
  have hmod := congrArg (· % columnCount) h
  have hdiv := congrArg (· / columnCount) h
  have hpos : 0 < columnCount := by omega
  simp only [Nat.mul_comm _ columnCount, Nat.mul_add_mod, Nat.mod_eq_of_lt hp, Nat.mod_eq_of_lt hq] at hmod
  simp only [Nat.mul_comm _ columnCount, Nat.mul_add_div hpos, Nat.div_eq_of_lt hp, Nat.div_eq_of_lt hq] at hdiv
  exact Prod.ext (by omega) hmod

private theorem occupyCells_spec {p : String} {cells : List CellRegion} {occupied result : List ℕ}
    (h : occupyCells p rowCount columnCount cells occupied = .ok result) (hn : occupied.Nodup) :
    result = occupied ++ cells.flatMap (·.positions columnCount) ∧ result.Nodup ∧
      ∀ cell ∈ cells, cell.Inside rowCount columnCount := by
  induction cells generalizing occupied with
  | nil =>
    cases pure_eq_ok.1 h
    exact ⟨by simp, hn, by simp⟩
  | cons cell cells ih =>
    unfold occupyCells at h
    simp only [raiseIf_bind_eq_ok] at h
    obtain ⟨hspan, hbounds, hoverlap, h⟩ := h
    have hinside : cell.Inside rowCount columnCount := by
      unfold CellRegion.Inside
      omega
    have hpositions : (cell.positions columnCount).Nodup := by
      rw [positions_eq]
      refine List.Nodup.map_on (fun q hq r hr heq => ?_) (CellRegion.nodup_places cell)
      have hq' := (CellRegion.mem_places.1 hq).2.2
      have hr' := (CellRegion.mem_places.1 hr).2.2
      have hend := hinside.2.2
      exact position_injOn (by omega) (by omega) heq
    have hn' : (occupied ++ cell.positions columnCount).Nodup := by
      refine List.nodup_append.2 ⟨hn, hpositions, ?_⟩
      rintro i hi j hj rfl
      exact hoverlap ⟨i, hj, hi⟩
    obtain ⟨hresult, hnodup, hcells⟩ := ih h hn'
    refine ⟨by rw [hresult, List.flatMap_cons, List.append_assoc], hnodup, ?_⟩
    intro c hc
    rcases List.mem_cons.1 hc with rfl | hc
    · exact hinside
    · exact hcells c hc

/-- The cells of a valid grid cover it. -/
theorem coversGrid_of_validateGrid {p : String} {cells : List CellRegion}
    (h : validateGrid cells rowCount columnCount p = .ok ()) :
    CoversGrid rowCount columnCount cells ∧ (∀ cell ∈ cells, cell.Inside rowCount columnCount) ∧
      0 < rowCount ∧ 0 < columnCount := by
  unfold validateGrid at h
  simp only [bind_eq_ok, raiseIf_eq_ok, not_not] at h
  obtain ⟨_, hpos, _, -, _, -, _, -, _, -, occupied, hoccupied, hlength⟩ := h
  obtain ⟨hresult, hnodup, hinside⟩ := occupyCells_spec hoccupied List.nodup_nil
  rw [List.nil_append] at hresult
  have hmap : occupied = (cells.flatMap (·.places)).map fun p => p.1 * columnCount + p.2 := by
    rw [hresult, List.map_flatMap]
    exact List.flatMap_congr fun cell _ => positions_eq cell
  have hplaces : (cells.flatMap (·.places)).Nodup := List.Nodup.of_map _ (hmap ▸ hnodup)
  have hsubset : cells.flatMap (·.places) ⊆ gridPlaces rowCount columnCount := by
    intro q hq
    obtain ⟨cell, hcell, hq⟩ := List.mem_flatMap.1 hq
    have hbounds := CellRegion.mem_places.1 hq
    have hcell' := hinside cell hcell
    unfold CellRegion.Inside at hcell'
    exact mem_gridPlaces.2 ⟨by omega, by omega⟩
  refine ⟨(List.subperm_of_subset hplaces hsubset).perm_of_length_le ?_, hinside, by omega, by omega⟩
  rw [length_gridPlaces, ← hlength, hmap, List.length_map]

/-! ### Reading a table -/

/-- The lines of a table with the given rows: the header row first, or an empty header, then a rule, then the other
rows in order. -/
def linesWith (header : Option ℕ) (rowCount columnCount : ℕ) (row : ℕ → List Text) : List (List Text) :=
  (header.map row).getD (List.replicate columnCount []) :: List.replicate columnCount "---".toList ::
    ((List.range rowCount).filter fun i => header ≠ some i).map row

/-- The texts of a row of the grid, in one line each. -/
def rowTexts (columnCount : ℕ) (cells : List TextCell) (row : ℕ) : List Text :=
  (List.range columnCount).map fun column => singleLine (cellTextAt cells (row, column))

/-- The lines of a table as they are read. -/
def expectedLines (rowCount columnCount : ℕ) (cells : List TextCell) : List (List Text) :=
  linesWith (headerRow cells) rowCount columnCount (rowTexts columnCount cells)

private theorem of_mem_linesWith {header : Option ℕ} {row : ℕ → List Text} {P : List Text → Prop}
    (hempty : P (List.replicate columnCount [])) (hrule : P (List.replicate columnCount "---".toList))
    (hrow : ∀ i, P (row i)) : ∀ line ∈ linesWith header rowCount columnCount row, P line := by
  intro line hline
  rcases List.mem_cons.1 hline with rfl | hline
  · cases header with
    | none => exact hempty
    | some i => exact hrow i
  · rcases List.mem_cons.1 hline with rfl | hline
    · exact hrule
    · obtain ⟨i, -, rfl⟩ := List.mem_map.1 hline
      exact hrow i

private theorem unescape_rule : unescape "---".toList = "---".toList := by decide

private theorem map_linesWith (header : Option ℕ) (row : ℕ → List Text) :
    (linesWith header rowCount columnCount row).map (fun line => line.map unescape) =
      linesWith header rowCount columnCount fun i => (row i).map unescape := by
  have hempty : (List.replicate columnCount ([] : Text)).map unescape = List.replicate columnCount [] := by
    rw [List.map_replicate]
    rfl
  have hheader : ((header.map row).getD (List.replicate columnCount [])).map unescape =
      (header.map fun i => (row i).map unescape).getD (List.replicate columnCount []) := by
    cases header with
    | none => exact hempty
    | some i => rfl
  rw [linesWith, linesWith, List.map_cons, List.map_cons, List.map_map, hheader, List.map_replicate, unescape_rule]
  rfl

/-- The written lines of a table are read back. -/
private theorem readTable_linesWith (header : Option ℕ) {row : ℕ → List Text} (hcolumns : 0 < columnCount)
    (hrow : ∀ i, row i ≠ [] ∧ ∀ v ∈ row i, Joined v ∧ '\n' ∉ v) :
    readTable (['\n'].intercalate ((linesWith header rowCount columnCount row).map tableLine)) =
      linesWith header rowCount columnCount fun i => (row i).map unescape := by
  have hreplicate : ∀ v : Text, List.replicate columnCount v ≠ [] := fun v hnil => by
    rw [List.replicate_eq_nil_iff] at hnil
    omega
  have hempty : Joined [] ∧ '\n' ∉ ([] : Text) := ⟨fun current rest => by simp, by simp⟩
  have hrule : Joined "---".toList ∧ '\n' ∉ "---".toList := ⟨joined_rule, by decide⟩
  rw [← map_linesWith]
  refine readTable_lines (List.cons_ne_nil _ _) ?_ ?_
  · exact of_mem_linesWith (hreplicate _) (hreplicate _) fun i => (hrow i).1
  · refine of_mem_linesWith ?_ ?_ fun i => (hrow i).2
    · exact fun v hv => List.eq_of_mem_replicate hv ▸ hempty
    · exact fun v hv => List.eq_of_mem_replicate hv ▸ hrule

private theorem filter_zipIdx {α : Type} (f : ℕ → α) (q : ℕ → Bool) (n k : ℕ) :
    ((((List.range' k n).map f).zipIdx k).filter fun p => q p.2).map Prod.fst = ((List.range' k n).filter q).map f := by
  induction n generalizing k with
  | zero => rfl
  | succ n ih =>
    rw [List.range'_succ, List.map_cons, List.zipIdx_cons]
    by_cases hk : q k = true
    · simp [hk, ih]
    · simp [hk, ih]

private theorem places_subset_iff {region : CellRegion}
    (hspan : region.startRow < region.endRow ∧ region.startColumn < region.endColumn) :
    (∀ p ∈ region.places, p ∈ gridPlaces rowCount columnCount) ↔ region.Inside rowCount columnCount := by
  constructor
  · intro h
    have hlast := mem_gridPlaces.1 (h (region.endRow - 1, region.endColumn - 1)
      (CellRegion.mem_places.2 ⟨⟨by dsimp only; omega, by dsimp only; omega⟩, by dsimp only; omega, by dsimp only; omega⟩))
    dsimp only at hlast
    unfold CellRegion.Inside
    omega
  · intro h p hp
    have hbounds := CellRegion.mem_places.1 hp
    unfold CellRegion.Inside at h
    exact mem_gridPlaces.2 ⟨by omega, by omega⟩

private theorem inside_of_covers {cells : List TextCell} (h : CoversGrid rowCount columnCount (cells.map (·.region)))
    (hspan : ∀ cell ∈ cells, cell.region.startRow < cell.region.endRow ∧
      cell.region.startColumn < cell.region.endColumn) : ∀ cell ∈ cells, cell.region.Inside rowCount columnCount := by
  intro cell hcell
  refine (places_subset_iff (hspan cell hcell)).1 fun p hp => h.mem_iff.1 ?_
  rw [List.flatMap_map, List.mem_flatMap]
  exact ⟨cell, hcell, hp⟩

private theorem headerRow_lt {cells : List TextCell} (h : ∀ cell ∈ cells, cell.region.Inside rowCount columnCount)
    {row : ℕ} (hrow : headerRow cells = some row) : row < rowCount := by
  obtain ⟨cell, hcell, rfl⟩ := List.mem_map.1 (List.min?_mem hrow)
  have hinside := h cell (List.mem_filter.1 hcell).1
  unfold CellRegion.Inside at hinside
  omega

private theorem tableLines_matrixOf (f : ℕ × ℕ → Text) {header : Option ℕ} (h : ∀ i ∈ header, i < rowCount) :
    tableLines (matrixOf rowCount columnCount f) header columnCount =
      .ok (linesWith header rowCount columnCount fun i => (List.range columnCount).map fun column => f (i, column)) := by
  have hdata := filter_zipIdx (fun i => (List.range columnCount).map fun column => f (i, column))
    (fun i => header ≠ some i) rowCount 0
  rw [← List.range_eq_range'] at hdata
  have hvalues : headerValues (matrixOf rowCount columnCount f) header columnCount =
      .ok ((header.map fun i => (List.range columnCount).map fun column => f (i, column)).getD
        (List.replicate columnCount [])) := by
    cases header with
    | none => rfl
    | some i =>
      rw [headerValues, getElem_matrixOf f (h i rfl)]
      rfl
  rw [tableLines, hvalues, ok_bind, linesWith, ← hdata]
  rfl

/-- The lines of a table whose cells cover its grid. -/
theorem renderCells_of_covers (escape : Text → Text) {cells : List TextCell}
    (h : CoversGrid rowCount columnCount (cells.map (·.region)))
    (hspan : ∀ cell ∈ cells, cell.region.startRow < cell.region.endRow ∧
      cell.region.startColumn < cell.region.endColumn) :
    renderCells escape rowCount columnCount cells =
      .ok (['\n'].intercalate ((linesWith (headerRow cells) rowCount columnCount fun i =>
        (List.range columnCount).map fun column => escape (singleLine (cellTextAt cells (i, column)))).map tableLine)) := by
  have hlines := @tableLines_matrixOf rowCount columnCount (fun p => escape (singleLine (cellTextAt cells p)))
    (headerRow cells) fun i hi => headerRow_lt (inside_of_covers h hspan) hi
  rw [renderCells, matrix_of_covers escape h, ok_bind, hlines]
  rfl

/-- A table is rendered when its cells are inside of its grid. -/
theorem exists_renderCells_iff (escape : Text → Text) {cells : List TextCell}
    (hspan : ∀ cell ∈ cells, cell.region.startRow < cell.region.endRow ∧
      cell.region.startColumn < cell.region.endColumn) :
    (∃ text, renderCells escape rowCount columnCount cells = .ok text) ↔
      ∀ cell ∈ cells, cell.region.Inside rowCount columnCount := by
  have hplaces : (∀ a ∈ cells.flatMap fun cell => cell.region.places.map fun p => (p, escape (singleLine cell.text)),
      a.1 ∈ gridPlaces rowCount columnCount) ↔ ∀ cell ∈ cells, cell.region.Inside rowCount columnCount := by
    simp only [List.mem_flatMap, List.mem_map]
    constructor
    · intro h cell hcell
      exact (places_subset_iff (hspan cell hcell)).1 fun p hp => h (p, _) ⟨cell, hcell, p, hp, rfl⟩
    · rintro h _ ⟨cell, hcell, p, hp, rfl⟩
      exact (places_subset_iff (hspan cell hcell)).2 (h cell hcell) p hp
  rw [← hplaces, ← exists_foldlM_setValue_iff, ← replicate_eq_matrixOf, ← foldlM_fillCell, renderCells]
  constructor
  · rintro ⟨text, h⟩
    obtain ⟨matrix, hmatrix, -⟩ := bind_eq_ok.1 h
    exact ⟨matrix, hmatrix⟩
  · rintro ⟨matrix, hmatrix⟩
    have hall := hmatrix
    rw [foldlM_fillCell, replicate_eq_matrixOf] at hall
    have hin := (exists_foldlM_setValue_iff _ _).1 ⟨matrix, hall⟩
    rw [foldlM_setValue _ hin] at hall
    cases hall
    rw [hmatrix, ok_bind, tableLines_matrixOf _ fun i hi => headerRow_lt (hplaces.1 hin) hi]
    exact ⟨_, rfl⟩

/-- A table whose cells cover its grid is rendered, and its lines are read back. -/
theorem readTable_renderCells {cells : List TextCell} (h : CoversGrid rowCount columnCount (cells.map (·.region)))
    (hspan : ∀ cell ∈ cells, cell.region.startRow < cell.region.endRow ∧
      cell.region.startColumn < cell.region.endColumn) (hcolumns : 0 < columnCount) :
    ∃ markdown, renderCells escapeMarkdown rowCount columnCount cells = .ok markdown ∧
      readTable markdown = expectedLines rowCount columnCount cells := by
  refine ⟨_, renderCells_of_covers escapeMarkdown h hspan, ?_⟩
  have hrows : (fun i => ((List.range columnCount).map fun column =>
      escapeMarkdown (singleLine (cellTextAt cells (i, column)))).map unescape) = rowTexts columnCount cells := by
    funext i
    rw [List.map_map]
    refine List.map_congr_left fun column _ => ?_
    rw [Function.comp_apply, unescape_escapeMarkdown]
  refine (readTable_linesWith _ hcolumns fun i => ?_).trans (congrArg (linesWith _ _ _) hrows)
  refine ⟨fun hnil => ?_, fun v hv => ?_⟩
  · rw [List.map_eq_nil_iff, List.range_eq_nil] at hnil
    omega
  · obtain ⟨column, -, rfl⟩ := List.mem_map.1 hv
    exact ⟨joined_escapeMarkdown _, newline_notMem_escapeMarkdown (newline_notMem_singleLine _)⟩

private theorem regions_of_textCells {spans : Dict SpanId SourceSpan} {blocks : List TableCellBlock}
    {cells : List TextCell} (h : blocks.mapM (TableCellBlock.textCell spans) = .ok cells) :
    cells.map (·.region) = blocks.map (·.region) := by
  have hall := mapM_eq_ok.1 h
  clear h
  induction hall with
  | nil => rfl
  | @cons block cell blocks cells hcell _ ih =>
    obtain ⟨text, -, htext⟩ := bind_eq_ok.1 hcell
    cases pure_eq_ok.1 htext
    rw [List.map_cons, List.map_cons, ih]

/-- A table is rendered when the texts of its cells are known. -/
theorem exists_renderTable_of_cells (escape : Text → Text) {block : TableBlock} {spans : Dict SpanId SourceSpan}
    {cells : List TextCell} (h : block.cells.mapM (TableCellBlock.textCell spans) = .ok cells) :
    ∃ text, renderTable escape block spans = .ok text := by
  have hinside : ∀ cell ∈ cells, cell.region.Inside block.rowCount block.columnCount := by
    intro cell hcell
    refine (coversGrid_of_validateGrid block.grid).2.1 _ ?_
    rw [← regions_of_textCells h]
    exact List.mem_map_of_mem hcell
  obtain ⟨text, htext⟩ := (exists_renderCells_iff escape fun cell hcell => (hinside cell hcell).1).2 hinside
  exact ⟨text, by rw [renderTable, block.grid, ok_bind, h, ok_bind, htext]⟩

end Matrix

/-- The lines of a rendered table are its header row, or an empty header when no cell is marked as one, a rule, and
the other rows of the grid in order; every place has the text of its cell, in one line. -/
theorem readTable_render :
    (∀ (block : TableBlock) (spans : Dict SpanId SourceSpan) (cells : List TextCell),
      block.cells.mapM (TableCellBlock.textCell spans) = .ok cells →
        ∃ markdown, renderTable escapeMarkdown block spans = .ok markdown ∧
          readTable markdown = expectedLines block.rowCount block.columnCount cells) ∧
      ∀ (block : CanonicalBlock) (rowCount columnCount : ℕ), block.rowCount = some rowCount →
        block.columnCount = some columnCount → CoversGrid rowCount columnCount (block.cells.map (·.region)) →
          ∃ markdown, renderCanonicalTable escapeMarkdown block = .ok markdown ∧
            readTable markdown = expectedLines rowCount columnCount (block.cells.map (·.textCell)) := by
  constructor
  · intro block spans cells hcells
    obtain ⟨hcovers, hinside, -, hcolumns⟩ := coversGrid_of_validateGrid block.grid
    have hregions := regions_of_textCells hcells
    have hspan : ∀ cell ∈ cells, cell.region.startRow < cell.region.endRow ∧
        cell.region.startColumn < cell.region.endColumn := by
      intro cell hcell
      have hmem : cell.region ∈ block.cells.map (·.region) := hregions ▸ List.mem_map_of_mem hcell
      exact (hinside _ hmem).1
    obtain ⟨markdown, hrender, hread⟩ := readTable_renderCells (hregions ▸ hcovers) hspan hcolumns
    refine ⟨markdown, ?_, hread⟩
    rw [renderTable, block.grid, ok_bind, hcells, ok_bind, hrender]
  · intro block rowCount columnCount hrows hcolumns hcovers
    have hregions : (block.cells.map (·.textCell)).map (·.region) = block.cells.map (·.region) := by
      rw [List.map_map]
      rfl
    have hspan : ∀ cell ∈ block.cells.map (·.textCell), cell.region.startRow < cell.region.endRow ∧
        cell.region.startColumn < cell.region.endColumn := by
      intro cell hcell
      obtain ⟨c, -, rfl⟩ := List.mem_map.1 hcell
      exact c.span
    obtain ⟨markdown, hrender, hread⟩ := readTable_renderCells (hregions ▸ hcovers) hspan
      (block.columnCount_mem columnCount hcolumns).1
    refine ⟨markdown, ?_, hread⟩
    rw [renderCanonicalTable, hrows, hcolumns]
    exact hrender

/-- A cell of one row of a table with one column. -/
def singleCell (row : ℕ) (text : Text) (columnHeader : Bool) (h : row < 2) : CanonicalCell where
  cellId := ⟨Fin.ofNat _ row⟩
  region := ⟨row, row + 1, 0, 1⟩
  text := text
  atomIds := []
  columnHeader := columnHeader
  withinLimits := by
    unfold CellRegion.WithinLimits maxTableRows maxTableColumns
    dsimp only
    omega
  span := by dsimp only; omega

/-- A table of two rows whose second row is marked as the header. -/
def lateHeaderTable : CanonicalBlock where
  blockId := ⟨0⟩
  order := 0
  regionId := ⟨0⟩
  page := 1
  kind := .table
  text := "A\nB".toList
  atomIds := []
  headingLevel := none
  listKind := none
  listDepth := none
  rowCount := some 2
  columnCount := some 1
  cells := [singleCell 0 ['A'] false (by decide), singleCell 1 ['B'] true (by decide)]
  decisionIds := []
  page_pos := Nat.one_pos
  headingLevel_mem := headingLevel_none
  listDepth_mem := listDepth_none
  rowCount_mem := by decide
  columnCount_mem := by decide
  cells_le := by decide
  heading_iff := CanonicalBlock.table_heading_iff
  list_iff := CanonicalBlock.table_list_iff
  table_iff := by decide
  cells_iff := by decide

/-- A cell of a table of two rows and two columns. -/
private def pairCell (row column width : ℕ) (text : Text) (columnHeader : Bool)
    (h : row < 2 ∧ 0 < width ∧ column + width ≤ 2) : CanonicalCell where
  cellId := ⟨Fin.ofNat _ (2 * row + column)⟩
  region := ⟨row, row + 1, column, column + width⟩
  text := text
  atomIds := []
  columnHeader := columnHeader
  withinLimits := by
    unfold CellRegion.WithinLimits maxTableRows maxTableColumns
    dsimp only
    omega
  span := by dsimp only; omega

private theorem pairColumns_mem : ∀ n ∈ some 2, 0 < n ∧ n ≤ maxTableColumns := by decide

/-- A cell over both columns with marks and a line end, before a header of two cells. -/
def spannedTable : CanonicalBlock :=
  { lateHeaderTable with
    columnCount := some 2
    cells := [pairCell 0 0 2 "a|b\n<c>".toList false (by decide), pairCell 1 0 1 "*x*".toList true (by decide),
      pairCell 1 1 1 "y".toList true (by decide)]
    columnCount_mem := pairColumns_mem
    cells_le := by decide
    table_iff := by decide
    cells_iff := by decide }

theorem readTable_render_lateHeader : ∃ markdown, renderCanonicalTable escapeMarkdown spannedTable = .ok markdown ∧
    readTable markdown = [["*x*".toList, "y".toList], ["---".toList, "---".toList],
      ["a|b <c>".toList, "a|b <c>".toList]] := by
  obtain ⟨markdown, hrender, hread⟩ := readTable_render.2 spannedTable 2 2 rfl rfl (by decide)
  exact ⟨markdown, hrender, hread.trans (by decide)⟩

/-- The rows of a table are not in the order of the grid when a later row is marked as the header. -/
theorem rows_out_of_order : CoversGrid 2 1 (lateHeaderTable.cells.map (·.region)) ∧
    ∃ markdown, renderCanonicalTable escapeMarkdown lateHeaderTable = .ok markdown ∧
      (readTable markdown).eraseIdx 1 ≠ (List.range 2).map fun row => (List.range 1).map fun column =>
        cellTextAt (lateHeaderTable.cells.map (·.textCell)) (row, column) := by
  have hcovers : CoversGrid 2 1 (lateHeaderTable.cells.map (·.region)) := by decide
  have hspan : ∀ cell ∈ lateHeaderTable.cells.map (·.textCell), cell.region.startRow < cell.region.endRow ∧
      cell.region.startColumn < cell.region.endColumn := by decide
  obtain ⟨markdown, hrender, hread⟩ := readTable_renderCells hcovers hspan (by decide)
  refine ⟨hcovers, markdown, hrender, ?_⟩
  rw [hread]
  decide

end ArdOssie
