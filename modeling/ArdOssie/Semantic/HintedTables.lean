import ArdOssie.Semantic.HintTables

/-!
# Cells of a hinted table

With a hint every line goes to the hinted cell that it overlaps most, and the lines of a cell are ordered by its text.
-/

namespace ArdOssie

open Text (isSpace withoutWhitespace)

section Hinted

variable (catalog : Dict AtomId EvidenceAtom)

/-- The text of the atoms that are not whitespace. -/
def visibleText (atomIds : List AtomId) : PyResult Text := do
  let texts ← atomIds.mapM fun i => do
    let atom ← catalog.getItem i
    return if atom.isSpace then [] else atom.text
  return texts.flatten

/-! ### Lines in the order of a text -/

/-- `str.find`, without a result when there is no occurrence. -/
def findText (target text : Text) : Option ℕ :=
  (List.range (target.length + 1)).find? fun position => text.isPrefixOf (target.drop position)

/-- A line with the place of its text in a hint. -/
structure RankedLine where
  position : ℕ
  index : ℕ
  line : LayoutLine
  text : Text

/-- The lines with their places in the target and the lines without visible characters, unless a text is not found. -/
def rankLines (target : Text) : List (LayoutLine × ℕ) → PyResult (Option (List RankedLine × List LayoutLine))
  | [] => return some ([], [])
  | (line, index) :: rest => do
    let text ← visibleText catalog line.atomIds
    if text = [] then
      let ranked ← rankLines target rest
      return ranked.map fun r => (r.1, line :: r.2)
    else
      match findText target text with
      | none => return none
      | some position =>
        let ranked ← rankLines target rest
        return ranked.map fun r => (⟨position, index, line, text⟩ :: r.1, r.2)

/-- `_box_center_distance` -/
def boxCenterDistance (first second : SourceBox) : ℚ :=
  let horizontal := (first.left + first.right) - (second.left + second.right)
  let vertical := (first.bottom + first.top) - (second.bottom + second.top)
  horizontal * horizontal + vertical * vertical

/-- Every line without visible characters comes after the ordered line that is closest to it. -/
def anchorLines (ordered blank : List LayoutLine) : PyResult (List LayoutLine) := do
  let anchored ← blank.mapM fun line =>
    match maxBy (fun anchor : LayoutLine => -boxCenterDistance anchor.bbox line.bbox) ordered with
    | some anchor => (.ok (anchor.lineId, line) : PyResult (LineId × LayoutLine))
    | none => .error (.valueError "min() iterable argument is empty")
  return ordered.flatMap fun line => line :: (anchored.filter fun a => a.1 = line.lineId).map Prod.snd

/-- `order_lines_by_text_hint` -/
def orderLinesByTextHint (lines : List LayoutLine) (textHint : Text) : PyResult (List LayoutLine) := do
  let target := withoutWhitespace textHint
  match ← rankLines catalog target lines.zipIdx with
  | none => return lines
  | some (ranked, blank) =>
    let ordered := sortBy (fun r : RankedLine => toLex (r.position, r.index)) ranked
    if ordered.flatMap (·.text) ≠ target then return lines
    else if blank.isEmpty then return ordered.map (·.line)
    else anchorLines (ordered.map (·.line)) blank

/-! ### Cells -/

/-- The index of the hinted cell that a line overlaps most. -/
def lineHintCell (tableHint : StructureTable) (line : LayoutLine) : PyResult ℕ :=
  let eligible := tableHint.cells.zipIdx.filter fun cell => 0 < boxOverlapArea line.bbox cell.1.bbox
  match maxBy (fun cell : StructureCell × ℕ => boxOverlapArea line.bbox cell.1.bbox) eligible with
  | some cell => .ok cell.2
  | none => .error (.valueError "TABLE_HINT_LINE_UNALLOCATED")

/-- `_hinted_cell_specs` -/
def hintedCellSpecs (lines : List LayoutLine) (tableHint : StructureTable) : PyResult (List CellSpec) := do
  let assigned ← lines.mapM fun line => do
    let index ← lineHintCell tableHint line
    return (index, line)
  let specs ← tableHint.cells.zipIdx.mapM fun cell => do
    let ordered ← orderLinesByTextHint catalog ((assigned.filter fun a => a.1 = cell.2).map Prod.snd) cell.1.textHint
    return (⟨cell.1.region, ordered.flatMap (·.atomIds), cell.1.columnHeader⟩ : CellSpec)
  raiseIf (∃ spec ∈ specs, tableHint.rowCount < spec.region.endRow ∨ tableHint.columnCount < spec.region.endColumn)
    (.valueError "TABLE_HINT_CELL_OUT_OF_BOUNDS")
  return specs

/-- `_apply_cell_text_hints` -/
def applyCellTextHints (cells : List TableCellCandidate) (tableHint : StructureTable) :
    PyResult (List TableCellCandidate) :=
  let hints : Dict CellRegion Text := Dict.ofList (tableHint.cells.map fun cell => (cell.region, cell.textHint))
  cells.mapM fun cell => do
    let sourceCharacters ← visibleText catalog cell.atomIds
    let textHint := hints.lookup cell.region
    let agrees := textHint.map withoutWhitespace = some sourceCharacters
    return { cell with renderedText := if agrees then textHint else none }

end Hinted

end ArdOssie
