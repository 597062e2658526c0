import ArdOssie.Library.Regex
import ArdOssie.Semantic.Decide
import ArdOssie.Semantic.Structure
import ArdOssie.Semantic.TableGrids
import ArdOssie.Semantic.TableSpacing

/-!
# Tables that a hint proves

A table hint whose cells take up the atoms of a region, by their boxes and by their characters, gives a table candidate
that is selected without a model.
-/

namespace ArdOssie

open Text (isSpace withoutWhitespace)

/-! ### Fragments -/

/-- `[A-Za-z0-9]` -/
def isPlainAlnum (c : Char) : Bool := ('A' ≤ c && c ≤ 'Z') || ('a' ≤ c && c ≤ 'z') || ('0' ≤ c && c ≤ '9')

section Fragments

open Regex

/-- `(?<![가-힣A-Za-z0-9_])([가-힣]+)\s+([가-힣]+)` -/
def hangulFragments : Regex :=
  seq (notBehind fun c => isHangul c || isPlainAlnum c || c = '_')
    (seq (plus (char isHangul)) (seq (plus (char isSpace)) (plus (char isHangul))))

/-- `[A-Za-z0-9]*_[A-Za-z0-9_]*`, or with an underscore also before the first one. -/
def snakeCase (first : Char → Bool) : Regex :=
  seq (star (char first)) (seq (char fun c => c = '_') (star (char fun c => isPlainAlnum c || c = '_')))

/-- `\b[A-Za-z0-9]+\s+[A-Za-z0-9]*_[A-Za-z0-9_]*\b|\b[A-Za-z0-9_]*_[A-Za-z0-9_]*\s+[A-Za-z0-9]+\b`; `isWord` are the
characters of `\w`, to which the characters at the boundaries belong. -/
def splitIdentifier (isWord : Char → Bool) : Regex :=
  alt
    (seq (notBehind isWord) (seq (plus (char isPlainAlnum)) (seq (plus (char isSpace))
      (seq (snakeCase isPlainAlnum) (notAhead (char isWord))))))
    (seq (notBehind isWord) (seq (snakeCase fun c => isPlainAlnum c || c = '_') (seq (plus (char isSpace))
      (seq (plus (char isPlainAlnum)) (notAhead (char isWord))))))

/-- `_has_obvious_spacing_fragmentation` -/
def hasObviousSpacingFragmentation (isWord : Char → Bool) (value : Text) : Bool :=
  ((hangulFragments.findAll value).any fun m =>
    (m.2.takeWhile isHangul).length = 1 ||
      ((m.2.dropWhile isHangul).dropWhile isSpace).length = 1) ||
    (splitIdentifier isWord).occursIn value

end Fragments

/-! ### The atoms of the cells -/

/-- `_box_overlap_area` -/
def boxOverlapArea (first : SourceBox) : Option SourceBox → ℚ
  | none => 0
  | some second => max 0 (min first.right second.right - max first.left second.left) *
      max 0 (min first.top second.top - max first.bottom second.bottom)

/-- `_best_hint_cell` -/
def bestHintCell (atom : EvidenceAtom) (cells : List StructureCell) : Option ℕ :=
  match atom.bbox with
  | none => none
  | some bbox =>
    let overlaps := cells.map fun cell => boxOverlapArea bbox cell.bbox
    if ∀ overlap ∈ overlaps, overlap ≤ 0 then none
    -- the first index with the greatest overlap
    else maxBy (fun index => overlaps.getD index 0) (List.range cells.length)

/-- `_nearest_assigned_cell` -/
def nearestAssignedCell (assignments : List (Option ℕ)) (index : ℕ) : Option ℕ :=
  (List.range' 1 (assignments.length - 1)).findSome? fun distance =>
    (if distance ≤ index then assignments[index - distance]?.join else none) <|> assignments[index + distance]?.join

/-- The text of an atom of the catalog. -/
def atomTextOf (catalog : Dict AtomId EvidenceAtom) (i : AtomId) : Text := ((catalog.lookup i).map (·.text)).getD []

/-- The atoms of the characters of a text in its order, and the atoms that are left. -/
def orderByHint (catalog : Dict AtomId EvidenceAtom) : Text → List AtomId → Option (List AtomId × List AtomId)
  | [], available => some ([], available)
  | c :: t, available =>
    if isSpace c then orderByHint catalog t available
    else
      match available.find? fun i => atomTextOf catalog i = [c] with
      | none => none
      | some i => (orderByHint catalog t (available.erase i)).map fun r => (i :: r.1, r.2)

/-- `_order_atom_ids_by_text_hint` -/
def orderAtomIdsByTextHint (catalog : Dict AtomId EvidenceAtom) (atomIds : List AtomId) (textHint : Text) :
    Option (List AtomId) :=
  let blank := atomIds.filter fun i => (atomTextOf catalog i).all isSpace
  let visible := atomIds.filter fun i => !(atomTextOf catalog i).all isSpace
  if visible.any fun i => (atomTextOf catalog i).length ≠ 1 then none
  else
    match orderByHint catalog textHint visible with
    | some (ordered, []) => some (ordered ++ blank)
    | _ => none

/-! ### The candidate -/

/-- A result, `return None`, or an exception. -/
abbrev Hinted := Except (Option PyError)

/-- The value, or `return None`. -/
def orNone {α : Type} : Option α → Hinted α
  | some a => .ok a
  | none => .error none

section Candidate

variable (platform : Platform) (isWord : Char → Bool) (region : LayoutRegion) (tableHint : StructureTable)
  (catalog : Dict AtomId EvidenceAtom)

/-- The first loop: the cell of an atom. -/
def assignAtom (i : AtomId) : Hinted (Option ℕ) := do
  let atom ← (catalog.getItem i).mapError some
  let cell := bestHintCell atom tableHint.cells
  if cell = none ∧ atom.isSpace = false then .error none else .ok cell

/-- One round of the second loop: an atom without a cell takes the nearest one. -/
def fillAssignment (assignments : List (Option ℕ)) (index : ℕ) : Hinted (List (Option ℕ)) :=
  match assignments[index]?.join with
  | some _ => .ok assignments
  | none => do
    let adjacent ← orNone (nearestAssignedCell assignments index)
    return assignments.set index (some adjacent)

/-- The visible characters of atoms. -/
def sourceCharacters (atomIds : List AtomId) : Text := withoutWhitespace (atomIds.flatMap (atomTextOf catalog))

/-- The third loop: the specification of a hinted cell, with the atoms that are assigned to it. -/
def hintSpec (assigned : List (AtomId × Option ℕ)) (cell : StructureCell × ℕ) : Hinted CellSpec := do
  let atomIds := (assigned.filter fun p => p.2 = some cell.2).map Prod.fst
  if ¬ (sourceCharacters catalog atomIds).Perm (withoutWhitespace cell.1.textHint) then .error none
  else
    let ordered ← orNone (orderAtomIdsByTextHint catalog atomIds cell.1.textHint)
    return ⟨cell.1.region, ordered, cell.1.columnHeader⟩

/-- The score of a proven table. -/
def hintScore (spacingIntegrity : Bool) : Score := if spacingIntegrity then .one else ⟨94 / 100, Score.percent94_mem⟩

/-- The features of a proven table. -/
def hintFeatures (spacingIntegrity : Bool) : Dict Text ℚ :=
  Dict.ofList [("atom_bbox_cell_agreement".toList, 1), ("cell_character_multiset".toList, 1),
    ("structure_hint_text".toList, 1), ("cell_spacing_integrity".toList, if spacingIntegrity then 1 else 0)]

/-- The body of `_invariant_hint_table_candidate` -/
def hintTable : Hinted TableCandidate := do
  let spacingIntegrity := !(tableHint.cells.any fun cell => hasObviousSpacingFragmentation isWord cell.textHint)
  let assignments ← region.atomIds.mapM (assignAtom tableHint catalog)
  let assignments ← (List.range assignments.length).foldlM fillAssignment assignments
  let specs ← tableHint.cells.zipIdx.mapM (hintSpec catalog (region.atomIds.zip assignments))
  let renderedTexts : Dict CellRegion Text := Dict.ofList (tableHint.cells.map fun cell => (cell.region, cell.textHint))
  let cells ← (completeCells platform region.regionId specs tableHint.rowCount tableHint.columnCount).mapError some
  let rendered := cells.map fun cell => { cell with renderedText := renderedTexts.lookup cell.region }
  (makeTableCandidate platform region tableHint.rowCount tableHint.columnCount rendered (hintScore spacingIntegrity)
    (hintFeatures spacingIntegrity)).mapError fun _ => none

/-- `_invariant_hint_table_candidate` -/
def invariantHintTableCandidate : PyResult (Option TableCandidate) :=
  match hintTable platform isWord region tableHint catalog with
  | .ok candidate => .ok (some candidate)
  | .error none => .ok none
  | .error (some e) => .error e

end Candidate

section Proofs

variable {platform : Platform} {isWord : Char → Bool} {region : LayoutRegion} {tableHint : StructureTable}
  {catalog : Dict AtomId EvidenceAtom}

/-! ### The order of the atoms -/

/-- The atoms that are taken spell the visible characters of the text. -/
theorem orderByHint_spec {textHint : Text} {available ordered rest : List AtomId}
    (h : orderByHint catalog textHint available = some (ordered, rest)) :
    ordered.flatMap (atomTextOf catalog) = withoutWhitespace textHint ∧ (ordered ++ rest).Perm available := by
  induction textHint generalizing available ordered rest with
  | nil =>
    cases h
    exact ⟨rfl, List.Perm.refl _⟩
  | cons c t ih =>
    unfold orderByHint at h
    rw [Text.withoutWhitespace_cons]
    by_cases hspace : isSpace c = true
    · rw [if_pos hspace] at h ⊢
      exact ih h
    · rw [if_neg hspace] at h ⊢
      cases hfind : available.find? fun i => atomTextOf catalog i = [c] with
      | none =>
        rw [hfind] at h
        cases h
      | some i =>
        rw [hfind] at h
        obtain ⟨r, hr, heq⟩ := Option.map_eq_some_iff.1 h
        cases heq
        obtain ⟨htext, hperm⟩ := ih hr
        -- the first atom with the character is taken out of the available ones
        have hi : atomTextOf catalog i = [c] := by simpa using List.find?_some hfind
        refine ⟨?_, ?_⟩
        · rw [List.flatMap_cons, hi, htext]
          rfl
        · exact (hperm.cons i).trans (List.perm_cons_erase (List.mem_of_find?_eq_some hfind)).symm

/-- The atoms of a cell: those that spell its text, and then whitespace. -/
structure SpelledBy (catalog : Dict AtomId EvidenceAtom) (textHint : Text) (atomIds : List AtomId) : Prop where
  split : ∃ visible blank, atomIds = visible ++ blank ∧
    visible.flatMap (atomTextOf catalog) = withoutWhitespace textHint ∧
    ∀ i ∈ blank, (atomTextOf catalog i).all isSpace = true

theorem orderAtomIdsByTextHint_spec {textHint : Text} {atomIds ordered : List AtomId}
    (h : orderAtomIdsByTextHint catalog atomIds textHint = some ordered) : SpelledBy catalog textHint ordered := by
  unfold orderAtomIdsByTextHint at h
  dsimp only at h
  split at h
  · cases h
  · split at h
    · rename_i visible hvisible
      cases h
      exact ⟨_, _, rfl, (orderByHint_spec hvisible).1, fun i hi => (List.mem_filter.1 hi).2⟩
    · cases h

/-! ### The candidate -/

private theorem orNone_eq_ok {α : Type} {value : Option α} {a : α} : orNone value = .ok a ↔ value = some a := by
  cases value <;> simp [orNone]

private theorem hintSpec_spec {assigned : List (AtomId × Option ℕ)} {cell : StructureCell × ℕ} {spec : CellSpec}
    (h : hintSpec catalog assigned cell = .ok spec) :
    spec.region = cell.1.region ∧ SpelledBy catalog cell.1.textHint spec.atomIds := by
  unfold hintSpec at h
  dsimp only at h
  split at h
  · cases h
  · obtain ⟨ordered, hordered, h⟩ := bind_eq_ok.1 h
    cases pure_eq_ok.1 h
    exact ⟨rfl, orderAtomIdsByTextHint_spec (orNone_eq_ok.1 hordered)⟩

/-- A table candidate has the cells of a hint with their characters, and no other atoms. -/
structure ExactFor (catalog : Dict AtomId EvidenceAtom) (region : LayoutRegion) (tableHint : StructureTable)
    (candidate : TableCandidate) : Prop where
  allocated : ∀ i ∈ region.atomIds, (candidate.cells.flatMap (·.atomIds)).count i = 1
  only : ∀ i ∈ candidate.cells.flatMap (·.atomIds), i ∈ region.atomIds
  spelled : ∀ cell ∈ tableHint.cells, ∃ c ∈ candidate.cells, c.region = cell.region ∧
    SpelledBy catalog cell.textHint c.atomIds
  empty : ∀ c ∈ candidate.cells, (∃ cell ∈ tableHint.cells, cell.region = c.region) ∨ c.atomIds = []
  grid : TableGridComplete candidate.cells tableHint.rowCount tableHint.columnCount

private theorem hintTable_exact {candidate : TableCandidate}
    (h : hintTable platform isWord region tableHint catalog = .ok candidate) :
    ExactFor catalog region tableHint candidate ∧
      ∃ integrity, candidate.features = hintFeatures integrity := by
  unfold hintTable at h
  obtain ⟨assignments, -, h⟩ := bind_eq_ok.1 h
  obtain ⟨filled, -, h⟩ := bind_eq_ok.1 h
  obtain ⟨specs, hspecs, h⟩ := bind_eq_ok.1 h
  obtain ⟨cells, hcells, h⟩ := bind_eq_ok.1 h
  obtain ⟨hvalid, hcandidate, -, -, -, hfeatures⟩ := makeTableCandidate_eq_ok (mapError_eq_ok.1 h)
  have hcells := mapError_eq_ok.1 hcells
  have hspecs := mapM_eq_ok.1 hspecs
  refine ⟨⟨?_, ?_, ?_, ?_, ?_⟩, _, hfeatures⟩
  · intro i hi
    rw [hcandidate]
    exact List.count_eq_one_of_mem hvalid.allocations_nodup (hvalid.allocations_complete.2 hi)
  · intro i hi
    rw [hcandidate] at hi
    exact hvalid.allocations_complete.1 hi
  · intro cell hcell
    obtain ⟨index, hindex⟩ := List.mem_iff_getElem?.1 hcell
    obtain ⟨spec, hspec, hmade⟩ := exists_of_forall₂_left hspecs (List.mk_mem_zipIdx_iff_getElem?.2 hindex)
    obtain ⟨hregion, hspelled⟩ := hintSpec_spec hmade
    obtain ⟨c, hc, hcregion, hcatoms⟩ := exists_cell_of_completeCells hcells hspec
    rw [hcandidate]
    refine ⟨_, List.mem_map_of_mem hc, hcregion.trans hregion, ?_⟩
    show SpelledBy catalog cell.textHint c.atomIds
    rw [hcatoms]
    exact hspelled
  · intro c hc
    rw [hcandidate] at hc
    obtain ⟨c', hc', rfl⟩ := List.mem_map.1 hc
    rcases exists_spec_of_completeCells hcells hc' with ⟨spec, hspec, hregion, -⟩ | hempty
    · obtain ⟨cell, hcell, hmade⟩ := exists_of_forall₂_right hspecs hspec
      exact Or.inl ⟨cell.1, List.fst_mem_of_mem_zipIdx hcell, (hintSpec_spec hmade).1.symm.trans hregion.symm⟩
    · exact Or.inr hempty
  · rw [hcandidate]
    exact hvalid.grid

/-! ### The selection -/

private theorem proven_of_features {candidate : TableCandidate} {integrity : Bool}
    (h : candidate.features = hintFeatures integrity) : isInvariantProvenTable (.table candidate) = true := by
  unfold isInvariantProvenTable
  dsimp only
  rw [h]
  cases integrity with
  | false => decide +kernel
  | true => decide +kernel

/-- The only proven table of a set is selected. -/
private theorem provenVerdict_single {candidate : TableCandidate} {candidates : List Candidate}
    (h : candidates.filter isInvariantProvenTable = [.table candidate]) :
    provenVerdict platform candidates = some (deterministicVerdict (.table candidate) Score.one) := by
  unfold provenVerdict
  rw [h]
  rfl

/-- A table candidate that a hint proves has every atom of the region in one cell and the characters of the hint in its
cells, its cells partition the grid, and it is selected as the only proven table of its set. -/
theorem invariantHintTableCandidate_exact {candidate : TableCandidate}
    (h : invariantHintTableCandidate platform isWord region tableHint catalog = .ok (some candidate)) :
    ExactFor catalog region tableHint candidate ∧ isInvariantProvenTable (.table candidate) = true ∧
      ∀ before after, (∀ c ∈ before ++ after, isInvariantProvenTable c = false) →
        provenVerdict platform (before ++ .table candidate :: after) =
          some (deterministicVerdict (.table candidate) Score.one) := by
  have htable : hintTable platform isWord region tableHint catalog = .ok candidate := by
    unfold invariantHintTableCandidate at h
    split at h
    · rename_i found hfound
      cases h
      exact hfound
    · cases h
    · cases h
  obtain ⟨hexact, integrity, hfeatures⟩ := hintTable_exact htable
  have hproven := proven_of_features hfeatures
  refine ⟨hexact, hproven, fun before after hothers => provenVerdict_single ?_⟩
  have hnone (l : List Candidate) (hl : ∀ c ∈ l, isInvariantProvenTable c = false) :
      l.filter isInvariantProvenTable = [] := by
    rw [List.filter_eq_nil_iff]
    intro c hc
    rw [hl c hc]
    exact Bool.false_ne_true
  rw [List.filter_append, List.filter_cons_of_pos hproven, hnone before fun c hc => hothers c (List.mem_append_left _ hc),
    hnone after fun c hc => hothers c (List.mem_append_right _ hc)]
  rfl

end Proofs

private theorem hintedPair_ne_nil : [(⟨0⟩ : AtomId), ⟨1⟩] ≠ [] := List.cons_ne_nil _ _

private def letterAtom : EvidenceAtom where
  atomId := ⟨0⟩
  ordinal := 0
  page := 1
  bbox := some .page
  text := ['A']
  kind := .character
  authority := .embedded
  sourceObject := 0
  sourceIndex := 0
  confidence := .one
  page_pos := Nat.one_pos
  text_ne := letter_ne_nil
  length_le := letter_length_le
  kind_allows := AtomKind.allows_letter

private def blankAtom : EvidenceAtom where
  atomId := ⟨1⟩
  ordinal := 1
  page := 1
  bbox := none
  text := [' ']
  kind := .whitespace
  authority := .embedded
  sourceObject := 0
  sourceIndex := 1
  confidence := .one
  page_pos := Nat.one_pos
  text_ne := by decide
  length_le := by decide
  kind_allows := AtomKind.allows_blank

private def letterRegion : LayoutRegion where
  regionId := ⟨0⟩
  page := 1
  bbox := .page
  lineIds := [⟨0⟩]
  atomIds := [⟨0⟩, ⟨1⟩]
  evidenceRegionIds := [⟨0⟩]
  column := 0
  hint := none
  repeatedEdge := false
  page_pos := Nat.one_pos
  lineIds_ne := Identifier.first_ne_nil
  atomIds_ne := hintedPair_ne_nil
  evidenceRegionIds_ne := Identifier.first_ne_nil

private def letterHint : StructureTable := ⟨1, 1, [⟨⟨0, 1, 0, 1⟩, ['A'], true, some .page⟩]⟩

private def letterCatalog : Dict AtomId EvidenceAtom := Dict.ofList [(⟨0⟩, letterAtom), (⟨1⟩, blankAtom)]

private theorem exists_letterTable : ∃ candidate,
    invariantHintTableCandidate .ascii isPlainAlnum letterRegion letterHint letterCatalog = .ok (some candidate) ∧
      candidate.cells.map (fun c => c.atomIds.flatMap (atomTextOf letterCatalog)) = [['A', ' ']] := by
  obtain ⟨found, hfound, hany⟩ := exists_of_any_toOption
    (x := invariantHintTableCandidate .ascii isPlainAlnum letterRegion letterHint letterCatalog)
    (p := fun found => found.any fun candidate =>
      candidate.cells.map (fun c => c.atomIds.flatMap (atomTextOf letterCatalog)) = [['A', ' ']]) (by decide +kernel)
  cases found with
  | none => cases hany
  | some candidate => exact ⟨candidate, hfound, of_decide_eq_true hany⟩

private def halfBox (left : ℚ) (h : 0 ≤ left ∧ left ≤ 1 / 2) : SourceBox :=
  { SourceBox.page with
    left := left
    right := left + 1 / 2
    left_nonneg := h.1
    right_le_one := by linarith [h.2]
    left_le_right := by linarith }

private theorem halfAtom_text_ne (letter : Char) : [letter] ≠ [] := List.cons_ne_nil _ _

private theorem halfAtom_allows : AtomKind.Allows .character ['B'] := by decide

/-- A letter in one half of the page. -/
private def halfAtom (i : Fin (2 ^ 64)) (letter : Char) (box : SourceBox) (h : AtomKind.Allows .character [letter]) :
    EvidenceAtom :=
  { letterAtom with
    atomId := ⟨i⟩
    ordinal := i
    bbox := some box
    text := [letter]
    sourceIndex := i
    text_ne := halfAtom_text_ne letter
    length_le := one_le_two
    kind_allows := h }

/-- A region of two letters with a blank between them, and a hint with a cell for each letter. -/
private def pairRegion : LayoutRegion :=
  { letterRegion with atomIds := [⟨0⟩, ⟨1⟩, ⟨2⟩], atomIds_ne := Identifier.three_ne_nil }

private def pairHint : StructureTable :=
  ⟨1, 2, [⟨⟨0, 1, 0, 1⟩, ['A'], true, some (halfBox 0 (by norm_num))⟩,
    ⟨⟨0, 1, 1, 2⟩, ['B'], true, some (halfBox (1 / 2) (by norm_num))⟩]⟩

private def pairCatalog : Dict AtomId EvidenceAtom :=
  Dict.ofList [(⟨0⟩, halfAtom 0 'A' (halfBox 0 (by norm_num)) AtomKind.allows_letter), (⟨1⟩, blankAtom),
    (⟨2⟩, halfAtom 2 'B' (halfBox (1 / 2) (by norm_num)) halfAtom_allows)]

theorem invariantHintTableCandidate_exact_letter : ∃ candidate,
    invariantHintTableCandidate .ascii isPlainAlnum pairRegion pairHint pairCatalog = .ok (some candidate) ∧
      candidate.cells.map (fun c => c.atomIds.flatMap (atomTextOf pairCatalog)) = [['A', ' '], ['B']] ∧
      ExactFor pairCatalog pairRegion pairHint candidate := by
  obtain ⟨_ | candidate, hfound, hany⟩ := exists_of_any_toOption
    (x := invariantHintTableCandidate .ascii isPlainAlnum pairRegion pairHint pairCatalog)
    (p := fun found => found.any fun candidate =>
      candidate.cells.map (fun c => c.atomIds.flatMap (atomTextOf pairCatalog)) = [['A', ' '], ['B']]) (by decide +kernel)
  · cases hany
  · exact ⟨candidate, hfound, of_decide_eq_true hany, (invariantHintTableCandidate_exact hfound).1⟩

/-- The cell of the hint `A` takes the letter and the whitespace of the region, whose texts are not `A`. -/
theorem whitespace_in_proven_cell : ∃ candidate,
    invariantHintTableCandidate .ascii isPlainAlnum letterRegion letterHint letterCatalog = .ok (some candidate) ∧
      candidate.cells.map (fun c => c.atomIds.flatMap (atomTextOf letterCatalog)) = [['A', ' ']] ∧
      letterHint.cells.map (fun cell => withoutWhitespace cell.textHint) = [['A']] := by
  obtain ⟨candidate, h, htext⟩ := exists_letterTable
  exact ⟨candidate, h, htext, rfl⟩

end ArdOssie
