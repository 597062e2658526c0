import ArdOssie.Semantic.TableSpacingRepair

/-!
# Spacing candidate sets of tables

The cells of a table make one text with a line for each.  Its boundaries between two cells are hard breaks and are not
mutable, and the repaired composite differs from the source only at the mutable boundaries.
-/

namespace ArdOssie

open Text (isSpace withoutWhitespace)

/-! ### The states of joined cells -/

/-- The states of joined texts: a hard break between every two. -/
def joinStates : List (List BoundaryState) → List BoundaryState
  | [] => []
  | [states] => states
  | states :: next :: rest => states ++ .hardBreak :: joinStates (next :: rest)

/-- The boundaries between consecutive cells, the first cell starting at `start`. -/
def betweenCells (start : ℕ) : List (List EvidenceAtom) → List ℕ
  | [] => []
  | [_] => []
  | cell :: next :: cells => (start + cell.length - 1) :: betweenCells (start + cell.length) (next :: cells)

private theorem spacingStates_joinCells {texts : List Text} (h : ∀ t ∈ texts, Trimmed t) :
    spacingStates (joinCells texts) = joinStates (texts.map spacingStates) := by
  induction texts with
  | nil => rfl
  | cons a texts ih =>
    cases texts with
    | nil =>
      rw [show joinCells [a] = a by simp [joinCells, List.intercalate]]
      rfl
    | cons b texts =>
      have ih := ih fun t ht => h t (by simp [ht])
      rw [spacingStates, joinCells, gaps_intercalate h, List.map_append, List.map_cons, ← joinCells, ← spacingStates,
        ← spacingStates, ih]
      rfl

private theorem regularText_joinCells {texts : List Text} (h : ∀ t ∈ texts, Trimmed t) (hne : texts ≠ []) :
    RegularText (joinCells texts) ↔ ∀ t ∈ texts, RegularText t := by
  rw [RegularText, joinCells, and_iff_right (trimmed_intercalate h hne), regular_intercalate h]
  exact ⟨fun hall t ht => ⟨h t ht, hall t ht⟩, fun hall t ht => (hall t ht).2⟩

private theorem withoutWhitespace_joinCells {parts : List CellPart} {f : CellPart → Text}
    (h : ∀ part ∈ parts, withoutWhitespace (f part) = atomsText part.characters) :
    withoutWhitespace (joinCells (parts.map f)) = atomsText (parts.flatMap (·.characters)) := by
  rw [joinCells, withoutWhitespace_intercalate (by decide), List.flatMap_map]
  induction parts with
  | nil => rfl
  | cons part parts ih =>
    have ih := ih fun p hp => h p (by simp [hp])
    rw [List.flatMap_cons, List.flatMap_cons, h part (by simp), ih]
    exact (List.flatMap_append ..).symm

/-- The states of the first cell stand before a hard break and the states of the others. -/
private theorem getElem?_joinStates_cons {states : List BoundaryState} {count : ℕ} (hcount : states.length + 1 = count)
    (rest : List (List BoundaryState)) (j : ℕ) :
    (joinStates (states :: rest))[j]? =
      if j + 1 < count then states[j]?
      else if j + 1 = count then (if rest = [] then none else some .hardBreak)
      else (joinStates rest)[j - count]? := by
  cases rest with
  | nil =>
    show states[j]? = _
    split
    · rfl
    · rw [List.getElem?_eq_none (by omega)]
      split
      · rfl
      · rfl
  | cons next rest =>
    show (states ++ .hardBreak :: joinStates (next :: rest))[j]? = _
    split
    · rw [List.getElem?_append_left (by omega)]
    · rw [List.getElem?_append_right (by omega)]
      split
      · rw [show j - states.length = 0 by omega]
        simp
      · rw [show j - states.length = (j - count) + 1 by omega, List.getElem?_cons_succ]

private theorem le_of_mem_compositeIndexes {parts : List CellPart} {start i : ℕ} (h : i ∈ compositeIndexes start parts) :
    start ≤ i := by
  induction parts generalizing start with
  | nil => cases h
  | cons part parts ih =>
    rw [compositeIndexes] at h
    rcases List.mem_append.1 h with h | h
    · obtain ⟨j, -, rfl⟩ := List.mem_map.1 h
      omega
    · have := ih h
      omega

private theorem le_of_mem_betweenCells {cells : List (List EvidenceAtom)} (h : ∀ cell ∈ cells, cell ≠ []) {start i : ℕ}
    (hi : i ∈ betweenCells start cells) : start ≤ i := by
  induction cells generalizing start with
  | nil => cases hi
  | cons cell cells ih =>
    cases cells with
    | nil => cases hi
    | cons next cells =>
      have hpos := List.length_pos_iff.2 (h cell (by simp))
      rw [betweenCells] at hi
      rcases List.mem_cons.1 hi with rfl | hi
      · omega
      · have := ih (fun c hc => h c (by simp [hc])) hi
        omega

/-- A part over single characters: its states stand between its characters. -/
private structure PartCount (part : CellPart) : Prop where
  spec : PartSpec part
  current : (spacingStates part.current).length + 1 = part.characters.length
  repaired : (spacingStates part.repaired).length + 1 = part.characters.length

private theorem partCount {part : CellPart} (h : PartSpec part) (hsingle : ∀ a ∈ part.characters, a.text.length = 1) :
    PartCount part := by
  have hlength := (length_atomsText_iff _).2 hsingle
  have hpos := List.length_pos_iff.2 h.characters.nonempty
  refine ⟨h, ?_, ?_⟩
  · rw [length_spacingStates, h.current]
    omega
  · rw [length_spacingStates, h.conserves]
    omega

/-- A place belongs to the first cell or to one of the others. -/
private theorem mem_compositeIndexes_cons {part : CellPart} (h : PartCount part) {parts : List CellPart} (start j : ℕ) :
    start + j ∈ compositeIndexes start (part :: parts) ↔ (j ∈ part.indexes ∧ j + 1 < part.characters.length) ∨
      (part.characters.length ≤ j ∧
        (start + part.characters.length) + (j - part.characters.length) ∈
          compositeIndexes (start + part.characters.length) parts) := by
  rw [compositeIndexes, List.mem_append, List.mem_map]
  constructor
  · rintro (⟨i, hi, heq⟩ | hmem)
    · have hij : i = j := by omega
      have hinside := h.spec.inside i hi
      have hcount := h.current
      exact Or.inl ⟨hij ▸ hi, by omega⟩
    · have hle := le_of_mem_compositeIndexes hmem
      refine Or.inr ⟨by omega, ?_⟩
      rwa [show start + part.characters.length + (j - part.characters.length) = start + j by omega]
  · rintro (⟨hj, -⟩ | ⟨hle, hmem⟩)
    · exact Or.inl ⟨j, hj, rfl⟩
    · rw [show start + part.characters.length + (j - part.characters.length) = start + j by omega] at hmem
      exact Or.inr hmem

section Composite

variable {parts : List CellPart}

private theorem compositeIndexes_increasing (h : ∀ part ∈ parts, PartCount part) (start : ℕ) :
    (compositeIndexes start parts).Pairwise (· < ·) := by
  induction parts generalizing start with
  | nil => exact List.Pairwise.nil
  | cons part parts ih =>
    have hpart := h part (by simp)
    rw [compositeIndexes, List.pairwise_append]
    refine ⟨?_, ih (fun p hp => h p (by simp [hp])) _, ?_⟩
    · rw [List.pairwise_map]
      exact hpart.spec.increasing.imp fun hlt => by omega
    · intro i hi k hk
      obtain ⟨j, hj, rfl⟩ := List.mem_map.1 hi
      have hle := le_of_mem_compositeIndexes hk
      have hinside := hpart.spec.inside j hj
      have hcount := hpart.current
      omega

/-- The composite changes only at its mutable places, and there it has no whitespace after repair. -/
private theorem joinStates_repaired (h : ∀ part ∈ parts, PartCount part) (start j : ℕ) :
    (start + j ∈ compositeIndexes start parts →
      (joinStates (parts.map fun p => spacingStates p.repaired))[j]? = some .none) ∧
    (start + j ∉ compositeIndexes start parts →
      (joinStates (parts.map fun p => spacingStates p.repaired))[j]? =
        (joinStates (parts.map fun p => spacingStates p.current))[j]?) := by
  induction parts generalizing start j with
  | nil => exact ⟨(fun hmem => nomatch hmem), fun _ => rfl⟩
  | cons part parts ih =>
    have hpart := h part (by simp)
    obtain ⟨ih₁, ih₂⟩ := ih (fun p hp => h p (by simp [hp])) (start + part.characters.length) (j - part.characters.length)
    rw [mem_compositeIndexes_cons hpart, List.map_cons, List.map_cons, getElem?_joinStates_cons hpart.repaired,
      getElem?_joinStates_cons hpart.current]
    simp only [List.map_eq_nil_iff]
    constructor
    · rintro (⟨hj, hlt⟩ | ⟨hle, hmem⟩)
      · rw [if_pos hlt]
        exact hpart.spec.soft j hj
      · rw [if_neg (by omega), if_neg (by omega)]
        exact ih₁ hmem
    · intro hnot
      rw [not_or] at hnot
      by_cases hlt : j + 1 < part.characters.length
      · rw [if_pos hlt, if_pos hlt]
        exact hpart.spec.kept j fun hj => hnot.1 ⟨hj, hlt⟩
      · rw [if_neg hlt, if_neg hlt]
        by_cases heq : j + 1 = part.characters.length
        · rw [if_pos heq, if_pos heq]
        · rw [if_neg heq, if_neg heq]
          exact ih₂ fun hmem => hnot.2 ⟨by omega, hmem⟩

/-- No mutable place of the composite is a hard break exactly when none is in its cell. -/
private theorem joinStates_soft_iff (h : ∀ part ∈ parts, PartCount part) (start : ℕ) :
    (∀ j, start + j ∈ compositeIndexes start parts →
      (joinStates (parts.map fun p => spacingStates p.current))[j]? ≠ some .hardBreak) ↔
      ∀ part ∈ parts, ∀ i ∈ part.indexes, (spacingStates part.current)[i]? ≠ some .hardBreak := by
  induction parts generalizing start with
  | nil => exact iff_of_true (fun j hj => nomatch hj) (by simp)
  | cons part parts ih =>
    have hpart := h part (by simp)
    rw [List.forall_mem_cons, ← ih (fun p hp => h p (by simp [hp])) (start + part.characters.length)]
    have hinside : ∀ i ∈ part.indexes, i + 1 < part.characters.length := by
      intro i hi
      have hlt := hpart.spec.inside i hi
      have hcount := hpart.current
      omega
    constructor
    · intro hall
      refine ⟨fun i hi => ?_, fun j hj => ?_⟩
      · have hsoft := hall i ((mem_compositeIndexes_cons hpart start i).2 (Or.inl ⟨hi, hinside i hi⟩))
        rw [List.map_cons, getElem?_joinStates_cons hpart.current, if_pos (hinside i hi)] at hsoft
        exact hsoft
      · have hplace : j + part.characters.length - part.characters.length = j := by omega
        have hsoft := hall (j + part.characters.length) ((mem_compositeIndexes_cons hpart start _).2
          (Or.inr ⟨by omega, by rw [hplace]; exact hj⟩))
        rw [List.map_cons, getElem?_joinStates_cons hpart.current, if_neg (by omega), if_neg (by omega), hplace] at hsoft
        exact hsoft
    · rintro ⟨hfirst, hrest⟩ j hj
      rw [List.map_cons, getElem?_joinStates_cons hpart.current]
      rcases (mem_compositeIndexes_cons hpart start j).1 hj with ⟨hi, hlt⟩ | ⟨hle, hmem⟩
      · rw [if_pos hlt]
        exact hfirst j hi
      · rw [if_neg (by omega), if_neg (by omega)]
        exact hrest _ hmem

/-- The boundary between two cells is a hard break and is not mutable. -/
private theorem betweenCells_spec (h : ∀ part ∈ parts, PartCount part) {f : CellPart → Text}
    (hf : ∀ part ∈ parts, (spacingStates (f part)).length + 1 = part.characters.length) (start j : ℕ)
    (hj : start + j ∈ betweenCells start (parts.map (·.characters))) :
    (joinStates (parts.map fun p => spacingStates (f p)))[j]? = some .hardBreak ∧
      start + j ∉ compositeIndexes start parts := by
  induction parts generalizing start j with
  | nil => cases hj
  | cons part parts ih =>
    have hpart := h part (by simp)
    have hpos := List.length_pos_iff.2 hpart.spec.characters.nonempty
    cases parts with
    | nil => cases hj
    | cons next parts =>
      have hcells : ∀ cell ∈ (next :: parts).map (·.characters), cell ≠ [] := by
        intro cell hcell
        obtain ⟨p, hp, rfl⟩ := List.mem_map.1 hcell
        exact (h p (by simp [List.mem_cons.1 hp])).spec.characters.nonempty
      rw [mem_compositeIndexes_cons hpart, List.map_cons, getElem?_joinStates_cons (hf part (by simp))]
      rw [List.map_cons, List.map_cons, betweenCells, ← List.map_cons] at hj
      rcases List.mem_cons.1 hj with heq | hmem
      · have hplace : j + 1 = part.characters.length := by omega
        rw [if_neg (by omega), if_pos hplace, if_neg (by simp)]
        refine ⟨rfl, ?_⟩
        rintro (⟨-, hlt⟩ | ⟨hle, -⟩) <;> omega
      · have hle := le_of_mem_betweenCells hcells hmem
        have hplace : start + part.characters.length + (j - part.characters.length) = start + j := by omega
        obtain ⟨hstate, hnot⟩ := ih (fun p hp => h p (by simp [List.mem_cons.1 hp]))
          (fun p hp => hf p (by simp [List.mem_cons.1 hp])) (start + part.characters.length)
          (j - part.characters.length) (by rw [hplace]; exact hmem)
        rw [if_neg (by omega), if_neg (by omega)]
        refine ⟨hstate, ?_⟩
        rintro (⟨-, hlt⟩ | ⟨-, hmutable⟩)
        · omega
        · exact hnot hmutable

end Composite

/-! ### The candidates of the composite -/

private theorem validateMutable_iff {f : SpacingFields} {indexes : List ℕ}
    (hf : f.mutableBoundaryIndexes = some (indexes.map Int.ofNat)) (hincreasing : indexes.Pairwise (· < ·))
    (hinside : ∀ i ∈ indexes, i < f.boundaries.length) :
    f.validateMutable = .ok () ↔ ∀ i ∈ indexes, (f.boundaries.map (·.state))[i]? ≠ some .hardBreak := by
  have hboundary : ∀ i : ℕ, f.boundary (Int.ofNat i) = f.boundaries[i]? := by
    intro i
    rw [SpacingFields.boundary, if_pos (show (0 : ℤ) ≤ Int.ofNat i from Int.natCast_nonneg i)]
    rfl
  have hints : (indexes.map Int.ofNat).Pairwise (· < ·) := by
    rw [List.pairwise_map]
    exact hincreasing.imp fun hlt => Int.ofNat_lt.2 hlt
  have hnodup : (indexes.map Int.ofNat).Nodup := hints.imp fun hlt => ne_of_lt hlt
  have hsorted : sortBy id (indexes.map Int.ofNat).eraseDups = indexes.map Int.ofNat := by
    have hdups : ((indexes.map Int.ofNat).eraseDups.map id).Nodup := by
      rw [List.map_id]
      exact nodup_eraseDups _
    have hperm : (sortBy id (indexes.map Int.ofNat).eraseDups).Perm (indexes.map Int.ofNat) := by
      refine (sortBy_perm _ _).trans ((List.perm_ext_iff_of_nodup (nodup_eraseDups _) hnodup).2 fun i => ?_)
      rw [List.mem_eraseDups]
    exact eq_of_pairwise_key_lt (sortBy_pairwise_lt hdups) hints hperm
  have hvalid : ¬ (sortBy id (indexes.map Int.ofNat).eraseDups ≠ indexes.map Int.ofNat ∨
      ∃ i ∈ indexes.map Int.ofNat, f.boundary i = none) := by
    rw [not_or, not_not]
    refine ⟨hsorted, ?_⟩
    rintro ⟨i, hi, hnone⟩
    obtain ⟨k, hk, rfl⟩ := List.mem_map.1 hi
    rw [hboundary, List.getElem?_eq_none_iff] at hnone
    have hlt := hinside k hk
    omega
  rw [SpacingFields.validateMutable, hf]
  show (raiseIf _ _ >>= fun _ => raiseIf _ _) = .ok () ↔ _
  rw [raiseIf_bind_eq_ok, and_iff_right hvalid, raiseIf_eq_ok]
  constructor
  · intro h i hi hstate
    rw [List.getElem?_map, Option.map_eq_some_iff] at hstate
    obtain ⟨b, hb, hhard⟩ := hstate
    exact h ⟨Int.ofNat i, List.mem_map_of_mem hi, b, by rw [hboundary, hb]; rfl, hhard⟩
  · rintro h ⟨i, hi, b, hb, hhard⟩
    obtain ⟨k, hk, rfl⟩ := List.mem_map.1 hi
    rw [hboundary] at hb
    refine h k hk ?_
    rw [List.getElem?_map, Option.mem_def.1 hb, Option.map_some, hhard]

/-- The parts of a table. -/
structure TableParts (parts : List CellPart) : Prop where
  spec : ∀ part ∈ parts, PartSpec part
  nodup : ((parts.flatMap (·.characters)).map (·.atomId)).Nodup

private theorem TableParts.characters {parts : List CellPart} (h : TableParts parts) (hne : parts ≠ []) :
    CellCharacters (parts.flatMap (·.characters)) := by
  obtain ⟨part, rest, rfl⟩ := List.exists_cons_of_ne_nil hne
  refine ⟨?_, ?_, h.nodup⟩
  · rw [List.flatMap_cons]
    exact List.append_ne_nil_of_left_ne_nil (h.spec part (by simp)).characters.nonempty _
  · intro c hc
    obtain ⟨a, ha, hc⟩ := List.mem_flatMap.1 hc
    obtain ⟨p, hp, ha⟩ := List.mem_flatMap.1 ha
    exact (h.spec p hp).characters.visible c (List.mem_flatMap.2 ⟨a, ha, hc⟩)

/-- The identifier of the candidate of the composite with a text. -/
def compositeId (platform : Platform) (regionId : RegionId) (parts : List CellPart) (t : Text) : CandidateId :=
  let atomIds := (parts.flatMap (·.characters)).map (·.atomId)
  spacingCandidateId platform regionId t atomIds (List.replicate (atomIds.length - 1) [])
    (some ((compositeIndexes 0 parts).map Int.ofNat))

section Composite

variable {platform : Platform} {regionId : RegionId} {parts : List CellPart} {score : Score}
  {features : List (String × ℚ)}

/-- What a candidate of the composite has. -/
private structure CompositeOf (platform : Platform) (regionId : RegionId) (parts : List CellPart) (f : CellPart → Text)
    (score : Score) (c : SpacingCandidate) : Prop where
  candidateId : c.candidateId = compositeId platform regionId parts (joinCells (parts.map f))
  regionId : c.regionId = regionId
  score : c.score = score
  renderedText : c.renderedText = joinCells (parts.map f)
  conserves : withoutWhitespace c.renderedText = atomsText (parts.flatMap (·.characters))
  indexes : c.mutableBoundaryIndexes = some ((compositeIndexes 0 parts).map Int.ofNat)
  states : c.boundaries.map (·.state) = joinStates (parts.map fun p => spacingStates (f p))

private theorem compositeOf_of_eq_ok {f : CellPart → Text}
    (hconserves : ∀ part ∈ parts, withoutWhitespace (f part) = atomsText part.characters)
    (htrimmed : ∀ part ∈ parts, Trimmed (f part)) {c : SpacingCandidate}
    (h : compositeCandidate platform regionId parts (joinCells (parts.map f)) score features = .ok c) :
    CompositeOf platform regionId parts f score c := by
  obtain ⟨hlength, hfields⟩ := (makeSpacingCandidate_eq_ok List.length_replicate).1 h
  have hjoined := withoutWhitespace_joinCells hconserves
  refine ⟨by rw [hfields]; rfl, by rw [hfields]; rfl, by rw [hfields]; rfl, by rw [hfields]; rfl, ?_,
    by rw [hfields]; rfl, ?_⟩
  · rw [hfields]
    exact hjoined
  · have hstates : (textBoundaries (joinCells (parts.map f)) ((parts.flatMap (·.characters)).map (·.atomId))
      (List.replicate (((parts.flatMap (·.characters)).map (·.atomId)).length - 1) [])).map (·.state) = _ :=
      states_textBoundaries List.length_replicate hlength
    have htexts : ∀ t ∈ parts.map f, Trimmed t := by
      intro t ht
      obtain ⟨p, hp, rfl⟩ := List.mem_map.1 ht
      exact htrimmed p hp
    rw [hfields]
    show (textBoundaries _ _ _).map (·.state) = _
    rw [hstates, ← spacingStates, spacingStates_joinCells htexts, List.map_map]
    rfl

/-- A candidate of the composite is made when the cells have single characters and regular texts, and no mutable
boundary is a hard break. -/
private theorem exists_compositeCandidate_iff (hparts : TableParts parts) (hne : parts ≠ []) {f : CellPart → Text}
    (hconserves : ∀ part ∈ parts, withoutWhitespace (f part) = atomsText part.characters)
    (htrimmed : ∀ part ∈ parts, Trimmed (f part)) :
    (∃ c, compositeCandidate platform regionId parts (joinCells (parts.map f)) score features = .ok c) ↔
      (∀ part ∈ parts, ∀ a ∈ part.characters, a.text.length = 1) ∧ (∀ part ∈ parts, RegularText (f part)) ∧
        ∀ j ∈ compositeIndexes 0 parts,
          (joinStates (parts.map fun p => spacingStates (f p)))[j]? ≠ some .hardBreak := by
  have htexts : ∀ t ∈ parts.map f, Trimmed t := by
    intro t ht
    obtain ⟨p, hp, rfl⟩ := List.mem_map.1 ht
    exact htrimmed p hp
  have hjoined := withoutWhitespace_joinCells hconserves
  have hcharacters := hparts.characters hne
  have hsingles : (∀ a ∈ parts.flatMap (·.characters), a.text.length = 1) ↔
      ∀ part ∈ parts, ∀ a ∈ part.characters, a.text.length = 1 := List.forall_mem_flatMap
  have hregulars : RegularText (joinCells (parts.map f)) ↔ ∀ part ∈ parts, RegularText (f part) := by
    rw [regularText_joinCells htexts (by simpa using hne), List.forall_mem_map]
  rw [compositeCandidate]
  dsimp only
  rw [exists_cellCandidate_iff hcharacters hjoined, hsingles, hregulars]
  refine and_congr_right fun hsingle => and_congr_right fun _ => ?_
  have hcounts : ∀ part ∈ parts, PartCount part := fun part hp => partCount (hparts.spec part hp) (hsingle part hp)
  have hlength : (withoutWhitespace (joinCells (parts.map f))).length =
      ((parts.flatMap (·.characters)).map (·.atomId)).length := by
    rw [hjoined, List.length_map, length_atomsText_iff]
    exact hsingles.2 hsingle
  have hstates : (textBoundaries (joinCells (parts.map f)) ((parts.flatMap (·.characters)).map (·.atomId))
    (List.replicate (((parts.flatMap (·.characters)).map (·.atomId)).length - 1) [])).map (·.state) = _ :=
    states_textBoundaries List.length_replicate hlength
  rw [← spacingStates, spacingStates_joinCells htexts, List.map_map] at hstates
  have hrepaired : (joinStates (parts.map fun p => spacingStates p.repaired)).length =
      (joinStates (parts.map fun p => spacingStates (f p))).length := by
    have htexts' : ∀ t ∈ parts.map (·.repaired), Trimmed t := by
      intro t ht
      obtain ⟨p, hp, rfl⟩ := List.mem_map.1 ht
      exact (hparts.spec p hp).repairedTrimmed
    have h₁ := congrArg List.length (spacingStates_joinCells htexts)
    have h₂ := congrArg List.length (spacingStates_joinCells htexts')
    rw [length_spacingStates, hjoined, List.map_map] at h₁
    rw [length_spacingStates, withoutWhitespace_joinCells fun p hp => (hparts.spec p hp).conserves, List.map_map] at h₂
    exact h₂.symm.trans h₁
  rw [validateMutable_iff rfl (compositeIndexes_increasing hcounts 0)]
  · show (∀ i ∈ compositeIndexes 0 parts, ((textBoundaries _ _ _).map (·.state))[i]? ≠ some .hardBreak) ↔ _
    rw [hstates]
    rfl
  · intro i hi
    have hsome := (joinStates_repaired hcounts 0 i).1 (by rwa [Nat.zero_add])
    have hlt := (List.getElem?_eq_some_iff.1 hsome).1
    have hcount := congrArg List.length hstates
    rw [List.length_map] at hcount
    show i < (textBoundaries _ _ _).length
    rw [hcount]
    exact hrepaired ▸ hlt

end Composite

/-! ### The set of the composite -/

/-- A composite is made: some boundary is mutable and some cell is repaired. -/
def CompositeMade (parts : List CellPart) : Prop :=
  compositeIndexes 0 parts ≠ [] ∧ parts.map (·.current) ≠ parts.map (·.repaired)

/-- The composite is made without raising: its cells have single characters and regular texts, no repair removes a
hard break, and the hashes of its two candidates differ. -/
structure CompositeSound (platform : Platform) (regionId : RegionId) (parts : List CellPart) : Prop where
  single : ∀ part ∈ parts, ∀ a ∈ part.characters, a.text.length = 1
  regular : ∀ part ∈ parts, RegularText part.current
  soft : ∀ part ∈ parts, ∀ i ∈ part.indexes, (spacingStates part.current)[i]? ≠ some .hardBreak
  identifiers : textDefectCodes platform (joinCells (parts.map (·.repaired))) = [] →
    compositeId platform regionId parts (joinCells (parts.map (·.current))) ≠
      compositeId platform regionId parts (joinCells (parts.map (·.repaired)))

/-- The candidates keep the characters in the order of the cells and the hard breaks between the cells, and differ only
at mutable boundaries inside cells. -/
structure CellSafe (cells : List (List EvidenceAtom)) (set : CandidateSet) : Prop where
  conserves : ∀ c ∈ set.candidates, ∃ s : SpacingCandidate, c = .spacing s ∧
    withoutWhitespace s.renderedText = atomsText cells.flatten
  between : ∀ s ∈ set.spacingCandidates, ∀ i ∈ betweenCells 0 cells,
    (s.boundaries.map (·.state))[i]? = some .hardBreak ∧
      ∃ indexes, s.mutableBoundaryIndexes = some indexes ∧ (i : ℤ) ∉ indexes
  differ : ∀ s ∈ set.spacingCandidates, ∀ s' ∈ set.spacingCandidates, ∀ i : ℕ,
    (s.boundaries.map (·.state))[i]? ≠ (s'.boundaries.map (·.state))[i]? → i ∉ betweenCells 0 cells ∧
      ∃ indexes, s.mutableBoundaryIndexes = some indexes ∧ s'.mutableBoundaryIndexes = some indexes ∧ (i : ℤ) ∈ indexes

section CompositeSet

variable {platform : Platform} {hash : Sha256} {regionId : RegionId} {parts : List CellPart}

private theorem mem_indexes {i : ℕ} : (i : ℤ) ∈ (compositeIndexes 0 parts).map Int.ofNat ↔ i ∈ compositeIndexes 0 parts := by
  rw [List.mem_map]
  constructor
  · rintro ⟨k, hk, heq⟩
    exact Int.ofNat.inj heq ▸ hk
  · exact fun hi => ⟨i, hi, rfl⟩

/-- The two candidates of the composite are safe. -/
private theorem cellSafe_of_composite (hcounts : ∀ part ∈ parts, PartCount part) {source repaired : SpacingCandidate}
    {score score' : Score} (hsource : CompositeOf platform regionId parts (·.current) score source)
    (hrepaired : CompositeOf platform regionId parts (·.repaired) score' repaired) {set : CandidateSet}
    (hset : ∀ c, c ∈ set.candidates ↔ c = .spacing source ∨ c = .spacing repaired) :
    CellSafe (parts.map (·.characters)) set := by
  have hflatten : (parts.map (·.characters)).flatten = parts.flatMap (·.characters) := rfl
  have hspacing : ∀ s ∈ set.spacingCandidates, s = source ∨ s = repaired := by
    intro s hs
    obtain ⟨c, hc, hcs⟩ := List.mem_filterMap.1 hs
    rcases (hset c).1 hc with rfl | rfl
    · exact Or.inl (Option.some_inj.1 hcs).symm
    · exact Or.inr (Option.some_inj.1 hcs).symm
  have hstates : ∀ i, (source.boundaries.map (·.state))[i]? ≠ (repaired.boundaries.map (·.state))[i]? →
      i ∈ compositeIndexes 0 parts := by
    intro i hne
    by_contra hnot
    rw [hsource.states, hrepaired.states] at hne
    refine hne ((joinStates_repaired hcounts 0 i).2 ?_).symm
    rwa [Nat.zero_add]
  have hnotBetween : ∀ i ∈ compositeIndexes 0 parts, i ∉ betweenCells 0 (parts.map (·.characters)) := by
    intro i hi hbetween
    have hspec := betweenCells_spec hcounts (f := (·.current)) (fun p hp => (hcounts p hp).current) 0 i
      (by rwa [Nat.zero_add])
    rw [Nat.zero_add] at hspec
    exact hspec.2 hi
  refine ⟨fun c hc => ?_, fun s hs i hi => ?_, fun s hs s' hs' i hne => ?_⟩
  · rw [hflatten]
    rcases (hset c).1 hc with rfl | rfl
    · exact ⟨source, rfl, hsource.conserves⟩
    · exact ⟨repaired, rfl, hrepaired.conserves⟩
  · have hplace : 0 + i ∈ betweenCells 0 (parts.map (·.characters)) := by rwa [Nat.zero_add]
    rcases hspacing s hs with rfl | rfl
    · obtain ⟨hstate, hnot⟩ := betweenCells_spec hcounts (fun p hp => (hcounts p hp).current) 0 i hplace
      rw [Nat.zero_add] at hnot
      exact ⟨by rw [hsource.states]; exact hstate, _, hsource.indexes, fun h => hnot (mem_indexes.1 h)⟩
    · obtain ⟨hstate, hnot⟩ := betweenCells_spec hcounts (fun p hp => (hcounts p hp).repaired) 0 i hplace
      rw [Nat.zero_add] at hnot
      exact ⟨by rw [hrepaired.states]; exact hstate, _, hrepaired.indexes, fun h => hnot (mem_indexes.1 h)⟩
  · have hmem : i ∈ compositeIndexes 0 parts := by
      rcases hspacing s hs with rfl | rfl <;> rcases hspacing s' hs' with rfl | rfl
      · exact absurd rfl hne
      · exact hstates i hne
      · exact hstates i hne.symm
      · exact absurd rfl hne
    have hindexes : ∀ t ∈ set.spacingCandidates,
        t.mutableBoundaryIndexes = some ((compositeIndexes 0 parts).map Int.ofNat) := by
      intro t ht
      rcases hspacing t ht with rfl | rfl
      · exact hsource.indexes
      · exact hrepaired.indexes
    exact ⟨hnotBetween i hmem, _, hindexes s hs, hindexes s' hs', mem_indexes.2 hmem⟩

/-- The composite is made without raising, and safe, exactly when it is sound. -/
private theorem compositeSet_iff (hparts : TableParts parts) :
    (∃ r, compositeSet platform hash regionId parts = .ok r ∧ ∀ set ∈ r, CellSafe (parts.map (·.characters)) set) ↔
      (CompositeMade parts → CompositeSound platform regionId parts) := by
  by_cases hmade : CompositeMade parts
  swap
  · have hnone : compositeSet platform hash regionId parts = .ok none := by
      rw [compositeSet, if_pos]
      · rfl
      · unfold CompositeMade at hmade
        tauto
    exact iff_of_true ⟨none, hnone, fun set h => nomatch h⟩ fun h => absurd h hmade
  have hne : parts ≠ [] := by
    rintro rfl
    exact hmade.1 rfl
  have hstart : ¬ (compositeIndexes 0 parts = [] ∨ parts.map (·.current) = parts.map (·.repaired)) := by
    unfold CompositeMade at hmade
    tauto
  have hcurrent := fun part hp => (hparts.spec part hp).current
  have htrimmed := fun part hp => (hparts.spec part hp).trimmed
  have hconserves := fun part hp => (hparts.spec part hp).conserves
  have hrepairedTrimmed := fun part hp => (hparts.spec part hp).repairedTrimmed
  have hcounts : (∀ part ∈ parts, ∀ a ∈ part.characters, a.text.length = 1) → ∀ part ∈ parts, PartCount part :=
    fun hsingle part hp => partCount (hparts.spec part hp) (hsingle part hp)
  have hsoft : (∀ part ∈ parts, ∀ a ∈ part.characters, a.text.length = 1) →
      ((∀ j ∈ compositeIndexes 0 parts,
        (joinStates (parts.map fun p => spacingStates p.current))[j]? ≠ some .hardBreak) ↔
        ∀ part ∈ parts, ∀ i ∈ part.indexes, (spacingStates part.current)[i]? ≠ some .hardBreak) := by
    intro hsingle
    have hiff := joinStates_soft_iff (hcounts hsingle) 0
    simpa only [Nat.zero_add] using hiff
  rw [forall_prop_of_true hmade, compositeSet, if_neg hstart]
  constructor
  · -- the candidate of the source texts exists, and a set of both candidates has two identifiers
    rintro ⟨r, hr, -⟩
    obtain ⟨source, hsource, hr⟩ := bind_eq_ok.1 hr
    obtain ⟨repaired, hrepaired, hr⟩ := bind_eq_ok.1 hr
    obtain ⟨hsingle, hregular, hplaces⟩ := (exists_compositeCandidate_iff hparts hne hcurrent htrimmed).1 ⟨source, hsource⟩
    refine ⟨hsingle, hregular, (hsoft hsingle).1 hplaces, fun hdefects => ?_⟩
    have hs := compositeOf_of_eq_ok hcurrent htrimmed hsource
    have ht := compositeOf_of_eq_ok hconserves hrepairedTrimmed hrepaired
    have hcodes : spacingDefectCodes platform repaired = [] := by
      rw [spacingDefectCodes, ht.renderedText]
      exact hdefects
    rw [if_neg (not_not.2 hcodes)] at hr
    obtain ⟨set, hset, -⟩ := bind_eq_ok.1 hr
    have hnodup := set.candidateIds_nodup
    obtain ⟨-, -, -, -, hcandidates⟩ := make_eq_ok_iff_candidates.1 hset
    rw [hcandidates, List.map_map] at hnodup
    have hpair := nodup_map_sortBy.1 hnodup
    have hids : (Candidate.spacing source).candidateId ≠ (Candidate.spacing repaired).candidateId := by simpa using hpair
    rw [← hs.candidateId, ← ht.candidateId]
    exact hids
  · -- both candidates are made, and with defects in the repaired one there is no set
    rintro ⟨hsingle, hregular, hpartsSoft, hidentifiers⟩
    have hexists : ∃ c, compositeCandidate platform regionId parts (joinCells (parts.map (·.current)))
        ⟨45 / 100, by norm_num⟩ [("source_spacing", 45 / 100), ("table_cell_composite", 1)] = .ok c :=
      (exists_compositeCandidate_iff hparts hne hcurrent htrimmed).2 ⟨hsingle, hregular, (hsoft hsingle).2 hpartsSoft⟩
    have hexists' : ∃ c, compositeCandidate platform regionId parts (joinCells (parts.map (·.repaired)))
        (repairedScore parts) [("table_cell_composite", 1), ("table_cell_repair", (repairedScore parts).val)] = .ok c := by
      refine (exists_compositeCandidate_iff hparts hne hconserves hrepairedTrimmed).2
        ⟨hsingle, fun part hp => (hparts.spec part hp).regular (hregular part hp), fun j hj => ?_⟩
      rw [(joinStates_repaired (hcounts hsingle) 0 j).1 (by rwa [Nat.zero_add])]
      simp
    obtain ⟨source, hsource⟩ := hexists
    obtain ⟨repaired, hrepaired⟩ := hexists'
    have hs := compositeOf_of_eq_ok hcurrent htrimmed hsource
    have ht := compositeOf_of_eq_ok hconserves hrepairedTrimmed hrepaired
    rw [hsource, ok_bind, hrepaired, ok_bind]
    by_cases hcodes : spacingDefectCodes platform repaired = []
    swap
    · rw [if_pos hcodes]
      exact ⟨none, rfl, fun set h => nomatch h⟩
    rw [if_neg (not_not.2 hcodes)]
    rw [spacingDefectCodes, ht.renderedText] at hcodes
    have hids : (Candidate.spacing source).candidateId ≠ (Candidate.spacing repaired).candidateId := by
      show source.candidateId ≠ repaired.candidateId
      rw [hs.candidateId, ht.candidateId]
      exact hidentifiers hcodes
    have hmem : ∀ s, s ∈ sortBy (fun c : SpacingCandidate => toLex (-c.score.val, c.candidateId.value))
        [source, repaired] ↔ s = source ∨ s = repaired := by
      intro s
      rw [mem_sortBy]
      simp
    let set : CandidateSet :=
      { candidateSetId := makeCandidateSetId platform hash regionId ((sortBy (fun c : SpacingCandidate =>
          toLex (-c.score.val, c.candidateId.value)) [source, repaired]).map (·.candidateId))
        sourceHash := hash
        regionId := regionId
        decisionType := .spacing
        candidates := (sortBy (fun c : SpacingCandidate => toLex (-c.score.val, c.candidateId.value))
          [source, repaired]).map .spacing
        candidates_mem := by
          rw [List.length_map, length_sortBy]
          exact ⟨by simp, by simp⟩
        candidateIds_nodup := by
          rw [List.map_map]
          refine nodup_map_sortBy.2 ?_
          simpa using hids
        candidates_scope := by
          intro c hc
          obtain ⟨s, hmems, rfl⟩ := List.mem_map.1 hc
          refine ⟨?_, rfl⟩
          rcases (hmem s).1 hmems with rfl | rfl
          · exact hs.regionId
          · exact ht.regionId }
    refine ⟨some set, bind_eq_ok.2 ⟨set, make_eq_ok_iff_candidates.2 ⟨rfl, rfl, rfl, rfl, rfl⟩, rfl⟩, fun set' hset' => ?_⟩
    cases Option.mem_some_iff.1 hset'
    refine cellSafe_of_composite (hcounts hsingle) hs ht fun c => ?_
    show c ∈ List.map _ _ ↔ _
    rw [List.mem_map]
    constructor
    · rintro ⟨s, hmems, rfl⟩
      rcases (hmem s).1 hmems with rfl | rfl
      · exact Or.inl rfl
      · exact Or.inr rfl
    · rintro (rfl | rfl)
      · exact ⟨source, (hmem _).2 (Or.inl rfl), rfl⟩
      · exact ⟨repaired, (hmem _).2 (Or.inr rfl), rfl⟩

end CompositeSet

/-! ### The cells of the table -/

/-- The atoms of a cell. -/
def cellAtoms (evidence : EvidenceDocument) (cell : TableCellCandidate) : List EvidenceAtom :=
  cell.atomIds.filterMap evidence.atomCatalog.lookup

/-- The visible atoms of the cells that have some, in the order of the cells. -/
def tableCells (table : TableCandidate) (evidence : EvidenceDocument) : List (List EvidenceAtom) :=
  ((sortBy cellPlace table.cells).map fun cell => visibleAtoms (cellAtoms evidence cell)).filter (· ≠ [])

/-- The text of a cell that has visible atoms. -/
def cellText (evidence : EvidenceDocument) (cell : TableCellCandidate) : Option Text :=
  if visibleAtoms (cellAtoms evidence cell) = [] then none else some (currentText cell (cellAtoms evidence cell))

/-- The texts of the cells that have visible atoms, in the order of the cells. -/
def cellTexts (table : TableCandidate) (evidence : EvidenceDocument) : List Text :=
  (sortBy cellPlace table.cells).filterMap (cellText evidence)

private theorem sublist_atomIds (evidence : EvidenceDocument) (ids : List AtomId) :
    ((visibleAtoms (ids.filterMap evidence.atomCatalog.lookup)).map (·.atomId)).Sublist ids := by
  refine (List.Sublist.map _ List.filter_sublist).trans ?_
  induction ids with
  | nil => exact List.Sublist.slnil
  | cons i ids ih =>
    rw [List.filterMap_cons]
    cases hlookup : evidence.atomCatalog.lookup i with
    | none => exact ih.cons i
    | some a =>
      have ha := (evidence.getItem_atomCatalog.1 (Dict.getItem_eq_ok.2 hlookup)).2
      rw [List.map_cons, ha]
      exact ih.cons_cons i

private theorem sublist_cellAtomIds (evidence : EvidenceDocument) (cells : List TableCellCandidate) :
    (((cells.map fun cell => visibleAtoms (cellAtoms evidence cell)).filter (· ≠ [])).flatten.map (·.atomId)).Sublist
      (cells.flatMap (·.atomIds)) := by
  induction cells with
  | nil => exact List.Sublist.slnil
  | cons cell cells ih =>
    rw [List.map_cons, List.flatMap_cons]
    by_cases hnil : visibleAtoms (cellAtoms evidence cell) = []
    · rw [List.filter_cons_of_neg (by simpa using hnil)]
      exact ih.trans (List.sublist_append_right _ _)
    · rw [List.filter_cons_of_pos (by simpa using hnil), List.flatten_cons, List.map_append]
      exact (sublist_atomIds evidence cell.atomIds).append ih

section Parts

variable (platform : Platform) (isWord : Char → Bool) (regionId : RegionId) (scorer : SpacingScorer)
  {evidence : EvidenceDocument}

private theorem cellPart_spec {cell : TableCellCandidate}
    (hknown : ∀ i ∈ cell.atomIds, i ∈ evidence.atoms.map (·.atomId)) :
    ((∃ r, cellPart platform isWord regionId scorer evidence.atomCatalog cell = .ok r) ↔
      (visibleAtoms (cellAtoms evidence cell) ≠ [] → CellReadable platform isWord scorer
        (currentText cell (cellAtoms evidence cell)) (visibleAtoms (cellAtoms evidence cell)))) ∧
      ∀ r, cellPart platform isWord regionId scorer evidence.atomCatalog cell = .ok r →
        (r = none ∧ visibleAtoms (cellAtoms evidence cell) = []) ∨
          ∃ part, r = some part ∧ part.characters = visibleAtoms (cellAtoms evidence cell) ∧
            part.current = currentText cell (cellAtoms evidence cell) ∧ PartSpec part ∧
            RepairsGaps platform isWord scorer part := by
  have hatoms : catalogAtoms evidence.atomCatalog cell.atomIds = .ok (cellAtoms evidence cell) :=
    catalogAtoms_eq_ok_iff.2 ⟨hknown, rfl⟩
  rw [cellPart, hatoms, ok_bind]
  by_cases hnil : visibleAtoms (cellAtoms evidence cell) = []
  · rw [if_pos hnil]
    refine ⟨iff_of_true ⟨none, rfl⟩ fun h => absurd hnil h, fun r hr => ?_⟩
    cases hr
    exact Or.inl ⟨rfl, hnil⟩
  · have hnodup : ((visibleAtoms (cellAtoms evidence cell)).map (·.atomId)).Nodup :=
      (sublist_atomIds evidence cell.atomIds).nodup cell.atomIds_nodup
    have hc : CellCharacters (visibleAtoms (cellAtoms evidence cell)) := ⟨hnil, atomsText_visible _, hnodup⟩
    obtain ⟨hcurrent, htrimmed⟩ := currentText_spec cell hnil
    obtain ⟨hexists, hspec⟩ := repairCell_spec platform isWord regionId scorer hc hcurrent htrimmed
    rw [if_neg hnil, forall_prop_of_true hnil, ← hexists]
    constructor
    · constructor
      · rintro ⟨r, hr⟩
        obtain ⟨part, hpart, -⟩ := bind_eq_ok.1 hr
        exact ⟨part, hpart⟩
      · rintro ⟨part, hpart⟩
        rw [hpart]
        exact ⟨_, rfl⟩
    · intro r hr
      obtain ⟨part, hpart, hr⟩ := bind_eq_ok.1 hr
      cases hr
      obtain ⟨hcharacters, htext, hpartSpec⟩ := hspec part hpart
      exact Or.inr ⟨part, rfl, hcharacters, htext, hpartSpec, gaps_of_repairCell hc hcurrent hpart⟩

/-- The parts of a table are those of its cells with visible atoms. -/
private theorem tableParts_spec {table : TableCandidate} (hknown : ∀ i ∈ table.atomIds, i ∈ evidence.atoms.map (·.atomId)) :
    ((∃ parts, tableParts platform isWord table evidence scorer = .ok parts) ↔
      ∀ cell ∈ table.cells, visibleAtoms (cellAtoms evidence cell) ≠ [] → CellReadable platform isWord scorer
        (currentText cell (cellAtoms evidence cell)) (visibleAtoms (cellAtoms evidence cell))) ∧
      ∀ parts, tableParts platform isWord table evidence scorer = .ok parts →
        parts.map (·.characters) = tableCells table evidence ∧ parts.map (·.current) = cellTexts table evidence ∧
          TableParts parts ∧ ∀ part ∈ parts, RepairsGaps platform isWord scorer part := by
  have hcells : ∀ cell ∈ table.cells, ∀ i ∈ cell.atomIds, i ∈ evidence.atoms.map (·.atomId) := fun cell hcell i hi =>
    hknown i ((table.allocations_complete i).1 (List.mem_flatMap.2 ⟨cell, hcell, hi⟩))
  constructor
  · have hmapM : (∃ parts, tableParts platform isWord table evidence scorer = .ok parts) ↔
        ∃ parts, (sortBy cellPlace table.cells).mapM
          (cellPart platform isWord table.regionId scorer evidence.atomCatalog) = .ok parts := by
      rw [tableParts]
      constructor
      · rintro ⟨parts, h⟩
        obtain ⟨found, hfound, -⟩ := bind_eq_ok.1 h
        exact ⟨found, hfound⟩
      · rintro ⟨found, hfound⟩
        rw [hfound]
        exact ⟨_, rfl⟩
    rw [hmapM, mapM_total_iff]
    constructor
    · intro h cell hcell
      exact (cellPart_spec platform isWord table.regionId scorer (hcells cell hcell)).1.1 (h cell (mem_sortBy.2 hcell))
    · intro h cell hcell
      have hcell := mem_sortBy.1 hcell
      exact (cellPart_spec platform isWord table.regionId scorer (hcells cell hcell)).1.2 (h cell hcell)
  · intro parts h
    obtain ⟨found, hfound, hparts⟩ := bind_eq_ok.1 h
    cases hparts
    have hspec : ∀ cells : List TableCellCandidate, ∀ found : List (Option CellPart), (∀ cell ∈ cells, cell ∈ table.cells) →
        List.Forall₂ (fun cell r => cellPart platform isWord table.regionId scorer evidence.atomCatalog cell = .ok r)
          cells found →
        (found.filterMap id).map (·.characters) =
          (cells.map fun cell => visibleAtoms (cellAtoms evidence cell)).filter (· ≠ []) ∧
          (found.filterMap id).map (·.current) = cells.filterMap (cellText evidence) ∧
          ∀ part ∈ found.filterMap id, PartSpec part ∧ RepairsGaps platform isWord scorer part := by
      intro cells found hmem hall
      induction hall with
      | nil => exact ⟨rfl, rfl, fun part hpart => nomatch hpart⟩
      | @cons cell r cells found hfirst _ ih =>
        obtain ⟨hmap, htexts, hparts⟩ := ih fun c hc => hmem c (by simp [hc])
        rw [List.map_cons]
        rcases (cellPart_spec platform isWord table.regionId scorer (hcells cell (hmem cell (by simp)))).2 r hfirst with
          ⟨rfl, hnil⟩ | ⟨part, rfl, hcharacters, htext, hpart, hgaps⟩
        · rw [List.filterMap_cons_none rfl, List.filter_cons_of_neg (by simpa using hnil),
            List.filterMap_cons_none (show cellText evidence cell = none from if_pos hnil)]
          exact ⟨hmap, htexts, hparts⟩
        · have hne := hpart.characters.nonempty
          rw [hcharacters] at hne
          have hsome : (some part :: found).filterMap id = part :: found.filterMap id := rfl
          have hcell : cellText evidence cell = some (currentText cell (cellAtoms evidence cell)) := if_neg hne
          rw [hsome, List.filter_cons_of_pos (by simpa using hne), List.filterMap_cons_some hcell, List.map_cons,
            List.map_cons, hcharacters, hmap, htext, htexts]
          exact ⟨rfl, rfl, List.forall_mem_cons.2 ⟨⟨hpart, hgaps⟩, hparts⟩⟩
    obtain ⟨hmap, htexts, hparts⟩ := hspec _ found (fun cell hcell => mem_sortBy.1 hcell) (mapM_eq_ok.1 hfound)
    refine ⟨hmap, htexts, ⟨fun part hpart => (hparts part hpart).1, ?_⟩, fun part hpart => (hparts part hpart).2⟩
    have hsorted : ((sortBy cellPlace table.cells).flatMap (·.atomIds)).Nodup :=
      ((sortBy_perm cellPlace table.cells).flatMap_right _).nodup_iff.2 table.allocations_nodup
    have hflatten : (found.filterMap id).flatMap (·.characters) = ((found.filterMap id).map (·.characters)).flatten := rfl
    rw [hflatten, hmap]
    exact (sublist_cellAtomIds evidence _).nodup hsorted

end Parts

/-! ### The condition on the cells -/

section Condition

variable (platform : Platform) (isWord : Char → Bool) (table : TableCandidate) (evidence : EvidenceDocument)
  (scorer : SpacingScorer)

/-- The repaired gaps of the texts, counted over all cells, the first one starting at `start`. -/
def placedGaps (start : ℕ) : List Text → List ℕ
  | [] => []
  | text :: texts =>
    (repairedGaps platform isWord scorer text).map (start + ·) ++
      placedGaps (start + (withoutWhitespace text).length) texts

/-- The identifier of the candidate with a text. -/
def tableCandidateId (t : Text) : CandidateId :=
  let atomIds := (tableCells table evidence).flatten.map (·.atomId)
  spacingCandidateId platform table.regionId t atomIds (List.replicate (atomIds.length - 1) [])
    (some ((placedGaps platform isWord scorer 0 (cellTexts table evidence)).map Int.ofNat))

/-- The texts of the cells allow the composite: the cells have single characters and regular texts, no repaired gap has
a line feed, and the hashes of the two candidates differ. -/
structure Composable : Prop where
  single : ∀ cell ∈ tableCells table evidence, ∀ a ∈ cell, a.text.length = 1
  regular : ∀ text ∈ cellTexts table evidence, RegularText text
  soft : ∀ text ∈ cellTexts table evidence, ∀ i ∈ repairedGaps platform isWord scorer text,
    ∀ gap, (gaps text)[i]? = some gap → '\n' ∉ gap
  identifiers :
    let repaired := (cellTexts table evidence).map fun text => withoutGaps text (repairedGaps platform isWord scorer text)
    textDefectCodes platform (joinCells repaired) = [] →
      tableCandidateId platform isWord table evidence scorer (joinCells (cellTexts table evidence)) ≠
        tableCandidateId platform isWord table evidence scorer (joinCells repaired)

/-- The set of a table is built: its atoms are in the evidence, the repair of every cell is decided, and the texts allow
the composite when some cell is repaired. -/
structure TableSpaceable : Prop where
  known : ∀ i ∈ table.atomIds, i ∈ evidence.atoms.map (·.atomId)
  readable : ∀ cell ∈ table.cells, visibleAtoms (cellAtoms evidence cell) ≠ [] → CellReadable platform isWord scorer
    (currentText cell (cellAtoms evidence cell)) (visibleAtoms (cellAtoms evidence cell))
  composite : (∃ text ∈ cellTexts table evidence, repairedGaps platform isWord scorer text ≠ []) →
    Composable platform isWord table evidence scorer

end Condition

section Condition

variable {platform : Platform} {isWord : Char → Bool} {table : TableCandidate} {evidence : EvidenceDocument}
  {scorer : SpacingScorer} {parts : List CellPart}

/-- A composite is made when some text has a repaired gap. -/
private theorem compositeMade_iff (htexts : parts.map (·.current) = cellTexts table evidence)
    (hgaps : ∀ part ∈ parts, RepairsGaps platform isWord scorer part) :
    CompositeMade parts ↔ ∃ text ∈ cellTexts table evidence, repairedGaps platform isWord scorer text ≠ [] := by
  have hindexes : ∀ (parts : List CellPart) (start : ℕ),
      compositeIndexes start parts ≠ [] ↔ ∃ part ∈ parts, part.indexes ≠ [] := by
    intro parts
    induction parts with
    | nil => simp [compositeIndexes]
    | cons part parts ih =>
      intro start
      rw [compositeIndexes, List.exists_mem_cons_iff, ← ih (start + part.characters.length), Ne, Ne,
        List.append_eq_nil_iff, List.map_eq_nil_iff, not_and_or]
  have hrepaired : (∃ part ∈ parts, part.indexes ≠ []) ↔
      ∃ text ∈ cellTexts table evidence, repairedGaps platform isWord scorer text ≠ [] := by
    rw [← htexts]
    constructor
    · rintro ⟨part, hpart, hne⟩
      exact ⟨_, List.mem_map_of_mem hpart, (hgaps part hpart).indexes ▸ hne⟩
    · rintro ⟨text, htext, hne⟩
      obtain ⟨part, hpart, rfl⟩ := List.mem_map.1 htext
      exact ⟨part, hpart, (hgaps part hpart).indexes ▸ hne⟩
  rw [CompositeMade, hindexes, hrepaired, and_iff_left_iff_imp, ← hrepaired]
  rintro ⟨part, hpart, hne⟩ hsame
  exact (hgaps part hpart).changed hne (List.map_inj_left.1 hsame part hpart)

private theorem hardBreak_iff {text : Text} {i : ℕ} :
    (spacingStates text)[i]? ≠ some .hardBreak ↔ ∀ gap, (gaps text)[i]? = some gap → '\n' ∉ gap := by
  rw [spacingStates, List.getElem?_map]
  cases (gaps text)[i]? with
  | none => simp
  | some gap =>
    have hbreak : BoundaryState.ofGap gap = .hardBreak ↔ '\n' ∈ gap := by
      unfold BoundaryState.ofGap
      split
      · simp [*]
      · split <;> simp [*]
    simp [hbreak]

/-- Over single characters the repaired gaps are counted as the boundaries are. -/
private theorem compositeIndexes_eq (hspec : ∀ part ∈ parts, PartSpec part)
    (hgaps : ∀ part ∈ parts, RepairsGaps platform isWord scorer part)
    (hsingle : ∀ part ∈ parts, ∀ a ∈ part.characters, a.text.length = 1) (start : ℕ) :
    compositeIndexes start parts = placedGaps platform isWord scorer start (parts.map (·.current)) := by
  induction parts generalizing start with
  | nil => rfl
  | cons part parts ih =>
    have hlength : (withoutWhitespace part.current).length = part.characters.length := by
      rw [(hspec part (by simp)).current]
      exact (length_atomsText_iff _).2 (hsingle part (by simp))
    rw [compositeIndexes, List.map_cons, placedGaps, hlength, (hgaps part (by simp)).indexes,
      ih (fun p hp => hspec p (by simp [hp])) (fun p hp => hgaps p (by simp [hp]))
        (fun p hp => hsingle p (by simp [hp]))]

/-- The composite is sound when the texts allow it. -/
private theorem compositeSound_iff (hparts : TableParts parts)
    (hcells : parts.map (·.characters) = tableCells table evidence)
    (htexts : parts.map (·.current) = cellTexts table evidence)
    (hgaps : ∀ part ∈ parts, RepairsGaps platform isWord scorer part) :
    CompositeSound platform table.regionId parts ↔ Composable platform isWord table evidence scorer := by
  have hsingle : (∀ part ∈ parts, ∀ a ∈ part.characters, a.text.length = 1) ↔
      ∀ cell ∈ tableCells table evidence, ∀ a ∈ cell, a.text.length = 1 := by
    rw [← hcells, List.forall_mem_map]
  have hregular : (∀ part ∈ parts, RegularText part.current) ↔ ∀ text ∈ cellTexts table evidence, RegularText text := by
    rw [← htexts, List.forall_mem_map]
  have hsoft : (∀ part ∈ parts, ∀ i ∈ part.indexes, (spacingStates part.current)[i]? ≠ some .hardBreak) ↔
      ∀ text ∈ cellTexts table evidence, ∀ i ∈ repairedGaps platform isWord scorer text,
        ∀ gap, (gaps text)[i]? = some gap → '\n' ∉ gap := by
    rw [← htexts, List.forall_mem_map]
    refine forall₂_congr fun part hpart => ?_
    rw [(hgaps part hpart).indexes]
    exact forall₂_congr fun i _ => hardBreak_iff
  have hplaced : (∀ part ∈ parts, ∀ a ∈ part.characters, a.text.length = 1) →
      compositeIndexes 0 parts = placedGaps platform isWord scorer 0 (parts.map (·.current)) :=
    fun hsingle => compositeIndexes_eq hparts.spec hgaps hsingle 0
  have hid : (∀ part ∈ parts, ∀ a ∈ part.characters, a.text.length = 1) → ∀ t,
      compositeId platform table.regionId parts t = tableCandidateId platform isWord table evidence scorer t := by
    intro hsingle t
    rw [compositeId, tableCandidateId, hplaced hsingle, htexts, ← hcells]
    rfl
  have hrepaired : (∀ part ∈ parts, RegularText part.current) → parts.map (·.repaired) =
      (cellTexts table evidence).map fun text => withoutGaps text (repairedGaps platform isWord scorer text) := by
    intro hregular
    rw [← htexts, List.map_map]
    refine List.map_congr_left fun part hpart => ?_
    rw [repaired_eq_withoutGaps (hparts.spec part hpart) (hregular part hpart), (hgaps part hpart).indexes]
    rfl
  constructor
  · rintro ⟨hsingle', hregular', hsoft', hidentifiers⟩
    refine ⟨hsingle.1 hsingle', hregular.1 hregular', hsoft.1 hsoft', fun hcodes => ?_⟩
    rw [hid hsingle', hid hsingle', htexts, hrepaired hregular'] at hidentifiers
    exact hidentifiers hcodes
  · rintro ⟨hsingle', hregular', hsoft', hidentifiers⟩
    have hsingle' := hsingle.2 hsingle'
    have hregular' := hregular.2 hregular'
    refine ⟨hsingle', hregular', hsoft.2 hsoft', fun hcodes => ?_⟩
    rw [hrepaired hregular'] at hcodes ⊢
    rw [hid hsingle', hid hsingle', htexts]
    exact hidentifiers hcodes

end Condition

/-- For a table and a scorer, no exception is raised and a set that is returned is safe exactly when the table is
spaceable. -/
theorem buildTableSpacingCandidateSet_iff (platform : Platform) (isWord : Char → Bool) (table : TableCandidate)
    (evidence : EvidenceDocument) (scorer : SpacingScorer) :
    (∃ r, buildTableSpacingCandidateSet platform isWord table evidence scorer = .ok r ∧
      ∀ set ∈ r, CellSafe (tableCells table evidence) set) ↔ TableSpaceable platform isWord table evidence scorer := by
  constructor
  · rintro ⟨r, hr, hsafe⟩
    rw [buildTableSpacingCandidateSet, raiseIf_bind_eq_ok] at hr
    obtain ⟨hknown, hr⟩ := hr
    have hknown : ∀ i ∈ table.atomIds, i ∈ evidence.atoms.map (·.atomId) := by
      intro i hi
      by_contra hnot
      exact hknown ⟨i, hi, hnot⟩
    obtain ⟨parts, hparts, hr⟩ := bind_eq_ok.1 hr
    obtain ⟨hexists, hspec⟩ := tableParts_spec platform isWord scorer hknown
    obtain ⟨hcells, htexts, htable, hgaps⟩ := hspec parts hparts
    refine ⟨hknown, hexists.1 ⟨parts, hparts⟩, fun hrepaired => ?_⟩
    rw [← hcells] at hsafe
    exact (compositeSound_iff htable hcells htexts hgaps).1
      ((compositeSet_iff htable).1 ⟨r, hr, hsafe⟩ ((compositeMade_iff htexts hgaps).2 hrepaired))
  · rintro ⟨hknown, hreadable, hcomposite⟩
    obtain ⟨hexists, hspec⟩ := tableParts_spec platform isWord scorer hknown
    obtain ⟨parts, hparts⟩ := hexists.2 hreadable
    obtain ⟨hcells, htexts, htable, hgaps⟩ := hspec parts hparts
    obtain ⟨r, hr, hsafe⟩ := (compositeSet_iff htable).2 fun hmade =>
      (compositeSound_iff htable hcells htexts hgaps).2 (hcomposite ((compositeMade_iff htexts hgaps).1 hmade))
    rw [hcells] at hsafe
    refine ⟨r, ?_, hsafe⟩
    rw [buildTableSpacingCandidateSet, raiseIf_bind_eq_ok, hparts]
    refine ⟨?_, hr⟩
    rintro ⟨i, hi, hnot⟩
    exact hnot (hknown i hi)

/-! ### A broken identifier -/

/-- The evidence of `a.b`. -/
def identifierFields : EvidenceFields where
  sourceHash := sha256 []
  extractionMode := .pdfEmbedded
  pageCount := 1
  atoms := [⟨⟨0⟩, 0, 1, none, ['a'], .character, .embedded, 0, 0, Score.one, Nat.one_pos, by decide, by decide, by decide⟩,
    ⟨⟨1⟩, 1, 1, none, ['.'], .character, .embedded, 0, 1, Score.one, Nat.one_pos, by decide, by decide, by decide⟩,
    ⟨⟨2⟩, 2, 1, none, ['b'], .character, .embedded, 0, 2, Score.one, Nat.one_pos, by decide, by decide, by decide⟩]
  hypotheses := []
  regions := [⟨⟨0⟩, 1, SourceBox.page, [⟨0⟩, ⟨1⟩, ⟨2⟩], [], .embedded, false, Nat.one_pos,
    RegionAuthority.embedded_review, EvidenceRegion.three_nonempty⟩]

def identifierEvidence : EvidenceDocument := ⟨identifierFields, Nat.one_pos, by decide⟩

/-- A table of one cell whose text has a line break inside the identifier. -/
def brokenIdentifierTable : TableCandidate where
  candidateId := ⟨0⟩
  regionId := ⟨0⟩
  score := Score.one
  features := ∅
  rowCount := 1
  columnCount := 1
  cells := [⟨⟨0⟩, ⟨0, 1, 0, 1⟩, [⟨0⟩, ⟨1⟩, ⟨2⟩], false, some "a.\nb".toList, CellRegion.unit_withinLimits,
    CellRegion.unit_span, by decide⟩]
  atomIds := [⟨0⟩, ⟨1⟩, ⟨2⟩]
  rowCount_mem := by decide
  columnCount_mem := by decide
  cells_mem := by decide
  atomIds_ne := Identifier.three_ne_nil
  area_le := by decide
  cells_within := by decide
  cellIds_nodup := by decide
  allocations_nodup := by decide
  allocations_complete := fun i => Iff.rfl
  grid := by decide

/-- The repair of an identifier that is broken over two lines of a cell raises. -/
theorem broken_identifier_raises :
    buildTableSpacingCandidateSet Platform.ascii Char.isAlphanum brokenIdentifierTable identifierEvidence
      ⟨fun _ _ => [], none⟩ = .error (.validationError ["CANDIDATE_MUTABLE_HARD_BOUNDARY"]) :=
  raised_eq_some.1 (by decide +kernel)

end ArdOssie
