import ArdOssie.Semantic.SpacingText

/-!
# Making spacing candidates

A text makes a spacing candidate over atoms exactly when there is an atom for every character, the gaps of the text
are regular and its mutable boundaries are valid.
-/

namespace ArdOssie

open Text (isSpace withoutWhitespace)

section Make

variable (platform : Platform) (regionId : RegionId) (renderedText characterSequence : Text) (atomIds : List AtomId)
  (sourceWhitespace : List (List AtomId)) (score : Score) (features : Dict Text ℚ)
  (mutableBoundaryIndexes : Option (List ℤ))

/-- The boundaries of a text over atoms. -/
def textBoundaries : List SpacingBoundary :=
  ((gaps renderedText).zip ((atomIds.zip atomIds.tail).zip sourceWhitespace)).map fun (gap, pair, whitespace) =>
    ⟨pair.1, pair.2, .ofGap gap, whitespace⟩

/-- The identifier of the candidate with a text. -/
def spacingCandidateId : CandidateId :=
  makeCandidateId platform "spacing" regionId (.record ([("rendered_text", Json.str renderedText),
    ("atom_ids", .arr (atomIds.map (·.json))),
    ("boundaries", .arr ((textBoundaries renderedText atomIds sourceWhitespace).map (·.json)))] ++
    (mutableBoundaryIndexes.map fun indexes => ("mutable_boundary_indexes", indexesJson indexes)).toList))

/-- The fields of the candidate with a text. -/
def spacingFields : SpacingFields where
  candidateId := spacingCandidateId platform regionId renderedText atomIds sourceWhitespace mutableBoundaryIndexes
  regionId := regionId
  score := score
  features := features
  renderedText := renderedText
  characterSequence := characterSequence
  atomIds := atomIds
  boundaries := textBoundaries renderedText atomIds sourceWhitespace
  mutableBoundaryIndexes := mutableBoundaryIndexes

variable {platform regionId renderedText characterSequence atomIds sourceWhitespace score features
  mutableBoundaryIndexes}

theorem SpacingCandidate.make_eq_ok {f : SpacingFields} {c : SpacingCandidate} :
    SpacingCandidate.make f = .ok c ↔ c.toSpacingFields = f := by
  unfold SpacingCandidate.make
  constructor
  · intro h
    split at h
    · cases h
      rfl
    · cases h
  · rintro rfl
    split
    · rfl
    · rename_i error herror
      rw [c.valid] at herror
      cases herror

variable (hwhitespace : sourceWhitespace.length = atomIds.length - 1)

include hwhitespace

theorem makeSpacingCandidate_eq_ok {c : SpacingCandidate} :
    makeSpacingCandidate platform regionId renderedText characterSequence atomIds sourceWhitespace score features
      mutableBoundaryIndexes = .ok c ↔
      (withoutWhitespace renderedText).length = atomIds.length ∧
        c.toSpacingFields = spacingFields platform regionId renderedText characterSequence atomIds sourceWhitespace score
          features mutableBoundaryIndexes := by
  rw [makeSpacingCandidate, boundariesFromRendered, bind_eq_ok]
  simp only [raiseIf_bind_eq_ok, pure_eq_ok, hwhitespace, not_or, not_not, and_true, ne_eq]
  constructor
  · rintro ⟨boundaries, ⟨hlength, rfl⟩, hmake⟩
    exact ⟨hlength, SpacingCandidate.make_eq_ok.1 hmake⟩
  · rintro ⟨hlength, hfields⟩
    exact ⟨_, ⟨hlength, rfl⟩, SpacingCandidate.make_eq_ok.2 hfields⟩

/-- The states of the boundaries are those of the gaps. -/
theorem states_textBoundaries (hlength : (withoutWhitespace renderedText).length = atomIds.length) :
    (textBoundaries renderedText atomIds sourceWhitespace).map (·.state) = (gaps renderedText).map .ofGap := by
  have hpairs : (atomIds.zip atomIds.tail).length = atomIds.length - 1 := by
    rw [List.length_zip, List.length_tail]
    omega
  have hinner : (gaps renderedText).length ≤ ((atomIds.zip atomIds.tail).zip sourceWhitespace).length := by
    rw [List.length_zip, hpairs, hwhitespace, length_gaps, hlength, min_self]
  have hfst := List.map_fst_zip hinner
  conv_rhs => rw [← hfst]
  rw [textBoundaries, List.map_map, List.map_map]
  rfl

/-- A trimmed text with the given characters makes a candidate when there is an atom for every character, its gaps are
regular and the mutable boundaries are valid. -/
theorem exists_makeSpacingCandidate_iff (hne : characterSequence ≠ [])
    (hvisible : ∀ c ∈ characterSequence, isSpace c = false) (hp : withoutWhitespace renderedText = characterSequence)
    (htrimmed : Trimmed renderedText) :
    (∃ c, makeSpacingCandidate platform regionId renderedText characterSequence atomIds sourceWhitespace score features
      mutableBoundaryIndexes = .ok c) ↔
      (characterSequence.length = atomIds.length ∧ atomIds.Nodup) ∧ (∀ g ∈ gaps renderedText, RegularGap g) ∧
        (spacingFields platform regionId renderedText characterSequence atomIds sourceWhitespace score features
          mutableBoundaryIndexes).validateMutable = .ok () := by
  have hexists : (∃ c, makeSpacingCandidate platform regionId renderedText characterSequence atomIds sourceWhitespace
      score features mutableBoundaryIndexes = .ok c) ↔
      (withoutWhitespace renderedText).length = atomIds.length ∧ (spacingFields platform regionId renderedText
        characterSequence atomIds sourceWhitespace score features mutableBoundaryIndexes).validate = .ok () := by
    simp only [makeSpacingCandidate_eq_ok hwhitespace]
    constructor
    · rintro ⟨c, hlength, hfields⟩
      exact ⟨hlength, hfields ▸ c.valid⟩
    · rintro ⟨hlength, hvalid⟩
      exact ⟨⟨_, hvalid⟩, hlength, rfl⟩
  rw [hexists, hp, and_assoc]
  refine and_congr_right fun hlength => ?_
  have hids : atomIds ≠ [] := by
    intro hnil
    rw [hnil, List.length_nil] at hlength
    exact hne (List.length_eq_zero_iff.1 hlength)
  have hpairs : (atomIds.zip atomIds.tail).length = atomIds.length - 1 := by
    rw [List.length_zip, List.length_tail]
    omega
  have hgaps : (gaps renderedText).length = atomIds.length - 1 := by rw [length_gaps, hp, hlength]
  have hinner : (gaps renderedText).length = ((atomIds.zip atomIds.tail).zip sourceWhitespace).length := by
    rw [List.length_zip, hpairs, hwhitespace, hgaps, min_self]
  have hends : (textBoundaries renderedText atomIds sourceWhitespace).map (fun b => (b.leftAtomId, b.rightAtomId)) =
      atomIds.zip atomIds.tail := by
    have hsnd := List.map_snd_zip hinner.ge
    have hfst := List.map_fst_zip (hpairs.trans hwhitespace.symm).le
    conv_rhs => rw [← hfst, ← hsnd]
    rw [textBoundaries, List.map_map, List.map_map]
    rfl
  have hcount : (textBoundaries renderedText atomIds sourceWhitespace).length = atomIds.length - 1 := by
    rw [textBoundaries, List.length_map, List.length_zip, ← hinner, min_self, hgaps]
  have hrender := renderBoundaries_iff htrimmed
    (states_textBoundaries hwhitespace (by rw [hp, hlength] : (withoutWhitespace renderedText).length = atomIds.length))
  rw [hp] at hrender
  rw [SpacingFields.validate_eq_ok]
  constructor
  · rintro ⟨-, -, -, ⟨-, hnodup⟩, -, -, hrendered, hmutable⟩
    exact ⟨hnodup, hrender.1 hrendered, hmutable⟩
  · rintro ⟨hnodup, hregular, hmutable⟩
    exact ⟨⟨hne, hids⟩, hvisible, hp, ⟨hlength.symm, hnodup⟩, hcount, hends, hrender.2 hregular, hmutable⟩

end Make

end ArdOssie
