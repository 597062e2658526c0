import ArdOssie.Library.Regex
import ArdOssie.Semantic.Candidates
import Mathlib.Data.List.DropRight

/-!
# Spacing repair

A provider may propose a new rendering of the whitespace of a region.  `spacingDefectCodes` finds the defects of a
rendering, and `buildGeneratedCandidate` turns a proposal into a candidate when it keeps the characters, the hard
breaks, the immutable boundaries and the protected tokens of its anchor.
-/

namespace ArdOssie

open Text (isSpace withoutWhitespace)

/-! ### The patterns -/

section Patterns

open Regex

variable (platform : Platform)

private def isAlpha (c : Char) : Bool := ('A' ≤ c && c ≤ 'Z') || ('a' ≤ c && c ≤ 'z')

private def isAlnum (c : Char) : Bool := isAlpha c || ('0' ≤ c && c ≤ '9')

/-- The letters and digits, or one of the given characters. -/
private def alnumOr (others : String) : Regex := char fun c => isAlnum c || c ∈ others.toList

private def oneOf (chars : String) : Regex := char fun c => c ∈ chars.toList

private def spaces : Regex := star (char isSpace)

private def digit : Regex := char platform.isDecimal

/-- The characters of the part of an address after the scheme. -/
private def urlCharacters : Regex := alnumOr "._~:/?#@!$&'()*+,;=%-"

/-- `_IDENTIFIER` -/
def identifier : Regex :=
  seq (char isAlpha) (seq (star (char isAlnum)) (plus (seq (oneOf "_") (plus (char isAlnum)))))

/-- `_IDENTIFIER_WHITESPACE` -/
def identifierWhitespace : Regex := alt (seq (char isSpace) (oneOf "_")) (seq (oneOf "_") (char isSpace))

/-- `_QUALIFIED_IDENTIFIER` -/
def qualifiedIdentifier : Regex :=
  seq (char fun c => isAlpha c || c == '_') (seq (star (alnumOr "_")) (plus (seq (oneOf ".") (plus (alnumOr "_")))))

/-- A character of a pattern that ignores case, given in lower case. -/
private def ignoringCase (lower : Char) : Regex :=
  char fun c => c == lower || c == lower.toUpper || (lower == 'k' && c.toNat == 0x212a) ||
    (lower == 's' && c.toNat == 0x17f)

/-- `[A-Za-z0-9]` in a pattern that ignores case. -/
private def isAlnumIgnoringCase (c : Char) : Bool := isAlnum c || c.toNat ∈ [0x130, 0x131, 0x17f, 0x212a]

/-- The alternatives of a list of texts. -/
private def anyOf (last : Regex) : List Regex → Regex
  | [] => last
  | r :: rs => alt r (anyOf last rs)

private def word (t : String) (last : Char) : Regex := sequence (ignoringCase last) (t.toList.map ignoringCase)

private def unit : Regex :=
  anyOf (word "t" 'b')
    [oneOf "%", oneOf "℃", seq (oneOf "°") (alt (ignoringCase 'c') (ignoringCase 'f')), word "k" 'g', word "m" 'g',
      ignoringCase 'g', word "k" 'm', word "c" 'm', word "m" 'm', ignoringCase 'm', word "m" 's', ignoringCase 's',
      ignoringCase 'h', word "h" 'z', word "k" 'b', word "m" 'b', word "g" 'b']

/-- A date or a time, `between` standing at the places where whitespace may be allowed. -/
private def dateWith (between : Regex) : Regex :=
  let separator := sequence between [between, oneOf "-/."]
  repeated (digit platform) 4 0 <| seq separator <| seq (repeated (digit platform) 0 1 (digit platform)) <|
    seq separator <| repeated (digit platform) 0 1 (digit platform)

private def timeWith (between : Regex) : Regex :=
  let part := sequence (digit platform) [between, oneOf ":", between, digit platform]
  seq (repeated (digit platform) 0 1 (digit platform)) (seq part (opt part))

/-- An expression that matches without reading a character. -/
private def nothing : Regex := notBehind fun _ => false

/-- `_PROTECTED_TOKEN_PATTERNS` -/
def protectedTokenPatterns : List Regex :=
  [sequence (plus urlCharacters) [char isAlpha, star (alnumOr "+.-"), oneOf ":", oneOf "/", oneOf "/"],
    sequence (repeated (char isAlpha) 2 61 nothing)
      [plus (alnumOr "._%+-"), oneOf "@", plus (alnumOr ".-"), oneOf "."],
    dateWith platform nothing,
    timeWith platform nothing,
    identifier,
    sequence (notAhead (char isAlnum))
      [notBehind isAlnum, ahead (repeated (alnumOr "-") 4 0 nothing),
        ahead (seq (star (alnumOr "-")) (char isAlpha)), ahead (seq (star (alnumOr "-")) (digit platform)),
        plus (char isAlnum), star (seq (oneOf "-") (plus (char isAlnum)))],
    sequence (notAhead (char isAlnumIgnoringCase))
      [notBehind isAlnumIgnoringCase, plus (digit platform), opt (seq (oneOf ".,") (plus (digit platform))), unit]]

private theorem isAlnum_visible {c : Char} (h : isAlnum c = true) : isSpace c = false := by
  have hrange : (65 ≤ c.toNat ∧ c.toNat ≤ 90) ∨ (97 ≤ c.toNat ∧ c.toNat ≤ 122) ∨ 48 ≤ c.toNat ∧ c.toNat ≤ 57 := by
    simp only [isAlnum, isAlpha, Bool.or_eq_true, Bool.and_eq_true, decide_eq_true_eq, Char.le_def,
      UInt32.le_iff_toNat_le] at h
    simpa [or_assoc] using h
  simp only [isSpace, Bool.or_eq_false_iff, Bool.and_eq_false_iff, decide_eq_false_iff_not, beq_eq_false_iff_ne]
  omega

private theorem isAlpha_visible {c : Char} (h : isAlpha c = true) : isSpace c = false :=
  isAlnum_visible (by rw [isAlnum, h, Bool.true_or])

private theorem oneOf_visible {chars : String} (h : chars.toList.all fun c => !isSpace c) :
    (oneOf chars).OnlyReads fun c => isSpace c = false := by
  intro c hc
  simpa using List.all_eq_true.1 h c (of_decide_eq_true hc)

private theorem alnumOr_visible {others : String} (h : others.toList.all fun c => !isSpace c) :
    (alnumOr others).OnlyReads fun c => isSpace c = false := by
  intro c hc
  rcases Bool.or_eq_true_iff.1 hc with hc | hc
  · exact isAlnum_visible hc
  · exact oneOf_visible h c hc

private theorem ignoringCase_visible {lower : Char} (h : isSpace lower = false ∧ isSpace lower.toUpper = false) :
    (ignoringCase lower).OnlyReads fun c => isSpace c = false := by
  intro c hc
  simp only [Bool.or_eq_true, Bool.and_eq_true, beq_iff_eq] at hc
  rcases hc with ((rfl | rfl) | ⟨-, hc⟩) | ⟨-, hc⟩
  · exact h.1
  · exact h.2
  · simp [isSpace, hc]
  · simp [isSpace, hc]

private theorem word_visible {t : String} {last : Char}
    (h : (last :: t.toList).all fun c => !isSpace c && !isSpace c.toUpper) :
    (word t last).OnlyReads fun c => isSpace c = false := by
  have hall : ∀ c ∈ last :: t.toList, isSpace c = false ∧ isSpace c.toUpper = false := fun c hc => by
    simpa using List.all_eq_true.1 h c hc
  refine OnlyReads.sequence (ignoringCase_visible (hall last (by simp))) fun r hr => ?_
  obtain ⟨c, hc, rfl⟩ := List.mem_map.1 hr
  exact ignoringCase_visible (hall c (by simp [hc]))

private theorem unit_visible : unit.OnlyReads fun c => isSpace c = false := by
  have hanyOf : ∀ {last : Regex} {rs : List Regex}, last.OnlyReads (fun c => isSpace c = false) →
      (∀ r ∈ rs, r.OnlyReads fun c => isSpace c = false) → (anyOf last rs).OnlyReads fun c => isSpace c = false := by
    intro last rs hlast hrs
    induction rs with
    | nil => exact hlast
    | cons r rs ih => exact ⟨hrs r (by simp), ih fun r hr => hrs r (by simp [hr])⟩
  refine hanyOf (word_visible (by decide)) ?_
  simp only [List.forall_mem_cons, List.not_mem_nil, false_implies, implies_true, and_true]
  exact ⟨oneOf_visible (by decide), oneOf_visible (by decide),
    ⟨oneOf_visible (by decide), ignoringCase_visible (by decide), ignoringCase_visible (by decide)⟩,
    word_visible (by decide), word_visible (by decide), ignoringCase_visible (by decide), word_visible (by decide),
    word_visible (by decide), word_visible (by decide), ignoringCase_visible (by decide), word_visible (by decide),
    ignoringCase_visible (by decide), ignoringCase_visible (by decide), word_visible (by decide),
    word_visible (by decide), word_visible (by decide), word_visible (by decide)⟩

/-- A protected token has no whitespace, when no decimal digit is whitespace. -/
theorem protectedTokenPatterns_visible (hdecimal : ∀ c, platform.isDecimal c = true → isSpace c = false) :
    ∀ r ∈ protectedTokenPatterns platform, r.OnlyReads fun c => isSpace c = false := by
  have hdigit : (digit platform).OnlyReads fun c => isSpace c = false := hdecimal
  have halpha : (char isAlpha).OnlyReads fun c => isSpace c = false := fun _ => isAlpha_visible
  have halnum : (char isAlnum).OnlyReads fun c => isSpace c = false := fun _ => isAlnum_visible
  have hnothing : nothing.OnlyReads fun c => isSpace c = false := trivial
  simp only [protectedTokenPatterns, List.forall_mem_cons, List.not_mem_nil, false_implies, implies_true, and_true]
  refine ⟨?_, ?_, ?_, ?_, ?_, ?_, ?_⟩
  · refine OnlyReads.sequence (OnlyReads.plus (alnumOr_visible (by decide))) ?_
    simp only [List.forall_mem_cons, List.not_mem_nil, false_implies, implies_true, and_true]
    exact ⟨halpha, alnumOr_visible (by decide), oneOf_visible (by decide), oneOf_visible (by decide),
      oneOf_visible (by decide)⟩
  · refine OnlyReads.sequence (OnlyReads.repeated halpha hnothing 2 61) ?_
    simp only [List.forall_mem_cons, List.not_mem_nil, false_implies, implies_true, and_true]
    exact ⟨OnlyReads.plus (alnumOr_visible (by decide)), oneOf_visible (by decide),
      OnlyReads.plus (alnumOr_visible (by decide)), oneOf_visible (by decide)⟩
  · have hseparator : (sequence nothing [nothing, oneOf "-/."]).OnlyReads fun c => isSpace c = false :=
      ⟨hnothing, oneOf_visible (by decide), hnothing⟩
    refine OnlyReads.repeated hdigit ?_ 4 0
    exact ⟨hseparator, OnlyReads.repeated hdigit hdigit 0 1, hseparator, OnlyReads.repeated hdigit hdigit 0 1⟩
  · have hpart : (sequence (digit platform) [nothing, oneOf ":", nothing, digit platform]).OnlyReads
        fun c => isSpace c = false := ⟨hnothing, oneOf_visible (by decide), hnothing, hdigit, hdigit⟩
    exact ⟨OnlyReads.repeated hdigit hdigit 0 1, hpart, hpart⟩
  · have hpart : (seq (oneOf "_") (plus (char isAlnum))).OnlyReads fun c => isSpace c = false :=
      ⟨oneOf_visible (by decide), OnlyReads.plus halnum⟩
    exact ⟨halpha, halnum, OnlyReads.plus hpart⟩
  · have hlast : (notAhead (char isAlnum)).OnlyReads fun c => isSpace c = false := trivial
    have hpart : (seq (oneOf "-") (plus (char isAlnum))).OnlyReads fun c => isSpace c = false :=
      ⟨oneOf_visible (by decide), OnlyReads.plus halnum⟩
    refine OnlyReads.sequence hlast ?_
    simp only [List.forall_mem_cons, List.not_mem_nil, false_implies, implies_true, and_true]
    exact ⟨trivial, trivial, trivial, trivial, OnlyReads.plus halnum, hpart⟩
  · have hlast : (notAhead (char isAlnumIgnoringCase)).OnlyReads fun c => isSpace c = false := trivial
    refine OnlyReads.sequence hlast ?_
    simp only [List.forall_mem_cons, List.not_mem_nil, false_implies, implies_true, and_true]
    exact ⟨trivial, OnlyReads.plus hdigit, ⟨oneOf_visible (by decide), OnlyReads.plus hdigit⟩, unit_visible⟩

/-- An identifier is in ASCII and has no whitespace. -/
theorem identifier_ascii : identifier.OnlyReads fun c => isSpace c = false ∧ c.toNat < 0x80 := by
  have halnum : ∀ c, isAlnum c = true → isSpace c = false ∧ c.toNat < 0x80 := by
    intro c h
    refine ⟨isAlnum_visible h, ?_⟩
    simp only [isAlnum, isAlpha, Bool.or_eq_true, Bool.and_eq_true, decide_eq_true_eq, Char.le_def,
      UInt32.le_iff_toNat_le] at h
    have hrange : (65 ≤ c.toNat ∧ c.toNat ≤ 90) ∨ (97 ≤ c.toNat ∧ c.toNat ≤ 122) ∨ 48 ≤ c.toNat ∧ c.toNat ≤ 57 := by
      simpa [or_assoc] using h
    omega
  have hscore : (oneOf "_").OnlyReads fun c => isSpace c = false ∧ c.toNat < 0x80 := by
    intro c h
    have hmem : c ∈ "_".toList := of_decide_eq_true h
    have hc : c = '_' := by simpa using hmem
    rw [hc]
    decide
  have hpart : (seq (oneOf "_") (plus (char isAlnum))).OnlyReads fun c => isSpace c = false ∧ c.toNat < 0x80 :=
    ⟨hscore, OnlyReads.plus halnum⟩
  exact ⟨fun c h => halnum c (by rw [isAlnum, h, Bool.true_or]), halnum, OnlyReads.plus hpart⟩

/-- `_LOOSE_PROTECTED_TOKEN_PATTERNS` -/
def looseProtectedTokenPatterns : List Regex :=
  [sequence (plus urlCharacters)
      [char isAlpha, star (alnumOr "+.-"), spaces, oneOf ":", spaces, oneOf "/", spaces, oneOf "/", spaces],
    sequence (plus (seq spaces (seq (oneOf ".") (seq spaces (plus (alnumOr "-"))))))
      [plus (alnumOr "._%+-"), spaces, oneOf "@", spaces, plus (alnumOr "-")],
    dateWith platform spaces,
    timeWith platform spaces]

/-- `_SPACE_BEFORE_PUNCTUATION` -/
def spaceBeforePunctuation : Regex := seq (plus (char isSpace)) (oneOf "%℃°,:;.!?)\x7d]")

/-- `_SPACE_AFTER_OPEN` -/
def spaceAfterOpen : Regex := seq (oneOf "(\x7b[") (plus (char isSpace))

end Patterns

/-! ### Defects -/

section Repair

variable (platform : Platform)

/-- `_protected_token_occurrences` -/
def protectedTokenOccurrences (renderedText : Text) : List Text :=
  let found := ((protectedTokenPatterns platform).flatMap fun pattern => pattern.findAll renderedText).eraseDups
  (sortBy (fun p => toLex (p.1, toLex (p.1 + p.2.length, p.2))) found).map Prod.snd

/-- `_has_protected_token_split` -/
def hasProtectedTokenSplit (renderedText : Text) (expectedTokens : List Text) : Bool :=
  let observed := protectedTokenOccurrences platform renderedText
  (expectedTokens.any fun token => observed.count token < expectedTokens.count token) ||
    (looseProtectedTokenPatterns platform).any fun pattern => (pattern.findAll renderedText).any fun p => p.2.any isSpace

/-- `_has_qualified_identifier_split` -/
def hasQualifiedIdentifierSplit (renderedText : Text) : Bool :=
  renderedText.splitLines.any fun line =>
    line.strip.any isSpace && qualifiedIdentifier.matchesAll (withoutWhitespace line.strip)

/-- The defects of the identifiers and tokens of a text. -/
def tokenDefectCodes (renderedText : Text) (lines : List Text) : List String :=
  if lines.any identifierWhitespace.occursIn then ["IDENTIFIER_WHITESPACE_SPLIT"]
  else if hasQualifiedIdentifierSplit renderedText then ["QUALIFIED_IDENTIFIER_WHITESPACE_SPLIT"]
  else if lines.any fun line => hasProtectedTokenSplit platform line [] then ["PROTECTED_TOKEN_WHITESPACE_SPLIT"]
  else []

/-- The whitespace that a rendering may not have. -/
def isControlSeparator (c : Char) : Bool := isSpace c && c != ' ' && c != '\n'

/-- The defects of a rendering. -/
def textDefectCodes (renderedText : Text) : List String :=
  let lines := if renderedText.splitLines = [] then [renderedText] else renderedText.splitLines
  (if renderedText.any isControlSeparator then ["CONTROL_WHITESPACE_SEPARATOR"] else []) ++
    tokenDefectCodes platform renderedText lines ++
    (if lines.any spaceBeforePunctuation.occursIn then ["PUNCTUATION_WHITESPACE_BEFORE"] else []) ++
    (if lines.any spaceAfterOpen.occursIn then ["PUNCTUATION_WHITESPACE_AFTER_OPEN"] else [])

/-- `spacing_defect_codes` -/
def spacingDefectCodes (candidate : SpacingCandidate) : List String := textDefectCodes platform candidate.renderedText

/-! ### Generated candidates -/

/-- `_hard_break_pairs` -/
def hardBreakPairs (candidate : SpacingCandidate) : List (AtomId × AtomId) :=
  (candidate.boundaries.filter fun b => b.state = .hardBreak).map fun b => (b.leftAtomId, b.rightAtomId)

/-- Whether a boundary may be changed. -/
def SpacingCandidate.isMutable (anchor : SpacingCandidate) (index : ℕ) : Bool :=
  match anchor.mutableBoundaryIndexes with
  | none => true
  | some indexes => decide ((index : ℤ) ∈ indexes)

/-- Some boundary that may not be changed differs from the anchor. -/
def immutableBoundaryChanged (anchor generated : SpacingCandidate) : Bool :=
  (anchor.boundaries.zip generated.boundaries).zipIdx.any fun (pair, index) =>
    !anchor.isMutable index && pair.2.state != pair.1.state

/-- The key of the only feature of a generated candidate. -/
def generatedFeature : Text := "llm_generated_spacing".toList

/-- `build_generated_candidate` -/
def buildGeneratedCandidate (anchor : SpacingCandidate) (renderedText : Text) (confidence : Score) :
    PyResult SpacingCandidate := do
  raiseIf (withoutWhitespace renderedText ≠ anchor.characterSequence) (.valueError "SPACING_REPAIR_CHARACTER_MISMATCH")
  raiseIf (renderedText.any isControlSeparator) (.valueError "SPACING_REPAIR_CONTROL_SEPARATOR")
  raiseIf (identifierWhitespace.occursIn renderedText) (.valueError "SPACING_REPAIR_IDENTIFIER_SPLIT")
  raiseIf (hasProtectedTokenSplit platform renderedText (protectedTokenOccurrences platform anchor.renderedText))
    (.valueError "SPACING_REPAIR_PROTECTED_TOKEN_SPLIT")
  let generated ← makeSpacingCandidate platform anchor.regionId renderedText anchor.characterSequence anchor.atomIds
    (anchor.boundaries.map (·.sourceWhitespaceAtomIds)) (Score.clamp confidence.val)
    (Dict.ofList [(generatedFeature, (Score.clamp confidence.val).val)]) anchor.mutableBoundaryIndexes
  raiseIf (hardBreakPairs generated ≠ hardBreakPairs anchor) (.valueError "SPACING_REPAIR_HARD_LINE_BOUNDARY_MISMATCH")
  raiseIf (immutableBoundaryChanged anchor generated) (.valueError "SPACING_REPAIR_IMMUTABLE_BOUNDARY_MISMATCH")
  return generated

/-- `fallback_spacing_candidate` -/
def fallbackSpacingCandidate (candidateSet : CandidateSet) : PyResult SpacingCandidate := do
  let candidates := candidateSet.spacingCandidates
  raiseIf (candidateSet.decisionType ≠ .spacing ∨ candidates = []) (.valueError "SPACING_REPAIR_FALLBACK_UNAVAILABLE")
  let valid := candidates.filter fun c => spacingDefectCodes platform c = []
  match maxBy (fun c => toLex ((c.features.lookup "source_spacing".toList).isSome,
      toLex (c.score, c.candidateId.value))) valid with
  | some best => return best
  | none => throw (.valueError "SPACING_REPAIR_SAFE_FALLBACK_UNAVAILABLE")

/-! ### Requests -/

/-- `GENERATION_SYSTEM_CONTRACT` -/
def generationSystemContract : String :=
  "You repair whitespace only. Return one JSON object matching the\nschema.\n" ++
  "Preserve the exact non-whitespace Unicode sequence and every hard line boundary. Never add, remove,\n" ++
  "replace, or reorder a character. Keep identifiers containing underscores contiguous. Do not flatten\n" ++
  "or reinterpret tables. Use Korean morphology, punctuation, and line context only to place spaces."

/-- `VERIFICATION_SYSTEM_CONTRACT` -/
def verificationSystemContract : String :=
  "You independently verify whitespace candidates. Return one JSON\nobject matching the schema and select only an " ++
  "offered candidate ID. Reject character mutation,\nidentifier splitting, punctuation defects, or changed hard line " ++
  "boundaries. Confidence measures\nwhether the selected rendering is correct, not whether its characters are " ++
  "conserved. Return an\nempty validation_codes array when the selected candidate has no defects; otherwise list " ++
  "defect\ncodes only."

/-- A message of a role. -/
def messageJson (role : String) (content : Text) : Json := .record [("role", .lit role), ("content", .str content)]

/-- `_protected_tokens` -/
def protectedTokens (renderedText : Text) : List Text :=
  sortBy (fun token => toLex (-(token.length : ℤ), token)) (protectedTokenOccurrences platform renderedText).eraseDups

/-- The JSON value of a list of codes. -/
def codesJson (codes : List String) : Json := .arr (codes.map .lit)

/-- `_validate_scope` -/
def validateScope (candidateSet : CandidateSet) (candidates : List SpacingCandidate) (anchor : SpacingCandidate) :
    PyResult Unit := do
  raiseIf (candidateSet.decisionType ≠ .spacing ∨ anchor.regionId ≠ candidateSet.regionId)
    (.valueError "SPACING_REPAIR_SCOPE_MISMATCH")
  raiseIf (candidates = [] ∨ ∃ c ∈ candidates, c.regionId ≠ candidateSet.regionId)
    (.valueError "SPACING_REPAIR_SCOPE_MISMATCH")
  raiseIf (∃ c ∈ candidates, c.characterSequence ≠ anchor.characterSequence)
    (.valueError "SPACING_REPAIR_CHARACTER_MISMATCH")
  raiseIf (∃ c ∈ candidates, c.mutableBoundaryIndexes ≠ anchor.mutableBoundaryIndexes)
    (.valueError "SPACING_REPAIR_MUTABLE_SCOPE_MISMATCH")

/-- The boundaries at which a candidate differs from the anchor. -/
def boundaryChanges (anchor candidate : SpacingCandidate) : List Json :=
  ((anchor.boundaries.zip candidate.boundaries).zipIdx.filter fun (pair, _) => pair.2.state ≠ pair.1.state).map
    fun (pair, index) => .record
      [("index", .nat index), ("anchor", .lit pair.1.state.text), ("candidate", .lit pair.2.state.text)]

/-- `_generation_request` -/
def generationRequest (candidateSet : CandidateSet) (candidates : List SpacingCandidate) (anchor : SpacingCandidate) :
    PyResult Json := do
  validateScope candidateSet candidates anchor
  return .record
    [("task", .lit "generate_whitespace_repair"), ("candidate_set_id", candidateSet.candidateSetId.json),
      ("region_id", candidateSet.regionId.json), ("exact_character_sequence", .str anchor.characterSequence),
      ("protected_identifiers", .arr ((protectedTokens platform anchor.renderedText).map .str)),
      ("hard_line_boundary_indexes", .arr ((anchor.boundaries.zipIdx.filter fun (b, _) =>
        b.state = .hardBreak).map fun (_, index) => .nat index)),
      ("mutable_boundary_indexes", .opt indexesJson anchor.mutableBoundaryIndexes),
      ("anchor_candidate_id", anchor.candidateId.json),
      ("candidates", .arr (candidates.map fun c => .record
        [("candidate_id", c.candidateId.json), ("rendered_text", .str c.renderedText), ("score", c.score.json),
          ("defect_codes", codesJson (spacingDefectCodes platform c)),
          ("boundary_changes_from_anchor", .arr (boundaryChanges anchor c))]))]

/-- The candidates by their identifier; a later one replaces an earlier one in its place. -/
def offeredCandidates (candidates : List SpacingCandidate) (generated : SpacingCandidate) : List SpacingCandidate :=
  if candidates.any fun c => c.candidateId = generated.candidateId then
    candidates.map fun c => if c.candidateId = generated.candidateId then generated else c
  else candidates ++ [generated]

/-- `_verification_request` -/
def verificationRequest (candidateSet : CandidateSet) (candidates : List SpacingCandidate)
    (generated : SpacingCandidate) : PyResult Json := do
  let anchor ← match candidates with
    | [] => throw .indexError
    | anchor :: _ => pure anchor
  validateScope candidateSet candidates anchor
  raiseIf (generated.regionId ≠ candidateSet.regionId) (.valueError "SPACING_REPAIR_SCOPE_MISMATCH")
  return .record
    [("task", .lit "verify_whitespace_repair"), ("candidate_set_id", candidateSet.candidateSetId.json),
      ("region_id", candidateSet.regionId.json), ("exact_character_sequence", .str generated.characterSequence),
      ("protected_identifiers", .arr ((protectedTokens platform generated.renderedText).map .str)),
      ("mutable_boundary_indexes", .opt indexesJson generated.mutableBoundaryIndexes),
      ("generated_candidate_id", generated.candidateId.json),
      ("candidates", .arr ((offeredCandidates candidates generated).map fun c => .record
        [("candidate_id", c.candidateId.json), ("rendered_text", .str c.renderedText),
          ("defect_codes", codesJson (spacingDefectCodes platform c)),
          ("generated", .bool (c.candidateId = generated.candidateId))]))]

/-- `spacing_generation_messages` -/
def spacingGenerationMessages (candidateSet : CandidateSet) (candidates : List SpacingCandidate)
    (anchor : SpacingCandidate) : PyResult (List Json) := do
  let request ← generationRequest platform candidateSet candidates anchor
  return [messageJson "system" generationSystemContract.toList, messageJson "user" (request.dumps platform)]

/-- `spacing_verification_messages` -/
def spacingVerificationMessages (candidateSet : CandidateSet) (candidates : List SpacingCandidate)
    (generated : SpacingCandidate) : PyResult (List Json) := do
  let request ← verificationRequest platform candidateSet candidates generated
  return [messageJson "system" verificationSystemContract.toList, messageJson "user" (request.dumps platform)]

end Repair

end ArdOssie
