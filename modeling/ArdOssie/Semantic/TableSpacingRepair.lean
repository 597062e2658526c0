import ArdOssie.Semantic.TableSpacing

/-!
# The repair of the cells of a table

A text is regular when its boundaries render it; rendered states are.  The repair of a cell is decided when the texts
that it looks at are regular over single characters, and changes a cell only at the boundaries that it reports.
-/

namespace ArdOssie

open Text (isSpace withoutWhitespace withoutWhitespace_append withoutWhitespace_cons)

/-! ### Texts that their states render -/

/-- A text that its boundaries render. -/
def RegularText (t : Text) : Prop := Trimmed t ∧ ∀ g ∈ gaps t, RegularGap g

private theorem renderBoundaries_eq_states (t : Text) (bs : List SpacingBoundary) :
    renderBoundaries t bs = renderSpacingStates t (bs.map (·.state)) := by
  induction t generalizing bs with
  | nil => rfl
  | cons c t ih =>
    cases bs with
    | nil => exact congrArg (c :: ·) (ih [])
    | cons b bs => exact congrArg (fun u => c :: (b.state.separator ++ u)) (ih bs)

private theorem gapsAfter_separator (state : BoundaryState) {d : Char} (hd : isSpace d = false) (x : Text) :
    gapsAfter [] (state.separator ++ d :: x) = state.separator :: gapsAfter [] x := by
  have hspace : isSpace ' ' = true := by decide
  have hbreak : isSpace '\n' = true := by decide
  cases state <;> simp [BoundaryState.separator, gapsAfter, hd, hspace, hbreak]

private theorem withoutWhitespace_separator (state : BoundaryState) : withoutWhitespace state.separator = [] := by
  cases state <;> rfl

private theorem ofGap_separator (state : BoundaryState) : .ofGap state.separator = state := by
  cases state <;> rfl

private theorem regularGap_separator (state : BoundaryState) : RegularGap state.separator := by
  cases state with
  | none => exact Or.inl rfl
  | space => exact Or.inr (Or.inl rfl)
  | hardBreak => exact Or.inr (Or.inr rfl)

/-- What rendered states give back. -/
private theorem renderSpacingStates_spec {t : Text} (ht : ∀ c ∈ t, isSpace c = false) {states : List BoundaryState}
    (hlength : states.length + 1 = t.length) :
    Trimmed (renderSpacingStates t states) ∧ withoutWhitespace (renderSpacingStates t states) = t ∧
      gaps (renderSpacingStates t states) = states.map (·.separator) := by
  induction t generalizing states with
  | nil => cases hlength
  | cons c t ih =>
    have hc := ht c (by simp)
    have htail : ∀ d ∈ t, isSpace d = false := fun d hd => ht d (by simp [hd])
    cases states with
    | nil =>
      have hnil : t = [] := List.length_eq_zero_iff.1 (by simpa using hlength.symm)
      subst hnil
      refine ⟨⟨⟨c, [], rfl, hc⟩, [], c, rfl, hc⟩, ?_, ?_⟩
      · rw [renderSpacingStates, renderSpacingStates, withoutWhitespace_cons, if_neg (by simp [hc])]
        rfl
      · rw [renderSpacingStates, renderSpacingStates, gaps_cons hc]
        rfl
    | cons state states =>
      have hrest : states.length + 1 = t.length := by simpa using hlength
      obtain ⟨⟨⟨d, x, hx, hd⟩, v, e, hlast, he⟩, hcharacters, hgaps⟩ := ih htail hrest
      rw [renderSpacingStates]
      refine ⟨⟨⟨c, _, rfl, hc⟩, c :: (state.separator ++ v), e, by rw [hlast]; simp, he⟩, ?_, ?_⟩
      · rw [withoutWhitespace_cons, if_neg (by simp [hc]), withoutWhitespace_append, withoutWhitespace_separator,
          List.nil_append, hcharacters]
      · rw [gaps_cons hc, hx, gapsAfter_separator state hd, ← gaps_cons hd, ← hx, hgaps]
        rfl

private theorem regular_renderSpacingStates {t : Text} (ht : ∀ c ∈ t, isSpace c = false)
    {states : List BoundaryState} (hlength : states.length + 1 = t.length) :
    RegularText (renderSpacingStates t states) := by
  obtain ⟨htrimmed, -, hgaps⟩ := renderSpacingStates_spec ht hlength
  refine ⟨htrimmed, fun g hg => ?_⟩
  rw [hgaps] at hg
  obtain ⟨state, -, rfl⟩ := List.mem_map.1 hg
  exact regularGap_separator state

private theorem spacingStates_renderSpacingStates {t : Text} (ht : ∀ c ∈ t, isSpace c = false)
    {states : List BoundaryState} (hlength : states.length + 1 = t.length) :
    spacingStates (renderSpacingStates t states) = states := by
  obtain ⟨-, -, hgaps⟩ := renderSpacingStates_spec ht hlength
  rw [spacingStates, hgaps, List.map_map]
  conv_rhs => rw [← List.map_id states]
  exact List.map_congr_left fun state _ => ofGap_separator state

theorem length_spacingStates (value : Text) :
    (spacingStates value).length = (withoutWhitespace value).length - 1 := by
  rw [spacingStates, List.length_map, length_gaps]

/-- The states of a regular text render it. -/
private theorem render_spacingStates {t : Text} (h : RegularText t) :
    renderSpacingStates (withoutWhitespace t) (spacingStates t) = t := by
  let bs : List SpacingBoundary := (spacingStates t).map fun state => ⟨⟨0⟩, ⟨0⟩, state, []⟩
  have hbs : bs.map (·.state) = spacingStates t := (List.map_map).trans (List.map_id _)
  rw [← hbs, ← renderBoundaries_eq_states]
  exact (renderBoundaries_iff h.1 hbs).2 h.2

/-- The states of a text without whitespace. -/
private theorem states_of_visible {t : Text} (h : ∀ c ∈ t, isSpace c = false) :
    ∀ state ∈ spacingStates t, state = .none := by
  intro state hstate
  obtain ⟨g, hg, rfl⟩ := List.mem_map.1 hstate
  have hnil : g = [] := by
    refine List.eq_nil_iff_forall_not_mem.2 fun c hmem => ?_
    obtain ⟨ht, hspace⟩ := mem_of_mem_gaps hg c hmem
    rw [h c ht] at hspace
    cases hspace
  rw [hnil]
  rfl

/-! ### The gaps that a repair removes -/

section RepairedGaps

variable (platform : Platform) (isWord : Char → Bool) (scorer : SpacingScorer)

/-- The gaps between syllables that a proposal removes and whose removal the scorer supports. -/
def supportedGaps (text proposal : Text) : List ℕ :=
  (whitespaceRuns [] [] text).filterMap fun run =>
    (supportedRemoval scorer (hangulRemovals text proposal) run).toOption.join

/-- A text without some of its gaps. -/
def withoutGaps (text : Text) (removed : List ℕ) : Text :=
  renderSpacingStates (withoutWhitespace text)
    ((spacingStates text).zipIdx.map fun (state, i) => if i ∈ removed then .none else state)

/-- The repair by a proposal, when it leaves no defects. -/
def proposedGaps (text proposal : Text) : List ℕ :=
  let removed := sortBy id (supportedGaps scorer text proposal).eraseDups
  if textDefectCodes platform (withoutGaps text removed) = [] then removed else []

/-- The gaps that the repair of a text removes: all of an identifier, and in a text that is no formula those that the
first proposal without defects removes. -/
def repairedGaps (text : Text) : List ℕ :=
  if (qualifiedIdentifierRepair text).isSome then
    (List.range (spacingStates text).length).filter fun i => (spacingStates text)[i]? ≠ some .none
  else if looksLikeFormula isWord text then []
  else
    let proposals := ((restoredProposals scorer text).map normalizedProposal).filter fun t =>
      t ≠ [] ∧ withoutWhitespace t = withoutWhitespace text
    match proposals.find? fun t => textDefectCodes platform t = [] with
    | none => []
    | some proposal => if proposal = text then [] else proposedGaps platform scorer text proposal

end RepairedGaps

/-! ### Candidates over the characters of cells -/

section Make

variable {platform : Platform} {regionId : RegionId} {t : Text} {characters : List EvidenceAtom} {score : Score}
  {features : Dict Text ℚ} {indexes : Option (List ℤ)}

/-- The visible atoms of cells. -/
structure CellCharacters (characters : List EvidenceAtom) : Prop where
  nonempty : characters ≠ []
  visible : ∀ c ∈ atomsText characters, isSpace c = false
  nodup : (characters.map (·.atomId)).Nodup

/-- A text with the characters of atoms makes a candidate over them when the atoms are single characters, the text is
regular and the mutable boundaries are valid. -/
theorem exists_cellCandidate_iff (hc : CellCharacters characters) (ht : withoutWhitespace t = atomsText characters) :
    (∃ c, makeSpacingCandidate platform regionId t (atomsText characters) (characters.map (·.atomId))
      (List.replicate ((characters.map (·.atomId)).length - 1) []) score features indexes = .ok c) ↔
      (∀ a ∈ characters, a.text.length = 1) ∧ RegularText t ∧
        (spacingFields platform regionId t (atomsText characters) (characters.map (·.atomId))
          (List.replicate ((characters.map (·.atomId)).length - 1) []) score features indexes).validateMutable = .ok () := by
  have hwhitespace : (List.replicate ((characters.map (·.atomId)).length - 1) ([] : List AtomId)).length =
      (characters.map (·.atomId)).length - 1 := List.length_replicate
  have hne := atomsText_ne_nil hc.nonempty
  by_cases htrimmed : Trimmed t
  · rw [exists_makeSpacingCandidate_iff hwhitespace hne hc.visible ht htrimmed, List.length_map, length_atomsText_iff,
      and_iff_left hc.nodup, RegularText, and_iff_right htrimmed]
  · refine iff_of_false ?_ fun h => htrimmed h.2.1.1
    rintro ⟨c, hmake⟩
    obtain ⟨hlength, hfields⟩ := (makeSpacingCandidate_eq_ok hwhitespace).1 hmake
    have hvalid := SpacingFields.validate_eq_ok.1 c.valid
    rw [hfields] at hvalid
    obtain ⟨-, -, -, -, hcount, -, hrender, -⟩ := hvalid
    have hrender : renderBoundaries (atomsText characters) (textBoundaries t (characters.map (·.atomId))
      (List.replicate ((characters.map (·.atomId)).length - 1) [])) = t := hrender
    rw [renderBoundaries_eq_states] at hrender
    have hpos := List.length_pos_iff.2 hne
    have hstates : ((textBoundaries t (characters.map (·.atomId)) (List.replicate
        ((characters.map (·.atomId)).length - 1) [])).map (·.state)).length + 1 = (atomsText characters).length := by
      have hcount : (textBoundaries t (characters.map (·.atomId)) (List.replicate
        ((characters.map (·.atomId)).length - 1) [])).length = (characters.map (·.atomId)).length - 1 := hcount
      rw [ht] at hlength
      rw [List.length_map, hcount]
      omega
    have hspec := (renderSpacingStates_spec hc.visible hstates).1
    rw [hrender] at hspec
    exact htrimmed hspec

/-- The defects of a text are found when it makes a candidate. -/
private theorem textSpacingDefects_eq_ok (hc : CellCharacters characters)
    (ht : withoutWhitespace t = atomsText characters) {codes : List String} :
    textSpacingDefects platform regionId t characters = .ok codes ↔
      ((∀ a ∈ characters, a.text.length = 1) ∧ RegularText t) ∧ codes = textDefectCodes platform t := by
  have hexists : (∃ c, makeSpacingCandidate platform regionId t (atomsText characters) (characters.map (·.atomId))
      (List.replicate ((characters.map (·.atomId)).length - 1) []) ⟨1 / 2, by norm_num⟩
      (Dict.ofList [("table_cell_probe".toList, 1)]) none = .ok c) ↔ _ := exists_cellCandidate_iff hc ht
  have hnone : ∀ f : SpacingFields, f.mutableBoundaryIndexes = none → f.validateMutable = .ok () := by
    intro f hf
    rw [SpacingFields.validateMutable, hf]
    rfl
  rw [hnone _ rfl, and_iff_left rfl] at hexists
  rw [textSpacingDefects, bind_eq_ok, ← hexists]
  simp only [pure_eq_ok]
  constructor
  · rintro ⟨c, hmake, rfl⟩
    refine ⟨⟨c, hmake⟩, ?_⟩
    have hfields := ((makeSpacingCandidate_eq_ok List.length_replicate).1 hmake).2
    rw [spacingDefectCodes, hfields]
    rfl
  · rintro ⟨⟨c, hmake⟩, rfl⟩
    refine ⟨c, hmake, ?_⟩
    have hfields := ((makeSpacingCandidate_eq_ok List.length_replicate).1 hmake).2
    rw [spacingDefectCodes, hfields]
    rfl

end Make

/-! ### What the repair of a cell keeps -/

/-- The repaired text of a value: it differs from the value only at its boundaries `indexes`, and is regular. -/
structure RepairSpec (characters : List EvidenceAtom) (value repaired : Text) (indexes : List ℕ) : Prop where
  conserves : withoutWhitespace repaired = atomsText characters
  regular : RegularText repaired
  increasing : indexes.Pairwise (· < ·)
  inside : ∀ i ∈ indexes, i < (spacingStates value).length
  kept : ∀ i, i ∉ indexes → (spacingStates repaired)[i]? = (spacingStates value)[i]?
  soft : ∀ i ∈ indexes, (spacingStates repaired)[i]? = some .none

/-- Fragments of syllables have no inline identifier. -/
private theorem protectedIdentifiers_fragments {left right : Text} (hleft : ∀ c ∈ left, isHangul c = true)
    (hright : ∀ c ∈ right, isHangul c = true) : protectedIdentifiers (left ++ ' ' :: right) = [] := by
  have hnone : identifier.findAll (left ++ ' ' :: right) = [] := by
    refine List.eq_nil_iff_forall_not_mem.2 fun found hfound => ?_
    obtain ⟨hne, hascii, before, after, hsplit, -⟩ := Regex.mem_findAll identifier_ascii hfound
    obtain ⟨c, token, htoken⟩ := List.exists_cons_of_ne_nil hne
    have hc := hascii c (by rw [htoken]; simp)
    have hmem : c ∈ left ++ ' ' :: right := by
      rw [hsplit, htoken]
      simp
    have hhangul : ∀ d : Char, isHangul d = true → ¬ d.toNat < 0x80 := by
      intro d hd
      simp only [isHangul, Bool.and_eq_true, decide_eq_true_eq] at hd
      omega
    rcases List.mem_append.1 hmem with hmem | hmem
    · exact hhangul c (hleft c hmem) hc.2
    · rcases List.mem_cons.1 hmem with rfl | hmem
      · exact absurd hc.1 (by decide)
      · exact hhangul c (hright c hmem) hc.2
  rw [protectedIdentifiers, hnone]
  rfl

/-- The removal at a run of whitespace is decided, and is one of the given ones. -/
private theorem supportedRemoval_spec (scorer : SpacingScorer) (removalIndexes : List ℕ) (run : Text × Text) :
    ∃ r, supportedRemoval scorer removalIndexes run = .ok r ∧ ∀ i ∈ r, i ∈ removalIndexes := by
  have hnone : ∀ i ∈ (none : Option ℕ), i ∈ removalIndexes := fun i hi => nomatch hi
  rw [supportedRemoval]
  dsimp only
  split
  · exact ⟨none, rfl, hnone⟩
  rename_i hindex
  have hsome : ∀ i ∈ some ((withoutWhitespace run.1).length - 1), i ∈ removalIndexes := by
    intro i hi
    cases Option.mem_some_iff.1 hi
    by_contra hnot
    exact hindex (Or.inr hnot)
  split
  · exact ⟨none, rfl, hnone⟩
  split
  · exact ⟨none, rfl, hnone⟩
  split
  · exact ⟨none, rfl, hnone⟩
  split
  · exact ⟨_, rfl, hsome⟩
  · have hleft : ∀ c ∈ (run.1.reverse.takeWhile isHangul).reverse, isHangul c = true := fun c hc =>
      List.mem_takeWhile_imp (List.mem_reverse.1 hc)
    have hright : ∀ c ∈ run.2.takeWhile isHangul, isHangul c = true := fun c hc => List.mem_takeWhile_imp hc
    rw [protectedLanguageProposals, protectedIdentifiers_fragments hleft hright]
    refine ⟨_, rfl, ?_⟩
    split
    · exact hsome
    · exact hnone

private theorem supportedFragmentRemovals_spec (scorer : SpacingScorer) (value : Text) (removalIndexes : List ℕ) :
    ∃ authorized, supportedFragmentRemovals scorer value removalIndexes = .ok authorized ∧
      ∀ i ∈ authorized, i ∈ removalIndexes := by
  obtain ⟨supported, hsupported⟩ := mapM_total (f := supportedRemoval scorer removalIndexes)
    (l := whitespaceRuns [] [] value) fun run _ => (supportedRemoval_spec scorer removalIndexes run).imp fun _ h => h.1
  refine ⟨supported.filterMap id, by rw [supportedFragmentRemovals, hsupported]; rfl, fun i hi => ?_⟩
  obtain ⟨r, hr, hi⟩ := List.mem_filterMap.1 hi
  obtain ⟨run, -, hrun⟩ := mem_of_mapM_eq_ok hsupported hr
  obtain ⟨r', hr', hmem⟩ := supportedRemoval_spec scorer removalIndexes run
  rw [hrun] at hr'
  cases hr'
  exact hmem i hi

private theorem getElem?_mergedStates {value normalized : Text} {authorized : List ℕ} (i : ℕ) :
    (mergedStates value normalized authorized)[i]? =
      if i ∈ authorized then (spacingStates value)[i]?.map fun state => ((spacingStates normalized)[i]?).getD state
      else (spacingStates value)[i]? := by
  rw [mergedStates, List.getElem?_map, List.getElem?_zipIdx, Nat.zero_add]
  cases (spacingStates value)[i]? with
  | none => simp
  | some state => by_cases h : i ∈ authorized <;> simp [h]

section Language

variable (platform : Platform) (regionId : RegionId) (scorer : SpacingScorer) {value : Text}
  {characters : List EvidenceAtom}

/-- The repair by a proposal is decided; it only removes spaces. -/
private theorem repairFromProposal_spec (normalized : Text) (hc : CellCharacters characters)
    (hsingle : ∀ a ∈ characters, a.text.length = 1) (hvalue : withoutWhitespace value = atomsText characters) :
    ∃ r, repairFromProposal platform regionId scorer value normalized characters = .ok r ∧
      ∀ p ∈ r, RepairSpec characters value p.1 p.2 ∧ ∀ i ∈ p.2, (spacingStates value)[i]? = some .space := by
  obtain ⟨authorized, hauthorized, hremovals⟩ :=
    supportedFragmentRemovals_spec scorer value (hangulRemovals value normalized)
  rw [repairFromProposal, hauthorized, ok_bind]
  split
  · exact ⟨none, rfl, fun p hp => nomatch hp⟩
  have hpos := List.length_pos_iff.2 (atomsText_ne_nil hc.nonempty)
  have hlength : (mergedStates value normalized authorized).length + 1 = (atomsText characters).length := by
    rw [mergedStates, List.length_map, List.length_zipIdx, length_spacingStates, hvalue]
    omega
  obtain ⟨-, hconserves, -⟩ := renderSpacingStates_spec hc.visible hlength
  have hregular := regular_renderSpacingStates hc.visible hlength
  have hstates := spacingStates_renderSpacingStates hc.visible hlength
  dsimp only
  rw [hvalue, (textSpacingDefects_eq_ok hc hconserves).2 ⟨⟨hsingle, hregular⟩, rfl⟩, ok_bind]
  split
  · exact ⟨none, rfl, fun p hp => nomatch hp⟩
  refine ⟨_, rfl, fun p hp => ?_⟩
  cases Option.mem_some_iff.1 hp
  have hmem : ∀ i, i ∈ sortBy id authorized.eraseDups ↔ i ∈ authorized := by
    intro i
    rw [mem_sortBy, List.mem_eraseDups]
  have hremoved : ∀ i ∈ authorized, (spacingStates value)[i]? = some .space ∧
      (spacingStates normalized)[i]? = some .none := by
    intro i hi
    have hremoval := (List.mem_filter.1 (hremovals i hi)).2
    simp only [decide_eq_true_eq] at hremoval
    exact ⟨hremoval.1, hremoval.2.1⟩
  refine ⟨⟨hconserves, hregular, ?_, ?_, ?_, ?_⟩, fun i hi => (hremoved i ((hmem i).1 hi)).1⟩
  · have hnodup : (authorized.eraseDups.map id).Nodup := by
      rw [List.map_id]
      exact nodup_eraseDups authorized
    exact sortBy_pairwise_lt hnodup
  · intro i hi
    have hspace := (hremoved i ((hmem i).1 hi)).1
    exact (List.getElem?_eq_some_iff.1 hspace).1
  · intro i hi
    rw [hstates, getElem?_mergedStates, if_neg fun h => hi ((hmem i).2 h)]
  · intro i hi
    obtain ⟨hspace, hproposed⟩ := hremoved i ((hmem i).1 hi)
    rw [hstates, getElem?_mergedStates, if_pos ((hmem i).1 hi), hspace, hproposed]
    rfl

/-- The texts that the repair looks at: it stops at the first one without defects. -/
def examinedTexts (platform : Platform) : List Text → List Text
  | [] => []
  | t :: texts => t :: if textDefectCodes platform t = [] then [] else examinedTexts platform texts

/-- The proposals in normal form with the characters of the cell. -/
def usableTexts (characters : List EvidenceAtom) (proposals : List Text) : List Text :=
  (proposals.map normalizedProposal).filter fun t => t ≠ [] ∧ withoutWhitespace t = atomsText characters

/-- The loop over the proposals ends when every text that it looks at is regular over single characters. -/
private theorem languageRepairLoop_spec (hc : CellCharacters characters)
    (hvalue : withoutWhitespace value = atomsText characters) (proposals : List Text) :
    ((∃ r, languageRepairLoop platform regionId scorer value characters proposals = .ok r) ↔
      ∀ t ∈ examinedTexts platform (usableTexts characters proposals),
        (∀ a ∈ characters, a.text.length = 1) ∧ RegularText t) ∧
      ∀ p, languageRepairLoop platform regionId scorer value characters proposals = .ok (some p) →
        RepairSpec characters value p.1 p.2 ∧ ∀ i ∈ p.2, (spacingStates value)[i]? = some .space := by
  induction proposals with
  | nil =>
    refine ⟨iff_of_true ⟨none, rfl⟩ (by simp [usableTexts, examinedTexts]), fun p h => ?_⟩
    cases h
  | cons proposal proposals ih =>
    by_cases husable : normalizedProposal proposal = [] ∨
        withoutWhitespace (normalizedProposal proposal) ≠ atomsText characters
    · have hloop : languageRepairLoop platform regionId scorer value characters (proposal :: proposals) =
          languageRepairLoop platform regionId scorer value characters proposals := by
        rw [languageRepairLoop, if_pos husable]
      have htexts : usableTexts characters (proposal :: proposals) = usableTexts characters proposals := by
        rw [usableTexts, List.map_cons, List.filter_cons_of_neg]
        · rfl
        · rw [decide_eq_true_eq]
          tauto
      rw [hloop, htexts]
      exact ih
    · rw [not_or, not_not] at husable
      have htexts : usableTexts characters (proposal :: proposals) =
          normalizedProposal proposal :: usableTexts characters proposals := by
        rw [usableTexts, List.map_cons, List.filter_cons_of_pos]
        · rfl
        · exact decide_eq_true husable
      have hloop : languageRepairLoop platform regionId scorer value characters (proposal :: proposals) =
          textSpacingDefects platform regionId (normalizedProposal proposal) characters >>= fun defects =>
            if defects ≠ [] then languageRepairLoop platform regionId scorer value characters proposals
            else if normalizedProposal proposal = value then pure none
            else repairFromProposal platform regionId scorer value (normalizedProposal proposal) characters := by
        rw [languageRepairLoop, if_neg (by tauto)]
      rw [hloop, htexts, examinedTexts]
      by_cases hok : (∀ a ∈ characters, a.text.length = 1) ∧ RegularText (normalizedProposal proposal)
      · rw [(textSpacingDefects_eq_ok hc husable.2).2 ⟨hok, rfl⟩, ok_bind, List.forall_mem_cons, and_iff_right hok]
        by_cases hcodes : textDefectCodes platform (normalizedProposal proposal) = []
        · rw [if_neg (not_not.2 hcodes), if_pos hcodes]
          by_cases hsame : normalizedProposal proposal = value
          · rw [if_pos hsame]
            refine ⟨iff_of_true ⟨none, rfl⟩ (by simp), fun p h => ?_⟩
            cases h
          · rw [if_neg hsame]
            obtain ⟨r, hr, hspec⟩ := repairFromProposal_spec platform regionId scorer (normalizedProposal proposal)
              hc hok.1 hvalue
            rw [hr]
            refine ⟨iff_of_true ⟨r, rfl⟩ (by simp), fun p h => ?_⟩
            exact hspec p (Except.ok.inj h)
        · rw [if_pos hcodes, if_neg hcodes]
          exact ih
      · have hraises : ∀ r, textSpacingDefects platform regionId (normalizedProposal proposal) characters ≠ .ok r :=
          fun r h => hok ((textSpacingDefects_eq_ok hc husable.2).1 h).1
        refine ⟨iff_of_false ?_ fun h => hok (h _ List.mem_cons_self), fun p h => ?_⟩
        · rintro ⟨r, h⟩
          obtain ⟨codes, hcodes, -⟩ := bind_eq_ok.1 h
          exact hraises codes hcodes
        · obtain ⟨codes, hcodes, -⟩ := bind_eq_ok.1 h
          exact absurd hcodes (hraises codes)

/-- The supported removals are the supported gaps. -/
private theorem supportedFragmentRemovals_eq (value normalized : Text) :
    supportedFragmentRemovals scorer value (hangulRemovals value normalized) =
      .ok (supportedGaps scorer value normalized) := by
  have hruns : (whitespaceRuns [] [] value).mapM (supportedRemoval scorer (hangulRemovals value normalized)) =
      .ok ((whitespaceRuns [] [] value).map fun run =>
        (supportedRemoval scorer (hangulRemovals value normalized) run).toOption.join) := by
    refine mapM_eq_map fun run _ => ?_
    obtain ⟨r, hr, -⟩ := supportedRemoval_spec scorer (hangulRemovals value normalized) run
    rw [hr]
    rfl
  rw [supportedFragmentRemovals, hruns, ok_bind, List.filterMap_map]
  rfl

/-- The states after a repair are those without the removed gaps. -/
private theorem mergedStates_eq {value normalized : Text} {removed : List ℕ}
    (hremoved : ∀ i, i ∈ removed ↔ i ∈ supportedGaps scorer value normalized) :
    mergedStates value normalized (supportedGaps scorer value normalized) =
      (spacingStates value).zipIdx.map fun (state, i) => if i ∈ removed then .none else state := by
  obtain ⟨authorized, hauthorized, hremovals⟩ :=
    supportedFragmentRemovals_spec scorer value (hangulRemovals value normalized)
  cases (supportedFragmentRemovals_eq scorer value normalized).symm.trans hauthorized
  refine List.map_congr_left fun entry _ => ?_
  by_cases hmem : entry.2 ∈ supportedGaps scorer value normalized
  · have hremoval := (List.mem_filter.1 (hremovals entry.2 hmem)).2
    simp only [decide_eq_true_eq] at hremoval
    simp only [if_pos hmem, if_pos ((hremoved _).2 hmem), hremoval.2.1, Option.getD_some]
  · simp only [if_neg hmem, if_neg (mt (hremoved _).1 hmem)]

/-- The repair by a proposal removes the proposed gaps. -/
private theorem gaps_of_repairFromProposal (hc : CellCharacters characters)
    (hvalue : withoutWhitespace value = atomsText characters) {normalized : Text} {r : Option (Text × List ℕ)}
    (h : repairFromProposal platform regionId scorer value normalized characters = .ok r) :
    r.elim [] Prod.snd = proposedGaps platform scorer value normalized := by
  rw [repairFromProposal, supportedFragmentRemovals_eq, ok_bind] at h
  have hremoved : ∀ i, i ∈ sortBy id (supportedGaps scorer value normalized).eraseDups ↔
      i ∈ supportedGaps scorer value normalized := by
    intro i
    rw [mem_sortBy, List.mem_eraseDups]
  unfold proposedGaps
  dsimp only
  split at h
  · rename_i hnil
    cases pure_eq_ok.1 h
    have hnone : sortBy id (supportedGaps scorer value normalized).eraseDups = [] := by
      refine List.eq_nil_iff_forall_not_mem.2 fun i hi => ?_
      rw [hremoved, hnil] at hi
      cases hi
    rw [hnone, ite_self]
    rfl
  · have hstates := mergedStates_eq scorer hremoved
    have hrepaired : renderSpacingStates (withoutWhitespace value)
        (mergedStates value normalized (supportedGaps scorer value normalized)) =
          withoutGaps value (sortBy id (supportedGaps scorer value normalized).eraseDups) := by
      rw [hstates]
      rfl
    dsimp only at h
    rw [hrepaired] at h
    obtain ⟨defects, hdefects, h⟩ := bind_eq_ok.1 h
    have hlength : ((spacingStates value).zipIdx.map fun (state, i) =>
        if i ∈ sortBy id (supportedGaps scorer value normalized).eraseDups then BoundaryState.none else state).length + 1 =
          (atomsText characters).length := by
      have hpos := List.length_pos_iff.2 (atomsText_ne_nil hc.nonempty)
      rw [List.length_map, List.length_zipIdx, length_spacingStates, hvalue]
      omega
    have hconserves : withoutWhitespace (withoutGaps value
        (sortBy id (supportedGaps scorer value normalized).eraseDups)) = atomsText characters := by
      rw [withoutGaps, hvalue]
      exact (renderSpacingStates_spec hc.visible hlength).2.1
    obtain ⟨-, rfl⟩ := (textSpacingDefects_eq_ok hc hconserves).1 hdefects
    split at h
    · rename_i hdefects
      cases pure_eq_ok.1 h
      rw [if_neg hdefects]
      rfl
    · rename_i hdefects
      cases pure_eq_ok.1 h
      rw [if_pos (not_not.1 hdefects)]
      rfl

/-- The repair by the first proposal without defects. -/
private theorem gaps_of_languageRepairLoop (hc : CellCharacters characters)
    (hvalue : withoutWhitespace value = atomsText characters) {proposals : List Text} {r : Option (Text × List ℕ)}
    (h : languageRepairLoop platform regionId scorer value characters proposals = .ok r) :
    r.elim [] Prod.snd =
      match (usableTexts characters proposals).find? fun t => textDefectCodes platform t = [] with
      | none => []
      | some proposal => if proposal = value then [] else proposedGaps platform scorer value proposal := by
  induction proposals with
  | nil =>
    cases h
    rfl
  | cons proposal proposals ih =>
    rw [languageRepairLoop] at h
    unfold usableTexts at ih ⊢
    rw [List.map_cons]
    split at h
    · rename_i hunusable
      rw [List.filter_cons_of_neg]
      · exact ih h
      · rw [decide_eq_true_eq]
        tauto
    · rename_i husable
      rw [not_or, not_not] at husable
      rw [List.filter_cons_of_pos]
      swap
      · exact decide_eq_true husable
      obtain ⟨defects, hdefects, h⟩ := bind_eq_ok.1 h
      obtain ⟨-, rfl⟩ := (textSpacingDefects_eq_ok hc husable.2).1 hdefects
      split at h
      · rename_i hdefects
        rw [List.find?_cons_of_neg (by simpa using hdefects)]
        exact ih h
      · rename_i hclean
        rw [List.find?_cons_of_pos (by simpa using hclean)]
        dsimp only
        split at h
        · rename_i hsame
          cases pure_eq_ok.1 h
          rw [if_pos hsame]
          rfl
        · rename_i hdiffers
          rw [if_neg hdiffers]
          exact gaps_of_repairFromProposal platform regionId scorer hc hvalue h

end Language

/-! ### The parts of the table -/

/-- A repaired cell: the repair changes only the boundaries `indexes`, and leaves a regular text regular. -/
structure PartSpec (part : CellPart) : Prop where
  characters : CellCharacters part.characters
  current : withoutWhitespace part.current = atomsText part.characters
  trimmed : Trimmed part.current
  conserves : withoutWhitespace part.repaired = atomsText part.characters
  regular : RegularText part.current → RegularText part.repaired
  repairedTrimmed : Trimmed part.repaired
  increasing : part.indexes.Pairwise (· < ·)
  inside : ∀ i ∈ part.indexes, i < (spacingStates part.current).length
  kept : ∀ i, i ∉ part.indexes → (spacingStates part.repaired)[i]? = (spacingStates part.current)[i]?
  soft : ∀ i ∈ part.indexes, (spacingStates part.repaired)[i]? = some .none

section Cell

variable {current : Text} {characters : List EvidenceAtom}

private theorem PartSpec.unchanged (hc : CellCharacters characters)
    (hcurrent : withoutWhitespace current = atomsText characters) (htrimmed : Trimmed current) (byLanguage : Bool) :
    PartSpec ⟨characters, current, current, [], byLanguage⟩ :=
  ⟨hc, hcurrent, htrimmed, hcurrent, id, htrimmed, List.Pairwise.nil, (fun _ hi => nomatch hi), fun _ _ => rfl,
    fun _ hi => nomatch hi⟩

private theorem PartSpec.ofRepair (hc : CellCharacters characters)
    (hcurrent : withoutWhitespace current = atomsText characters) (htrimmed : Trimmed current) {repaired : Text}
    {indexes : List ℕ} (h : RepairSpec characters current repaired indexes) (byLanguage : Bool) :
    PartSpec ⟨characters, current, repaired, indexes, byLanguage⟩ :=
  ⟨hc, hcurrent, htrimmed, h.conserves, fun _ => h.regular, h.regular.1, h.increasing, h.inside, h.kept, h.soft⟩

/-- The repair of a qualified identifier, which is another text without whitespace. -/
private structure DenseRepair (current dense : Text) : Prop where
  eq : dense = withoutWhitespace current
  ne : dense ≠ current
  visible : ∀ c ∈ dense, isSpace c = false
  unchanged : withoutWhitespace dense = dense
  length : (spacingStates dense).length = (spacingStates current).length

private theorem denseRepair {dense : Text} (h : qualifiedIdentifierRepair current = some dense) :
    DenseRepair current dense := by
  have hdense : dense = withoutWhitespace current ∧ dense ≠ current := by
    rw [qualifiedIdentifierRepair] at h
    split at h
    · rename_i hrepaired
      cases h
      exact ⟨rfl, hrepaired.1⟩
    · cases h
  have hvisible : ∀ c ∈ dense, isSpace c = false := by
    intro c hmem
    rw [hdense.1] at hmem
    simpa using (List.mem_filter.1 hmem).2
  have hself : withoutWhitespace dense = dense := by
    rw [withoutWhitespace, List.filter_eq_self]
    exact fun c hmem => by simp [hvisible c hmem]
  refine ⟨hdense.1, hdense.2, hvisible, hself, ?_⟩
  rw [length_spacingStates, length_spacingStates, hself, hdense.1]

/-- The repair of a qualified identifier removes all of its whitespace. -/
private theorem qualifiedIdentifierRepair_spec (hc : CellCharacters characters)
    (hcurrent : withoutWhitespace current = atomsText characters) {dense : Text}
    (h : qualifiedIdentifierRepair current = some dense) :
    RepairSpec characters current dense (changedBoundaryIndexes current dense) := by
  obtain ⟨hdense, -, hvisible, hself, hlength⟩ := denseRepair h
  rw [hcurrent] at hdense
  have hgaps : ∀ g ∈ gaps dense, g = [] := by
    intro g hg
    refine List.eq_nil_iff_forall_not_mem.2 fun c hmem => ?_
    obtain ⟨hdense, hspace⟩ := mem_of_mem_gaps hg c hmem
    rw [hvisible c hdense] at hspace
    cases hspace
  have hstates := states_of_visible hvisible
  have hmem : ∀ i, i ∈ changedBoundaryIndexes current dense ↔ i < (spacingStates current).length ∧
      (spacingStates current)[i]? ≠ (spacingStates dense)[i]? := by
    intro i
    rw [changedBoundaryIndexes, changedStates, List.mem_filter, List.mem_range, decide_eq_true_eq]
  refine ⟨hself.trans hdense, ⟨trimmed_of_visible hvisible (hdense ▸ atomsText_ne_nil hc.nonempty), ?_⟩, ?_, ?_, ?_, ?_⟩
  · exact fun g hg => Or.inl (hgaps g hg)
  · exact List.pairwise_lt_range.filter _
  · exact fun i hi => ((hmem i).1 hi).1
  · intro i hi
    rw [hmem, not_and, not_not] at hi
    by_cases hlt : i < (spacingStates current).length
    · exact (hi hlt).symm
    · rw [List.getElem?_eq_none (by omega), List.getElem?_eq_none (by omega)]
  · intro i hi
    have hlt : i < (spacingStates dense).length := by
      have hinside := ((hmem i).1 hi).1
      omega
    rw [List.getElem?_eq_getElem hlt, hstates _ (List.getElem_mem hlt)]

/-- The repair of a cell does not raise: the cell spells a qualified identifier or looks like a formula, or it has
single characters and every text that the scorer's repair looks at is regular. -/
def CellReadable (platform : Platform) (isWord : Char → Bool) (scorer : SpacingScorer) (current : Text)
    (characters : List EvidenceAtom) : Prop :=
  qualifiedIdentifierRepair current = none → looksLikeFormula isWord current = false →
    (protectedIdentifiers current).length ≤ sentinelCount ∧
      ∀ t ∈ examinedTexts platform (usableTexts characters (restoredProposals scorer current)),
        (∀ a ∈ characters, a.text.length = 1) ∧ RegularText t

theorem repairCell_spec (platform : Platform) (isWord : Char → Bool) (regionId : RegionId)
    (scorer : SpacingScorer) (hc : CellCharacters characters) (hcurrent : withoutWhitespace current = atomsText characters)
    (htrimmed : Trimmed current) :
    ((∃ part, repairCell platform isWord regionId scorer current characters = .ok part) ↔
      CellReadable platform isWord scorer current characters) ∧
      ∀ part, repairCell platform isWord regionId scorer current characters = .ok part →
        part.characters = characters ∧ part.current = current ∧ PartSpec part := by
  rw [repairCell, CellReadable]
  cases hidentifier : qualifiedIdentifierRepair current with
  | some dense =>
    refine ⟨iff_of_true ⟨_, rfl⟩ (fun h => nomatch h), fun part hpart => ?_⟩
    cases hpart
    exact ⟨rfl, rfl, PartSpec.ofRepair hc hcurrent htrimmed (qualifiedIdentifierRepair_spec hc hcurrent hidentifier) _⟩
  | none =>
    cases hformula : looksLikeFormula isWord current with
    | true =>
      refine ⟨iff_of_true ⟨_, rfl⟩ (fun _ h => nomatch h), fun part hpart => ?_⟩
      cases hpart
      exact ⟨rfl, rfl, PartSpec.unchanged hc hcurrent htrimmed _⟩
    | false =>
      obtain ⟨hexists, hspec⟩ := languageRepairLoop_spec platform regionId scorer hc hcurrent
        (restoredProposals scorer current)
      have hlanguage : ∀ r, firstLanguageRepair platform regionId scorer current characters = .ok r ↔
          (protectedIdentifiers current).length ≤ sentinelCount ∧
            languageRepairLoop platform regionId scorer current characters (restoredProposals scorer current) = .ok r := by
        intro r
        rw [firstLanguageRepair, protectedLanguageProposals, bind_eq_ok]
        simp only [raiseIf_bind_eq_ok, pure_eq_ok, not_lt]
        constructor
        · rintro ⟨_, ⟨hcount, rfl⟩, hloop⟩
          exact ⟨hcount, hloop⟩
        · rintro ⟨hcount, hloop⟩
          exact ⟨_, ⟨hcount, rfl⟩, hloop⟩
      simp only [forall_const, Bool.false_eq_true, if_false]
      rw [← hexists]
      constructor
      · constructor
        · rintro ⟨part, hpart⟩
          obtain ⟨r, hr, -⟩ := bind_eq_ok.1 hpart
          exact ⟨((hlanguage r).1 hr).1, r, ((hlanguage r).1 hr).2⟩
        · rintro ⟨hcount, r, hr⟩
          rw [(hlanguage r).2 ⟨hcount, hr⟩]
          cases r with
          | none => exact ⟨_, rfl⟩
          | some p => exact ⟨_, rfl⟩
      · intro part hpart
        obtain ⟨r, hr, hpart⟩ := bind_eq_ok.1 hpart
        cases r with
        | none =>
          cases hpart
          exact ⟨rfl, rfl, PartSpec.unchanged hc hcurrent htrimmed _⟩
        | some p =>
          cases hpart
          exact ⟨rfl, rfl, PartSpec.ofRepair hc hcurrent htrimmed (hspec p ((hlanguage _).1 hr).2).1 _⟩

/-- A repaired cell is changed, and at the repaired gaps of its text. -/
structure RepairsGaps (platform : Platform) (isWord : Char → Bool) (scorer : SpacingScorer) (part : CellPart) :
    Prop where
  indexes : part.indexes = repairedGaps platform isWord scorer part.current
  changed : part.indexes ≠ [] → part.current ≠ part.repaired

theorem gaps_of_repairCell {platform : Platform} {isWord : Char → Bool} {regionId : RegionId} {scorer : SpacingScorer}
    (hc : CellCharacters characters) (hcurrent : withoutWhitespace current = atomsText characters) {part : CellPart}
    (h : repairCell platform isWord regionId scorer current characters = .ok part) :
    RepairsGaps platform isWord scorer part := by
  rw [repairCell] at h
  cases hidentifier : qualifiedIdentifierRepair current with
  | some dense =>
    rw [hidentifier] at h
    cases h
    obtain ⟨-, hne, hvisible, -, hlength⟩ := denseRepair hidentifier
    refine ⟨?_, fun _ => hne.symm⟩
    dsimp only
    rw [repairedGaps, hidentifier, Option.isSome_some, if_pos rfl, changedBoundaryIndexes, changedStates]
    refine List.filter_congr fun i hi => ?_
    have hlt : i < (spacingStates dense).length := hlength ▸ List.mem_range.1 hi
    rw [List.getElem?_eq_getElem hlt, states_of_visible hvisible _ (List.getElem_mem hlt)]
  | none =>
    rw [hidentifier] at h
    dsimp only at h
    split at h
    · rename_i hformula
      cases h
      refine ⟨?_, fun hne => absurd rfl hne⟩
      dsimp only
      rw [repairedGaps, hidentifier, Option.isSome_none, if_neg (by decide), if_pos hformula]
    · rename_i hformula
      obtain ⟨r, hr, h⟩ := bind_eq_ok.1 h
      rw [firstLanguageRepair, protectedLanguageProposals, bind_eq_ok] at hr
      obtain ⟨_, hproposals, hr⟩ := hr
      obtain ⟨-, hproposals⟩ := raiseIf_bind_eq_ok.1 hproposals
      cases pure_eq_ok.1 hproposals
      have hgaps := gaps_of_languageRepairLoop platform regionId scorer hc hcurrent hr
      have hrepaired : r.elim [] Prod.snd = repairedGaps platform isWord scorer current := by
        rw [hgaps, repairedGaps, hidentifier, Option.isSome_none, if_neg (by decide), if_neg hformula, hcurrent]
        rfl
      cases r with
      | none =>
        cases h
        exact ⟨hrepaired, fun hne => absurd rfl hne⟩
      | some p =>
        cases h
        refine ⟨hrepaired, fun hne heq => ?_⟩
        obtain ⟨hspec, hspace⟩ := (languageRepairLoop_spec platform regionId scorer hc hcurrent _).2 p hr
        obtain ⟨i, hi⟩ := List.exists_mem_of_ne_nil _ hne
        have hnone := hspec.soft i hi
        have heq : current = p.1 := heq
        rw [← heq, hspace i hi] at hnone
        cases hnone

/-- A repair of a regular text leaves out its gaps. -/
theorem repaired_eq_withoutGaps {part : CellPart} (h : PartSpec part) (hregular : RegularText part.current) :
    part.repaired = withoutGaps part.current part.indexes := by
  have hstates : (spacingStates part.current).zipIdx.map (fun entry : BoundaryState × ℕ =>
      if entry.2 ∈ part.indexes then .none else entry.1) = spacingStates part.repaired := by
    refine List.ext_getElem? fun i => ?_
    rw [List.getElem?_map, List.getElem?_zipIdx, Nat.zero_add]
    by_cases hi : i ∈ part.indexes
    · rw [h.soft i hi, List.getElem?_eq_getElem (h.inside i hi)]
      simp [hi]
    · rw [h.kept i hi]
      cases (spacingStates part.current)[i]? with
      | none => rfl
      | some state => simp [hi]
  show _ = renderSpacingStates _ _
  rw [hstates, h.current, ← h.conserves, render_spacingStates (h.regular hregular)]

end Cell

theorem currentText_spec (cell : TableCellCandidate) {atoms : List EvidenceAtom} (h : visibleAtoms atoms ≠ []) :
    withoutWhitespace (currentText cell atoms) = atomsText (visibleAtoms atoms) ∧ Trimmed (currentText cell atoms) := by
  have hne := atomsText_ne_nil h
  have hvisible := atomsText_visible atoms
  have hsource : withoutWhitespace (atomsText atoms).strip = atomsText (visibleAtoms atoms) := by
    rw [withoutWhitespace_strip, withoutWhitespace_atomsText]
  rw [currentText]
  by_cases hrendered : withoutWhitespace (cell.renderedText.getD []).strip = atomsText (visibleAtoms atoms)
  · rw [if_neg (not_not.2 hrendered), if_neg (not_not.2 hrendered)]
    rw [withoutWhitespace_strip] at hrendered
    exact ⟨by rw [withoutWhitespace_strip, hrendered], trimmed_strip (hrendered ▸ hne)⟩
  · rw [if_pos hrendered, if_neg (not_not.2 hsource)]
    rw [withoutWhitespace_strip] at hsource
    exact ⟨by rw [withoutWhitespace_strip, hsource], trimmed_strip (hsource ▸ hne)⟩

end ArdOssie
