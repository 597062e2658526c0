import ArdOssie.Semantic.Spacing
import ArdOssie.Semantic.SpacingMake

/-!
# Spacing candidate sets

When the candidates for the whitespace of a region are built: every visible atom is one character, and the whitespace
inside the lines of the source and of the usable proposals is blank, so that every canonical text is rendered by its
boundaries.
-/

namespace ArdOssie

open Text (isSpace withoutWhitespace withoutWhitespace_append)

/-! ### The characters of a region -/

/-- An atom that is not whitespace has no whitespace. -/
theorem visible_text {a : EvidenceAtom} (h : a.isSpace = false) : ∀ c ∈ a.text, isSpace c = false := by
  have hkind := a.kind_allows
  cases hcase : a.kind with
  | lineBreak =>
    rw [hcase] at hkind
    have htext : a.text = ['\n'] := hkind
    rw [EvidenceAtom.isSpace, htext] at h
    cases h
  | whitespace =>
    rw [hcase] at hkind
    rw [EvidenceAtom.isSpace, hkind.2] at h
    cases h
  | character =>
    rw [hcase] at hkind
    have hany : ¬ a.text.any isSpace = true := hkind
    rw [Bool.not_eq_true, List.any_eq_false] at hany
    exact fun c hc => by simpa using hany c hc

theorem mem_visibleAtoms {ordered : List EvidenceAtom} {a : EvidenceAtom} :
    a ∈ visibleAtoms ordered ↔ a ∈ ordered ∧ a.isSpace = false := by
  simp [visibleAtoms]

theorem atomsText_visible (ordered : List EvidenceAtom) :
    ∀ c ∈ atomsText (visibleAtoms ordered), isSpace c = false := by
  intro c hc
  obtain ⟨a, ha, hc⟩ := List.mem_flatMap.1 hc
  exact visible_text (mem_visibleAtoms.1 ha).2 c hc

/-- The characters of the atoms are those of the visible ones. -/
theorem withoutWhitespace_atomsText (ordered : List EvidenceAtom) :
    withoutWhitespace (atomsText ordered) = atomsText (visibleAtoms ordered) := by
  induction ordered with
  | nil => rfl
  | cons a ordered ih =>
    have hcons : atomsText (a :: ordered) = a.text ++ atomsText ordered := rfl
    rw [hcons, withoutWhitespace_append, ih]
    cases ha : a.isSpace with
    | true =>
      have hnil : withoutWhitespace a.text = [] := by
        rw [withoutWhitespace, List.filter_eq_nil_iff]
        exact fun c hc => by simpa using List.all_eq_true.1 ha c hc
      rw [hnil, List.nil_append, visibleAtoms, visibleAtoms, List.filter_cons_of_neg (by simp [ha])]
    | false =>
      have hself : withoutWhitespace a.text = a.text := by
        rw [withoutWhitespace, List.filter_eq_self]
        exact fun c hc => by simpa using visible_text ha c hc
      rw [hself, visibleAtoms, visibleAtoms, List.filter_cons_of_pos (by simp [ha])]
      rfl

private theorem length_le_atomsText (atoms : List EvidenceAtom) : atoms.length ≤ (atomsText atoms).length := by
  induction atoms with
  | nil => exact le_rfl
  | cons a atoms ih =>
    have hpos := List.length_pos_iff.2 a.text_ne
    have hcons : atomsText (a :: atoms) = a.text ++ atomsText atoms := rfl
    rw [hcons, List.length_append, List.length_cons]
    omega

/-- There are as many characters as atoms when every atom is one character. -/
theorem length_atomsText_iff (atoms : List EvidenceAtom) :
    (atomsText atoms).length = atoms.length ↔ ∀ a ∈ atoms, a.text.length = 1 := by
  induction atoms with
  | nil => simp [atomsText]
  | cons a atoms ih =>
    have hpos := List.length_pos_iff.2 a.text_ne
    have hle := length_le_atomsText atoms
    have hcons : atomsText (a :: atoms) = a.text ++ atomsText atoms := rfl
    rw [hcons, List.length_append, List.length_cons, List.forall_mem_cons, ← ih]
    omega

theorem atomsText_ne_nil {atoms : List EvidenceAtom} (h : atoms ≠ []) : atomsText atoms ≠ [] := by
  have hle := length_le_atomsText atoms
  have hpos := List.length_pos_iff.2 h
  intro hnil
  rw [hnil, List.length_nil] at hle
  omega

/-! ### The texts of the proposals -/

private theorem mem_addProposal {proposals : List SpacingProposal} {text t : Text} {feature : String} {score : ℚ} :
    t ∈ (addProposal proposals text feature score).map Prod.fst ↔
      t ∈ proposals.map Prod.fst ∨ (t = canonicalizeWhitespace text ∧ t ≠ []) := by
  rw [addProposal]
  rw [strip_canonicalizeWhitespace]
  split
  · rename_i hnil
    rw [hnil]
    tauto
  · rename_i hne
    split
    · rename_i hmem
      have hkeys : (proposals.map fun p => if p.1 = canonicalizeWhitespace text then
          (p.1, p.2.insert feature.toList score) else p).map Prod.fst = proposals.map Prod.fst := by
        rw [List.map_map]
        refine List.map_congr_left fun p _ => ?_
        rw [Function.comp_apply]
        split <;> rfl
      rw [hkeys]
      refine ⟨Or.inl, ?_⟩
      rintro (h | ⟨rfl, -⟩)
      · exact h
      · exact hmem
    · rw [List.map_append, List.mem_append, List.map_singleton, List.mem_singleton]
      refine or_congr_right ⟨fun h => ⟨h, h ▸ hne⟩, fun h => h.1⟩

private theorem mem_foldl_addProposal {f : Text → Text} {feature : String} {score : ℚ} {t : Text} (texts : List Text)
    (proposals : List SpacingProposal) :
    t ∈ (texts.foldl (fun proposals text => addProposal proposals (f text) feature score) proposals).map Prod.fst ↔
      t ∈ proposals.map Prod.fst ∨ ∃ text ∈ texts, t = canonicalizeWhitespace (f text) ∧ t ≠ [] := by
  induction texts generalizing proposals with
  | nil => simp
  | cons text texts ih =>
    rw [List.foldl_cons, ih, mem_addProposal, or_assoc, List.exists_mem_cons_iff]

/-- The proposed texts in canonical form. -/
private theorem mem_spacingProposals {catalog : Dict AtomId EvidenceAtom} {propose : Text → List Text → List Text}
    {ordered : List EvidenceAtom} {lineChunks : List Text} {t : Text} :
    t ∈ (spacingProposals catalog propose ordered lineChunks).map Prod.fst ↔
      ∃ text, (text = canonicalizeWhitespace (atomsText ordered) ∨
        text = geometryText catalog (visibleAtoms ordered) (sourceWhitespace ordered (visibleAtoms ordered)) ∨
        text = punctuationRules (canonicalizeWhitespace (atomsText ordered)) ∨
        text = atomsText (visibleAtoms ordered) ∨
        ∃ p ∈ propose (canonicalizeWhitespace (atomsText ordered)) lineChunks, text = punctuationRules p) ∧
        t = canonicalizeWhitespace text ∧ t ≠ [] := by
  rw [spacingProposals]
  rw [mem_foldl_addProposal, mem_addProposal, mem_addProposal, mem_addProposal, mem_addProposal]
  simp only [List.map_nil, List.not_mem_nil, false_or, or_and_right, exists_or, exists_eq_left]
  constructor
  · rintro ((((h | h) | h) | h) | ⟨p, hp, h⟩)
    · exact Or.inl h
    · exact Or.inr (Or.inl h)
    · exact Or.inr (Or.inr (Or.inl h))
    · exact Or.inr (Or.inr (Or.inr (Or.inl h)))
    · exact Or.inr (Or.inr (Or.inr (Or.inr ⟨_, ⟨p, hp, rfl⟩, h⟩)))
  · rintro (h | h | h | h | ⟨_, ⟨p, hp, rfl⟩, h⟩)
    · exact Or.inl (Or.inl (Or.inl (Or.inl h)))
    · exact Or.inl (Or.inl (Or.inl (Or.inr h)))
    · exact Or.inl (Or.inl (Or.inr h))
    · exact Or.inl (Or.inr h)
    · exact Or.inr ⟨p, hp, h⟩

/-- The spacing from the boxes separates the characters with spaces and line feeds. -/
private theorem geometryTextFrom_spaces {catalog : Dict AtomId EvidenceAtom} {width : ℚ} {characters : List EvidenceAtom}
    (h : ∀ c ∈ atomsText characters, isSpace c = false) (gaps : List (List AtomId)) :
    ∀ c ∈ geometryTextFrom catalog width characters gaps, isSpace c = true → c = ' ' ∨ c = '\n' := by
  have hvisible : ∀ {a : EvidenceAtom}, (∀ c ∈ a.text, isSpace c = false) →
      ∀ c ∈ a.text, isSpace c = true → c = ' ' ∨ c = '\n' := by
    intro a ha c hc hspace
    rw [ha c hc] at hspace
    cases hspace
  have hseparator : ∀ a b gap, ∀ c ∈ geometrySeparator catalog width a b gap, c = ' ' ∨ c = '\n' := by
    intro a b gap c hc
    unfold geometrySeparator at hc
    split at hc
    · exact Or.inr (List.mem_singleton.1 hc)
    · split at hc
      · exact Or.inl (List.mem_singleton.1 hc)
      · cases hc
  induction characters generalizing gaps with
  | nil => simp [geometryTextFrom]
  | cons a characters ih =>
    have hcons : atomsText (a :: characters) = a.text ++ atomsText characters := rfl
    rw [hcons, List.forall_mem_append] at h
    cases characters with
    | nil => exact hvisible h.1
    | cons b characters =>
      rw [geometryTextFrom, List.forall_mem_append, List.forall_mem_append]
      exact ⟨⟨hvisible h.1, fun c hc _ => hseparator _ _ _ c hc⟩, ih h.2 _⟩

/-! ### The candidate of a proposal -/

section Candidate

variable (platform : Platform) (regionId : RegionId) (ordered : List EvidenceAtom)

/-- The identifier of the candidate with a text. -/
def proposedId (t : Text) : CandidateId :=
  spacingCandidateId platform regionId t ((visibleAtoms ordered).map (·.atomId))
    (sourceWhitespace ordered (visibleAtoms ordered)) none

private def proposedFields (p : SpacingProposal) : SpacingFields :=
  spacingFields platform regionId p.1 (atomsText (visibleAtoms ordered)) ((visibleAtoms ordered).map (·.atomId))
    (sourceWhitespace ordered (visibleAtoms ordered)) (proposalScore p.2) p.2 none

variable {platform regionId ordered}

private theorem length_sourceWhitespace : (sourceWhitespace ordered (visibleAtoms ordered)).length =
    ((visibleAtoms ordered).map (·.atomId)).length - 1 := by
  rw [sourceWhitespace, List.length_map, List.length_zip, List.length_tail, List.length_map]
  omega

private theorem makeProposedCandidate_eq_ok {p : SpacingProposal} {c : SpacingCandidate} :
    makeProposedCandidate platform regionId ordered p = .ok c ↔
      (withoutWhitespace p.1).length = ((visibleAtoms ordered).map (·.atomId)).length ∧
        c.toSpacingFields = proposedFields platform regionId ordered p :=
  makeSpacingCandidate_eq_ok length_sourceWhitespace

/-- A usable proposal makes a candidate when the visible atoms are distinct single characters and its gaps are
regular. -/
private theorem exists_makeProposedCandidate_iff (hvisible : visibleAtoms ordered ≠ []) {p : SpacingProposal}
    (hp : withoutWhitespace p.1 = atomsText (visibleAtoms ordered)) (htrimmed : Trimmed p.1) :
    (∃ c, makeProposedCandidate platform regionId ordered p = .ok c) ↔
      (((visibleAtoms ordered).map (·.atomId)).Nodup ∧ ∀ a ∈ visibleAtoms ordered, a.text.length = 1) ∧
        ∀ g ∈ gaps p.1, RegularGap g := by
  rw [makeProposedCandidate, exists_makeSpacingCandidate_iff length_sourceWhitespace (atomsText_ne_nil hvisible)
    (atomsText_visible ordered) hp htrimmed, List.length_map, length_atomsText_iff, and_comm (a := List.Nodup _)]
  exact and_congr_right fun _ => and_iff_left rfl

end Candidate

/-! ### The candidates of a region -/

private theorem trimmed_of_mem {catalog : Dict AtomId EvidenceAtom} {propose : Text → List Text → List Text}
    {ordered : List EvidenceAtom} {lineChunks : List Text} {p : SpacingProposal}
    (h : p ∈ spacingProposals catalog propose ordered lineChunks) : Trimmed p.1 := by
  obtain ⟨text, -, ht, hne⟩ := mem_spacingProposals.1 (List.mem_map_of_mem h)
  rcases canonicalizeWhitespace_trimmed text with hnil | htrimmed
  · exact absurd (ht.trans hnil) hne
  · exact ht ▸ htrimmed

private theorem withoutWhitespace_source (ordered : List EvidenceAtom) :
    withoutWhitespace (canonicalizeWhitespace (atomsText ordered)) = atomsText (visibleAtoms ordered) := by
  rw [withoutWhitespace_canonicalizeWhitespace, withoutWhitespace_atomsText]

/-- The source and what the scorer proposes are usable when they have the characters of the region. -/
private theorem exists_conserving (catalog : Dict AtomId EvidenceAtom) (propose : Text → List Text → List Text)
    {ordered : List EvidenceAtom} (lineChunks : List Text) (hvisible : visibleAtoms ordered ≠ []) {text : Text}
    (hconserves : withoutWhitespace text = atomsText (visibleAtoms ordered))
    (horigin : text = canonicalizeWhitespace (atomsText ordered) ∨
      ∃ p ∈ propose (canonicalizeWhitespace (atomsText ordered)) lineChunks, text = punctuationRules p) :
    ∃ p ∈ conservingProposals ordered (spacingProposals catalog propose ordered lineChunks),
      p.1 = canonicalizeWhitespace text := by
  have hsame : withoutWhitespace (canonicalizeWhitespace text) = atomsText (visibleAtoms ordered) := by
    rw [withoutWhitespace_canonicalizeWhitespace, hconserves]
  have hne : canonicalizeWhitespace text ≠ [] := by
    intro hnil
    rw [hnil] at hsame
    exact atomsText_ne_nil hvisible hsame.symm
  have hkey : canonicalizeWhitespace text ∈ (spacingProposals catalog propose ordered lineChunks).map Prod.fst := by
    refine mem_spacingProposals.2 ⟨text, ?_, rfl, hne⟩
    rcases horigin with h | h
    · exact Or.inl h
    · exact Or.inr (Or.inr (Or.inr (Or.inr h)))
  obtain ⟨p, hp, hp1⟩ := List.mem_map.1 hkey
  refine ⟨p, List.mem_filter.2 ⟨hp, ?_⟩, hp1⟩
  rw [hp1]
  exact decide_eq_true hsame

/-- Every usable proposal makes a candidate when the visible atoms are distinct single characters and the whitespace
inside the lines of the source and of the usable proposals of the scorer is blank. -/
private theorem exists_candidates_iff (platform : Platform) (regionId : RegionId)
    (catalog : Dict AtomId EvidenceAtom) (propose : Text → List Text → List Text) {ordered : List EvidenceAtom}
    (lineChunks : List Text) (hvisible : visibleAtoms ordered ≠ []) :
    (∃ candidates, (conservingProposals ordered (spacingProposals catalog propose ordered lineChunks)).mapM
      (makeProposedCandidate platform regionId ordered) = .ok candidates) ↔
      (((visibleAtoms ordered).map (·.atomId)).Nodup ∧ ∀ a ∈ visibleAtoms ordered, a.text.length = 1) ∧
        PlainLines (atomsText ordered) ∧
        ∀ p ∈ propose (canonicalizeWhitespace (atomsText ordered)) lineChunks,
          withoutWhitespace (punctuationRules p) = atomsText (visibleAtoms ordered) → PlainLines (punctuationRules p) := by
  have hmem : ∀ p ∈ conservingProposals ordered (spacingProposals catalog propose ordered lineChunks),
      p ∈ spacingProposals catalog propose ordered lineChunks ∧
        withoutWhitespace p.1 = atomsText (visibleAtoms ordered) := by
    intro p hp
    simpa [conservingProposals] using hp
  have hmake : ∀ p ∈ conservingProposals ordered (spacingProposals catalog propose ordered lineChunks),
      (∃ c, makeProposedCandidate platform regionId ordered p = .ok c) ↔
        (((visibleAtoms ordered).map (·.atomId)).Nodup ∧ ∀ a ∈ visibleAtoms ordered, a.text.length = 1) ∧
          ∀ g ∈ gaps p.1, RegularGap g := fun p hp =>
    exists_makeProposedCandidate_iff hvisible (hmem p hp).2 (trimmed_of_mem (hmem p hp).1)
  rw [mapM_total_iff]
  constructor
  · intro hall
    have hregular : ∀ text, withoutWhitespace text = atomsText (visibleAtoms ordered) →
        (text = canonicalizeWhitespace (atomsText ordered) ∨
          ∃ p ∈ propose (canonicalizeWhitespace (atomsText ordered)) lineChunks, text = punctuationRules p) →
        (((visibleAtoms ordered).map (·.atomId)).Nodup ∧ ∀ a ∈ visibleAtoms ordered, a.text.length = 1) ∧
          PlainLines text := by
      intro text hconserves horigin
      obtain ⟨p, hp, hp1⟩ := exists_conserving catalog propose lineChunks hvisible hconserves horigin
      have hok := (hmake p hp).1 (hall p hp)
      rw [hp1, regular_canonicalizeWhitespace] at hok
      exact hok
    obtain ⟨hatoms, hplain⟩ := hregular _ (withoutWhitespace_source ordered) (Or.inl rfl)
    exact ⟨hatoms, plainLines_canonicalizeWhitespace.1 hplain,
      fun p hp hconserves => (hregular _ hconserves (Or.inr ⟨p, hp, rfl⟩)).2⟩
  · rintro ⟨hatoms, hplain, hproposals⟩ p hp
    refine (hmake p hp).2 ⟨hatoms, ?_⟩
    obtain ⟨hproposed, hconserves⟩ := hmem p hp
    obtain ⟨text, horigin, ht, -⟩ := mem_spacingProposals.1 (List.mem_map_of_mem hproposed)
    have hspaces : ∀ c ∈ canonicalizeWhitespace (atomsText ordered), isSpace c = true → c = ' ' ∨ c = '\n' := by
      rcases canonicalizeWhitespace_trimmed (atomsText ordered) with hnil | htrimmed
      · simp [hnil]
      · exact htrimmed.mem_of_regular ((regular_canonicalizeWhitespace _).2 hplain)
    rw [ht, regular_canonicalizeWhitespace]
    rcases horigin with rfl | rfl | rfl | rfl | ⟨q, hq, rfl⟩
    · exact plainLines_canonicalizeWhitespace.2 hplain
    · exact plainLines_of_spaces (geometryTextFrom_spaces (atomsText_visible ordered) _)
    · exact plainLines_of_spaces fun c hc => hspaces c (punctuationRules_subset _ hc)
    · refine plainLines_of_spaces fun c hc hspace => ?_
      rw [atomsText_visible ordered c hc] at hspace
      cases hspace
    · refine hproposals q hq ?_
      rw [← hconserves, ht, withoutWhitespace_canonicalizeWhitespace]

/-! ### The candidate set of a region -/

theorem catalogAtoms_eq_ok_iff {evidence : EvidenceDocument} {ids : List AtomId} {atoms : List EvidenceAtom} :
    catalogAtoms evidence.atomCatalog ids = .ok atoms ↔
      (∀ i ∈ ids, i ∈ evidence.atoms.map (·.atomId)) ∧ atoms = ids.filterMap evidence.atomCatalog.lookup := by
  have hfound : ∀ atoms, catalogAtoms evidence.atomCatalog ids = .ok atoms →
      atoms = ids.filterMap evidence.atomCatalog.lookup := by
    intro atoms h
    have hall := mapM_eq_ok.1 h
    clear h
    induction hall with
    | nil => rfl
    | cons hfirst _ ih =>
      rw [Dict.getItem_eq_ok] at hfirst
      rw [List.filterMap_cons, hfirst, ih]
  constructor
  · intro h
    exact ⟨evidence.exists_catalogAtoms_iff.1 ⟨atoms, h⟩, hfound atoms h⟩
  · rintro ⟨hknown, rfl⟩
    obtain ⟨atoms, h⟩ := evidence.exists_catalogAtoms_iff.2 hknown
    rw [h, hfound atoms h]

private theorem mapM_catalogAtoms_eq_ok_iff {evidence : EvidenceDocument} {lines : List LayoutLine}
    {atoms : List (List EvidenceAtom)} :
    lines.mapM (fun line => catalogAtoms evidence.atomCatalog line.atomIds) = .ok atoms ↔
      (∀ line ∈ lines, ∀ i ∈ line.atomIds, i ∈ evidence.atoms.map (·.atomId)) ∧
        atoms = lines.map fun line => line.atomIds.filterMap evidence.atomCatalog.lookup := by
  induction lines generalizing atoms with
  | nil => simp [pure, Except.pure, eq_comm]
  | cons line lines ih =>
    rw [List.mapM_cons, bind_eq_ok]
    simp only [bind_eq_ok, pure_eq_ok, ih, catalogAtoms_eq_ok_iff, List.forall_mem_cons, List.map_cons]
    constructor
    · rintro ⟨_, ⟨hline, rfl⟩, _, ⟨hlines, rfl⟩, rfl⟩
      exact ⟨⟨hline, hlines⟩, rfl⟩
    · rintro ⟨⟨hline, hlines⟩, rfl⟩
      exact ⟨_, ⟨hline, rfl⟩, _, ⟨hlines, rfl⟩, rfl⟩

theorem make_eq_ok_iff_candidates {i : CandidateSetId} {hash : Sha256} {regionId : RegionId}
    {kind : CandidateKind} {candidates : List Candidate} {set : CandidateSet} :
    CandidateSet.make i hash regionId kind candidates = .ok set ↔ set.candidateSetId = i ∧ set.sourceHash = hash ∧
      set.regionId = regionId ∧ set.decisionType = kind ∧ set.candidates = candidates := by
  unfold CandidateSet.make
  constructor
  · intro h
    split at h
    · split at h
      · split at h
        · cases h
          exact ⟨rfl, rfl, rfl, rfl, rfl⟩
        · cases h
      · cases h
    · cases h
  · rintro ⟨rfl, rfl, rfl, rfl, rfl⟩
    rw [dif_pos set.candidates_mem, dif_pos set.candidateIds_nodup, dif_pos set.candidates_scope]

section Region

variable (platform : Platform) (region : LayoutRegion) (evidence : EvidenceDocument) (layout : LayoutDocument)
  (propose : Text → List Text → List Text)

/-- The atoms of a region. -/
def layoutRegionAtoms : List EvidenceAtom := region.atomIds.filterMap evidence.atomCatalog.lookup

/-- The texts of the lines of a region. -/
def regionLineChunks : List Text :=
  (layout.lines.filter fun line => line.lineId ∈ region.lineIds).map fun line =>
    atomsText (line.atomIds.filterMap evidence.atomCatalog.lookup)

/-- What the scorer proposes for the source text of a region. -/
def scorerProposals : List Text :=
  propose (canonicalizeWhitespace (atomsText (layoutRegionAtoms region evidence))) (regionLineChunks region evidence layout)

/-- The identifiers of the five best renderings of a region. -/
def bestIdentifiers : List CandidateId :=
  let ordered := layoutRegionAtoms region evidence
  let identifier := fun p : SpacingProposal => proposedId platform region.regionId ordered p.1
  let proposals := conservingProposals ordered
    (spacingProposals evidence.atomCatalog propose ordered (regionLineChunks region evidence layout))
  ((sortBy (fun p => toLex (-(proposalScore p.2).val, (identifier p).value)) proposals).take 5).map identifier

/-- The candidates of a region are built: its atoms and those of its lines are in the evidence, every visible atom is
one character, the whitespace inside the lines of the source and of every usable proposal of the scorer is blank, and
the hashes of the five best renderings do not collide. -/
structure SpacingBuildable : Prop where
  known : ∀ i ∈ region.atomIds, i ∈ evidence.atoms.map (·.atomId)
  knownLines : ∀ line ∈ layout.lines, line.lineId ∈ region.lineIds →
    ∀ i ∈ line.atomIds, i ∈ evidence.atoms.map (·.atomId)
  distinct : ((visibleAtoms (layoutRegionAtoms region evidence)).map (·.atomId)).Nodup
  single : ∀ a ∈ visibleAtoms (layoutRegionAtoms region evidence), a.text.length = 1
  source : PlainLines (atomsText (layoutRegionAtoms region evidence))
  proposals : ∀ p ∈ scorerProposals region evidence layout propose,
    withoutWhitespace (punctuationRules p) = atomsText (visibleAtoms (layoutRegionAtoms region evidence)) →
      PlainLines (punctuationRules p)
  identifiers : (bestIdentifiers platform region evidence layout propose).Nodup

end Region

/-- One to five different renderings of the whitespace between characters. -/
structure SpacingChoices (characters : Text) (set : CandidateSet) : Prop where
  size : 1 ≤ set.candidates.length ∧ set.candidates.length ≤ 5
  distinct : (set.spacingCandidates.map (·.renderedText)).Nodup
  candidates : ∀ c ∈ set.candidates, ∃ s : SpacingCandidate, c = .spacing s ∧
    withoutWhitespace s.renderedText = characters ∧ renderBoundaries characters s.boundaries = s.renderedText

theorem filterMap_spacing (candidates : List SpacingCandidate) :
    (candidates.map Candidate.spacing).filterMap (·.spacing?) = candidates := by
  rw [List.filterMap_map]
  exact List.filterMap_some

/-- The best candidates have the identifiers of the best proposals. -/
private theorem candidateIds_of_mapM {platform : Platform} {regionId : RegionId} {ordered : List EvidenceAtom}
    {proposals : List SpacingProposal} {candidates : List SpacingCandidate}
    (h : proposals.mapM (makeProposedCandidate platform regionId ordered) = .ok candidates) :
    ((sortBy (fun c : SpacingCandidate => toLex (-c.score.val, c.candidateId.value)) candidates).take 5).map
      (·.candidateId) =
      ((sortBy (fun p : SpacingProposal => toLex (-(proposalScore p.2).val,
        (proposedId platform regionId ordered p.1).value)) proposals).take 5).map
          fun p => proposedId platform regionId ordered p.1 := by
  have hfields : candidates.map (·.toSpacingFields) = proposals.map (proposedFields platform regionId ordered) := by
    have hall := mapM_eq_ok.1 h
    clear h
    induction hall with
    | nil => rfl
    | cons hfirst _ ih => rw [List.map_cons, List.map_cons, ih, (makeProposedCandidate_eq_ok.1 hfirst).2]
  have hsorted := congrArg (sortBy fun f : SpacingFields => toLex (-f.score.val, f.candidateId.value)) hfields
  rw [sortBy_map, sortBy_map] at hsorted
  have hbest := congrArg (fun fields => (fields.take 5).map fun f : SpacingFields => f.candidateId) hsorted
  simp only [← List.map_take, List.map_map] at hbest
  exact hbest

/-- For a region of a layout with a visible atom, a set of one to five different renderings of its characters is built
exactly when the region is buildable. -/
theorem buildSpacingCandidateSet_iff {platform : Platform} {region : LayoutRegion} {evidence : EvidenceDocument}
    {layout : LayoutDocument} (hregion : region ∈ layout.regions)
    (hvisible : visibleAtoms (layoutRegionAtoms region evidence) ≠ []) (propose : Text → List Text → List Text) :
    (∃ set, buildSpacingCandidateSet platform region evidence layout propose = .ok set ∧
      SpacingChoices (atomsText (visibleAtoms (layoutRegionAtoms region evidence))) set) ↔
      SpacingBuildable platform region evidence layout propose := by
  have hids : region.regionId ∈ layout.regions.map (·.regionId) := List.mem_map_of_mem hregion
  have hcandidates := exists_candidates_iff platform region.regionId evidence.atomCatalog propose
    (regionLineChunks region evidence layout) hvisible
  have hlines : ∀ lines : List LayoutLine, (lines.map fun line =>
      line.atomIds.filterMap evidence.atomCatalog.lookup).map atomsText =
        lines.map fun line => atomsText (line.atomIds.filterMap evidence.atomCatalog.lookup) := by
    intro lines
    rw [List.map_map]
    rfl
  constructor
  · -- every step of the builder returned, and the identifiers of its set are distinct
    rintro ⟨set, hbuild, -⟩
    rw [buildSpacingCandidateSet, raiseIf_bind_eq_ok] at hbuild
    obtain ⟨_, hordered, hrest⟩ := bind_eq_ok.1 hbuild.2
    obtain ⟨hknown, rfl⟩ := catalogAtoms_eq_ok_iff.1 hordered
    rw [raiseIf_bind_eq_ok] at hrest
    obtain ⟨_, hlineAtoms, hrest⟩ := bind_eq_ok.1 hrest.2
    obtain ⟨hknownLines, rfl⟩ := mapM_catalogAtoms_eq_ok_iff.1 hlineAtoms
    obtain ⟨candidates, hmapM, hrest⟩ := bind_eq_ok.1 hrest
    rw [hlines] at hmapM
    rw [raiseIf_bind_eq_ok] at hrest
    obtain ⟨⟨hdistinct, hsingle⟩, hsource, hproposals⟩ := hcandidates.1 ⟨candidates, hmapM⟩
    refine ⟨hknown, ?_, hdistinct, hsingle, hsource, hproposals, ?_⟩
    · intro line hline hmem
      exact hknownLines line (List.mem_filter.2 ⟨hline, decide_eq_true hmem⟩)
    · have hnodup := set.candidateIds_nodup
      obtain ⟨-, -, -, -, hset⟩ := make_eq_ok_iff_candidates.1 hrest.2
      rw [hset, List.map_map] at hnodup
      show (List.map _ _).Nodup
      exact candidateIds_of_mapM hmapM ▸ hnodup
  · -- the five best candidates are kept, and each is made from a proposal with the text of the source
    intro h
    obtain ⟨candidates, hmapM⟩ := hcandidates.2 ⟨⟨h.distinct, h.single⟩, h.source, h.proposals⟩
    have hidentifiers := h.identifiers
    have hbest := candidateIds_of_mapM hmapM
    have hmade : ∀ s ∈ (sortBy (fun c : SpacingCandidate => toLex (-c.score.val, c.candidateId.value))
        candidates).take 5, ∃ p, withoutWhitespace p.1 = atomsText (visibleAtoms (layoutRegionAtoms region evidence)) ∧
          s.toSpacingFields = proposedFields platform region.regionId (layoutRegionAtoms region evidence) p := by
      intro s hs
      obtain ⟨p, hp, hok⟩ := mem_of_mapM_eq_ok hmapM (mem_sortBy.1 (List.mem_of_mem_take hs))
      exact ⟨p, of_decide_eq_true (List.mem_filter.1 hp).2, (makeProposedCandidate_eq_ok.1 hok).2⟩
    -- the text of the source is a proposal, so that one candidate is kept
    have hne : (sortBy (fun c : SpacingCandidate => toLex (-c.score.val, c.candidateId.value)) candidates).take 5 ≠
        [] := by
      obtain ⟨p, hp, -⟩ := exists_conserving evidence.atomCatalog propose
        (regionLineChunks region evidence layout) hvisible (withoutWhitespace_source _) (Or.inl rfl)
      obtain ⟨c, hc, -⟩ := exists_of_mapM_eq_ok hmapM hp
      have hpos := List.length_pos_of_mem hc
      intro hnil
      have hlength := congrArg List.length hnil
      rw [List.length_take, length_sortBy, List.length_nil] at hlength
      omega
    have hlength := List.length_take_le 5
      (sortBy (fun c : SpacingCandidate => toLex (-c.score.val, c.candidateId.value)) candidates)
    generalize hlist : (sortBy (fun c : SpacingCandidate => toLex (-c.score.val, c.candidateId.value))
      candidates).take 5 = best at hbest hmade hne hlength
    have hnodup : (best.map (·.candidateId)).Nodup := by
      rw [hbest]
      exact hidentifiers
    let set : CandidateSet :=
      { candidateSetId := makeCandidateSetId platform evidence.sourceHash region.regionId (best.map (·.candidateId))
        sourceHash := evidence.sourceHash
        regionId := region.regionId
        decisionType := .spacing
        candidates := best.map .spacing
        candidates_mem := by
          rw [List.length_map]
          exact ⟨List.length_pos_iff.2 hne, hlength⟩
        candidateIds_nodup := by
          rw [List.map_map]
          exact hnodup
        candidates_scope := by
          intro c hc
          obtain ⟨s, hs, rfl⟩ := List.mem_map.1 hc
          obtain ⟨p, -, hfields⟩ := hmade s hs
          refine ⟨?_, rfl⟩
          show s.toSpacingFields.regionId = _
          rw [hfields]
          rfl }
    have hmake : CandidateSet.make (makeCandidateSetId platform evidence.sourceHash region.regionId
        (best.map (·.candidateId))) evidence.sourceHash region.regionId .spacing (best.map .spacing) = .ok set :=
      make_eq_ok_iff_candidates.2 ⟨rfl, rfl, rfl, rfl, rfl⟩
    refine ⟨set, ?_, set.candidates_mem, ?_, ?_⟩
    · rw [buildSpacingCandidateSet, raiseIf_bind_eq_ok]
      refine ⟨not_not.2 hids, bind_eq_ok.2 ⟨_, catalogAtoms_eq_ok_iff.2 ⟨h.known, rfl⟩, ?_⟩⟩
      rw [raiseIf_bind_eq_ok]
      refine ⟨hvisible, bind_eq_ok.2 ⟨_, mapM_catalogAtoms_eq_ok_iff.2 ⟨?_, rfl⟩, bind_eq_ok.2 ⟨candidates, ?_, ?_⟩⟩⟩
      · intro line hline
        obtain ⟨hline, hmem⟩ := List.mem_filter.1 hline
        exact h.knownLines line hline (of_decide_eq_true hmem)
      · rw [hlines]
        exact hmapM
      · rw [raiseIf_bind_eq_ok, hlist]
        exact ⟨hne, hmake⟩
    · have hspacing : set.spacingCandidates = best := filterMap_spacing best
      rw [hspacing]
      refine List.Nodup.of_map (proposedId platform region.regionId (layoutRegionAtoms region evidence)) ?_
      rw [List.map_map]
      convert hnodup using 1
      refine List.map_congr_left fun s hs => ?_
      obtain ⟨p, -, hfields⟩ := hmade s hs
      rw [Function.comp_apply, hfields]
      rfl
    · intro c hc
      obtain ⟨s, hs, rfl⟩ := List.mem_map.1 hc
      obtain ⟨p, hp, hfields⟩ := hmade s hs
      have hvalid := SpacingFields.validate_eq_ok.1 s.valid
      have hsequence : s.characterSequence = atomsText (visibleAtoms (layoutRegionAtoms region evidence)) := by
        rw [hfields]
        rfl
      rw [hsequence] at hvalid
      exact ⟨s, rfl, hvalid.2.2.1, hvalid.2.2.2.2.2.2.1⟩

/-! ### Two letters -/

private theorem pairGap_ne_nil (gap : Char) : [gap] ≠ [] := List.cons_ne_nil _ _

private theorem pairGap_length_le (gap : Char) : [gap].length ≤ 2 := by simp

private theorem pairEnd_ne_nil : ['B'] ≠ [] := List.cons_ne_nil _ _

/-- The evidence of a letter, a whitespace character and a letter. -/
def letterPairFields (gap : Char) (hgap : AtomKind.Allows .whitespace [gap]) : EvidenceFields where
  sourceHash := sha256 []
  extractionMode := .pdfEmbedded
  pageCount := 1
  atoms := [⟨⟨0⟩, 0, 1, some SourceBox.page, ['A'], .character, .embedded, 0, 0, Score.one, Nat.one_pos,
      letter_ne_nil, letter_length_le, AtomKind.allows_letter⟩,
    ⟨⟨1⟩, 1, 1, none, [gap], .whitespace, .embedded, 0, 1, Score.one, Nat.one_pos,
      pairGap_ne_nil gap, pairGap_length_le gap, hgap⟩,
    ⟨⟨2⟩, 2, 1, some SourceBox.page, ['B'], .character, .embedded, 0, 2, Score.one, Nat.one_pos,
      pairEnd_ne_nil, by decide, by decide⟩]
  hypotheses := []
  regions := [⟨⟨0⟩, 1, SourceBox.page, [⟨0⟩, ⟨1⟩, ⟨2⟩], [], .embedded, false, Nat.one_pos,
    RegionAuthority.embedded_review, EvidenceRegion.three_nonempty⟩]

/-- A space between the letters. -/
def spacedLetters : EvidenceDocument := ⟨letterPairFields ' ' AtomKind.allows_blank, Nat.one_pos, by decide⟩

/-- A no-break space between the letters. -/
def noBreakLetters : EvidenceDocument := ⟨letterPairFields (Char.ofNat 0xa0) (by decide), Nat.one_pos, by decide⟩

def letterPairRegion : LayoutRegion :=
  ⟨⟨0⟩, 1, SourceBox.page, [⟨0⟩], [⟨0⟩, ⟨1⟩, ⟨2⟩], [⟨0⟩], 0, none, false, Nat.one_pos,
    Identifier.first_ne_nil, Identifier.three_ne_nil, Identifier.first_ne_nil⟩

def letterPairLayoutFields : LayoutFields where
  sourceHash := sha256 []
  pageCount := 1
  lines := [⟨⟨0⟩, 1, SourceBox.page, [⟨0⟩, ⟨1⟩, ⟨2⟩], [⟨0⟩], Score.zero, 1, Nat.one_pos, Identifier.three_ne_nil,
    Identifier.first_ne_nil, one_mem_height⟩]
  regions := [letterPairRegion]
  orderEdges := []

def letterPairLayout : LayoutDocument := ⟨letterPairLayoutFields, Nat.one_pos, rfl⟩

theorem buildSpacingCandidateSet_iff_spaced :
    (∃ set, buildSpacingCandidateSet Platform.ascii letterPairRegion spacedLetters letterPairLayout
      (fun text _ => [text]) = .ok set ∧
      SpacingChoices (atomsText (visibleAtoms (layoutRegionAtoms letterPairRegion spacedLetters))) set) ↔
      SpacingBuildable Platform.ascii letterPairRegion spacedLetters letterPairLayout fun text _ => [text] :=
  buildSpacingCandidateSet_iff (List.mem_singleton.2 rfl) (by decide +kernel) _

/-- A no-break space between two letters stops the building of the candidate set. -/
theorem no_break_space_raises :
    letterPairRegion ∈ letterPairLayout.regions ∧ visibleAtoms (layoutRegionAtoms letterPairRegion noBreakLetters) ≠ [] ∧
      buildSpacingCandidateSet Platform.ascii letterPairRegion noBreakLetters letterPairLayout (fun _ _ => []) =
        .error (.validationError ["CANDIDATE_BOUNDARY_RENDER_INVALID"]) :=
  ⟨List.mem_singleton.2 rfl, by decide +kernel, raised_eq_some.1 (by decide +kernel)⟩

end ArdOssie
