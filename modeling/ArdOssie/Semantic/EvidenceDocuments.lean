import ArdOssie.Semantic.Evidence
import ArdOssie.Semantic.SourceBox
import ArdOssie.Library.Results

/-!
# Evidence documents

The atoms of a document, the hypotheses of text recognition and the regions that own them.  Extracted evidence may
leave the authority of a region open; an evidence document may not.
-/

namespace ArdOssie

inductive EvidenceExtractionMode where
  | pdfEmbedded
  | pdfOcr
  | pdfMixed
  deriving DecidableEq

inductive AtomKind where
  | character
  | whitespace
  | lineBreak
  deriving DecidableEq

/-- `validate_kind` -/
def AtomKind.Allows (kind : AtomKind) (text : Text) : Prop :=
  match kind with
  | .lineBreak => text = ['\n']
  | .whitespace => text ≠ ['\n'] ∧ text.all Text.isSpace
  | .character => ¬ text.any Text.isSpace

instance (kind : AtomKind) (text : Text) : Decidable (kind.Allows text) := by
  cases kind <;> unfold AtomKind.Allows <;> infer_instance

theorem AtomKind.allows_letter : AtomKind.Allows .character ['A'] := by decide

theorem AtomKind.allows_blank : AtomKind.Allows .whitespace [' '] := by decide

theorem letter_ne_nil : ['A'] ≠ [] := List.cons_ne_nil _ _

theorem letter_length_le : ['A'].length ≤ 2 := by decide

inductive AtomAuthority where
  | embedded
  | ocr
  deriving DecidableEq

/-- One or two characters of the source. -/
@[ext]
structure EvidenceAtom where
  atomId : AtomId
  ordinal : ℕ
  page : ℕ
  bbox : Option SourceBox
  text : Text
  kind : AtomKind
  authority : AtomAuthority
  sourceObject : ℕ
  sourceIndex : ℕ
  confidence : Score
  page_pos : 1 ≤ page
  text_ne : text ≠ []
  length_le : text.length ≤ 2
  kind_allows : kind.Allows text

instance : DecidableEq EvidenceAtom := fun _ _ => decidable_of_iff _ EvidenceAtom.ext_iff.symm

/-- `atom.text.isspace()` -/
def EvidenceAtom.isSpace (atom : EvidenceAtom) : Bool := atom.text.all Text.isSpace

/-- `atom.model_copy(update={"ordinal": ordinal})` -/
def EvidenceAtom.numbered (atom : EvidenceAtom) (ordinal : ℕ) : EvidenceAtom := { atom with ordinal }

@[simp] theorem EvidenceAtom.numbered_atomId (atom : EvidenceAtom) (n : ℕ) : (atom.numbered n).atomId = atom.atomId := rfl

@[simp] theorem EvidenceAtom.numbered_ordinal (atom : EvidenceAtom) (n : ℕ) : (atom.numbered n).ordinal = n := rfl

@[simp] theorem EvidenceAtom.numbered_text (atom : EvidenceAtom) (n : ℕ) : (atom.numbered n).text = atom.text := rfl

@[simp] theorem EvidenceAtom.numbered_page (atom : EvidenceAtom) (n : ℕ) : (atom.numbered n).page = atom.page := rfl

@[simp] theorem EvidenceAtom.numbered_numbered (atom : EvidenceAtom) (n m : ℕ) :
    (atom.numbered n).numbered m = atom.numbered m := rfl

/-- A text that an engine recognised in a region. -/
@[ext]
structure RecognitionHypothesis where
  hypothesisId : HypothesisId
  regionId : RegionId
  page : ℕ
  bbox : SourceBox
  text : Text
  engine : Text
  confidence : Score
  page_pos : 1 ≤ page
  text_ne : text ≠ []
  engine_ne : engine ≠ []

instance : DecidableEq RecognitionHypothesis := fun _ _ => decidable_of_iff _ RecognitionHypothesis.ext_iff.symm

inductive RegionAuthority where
  | embedded
  | ocr
  | ambiguous
  deriving DecidableEq

theorem RegionAuthority.embedded_review : RegionAuthority.embedded = .ambiguous → false = true := by decide

/-- A part of a page with the atoms and the hypotheses it owns. -/
structure EvidenceRegion where
  regionId : RegionId
  page : ℕ
  bbox : SourceBox
  atomIds : List AtomId
  hypothesisIds : List HypothesisId
  authority : RegionAuthority
  requiresReview : Bool
  page_pos : 1 ≤ page
  review : authority = .ambiguous → requiresReview = true
  nonempty : atomIds ≠ [] ∨ hypothesisIds ≠ []
  deriving DecidableEq

theorem EvidenceRegion.first_nonempty : [(⟨0⟩ : AtomId)] ≠ [] ∨ ([] : List HypothesisId) ≠ [] :=
  Or.inl Identifier.first_ne_nil

theorem EvidenceRegion.three_nonempty : [(⟨0⟩ : AtomId), ⟨1⟩, ⟨2⟩] ≠ [] ∨ ([] : List HypothesisId) ≠ [] :=
  Or.inl Identifier.three_ne_nil

/-- The fields of evidence. -/
structure EvidenceFields where
  sourceHash : Sha256
  extractionMode : EvidenceExtractionMode
  pageCount : ℕ
  atoms : List EvidenceAtom
  hypotheses : List RecognitionHypothesis
  regions : List EvidenceRegion

namespace EvidenceFields

variable (e : EvidenceFields)

/-- `hypothesis_catalog` -/
def hypothesisCatalog : Dict HypothesisId RecognitionHypothesis :=
  Dict.ofList (e.hypotheses.map fun h => (h.hypothesisId, h))

/-- The check of one hypothesis of a region. -/
def checkHypothesis (item : EvidenceRegion) (hypothesisId : HypothesisId) : PyResult Unit := do
  let hypothesis ← e.hypothesisCatalog.getItem hypothesisId
  raiseIf (hypothesis.regionId ≠ item.regionId ∨ hypothesis.page ≠ item.page)
    (.valueError "EVIDENCE_HYPOTHESIS_REGION_MISMATCH")

/-- The checks of one region. -/
def checkRegion (requireResolved : Bool) (item : EvidenceRegion) : PyResult Unit := do
  raiseIf (requireResolved ∧ item.authority = .ambiguous) (.valueError "EVIDENCE_REGION_AUTHORITY_UNRESOLVED")
  raiseIf (requireResolved ∧ item.atomIds = []) (.valueError "EVIDENCE_REGION_ATOMS_REQUIRED")
  raiseIf (∃ i ∈ item.atomIds, i ∉ e.atoms.map (·.atomId)) (.valueError "EVIDENCE_REGION_ATOM_UNKNOWN")
  raiseIf (∃ i ∈ item.hypothesisIds, i ∉ e.hypotheses.map (·.hypothesisId))
    (.valueError "EVIDENCE_REGION_HYPOTHESIS_UNKNOWN")
  forM item.hypothesisIds (e.checkHypothesis item)

/-- `ownership` -/
def ownership : List AtomId := e.regions.flatMap (·.atomIds)

/-- The checks of the owners of the atoms. -/
def checkOwnership : PyResult Unit := do
  raiseIf (¬ e.ownership.Nodup) (.valueError "EVIDENCE_ATOM_OWNERSHIP_NOT_UNIQUE")
  raiseIf (¬ ((∀ i ∈ e.ownership, i ∈ e.atoms.map (·.atomId)) ∧ ∀ a ∈ e.atoms, a.atomId ∈ e.ownership))
    (.valueError "EVIDENCE_ATOM_OWNERSHIP_INCOMPLETE")

/-- `_validate_evidence` -/
def validate (requireResolved : Bool) : PyResult Unit := do
  raiseIf (¬ (e.atoms.map (·.atomId)).Nodup ∨ ¬ (e.atoms.map (·.ordinal)).Nodup)
    (.valueError "EVIDENCE_ATOMS_NOT_UNIQUE")
  raiseIf (¬ (e.regions.map (·.regionId)).Nodup) (.valueError "EVIDENCE_REGIONS_NOT_UNIQUE")
  raiseIf (¬ (e.hypotheses.map (·.hypothesisId)).Nodup) (.valueError "EVIDENCE_HYPOTHESES_NOT_UNIQUE")
  raiseIf (∃ a ∈ e.atoms, e.pageCount < a.page) (.valueError "EVIDENCE_ATOM_PAGE_INVALID")
  raiseIf (∃ r ∈ e.regions, e.pageCount < r.page) (.valueError "EVIDENCE_REGION_PAGE_INVALID")
  raiseIf (∃ h ∈ e.hypotheses, e.pageCount < h.page) (.valueError "EVIDENCE_HYPOTHESIS_PAGE_INVALID")
  forM e.regions (e.checkRegion requireResolved)
  raiseIf (∃ h ∈ e.hypotheses, h.regionId ∉ e.regions.map (·.regionId))
    (.valueError "EVIDENCE_HYPOTHESIS_REGION_UNKNOWN")
  e.checkOwnership

/-- What the checks of evidence establish. -/
structure Valid (requireResolved : Bool) : Prop where
  atomIds : (e.atoms.map (·.atomId)).Nodup
  ordinals : (e.atoms.map (·.ordinal)).Nodup
  regionIds : (e.regions.map (·.regionId)).Nodup
  hypothesisIds : (e.hypotheses.map (·.hypothesisId)).Nodup
  atomPages : ∀ a ∈ e.atoms, a.page ≤ e.pageCount
  regionPages : ∀ r ∈ e.regions, r.page ≤ e.pageCount
  hypothesisPages : ∀ h ∈ e.hypotheses, h.page ≤ e.pageCount
  resolved : requireResolved = true → ∀ r ∈ e.regions, r.authority ≠ .ambiguous ∧ r.atomIds ≠ []
  hypotheses : ∀ r ∈ e.regions, ∀ i ∈ r.hypothesisIds,
    ∃ h ∈ e.hypotheses, h.hypothesisId = i ∧ h.regionId = r.regionId ∧ h.page = r.page
  hypothesisRegions : ∀ h ∈ e.hypotheses, h.regionId ∈ e.regions.map (·.regionId)
  owned : e.ownership.Nodup
  owners : ∀ i, i ∈ e.ownership ↔ i ∈ e.atoms.map (·.atomId)

variable {e}

theorem getItem_hypothesisCatalog (hids : (e.hypotheses.map (·.hypothesisId)).Nodup) {i : HypothesisId}
    {h : RecognitionHypothesis} :
    e.hypothesisCatalog.getItem i = .ok h ↔ h ∈ e.hypotheses ∧ h.hypothesisId = i := by
  have hkeys : ((e.hypotheses.map fun h => (h.hypothesisId, h)).map Prod.fst).Nodup := by
    rw [List.map_map]
    exact hids
  rw [Dict.getItem_eq_ok, hypothesisCatalog]
  constructor
  · intro hlookup
    have hmem := Dict.mem_of_lookup_ofList hlookup
    simp only [List.mem_map, Prod.mk.injEq] at hmem
    obtain ⟨h', hh', hid, rfl⟩ := hmem
    exact ⟨hh', hid⟩
  · rintro ⟨hh, rfl⟩
    exact Dict.lookup_ofList hkeys (List.mem_map_of_mem hh)

private theorem checkRegion_eq_ok (hids : (e.hypotheses.map (·.hypothesisId)).Nodup) {b : Bool} {r : EvidenceRegion} :
    e.checkRegion b r = .ok () ↔ (b = true → r.authority ≠ .ambiguous ∧ r.atomIds ≠ []) ∧
      (∀ i ∈ r.atomIds, i ∈ e.atoms.map (·.atomId)) ∧
      ∀ i ∈ r.hypothesisIds, ∃ h ∈ e.hypotheses, h.hypothesisId = i ∧ h.regionId = r.regionId ∧ h.page = r.page := by
  have hcheck : ∀ i, e.checkHypothesis r i = .ok () ↔
      ∃ h ∈ e.hypotheses, h.hypothesisId = i ∧ h.regionId = r.regionId ∧ h.page = r.page := by
    intro i
    simp only [checkHypothesis, bind_eq_ok, getItem_hypothesisCatalog hids, raiseIf_eq_ok]
    constructor
    · rintro ⟨h, ⟨hmem, hid⟩, hmatch⟩
      exact ⟨h, hmem, hid, by tauto⟩
    · rintro ⟨h, hmem, hid, hregion, hpage⟩
      exact ⟨h, ⟨hmem, hid⟩, by tauto⟩
  simp only [checkRegion, raiseIf_bind_eq_ok, forM_eq_ok, hcheck]
  constructor
  · rintro ⟨h₁, h₂, h₃, -, h₅⟩
    exact ⟨fun hb => ⟨fun h => h₁ ⟨hb, h⟩, fun h => h₂ ⟨hb, h⟩⟩, by simpa using h₃, h₅⟩
  · rintro ⟨h₁, h₂, h₃⟩
    refine ⟨fun h => (h₁ h.1).1 h.2, fun h => (h₁ h.1).2 h.2, by simpa using h₂, ?_, h₃⟩
    rintro ⟨i, hi, hunknown⟩
    obtain ⟨h, hmem, rfl, -⟩ := h₃ i hi
    exact hunknown (List.mem_map_of_mem hmem)

theorem checkOwnership_eq_ok :
    e.checkOwnership = .ok () ↔ e.ownership.Nodup ∧ ∀ i, i ∈ e.ownership ↔ i ∈ e.atoms.map (·.atomId) := by
  simp only [checkOwnership, raiseIf_bind_eq_ok, raiseIf_eq_ok, not_not]
  refine and_congr_right fun _ => ⟨fun h i => ⟨h.1 i, ?_⟩, fun h => ⟨fun i => (h i).1, ?_⟩⟩
  · intro hi
    obtain ⟨a, ha, rfl⟩ := List.mem_map.1 hi
    exact h.2 a ha
  · exact fun a ha => (h a.atomId).2 (List.mem_map_of_mem ha)

/-- The checks pass exactly on valid evidence. -/
theorem validate_eq_ok {b : Bool} : e.validate b = .ok () ↔ e.Valid b := by
  simp only [validate, unit_bind_eq_ok, raiseIf_eq_ok, forM_eq_ok, checkOwnership_eq_ok, not_or, not_not, not_exists,
    not_and, not_lt]
  constructor
  · rintro ⟨⟨h₁, h₂⟩, h₃, h₄, h₅, h₆, h₇, hregions, h₈, h₉, h₁₀⟩
    have hall := fun r hr => (checkRegion_eq_ok h₄).1 (hregions r hr)
    exact ⟨h₁, h₂, h₃, h₄, h₅, h₆, h₇, fun hb r hr => (hall r hr).1 hb, fun r hr => (hall r hr).2.2, h₈, h₉, h₁₀⟩
  · rintro ⟨h₁, h₂, h₃, h₄, h₅, h₆, h₇, h₈, h₉, h₁₀, h₁₁, h₁₂⟩
    refine ⟨⟨h₁, h₂⟩, h₃, h₄, h₅, h₆, h₇, fun r hr => ?_, h₁₀, h₁₁, h₁₂⟩
    refine (checkRegion_eq_ok h₄).2 ⟨fun hb => h₈ hb r hr, fun i hi => ?_, h₉ r hr⟩
    exact (h₁₂ i).1 (List.mem_flatMap.2 ⟨r, hr, hi⟩)

end EvidenceFields

/-- Evidence as it is extracted. -/
structure ExtractedEvidence extends EvidenceFields where
  pageCount_pos : 1 ≤ pageCount
  validated : toEvidenceFields.validate false = .ok ()

theorem ExtractedEvidence.valid (e : ExtractedEvidence) : e.toEvidenceFields.Valid false :=
  EvidenceFields.validate_eq_ok.1 e.validated

/-- Evidence in which every region has an authority and atoms. -/
structure EvidenceDocument extends EvidenceFields where
  pageCount_pos : 1 ≤ pageCount
  validated : toEvidenceFields.validate true = .ok ()

namespace EvidenceDocument

theorem valid (e : EvidenceDocument) : e.toEvidenceFields.Valid true := EvidenceFields.validate_eq_ok.1 e.validated

/-- `EvidenceDocument(…)` -/
def make (e : EvidenceFields) (hcount : 1 ≤ e.pageCount) : PyResult EvidenceDocument :=
  match h : e.validate true with
  | .ok () => .ok ⟨e, hcount, h⟩
  | .error error => .error error

theorem make_eq_ok {e : EvidenceFields} {hcount : 1 ≤ e.pageCount} {d : EvidenceDocument} :
    make e hcount = .ok d ↔ d.toEvidenceFields = e := by
  unfold make
  constructor
  · intro h
    split at h
    · cases h
      rfl
    · cases h
  · rintro rfl
    split
    · rfl
    · rename_i error herror
      rw [d.validated] at herror
      cases herror

/-- A valid document is built. -/
theorem exists_make {e : EvidenceFields} (h : e.Valid true) (hcount : 1 ≤ e.pageCount) :
    ∃ d : EvidenceDocument, make e hcount = .ok d ∧ d.toEvidenceFields = e :=
  ⟨⟨e, hcount, EvidenceFields.validate_eq_ok.2 h⟩, make_eq_ok.2 rfl, rfl⟩

end EvidenceDocument

section Identifiers

variable (platform : Platform)

/-- `make_evidence_id` -/
def makeEvidenceId (stem : String) (parts : List Text) : Identifier stem :=
  ⟨(canonicalHash platform (.arr (parts.map .str))).prefix16⟩

end Identifiers

end ArdOssie
