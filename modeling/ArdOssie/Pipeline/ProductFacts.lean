import ArdOssie.JsonText
import ArdOssie.Library.Regex
import ArdOssie.Library.Results
import ArdOssie.Pipeline.TableRecords

/-!
# Product facts

The facts about a product that a model suggests are taken in a fixed order, with the evidence they cite.  A fact that
repeats an accepted one is dropped, and a second value of a kind with one value is a conflict.  The configured
description replaces the suggested ones.
-/

namespace ArdOssie

namespace Text

/-- `str.split()`, with a word that was begun. -/
def splitWordsFrom (word : Text) : Text → List Text
  | [] => if word = [] then [] else [word]
  | c :: t =>
    if isSpace c then (if word = [] then splitWordsFrom [] t else word :: splitWordsFrom [] t)
    else splitWordsFrom (word ++ [c]) t

/-- `" ".join(value.split())` -/
def joinWords (value : Text) : Text := List.intercalate [' '] (splitWordsFrom [] value)

end Text

inductive ProductFactKind where
  | description
  | purpose
  | domain
  | dataType
  | storageLocation
  | sourceSystem
  | sourceName
  | tag
  | access
  | securityClassification
  | owner
  | contact
  | consumer
  | refreshSchedule
  | freshness
  | sla
  | aiReadiness
  | quality
  | constraint
  | relatedLink
  deriving DecidableEq

namespace ProductFactKind

/-- `_PRODUCT_FACT_KIND_ORDER` -/
def order : List ProductFactKind :=
  [description, purpose, domain, dataType, storageLocation, sourceSystem, sourceName, tag, access,
    securityClassification, owner, contact, consumer, refreshSchedule, freshness, sla, aiReadiness, quality, constraint,
    relatedLink]

/-- `_PRODUCT_FACT_SINGLETONS` -/
def singletons : List ProductFactKind :=
  [description, purpose, domain, dataType, storageLocation, access, securityClassification, refreshSchedule, freshness,
    sla, aiReadiness]

/-- `_PRODUCT_FACT_POSITION` -/
def position (kind : ProductFactKind) : ℕ := order.idxOf kind

def text : ProductFactKind → String
  | description => "description"
  | purpose => "purpose"
  | domain => "domain"
  | dataType => "data_type"
  | storageLocation => "storage_location"
  | sourceSystem => "source_system"
  | sourceName => "source_name"
  | tag => "tag"
  | access => "access"
  | securityClassification => "security_classification"
  | owner => "owner"
  | contact => "contact"
  | consumer => "consumer"
  | refreshSchedule => "refresh_schedule"
  | freshness => "freshness"
  | sla => "sla"
  | aiReadiness => "ai_readiness"
  | quality => "quality"
  | constraint => "constraint"
  | relatedLink => "related_link"

theorem position_injective : Function.Injective position := by
  intro k k' h
  have hmem : k ∈ order := by cases k <;> decide
  exact (List.idxOf_inj hmem).1 h

end ProductFactKind

/-- A suggested fact; the value is kept with single blanks. -/
structure ProductFactSuggestion where
  kind : ProductFactKind
  value : Text
  confidence : ℚ
  evidenceIds : List Text
  value_normalized : value.joinWords = value
  value_ne : value ≠ []
  confidence_mem : 0 ≤ confidence ∧ confidence ≤ 1
  evidenceIds_ne : evidenceIds ≠ []

/-- An accepted fact. -/
structure ProductFactIR where
  kind : ProductFactKind
  value : Text
  evidence : List Evidence

/-- What the validation of the facts reads of a parsed document. -/
structure ParsedDocument where
  sourceHash : Sha256
  evidence : List Evidence
  excludedProductFactEvidence : List Evidence

/-! ### Evidence -/

/-- A character up to its case; a capital or a small i also stands for the dotted and the dotless one. -/
def letterIgnoringCase (c : Char) : Regex :=
  .char fun x => x.toLower = c || (c = 'i' && (x.toNat = 0x130 || x.toNat = 0x131))

/-- `_AI_GENERATED_EVIDENCE` -/
def aiGeneratedEvidence : Regex :=
  let spaces : Regex := .star (.char Text.isSpace)
  let letters := fun word : String => word.toList.map letterIgnoringCase
  let automatic : Regex := Regex.sequence (.char (· = '성'))
    ["자동".toList.map fun c => Regex.char (· = c), [spaces, .char (· = '생')]].flatten
  let generated : Regex := Regex.sequence (letterIgnoringCase 'd') (letters "generate")
  Regex.sequence (.opt (.seq spaces (.char (· = ')'))))
    ([.opt (.seq (.char (· = '(')) spaces)] ++ letters "ai" ++ [spaces, .alt automatic generated])

example : aiGeneratedEvidence.occursIn "x (AI 자동 생성)".toList = true ∧
    aiGeneratedEvidence.occursIn "main".toList = false := by decide +kernel

/-- `f"product-evidence-{position:06d}"` -/
def productEvidenceId (position : ℕ) : Text :=
  "product-evidence-".toList ++
    (List.replicate (6 - (Text.decimal position).length) '0' ++ Text.decimal position)

/-- `_product_evidence_catalog` -/
def productEvidenceCatalog (document : ParsedDocument) : Dict Text Evidence :=
  Dict.ofList (document.evidence.zipIdx.map fun p => (productEvidenceId (p.2 + 1), p.1))

section Facts

variable (platform : Platform)

/-- `_product_evidence_key` -/
def productEvidenceKey (evidence : Evidence) : Sha256 × SourceRole × Text × Option Text :=
  (evidence.sourceHash, evidence.role,
    (Json.obj (evidence.locator.filter fun p => match p.2 with | .null => false | _ => true)).dumps platform,
    evidence.excerpt)

/-- `fact.model_dump(mode="json")` -/
def ProductFactSuggestion.json (fact : ProductFactSuggestion) : Json :=
  .record [("kind", .lit fact.kind.text), ("value", .str fact.value), ("confidence", .float fact.confidence),
    ("evidence_ids", .arr (fact.evidenceIds.map .str))]

/-- `_product_fact_input_key` -/
def productFactInputKey (fact : ProductFactSuggestion) : ℕ ×ₗ Text ×ₗ Text ×ₗ Text :=
  toLex (fact.kind.position, toLex (platform.casefold fact.value, toLex (fact.value, fact.json.dumps platform)))

/-- `_resolve_product_fact_evidence` -/
def resolveProductFactEvidence (fact : ProductFactSuggestion) (evidenceCatalog : Dict Text Evidence) :
    PyResult (List Evidence) := do
  raiseIf (¬ fact.evidenceIds.Nodup) (.valueError "LLM_PRODUCT_FACT_EVIDENCE_ID_DUPLICATE")
  fact.evidenceIds.mapM fun evidenceId =>
    match evidenceCatalog.lookup evidenceId with
    | none => .error (.valueError "LLM_PRODUCT_FACT_EVIDENCE_UNKNOWN")
    | some evidence => .ok evidence

/-- The checks of `_validate_product_facts` on a piece of evidence. -/
def checkProductEvidence (document : ParsedDocument) (evidence : Evidence) : PyResult Unit := do
  let excerpt := evidence.excerpt.getD []
  raiseIf (evidence.role ≠ .productHtml) (.valueError "LLM_PRODUCT_FACT_EVIDENCE_ROLE_INVALID")
  raiseIf (evidence.sourceHash ≠ document.sourceHash) (.valueError "LLM_PRODUCT_FACT_EVIDENCE_SOURCE_UNKNOWN")
  raiseIf (excerpt.strip = []) (.valueError "LLM_PRODUCT_FACT_EVIDENCE_EXCERPT_REQUIRED")
  let evidenceKey := productEvidenceKey platform evidence
  raiseIf (evidenceKey ∈ document.excludedProductFactEvidence.map (productEvidenceKey platform))
    (.valueError "LLM_PRODUCT_FACT_EVIDENCE_AI_GENERATED")
  raiseIf (evidenceKey ∉ document.evidence.map (productEvidenceKey platform))
    (.valueError "LLM_PRODUCT_FACT_EVIDENCE_UNKNOWN")
  raiseIf (aiGeneratedEvidence.occursIn excerpt = true) (.valueError "LLM_PRODUCT_FACT_EVIDENCE_AI_GENERATED")

/-! ### The loop over the facts -/

/-- `accepted` and `singleton_values`. -/
structure FactState where
  accepted : List ((ProductFactKind × Text) × ProductFactIR)
  singletonValues : Dict ProductFactKind Text

/-- One round of the loop of `_validate_product_facts`. -/
def acceptProductFact (document : ParsedDocument) (s : FactState) (fact : ProductFactSuggestion) :
    PyResult FactState := do
  let evidence ← resolveProductFactEvidence fact (productEvidenceCatalog document)
  evidence.forM (checkProductEvidence platform document)
  let normalizedKey := platform.casefold fact.value
  if fact.confidence < 7 / 10 then return s
  else if (fact.kind, normalizedKey) ∈ s.accepted.map Prod.fst then return s
  else
    let existing := s.singletonValues.lookup fact.kind
    raiseIf (fact.kind ∈ ProductFactKind.singletons ∧ existing ≠ none ∧ existing ≠ some normalizedKey)
      (.valueError "LLM_PRODUCT_FACT_SINGLETON_CONFLICT")
    return ⟨s.accepted ++ [((fact.kind, normalizedKey), ⟨fact.kind, fact.value, evidence⟩)],
      s.singletonValues.insert fact.kind normalizedKey⟩

/-- The configured description takes the place of the suggested ones. -/
def withDescription (configuredDescription : Option Text) (accepted : List ((ProductFactKind × Text) × ProductFactIR)) :
    List ((ProductFactKind × Text) × ProductFactIR) :=
  let normalized := (configuredDescription.getD []).joinWords
  if normalized = [] then accepted
  else (accepted.filter fun e => e.2.kind ≠ .description) ++
    [((.description, platform.casefold normalized), ⟨.description, normalized, []⟩)]

/-- `_validate_product_facts` -/
def validateProductFacts (facts : List ProductFactSuggestion) (document : ParsedDocument)
    (configuredDescription : Option Text) : PyResult (List ProductFactIR) := do
  let s ← (sortBy (productFactInputKey platform) facts).foldlM (acceptProductFact platform document) ⟨[], ∅⟩
  return sortBy (fun f : ProductFactIR => toLex (f.kind.position, toLex (platform.casefold f.value, f.value)))
    ((withDescription platform configuredDescription s.accepted).map Prod.snd)

end Facts

/-! ### The order of the facts -/

section Order

variable {platform : Platform} {document : ParsedDocument} {fact fact' : ProductFactSuggestion}

/-- The texts of different confidences differ, as the shortest texts of floats that read back do. -/
def ConfidencesRead (platform : Platform) (facts : List ProductFactSuggestion) : Prop :=
  ∀ f ∈ facts, ∀ g ∈ facts, platform.floatRepr f.confidence = platform.floatRepr g.confidence →
    f.confidence = g.confidence

private theorem json_dumps_inj (hp : platform.Documented) (h : fact.json.dumps platform = fact'.json.dumps platform) :
    platform.floatRepr fact.confidence = platform.floatRepr fact'.confidence ∧ fact.evidenceIds = fact'.evidenceIds := by
  have hkeys : (["kind", "value", "confidence", "evidence_ids"].map String.toList).Nodup := by decide
  unfold ProductFactSuggestion.json Json.record at h
  have hfields := (Json.dumps_obj_iff hp (by rfl) (by simpa only [List.map_cons, List.map_nil] using hkeys)).1 h
  rw [Json.dumpsFields_eq_map, Json.dumpsFields_eq_map] at hfields
  simp only [List.map_cons, List.map_nil, List.cons.injEq, Prod.mk.injEq, true_and, and_true] at hfields
  obtain ⟨-, -, hconfidence, hids⟩ := hfields
  rw [Json.dumps_arr_iff hp, List.map_map, List.map_map] at hids
  refine ⟨by simpa only [Json.dumps] using hconfidence, ?_⟩
  refine List.map_injective_iff.2 Json.quote_injective ?_
  simpa only [Function.comp_def, Json.dumps] using hids

/-- Facts with one input key are equal. -/
private theorem eq_of_inputKey (hp : platform.Documented)
    (hconfidence : platform.floatRepr fact.confidence = platform.floatRepr fact'.confidence →
      fact.confidence = fact'.confidence)
    (h : productFactInputKey platform fact = productFactInputKey platform fact') : fact = fact' := by
  unfold productFactInputKey at h
  simp only [EmbeddingLike.apply_eq_iff_eq, Prod.mk.injEq] at h
  obtain ⟨hposition, -, hvalue, hjson⟩ := h
  obtain ⟨hrepr, hids⟩ := json_dumps_inj hp hjson
  have hkind := ProductFactKind.position_injective hposition
  cases fact
  cases fact'
  simp only at hkind hvalue hids
  subst hkind hvalue hids
  have := hconfidence hrepr
  simp only at this
  subst this
  rfl

/-- The facts are taken in one order, however they are given. -/
theorem sortBy_inputKey_eq (hp : platform.Documented) {facts facts' : List ProductFactSuggestion}
    (hread : ConfidencesRead platform facts) (hperm : facts.Perm facts') :
    sortBy (productFactInputKey platform) facts = sortBy (productFactInputKey platform) facts' := by
  refine ((sortBy_perm _ _).trans (hperm.trans (sortBy_perm _ _).symm)).eq_of_pairwise ?_ (sortBy_pairwise_le _ _)
    (sortBy_pairwise_le _ _)
  intro f g hf hg hfg hgf
  have hf' := mem_sortBy.1 hf
  have hg' := hperm.mem_iff.2 (mem_sortBy.1 hg)
  exact eq_of_inputKey hp (hread f hf' g hg') (le_antisymm hfg hgf)

/-! ### Kinds with one value -/

/-- The accepted facts have different keys, and the facts of a kind with one value have the recorded value. -/
structure FactState.Single (platform : Platform) (s : FactState) : Prop where
  nodup : (s.accepted.map Prod.fst).Nodup
  kind : ∀ e ∈ s.accepted, e.2.kind = e.1.1
  recorded : ∀ e ∈ s.accepted, e.1.1 ∈ ProductFactKind.singletons → s.singletonValues.lookup e.1.1 = some e.1.2

private theorem single_empty : FactState.Single platform ⟨[], ∅⟩ :=
  ⟨List.nodup_nil, fun _ he => absurd he List.not_mem_nil, fun _ he => absurd he List.not_mem_nil⟩

private theorem single_step {s s' : FactState} (hs : s.Single platform)
    (h : acceptProductFact platform document s fact = .ok s') : s'.Single platform := by
  unfold acceptProductFact at h
  obtain ⟨evidence, -, h⟩ := bind_eq_ok.1 h
  obtain ⟨_, -, h⟩ := bind_eq_ok.1 h
  dsimp only at h
  split at h
  · cases pure_eq_ok.1 h
    exact hs
  · split at h
    · cases pure_eq_ok.1 h
      exact hs
    · next hnew =>
      obtain ⟨hconflict, h⟩ := raiseIf_bind_eq_ok.1 h
      cases pure_eq_ok.1 h
      refine ⟨?_, ?_, ?_⟩
      · rw [List.map_append]
        exact hs.nodup.append (List.nodup_singleton _) (by simpa using hnew)
      · intro e he
        rcases List.mem_append.1 he with he | he
        · exact hs.kind e he
        · rw [List.mem_singleton.1 he]
      · intro e he hsingle
        rcases List.mem_append.1 he with he | he
        · by_cases hkind : e.1.1 = fact.kind
          · -- the recorded value of the kind is the value of the new fact
            have hrecorded := hs.recorded e he hsingle
            rw [hkind] at hrecorded hsingle
            have hvalue : e.1.2 = platform.casefold fact.value := by
              by_contra hne
              refine hconflict ⟨hsingle, ?_, ?_⟩
              · rw [hrecorded]
                exact Option.some_ne_none _
              · rw [hrecorded]
                exact fun h => hne (Option.some.inj h)
            rw [hkind, hvalue]
            exact AList.lookup_insert _
          · show (s.singletonValues.insert fact.kind _).lookup e.1.1 = _
            rw [AList.lookup_insert_ne hkind]
            exact hs.recorded e he hsingle
        · rw [List.mem_singleton.1 he]
          exact AList.lookup_insert _

private theorem single_run {facts : List ProductFactSuggestion} {s : FactState}
    (h : facts.foldlM (acceptProductFact platform document) ⟨[], ∅⟩ = .ok s) : s.Single platform :=
  foldlM_invariant (P := fun _ s => s.Single platform) (fun _ _ _ _ hs hstep => single_step hs hstep) h single_empty

/-- Each kind with one value occurs at most once among the accepted facts. -/
private theorem length_accepted_le_one {s : FactState} (hs : s.Single platform) {kind : ProductFactKind}
    (hkind : kind ∈ ProductFactKind.singletons) : (s.accepted.filter fun e => e.2.kind = kind).length ≤ 1 := by
  have hmem : ∀ e ∈ s.accepted.filter fun e => e.2.kind = kind,
      some e.1 = (s.singletonValues.lookup kind).map (Prod.mk kind) := by
    intro e he
    obtain ⟨he, hek⟩ := List.mem_filter.1 he
    have hkey : e.1.1 = kind := (hs.kind e he).symm.trans (of_decide_eq_true hek)
    rw [← hkey, hs.recorded e he (hkey ▸ hkind), Option.map_some]
  have hnodup : ((s.accepted.filter fun e => e.2.kind = kind).map Prod.fst).Nodup :=
    hs.nodup.sublist (List.filter_sublist.map Prod.fst)
  cases hall : s.accepted.filter fun e => e.2.kind = kind with
  | nil => exact Nat.zero_le 1
  | cons e rest =>
    -- every other key would be the key of the first fact
    have hrest : rest = [] := by
      refine List.eq_nil_iff_forall_not_mem.2 fun e' he' => ?_
      rw [hall] at hmem hnodup
      have hkey : e'.1 = e.1 := Option.some.inj
        ((hmem e' (List.mem_cons_of_mem e he')).trans (hmem e List.mem_cons_self).symm)
      refine (List.nodup_cons.1 hnodup).1 ?_
      rw [← hkey]
      exact List.mem_map_of_mem he'
    rw [hrest, List.length_singleton]

private theorem length_withDescription_le_one {s : FactState} (hs : s.Single platform) {kind : ProductFactKind}
    (hkind : kind ∈ ProductFactKind.singletons) (configuredDescription : Option Text) :
    ((withDescription platform configuredDescription s.accepted).filter fun e => e.2.kind = kind).length ≤ 1 := by
  unfold withDescription
  dsimp only
  split
  · exact length_accepted_le_one hs hkind
  · rw [List.filter_append, List.length_append, List.filter_filter]
    by_cases hdescription : kind = .description
    · have hnone : (s.accepted.filter fun e => decide (e.2.kind = kind) && decide (e.2.kind ≠ .description)) = [] := by
        refine List.filter_eq_nil_iff.2 fun e _ => ?_
        simp [hdescription]
      rw [hnone]
      exact (Nat.zero_add _).le.trans (List.length_filter_le _ _)
    · have hother : ∀ e : (ProductFactKind × Text) × ProductFactIR,
          (decide (e.2.kind = kind) && decide (e.2.kind ≠ .description)) = decide (e.2.kind = kind) := by
        intro e
        by_cases he : e.2.kind = kind
        · simp [he, hdescription]
        · simp [he]
      have hlast : ¬ ProductFactKind.description = kind := fun h => hdescription h.symm
      simp only [hother, List.filter_cons, List.filter_nil, hlast, decide_false, Bool.false_eq_true, if_false]
      exact length_accepted_le_one hs hkind

/-- The result does not depend on the order of the facts, and each kind with one value occurs at most once in it. -/
theorem validateProductFacts_perm (hp : platform.Documented) {facts facts' : List ProductFactSuggestion}
    (hread : ConfidencesRead platform facts) (hperm : facts.Perm facts') (document : ParsedDocument)
    (configuredDescription : Option Text) :
    validateProductFacts platform facts document configuredDescription =
        validateProductFacts platform facts' document configuredDescription ∧
      ∀ accepted, validateProductFacts platform facts document configuredDescription = .ok accepted →
        ∀ kind ∈ ProductFactKind.singletons, (accepted.filter fun f => f.kind = kind).length ≤ 1 := by
  constructor
  · unfold validateProductFacts
    rw [sortBy_inputKey_eq hp hread hperm]
  · intro accepted h kind hkind
    unfold validateProductFacts at h
    obtain ⟨s, hrun, h⟩ := bind_eq_ok.1 h
    cases pure_eq_ok.1 h
    rw [((sortBy_perm _ _).filter _).length_eq, List.filter_map, List.length_map]
    exact length_withDescription_le_one (single_run hrun) hkind configuredDescription

end Order

/-! ### Facts in conflict -/

/-- A document with one piece of evidence. -/
def orderAnalysis : ParsedDocument :=
  ⟨sha256 [], [⟨sha256 [], .productHtml, [], some "order analysis".toList⟩], []⟩

private def certainFact (kind : ProductFactKind) (value : Text) (hvalue : value.joinWords = value ∧ value ≠ []) :
    ProductFactSuggestion :=
  ⟨kind, value, 1, [productEvidenceId 1], hvalue.1, hvalue.2, one_mem_unit, List.cons_ne_nil _ _⟩

/-- Two purposes, and two tags that differ only in their case. -/
def competingFacts (second : Text) (hsecond : second.joinWords = second ∧ second ≠ []) : List ProductFactSuggestion :=
  [certainFact .purpose "analysis".toList (by decide), certainFact .tag "orders".toList (by decide),
    certainFact .purpose second hsecond, certainFact .tag "Orders".toList (by decide)]

private theorem confidencesRead_competing (second : Text) (hsecond : second.joinWords = second ∧ second ≠ []) :
    ConfidencesRead .ascii (competingFacts second hsecond) := by
  intro f hf g hg _
  have hone : ∀ f ∈ competingFacts second hsecond, f.confidence = 1 := by simp [competingFacts, certainFact]
  rw [hone f hf, hone g hg]

/-- A purpose in two cases, of which one is kept whatever the order. -/
def spelledFacts : List ProductFactSuggestion := competingFacts "Analysis".toList (by decide)

/-- Two purposes, which raise whatever their order. -/
def conflictingFacts : List ProductFactSuggestion := competingFacts "planning".toList (by decide)

theorem validateProductFacts_perm_swapped :
    (validateProductFacts .ascii spelledFacts orderAnalysis none =
        validateProductFacts .ascii spelledFacts.reverse orderAnalysis none ∧
      ∀ accepted, validateProductFacts .ascii spelledFacts orderAnalysis none = .ok accepted →
        ∀ kind ∈ ProductFactKind.singletons, (accepted.filter fun f => f.kind = kind).length ≤ 1) ∧
    (validateProductFacts .ascii spelledFacts orderAnalysis none).toOption.map (List.map (·.value)) =
      some ["Analysis".toList, "Orders".toList] ∧
    validateProductFacts .ascii conflictingFacts orderAnalysis none =
      validateProductFacts .ascii conflictingFacts.reverse orderAnalysis none ∧
    (validateProductFacts .ascii conflictingFacts orderAnalysis none).toOption.isNone := by
  refine ⟨?_, by decide +kernel, ?_, by decide +kernel⟩
  · exact validateProductFacts_perm Json.documented_ascii (confidencesRead_competing _ _) (List.reverse_perm _).symm
      orderAnalysis none
  · exact (validateProductFacts_perm Json.documented_ascii (confidencesRead_competing _ _) (List.reverse_perm _).symm
      orderAnalysis none).1

end ArdOssie
