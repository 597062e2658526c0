import ArdOssie.Semantic.Corrections

/-!
# Corrections are applied as a whole and are replayed

An invalid response leaves the spans of a page as they are, where its audit can be written; the response that the audit
of an accepted page gives is accepted again with the same spans.
-/

namespace ArdOssie

/-- The audit of a response can be written: no kind is a list or an object, no identifier that is compared is one, no
text has a lone surrogate, and there are not too many patches. -/
structure Auditable (snapshot : OcrPageSnapshot) (response : PyJson) : Prop where
  patches_le : (rawPatches response).length ≤ 2000
  texts : ∀ raw ∈ rawPatches response, ∀ s, raw.field "corrected_text" = .str s → s.encode ≠ none
  kinds : ∀ raw ∈ rawPatches response, (raw.field "correction_kind").hashKey ≠ none
  ids : response.hasKeys ["request_hash", "patches"] = true →
    (response.field "request_hash").isText snapshot.requestHash.hexdigest = true →
    (∀ raw ∈ rawPatches response, raw.isObject = true) →
    ∀ raw ∈ rawPatches response, (raw.field "span_id").hashKey ≠ none

section Proofs

variable {platform : Platform} {read : Text → Option ℚ} {pyStr : PyJson → Text} {snapshot : OcrPageSnapshot}
  {response : PyJson} {reused : Bool} {repairs : StructuredRepairs}

/-! ### Exceptions -/

private theorem stopIf_settles {condition : Prop} [Decidable condition] {code : CorrectionCode}
    {F : CorrectionStop → Prop} (hF : F (.code code)) : Settles (stopIf condition code) (fun _ => ¬ condition) F := by
  unfold stopIf
  split
  · exact hF
  · assumption

private theorem orStop_settles {α : Type} {value : Option α} {code : CorrectionCode} {F : CorrectionStop → Prop}
    (hF : F (.code code)) : Settles (orStop value code) (fun a => value = some a) F := by
  cases value with
  | none => exact hF
  | some a => exact rfl

private theorem hashed_settles {value : PyJson} {F : CorrectionStop → Prop} (h : value.hashKey ≠ none) :
    Settles (hashed value) (fun _ => True) F := by
  unfold hashed
  cases hkey : value.hashKey with
  | none => exact absurd hkey h
  | some key => trivial

/-- The result is no exception. -/
private def NotRaised (stop : CorrectionStop) : Prop := ∃ code, stop = .code code

private theorem correctionTextCode_settles {source : Text} {corrected : PyStr} {kind : CorrectionKind} :
    Settles (correctionTextCode source corrected kind) (fun _ => True) NotRaised := by
  cases kind with
  | spacing => exact (stopIf_settles ⟨_, rfl⟩).mono (fun _ _ => trivial) fun _ h => h
  | characterRecognition =>
    refine Settles.bind (stopIf_settles ⟨_, rfl⟩) fun _ _ => ?_
    exact (stopIf_settles ⟨_, rfl⟩).mono (fun _ _ => trivial) fun _ h => h

private theorem checkPatch_settles {raw : PyJson} (h : (raw.field "correction_kind").hashKey ≠ none) :
    Settles (checkPatch read snapshot raw) (fun _ => True) NotRaised := by
  have hcode (code : CorrectionCode) : NotRaised (.code code) := ⟨code, rfl⟩
  unfold checkPatch
  refine (stopIf_settles (hcode _)).bind fun _ _ => (orStop_settles (hcode _)).bind fun span _ => ?_
  refine (stopIf_settles (hcode _)).bind fun _ _ => (orStop_settles (hcode _)).bind fun bbox _ => ?_
  refine (stopIf_settles (hcode _)).bind fun _ _ => (orStop_settles (hcode _)).bind fun corrected _ => ?_
  refine (stopIf_settles (hcode _)).bind fun _ _ => (stopIf_settles (hcode _)).bind fun _ _ => ?_
  refine (stopIf_settles (hcode _)).bind fun _ _ => (hashed_settles h).bind fun _ _ => ?_
  refine (orStop_settles (hcode _)).bind fun kind _ => (stopIf_settles (hcode _)).bind fun _ _ => ?_
  refine correctionTextCode_settles.bind fun _ _ => (orStop_settles (hcode _)).bind fun confidence _ => ?_
  refine (stopIf_settles (hcode _)).bind fun _ _ => ?_
  exact (stopIf_settles (hcode _)).mono (fun _ _ => trivial) fun _ h => h

private theorem hashedIds_total (h : ∀ raw ∈ rawPatches response, (raw.field "span_id").hashKey ≠ none) :
    ∃ ids, (rawPatches response).mapM (fun raw => hashed (raw.field "span_id")) = .ok ids := by
  refine mapM_total fun raw hraw => ?_
  obtain ⟨key, hkey⟩ := Option.ne_none_iff_exists'.1 (h raw hraw)
  exact ⟨key, hashed_eq_ok.2 hkey⟩

private theorem pageValidation_settles (h : Auditable snapshot response) :
    Settles (pageValidation read snapshot response) (fun _ => True) NotRaised := by
  have hcode (code : CorrectionCode) : NotRaised (.code code) := ⟨code, rfl⟩
  unfold pageValidation
  refine (stopIf_settles (hcode _)).bind fun _ hkeys => (stopIf_settles (hcode _)).bind fun _ hrequest => ?_
  refine (stopIf_settles (hcode _)).bind fun _ _ => (stopIf_settles (hcode _)).bind fun _ hobjects => ?_
  have hobject : ∀ raw ∈ rawPatches response, raw.isObject = true := by
    intro raw hraw
    by_contra hobject
    exact hobjects ⟨raw, hraw, Bool.eq_false_iff.2 hobject⟩
  rw [Bool.not_eq_false] at hkeys hrequest
  -- the duplicate check hashes the identifiers as they are in the response
  obtain ⟨ids, hids⟩ := hashedIds_total (h.ids hkeys hrequest hobject)
  rw [hids, ok_bind]
  refine (stopIf_settles (hcode _)).bind fun _ _ => ?_
  refine (settles_forM fun raw hraw => checkPatch_settles (h.kinds raw hraw)).bind fun _ _ => ?_
  exact (stopIf_settles (hcode _)).mono (fun _ _ => trivial) fun _ h => h

/-! ### Rejected responses -/

private theorem rejectedTextHash_eq_ok_iff {value : PyJson} :
    (∃ textHash, rejectedTextHash pyStr value = .ok textHash) ↔ ∀ s, value = .str s → s.encode ≠ none := by
  have hencoded {s : PyStr} (h : strOf pyStr value = s) :
      (∃ textHash, rejectedTextHash pyStr value = .ok textHash) ↔ s.encode ≠ none := by
    unfold rejectedTextHash
    rw [h]
    cases s.encode <;> simp
  cases value with
  | str s =>
    rw [hencoded rfl]
    exact ⟨fun h u hu => PyJson.str.inj hu ▸ h, fun h => h s rfl⟩
  | _ =>
    rw [hencoded rfl]
    simp [strOf]

private theorem exists_rejectedPatchAudit_iff {raw : PyJson} {code : CorrectionCode} :
    (∃ audit, rejectedPatchAudit read pyStr raw code = .ok audit) ↔
      (∀ s, raw.field "corrected_text" = .str s → s.encode ≠ none) ∧ (raw.field "correction_kind").hashKey ≠ none := by
  rw [← rejectedTextHash_eq_ok_iff]
  unfold rejectedPatchAudit rejectedKind
  constructor
  · rintro ⟨audit, haudit⟩
    obtain ⟨textHash, htext, haudit⟩ := bind_eq_ok.1 haudit
    refine ⟨⟨textHash, htext⟩, fun hkey => ?_⟩
    rw [if_pos hkey] at haudit
    cases haudit
  · rintro ⟨⟨textHash, htext⟩, hkind⟩
    rw [htext, ok_bind, if_neg hkind, ok_bind]
    exact ⟨_, dif_pos (Or.inr ⟨rfl, rfl, rfl, by simp, by simp⟩)⟩

private theorem outcome_of_rejectedPatchAudit {raw : PyJson} {code : CorrectionCode} {audit : OcrCorrectionPatchAudit}
    (h : rejectedPatchAudit read pyStr raw code = .ok audit) : audit.outcome = .rejected := by
  unfold rejectedPatchAudit at h
  obtain ⟨textHash, -, h⟩ := bind_eq_ok.1 h
  obtain ⟨kind, -, h⟩ := bind_eq_ok.1 h
  unfold OcrCorrectionPatchAudit.make at h
  split at h
  · cases h
    rfl
  · cases h

private theorem pageAudit_eq_ok_iff {outcome : PageOutcome} {patches : List OcrCorrectionPatchAudit} :
    (∃ audit, pageAudit platform snapshot outcome patches repairs = .ok audit) ↔
      patches.length ≤ 2000 ∧ ∀ patch ∈ patches, PageOutcome.ofPatches patch.outcome = outcome := by
  unfold pageAudit OcrCorrectionPageAudit.make
  constructor
  · rintro ⟨audit, haudit⟩
    split at haudit
    · assumption
    · cases haudit
  · exact fun h => ⟨_, dif_pos h⟩

private theorem patches_of_pageAudit {outcome : PageOutcome} {patches : List OcrCorrectionPatchAudit}
    {audit : OcrCorrectionPageAudit} (h : pageAudit platform snapshot outcome patches repairs = .ok audit) :
    audit.patches = patches ∧ audit.requestHash = snapshot.requestHash := by
  unfold pageAudit OcrCorrectionPageAudit.make at h
  split at h
  · cases h
    exact ⟨rfl, rfl⟩
  · cases h

section Rejected

variable {code : CorrectionCode} (hcode : pageValidation read snapshot response = .error (.code code))

include hcode

private theorem rejected_eq : validatePageCorrections platform read pyStr snapshot response reused repairs = do
    let rejected ← (rawPatches response).mapM fun raw => rejectedPatchAudit read pyStr raw code
    let audit ← pageAudit platform snapshot .rejected rejected repairs
    return ⟨snapshot.spans, audit, [code]⟩ := by
  unfold validatePageCorrections
  rw [hcode]

private theorem exists_rejected_iff :
    (∃ v, validatePageCorrections platform read pyStr snapshot response reused repairs = .ok v) ↔
      (rawPatches response).length ≤ 2000 ∧ ∀ raw ∈ rawPatches response,
        (∀ s, raw.field "corrected_text" = .str s → s.encode ≠ none) ∧
          (raw.field "correction_kind").hashKey ≠ none := by
  rw [rejected_eq hcode]
  constructor
  · rintro ⟨v, hv⟩
    obtain ⟨rejected, hrejected, hv⟩ := bind_eq_ok.1 hv
    obtain ⟨audit, haudit, -⟩ := bind_eq_ok.1 hv
    have hlength := (mapM_eq_ok.1 hrejected).length_eq
    refine ⟨hlength ▸ (pageAudit_eq_ok_iff.1 ⟨audit, haudit⟩).1, fun raw hraw => ?_⟩
    obtain ⟨patch, -, hpatch⟩ := exists_of_forall₂_left (mapM_eq_ok.1 hrejected) hraw
    exact exists_rejectedPatchAudit_iff.1 ⟨patch, hpatch⟩
  · rintro ⟨hle, hraws⟩
    obtain ⟨rejected, hrejected⟩ : ∃ rejected,
        (rawPatches response).mapM (fun raw => rejectedPatchAudit read pyStr raw code) = .ok rejected :=
      mapM_total fun raw hraw => exists_rejectedPatchAudit_iff.2 (hraws raw hraw)
    have hlength := (mapM_eq_ok.1 hrejected).length_eq
    have houtcome : ∀ patch ∈ rejected, PageOutcome.ofPatches patch.outcome = .rejected := by
      intro patch hpatch
      obtain ⟨raw, -, hraw⟩ := exists_of_forall₂_right (mapM_eq_ok.1 hrejected) hpatch
      rw [outcome_of_rejectedPatchAudit hraw]
      rfl
    obtain ⟨audit, haudit⟩ : ∃ audit, pageAudit platform snapshot .rejected rejected repairs = .ok audit :=
      pageAudit_eq_ok_iff.2 ⟨hlength ▸ hle, houtcome⟩
    rw [hrejected, ok_bind, haudit]
    exact ⟨_, rfl⟩

private theorem rejected_spans {v : PageCorrectionValidation}
    (h : validatePageCorrections platform read pyStr snapshot response reused repairs = .ok v) :
    v.spans = snapshot.spans ∧ v.warningCodes = [code] := by
  rw [rejected_eq hcode] at h
  obtain ⟨rejected, -, h⟩ := bind_eq_ok.1 h
  obtain ⟨audit, -, h⟩ := bind_eq_ok.1 h
  cases pure_eq_ok.1 h
  exact ⟨rfl, rfl⟩

end Rejected

/-! ### Accepted responses -/

/-- The audit of an accepted patch. -/
private def acceptedAudit (outcome : PatchOutcome) (patch : OcrCorrectionPatch) : PatchAuditFields where
  spanId := patch.spanId
  originalTextHash := patch.originalTextHash
  correctedText := some patch.correctedText
  correctedTextHash := some (sha256 patch.correctedText)
  bbox := some patch.bbox
  correctionKind := some patch.correctionKind
  confidence := some patch.confidence
  outcome := outcome

private theorem make_acceptedAudit {outcome : PatchOutcome} (houtcome : outcome ≠ .rejected)
    (patch : OcrCorrectionPatch) : ∃ audit, OcrCorrectionPatchAudit.make (acceptedAudit outcome patch) = .ok audit ∧
      audit.toPatchAuditFields = acceptedAudit outcome patch := by
  have hconsistent : (acceptedAudit outcome patch).Consistent :=
    Or.inl ⟨houtcome, by simp [acceptedAudit], rfl, rfl, rfl⟩
  exact ⟨⟨_, hconsistent⟩, dif_pos hconsistent, rfl⟩

/-- The round of an admitted patch. -/
private theorem applyPatch_eq {outcome : PatchOutcome} (houtcome : outcome ≠ .rejected) {patch : OcrCorrectionPatch}
    {span : SourceSpan} (h : Admitted snapshot patch span)
    (state : Dict SpanId SourceSpan × List OcrCorrectionPatchAudit) :
    ∃ audit, applyPatch snapshot outcome state patch =
        .ok (state.1.insert patch.spanId { span with
          text := patch.correctedText, textHash := sha256 patch.correctedText, text_ne := h.nonempty,
          textHash_eq := rfl }, state.2 ++ [audit]) ∧
      audit.toPatchAuditFields = acceptedAudit outcome patch := by
  obtain ⟨audit, haudit, hfields⟩ := make_acceptedAudit houtcome patch
  refine ⟨audit, ?_, hfields⟩
  unfold applyPatch correctedSpan
  rw [h.known]
  simp only [ok_bind, h.nonempty, ne_eq, not_false_eq_true, dite_true]
  unfold acceptedAudit at haudit
  rw [haudit]
  rfl

/-- The rounds of admitted patches with two outcomes: one and the same replacements, and the audits of the patches. -/
private theorem foldlM_applyPatch_eq {o o' : PatchOutcome} (ho : o ≠ .rejected) (ho' : o' ≠ .rejected)
    {patches : List OcrCorrectionPatch} (h : ∀ patch ∈ patches, ∃ span, Admitted snapshot patch span)
    (d : Dict SpanId SourceSpan) (done done' : List OcrCorrectionPatchAudit) :
    ∃ replacements audits audits',
      patches.foldlM (applyPatch snapshot o) (d, done) = .ok (replacements, done ++ audits) ∧
      patches.foldlM (applyPatch snapshot o') (d, done') = .ok (replacements, done' ++ audits') ∧
      audits.map OcrCorrectionPatchAudit.toPatchAuditFields = patches.map (acceptedAudit o) ∧
      audits'.map OcrCorrectionPatchAudit.toPatchAuditFields = patches.map (acceptedAudit o') := by
  induction patches generalizing d done done' with
  | nil => exact ⟨d, [], [], by simp [pure, Except.pure], by simp [pure, Except.pure], rfl, rfl⟩
  | cons patch patches ih =>
    obtain ⟨span, hspan⟩ := h patch List.mem_cons_self
    obtain ⟨audit, haudit, hfields⟩ := applyPatch_eq ho hspan (d, done)
    obtain ⟨audit', haudit', hfields'⟩ := applyPatch_eq ho' hspan (d, done')
    obtain ⟨replacements, audits, audits', hrun, hrun', hall, hall'⟩ :=
      ih (fun p hp => h p (List.mem_cons_of_mem _ hp)) (d.insert patch.spanId _) (done ++ [audit]) (done' ++ [audit'])
    refine ⟨replacements, audit :: audits, audit' :: audits', ?_, ?_, ?_, ?_⟩
    · rw [List.foldlM_cons, haudit, ok_bind, hrun, List.append_assoc, List.singleton_append]
    · rw [List.foldlM_cons, haudit', ok_bind, hrun', List.append_assoc, List.singleton_append]
    · rw [List.map_cons, List.map_cons, hfields, hall]
    · rw [List.map_cons, List.map_cons, hfields', hall']

/-- The spans of an accepted page, which do not depend on its outcome, and its audit. -/
private theorem accepted_eq {plan : OcrCorrectionPlan} (hplan : AdmittedPlan snapshot plan) :
    ∃ spans, ∀ response' reused repairs, pageValidation read snapshot response' = .ok () →
      OcrCorrectionPlan.parse read response' = some plan →
      ∃ audit, validatePageCorrections platform read pyStr snapshot response' reused repairs = .ok ⟨spans, audit, []⟩ ∧
        audit.requestHash = snapshot.requestHash ∧
        ∃ o, o ≠ PatchOutcome.rejected ∧ audit.patches.map OcrCorrectionPatchAudit.toPatchAuditFields =
          plan.patches.map (acceptedAudit o) := by
  have happlied : PatchOutcome.applied ≠ .rejected := by decide
  obtain ⟨replacements, _, _, hrun, -, -, -⟩ := foldlM_applyPatch_eq happlied happlied hplan.admitted ∅ [] []
  refine ⟨snapshot.spans.map fun span => (replacements.lookup span.spanId).getD span, ?_⟩
  intro response' reused repairs hok' hparse'
  have ho : (if reused then PatchOutcome.reused else .applied) ≠ .rejected := by
    cases reused with
    | false => decide
    | true => decide
  obtain ⟨replacements', audits, audits', hrun', hrun'', -, hall⟩ :=
    foldlM_applyPatch_eq happlied ho hplan.admitted ∅ [] []
  cases hrun.symm.trans hrun'
  have houtcome : ∀ patch ∈ audits', PageOutcome.ofPatches patch.outcome =
      .ofPatches (if reused then .reused else .applied) := by
    intro patch hpatch
    have hin := List.mem_map_of_mem (f := OcrCorrectionPatchAudit.toPatchAuditFields) hpatch
    rw [hall] at hin
    obtain ⟨p, -, hp⟩ := List.mem_map.1 hin
    rw [← hp]
    rfl
  have hle : audits'.length ≤ 2000 := by
    have hlength := congrArg List.length hall
    rw [List.length_map, List.length_map] at hlength
    exact hlength ▸ plan.patches_le
  obtain ⟨audit, haudit⟩ : ∃ audit, pageAudit platform snapshot _ audits' repairs = .ok audit :=
    pageAudit_eq_ok_iff.2 ⟨hle, houtcome⟩
  obtain ⟨hpatches, hhash⟩ := patches_of_pageAudit haudit
  refine ⟨audit, ?_, hhash, _, ho, hpatches ▸ hall⟩
  unfold validatePageCorrections
  rw [hok']
  dsimp only
  rw [hparse']
  dsimp only
  rw [ok_bind, hrun'', ok_bind]
  simp only [List.nil_append]
  rw [haudit]
  rfl

/-- The response of an audit is the plan that was accepted. -/
private theorem trustedResponse_eq {plan : OcrCorrectionPlan} {audit : OcrCorrectionPageAudit} {o : PatchOutcome}
    (ho : o ≠ .rejected) (hhash : audit.requestHash = plan.requestHash)
    (hpatches : audit.patches.map OcrCorrectionPatchAudit.toPatchAuditFields = plan.patches.map (acceptedAudit o)) :
    trustedResponse audit = plan.json := by
  have hfilter : audit.patches.filter (fun patch => patch.outcome ≠ .rejected) = audit.patches := by
    rw [List.filter_eq_self]
    intro patch hpatch
    have hin := List.mem_map_of_mem (f := OcrCorrectionPatchAudit.toPatchAuditFields) hpatch
    rw [hpatches] at hin
    obtain ⟨p, -, hp⟩ := List.mem_map.1 hin
    have houtcome : patch.outcome = o := (congrArg PatchAuditFields.outcome hp).symm
    rw [houtcome]
    exact decide_eq_true ho
  have hrecords := congrArg (List.map fun f : PatchAuditFields =>
    PyJson.record
      [("span_id", .ofText f.spanId.text),
        ("original_text_hash", .ofText f.originalTextHash.hexdigest),
        ("corrected_text", .opt .ofText f.correctedText),
        ("correction_kind", .opt (fun kind => .ofText kind.text) f.correctionKind),
        ("bbox", .opt SourceBox.pyJson f.bbox),
        ("confidence", .opt (fun confidence => .float confidence.val) f.confidence)]) hpatches
  rw [List.map_map, List.map_map] at hrecords
  unfold trustedResponse OcrCorrectionPlan.json
  rw [hfilter, hhash]
  exact congrArg
    (fun items => PyJson.record [("request_hash", .ofText plan.requestHash.hexdigest), ("patches", .arr items)])
    hrecords

/-! ### Atomicity and replay -/

/-- The validation fails at an identifier that is a list or an object. -/
private theorem pageValidation_eq_raised (hkeys : response.hasKeys ["request_hash", "patches"] = true)
    (hrequest : (response.field "request_hash").isText snapshot.requestHash.hexdigest = true)
    (hle : (rawPatches response).length ≤ 2000) (hobjects : ∀ raw ∈ rawPatches response, raw.isObject = true)
    {raw : PyJson} (hraw : raw ∈ rawPatches response) (hkey : (raw.field "span_id").hashKey = none) :
    ∃ e, pageValidation read snapshot response = .error (.raised e) := by
  have harray : ¬ ((response.field "patches").isArray = false ∨ 2000 < (rawPatches response).length) := by
    refine not_or.2 ⟨fun hno => ?_, not_lt.2 hle⟩
    unfold rawPatches at hraw
    cases hvalue : response.field "patches" with
    | arr items => rw [hvalue] at hno; cases hno
    | _ => rw [hvalue] at hraw; cases hraw
  have hhashed : ∀ r ∈ rawPatches response, (∃ key, hashed (r.field "span_id") = .ok key) ∨
      hashed (r.field "span_id") = .error (.raised .typeError) := by
    intro r _
    unfold hashed
    cases (r.field "span_id").hashKey with
    | none => exact Or.inr rfl
    | some key => exact Or.inl ⟨key, rfl⟩
  have hfails : hashed (raw.field "span_id") = .error (.raised .typeError) := by
    unfold hashed
    rw [hkey]
  have hobject : ¬ ∃ r ∈ rawPatches response, r.isObject = false := by
    rintro ⟨r, hr, hno⟩
    exact Bool.false_ne_true (hno.symm.trans (hobjects r hr))
  refine ⟨.typeError, ?_⟩
  unfold pageValidation
  rw [stopIf_eq_ok.2 (Bool.not_eq_false _ ▸ hkeys), ok_bind, stopIf_eq_ok.2 (Bool.not_eq_false _ ▸ hrequest), ok_bind]
  dsimp only
  rw [stopIf_eq_ok.2 harray, ok_bind, stopIf_eq_ok.2 hobject, ok_bind, mapM_eq_error hhashed ⟨raw, hraw, hfails⟩]
  rfl

/-- The audit of an accepted response can be written. -/
private theorem auditable_of_ok (h : pageValidation read snapshot response = .ok ()) :
    Auditable snapshot response := by
  obtain ⟨plan, hparse, -⟩ := exists_admittedPlan h
  have hpatches := (parse_plan_eq_some hparse).2
  unfold pageValidation at h
  obtain ⟨-, h⟩ := stopIf_bind_eq_ok.1 h
  obtain ⟨-, h⟩ := stopIf_bind_eq_ok.1 h
  obtain ⟨hle, h⟩ := stopIf_bind_eq_ok.1 h
  obtain ⟨-, h⟩ := stopIf_bind_eq_ok.1 h
  obtain ⟨ids, -, h⟩ := bind_eq_ok.1 h
  obtain ⟨-, h⟩ := stopIf_bind_eq_ok.1 h
  obtain ⟨hchecks, -⟩ := unit_bind_eq_ok.1 h
  have hforall := forall₂_of_checks hpatches (forM_eq_ok.1 hchecks)
  have hfields : ∀ raw ∈ rawPatches response, ∃ patch : OcrCorrectionPatch,
      raw.field "span_id" = .ofText patch.spanId.text ∧
        raw.field "correction_kind" = .ofText patch.correctionKind.text ∧
        raw.field "corrected_text" = .ofText patch.correctedText := by
    intro raw hraw
    obtain ⟨patch, -, -, hfields⟩ := exists_of_forall₂_left hforall hraw
    exact ⟨patch, hfields⟩
  refine ⟨not_lt.1 (not_or.1 hle).2, fun raw hraw s hs => ?_, fun raw hraw => ?_, fun _ _ _ raw hraw => ?_⟩
  · obtain ⟨patch, -, -, htext⟩ := hfields raw hraw
    cases htext.symm.trans hs
    rw [PyStr.encode_ofText]
    exact Option.some_ne_none _
  · obtain ⟨patch, -, hkind, -⟩ := hfields raw hraw
    rw [hkind]
    exact Option.some_ne_none _
  · obtain ⟨patch, hid, -, -⟩ := hfields raw hraw
    rw [hid]
    exact Option.some_ne_none _

/-- An invalid response leaves the spans and an accepted one is accepted again with the same spans, exactly for the
responses whose audit can be written. -/
theorem validatePageCorrections_atomic_iff :
    ((pageValidation read snapshot response ≠ .ok () →
        ∃ v, validatePageCorrections platform read pyStr snapshot response reused repairs = .ok v ∧
          v.spans = snapshot.spans) ∧
      (pageValidation read snapshot response = .ok () →
        ∃ v, validatePageCorrections platform read pyStr snapshot response reused repairs = .ok v ∧
          v.warningCodes = [] ∧
          ∃ v', validatePageCorrections platform read pyStr snapshot (trustedResponse v.audit) true v.audit.repairs =
            .ok v' ∧ v'.warningCodes = [] ∧ v'.spans = v.spans)) ↔
    Auditable snapshot response := by
  constructor
  · rintro ⟨hinvalid, -⟩
    -- only a rejection that its audit allows leaves a result
    cases hpage : pageValidation read snapshot response with
    | ok u => exact auditable_of_ok hpage
    | error stop =>
      obtain ⟨v, hv, -⟩ := hinvalid (by simp [hpage])
      cases stop with
      | raised e =>
        unfold validatePageCorrections at hv
        rw [hpage] at hv
        cases hv
      | code code =>
        obtain ⟨hle, hraws⟩ := (exists_rejected_iff hpage).1 ⟨v, hv⟩
        refine ⟨hle, fun raw hraw => (hraws raw hraw).1, fun raw hraw => (hraws raw hraw).2, ?_⟩
        intro hkeys hrequest hobjects raw hraw hkey
        obtain ⟨e, he⟩ := @pageValidation_eq_raised read _ _ hkeys hrequest hle hobjects _ hraw hkey
        cases hpage.symm.trans he
  · intro h
    constructor
    · intro hinvalid
      have hsettles : Settles (pageValidation read snapshot response) _ _ := pageValidation_settles h
      cases hpage : pageValidation read snapshot response with
      | ok u => exact absurd hpage hinvalid
      | error stop =>
        rw [hpage] at hsettles
        obtain ⟨code, rfl⟩ := hsettles
        obtain ⟨v, hv⟩ :=
          (exists_rejected_iff hpage).2 ⟨h.patches_le, fun raw hraw => ⟨h.texts raw hraw, h.kinds raw hraw⟩⟩
        exact ⟨v, hv, (rejected_spans hpage hv).1⟩
    · intro hpage
      -- the audit of an accepted page has the patches of its plan, which the replay accepts again
      obtain ⟨plan, hparse, hplan⟩ := exists_admittedPlan hpage
      obtain ⟨spans, hspans⟩ := @accepted_eq platform read pyStr _ _ hplan
      obtain ⟨audit, hv, hhash, o, ho, hpatches⟩ := hspans response reused repairs hpage hparse
      refine ⟨_, hv, rfl, ?_⟩
      dsimp only
      rw [trustedResponse_eq ho (hhash.trans hplan.request.symm) hpatches]
      obtain ⟨audit', hv', -⟩ :=
        hspans plan.json true audit.repairs (pageValidation_json hplan) (OcrCorrectionPlan.parse_json plan)
      exact ⟨_, hv', rfl, rfl⟩

end Proofs

private def emptyPage : OcrPageSnapshot where
  sourceHash := ⟨0⟩
  page := 1
  pageImageHash := ⟨0⟩
  spans := []
  ocrCatalogHash := ⟨0⟩
  promptHash := ⟨0⟩
  schemaHash := ⟨0⟩
  repairPromptHash := ⟨0⟩
  provider := []
  model := []
  requestHash := ⟨0⟩
  page_pos := Nat.one_pos
  spans_le := by decide
  spans_placed := by simp

private theorem noRepairs_le : 0 ≤ 2 := Nat.zero_le _

private def noRepairs : StructuredRepairs := ⟨0, 0, [], noRepairs_le, noRepairs_le, rfl, by simp⟩

/-- A response with a list as the identifier of a span is invalid, and its validation raises an exception. -/
theorem list_as_span_id :
    let response : PyJson := .record
      [("request_hash", .ofText emptyPage.requestHash.hexdigest), ("patches", .arr [.record [("span_id", .arr [])]])]
    pageValidation (fun _ => none) emptyPage response ≠ .ok () ∧
      ¬ ∃ v, validatePageCorrections Platform.ascii (fun _ => none) (fun _ => []) emptyPage response false noRepairs =
        .ok v := by
  intro response
  have hraised : pageValidation (fun _ => none) emptyPage response = .error (.raised .typeError) := by
    rfl
  refine ⟨by simp [hraised], ?_⟩
  rintro ⟨v, hv⟩
  unfold validatePageCorrections at hv
  rw [hraised] at hv
  cases hv

end ArdOssie
