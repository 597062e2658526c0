import ArdOssie.PyStrings
import ArdOssie.Semantic.Evidence
import ArdOssie.Semantic.FidelityReport

/-!
# Page corrections

The validation of a response with patches for the text of the spans of a page.  The response is applied as a whole or
rejected as a whole, and an audit records its patches.
-/

namespace ArdOssie

namespace Text

/-- `unicodedata.category(character) == "Cc"` -/
def isControl (c : Char) : Bool := c.toNat < 32 || (127 ≤ c.toNat && c.toNat < 160)

/-- `_ERROR_CODE` -/
def isErrorCode : Text → Bool
  | [] => false
  | c :: t => c.isUpper && t.length ≤ 127 && t.all fun d => d.isUpper || d.isDigit || d = '_'

end Text

/-- The identifier of a text that matches the pattern of span identifiers. -/
def SpanId.parse (t : Text) : Option SpanId := (Identifier.parse "span_" t).map fun i => ⟨i.value⟩

@[simp] theorem SpanId.parse_text (i : SpanId) : SpanId.parse i.text = some i := by
  have htext : i.text = (⟨i.value⟩ : Identifier "span_").text := rfl
  rw [SpanId.parse, htext, Identifier.parse_text]
  rfl

/-- The digest of a text that matches the pattern of digests. -/
def Sha256.parse (t : Text) : Option Sha256 :=
  if t.length = 64 then (Text.readHex 0 t).bind fun n => if h : n < 2 ^ 256 then some ⟨⟨n, h⟩⟩ else none else none

@[simp] theorem Sha256.parse_hexdigest (h : Sha256) : Sha256.parse h.hexdigest = some h := by
  have hvalue : 16 ^ 64 * 0 + h.value.val % 16 ^ 64 = h.value.val := by
    rw [Nat.mul_zero, Nat.zero_add]
    exact Nat.mod_eq_of_lt h.value.isLt
  unfold Sha256.parse Sha256.hexdigest
  rw [if_pos (Text.length_hex 64 _), Text.readHex_hex, hvalue, Option.bind_some, dif_pos h.value.isLt]

/-! ### Records -/

inductive CorrectionKind where
  | characterRecognition
  | spacing
  deriving DecidableEq

def CorrectionKind.text : CorrectionKind → Text
  | characterRecognition => "character_recognition".toList
  | spacing => "spacing".toList

/-- The validation codes, without their stem `SEMANTIC_OCR_CORRECTION_`. -/
inductive CorrectionCode where
  | schemaInvalid
  | requestMismatch
  | duplicateSpan
  | unknownSpan
  | hashMismatch
  | boxMismatch
  | textEmpty
  | textGrowthExceeded
  | lineBlockChange
  | kindInvalid
  | textUnsafe
  | spacingInvalid
  | recognitionInvalid
  | confidenceLow
  deriving DecidableEq

/-- The exceptions of the validation. -/
inductive CorrectionError where
  /-- A list or an object as an element of a set. -/
  | typeError
  /-- A lone surrogate in a string that is encoded. -/
  | unicodeEncodeError
  | validationError
  | keyError
  deriving DecidableEq

/-- `OcrPageSnapshot`, without the page image. -/
structure OcrPageSnapshot where
  sourceHash : Sha256
  page : ℕ
  pageImageHash : Sha256
  spans : List SourceSpan
  ocrCatalogHash : Sha256
  promptHash : Sha256
  schemaHash : Sha256
  repairPromptHash : Sha256
  provider : Text
  model : Text
  requestHash : Sha256
  page_pos : 1 ≤ page
  spans_le : spans.length ≤ 2000
  spans_placed : ∀ span ∈ spans, span.page = some page ∧ span.bbox ≠ none

/-- `{span.span_id: span for span in snapshot.spans}` -/
def OcrPageSnapshot.catalog (snapshot : OcrPageSnapshot) : Dict Text SourceSpan :=
  Dict.ofList (snapshot.spans.map fun span => (span.spanId.text, span))

structure OcrCorrectionPatch where
  spanId : SpanId
  originalTextHash : Sha256
  correctedText : Text
  correctionKind : CorrectionKind
  bbox : SourceBox
  confidence : Score

structure OcrCorrectionPlan where
  requestHash : Sha256
  patches : List OcrCorrectionPatch
  patches_le : patches.length ≤ 2000

section Parse

variable (read : Text → Option ℚ)

/-- `SourceBox.model_validate` -/
def SourceBox.parse (value : PyJson) : Option SourceBox := do
  guard (value.hasKeys ["left", "bottom", "right", "top"])
  let left ← (value.field "left").floatField read
  let bottom ← (value.field "bottom").floatField read
  let right ← (value.field "right").floatField read
  let top ← (value.field "top").floatField read
  if h : (0 ≤ left ∧ 0 ≤ bottom) ∧ (right ≤ 1 ∧ top ≤ 1) ∧ left ≤ right ∧ bottom ≤ top then
    some ⟨left, bottom, right, top, h.1.1, h.1.2, h.2.1.1, h.2.1.2, h.2.2.1, h.2.2.2⟩
  else none

/-- A value of the field `correction_kind`. -/
def CorrectionKind.parse (value : PyJson) : Option CorrectionKind :=
  if value.isText CorrectionKind.characterRecognition.text then some .characterRecognition
  else if value.isText CorrectionKind.spacing.text then some .spacing
  else none

def patchKeys : List String :=
  ["span_id", "original_text_hash", "corrected_text", "correction_kind", "bbox", "confidence"]

/-- `OcrCorrectionPatch.model_validate` -/
def OcrCorrectionPatch.parse (value : PyJson) : Option OcrCorrectionPatch := do
  guard (value.hasKeys patchKeys)
  let spanId ← (value.field "span_id").text.bind SpanId.parse
  let originalTextHash ← (value.field "original_text_hash").text.bind Sha256.parse
  let correctedText ← (value.field "corrected_text").text
  let correctionKind ← CorrectionKind.parse (value.field "correction_kind")
  let bbox ← SourceBox.parse read (value.field "bbox")
  let confidence ← (value.field "confidence").floatField read
  if h : 0 ≤ confidence ∧ confidence ≤ 1 then
    some ⟨spanId, originalTextHash, correctedText, correctionKind, bbox, ⟨confidence, h⟩⟩
  else none

/-- `OcrCorrectionPlan.model_validate` -/
def OcrCorrectionPlan.parse (value : PyJson) : Option OcrCorrectionPlan := do
  guard (value.hasKeys ["request_hash", "patches"] && (value.field "patches").isArray)
  let requestHash ← (value.field "request_hash").text.bind Sha256.parse
  let patches ← (value.field "patches").items.mapM (OcrCorrectionPatch.parse read)
  if h : patches.length ≤ 2000 then some ⟨requestHash, patches, h⟩ else none

end Parse

/-! ### The validation -/

/-- An early return of a code, or an exception. -/
inductive CorrectionStop where
  | code (code : CorrectionCode)
  | raised (error : CorrectionError)

abbrev Correction := Except CorrectionStop

/-- `if condition: return code` -/
def stopIf (condition : Prop) [Decidable condition] (code : CorrectionCode) : Correction Unit :=
  if condition then .error (.code code) else .ok ()

/-- The value, or the return of a code. -/
def orStop {α : Type} (value : Option α) (code : CorrectionCode) : Correction α :=
  match value with
  | some a => .ok a
  | none => .error (.code code)

/-- The hash of a value, which a list and an object do not have. -/
def hashed (value : PyJson) : Correction (Option (ℚ ⊕ PyStr)) :=
  match value.hashKey with
  | some key => .ok key
  | none => .error (.raised .typeError)

theorem stopIf_bind_eq_ok {α : Type} {condition : Prop} [Decidable condition] {code : CorrectionCode}
    {f : Unit → Correction α} {a : α} : (stopIf condition code >>= f) = .ok a ↔ ¬ condition ∧ f () = .ok a := by
  unfold stopIf
  split <;> simp_all [bind, Except.bind]

theorem stopIf_eq_ok {condition : Prop} [Decidable condition] {code : CorrectionCode} :
    stopIf condition code = .ok () ↔ ¬ condition := by
  unfold stopIf
  split <;> simp_all

theorem orStop_bind_eq_ok {α β : Type} {value : Option α} {code : CorrectionCode} {f : α → Correction β} {b : β} :
    (orStop value code >>= f) = .ok b ↔ ∃ a, value = some a ∧ f a = .ok b := by
  cases value <;> simp [orStop, bind, Except.bind]

theorem hashed_eq_ok {value : PyJson} {key : Option (ℚ ⊕ PyStr)} :
    hashed value = .ok key ↔ value.hashKey = some key := by
  unfold hashed
  cases value.hashKey <;> simp

/-- The number of characters that may be changed. -/
def allowedChanges (source : Text) : ℕ := max 1 (min 4 (source.withoutWhitespace.length * 15 / 100))

namespace PyChar

/-- `str.isspace` of one character -/
def isSpace : PyChar → Bool
  | char c => Text.isSpace c
  | surrogate _ => false

/-- `unicodedata.category(character) == "Cc"` -/
def isControl : PyChar → Bool
  | char c => Text.isControl c
  | surrogate _ => false

/-- The character as the pattern of HTML sees it, which names no surrogate and no replacement character. -/
def marked : PyChar → Char
  | char c => c
  | surrogate _ => '\ufffd'

end PyChar

/-- `_without_whitespace` -/
def PyStr.withoutWhitespace (s : PyStr) : PyStr := s.filter fun c => !c.isSpace

@[simp] theorem PyStr.withoutWhitespace_ofText (t : Text) :
    (ofText t).withoutWhitespace = ofText t.withoutWhitespace := List.filter_map

@[simp] theorem PyStr.map_marked_ofText (t : Text) : (ofText t).map PyChar.marked = t := by
  rw [ofText, List.map_map]
  exact List.map_id t

/-- `_correction_text_code` -/
def correctionTextCode (source : Text) (corrected : PyStr) : CorrectionKind → Correction Unit
  | .spacing =>
    stopIf (.ofText source = corrected ∨ (PyStr.ofText source).withoutWhitespace ≠ corrected.withoutWhitespace)
      .spacingInvalid
  | .characterRecognition => do
    let pairs := (PyStr.ofText source).zip corrected
    stopIf (source.length ≠ corrected.length ∨ pairs.any (fun p => p.1.isSpace ≠ p.2.isSpace ∨
      p.1.isSpace = true ∧ p.1 ≠ p.2) = true) .recognitionInvalid
    let changed := pairs.countP fun p => p.1 ≠ p.2
    stopIf (changed = 0 ∨ allowedChanges source < changed) .recognitionInvalid

section Validation

variable (read : Text → Option ℚ) (snapshot : OcrPageSnapshot)

/-- The checks of one patch in `_page_validation_code`. -/
def checkPatch (raw : PyJson) : Correction Unit := do
  stopIf (raw.hasKeys patchKeys = false) .schemaInvalid
  let span ← orStop ((raw.field "span_id").text.bind fun t => snapshot.catalog.lookup t) .unknownSpan
  stopIf ((raw.field "original_text_hash").isText span.textHash.hexdigest = false) .hashMismatch
  let bbox ← orStop (SourceBox.parse read (raw.field "bbox")) .boxMismatch
  stopIf (some bbox ≠ span.bbox) .boxMismatch
  let corrected ← orStop (raw.field "corrected_text").string .schemaInvalid
  stopIf (corrected = []) .textEmpty
  stopIf (span.text.length * 2 < corrected.length) .textGrowthExceeded
  stopIf (corrected.count (.char '\n') ≠ span.text.count '\n') .lineBlockChange
  let _ ← hashed (raw.field "correction_kind")
  let kind ← orStop (CorrectionKind.parse (raw.field "correction_kind")) .kindInvalid
  stopIf (hasRawHtml (corrected.map PyChar.marked) = true ∨
    corrected.any (fun c => c.isControl = true ∧ c ≠ .char '\n') = true) .textUnsafe
  correctionTextCode span.text corrected kind
  let confidence ← orStop (raw.field "confidence").number .schemaInvalid
  stopIf (¬ (0 ≤ confidence ∧ confidence ≤ 1)) .schemaInvalid
  stopIf (confidence < 4 / 5) .confidenceLow

/-- `_raw_patches` -/
def rawPatches (response : PyJson) : List PyJson := (response.field "patches").items

/-- `_page_validation_code`, which returns a code by stopping with it. -/
def pageValidation (response : PyJson) : Correction Unit := do
  stopIf (response.hasKeys ["request_hash", "patches"] = false) .schemaInvalid
  stopIf ((response.field "request_hash").isText snapshot.requestHash.hexdigest = false) .requestMismatch
  let patches := rawPatches response
  stopIf ((response.field "patches").isArray = false ∨ 2000 < patches.length) .schemaInvalid
  stopIf (∃ raw ∈ patches, raw.isObject = false) .schemaInvalid
  let ids ← patches.mapM fun raw => hashed (raw.field "span_id")
  stopIf (¬ ids.Nodup) .duplicateSpan
  patches.forM (checkPatch read snapshot)
  stopIf ((OcrCorrectionPlan.parse read response).isNone = true) .schemaInvalid

end Validation

/-! ### Audits -/

structure PatchAuditFields where
  spanId : SpanId
  originalTextHash : Sha256
  correctedText : Option Text := none
  correctedTextHash : Option Sha256 := none
  rejectedTextHash : Option Sha256 := none
  bbox : Option SourceBox
  correctionKind : Option CorrectionKind
  confidence : Option Score
  outcome : PatchOutcome
  validationCode : Option CorrectionCode := none

/-- `validate_audit_outcome` -/
def PatchAuditFields.Consistent (f : PatchAuditFields) : Prop :=
  (f.outcome ≠ .rejected ∧ f.correctedText ≠ none ∧ f.correctedTextHash = f.correctedText.map sha256 ∧
    f.rejectedTextHash = none ∧ f.validationCode = none) ∨
  (f.outcome = .rejected ∧ f.correctedText = none ∧ f.correctedTextHash = none ∧ f.rejectedTextHash ≠ none ∧
    f.validationCode ≠ none)

instance PatchAuditFields.decidableConsistent (f : PatchAuditFields) : Decidable f.Consistent :=
  inferInstanceAs (Decidable (_ ∨ _))

structure OcrCorrectionPatchAudit extends PatchAuditFields where
  consistent : toPatchAuditFields.Consistent

/-- `OcrCorrectionPatchAudit(…)` -/
def OcrCorrectionPatchAudit.make (f : PatchAuditFields) : Except CorrectionError OcrCorrectionPatchAudit :=
  if h : f.Consistent then .ok ⟨f, h⟩ else .error .validationError

inductive PageOutcome where
  | applied
  | reused
  | rejected
  | providerFailed
  | unavailable
  deriving DecidableEq

/-- The outcome of the patches of a page with the outcome. -/
def PageOutcome.ofPatches : PatchOutcome → PageOutcome
  | .applied => .applied
  | .reused => .reused
  | .rejected => .rejected

/-- The repairs of a structured response, as an audit takes them. -/
structure StructuredRepairs where
  retryCount : ℕ
  repairCount : ℕ
  validationCodes : List Text
  retryCount_le : retryCount ≤ 2
  repairCount_le : repairCount ≤ 2
  repairCount_eq : repairCount = validationCodes.length
  validationCodes_match : ∀ code ∈ validationCodes, code.isErrorCode = true

structure PageAuditFields where
  sourceHash : Sha256
  page : ℕ
  pageImageHash : Sha256
  ocrCatalogHash : Sha256
  requestHash : Sha256
  promptVersion : Text
  promptHash : Sha256
  schemaHash : Sha256
  repairPromptVersion : Text
  repairPromptHash : Sha256
  effectivePromptHash : Sha256
  repairs : StructuredRepairs
  provider : Text
  model : Text
  outcome : PageOutcome
  patches : List OcrCorrectionPatchAudit

/-- The bound on the patches and `validate_page_outcome`, where no provider failed. -/
def PageAuditFields.Consistent (f : PageAuditFields) : Prop :=
  f.patches.length ≤ 2000 ∧ ∀ patch ∈ f.patches, PageOutcome.ofPatches patch.outcome = f.outcome

instance PageAuditFields.decidableConsistent (f : PageAuditFields) : Decidable f.Consistent :=
  inferInstanceAs (Decidable (_ ∧ _))

structure OcrCorrectionPageAudit extends PageAuditFields where
  consistent : toPageAuditFields.Consistent

/-- `OcrCorrectionPageAudit(…)` -/
def OcrCorrectionPageAudit.make (f : PageAuditFields) : Except CorrectionError OcrCorrectionPageAudit :=
  if h : f.Consistent then .ok ⟨f, h⟩ else .error .validationError

structure PageCorrectionValidation where
  spans : List SourceSpan
  audit : OcrCorrectionPageAudit
  warningCodes : List CorrectionCode

section Application

variable (platform : Platform) (read : Text → Option ℚ) (pyStr : PyJson → Text) (snapshot : OcrPageSnapshot)

/-- The set membership and the value of a kind in a rejected patch. -/
def rejectedKind (value : PyJson) : Except CorrectionError (Option CorrectionKind) :=
  if value.hashKey = none then .error .typeError else .ok (CorrectionKind.parse value)

/-- `str(value)`; `pyStr` gives it for the values that are no strings, and escapes their surrogates. -/
def strOf : PyJson → PyStr
  | .str s => s
  | value => .ofText (pyStr value)

/-- `hashlib.sha256(str(value).encode("utf-8"))` -/
def rejectedTextHash (value : PyJson) : Except CorrectionError Sha256 :=
  match (strOf pyStr value).encode with
  | some t => .ok (sha256 t)
  | none => .error .unicodeEncodeError

/-- `_rejected_patch_audit` -/
def rejectedPatchAudit (raw : PyJson) (code : CorrectionCode) : Except CorrectionError OcrCorrectionPatchAudit := do
  let textHash ← rejectedTextHash pyStr (raw.field "corrected_text")
  let kind ← rejectedKind (raw.field "correction_kind")
  OcrCorrectionPatchAudit.make
    { spanId := ((raw.field "span_id").text.bind SpanId.parse).getD ⟨0⟩
      originalTextHash := ((raw.field "original_text_hash").text.bind Sha256.parse).getD ⟨0⟩
      rejectedTextHash := some textHash
      bbox := SourceBox.parse read (raw.field "bbox")
      correctionKind := kind
      confidence := (raw.field "confidence").number.bind fun q => if h : 0 ≤ q ∧ q ≤ 1 then some ⟨q, h⟩ else none
      outcome := .rejected
      validationCode := some code }

/-- `_effective_prompt_hash` -/
def effectivePromptHash (validationCodes : List Text) : Sha256 :=
  canonicalHash platform (.record
    [("prompt_hash", .str snapshot.promptHash.hexdigest),
      ("repair_prompt_version", .lit "structured-output-repair-v1"),
      ("repair_prompt_hash", .str snapshot.repairPromptHash.hexdigest),
      ("repair_validation_codes", .arr (validationCodes.map .str))])

/-- `_page_audit` of a validated response -/
def pageAudit (outcome : PageOutcome) (patches : List OcrCorrectionPatchAudit) (repairs : StructuredRepairs) :
    Except CorrectionError OcrCorrectionPageAudit :=
  OcrCorrectionPageAudit.make
    { sourceHash := snapshot.sourceHash
      page := snapshot.page
      pageImageHash := snapshot.pageImageHash
      ocrCatalogHash := snapshot.ocrCatalogHash
      requestHash := snapshot.requestHash
      promptVersion := "semantic-visual-correction-v2".toList
      promptHash := snapshot.promptHash
      schemaHash := snapshot.schemaHash
      repairPromptVersion := "structured-output-repair-v1".toList
      repairPromptHash := snapshot.repairPromptHash
      effectivePromptHash := effectivePromptHash platform snapshot repairs.validationCodes
      repairs := repairs
      provider := snapshot.provider
      model := snapshot.model
      outcome := outcome
      patches := patches }

/-- `source_span.model_copy` with another text; a validated text is not empty. -/
def correctedSpan (span : SourceSpan) (corrected : Text) : Except CorrectionError SourceSpan :=
  if h : corrected ≠ [] then
    .ok { span with text := corrected, textHash := sha256 corrected, text_ne := h, textHash_eq := rfl }
  else .error .validationError

/-- One round of the loop over the patches: the replacements and the audits. -/
def applyPatch (outcome : PatchOutcome) (state : Dict SpanId SourceSpan × List OcrCorrectionPatchAudit)
    (patch : OcrCorrectionPatch) : Except CorrectionError (Dict SpanId SourceSpan × List OcrCorrectionPatchAudit) := do
  let span ← match snapshot.catalog.lookup patch.spanId.text with
    | some span => .ok span
    | none => .error .keyError
  let replacement ← correctedSpan span patch.correctedText
  let audit ← OcrCorrectionPatchAudit.make
    { spanId := patch.spanId
      originalTextHash := patch.originalTextHash
      correctedText := some patch.correctedText
      correctedTextHash := some (sha256 patch.correctedText)
      bbox := some patch.bbox
      correctionKind := some patch.correctionKind
      confidence := some patch.confidence
      outcome := outcome }
  return (state.1.insert patch.spanId replacement, state.2 ++ [audit])

/-- `validate_page_corrections`; an accepted response has the outcome `applied` or `reused`. -/
def validatePageCorrections (response : PyJson) (reused : Bool) (repairs : StructuredRepairs) :
    Except CorrectionError PageCorrectionValidation :=
  match pageValidation read snapshot response with
  | .error (.raised e) => .error e
  | .error (.code code) => do
    let rejected ← (rawPatches response).mapM fun raw => rejectedPatchAudit read pyStr raw code
    let audit ← pageAudit platform snapshot .rejected rejected repairs
    return ⟨snapshot.spans, audit, [code]⟩
  | .ok () => do
    let parsed ← match OcrCorrectionPlan.parse read response with
      | some plan => .ok plan
      | none => .error .validationError
    let outcome : PatchOutcome := if reused then .reused else .applied
    let (replacements, audits) ← parsed.patches.foldlM (applyPatch snapshot outcome) (∅, [])
    let audit ← pageAudit platform snapshot (.ofPatches outcome) audits repairs
    return ⟨snapshot.spans.map fun span => (replacements.lookup span.spanId).getD span, audit, []⟩

end Application

/-- `model_dump` of a box -/
def SourceBox.pyJson (b : SourceBox) : PyJson :=
  .record [("left", .float b.left), ("bottom", .float b.bottom), ("right", .float b.right), ("top", .float b.top)]

/-- `_trusted_response` -/
def trustedResponse (audit : OcrCorrectionPageAudit) : PyJson :=
  .record
    [("request_hash", .ofText audit.requestHash.hexdigest),
      ("patches", .arr ((audit.patches.filter fun patch => patch.outcome ≠ .rejected).map fun patch =>
        .record
          [("span_id", .ofText patch.spanId.text),
            ("original_text_hash", .ofText patch.originalTextHash.hexdigest),
            ("corrected_text", .opt .ofText patch.correctedText),
            ("correction_kind", .opt (fun kind => .ofText kind.text) patch.correctionKind),
            ("bbox", .opt SourceBox.pyJson patch.bbox),
            ("confidence", .opt (fun confidence => .float confidence.val) patch.confidence)]))]

/-! ### Values that are read back -/

variable {read : Text → Option ℚ} {snapshot : OcrPageSnapshot}

@[simp] theorem SourceBox.parse_pyJson (box : SourceBox) : SourceBox.parse read box.pyJson = some box := by
  have hkeys : box.pyJson.hasKeys ["left", "bottom", "right", "top"] = true := PyJson.hasKeys_record _
  have hfields : box.pyJson.field "left" = .float box.left ∧ box.pyJson.field "bottom" = .float box.bottom ∧
      box.pyJson.field "right" = .float box.right ∧ box.pyJson.field "top" = .float box.top := by
    simp [SourceBox.pyJson, PyJson.field_record_cons]
  simp [SourceBox.parse, hkeys, hfields, PyJson.floatField, guard, box.left_nonneg, box.bottom_nonneg,
    box.right_le_one, box.top_le_one, box.left_le_right, box.bottom_le_top]

@[simp] theorem CorrectionKind.parse_text (kind : CorrectionKind) :
    CorrectionKind.parse (.ofText kind.text) = some kind := by
  cases kind with
  | characterRecognition => rfl
  | spacing => rfl

/-- A patch as a value. -/
def OcrCorrectionPatch.json (patch : OcrCorrectionPatch) : PyJson :=
  .record
    [("span_id", .ofText patch.spanId.text),
      ("original_text_hash", .ofText patch.originalTextHash.hexdigest),
      ("corrected_text", .ofText patch.correctedText),
      ("correction_kind", .ofText patch.correctionKind.text),
      ("bbox", patch.bbox.pyJson),
      ("confidence", .float patch.confidence.val)]

theorem OcrCorrectionPatch.json_fields (patch : OcrCorrectionPatch) :
    patch.json.field "span_id" = .ofText patch.spanId.text ∧
      patch.json.field "original_text_hash" = .ofText patch.originalTextHash.hexdigest ∧
      patch.json.field "corrected_text" = .ofText patch.correctedText ∧
      patch.json.field "correction_kind" = .ofText patch.correctionKind.text ∧
      patch.json.field "bbox" = patch.bbox.pyJson ∧
      patch.json.field "confidence" = PyJson.float patch.confidence.val := by
  simp [OcrCorrectionPatch.json, PyJson.field_record_cons]

@[simp] theorem OcrCorrectionPatch.parse_json (patch : OcrCorrectionPatch) :
    OcrCorrectionPatch.parse read patch.json = some patch := by
  have hkeys : patch.json.hasKeys patchKeys = true := PyJson.hasKeys_record _
  simp [OcrCorrectionPatch.parse, hkeys, patch.json_fields, PyJson.floatField, guard, patch.confidence.2]

/-- A plan as a value. -/
def OcrCorrectionPlan.json (plan : OcrCorrectionPlan) : PyJson :=
  .record
    [("request_hash", .ofText plan.requestHash.hexdigest), ("patches", .arr (plan.patches.map OcrCorrectionPatch.json))]

theorem OcrCorrectionPlan.json_fields (plan : OcrCorrectionPlan) :
    plan.json.field "request_hash" = .ofText plan.requestHash.hexdigest ∧
      plan.json.field "patches" = .arr (plan.patches.map OcrCorrectionPatch.json) := by
  simp [OcrCorrectionPlan.json, PyJson.field_record_cons]

theorem OcrCorrectionPlan.parse_json (plan : OcrCorrectionPlan) :
    OcrCorrectionPlan.parse read plan.json = some plan := by
  have hpatches : (plan.patches.map OcrCorrectionPatch.json).mapM (OcrCorrectionPatch.parse read) =
      some plan.patches := by
    induction plan.patches with
    | nil => rfl
    | cons patch patches ih =>
      rw [List.map_cons, List.mapM_cons, OcrCorrectionPatch.parse_json, ih]
      rfl
  have hkeys : plan.json.hasKeys ["request_hash", "patches"] = true := PyJson.hasKeys_record _
  simp [OcrCorrectionPlan.parse, hkeys, plan.json_fields, PyJson.isArray, PyJson.items, hpatches, guard,
    plan.patches_le]

/-! ### Admitted patches -/

/-- The checks of a patch, for the span that it names. -/
structure Admitted (snapshot : OcrPageSnapshot) (patch : OcrCorrectionPatch) (span : SourceSpan) : Prop where
  known : snapshot.catalog.lookup patch.spanId.text = some span
  hash : patch.originalTextHash = span.textHash
  box : some patch.bbox = span.bbox
  nonempty : patch.correctedText ≠ []
  growth : patch.correctedText.length ≤ span.text.length * 2
  lines : patch.correctedText.count '\n' = span.text.count '\n'
  safe : hasRawHtml patch.correctedText = false ∧ ∀ c ∈ patch.correctedText, Text.isControl c = true → c = '\n'
  kind : correctionTextCode span.text (.ofText patch.correctedText) patch.correctionKind = .ok ()
  confident : 4 / 5 ≤ patch.confidence.val

/-- The catalog has the spans of the page under their identifiers. -/
theorem mem_spans_of_lookup_catalog {t : Text} {span : SourceSpan} (h : snapshot.catalog.lookup t = some span) :
    span ∈ snapshot.spans ∧ t = span.spanId.text := by
  obtain ⟨span', hin, heq⟩ := List.mem_map.1 (Dict.mem_of_lookup_ofList h)
  cases heq
  exact ⟨hin, rfl⟩

private theorem floatField_of_number {value : PyJson} {q : ℚ} (h : value.number = some q) :
    value.floatField read = some q := by
  cases value <;> simp [PyJson.number] at h <;> simp [PyJson.floatField, h]

private theorem CorrectionKind.eq_of_parse {value : PyJson} {kind : CorrectionKind}
    (h : CorrectionKind.parse value = some kind) : value = .ofText kind.text := by
  unfold CorrectionKind.parse at h
  split_ifs at h with hrecognition hspacing
  · cases h
    exact PyJson.isText_eq_true.1 hrecognition
  · cases h
    exact PyJson.isText_eq_true.1 hspacing

/-- A patch that passes the checks is admitted. -/
theorem exists_admitted_of_checkPatch {raw : PyJson} (h : checkPatch read snapshot raw = .ok ())
    {patch : OcrCorrectionPatch} (hpatch : OcrCorrectionPatch.parse read raw = some patch) :
    (∃ span, Admitted snapshot patch span) ∧ raw.field "span_id" = .ofText patch.spanId.text ∧
      raw.field "correction_kind" = .ofText patch.correctionKind.text ∧
      raw.field "corrected_text" = .ofText patch.correctedText := by
  unfold OcrCorrectionPatch.parse at hpatch
  obtain ⟨-, -, hpatch⟩ := Option.bind_eq_some_iff.1 hpatch
  obtain ⟨spanId, hid, hpatch⟩ := Option.bind_eq_some_iff.1 hpatch
  obtain ⟨originalTextHash, horiginal, hpatch⟩ := Option.bind_eq_some_iff.1 hpatch
  obtain ⟨correctedText, htext, hpatch⟩ := Option.bind_eq_some_iff.1 hpatch
  obtain ⟨kind, hkind, hpatch⟩ := Option.bind_eq_some_iff.1 hpatch
  obtain ⟨bbox, hbbox, hpatch⟩ := Option.bind_eq_some_iff.1 hpatch
  obtain ⟨confidence, hconfidence, hpatch⟩ := Option.bind_eq_some_iff.1 hpatch
  split at hpatch
  swap
  · cases hpatch
  cases hpatch
  have htext := PyJson.text_eq_some.1 htext
  unfold checkPatch at h
  obtain ⟨-, h⟩ := stopIf_bind_eq_ok.1 h
  obtain ⟨span, hspan, h⟩ := orStop_bind_eq_ok.1 h
  obtain ⟨hhash, h⟩ := stopIf_bind_eq_ok.1 h
  obtain ⟨bbox', hbbox', h⟩ := orStop_bind_eq_ok.1 h
  obtain ⟨hbox, h⟩ := stopIf_bind_eq_ok.1 h
  obtain ⟨corrected, hcorrected, h⟩ := orStop_bind_eq_ok.1 h
  obtain ⟨hnonempty, h⟩ := stopIf_bind_eq_ok.1 h
  obtain ⟨hgrowth, h⟩ := stopIf_bind_eq_ok.1 h
  obtain ⟨hlines, h⟩ := stopIf_bind_eq_ok.1 h
  obtain ⟨-, -, h⟩ := bind_eq_ok.1 h
  obtain ⟨kind', hkind', h⟩ := orStop_bind_eq_ok.1 h
  obtain ⟨hsafe, h⟩ := stopIf_bind_eq_ok.1 h
  obtain ⟨hcode, h⟩ := unit_bind_eq_ok.1 h
  obtain ⟨confidence', hconfidence', h⟩ := orStop_bind_eq_ok.1 h
  obtain ⟨-, h⟩ := stopIf_bind_eq_ok.1 h
  have hconfident := stopIf_eq_ok.1 h
  -- the validation of the record reads the values that the checks read
  cases hbbox.symm.trans hbbox'
  cases hkind.symm.trans hkind'
  cases hconfidence.symm.trans (floatField_of_number hconfidence')
  rw [htext] at hcorrected
  cases hcorrected
  rw [not_not] at hbox hlines
  obtain ⟨t, ht, hlookup⟩ := Option.bind_eq_some_iff.1 hspan
  obtain ⟨-, rfl⟩ := mem_spans_of_lookup_catalog hlookup
  rw [Bool.not_eq_false, PyJson.isText_eq_true] at hhash
  rw [hhash, PyJson.text_eq_some.2 rfl, Option.bind_some, Sha256.parse_hexdigest] at horiginal
  cases horiginal
  rw [ht, Option.bind_some, SpanId.parse_text] at hid
  cases hid
  rw [not_or, Bool.not_eq_true, PyStr.map_marked_ofText] at hsafe
  rw [PyStr.count_ofText] at hlines
  rw [PyStr.length_ofText] at hgrowth
  refine ⟨⟨span, hlookup, rfl, hbox, fun hnil => hnonempty (PyStr.ofText_eq_nil.2 hnil), not_lt.1 hgrowth, hlines,
    ⟨hsafe.1, fun c hc hcontrol => ?_⟩, hcode, not_lt.1 hconfident⟩, PyJson.text_eq_some.1 ht,
    CorrectionKind.eq_of_parse hkind, htext⟩
  by_contra hne
  have hchar : PyChar.char c ≠ .char '\n' := fun heq => hne (PyChar.char.inj heq)
  exact hsafe.2 (List.any_eq_true.2 ⟨.char c, PyStr.mem_ofText.2 hc, decide_eq_true ⟨hcontrol, hchar⟩⟩)

/-- The value of an admitted patch passes the checks. -/
theorem checkPatch_json {patch : OcrCorrectionPatch} {span : SourceSpan} (h : Admitted snapshot patch span) :
    checkPatch read snapshot patch.json = .ok () := by
  have hkeys : patch.json.hasKeys patchKeys = true := PyJson.hasKeys_record _
  obtain ⟨hid, horiginal, htext, hkind, hbox, hconfidence⟩ := patch.json_fields
  unfold checkPatch
  rw [hid, horiginal, htext, hkind, hbox, hconfidence]
  refine stopIf_bind_eq_ok.2 ⟨by simp [hkeys], orStop_bind_eq_ok.2 ⟨span, h.known, ?_⟩⟩
  refine stopIf_bind_eq_ok.2 ⟨by simp [PyJson.isText_eq_true, h.hash], orStop_bind_eq_ok.2 ⟨patch.bbox, by simp, ?_⟩⟩
  refine stopIf_bind_eq_ok.2 ⟨not_not.2 h.box, orStop_bind_eq_ok.2 ⟨.ofText patch.correctedText, rfl, ?_⟩⟩
  rw [PyStr.length_ofText, PyStr.count_ofText, PyStr.map_marked_ofText]
  refine stopIf_bind_eq_ok.2 ⟨mt PyStr.ofText_eq_nil.1 h.nonempty, stopIf_bind_eq_ok.2 ⟨not_lt.2 h.growth, ?_⟩⟩
  refine stopIf_bind_eq_ok.2 ⟨not_not.2 h.lines, bind_eq_ok.2 ⟨_, hashed_eq_ok.2 rfl, ?_⟩⟩
  refine orStop_bind_eq_ok.2 ⟨patch.correctionKind, by simp, stopIf_bind_eq_ok.2 ⟨?_, ?_⟩⟩
  · rw [not_or, h.safe.1]
    refine ⟨Bool.false_ne_true, fun hany => ?_⟩
    obtain ⟨c, hc, hcontrol⟩ := List.any_eq_true.1 hany
    obtain ⟨c, hmem, rfl⟩ := List.mem_map.1 hc
    obtain ⟨hcontrol, hne⟩ := of_decide_eq_true hcontrol
    exact hne (congrArg PyChar.char (h.safe.2 c hmem hcontrol))
  refine unit_bind_eq_ok.2 ⟨h.kind, orStop_bind_eq_ok.2 ⟨patch.confidence.val, rfl, ?_⟩⟩
  exact stopIf_bind_eq_ok.2 ⟨not_not.2 patch.confidence.2, stopIf_eq_ok.2 (not_lt.2 h.confident)⟩

/-- The checks of a plan. -/
structure AdmittedPlan (snapshot : OcrPageSnapshot) (plan : OcrCorrectionPlan) : Prop where
  request : plan.requestHash = snapshot.requestHash
  distinct : (plan.patches.map fun patch => patch.spanId).Nodup
  admitted : ∀ patch ∈ plan.patches, ∃ span, Admitted snapshot patch span

/-- The value of an admitted plan passes the validation. -/
theorem pageValidation_json {plan : OcrCorrectionPlan} (h : AdmittedPlan snapshot plan) :
    pageValidation read snapshot plan.json = .ok () := by
  have hkeys : plan.json.hasKeys ["request_hash", "patches"] = true := PyJson.hasKeys_record _
  have hids : (rawPatches plan.json).mapM (fun raw => hashed (raw.field "span_id")) =
      .ok ((rawPatches plan.json).map fun raw => (raw.field "span_id").string.map .inr) := by
    refine mapM_eq_map fun raw hraw => ?_
    rw [rawPatches, plan.json_fields.2] at hraw
    obtain ⟨patch, -, rfl⟩ := List.mem_map.1 hraw
    rw [patch.json_fields.1]
    rfl
  have hitems : rawPatches plan.json = plan.patches.map OcrCorrectionPatch.json := by
    rw [rawPatches, plan.json_fields.2]
    rfl
  unfold pageValidation
  refine stopIf_bind_eq_ok.2 ⟨by simp [hkeys], stopIf_bind_eq_ok.2 ⟨?_, ?_⟩⟩
  · simp [plan.json_fields, PyJson.isText_eq_true, h.request]
  refine stopIf_bind_eq_ok.2 ⟨?_, stopIf_bind_eq_ok.2 ⟨?_, ?_⟩⟩
  · have hle := plan.patches_le
    rw [hitems, plan.json_fields.2, List.length_map]
    exact not_or.2 ⟨Bool.noConfusion, not_lt.2 hle⟩
  · rw [hitems]
    rintro ⟨raw, hraw, hobject⟩
    obtain ⟨patch, -, rfl⟩ := List.mem_map.1 hraw
    cases hobject
  refine bind_eq_ok.2 ⟨_, hids, stopIf_bind_eq_ok.2 ⟨?_, unit_bind_eq_ok.2 ⟨forM_eq_ok.2 ?_, stopIf_eq_ok.2 ?_⟩⟩⟩
  · rw [not_not, hitems, List.map_map]
    have hinj : Function.Injective fun i : SpanId => (some (.inr (.ofText i.text)) : Option (ℚ ⊕ PyStr)) := by
      intro i j hij
      have hparse := congrArg SpanId.parse (PyStr.ofText_injective (Sum.inr.inj (Option.some.inj hij)))
      rw [SpanId.parse_text, SpanId.parse_text] at hparse
      exact Option.some.inj hparse
    have hmap : (fun raw : PyJson => ((raw.field "span_id").string.map .inr : Option (ℚ ⊕ PyStr))) ∘
          OcrCorrectionPatch.json =
        (fun i : SpanId => some (.inr (.ofText i.text))) ∘ fun patch => patch.spanId := by
      funext patch
      show ((patch.json.field "span_id").string.map .inr : Option (ℚ ⊕ PyStr)) = _
      rw [patch.json_fields.1]
      rfl
    rw [hmap, ← List.map_map]
    exact h.distinct.map hinj
  · intro raw hraw
    rw [hitems] at hraw
    obtain ⟨patch, hpatch, rfl⟩ := List.mem_map.1 hraw
    obtain ⟨span, hspan⟩ := h.admitted patch hpatch
    exact checkPatch_json hspan
  · rw [OcrCorrectionPlan.parse_json]
    simp

theorem forall₂_of_checks {raws : List PyJson} {patches : List OcrCorrectionPatch}
    (hparse : raws.mapM (OcrCorrectionPatch.parse read) = some patches)
    (hchecks : ∀ raw ∈ raws, checkPatch read snapshot raw = .ok ()) :
    List.Forall₂ (fun raw patch => (∃ span, Admitted snapshot patch span) ∧
      raw.field "span_id" = .ofText patch.spanId.text ∧
      raw.field "correction_kind" = .ofText patch.correctionKind.text ∧
      raw.field "corrected_text" = .ofText patch.correctedText) raws patches := by
  induction raws generalizing patches with
  | nil =>
    cases hparse
    exact .nil
  | cons raw raws ih =>
    rw [List.mapM_cons] at hparse
    obtain ⟨patch, hpatch, hparse⟩ := Option.bind_eq_some_iff.1 hparse
    obtain ⟨patches, hpatches, hparse⟩ := Option.bind_eq_some_iff.1 hparse
    cases hparse
    exact .cons (exists_admitted_of_checkPatch (hchecks raw List.mem_cons_self) hpatch)
      (ih hpatches fun r hr => hchecks r (List.mem_cons_of_mem _ hr))

theorem parse_plan_eq_some {response : PyJson} {plan : OcrCorrectionPlan}
    (h : OcrCorrectionPlan.parse read response = some plan) :
    (response.field "request_hash").text.bind Sha256.parse = some plan.requestHash ∧
      (rawPatches response).mapM (OcrCorrectionPatch.parse read) = some plan.patches := by
  unfold OcrCorrectionPlan.parse at h
  obtain ⟨-, -, h⟩ := Option.bind_eq_some_iff.1 h
  obtain ⟨requestHash, hrequest, h⟩ := Option.bind_eq_some_iff.1 h
  obtain ⟨patches, hpatches, h⟩ := Option.bind_eq_some_iff.1 h
  split at h
  · cases h
    exact ⟨hrequest, hpatches⟩
  · cases h

/-- A response that passes the validation is an admitted plan. -/
theorem exists_admittedPlan {response : PyJson} (h : pageValidation read snapshot response = .ok ()) :
    ∃ plan, OcrCorrectionPlan.parse read response = some plan ∧ AdmittedPlan snapshot plan := by
  unfold pageValidation at h
  obtain ⟨hkeys, h⟩ := stopIf_bind_eq_ok.1 h
  obtain ⟨hrequest, h⟩ := stopIf_bind_eq_ok.1 h
  obtain ⟨-, h⟩ := stopIf_bind_eq_ok.1 h
  obtain ⟨-, h⟩ := stopIf_bind_eq_ok.1 h
  obtain ⟨ids, hids, h⟩ := bind_eq_ok.1 h
  obtain ⟨hnodup, h⟩ := stopIf_bind_eq_ok.1 h
  obtain ⟨hchecks, h⟩ := unit_bind_eq_ok.1 h
  have hplan := stopIf_eq_ok.1 h
  rw [Option.isNone_iff_eq_none] at hplan
  obtain ⟨plan, hparse⟩ := Option.ne_none_iff_exists'.1 hplan
  obtain ⟨hhash, hpatches⟩ := parse_plan_eq_some hparse
  have hforall := forall₂_of_checks hpatches (forM_eq_ok.1 hchecks)
  refine ⟨plan, hparse, ?_, ?_, fun patch hpatch => ?_⟩
  · rw [Bool.not_eq_false, PyJson.isText_eq_true] at hrequest
    rw [hrequest] at hhash
    exact Option.some.inj (hhash.symm.trans (Sha256.parse_hexdigest _))
  · have hkeys : (rawPatches response).mapM (fun raw => hashed (raw.field "span_id")) =
        .ok (plan.patches.map fun patch => some (Sum.inr (.ofText patch.spanId.text))) := by
      refine mapM_eq_ok.2 (List.forall₂_map_right_iff.2 (hforall.imp fun raw patch hraw => ?_))
      rw [hraw.2.1]
      rfl
    cases hids.symm.trans hkeys
    rw [not_not] at hnodup
    refine List.Nodup.of_map (fun i : SpanId => (some (Sum.inr (.ofText i.text)) : Option (ℚ ⊕ PyStr))) ?_
    rwa [List.map_map]
  · obtain ⟨raw, -, hspan, -⟩ := exists_of_forall₂_right hforall hpatch
    exact hspan

end ArdOssie
