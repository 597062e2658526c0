import ArdOssie.Semantic.Corrections

/-!
# Line boundaries under spacing patches

An accepted spacing patch keeps the visible characters and the number of line boundaries of a span; the boundaries
themselves stay in place for the spans that leave no choice, and for every other span some accepted patch moves one.
-/

namespace ArdOssie

namespace Text

/-- For every newline the number of visible characters before it, when `seen` of them came before the text. -/
def lineBoundariesFrom (seen : ℕ) : Text → List ℕ
  | [] => []
  | c :: t =>
    if c = '\n' then seen :: lineBoundariesFrom seen t
    else lineBoundariesFrom (if isSpace c then seen else seen + 1) t

/-- For every newline of a text the number of visible characters before it. -/
def lineBoundaries (t : Text) : List ℕ := lineBoundariesFrom 0 t

private theorem isSpace_newline : isSpace '\n' = true := by decide

theorem length_lineBoundaries (seen : ℕ) (t : Text) : (lineBoundariesFrom seen t).length = t.count '\n' := by
  induction t generalizing seen with
  | nil => rfl
  | cons c t ih =>
    rw [lineBoundariesFrom, List.count_cons]
    by_cases h : c = '\n'
    · rw [if_pos h, List.length_cons, ih, h]
      simp
    · rw [if_neg h, ih]
      simp [h]

theorem lineBoundariesFrom_append (seen : ℕ) (t u : Text) : lineBoundariesFrom seen (t ++ u) =
    lineBoundariesFrom seen t ++ lineBoundariesFrom (seen + t.withoutWhitespace.length) u := by
  induction t generalizing seen with
  | nil => rfl
  | cons c t ih =>
    rw [List.cons_append, lineBoundariesFrom, lineBoundariesFrom, withoutWhitespace_cons]
    by_cases h : c = '\n'
    · rw [if_pos h, if_pos h, ih, h, if_pos isSpace_newline, List.cons_append]
    · rw [if_neg h, if_neg h, ih]
      by_cases hspace : isSpace c = true
      · rw [if_pos hspace, if_pos hspace]
      · rw [if_neg hspace, if_neg hspace, List.length_cons, Nat.add_assoc, Nat.add_comm 1]

/-- Without a newline there is no boundary. -/
theorem lineBoundariesFrom_eq_nil {seen : ℕ} {t : Text} (h : '\n' ∉ t) : lineBoundariesFrom seen t = [] := by
  rw [← List.length_eq_zero_iff, length_lineBoundaries, List.count_eq_zero]
  exact h

theorem lineBoundariesFrom_replicate (seen n : ℕ) :
    lineBoundariesFrom seen (List.replicate n '\n') = List.replicate n seen := by
  induction n with
  | zero => rfl
  | succ n ih => rw [List.replicate_succ, lineBoundariesFrom, if_pos rfl, ih, List.replicate_succ]

/-- A text whose visible characters are known has its boundaries among their number. -/
theorem lineBoundariesFrom_eq_replicate {seen : ℕ} {t : Text} (h : t.withoutWhitespace = []) :
    lineBoundariesFrom seen t = List.replicate (t.count '\n') seen := by
  induction t with
  | nil => rfl
  | cons c t ih =>
    rw [withoutWhitespace_cons] at h
    split at h
    · rename_i hspace
      rw [lineBoundariesFrom, ih h, List.count_cons]
      by_cases hc : c = '\n'
      · rw [if_pos hc, hc]
        simp [List.replicate_succ]
      · rw [if_neg hc, if_pos hspace]
        simp [hc, ih h]
    · cases h

/-! ### Texts without HTML -/

/-- A space after every opening angle bracket. -/
def spreadAngles : Text → Text
  | [] => []
  | c :: t => if c = '<' then '<' :: ' ' :: spreadAngles t else c :: spreadAngles t

theorem mem_spreadAngles {t : Text} {c : Char} (h : c ∈ spreadAngles t) : c ∈ t ∨ c = ' ' := by
  induction t with
  | nil => cases h
  | cons d t ih =>
    unfold spreadAngles at h
    split at h
    · rename_i hd
      rcases List.mem_cons.1 h with rfl | h
      · exact Or.inl (hd ▸ List.mem_cons_self)
      · rcases List.mem_cons.1 h with rfl | h
        · exact Or.inr rfl
        · exact (ih h).imp_left (List.mem_cons_of_mem _)
    · rcases List.mem_cons.1 h with rfl | h
      · exact Or.inl List.mem_cons_self
      · exact (ih h).imp_left (List.mem_cons_of_mem _)

theorem length_spreadAngles (t : Text) : (spreadAngles t).length ≤ t.length + t.length := by
  induction t with
  | nil => exact Nat.le_refl 0
  | cons c t ih =>
    unfold spreadAngles
    split
    · simp only [List.length_cons]
      omega
    · simp only [List.length_cons]
      omega

theorem withoutWhitespace_spreadAngles (t : Text) : (spreadAngles t).withoutWhitespace = t.withoutWhitespace := by
  have hangle : isSpace '<' = false := by decide
  have hspace : isSpace ' ' = true := by decide
  induction t with
  | nil => rfl
  | cons c t ih =>
    unfold spreadAngles
    split
    · rename_i hc
      rw [hc, withoutWhitespace_cons, withoutWhitespace_cons, withoutWhitespace_cons, hangle, hspace, ih]
      rfl
    · rw [withoutWhitespace_cons, withoutWhitespace_cons, ih]

/-- A space follows every opening angle bracket. -/
def AnglesSpread (t : Text) : Prop := ∀ before rest, t = before ++ '<' :: rest → ∃ rest', rest = ' ' :: rest'

theorem AnglesSpread.append_left {t u : Text} (ht : '<' ∉ t) (hu : AnglesSpread u) : AnglesSpread (t ++ u) := by
  induction t with
  | nil => exact hu
  | cons c t ih =>
    rw [List.mem_cons, not_or] at ht
    intro before rest heq
    cases before with
    | nil => exact absurd (List.cons.inj heq).1.symm ht.1
    | cons b before => exact ih ht.2 before rest (List.cons.inj heq).2

theorem anglesSpread_spreadAngles {u : Text} (hu : '<' ∉ u) (t : Text) : AnglesSpread (spreadAngles t ++ u) := by
  induction t with
  | nil =>
    intro before rest heq
    have heq : u = before ++ '<' :: rest := heq
    exact absurd (heq ▸ List.mem_append_right _ List.mem_cons_self) hu
  | cons c t ih =>
    intro before rest heq
    unfold spreadAngles at heq
    split at heq
    · cases before with
      | nil => exact ⟨_, (List.cons.inj heq).2.symm⟩
      | cons b before =>
        have heq : ' ' :: (spreadAngles t ++ u) = before ++ '<' :: rest := (List.cons.inj heq).2
        cases before with
        | nil => exact absurd (List.cons.inj heq).1 (by decide)
        | cons b' before => exact ih before rest (List.cons.inj heq).2
    · rename_i hc
      cases before with
      | nil => exact absurd (List.cons.inj heq).1 hc
      | cons b before => exact ih before rest (List.cons.inj heq).2

end Text

open Regex in
/-- What follows the opening angle bracket of raw HTML is no space. -/
private theorem not_matches_space {rest : Text} {previous : Option Char} :
    ¬ (seq (alt htmlTag (alt htmlComment (alt htmlDeclaration htmlInstruction))) (.literal '>')).Matches
      ⟨previous, ' ' :: rest⟩ := by
  have hletter : isAsciiLetter ' ' = false := by decide
  simp only [matches_seq_alt, htmlTag, htmlComment, htmlDeclaration, htmlInstruction, matches_seq_seq, matches_seq_opt,
    Regex.literal, matches_seq_char]
  simp [hletter]

theorem hasRawHtml_of_anglesSpread {t : Text} (h : t.AnglesSpread) : hasRawHtml t = false := by
  rw [Bool.eq_false_iff]
  intro hhtml
  rw [hasRawHtml, rawHtml, Regex.literal, Regex.occursIn_iff_matches (Regex.advances_seq_char _ _)] at hhtml
  obtain ⟨before, after, hsplit, hmatches⟩ := hhtml
  obtain ⟨x, rest, hafter, hx, hrest⟩ := Regex.matches_seq_char.1 hmatches
  have hx : x = '<' := of_decide_eq_true hx
  have hafter : after = '<' :: rest := hx ▸ hafter
  obtain ⟨rest', rfl⟩ := h before rest (hafter ▸ hsplit)
  exact not_matches_space hrest

/-! ### Candidates -/

/-- The visible characters after all newlines. -/
private def linesFirst (t : Text) : Text := List.replicate (t.count '\n') '\n' ++ t.withoutWhitespace.spreadAngles

/-- The visible characters before all newlines. -/
private def linesLast (t : Text) : Text := t.withoutWhitespace.spreadAngles ++ List.replicate (t.count '\n') '\n'

private theorem newline_notMem_spread (t : Text) : '\n' ∉ t.withoutWhitespace.spreadAngles := by
  intro h
  rcases Text.mem_spreadAngles h with hmem | hspace
  · exact absurd (List.mem_filter.1 hmem).2 (by decide)
  · exact absurd hspace (by decide)

private theorem withoutWhitespace_newlines (n : ℕ) : Text.withoutWhitespace (List.replicate n '\n') = [] := by
  unfold Text.withoutWhitespace
  rw [List.filter_replicate]
  rfl

private theorem withoutWhitespace_withoutWhitespace (t : Text) :
    t.withoutWhitespace.withoutWhitespace = t.withoutWhitespace :=
  List.filter_eq_self.2 fun _ hc => (List.mem_filter.1 hc).2

/-- The visible characters and the newlines fit into a text. -/
private theorem length_visible_add_count_le (t : Text) : t.withoutWhitespace.length + t.count '\n' ≤ t.length := by
  induction t with
  | nil => exact Nat.le_refl 0
  | cons c t ih =>
    rw [Text.withoutWhitespace_cons, List.count_cons, List.length_cons]
    by_cases hc : c = '\n'
    · subst hc
      rw [if_pos Text.isSpace_newline]
      simp
      omega
    · have hcount : (if c == '\n' then 1 else 0) = 0 := by simp [hc]
      rw [hcount]
      split
      · omega
      · rw [List.length_cons]
        omega

/-- A text with the visible characters and the newlines of another one, in one of two orders. -/
private structure Rearranged (t u : Text) : Prop where
  visible : u.withoutWhitespace = t.withoutWhitespace
  lines : u.count '\n' = t.count '\n'
  length : u.length ≤ t.length * 2
  angles : u.AnglesSpread
  chars : ∀ c ∈ u, c ∈ t.withoutWhitespace ∨ c = ' ' ∨ c = '\n'

private theorem rearranged_linesFirst (t : Text) : Rearranged t (linesFirst t) := by
  have hlength := length_visible_add_count_le t
  have hspread := Text.length_spreadAngles t.withoutWhitespace
  refine ⟨?_, ?_, ?_, ?_, ?_⟩
  · rw [linesFirst, Text.withoutWhitespace_append, withoutWhitespace_newlines, Text.withoutWhitespace_spreadAngles,
      withoutWhitespace_withoutWhitespace, List.nil_append]
  · rw [linesFirst, List.count_append, List.count_replicate_self, List.count_eq_zero.2 (newline_notMem_spread t),
      Nat.add_zero]
  · rw [linesFirst, List.length_append, List.length_replicate]
    omega
  · have hno : '<' ∉ List.replicate (t.count '\n') '\n' := fun h => absurd (List.eq_of_mem_replicate h) (by decide)
    have hspreadAngles := Text.anglesSpread_spreadAngles List.not_mem_nil t.withoutWhitespace
    rw [List.append_nil] at hspreadAngles
    exact hspreadAngles.append_left hno
  · intro c hc
    rcases List.mem_append.1 hc with hnewline | hvisible
    · exact Or.inr (Or.inr (List.eq_of_mem_replicate hnewline))
    · exact (Text.mem_spreadAngles hvisible).imp_right Or.inl

private theorem rearranged_linesLast (t : Text) : Rearranged t (linesLast t) := by
  obtain ⟨hvisible, hlines, hlength, -, hchars⟩ := rearranged_linesFirst t
  have hperm : (linesLast t).Perm (linesFirst t) := List.perm_append_comm
  refine ⟨?_, ?_, ?_, ?_, fun c hc => hchars c (hperm.mem_iff.1 hc)⟩
  · rw [linesLast, Text.withoutWhitespace_append, withoutWhitespace_newlines, Text.withoutWhitespace_spreadAngles,
      withoutWhitespace_withoutWhitespace, List.append_nil]
  · exact (hperm.count_eq _).trans hlines
  · exact hperm.length_eq ▸ hlength
  · have hno : '<' ∉ List.replicate (t.count '\n') '\n' := fun h => absurd (List.eq_of_mem_replicate h) (by decide)
    exact Text.anglesSpread_spreadAngles hno _

/-- The two orders differ in their boundaries when there are visible characters and newlines. -/
private theorem lineBoundaries_ne {t : Text} (hlines : '\n' ∈ t) (hvisible : t.withoutWhitespace ≠ []) :
    (linesFirst t).lineBoundaries ≠ (linesLast t).lineBoundaries := by
  intro heq
  have hspread (seen : ℕ) : Text.lineBoundariesFrom seen t.withoutWhitespace.spreadAngles = [] :=
    Text.lineBoundariesFrom_eq_nil (newline_notMem_spread t)
  unfold Text.lineBoundaries linesFirst linesLast at heq
  rw [Text.lineBoundariesFrom_append, Text.lineBoundariesFrom_append, Text.lineBoundariesFrom_replicate,
    hspread, List.append_nil, hspread, List.nil_append,
    Text.lineBoundariesFrom_replicate, Text.withoutWhitespace_spreadAngles, withoutWhitespace_withoutWhitespace] at heq
  have hcount : 0 < t.count '\n' := List.count_pos_iff.2 hlines
  have hlength : 0 < t.withoutWhitespace.length := List.length_pos_iff.2 hvisible
  have hhead := List.eq_of_mem_replicate (heq ▸ List.mem_replicate.2 ⟨hcount.ne', rfl⟩)
  omega

/-! ### Spacing patches -/

section Patches

variable {read : Text → Option ℚ} {snapshot : OcrPageSnapshot} {span : SourceSpan}

/-- The validator accepts a response with a spacing patch that gives a span another text. -/
def AcceptsSpacing (read : Text → Option ℚ) (snapshot : OcrPageSnapshot) (span : SourceSpan) (corrected : Text) : Prop :=
  ∃ response plan, pageValidation read snapshot response = .ok () ∧
    OcrCorrectionPlan.parse read response = some plan ∧
    ∃ patch ∈ plan.patches, patch.spanId = span.spanId ∧ patch.correctionKind = .spacing ∧
      patch.correctedText = corrected

/-- The span for which a patch is admitted has the identifier of the patch. -/
private theorem admitted_of_acceptsSpacing (hspan : snapshot.catalog.lookup span.spanId.text = some span)
    {corrected : Text} (h : AcceptsSpacing read snapshot span corrected) :
    ∃ patch, Admitted snapshot patch span ∧ patch.correctionKind = .spacing ∧ patch.correctedText = corrected := by
  obtain ⟨response, plan, hok, hparse, patch, hpatch, hid, hkind, htext⟩ := h
  obtain ⟨plan', hparse', hplan⟩ := exists_admittedPlan hok
  cases hparse.symm.trans hparse'
  obtain ⟨span', hspan'⟩ := hplan.admitted patch hpatch
  have hknown := hspan'.known
  rw [hid, hspan] at hknown
  cases hknown
  exact ⟨patch, hspan', hkind, htext⟩

/-- An accepted spacing patch keeps the visible characters and the number of newlines. -/
private theorem kept_of_acceptsSpacing (hspan : snapshot.catalog.lookup span.spanId.text = some span)
    {corrected : Text} (h : AcceptsSpacing read snapshot span corrected) :
    corrected.withoutWhitespace = span.text.withoutWhitespace ∧ corrected.count '\n' = span.text.count '\n' ∧
      ∀ c ∈ corrected, Text.isControl c = true → c = '\n' := by
  obtain ⟨patch, hadmitted, hkind, rfl⟩ := admitted_of_acceptsSpacing hspan h
  have hcode := hadmitted.kind
  rw [hkind] at hcode
  have hspacing := not_or.1 (stopIf_eq_ok.1 hcode)
  rw [not_not, PyStr.withoutWhitespace_ofText, PyStr.withoutWhitespace_ofText, PyStr.ofText_inj] at hspacing
  exact ⟨(PyStr.ofText_injective hspacing.2).symm, hadmitted.lines, hadmitted.safe.2⟩

/-- A rearranged text is accepted. -/
private theorem acceptsSpacing_of_rearranged (hspan : snapshot.catalog.lookup span.spanId.text = some span)
    (hcontrol : ∀ c ∈ span.text, Text.isSpace c = false → Text.isControl c = false) {corrected : Text}
    (hne : corrected ≠ span.text) (h : Rearranged span.text corrected) (hvisible : span.text.withoutWhitespace ≠ []) :
    AcceptsSpacing read snapshot span corrected := by
  obtain ⟨hin, -⟩ := mem_spans_of_lookup_catalog hspan
  obtain ⟨bbox, hbbox⟩ := Option.ne_none_iff_exists'.1 (snapshot.spans_placed span hin).2
  have hnonempty : corrected ≠ [] := by
    rintro rfl
    exact hvisible h.visible.symm
  have hadmitted : Admitted snapshot ⟨span.spanId, span.textHash, corrected, .spacing, bbox, .one⟩ span := by
    refine ⟨hspan, rfl, hbbox.symm, hnonempty, h.length, h.lines, ⟨hasRawHtml_of_anglesSpread h.angles, ?_⟩, ?_, ?_⟩
    · intro c hc hcc
      rcases h.chars c hc with hmem | rfl | rfl
      · obtain ⟨htext, hspace⟩ := List.mem_filter.1 hmem
        have hspace : Text.isSpace c = false := by simpa using hspace
        rw [hcontrol c htext hspace] at hcc
        cases hcc
      · exact absurd hcc (by decide)
      · rfl
    · refine stopIf_eq_ok.2 ?_
      rw [PyStr.withoutWhitespace_ofText, PyStr.withoutWhitespace_ofText, PyStr.ofText_inj]
      exact not_or.2 ⟨fun heq => hne heq.symm, not_not.2 (congrArg PyStr.ofText h.visible.symm)⟩
    · show (4 / 5 : ℚ) ≤ 1
      norm_num
  have hplan : AdmittedPlan snapshot ⟨snapshot.requestHash, [⟨span.spanId, span.textHash, corrected, .spacing, bbox, .one⟩],
      by simp⟩ := by
    refine ⟨rfl, by simp, fun patch hpatch => ?_⟩
    cases List.mem_singleton.1 hpatch
    exact ⟨span, hadmitted⟩
  exact ⟨_, _, pageValidation_json hplan, OcrCorrectionPlan.parse_json _, _, List.mem_singleton_self _, rfl, rfl, rfl⟩

/-- Accepted spacing patches of a span keep its visible characters and the number of its newlines; they keep the place of
every newline exactly when the span has no newline, no visible character or a visible control character. -/
theorem acceptsSpacing_lineBoundaries (hspan : snapshot.catalog.lookup span.spanId.text = some span) :
    (∀ corrected, AcceptsSpacing read snapshot span corrected →
      corrected.withoutWhitespace = span.text.withoutWhitespace ∧ corrected.count '\n' = span.text.count '\n') ∧
    ((∀ corrected, AcceptsSpacing read snapshot span corrected →
        corrected.lineBoundaries = span.text.lineBoundaries) ↔
      '\n' ∉ span.text ∨ span.text.withoutWhitespace = [] ∨
        ∃ c ∈ span.text, Text.isSpace c = false ∧ Text.isControl c = true) := by
  refine ⟨fun corrected h => ?_, fun hkept => ?_, fun hfixed corrected h => ?_⟩
  · obtain ⟨hvisible, hlines, -⟩ := kept_of_acceptsSpacing hspan h
    exact ⟨hvisible, hlines⟩
  · by_contra hfree
    obtain ⟨hlines, hvisible, hcontrol⟩ := (not_or.1 hfree).imp not_not.1 not_or.1
    have hcontrol : ∀ c ∈ span.text, Text.isSpace c = false → Text.isControl c = false := by
      intro c hc hspace
      by_contra hcc
      exact hcontrol ⟨c, hc, hspace, by simpa using hcc⟩
    have hmoved {corrected : Text} (h : Rearranged span.text corrected) :
        corrected.lineBoundaries = span.text.lineBoundaries := by
      by_contra hne
      have htext : corrected ≠ span.text := fun heq => hne (heq ▸ rfl)
      exact hne (hkept corrected (acceptsSpacing_of_rearranged hspan hcontrol htext h hvisible))
    exact lineBoundaries_ne hlines hvisible
      ((hmoved (rearranged_linesFirst _)).trans (hmoved (rearranged_linesLast _)).symm)
  · obtain ⟨hvisible, hlines, hcontrols⟩ := kept_of_acceptsSpacing hspan h
    rcases hfixed with hno | hblank | ⟨c, hc, hspace, hcontrol⟩
    · have hno' : '\n' ∉ corrected := by
        rw [← List.count_eq_zero, hlines, List.count_eq_zero]
        exact hno
      unfold Text.lineBoundaries
      rw [Text.lineBoundariesFrom_eq_nil hno, Text.lineBoundariesFrom_eq_nil hno']
    · unfold Text.lineBoundaries
      rw [Text.lineBoundariesFrom_eq_replicate hblank, Text.lineBoundariesFrom_eq_replicate (hvisible.trans hblank), hlines]
    · have hmem : c ∈ corrected.withoutWhitespace := by
        rw [hvisible]
        exact List.mem_filter.2 ⟨hc, by simpa using hspace⟩
      have hnewline := hcontrols c (List.mem_filter.1 hmem).1 hcontrol
      rw [hnewline, Text.isSpace_newline] at hspace
      cases hspace

end Patches

private def twoLines : SourceSpan where
  spanId := ⟨0⟩
  ordinal := 0
  page := some 1
  bbox := some .page
  text := "ab\nc".toList
  textHash := sha256 "ab\nc".toList
  paragraphBreakBefore := false
  page_pos := by simp
  text_ne := by decide
  textHash_eq := rfl

private def twoLinesPage : OcrPageSnapshot where
  sourceHash := ⟨0⟩
  page := 1
  pageImageHash := ⟨0⟩
  spans := [twoLines]
  ocrCatalogHash := ⟨0⟩
  promptHash := ⟨0⟩
  schemaHash := ⟨0⟩
  repairPromptHash := ⟨0⟩
  provider := []
  model := []
  requestHash := ⟨0⟩
  page_pos := Nat.one_pos
  spans_le := by simp
  spans_placed := by simp [twoLines]

private theorem lookup_twoLines : twoLinesPage.catalog.lookup twoLines.spanId.text = some twoLines :=
  Dict.lookup_ofList (by simp [twoLinesPage]) (by simp [twoLinesPage])

theorem acceptsSpacing_lineBoundaries_two :
    ¬ ∀ corrected, AcceptsSpacing (fun _ => none) twoLinesPage twoLines corrected →
      corrected.lineBoundaries = twoLines.text.lineBoundaries := by
  intro h
  have hplain : (twoLines.text.all fun c => Text.isSpace c || !Text.isControl c) = true := by decide
  rcases (acceptsSpacing_lineBoundaries lookup_twoLines).2.1 h with hline | hvisible | ⟨c, hc, hspace, hcontrol⟩
  · exact hline (by decide)
  · exact absurd hvisible (by decide)
  · have hc := List.all_eq_true.1 hplain c hc
    rw [hspace, hcontrol] at hc
    exact Bool.false_ne_true hc

/-- The patch of `ab\nc` with the text `a\nbc` is accepted. -/
theorem newline_moves : ∃ response plan patch,
    pageValidation (fun _ => none) twoLinesPage response = .ok () ∧
      OcrCorrectionPlan.parse (fun _ => none) response = some plan ∧ plan.patches = [patch] ∧
      patch.spanId = twoLines.spanId ∧ patch.correctionKind = .spacing ∧
      twoLines.text.lineBoundaries = [2] ∧ patch.correctedText.lineBoundaries = [1] := by
  have hadmitted : Admitted twoLinesPage
      ⟨⟨0⟩, twoLines.textHash, "a\nbc".toList, .spacing, .page, .one⟩ twoLines := by
    have hplain : ("a\nbc".toList.all fun c => !Text.isControl c || c = '\n') = true := by decide
    refine ⟨lookup_twoLines, rfl, rfl, by decide, by decide, by decide, ⟨by decide +kernel, ?_⟩, ?_, ?_⟩
    · intro c hc hcontrol
      have hc := List.all_eq_true.1 hplain c hc
      rw [hcontrol] at hc
      exact of_decide_eq_true hc
    · exact stopIf_eq_ok.2 (by decide)
    · show (4 / 5 : ℚ) ≤ 1
      norm_num
  have hplan : AdmittedPlan twoLinesPage ⟨⟨0⟩, [⟨⟨0⟩, twoLines.textHash, "a\nbc".toList, .spacing, .page, .one⟩],
      by simp⟩ := by
    refine ⟨rfl, by simp, fun patch hpatch => ?_⟩
    cases List.mem_singleton.1 hpatch
    exact ⟨twoLines, hadmitted⟩
  exact ⟨_, _, _, pageValidation_json hplan, OcrCorrectionPlan.parse_json _, rfl, rfl, rfl, by decide, by decide⟩

end ArdOssie
