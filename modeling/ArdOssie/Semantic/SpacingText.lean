import ArdOssie.Semantic.SpacingRepair

/-!
# Whitespace in canonical form

`canonicalizeWhitespace` trims the lines of a text, drops the blank ones and writes a space for every run of blanks in
a line.  Its result renders its own boundaries exactly when the whitespace inside the lines of the text is blank.
-/

namespace ArdOssie

open Text (isSpace withoutWhitespace isLineBreak withoutWhitespace_append withoutWhitespace_cons of_mem_splitLines)

/-! ### Normalisation -/

/-- `[\t \f\v]` -/
def isBlank (c : Char) : Bool := c.toNat ∈ [0x9, 0x20, 0xc, 0xb]

/-- The text with a space for every run of blanks; `inRun` says that a run has started. -/
def collapseFrom (inRun : Bool) : Text → Text
  | [] => []
  | c :: t =>
    if isBlank c then (if inRun then collapseFrom true t else ' ' :: collapseFrom true t)
    else c :: collapseFrom false t

/-- `_MULTIPLE_WHITESPACE.sub(" ", line)` -/
def collapseBlanks (line : Text) : Text := collapseFrom false line

/-- `_canonicalize_whitespace` -/
def canonicalizeWhitespace (value : Text) : Text :=
  List.intercalate ['\n'] ((value.splitLines.map fun line => (collapseBlanks line).strip).filter (· ≠ []))

/-- `_punctuation_rules` -/
def punctuationRules (value : Text) : Text :=
  spaceAfterOpen.sub (fun token => token.take 1)
    (spaceBeforePunctuation.sub (fun token => token.drop (token.length - 1)) value)

/-- The punctuation rules add no character. -/
theorem punctuationRules_subset (value : Text) : punctuationRules value ⊆ value :=
  List.Subset.trans (Regex.subset_of_sub (fun token => List.take_subset 1 token) _)
    (Regex.subset_of_sub (fun token => List.drop_subset _ token) value)

/-- The whitespace inside the lines of a text is blank. -/
def PlainLines (t : Text) : Prop := ∀ line ∈ t.splitLines, ∀ gap ∈ gaps line, ∀ c ∈ gap, isBlank c = true

/-- The whitespace that a boundary renders. -/
def RegularGap (gap : Text) : Prop := gap = [] ∨ gap = [' '] ∨ gap = ['\n']

/-- A text that starts and ends with a character. -/
def Trimmed (t : Text) : Prop :=
  (∃ c u, t = c :: u ∧ isSpace c = false) ∧ ∃ u c, t = u ++ [c] ∧ isSpace c = false

private theorem isSpace_of_isBlank {c : Char} (h : isBlank c = true) : isSpace c = true := by
  simp only [isBlank, List.mem_cons, List.not_mem_nil, or_false, decide_eq_true_eq] at h
  simp only [isSpace, Bool.or_eq_true, Bool.and_eq_true, decide_eq_true_eq, beq_iff_eq]
  omega

private theorem withoutWhitespace_spaces {w : Text} (h : ∀ c ∈ w, isSpace c = true) : withoutWhitespace w = [] := by
  rw [withoutWhitespace, List.filter_eq_nil_iff]
  intro c hc
  simp [h c hc]

/-- A text is whitespace, or whitespace before a character. -/
private theorem spaces_or_split (t : Text) :
    (∀ c ∈ t, isSpace c = true) ∨ ∃ lead c u, t = lead ++ c :: u ∧ (∀ d ∈ lead, isSpace d = true) ∧ isSpace c = false := by
  induction t with
  | nil => exact Or.inl (by simp)
  | cons d t ih =>
    cases hd : isSpace d with
    | false => exact Or.inr ⟨[], d, t, rfl, by simp, hd⟩
    | true =>
      rcases ih with hall | ⟨lead, c, u, rfl, hlead, hc⟩
      · exact Or.inl (List.forall_mem_cons.2 ⟨hd, hall⟩)
      · exact Or.inr ⟨d :: lead, c, u, rfl, List.forall_mem_cons.2 ⟨hd, hlead⟩, hc⟩

/-! ### Gaps -/

theorem gaps_cons {c : Char} (hc : isSpace c = false) (t : Text) : gaps (c :: t) = gapsAfter [] t := by
  simp [gaps, hc]

private theorem gaps_append_spaces {lead : Text} (h : ∀ c ∈ lead, isSpace c = true) (t : Text) :
    gaps (lead ++ t) = gaps t := by
  rw [gaps, gaps, List.dropWhile_append_of_pos h]

private theorem gapsAfter_spaces {w : Text} (h : ∀ c ∈ w, isSpace c = true) (gap : Text) : gapsAfter gap w = [] := by
  induction w generalizing gap with
  | nil => rfl
  | cons c w ih =>
    rw [gapsAfter, if_pos (h c (by simp))]
    exact ih (fun d hd => h d (by simp [hd])) _

private theorem gaps_spaces {w : Text} (h : ∀ c ∈ w, isSpace c = true) : gaps w = [] := by
  have hgaps := gaps_append_spaces h []
  rwa [List.append_nil] at hgaps

private theorem gapsAfter_append_cons {c : Char} (hc : isSpace c = false) (gap u v : Text) :
    gapsAfter gap (u ++ c :: v) = gapsAfter gap (u ++ [c]) ++ gapsAfter [] v := by
  induction u generalizing gap with
  | nil => simp [gapsAfter, hc]
  | cons d u ih =>
    rw [List.cons_append, List.cons_append, gapsAfter, gapsAfter]
    split
    · exact ih _
    · rw [ih, List.cons_append]

/-- The gaps of a text that follows a trimmed one. -/
private theorem gaps_append {t : Text} (ht : Trimmed t) (v : Text) : gaps (t ++ v) = gaps t ++ gapsAfter [] v := by
  obtain ⟨⟨c, u, rfl, hc⟩, u', d, hlast, hd⟩ := ht
  rw [List.cons_append, gaps_cons hc, gaps_cons hc]
  cases u' with
  | nil =>
    cases hlast
    rfl
  | cons c' u' =>
    have hu : u = u' ++ [d] := (List.cons.inj hlast).2
    rw [hu, List.append_assoc, List.singleton_append]
    exact gapsAfter_append_cons hd [] u' v

private theorem mem_gapsAfter {gap t g : Text} (hg : g ∈ gapsAfter gap t) :
    ∀ c ∈ g, c ∈ gap ∨ (c ∈ t ∧ isSpace c = true) := by
  induction t generalizing gap with
  | nil => cases hg
  | cons d t ih =>
    rw [gapsAfter] at hg
    intro c hc
    split at hg
    · rename_i hd
      rcases ih hg c hc with hmem | ⟨hmem, hspace⟩
      · rcases List.mem_append.1 hmem with hmem | hmem
        · exact Or.inl hmem
        · cases List.mem_singleton.1 hmem
          exact Or.inr ⟨by simp, hd⟩
      · exact Or.inr ⟨by simp [hmem], hspace⟩
    · rcases List.mem_cons.1 hg with rfl | hg
      · exact Or.inl hc
      · rcases ih hg c hc with hmem | ⟨hmem, hspace⟩
        · cases hmem
        · exact Or.inr ⟨by simp [hmem], hspace⟩

/-- A gap is whitespace of the text. -/
theorem mem_of_mem_gaps {t g : Text} (hg : g ∈ gaps t) : ∀ c ∈ g, c ∈ t ∧ isSpace c = true := by
  intro c hc
  rcases spaces_or_split t with hall | ⟨lead, d, u, rfl, hlead, hd⟩
  · rw [gaps_spaces hall] at hg
    cases hg
  · rw [gaps_append_spaces hlead, gaps_cons hd] at hg
    rcases mem_gapsAfter hg c hc with hmem | ⟨hmem, hspace⟩
    · cases hmem
    · exact ⟨by simp [hmem], hspace⟩

private theorem length_gapsAfter (gap t : Text) : (gapsAfter gap t).length = (withoutWhitespace t).length := by
  induction t generalizing gap with
  | nil => rfl
  | cons c t ih =>
    rw [gapsAfter, withoutWhitespace_cons]
    split
    · exact ih _
    · rw [List.length_cons, List.length_cons, ih]

/-- There is a gap between every two consecutive characters. -/
theorem length_gaps (t : Text) : (gaps t).length = (withoutWhitespace t).length - 1 := by
  rcases spaces_or_split t with hall | ⟨lead, c, u, rfl, hlead, hc⟩
  · rw [gaps_spaces hall, withoutWhitespace_spaces hall]
    rfl
  · rw [gaps_append_spaces hlead, gaps_cons hc, length_gapsAfter]
    have hsequence : withoutWhitespace (lead ++ c :: u) = c :: withoutWhitespace u := by
      rw [withoutWhitespace_append, withoutWhitespace_spaces hlead, List.nil_append, withoutWhitespace_cons,
        if_neg (by simp [hc])]
    rw [hsequence, List.length_cons, Nat.add_sub_cancel]

/-! ### Strip -/

/-- A text is what `strip` leaves, between whitespace. -/
private theorem strip_spec (t : Text) : ∃ lead trail, t = lead ++ t.strip ++ trail ∧ (∀ c ∈ lead, isSpace c = true) ∧
    (∀ c ∈ trail, isSpace c = true) ∧ (t.strip = [] ∨ Trimmed t.strip) := by
  refine ⟨t.takeWhile isSpace, (t.dropWhile isSpace).rtakeWhile isSpace, ?_, ?_, ?_, ?_⟩
  · rw [List.append_assoc, Text.strip, List.rdropWhile_append_rtakeWhile, List.takeWhile_append_dropWhile]
  · exact fun c hc => List.mem_takeWhile_imp hc
  · exact fun c hc => List.mem_rtakeWhile_imp hc
  · by_cases hnil : t.strip = []
    · exact Or.inl hnil
    · refine Or.inr ⟨?_, ?_⟩
      · obtain ⟨c, u, hsplit⟩ := List.exists_cons_of_ne_nil hnil
        have hhead : t.strip.dropWhile isSpace = t.strip := by
          have hstrip := Text.strip_strip t
          have hsuffix := List.dropWhile_suffix (l := t.strip) isSpace
          refine hsuffix.eq_of_length (le_antisymm hsuffix.length_le ?_)
          have hinit := (List.rdropWhile_prefix isSpace (t.strip.dropWhile isSpace)).length_le
          rw [show (t.strip.dropWhile isSpace).rdropWhile isSpace = t.strip from hstrip] at hinit
          exact hinit
        refine ⟨c, u, hsplit, ?_⟩
        rw [hsplit] at hhead
        by_contra hspace
        rw [List.dropWhile_cons_of_pos (by simpa using hspace)] at hhead
        have hlength := congrArg List.length hhead
        have hle := (List.dropWhile_suffix (l := u) isSpace).length_le
        rw [List.length_cons] at hlength
        omega
      · have hlast := List.rdropWhile_last_not isSpace (t.dropWhile isSpace) hnil
        rw [Bool.not_eq_true] at hlast
        exact ⟨_, _, (List.dropLast_append_getLast hnil).symm, hlast⟩

theorem withoutWhitespace_strip (t : Text) : withoutWhitespace t.strip = withoutWhitespace t := by
  obtain ⟨lead, trail, hsplit, hlead, htrail, -⟩ := strip_spec t
  conv_rhs => rw [hsplit]
  rw [withoutWhitespace_append, withoutWhitespace_append, withoutWhitespace_spaces hlead,
    withoutWhitespace_spaces htrail, List.nil_append, List.append_nil]

/-- Stripping a text with a character leaves a trimmed text. -/
theorem trimmed_strip {t : Text} (h : withoutWhitespace t ≠ []) : Trimmed t.strip := by
  obtain ⟨-, -, -, -, -, hnil | htrimmed⟩ := strip_spec t
  · rw [← withoutWhitespace_strip, hnil] at h
    exact absurd rfl h
  · exact htrimmed

/-- A text without whitespace is trimmed. -/
theorem trimmed_of_visible {t : Text} (h : ∀ c ∈ t, isSpace c = false) (hne : t ≠ []) : Trimmed t := by
  obtain ⟨c, u, rfl⟩ := List.exists_cons_of_ne_nil hne
  refine ⟨⟨c, u, rfl, h c (by simp)⟩, _, _, (List.dropLast_append_getLast hne).symm, ?_⟩
  exact h _ (List.getLast_mem hne)

private theorem gaps_strip (t : Text) : gaps t.strip = gaps t := by
  obtain ⟨lead, trail, hsplit, hlead, htrail, htrimmed⟩ := strip_spec t
  conv_rhs => rw [hsplit, List.append_assoc, gaps_append_spaces hlead]
  rcases htrimmed with hnil | htrimmed
  · rw [hnil, List.nil_append, gaps_spaces htrail]
    rfl
  · rw [gaps_append htrimmed, gapsAfter_spaces htrail, List.append_nil]

/-! ### Runs of blanks -/

/-- Whether a run of blanks continues after a text. -/
private def runAfter (inRun : Bool) : Text → Bool
  | [] => inRun
  | c :: t => runAfter (isBlank c) t

private theorem collapseFrom_append (inRun : Bool) (t u : Text) :
    collapseFrom inRun (t ++ u) = collapseFrom inRun t ++ collapseFrom (runAfter inRun t) u := by
  induction t generalizing inRun with
  | nil => rfl
  | cons c t ih =>
    rw [List.cons_append, collapseFrom, collapseFrom, runAfter]
    cases isBlank c with
    | true => cases inRun <;> simp [ih]
    | false => simp [ih]

private theorem runAfter_append (inRun : Bool) (t u : Text) :
    runAfter inRun (t ++ u) = runAfter (runAfter inRun t) u := by
  induction t generalizing inRun with
  | nil => rfl
  | cons c t ih => exact ih (isBlank c)

private theorem isSpace_collapseFrom {w : Text} (h : ∀ c ∈ w, isSpace c = true) (inRun : Bool) :
    ∀ c ∈ collapseFrom inRun w, isSpace c = true := by
  induction w generalizing inRun with
  | nil => simp [collapseFrom]
  | cons d w ih =>
    have ih := ih fun c hc => h c (by simp [hc])
    rw [collapseFrom]
    split
    · split
      · exact ih true
      · exact List.forall_mem_cons.2 ⟨by decide, ih true⟩
    · exact List.forall_mem_cons.2 ⟨h d (by simp), ih false⟩

private theorem withoutWhitespace_collapseFrom (inRun : Bool) (t : Text) :
    withoutWhitespace (collapseFrom inRun t) = withoutWhitespace t := by
  induction t generalizing inRun with
  | nil => rfl
  | cons c t ih =>
    rw [collapseFrom, withoutWhitespace_cons]
    split
    · rename_i hblank
      rw [if_pos (isSpace_of_isBlank hblank)]
      split
      · exact ih true
      · rw [withoutWhitespace_cons, if_pos (by decide)]
        exact ih true
    · rw [withoutWhitespace_cons, ih]

private theorem not_isBlank {c : Char} (h : isSpace c = false) : isBlank c = false := by
  by_contra hblank
  rw [isSpace_of_isBlank (by simpa using hblank)] at h
  cases h

private theorem gapsAfter_collapse (gap t : Text) :
    gapsAfter (collapseBlanks gap) (collapseFrom (runAfter false gap) t) = (gapsAfter gap t).map collapseBlanks := by
  induction t generalizing gap with
  | nil => rfl
  | cons c t ih =>
    cases hc : isSpace c with
    | false =>
      have hfirst : collapseFrom (runAfter false gap) (c :: t) = c :: collapseFrom false t := by
        rw [collapseFrom, if_neg (by simp [not_isBlank hc])]
      rw [hfirst, gapsAfter, gapsAfter, if_neg (by simp [hc]), if_neg (by simp [hc]), List.map_cons]
      exact congrArg _ (ih [])
    | true =>
      have hgap : gapsAfter gap (c :: t) = gapsAfter (gap ++ [c]) t := by rw [gapsAfter, if_pos hc]
      rw [hgap, ← ih, collapseBlanks, collapseBlanks, collapseFrom_append, runAfter_append]
      have hone : runAfter (runAfter false gap) [c] = isBlank c := rfl
      rw [hone, collapseFrom, collapseFrom, collapseFrom, collapseFrom]
      have hspace : isSpace ' ' = true := by decide
      cases isBlank c with
      | true => cases runAfter false gap <;> simp [gapsAfter, hspace]
      | false => simp [gapsAfter, hc]

/-- Collapsing the blanks of a text collapses its gaps. -/
private theorem gaps_collapseBlanks (t : Text) : gaps (collapseBlanks t) = (gaps t).map collapseBlanks := by
  rcases spaces_or_split t with hall | ⟨lead, c, u, rfl, hlead, hc⟩
  · rw [gaps_spaces hall, collapseBlanks, gaps_spaces (isSpace_collapseFrom hall false)]
    rfl
  · have hfirst : collapseFrom (runAfter false lead) (c :: u) = c :: collapseFrom false u := by
      rw [collapseFrom, if_neg (by simp [not_isBlank hc])]
    rw [collapseBlanks, collapseFrom_append, hfirst, gaps_append_spaces (isSpace_collapseFrom hlead false),
      gaps_append_spaces hlead, gaps_cons hc, gaps_cons hc]
    exact gapsAfter_collapse [] u

private theorem mem_collapseFrom {c : Char} (hc : isBlank c = false) {t : Text} (hmem : c ∈ t) (inRun : Bool) :
    c ∈ collapseFrom inRun t := by
  induction t generalizing inRun with
  | nil => cases hmem
  | cons d t ih =>
    rw [collapseFrom]
    rcases List.mem_cons.1 hmem with rfl | hmem
    · rw [if_neg (by simp [hc])]
      exact List.mem_cons_self
    · have ih := ih hmem
      split
      · split
        · exact ih true
        · exact List.mem_cons_of_mem _ (ih true)
      · exact List.mem_cons_of_mem _ (ih false)

/-- Collapsing adds only spaces. -/
private theorem of_mem_collapseFrom {c : Char} {inRun : Bool} {t : Text} (h : c ∈ collapseFrom inRun t) :
    c = ' ' ∨ c ∈ t := by
  induction t generalizing inRun with
  | nil => cases h
  | cons d t ih =>
    rw [collapseFrom] at h
    split at h
    · split at h
      · exact (ih h).imp_right (List.mem_cons_of_mem d)
      · rcases List.mem_cons.1 h with rfl | h
        · exact Or.inl rfl
        · exact (ih h).imp_right (List.mem_cons_of_mem d)
    · rcases List.mem_cons.1 h with rfl | h
      · exact Or.inr List.mem_cons_self
      · exact (ih h).imp_right (List.mem_cons_of_mem d)

private theorem collapseFrom_blanks {t : Text} (h : ∀ c ∈ t, isBlank c = true) : collapseFrom true t = [] := by
  induction t with
  | nil => rfl
  | cons c t ih =>
    rw [collapseFrom, if_pos (h c (by simp)), if_pos rfl]
    exact ih fun d hd => h d (by simp [hd])

/-- Whitespace inside a line becomes the whitespace of a boundary exactly when it is blank. -/
private theorem regularGap_collapseBlanks {gap : Text} (hline : ∀ c ∈ gap, isLineBreak c = false) :
    RegularGap (collapseBlanks gap) ↔ ∀ c ∈ gap, isBlank c = true := by
  constructor
  · intro hregular c hc
    by_contra hblank
    rw [Bool.not_eq_true] at hblank
    have hmem : c ∈ collapseBlanks gap := mem_collapseFrom hblank hc false
    rcases hregular with h | h | h <;> rw [h] at hmem
    · cases hmem
    · cases List.mem_singleton.1 hmem
      exact absurd hblank (by decide)
    · cases List.mem_singleton.1 hmem
      exact absurd (hline _ hc) (by decide)
  · intro hblank
    cases gap with
    | nil => exact Or.inl rfl
    | cons c gap =>
      refine Or.inr (Or.inl ?_)
      rw [collapseBlanks, collapseFrom, if_pos (hblank c (by simp)), if_neg (by simp),
        collapseFrom_blanks fun d hd => hblank d (by simp [hd])]

/-! ### Lines -/

private theorem intercalate_cons_cons {c : Char} (a b : Text) (l : List Text) :
    List.intercalate [c] (a :: b :: l) = a ++ c :: List.intercalate [c] (b :: l) := by
  simp [List.intercalate, List.intersperse]

theorem withoutWhitespace_intercalate {c : Char} (hc : isSpace c = true) (l : List Text) :
    withoutWhitespace (List.intercalate [c] l) = l.flatMap withoutWhitespace := by
  induction l with
  | nil => rfl
  | cons a l ih =>
    cases l with
    | nil => simp [List.intercalate]
    | cons b l =>
      rw [intercalate_cons_cons, withoutWhitespace_append, withoutWhitespace_cons, if_pos hc, ih]
      rfl

/-- Trimmed lines that are joined make a trimmed text. -/
theorem trimmed_intercalate {l : List Text} (h : ∀ t ∈ l, Trimmed t) (hne : l ≠ []) :
    Trimmed (List.intercalate ['\n'] l) := by
  induction l with
  | nil => exact absurd rfl hne
  | cons a l ih =>
    have ha := h a (by simp)
    cases l with
    | nil => simpa [List.intercalate] using ha
    | cons b l =>
      rw [intercalate_cons_cons]
      obtain ⟨⟨c, u, rfl, hc⟩, -⟩ := ha
      obtain ⟨-, v, d, hlast, hd⟩ := ih (fun t ht => h t (by simp [ht])) (by simp)
      rw [hlast]
      exact ⟨⟨c, _, rfl, hc⟩, c :: u ++ '\n' :: v, d, by simp, hd⟩

/-- The gaps of joined lines are those of the lines, with line feeds between them. -/
theorem gaps_intercalate {a b : Text} {l : List Text} (h : ∀ t ∈ a :: b :: l, Trimmed t) :
    gaps (List.intercalate ['\n'] (a :: b :: l)) = gaps a ++ ['\n'] :: gaps (List.intercalate ['\n'] (b :: l)) := by
  obtain ⟨⟨d, u, hsplit, hd⟩, -⟩ := trimmed_intercalate (l := b :: l) (fun t ht => h t (by simp [ht])) (by simp)
  rw [intercalate_cons_cons, gaps_append (h a (by simp)), hsplit, gaps_cons hd, gapsAfter, if_pos (by decide), gapsAfter,
    if_neg (by simp [hd])]
  rfl

/-- The whitespace of joined lines is regular when that of every line is. -/
theorem regular_intercalate {l : List Text} (h : ∀ t ∈ l, Trimmed t) :
    (∀ g ∈ gaps (List.intercalate ['\n'] l), RegularGap g) ↔ ∀ t ∈ l, ∀ g ∈ gaps t, RegularGap g := by
  induction l with
  | nil => simp [gaps]
  | cons a l ih =>
    cases l with
    | nil => simp [List.intercalate]
    | cons b l =>
      have ih := ih fun t ht => h t (by simp [ht])
      have hbreak : RegularGap ['\n'] := Or.inr (Or.inr rfl)
      rw [gaps_intercalate h, List.forall_mem_append, List.forall_mem_cons, ih, List.forall_mem_cons (a := a)]
      exact and_congr_right fun _ => and_iff_right hbreak

/-! ### Canonical text -/

/-- A line in canonical form. -/
private def cleanLine (line : Text) : Text := (collapseBlanks line).strip

private theorem canonicalizeWhitespace_eq (t : Text) :
    canonicalizeWhitespace t = List.intercalate ['\n'] ((t.splitLines.map cleanLine).filter (· ≠ [])) := rfl

private theorem trimmed_cleanLines {t line : Text} (h : line ∈ (t.splitLines.map cleanLine).filter (· ≠ [])) :
    Trimmed line := by
  obtain ⟨hmem, hne⟩ := List.mem_filter.1 h
  obtain ⟨x, -, rfl⟩ := List.mem_map.1 hmem
  obtain ⟨-, -, -, -, -, hnil | htrimmed⟩ := strip_spec (collapseBlanks x)
  · exact absurd hnil (of_decide_eq_true hne)
  · exact htrimmed

private theorem isLineBreak_cleanLine {line : Text} (h : ∀ c ∈ line, isLineBreak c = false) :
    ∀ c ∈ cleanLine line, isLineBreak c = false := by
  intro c hc
  obtain ⟨lead, trail, hsplit, -⟩ := strip_spec (collapseBlanks line)
  have hmem : c ∈ collapseBlanks line := by
    rw [hsplit]
    exact List.mem_append_left _ (List.mem_append_right _ hc)
  rcases of_mem_collapseFrom hmem with rfl | hmem
  · decide
  · exact h c hmem

private theorem withoutWhitespace_cleanLine (line : Text) : withoutWhitespace (cleanLine line) = withoutWhitespace line := by
  rw [cleanLine, withoutWhitespace_strip, collapseBlanks, withoutWhitespace_collapseFrom]

/-- The canonical form keeps the characters. -/
theorem withoutWhitespace_canonicalizeWhitespace (t : Text) :
    withoutWhitespace (canonicalizeWhitespace t) = withoutWhitespace t := by
  have hfilter : ∀ l : List Text, (l.filter (· ≠ [])).flatMap withoutWhitespace = l.flatMap withoutWhitespace := by
    intro l
    induction l with
    | nil => rfl
    | cons a l ih =>
      rw [List.flatMap_cons, ← ih]
      by_cases ha : a = []
      · subst ha
        rfl
      · rw [List.filter_cons_of_pos (by simpa using ha), List.flatMap_cons]
  have hlines := Text.withoutWhitespace_splitLinesFrom [] t
  rw [canonicalizeWhitespace_eq, withoutWhitespace_intercalate (by decide), hfilter, List.flatMap_map]
  simp only [withoutWhitespace_cleanLine]
  exact hlines

/-- The canonical form is trimmed. -/
theorem canonicalizeWhitespace_trimmed (t : Text) :
    canonicalizeWhitespace t = [] ∨ Trimmed (canonicalizeWhitespace t) := by
  rw [canonicalizeWhitespace_eq]
  by_cases hnil : (t.splitLines.map cleanLine).filter (· ≠ []) = []
  · rw [hnil]
    exact Or.inl rfl
  · exact Or.inr (trimmed_intercalate (fun _ => trimmed_cleanLines) hnil)

/-- Stripping leaves a trimmed text. -/
theorem Trimmed.strip {t : Text} (h : Trimmed t) : t.strip = t := by
  obtain ⟨⟨c, u, hhead, hc⟩, v, d, hlast, hd⟩ := h
  have hdrop : t.dropWhile isSpace = t := by rw [hhead, List.dropWhile_cons_of_neg (by simp [hc])]
  rw [Text.strip, hdrop, hlast, List.rdropWhile_concat_neg _ _ _ (by simp [hd])]

@[simp] theorem strip_canonicalizeWhitespace (t : Text) :
    (canonicalizeWhitespace t).strip = canonicalizeWhitespace t := by
  rcases canonicalizeWhitespace_trimmed t with hnil | htrimmed
  · rw [hnil]
    rfl
  · exact htrimmed.strip

/-- The gaps of the canonical form are regular exactly when the whitespace inside the lines is blank. -/
theorem regular_canonicalizeWhitespace (t : Text) :
    (∀ g ∈ gaps (canonicalizeWhitespace t), RegularGap g) ↔ PlainLines t := by
  have hclean : ∀ line ∈ t.splitLines,
      (∀ g ∈ gaps (cleanLine line), RegularGap g) ↔ ∀ g ∈ gaps line, ∀ c ∈ g, isBlank c = true := by
    intro line hline
    rw [cleanLine, gaps_strip, gaps_collapseBlanks, List.forall_mem_map]
    refine forall₂_congr fun g hg => regularGap_collapseBlanks fun c hc => ?_
    exact (of_mem_splitLines hline c (mem_of_mem_gaps hg c hc).1).2
  rw [canonicalizeWhitespace_eq, regular_intercalate fun _ => trimmed_cleanLines, PlainLines]
  simp only [List.mem_filter, and_imp, List.forall_mem_map, decide_eq_true_eq]
  refine forall₂_congr fun line hline => ?_
  rw [← hclean line hline]
  constructor
  · intro h g hg
    refine h ?_ g hg
    intro hnil
    rw [hnil] at hg
    cases hg
  · exact fun h _ => h

/-- Lines that are joined are split again. -/
private theorem splitLines_intercalate {l : List Text} (h : ∀ t ∈ l, t ≠ [] ∧ ∀ c ∈ t, isLineBreak c = false) :
    Text.splitLines (List.intercalate ['\n'] l) = l := by
  induction l with
  | nil => rfl
  | cons a l ih =>
    obtain ⟨hne, hbreak⟩ := h a (by simp)
    cases l with
    | nil =>
      have happend := Text.splitLinesFrom_append hbreak [] []
      rw [List.append_nil, List.nil_append] at happend
      rw [show List.intercalate ['\n'] [a] = a by simp [List.intercalate], Text.splitLines, happend,
        Text.splitLinesFrom, if_neg hne]
    | cons b l =>
      have ih := ih fun t ht => h t (by simp [ht])
      rw [intercalate_cons_cons, Text.splitLines, Text.splitLinesFrom_append hbreak, List.nil_append, Text.splitLinesFrom,
        if_pos (by decide), ← Text.splitLines, ih]
      rintro u hcontra -
      exact absurd hcontra (by decide)

/-- Writing a text in canonical form does not change whether the whitespace inside its lines is blank. -/
theorem plainLines_canonicalizeWhitespace {t : Text} : PlainLines (canonicalizeWhitespace t) ↔ PlainLines t := by
  have hlines : (canonicalizeWhitespace t).splitLines = (t.splitLines.map cleanLine).filter (· ≠ []) := by
    rw [canonicalizeWhitespace_eq]
    refine splitLines_intercalate fun line hline => ?_
    refine ⟨of_decide_eq_true (List.mem_filter.1 hline).2, fun c hc => ?_⟩
    obtain ⟨x, hx, rfl⟩ := List.mem_map.1 (List.mem_filter.1 hline).1
    exact isLineBreak_cleanLine (fun d hd => (of_mem_splitLines hx d hd).2) c hc
  have hregular : PlainLines t ↔
      ∀ line ∈ (t.splitLines.map cleanLine).filter (· ≠ []), ∀ g ∈ gaps line, RegularGap g := by
    rw [← regular_canonicalizeWhitespace, canonicalizeWhitespace_eq, regular_intercalate fun _ => trimmed_cleanLines]
  rw [hregular, PlainLines, hlines]
  refine forall₂_congr fun line hline => forall₂_congr fun g hg => ?_
  obtain ⟨x, hx, rfl⟩ := List.mem_map.1 (List.mem_filter.1 hline).1
  rw [cleanLine, gaps_strip, gaps_collapseBlanks] at hg
  obtain ⟨gap, hgap, rfl⟩ := List.mem_map.1 hg
  rw [regularGap_collapseBlanks fun c hc => (of_mem_splitLines hx c (mem_of_mem_gaps hgap c hc).1).2]
  constructor
  · intro hblank c hc
    by_contra hnot
    rw [Bool.not_eq_true] at hnot
    exact absurd (hblank c (mem_collapseFrom hnot hc false)) (by simp [hnot])
  · intro hblank c hc
    rcases of_mem_collapseFrom hc with rfl | hmem
    · rfl
    · exact hblank c hmem

/-- A text whose only whitespace is spaces and line feeds has blank whitespace in its lines. -/
theorem plainLines_of_spaces {t : Text} (h : ∀ c ∈ t, isSpace c = true → c = ' ' ∨ c = '\n') : PlainLines t := by
  intro line hline g hg c hc
  obtain ⟨hmem, hspace⟩ := mem_of_mem_gaps hg c hc
  obtain ⟨hmem, hbreak⟩ := of_mem_splitLines hline c hmem
  rcases h c hmem hspace with rfl | rfl
  · rfl
  · cases hbreak

/-! ### Rendering -/

private theorem append_visible_inj {p q a b : Text} {x : Char} (hp : ∀ c ∈ p, isSpace c = true)
    (hq : ∀ c ∈ q, isSpace c = true) (hx : isSpace x = false) (h : p ++ x :: a = q ++ x :: b) : p = q ∧ a = b := by
  induction p generalizing q with
  | nil =>
    cases q with
    | nil => exact ⟨rfl, (List.cons.inj h).2⟩
    | cons d q =>
      have hd := hq d (by simp)
      rw [← (List.cons.inj h).1, hx] at hd
      cases hd
  | cons c p ih =>
    cases q with
    | nil =>
      have hc := hp c (by simp)
      rw [(List.cons.inj h).1, hx] at hc
      cases hc
    | cons d q =>
      obtain ⟨rfl, hrest⟩ := List.cons.inj h
      obtain ⟨rfl, rfl⟩ := ih (fun d hd => hp d (by simp [hd])) (fun d hd => hq d (by simp [hd])) hrest
      exact ⟨rfl, rfl⟩

/-- A boundary renders the whitespace it was read from when this is regular. -/
private theorem separator_ofGap (gap : Text) : (BoundaryState.ofGap gap).separator = gap ↔ RegularGap gap := by
  unfold BoundaryState.ofGap RegularGap
  constructor
  · split
    · exact fun h => Or.inr (Or.inr h.symm)
    · split
      · exact fun h => Or.inr (Or.inl h.symm)
      · exact fun h => Or.inl h.symm
  · rintro (rfl | rfl | rfl) <;> decide

private theorem isSpace_separator (state : BoundaryState) : ∀ c ∈ state.separator, isSpace c = true := by
  cases state with
  | none => exact fun c hc => nomatch hc
  | space => exact List.forall_mem_singleton.2 (by decide)
  | hardBreak => exact List.forall_mem_singleton.2 (by decide)

private theorem renderBoundaries_cons (c : Char) (t : Text) (bs : List SpacingBoundary) :
    ∃ r, renderBoundaries (c :: t) bs = c :: r := by
  cases bs with
  | nil => exact ⟨_, rfl⟩
  | cons b bs => exact ⟨_, rfl⟩

/-- The induction of `renderBoundaries_iff`: `x` was rendered last and `gap` was read since. -/
private theorem renderBoundaries_after {gap u : Text} (hgap : ∀ c ∈ gap, isSpace c = true)
    (hu : u = [] ∧ gap = [] ∨ ∃ v d, u = v ++ [d] ∧ isSpace d = false) (x : Char) {bs : List SpacingBoundary}
    (hbs : bs.map (·.state) = (gapsAfter gap u).map .ofGap) :
    renderBoundaries (x :: withoutWhitespace u) bs = x :: (gap ++ u) ↔ ∀ g ∈ gapsAfter gap u, RegularGap g := by
  induction u generalizing gap x bs with
  | nil =>
    obtain ⟨-, rfl⟩ | ⟨v, d, hnil, -⟩ := hu
    · rw [gapsAfter, List.map_nil, List.map_eq_nil_iff] at hbs
      subst hbs
      exact iff_of_true rfl (by simp [gapsAfter])
    · simp at hnil
  | cons c u ih =>
    obtain ⟨hnil, -⟩ | ⟨v, d, hlast, hd⟩ := hu
    · cases hnil
    have hu : u = [] ∧ c = d ∨ ∃ v, u = v ++ [d] := by
      cases v with
      | nil => exact Or.inl ⟨(List.cons.inj hlast).2, (List.cons.inj hlast).1⟩
      | cons e v => exact Or.inr ⟨v, (List.cons.inj hlast).2⟩
    cases hc : isSpace c with
    | true =>
      obtain ⟨-, rfl⟩ | ⟨v, hv⟩ := hu
      · rw [hc] at hd
        cases hd
      · have hstep : gapsAfter gap (c :: u) = gapsAfter (gap ++ [c]) u := by rw [gapsAfter, if_pos hc]
        rw [hstep] at hbs ⊢
        rw [withoutWhitespace_cons, if_pos hc, ← ih _ (Or.inr ⟨v, d, hv, hd⟩) x hbs, List.append_assoc]
        · rfl
        · exact List.forall_mem_append.2 ⟨hgap, List.forall_mem_singleton.2 hc⟩
    | false =>
      have hstep : gapsAfter gap (c :: u) = gap :: gapsAfter [] u := by rw [gapsAfter, if_neg (by simp [hc])]
      rw [hstep] at hbs ⊢
      cases bs with
      | nil => cases hbs
      | cons b bs =>
        obtain ⟨hstate, hrest⟩ := List.cons.inj hbs
        obtain ⟨r, hr⟩ := renderBoundaries_cons c (withoutWhitespace u) bs
        have hu : u = [] ∧ ([] : Text) = [] ∨ ∃ v d, u = v ++ [d] ∧ isSpace d = false := by
          obtain ⟨hnil, -⟩ | ⟨v, hv⟩ := hu
          · exact Or.inl ⟨hnil, rfl⟩
          · exact Or.inr ⟨v, d, hv, hd⟩
        have ih := ih (by simp) hu c hrest
        rw [hr, List.nil_append, List.cons_inj_right] at ih
        rw [withoutWhitespace_cons, if_neg (by simp [hc]), renderBoundaries, hr, List.cons_inj_right,
          List.forall_mem_cons, ← ih, ← separator_ofGap, ← hstate]
        constructor
        · intro h
          exact append_visible_inj (isSpace_separator _) hgap hc h
        · rintro ⟨hseparator, rfl⟩
          rw [hseparator]

/-- The boundaries of a trimmed text render it exactly when its gaps are regular. -/
theorem renderBoundaries_iff {t : Text} (ht : Trimmed t) {bs : List SpacingBoundary}
    (hbs : bs.map (·.state) = (gaps t).map .ofGap) :
    renderBoundaries (withoutWhitespace t) bs = t ↔ ∀ g ∈ gaps t, RegularGap g := by
  obtain ⟨⟨c, u, rfl, hc⟩, v, d, hlast, hd⟩ := ht
  rw [gaps_cons hc] at hbs ⊢
  rw [withoutWhitespace_cons, if_neg (by simp [hc])]
  refine renderBoundaries_after (by simp) ?_ c hbs
  cases v with
  | nil => exact Or.inl ⟨(List.cons.inj hlast).2, rfl⟩
  | cons e v => exact Or.inr ⟨v, d, (List.cons.inj hlast).2, hd⟩

private theorem mem_renderBoundaries {x : Char} {t : Text} {bs : List SpacingBoundary}
    (h : x ∈ renderBoundaries t bs) : x ∈ t ∨ ∃ state : BoundaryState, x ∈ state.separator := by
  induction t generalizing bs with
  | nil => cases h
  | cons c t ih =>
    cases bs with
    | nil =>
      rw [renderBoundaries] at h
      rcases List.mem_cons.1 h with rfl | h
      · exact Or.inl List.mem_cons_self
      · exact (ih h).imp_left (List.mem_cons_of_mem c)
    | cons b bs =>
      rw [renderBoundaries, List.mem_cons, List.mem_append] at h
      rcases h with rfl | h | h
      · exact Or.inl List.mem_cons_self
      · exact Or.inr ⟨_, h⟩
      · exact (ih h).imp_left (List.mem_cons_of_mem c)

/-- The whitespace of a trimmed text with regular gaps is spaces and line feeds. -/
theorem Trimmed.mem_of_regular {t : Text} (ht : Trimmed t) (h : ∀ g ∈ gaps t, RegularGap g) :
    ∀ c ∈ t, isSpace c = true → c = ' ' ∨ c = '\n' := by
  intro c hc hspace
  let bs : List SpacingBoundary := (gaps t).map fun gap => ⟨⟨0⟩, ⟨0⟩, .ofGap gap, []⟩
  have hbs : bs.map (·.state) = (gaps t).map .ofGap := by simp [bs]
  rw [← (renderBoundaries_iff ht hbs).2 h] at hc
  rcases mem_renderBoundaries hc with hmem | ⟨state, hmem⟩
  · have hvisible := (List.mem_filter.1 hmem).2
    rw [hspace] at hvisible
    cases hvisible
  · cases state with
    | none => cases hmem
    | space => exact Or.inl (List.mem_singleton.1 hmem)
    | hardBreak => exact Or.inr (List.mem_singleton.1 hmem)

end ArdOssie
