import ArdOssie.Semantic.MarkdownRender

/-!
# HTML in rendered Markdown

What the search for HTML finds in an escaped layout.  The angle brackets stay in the text behind their backslashes, so
the start of a tag is found where the plain layout has a bracket, a name and a space before the next bracket closes.
-/

namespace ArdOssie

/-! ### Escaped layouts -/

/-- The characters that an escaped layout has behind a backslash only. -/
def isMarked (c : Char) : Bool := c ∈ "<>/!?&".toList

/-- The second text is the first with some characters behind a backslash; no character before the texts is alphanumeric
when `fresh`. -/
inductive Spelled : Bool → Text → Text → Prop
  | nil {fresh : Bool} : Spelled fresh [] []
  | plain {fresh : Bool} {c : Char} {p r : Text} (hmarked : isMarked c = false) (hdash : c = '-' → fresh = true)
      (h : Spelled (!isAsciiAlnum c) p r) : Spelled fresh (c :: p) (c :: r)
  | escaped {fresh : Bool} {c : Char} {p r : Text} (halnum : isAsciiAlnum c = false) (hspace : Text.isSpace c = false)
      (h : Spelled true p r) : Spelled fresh (c :: p) ('\\' :: c :: r)

namespace Spelled

variable {fresh : Bool} {p p' r r' : Text}

theorem weaken (h : Spelled false p r) : Spelled fresh p r := by
  cases h with
  | nil => exact nil
  | plain hmarked hdash h => exact plain hmarked (fun hc => absurd (hdash hc) (by decide)) h
  | escaped halnum hspace h => exact escaped halnum hspace h

theorem append (h : Spelled fresh p r) (h' : Spelled false p' r') : Spelled fresh (p ++ p') (r ++ r') := by
  induction h with
  | nil => exact h'.weaken
  | plain hmarked hdash _ ih => exact plain hmarked hdash ih
  | escaped halnum hspace _ ih => exact escaped halnum hspace ih

theorem eq_nil_iff (h : Spelled fresh p r) : p = [] ↔ r = [] := by
  cases h <;> simp

/-- The characters between the texts of a layout. -/
def isSeparator (c : Char) : Bool := c ∈ " |\n\\#".toList

private theorem separator_spec {c : Char} (h : isSeparator c = true) :
    isMarked c = false ∧ c ≠ '-' ∧ isAsciiAlnum c = false := by
  have hall : (" |\n\\#".toList.all fun c => !isMarked c && c != '-' && !isAsciiAlnum c) = true := by decide
  have hc := List.all_eq_true.1 hall c (of_decide_eq_true h)
  simpa [and_assoc] using hc

/-- A text after separators. -/
theorem separate {w : Text} (hne : w ≠ []) (hw : w.all isSeparator = true) (h : Spelled true p r) :
    Spelled fresh (w ++ p) (w ++ r) := by
  induction w generalizing fresh with
  | nil => exact absurd rfl hne
  | cons c w ih =>
    rw [List.all_cons, Bool.and_eq_true] at hw
    obtain ⟨hmarked, hdash, halnum⟩ := separator_spec hw.1
    refine plain hmarked (fun hc => absurd hc hdash) ?_
    rw [halnum]
    by_cases hnil : w = []
    · rw [hnil]
      exact h
    · exact ih hnil hw.2

theorem intercalate {w : Text} (hne : w ≠ []) (hw : w.all isSeparator = true) {ps rs : List Text}
    (h : List.Forall₂ (Spelled true) ps rs) : Spelled true (w.intercalate ps) (w.intercalate rs) := by
  induction h with
  | nil => exact nil
  | @cons p r ps rs hpr hrest ih =>
    cases hrest with
    | nil =>
      rw [List.intercalate_singleton, List.intercalate_singleton]
      exact hpr
    | cons hpr' hrest =>
      rw [List.intercalate_cons_cons, List.intercalate_cons_cons, List.append_assoc, List.append_assoc]
      exact hpr.append (separate hne hw ih)

theorem rstrip (h : Spelled fresh p r) : Spelled fresh (rstripNewlines p) (rstripNewlines r) := by
  induction h with
  | nil => exact nil
  | @plain fresh c p r hmarked hdash h ih =>
    rw [rstripNewlines, rstripNewlines]
    by_cases hc : c = '\n' ∧ rstripNewlines p = []
    · rw [if_pos hc, if_pos ⟨hc.1, ih.eq_nil_iff.1 hc.2⟩]
      exact nil
    · rw [if_neg hc, if_neg fun hc' => hc ⟨hc'.1, ih.eq_nil_iff.2 hc'.2⟩]
      exact plain hmarked hdash ih
  | @escaped fresh c p r halnum hspace h ih =>
    have hc : c ≠ '\n' := by
      rintro rfl
      exact absurd hspace (by decide)
    have hslash : '\\' ≠ '\n' := by decide
    rw [rstripNewlines, rstripNewlines, rstripNewlines, if_neg fun h => hc h.1, if_neg fun h => hslash h.1,
      if_neg fun h => hc h.1]
    exact escaped halnum hspace ih

private theorem isEscaped_spec {c : Char} (h : isEscaped c = true) :
    isAsciiAlnum c = false ∧ Text.isSpace c = false := by
  have hall : (('\\' :: escapablePunctuation).all fun c => !isAsciiAlnum c && !Text.isSpace c) = true := by decide
  have hc := List.all_eq_true.1 hall c (of_decide_eq_true h)
  simpa using hc

private theorem isEscaped_of_marked {c : Char} (h : isMarked c = true ∨ c = '-') : isEscaped c = true := by
  have hall : ("<>/!?&".toList.all isEscaped) = true := by decide
  rcases h with h | rfl
  · exact List.all_eq_true.1 hall c (of_decide_eq_true h)
  · decide

/-- An escaped text. -/
theorem escapeMarkdown (t : Text) : Spelled false t (ArdOssie.escapeMarkdown t) := by
  rw [escapeMarkdown_eq]
  induction t with
  | nil => exact nil
  | cons c t ih =>
    rw [List.flatMap_cons, escapeCharacter]
    by_cases hc : isEscaped c = true
    · rw [if_pos hc]
      exact escaped (isEscaped_spec hc).1 (isEscaped_spec hc).2 ih.weaken
    · rw [if_neg hc]
      refine plain ?_ (fun hdash => absurd (isEscaped_of_marked (Or.inr hdash)) hc) ih.weaken
      exact Bool.eq_false_iff.2 fun hmarked => hc (isEscaped_of_marked (Or.inl hmarked))

/-! ### Brackets of an escaped layout -/

/-- A marked character is behind a backslash. -/
theorem getLast?_of_marked {c : Char} (hc : isMarked c = true) {before after : Text}
    (h : Spelled fresh p (before ++ c :: after)) : before.getLast? = some '\\' := by
  generalize hr : before ++ c :: after = r at h
  induction h generalizing before with
  | nil => simp at hr
  | @plain fresh d p r hmarked hdash h ih =>
    cases before with
    | nil =>
      obtain ⟨rfl, -⟩ := List.cons.inj hr
      rw [hc] at hmarked
      cases hmarked
    | cons x before =>
      have hlast := ih (List.cons.inj hr).2
      cases before with
      | nil => cases hlast
      | cons y before => rw [List.getLast?_cons_cons, hlast]
  | @escaped fresh d p r halnum hspace h ih =>
    cases before with
    | nil =>
      obtain ⟨rfl, -⟩ := List.cons.inj hr
      exact absurd hc (by decide)
    | cons x before =>
      obtain ⟨rfl, hr₁⟩ := List.cons.inj hr
      cases before with
      | nil => rfl
      | cons y before =>
        have hlast := ih (List.cons.inj hr₁).2
        cases before with
        | nil => cases hlast
        | cons z before => rw [List.getLast?_cons_cons, List.getLast?_cons_cons, hlast]

/-- An escaped layout does not start with a marked character. -/
theorem not_marked_cons {c : Char} (hc : isMarked c = true) {after : Text} : ¬ Spelled fresh p (c :: after) := by
  intro h
  have hlast := getLast?_of_marked hc (List.nil_append (c :: after) ▸ h)
  cases hlast

/-- An opening bracket of the escaped layout is one of the plain layout. -/
theorem open_of_spelled {before after : Text} (h : Spelled fresh p (before ++ '<' :: after)) :
    ∃ before' after', p = before' ++ '<' :: after' ∧ Spelled true after' after := by
  generalize hr : before ++ '<' :: after = r at h
  induction h generalizing before with
  | nil => simp at hr
  | @plain fresh d p r hmarked hdash h ih =>
    cases before with
    | nil =>
      obtain ⟨rfl, -⟩ := List.cons.inj hr
      exact absurd hmarked (by decide)
    | cons x before =>
      obtain ⟨before', after', rfl, hafter⟩ := ih (List.cons.inj hr).2
      exact ⟨d :: before', after', rfl, hafter⟩
  | @escaped fresh d p r halnum hspace h ih =>
    cases before with
    | nil => exact absurd (List.cons.inj hr).1 (by decide)
    | cons x before =>
      obtain ⟨rfl, hr₁⟩ := List.cons.inj hr
      cases before with
      | nil =>
        obtain ⟨rfl, rfl⟩ := List.cons.inj hr₁
        exact ⟨[], p, rfl, h⟩
      | cons y before =>
        obtain ⟨before', after', rfl, hafter⟩ := ih (List.cons.inj hr₁).2
        exact ⟨d :: before', after', rfl, hafter⟩

/-- An opening bracket of the plain layout is one of the escaped layout. -/
theorem spelled_of_open {before after : Text} (h : Spelled fresh (before ++ '<' :: after) r) :
    ∃ before' after', r = before' ++ '<' :: after' ∧ Spelled true after after' := by
  generalize hp : before ++ '<' :: after = p at h
  induction h generalizing before with
  | nil => simp at hp
  | @plain fresh d p r hmarked hdash h ih =>
    cases before with
    | nil =>
      obtain ⟨rfl, -⟩ := List.cons.inj hp
      exact absurd hmarked (by decide)
    | cons x before =>
      obtain ⟨before', after', rfl, hafter⟩ := ih (List.cons.inj hp).2
      exact ⟨d :: before', after', rfl, hafter⟩
  | @escaped fresh d p r halnum hspace h ih =>
    cases before with
    | nil =>
      obtain ⟨rfl, rfl⟩ := List.cons.inj hp
      exact ⟨['\\'], r, rfl, h⟩
    | cons x before =>
      obtain ⟨before', after', rfl, hafter⟩ := ih (List.cons.inj hp).2
      exact ⟨'\\' :: d :: before', after', rfl, hafter⟩

/-- A closing bracket without another bracket before it, read in the escaped layout. -/
theorem close_of_spelled {before after : Text} (hbefore : ∀ c ∈ before, isNoAngle c = true)
    (h : Spelled fresh p (before ++ '>' :: after)) :
    ∃ before' after', p = before' ++ '>' :: after' ∧ ∀ c ∈ before', isNoAngle c = true := by
  generalize hr : before ++ '>' :: after = r at h
  induction h generalizing before with
  | nil => simp at hr
  | @plain fresh d p r hmarked hdash h ih =>
    cases before with
    | nil =>
      obtain ⟨rfl, -⟩ := List.cons.inj hr
      exact absurd hmarked (by decide)
    | cons x before =>
      rw [List.forall_mem_cons] at hbefore
      obtain ⟨rfl, hr₁⟩ := List.cons.inj hr
      obtain ⟨before', after', rfl, hbefore'⟩ := ih hbefore.2 hr₁
      exact ⟨x :: before', after', rfl, List.forall_mem_cons.2 ⟨hbefore.1, hbefore'⟩⟩
  | @escaped fresh d p r halnum hspace h ih =>
    cases before with
    | nil => exact absurd (List.cons.inj hr).1 (by decide)
    | cons x before =>
      obtain ⟨rfl, hr₁⟩ := List.cons.inj hr
      cases before with
      | nil =>
        obtain ⟨rfl, rfl⟩ := List.cons.inj hr₁
        exact ⟨[], p, rfl, by simp⟩
      | cons y before =>
        rw [List.forall_mem_cons, List.forall_mem_cons] at hbefore
        obtain ⟨rfl, hr₂⟩ := List.cons.inj hr₁
        obtain ⟨before', after', rfl, hbefore'⟩ := ih hbefore.2.2 hr₂
        exact ⟨y :: before', after', rfl, List.forall_mem_cons.2 ⟨hbefore.2.1, hbefore'⟩⟩

/-- A closing bracket without another bracket before it, read in the plain layout. -/
theorem spelled_of_close {before after : Text} (hbefore : ∀ c ∈ before, isNoAngle c = true)
    (h : Spelled fresh (before ++ '>' :: after) r) :
    ∃ before' after', r = before' ++ '>' :: after' ∧ ∀ c ∈ before', isNoAngle c = true := by
  have hslash : isNoAngle '\\' = true := by decide
  generalize hp : before ++ '>' :: after = p at h
  induction h generalizing before with
  | nil => simp at hp
  | @plain fresh d p r hmarked hdash h ih =>
    cases before with
    | nil =>
      obtain ⟨rfl, -⟩ := List.cons.inj hp
      exact absurd hmarked (by decide)
    | cons x before =>
      rw [List.forall_mem_cons] at hbefore
      obtain ⟨rfl, hp₁⟩ := List.cons.inj hp
      obtain ⟨before', after', rfl, hbefore'⟩ := ih hbefore.2 hp₁
      exact ⟨x :: before', after', rfl, List.forall_mem_cons.2 ⟨hbefore.1, hbefore'⟩⟩
  | @escaped fresh d p r halnum hspace h ih =>
    cases before with
    | nil =>
      obtain ⟨rfl, rfl⟩ := List.cons.inj hp
      exact ⟨['\\'], r, rfl, by simpa using hslash⟩
    | cons x before =>
      rw [List.forall_mem_cons] at hbefore
      obtain ⟨rfl, hp₁⟩ := List.cons.inj hp
      obtain ⟨before', after', rfl, hbefore'⟩ := ih hbefore.2 hp₁
      exact ⟨'\\' :: x :: before', after', rfl,
        List.forall_mem_cons.2 ⟨hslash, List.forall_mem_cons.2 ⟨hbefore.1, hbefore'⟩⟩⟩

/-- An alphanumeric character is in both layouts. -/
theorem alnum_cons {c : Char} {t : Text} (hc : isAsciiAlnum c = true) (h : Spelled fresh p (c :: t)) :
    ∃ p', p = c :: p' ∧ Spelled false p' t := by
  cases h with
  | @plain _ _ p _ hmarked hdash h =>
    rw [hc] at h
    exact ⟨p, rfl, h⟩
  | escaped halnum hspace h => exact absurd hc (by decide)

theorem not_dash_cons {t : Text} : ¬ Spelled false p ('-' :: t) := by
  intro h
  cases h with
  | plain hmarked hdash h => exact absurd (hdash rfl) (by decide)

/-- A name and a space, read in the escaped layout. -/
theorem name_of_spelled {name after : Text} {s : Char} (hname : ∀ c ∈ name, isAsciiAlnum c = true ∨ c = '-')
    (hs : Text.isSpace s = true) (h : Spelled false p (name ++ s :: after)) :
    ∃ after' fresh', p = name ++ s :: after' ∧ (∀ c ∈ name, isAsciiAlnum c = true) ∧ Spelled fresh' after' after := by
  induction name generalizing p with
  | nil =>
    cases h with
    | plain hmarked hdash h => exact ⟨_, _, rfl, by simp, h⟩
    | escaped halnum hspace h => exact absurd hs (by decide)
  | cons c name ih =>
    rw [List.forall_mem_cons] at hname
    have halnum : isAsciiAlnum c = true := by
      refine hname.1.resolve_right ?_
      rintro rfl
      exact h.not_dash_cons
    obtain ⟨p', rfl, hrest⟩ := h.alnum_cons halnum
    obtain ⟨after', fresh', rfl, hname', hafter⟩ := ih hname.2 hrest
    exact ⟨after', fresh', rfl, List.forall_mem_cons.2 ⟨halnum, hname'⟩, hafter⟩

/-- A name and a space, read in the plain layout. -/
theorem spelled_of_name {name after : Text} {s : Char} (hname : ∀ c ∈ name, isAsciiAlnum c = true)
    (hs : Text.isSpace s = true) (h : Spelled fresh (name ++ s :: after) r) :
    ∃ after' fresh', r = name ++ s :: after' ∧ Spelled fresh' after after' := by
  induction name generalizing fresh r with
  | nil =>
    cases h with
    | plain hmarked hdash h => exact ⟨_, _, rfl, h⟩
    | escaped halnum hspace h =>
      rw [hspace] at hs
      cases hs
  | cons c name ih =>
    rw [List.forall_mem_cons] at hname
    rw [List.cons_append] at h
    generalize ht : name ++ s :: after = t at h
    cases h with
    | plain hmarked hdash h =>
      obtain ⟨after', fresh', rfl, hafter⟩ := ih hname.2 (ht ▸ h)
      exact ⟨after', fresh', rfl, hafter⟩
    | escaped halnum hspace h =>
      rw [halnum] at hname
      cases hname.1

end Spelled

/-! ### The search -/

/-- The text after the opening bracket of a tag with a space after its name. -/
def SpacedTail (t : Text) : Prop :=
  ∃ name s w rest, t = name ++ s :: (w ++ '>' :: rest) ∧ (∃ x, name.head? = some x ∧ isAsciiLetter x = true) ∧
    (∀ c ∈ name, isAsciiAlnum c = true) ∧ Text.isSpace s = true ∧ ∀ c ∈ w, isNoAngle c = true

private theorem alnum_of_letter {c : Char} (h : isAsciiLetter c = true) : isAsciiAlnum c = true := by
  rw [isAsciiAlnum, h, Bool.true_or]

theorem spacedTag_iff {t : Text} :
    spacedTag.occursIn t = true ↔ ∃ before after, t = before ++ '<' :: after ∧ SpacedTail after := by
  rw [spacedTag, Regex.literal, Regex.occursIn_iff_matches (Regex.advances_seq_char _ _)]
  simp only [Regex.literal, Regex.matches_seq_char, Regex.matches_seq_star, Regex.matches_char, decide_eq_true_eq]
  constructor
  · rintro ⟨before, _, rfl, _, _, rfl, rfl, x, _, rfl, hx, name, _, rfl, hname, s, _, rfl, hs, w, _, rfl, hw, _, rest,
      rfl, rfl⟩
    refine ⟨before, _, rfl, x :: name, s, w, rest, rfl, ⟨x, rfl, hx⟩, ?_, hs, hw⟩
    exact List.forall_mem_cons.2 ⟨alnum_of_letter hx, hname⟩
  · rintro ⟨before, _, rfl, name, s, w, rest, rfl, ⟨x, hhead, hx⟩, hname, hs, hw⟩
    obtain ⟨name, rfl⟩ := List.head?_eq_some_iff.1 hhead
    rw [List.forall_mem_cons] at hname
    exact ⟨before, _, rfl, '<', _, rfl, rfl, x, _, rfl, hx, name, _, rfl, hname.2, s, _, rfl, hs, w, _, rfl, hw, '>',
      rest, rfl, rfl⟩

private theorem noAngle_of_space {c : Char} (h : Text.isSpace c = true) : isNoAngle c = true := by
  rw [isNoAngle, Bool.and_eq_true, decide_eq_true_eq, decide_eq_true_eq]
  refine ⟨?_, ?_⟩ <;> rintro rfl <;> exact absurd h (by decide)

/-- The end of a tag: spaces and a slash, or a space and a text without brackets. -/
private theorem tagEnd_spec {previous : Option Char} {t : Text}
    (h : (Regex.seq htmlTagEnd (.literal '>')).Matches ⟨previous, t⟩) :
    ∃ w rest, t = w ++ '>' :: rest ∧
      ((∀ c ∈ w, Text.isSpace c = true ∨ c = '/') ∨
        ∃ s w', w = s :: w' ∧ Text.isSpace s = true ∧ ∀ c ∈ w', isNoAngle c = true) := by
  simp only [htmlTagEnd, Regex.literal, Regex.matches_seq_seq, Regex.matches_seq_opt, Regex.matches_seq_char,
    Regex.matches_seq_star, Regex.matches_char, decide_eq_true_eq] at h
  have hslash : isNoAngle '/' = true := by decide
  have hspaces : ∀ (blanks tail : Text), (∀ c ∈ blanks, Text.isSpace c = true) →
      ((∃ x rest, tail = x :: rest ∧ x = '/' ∧ ∃ y rest', rest = y :: rest' ∧ y = '>') ∨
        ∃ x rest, tail = x :: rest ∧ x = '>') →
      ∃ w rest, blanks ++ tail = w ++ '>' :: rest ∧ ∀ c ∈ w, Text.isSpace c = true ∨ c = '/' := by
    intro blanks tail hblanks htail
    rcases htail with ⟨_, _, rfl, rfl, _, rest, rfl, rfl⟩ | ⟨_, rest, rfl, rfl⟩
    · refine ⟨blanks ++ ['/'], rest, by simp, fun c hc => ?_⟩
      rcases List.mem_append.1 hc with hc | hc
      · exact Or.inl (hblanks c hc)
      · exact Or.inr (List.mem_singleton.1 hc)
    · exact ⟨blanks, rest, rfl, fun c hc => Or.inl (hblanks c hc)⟩
  rcases h with ⟨s, _, rfl, hs, attributes, _, rfl, hattributes, blanks, tail, rfl, hblanks, htail⟩ |
    ⟨blanks, tail, rfl, hblanks, htail⟩
  · obtain ⟨w, rest, hsplit, hw⟩ := hspaces blanks tail hblanks htail
    refine ⟨s :: (attributes ++ w), rest, by simp [hsplit], Or.inr ⟨s, _, rfl, hs, fun c hc => ?_⟩⟩
    rcases List.mem_append.1 hc with hc | hc
    · exact hattributes c hc
    · rcases hw c hc with hspace | rfl
      · exact noAngle_of_space hspace
      · exact hslash
  · obtain ⟨w, rest, hsplit, hw⟩ := hspaces blanks tail hblanks htail
    exact ⟨w, rest, hsplit, Or.inl hw⟩

/-- A tag of the escaped layout has a space after its name. -/
private theorem spacedTail_of_tag {p t : Text} {previous : Option Char} (hspelled : Spelled true p t)
    (h : (Regex.seq htmlTag (.literal '>')).Matches ⟨previous, t⟩) : SpacedTail p := by
  simp only [htmlTag, Regex.literal, Regex.matches_seq_seq, Regex.matches_seq_opt, Regex.matches_seq_char,
    Regex.matches_seq_star, decide_eq_true_eq] at h
  rcases h with ⟨_, _, rfl, rfl, -⟩ | ⟨x, _, rfl, hx, name, tail, rfl, hname, hclose⟩
  · exact absurd hspelled (Spelled.not_marked_cons (by decide))
  · simp only [Bool.or_eq_true, decide_eq_true_eq] at hname
    obtain ⟨w, rest, rfl, hw⟩ := tagEnd_spec hclose
    have halnum := alnum_of_letter hx
    rcases hw with hw | ⟨s, w, rfl, hs, hw⟩
    · have hlast := Spelled.getLast?_of_marked (c := '>') (by decide)
        (show Spelled true p ((x :: (name ++ w)) ++ '>' :: rest) by simpa using hspelled)
      have hmem := List.mem_of_getLast? hlast
      have hslash : ¬ (isAsciiAlnum '\\' = true ∨ '\\' = '-' ∨ Text.isSpace '\\' = true ∨ '\\' = '/') := by decide
      refine absurd ?_ hslash
      rcases List.mem_cons.1 hmem with heq | hmem
      · rw [heq]
        exact Or.inl halnum
      · rcases List.mem_append.1 hmem with hmem | hmem
        · exact (hname _ hmem).imp_right Or.inl
        · exact Or.inr (Or.inr (hw _ hmem))
    · obtain ⟨p, rfl, hrest⟩ := hspelled.alnum_cons halnum
      obtain ⟨after, fresh, rfl, hname', hafter⟩ := Spelled.name_of_spelled hname hs (by simpa using hrest)
      obtain ⟨w', rest', rfl, hw'⟩ := hafter.close_of_spelled hw
      exact ⟨x :: name, s, w', rest', rfl, ⟨x, rfl, hx⟩, List.forall_mem_cons.2 ⟨halnum, hname'⟩, hs, hw'⟩

/-- The search for tags in an escaped layout finds the tags with a space after their name. -/
theorem Spelled.hasRawHtml_iff {p r : Text} (h : Spelled true p r) :
    hasRawHtml r = true ↔ spacedTag.occursIn p = true := by
  rw [spacedTag_iff, hasRawHtml, rawHtml, Regex.literal, Regex.occursIn_iff_matches (Regex.advances_seq_char _ _)]
  simp only [Regex.matches_seq_char, Regex.matches_seq_alt, decide_eq_true_eq]
  constructor
  · rintro ⟨before, _, rfl, _, t, rfl, rfl, hmatch⟩
    obtain ⟨before', after', rfl, hafter⟩ := h.open_of_spelled
    refine ⟨before', after', rfl, ?_⟩
    rcases hmatch with hmatch | hmatch | hmatch | hmatch
    · exact spacedTail_of_tag hafter hmatch
    all_goals
      simp only [htmlComment, htmlDeclaration, htmlInstruction, Regex.literal, Regex.matches_seq_seq,
        Regex.matches_seq_char, decide_eq_true_eq] at hmatch
      obtain ⟨_, _, rfl, rfl, -⟩ := hmatch
      exact absurd hafter (Spelled.not_marked_cons (by decide))
  · rintro ⟨before, _, rfl, name, s, w, rest, rfl, ⟨x, hhead, hx⟩, hname, hs, hw⟩
    obtain ⟨before', t, rfl, hafter⟩ := h.spelled_of_open
    obtain ⟨after', fresh, rfl, hafter'⟩ := hafter.spelled_of_name hname hs
    obtain ⟨w', rest', rfl, hw'⟩ := hafter'.spelled_of_close hw
    obtain ⟨name, rfl⟩ := List.head?_eq_some_iff.1 hhead
    rw [List.forall_mem_cons] at hname
    refine ⟨before', _, rfl, '<', _, rfl, rfl, Or.inl ?_⟩
    simp only [htmlTag, htmlTagEnd, Regex.literal, Regex.matches_seq_seq, Regex.matches_seq_opt,
      Regex.matches_seq_char, Regex.matches_seq_star, Regex.matches_char, decide_eq_true_eq]
    refine Or.inr ⟨x, _, rfl, hx, name, _, rfl, fun c hc => by simp [hname.2 c hc], Or.inl ⟨s, _, rfl, hs, w', _, rfl,
      hw', [], _, rfl, by simp, Or.inr ⟨'>', rest', rfl, rfl⟩⟩⟩

/-- An escaped layout has no entity. -/
theorem Spelled.no_htmlEntity (platform : Platform) {p r : Text} (h : Spelled true p r) :
    (htmlEntity platform).occursIn r = false := by
  rw [Bool.eq_false_iff]
  intro hmatch
  rw [htmlEntity, Regex.literal, Regex.occursIn_iff_matches ((Regex.advances_seq_char _ _).notBehind _)] at hmatch
  simp only [Regex.matches_seq_notBehind, Regex.matches_seq_char, decide_eq_true_eq] at hmatch
  obtain ⟨before, _, rfl, hbehind, _, t, rfl, rfl, -⟩ := hmatch
  rw [Spelled.getLast?_of_marked (by decide) h] at hbehind
  cases hbehind

end ArdOssie
