import ArdOssie.Semantic.SpacingRepair

/-!
# Places of protected tokens

A protected token of a text has a place among the characters that are not whitespace.  A generated candidate is
checked by the number of occurrences of each token; its places show when the check protects every occurrence.
-/

namespace ArdOssie

open Text (isSpace withoutWhitespace)

/-- No decimal digit is whitespace: the documented behaviour of the digit class of a regular expression. -/
def Platform.DigitsVisible (platform : Platform) : Prop :=
  ∀ c, platform.isDecimal c = true → isSpace c = false

/-- The text has no whitespace between its characters from `place` to `place + length`. -/
def Unbroken (t : Text) (place length : ℕ) : Prop :=
  ∃ before part after, t = before ++ (part ++ after) ∧ (withoutWhitespace before).length = place ∧
    part.length = length ∧ ∀ c ∈ part, isSpace c = false

section Places

variable (platform : Platform)

/-- The matches of the patterns of protected tokens, without repetitions. -/
def tokenMatches (t : Text) : List (ℕ × Text) :=
  ((protectedTokenPatterns platform).flatMap fun pattern => pattern.findAll t).eraseDups

/-- The place of a match among the characters that are not whitespace. -/
def placeOf (t : Text) (position : ℕ) : ℕ := (withoutWhitespace (t.take position)).length

/-- The protected tokens of a text with their places. -/
def tokenPlaces (t : Text) : List (ℕ × Text) := (tokenMatches platform t).map fun p => (placeOf t p.1, p.2)

/-- The whitespace of the proposal is outside of every protected token of the anchor. -/
def ProtectsTokens (anchor proposal : Text) : Prop :=
  ∀ p ∈ tokenPlaces platform anchor, Unbroken proposal p.1 p.2.length

/-- The proposal has the token at a place where the anchor does not have it. -/
def GainsToken (anchor proposal token : Text) : Prop :=
  ∃ place, (place, token) ∈ tokenPlaces platform proposal ∧ (place, token) ∉ tokenPlaces platform anchor

/-- No token that the proposal has at a new place is broken at a place of the anchor. -/
def SplitsNotCompensated (anchor proposal : Text) : Prop :=
  ∀ p ∈ tokenPlaces platform anchor, GainsToken platform anchor proposal p.2 → Unbroken proposal p.1 p.2.length

variable {platform}

/-- A match is a part of the text without whitespace. -/
theorem mem_tokenMatches (hdigits : platform.DigitsVisible) {t : Text} {p : ℕ × Text} (h : p ∈ tokenMatches platform t) :
    p.2 ≠ [] ∧ (∀ c ∈ p.2, isSpace c = false) ∧ ∃ before after, t = before ++ (p.2 ++ after) ∧ p.1 = before.length := by
  rw [tokenMatches, List.mem_eraseDups, List.mem_flatMap] at h
  obtain ⟨pattern, hpattern, hp⟩ := h
  exact Regex.mem_findAll (protectedTokenPatterns_visible platform hdigits pattern hpattern) hp

/-- The occurrences are the tokens of the matches. -/
theorem occurrences_perm (t : Text) :
    (protectedTokenOccurrences platform t).Perm ((tokenMatches platform t).map Prod.snd) :=
  (sortBy_perm _ _).map _

private theorem placeOf_append {before rest : Text} {position : ℕ} (h : position = before.length) :
    placeOf (before ++ rest) position = (withoutWhitespace before).length := by
  rw [placeOf, h, List.take_left]

/-- Two matches at one place are at one position. -/
private theorem placeOf_injOn (hdigits : platform.DigitsVisible) {t : Text} {p q : ℕ × Text}
    (hp : p ∈ tokenMatches platform t) (hq : q ∈ tokenMatches platform t) (h : placeOf t p.1 = placeOf t q.1) :
    p.1 = q.1 := by
  -- the place grows from a match to every later position
  have hgrow : ∀ {p : ℕ × Text} {i : ℕ}, p ∈ tokenMatches platform t → p.1 < i → i ≤ t.length →
      placeOf t p.1 < placeOf t i := by
    intro p i hp hi hlength
    obtain ⟨hne, hvisible, before, after, hsplit, hposition⟩ := mem_tokenMatches hdigits hp
    obtain ⟨c, token, htoken⟩ := List.exists_cons_of_ne_nil hne
    have hc : isSpace c = false := hvisible c (by simp [htoken])
    have htake : t.take i = before ++ (c :: (token ++ after)).take (i - before.length) := by
      rw [hsplit, htoken, List.take_append, List.take_of_length_le (by omega)]
      rfl
    have hi' : ∃ n, i - before.length = n + 1 := ⟨i - before.length - 1, by omega⟩
    obtain ⟨n, hn⟩ := hi'
    have hplace : placeOf t p.1 = (withoutWhitespace before).length := by
      rw [hsplit]
      exact placeOf_append hposition
    rw [hplace, placeOf, htake, hn, List.take_succ_cons, withoutWhitespace, withoutWhitespace, List.filter_append,
      List.length_append, List.filter_cons_of_pos (by simp [hc]), List.length_cons]
    omega
  have hle : ∀ {p : ℕ × Text}, p ∈ tokenMatches platform t → p.1 ≤ t.length := by
    intro p hp
    obtain ⟨-, -, before, after, hsplit, hposition⟩ := mem_tokenMatches hdigits hp
    rw [hsplit, hposition, List.length_append]
    omega
  rcases Nat.lt_trichotomy p.1 q.1 with hlt | heq | hlt
  · have := hgrow hp hlt (hle hq)
    omega
  · exact heq
  · have := hgrow hq hlt (hle hp)
    omega

private theorem nodup_tokenPlaces (hdigits : platform.DigitsVisible) (t : Text) : (tokenPlaces platform t).Nodup := by
  refine List.Nodup.map_on ?_ (nodup_eraseDups _)
  intro p hp q hq h
  rw [Prod.mk.injEq] at h
  exact Prod.ext (placeOf_injOn hdigits hp hq h.1) h.2

/-- The number of occurrences of a token is the number of its places. -/
private theorem count_occurrences (t token : Text) :
    (protectedTokenOccurrences platform t).count token =
      ((tokenPlaces platform t).filter fun p => p.2 = token).length := by
  have hsnd : (tokenPlaces platform t).map Prod.snd = (tokenMatches platform t).map Prod.snd := by
    rw [tokenPlaces, List.map_map]
    rfl
  rw [(occurrences_perm t).count_eq, ← hsnd, List.count, List.countP_map, List.countP_eq_length_filter]
  refine congrArg List.length (List.filter_congr fun p _ => ?_)
  by_cases htoken : p.2 = token <;> simp [htoken]

/-- A token of a text is unbroken at its place. -/
theorem unbroken_of_mem (hdigits : platform.DigitsVisible) {t : Text} {p : ℕ × Text} (h : p ∈ tokenPlaces platform t) :
    Unbroken t p.1 p.2.length := by
  obtain ⟨q, hq, rfl⟩ := List.mem_map.1 h
  obtain ⟨-, hvisible, before, after, hsplit, hposition⟩ := mem_tokenMatches hdigits hq
  refine ⟨before, q.2, after, hsplit, ?_, rfl, hvisible⟩
  conv => rhs; rw [hsplit]
  exact (placeOf_append hposition).symm

/-- A token that the proposal has often enough and at no new place keeps its places. -/
private theorem mem_of_count_le (hdigits : platform.DigitsVisible) {anchor proposal token : Text}
    (hcount : (protectedTokenOccurrences platform anchor).count token ≤
      (protectedTokenOccurrences platform proposal).count token)
    (hgain : ¬ GainsToken platform anchor proposal token) {place : ℕ}
    (h : (place, token) ∈ tokenPlaces platform anchor) : (place, token) ∈ tokenPlaces platform proposal := by
  rw [count_occurrences, count_occurrences] at hcount
  have hsubset : (tokenPlaces platform proposal).filter (fun p => p.2 = token) ⊆
      (tokenPlaces platform anchor).filter fun p => p.2 = token := by
    intro p hp
    obtain ⟨hp, htoken⟩ := List.mem_filter.1 hp
    have htoken' : p.2 = token := of_decide_eq_true htoken
    refine List.mem_filter.2 ⟨?_, htoken⟩
    by_contra hnot
    exact hgain ⟨p.1, by rw [← htoken']; exact hp, by rw [← htoken']; exact hnot⟩
  have hsubperm := List.subperm_of_subset ((nodup_tokenPlaces hdigits proposal).filter _) hsubset
  have hperm := hsubperm.perm_of_length_le hcount
  have hmem : (place, token) ∈ (tokenPlaces platform anchor).filter fun p => p.2 = token :=
    List.mem_filter.2 ⟨h, decide_eq_true rfl⟩
  exact (List.mem_filter.1 (hperm.mem_iff.2 hmem)).1

/-- An accepted proposal has every token of the anchor often enough. -/
private theorem count_le_of_build {anchor generated : SpacingCandidate} {proposal : Text} {confidence : Score}
    (h : buildGeneratedCandidate platform anchor proposal confidence = .ok generated) (token : Text) :
    (protectedTokenOccurrences platform anchor.renderedText).count token ≤
      (protectedTokenOccurrences platform proposal).count token := by
  simp only [buildGeneratedCandidate, raiseIf_bind_eq_ok] at h
  obtain ⟨-, -, -, hsplit, -⟩ := h
  by_contra hlt
  have hmem : token ∈ protectedTokenOccurrences platform anchor.renderedText :=
    List.count_pos_iff.1 (by omega)
  apply hsplit
  rw [hasProtectedTokenSplit, Bool.or_eq_true]
  exact Or.inl (List.any_eq_true.2 ⟨token, hmem, decide_eq_true (by omega)⟩)

/-- A generated candidate has no whitespace inside of a protected token of its anchor exactly when no token that it
has at a new place is broken at a place of the anchor. -/
theorem buildGeneratedCandidate_protects_iff (hdigits : platform.DigitsVisible) (anchor : SpacingCandidate)
    (proposal : Text) (confidence : Score) (generated : SpacingCandidate)
    (h : buildGeneratedCandidate platform anchor proposal confidence = .ok generated) :
    ProtectsTokens platform anchor.renderedText proposal ↔
      SplitsNotCompensated platform anchor.renderedText proposal := by
  constructor
  · exact fun hprotects p hp _ => hprotects p hp
  · intro hsplits p hp
    by_cases hgain : GainsToken platform anchor.renderedText proposal p.2
    · exact hsplits p hp hgain
    · exact unbroken_of_mem hdigits (mem_of_count_le hdigits (count_le_of_build h p.2) hgain hp)

theorem digitsVisible_ascii : Platform.ascii.DigitsVisible := by
  intro c hc
  have hdigit : 48 ≤ c.toNat ∧ c.toNat ≤ 57 := by
    simpa [Platform.ascii, Char.isDigit, Char.le_def, UInt32.le_iff_toNat_le] using hc
  simp only [isSpace, Bool.or_eq_false_iff, Bool.and_eq_false_iff, decide_eq_false_iff_not, beq_eq_false_iff_ne]
  omega

/-- The candidate of a text without hard breaks, with the numbers of its characters as atoms. -/
def plainCandidate (t : Text) : PyResult SpacingCandidate :=
  let atomIds : List AtomId := (List.range (withoutWhitespace t).length).map fun n => ⟨Fin.ofNat _ n⟩
  makeSpacingCandidate .ascii ⟨0⟩ t (withoutWhitespace t) atomIds (List.replicate (atomIds.length - 1) []) .one ∅ none

def repeatedAnchor : Text := "ab12 x y ab12".toList

/-- Two words are joined between the occurrences of a token. -/
def joinedProposal : Text := "ab12 xy ab12".toList

def tradedAnchor : Text := "ab12 ab 12".toList

/-- The first occurrence of the token is split, and the two words at the end are joined. -/
def tradedProposal : Text := "ab 12 ab12".toList

theorem buildGeneratedCandidate_protects_kept : ∃ anchor generated,
    anchor.renderedText = repeatedAnchor ∧ buildGeneratedCandidate .ascii anchor joinedProposal .one = .ok generated ∧
      (ProtectsTokens .ascii anchor.renderedText joinedProposal ↔
        SplitsNotCompensated .ascii anchor.renderedText joinedProposal) := by
  have hrun : ((plainCandidate repeatedAnchor).toOption.any fun anchor => anchor.renderedText = repeatedAnchor ∧
      (buildGeneratedCandidate .ascii anchor joinedProposal .one).toOption.isSome) = true := by decide +kernel
  obtain ⟨anchor, -, hany⟩ := exists_of_any_toOption hrun
  obtain ⟨htext, hbuilt⟩ := of_decide_eq_true hany
  cases hbuild : buildGeneratedCandidate .ascii anchor joinedProposal .one with
  | error e => rw [hbuild] at hbuilt; cases hbuilt
  | ok generated =>
    exact ⟨anchor, generated, htext, hbuild,
      buildGeneratedCandidate_protects_iff digitsVisible_ascii anchor joinedProposal .one generated hbuild⟩

/-- Whitespace between two characters of a place breaks it. -/
private theorem not_unbroken_of_split (before after : Text) {c : Char} (hc : isSpace c = true) {place length : ℕ}
    (hplace : place < (withoutWhitespace before).length) (hlength : (withoutWhitespace before).length < place + length) :
    ¬ Unbroken (before ++ c :: after) place length := by
  rintro ⟨b, part, a, hsplit, hb, hpart, hvisible⟩
  have hparts : (withoutWhitespace part).length = length := by
    rw [withoutWhitespace, List.filter_eq_self.2 fun x hx => by simp [hvisible x hx], hpart]
  have hlong : ∀ rest, before ≠ b ++ part ++ rest := by
    rintro rest rfl
    rw [withoutWhitespace, List.filter_append, List.filter_append, List.length_append, List.length_append] at hlength
    have hb' : (b.filter fun c => !isSpace c).length = place := hb
    have hpart' : (part.filter fun c => !isSpace c).length = length := hparts
    omega
  rw [← List.append_assoc] at hsplit
  rcases List.append_eq_append_iff.1 hsplit with ⟨rest, hfirst, hrest⟩ | ⟨rest, hfirst, -⟩
  · cases rest with
    | nil => exact hlong [] (by simpa using hfirst.symm)
    | cons x rest =>
      obtain ⟨rfl, -⟩ := List.cons.inj hrest
      rcases List.append_eq_append_iff.1 hfirst with ⟨rest', hbefore, hpart'⟩ | ⟨rest', hb', -⟩
      · have hmem : c ∈ part := by simp [hpart']
        rw [hvisible c hmem] at hc
        cases hc
      · rw [hb', withoutWhitespace, List.filter_append, List.length_append] at hb
        have hbefore : (before.filter fun c => !isSpace c).length = (withoutWhitespace before).length := rfl
        omega
  · exact hlong rest hfirst

/-- A proposal is accepted that splits one occurrence of a token and joins another one. -/
theorem buildGeneratedCandidate_splits_traded : ∃ anchor generated,
    anchor.renderedText = tradedAnchor ∧ buildGeneratedCandidate .ascii anchor tradedProposal .one = .ok generated ∧
      ¬ ProtectsTokens .ascii anchor.renderedText tradedProposal := by
  have hrun : ((plainCandidate tradedAnchor).toOption.any fun anchor => anchor.renderedText = tradedAnchor ∧
      (buildGeneratedCandidate .ascii anchor tradedProposal .one).toOption.isSome) = true := by decide +kernel
  obtain ⟨anchor, -, hany⟩ := exists_of_any_toOption hrun
  obtain ⟨htext, hbuilt⟩ := of_decide_eq_true hany
  cases hbuild : buildGeneratedCandidate .ascii anchor tradedProposal .one with
  | error e => rw [hbuild] at hbuilt; cases hbuilt
  | ok generated =>
    refine ⟨anchor, generated, htext, hbuild, fun hprotects => ?_⟩
    have hplace : (0, "ab12".toList) ∈ tokenPlaces .ascii tradedAnchor := by decide +kernel
    have hunbroken := hprotects (0, "ab12".toList) (htext ▸ hplace)
    exact not_unbroken_of_split "ab".toList "12 ab12".toList (show isSpace ' ' = true by decide) (by decide) (by decide)
      hunbroken

end Places

end ArdOssie
