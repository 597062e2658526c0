import Mathlib.Data.List.Basic

/-!
# Backtracking regular expressions

Regular expressions with greedy repetition, ordered alternatives, lookahead and a lookbehind of one character.  A
match at a place of the text is the first way through the expression in the order in which a backtracking matcher
tries them: `Regex.ends` lists the places that the ways end at, in this order.
-/

namespace ArdOssie

/-- A place in a text: the character before it and the text after it. -/
structure Cursor where
  previous : Option Char
  rest : List Char

inductive Regex where
  | char (accepts : Char → Bool)
  | seq (first second : Regex)
  | alt (first second : Regex)
  | opt (body : Regex)
  | star (body : Regex)
  | ahead (body : Regex)
  | notAhead (body : Regex)
  | notBehind (accepts : Char → Bool)

namespace Regex

/-- The ends of a greedy repetition; a round that does not move ends the repetition. -/
def starEnds (step : Cursor → List Cursor) : ℕ → Cursor → List Cursor
  | 0, c => [c]
  | fuel + 1, c =>
    ((step c).filter fun c' => c'.rest.length < c.rest.length).flatMap (starEnds step fuel) ++ [c]

/-- The places where a match from a given place may end, the preferred one first. -/
def ends : Regex → Cursor → List Cursor
  | char accepts, c =>
    match c.rest with
    | [] => []
    | x :: rest => if accepts x then [⟨some x, rest⟩] else []
  | seq first second, c => (first.ends c).flatMap second.ends
  | alt first second, c => first.ends c ++ second.ends c
  | opt body, c => body.ends c ++ [c]
  | star body, c => starEnds body.ends c.rest.length c
  | ahead body, c => if (body.ends c).isEmpty then [] else [c]
  | notAhead body, c => if (body.ends c).isEmpty then [c] else []
  | notBehind accepts, c => if c.previous.any accepts then [] else [c]

/-- One repetition or more. -/
def plus (body : Regex) : Regex := seq body (star body)

/-- Expressions one after the other. -/
def sequence (last : Regex) : List Regex → Regex
  | [] => last
  | r :: rs => seq r (sequence last rs)

/-- `most` optional repetitions before `last`. -/
def upTo (body last : Regex) : ℕ → Regex
  | 0 => last
  | n + 1 => alt (seq body (upTo body last n)) last

/-- `least` to `least + more` repetitions before `last`. -/
def repeated (body : Regex) (least more : ℕ) (last : Regex) : Regex :=
  sequence (upTo body last more) (List.replicate least body)

/-- The length of the preferred match at a place. -/
def matchLength (r : Regex) (c : Cursor) : Option ℕ :=
  (r.ends c).head?.map fun c' => c.rest.length - c'.rest.length

/-- The non-empty matches from left to right without overlap, each with its position; the first `skip` characters
belong to a match that was already found. -/
def findFrom (r : Regex) : ℕ → ℕ → Option Char → List Char → List (ℕ × List Char)
  | _, _, _, [] => []
  | skip + 1, position, _, x :: rest => findFrom r skip (position + 1) (some x) rest
  | 0, position, previous, x :: rest =>
    match r.matchLength ⟨previous, x :: rest⟩ with
    | some (n + 1) => (position, (x :: rest).take (n + 1)) :: findFrom r n (position + 1) (some x) rest
    | _ => findFrom r 0 (position + 1) (some x) rest

/-- `finditer`, for an expression without an empty match. -/
def findAll (r : Regex) (t : List Char) : List (ℕ × List Char) := r.findFrom 0 0 none t

/-- `search`, for an expression without an empty match. -/
def occursIn (r : Regex) (t : List Char) : Bool := !(r.findAll t).isEmpty

/-- The text with the matches replaced; the first `skip` characters belong to a match that was already replaced. -/
def subFrom (r : Regex) (replace : List Char → List Char) : ℕ → Option Char → List Char → List Char
  | _, _, [] => []
  | skip + 1, _, x :: rest => subFrom r replace skip (some x) rest
  | 0, previous, x :: rest =>
    match r.matchLength ⟨previous, x :: rest⟩ with
    | some (n + 1) => replace ((x :: rest).take (n + 1)) ++ subFrom r replace n (some x) rest
    | _ => x :: subFrom r replace 0 (some x) rest

/-- `sub`, for an expression without an empty match. -/
def sub (r : Regex) (replace : List Char → List Char) (t : List Char) : List Char := r.subFrom replace 0 none t

/-- `fullmatch` -/
def matchesAll (r : Regex) (t : List Char) : Bool := (r.ends ⟨none, t⟩).any fun c => c.rest.isEmpty

/-- Replacements by parts of the matches add no character. -/
theorem subset_of_sub {r : Regex} {replace : List Char → List Char} (h : ∀ token, replace token ⊆ token)
    (t : List Char) : r.sub replace t ⊆ t := by
  have general : ∀ skip previous, r.subFrom replace skip previous t ⊆ t := by
    induction t with
    | nil =>
      intro skip previous
      unfold subFrom
      exact List.nil_subset _
    | cons x rest ih =>
      intro skip previous
      cases skip with
      | succ skip => exact List.Subset.trans (ih skip (some x)) (List.subset_cons_self x rest)
      | zero =>
        rw [subFrom]
        split
        · rename_i n _
          refine List.append_subset.2 ⟨List.Subset.trans (h _) (List.take_subset _ _), ?_⟩
          exact List.Subset.trans (ih n (some x)) (List.subset_cons_self x rest)
        · exact List.cons_subset_cons x (ih 0 (some x))
  exact general 0 none

/-! ### What a match reads -/

/-- The characters that the expression reads have a property. -/
def OnlyReads (P : Char → Prop) : Regex → Prop
  | char accepts => ∀ c, accepts c = true → P c
  | seq first second => first.OnlyReads P ∧ second.OnlyReads P
  | alt first second => first.OnlyReads P ∧ second.OnlyReads P
  | opt body => body.OnlyReads P
  | star body => body.OnlyReads P
  | ahead _ => True
  | notAhead _ => True
  | notBehind _ => True

/-- The text between two places has a property. -/
def Reads (P : Char → Prop) (c c' : Cursor) : Prop := ∃ w, c.rest = w ++ c'.rest ∧ ∀ x ∈ w, P x

variable {P : Char → Prop}

theorem Reads.refl (c : Cursor) : Reads P c c := ⟨[], rfl, by simp⟩

theorem Reads.trans {c c' c'' : Cursor} (h : Reads P c c') (h' : Reads P c' c'') : Reads P c c'' := by
  obtain ⟨w, hw, hP⟩ := h
  obtain ⟨w', hw', hP'⟩ := h'
  refine ⟨w ++ w', by rw [hw, hw', List.append_assoc], fun x hx => ?_⟩
  rcases List.mem_append.1 hx with hx | hx
  · exact hP x hx
  · exact hP' x hx

private theorem reads_of_mem_starEnds {step : Cursor → List Cursor} (hstep : ∀ c, ∀ c' ∈ step c, Reads P c c')
    (fuel : ℕ) (c : Cursor) : ∀ c' ∈ starEnds step fuel c, Reads P c c' := by
  induction fuel generalizing c with
  | zero =>
    intro c' hc'
    rw [starEnds, List.mem_singleton] at hc'
    cases hc'
    exact Reads.refl _
  | succ fuel ih =>
    intro c' hc'
    rw [starEnds, List.mem_append, List.mem_flatMap, List.mem_singleton] at hc'
    rcases hc' with ⟨c₁, hc₁, hc'⟩ | rfl
    · exact (hstep c c₁ (List.mem_filter.1 hc₁).1).trans (ih c₁ c' hc')
    · exact Reads.refl c'

/-- A match reads only characters of the expression. -/
theorem reads_of_mem_ends {r : Regex} (h : r.OnlyReads P) (c : Cursor) : ∀ c' ∈ r.ends c, Reads P c c' := by
  induction r generalizing c with
  | char accepts =>
    intro c' hc'
    unfold ends at hc'
    split at hc'
    · cases hc'
    · rename_i x rest hrest
      split at hc'
      · rename_i hx
        rw [List.mem_singleton] at hc'
        subst hc'
        exact ⟨[x], hrest, fun y hy => List.mem_singleton.1 hy ▸ h x hx⟩
      · cases hc'
  | seq first second ih₁ ih₂ =>
    intro c' hc'
    rw [ends, List.mem_flatMap] at hc'
    obtain ⟨c₁, hc₁, hc'⟩ := hc'
    exact (ih₁ h.1 c c₁ hc₁).trans (ih₂ h.2 c₁ c' hc')
  | alt first second ih₁ ih₂ =>
    intro c' hc'
    rw [ends, List.mem_append] at hc'
    exact hc'.elim (ih₁ h.1 c c') (ih₂ h.2 c c')
  | opt body ih =>
    intro c' hc'
    rw [ends, List.mem_append, List.mem_singleton] at hc'
    rcases hc' with hc' | rfl
    · exact ih h c c' hc'
    · exact Reads.refl c'
  | star body ih => exact reads_of_mem_starEnds (ih h) _ c
  | ahead body _ =>
    intro c' hc'
    rw [ends] at hc'
    split at hc'
    · cases hc'
    · cases List.mem_singleton.1 hc'
      exact Reads.refl _
  | notAhead body _ =>
    intro c' hc'
    rw [ends] at hc'
    split at hc'
    · cases List.mem_singleton.1 hc'
      exact Reads.refl _
    · cases hc'
  | notBehind accepts =>
    intro c' hc'
    rw [ends] at hc'
    split at hc'
    · cases hc'
    · cases List.mem_singleton.1 hc'
      exact Reads.refl _

private theorem mem_findFrom {r : Regex} (h : r.OnlyReads P) {i : ℕ} {token : List Char} (skip position : ℕ)
    (previous : Option Char) (t : List Char) (hmem : (i, token) ∈ r.findFrom skip position previous t) :
    token ≠ [] ∧ (∀ x ∈ token, P x) ∧ ∃ before after, t = before ++ (token ++ after) ∧ i = position + before.length := by
  induction t generalizing skip position previous with
  | nil => simp [findFrom] at hmem
  | cons x rest ih =>
    have hrest : ∀ skip', (i, token) ∈ r.findFrom skip' (position + 1) (some x) rest →
        token ≠ [] ∧ (∀ x ∈ token, P x) ∧
          ∃ before after, x :: rest = before ++ (token ++ after) ∧ i = position + before.length := by
      intro skip' hmem
      obtain ⟨hne, hP, before, after, hsplit, hi⟩ := ih skip' (position + 1) (some x) hmem
      refine ⟨hne, hP, x :: before, after, by rw [hsplit]; rfl, ?_⟩
      rw [hi, List.length_cons]
      omega
    cases skip with
    | succ skip => exact hrest skip hmem
    | zero =>
      rw [findFrom] at hmem
      split at hmem
      · rename_i n hlength
        rcases List.mem_cons.1 hmem with heq | hmem
        · cases heq
          obtain ⟨c', hc', hn⟩ := Option.map_eq_some_iff.1 hlength
          obtain ⟨w, hw, hP⟩ := reads_of_mem_ends h _ c' (List.mem_of_mem_head? hc')
          have hw' : x :: rest = w ++ c'.rest := hw
          have hlen : w.length = n + 1 := by
            have := congrArg List.length hw'
            rw [List.length_append] at this
            have hn' : (x :: rest).length - c'.rest.length = n + 1 := hn
            omega
          have htoken : (x :: rest).take (n + 1) = w := by rw [hw', ← hlen, List.take_left]
          rw [htoken]
          refine ⟨List.ne_nil_of_length_pos (by omega), hP, [], c'.rest, hw', rfl⟩
        · exact hrest n hmem
      · exact hrest 0 hmem

/-- A match is a part of the text at its position. -/
theorem mem_findAll {r : Regex} (h : r.OnlyReads P) {t : List Char} {i : ℕ} {token : List Char}
    (hmem : (i, token) ∈ r.findAll t) :
    token ≠ [] ∧ (∀ x ∈ token, P x) ∧ ∃ before after, t = before ++ (token ++ after) ∧ i = before.length := by
  obtain ⟨hne, hP, before, after, hsplit, hi⟩ := mem_findFrom h 0 0 none t hmem
  exact ⟨hne, hP, before, after, hsplit, by rw [hi, Nat.zero_add]⟩

/-! ### Searching -/

/-- Every match reads a character. -/
def Advances (r : Regex) : Prop := ∀ c, ∀ c' ∈ r.ends c, c'.rest.length < c.rest.length

private theorem getLast?_cons_orElse {α : Type} (x : α) (w : List α) (previous : Option α) :
    ((x :: w).getLast? <|> previous) = (w.getLast? <|> some x) := by
  cases w with
  | nil => rfl
  | cons y w =>
    rw [List.getLast?_cons_cons, List.getLast?_eq_some_getLast (List.cons_ne_nil y w)]
    rfl

private theorem findFrom_ne_nil {r : Regex} (h : r.Advances) (position : ℕ) (previous : Option Char) (t : List Char) :
    r.findFrom 0 position previous t ≠ [] ↔
      ∃ before after, t = before ++ after ∧ r.ends ⟨before.getLast? <|> previous, after⟩ ≠ [] := by
  induction t generalizing position previous with
  | nil =>
    simp only [findFrom, ne_eq, not_true_eq_false, false_iff]
    rintro ⟨before, after, hsplit, hends⟩
    obtain ⟨rfl, rfl⟩ := List.append_eq_nil_iff.1 hsplit.symm
    obtain ⟨c', rest, hc'⟩ := List.exists_cons_of_ne_nil hends
    have := h ⟨[].getLast? <|> previous, []⟩ c' (by rw [hc']; simp)
    simp at this
  | cons x t ih =>
    by_cases hends : r.ends ⟨previous, x :: t⟩ = []
    · have hlength : r.matchLength ⟨previous, x :: t⟩ = none := by rw [matchLength, hends]; rfl
      rw [findFrom, hlength]
      refine (ih (position + 1) (some x)).trans ⟨?_, ?_⟩
      · rintro ⟨before, after, rfl, hmatch⟩
        refine ⟨x :: before, after, rfl, ?_⟩
        rw [getLast?_cons_orElse]
        exact hmatch
      · rintro ⟨before, after, hsplit, hmatch⟩
        cases before with
        | nil =>
          cases hsplit
          exact absurd hends hmatch
        | cons y before =>
          obtain ⟨rfl, rfl⟩ := List.cons.inj hsplit
          refine ⟨before, after, rfl, ?_⟩
          rw [getLast?_cons_orElse] at hmatch
          exact hmatch
    · obtain ⟨c', rest, hc'⟩ := List.exists_cons_of_ne_nil hends
      have hless : c'.rest.length < (x :: t).length := h ⟨previous, x :: t⟩ c' (by rw [hc']; simp)
      have hlength : r.matchLength ⟨previous, x :: t⟩ = some ((x :: t).length - c'.rest.length - 1 + 1) := by
        rw [matchLength, hc']
        show some ((x :: t).length - c'.rest.length) = _
        congr 1
        omega
      rw [findFrom, hlength]
      refine ⟨fun _ => ⟨[], x :: t, rfl, hends⟩, fun _ => List.cons_ne_nil _ _⟩

/-- A search succeeds when there is a match somewhere in the text. -/
theorem occursIn_iff {r : Regex} (h : r.Advances) {t : List Char} :
    r.occursIn t = true ↔ ∃ before after, t = before ++ after ∧ ∃ c', c' ∈ r.ends ⟨before.getLast?, after⟩ := by
  have hsearch := findFrom_ne_nil h 0 none t
  simp only [Option.orElse_eq_orElse, Option.orElse_eq_or, Option.or_none] at hsearch
  rw [occursIn, Bool.not_eq_true', List.isEmpty_eq_false_iff]
  refine hsearch.trans (exists_congr fun before => exists_congr fun after => and_congr_right fun _ => ?_)
  exact ⟨List.exists_mem_of_ne_nil _, fun ⟨_, hc'⟩ => List.ne_nil_of_mem hc'⟩

theorem mem_ends_char {accepts : Char → Bool} {c c' : Cursor} :
    c' ∈ (char accepts).ends c ↔ ∃ x, c.rest = x :: c'.rest ∧ accepts x = true ∧ c'.previous = some x := by
  unfold ends
  cases hrest : c.rest with
  | nil => simp
  | cons x rest =>
    by_cases hx : accepts x = true
    · simp only [hx, ↓reduceIte, List.mem_singleton]
      constructor
      · rintro rfl
        exact ⟨x, rfl, hx, rfl⟩
      · rintro ⟨y, hy, -, hprevious⟩
        obtain ⟨rfl, hrest'⟩ := List.cons.inj hy
        cases c'
        simp_all
    · simp only [hx, Bool.false_eq_true, ↓reduceIte, List.not_mem_nil, false_iff]
      rintro ⟨y, hy, hy', -⟩
      exact hx ((List.cons.inj hy).1 ▸ hy')

theorem mem_ends_seq {first second : Regex} {c c' : Cursor} :
    c' ∈ (seq first second).ends c ↔ ∃ c₁ ∈ first.ends c, c' ∈ second.ends c₁ := by
  rw [ends, List.mem_flatMap]

theorem mem_ends_alt {first second : Regex} {c c' : Cursor} :
    c' ∈ (alt first second).ends c ↔ c' ∈ first.ends c ∨ c' ∈ second.ends c := by
  rw [ends, List.mem_append]

theorem mem_ends_opt {body : Regex} {c c' : Cursor} : c' ∈ (opt body).ends c ↔ c' ∈ body.ends c ∨ c' = c := by
  rw [ends, List.mem_append, List.mem_singleton]

theorem mem_ends_notBehind {accepts : Char → Bool} {c c' : Cursor} :
    c' ∈ (notBehind accepts).ends c ↔ c.previous.any accepts = false ∧ c' = c := by
  rw [ends]
  by_cases h : c.previous.any accepts = true <;> simp [h]

private theorem mem_starEnds_char {accepts : Char → Bool} {c' : Cursor} (fuel : ℕ) (c : Cursor)
    (hfuel : c.rest.length ≤ fuel) : c' ∈ starEnds (char accepts).ends fuel c ↔
      ∃ w, c.rest = w ++ c'.rest ∧ (∀ x ∈ w, accepts x = true) ∧ c'.previous = (w.getLast? <|> c.previous) := by
  induction fuel generalizing c with
  | zero =>
    have hnil : c.rest = [] := List.length_eq_zero_iff.1 (by omega)
    rw [starEnds, List.mem_singleton]
    constructor
    · rintro rfl
      exact ⟨[], rfl, by simp, rfl⟩
    · rintro ⟨w, hw, -, hprevious⟩
      obtain ⟨rfl, hrest⟩ := List.append_eq_nil_iff.1 (hw.symm.trans hnil)
      cases c
      cases c'
      simp_all
  | succ fuel ih =>
    rw [starEnds, List.mem_append, List.mem_flatMap, List.mem_singleton]
    constructor
    · rintro (⟨c₁, hc₁, hc'⟩ | rfl)
      · obtain ⟨hc₁, hless⟩ := List.mem_filter.1 hc₁
        obtain ⟨x, hx, haccepts, hprevious⟩ := mem_ends_char.1 hc₁
        have hlength : c₁.rest.length ≤ fuel := by
          have := congrArg List.length hx
          rw [List.length_cons] at this
          omega
        obtain ⟨w, hw, hall, hlast⟩ := (ih c₁ hlength).1 hc'
        refine ⟨x :: w, by rw [hx, hw]; rfl, ?_, ?_⟩
        · intro y hy
          rcases List.mem_cons.1 hy with rfl | hy
          · exact haccepts
          · exact hall y hy
        · rw [hlast, hprevious, getLast?_cons_orElse]
      · exact ⟨[], rfl, by simp, rfl⟩
    · rintro ⟨w, hw, hall, hlast⟩
      cases w with
      | nil =>
        right
        cases c
        cases c'
        simp_all
      | cons x w =>
        left
        have hc₁ : (⟨some x, w ++ c'.rest⟩ : Cursor) ∈ (char accepts).ends c :=
          mem_ends_char.2 ⟨x, hw, hall x (by simp), rfl⟩
        refine ⟨⟨some x, w ++ c'.rest⟩, List.mem_filter.2 ⟨hc₁, decide_eq_true ?_⟩, ?_⟩
        · rw [hw]
          simp
        · refine (ih _ ?_).2 ⟨w, rfl, fun y hy => hall y (by simp [hy]), ?_⟩
          · have := congrArg List.length hw
            rw [List.cons_append, List.length_cons] at this
            show (w ++ c'.rest).length ≤ fuel
            omega
          · rw [hlast, getLast?_cons_orElse]

theorem mem_ends_star_char {accepts : Char → Bool} {c c' : Cursor} : c' ∈ (star (char accepts)).ends c ↔
    ∃ w, c.rest = w ++ c'.rest ∧ (∀ x ∈ w, accepts x = true) ∧ c'.previous = (w.getLast? <|> c.previous) := by
  rw [ends]
  exact mem_starEnds_char _ c (Nat.le_refl _)

private theorem onlyReads_any (r : Regex) : r.OnlyReads fun _ => True := by
  induction r with
  | char accepts => exact fun _ _ => trivial
  | seq first second ih₁ ih₂ => exact ⟨ih₁, ih₂⟩
  | alt first second ih₁ ih₂ => exact ⟨ih₁, ih₂⟩
  | opt body ih => exact ih
  | star body ih => exact ih
  | ahead body _ => trivial
  | notAhead body _ => trivial
  | notBehind accepts => trivial

/-- An expression that starts with a character advances. -/
theorem advances_seq_char (accepts : Char → Bool) (r : Regex) : (seq (char accepts) r).Advances := by
  intro c c' hc'
  obtain ⟨c₁, hc₁, hc'⟩ := mem_ends_seq.1 hc'
  obtain ⟨x, hx, -, -⟩ := mem_ends_char.1 hc₁
  obtain ⟨w, hw, -⟩ := reads_of_mem_ends (onlyReads_any r) c₁ c' hc'
  rw [hx, hw]
  simp only [List.length_cons, List.length_append]
  omega

theorem Advances.notBehind {r : Regex} (h : r.Advances) (accepts : Char → Bool) :
    (seq (Regex.notBehind accepts) r).Advances := by
  intro c c' hc'
  obtain ⟨c₁, hc₁, hr⟩ := mem_ends_seq.1 hc'
  obtain ⟨-, rfl⟩ := mem_ends_notBehind.1 hc₁
  exact h _ c' hr

/-! ### Matching at a place -/

/-- There is a match at a place. -/
def Matches (r : Regex) (c : Cursor) : Prop := ∃ c', c' ∈ r.ends c

theorem occursIn_iff_matches {r : Regex} (h : r.Advances) {t : List Char} :
    r.occursIn t = true ↔ ∃ before after, t = before ++ after ∧ r.Matches ⟨before.getLast?, after⟩ := occursIn_iff h

section Matches

variable {accepts : Char → Bool} {first second r : Regex} {c : Cursor}

theorem matches_char : (char accepts).Matches c ↔ ∃ x rest, c.rest = x :: rest ∧ accepts x = true := by
  constructor
  · rintro ⟨c', hc'⟩
    obtain ⟨x, hx, haccepts, -⟩ := mem_ends_char.1 hc'
    exact ⟨x, _, hx, haccepts⟩
  · rintro ⟨x, rest, hx, haccepts⟩
    exact ⟨⟨some x, rest⟩, mem_ends_char.2 ⟨x, hx, haccepts, rfl⟩⟩

theorem matches_seq : (seq first r).Matches c ↔ ∃ c₁ ∈ first.ends c, r.Matches c₁ := by
  constructor
  · rintro ⟨c', hc'⟩
    obtain ⟨c₁, hc₁, hr⟩ := mem_ends_seq.1 hc'
    exact ⟨c₁, hc₁, c', hr⟩
  · rintro ⟨c₁, hc₁, c', hr⟩
    exact ⟨c', mem_ends_seq.2 ⟨c₁, hc₁, hr⟩⟩

theorem matches_seq_char : (seq (char accepts) r).Matches c ↔
    ∃ x rest, c.rest = x :: rest ∧ accepts x = true ∧ r.Matches ⟨some x, rest⟩ := by
  rw [matches_seq]
  constructor
  · rintro ⟨⟨previous, rest⟩, hc₁, hr⟩
    obtain ⟨x, hx, haccepts, rfl⟩ := mem_ends_char.1 hc₁
    exact ⟨x, rest, hx, haccepts, hr⟩
  · rintro ⟨x, rest, hx, haccepts, hr⟩
    exact ⟨_, mem_ends_char.2 ⟨x, hx, haccepts, rfl⟩, hr⟩

theorem matches_seq_star : (seq (star (char accepts)) r).Matches c ↔
    ∃ w rest, c.rest = w ++ rest ∧ (∀ x ∈ w, accepts x = true) ∧ r.Matches ⟨w.getLast? <|> c.previous, rest⟩ := by
  rw [matches_seq]
  constructor
  · rintro ⟨⟨previous, rest⟩, hc₁, hr⟩
    obtain ⟨w, hw, haccepts, hprevious⟩ := mem_ends_star_char.1 hc₁
    exact ⟨w, rest, hw, haccepts, hprevious ▸ hr⟩
  · rintro ⟨w, rest, hw, haccepts, hr⟩
    exact ⟨⟨_, rest⟩, mem_ends_star_char.2 ⟨w, hw, haccepts, rfl⟩, hr⟩

theorem matches_seq_seq : (seq (seq first second) r).Matches c ↔ (seq first (seq second r)).Matches c := by
  simp only [matches_seq, mem_ends_seq]
  constructor
  · rintro ⟨c₁, ⟨c₂, hc₂, hc₁⟩, hr⟩
    exact ⟨c₂, hc₂, c₁, hc₁, hr⟩
  · rintro ⟨c₂, hc₂, c₁, hc₁, hr⟩
    exact ⟨c₁, ⟨c₂, hc₂, hc₁⟩, hr⟩

theorem matches_seq_alt : (seq (alt first second) r).Matches c ↔ (seq first r).Matches c ∨ (seq second r).Matches c := by
  simp only [matches_seq, mem_ends_alt, or_and_right, exists_or]

theorem matches_seq_opt : (seq (opt first) r).Matches c ↔ (seq first r).Matches c ∨ r.Matches c := by
  simp only [matches_seq, mem_ends_opt, or_and_right, exists_or, exists_eq_left]

theorem matches_seq_notBehind :
    (seq (notBehind accepts) r).Matches c ↔ c.previous.any accepts = false ∧ r.Matches c := by
  rw [matches_seq]
  constructor
  · rintro ⟨c₁, hc₁, hr⟩
    obtain ⟨hprevious, rfl⟩ := mem_ends_notBehind.1 hc₁
    exact ⟨hprevious, hr⟩
  · rintro ⟨hprevious, hr⟩
    exact ⟨c, mem_ends_notBehind.2 ⟨hprevious, rfl⟩, hr⟩

end Matches

section Combinators

variable {body last : Regex}

theorem OnlyReads.plus (h : body.OnlyReads P) : (plus body).OnlyReads P := ⟨h, h⟩

theorem OnlyReads.sequence (hlast : last.OnlyReads P) {rs : List Regex} (h : ∀ r ∈ rs, r.OnlyReads P) :
    (sequence last rs).OnlyReads P := by
  induction rs with
  | nil => exact hlast
  | cons r rs ih => exact ⟨h r (by simp), ih fun r hr => h r (by simp [hr])⟩

theorem OnlyReads.repeated (h : body.OnlyReads P) (hlast : last.OnlyReads P) (least more : ℕ) :
    (repeated body least more last).OnlyReads P := by
  have hupTo : ∀ n, (upTo body last n).OnlyReads P := by
    intro n
    induction n with
    | zero => exact hlast
    | succ n ih => exact ⟨⟨h, ih⟩, hlast⟩
  exact OnlyReads.sequence (hupTo more) fun r hr => List.eq_of_mem_replicate hr ▸ h

end Combinators

end Regex

end ArdOssie
