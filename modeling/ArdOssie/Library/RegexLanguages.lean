import ArdOssie.Library.Regex

/-!
# The language of an expression

For expressions without lookaround whose repetitions are of single characters, a search succeeds exactly when a part of
the text is in the language of the expression.
-/

namespace ArdOssie

namespace Regex

/-- No lookaround, and only single characters are repeated. -/
def Simple : Regex → Prop
  | char _ => True
  | seq first second => first.Simple ∧ second.Simple
  | alt first second => first.Simple ∧ second.Simple
  | opt body => body.Simple
  | star (char _) => True
  | _ => False

/-- The texts that the expression reads. -/
def Accepts : Regex → List Char → Prop
  | char accepts, w => ∃ x, w = [x] ∧ accepts x = true
  | seq first second, w => ∃ u v, w = u ++ v ∧ first.Accepts u ∧ second.Accepts v
  | alt first second, w => first.Accepts w ∨ second.Accepts w
  | opt body, w => body.Accepts w ∨ w = []
  | star (char accepts), w => ∀ x ∈ w, accepts x = true
  | _, _ => False

private theorem getLast?_append_orElse {α : Type} (u v : List α) (previous : Option α) :
    (v.getLast? <|> (u.getLast? <|> previous)) = ((u ++ v).getLast? <|> previous) := by
  rw [List.getLast?_append]
  cases v.getLast? <;> rfl

/-- A match ends behind a text of the language. -/
theorem mem_ends_iff_accepts {r : Regex} (hr : r.Simple) {c c' : Cursor} : c' ∈ r.ends c ↔
    ∃ w, c.rest = w ++ c'.rest ∧ r.Accepts w ∧ c'.previous = (w.getLast? <|> c.previous) := by
  induction r generalizing c c' with
  | char accepts =>
    rw [mem_ends_char]
    constructor
    · rintro ⟨x, hx, haccepts, hprevious⟩
      exact ⟨[x], hx, ⟨x, rfl, haccepts⟩, hprevious⟩
    · rintro ⟨_, hw, ⟨x, rfl, haccepts⟩, hprevious⟩
      exact ⟨x, hw, haccepts, hprevious⟩
  | seq first second ih₁ ih₂ =>
    rw [mem_ends_seq]
    constructor
    · rintro ⟨c₁, hc₁, hc'⟩
      obtain ⟨u, hu, haccepts, hprevious⟩ := (ih₁ hr.1).1 hc₁
      obtain ⟨v, hv, haccepts', hprevious'⟩ := (ih₂ hr.2).1 hc'
      refine ⟨u ++ v, by rw [hu, hv, List.append_assoc], ⟨u, v, rfl, haccepts, haccepts'⟩, ?_⟩
      rw [hprevious', hprevious, getLast?_append_orElse]
    · rintro ⟨_, hw, ⟨u, v, rfl, haccepts, haccepts'⟩, hprevious⟩
      rw [List.append_assoc] at hw
      refine ⟨⟨u.getLast? <|> c.previous, v ++ c'.rest⟩, (ih₁ hr.1).2 ⟨u, hw, haccepts, rfl⟩,
        (ih₂ hr.2).2 ⟨v, rfl, haccepts', ?_⟩⟩
      rw [hprevious, getLast?_append_orElse]
  | alt first second ih₁ ih₂ =>
    rw [mem_ends_alt, ih₁ hr.1, ih₂ hr.2, ← exists_or]
    refine exists_congr fun w => ?_
    rw [← and_or_left, ← or_and_right]
    rfl
  | opt body ih =>
    rw [mem_ends_opt, ih hr]
    constructor
    · rintro (⟨w, hw, haccepts, hprevious⟩ | rfl)
      · exact ⟨w, hw, Or.inl haccepts, hprevious⟩
      · exact ⟨[], rfl, Or.inr rfl, rfl⟩
    · rintro ⟨w, hw, haccepts | rfl, hprevious⟩
      · exact Or.inl ⟨w, hw, haccepts, hprevious⟩
      · right
        cases c
        cases c'
        simp_all
  | star body _ =>
    cases body with
    | char accepts => exact mem_ends_star_char
    | _ => exact hr.elim
  | _ => exact hr.elim

/-- A search for an expression that reads something succeeds when a part of the text is in its language. -/
theorem occursIn_iff_accepts {r : Regex} (hr : r.Simple) (hnil : ¬ r.Accepts []) {t : List Char} :
    r.occursIn t = true ↔ ∃ w, w <:+: t ∧ r.Accepts w := by
  have hadvances : r.Advances := by
    intro c c' hc'
    obtain ⟨w, hw, haccepts, -⟩ := (mem_ends_iff_accepts hr).1 hc'
    have hne : w ≠ [] := fun h => hnil (h ▸ haccepts)
    have hpos := List.length_pos_iff.2 hne
    rw [hw, List.length_append]
    omega
  rw [occursIn_iff hadvances]
  constructor
  · rintro ⟨before, after, rfl, c', hc'⟩
    obtain ⟨w, hw, haccepts, -⟩ := (mem_ends_iff_accepts hr).1 hc'
    have hafter : after = w ++ c'.rest := hw
    exact ⟨w, ⟨before, c'.rest, by rw [hafter, List.append_assoc]⟩, haccepts⟩
  · rintro ⟨w, ⟨before, after, rfl⟩, haccepts⟩
    exact ⟨before, w ++ after, List.append_assoc .., ⟨w.getLast? <|> before.getLast?, after⟩,
      (mem_ends_iff_accepts hr).2 ⟨w, rfl, haccepts, rfl⟩⟩

theorem simple_sequence {last : Regex} {rs : List Regex} (hlast : last.Simple) (hrs : ∀ r ∈ rs, r.Simple) :
    (sequence last rs).Simple := by
  induction rs with
  | nil => exact hlast
  | cons r rs ih =>
    obtain ⟨hr, hrs⟩ := List.forall_mem_cons.1 hrs
    exact ⟨hr, ih hrs⟩

theorem simple_upTo {body last : Regex} (hbody : body.Simple) (hlast : last.Simple) (n : ℕ) :
    (upTo body last n).Simple := by
  induction n with
  | zero => exact hlast
  | succ n ih => exact ⟨⟨hbody, ih⟩, hlast⟩

theorem simple_repeated {body last : Regex} (hbody : body.Simple) (hlast : last.Simple) (least more : ℕ) :
    (repeated body least more last).Simple := by
  refine simple_sequence (simple_upTo hbody hlast more) fun r hr => ?_
  rw [List.eq_of_mem_replicate hr]
  exact hbody

/-! ### Lengths -/

/-- The greatest length of the texts of an expression without an unbounded repetition. -/
def maxLength : Regex → Option ℕ
  | char _ => some 1
  | seq first second => do return (← first.maxLength) + (← second.maxLength)
  | alt first second => do return max (← first.maxLength) (← second.maxLength)
  | opt body => body.maxLength
  | _ => none

theorem length_le_of_accepts {r : Regex} {n : ℕ} (hn : r.maxLength = some n) {w : List Char} (h : r.Accepts w) :
    w.length ≤ n := by
  induction r generalizing n w with
  | char accepts =>
    obtain ⟨x, rfl, -⟩ := h
    cases hn
    exact Nat.le_refl 1
  | seq first second ih₁ ih₂ =>
    obtain ⟨u, v, rfl, hu, hv⟩ := h
    simp only [maxLength, Option.bind_eq_bind, Option.bind_eq_some_iff, Option.pure_def, Option.some_inj] at hn
    obtain ⟨n₁, hn₁, n₂, hn₂, rfl⟩ := hn
    rw [List.length_append]
    exact Nat.add_le_add (ih₁ hn₁ hu) (ih₂ hn₂ hv)
  | alt first second ih₁ ih₂ =>
    simp only [maxLength, Option.bind_eq_bind, Option.bind_eq_some_iff, Option.pure_def, Option.some_inj] at hn
    obtain ⟨n₁, hn₁, n₂, hn₂, rfl⟩ := hn
    rcases h with h | h
    · exact Nat.le_trans (ih₁ hn₁ h) (Nat.le_max_left _ _)
    · exact Nat.le_trans (ih₂ hn₂ h) (Nat.le_max_right _ _)
  | opt body ih =>
    rcases h with h | rfl
    · exact ih hn h
    · exact Nat.zero_le _
  | _ => cases hn

/-- Characters before an unbounded end are read one each. -/
theorem accepts_sequence_chars {last : Regex} {accepted : List (Char → Bool)} {w : List Char} :
    (sequence last (accepted.map char)).Accepts w ↔
      ∃ u v, w = u ++ v ∧ List.Forall₂ (fun accepts x => accepts x = true) accepted u ∧ last.Accepts v := by
  induction accepted generalizing w with
  | nil =>
    constructor
    · exact fun h => ⟨[], w, rfl, .nil, h⟩
    · rintro ⟨_, v, rfl, ⟨⟩, h⟩
      exact h
  | cons accepts accepted ih =>
    constructor
    · rintro ⟨_, t, rfl, ⟨x, rfl, hx⟩, ht⟩
      obtain ⟨u, v, rfl, hu, hv⟩ := ih.1 ht
      exact ⟨x :: u, v, rfl, .cons hx hu, hv⟩
    · rintro ⟨_, v, rfl, hu, hv⟩
      cases hu with
      | @cons _ x _ u hx hu => exact ⟨[x], u ++ v, rfl, ⟨x, rfl, hx⟩, ih.2 ⟨u, v, rfl, hu, hv⟩⟩

end Regex

end ArdOssie
