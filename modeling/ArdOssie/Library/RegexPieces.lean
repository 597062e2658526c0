import ArdOssie.Library.Regex

/-!
# The text between the matches

A text is the text before its first match and then, for every match, the match and the text up to the next one.
-/

namespace ArdOssie

namespace Regex

/-- The text before the first match, and every match with the text up to the next one, for an expression without an
empty match; the first `skip` characters belong to a match that was already found. -/
def piecesFrom (r : Regex) : ℕ → Option Char → List Char → List Char × List (List Char × List Char)
  | _, _, [] => ([], [])
  | skip + 1, _, x :: rest => piecesFrom r skip (some x) rest
  | 0, previous, x :: rest =>
    match r.matchLength ⟨previous, x :: rest⟩ with
    | some (n + 1) =>
      ([], ((x :: rest).take (n + 1), (piecesFrom r n (some x) rest).1) :: (piecesFrom r n (some x) rest).2)
    | _ => (x :: (piecesFrom r 0 (some x) rest).1, (piecesFrom r 0 (some x) rest).2)

/-- `finditer`, each match with the text up to the next match. -/
def pieces (r : Regex) (t : List Char) : List (List Char × List Char) := (r.piecesFrom 0 none t).2

variable {r : Regex}

private theorem getLast?_cons_or {α : Type} (x : α) (w : List α) (previous : Option α) :
    ((x :: w).getLast?.or previous) = (w.getLast?.or (some x)) := by
  cases w with
  | nil => rfl
  | cons y w =>
    rw [List.getLast?_cons_cons, List.getLast?_eq_some_getLast (List.cons_ne_nil y w)]
    rfl

/-- The rest of a match is no text between matches. -/
theorem piecesFrom_skip (w t : List Char) (previous : Option Char) :
    r.piecesFrom w.length previous (w ++ t) = r.piecesFrom 0 (w.getLast?.or previous) t := by
  induction w generalizing previous with
  | nil => rfl
  | cons x w ih => rw [List.length_cons, List.cons_append, piecesFrom, ih, getLast?_cons_or]

/-- A match at the beginning. -/
theorem piecesFrom_of_match {w t : List Char} {previous : Option Char} (hw : w ≠ [])
    (h : r.matchLength ⟨previous, w ++ t⟩ = some w.length) :
    r.piecesFrom 0 previous (w ++ t) =
      ([], (w, (r.piecesFrom 0 (w.getLast?.or previous) t).1) :: (r.piecesFrom 0 (w.getLast?.or previous) t).2) := by
  obtain ⟨x, w, rfl⟩ := List.exists_cons_of_ne_nil hw
  rw [List.cons_append, List.length_cons] at h
  have htake : (x :: (w ++ t)).take (w.length + 1) = x :: w := by simp
  rw [List.cons_append, piecesFrom, h]
  dsimp only
  rw [piecesFrom_skip, getLast?_cons_or, htake]

/-- A text in which no match starts. -/
theorem piecesFrom_append_of_free {before t : List Char} {previous : Option Char}
    (h : ∀ a b, before = a ++ b → b ≠ [] → ¬ r.Matches ⟨a.getLast?.or previous, b ++ t⟩) :
    r.piecesFrom 0 previous (before ++ t) =
      (before ++ (r.piecesFrom 0 (before.getLast?.or previous) t).1,
        (r.piecesFrom 0 (before.getLast?.or previous) t).2) := by
  induction before generalizing previous with
  | nil => rfl
  | cons x before ih =>
    have hnone : r.matchLength ⟨previous, x :: (before ++ t)⟩ = none := by
      have hends : r.ends ⟨previous, x :: (before ++ t)⟩ = [] := by
        by_contra hne
        obtain ⟨c', hc'⟩ := List.exists_mem_of_ne_nil _ hne
        exact h [] (x :: before) rfl (List.cons_ne_nil _ _) ⟨c', hc'⟩
      rw [matchLength, hends]
      rfl
    have hrest := @ih (some x) fun a b hsplit hb => by
      have := h (x :: a) b (by rw [hsplit]; rfl) hb
      rwa [getLast?_cons_or] at this
    rw [List.cons_append, piecesFrom, hnone]
    dsimp only
    rw [hrest, getLast?_cons_or, List.cons_append]

/-- No text is before a match at the beginning. -/
theorem piecesFrom_fst_of_matches (hr : r.Advances) {t : List Char} {previous : Option Char}
    (h : r.Matches ⟨previous, t⟩) : (r.piecesFrom 0 previous t).1 = [] := by
  obtain ⟨c', hc'⟩ := h
  obtain ⟨first, l, hl⟩ := List.exists_cons_of_ne_nil (List.ne_nil_of_mem hc')
  have hless : first.rest.length < t.length := hr ⟨previous, t⟩ first (by rw [hl]; exact List.mem_cons_self ..)
  cases t with
  | nil => cases hless
  | cons x t =>
    have hlength : r.matchLength ⟨previous, x :: t⟩ = some ((x :: t).length - first.rest.length - 1 + 1) := by
      rw [matchLength, hl]
      show some ((x :: t).length - first.rest.length) = _
      congr 1
      omega
    rw [piecesFrom, hlength]

/-- In a text, no match starts or there is a first one. -/
theorem free_or_first (before t : List Char) (previous : Option Char) :
    (∀ a b, before = a ++ b → b ≠ [] → ¬ r.Matches ⟨a.getLast?.or previous, b ++ t⟩) ∨
      ∃ a b, before = a ++ b ∧ b ≠ [] ∧ r.Matches ⟨a.getLast?.or previous, b ++ t⟩ ∧
        ∀ a₁ a₂, a = a₁ ++ a₂ → a₂ ≠ [] → ¬ r.Matches ⟨a₁.getLast?.or previous, a₂ ++ (b ++ t)⟩ := by
  induction before generalizing previous with
  | nil =>
    left
    intro a b hsplit hb
    exact absurd (List.append_eq_nil_iff.1 hsplit.symm).2 hb
  | cons x before ih =>
    by_cases hmatch : r.Matches ⟨previous, x :: (before ++ t)⟩
    · refine Or.inr ⟨[], x :: before, rfl, List.cons_ne_nil _ _, hmatch, fun a₁ a₂ hsplit ha₂ => ?_⟩
      exact absurd (List.append_eq_nil_iff.1 hsplit.symm).2 ha₂
    · rcases ih (some x) with hfree | ⟨a, b, rfl, hb, hfirst, hfree⟩
      · left
        intro a b hsplit hb
        cases a with
        | nil =>
          rw [← show x :: before = b from hsplit]
          exact hmatch
        | cons y a =>
          obtain ⟨rfl, rfl⟩ := List.cons.inj hsplit
          rw [getLast?_cons_or]
          exact hfree a b rfl hb
      · refine Or.inr ⟨x :: a, b, rfl, hb, by rwa [getLast?_cons_or], fun a₁ a₂ hsplit ha₂ => ?_⟩
        cases a₁ with
        | nil =>
          rw [← show x :: a = a₂ from hsplit]
          rw [List.append_assoc] at hmatch
          exact hmatch
        | cons y a₁ =>
          obtain ⟨rfl, rfl⟩ := List.cons.inj hsplit
          rw [getLast?_cons_or]
          exact hfree a₁ a₂ rfl ha₂

/-! ### The preferred match -/

private theorem head?_flatMap_append {α β : Type} {f : α → List β} {a : α} {l : List α} (h : f a ≠ []) :
    ((a :: l).flatMap f).head? = (f a).head? := by
  rw [List.flatMap_cons, List.head?_append]
  obtain ⟨b, l', hb⟩ := List.exists_cons_of_ne_nil h
  rw [hb]
  rfl

private theorem starEnds_char {accepts : Char → Bool} {g rest : List Char} (hg : ∀ x ∈ g, accepts x = true)
    (hrest : ∀ x ∈ rest.head?, accepts x = false) (fuel : ℕ) (previous : Option Char) (hfuel : g.length ≤ fuel) :
    (starEnds (char accepts).ends fuel ⟨previous, g ++ rest⟩).head? = some ⟨g.getLast?.or previous, rest⟩ := by
  induction fuel generalizing g previous with
  | zero =>
    cases List.length_eq_zero_iff.1 (Nat.le_zero.1 hfuel)
    rfl
  | succ fuel ih =>
    cases g with
    | nil =>
      have hnone : (char accepts).ends ⟨previous, [] ++ rest⟩ = [] := by
        cases rest with
        | nil => rfl
        | cons x rest =>
          have hx : accepts x = false := hrest x rfl
          show (if accepts x then _ else _) = _
          rw [hx]
          rfl
      rw [starEnds, hnone]
      rfl
    | cons x g =>
      obtain ⟨hx, hg⟩ := List.forall_mem_cons.1 hg
      have hone : (char accepts).ends ⟨previous, x :: g ++ rest⟩ = [⟨some x, g ++ rest⟩] := by
        show (if accepts x then _ else _) = _
        rw [hx]
        rfl
      have hlength : g.length ≤ fuel := by
        rw [List.length_cons] at hfuel
        omega
      have hhead := @ih g hg (some x) hlength
      rw [starEnds, hone]
      have hfilter : [(⟨some x, g ++ rest⟩ : Cursor)].filter
          (fun c' => c'.rest.length < (⟨previous, x :: g ++ rest⟩ : Cursor).rest.length) = [⟨some x, g ++ rest⟩] := by
        simp
      rw [hfilter, List.flatMap_singleton, List.head?_append, hhead, getLast?_cons_or]
      rfl

/-- A greedy repetition takes the longest text when the rest matches behind it. -/
theorem head?_ends_seq_star {accepts : Char → Bool} {g rest : List Char} (hg : ∀ x ∈ g, accepts x = true)
    (hrest : ∀ x ∈ rest.head?, accepts x = false) {previous : Option Char}
    (hr : r.Matches ⟨g.getLast?.or previous, rest⟩) :
    ((seq (star (char accepts)) r).ends ⟨previous, g ++ rest⟩).head? =
      (r.ends ⟨g.getLast?.or previous, rest⟩).head? := by
  have hhead := starEnds_char hg hrest (g ++ rest).length previous (by simp)
  obtain ⟨l, hl⟩ := List.head?_eq_some_iff.1 hhead
  obtain ⟨c', hc'⟩ := hr
  show (((starEnds (char accepts).ends (g ++ rest).length ⟨previous, g ++ rest⟩).flatMap r.ends).head?) = _
  rw [hl, head?_flatMap_append (List.ne_nil_of_mem hc')]

/-- A single character in front. -/
theorem ends_seq_char {accepts : Char → Bool} {previous : Option Char} {x : Char} {rest : List Char}
    (hx : accepts x = true) : (seq (char accepts) r).ends ⟨previous, x :: rest⟩ = r.ends ⟨some x, rest⟩ := by
  show ((if accepts x then [(⟨some x, rest⟩ : Cursor)] else []).flatMap r.ends) = _
  rw [if_pos hx, List.flatMap_singleton]

theorem ends_seq_notBehind {accepts : Char → Bool} {previous : Option Char} {t : List Char}
    (h : previous.any accepts = false) :
    (seq (notBehind accepts) r).ends ⟨previous, t⟩ = r.ends ⟨previous, t⟩ := by
  show ((if previous.any accepts then [] else [(⟨previous, t⟩ : Cursor)]).flatMap r.ends) = _
  rw [h]
  exact List.flatMap_singleton ..

end Regex

end ArdOssie
